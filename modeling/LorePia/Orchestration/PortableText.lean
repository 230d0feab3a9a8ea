import LorePia.Base.Bytes
import LorePia.Base.Decimal
import LorePia.Base.Passes
import LorePia.Base.Search
import LorePia.Orchestration.Package

/-!
# Portable text macros (`crates/orchestration/src/portable_text.rs`)

`render_portable_text` expands the blocks and the macros of a text in rounds over the whole text. A text is
scanned by its bytes and cut at byte offsets, so every function that cuts one is an `Option` whose `none` is
the panic of a cut off a character boundary; where the source returns an `Option`, it is the inner one. The
loop of `evaluate_when_expression` runs on a fuel, as does the loop of `flat_tokens`; a `none` is also a fuel
that does not suffice.
-/

namespace LorePia

namespace PortableText

open Base

def maxRenderPasses : Nat := 256
def maxRenderChars : Nat := 262144

/-- `"{{"`. -/
def openBraces : String := "\x7b\x7b"

/-- `"}}"`. -/
def closeBraces : String := "\x7d\x7d"

/-- The functions that a rendering calls. -/
structure Library where
  /-- `Sha256::digest`. -/
  sha256 : List UInt8 → Vector UInt8 32
  /-- `f64::to_string`. -/
  displayF64 : F64 → String
  /-- `text.parse::<f64>()`. -/
  parseF64 : String → Option F64

def replacementWouldExceed (source : String) (start stop : Nat) (replacement : String) : Option Bool := do
  let before ← sliceBytes source 0 start
  let after ← sliceBytesFrom source stop
  return decide (before.length + replacement.length + after.length > maxRenderChars)

/-! ## Tokens -/

def isBlockToken (token : String) : Bool :=
  let token := trim token
  beginsWith token "#" || beginsWith token "/" || token = "else"

/-- The names that `token_is_known` matches. -/
def knownNames : List String :=
  ["user", "char", "character", "date", "time", "getvar", "getglobalvar", "equal", "notequal", "greater",
    "greater_equal", "greaterequal", "less", "less_equal", "lessequal", "and", "or", "all", "any", "not",
    "contains", "startswith", "roll", "pick", "lastcharmessage", "lastmessageid", "chat_index", "raw", "slot",
    "?"]

/-- `text.trim_start()`. -/
def trimStart (text : String) : String := String.ofList (text.toList.dropWhile isWhitespace)

def tokenIsKnown (token : String) : Bool :=
  let name := match splitOnceText (trim token) "::" with
    | none => trim token
    | some (name, _) => trim name
  knownNames.contains (toAsciiLowercase name) || beginsWith (trimStart token) "? "

/-- `b'{'`. -/
def braceOpen : UInt8 := 123

/-- `b'}'`. -/
def braceClose : UInt8 := 125

/-- The loop of `next_evaluable_token` over the bytes from `cursor` on; the last item of the stack first. -/
def nextEvaluableTokenFrom (source : String) :
    List UInt8 → Nat → List Nat → Option (Option (Nat × Nat × String))
  | b :: c :: rest, cursor, stack =>
    if b = braceOpen ∧ c = braceOpen then nextEvaluableTokenFrom source rest (cursor + 2) (cursor :: stack)
    else if b = braceClose ∧ c = braceClose then
      match stack with
      | [] => nextEvaluableTokenFrom source rest (cursor + 2) []
      | start :: stack => do
        let token ← sliceBytes source (start + 2) cursor
        if isBlockToken token = false ∧ tokenIsKnown token = true then
          return some (start, cursor + 2, token)
        else nextEvaluableTokenFrom source rest (cursor + 2) stack
    else nextEvaluableTokenFrom source (c :: rest) (cursor + 1) stack
  | _, _, _ => return none

def nextEvaluableToken (source : String) : Option (Option (Nat × Nat × String)) :=
  nextEvaluableTokenFrom source (utf8Bytes source) 0 []

/-! ## Values -/

def boolText (value : Bool) : String := if value then "1" else "0"

def truthy (value : String) : Bool :=
  (["", "0", "false", "null", "none"].contains (toAsciiLowercase (trim value))) = false

def whenTruthy (value : String) : Bool := ["1", "true"].contains (trim value)

/-- `(left - right).abs() < f64::EPSILON`. The difference is rounded: one of half a unit in the last place below
`f64::EPSILON`, which is `2 ^ 1022` least subnormals, is rounded up to it. -/
def isWithinEpsilon (left right : F64) : Bool :=
  left.isFinite && right.isFinite && (left.scaled - right.scaled).natAbs < 2 ^ 1022 - 2 ^ 968

section
variable (lib : Library)

def compareValues (left right : String) : Int :=
  match lib.parseF64 (trim left), lib.parseF64 (trim right) with
  | some left, some right => if isWithinEpsilon left right then 0 else if left.lt right then -1 else 1
  | _, _ => if trim left < trim right then -1 else if trim left = trim right then 0 else 1

def formatVariable : VariableValue → String
  | .bool value => boolText value
  | .integer value => toString value
  | .decimal value => lib.displayF64 value
  | .text value | .enum value => value
  | .stringList values => ",".intercalate values

def variableValue (context : PromptResolutionContext) (requested : String) : Option String :=
  let requested := trim requested
  let aliases := [requested, (stripText requested "toggle_").getD requested]
  context.vars.values.findSome? fun binding =>
    let id := binding.var.id
    let qualified := binding.var.ns.map fun ns => ns ++ "." ++ id
    if aliases.any fun candidate => candidate = id || qualified = some candidate then
      some (formatVariable lib binding.value)
    else none

/-- The comparisons of `evaluate_arithmetic`, in the order in which they are tried. -/
def comparisonOperators : List (String × (Int → Bool)) :=
  [(">=", fun comparison => 0 ≤ comparison), ("<=", fun comparison => comparison ≤ 0),
    ("!=", fun comparison => comparison ≠ 0), ("==", fun comparison => comparison = 0),
    ("=", fun comparison => comparison = 0), (">", fun comparison => 0 < comparison),
    ("<", fun comparison => comparison < 0)]

/-- `text.parse::<i64>()`. -/
def parseI64 (text : String) : Option Int :=
  let negative := text.toList.head? = some '-'
  let digits := if negative ∨ text.toList.head? = some '+' then text.toList.tail else text.toList
  if digits = [] ∨ digits.all Char.isDigit = false then none
  else i64TryFrom (if negative then -(decimalValue digits : Int) else decimalValue digits)

/-- An `i64` operation that saturates. -/
def saturateI64 (value : Int) : Int := max i64Min (min i64Max value)

/-- The loop of `evaluate_arithmetic` over the characters from the byte `index` on. -/
def evaluateSumFrom (expression : String) : List Char → Nat → Option String
  | [], _ => return expression
  | c :: rest, index =>
    if c = '+' ∨ c = '-' then do
      let left ← sliceBytes expression 0 index
      let right ← sliceBytesFrom expression index
      let right ← sliceBytesFrom right c.utf8Size
      match parseI64 left, parseI64 right with
      | some left, some right =>
        return toString (saturateI64 (if c = '+' then left + right else left - right))
      | _, _ => evaluateSumFrom expression rest (index + c.utf8Size)
    else evaluateSumFrom expression rest (index + c.utf8Size)

def evaluateArithmetic (expression : String) : Option String :=
  let expression := String.ofList ((trim expression).toList.filter (· ≠ ' '))
  let compared := comparisonOperators.findSome? fun operator =>
    (splitOnceText expression operator.1).map fun parts =>
      boolText (operator.2 (compareValues lib parts.1 parts.2))
  match compared, expression.toList with
  | some value, _ => return value
  | none, [] => return expression
  | none, c :: rest => evaluateSumFrom expression rest c.utf8Size

def deterministicNumber (seed : Option UInt64) (source token : String) (pass : Nat) : Nat :=
  let digest := lib.sha256 (utf8Bytes "portable-character-macro-v1" ++ [0] ++
    (beBytes 8 (seed.getD 0).toNat).reverse ++ utf8Bytes source ++ [0] ++ utf8Bytes token ++
    (beBytes 8 pass).reverse)
  leNat (digest.toList.take 8)

/-- A comparison of the first two arguments. -/
def compareArgs (args : List String) (test : Int → Bool) : Option String := do
  let left ← args[0]?
  let right ← args[1]?
  return boolText (test (compareValues lib left right))

/-- A test of the first two arguments. -/
def testArgs (args : List String) (test : String → String → Bool) : String :=
  match args with
  | value :: other :: _ => boolText (test value other)
  | _ => boolText false

/-- The arms of `evaluate_token` that cut and index nothing; the outer `none` is another name. -/
def plainValue (context : PromptResolutionContext) (source : String) (pass : Nat) (token name : String)
    (args : List String) : Option (Option String) :=
  match name with
  | "user" => some (some context.userName)
  | "char" | "character" => some (some context.character.name)
  | "date" => some (some context.currentDate)
  | "time" => some (some context.currentTime)
  | "getvar" | "getglobalvar" => some (some ((args.head?.bind (variableValue lib context)).getD "0"))
  | "equal" => some (compareArgs lib args fun comparison => comparison = 0)
  | "notequal" => some (compareArgs lib args fun comparison => comparison ≠ 0)
  | "greater" => some (compareArgs lib args fun comparison => 0 < comparison)
  | "greater_equal" | "greaterequal" => some (compareArgs lib args fun comparison => 0 ≤ comparison)
  | "less" => some (compareArgs lib args fun comparison => comparison < 0)
  | "less_equal" | "lessequal" => some (compareArgs lib args fun comparison => comparison ≤ 0)
  | "and" | "all" => some (some (boolText (args.all truthy)))
  | "or" | "any" => some (some (boolText (args.any truthy)))
  | "not" => some (some (boolText !(args.head?.any truthy)))
  | "contains" => some (some (testArgs args containsText))
  | "startswith" => some (some (testArgs args beginsWith))
  | "roll" => some do
    let sides ← parseU64 (← args.head?).toList
    return toString (deterministicNumber lib context.sessionSeed source token pass % max sides 1 + 1)
  | "lastcharmessage" =>
    some (some (((context.messages.reverse.find? fun message => message.role = .assistant).map
      (·.content)).getD ""))
  | "lastmessageid" | "chat_index" => some (some (toString (context.messages.length - 1)))
  | "raw" => some (some (args.head?.getD ""))
  | "slot" =>
    some (some (((args.head?.bind fun name => context.slots.find? fun slot => slot.name = name).map
      (·.value)).getD ""))
  | _ => none

/-- The arm `"pick"`: an argument by its index. -/
def pickValue (context : PromptResolutionContext) (source : String) (pass : Nat) (token : String)
    (args : List String) : Option String :=
  if args = [] then some ""
  else args[deterministicNumber lib context.sessionSeed source token pass % args.length]?

/-- The arm `token.starts_with("? ")`. -/
def expressionValue (token : String) : Option String := do
  let expression ← sliceBytesFrom token 1
  evaluateArithmetic lib (trim expression)

/-- The match of `evaluate_token`. -/
def evaluateNamed (context : PromptResolutionContext) (source : String) (pass : Nat) (token name : String)
    (args : List String) : Option (Option String) :=
  match plainValue lib context source pass token name args with
  | some value => some value
  | none =>
    if name = "pick" then (pickValue lib context source pass token args).map some
    else if name = "?" then (evaluateArithmetic lib (trim ("::".intercalate args))).map some
    else if beginsWith token "? " then (expressionValue lib token).map some
    else some none

def evaluateToken (token : String) (context : PromptResolutionContext) (source : String) (pass : Nat) :
    Option (Option String) :=
  let token := trim token
  match splitText token "::" with
  | [] => some none
  | name :: args =>
    evaluateNamed lib context source pass token (toAsciiLowercase (trim name)) (args.map trim)

/-- One pass of the loops that expand tokens. -/
def expandPass (source : String) (context : PromptResolutionContext) (pass : Nat) (output : String) :
    Option (LoopStep String String) := do
  match ← nextEvaluableToken output with
  | none => return LoopStep.leave
  | some (start, stop, token) =>
    match ← evaluateToken lib token context source pass with
    | none => return LoopStep.leave
    | some value =>
      if ← replacementWouldExceed output start stop value then return LoopStep.result source
      else return LoopStep.next (← replaceRange output start stop value)

/-- A loop that expands tokens. -/
def expandTokens (source : String) (context : PromptResolutionContext) (output : String) :
    Option (LoopEnd String String) :=
  runPasses (expandPass lib source context) maxRenderPasses 0 output

end

/-! ## Each blocks -/

/-- The loop of `nested_token_end` over the bytes from `cursor` on. -/
def nestedTokenEndFrom : List UInt8 → Nat → Nat → Option Nat
  | b :: c :: rest, cursor, depth =>
    if b = braceOpen ∧ c = braceOpen then do
      let depth ← checkedAdd depth 1
      nestedTokenEndFrom rest (cursor + 2) depth
    else if b = braceClose ∧ c = braceClose then
      match depth with
      | 0 => none
      | 1 => some (cursor + 2)
      | depth + 2 => nestedTokenEndFrom rest (cursor + 2) (depth + 1)
    else nestedTokenEndFrom (c :: rest) (cursor + 1) depth
  | _, _, _ => none

def nestedTokenEnd (source : String) (start : Nat) : Option Nat :=
  if slice (utf8Bytes source) start 2 = [braceOpen, braceOpen] then
    nestedTokenEndFrom ((utf8Bytes source).drop start) start 0
  else none

def eachOpen : String := "\x7b\x7b#each"
def eachClose : String := "\x7b\x7b/each\x7d\x7d"
def arrayOpen : String := "\x7b\x7barray::"

/-- The array and the variable of an opening token; the inner `none` leaves the loop of
`render_each_blocks`. -/
def eachSpecification (token : String) : Option (Option (String × String)) :=
  match stripText token "#each" with
  | none => some none
  | some specification =>
    let specification := trim specification
    match find specification arrayOpen with
    | none => some none
    | some arrayStart =>
      match nestedTokenEnd specification arrayStart with
      | none => some none
      | some arrayStop => do
        let array ← sliceBytes specification (arrayStart + 2) (arrayStop - 2)
        let tail ← sliceBytesFrom specification arrayStop
        let variableName := trim tail
        return if variableName = "" ∨ hasControl variableName = true then none else some (array, variableName)

/-- The body of a block, once for each value of the array. -/
def eachReplacement (array variableName body : String) : String :=
  let values := ((stripText array "array::").map fun values => (splitText values "::").take 128).getD []
  let slot := openBraces ++ "slot::" ++ variableName ++ closeBraces
  String.join (values.map (replaceText body slot))

/-- One pass of the loop of `render_each_blocks`. -/
def eachPass (source : String) (_pass : Nat) (output : String) : Option (LoopStep String String) :=
  match rfind output eachOpen with
  | none => some LoopStep.leave
  | some start =>
    match nestedTokenEnd output start with
    | none => some LoopStep.leave
    | some openStop => do
      let rest ← sliceBytesFrom output openStop
      match find rest eachClose with
      | none => return LoopStep.leave
      | some relativeClose =>
        let closeStart := openStop + relativeClose
        let closeStop := closeStart + eachClose.utf8ByteSize
        let token ← sliceBytes output (start + 2) (openStop - 2)
        match ← eachSpecification (trim token) with
        | none => return LoopStep.leave
        | some (array, variableName) =>
          let body ← sliceBytes output openStop closeStart
          let replacement := eachReplacement array variableName body
          if ← replacementWouldExceed output start closeStop replacement then return LoopStep.result source
          else return LoopStep.next (← replaceRange output start closeStop replacement)

/-- The text of a loop whose results are texts. -/
def endText : LoopEnd String String → String
  | LoopEnd.left output => output
  | LoopEnd.spent output => output
  | LoopEnd.result output => output

def renderEachBlocks (source : String) : Option String :=
  (runPasses (eachPass source) maxRenderPasses 0 source).map endText

/-! ## Conditional blocks -/

/-- The loop of `flat_tokens` from the byte `cursor` on. -/
def flatTokensFrom (source : String) : Nat → Nat → Option (List (Nat × Nat × String))
  | 0, _ => none
  | fuel + 1, cursor => do
    let rest ← sliceBytesFrom source cursor
    match find rest openBraces with
    | none => return []
    | some relativeStart =>
      let start := cursor + relativeStart
      let contentStart := start + 2
      let content ← sliceBytesFrom source contentStart
      match find content closeBraces with
      | none => return []
      | some relativeEnd =>
        let contentStop := contentStart + relativeEnd
        let token ← sliceBytes source contentStart contentStop
        let tokens ← flatTokensFrom source fuel (contentStop + 2)
        return if containsText token openBraces then tokens else (start, contentStop + 2, token) :: tokens

def flatTokens (source : String) : Option (List (Nat × Nat × String)) :=
  flatTokensFrom source (source.utf8ByteSize + 1) 0

/-- An opening token on the stack of `innermost_block`, with the last `:else` behind it. -/
structure OpenBlock where
  start : Nat
  stop : Nat
  token : String
  elseMarker : Option (Nat × Nat)

structure BlockMatch where
  start : Nat
  bodyStart : Nat
  bodyStop : Nat
  elseStart : Option Nat
  elseStop : Option Nat
  stop : Nat
  token : String

/-- The block of an opening token and the closing token from `start` to `stop`. -/
def OpenBlock.close (block : OpenBlock) (start stop : Nat) : BlockMatch where
  start := block.start
  bodyStart := block.stop
  bodyStop := start
  elseStart := block.elseMarker.map (·.1)
  elseStop := block.elseMarker.map (·.2)
  stop := stop
  token := block.token

/-- The loop of `innermost_block`; the last item of the stack first. -/
def innermostBlockFrom : List (Nat × Nat × String) → List OpenBlock → Option BlockMatch
  | [], _ => none
  | (start, stop, token) :: rest, stack =>
    let trimmed := trim token
    if beginsWith trimmed "#if" || beginsWith trimmed "#when" then
      innermostBlockFrom rest (⟨start, stop, token, none⟩ :: stack)
    else if trimmed = ":else" then
      match stack with
      | [] => innermostBlockFrom rest []
      | top :: stack => innermostBlockFrom rest ({ top with elseMarker := some (start, stop) } :: stack)
    else if trimmed = "/" ∨ trimmed = "/if" ∨ trimmed = "/when" then
      match stack with
      | [] => innermostBlockFrom rest []
      | top :: _ => some (top.close start stop)
    else innermostBlockFrom rest stack

def innermostBlock (source : String) : Option (Option BlockMatch) :=
  (flatTokens source).map fun tokens => innermostBlockFrom tokens []

/-- `text.trim_start_matches("::")`. -/
def trimColons : List Char → List Char
  | ':' :: ':' :: rest => trimColons rest
  | text => text

section
variable (lib : Library)

/-- The value that an operator leaves in place of itself and its operands, and what is left below them; the last
item of the statement first. -/
def applyOperator (context : PromptResolutionContext) (operator condition : String) (statement : List String) :
    String × List String :=
  match operator with
  | "not" => (boolText !(whenTruthy condition), statement)
  | "keep" | "legacy" => (condition, statement)
  | "and" => (boolText (statement.head?.any whenTruthy && whenTruthy condition), statement.tail)
  | "or" => (boolText (statement.head?.any whenTruthy || whenTruthy condition), statement.tail)
  | "is" | "=" | "==" | "===" => (boolText (statement.head?.any (· = condition)), statement.tail)
  | "isnot" | "!=" | "!==" => (boolText (statement.head?.all (· ≠ condition)), statement.tail)
  | "var" => (boolText ((variableValue lib context condition).any whenTruthy), statement)
  | "toggle" => (boolText ((variableValue lib context ("toggle_" ++ condition)).any whenTruthy), statement)
  | "vis" =>
    (boolText ((statement.head?.bind (variableValue lib context)).any (· = condition)), statement.tail)
  | "visnot" =>
    (boolText ((statement.head?.bind (variableValue lib context)).all (· ≠ condition)), statement.tail)
  | "tis" =>
    (boolText ((statement.head?.bind fun name => variableValue lib context ("toggle_" ++ name)).any
      (· = condition)), statement.tail)
  | "tisnot" =>
    (boolText ((statement.head?.bind fun name => variableValue lib context ("toggle_" ++ name)).all
      (· ≠ condition)), statement.tail)
  | ">" => (boolText (0 < compareValues lib (statement.head?.getD "") condition), statement.tail)
  | ">=" => (boolText (0 ≤ compareValues lib (statement.head?.getD "") condition), statement.tail)
  | "<" => (boolText (compareValues lib (statement.head?.getD "") condition < 0), statement.tail)
  | "<=" => (boolText (compareValues lib (statement.head?.getD "") condition ≤ 0), statement.tail)
  | _ => (boolText (whenTruthy condition), statement)

/-- The loop of `evaluate_when_expression`, with the last item of the statement first. -/
def evaluateWhenFrom (context : PromptResolutionContext) : Nat → List String → Option Bool
  | _, [] => some false
  | _, [value] => some (whenTruthy value)
  | 0, _ => none
  | fuel + 1, condition :: operator :: statement =>
    let (value, statement) := applyOperator lib context operator condition statement
    evaluateWhenFrom context fuel (value :: statement)

def evaluateWhenExpression (args : List String) (context : PromptResolutionContext) : Option Bool :=
  evaluateWhenFrom lib context args.length args.reverse

def evaluateBlockCondition (token : String) (context : PromptResolutionContext) : Option Bool :=
  let token := trim token
  match (stripText token "#if_pure").orElse fun _ => stripText token "#if" with
  | some condition => some (truthy (trim (String.ofList (trimColons condition.toList))))
  | none =>
    match stripText token "#when" with
    | none => some false
    | some condition =>
      evaluateWhenExpression lib
        ((splitText (String.ofList (trimColons condition.toList)) "::").map trim) context

/-- The replacement of a block. -/
def blockReplacement (context : PromptResolutionContext) (output : String) (block : BlockMatch) :
    Option String := do
  if ← evaluateBlockCondition lib block.token context then
    sliceBytes output block.bodyStart (block.elseStart.getD block.bodyStop)
  else
    match block.elseStop with
    | some elseStop => sliceBytes output elseStop block.bodyStop
    | none => return ""

/-- The replacement of the innermost block of a text. -/
def selectPass (source : String) (context : PromptResolutionContext) (output : String) :
    Option (LoopStep String String) := do
  match ← innermostBlock output with
  | none => return LoopStep.leave
  | some block =>
    let replacement ← blockReplacement lib context output block
    if ← replacementWouldExceed output block.start block.stop replacement then return LoopStep.result source
    else return LoopStep.next (← replaceRange output block.start block.stop replacement)

/-- One pass of the loop that selects blocks: a block is replaced, and the tokens of the text expanded. -/
def blockPass (source : String) (context : PromptResolutionContext) (_pass : Nat) (output : String) :
    Option (LoopStep String String) := do
  match ← selectPass lib source context output with
  | LoopStep.leave => return LoopStep.leave
  | LoopStep.result output => return LoopStep.result output
  | LoopStep.next output =>
    match ← expandTokens lib source context output with
    | LoopEnd.result output => return LoopStep.result output
    | LoopEnd.left output => return LoopStep.next output
    | LoopEnd.spent output => return LoopStep.next output

/-- The loop that selects blocks. -/
def selectBlocks (source : String) (context : PromptResolutionContext) (output : String) :
    Option (LoopEnd String String) :=
  runPasses (blockPass lib source context) maxRenderPasses 0 output

def renderPortableText (source : String) (context : PromptResolutionContext) : Option String := do
  if containsText source openBraces = false then return source
  else
    let output ← renderEachBlocks source
    match ← expandTokens lib source context output with
    | LoopEnd.result output => return output
    | LoopEnd.left output => return endText (← selectBlocks lib source context output)
    | LoopEnd.spent output => return endText (← selectBlocks lib source context output)

end

end PortableText

end LorePia
