import LorePia.Providers.Credentials

/-!
# The tokens of a cURL command (`crates/providers/src/curl_parser.rs`)

`tokenize` splits a pasted command into its arguments without a shell. Wiping the memory of the tokens is left out.
-/

namespace LorePia

namespace Curl

open Base

def maxInputBytes : Nat := 64 * 1024
def maxTokenBytes : Nat := 32 * 1024
def maxTokens : Nat := 256

/-- The kinds of `CurlParseError` that `tokenize` returns. -/
inductive CurlParseErrorKind
  | inputTooLarge | controlCharacter | shellSyntax | unterminatedQuote | invalidEscape | tooManyTokens | tokenTooLarge
deriving DecidableEq

inductive QuoteState
  | unquoted | single | double
deriving DecidableEq

def singleQuote : Char := Char.ofNat 39
def doubleQuote : Char := Char.ofNat 34
def backslash : Char := Char.ofNat 92
def backtick : Char := Char.ofNat 96

def isShellOperator (c : Char) : Bool :=
  c = ';' || c = '|' || c = '&' || c = '<' || c = '>' || c = '(' || c = ')'

/-- The variables of the scanner: the finished tokens, the one in progress and whether it was started. -/
structure TokenScan where
  tokens : List String
  token : List Char
  tokenStarted : Bool
  state : QuoteState
deriving DecidableEq

def finishToken (scan : TokenScan) : Except CurlParseErrorKind TokenScan :=
  if scan.tokenStarted = false then .ok scan
  else if scan.tokens.length ≥ maxTokens then .error .tooManyTokens
  else .ok { scan with tokens := scan.tokens ++ [String.ofList scan.token], token := [], tokenStarted := false }

def pushTokenCharacter (scan : TokenScan) (c : Char) : Except CurlParseErrorKind TokenScan :=
  if String.utf8Len scan.token + c.utf8Size > maxTokenBytes then .error .tokenTooLarge
  else .ok { scan with token := scan.token ++ [c] }

/-- A character that is not allowed in single or double quotes. -/
def isQuotedControl (c : Char) : Bool := c = '\n' || c = '\r' || c = '\t'

/-- The `while` loop of `tokenize`. -/
def scanTokens : List Char → TokenScan → Except CurlParseErrorKind TokenScan
  | [], scan => .ok scan
  | c :: rest, scan =>
    match scan.state with
    | .unquoted =>
      if c = ' ' ∨ c = '\t' then do
        let scan ← finishToken scan
        scanTokens rest scan
      else if c = singleQuote then scanTokens rest { scan with state := .single, tokenStarted := true }
      else if c = doubleQuote then scanTokens rest { scan with state := .double, tokenStarted := true }
      else if c = backslash then
        match rest with
        | [] => .error .invalidEscape
        | escaped :: rest =>
          if escaped = '\n' then scanTokens rest scan
          else if escaped = '\r' then
            match rest with
            | [] => .error .invalidEscape
            | next :: rest => if next = '\n' then scanTokens rest scan else .error .invalidEscape
          else if isShellOperator escaped = true ∨ escaped = '$' ∨ escaped = backtick ∨ escaped = '#' then
            .error .shellSyntax
          else do
            let scan ← pushTokenCharacter scan escaped
            scanTokens rest { scan with tokenStarted := true }
      else if c = '\n' ∨ c = '\r' ∨ c = '$' ∨ c = backtick ∨ c = '#' ∨ isShellOperator c = true then .error .shellSyntax
      else do
        let scan ← pushTokenCharacter scan c
        scanTokens rest { scan with tokenStarted := true }
    | .single =>
      if c = singleQuote then scanTokens rest { scan with state := .unquoted }
      else if isQuotedControl c = true then .error .controlCharacter
      else do
        let scan ← pushTokenCharacter scan c
        scanTokens rest scan
    | .double =>
      if c = doubleQuote then scanTokens rest { scan with state := .unquoted }
      else if c = '$' ∨ c = backtick then .error .shellSyntax
      else if isQuotedControl c = true then .error .controlCharacter
      else if c = backslash then
        match rest with
        | [] => .error .invalidEscape
        | escaped :: rest =>
          if escaped = '\n' then scanTokens rest scan
          else if escaped = '\r' then
            match rest with
            | [] => .error .invalidEscape
            | next :: rest => if next = '\n' then scanTokens rest scan else .error .invalidEscape
          else if escaped = '$' ∨ escaped = backtick then .error .shellSyntax
          else do
            -- the backslash stays before a character that needs no escape
            let scan ← if escaped = doubleQuote ∨ escaped = backslash then .ok scan
              else pushTokenCharacter scan backslash
            let scan ← pushTokenCharacter scan escaped
            scanTokens rest scan
      else do
        let scan ← pushTokenCharacter scan c
        scanTokens rest scan

/-- `char::is_ascii_whitespace`. -/
def isAsciiBlank (c : Char) : Bool := c = ' ' || c = '\t' || c = '\n' || c.toNat = 12 || c = '\r'

/-- The scanner before the first character. -/
def TokenScan.start : TokenScan := ⟨[], [], false, .unquoted⟩

def tokenize (input : String) : Except CurlParseErrorKind (List String) :=
  if input.utf8ByteSize > maxInputBytes then .error .inputTooLarge
  else if input.toList.any isDisallowedControl = true then .error .controlCharacter
  else do
    let scan ← scanTokens (Credentials.trimMatches isAsciiBlank input.toList) .start
    if scan.state ≠ .unquoted then .error .unterminatedQuote
    else do
      let scan ← finishToken scan
      return scan.tokens

end Curl

end LorePia
