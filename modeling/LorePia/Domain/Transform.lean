import LorePia.Domain.Prompt

/-!
# Transform documents (`crates/domain/src/orchestration.rs`)

Transform sets and rules, and the trace of one rule. An `i32` order is an integer.
-/

namespace LorePia

abbrev TransformRuleId := String

inductive TransformPhase
  | userInputForRequest | resolvedPrompt | providerOutputCanonical | displayOnly | memoryInput
deriving DecidableEq

structure TransformRule where
  id : TransformRuleId
  name : String
  enabled : Bool
  importedEnabled : Bool
  importedAuthorEnabled : Bool
  phase : TransformPhase
  order : Int
  pattern : SafeRegex
  replacement : String
  condition : Option ConditionExpr
  maxReplacements : UInt32
  inputLimit : UInt32
  outputLimit : UInt32
  provenance : Provenance

structure TransformSet where
  id : TransformSetId
  name : String
  schemaVersion : UInt32
  enabled : Bool
  importedAuthorEnabled : Bool
  rules : List TransformRule
  maxRulesPerPhase : UInt32
  maxOutputChars : UInt32
  provenance : Provenance

structure TransformTrace where
  ruleId : TransformRuleId
  applied : Bool
  replacements : UInt32
  inputChars : UInt32
  outputChars : UInt32
  error : Option String
deriving DecidableEq

end LorePia
