import LorePia.Domain.Content

/-!
# Archive paths (`crates/content/src/path.rs`)

Unicode normalization and lowercasing are parameters (`Unicode`): of their tables only two facts are used,
that neither makes a text empty and that neither brings in a control character.
-/

namespace LorePia

open Base

/-- The devices with a number. -/
def isNumberedDevice (base : List Char) : Bool :=
  (base.take 3 = "com".toList || base.take 3 = "lpt".toList) &&
    match base.drop 3 with
    | [digit] => '1' ≤ digit && digit ≤ '9'
    | _ => false

def isWindowsReservedName (component : List Char) : Bool :=
  let base := component.takeWhile (· ≠ '.')
  base ∈ ["con".toList, "prn".toList, "aux".toList, "nul".toList] || isNumberedDevice base

/-- The text ends with a space or a dot. -/
def hasAmbiguousSuffix (component : List Char) : Bool :=
  component.getLast? = some ' ' || component.getLast? = some '.'

end LorePia
