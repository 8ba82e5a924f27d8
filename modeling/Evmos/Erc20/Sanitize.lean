import Evmos.Library.Regexp

/-! `SanitizeERC20Name` on the bytes of a name, which need not be valid UTF-8. -/

namespace Evmos.Erc20

open Library

/-- A string of the source: any bytes. -/
abbrev GoString := List UInt8

namespace GoString

/-- `\d`. -/
def isDigit (rune : ℕ) : Bool := decide (48 ≤ rune ∧ rune ≤ 57)

/-- `[A-Za-z]`. -/
def isLetter (rune : ℕ) : Bool := decide (65 ≤ rune ∧ rune ≤ 90 ∨ 97 ≤ rune ∧ rune ≤ 122)

/-- The second class of `reDnmString`: a letter, a digit, a slash or a hyphen. -/
def isDenomRune (rune : ℕ) : Bool :=
  isLetter rune || isDigit rune || decide (rune = 47) || decide (rune = 45)

/-- `(?m)^(\d+)`: digits at the start of the text, or after a line break. -/
def reLeadingNumbers : Pattern := fun before text =>
  if before.all (· = 10) then (text.takeWhile fun byte => isDigit byte.toNat).length else 0

/-- One rune, at the start of the text outside of the first class, and anywhere of the second. -/
def reDnmString : Pattern := fun before text =>
  let (rune, width) := decodeRune text
  if before.isNone && !isLetter rune || !isDenomRune rune then width else 0

/-- `removeLeadingNumbers`. -/
def removeLeadingNumbers (str : GoString) : GoString := removeAll reLeadingNumbers str

/-- `removeSpecialChars`. -/
def removeSpecialChars (str : GoString) : GoString := removeAll reDnmString str

/-- `removeInvalidPrefixes`, of `ibc/` and `erc20/`. -/
def removeInvalidPrefixes : GoString → GoString
  | 105 :: 98 :: 99 :: 47 :: rest => removeInvalidPrefixes rest
  | 101 :: 114 :: 99 :: 50 :: 48 :: 47 :: rest => removeInvalidPrefixes rest
  | str => str

/-- `SanitizeERC20Name`. -/
def sanitizeERC20Name (name : GoString) : GoString :=
  let name := removeLeadingNumbers name
  let name := removeSpecialChars name
  let name := if 128 < name.length then name.take 128 else name
  removeInvalidPrefixes name

end GoString

end Evmos.Erc20
