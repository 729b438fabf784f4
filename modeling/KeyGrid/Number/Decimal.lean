/-!
# Decimal numerals

A digit run has a value, whatever its length and its leading zeros. Where a number
has to fit under a limit, a numeral is read from the left and the first thing wrong
with it is reported: a character that is no digit, or a value that has grown past
the limit.
-/

namespace KeyGrid.Decimal

/-- The value of a run of digits. -/
def value (digits : List Char) : Nat := Nat.ofDigitChars 10 digits 0

/-- Whether a text is a run of at least one digit. -/
def isDigits (cs : List Char) : Bool := !cs.isEmpty && cs.all Char.isDigit

/-- What keeps a text from being a numeral under a limit. -/
inductive Fault where
  | empty
  | invalidDigit
  | tooLarge
deriving DecidableEq

def Fault.message : Fault → String
  | .empty => "cannot parse integer from empty string"
  | .invalidDigit => "invalid digit found in string"
  | .tooLarge => "number too large to fit in target type"

/-- The value so far with one more digit, kept below `limit`. -/
def extend (limit : Nat) (value : Nat) (c : Char) : Except Fault Nat :=
  if c.isDigit then
    let next := 10 * value + (c.toNat - '0'.toNat)
    if next < limit then .ok next else .error .tooLarge
  else .error .invalidDigit

/-- The value of a numeral below `limit`; a single plus may stand in front of its
digits. -/
def read (limit : Nat) : List Char → Except Fault Nat
  | [] => .error .empty
  | ['+'] => .error .invalidDigit
  | '+' :: digits => digits.foldlM (extend limit) 0
  | digits => digits.foldlM (extend limit) 0

end KeyGrid.Decimal
