/-!
# Reading a bounded decimal integer

Digits are taken from left to right after an optional sign. The first digit that leads out of the bounds, or the first
character that is no digit, settles the refusal. A minus sign counts as a sign only where negative numbers are within bounds.
-/

namespace PipelineShell

/-- Why a text is not an integer within bounds. -/
inductive DecimalError where
  | empty
  | invalidDigit
  | tooLarge
  | tooSmall
  deriving DecidableEq, Repr

/-- The reason as it is shown. -/
def DecimalError.message : DecimalError → String
  | .empty => "cannot parse integer from empty string"
  | .invalidDigit => "invalid digit found in string"
  | .tooLarge => "number too large to fit in target type"
  | .tooSmall => "number too small to fit in target type"

namespace Decimal

/-- The largest number of 64 bits. -/
def wordMax : Int := 18446744073709551615

/-- The smallest signed number of 64 bits. -/
def longMin : Int := -9223372036854775808

/-- The largest signed number of 64 bits. -/
def longMax : Int := 9223372036854775807

/-- The decimal digit a character is. -/
def digit? (c : Char) : Option Nat := if '0' ≤ c ∧ c ≤ '9' then some (c.toNat - '0'.toNat) else none

/-- Goes on reading digits upwards from `value`. -/
def readUp (high : Int) (value : Int) : List Char → Except DecimalError Int
  | [] => .ok value
  | c :: rest =>
    match digit? c with
    | none => .error .invalidDigit
    | some d => if value * 10 + d > high then .error .tooLarge else readUp high (value * 10 + d) rest

/-- Goes on reading digits downwards from `value`. -/
def readDown (low : Int) (value : Int) : List Char → Except DecimalError Int
  | [] => .ok value
  | c :: rest =>
    match digit? c with
    | none => .error .invalidDigit
    | some d => if value * 10 - d < low then .error .tooSmall else readDown low (value * 10 - d) rest

/-- The integer a text is, between `low` and `high`. -/
def read (low high : Int) (text : String) : Except DecimalError Int :=
  match text.toList with
  | [] => .error .empty
  | ['+'] | ['-'] => .error .invalidDigit
  | '+' :: digits => readUp high 0 digits
  | '-' :: digits => if low < 0 then readDown low 0 digits else .error .invalidDigit
  | digits => readUp high 0 digits

/-- The number that digits alone are. -/
def natural? (text : String) : Option Nat :=
  if text.toList.all fun c => (digit? c).isSome then (read 0 wordMax text).toOption.map Int.toNat else none

end Decimal

end PipelineShell
