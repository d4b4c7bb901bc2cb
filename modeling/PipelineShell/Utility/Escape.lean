import PipelineShell.Utility.Basic

/-!
# Backslash escapes

A backslash and what comes after it may name any byte, so what is written is bytes. Programs differ in the escapes they know;
`EscapeRules` says which. `\c` ends the output where it is known.
-/

namespace PipelineShell

namespace Utility

/-- Bytes to write, and whether nothing is to follow them. -/
structure Output where
  data : Bytes := []
  final : Bool := false
  deriving DecidableEq, Repr

namespace Output

/-- Output followed by more, unless it is final. -/
def append (a b : Output) : Output := if a.final then a else ⟨a.data ++ b.data, b.final⟩

/-- A text as output. -/
def ofString (text : String) : Output := ⟨Bytes.ofString text, false⟩

end Output

/-- The escapes a program knows. -/
structure EscapeRules where
  /-- Letters that name a byte. -/
  letters : List Char
  /-- `\c` ends the output. -/
  stops : Bool := false
  /-- A zero may come before the three octal digits. -/
  leadingZero : Bool := false
  /-- `\x` comes before one or two hexadecimal digits. -/
  hexadecimal : Bool := false
  deriving DecidableEq, Repr

/-- The byte that a letter names after a backslash; any other character stands for itself. -/
def namedByte : Char → UInt8
  | 'a' => 7
  | 'b' => 8
  | 'e' => 27
  | 'f' => 12
  | 'n' => 10
  | 'r' => 13
  | 't' => 9
  | 'v' => 11
  | c => UInt8.ofNat c.toNat

/-- The value of a digit, if it is one in a base of at most sixteen. -/
def digitIn? (base : Nat) (c : Char) : Option Nat :=
  let value := if '0' ≤ c ∧ c ≤ '9' then c.toNat - '0'.toNat
    else if 'a' ≤ c.toLower ∧ c.toLower ≤ 'f' then c.toLower.toNat - 'a'.toNat + 10
    else base
  if value < base then some value else none

/-- Reads up to so many digits: the number they are, going on from `value`, and what follows them. -/
def readDigits (base : Nat) : Nat → Nat → List Char → Nat × List Char
  | 0, value, cs => (value, cs)
  | _, value, [] => (value, [])
  | n + 1, value, c :: cs =>
    match digitIn? base c with
    | some d => readDigits base n (value * base + d) cs
    | none => (value, c :: cs)

theorem length_readDigits (base n value : Nat) (cs : List Char) : (readDigits base n value cs).2.length ≤ cs.length := by
  induction n generalizing value cs with
  | zero => simp [readDigits]
  | succ n ih =>
    cases cs with
    | nil => simp [readDigits]
    | cons c cs =>
      simp only [readDigits]
      split
      · exact Nat.le_succ_of_le (ih _ _)
      · exact Nat.le_refl _

/-- The byte of a number, and what follows it. -/
def byteOf (number : Nat × List Char) : Output × List Char := (⟨[UInt8.ofNat number.1], false⟩, number.2)

/-- One escape, after its backslash: what it stands for and what follows it. A backslash without an escape stands for itself. -/
def escape (rules : EscapeRules) : List Char → Output × List Char
  | [] => (Output.ofString "\\", [])
  | c :: cs =>
    if c = 'c' ∧ rules.stops then (⟨[], true⟩, cs)
    else if rules.letters.contains c then (⟨[namedByte c], false⟩, cs)
    else if c = '0' ∧ rules.leadingZero then byteOf (readDigits 8 3 0 cs)
    else if (digitIn? 8 c).isSome then byteOf (readDigits 8 3 0 (c :: cs))
    else if c = 'x' ∧ rules.hexadecimal ∧ (cs.head?.bind (digitIn? 16)).isSome then byteOf (readDigits 16 2 0 cs)
    else (Output.ofString ("\\" ++ c.toString), cs)

theorem length_escape (rules : EscapeRules) (cs : List Char) : (escape rules cs).2.length ≤ cs.length := by
  cases cs with
  | nil => exact Nat.le_refl _
  | cons c cs =>
    simp only [escape]
    split
    · exact Nat.le_succ _
    · split
      · exact Nat.le_succ _
      · split
        · exact Nat.le_succ_of_le (length_readDigits 8 3 0 cs)
        · split
          · exact length_readDigits 8 3 0 (c :: cs)
          · split
            · exact Nat.le_succ_of_le (length_readDigits 16 2 0 cs)
            · exact Nat.le_succ _

/-- A text with its escapes replaced. -/
def unescape (rules : EscapeRules) (text : List Char) : Output :=
  match text with
  | [] => {}
  | '\\' :: cs => (escape rules cs).1.append (unescape rules (escape rules cs).2)
  | c :: cs => (Output.ofString c.toString).append (unescape rules cs)
termination_by text.length
decreasing_by
  · have := length_escape rules cs
    simp only [List.length_cons]
    omega
  · simp only [List.length_cons]
    omega

end Utility

end PipelineShell
