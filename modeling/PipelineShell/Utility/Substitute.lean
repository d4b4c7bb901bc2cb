import PipelineShell.Utility.Escape
import PipelineShell.Utility.Filter

/-!
# Replacing and deleting characters: `tr`

A set is written as characters, escapes, ranges `a-z` and classes `[:upper:]`. It is a list of bytes; the bytes of the first
set are replaced by those of the second at the same places, the last of which stands for all places after it.
-/

namespace PipelineShell

namespace Utility

namespace ByteSet

/-- The bytes from one to another. -/
def range (a b : UInt8) : Bytes := (List.range (b.toNat + 1 - a.toNat)).map fun i => UInt8.ofNat (a.toNat + i)

/-- The bytes of a class. -/
def ofClass? (name : String) : Option Bytes :=
  match name with
  | "upper" => some (range 65 90)
  | "lower" => some (range 97 122)
  | "digit" => some (range 48 57)
  | "alpha" => some (range 65 90 ++ range 97 122)
  | "alnum" => some (range 48 57 ++ range 65 90 ++ range 97 122)
  | "blank" => some [9, 32]
  | "space" => some (range 9 13 ++ [32])
  | _ => none

/-- A class at the beginning of a text, after `[:`: its bytes and what follows it. -/
def readClass? (cs : List Char) : Option (Bytes × List Char) :=
  let name := cs.takeWhile (· ≠ ':')
  match cs.drop name.length with
  | ':' :: ']' :: rest => (ofClass? (String.ofList name)).map (·, rest)
  | _ => none

/-- The escapes of a set. -/
def setEscapes : EscapeRules := { letters := "abfnrtv\\".toList }

/-- One member of a set, a byte unless a character has several, and what follows it. -/
def readMember : List Char → Bytes × List Char
  | [] => ([], [])
  | '\\' :: cs =>
    match cs with
    | [] => ([92], [])
    | c :: rest =>
      match escape setEscapes cs with
      | (⟨[b], _⟩, rest) => ([b], rest)
      | _ => (Bytes.ofString c.toString, rest)
  | c :: cs => (Bytes.ofString c.toString, cs)

/-- The bytes of a set; `fuel` bounds the number of its parts. A range that runs backwards is the error. -/
def read : Nat → List Char → Except (UInt8 × UInt8) Bytes
  | 0, _ => .ok []
  | _, [] => .ok []
  | fuel + 1, '[' :: ':' :: cs =>
    match readClass? cs with
    | some (members, rest) => (read fuel rest).map (members ++ ·)
    | none => (read fuel (':' :: cs)).map (91 :: ·)
  | fuel + 1, cs =>
    match readMember cs with
    | ([a], '-' :: rest) =>
      match readMember rest with
      | ([b], after) => if a ≤ b then (read fuel after).map (range a b ++ ·) else .error (a, b)
      | _ => (read fuel rest).map (a :: 45 :: ·)
    | (members, rest) => (read fuel rest).map (members ++ ·)

/-- The bytes of a set. -/
def ofString (text : String) : Except (UInt8 × UInt8) Bytes := read (text.length + 1) text.toList

end ByteSet

/-- What a byte becomes. -/
def replaceByte (source target : Bytes) (b : UInt8) : UInt8 :=
  match (source.zipIdx.reverse.find? fun entry => entry.1 = b), target.getLast? with
  | some (_, i), some last => (target[i]?).getD last
  | _, _ => b

/-- Leaves of neighbouring copies of a byte of a set one; `last?` is the byte before the text. -/
def squeeze (set : Bytes) (last? : Option UInt8) : Bytes → Bytes
  | [] => []
  | b :: rest => if last? = some b ∧ set.contains b then squeeze set last? rest else b :: squeeze set (some b) rest

/-- Why operands do not say what to do. -/
inductive SubstitutionError where
  | missing
  /-- One set where two are needed, to delete and squeeze or to replace. -/
  | missingAfter (operand : String) (deletes : Bool)
  /-- An operand too many; `onlyDeletes` if a set to squeeze is what is out of place. -/
  | extra (operand : String) (onlyDeletes : Bool)
  | reversedRange (first last : UInt8)
  | emptyTarget
  deriving DecidableEq, Repr

namespace SubstitutionError

/-- The reason as it is shown. -/
def message : SubstitutionError → String
  | .missing => "missing operand"
  | .missingAfter operand deletes =>
    "missing operand after " ++ cited operand ++ "\nTwo strings must be given when " ++
      (if deletes then "both deleting and squeezing repeats." else "translating.")
  | .extra operand onlyDeletes =>
    "extra operand " ++ cited operand ++
      (if onlyDeletes then "\nOnly one string may be given when deleting without squeezing repeats." else "")
  | .reversedRange first last =>
    "range-endpoints of '" ++ (Char.ofNat first.toNat).toString ++ "-" ++ (Char.ofNat last.toNat).toString ++
      "' are in reverse collating sequence order"
  | .emptyTarget => "when not truncating set1, string2 must be non-empty"

/-- The number of operands is at fault, so that the way to the manual is shown too. -/
def isMisuse : SubstitutionError → Bool
  | .missing | .missingAfter .. | .extra .. => true
  | .reversedRange .. | .emptyTarget => false

end SubstitutionError

/-- What is to be done to the bytes of a text. -/
structure Substitution where
  /-- Bytes that are left out. -/
  deleted : Bytes := []
  /-- The bytes to replace and what replaces them. -/
  replaced : Option (Bytes × Bytes) := none
  /-- Bytes of which neighbouring copies become one. -/
  squeezed : Bytes := []
  deriving DecidableEq, Repr

namespace Substitution

/-- What letters and operands ask for: `-d` deletes, `-s` squeezes, `-c` takes the bytes that are not in the first set. -/
def ofArguments (letters : List Char) (operands : List String) : Except SubstitutionError Substitution := do
  let deletes := letters.contains 'd'
  let squeezes := letters.contains 's'
  let needed := if deletes = squeezes then 2 else 1
  let allowed := if deletes ∧ !squeezes then 1 else 2
  if operands.isEmpty then throw .missing
  if operands.length < needed then throw (.missingAfter (operands.getLastD "") deletes)
  if operands.length > allowed then
    throw (.extra ((operands.drop allowed).headD "") (allowed = 1 ∧ operands.length = 2))
  let sets ← operands.mapM fun text =>
    (ByteSet.ofString text).mapError fun ends => SubstitutionError.reversedRange ends.1 ends.2
  let named := sets.headD []
  let source := if letters.contains 'c' ∨ letters.contains 'C' then
      (ByteSet.range 0 255).filter fun b => !named.contains b
    else named
  let second? := sets[1]?
  let squeezed := if squeezes then second?.getD source else []
  if deletes then return { deleted := source, squeezed }
  match second? with
  | some [] => throw .emptyTarget
  | some target => return { replaced := some (source, target), squeezed }
  | none => return { squeezed }

/-- Does to the bytes of a text what is to be done: leaves out, replaces, then squeezes. `last?` is the last byte of what has
come of the text before. -/
def apply (s : Substitution) (last? : Option UInt8) (data : Bytes) : Bytes :=
  let kept := if s.deleted.isEmpty then data else data.filter fun b => !s.deleted.contains b
  let changed := match s.replaced with
    | some (source, target) =>
      let table := ((ByteSet.range 0 255).map (replaceByte source target)).toArray
      kept.map fun b => (table[b.toNat]?).getD b
    | none => kept
  if s.squeezed.isEmpty then changed else squeeze s.squeezed last? changed

end Substitution

/-- Substitutes in standard input, reading at most so many times. -/
def substitute (argv : List String) (s : Substitution) : Nat → Option UInt8 → UtilityM Nat
  | 0, _ => return 0
  | turns + 1, last? => do
    match ← perform (Program.read standardInput partSize) with
    | .error e => fail argv 1 ("read error: " ++ e.systemText)
    | .ok [] => return 0
    | .ok data =>
      let output := s.apply last? data
      putOrFail argv "write error" output
      substitute argv s turns (output.getLast?.or last?)

/-- Replaces, deletes or squeezes the bytes of standard input. -/
def tr : Utility := fun argv => withFlags argv "Ccds" 1 fun letters operands => do
  match Substitution.ofArguments letters operands with
  | .error e =>
    if e.isMisuse then misuse argv 1 e.message
    else
      complain argv e.message
      return 1
  | .ok substitution => substitute argv substitution Program.turnMax none

end Utility

end PipelineShell
