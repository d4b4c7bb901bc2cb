import PipelineShell.Utility.Environment
import PipelineShell.Utility.Extent
import PipelineShell.Utility.Filter
import PipelineShell.Utility.Format
import PipelineShell.Utility.Move
import PipelineShell.Utility.Substitute
import PipelineShell.Utility.Test

/-!
# The table of standard programs
-/

namespace PipelineShell

namespace Utility

/-- The seconds that a unit of time stands for. -/
def unitSeconds? : Char → Option Nat
  | 's' => some 1
  | 'm' => some 60
  | 'h' => some 3600
  | 'd' => some 86400
  | _ => none

/-- A decimal number with at most one point, as its digits and how many of them come after the point. -/
def decimal? (text : List Char) : Option (Nat × Nat) :=
  let digits := text.filter (· ≠ '.')
  if digits.isEmpty ∨ text.count '.' > 1 ∨ !digits.all Char.isDigit then none
  else (Decimal.natural? (String.ofList digits)).map (·, ((text.dropWhile (· ≠ '.')).drop 1).length)

/-- A length of time in nanoseconds: a decimal number and perhaps a unit. -/
def interval? (text : List Char) : Option Nat :=
  let (number, unit) := match text.getLast?.bind unitSeconds? with
    | some unit => (text.dropLast, unit)
    | none => (text, 1)
  (decimal? number).map fun (digits, places) => digits * unit * 1000000000 / Nat.pow 10 places

/-- Lets time pass. -/
def sleep : Utility := fun argv => withFlags argv "" 1 fun _ operands => do
  match operands.find? fun text => (interval? text.toList).isNone with
  | some text => misuse argv 1 ("invalid time interval " ++ cited text)
  | none =>
    if operands.isEmpty then misuse argv 1 "missing operand"
    else
      perform (Program.pause ((operands.filterMap fun text => interval? text.toList).foldl (· + ·) 0))
      return 0

/-- A standard program and how it treats its output. -/
structure Standard where
  code : Utility
  buffering : Buffering := .blocks
  /-- The status it ends with when output has been lost. -/
  refusal : Nat := 1

/-- Runs a standard program to its status. -/
def Standard.run (s : Standard) (argv : List String) : Program Nat := do
  let (status, buffer) ← runWith { buffering := s.buffering } (s.code argv)
  let (status, _) ← runWith buffer (close argv s.refusal status)
  return status

/-- The standard programs by name. `launch` is for those that become others. -/
def standard (launch : Image → Code) : List (String × Standard) :=
  [("[", { code := bracket }), ("cat", { code := cat }), ("dir", { code := dir, refusal := 2 }), ("echo", { code := echo }),
    ("env", { code := env launch, refusal := 125 }), ("false", { code := constant 1 }), ("head", { code := head }),
    ("ls", { code := ls, refusal := 2 }), ("mkdir", { code := mkdir }), ("mv", { code := mv }),
    ("printenv", { code := printenv, refusal := 2 }), ("printf", { code := printf }), ("pwd", { code := pwd }),
    ("rm", { code := rm }), ("rmdir", { code := rmdir }), ("sleep", { code := sleep }),
    ("sort", { code := sort, refusal := 2 }), ("tail", { code := tail }), ("test", { code := test }),
    ("touch", { code := touch }), ("tr", { code := tr }), ("true", { code := constant 0 }), ("uniq", { code := uniq }),
    ("wc", { code := wc, buffering := .lines })]

/-- The program of a name. -/
def find? (launch : Image → Code) (name : String) : Option Standard := (standard launch).lookup name

/-- The names of the standard programs. -/
def names : List String := (standard fun _ => .finished (.exited 0)).map Prod.fst

end Utility

end PipelineShell
