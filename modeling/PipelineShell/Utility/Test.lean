import PipelineShell.Utility.Basic

/-!
# Asking about files and texts: `test`
-/

namespace PipelineShell

namespace Utility

/-- The node a path leads to; a descriptor of the process must be open. -/
def present? (m : Machine) (path : String) (followLast : Bool) : Option Node := do
  let n ← (m.files.find m.self.directory path followLast).toOption
  let node ← m.files.node? n
  match node with
  | .device (.descriptor k) => (m.self.descriptors.slot? k).map fun _ => node
  | _ => some node

/-- A node may be executed, or entered. -/
def isExecutable : Node → Bool
  | .file mode _ => mode &&& 0o111 ≠ 0
  | .directory _ | .program _ => true
  | _ => false

/-- A question about one operand. -/
def testUnary (m : Machine) (question operand : String) : Option Bool :=
  let node := present? m operand true
  match question with
  | "-z" => some operand.isEmpty
  | "-n" => some !operand.isEmpty
  | "-e" | "-r" | "-w" => some node.isSome
  | "-f" => some (match node with
    | some (.file _ _) | some (.program _) => true
    | _ => false)
  | "-d" => some (match node with
    | some (.directory _) => true
    | _ => false)
  | "-s" => some (match node with
    | some (.file _ data) => !data.isEmpty
    | some (.directory _) | some (.program _) => true
    | _ => false)
  | "-x" => some (node.any isExecutable)
  | "-h" | "-L" => some (match present? m operand false with
    | some (.link _) => true
    | _ => false)
  | _ => none

/-- An integer operand. -/
def integer? (text : String) : Option Int := (Decimal.read Decimal.longMin Decimal.longMax text).toOption

/-- A question about two operands. -/
def testBinary (left question right : String) : Option Bool :=
  let compare (holds : Int → Int → Bool) : Option Bool := do return holds (← integer? left) (← integer? right)
  match question with
  | "=" | "==" => some (left = right)
  | "!=" => some (left ≠ right)
  | "-eq" => compare fun a b => a = b
  | "-ne" => compare fun a b => a ≠ b
  | "-lt" => compare fun a b => a < b
  | "-le" => compare fun a b => a ≤ b
  | "-gt" => compare fun a b => a > b
  | "-ge" => compare fun a b => a ≥ b
  | _ => none

/-- The answer to the words of a question. -/
def testWords (m : Machine) : List String → Option Bool
  | [] => some false
  | [word] => some !word.isEmpty
  | ["!", word] => some word.isEmpty
  | [question, operand] => testUnary m question operand
  | [left, question, right] =>
    match testBinary left question right with
    | some answer => some answer
    | none => if left = "!" then (testUnary m question right).map (!·) else none
  | "!" :: rest => (testWords m rest).map (!·)
  | _ => none

/-- Ends with 0 for yes, 1 for no, and 2 for a question that makes no sense. -/
def ask (argv words : List String) : UtilityM Nat := do
  match testWords (← Program.machine) words with
  | some true => return 0
  | some false => return 1
  | none =>
    complain argv "syntax error"
    return 2

/-- Answers the question its arguments are. -/
def test : Utility := fun argv => ask argv (argv.drop 1)

/-- Answers the question its arguments are, the last of which is a closing bracket. -/
def bracket : Utility := fun argv => do
  if (argv.drop 1).getLast? = some "]" then ask argv (argv.drop 1).dropLast
  else
    complain argv "missing ]"
    return 2

end Utility

end PipelineShell
