import PipelineShell.Utility.Basic

/-!
# The arguments of standard programs

Options are letters after a dash, several of them in one argument if one likes. One that takes a value has it in the rest of
its argument, or in the next one. Operands may stand before options.
-/

namespace PipelineShell

namespace Utility

/-- What is wrong with an argument. -/
inductive ArgumentFault where
  | unknownLetter (letter : Char)
  | missingValue (letter : Char)
  | unknownWord (word : String)
  deriving DecidableEq, Repr

/-- The fault as it is complained of. -/
def ArgumentFault.message : ArgumentFault → String
  | .unknownLetter letter => "invalid option -- '" ++ letter.toString ++ "'"
  | .missingValue letter => "option requires an argument -- '" ++ letter.toString ++ "'"
  | .unknownWord word => "unrecognized option '" ++ word ++ "'"

/-- What arguments ask for, up to the first fault. -/
structure Arguments where
  /-- Letters, each with its value. One that takes none has an empty one. -/
  options : List (Char × String) := []
  operands : List String := []
  fault : Option ArgumentFault := none
  deriving DecidableEq, Repr

/-- What the letters of one argument ask for. -/
structure Cluster where
  options : List (Char × String) := []
  /-- The last letter has its value in the next argument. -/
  wanting : Option Char := none
  fault : Option ArgumentFault := none
  deriving DecidableEq, Repr

/-- Reads the letters of one argument. Those that are `valued` take a value. -/
def Cluster.read (known valued : List Char) : List Char → Cluster
  | [] => {}
  | letter :: rest =>
    if valued.contains letter then
      if rest.isEmpty then { wanting := some letter } else { options := [(letter, String.ofList rest)] }
    else if known.contains letter then
      let cluster := Cluster.read known valued rest
      { cluster with options := (letter, "") :: cluster.options }
    else { fault := some (.unknownLetter letter) }

namespace Arguments

/-- Puts options before those of later arguments. -/
def after (options : List (Char × String)) (later : Arguments) : Arguments :=
  { later with options := options ++ later.options }

/-- Reads arguments. A lone dash is an operand, and so is everything after `--`; unless arguments are `mixed`, so is everything
after the first operand. -/
def read (known valued : List Char) (mixed : Bool) : List String → Arguments
  | [] => {}
  | arg :: rest =>
    match arg.toList with
    | ['-', '-'] => { operands := rest }
    | '-' :: '-' :: _ => { fault := some (.unknownWord arg) }
    | '-' :: letter :: letters =>
      let cluster := Cluster.read known valued (letter :: letters)
      match cluster.fault, cluster.wanting with
      | some fault, _ => { options := cluster.options, fault := some fault }
      | none, none => after cluster.options (read known valued mixed rest)
      | none, some letter =>
        match rest with
        | [] => { options := cluster.options, fault := some (.missingValue letter) }
        | value :: rest => after (cluster.options ++ [(letter, value)]) (read known valued mixed rest)
    | _ =>
      if mixed then
        let later := read known valued mixed rest
        { later with operands := arg :: later.operands }
      else { operands := arg :: rest }

end Arguments

/-- Runs a program with the letters and the operands of its arguments, if all letters are among those it knows. -/
def withFlags (argv : List String) (known : String) (refusal : Nat) (run : List Char → List String → UtilityM Nat) :
    UtilityM Nat :=
  let args := Arguments.read known.toList [] true (argv.drop 1)
  match args.fault with
  | some fault => misuse argv refusal fault.message
  | none => run (args.options.map Prod.fst) args.operands

end Utility

end PipelineShell
