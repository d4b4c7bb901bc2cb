/-!
# Reading the arguments of a command

A command declares the options it knows, each with the spellings it answers to and taking one value, and its positional
arguments. Words are taken from left to right. `--help` and `help` ask for the usage text, `--` ends the options, any other
word that begins with `-` must be an option, and what is left is positional. After help was asked for the words are still
read, but no option may follow. A value that cannot be understood is refused with the reason.
-/

namespace PipelineShell

namespace Options

/-- An option that takes a value. `fill` puts the value into the record, or says why it cannot. -/
structure ValueOption (ρ : Type) where
  spellings : List String
  fill : String → ρ → Except String ρ

/-- A positional argument. -/
structure Positional (ρ : Type) where
  name : String
  fill : String → ρ → Except String ρ

/-- What a command accepts. -/
structure Spec (ρ : Type) where
  options : List (ValueOption ρ) := []
  positionals : List (Positional ρ) := []
  usage : String

/-- What became of an argument list. -/
inductive Outcome (ρ : Type) where
  | accepted (record : ρ)
  /-- The usage text was asked for. -/
  | help (text : String)
  | refused (text : String)

/-- The state between two words. -/
structure Progress (ρ : Type) where
  record : ρ
  /-- The positional arguments still to come. -/
  expected : List (Positional ρ)
  helpAsked : Bool := false
  optionsEnded : Bool := false

/-- The report of a word that fits nowhere. -/
def unrecognized (word : String) : String := "Unrecognized argument: " ++ word ++ "\n"

/-- The report of a value that was refused. -/
def badValue (what name value reason : String) : String :=
  "Error parsing " ++ what ++ " '" ++ name ++ "' with value '" ++ value ++ "': " ++ reason ++ "\n"

variable {ρ : Type}

/-- Takes a positional word. -/
def Progress.positional (p : Progress ρ) (word : String) : Except String (Progress ρ) :=
  match p.expected with
  | [] => .error (unrecognized word)
  | next :: rest =>
    match next.fill word p.record with
    | .error reason => .error (badValue "positional argument" next.name word reason)
    | .ok record => .ok { p with record, expected := rest }

/-- Takes the words that are left. -/
def Progress.read (options : List (ValueOption ρ)) (p : Progress ρ) : List String → Except String (Progress ρ)
  | [] => .ok p
  | word :: rest =>
    if p.optionsEnded then do (← p.positional word).read options rest
    else if word = "--help" ∨ word = "help" then { p with helpAsked := true }.read options rest
    else if word = "--" then { p with optionsEnded := true }.read options rest
    else if word.toList.head? ≠ some '-' then do (← p.positional word).read options rest
    else if p.helpAsked then .error "Trailing arguments are not allowed after `help`."
    else match options.find? fun o => o.spellings.contains word with
      | none => .error (unrecognized word)
      | some o =>
        match rest with
        | [] => .error ("No value provided for option '" ++ word ++ "'.\n")
        | value :: rest =>
          match o.fill value p.record with
          | .error reason => .error (badValue "option" word value reason)
          | .ok record => { p with record }.read options rest

/-- Reads an argument list into a record. -/
def Spec.read (spec : Spec ρ) (initial : ρ) (args : List String) : Outcome ρ :=
  match ({ record := initial, expected := spec.positionals } : Progress ρ).read spec.options args with
  | .error text => .refused text
  | .ok p => if p.helpAsked then .help spec.usage else .accepted p.record

end Options

end PipelineShell
