import PipelineShell.Builtin.Basic

/-!
# Builtins described by data

A table of these configures a shell without code: each entry says for which name and number of arguments it stands, and what
it does, in a fixed order.
-/

namespace PipelineShell

/-- A builtin described by data. What is present is done in the order of the fields. -/
structure ScriptedBuiltin where
  name : String
  /-- The entry stands only for calls with at least this many arguments. -/
  minArgs : Nat := 0
  /-- A line to write. -/
  line? : Option String := none
  /-- The arguments are written, as a list of quoted texts. -/
  listArguments : Bool := false
  /-- The status to ask to leave with. -/
  leaveWith? : Option ExitCode := none
  /-- A variable to bind. -/
  bind? : Option (String × String) := none
  /-- A variable whose value is written. -/
  show? : Option String := none
  /-- A failure to end with. -/
  failure? : Option Failure := none
  code : ExitCode := 0
  deriving DecidableEq, Repr

namespace ScriptedBuiltin

/-- The two last hexadecimal digits of a number. -/
def hexPair (n : Nat) : String := String.ofList [Nat.digitChar (n / 16 % 16), Nat.digitChar (n % 16)]

/-- A character inside a quoted text: a quote, a backslash and control characters are escaped. -/
def quotedChar (c : Char) : String :=
  match c with
  | '"' => "\\\""
  | '\\' => "\\\\"
  | '\n' => "\\n"
  | '\r' => "\\r"
  | '\t' => "\\t"
  | '\x08' => "\\b"
  | '\x0c' => "\\f"
  | c => if c.toNat < 32 then "\\u00" ++ hexPair c.toNat else c.toString

/-- A quoted text. -/
def quoted (text : String) : String := "\"" ++ String.join (text.toList.map quotedChar) ++ "\""

/-- A list of quoted texts. -/
def quotedList (texts : List String) : String := "[" ++ ",".intercalate (texts.map quoted) ++ "]"

variable {σ : Type}

/-- What the entry does. -/
def run (host : Host σ) (b : ScriptedBuiltin) (args : List String) : BuiltinM σ ExitCode := do
  if let some line := b.line? then BuiltinM.writeLine line
  if b.listArguments then BuiltinM.writeLine (quotedList args)
  if let some code := b.leaveWith? then
    BuiltinM.modifyEnvironment fun e => { e with exitRequested := some code }
  if let some (name, value) := b.bind? then BuiltinM.modifyEnvironment (·.setVar name value)
  if let some name := b.show? then
    let value ← BuiltinM.onHost ((← BuiltinM.environment).getVar host name)
    BuiltinM.writeLine (value.getD "(unset)")
  match b.failure? with
  | some failure => throw failure
  | none => return b.code

/-- The builtin of an entry. -/
def toBuiltin (host : Host σ) (b : ScriptedBuiltin) : Builtin σ where
  create? name args := if name = b.name ∧ b.minArgs ≤ args.length then some (b.run host args) else none

end ScriptedBuiltin

end PipelineShell
