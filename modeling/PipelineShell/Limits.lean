/-!
# Limits on one input line

Six thresholds decide when a statement is set aside or a line refused. None bounds an allocation: text is measured against
them while it is read. A limit of zero is allowed and simply admits nothing.
-/

namespace PipelineShell

/-- The thresholds one line is read under. Lengths are in bytes of the UTF-8 form. -/
structure Limits where
  /-- Statements per line. -/
  maxStatements : Nat := 8
  /-- Commands per pipeline. -/
  maxStages : Nat := 8
  /-- Words per command, the program name included. -/
  maxArgs : Nat := 8
  /-- Bytes per argument. -/
  maxTokenLength : Nat := 255
  /-- Bytes per redirection path. -/
  maxPathLength : Nat := 63
  /-- Bytes per line, without its line break. -/
  maxLineLength : Nat := 256
  deriving DecidableEq, Repr

instance : Inhabited Limits := ⟨{}⟩

end PipelineShell
