import PipelineShell.Pipeline

/-!
# The lexical reading of a line

Quotes and escapes are settled here, before any structure is looked for, and no limit plays a part. A backslash makes the
next character literal, inside quotes and out; an unescaped double quote opens or closes a quoted stretch and stands for
nothing itself; inside quotes every other character is literal. Outside, blanks and the operators are told apart, `>>` being
one operator wherever two `>` are adjacent. `Reading.ofChars` gives the lexemes in order and says how the line ended.
-/

namespace PipelineShell

/-- The operators of a line. -/
inductive Operator where
  | pipe
  | input
  | output (mode : OutputMode)
  | semicolon
  deriving DecidableEq, Repr

/-- An operator as it is written. -/
def Operator.text : Operator → String
  | .pipe => "|"
  | .input => "<"
  | .output .truncate => ">"
  | .output .append => ">>"
  | .semicolon => ";"

/-- One unit of the reading. -/
inductive Lexeme where
  /-- A character that stands for itself. -/
  | literal (c : Char)
  /-- A blank that separates words. -/
  | blank
  | operator (o : Operator)
  deriving DecidableEq, Repr

/-- How the reading of a line ended. -/
inductive Ending where
  /-- Outside quotes, with every backslash followed by a character. -/
  | complete
  /-- Inside a quoted stretch. -/
  | openQuote
  /-- With a backslash that has no character after it, inside quotes or not. -/
  | loneBackslash (quoted : Bool)
  deriving DecidableEq, Repr

/-- The lexemes of a line and how it ended. -/
structure Reading where
  lexemes : List Lexeme
  ending : Ending
  deriving DecidableEq, Repr

namespace Reading

/-- A reading with one more lexeme in front. -/
def cons (l : Lexeme) (r : Reading) : Reading := { r with lexemes := l :: r.lexemes }

@[simp] theorem lexemes_cons (l : Lexeme) (r : Reading) : (r.cons l).lexemes = l :: r.lexemes := rfl

@[simp] theorem ending_cons (l : Lexeme) (r : Reading) : (r.cons l).ending = r.ending := rfl

/-- The lexeme of an unquoted, unescaped character that no lookahead concerns. -/
def plainLexeme : Char → Lexeme
  | ' ' => .blank
  | '|' => .operator .pipe
  | '<' => .operator .input
  | ';' => .operator .semicolon
  | '>' => .operator (.output .truncate)
  | c => .literal c

/-- Reads characters from outside or inside a quoted stretch. -/
def ofChars (quoted : Bool) : List Char → Reading
  | [] => ⟨[], if quoted then .openQuote else .complete⟩
  | ['\\'] => ⟨[], .loneBackslash quoted⟩
  | '\\' :: c :: rest => (ofChars quoted rest).cons (.literal c)
  | '"' :: rest => ofChars (!quoted) rest
  | '>' :: '>' :: rest =>
    if quoted then ((ofChars quoted rest).cons (.literal '>')).cons (.literal '>')
    else (ofChars quoted rest).cons (.operator (.output .append))
  | c :: rest => (ofChars quoted rest).cons (if quoted then .literal c else plainLexeme c)

/-- The reading of a whole line, which begins outside quotes. -/
def ofLine (line : String) : Reading := ofChars false line.toList

end Reading

end PipelineShell
