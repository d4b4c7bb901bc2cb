import PipelineShell.Limits
import PipelineShell.Line.Lexeme

/-!
# Statements of a line

`parseLine` turns one line into its statements. A syntax error refuses the line as a whole. A piece that breaks a limit is
set aside in its place (`Statement.discarded`): what is left of it is skipped up to the `;` that ends it, and the pieces
after it are read as if nothing had happened.

The lexemes of the line drive a `Scan`: the place where literal characters go, a cursor over the statement being collected,
and the statements finished so far. Limits are checked at the lexeme that would exceed them.
-/

namespace PipelineShell

/-- What makes a whole line unusable. -/
inductive SyntaxError where
  /-- An operator where it cannot stand. -/
  | unexpectedOperator (o : Operator)
  /-- A backslash at the end of the line. -/
  | unexpectedBackslash
  /-- The line ended inside a quoted stretch. -/
  | mismatchedQuotes
  | lineTooLong (length max : Nat)
  deriving DecidableEq, Repr

/-- The report of an unexpected token. -/
def unexpectedTokenMessage (token : String) : String := "Syntax error near unexpected token [" ++ token ++ "]"

/-- The report of a syntax error. -/
def SyntaxError.message : SyntaxError → String
  | .unexpectedOperator o => unexpectedTokenMessage o.text
  | .unexpectedBackslash => unexpectedTokenMessage "\\"
  | .mismatchedQuotes => "Syntax error: mismatched quotes"
  | .lineTooLong length max =>
    "Input line too long (" ++ toString length ++ " > " ++ toString max ++ " characters)"

/-- What stops a lexeme from being taken. -/
inductive Fault where
  | syntaxError (e : SyntaxError)
  | limit (e : LimitError)
  deriving DecidableEq, Repr

/-- Where literal characters go. -/
inductive Place where
  /-- Into the argument being read; operators are live. -/
  | argument
  /-- Into the path after `>` or `>>`. -/
  | outputPath
  /-- Into the path after `<`. -/
  | inputPath
  /-- Nowhere: the rest of a statement that broke a limit is dropped, up to its `;`. -/
  | skipping
  deriving DecidableEq, Repr

/-- What has been collected of the statement being read. -/
structure Cursor where
  /-- The stages that a `|` has ended. -/
  commands : List Command := []
  /-- The finished words of the current stage. -/
  argv : List String := []
  /-- The word being read. -/
  token : String := ""
  input : Option String := none
  output : Option OutputTarget := none
  deriving DecidableEq, Repr

/-- The first five characters of a text, shown where the text itself is too long. -/
def opening (text : String) : String := String.ofList (text.toList.take 5)

namespace Cursor

/-- Nothing has been collected. -/
def isBlank (k : Cursor) : Bool :=
  k.commands.isEmpty && k.argv.isEmpty && k.token.isEmpty && k.input.isNone && k.output.isNone

/-- The names of the first two stages, as far as they have been read. -/
def stageNames (k : Cursor) : String × String :=
  match k.commands.map Command.name ++ k.argv.take 1 with
  | [] => ("", "")
  | [first] => (first, "")
  | first :: second :: _ => (first, second)

/-- Adds a character to the word being read. -/
def pushToken (limits : Limits) (k : Cursor) (c : Char) : Except LimitError Cursor :=
  if k.token.utf8ByteSize + c.utf8Size > limits.maxTokenLength then .error (.argumentTooLong (opening k.token))
  else .ok { k with token := k.token.push c }

/-- A path with one more character. -/
def extendPath (limits : Limits) (path : String) (c : Char) : Except LimitError String :=
  if path.utf8ByteSize + c.utf8Size > limits.maxPathLength then .error (.pathTooLong (opening path))
  else .ok (path.push c)

/-- Adds a character to the output path. -/
def pushOutput (limits : Limits) (k : Cursor) (c : Char) : Except LimitError Cursor :=
  let target := k.output.getD ⟨"", .truncate⟩
  (extendPath limits target.path c).map fun path => { k with output := some { target with path } }

/-- Adds a character to the input path. -/
def pushInput (limits : Limits) (k : Cursor) (c : Char) : Except LimitError Cursor :=
  (extendPath limits (k.input.getD "") c).map fun path => { k with input := some path }

/-- Ends the word being read; between words there is nothing to end. -/
def endToken (limits : Limits) (k : Cursor) : Except LimitError Cursor :=
  if k.token.isEmpty then .ok k
  else if k.argv.length ≥ limits.maxArgs then .error (.tooManyArguments (k.argv.headD k.token))
  else .ok { k with argv := k.argv ++ [k.token], token := "" }

/-- The finished stages and the current one. -/
def allCommands (k : Cursor) : List Command := k.commands ++ (Command.ofArgv? k.argv).toList

/-- The pipeline that has been collected. -/
def pipeline (k : Cursor) : Pipeline := ⟨k.allCommands, k.input, k.output⟩

/-- A path has been begun after the operator that asks for it. -/
def outputStarted (k : Cursor) : Bool := k.output.any fun target => !target.path.isEmpty

/-- A path has been begun after `<`. -/
def inputStarted (k : Cursor) : Bool := k.input.any fun path => !path.isEmpty

end Cursor

/-- The state between two lexemes. -/
structure Scan where
  place : Place := .argument
  cursor : Cursor := {}
  statements : List Statement := []
  deriving DecidableEq, Repr

namespace Scan

/-- Records a statement; past the limit on statements only its place is kept. -/
def push (limits : Limits) (s : Scan) (statement : Statement) : Scan :=
  let kept := if s.statements.length ≥ limits.maxStatements then .discarded .tooManyStatements else statement
  { s with statements := s.statements ++ [kept] }

/-- Records the collected pipeline and starts the next statement. -/
def complete (limits : Limits) (s : Scan) : Scan :=
  { s with place := .argument, cursor := {} }.push limits (.ready s.cursor.pipeline)

/-- Records a broken limit and drops the rest of the statement. -/
def discard (limits : Limits) (s : Scan) (e : LimitError) : Scan :=
  { s with place := .skipping, cursor := {} }.push limits (.discarded e)

/-- Ends the word being read. -/
def endToken (limits : Limits) (s : Scan) : Except Fault Scan :=
  match s.cursor.endToken limits with
  | .ok cursor => .ok { s with cursor }
  | .error e => .error (.limit e)

/-- Takes a literal character. -/
def literal (limits : Limits) (s : Scan) (c : Char) : Except Fault Scan :=
  let pushed := match s.place with
    | .argument => s.cursor.pushToken limits c
    | .outputPath => s.cursor.pushOutput limits c
    | .inputPath => s.cursor.pushInput limits c
    | .skipping => .ok s.cursor
  match pushed with
  | .ok cursor => .ok { s with cursor }
  | .error e => .error (.limit e)

/-- `|` ends a stage, which must have a word and no output redirection. -/
def pipe (limits : Limits) (s : Scan) : Except Fault Scan := do
  let s ← s.endToken limits
  if s.cursor.argv.isEmpty || s.cursor.output.isSome then
    .error (.syntaxError (.unexpectedOperator .pipe))
  else if s.cursor.commands.length + 2 > limits.maxStages then
    .error (.limit (.tooManyStages s.cursor.stageNames.1 s.cursor.stageNames.2))
  else
    .ok { s with cursor := { s.cursor with commands := s.cursor.allCommands, argv := [] } }

/-- `>` and `>>` ask for the output path, once a statement and after a word of the stage. -/
def redirectOutput (limits : Limits) (s : Scan) (mode : OutputMode) : Except Fault Scan := do
  let s ← s.endToken limits
  if s.cursor.argv.isEmpty || s.cursor.output.isSome then
    .error (.syntaxError (.unexpectedOperator (.output mode)))
  else
    .ok { s with place := .outputPath, cursor := { s.cursor with output := some ⟨"", mode⟩ } }

/-- `<` asks for the input path, once a statement, in the first stage and after a word of it. -/
def redirectInput (limits : Limits) (s : Scan) : Except Fault Scan := do
  let s ← s.endToken limits
  if s.cursor.argv.isEmpty || !s.cursor.commands.isEmpty || s.cursor.input.isSome then
    .error (.syntaxError (.unexpectedOperator .input))
  else
    .ok { s with place := .inputPath, cursor := { s.cursor with input := some "" } }

/-- `;` ends a statement, whose last stage must have a word. A limit broken by the word it ends leaves nothing to skip. -/
def semicolon (limits : Limits) (s : Scan) : Except Fault Scan :=
  match s.cursor.endToken limits with
  | .error e => .ok { s.discard limits e with place := .argument }
  | .ok cursor =>
    if cursor.argv.isEmpty then .error (.syntaxError (.unexpectedOperator .semicolon))
    else .ok ({ s with cursor }.complete limits)

/-- Takes an operator where operators are live. -/
def operate (limits : Limits) (s : Scan) : Operator → Except Fault Scan
  | .pipe => s.pipe limits
  | .input => s.redirectInput limits
  | .output mode => s.redirectOutput limits mode
  | .semicolon => s.semicolon limits

/-- A path still has to be begun: the last operator asked for it and no character of it has come. -/
def awaitsPath (s : Scan) : Bool :=
  match s.place with
  | .outputPath => !s.cursor.outputStarted
  | .inputPath => !s.cursor.inputStarted
  | .argument | .skipping => false

/-- Takes an operator. It ends a path that has been begun and cannot stand where one is asked for; in a statement that is
being dropped only `;` means anything. -/
def operator (limits : Limits) (s : Scan) (o : Operator) : Except Fault Scan :=
  if s.place = .skipping then
    .ok (if o = .semicolon then { s with place := .argument, cursor := {} } else s)
  else if s.awaitsPath then .error (.syntaxError (.unexpectedOperator o))
  else { s with place := .argument }.operate limits o

/-- Takes a blank: it ends a word, or a path that has been begun. -/
def blank (limits : Limits) (s : Scan) : Except Fault Scan :=
  match s.place with
  | .argument => s.endToken limits
  | .outputPath | .inputPath => .ok (if s.awaitsPath then s else { s with place := .argument })
  | .skipping => .ok s

/-- Takes one lexeme. -/
def take (limits : Limits) (s : Scan) : Lexeme → Except Fault Scan
  | .literal c => s.literal limits c
  | .blank => s.blank limits
  | .operator o => s.operator limits o

/-- What becomes of a scan when a step of it went one way or the other: a broken limit sets the statement aside. -/
def settle (limits : Limits) (s : Scan) : Except Fault Scan → Except SyntaxError Scan
  | .ok next => .ok next
  | .error (.syntaxError e) => .error e
  | .error (.limit e) => .ok (s.discard limits e)

/-- One lexeme of the line. -/
def step (limits : Limits) (s : Scan) (l : Lexeme) : Except SyntaxError Scan := s.settle limits (s.take limits l)

/-- Ends the statement at the end of the line. Nothing at all, as after a `;`, is no statement. -/
def finishStatement (limits : Limits) (s : Scan) : Except Fault Scan := do
  let s ← s.endToken limits
  if s.cursor.isBlank then .ok s
  else if s.cursor.argv.isEmpty then .error (.syntaxError (.unexpectedOperator .pipe))
  else .ok (s.complete limits)

/-- The operator that still waits for its path at the end of the line. -/
def dangling? (s : Scan) : Option Operator :=
  match s.place with
  | .outputPath => (s.cursor.output.filter (·.path.isEmpty)).map (.output ·.mode)
  | .inputPath => (s.cursor.input.filter (·.isEmpty)).map fun _ => .input
  | .argument | .skipping => none

/-- Ends the line. -/
def finish (limits : Limits) (s : Scan) (ending : Ending) : Except SyntaxError (List Statement) :=
  match ending with
  | .openQuote => .error .mismatchedQuotes
  | .loneBackslash quoted =>
    if s.place ≠ .skipping then .error .unexpectedBackslash
    else if quoted then .error .mismatchedQuotes
    else .ok s.statements
  | .complete =>
    if s.place = .skipping then .ok s.statements
    else match s.dangling? with
      | some o => .error (.unexpectedOperator o)
      | none => (s.settle limits (s.finishStatement limits)).map Scan.statements

/-- Takes lexemes in order, up to the first syntax error. -/
def run (limits : Limits) (s : Scan) (lexemes : List Lexeme) : Except SyntaxError Scan := lexemes.foldlM (step limits) s

end Scan

/-- The statements a reading stands for. -/
def Reading.statements (limits : Limits) (r : Reading) : Except SyntaxError (List Statement) := do
  let s ← ({} : Scan).run limits r.lexemes
  s.finish limits r.ending

/-- Reads one line into the statements it contains, in order. -/
def parseLine (limits : Limits) (line : String) : Except SyntaxError (List Statement) :=
  if line.utf8ByteSize > limits.maxLineLength then .error (.lineTooLong line.utf8ByteSize limits.maxLineLength)
  else (Reading.ofLine line).statements limits

end PipelineShell
