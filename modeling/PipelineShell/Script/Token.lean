import PipelineShell.Decimal
import PipelineShell.Pipeline

/-!
# The words and operators of a script

`Token.readAll` takes a text apart. A word is a list of fragments: text, which may have been quoted, and parameters, which are
replaced when the word is used.
-/

namespace PipelineShell

namespace Script

/-- A parameter of a word. -/
structure Parameter where
  name : String
  /-- What stands for it where it is not set. -/
  fallback? : Option String := none
  /-- The fallback stands also for an empty value. -/
  orEmpty : Bool := false
  deriving DecidableEq, Repr

/-- A part of a word. -/
inductive Fragment where
  | text (value : String) (quoted : Bool)
  | parameter (p : Parameter) (quoted : Bool)
  deriving DecidableEq, Repr

/-- A word before its parameters are replaced. -/
abbrev Word := List Fragment

namespace Word

/-- A word with one more character. -/
def push (w : Word) (c : Char) (quoted : Bool) : Word :=
  match w.getLast? with
  | some (.text value q) =>
    if q = quoted then w.dropLast ++ [.text (value.push c) quoted] else w ++ [.text c.toString quoted]
  | _ => w ++ [.text c.toString quoted]

/-- The text of a word without quotes and parameters. -/
def literal? : Word → Option String
  | [.text value false] => some value
  | _ => none

end Word

/-- What a redirection does. -/
inductive RedirectionKind where
  | input
  | output (mode : OutputMode)
  /-- The target names a descriptor. -/
  | duplicate
  deriving DecidableEq, Repr

/-- A unit of a script. -/
inductive Token where
  | word (w : Word)
  /-- A redirection of a descriptor; its target is the next word. -/
  | redirection (fd : Nat) (kind : RedirectionKind)
  | pipe
  | and
  | or
  | semicolon
  | ampersand
  | newline
  deriving DecidableEq, Repr

/-- Why a text is no script. -/
inductive ScriptError where
  | unterminatedQuote
  | badSubstitution
  | missingBrace
  | unexpected (token : String)
  | unexpectedEnd
  deriving DecidableEq, Repr

/-- The wording of an error. -/
def ScriptError.message : ScriptError → String
  | unterminatedQuote => "Syntax error: Unterminated quoted string"
  | badSubstitution => "Bad substitution"
  | missingBrace => "Syntax error: Missing '\x7d'"
  | unexpected token => "Syntax error: " ++ token ++ " unexpected"
  | unexpectedEnd => "Syntax error: end of file unexpected"

/-- A character of a name. -/
def isNameChar (c : Char) : Bool := c.isAlphanum || c = '_'

/-- A text is a name. -/
def isName (text : List Char) : Bool :=
  match text with
  | [] => false
  | c :: cs => isNameChar c && !c.isDigit && cs.all isNameChar

/-- The parameters of one character that is no letter. -/
def specialParameters : List Char := ['#', '?', '$', '!', '@', '*', '-']

/-- The parameter between braces. -/
def bracedParameter? (body : List Char) : Option Parameter :=
  let name := match body with
    | c :: _ => if specialParameters.contains c then [c] else body.takeWhile isNameChar
    | [] => []
  if name.isEmpty then none
  else match body.drop name.length with
    | [] => some { name := String.ofList name }
    | '-' :: word => some { name := String.ofList name, fallback? := some (String.ofList word) }
    | ':' :: '-' :: word => some { name := String.ofList name, fallback? := some (String.ofList word), orEmpty := true }
    | _ => none

/-- A parameter after its dollar sign, and what follows it. A dollar sign that begins none stands for itself. -/
def readParameter : List Char → Except ScriptError (Option Parameter × List Char)
  | [] => .ok (none, [])
  | '{' :: cs =>
    let body := cs.takeWhile (· ≠ '}')
    match cs.drop body.length, bracedParameter? body with
    | _ :: rest, some p => .ok (some p, rest)
    | _ :: _, none => .error .badSubstitution
    | [], _ => .error .missingBrace
  | c :: cs =>
    if specialParameters.contains c ∨ c.isDigit then .ok (some { name := c.toString }, cs)
    else
      let name := (c :: cs).takeWhile isNameChar
      if name.isEmpty then .ok (none, c :: cs)
      else .ok (some { name := String.ofList name }, (c :: cs).drop name.length)

/-- Where in a text the reader is. -/
inductive Mode where
  | plain
  | singleQuoted
  | doubleQuoted
  deriving DecidableEq, Repr

namespace Token

/-- The token of a word that has come to its end, if there is one. -/
def ofWord (word? : Option Word) : List Token := (word?.map Token.word).toList

/-- The tokens of a redirection: one digit right before it names its descriptor, and any other word stands by itself, before
the redirection of the usual descriptor. -/
def redirect (word? : Option Word) (usual : Nat) (kind : RedirectionKind) : List Token :=
  match (word?.bind Word.literal?).bind fun text => if text.length = 1 then Decimal.natural? text else none with
  | some fd => [.redirection fd kind]
  | none => ofWord word? ++ [.redirection usual kind]

/-- The tokens of a text, and what ends them before its end. -/
abbrev Reading := List Token × Option ScriptError

/-- A reading with tokens in front. -/
def Reading.prepend (tokens : List Token) (r : Reading) : Reading := (tokens ++ r.1, r.2)

/-- Reads on in a text, with the word that has begun. `fuel` exceeds the length of the text. -/
def read : Nat → Mode → Option Word → List Char → Reading
  | 0, _, _, _ => ([], some .unexpectedEnd)
  | _, .plain, word?, [] => (ofWord word?, none)
  | _, _, _, [] => ([], some .unterminatedQuote)
  | fuel + 1, .singleQuoted, word?, c :: cs =>
    if c = '\'' then read fuel .plain word? cs
    else read fuel .singleQuoted (some ((word?.getD []).push c true)) cs
  | fuel + 1, .doubleQuoted, word?, c :: cs =>
    let word := word?.getD []
    match c, cs with
    | '"', _ => read fuel .plain word? cs
    | '\\', '\n' :: rest => read fuel .doubleQuoted word? rest
    | '\\', d :: rest =>
      if "$`\"\\".toList.contains d then read fuel .doubleQuoted (some (word.push d true)) rest
      else read fuel .doubleQuoted (some ((word.push '\\' true).push d true)) rest
    | '$', _ =>
      match readParameter cs with
      | .error e => ([], some e)
      | .ok (some p, rest) => read fuel .doubleQuoted (some (word ++ [.parameter p true])) rest
      | .ok (none, rest) => read fuel .doubleQuoted (some (word.push '$' true)) rest
    | _, _ => read fuel .doubleQuoted (some (word.push c true)) cs
  | fuel + 1, .plain, word?, c :: cs =>
    let word := word?.getD []
    let next (tokens : List Token) (rest : List Char) : Reading := (read fuel .plain none rest).prepend tokens
    match c, cs with
    | ' ', _ | '\t', _ => next (ofWord word?) cs
    | '\n', _ => next (ofWord word? ++ [.newline]) cs
    | ';', _ => next (ofWord word? ++ [.semicolon]) cs
    | '&', '&' :: rest => next (ofWord word? ++ [.and]) rest
    | '&', _ => next (ofWord word? ++ [.ampersand]) cs
    | '|', '|' :: rest => next (ofWord word? ++ [.or]) rest
    | '|', _ => next (ofWord word? ++ [.pipe]) cs
    | '(', _ => ([], some (.unexpected "\"(\""))
    | ')', _ => ([], some (.unexpected "\")\""))
    | '<', '&' :: rest => next (redirect word? 0 .duplicate) rest
    | '<', _ => next (redirect word? 0 .input) cs
    | '>', '&' :: rest => next (redirect word? 1 .duplicate) rest
    | '>', '>' :: rest => next (redirect word? 1 (.output .append)) rest
    | '>', '|' :: rest => next (redirect word? 1 (.output .truncate)) rest
    | '>', _ => next (redirect word? 1 (.output .truncate)) cs
    | '\'', _ => read fuel .singleQuoted (some (word ++ [.text "" true])) cs
    | '"', _ => read fuel .doubleQuoted (some (word ++ [.text "" true])) cs
    | '\\', '\n' :: rest => read fuel .plain word? rest
    | '\\', d :: rest => read fuel .plain (some (word.push d true)) rest
    | '$', _ =>
      match readParameter cs with
      | .error e => ([], some e)
      | .ok (some p, rest) => read fuel .plain (some (word ++ [.parameter p false])) rest
      | .ok (none, rest) => read fuel .plain (some (word.push '$' false)) rest
    | '#', _ =>
      if word?.isNone then read fuel .plain none (cs.dropWhile (· ≠ '\n'))
      else read fuel .plain (some (word.push c false)) cs
    | _, _ => read fuel .plain (some (word.push c false)) cs

/-- The tokens of a text. -/
def readAll (text : String) : Reading := read (text.length + 1) .plain none text.toList

end Token

end Script

end PipelineShell
