import PipelineShell.Text.Grapheme

/-!
# Backspaces in a line

A backspace takes back the grapheme cluster before it, as long as there is one. Where a cluster ends is settled on the line as
it was typed, backspaces included: what is taken back does not bring its neighbours together.
-/

namespace PipelineShell

namespace Line

/-- The character that takes another one back. -/
def backspace : Char := Char.ofNat 8

/-- The length of a text in UTF-8. -/
def byteLength (text : List Char) : Nat := text.foldl (fun n c => n + c.utf8Size) 0

/-- A line as it is being typed. -/
structure Draft where
  /-- The text so far, its last character first. -/
  text : List Char := []
  /-- What each cluster of it counts for, the last one first. -/
  sizes : List Nat := []
  deriving DecidableEq, Repr

namespace Draft

/-- The sizes of clusters are counted in one byte. -/
def sizeModulus : Nat := 256

/-- Takes characters away until so many bytes are gone. -/
def dropBytes : Nat → List Char → List Char
  | 0, text => text
  | _, [] => []
  | n + 1, c :: rest => dropBytes (n + 1 - c.utf8Size) rest
termination_by _ text => text.length

/-- Types a cluster. -/
def type (d : Draft) (cluster : List Char) : Draft :=
  if cluster = [backspace] then
    match d.sizes with
    | [] => d
    | size :: sizes => ⟨dropBytes size d.text, sizes⟩
  else ⟨cluster.reverse ++ d.text, byteLength cluster % sizeModulus :: d.sizes⟩

end Draft

/-- What remains of a line when its backspaces have had their effect. -/
def edit (line : String) : String :=
  String.ofList ((Grapheme.clusters line.toList).foldl Draft.type {}).text.reverse

/-- A line without its end: a line feed, and a carriage return before it. -/
def withoutEnd (line : List Char) : List Char :=
  if line.getLast? = some '\n' then
    if line.dropLast.getLast? = some '\r' then line.dropLast.dropLast else line.dropLast
  else line

/-- The line that comes in as a text. -/
def ofInput (text : String) : String := edit (String.ofList (withoutEnd text.toList))

end Line

end PipelineShell
