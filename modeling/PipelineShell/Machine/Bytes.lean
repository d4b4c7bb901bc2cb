/-!
# Bytes and text
-/

namespace PipelineShell

/-- The contents of a file or of a pipe. -/
abbrev Bytes := List UInt8

namespace Bytes

/-- The UTF-8 form of a text. -/
def ofString (text : String) : Bytes := text.toUTF8.toList

/-- The text that bytes are the UTF-8 form of. -/
def toString? (b : Bytes) : Option String := String.fromUTF8? b.toByteArray

/-- The text of bytes, with a replacement character where they are not the form of any. -/
def toText (b : Bytes) : String := (toString? b).getD "\ufffd"

/-- Writes bytes into contents from an offset on. A gap before the offset is filled with zeros. -/
def splice (contents : Bytes) (offset : Nat) (b : Bytes) : Bytes :=
  contents.take offset ++ List.replicate (offset - contents.length) 0 ++ b ++ contents.drop (offset + b.length)

theorem splice_at_end (contents b : Bytes) : splice contents contents.length b = contents ++ b := by
  simp [splice]

/-- The newline. -/
def newline : UInt8 := 10

end Bytes

/-- Puts an element in front of stretches: a separator begins a stretch, anything else goes to the first one. -/
def consPiece {α : Type} (isSeparator : α → Bool) (a : α) : List (List α) → List (List α)
  | [] => [[a]]
  | first :: others => if isSeparator a then [] :: first :: others else (a :: first) :: others

/-- The stretches of a list between separators; there is one more of them than there are separators. -/
def pieces {α : Type} (isSeparator : α → Bool) (l : List α) : List (List α) :=
  l.foldr (consPiece isSeparator) [[]]

/-- The lines of a list, without the separators that end them. A last line need not be ended. -/
def linesOf {α : Type} (isSeparator : α → Bool) (l : List α) : List (List α) :=
  let all := pieces isSeparator l
  if all.getLast?.any List.isEmpty then all.dropLast else all

end PipelineShell
