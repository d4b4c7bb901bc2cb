import PipelineShell.Text.GraphemeTable

/-!
# Grapheme clusters

A grapheme cluster is what a reader takes for one character: a letter with its marks, a syllable of Hangul, a conjunct, a
flag, or pictographs joined to one. `clusters` takes a text apart into them, from left to right; whether a character goes to the
cluster before it depends on what that cluster ends with, which its `Tail` says.
-/

namespace PipelineShell

namespace Grapheme

/-- What a character does to the end of a cluster. -/
inductive Kind where
  | carriageReturn
  | lineFeed
  | control
  | extender
  | joiner
  | spacingMark
  | prepender
  /-- A regional indicator, two of which make a flag. -/
  | regional
  | leadingConsonant
  | vowel
  | trailingConsonant
  /-- A syllable of Hangul without a consonant at its end. -/
  | openSyllable
  /-- A syllable of Hangul with a consonant at its end. -/
  | closedSyllable
  | pictograph
  | other
  deriving DecidableEq, Repr

/-- The kind of a code point beyond ASCII. -/
def kindBeyond (n : Nat) : Kind :=
  if 0xAC00 ≤ n ∧ n ≤ 0xD7A3 then if (n - 0xAC00) % 28 = 0 then .openSyllable else .closedSyllable
  else if n = 0x200D then .joiner
  else if 0x1F1E6 ≤ n ∧ n ≤ 0x1F1FF then .regional
  else if within controls n then .control
  else if within extenders n then .extender
  else if within spacingMarks n then .spacingMark
  else if within prependers n then .prepender
  else if within leadingConsonants n then .leadingConsonant
  else if within vowels n then .vowel
  else if within trailingConsonants n then .trailingConsonant
  else if within pictographs n then .pictograph
  else .other

/-- The kind of a character. -/
def kind (c : Char) : Kind :=
  if c = '\r' then .carriageReturn
  else if c = '\n' then .lineFeed
  else if 0x20 ≤ c.toNat ∧ c.toNat < 0x7F then .other
  else if c.toNat < 0x20 then .control
  else kindBeyond c.toNat

/-- What a cluster ends with. -/
structure Tail where
  kind : Kind
  /-- It ends with a regional indicator that has no partner. -/
  unpaired : Bool := false
  /-- It ends with a pictograph and marks. -/
  pictograph : Bool := false
  /-- It ends with a pictograph, marks and a joiner. -/
  joined : Bool := false
  /-- It ends with a consonant of a script that writes conjuncts, marks and linkers. -/
  consonant : Bool := false
  /-- There is a linker after that consonant. -/
  linked : Bool := false
  deriving DecidableEq, Repr

namespace Tail

/-- The non-joiner keeps a linker from reaching the consonant after it. -/
def nonJoiner : Char := Char.ofNat 0x200C

/-- The tail of a cluster that begins with a character. -/
def start (c : Char) : Tail :=
  let k := Grapheme.kind c
  { kind := k
    unpaired := k = .regional
    pictograph := k = .pictograph
    consonant := within conjunctConsonants c.toNat }

/-- The tail of a cluster with one more character. -/
def push (t : Tail) (c : Char) : Tail :=
  let k := Grapheme.kind c
  let isMark := (k = .extender || k = .joiner) && c ≠ nonJoiner
  let begun := start c
  { kind := k
    unpaired := k = .regional && !t.unpaired
    pictograph := k = .pictograph || (t.pictograph && k = .extender)
    joined := t.pictograph && k = .joiner
    consonant := begun.consonant || (t.consonant && isMark)
    linked := t.consonant && isMark && (t.linked || within conjunctLinkers c.toNat) }

/-- A character goes to the cluster that ends so. -/
def takes (t : Tail) (c : Char) : Bool :=
  match t.kind, Grapheme.kind c with
  | .carriageReturn, .lineFeed => true
  | .carriageReturn, _ | .lineFeed, _ | .control, _ => false
  | _, .carriageReturn | _, .lineFeed | _, .control => false
  | _, .extender | _, .joiner | _, .spacingMark => true
  | .prepender, _ => true
  | .leadingConsonant, .leadingConsonant | .leadingConsonant, .vowel => true
  | .leadingConsonant, .openSyllable | .leadingConsonant, .closedSyllable => true
  | .openSyllable, .vowel | .openSyllable, .trailingConsonant => true
  | .vowel, .vowel | .vowel, .trailingConsonant => true
  | .closedSyllable, .trailingConsonant | .trailingConsonant, .trailingConsonant => true
  | _, .pictograph => t.joined
  | .regional, .regional => t.unpaired
  | _, _ => t.linked && within conjunctConsonants c.toNat

end Tail

/-- Goes on taking a text apart: `cluster` is the one that has begun, its last character first, and `t` its tail. -/
def clustersFrom (t : Tail) (cluster : List Char) : List Char → List (List Char)
  | [] => [cluster.reverse]
  | c :: rest =>
    if t.takes c then clustersFrom (t.push c) (c :: cluster) rest
    else cluster.reverse :: clustersFrom (Tail.start c) [c] rest

/-- The clusters of a text. -/
def clusters : List Char → List (List Char)
  | [] => []
  | c :: rest => clustersFrom (Tail.start c) [c] rest

theorem flatten_clustersFrom (t : Tail) (cluster text : List Char) :
    (clustersFrom t cluster text).flatten = cluster.reverse ++ text := by
  induction text generalizing t cluster with
  | nil => simp [clustersFrom]
  | cons c rest ih =>
    unfold clustersFrom
    split
    · rw [ih]
      simp
    · rw [List.flatten_cons, ih]
      simp

/-- Nothing of a text is lost. -/
theorem flatten_clusters (text : List Char) : (clusters text).flatten = text := by
  cases text with
  | nil => rfl
  | cons c rest => simp [clusters, flatten_clustersFrom]

end Grapheme

end PipelineShell
