import Mathlib.Data.List.Induction
import Mathlib.Logic.Relation
import PipelineShell.Proofs.Line.Completion

/-!
# A line between two turns of its loop

A line can be read in one loop: a turn takes the next lexeme from the characters that are left and gives it to the scan, or steps over
a quote. A `Configuration` is what this loop holds between two turns, and `Configuration.Reached` says which of them a line leads to.
These are the scans of the prefixes of its reading and no others (`exists_reached_iff`), so what holds in every configuration holds
wherever `parseLine` may be.
-/

namespace PipelineShell

namespace Line

/-- `Begins quoted cs l rest`: read from outside or inside a quoted stretch, `cs` begins with the lexeme `l`, and `rest` comes behind
it. -/
inductive Begins : Bool → List Char → Lexeme → List Char → Prop where
  | escaped {quoted : Bool} {rest : List Char} (c : Char) : Begins quoted ('\\' :: c :: rest) (.literal c) rest
  | inside {c : Char} {rest : List Char} : c ≠ '\\' → c ≠ '"' → Begins true (c :: rest) (.literal c) rest
  | append {rest : List Char} : Begins false ('>' :: '>' :: rest) (.operator (.output .append)) rest
  | plain {c : Char} {rest : List Char} : c ≠ '\\' → c ≠ '"' → (c = '>' → rest.head? ≠ some '>') →
      Begins false (c :: rest) (Reading.plainLexeme c) rest

/-- What the loop over a line holds between two turns. -/
structure Configuration where
  /-- The characters that are left. -/
  rest : List Char
  /-- They begin inside a quoted stretch. -/
  quoted : Bool
  /-- The lexemes that have been taken. -/
  lexemes : List Lexeme
  scan : Scan
  deriving DecidableEq, Repr

/-- One turn of the loop. A quote is no lexeme, it only changes how what is left is read. What is dropped of a statement is stepped
through by lexemes too: as the scan stays as it is there, taking a `>>` in two turns would lead to no other scan. -/
inductive Turn (limits : Limits) : Configuration → Configuration → Prop where
  | quote {quoted : Bool} {rest : List Char} {ls : List Lexeme} {s : Scan} :
      Turn limits ⟨'"' :: rest, quoted, ls, s⟩ ⟨rest, !quoted, ls, s⟩
  | lexeme {quoted : Bool} {cs rest : List Char} {ls : List Lexeme} {l : Lexeme} {s t : Scan} :
      Begins quoted cs l rest → s.step limits l = .ok t → Turn limits ⟨cs, quoted, ls, s⟩ ⟨rest, quoted, ls ++ [l], t⟩

namespace Configuration

/-- A line of which nothing has been read. -/
def ofLine (line : String) : Configuration := ⟨line.toList, false, [], {}⟩

/-- Some number of turns leads from the line to the configuration. -/
def Reached (limits : Limits) (line : String) (c : Configuration) : Prop := Relation.ReflTransGen (Turn limits) (ofLine line) c

/-- The reading of the line, as far as the configuration tells: the lexemes that have been taken, and then those of what is left. -/
def reading (c : Configuration) : Reading :=
  ⟨c.lexemes ++ (Reading.ofChars c.quoted c.rest).lexemes, (Reading.ofChars c.quoted c.rest).ending⟩

end Configuration

variable {limits : Limits} {line : String} {quoted : Bool} {cs rest : List Char} {ls : List Lexeme} {l : Lexeme} {s : Scan}
  {c d : Configuration}

/-! ## The loop follows the reading -/

theorem ofChars_of_begins (h : Begins quoted cs l rest) : Reading.ofChars quoted cs = (Reading.ofChars quoted rest).cons l := by
  cases h with
  | escaped c => rw [Reading.ofChars]
  | inside hb hq => exact ofChars_inside hb hq
  | append => rw [Reading.ofChars, if_neg Bool.false_ne_true]
  | plain hb hq hg => rw [ofChars_cons hb hq hg, if_neg Bool.false_ne_true]

/-- A turn does not change the reading. -/
theorem Turn.reading_eq (h : Turn limits c d) : c.reading = d.reading := by
  cases h with
  | @quote quoted rest ls s => rw [Configuration.reading, Configuration.reading, Reading.ofChars]
  | lexeme hbegins hstep =>
    simp only [Configuration.reading, ofChars_of_begins hbegins, Reading.lexemes_cons, Reading.ending_cons, List.append_assoc,
      List.singleton_append]

theorem reading_of_reached (h : c.Reached limits line) : c.reading = Reading.ofLine line := by
  induction h with
  | refl => rfl
  | tail _ hturn ih => rw [← hturn.reading_eq, ih]

/-- At the end of a line its lexemes have been taken. -/
theorem ofLine_of_reached (h : c.Reached limits line) (hrest : c.rest = []) :
    Reading.ofLine line = ⟨c.lexemes, if c.quoted then .openQuote else .complete⟩ := by
  rw [← reading_of_reached h, Configuration.reading, hrest, Reading.ofChars, List.append_nil]

/-- The scan has taken the lexemes. -/
theorem run_of_reached (h : c.Reached limits line) : ({} : Scan).run limits c.lexemes = .ok c.scan := by
  induction h with
  | refl => rfl
  | tail _ hturn ih =>
    cases hturn with
    | quote => exact ih
    | lexeme hbegins hstep => exact (Scan.run_concat_of_ok ih _).trans hstep

/-- Where the reading goes on with a lexeme, some quotes are stepped over and then it is there to be taken. -/
theorem exists_begins (limits : Limits) (ls : List Lexeme) (s : Scan) {more : List Lexeme} {e : Ending}
    (h : Reads quoted cs (l :: more) e) :
    ∃ quoted' cs' rest, Relation.ReflTransGen (Turn limits) ⟨cs, quoted, ls, s⟩ ⟨cs', quoted', ls, s⟩ ∧
      Begins quoted' cs' l rest := by
  generalize hlexemes : l :: more = all at h
  induction h with
  | finished | unclosed | alone => cases hlexemes
  | quote _ ih =>
    obtain ⟨quoted', cs', rest, hturns, hbegins⟩ := ih hlexemes
    exact ⟨quoted', cs', rest, .head .quote hturns, hbegins⟩
  | escaped c =>
    cases hlexemes
    exact ⟨_, _, _, .refl, .escaped c⟩
  | inside hb hq =>
    cases hlexemes
    exact ⟨_, _, _, .refl, .inside hb hq⟩
  | append =>
    cases hlexemes
    exact ⟨_, _, _, .refl, .append⟩
  | truncate hg =>
    cases hlexemes
    exact ⟨_, _, _, .refl, .plain (by decide) (by decide) fun _ => hg⟩
  | blank | pipe | input | semicolon =>
    cases hlexemes
    exact ⟨_, _, _, .refl, .plain (by decide) (by decide) fun h => absurd h (by decide)⟩
  | @plain c cs ls e hc =>
    cases hlexemes
    simp only [special, List.mem_cons, List.not_mem_nil, or_false, not_or] at hc
    obtain ⟨hb, hq, h1, h2, h3, h4, h5⟩ := hc
    have hplain : Reading.plainLexeme c = .literal c := by simp [Reading.plainLexeme]
    have hbegins : Begins false (c :: cs) (Reading.plainLexeme c) cs := .plain hb hq fun hg => absurd hg h5
    rw [hplain] at hbegins
    exact ⟨_, _, _, .refl, hbegins⟩

/-- The configurations that a line leads to hold the scans of the prefixes of its reading, and there is one for each of these. -/
theorem exists_reached_iff :
    (∃ c : Configuration, c.Reached limits line ∧ c.lexemes = ls ∧ c.scan = s) ↔
      ls <+: (Reading.ofLine line).lexemes ∧ ({} : Scan).run limits ls = .ok s := by
  constructor
  · rintro ⟨c, hc, rfl, rfl⟩
    refine ⟨?_, run_of_reached hc⟩
    rw [← reading_of_reached hc]
    exact List.prefix_append _ _
  · rintro ⟨hpre, hrun⟩
    induction ls using List.reverseRecOn generalizing s with
    | nil =>
      obtain rfl := Except.ok.inj hrun
      exact ⟨Configuration.ofLine line, .refl, rfl, rfl⟩
    | append_singleton ls l ih =>
      obtain ⟨t, ht, hstep⟩ := Scan.run_concat hrun
      obtain ⟨⟨cs, quoted, ls, t⟩, hc, rfl, rfl⟩ := ih ((List.prefix_append ls [l]).trans hpre) ht
      -- the lexeme is the first one of what is left
      rw [← reading_of_reached hc, Configuration.reading, List.prefix_append_right_inj] at hpre
      obtain ⟨more, hmore⟩ := hpre
      have hreads := reads_ofChars quoted cs
      rw [← hmore] at hreads
      obtain ⟨quoted', cs', rest, hturns, hbegins⟩ := exists_begins limits ls t hreads
      exact ⟨_, (hc.trans hturns).tail (.lexeme hbegins hstep), rfl, rfl⟩

end Line

end PipelineShell
