import PipelineShell.Proofs.Line.Effect
import PipelineShell.Proofs.Line.Reading

/-!
# Lines that are broken

A line is broken if it ends inside a quoted stretch, or with a backslash that has no character after it. Quotes and escapes settle
that, whatever else the line says (`Line.endingOf`). A broken line is refused, with one exception: where a statement has been set
aside the scan no longer asks whether a backslash has a character after it, so a lone one outside quotes is passed over there
(`parseLine_of_broken`, `skipped_backslash_is_accepted`).
-/

namespace PipelineShell

namespace Line

/-- How a text ends by the rules of quotes and escapes alone: a backslash takes the next character with it, and an unescaped double
quote opens or closes a quoted stretch. -/
def endingOf (quoted : Bool) : List Char → Ending
  | [] => if quoted then .openQuote else .complete
  | ['\\'] => .loneBackslash quoted
  | '\\' :: _ :: rest => endingOf quoted rest
  | '"' :: rest => endingOf (!quoted) rest
  | _ :: rest => endingOf quoted rest

/-- A character that is neither a backslash nor a quote makes no difference. -/
theorem endingOf_cons {quoted : Bool} {c : Char} {cs : List Char} (hb : c ≠ '\\') (hq : c ≠ '"') :
    endingOf quoted (c :: cs) = endingOf quoted cs := by
  rw [endingOf]
  · exact fun h _ => hb h
  · exact fun _ _ h _ => hb h
  · exact hq

/-- Blanks and operators do not change how a line ends. -/
theorem ending_of_reads {quoted : Bool} {cs : List Char} {ls : List Lexeme} {e : Ending} (h : Reads quoted cs ls e) :
    e = endingOf quoted cs := by
  induction h with
  | finished | unclosed | alone => rfl
  | escaped c _ ih => rw [ih, endingOf]
  | quote _ ih => rw [ih, endingOf]
  | inside hb hq _ ih => rw [ih, endingOf_cons hb hq]
  | blank _ ih | pipe _ ih | input _ ih | semicolon _ ih | truncate _ _ ih => rw [ih, endingOf_cons (by decide) (by decide)]
  | append _ ih => rw [ih, endingOf_cons (by decide) (by decide), endingOf_cons (by decide) (by decide)]
  | plain hc _ ih =>
    have hb := ne_of_mem_of_not_mem (show '\\' ∈ special by decide) hc
    have hq := ne_of_mem_of_not_mem (show '"' ∈ special by decide) hc
    rw [ih, endingOf_cons hb.symm hq.symm]

theorem ending_ofLine (line : String) : (Reading.ofLine line).ending = endingOf false line.toList :=
  ending_of_reads (reads_ofChars false line.toList)

end Line

namespace Scan

variable {limits : Limits} {s t : Scan}

/-- While a statement is being dropped, the last one recorded is the report of what it broke. -/
def DropsLast (s : Scan) : Prop := s.place = .skipping → ∃ before e, s.statements = before ++ [.discarded e]

theorem dropsLast_discard (limits : Limits) (s : Scan) (e : LimitError) : (s.discard limits e).DropsLast := by
  intro _
  rw [discard_eq]
  exact ⟨_, _, rfl⟩

theorem DropsLast.step {l : Lexeme} (h : s.DropsLast) (he : Effect limits s l t) : t.DropsLast := by
  cases he with
  | skipped hplace hl => exact h
  | setAside e hplace => exact dropsLast_discard limits s e
  | tokenGrown c hplace hsize => exact h
  | outputGrown c target hplace htarget hsize => exact h
  | inputGrown c path hplace hpath hsize => exact h
  | wordEnded hplace hend => exact h
  | awaited hawaits => exact h
  | completed hlive hargv =>
    rw [complete_eq]
    exact nofun
  | resumed hplace => exact nofun
  | setAsideWhole e hplace => exact nofun
  | pathEnded hplace hbegun => exact nofun
  | piped hlive hargv houtput hstages => exact nofun
  | inputAsked hlive hargv hcommands hinput => exact nofun
  | outputAsked mode hlive hargv houtput => exact nofun

/-- The end of a broken line is taken only where a statement is being dropped, and only a lone backslash outside quotes. -/
theorem finish_of_broken {e : Ending} (he : e ≠ .complete) (sts : List Statement) :
    s.finish limits e = .ok sts ↔ e = .loneBackslash false ∧ s.place = .skipping ∧ s.statements = sts := by
  cases e with
  | complete => exact absurd rfl he
  | openQuote =>
    constructor
    · intro h
      cases h
    · rintro ⟨h, -⟩
      cases h
  | loneBackslash quoted =>
    by_cases hplace : s.place = .skipping
    · rw [finish, if_neg (not_not_intro hplace)]
      cases quoted <;> simp [hplace]
    · rw [finish, if_pos hplace]
      simp [hplace]

end Scan

/-- Of a line, up to its end, the statements recorded, where the last of them has been set aside and is being dropped. -/
def Limits.Drops (limits : Limits) (line : String) (sts : List Statement) : Prop :=
  ∃ s, ({} : Scan).run limits (Reading.ofLine line).lexemes = .ok s ∧ s.place = .skipping ∧ s.statements = sts

/-- A broken line is refused, unless it ends with a lone backslash outside quotes in a statement that has been set aside before.
Then what has been recorded of it is the result, the report of that statement last. -/
theorem parseLine_of_broken {limits : Limits} {line : String} (h : Line.endingOf false line.toList ≠ .complete)
    (sts : List Statement) :
    (parseLine limits line = .ok sts ↔ Line.endingOf false line.toList = .loneBackslash false ∧
      line.utf8ByteSize ≤ limits.maxLineLength ∧ limits.Drops line sts) ∧
    (parseLine limits line = .ok sts → ∃ before e, sts = before ++ [.discarded e]) := by
  rw [← Line.ending_ofLine] at h ⊢
  have hdrops (hparse : parseLine limits line = .ok sts) : (Reading.ofLine line).ending = .loneBackslash false ∧
      line.utf8ByteSize ≤ limits.maxLineLength ∧ limits.Drops line sts := by
    obtain ⟨hsize, s, hs, hfinish⟩ := parseLine_eq_ok hparse
    obtain ⟨he, hplace, hsts⟩ := (Scan.finish_of_broken h sts).mp hfinish
    exact ⟨he, hsize, s, hs, hplace, hsts⟩
  refine ⟨⟨hdrops, ?_⟩, ?_⟩
  · rintro ⟨he, hsize, s, hs, hplace, hsts⟩
    have hfinish : s.finish limits _ = .ok sts := (Scan.finish_of_broken h sts).mpr ⟨he, hplace, hsts⟩
    rw [parseLine, if_neg (Nat.not_lt_of_le hsize), Reading.statements, hs]
    exact hfinish
  · intro hparse
    obtain ⟨-, -, s, hs, hplace, rfl⟩ := hdrops hparse
    have hempty : ({} : Scan).DropsLast := Place.noConfusion
    have hlast : s.DropsLast := Scan.run_induction (fun h he => h.step he) hempty hs
    exact hlast hplace

/-- Inside quotes a lone backslash is refused also where the statement has been set aside. -/
theorem parseLine_of_broken_quoted :
    Line.endingOf false "a b \"c\\".toList ≠ .complete ∧ ∀ sts, parseLine { maxArgs := 1 } "a b \"c\\" ≠ .ok sts := by
  have hbroken : Line.endingOf false "a b \"c\\".toList ≠ .complete := by decide
  refine ⟨hbroken, fun sts hparse => ?_⟩
  have hends := ((parseLine_of_broken hbroken sts).1.mp hparse).1
  exact absurd hends (by decide)

/-- A lone backslash at the end of a statement that has been set aside is passed over, though the same line is refused where its
statement is kept. -/
theorem skipped_backslash_is_accepted :
    Line.endingOf false "a b \\".toList = .loneBackslash false ∧
      parseLine { maxArgs := 1 } "a b \\" = .ok [.discarded (.tooManyArguments "a")] ∧
      parseLine {} "a b \\" = .error .unexpectedBackslash := by
  refine ⟨by decide, ?_, ?_⟩
  · rfl
  · rfl

end PipelineShell
