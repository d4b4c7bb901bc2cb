import PipelineShell.Proofs.Line.Broken
import PipelineShell.Proofs.Line.Isolation

/-!
# Lines joined by a `;`

The end of a line ends a statement as a `;` would. So where a line that a `;` ends is accepted, the line without it has the same
statements, and behind the `;` there is room for another line (`parseLine_joined`).
-/

namespace PipelineShell

open Line

namespace Scan

variable {limits : Limits} {s t : Scan}

theorem dangling_eq_none (h : s.awaitsPath = false) : s.dangling? = none := by
  unfold awaitsPath at h
  unfold dangling?
  split at h
  · cases ho : s.cursor.output with
    | none => rfl
    | some target => simpa [Cursor.outputStarted, ho] using h
  · cases hi : s.cursor.input with
    | none => rfl
    | some path => simpa [Cursor.inputStarted, hi] using h
  · rfl
  · rfl

/-- The end of the line records what a `;` would. -/
theorem finish_of_step_semicolon (h : s.step limits (.operator .semicolon) = .ok t) :
    s.finish limits .complete = .ok t.statements := by
  rw [step, take, operator] at h
  by_cases hplace : s.place = .skipping
  · rw [if_pos hplace] at h
    rw [finish, if_pos hplace, ← Except.ok.inj h]
    rfl
  · rw [if_neg hplace] at h
    split at h
    · cases h
    · rename_i hbegun
      rw [finish, if_neg hplace, dangling_eq_none (by simpa using hbegun), finishStatement, endToken]
      cases hk : s.cursor.endToken limits with
      | error e =>
        rw [operate_of_error (s := { s with place := .argument }) hk, if_pos rfl] at h
        simp only [bind, Except.bind, settle, Except.map]
        rw [← Except.ok.inj h, discard_eq, discard_eq]
      | ok k =>
        rw [operate_of_ok (s := { s with place := .argument }) .semicolon hk, operate_semicolon (token_endToken hk)] at h
        simp only [bind, Except.bind]
        split at h
        · cases h
        · rename_i hargv
          have hargv : k.argv.isEmpty = false := by simpa using hargv
          rw [if_neg (by simp [Cursor.isBlank, hargv]), if_neg (by simp [hargv]), ← Except.ok.inj h]
          simp only [settle, Except.map, complete_eq]

/-- A `;` that is taken leaves at least one statement recorded. -/
theorem statements_ne_nil_of_step_semicolon (hlast : s.DropsLast) (h : s.step limits (.operator .semicolon) = .ok t) :
    t.statements ≠ [] := by
  cases effect_of_step h with
  | skipped hplace hl => exact absurd rfl hl
  | resumed hplace =>
    obtain ⟨before, e, hs⟩ := hlast hplace
    simp [hs]
  | setAside e hplace => simp [discard_eq]
  | setAsideWhole e hplace => simp [discard_eq]
  | completed hlive hargv => simp [complete_eq]

theorem run_concat {ls : List Lexeme} {l : Lexeme} (h : s.run limits (ls ++ [l]) = .ok t) :
    ∃ u, s.run limits ls = .ok u ∧ u.step limits l = .ok t := by
  rw [run_append] at h
  cases hu : s.run limits ls with
  | error e =>
    rw [hu] at h
    cases h
  | ok u =>
    rw [hu] at h
    exact ⟨u, rfl, (bind_pure (u.step limits l)).symm.trans h⟩

end Scan

/-- Up to the limit on statements all are kept. -/
theorem Limits.cap_of_le {limits : Limits} {sts : List Statement} (h : sts.length ≤ limits.maxStatements) :
    limits.cap sts = sts := by
  unfold cap
  refine List.ext_getElem List.length_mapIdx fun i _ hi => ?_
  rw [List.getElem_mapIdx, if_neg (by omega)]

variable {limits : Limits} {a b : String} {sts more : List Statement}

/-- Of a line that a `;` ends, what has been read up to and with the `;` is all there is. -/
theorem run_of_parseLine_semicolon (he : (Reading.ofLine a).ending = .complete) (h : parseLine limits (a ++ ";") = .ok sts) :
    ∃ s, ({} : Scan).run limits ((Reading.ofLine a).lexemes ++ [.operator .semicolon]) = .ok s ∧ s.statements = sts := by
  obtain ⟨-, s, hs, hfinish⟩ := parseLine_eq_ok h
  rw [ofLine_concat_semicolon he] at hs hfinish
  obtain ⟨u, -, hstep⟩ := Scan.run_concat hs
  rw [Scan.eq_of_step_semicolon hstep] at hfinish
  exact ⟨s, hs, Except.ok.inj hfinish⟩

/-- The line without its `;` has the same statements, and at least one. -/
theorem parseLine_of_semicolon (hback : ∀ quoted, (Reading.ofLine a).ending ≠ .loneBackslash quoted)
    (h : parseLine limits (a ++ ";") = .ok sts) : parseLine limits a = .ok sts ∧ sts ≠ [] := by
  have he := ending_of_parseLine_semicolon hback h
  obtain ⟨t, ht, rfl⟩ := run_of_parseLine_semicolon he h
  obtain ⟨s, hs, hstep⟩ := Scan.run_concat ht
  have hsize : a.utf8ByteSize ≤ limits.maxLineLength := by
    have := (parseLine_eq_ok h).1
    rw [String.utf8ByteSize_append] at this
    omega
  have hempty : ({} : Scan).DropsLast := nofun
  have hlast : s.DropsLast := Scan.run_induction (fun h he => h.step he) hempty hs
  refine ⟨?_, Scan.statements_ne_nil_of_step_semicolon hlast hstep⟩
  rw [parseLine, if_neg (by omega), Reading.statements, hs, he]
  exact Scan.finish_of_step_semicolon hstep

/-- Behind the `;` another line adds its own statements, as long as the limits leave room for both. -/
theorem parseLine_joined (hback : ∀ quoted, (Reading.ofLine a).ending ≠ .loneBackslash quoted)
    (ha : parseLine limits (a ++ ";") = .ok sts) (hb : parseLine limits b = .ok more)
    (hsize : (a ++ ";" ++ b).utf8ByteSize ≤ limits.maxLineLength) (hcount : (sts ++ more).length ≤ limits.maxStatements) :
    parseLine limits (a ++ ";" ++ b) = .ok (sts ++ more) := by
  have he := ending_of_parseLine_semicolon hback ha
  obtain ⟨s, hs, rfl⟩ := run_of_parseLine_semicolon he ha
  obtain ⟨-, t, ht, hfinish⟩ := parseLine_eq_ok hb
  -- the scan of the second line, behind the statements of the first
  have hrest : (({} : Scan).behind limits s.statements).run limits (Reading.ofLine b).lexemes =
      .ok (t.behind limits s.statements) := by
    rw [Scan.run_behind, ht]
    rfl
  have hrun : ({} : Scan).run limits (Reading.ofLine (a ++ ";" ++ b)).lexemes = .ok (t.behind limits s.statements) := by
    rw [← Scan.eq_behind_of_run_semicolon hs] at hrest
    rw [ofLine_append_semicolon he, List.append_cons, Scan.run_append, hs]
    exact hrest
  rw [parseLine, if_neg (by omega), Reading.statements, hrun, ofLine_append_semicolon he]
  show Scan.finish limits _ _ = _
  rw [Scan.finish_behind, hfinish, Except.map, Limits.cap_of_le hcount]

end PipelineShell
