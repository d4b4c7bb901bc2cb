import PipelineShell.Proofs.Line.Fits

/-!
# What limits make of the statements of a line

`Judged` relates the pipelines of a line to the statements that some limits make of them: each pipeline stays what it is or is set
aside in its place. On the side of the scan, a step never takes back what has been recorded (`Scan.prefix_run`), so a statement that
has been set aside is still there at the end of the line.
-/

namespace PipelineShell

/-- What a statement may be that the limits make of the `i`th pipeline of a line: the pipeline itself if it fits and stands below
the limit on statements, and else a broken limit, which is the one on statements exactly where that is reached. -/
def Verdict (limits : Limits) (i : Nat) (p : Pipeline) : Statement → Prop
  | .ready q => q = p ∧ i < limits.maxStatements ∧ p.Fits limits
  | .discarded e => ¬ (i < limits.maxStatements ∧ p.Fits limits) ∧ (e = .tooManyStatements ↔ limits.maxStatements ≤ i)

/-- The statements that the limits make of pipelines, in order and one for each. -/
inductive Judged (limits : Limits) : List Pipeline → List Statement → Prop where
  | nil : Judged limits [] []
  | concat {ps : List Pipeline} {sts : List Statement} {p : Pipeline} {st : Statement} :
      Judged limits ps sts → Verdict limits sts.length p st → Judged limits (ps ++ [p]) (sts ++ [st])

/-- A statement has been set aside. -/
def Discards (sts : List Statement) : Prop := ∃ e, Statement.discarded e ∈ sts

namespace Judged

variable {limits : Limits} {ps : List Pipeline} {sts : List Statement}

theorem length_eq (h : Judged limits ps sts) : sts.length = ps.length := by
  induction h with
  | nil => rfl
  | concat _ _ ih => rw [List.length_append, List.length_append, ih]; rfl

/-- The statement in each place is one that the pipeline in that place allows. -/
theorem verdict (h : Judged limits ps sts) {i : Nat} {p : Pipeline} (hp : ps[i]? = some p) :
    ∃ st, sts[i]? = some st ∧ Verdict limits i p st := by
  induction h with
  | nil => cases hp
  | @concat ps sts q st hj hv ih =>
    have hlen := hj.length_eq
    rcases Nat.lt_trichotomy i ps.length with hi | hi | hi
    · rw [List.getElem?_append_left hi] at hp
      obtain ⟨st', hst, hv'⟩ := ih hp
      exact ⟨st', by rw [List.getElem?_append_left (hlen ▸ hi), hst], hv'⟩
    · subst hi
      rw [List.getElem?_concat_length] at hp
      rw [← hlen, ← Option.some.inj hp]
      exact ⟨st, List.getElem?_concat_length, hv⟩
    · rw [List.getElem?_eq_none (by simp; omega)] at hp
      cases hp

/-- Where nothing has been set aside the statements are the pipelines. -/
theorem eq_map_ready (h : Judged limits ps sts) (hd : ¬ Discards sts) : sts = ps.map .ready := by
  induction h with
  | nil => rfl
  | @concat ps sts p st hj hv ih =>
    have hsts : ¬ Discards sts := fun ⟨e, he⟩ => hd ⟨e, List.mem_append_left _ he⟩
    rw [List.map_append, ← ih hsts]
    cases st with
    | ready q =>
      rw [hv.1]
      rfl
    | discarded e => exact absurd ⟨e, List.mem_append_right _ (List.mem_singleton_self _)⟩ hd

/-- Nothing is set aside of pipelines that fit, if there are not too many. -/
theorem not_discards (hj : Judged limits ps sts) (hfit : ∀ p ∈ ps, p.Fits limits)
    (hlen : ps.length ≤ limits.maxStatements) : ¬ Discards sts := by
  rintro ⟨e, he⟩
  obtain ⟨i, hi, hget⟩ := List.getElem_of_mem he
  have hips : i < ps.length := hj.length_eq ▸ hi
  obtain ⟨st, hst, hv⟩ := hj.verdict (List.getElem?_eq_getElem hips)
  obtain rfl : Statement.discarded e = st := hget.symm.trans (Option.some.inj ((List.getElem?_eq_getElem hi).symm.trans hst))
  exact hv.1 ⟨Nat.lt_of_lt_of_le hips hlen, hfit _ (List.getElem_mem hips)⟩

end Judged

/-! ## Statements are only ever added -/

namespace Scan

variable {limits : Limits} {s s' : Scan}

theorem discard_eq (limits : Limits) (s : Scan) (e : LimitError) :
    s.discard limits e = ⟨.skipping, {}, s.statements ++
      [.discarded (if limits.maxStatements ≤ s.statements.length then .tooManyStatements else e)]⟩ := by
  unfold discard push
  split <;> rfl

theorem complete_eq (limits : Limits) (s : Scan) :
    s.complete limits = ⟨.argument, {}, s.statements ++
      [if limits.maxStatements ≤ s.statements.length then .discarded .tooManyStatements
        else .ready s.cursor.pipeline]⟩ := by
  unfold complete push
  split <;> rfl

theorem prefix_discard (limits : Limits) (s : Scan) (e : LimitError) :
    s.statements <+: (s.discard limits e).statements := by
  rw [discard_eq]
  exact List.prefix_append _ _

theorem prefix_complete (limits : Limits) (s : Scan) : s.statements <+: (s.complete limits).statements := by
  rw [complete_eq]
  exact List.prefix_append _ _

theorem prefix_literal {c : Char} (h : s.literal limits c = .ok s') : s.statements <+: s'.statements := by
  simp only [literal] at h
  split at h
  · obtain rfl := Except.ok.inj h
    exact List.prefix_rfl
  · cases h

theorem prefix_blank (h : s.blank limits = .ok s') : s.statements <+: s'.statements := by
  unfold blank endToken at h
  split at h
  · split at h
    · obtain rfl := Except.ok.inj h
      exact List.prefix_rfl
    · cases h
  · obtain rfl := Except.ok.inj h
    split <;> exact List.prefix_rfl
  · obtain rfl := Except.ok.inj h
    split <;> exact List.prefix_rfl
  · obtain rfl := Except.ok.inj h
    exact List.prefix_rfl

theorem token_endToken {k k' : Cursor} (h : k.endToken limits = .ok k') : k'.token = "" := by
  unfold Cursor.endToken at h
  split at h
  · rename_i ht
    rw [← Except.ok.inj h]
    simpa using ht
  · split at h
    · cases h
    · rw [← Except.ok.inj h]

/-- An operator first ends the word before it. -/
theorem operate_of_ok {k : Cursor} (o : Operator) (h : s.cursor.endToken limits = .ok k) :
    s.operate limits o = Scan.operate limits { s with cursor := k } o := by
  have hk : k.endToken limits = .ok k := by simp [Cursor.endToken, token_endToken h]
  cases o with
  | pipe => simp only [operate, pipe, endToken, h, hk]
  | input => simp only [operate, redirectInput, endToken, h, hk]
  | output mode => simp only [operate, redirectOutput, endToken, h, hk]
  | semicolon => simp only [operate, semicolon, h, hk]

/-- Where the word before it breaks a limit, `;` sets the statement aside and begins the next, and every other operator leaves
the rest of the statement to be skipped. -/
theorem operate_of_error {o : Operator} {e : LimitError} (h : s.cursor.endToken limits = .error e) :
    s.operate limits o =
      if o = .semicolon then .ok { s.discard limits e with place := .argument } else .error (.limit e) := by
  cases o with
  | semicolon => simp only [operate, semicolon, h, if_pos]
  | pipe => simp only [operate, pipe, endToken, h]; rfl
  | input => simp only [operate, redirectInput, endToken, h]; rfl
  | output mode => simp only [operate, redirectOutput, endToken, h]; rfl

/-! Where no word is being read an operator only looks at what has been collected. -/

theorem operate_pipe (ht : s.cursor.token = "") :
    s.operate limits .pipe =
      if s.cursor.argv = [] ∨ s.cursor.output ≠ none then .error (.syntaxError (.unexpectedOperator .pipe))
      else if limits.maxStages < s.cursor.commands.length + 2 then
        .error (.limit (.tooManyStages s.cursor.stageNames.1 s.cursor.stageNames.2))
      else .ok { s with cursor := { s.cursor with commands := s.cursor.allCommands, argv := [] } } := by
  have he : s.endToken limits = .ok s := by simp [endToken, Cursor.endToken, ht]
  simp only [operate, pipe, he, bind, Except.bind]
  simp [Option.isSome_iff_ne_none]

theorem operate_input (ht : s.cursor.token = "") :
    s.operate limits .input =
      if s.cursor.argv = [] ∨ s.cursor.commands ≠ [] ∨ s.cursor.input ≠ none then
        .error (.syntaxError (.unexpectedOperator .input))
      else .ok { s with place := .inputPath, cursor := { s.cursor with input := some "" } } := by
  have he : s.endToken limits = .ok s := by simp [endToken, Cursor.endToken, ht]
  simp only [operate, redirectInput, he, bind, Except.bind]
  simp [Option.isSome_iff_ne_none, or_assoc]

theorem operate_output (ht : s.cursor.token = "") (mode : OutputMode) :
    s.operate limits (.output mode) =
      if s.cursor.argv = [] ∨ s.cursor.output ≠ none then .error (.syntaxError (.unexpectedOperator (.output mode)))
      else .ok { s with place := .outputPath, cursor := { s.cursor with output := some ⟨"", mode⟩ } } := by
  have he : s.endToken limits = .ok s := by simp [endToken, Cursor.endToken, ht]
  simp only [operate, redirectOutput, he, bind, Except.bind]
  simp [Option.isSome_iff_ne_none]

theorem operate_semicolon (ht : s.cursor.token = "") :
    s.operate limits .semicolon =
      if s.cursor.argv = [] then .error (.syntaxError (.unexpectedOperator .semicolon)) else .ok (s.complete limits) := by
  have hk : s.cursor.endToken limits = .ok s.cursor := by simp [Cursor.endToken, ht]
  simp only [operate, semicolon, hk]
  simp

/-! A step keeps the statements recorded before it. -/

theorem prefix_operate {o : Operator} (h : s.operate limits o = .ok s') : s.statements <+: s'.statements := by
  cases hk : s.cursor.endToken limits with
  | error e =>
    rw [operate_of_error hk] at h
    split at h
    · rw [← Except.ok.inj h]
      exact prefix_discard limits s e
    · cases h
  | ok k =>
    have ht := token_endToken hk
    rw [operate_of_ok o hk] at h
    cases o with
    | pipe =>
      rw [operate_pipe ht] at h
      split at h
      · cases h
      · split at h
        · cases h
        · exact Except.ok.inj h ▸ List.prefix_rfl
    | input =>
      rw [operate_input ht] at h
      split at h
      · cases h
      · exact Except.ok.inj h ▸ List.prefix_rfl
    | output mode =>
      rw [operate_output ht] at h
      split at h
      · cases h
      · exact Except.ok.inj h ▸ List.prefix_rfl
    | semicolon =>
      rw [operate_semicolon ht] at h
      split at h
      · cases h
      · rw [← Except.ok.inj h]
        exact prefix_complete limits { s with cursor := k }

theorem prefix_operator {o : Operator} (h : s.operator limits o = .ok s') : s.statements <+: s'.statements := by
  unfold operator at h
  split at h
  · obtain rfl := Except.ok.inj h
    split <;> exact List.prefix_rfl
  · split at h
    · cases h
    · exact prefix_operate (s := { s with place := .argument }) h

theorem prefix_settle {r : Except Fault Scan} (h : s.settle limits r = .ok s')
    (hr : ∀ t, r = .ok t → s.statements <+: t.statements) : s.statements <+: s'.statements := by
  match r, h with
  | .ok t, h => exact Except.ok.inj h ▸ hr t rfl
  | .error (.limit e), h =>
    rw [← Except.ok.inj h]
    exact prefix_discard limits s e

theorem prefix_step {l : Lexeme} (h : s.step limits l = .ok s') : s.statements <+: s'.statements := by
  refine prefix_settle h (fun t ht => ?_)
  cases l with
  | literal c => exact prefix_literal ht
  | blank => exact prefix_blank ht
  | operator o => exact prefix_operator ht

theorem prefix_run {ls : List Lexeme} (h : s.run limits ls = .ok s') : s.statements <+: s'.statements := by
  induction ls generalizing s with
  | nil =>
    obtain rfl := Except.ok.inj h
    exact List.prefix_rfl
  | cons l ls ih =>
    rw [run, List.foldlM_cons] at h
    cases hl : s.step limits l with
    | error e =>
      rw [hl] at h
      cases h
    | ok t =>
      rw [hl] at h
      exact (prefix_step hl).trans (ih h)

theorem prefix_finishStatement (h : s.finishStatement limits = .ok s') : s.statements <+: s'.statements := by
  unfold finishStatement endToken at h
  cases hk : s.cursor.endToken limits with
  | error e =>
    rw [hk] at h
    cases h
  | ok k =>
    simp only [hk, bind, Except.bind] at h
    split at h
    · exact Except.ok.inj h ▸ List.prefix_rfl
    · split at h
      · cases h
      · rw [← Except.ok.inj h]
        exact prefix_complete limits { s with cursor := k }

/-- The end of the line adds at most one statement. -/
theorem prefix_finish {e : Ending} {sts : List Statement} (h : s.finish limits e = .ok sts) : s.statements <+: sts := by
  unfold finish at h
  split at h
  · cases h
  · split at h
    · cases h
    · split at h
      · cases h
      · exact Except.ok.inj h ▸ List.prefix_rfl
  · split at h
    · exact Except.ok.inj h ▸ List.prefix_rfl
    · split at h
      · cases h
      · cases hf : s.settle limits (s.finishStatement limits) with
        | error e =>
          rw [hf] at h
          cases h
        | ok t =>
          rw [hf] at h
          rw [← Except.ok.inj h]
          exact prefix_settle hf (fun _ => prefix_finishStatement)

/-- Outside a statement that is skipped only a complete line can end. -/
theorem complete_of_finish {e : Ending} {sts : List Statement} (hplace : s.place ≠ .skipping)
    (h : s.finish limits e = .ok sts) : e = .complete := by
  cases e with
  | complete => rfl
  | openQuote => cases h
  | loneBackslash quoted =>
    rw [finish, if_pos hplace] at h
    cases h

end Scan

/-- A line that is accepted is short enough, and its scan goes to its end. -/
theorem parseLine_eq_ok {limits : Limits} {line : String} {sts : List Statement} (h : parseLine limits line = .ok sts) :
    line.utf8ByteSize ≤ limits.maxLineLength ∧ ∃ s, ({} : Scan).run limits (Reading.ofLine line).lexemes = .ok s ∧
      s.finish limits (Reading.ofLine line).ending = .ok sts := by
  rw [parseLine] at h
  split at h
  · cases h
  · rename_i hsize
    rw [Reading.statements] at h
    cases hs : ({} : Scan).run limits (Reading.ofLine line).lexemes with
    | error e =>
      rw [hs] at h
      cases h
    | ok s =>
      rw [hs] at h
      exact ⟨Nat.le_of_not_lt hsize, s, rfl, h⟩

end PipelineShell
