import PipelineShell.Proofs.Line.Verdicts

/-!
# What a scan can come to

`Scan.Effect` lists what one lexeme can do to a scan and `Scan.Closing` what the end of a line can make of it, each rule with all
that is known where it applies. Neither says which rule applies: that is for the scan to decide. What holds of every line is proved
rule by rule, and `effect_of_step` and `closing_of_finish` carry it over to the scan.
-/

namespace PipelineShell

/-- What ending the word being read can do to a cursor. -/
inductive Cursor.WordEnd (limits : Limits) (k : Cursor) : Cursor → Prop where
  /-- There is no word. -/
  | none : k.token = "" → WordEnd limits k k
  | word : k.token ≠ "" → k.argv.length < limits.maxArgs →
      WordEnd limits k { k with argv := k.argv ++ [k.token], token := "" }

theorem Cursor.wordEnd_of_endToken {limits : Limits} {k k' : Cursor} (h : k.endToken limits = .ok k') :
    k.WordEnd limits k' := by
  unfold endToken at h
  split at h
  · rename_i htoken
    rw [← Except.ok.inj h]
    exact .none (by simpa using htoken)
  · rename_i htoken
    split at h
    · cases h
    · rename_i hargs
      rw [← Except.ok.inj h]
      exact .word (by simpa using htoken) (by omega)

namespace Scan

/-- No path is still to be begun and no statement is being dropped, so an operator means what it says. `k` is what has been
collected once the word before the operator has ended. -/
structure Live (limits : Limits) (s : Scan) (k : Cursor) : Prop where
  place : s.place ≠ .skipping
  begun : s.awaitsPath = false
  wordEnd : s.cursor.WordEnd limits k

/-- What a lexeme can do to a scan. -/
inductive Effect (limits : Limits) (s : Scan) : Lexeme → Scan → Prop where
  | skipped {l : Lexeme} : s.place = .skipping → l ≠ .operator .semicolon → Effect limits s l s
  | resumed : s.place = .skipping → Effect limits s (.operator .semicolon) ⟨.argument, {}, s.statements⟩
  /-- The lexeme breaks a limit. -/
  | setAside {l : Lexeme} (e : LimitError) : s.place ≠ .skipping → Effect limits s l (s.discard limits e)
  /-- The word that `;` ends breaks a limit: the statement is over, so there is nothing to drop. -/
  | setAsideWhole (e : LimitError) : s.place ≠ .skipping →
      Effect limits s (.operator .semicolon) { s.discard limits e with place := .argument }
  | tokenGrown (c : Char) : s.place = .argument → s.cursor.token.utf8ByteSize + c.utf8Size ≤ limits.maxTokenLength →
      Effect limits s (.literal c) { s with cursor := { s.cursor with token := s.cursor.token.push c } }
  | outputGrown (c : Char) (target : OutputTarget) : s.place = .outputPath →
      target = s.cursor.output.getD ⟨"", .truncate⟩ → target.path.utf8ByteSize + c.utf8Size ≤ limits.maxPathLength →
      Effect limits s (.literal c)
        { s with cursor := { s.cursor with output := some { target with path := target.path.push c } } }
  | inputGrown (c : Char) (path : String) : s.place = .inputPath → path = s.cursor.input.getD "" →
      path.utf8ByteSize + c.utf8Size ≤ limits.maxPathLength →
      Effect limits s (.literal c) { s with cursor := { s.cursor with input := some (path.push c) } }
  | wordEnded {k : Cursor} : s.place = .argument → s.cursor.WordEnd limits k → Effect limits s .blank { s with cursor := k }
  /-- A blank before a path is begun. -/
  | awaited : s.awaitsPath = true → Effect limits s .blank s
  | pathEnded : s.place = .outputPath ∨ s.place = .inputPath → s.awaitsPath = false →
      Effect limits s .blank { s with place := .argument }
  | piped {k : Cursor} : s.Live limits k → k.argv ≠ [] → k.output = none → k.commands.length + 2 ≤ limits.maxStages →
      Effect limits s (.operator .pipe) ⟨.argument, { k with commands := k.allCommands, argv := [] }, s.statements⟩
  | inputAsked {k : Cursor} : s.Live limits k → k.argv ≠ [] → k.commands = [] → k.input = none →
      Effect limits s (.operator .input) ⟨.inputPath, { k with input := some "" }, s.statements⟩
  | outputAsked {k : Cursor} (mode : OutputMode) : s.Live limits k → k.argv ≠ [] → k.output = none →
      Effect limits s (.operator (.output mode)) ⟨.outputPath, { k with output := some ⟨"", mode⟩ }, s.statements⟩
  | completed {k : Cursor} : s.Live limits k → k.argv ≠ [] →
      Effect limits s (.operator .semicolon) ({ s with cursor := k }.complete limits)

/-- What the end of a line can make of a scan: the statements of the line. -/
inductive Closing (limits : Limits) (s : Scan) : List Statement → Prop where
  | skipped : s.place = .skipping → Closing limits s s.statements
  /-- The last word breaks a limit. -/
  | setAside (e : LimitError) : s.place ≠ .skipping → Closing limits s (s.discard limits e).statements
  /-- Nothing of a statement has been read. -/
  | blank {k : Cursor} : s.cursor.WordEnd limits k → k.isBlank = true → Closing limits s s.statements
  | completed {k : Cursor} : s.place ≠ .skipping → s.dangling? = none → s.cursor.WordEnd limits k → k.argv ≠ [] →
      Closing limits s ({ s with cursor := k }.complete limits).statements

variable {limits : Limits} {s t : Scan}

/-! ## The scan has no other effects -/

/-- A path grows by a character where there is room for it. -/
theorem map_extendPath_eq_ok {path : String} {c : Char} {f : String → Cursor} {k : Cursor}
    (h : (Cursor.extendPath limits path c).map f = .ok k) :
    k = f (path.push c) ∧ path.utf8ByteSize + c.utf8Size ≤ limits.maxPathLength := by
  unfold Cursor.extendPath at h
  split at h
  · cases h
  · rename_i hsize
    exact ⟨(Except.ok.inj h).symm, Nat.le_of_not_lt hsize⟩

theorem effect_of_literal {c : Char} (h : s.literal limits c = .ok t) : Effect limits s (.literal c) t := by
  obtain ⟨place, cursor, statements⟩ := s
  simp only [literal] at h
  split at h
  · rename_i k hpush
    rw [← Except.ok.inj h]
    cases place with
    | argument =>
      simp only [Cursor.pushToken] at hpush
      split at hpush
      · cases hpush
      · rename_i hsize
        rw [← Except.ok.inj hpush]
        exact .tokenGrown c rfl (Nat.le_of_not_lt hsize)
    | outputPath =>
      obtain ⟨rfl, hsize⟩ := map_extendPath_eq_ok hpush
      exact .outputGrown c _ rfl rfl hsize
    | inputPath =>
      obtain ⟨rfl, hsize⟩ := map_extendPath_eq_ok hpush
      exact .inputGrown c _ rfl rfl hsize
    | skipping =>
      rw [← Except.ok.inj hpush]
      exact .skipped rfl Lexeme.noConfusion
  · cases h

theorem effect_of_blank (h : s.blank limits = .ok t) : Effect limits s .blank t := by
  have hpath (hplace : s.place = .outputPath ∨ s.place = .inputPath)
      (h : Except.ok (if s.awaitsPath then s else { s with place := .argument }) = (.ok t : Except Fault Scan)) :
      Effect limits s .blank t := by
    rw [← Except.ok.inj h]
    split
    · rename_i hawaits
      exact .awaited hawaits
    · rename_i hbegun
      exact .pathEnded hplace (by simpa using hbegun)
  unfold blank endToken at h
  split at h
  · rename_i hplace
    split at h
    · rename_i k hk
      rw [← Except.ok.inj h]
      exact .wordEnded hplace (Cursor.wordEnd_of_endToken hk)
    · cases h
  · rename_i hplace
    exact hpath (.inl hplace) h
  · rename_i hplace
    exact hpath (.inr hplace) h
  · rename_i hplace
    rw [← Except.ok.inj h]
    exact .skipped hplace nofun

/-- An operator where operators are live. -/
theorem effect_of_operate {o : Operator} (hplace : s.place ≠ .skipping) (hbegun : s.awaitsPath = false)
    (h : { s with place := .argument }.operate limits o = .ok t) : Effect limits s (.operator o) t := by
  cases hk : s.cursor.endToken limits with
  | error e =>
    rw [operate_of_error (s := { s with place := .argument }) hk] at h
    split at h
    · rename_i ho
      subst ho
      rw [← Except.ok.inj h]
      exact .setAsideWhole e hplace
    · cases h
  | ok k =>
    have hlive : s.Live limits k := ⟨hplace, hbegun, Cursor.wordEnd_of_endToken hk⟩
    have htoken := token_endToken hk
    rw [operate_of_ok (s := { s with place := .argument }) o hk] at h
    cases o with
    | pipe =>
      rw [operate_pipe htoken] at h
      split at h
      · cases h
      · rename_i hfree
        obtain ⟨hargv, houtput⟩ := not_or.mp hfree
        split at h
        · cases h
        · rename_i hstages
          rw [← Except.ok.inj h]
          exact .piped hlive hargv (Decidable.not_not.mp houtput) (Nat.le_of_not_lt hstages)
    | input =>
      rw [operate_input htoken] at h
      split at h
      · cases h
      · rename_i hfree
        obtain ⟨hargv, hrest⟩ := not_or.mp hfree
        obtain ⟨hcommands, hinput⟩ := not_or.mp hrest
        rw [← Except.ok.inj h]
        exact .inputAsked hlive hargv (Decidable.not_not.mp hcommands) (Decidable.not_not.mp hinput)
    | output mode =>
      rw [operate_output htoken] at h
      split at h
      · cases h
      · rename_i hfree
        obtain ⟨hargv, houtput⟩ := not_or.mp hfree
        rw [← Except.ok.inj h]
        exact .outputAsked mode hlive hargv (Decidable.not_not.mp houtput)
    | semicolon =>
      rw [operate_semicolon htoken] at h
      split at h
      · cases h
      · rename_i hargv
        rw [← Except.ok.inj h]
        exact .completed hlive hargv

theorem effect_of_operator {o : Operator} (h : s.operator limits o = .ok t) : Effect limits s (.operator o) t := by
  unfold operator at h
  split at h
  · rename_i hplace
    rw [← Except.ok.inj h]
    split
    · rename_i ho
      subst ho
      exact .resumed hplace
    · rename_i ho
      exact .skipped hplace (fun hl => ho (Lexeme.operator.inj hl))
  · rename_i hplace
    split at h
    · cases h
    · rename_i hbegun
      exact effect_of_operate hplace (by simpa using hbegun) h

/-- A statement that is being dropped breaks no further limit. -/
theorem place_of_limit {l : Lexeme} {e : LimitError} (h : s.take limits l = .error (.limit e)) : s.place ≠ .skipping := by
  intro hplace
  cases l with
  | literal c => simp [take, literal, hplace] at h
  | blank => simp [take, blank, hplace] at h
  | operator o => simp [take, operator, hplace] at h

/-- Whatever a lexeme does to a scan is one of the effects. -/
theorem effect_of_step {l : Lexeme} (h : s.step limits l = .ok t) : Effect limits s l t := by
  unfold step at h
  rcases hr : s.take limits l with (e | e) | next
  · rw [hr] at h
    cases h
  · rw [hr] at h
    rw [← Except.ok.inj h]
    exact .setAside e (place_of_limit hr)
  · rw [hr] at h
    rw [← Except.ok.inj h]
    cases l with
    | literal c => exact effect_of_literal hr
    | blank => exact effect_of_blank hr
    | operator o => exact effect_of_operator hr

/-- What every effect keeps is kept through any number of lexemes. -/
theorem run_induction {I : Scan → Prop} (hstep : ∀ {s t : Scan} {l : Lexeme}, I s → Effect limits s l t → I t)
    {ls : List Lexeme} (h : I s) (hrun : s.run limits ls = .ok t) : I t := by
  induction ls generalizing s with
  | nil =>
    obtain rfl := Except.ok.inj hrun
    exact h
  | cons l ls ih =>
    rw [run, List.foldlM_cons] at hrun
    cases hl : s.step limits l with
    | error e =>
      rw [hl] at hrun
      cases hrun
    | ok next =>
      rw [hl] at hrun
      exact ih (hstep h (effect_of_step hl)) hrun

/-- Whatever the end of a line makes of a scan is one of the closings. -/
theorem closing_of_finish {e : Ending} {sts : List Statement} (h : s.finish limits e = .ok sts) : Closing limits s sts := by
  by_cases hplace : s.place = .skipping
  · have hsts : s.statements = sts := by
      cases e with
      | openQuote => cases h
      | complete =>
        rw [finish, if_pos hplace] at h
        exact Except.ok.inj h
      | loneBackslash quoted =>
        rw [finish, if_neg (not_not_intro hplace)] at h
        split at h
        · cases h
        · exact Except.ok.inj h
    rw [← hsts]
    exact .skipped hplace
  · obtain rfl := complete_of_finish hplace h
    rw [finish, if_neg hplace] at h
    split at h
    · cases h
    · rename_i hdangling
      unfold finishStatement endToken at h
      cases hk : s.cursor.endToken limits with
      | error err =>
        simp only [hk, bind, Except.bind, settle, Except.map] at h
        rw [← Except.ok.inj h]
        exact .setAside err hplace
      | ok k =>
        have hend := Cursor.wordEnd_of_endToken hk
        simp only [hk, bind, Except.bind] at h
        split at h
        · rename_i hblank
          rw [← Except.ok.inj h]
          exact .blank hend hblank
        · split at h
          · cases h
          · rename_i hargv
            rw [← Except.ok.inj h]
            exact .completed hplace hdangling hend (by simpa using hargv)

end Scan

end PipelineShell
