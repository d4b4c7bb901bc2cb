import PipelineShell.Proofs.Line.Acceptance
import PipelineShell.Proofs.Line.Breaches
import PipelineShell.Proofs.Line.Joining

/-!
# A statement is set aside for the first limit that it breaks

The scan under limits, the assembly of the line and the form that this has are followed side by side (`Follows`). As long as a statement
breaks nothing the scan holds the assembly. Once something has been broken the statement is recorded with the first breach, and what
is skipped of it can only add breaches behind that one. So at the end each statement has become what `StatementForm.judge` says
(`parseLine_eq_judge`).
-/

namespace PipelineShell

namespace Line

variable {limits : Limits} {a : Assembly} {run : String} {ts : List Token} {ds : List StatementForm} {ss : List StageForm}
  {current : Option StageForm}

namespace Assembly

/-- What the word being read is. -/
def role (a : Assembly) : Role := if a.awaited = none then .argument else .path

theorem wordLimit_eq (limits : Limits) (a : Assembly) : a.wordLimit limits = a.role.limit limits := by
  unfold wordLimit role
  split <;> rfl

theorem overlong_eq (a : Assembly) (run : String) : a.overlong run = a.role.overlong (opening run) := by
  unfold overlong role
  split <;> rfl

/-- What the word being read breaks by its length and by its end, if it ends here. -/
def wordBreaches (limits : Limits) (a : Assembly) (run : String) : List LimitError :=
  if run = "" then [] else a.role.lengthBreaches limits run ++ a.role.countBreaches limits (a.argv.headD run) a.argv.length

theorem lengthBreaches_prefix_wordBreaches (limits : Limits) (a : Assembly) (run : String) :
    a.role.lengthBreaches limits run <+: a.wordBreaches limits run := by
  unfold wordBreaches
  split
  · rename_i hr
    simp only [hr, lengthBreaches_empty, List.prefix_rfl]
  · exact List.prefix_append _ _

/-- Where what has been read fits, so does the word being read. -/
theorem lengthBreaches_of_fits (h : (a.cursor run).Fits limits) : a.role.lengthBreaches limits run = [] := by
  rw [lengthBreaches_eq_nil_iff]
  obtain ⟨finished, commands, argv, input, output, _ | _ | mode⟩ := a
  · exact h.token
  · exact h.input _ rfl
  · exact h.output _ rfl

/-- Where what has been read fits, the end of a word can only be that of an argument too many. -/
theorem wordBreaches_of_fits (h : (a.cursor run).Fits limits) :
    a.wordBreaches limits run = if a.Crowded limits run then [.tooManyArguments (a.argv.headD run)] else [] := by
  have hargs : a.argv.length ≤ limits.maxArgs := by
    obtain ⟨finished, commands, argv, input, output, _ | _ | mode⟩ := a <;> exact h.args
  unfold wordBreaches
  by_cases hr : run = ""
  · rw [if_pos hr, if_neg fun hc => hc.2.1 hr]
  · rw [if_neg hr, lengthBreaches_of_fits h, List.nil_append, Role.countBreaches]
    by_cases ha : a.awaited = none
    · have hrole : a.role = .argument := if_pos ha
      by_cases hlen : a.argv.length = limits.maxArgs
      · rw [if_pos ⟨hrole, hlen⟩, if_pos ⟨ha, hr, Nat.le_of_eq hlen.symm⟩]
      · rw [if_neg fun hc => hlen hc.2, if_neg fun hc => hlen (Nat.le_antisymm hargs hc.2.2)]
    · have hrole : a.role = .path := if_neg ha
      rw [hrole, if_neg fun hc => Role.noConfusion hc.1, if_neg fun hc => ha hc.1]

end Assembly

/-! ## What has been broken so far -/

/-- What has been broken in a statement of which some stages have been ended by a `|` and one is being read. -/
def brokenSoFar (limits : Limits) (ss : List StageForm) (current : Option StageForm) : List LimitError :=
  stagesBreaches limits [] ss ++ pipeBreaches limits ss ++ current.elim [] (StageForm.breaches limits)

theorem brokenSoFar_empty (limits : Limits) : brokenSoFar limits [] none = [] := by
  have hpipe : pipeBreaches limits [] = [] := if_neg fun h => by
    rw [List.length_nil] at h
    omega
  rw [brokenSoFar, hpipe]
  rfl

/-- The breaches of a statement are those there have been at the end of its last stage. -/
theorem breaches_eq_brokenSoFar (limits : Limits) (ss : List StageForm) (c : StageForm) (h : ss ++ [c] ≠ []) :
    StatementForm.breaches limits ⟨ss ++ [c], h⟩ = brokenSoFar limits ss (some c) :=
  stagesBreaches_concat limits [] ss c

theorem brokenSoFar_pipe (limits : Limits) (ss : List StageForm) (c : StageForm) :
    brokenSoFar limits (ss ++ [c]) none = brokenSoFar limits ss (some c) ++ pipeBreaches limits (ss ++ [c]) := by
  rw [brokenSoFar, stagesBreaches_concat, brokenSoFar]
  simp

theorem brokenSoFar_add (limits : Limits) (ss : List StageForm) (c : StageForm) (p : StagePart) :
    brokenSoFar limits ss (some (c.add p)) =
      brokenSoFar limits ss (some c) ++ (p.word.1.lengthBreaches limits p.word.2 ++
        p.word.1.countBreaches limits c.name c.command.argv.length) := by
  rw [brokenSoFar, brokenSoFar, Option.elim, StageForm.breaches_add]
  simp

namespace Spells

/-- A word that ends breaks what it breaks behind what has been broken before. -/
theorem takeWord_breaches (h : Spells a ts ds ss current) {w : String} (hw : w ≠ "") :
    ∃ c, Spells (a.takeWord w) (ts ++ [.word w]) ds ss (some c) ∧
      brokenSoFar limits ss (some c) = brokenSoFar limits ss current ++ a.wordBreaches limits w := by
  rw [Assembly.wordBreaches, if_neg hw]
  cases hr : a.awaited with
  | none =>
    have hrole : a.role = .argument := if_pos hr
    have htake : a.takeWord w = { a with argv := a.argv ++ [w] } := by rw [Assembly.takeWord, hr]
    rw [hrole, htake]
    cases current with
    | none =>
      have hargv : a.argv = [] := h.argv
      refine ⟨_, h.begin hr w, ?_⟩
      rw [hargv, brokenSoFar, brokenSoFar, Option.elim, StageForm.breaches, StageForm.words, wordsBreaches]
      simp [wordsBreaches]
    | some c =>
      have hargv : a.argv = c.command.argv := h.argv
      refine ⟨_, h.add (.argument w) (by rw [hr]; rfl) (.inl rfl) rfl rfl rfl (by simp [StagePart.input?])
        (by simp [StagePart.output?]) hr, ?_⟩
      rw [brokenSoFar_add, hargv]
      rfl
  | some r =>
    have hrole : a.role = .path := if_neg (by simp [hr])
    obtain ⟨c, rfl⟩ := h.exists_current (h.awaited (by simp [hr]))
    rw [hrole]
    unfold Assembly.takeWord
    rw [hr]
    cases r with
    | input =>
      obtain ⟨hs, hi⟩ := h.awaited_input hr
      refine ⟨_, h.add (.input w) (by rw [hr]; rfl) (.inr hs) rfl rfl (by simp [StagePart.argument?])
        (by simp [StagePart.input?, hi]) (by simp [StagePart.output?]) rfl, ?_⟩
      rw [brokenSoFar_add]
      simp [StagePart.word]
    | output mode =>
      have ho := h.awaited_output mode hr
      refine ⟨_, h.add (.output ⟨w, mode⟩) (by rw [hr]; rfl) (.inl rfl) rfl rfl (by simp [StagePart.argument?])
        (by simp [StagePart.input?]) (by simp [StagePart.output?, ho]) rfl, ?_⟩
      rw [brokenSoFar_add]
      simp [StagePart.word]

theorem flush_breaches (h : Spells a ts ds ss current) (limits : Limits) (run : String) :
    ∃ current', Spells (a.flush run) (ts ++ Token.ofRun run) ds ss current' ∧
      brokenSoFar limits ss current' = brokenSoFar limits ss current ++ a.wordBreaches limits run := by
  by_cases hr : run = ""
  · subst hr
    rw [Assembly.flush_empty, Token.ofRun, if_pos rfl, Assembly.wordBreaches, if_pos rfl, List.append_nil, List.append_nil]
    exact ⟨current, h, rfl⟩
  · rw [Assembly.flush_of_ne a hr, Token.ofRun, if_neg hr]
    obtain ⟨c, hc, hbroken⟩ := h.takeWord_breaches hr
    exact ⟨some c, hc, hbroken⟩

end Spells

/-- What an operator breaks behind stages: a `|` may be one too many. -/
def operatorBreaches (limits : Limits) (ss : List StageForm) : Operator → List LimitError
  | .pipe => pipeBreaches limits ss
  | _ => []

/-- The stages that a `|` names are those that have been read. -/
theorem overstaged_eq {c : StageForm} (h : Spells a ts ds ss (some c)) (ha : a.awaited = none) :
    overstaged (ss ++ [c]) = .tooManyStages (a.cursor "").stageNames.1 (a.cursor "").stageNames.2 := by
  have hnames : (a.cursor "").commands.map Command.name ++ (a.cursor "").argv.take 1 = (ss ++ [c]).map StageForm.name := by
    rw [Assembly.cursor_of_none ha, h.commands, h.argv]
    simp [Command.argv, StageForm.command]
  unfold overstaged Cursor.stageNames
  rw [hnames, ← List.getElem?_map, ← List.getElem?_map]
  rcases (ss ++ [c]).map StageForm.name with _ | ⟨first, _ | ⟨second, rest⟩⟩ <;> rfl

/-- Where another stage can be ended, the `|` behind it breaks the limit on stages exactly if there may be no more. -/
theorem pipeBreaches_eq {c : StageForm} (h : Spells a ts ds ss (some c)) (ha : a.awaited = none) (hfit : (a.cursor "").Fits limits) :
    pipeBreaches limits (ss ++ [c]) =
      if a.commands.length + 2 ≤ limits.maxStages then []
      else [.tooManyStages (a.cursor "").stageNames.1 (a.cursor "").stageNames.2] := by
  have hstages := hfit.stages
  rw [Assembly.cursor_of_none ha] at hstages
  have hlen : (ss ++ [c]).length = a.commands.length + 1 := by
    rw [h.commands, List.length_append, List.length_map]
    rfl
  rw [pipeBreaches, hlen, ← overstaged_eq h ha]
  by_cases hle : a.commands.length + 2 ≤ limits.maxStages
  · rw [if_pos hle, if_neg (by omega)]
  · rw [if_neg hle, if_pos (by dsimp only at hstages; omega)]

/-- What an operator within a statement breaks is behind what has been broken before. -/
theorem Spells.operate_breaches {o : Operator} {c : StageForm} (h : Spells a ts ds ss (some c)) (hp : a.Permits o) (ho : o ≠ .semicolon)
    (limits : Limits) :
    ∃ ss' current', Spells (a.operate o) (ts ++ [.operator o]) ds ss' current' ∧
      brokenSoFar limits ss' current' = brokenSoFar limits ss (some c) ++ operatorBreaches limits (ss ++ [c]) o := by
  cases o with
  | semicolon => exact absurd rfl ho
  | pipe =>
    obtain ⟨hr, -, hout⟩ := hp
    exact ⟨_, _, h.pipe hr hout, brokenSoFar_pipe limits ss c⟩
  | input =>
    obtain ⟨hr, -, hcommands, hi⟩ := hp
    have hss : ss = [] := List.map_eq_nil_iff.mp (h.commands.symm.trans hcommands)
    exact ⟨_, _, h.await hr .input (fun _ => ⟨hss, hi⟩) (fun _ hm => by cases hm), (List.append_nil _).symm⟩
  | output mode =>
    obtain ⟨hr, -, hout⟩ := hp
    exact ⟨_, _, h.await hr (.output mode) (fun hi => by cases hi) (fun _ _ => hout), (List.append_nil _).symm⟩

/-! ## The scan -/

/-- A statement that is set aside is recorded behind the others, as far as these are not too many. -/
theorem discard_cap {s : Scan} {sts : List Statement} (hs : s.statements = limits.cap sts) (e : LimitError) :
    s.discard limits e = ⟨.skipping, {}, limits.cap (sts ++ [.discarded e])⟩ := by
  rw [Scan.discard_eq, hs, Limits.cap_concat, Limits.length_cap, apply_ite Statement.discarded]

theorem complete_cap {s : Scan} {sts : List Statement} (hs : s.statements = limits.cap sts) :
    s.complete limits = ⟨.argument, {}, limits.cap (sts ++ [.ready s.cursor.pipeline])⟩ := by
  rw [Scan.complete_eq, hs, Limits.cap_concat, Limits.length_cap]

theorem head?_mono {bs cs : List LimitError} {e : LimitError} (h : bs <+: cs) (he : bs.head? = some e) :
    cs.head? = some e := by
  obtain ⟨more, rfl⟩ := h
  rw [List.head?_append, he]
  rfl

/-- `Follows limits ds bs s a run`: behind the statements `ds` the scan `s` is where the assembly `a` is with the word `run`, and
nothing has been broken, or it skips the rest of a statement that is recorded with the first limit it has broken. What has been broken
before the word is `bs`. -/
inductive Follows (limits : Limits) (ds : List StatementForm) (bs : List LimitError) : Scan → Assembly → String → Prop where
  | reading {a : Assembly} {run : String} : (a.cursor run).Fits limits → bs = [] →
      Follows limits ds bs (a.scan run (limits.cap (ds.map (StatementForm.judge limits)))) a run
  | skipping {a : Assembly} {run : String} {e : LimitError} : (bs ++ a.role.lengthBreaches limits run).head? = some e →
      Follows limits ds bs ⟨.skipping, {}, limits.cap (ds.map (StatementForm.judge limits) ++ [.discarded e])⟩ a run

namespace Follows

variable {bs : List LimitError} {s : Scan}

theorem empty (limits : Limits) : Follows limits [] (brokenSoFar limits [] none) {} {} "" :=
  reading Assembly.fits_empty (brokenSoFar_empty limits)

/-- What is skipped adds breaches behind the first one. -/
theorem skip {e : LimitError} {more : List LimitError} {b : Assembly} (he : bs.head? = some e) :
    Follows limits ds (bs ++ more) ⟨.skipping, {}, limits.cap (ds.map (StatementForm.judge limits) ++ [.discarded e])⟩ b "" := by
  refine skipping (head?_mono ?_ he)
  rw [List.append_assoc]
  exact List.prefix_append _ _

/-- A breach at the end of a word is behind those that have made the scan skip. -/
theorem head?_wordBreaches {e : LimitError} (he : (bs ++ a.role.lengthBreaches limits run).head? = some e) :
    (bs ++ a.wordBreaches limits run).head? = some e :=
  head?_mono ((List.prefix_append_right_inj bs).mpr (a.lengthBreaches_prefix_wordBreaches limits run)) he

/-- A literal goes into the word being read, which may become too long by it. -/
theorem literal (h : Follows limits ds bs s a run) (c : Char) :
    ∃ s', s.step limits (.literal c) = .ok s' ∧ Follows limits ds bs s' a (run.push c) := by
  cases h with
  | reading hfit hbs =>
    have hiff := Assembly.fits_push_iff hfit c
    have hrun := lengthBreaches_eq_nil_iff.mp (Assembly.lengthBreaches_of_fits hfit)
    rw [Scan.step, Scan.take, Assembly.literal_scan]
    by_cases hle : (run.push c).utf8ByteSize ≤ a.wordLimit limits
    · rw [if_neg (Nat.not_lt_of_le hle)]
      exact ⟨_, rfl, reading (hiff.mpr hle) hbs⟩
    · rw [if_pos (Nat.lt_of_not_le hle), Scan.settle, discard_cap rfl]
      refine ⟨_, rfl, skipping ?_⟩
      rw [Assembly.wordLimit_eq] at hle
      rw [hbs, List.nil_append, Role.lengthBreaches, if_pos (Nat.lt_of_not_le hle), shown_push (Nat.lt_of_not_le hle),
        ← opening_eq_shown hrun, Assembly.overlong_eq]
      rfl
  | skipping he =>
    exact ⟨_, rfl, skipping (head?_mono ((List.prefix_append_right_inj bs).mpr (lengthBreaches_push limits _ run c)) he)⟩

/-- A blank ends the word being read, which may be one argument too many. -/
theorem blank (h : Follows limits ds bs s a run) :
    ∃ s', s.step limits .blank = .ok s' ∧ Follows limits ds (bs ++ a.wordBreaches limits run) s' (a.flush run) "" := by
  cases h with
  | reading hfit hbs =>
    rw [Scan.step, Scan.take, Assembly.blank_scan, Assembly.wordBreaches_of_fits hfit, hbs, List.nil_append]
    by_cases hc : a.Crowded limits run
    · rw [if_pos hc, if_pos hc, Scan.settle, discard_cap rfl]
      exact ⟨_, rfl, skipping rfl⟩
    · rw [if_neg hc, if_neg hc]
      exact ⟨_, rfl, reading ((Assembly.fits_flush_iff hfit).mpr hc) rfl⟩
  | skipping he =>
    refine ⟨_, rfl, ?_⟩
    have hskip : Follows limits ds (bs ++ a.wordBreaches limits run ++ []) _ (a.flush run) "" := skip (head?_wordBreaches he)
    rwa [List.append_nil] at hskip

/-- An operator that can stand within a statement ends the word being read and is taken, unless it is skipped. -/
theorem operator {o : Operator} {c : StageForm} (h : Follows limits ds bs s a run) (hs : Spells (a.flush run) ts ds ss (some c))
    (hp : (a.flush run).Permits o) (ho : o ≠ .semicolon) :
    ∃ s', s.step limits (.operator o) = .ok s' ∧
      Follows limits ds (bs ++ a.wordBreaches limits run ++ operatorBreaches limits (ss ++ [c]) o) s' ((a.flush run).operate o) "" := by
  have hawaited : (a.flush run).awaited = none := by
    cases o with
    | pipe | input | output | semicolon => exact hp.1
  cases h with
  | skipping he =>
    refine ⟨_, ?_, skip (head?_wordBreaches he)⟩
    rw [Scan.step, Scan.take, Scan.operator, if_pos rfl, if_neg ho]
    rfl
  | reading hfit hbs =>
    have hiff := Assembly.fits_flush_iff hfit
    rw [Scan.step, Scan.take, Assembly.operator_scan (Assembly.awaited_of_flush hawaited), Assembly.wordBreaches_of_fits hfit, hbs]
    by_cases hc : a.Crowded limits run
    · rw [if_pos hc, if_neg ho, if_pos hc, Scan.settle, discard_cap rfl]
      exact ⟨_, rfl, skip rfl⟩
    · have hflush := hiff.mpr hc
      rw [if_neg hc, if_neg hc]
      by_cases hstages : o = .pipe → (a.flush run).commands.length + 2 ≤ limits.maxStages
      · rw [Assembly.operate_scan hp ho hstages]
        refine ⟨_, rfl, reading (Assembly.fits_operate hflush hp ho hstages) ?_⟩
        cases o with
        | pipe => rw [operatorBreaches, pipeBreaches_eq hs hawaited hflush, if_pos (hstages rfl)]; rfl
        | input | output | semicolon => rfl
      · obtain ⟨rfl, hlt⟩ := Classical.not_imp.mp hstages
        rw [Assembly.pipe_scan_of_lt hp (Nat.lt_of_not_le hlt), Scan.settle, discard_cap rfl, operatorBreaches,
          pipeBreaches_eq hs hawaited hflush, if_neg hlt]
        exact ⟨_, rfl, skipping rfl⟩

/-- A `;` ends the word being read and the statement, which is recorded as its first breach says. -/
theorem semicolon {c : StageForm} (h : Follows limits ds bs s a run) (hs : Spells (a.flush run) ts ds ss (some c))
    (hbs : bs ++ a.wordBreaches limits run = brokenSoFar limits ss (some c)) (hp : (a.flush run).Permits .semicolon) :
    s.step limits (.operator .semicolon) =
      .ok (({} : Assembly).scan "" (limits.cap ((ds ++ [(⟨ss ++ [c], by simp⟩ : StatementForm)]).map (StatementForm.judge limits)))) := by
  have hbreaches := breaches_eq_brokenSoFar limits ss c (by simp)
  rw [List.map_append, List.map_singleton]
  cases h with
  | skipping he =>
    have hhead := head?_wordBreaches he
    rw [hbs, ← hbreaches] at hhead
    rw [StatementForm.judge_of_head? hhead]
    rfl
  | reading hfit hnil =>
    rw [hnil, List.nil_append, Assembly.wordBreaches_of_fits hfit, ← hbreaches] at hbs
    rw [Scan.step, Scan.take, Assembly.operator_scan (Assembly.awaited_of_flush hp.1)]
    by_cases hc : a.Crowded limits run
    · rw [if_pos hc] at hbs ⊢
      rw [if_pos rfl, discard_cap rfl, StatementForm.judge_of_head? (by rw [← hbs]; rfl)]
      rfl
    · rw [if_neg hc] at hbs ⊢
      rw [Assembly.semicolon_scan hp, complete_cap rfl, StatementForm.judge_of_nil hbs.symm, ← hs.pipeline,
        ← Assembly.pipeline_cursor hp.1]
      rfl

/-- One lexeme on, the scan still follows what has been read. -/
theorem step {l : Lexeme} {p : Assembly × String} (h : Follows limits ds (brokenSoFar limits ss current) s a run)
    (hs : Spells a ts ds ss current) (hread : a.read run l = .ok p) :
    ∃ s' ts' ds' ss' current', s.step limits l = .ok s' ∧ Follows limits ds' (brokenSoFar limits ss' current') s' p.1 p.2 ∧
      Spells p.1 ts' ds' ss' current' ∧ ∀ ls, ts ++ tokens run (l :: ls) = ts' ++ tokens p.2 ls := by
  obtain ⟨current', hflush, hbroken⟩ := hs.flush_breaches limits run
  cases l with
  | literal c =>
    obtain rfl : (a, run.push c) = p := Except.ok.inj hread
    obtain ⟨s', hstep, hfollows⟩ := h.literal c
    exact ⟨s', ts, ds, ss, current, hstep, hfollows, hs, fun _ => rfl⟩
  | blank =>
    obtain rfl : (a.flush run, "") = p := Except.ok.inj hread
    obtain ⟨s', hstep, hfollows⟩ := h.blank
    exact ⟨s', _, _, _, _, hstep, hbroken ▸ hfollows, hflush, fun _ => (List.append_assoc _ _ _).symm⟩
  | operator o =>
    by_cases hp : (a.flush run).Permits o
    · rw [Assembly.read, if_pos hp] at hread
      obtain rfl := Except.ok.inj hread
      have hargv : (a.flush run).argv ≠ [] := by
        cases o with
        | pipe | input | output => exact hp.2.1
        | semicolon => exact hp.2
      obtain ⟨c, rfl⟩ := hflush.exists_current hargv
      by_cases ho : o = .semicolon
      · subst ho
        have hstep := h.semicolon hflush hbroken.symm hp
        refine ⟨_, _, _, _, _, hstep, ?_, hflush.semicolon hp.1, fun _ => ?_⟩
        · exact reading (a := (a.flush run).operate .semicolon) Assembly.fits_empty (brokenSoFar_empty limits)
        · simp [tokens]
      · obtain ⟨ss', current'', hspells, hmore⟩ := hflush.operate_breaches hp ho limits
        obtain ⟨s', hstep, hfollows⟩ := h.operator hflush hp ho
        refine ⟨s', _, _, _, _, hstep, ?_, hspells, fun _ => ?_⟩
        · rwa [hmore, hbroken]
        · simp [tokens]
    · rw [Assembly.read, if_neg hp] at hread
      cases hread

/-- So it does however many are read. -/
theorem run_ok {ls : List Lexeme} {p : Assembly × String} (h : Follows limits ds (brokenSoFar limits ss current) s a run)
    (hs : Spells a ts ds ss current) (hread : Assembly.readAll (a, run) ls = .ok p) :
    ∃ s' ts' ds' ss' current', s.run limits ls = .ok s' ∧ Follows limits ds' (brokenSoFar limits ss' current') s' p.1 p.2 ∧
      Spells p.1 ts' ds' ss' current' ∧ ts ++ tokens run ls = ts' ++ Token.ofRun p.2 := by
  induction ls generalizing s a run ts ds ss current with
  | nil =>
    obtain rfl := Except.ok.inj hread
    exact ⟨s, _, _, _, _, rfl, h, hs, rfl⟩
  | cons l ls ih =>
    rw [Assembly.readAll, List.foldlM_cons] at hread
    cases hl : a.read run l with
    | error o =>
      rw [hl] at hread
      cases hread
    | ok q =>
      rw [hl] at hread
      obtain ⟨t, ts', ds', ss', current', hstep, hfollows, hspells, htokens⟩ := h.step hs hl
      obtain ⟨s', ts'', ds'', ss'', current'', hrun, hfollows', hspells', htokens'⟩ := ih hfollows hspells hread
      refine ⟨s', ts'', ds'', ss'', current'', ?_, hfollows', hspells', (htokens ls).trans htokens'⟩
      rw [Scan.run, List.foldlM_cons, hstep]
      exact hrun

/-- At the end of a line every statement has been recorded as its first breach says. -/
theorem finish {ps : List Pipeline} (h : Follows limits ds (brokenSoFar limits ss current) s a run) (hs : Spells a ts ds ss current)
    (hf : (a.flush run).finish = .ok ps) :
    ∃ form : LineForm, form.tokens = ts ++ Token.ofRun run ∧ form.Valid ∧
      s.finish limits .complete = .ok (limits.cap (form.statements.map (StatementForm.judge limits))) := by
  obtain ⟨current', hflush, hbroken⟩ := hs.flush_breaches limits run
  obtain ⟨hawaited, ⟨hb, -⟩ | ⟨hargv, -⟩⟩ := Assembly.finish_eq_ok_iff.mp hf
  · obtain ⟨rfl, rfl⟩ := hflush.eq_of_isBlank hb
    obtain ⟨htokens, hvalid⟩ := hflush.line_ended hawaited
    refine ⟨_, htokens, hvalid, ?_⟩
    rw [brokenSoFar_empty] at hbroken
    cases h with
    | skipping he =>
      -- nothing has been broken where nothing has been read
      have hhead := head?_wordBreaches he
      rw [← hbroken] at hhead
      cases hhead
    | reading hfit hnil =>
      have ha := Assembly.awaited_of_flush hawaited
      have hc : ¬ a.Crowded limits run := fun hc => Assembly.argv_flush_ne_nil hc.1 hc.2.1 hb.2.1
      rw [Scan.finish, if_neg (Assembly.place_scan a run _), Assembly.dangling_scan ha, Assembly.finishStatement_scan ha,
        if_neg hc, if_pos hb]
      rfl
  · obtain ⟨c, rfl⟩ := hflush.exists_current hargv
    obtain ⟨htokens, hvalid⟩ := hflush.line_open hawaited
    have hstep := h.semicolon hflush hbroken.symm ⟨hawaited, hargv⟩
    exact ⟨_, htokens, hvalid, Scan.finish_of_step_semicolon hstep⟩

end Follows

/-- Where the words and operators of a complete line have a form, each of its statements becomes what its first breach says. -/
theorem parseLine_eq_judge {line : String} {ps : List Pipeline} (hsize : line.utf8ByteSize ≤ limits.maxLineLength)
    (he : (Reading.ofLine line).ending = .complete) (h : assemble (tokens "" (Reading.ofLine line).lexemes) = .ok ps) :
    ∃ form : LineForm, form.tokens = tokens "" (Reading.ofLine line).lexemes ∧ form.Valid ∧
      parseLine limits line = .ok (limits.cap (form.statements.map (StatementForm.judge limits))) := by
  unfold assemble at h
  rw [← Assembly.readAll_flush ({}, "")] at h
  cases hr : Assembly.readAll ({}, "") (Reading.ofLine line).lexemes with
  | error o =>
    rw [hr] at h
    cases h
  | ok p =>
    rw [hr] at h
    obtain ⟨s, ts, ds, ss, current, hrun, hfollows, hspells, htokens⟩ := (Follows.empty limits).run_ok Spells.empty hr
    obtain ⟨form, hform, hvalid, hfinish⟩ := hfollows.finish hspells h
    refine ⟨form, hform.trans htokens.symm, hvalid, ?_⟩
    rw [parseLine, if_neg (Nat.not_lt_of_le hsize), Reading.statements, he]
    exact (congrArg (fun r => r >>= fun s => Scan.finish limits s .complete) hrun).trans hfinish

end Line

open Line

theorem Limits.getElem?_cap {limits : Limits} {sts : List Statement} {i : Nat} {st : Statement} (h : sts[i]? = some st)
    (hi : i < limits.maxStatements) : (limits.cap sts)[i]? = some st := by
  rw [cap, List.getElem?_mapIdx, h]
  exact congrArg some (if_neg (Nat.not_le_of_lt hi))

/-- A line that is accepted where no limit concerns it has a form, and is accepted under all limits that admit its length. Each statement
of the form that stands below the limit on statements and does not fit is set aside, and the report is of the limit that it breaks
first in reading order. -/
theorem parseLine_first_breach {unlimited limits : Limits} {line : String} {sts : List Statement}
    (habove : unlimited.Above line.utf8ByteSize) (h : parseLine unlimited line = .ok sts)
    (hsize : line.utf8ByteSize ≤ limits.maxLineLength) :
    ∃ (form : LineForm) (judged : List Statement), form.Valid ∧ form.tokens = tokens "" (Reading.ofLine line).lexemes ∧
      sts = form.pipelines.map .ready ∧ parseLine limits line = .ok judged ∧
      ∀ i s, form.statements[i]? = some s → i < limits.maxStatements → ¬ s.pipeline.Fits limits →
        ∃ e, (s.breaches limits).head? = some e ∧ judged[i]? = some (.discarded e) := by
  obtain ⟨he, ps, hps⟩ := assemble_of_admits habove.admits h
  obtain ⟨form, htokens, hvalid, hparse⟩ := parseLine_eq_judge hsize he hps
  refine ⟨form, _, hvalid, htokens, ?_, hparse, ?_⟩
  · exact Except.ok.inj (h.symm.trans (parseLine_of_form habove.admitsLine hvalid htokens he))
  · intro i s hs hi hfit
    have hbroken : s.breaches limits ≠ [] := fun hnil =>
      hfit ((StatementForm.breaches_eq_nil_iff (hvalid.statements s (List.mem_of_getElem? hs))).mp hnil)
    obtain ⟨e, rest, hbreaches⟩ := List.exists_cons_of_ne_nil hbroken
    have hhead : (s.breaches limits).head? = some e := by rw [hbreaches]; rfl
    refine ⟨e, hhead, Limits.getElem?_cap ?_ hi⟩
    rw [List.getElem?_map, hs, Option.map_some, StatementForm.judge_of_head? hhead]

/-- One stage of one word, and seven bytes for a word or a path. -/
def narrow : Limits := { maxStages := 1, maxArgs := 1, maxTokenLength := 7, maxPathLength := 7 }

/-- The first statement breaks the limits on paths, arguments and stages, in this order, and is set aside for its path. The second is
set aside for a word of which seven bytes are six characters, the third for its second word, and the last for a path of which only the
first character fits. -/
theorem parseLine_first_breach_narrow :
    parseLine narrow "ab <pqrstuvwx c|d; abcdéfgh; e f; g >𝄞𝄢" =
        .ok [.discarded (.pathTooLong "pqrst"), .discarded (.argumentTooLong "abcdé"), .discarded (.tooManyArguments "e"),
          .discarded (.pathTooLong "𝄞")] ∧
      ∃ form : LineForm, form.tokens = tokens "" (Reading.ofLine "ab <pqrstuvwx c|d; abcdéfgh; e f; g >𝄞𝄢").lexemes ∧
        form.statements.map (fun s => (s.breaches narrow).head?) =
          [some (.pathTooLong "pqrst"), some (.argumentTooLong "abcdé"), some (.tooManyArguments "e"), some (.pathTooLong "𝄞")] := by
  let wide : Limits := ⟨50, 50, 50, 50, 50, 50⟩
  let ps : List Pipeline := [⟨[⟨"ab", ["c"]⟩, ⟨"d", []⟩], some "pqrstuvwx", none⟩, ⟨[⟨"abcdéfgh", []⟩], none, none⟩,
    ⟨[⟨"e", ["f"]⟩], none, none⟩, ⟨[⟨"g", []⟩], none, some ⟨"𝄞𝄢", .truncate⟩⟩]
  have habove : wide.Above "ab <pqrstuvwx c|d; abcdéfgh; e f; g >𝄞𝄢".utf8ByteSize := by constructor <;> decide
  have hwide : parseLine wide "ab <pqrstuvwx c|d; abcdéfgh; e f; g >𝄞𝄢" = .ok (ps.map .ready) := by rfl
  have hnarrow : parseLine narrow "ab <pqrstuvwx c|d; abcdéfgh; e f; g >𝄞𝄢" =
    .ok [.discarded (.pathTooLong "pqrst"), .discarded (.argumentTooLong "abcdé"), .discarded (.tooManyArguments "e"),
      .discarded (.pathTooLong "𝄞")] := by rfl
  have hline : "ab <pqrstuvwx c|d; abcdéfgh; e f; g >𝄞𝄢".utf8ByteSize ≤ narrow.maxLineLength := by decide
  obtain ⟨form, judged, -, htokens, hready, hjudged, hfirst⟩ := parseLine_first_breach habove hwide hline
  obtain rfl := Except.ok.inj (hnarrow.symm.trans hjudged)
  have hps : form.pipelines = ps := ((List.map_inj_right fun _ _ h => Statement.ready.inj h).mp hready).symm
  have hlen : form.statements.length = 4 := by
    rw [← List.length_map StatementForm.pipeline]
    exact congrArg List.length hps
  have hbroken : ∀ p ∈ ps, ¬ p.Fits narrow := by decide
  refine ⟨hnarrow, form, htokens, List.ext_getElem? fun i => ?_⟩
  rw [List.getElem?_map]
  cases hs : form.statements[i]? with
  | none =>
    rw [List.getElem?_eq_none_iff, hlen] at hs
    exact (List.getElem?_eq_none hs).symm
  | some s =>
    have hi : i < 4 := hlen ▸ (List.getElem?_eq_some_iff.mp hs).1
    have hp : s.pipeline ∈ ps := hps ▸ List.mem_map_of_mem (List.mem_of_getElem? hs)
    obtain ⟨e, he, hjudge⟩ := hfirst i s hs (Nat.lt_trans hi (by decide)) (hbroken _ hp)
    rw [Option.map_some, he]
    rcases i with _ | _ | _ | _ | i
    · rw [← Statement.discarded.inj (Option.some.inj hjudge)]
      rfl
    · rw [← Statement.discarded.inj (Option.some.inj hjudge)]
      rfl
    · rw [← Statement.discarded.inj (Option.some.inj hjudge)]
      rfl
    · rw [← Statement.discarded.inj (Option.some.inj hjudge)]
      rfl
    · omega

end PipelineShell
