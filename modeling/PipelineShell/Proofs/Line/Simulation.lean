import PipelineShell.Proofs.Line.Verdicts

/-!
# A scan under limits follows the assembly

The scan of a line under any limits and the assembly of the same line, which knows none, run side by side (`Keeps`): as long as
what is being read of a statement fits, the scan holds the assembly; once it does not, the scan has set the statement aside and
skips to the `;` that ends it in the assembly. The statements they come to are the same but for those that do not fit (`Judged`).
-/

namespace PipelineShell

namespace Line

variable {limits : Limits} {a : Assembly} {run : String} {sts : List Statement}

namespace Assembly

/-- The scan that holds an assembly and the word being read. -/
def scan (a : Assembly) (run : String) (sts : List Statement) : Scan := ⟨a.place, a.cursor run, sts⟩

/-- How many bytes the word being read can have. -/
def wordLimit (limits : Limits) (a : Assembly) : Nat :=
  if a.awaited = none then limits.maxTokenLength else limits.maxPathLength

/-- The limit that a word of too many bytes breaks. -/
def overlong (a : Assembly) (run : String) : LimitError :=
  if a.awaited = none then .argumentTooLong (opening run) else .pathTooLong (opening run)

/-- The word being read is an argument, and one too many. -/
def Crowded (limits : Limits) (a : Assembly) (run : String) : Prop :=
  a.awaited = none ∧ run ≠ "" ∧ limits.maxArgs ≤ a.argv.length

instance (limits : Limits) (a : Assembly) (run : String) : Decidable (a.Crowded limits run) :=
  inferInstanceAs (Decidable (_ ∧ _ ∧ _))

theorem finished_operate (a : Assembly) {o : Operator} (h : o ≠ .semicolon) : (a.operate o).finished = a.finished := by
  cases o with
  | semicolon => exact absurd rfl h
  | pipe | input | output => rfl

theorem fits_push_iff (h : (a.cursor run).Fits limits) (c : Char) :
    (a.cursor (run.push c)).Fits limits ↔ (run.push c).utf8ByteSize ≤ a.wordLimit limits := by
  obtain ⟨finished, commands, argv, input, output, _ | _ | mode⟩ := a
  · exact ⟨fun h' => h'.token, fun hle => ⟨h.stages, h.commands, h.args, h.words, hle, h.input, h.output⟩⟩
  · refine ⟨fun h' => h'.input _ rfl, fun hle => ⟨h.stages, h.commands, h.args, h.words, h.token, ?_, h.output⟩⟩
    rintro path hp
    rw [← Option.some.inj hp]
    exact hle
  · refine ⟨fun h' => h'.output _ rfl, fun hle => ⟨h.stages, h.commands, h.args, h.words, h.token, h.input, ?_⟩⟩
    rintro target hp
    rw [← Option.some.inj hp]
    exact hle

theorem fits_flush_iff (h : (a.cursor run).Fits limits) :
    ((a.flush run).cursor "").Fits limits ↔ ¬ a.Crowded limits run := by
  by_cases hr : run = ""
  · subst hr
    exact ⟨fun _ hc => hc.2.1 rfl, fun _ => h⟩
  · rw [flush_of_ne a hr]
    obtain ⟨finished, commands, argv, input, output, _ | _ | mode⟩ := a
    · constructor
      · intro h' hc
        have hargs : (argv ++ [run]).length ≤ limits.maxArgs := h'.args
        rw [List.length_append] at hargs
        exact absurd hargs (Nat.not_le_of_lt (Nat.lt_succ_of_le hc.2.2))
      · intro hc
        have hargs : argv.length < limits.maxArgs := Nat.lt_of_not_le fun hle => hc ⟨rfl, hr, hle⟩
        refine ⟨h.stages, h.commands, ?_, ?_, Nat.zero_le _, h.input, h.output⟩
        · rw [show Assembly.cursor _ _ = ⟨commands, argv ++ [run], "", input, output⟩ from rfl, List.length_append]
          exact hargs
        · intro w hw
          rcases List.mem_append.mp hw with hw | hw
          · exact h.words w hw
          · rw [List.mem_singleton.mp hw]
            exact h.token
    · exact ⟨fun _ hc => Option.some_ne_none _ hc.1,
        fun _ => ⟨h.stages, h.commands, h.args, h.words, h.token, h.input, h.output⟩⟩
    · exact ⟨fun _ hc => Option.some_ne_none _ hc.1,
        fun _ => ⟨h.stages, h.commands, h.args, h.words, h.token, h.input, h.output⟩⟩

theorem literal_scan (limits : Limits) (a : Assembly) (run : String) (sts : List Statement) (c : Char) :
    (a.scan run sts).literal limits c =
      if a.wordLimit limits < (run.push c).utf8ByteSize then .error (.limit (a.overlong run))
      else .ok (a.scan (run.push c) sts) := by
  rw [String.utf8ByteSize_push]
  obtain ⟨finished, commands, argv, input, output, _ | _ | mode⟩ := a
  · by_cases h : limits.maxTokenLength < run.utf8ByteSize + c.utf8Size
    · simp [Scan.literal, scan, place, cursor, wordLimit, overlong, Cursor.pushToken, h]
    · simp [Scan.literal, scan, place, cursor, wordLimit, Cursor.pushToken, h]
  · by_cases h : limits.maxPathLength < run.utf8ByteSize + c.utf8Size
    · simp [Scan.literal, scan, place, cursor, wordLimit, overlong, Cursor.pushInput, Cursor.extendPath, Except.map, h]
    · simp [Scan.literal, scan, place, cursor, wordLimit, Cursor.pushInput, Cursor.extendPath, Except.map, h]
  · by_cases h : limits.maxPathLength < run.utf8ByteSize + c.utf8Size
    · simp [Scan.literal, scan, place, cursor, wordLimit, overlong, Cursor.pushOutput, Cursor.extendPath, Except.map, h]
    · simp [Scan.literal, scan, place, cursor, wordLimit, Cursor.pushOutput, Cursor.extendPath, Except.map, h]

/-- The end of a word adds it to what has been collected, unless it is one argument too many. -/
theorem endToken_cursor (h : a.awaited = none ∨ run ≠ "") :
    (a.cursor run).endToken limits =
      if a.Crowded limits run then .error (.tooManyArguments (a.argv.headD run)) else .ok ((a.flush run).cursor "") := by
  by_cases hr : run = ""
  · subst hr
    rw [if_neg (fun hc => hc.2.1 rfl), flush_empty, cursor_of_none (h.resolve_right fun hn => hn rfl)]
    rfl
  · rw [flush_of_ne a hr]
    obtain ⟨finished, commands, argv, input, output, _ | _ | mode⟩ := a
    · by_cases hargs : limits.maxArgs ≤ argv.length
      · rw [if_pos ⟨rfl, hr, hargs⟩]
        simp [Cursor.endToken, cursor, hr, hargs]
      · rw [if_neg (fun hc => hargs hc.2.2)]
        simp [Cursor.endToken, cursor, takeWord, hr, hargs]
    · rw [if_neg fun hc => Option.some_ne_none _ hc.1]
      rfl
    · rw [if_neg fun hc => Option.some_ne_none _ hc.1]
      rfl

theorem awaitsPath_scan (a : Assembly) (run : String) (sts : List Statement) :
    (a.scan run sts).awaitsPath = true ↔ a.awaited ≠ none ∧ run = "" := by
  obtain ⟨finished, commands, argv, input, output, _ | _ | mode⟩ := a <;>
    simp [Scan.awaitsPath, scan, place, cursor, Cursor.inputStarted, Cursor.outputStarted]

theorem flush_scan (h : a.awaited = none ∨ run ≠ "") (sts : List Statement) :
    (a.flush run).scan "" sts = ⟨.argument, (a.flush run).cursor "", sts⟩ := by
  rw [scan, place_of_none (awaited_flush h)]

theorem blank_scan (limits : Limits) (a : Assembly) (run : String) (sts : List Statement) :
    (a.scan run sts).blank limits =
      if a.Crowded limits run then .error (.limit (.tooManyArguments (a.argv.headD run)))
      else .ok ((a.flush run).scan "" sts) := by
  by_cases ha : a.awaited = none
  · have hscan : a.scan run sts = ⟨.argument, a.cursor run, sts⟩ := by rw [scan, place_of_none ha]
    have hend : (a.cursor run).endToken limits = _ := endToken_cursor (.inl ha)
    rw [hscan, flush_scan (.inl ha), Scan.blank, Scan.endToken, hend]
    by_cases hc : a.Crowded limits run
    · rw [if_pos hc, if_pos hc]
    · rw [if_neg hc, if_neg hc]
  · rw [if_neg (fun hc => ha hc.1)]
    have hblank : (a.scan run sts).blank limits =
        .ok (if (a.scan run sts).awaitsPath then a.scan run sts else { a.scan run sts with place := .argument }) := by
      obtain ⟨finished, commands, argv, input, output, _ | _ | mode⟩ := a
      · exact absurd rfl ha
      · rfl
      · rfl
    rw [hblank]
    by_cases hr : run = ""
    · rw [if_pos ((awaitsPath_scan a run sts).mpr ⟨ha, hr⟩), hr, flush_empty]
    · rw [if_neg (fun h => hr ((awaitsPath_scan a run sts).mp h).2), flush_scan (.inr hr), flush_of_ne a hr]
      obtain ⟨finished, commands, argv, input, output, _ | _ | mode⟩ := a
      · exact absurd rfl ha
      · rfl
      · rfl

theorem place_scan (a : Assembly) (run : String) (sts : List Statement) : (a.scan run sts).place ≠ .skipping := by
  obtain ⟨finished, commands, argv, input, output, _ | _ | mode⟩ := a <;> exact Place.noConfusion

theorem awaited_of_flush (h : (a.flush run).awaited = none) : a.awaited = none ∨ run ≠ "" := by
  by_cases hr : run = ""
  · rw [hr, flush_empty] at h
    exact .inl h
  · exact .inr hr

theorem argv_flush_ne_nil (ha : a.awaited = none) (hr : run ≠ "") : (a.flush run).argv ≠ [] := by
  rw [flush_of_ne a hr, takeWord, ha]
  simp

/-- Where a path is asked for, an operator cannot stand. -/
theorem operator_scan_awaited (ha : a.awaited ≠ none) (sts : List Statement) (o : Operator) :
    (a.scan "" sts).operator limits o = .error (.syntaxError (.unexpectedOperator o)) := by
  rw [Scan.operator, if_neg (place_scan a "" sts), if_pos ((awaitsPath_scan a "" sts).mpr ⟨ha, rfl⟩)]

/-- An operator that can stand within a statement is taken, unless it is a `|` after which there would be too many stages. -/
theorem operate_scan {o : Operator} (hp : a.Permits o) (ho : o ≠ .semicolon)
    (hstages : o = .pipe → a.commands.length + 2 ≤ limits.maxStages) (sts : List Statement) :
    (a.scan "" sts).operate limits o = .ok ((a.operate o).scan "" sts) := by
  obtain ⟨finished, commands, argv, input, output, awaited⟩ := a
  cases o with
  | semicolon => exact absurd rfl ho
  | pipe =>
    obtain ⟨rfl, hargv, rfl⟩ := hp
    rw [Scan.operate_pipe rfl, if_neg (fun h => h.elim hargv (fun hn => hn rfl))]
    exact if_neg (Nat.not_lt_of_le (hstages rfl))
  | input =>
    obtain ⟨rfl, hargv, rfl, rfl⟩ := hp
    rw [Scan.operate_input rfl, if_neg (fun h => h.elim hargv fun h => h.elim (fun hn => hn rfl) fun hn => hn rfl)]
    rfl
  | output mode =>
    obtain ⟨rfl, hargv, rfl⟩ := hp
    rw [Scan.operate_output rfl, if_neg (fun h => h.elim hargv (fun hn => hn rfl))]
    rfl

theorem fits_operate {o : Operator} (hfit : (a.cursor "").Fits limits) (hp : a.Permits o) (ho : o ≠ .semicolon)
    (hstages : o = .pipe → a.commands.length + 2 ≤ limits.maxStages) : ((a.operate o).cursor "").Fits limits := by
  obtain ⟨finished, commands, argv, input, output, awaited⟩ := a
  cases o with
  | semicolon => exact absurd rfl ho
  | pipe =>
    obtain ⟨rfl, hargv, rfl⟩ := hp
    obtain ⟨name, args, rfl⟩ := List.exists_cons_of_ne_nil hargv
    have hlen : commands.length + 2 ≤ limits.maxStages := hstages rfl
    refine ⟨?_, fun c hc => ?_, Nat.zero_le _, fun _ hw => absurd hw List.not_mem_nil, Nat.zero_le _, hfit.input,
      fun _ hn => nomatch hn⟩
    · show (commands ++ [(⟨name, args⟩ : Command)]).length < max 1 limits.maxStages
      rw [List.length_append, List.length_singleton]
      omega
    · rcases List.mem_append.mp hc with hc | hc
      · exact hfit.commands c hc
      · rw [List.mem_singleton.mp hc]
        exact ⟨hfit.args, hfit.words⟩
  | input =>
    obtain ⟨rfl, -, rfl, rfl⟩ := hp
    refine ⟨hfit.stages, hfit.commands, hfit.args, hfit.words, hfit.token, ?_, hfit.output⟩
    rintro path hpath
    rw [← Option.some.inj hpath]
    exact Nat.zero_le _
  | output mode =>
    obtain ⟨rfl, -, rfl⟩ := hp
    refine ⟨hfit.stages, hfit.commands, hfit.args, hfit.words, hfit.token, hfit.input, ?_⟩
    rintro target htarget
    rw [← Option.some.inj htarget]
    exact Nat.zero_le _

theorem stages_of_fits_pipe (hp : a.Permits .pipe) (h : ((a.operate .pipe).cursor "").Fits limits) :
    a.commands.length + 2 ≤ limits.maxStages := by
  obtain ⟨finished, commands, argv, input, output, awaited⟩ := a
  obtain ⟨rfl, hargv, rfl⟩ := hp
  obtain ⟨name, args, rfl⟩ := List.exists_cons_of_ne_nil hargv
  have hlt : (commands ++ [(⟨name, args⟩ : Command)]).length < max 1 limits.maxStages := h.stages
  rw [List.length_append, List.length_singleton] at hlt
  show commands.length + 2 ≤ limits.maxStages
  omega

/-- A `|` after which there would be too many stages breaks the limit on them. -/
theorem pipe_scan_of_lt (hp : a.Permits .pipe) (hstages : limits.maxStages < a.commands.length + 2) (sts : List Statement) :
    (a.scan "" sts).operate limits .pipe =
      .error (.limit (.tooManyStages (a.cursor "").stageNames.1 (a.cursor "").stageNames.2)) := by
  obtain ⟨finished, commands, argv, input, output, awaited⟩ := a
  obtain ⟨rfl, hargv, rfl⟩ := hp
  rw [Scan.operate_pipe rfl, if_neg (fun h => h.elim hargv (fun hn => hn rfl))]
  exact if_pos hstages

/-- A `;` that can stand completes the statement. -/
theorem semicolon_scan (hp : a.Permits .semicolon) (sts : List Statement) :
    (a.scan "" sts).operate limits .semicolon = .ok ((a.scan "" sts).complete limits) := by
  obtain ⟨finished, commands, argv, input, output, awaited⟩ := a
  obtain ⟨rfl, hargv⟩ := hp
  rw [Scan.operate_semicolon rfl]
  exact if_neg hargv

theorem pipeline_cursor (h : a.awaited = none) : (a.cursor "").pipeline = a.pipeline := by
  rw [cursor_of_none h]
  rfl

/-- Elsewhere an operator ends the word being read and sees what has been collected. -/
theorem operator_scan (h : a.awaited = none ∨ run ≠ "") (sts : List Statement) (o : Operator) :
    (a.scan run sts).operator limits o =
      if a.Crowded limits run then
        if o = .semicolon then
          .ok { (a.scan run sts).discard limits (.tooManyArguments (a.argv.headD run)) with place := .argument }
        else .error (.limit (.tooManyArguments (a.argv.headD run)))
      else ((a.flush run).scan "" sts).operate limits o := by
  have hawaits : ¬ (a.scan run sts).awaitsPath = true := fun hw =>
    h.elim (fun ha => ((awaitsPath_scan a run sts).mp hw).1 ha) (fun hr => hr ((awaitsPath_scan a run sts).mp hw).2)
  have hend : (a.cursor run).endToken limits = _ := endToken_cursor h
  rw [Scan.operator, if_neg (place_scan a run sts), if_neg hawaits]
  by_cases hc : a.Crowded limits run
  · rw [if_pos hc] at hend ⊢
    rw [Scan.operate_of_error (s := { a.scan run sts with place := .argument }) hend, Scan.discard_eq, Scan.discard_eq]
  · rw [if_neg hc] at hend ⊢
    rw [Scan.operate_of_ok (s := { a.scan run sts with place := .argument }) o hend, flush_scan h]
    rfl

theorem dangling_scan (ha : a.awaited = none ∨ run ≠ "") (sts : List Statement) : (a.scan run sts).dangling? = none := by
  obtain ⟨finished, commands, argv, input, output, _ | _ | mode⟩ := a
  · rfl
  · simp [Scan.dangling?, scan, place, cursor, ha.resolve_left (by simp)]
  · simp [Scan.dangling?, scan, place, cursor, ha.resolve_left (by simp)]

theorem dangling_scan_awaited {r : Awaited} (ha : a.awaited = some r) (sts : List Statement) :
    (a.scan "" sts).dangling? = some r.operator := by
  obtain ⟨finished, commands, argv, input, output, _ | _ | mode⟩ := a
  · cases ha
  · obtain rfl := Option.some.inj ha
    rfl
  · obtain rfl := Option.some.inj ha
    rfl

/-- The end of the line ends the word being read and completes the statement. -/
theorem finishStatement_scan (h : a.awaited = none ∨ run ≠ "") (sts : List Statement) :
    (a.scan run sts).finishStatement limits =
      if a.Crowded limits run then .error (.limit (.tooManyArguments (a.argv.headD run)))
      else if (a.flush run).IsBlank then .ok { a.scan run sts with cursor := (a.flush run).cursor "" }
      else if (a.flush run).argv = [] then .error (.syntaxError (.unexpectedOperator .pipe))
      else .ok (Scan.complete limits { a.scan run sts with cursor := (a.flush run).cursor "" }) := by
  have hend : (a.scan run sts).cursor.endToken limits = _ := endToken_cursor h
  rw [Scan.finishStatement, Scan.endToken, hend]
  by_cases hc : a.Crowded limits run
  · rw [if_pos hc, if_pos hc]
    rfl
  · rw [if_neg hc, if_neg hc, cursor_of_none (awaited_flush h)]
    simp only [bind, Except.bind, Cursor.isBlank, IsBlank]
    simp [and_assoc]

end Assembly

/-- `Keeps limits s a run`: the scan `s` is where the assembly `a` is with the word `run`, or skips to the end of a statement that
has broken a limit, and the statements recorded are those of the assembly as the limits judge them. -/
inductive Keeps (limits : Limits) : Scan → Assembly → String → Prop where
  | reading {a : Assembly} {run : String} {sts : List Statement} :
      (a.cursor run).Fits limits → Judged limits a.finished sts → Keeps limits (a.scan run sts) a run
  | skipping {a : Assembly} {run : String} {sts : List Statement} {e : LimitError} :
      ¬ (a.cursor run).Fits limits → Judged limits a.finished sts →
      (e = .tooManyStatements ↔ limits.maxStatements ≤ sts.length) →
      Keeps limits ⟨.skipping, {}, sts ++ [.discarded e]⟩ a run

namespace Keeps

/-- A line begins with nothing read. -/
theorem empty : Keeps limits {} {} "" := reading Assembly.fits_empty .nil

/-- What a limit on text, arguments or stages becomes when it is recorded. -/
theorem recorded_iff {e : LimitError} (he : e ≠ .tooManyStatements) (n : Nat) :
    (if limits.maxStatements ≤ n then .tooManyStatements else e) = LimitError.tooManyStatements ↔
      limits.maxStatements ≤ n := by
  split
  · rename_i hn
    exact ⟨fun _ => hn, fun _ => rfl⟩
  · rename_i hn
    exact ⟨fun h => absurd h he, fun h => absurd h hn⟩

/-- A statement that breaks a limit is set aside. -/
theorem discard {s : Scan} {e : LimitError} (hfit : ¬ (a.cursor run).Fits limits)
    (hj : Judged limits a.finished s.statements) (he : e ≠ .tooManyStatements) : Keeps limits (s.discard limits e) a run := by
  rw [Scan.discard_eq]
  exact skipping hfit hj (recorded_iff he _)

/-- A literal character goes into the word being read. -/
theorem literal (hfit : (a.cursor run).Fits limits) (hj : Judged limits a.finished sts) (c : Char) :
    ∃ s, (a.scan run sts).step limits (.literal c) = .ok s ∧ Keeps limits s a (run.push c) := by
  have hiff := Assembly.fits_push_iff hfit c
  rw [Scan.step, Scan.take, Assembly.literal_scan]
  by_cases hle : (run.push c).utf8ByteSize ≤ a.wordLimit limits
  · rw [if_neg (Nat.not_lt_of_le hle)]
    exact ⟨_, rfl, reading (hiff.mpr hle) hj⟩
  · rw [if_pos (Nat.lt_of_not_le hle)]
    refine ⟨_, rfl, discard (fun h => hle (hiff.mp h)) hj ?_⟩
    unfold Assembly.overlong
    split <;> exact LimitError.noConfusion

/-- A blank ends the word being read. -/
theorem blank (hfit : (a.cursor run).Fits limits) (hj : Judged limits a.finished sts) :
    ∃ s, (a.scan run sts).step limits .blank = .ok s ∧ Keeps limits s (a.flush run) "" := by
  have hiff := Assembly.fits_flush_iff hfit
  have hj' : Judged limits (a.flush run).finished sts := by rwa [Assembly.finished_flush]
  rw [Scan.step, Scan.take, Assembly.blank_scan]
  by_cases hc : a.Crowded limits run
  · rw [if_pos hc]
    exact ⟨_, rfl, discard (fun h => hiff.mp h hc) hj' LimitError.noConfusion⟩
  · rw [if_neg hc]
    exact ⟨_, rfl, reading (hiff.mpr hc) hj'⟩

/-- What is recorded of a pipeline that breaks no limit on text, arguments or stages. -/
theorem verdict_complete {p : Pipeline} (hp : p.Fits limits) (n : Nat) :
    Verdict limits n p (if limits.maxStatements ≤ n then .discarded .tooManyStatements else .ready p) := by
  split
  · rename_i hn
    exact ⟨fun h => absurd h.1 (Nat.not_lt_of_le hn), fun _ => hn, fun _ => rfl⟩
  · rename_i hn
    exact ⟨rfl, Nat.lt_of_not_le hn, hp⟩

/-- What is recorded of a pipeline that breaks a limit on text, arguments or stages. -/
theorem verdict_discard {p : Pipeline} (hp : ¬ p.Fits limits) {e : LimitError} {n : Nat}
    (he : e = .tooManyStatements ↔ limits.maxStatements ≤ n) : Verdict limits n p (.discarded e) :=
  ⟨fun h => hp h.2, he⟩

/-- An operator that can stand is taken. -/
theorem operate {s : Scan} {o : Operator} (hfit : (a.cursor "").Fits limits) (hj : Judged limits a.finished s.statements)
    (hp : a.Permits o) :
    ∃ s', s.settle limits ((a.scan "" s.statements).operate limits o) = .ok s' ∧ Keeps limits s' (a.operate o) "" := by
  by_cases ho : o = .semicolon
  · subst ho
    have hpipeline := (Assembly.pipeline_fits_iff hp.1 hp.2).mpr hfit
    rw [Assembly.semicolon_scan hp, Scan.complete_eq]
    refine ⟨_, rfl, reading (a := a.operate .semicolon) Assembly.fits_empty (hj.concat ?_)⟩
    rw [show (a.scan "" s.statements).cursor.pipeline = a.pipeline from Assembly.pipeline_cursor hp.1]
    exact verdict_complete hpipeline _
  · have hj' : Judged limits (a.operate o).finished s.statements := by rwa [Assembly.finished_operate _ ho]
    by_cases hstages : o = .pipe → a.commands.length + 2 ≤ limits.maxStages
    · rw [Assembly.operate_scan hp ho hstages]
      exact ⟨_, rfl, reading (Assembly.fits_operate hfit hp ho hstages) hj'⟩
    · obtain ⟨rfl, hlt⟩ := Classical.not_imp.mp hstages
      rw [Assembly.pipe_scan_of_lt hp (Nat.lt_of_not_le hlt)]
      refine ⟨_, rfl, discard (fun h => hlt ?_) hj' LimitError.noConfusion⟩
      exact Assembly.stages_of_fits_pipe hp h

/-- An operator that cannot stand is a syntax error. -/
theorem operate_of_not_permits {o : Operator} (ha : a.awaited = none) (hp : ¬ a.Permits o) :
    (a.scan "" sts).operate limits o = .error (.syntaxError (.unexpectedOperator o)) := by
  obtain ⟨finished, commands, argv, input, output, awaited⟩ := a
  obtain rfl : awaited = none := ha
  cases o with
  | pipe =>
    rw [Scan.operate_pipe rfl]
    by_cases hargv : argv = []
    · rw [if_pos (.inl hargv)]
    · by_cases houtput : output = none
      · exact absurd ⟨rfl, hargv, houtput⟩ hp
      · rw [if_pos (.inr houtput)]
  | input =>
    rw [Scan.operate_input rfl]
    by_cases hargv : argv = []
    · rw [if_pos (.inl hargv)]
    · by_cases hcommands : commands = []
      · by_cases hinput : input = none
        · exact absurd ⟨rfl, hargv, hcommands, hinput⟩ hp
        · rw [if_pos (.inr (.inr hinput))]
      · rw [if_pos (.inr (.inl hcommands))]
  | output mode =>
    rw [Scan.operate_output rfl]
    by_cases hargv : argv = []
    · rw [if_pos (.inl hargv)]
    · by_cases houtput : output = none
      · exact absurd ⟨rfl, hargv, houtput⟩ hp
      · rw [if_pos (.inr houtput)]
  | semicolon =>
    rw [Scan.operate_semicolon rfl]
    split
    · rfl
    · rename_i hargv
      exact absurd ⟨rfl, hargv⟩ hp

/-- An operator that can stand after the word being read is taken. -/
theorem operator {o : Operator} (hfit : (a.cursor run).Fits limits) (hj : Judged limits a.finished sts)
    (hp : (a.flush run).Permits o) :
    ∃ s, (a.scan run sts).step limits (.operator o) = .ok s ∧ Keeps limits s ((a.flush run).operate o) "" := by
  have hawaited : (a.flush run).awaited = none := by
    cases o with
    | pipe | input | output | semicolon => exact hp.1
  have ha := Assembly.awaited_of_flush hawaited
  have hiff := Assembly.fits_flush_iff hfit
  have hj' : Judged limits (a.flush run).finished sts := by rwa [Assembly.finished_flush]
  rw [Scan.step, Scan.take, Assembly.operator_scan ha]
  by_cases hc : a.Crowded limits run
  · rw [if_pos hc]
    have hfit' : ¬ ((a.flush run).cursor "").Fits limits := fun h => hiff.mp h hc
    by_cases ho : o = .semicolon
    · subst ho
      rw [if_pos rfl, Scan.discard_eq]
      refine ⟨_, rfl, reading (a := Assembly.operate (a.flush run) .semicolon) Assembly.fits_empty
        (hj'.concat (verdict_discard (fun h => hfit' ?_) (recorded_iff LimitError.noConfusion _)))⟩
      exact (Assembly.pipeline_fits_iff hawaited hp.2).mp h
    · rw [if_neg ho]
      have hj'' : Judged limits ((a.flush run).operate o).finished sts := by rwa [Assembly.finished_operate _ ho]
      exact ⟨_, rfl, discard (fun h => hfit' (Assembly.fits_of_operate hp ho h)) hj'' LimitError.noConfusion⟩
  · rw [if_neg hc]
    exact operate (hiff.mpr hc) hj' hp

/-- An operator that cannot stand after the word being read is a syntax error, if that word breaks no limit. -/
theorem operator_of_not_permits {o : Operator} (hfit : (a.cursor run).Fits limits)
    (hflush : ((a.flush run).cursor "").Fits limits) (hp : ¬ (a.flush run).Permits o) :
    (a.scan run sts).step limits (.operator o) = .error (.unexpectedOperator o) := by
  rw [Scan.step, Scan.take]
  by_cases ha : a.awaited = none ∨ run ≠ ""
  · rw [Assembly.operator_scan ha, if_neg ((Assembly.fits_flush_iff hfit).mp hflush),
      operate_of_not_permits (Assembly.awaited_flush ha) hp]
    rfl
  · obtain ⟨hawaited, hr⟩ := not_or.mp ha
    obtain rfl : run = "" := Decidable.not_not.mp hr
    rw [Assembly.operator_scan_awaited hawaited]
    rfl

/-- A word that is one argument too many sets the statement aside, whatever operator ends it. -/
theorem operator_of_crowded (o : Operator) (hc : a.Crowded limits run) :
    ∃ s, (a.scan run sts).step limits (.operator o) = .ok s ∧ Discards s.statements := by
  rw [Scan.step, Scan.take, Assembly.operator_scan (.inl hc.1), if_pos hc]
  split
  · rw [Scan.discard_eq]
    exact ⟨_, rfl, _, List.mem_append_right _ (List.mem_singleton_self _)⟩
  · rw [Scan.settle, Scan.discard_eq]
    exact ⟨_, rfl, _, List.mem_append_right _ (List.mem_singleton_self _)⟩

/-- The scan takes what the assembly takes. -/
theorem step {s : Scan} {l : Lexeme} {p : Assembly × String} (h : Keeps limits s a run) (hread : a.read run l = .ok p) :
    ∃ s', s.step limits l = .ok s' ∧ Keeps limits s' p.1 p.2 := by
  cases l with
  | literal c =>
    obtain rfl : (a, run.push c) = p := Except.ok.inj hread
    cases h with
    | reading hfit hj => exact literal hfit hj c
    | skipping hfit hj he => exact ⟨_, rfl, skipping (fun h => hfit (Assembly.fits_of_push h)) hj he⟩
  | blank =>
    obtain rfl : (a.flush run, "") = p := Except.ok.inj hread
    cases h with
    | reading hfit hj => exact blank hfit hj
    | skipping hfit hj he =>
      refine ⟨_, rfl, skipping (fun h => hfit (Assembly.fits_of_flush h)) ?_ he⟩
      rwa [Assembly.finished_flush]
  | operator o =>
    by_cases hp : (a.flush run).Permits o
    · rw [Assembly.read, if_pos hp] at hread
      obtain rfl := Except.ok.inj hread
      cases h with
      | reading hfit hj => exact operator hfit hj hp
      | @skipping _ _ sts e hfit hj he =>
        have hflush : ¬ ((a.flush run).cursor "").Fits limits := fun h => hfit (Assembly.fits_of_flush h)
        by_cases ho : o = .semicolon
        · subst ho
          refine ⟨_, rfl, reading (a := Assembly.operate (a.flush run) .semicolon) Assembly.fits_empty
            (Judged.concat ?_ (verdict_discard (fun h => hflush ?_) he))⟩
          · rwa [Assembly.finished_flush]
          · exact (Assembly.pipeline_fits_iff hp.1 hp.2).mp h
        · refine ⟨⟨.skipping, {}, sts ++ [.discarded e]⟩, ?_, skipping (fun h => hflush (Assembly.fits_of_operate hp ho h)) ?_ he⟩
          · rw [Scan.step, Scan.take, Scan.operator, if_pos rfl, if_neg ho]
            rfl
          · rwa [Assembly.finished_operate _ ho, Assembly.finished_flush]
    · rw [Assembly.read, if_neg hp] at hread
      cases hread

/-- What the assembly cannot take the scan only takes where it sets a statement aside. -/
theorem step_of_error {s s' : Scan} {l : Lexeme} {o : Operator} (h : Keeps limits s a run) (hread : a.read run l = .error o)
    (hs : s.step limits l = .ok s') : Discards s'.statements := by
  cases h with
  | skipping =>
    obtain ⟨more, hmore⟩ := Scan.prefix_step hs
    exact ⟨_, hmore ▸ List.mem_append_left _ (List.mem_append_right _ (List.mem_singleton_self _))⟩
  | reading hfit hj =>
    cases l with
    | literal c => cases hread
    | blank => cases hread
    | operator o' =>
      by_cases hp : (a.flush run).Permits o'
      · rw [Assembly.read, if_pos hp] at hread
        cases hread
      · by_cases hc : a.Crowded limits run
        · obtain ⟨t, ht, hd⟩ := operator_of_crowded o' hc
          exact Except.ok.inj (ht.symm.trans hs) ▸ hd
        · rw [operator_of_not_permits hfit ((Assembly.fits_flush_iff hfit).mpr hc) hp] at hs
          cases hs

/-- Whatever the assembly takes to its end, the scan does. -/
theorem run_ok {s : Scan} {ls : List Lexeme} {p : Assembly × String} (h : Keeps limits s a run)
    (hread : Assembly.readAll (a, run) ls = .ok p) : ∃ s', s.run limits ls = .ok s' ∧ Keeps limits s' p.1 p.2 := by
  induction ls generalizing s a run with
  | nil =>
    obtain rfl := Except.ok.inj hread
    exact ⟨s, rfl, h⟩
  | cons l ls ih =>
    rw [Assembly.readAll, List.foldlM_cons] at hread
    cases hl : a.read run l with
    | error o =>
      simp only [hl] at hread
      cases hread
    | ok q =>
      simp only [hl] at hread
      obtain ⟨t, ht, hk⟩ := h.step hl
      obtain ⟨s', hs', hk'⟩ := ih hk hread
      refine ⟨s', ?_, hk'⟩
      rw [Scan.run, List.foldlM_cons, ht]
      exact hs'

/-- Where the assembly stops, a scan that goes on has set a statement aside. -/
theorem run_of_error {s s' : Scan} {ls : List Lexeme} {o : Operator} (h : Keeps limits s a run)
    (hread : Assembly.readAll (a, run) ls = .error o) (hs : s.run limits ls = .ok s') : Discards s'.statements := by
  induction ls generalizing s a run with
  | nil => cases hread
  | cons l ls ih =>
    rw [Assembly.readAll, List.foldlM_cons] at hread
    rw [Scan.run, List.foldlM_cons] at hs
    cases ht : s.step limits l with
    | error e =>
      rw [ht] at hs
      cases hs
    | ok t =>
      rw [ht] at hs
      cases hl : a.read run l with
      | error o' =>
        obtain ⟨e, he⟩ := h.step_of_error hl ht
        exact ⟨e, (Scan.prefix_run hs).subset he⟩
      | ok q =>
        simp only [hl] at hread
        obtain ⟨t', ht', hk⟩ := h.step hl
        obtain rfl : t = t' := Except.ok.inj (ht.symm.trans ht')
        exact ih hk hread hs

/-- Where the assembly comes to an end, the scan comes to the same statements as the limits judge them. -/
theorem finish_ok {s : Scan} {ps : List Pipeline} (h : Keeps limits s a run) (hf : (a.flush run).finish = .ok ps) :
    ∃ sts, s.finish limits .complete = .ok sts ∧ Judged limits ps sts := by
  obtain ⟨hawaited, hps⟩ := Assembly.finish_eq_ok_iff.mp hf
  have hfinished := Assembly.finished_flush a run
  cases h with
  | @skipping _ _ sts e hfit hj he =>
    refine ⟨_, rfl, ?_⟩
    have hflush : ¬ ((a.flush run).cursor "").Fits limits := fun h => hfit (Assembly.fits_of_flush h)
    obtain ⟨⟨hcommands, hargv, hinput, houtput⟩, -⟩ | ⟨hargv, rfl⟩ := hps
    · refine absurd ?_ hflush
      rw [Assembly.cursor_of_none hawaited, hcommands, hargv, hinput, houtput]
      exact Assembly.fits_empty
    · rw [hfinished]
      exact hj.concat (verdict_discard (fun h => hflush ((Assembly.pipeline_fits_iff hawaited hargv).mp h)) he)
  | @reading _ _ sts hfit hj =>
    have ha := Assembly.awaited_of_flush hawaited
    have hiff := Assembly.fits_flush_iff hfit
    rw [Scan.finish, if_neg (Assembly.place_scan a run sts), Assembly.dangling_scan ha, Assembly.finishStatement_scan ha]
    dsimp only
    by_cases hc : a.Crowded limits run
    · rw [if_pos hc, Scan.settle, Scan.discard_eq]
      refine ⟨_, rfl, ?_⟩
      obtain ⟨hb, -⟩ | ⟨hargv, rfl⟩ := hps
      · exact absurd hb.2.1 (Assembly.argv_flush_ne_nil hc.1 hc.2.1)
      · rw [hfinished]
        refine hj.concat (verdict_discard (fun h => ?_) (recorded_iff LimitError.noConfusion _))
        exact hiff.mp ((Assembly.pipeline_fits_iff hawaited hargv).mp h) hc
    · rw [if_neg hc]
      obtain ⟨hb, rfl⟩ | ⟨hargv, rfl⟩ := hps
      · rw [if_pos hb, hfinished]
        exact ⟨sts, rfl, hj⟩
      · rw [if_neg (fun hb => hargv hb.2.1), if_neg hargv, Scan.settle, Scan.complete_eq, hfinished]
        refine ⟨_, rfl, hj.concat ?_⟩
        have hcursor := Assembly.pipeline_cursor hawaited
        have hverdict := verdict_complete ((Assembly.pipeline_fits_iff hawaited hargv).mpr (hiff.mpr hc)) sts.length
        rwa [← hcursor] at hverdict ⊢

/-- Where the assembly cannot come to an end, the scan cannot, if the word being read breaks no limit. -/
theorem finish_of_fits {o : Operator} (hfit : (a.cursor run).Fits limits) (hflush : ((a.flush run).cursor "").Fits limits)
    (hf : (a.flush run).finish = .error o) : (a.scan run sts).finish limits .complete = .error (.unexpectedOperator o) := by
  rw [Scan.finish, if_neg (Assembly.place_scan a run sts)]
  by_cases ha : a.awaited = none ∨ run ≠ ""
  · rw [Assembly.dangling_scan ha, Assembly.finishStatement_scan ha, if_neg ((Assembly.fits_flush_iff hfit).mp hflush)]
    rw [Assembly.finish, Assembly.awaited_flush ha] at hf
    dsimp only at hf ⊢
    split at hf
    · cases hf
    · rename_i hb
      split at hf
      · rename_i hargv
        rw [if_neg hb, if_pos hargv, ← Except.error.inj hf]
        rfl
      · cases hf
  · obtain ⟨hawaited, hr⟩ := not_or.mp ha
    obtain rfl : run = "" := Decidable.not_not.mp hr
    obtain ⟨r, hr⟩ := Option.ne_none_iff_exists'.mp hawaited
    rw [Assembly.flush_empty, Assembly.finish, hr] at hf
    rw [Assembly.dangling_scan_awaited hr, ← Except.error.inj hf]

/-- Where the assembly cannot come to an end, a scan that does has set a statement aside. -/
theorem finish_of_error {s : Scan} {o : Operator} (h : Keeps limits s a run) (hf : (a.flush run).finish = .error o)
    (hs : s.finish limits .complete = .ok sts) : Discards sts := by
  cases h with
  | skipping =>
    obtain ⟨more, hmore⟩ := Scan.prefix_finish hs
    exact ⟨_, hmore ▸ List.mem_append_left _ (List.mem_append_right _ (List.mem_singleton_self _))⟩
  | @reading _ _ sts' hfit hj =>
    by_cases hc : a.Crowded limits run
    · rw [Scan.finish, if_neg (Assembly.place_scan a run sts'), Assembly.dangling_scan (.inl hc.1),
        Assembly.finishStatement_scan (.inl hc.1), if_pos hc, Scan.settle, Scan.discard_eq] at hs
      rw [← Except.ok.inj hs]
      exact ⟨_, List.mem_append_right _ (List.mem_singleton_self _)⟩
    · rw [finish_of_fits hfit ((Assembly.fits_flush_iff hfit).mpr hc) hf] at hs
      cases hs

end Keeps

/-! ## Whole lines -/

/-- Where the words and operators of a complete line can be assembled, limits leave a statement for each pipeline and judge it. -/
theorem judged_of_assemble {line : String} {ps : List Pipeline} (hsize : line.utf8ByteSize ≤ limits.maxLineLength)
    (he : (Reading.ofLine line).ending = .complete)
    (h : assemble (tokens "" (Reading.ofLine line).lexemes) = .ok ps) :
    ∃ sts, parseLine limits line = .ok sts ∧ Judged limits ps sts := by
  unfold assemble at h
  rw [← Assembly.readAll_flush ({}, "")] at h
  cases hr : Assembly.readAll ({}, "") (Reading.ofLine line).lexemes with
  | error o =>
    rw [hr] at h
    cases h
  | ok p =>
    rw [hr] at h
    obtain ⟨s, hs, hk⟩ := Keeps.empty.run_ok hr
    obtain ⟨sts, hsts, hj⟩ := hk.finish_ok h
    refine ⟨sts, ?_, hj⟩
    rw [parseLine, if_neg (Nat.not_lt_of_le hsize), Reading.statements, he]
    exact (congrArg (fun r => r >>= fun s => Scan.finish limits s .complete) hs).trans hsts

/-- A line of which nothing is set aside is complete, and its words and operators can be assembled. -/
theorem assemble_of_parseLine {line : String} {sts : List Statement} (h : parseLine limits line = .ok sts)
    (hd : ¬ Discards sts) :
    line.utf8ByteSize ≤ limits.maxLineLength ∧ (Reading.ofLine line).ending = .complete ∧
      ∃ ps, assemble (tokens "" (Reading.ofLine line).lexemes) = .ok ps := by
  obtain ⟨hsize, s, hs, hf⟩ := parseLine_eq_ok h
  have hd' : ¬ Discards s.statements := fun ⟨e, he⟩ => hd ⟨e, (Scan.prefix_finish hf).subset he⟩
  have hempty : Keeps limits {} {} "" := .empty
  cases hr : Assembly.readAll ({}, "") (Reading.ofLine line).lexemes with
  | error o => exact absurd (hempty.run_of_error hr hs) hd'
  | ok p =>
    obtain ⟨s', hs', hk⟩ := hempty.run_ok hr
    obtain rfl : s = s' := Except.ok.inj (hs.symm.trans hs')
    have hplace : s.place ≠ .skipping := by
      cases hk with
      | reading => exact Assembly.place_scan _ _ _
      | skipping => exact absurd ⟨_, List.mem_append_right _ (List.mem_singleton_self _)⟩ hd'
    have he := Scan.complete_of_finish hplace hf
    rw [he] at hf
    refine ⟨hsize, he, ?_⟩
    rw [assemble, ← Assembly.readAll_flush ({}, ""), hr]
    cases hp : (p.1.flush p.2).finish with
    | error o => exact absurd (hk.finish_of_error hp hf) hd
    | ok ps => exact ⟨ps, hp⟩

end Line

end PipelineShell
