import PipelineShell.Proofs.Executor.Bookkeeping

/-!
# What the stages' fates make of a pipeline

Once all stages of a pipeline are started, its result depends on nothing but what the waits on them answer. The waits go through the
stages in order, past every one that has exited or is still alive, and stop at the first of which anything else is said.
`runPipeline_fates` says which children are waited for, what the call then returns, and which children it leaves to the stragglers.
-/

namespace PipelineShell

/-- No argument of the pipeline's commands holds a NUL character. -/
def Pipeline.NulFree (p : Pipeline) : Prop := ∀ command ∈ p.commands, ∀ arg ∈ command.argv, Char.ofNat 0 ∉ arg.toList

theorem nulPosition?_eq_none (text : List Char) (h : Char.ofNat 0 ∉ text) : nulPosition? text = none := by
  induction text with
  | nil => rfl
  | cons c rest ih =>
    rw [List.mem_cons, not_or] at h
    rw [nulPosition?, if_neg (Ne.symm h.1), ih h.2]
    rfl

/-- Every argument of such a pipeline can be passed on. -/
theorem Pipeline.NulFree.findSome?_invalid? {p : Pipeline} (h : p.NulFree) :
    p.commands.findSome? Command.invalid? = none := by
  rw [List.findSome?_eq_none_iff]
  intro command hcommand
  rw [Command.invalid?, Option.map_eq_none_iff, List.findSome?_eq_none_iff]
  exact fun arg harg => nulPosition?_eq_none _ (h command hcommand arg harg)

theorem not_mem_of_nulPosition?_eq_none {text : List Char} (h : nulPosition? text = none) : Char.ofNat 0 ∉ text := by
  induction text with
  | nil => exact List.not_mem_nil
  | cons c rest ih =>
    rw [nulPosition?] at h
    split at h
    · nomatch h
    · rename_i hc
      rw [List.mem_cons, not_or]
      exact ⟨Ne.symm hc, ih (Option.map_eq_none_iff.mp h)⟩

/-- Of any other an argument is found that cannot. -/
theorem Pipeline.exists_invalid?_of_not_nulFree {p : Pipeline} (h : ¬ p.NulFree) :
    ∃ program position, p.commands.findSome? Command.invalid? = some (.invalidArgument program position) := by
  cases hfound : p.commands.findSome? Command.invalid? with
  | none =>
    rw [List.findSome?_eq_none_iff] at hfound
    refine absurd (fun command hcommand arg harg => ?_) h
    have hvalid := hfound command hcommand
    rw [Command.invalid?, Option.map_eq_none_iff, List.findSome?_eq_none_iff] at hvalid
    exact not_mem_of_nulPosition?_eq_none (hvalid arg harg)
  | some e =>
    obtain ⟨command, -, hinvalid⟩ := List.exists_of_findSome?_eq_some hfound
    obtain ⟨position, -, rfl⟩ := Option.map_eq_some_iff.mp hinvalid
    exact ⟨command.name, position, rfl⟩

/-! ## The fate of one stage -/

/-- After this answer the next stage is waited for. -/
def goesOn : WaitAnswer → Bool
  | .ok (.exited _) | .ok .stillAlive => true
  | _ => false

/-- The code that a stage counts for if the next one is waited for. -/
def codeOf : WaitAnswer → ExitCode
  | .ok (.exited code) => code
  | _ => 0

/-- What a stage makes of the pipeline if no other is waited for after it. -/
def ExecError.ofAnswer (child : Pid) (command : Command) : WaitAnswer → ExecError
  | .error e => .wait e
  | .ok status => .abnormalExit command.name (describe child status)

/-- The signal that has killed or stopped a process. -/
def WaitStatus.signal? : WaitStatus → Option Signal
  | .killed signal _ | .stopped signal => some signal
  | _ => none

/-- The report on a child that a signal has killed or stopped names the signal. -/
theorem describe_signal (child : Pid) {status : WaitStatus} {signal : Signal} {name : String}
    (hsignal : status.signal? = some signal) (hname : signal.name? = some name) :
    ∃ before after, describe child status = before ++ name ++ after := by
  cases status with
  | killed killer dumpedCore =>
    cases hsignal
    refine ⟨"killed by ", if dumpedCore then " (core dumped)" else "", ?_⟩
    show "killed by " ++ signal.name?.getD "" ++ _ = _
    rw [hname]
    rfl
  | stopped stopper =>
    cases hsignal
    refine ⟨"stopped by ", "", ?_⟩
    show "stopped by " ++ signal.name?.getD "" = _
    rw [hname, String.append_empty]
    rfl
  | exited | continued | stillAlive => nomatch hsignal

/-! ## Waiting for the stages -/

/-- The code of a pipeline all of whose stages were waited for: that of the last. -/
def lastCode (looks : List (Pid × WaitAnswer)) : ExitCode := (looks.getLast?.map fun look => codeOf look.2).getD 0

theorem stillAlive_cons (child : Pid) (answer : WaitAnswer) (looks : List (Pid × WaitAnswer)) :
    stillAlive ((child, answer) :: looks) = keptAfter child answer ++ stillAlive looks := by
  rcases answer with e | _ | _ | _ | _ | _ <;> rfl

variable {σ : Type}

/-- One stage is waited for, and its answer says whether the rest are. -/
theorem collect_cons (host : Host σ) (mode : WaitMode) (stragglers : Stragglers) (code : ExitCode) (child : Pid)
    (command : Command) (pending : List (Pid × Command)) :
    collect host mode stragglers code ((child, command) :: pending) = (do
      let answer ← (host.wait child mode.option).run
      if goesOn answer then collect host mode (stragglers ++ keptAfter child answer) (codeOf answer) pending
      else return ⟨.error (.ofAnswer child command answer), stragglers ++ pending.map Prod.fst⟩) := by
  rw [collect]
  refine bind_congr fun answer => ?_
  rcases answer with e | _ | _ | _ | _ | _ <;> simp [goesOn, codeOf, keptAfter, ExecError.ofAnswer]

/-- What the answers to the waits on the stages make of a pipeline. `code` is its result as far as no wait has changed it. -/
inductive Collected (stages : List (Pid × Command)) (stragglers : Stragglers) (code : ExitCode)
    (looks : List (Pid × WaitAnswer)) (r : PipelineResult) : Prop
  /-- Every stage has been waited for. -/
  | all (children : looks.map Prod.fst = stages.map Prod.fst) (passed : ∀ look ∈ looks, goesOn look.2 = true)
      (outcome : r.outcome = .ok ((looks.getLast?.map fun look => codeOf look.2).getD code))
      (kept : r.stragglers = stragglers ++ stillAlive looks)
  /-- The waits have stopped at a stage. -/
  | stopped (earlier : List (Pid × WaitAnswer)) (child : Pid) (answer : WaitAnswer) (later : List Pid) (command : Command)
      (looks_eq : looks = earlier ++ [(child, answer)])
      (children : stages.map Prod.fst = earlier.map Prod.fst ++ child :: later)
      (stage : stages[earlier.length]? = some (child, command)) (passed : ∀ look ∈ earlier, goesOn look.2 = true)
      (stops : goesOn answer = false) (outcome : r.outcome = .error (.ofAnswer child command answer))
      (kept : r.stragglers = stragglers ++ stillAlive earlier ++ later)

namespace Collected

variable {stages : List (Pid × Command)} {stragglers : Stragglers} {code : ExitCode} {looks : List (Pid × WaitAnswer)}
  {r : PipelineResult} {child : Pid} {command : Command} {answer : WaitAnswer}

/-- A stage that the waits go past comes in front. -/
theorem cons (h : Collected stages (stragglers ++ keptAfter child answer) (codeOf answer) looks r) (ha : goesOn answer = true) :
    Collected ((child, command) :: stages) stragglers code ((child, answer) :: looks) r := by
  cases h with
  | all children passed outcome kept =>
    refine .all (congrArg (child :: ·) children) (List.forall_mem_cons.mpr ⟨ha, passed⟩) ?_ ?_
    · rw [outcome, List.getLast?_cons]
      cases looks.getLast? <;> rfl
    · rw [kept, stillAlive_cons, List.append_assoc]
  | stopped earlier stopping reason later command looks_eq children stage passed stops outcome kept =>
    refine .stopped ((child, answer) :: earlier) stopping reason later command ?_ (congrArg (child :: ·) children) stage
      (List.forall_mem_cons.mpr ⟨ha, passed⟩) stops outcome ?_
    · rw [looks_eq, List.cons_append]
    · rw [kept, stillAlive_cons, List.append_assoc stragglers]

end Collected

/-- The waits add to the history what they are answered, and their answers decide what they come to. -/
theorem ensures_collect (host : Host σ) (mode : WaitMode) (stragglers : Stragglers) (code : ExitCode)
    (stages : List (Pid × Command)) (log : List ChildEvent) :
    Ensures (fun p => p.2 = log) (collect host.recorded mode stragglers code stages) fun r p =>
      ∃ looks, p.2 = log ++ looks.map .ofLook ∧ Collected stages stragglers code looks r := by
  induction stages generalizing stragglers code log with
  | nil =>
    refine .pure fun p hp => ⟨[], hp.trans (List.append_nil log).symm, .all rfl (fun _ h => nomatch h) rfl ?_⟩
    exact (List.append_nil stragglers).symm
  | cons stage pending ih =>
    obtain ⟨child, command⟩ := stage
    rw [collect_cons]
    have hwait : Ensures (fun p => p.2 = log) (host.recorded.wait child mode.option).run fun answer p =>
        p.2 = log ++ [.waited child answer] := by
      rintro p rfl
      rfl
    refine hwait.bind fun answer => ?_
    cases ha : goesOn answer with
    | true =>
      refine fun p hp => ?_
      obtain ⟨looks, hlog, hcollected⟩ := ih (stragglers ++ keptAfter child answer) (codeOf answer) _ p hp
      refine ⟨(child, answer) :: looks, ?_, hcollected.cons ha⟩
      rw [if_pos rfl, hlog, List.append_assoc]
      rfl
    | false =>
      refine .pure fun p hp => ⟨[(child, answer)], hp, .stopped [] child answer _ command rfl rfl rfl ?_ ha rfl ?_⟩
      · exact fun _ h => nomatch h
      · exact (congrArg (· ++ _) (List.append_nil stragglers)).symm

/-! ## A whole pipeline -/

/-- What the host answered about children while a pipeline was run. -/
def pipelineHistory (host : Host σ) (mode : WaitMode) (pipeline : Pipeline) (stragglers : Stragglers) (s : σ) :
    List ChildEvent := ((runPipeline host.recorded mode pipeline stragglers).run (s, [])).2.2

section

variable (host : Host σ) (mode : WaitMode) (pipeline : Pipeline) (stragglers : Stragglers) (s : σ)

/-- A launch records the children that it starts and nothing else. -/
theorem recorded_launch :
    (launch host.recorded pipeline).run (s, []) =
        (((launch host pipeline).run s).1, ((launch host pipeline).run s).2, ((launch host pipeline).run s).1.children.map .forked) ∧
      (((launch host pipeline).run s).1.failure = none →
        ((launch host pipeline).run s).1.children.length = pipeline.commands.length) := by
  have hmirrors : Mirrors (launch host.recorded pipeline) (launch host pipeline) := Mirrors.launchFrom _ _ _ _
  have hforks : Ensures (fun p : σ × List ChildEvent => p.2 = []) (launch host.recorded pipeline) fun l p =>
      p.2 = [] ++ l.children.map .forked ∧
        (l.failure = none → l.children.length = (pipeline.commands.map Command.argv).length) :=
    ensures_launchFrom _ _ _ _ _
  obtain ⟨log, hlaunched⟩ := hmirrors s []
  obtain ⟨hlog, hlength⟩ := hforks (s, []) rfl
  rw [hlaunched] at hlog hlength
  rw [List.length_map] at hlength
  obtain rfl : log = ((launch host pipeline).run s).1.children.map .forked := hlog
  exact ⟨hlaunched, hlength⟩

/-- The children are all started before any is waited for, one for each stage, and the waits decide the rest. -/
theorem collected_of_launched (hnul : pipeline.NulFree) (hlaunch : ((launch host pipeline).run s).1.failure = none) :
    ((launch host pipeline).run s).1.children.length = pipeline.commands.length ∧
    ∃ looks,
      pipelineHistory host mode pipeline stragglers s =
        ((launch host pipeline).run s).1.children.map .forked ++ looks.map .ofLook ∧
      Collected (((launch host pipeline).run s).1.children.zip pipeline.commands) stragglers 0 looks
        ((runPipeline host mode pipeline stragglers).run s).1 := by
  obtain ⟨hlaunched, hlength⟩ := recorded_launch host pipeline s
  have hrun : (runPipeline host.recorded mode pipeline stragglers).run (s, []) =
      (collect host.recorded mode stragglers 0 (((launch host pipeline).run s).1.children.zip pipeline.commands)).run
        (((launch host pipeline).run s).2, ((launch host pipeline).run s).1.children.map .forked) := by
    unfold runPipeline
    rw [hnul.findSome?_invalid?]
    refine (run_bind_of_run hlaunched _).trans ?_
    rw [hlaunch]
  obtain ⟨looks, hhistory, hcollected⟩ := ensures_collect host mode stragglers 0
    (((launch host pipeline).run s).1.children.zip pipeline.commands) (((launch host pipeline).run s).1.children.map .forked)
    (((launch host pipeline).run s).2, ((launch host pipeline).run s).1.children.map .forked) rfl
  have hmirrors : Mirrors (runPipeline host.recorded mode pipeline stragglers) (runPipeline host mode pipeline stragglers) :=
    Mirrors.runPipeline _ _ _
  obtain ⟨log, hmirrored⟩ := hmirrors s []
  rw [← hrun] at hhistory hcollected
  rw [hmirrored] at hcollected
  exact ⟨hlength hlaunch, looks, hhistory, hcollected⟩

/-- Take a pipeline whose arguments can be passed on and whose launch goes through, in either mode and whatever the waits answer. The
children, one for each stage, are all started before the first is waited for. They are waited for once each and in order, either all
of them or up to the first that is neither reported to have exited nor to be still alive. In the first case the result is the code
of the last stage, or 0 if that is still alive, and the children still alive become stragglers. In the second it is the failure of
the wait, or names the program and the signal that it was killed or stopped by, and what becomes stragglers are the children before
that are still alive and then all those after it. -/
theorem runPipeline_fates (hnul : pipeline.NulFree) (hlaunch : ((launch host pipeline).run s).1.failure = none) :
    let children := ((launch host pipeline).run s).1.children
    let result := ((runPipeline host mode pipeline stragglers).run s).1
    children.length = pipeline.commands.length ∧
    ∃ looks, pipelineHistory host mode pipeline stragglers s = children.map .forked ++ looks.map .ofLook ∧
      ((looks.map Prod.fst = children ∧ (∀ look ∈ looks, goesOn look.2 = true) ∧
          result.outcome = .ok (lastCode looks) ∧ result.stragglers = stragglers ++ stillAlive looks) ∨
        ∃ earlier child answer later command,
          looks = earlier ++ [(child, answer)] ∧ children = earlier.map Prod.fst ++ child :: later ∧
          pipeline.commands[earlier.length]? = some command ∧ (∀ look ∈ earlier, goesOn look.2 = true) ∧
          goesOn answer = false ∧ result.stragglers = stragglers ++ stillAlive earlier ++ later ∧
          ((∃ e, answer = .error e ∧ result.outcome = .error (.wait e)) ∨
            ∃ status, answer = .ok status ∧
              result.outcome = .error (.abnormalExit command.name (describe child status)) ∧
              ∀ signal name, status.signal? = some signal → signal.name? = some name →
                ∃ before after, describe child status = before ++ name ++ after)) := by
  intro children result
  obtain ⟨hlength, looks, hhistory, hcollected⟩ := collected_of_launched host mode pipeline stragglers s hnul hlaunch
  have hstages : (children.zip pipeline.commands).map Prod.fst = children := List.map_fst_zip (Nat.le_of_eq hlength)
  refine ⟨hlength, looks, hhistory, ?_⟩
  cases hcollected with
  | all hchildren passed outcome kept => exact .inl ⟨hchildren.trans hstages, passed, outcome, kept⟩
  | stopped earlier child answer later command looks_eq hchildren stage passed stops outcome kept =>
    refine .inr ⟨earlier, child, answer, later, command, looks_eq, hstages.symm.trans hchildren,
      (List.getElem?_zip_eq_some.mp stage).2, passed, stops, kept, ?_⟩
    cases answer with
    | error e => exact .inl ⟨e, rfl, outcome⟩
    | ok status => exact .inr ⟨status, rfl, outcome, fun _ _ => describe_signal child⟩

end

/-- Three stages. -/
def killedPipeline : Pipeline := ⟨[⟨"a", []⟩, ⟨"b", []⟩, ⟨"c", []⟩], none, none⟩

/-- The first is still alive, the second has been killed. -/
def killedAnswers : List WaitAnswer := [.ok .stillAlive, .ok (.killed ⟨9⟩ false)]

/-- The third is not waited for. It becomes a straggler, behind the one that is still alive. -/
theorem runPipeline_fates_killed :
    killedPipeline.NulFree ∧ ((launch answeringHost killedPipeline).run (1, killedAnswers)).1 = ⟨[1, 2, 3], none⟩ ∧
    ∃ looks : List (Pid × WaitAnswer),
      [ChildEvent.forked 1, .forked 2, .forked 3, .waited 1 (.ok .stillAlive), .waited 2 (.ok (.killed ⟨9⟩ false))] =
        [1, 2, 3].map .forked ++ looks.map .ofLook ∧
      ((runPipeline answeringHost .poll killedPipeline [7]).run (1, killedAnswers)).1 =
        ⟨.error (.abnormalExit "b" "killed by SIGKILL"), [7, 1, 3]⟩ := by
  have hnul : killedPipeline.NulFree := by unfold Pipeline.NulFree; decide
  have hlaunch : ((launch answeringHost killedPipeline).run (1, killedAnswers)).1 = ⟨[1, 2, 3], none⟩ := by rfl
  obtain ⟨-, looks, hhistory, -⟩ :=
    runPipeline_fates answeringHost .poll killedPipeline [7] (1, killedAnswers) hnul (congrArg Launch.failure hlaunch)
  rw [hlaunch] at hhistory
  exact ⟨hnul, hlaunch, looks, hhistory, by rfl⟩

end PipelineShell
