import PipelineShell.Proofs.Executor.Ensures

/-!
# What becomes of the children of a session

A session runs pipelines and goes through the stragglers, in any order, with one list of stragglers. Its `history` is what the host
answered: which children were forked, and what every wait on one of them said. It is kept by `Host.recorded`, a host that does what
another does and writes these answers down; `session_recorded` says that writing them down changes nothing.
-/

namespace PipelineShell

/-- What a wait on a child says. -/
abbrev WaitAnswer := Except Errno WaitStatus

/-- What happens to the children of a shell. -/
inductive ChildEvent where
  | forked (child : Pid)
  | waited (child : Pid) (answer : WaitAnswer)

/-- What a fork adds to the history. -/
def ChildEvent.ofFork : Except Errno Pid → List ChildEvent
  | .ok child => [.forked child]
  | .error _ => []

/-- A program of a host as one of the host with a history, which it leaves as it is. -/
def aside {σ α : Type} (c : StateM σ α) : StateM (σ × List ChildEvent) α :=
  fun p => ((c.run p.1).1, ((c.run p.1).2, p.2))

/-- A host that does what another does and keeps the history of its children. -/
def Host.recorded {σ : Type} (host : Host σ) : Host (σ × List ChildEvent) where
  openFile path flags permissions := ExceptT.mk (aside (host.openFile path flags permissions).run)
  dup2 fd target := ExceptT.mk (aside (host.dup2 fd target).run)
  close fd := ExceptT.mk (aside (host.close fd).run)
  pipe := ExceptT.mk (aside host.pipe.run)
  fork code := ExceptT.mk fun p =>
    let forked := (host.fork fun s => ((code.run (s, p.2)).1, (code.run (s, p.2)).2.1)).run.run p.1
    (forked.1, (forked.2, p.2 ++ ChildEvent.ofFork forked.1))
  exec argv := ExceptT.mk (aside (host.exec argv).run)
  wait child option := ExceptT.mk fun p =>
    let waited := (host.wait child option).run.run p.1
    (waited.1, (waited.2, p.2 ++ [.waited child waited.1]))
  complain text := aside (host.complain text)
  print text := ExceptT.mk (aside (host.print text).run)
  canonicalize path := ExceptT.mk (aside (host.canonicalize path).run)
  changeDirectory path := ExceptT.mk (aside (host.changeDirectory path).run)
  currentDirectory := ExceptT.mk (aside host.currentDirectory.run)
  environment := aside host.environment
  readLine prompt := aside (host.readLine prompt)
  lineBound := aside host.lineBound

/-- A step of a session. -/
inductive Operation where
  | run (mode : WaitMode) (pipeline : Pipeline)
  | reap

/-- Does the steps in order, each with the stragglers that the one before left. -/
def session {σ : Type} (host : Host σ) (stragglers : Stragglers) : List Operation → StateM σ Stragglers
  | [] => return stragglers
  | .run mode pipeline :: ops => do
    let result ← runPipeline host mode pipeline stragglers
    session host result.stragglers ops
  | .reap :: ops => do
    let kept ← stragglers.reap host
    session host kept ops

/-- What the host answered about children during a session that began without stragglers. -/
def history {σ : Type} (host : Host σ) (ops : List Operation) (s : σ) : List ChildEvent :=
  ((session host.recorded [] ops).run (s, [])).2.2

/-! ## Recording changes nothing -/

/-- Whatever history there is, `c'` does what `c` does. -/
def Mirrors {σ α : Type} (c' : StateM (σ × List ChildEvent) α) (c : StateM σ α) : Prop :=
  ∀ s log, ∃ log', c'.run (s, log) = ((c.run s).1, ((c.run s).2, log'))

namespace Mirrors

variable {σ α β ε : Type} {host : Host σ}

/-- It is to agree in everything but the history. -/
theorem iff_agree {c' : StateM (σ × List ChildEvent) α} {c : StateM σ α} :
    Mirrors c' c ↔ Agree (fun p s => p.1 = s) c' c := by
  constructor
  · rintro h ⟨s, log⟩ t rfl
    obtain ⟨log', hrun⟩ := h s log
    rw [hrun]
    exact ⟨rfl, rfl⟩
  · intro h s log
    obtain ⟨hresult, hstate⟩ := h (s, log) s rfl
    exact ⟨_, Prod.ext hresult (Prod.ext hstate rfl)⟩

theorem pure (a : α) : Mirrors (Pure.pure a : StateM (σ × List ChildEvent) α) (Pure.pure a) := fun _ log => ⟨log, rfl⟩

theorem aside (c : StateM σ α) : Mirrors (aside c) c := fun _ log => ⟨log, rfl⟩

theorem bind {c' : StateM (σ × List ChildEvent) α} {c : StateM σ α} {f' : α → StateM (σ × List ChildEvent) β}
    {f : α → StateM σ β} (hc : Mirrors c' c) (hf : ∀ a, Mirrors (f' a) (f a)) : Mirrors (c' >>= f') (c >>= f) := by
  intro s log
  obtain ⟨log₁, h₁⟩ := hc s log
  obtain ⟨log₂, h₂⟩ := hf (c.run s).1 (c.run s).2 log₁
  refine ⟨log₂, ?_⟩
  show (f' (c'.run (s, log)).1).run (c'.run (s, log)).2 = _
  rw [h₁]
  exact h₂

theorem bindE {x' : ExceptT ε (StateM (σ × List ChildEvent)) α} {x : ExceptT ε (StateM σ) α}
    {f' : α → ExceptT ε (StateM (σ × List ChildEvent)) β} {f : α → ExceptT ε (StateM σ) β} (hx : Mirrors x'.run x.run)
    (hf : ∀ a, Mirrors (f' a).run (f a).run) : Mirrors (x' >>= f').run (x >>= f).run := by
  rw [ExceptT.run_bind, ExceptT.run_bind]
  refine bind hx (fun r => ?_)
  cases r with
  | ok a => exact hf a
  | error e => exact pure _

theorem during (call : String) {c' : Call (σ × List ChildEvent) α} {c : Call σ α} (h : Mirrors c'.run c.run) :
    Mirrors (during call c').run (PipelineShell.during call c).run :=
  bind h fun _ => pure _

theorem whenSome {o : Option α} {f' : α → Setup (σ × List ChildEvent) Unit} {f : α → Setup σ Unit}
    (h : ∀ a, Mirrors (f' a).run (f a).run) : Mirrors (Stage.whenSome o f').run (Stage.whenSome o f).run := by
  cases o with
  | none => exact pure _
  | some a => exact h a

theorem abandon (held : List Fd) : Mirrors (abandon host.recorded held) (PipelineShell.abandon host held) := by
  have hclose (fd : Fd) : Mirrors (host.recorded.close fd).run (host.close fd).run := aside _
  exact iff_agree.mpr (.abandon (fun fd => iff_agree.mp (hclose fd)) held)

theorem holding {c' : Setup (σ × List ChildEvent) Unit} {c : Setup σ Unit} (held : List Fd) (h : Mirrors c'.run c.run) :
    Mirrors (holding host.recorded held c').run (PipelineShell.holding host held c).run := by
  refine bind h fun r => ?_
  cases r with
  | ok _ => exact pure _
  | error failure => exact bind (abandon held) fun _ => pure _

theorem takeEnd (unused taken target : Fd) :
    Mirrors (Stage.takeEnd host.recorded unused taken target).run (Stage.takeEnd host unused taken target).run :=
  bindE (holding _ (during _ (aside _))) fun _ => bindE (holding _ (during _ (aside _))) fun _ => during _ (aside _)

theorem stream (fd : Fd) (path : String) (flags : OpenFlags) (permissions : Nat) :
    Mirrors (Redirect.stream host.recorded fd path flags permissions).run
      (Redirect.stream host fd path flags permissions).run := by
  refine bindE (aside _) fun opened => ?_
  split
  · exact pure _
  · exact bind (aside _) fun _ => bind (aside _) fun _ => pure _

theorem setup (stage : Stage) : Mirrors (stage.setup host.recorded).run (stage.setup host).run := by
  rw [Stage.setup_eq, Stage.setup_eq]
  refine bindE (whenSome fun path => holding _ (during _ (stream _ _ _ _))) fun _ => ?_
  refine bindE (whenSome fun p => holding _ (takeEnd _ _ _)) fun _ => ?_
  refine bindE (whenSome fun target => holding _ (during _ (stream _ _ _ _))) fun _ => ?_
  exact whenSome fun p => takeEnd _ _ _

theorem start (stage : Stage) : Mirrors (stage.start host.recorded) (stage.start host) := by
  unfold Stage.start
  refine bind (bindE (setup stage) fun _ => during _ (aside _)) fun outcome => ?_
  cases outcome with
  | ok _ => exact pure _
  | error failure => exact bind (aside _) fun _ => pure _

/-- The child begins with the same code. -/
theorem fork {code' : StateM (σ × List ChildEvent) Departure} {code : StateM σ Departure} (h : Mirrors code' code) :
    Mirrors (host.recorded.fork code').run (host.fork code).run := by
  intro s log
  have hcode : (fun s => ((code'.run (s, log)).1, (code'.run (s, log)).2.1)) = code := by
    funext t
    obtain ⟨log', ht⟩ := h t log
    rw [ht]
    rfl
  refine ⟨log ++ ChildEvent.ofFork ((host.fork code).run.run s).1, ?_⟩
  show (_, (_, log ++ ChildEvent.ofFork ((host.fork (fun s => _)).run.run s).1)) = _
  rw [hcode]

theorem wait (child : Pid) (option : WaitOption) :
    Mirrors (host.recorded.wait child option).run (host.wait child option).run := fun _ _ => ⟨_, rfl⟩

theorem launchFrom (pipeline : Pipeline) (index : Nat) (inlet : Option StagePipe) (argvs : List (List String)) :
    Mirrors (launchFrom host.recorded pipeline index inlet argvs) (PipelineShell.launchFrom host pipeline index inlet argvs) := by
  have hpipe : Mirrors host.recorded.pipe.run host.pipe.run := aside _
  have hclose (fd : Fd) : Mirrors (host.recorded.close fd).run (host.close fd).run := aside _
  have hfork (stage : Stage) : Mirrors (host.recorded.fork (stage.start host.recorded)).run (host.fork (stage.start host)).run :=
    fork (start stage)
  rw [iff_agree]
  exact .launchFrom (iff_agree.mp hpipe) (fun fd => iff_agree.mp (hclose fd)) (fun stage => iff_agree.mp (hfork stage)) _ _ _ _

theorem collect (mode : WaitMode) (stragglers : Stragglers) (code : ExitCode) (pending : List (Pid × Command)) :
    Mirrors (collect host.recorded mode stragglers code pending) (PipelineShell.collect host mode stragglers code pending) := by
  induction pending generalizing stragglers code with
  | nil => exact pure _
  | cons stage pending ih =>
    unfold PipelineShell.collect
    refine bind (wait _ _) fun answer => ?_
    rcases answer with e | _ | _ | _ | _ | _
    · exact pure _
    · exact ih _ _
    · exact pure _
    · exact pure _
    · exact pure _
    · exact ih _ _

theorem runPipeline (mode : WaitMode) (pipeline : Pipeline) (stragglers : Stragglers) :
    Mirrors (runPipeline host.recorded mode pipeline stragglers) (PipelineShell.runPipeline host mode pipeline stragglers) := by
  unfold PipelineShell.runPipeline
  split
  · exact pure _
  · refine bind (launchFrom _ _ _ _) fun launched => ?_
    split
    · exact pure _
    · exact collect _ _ _ _

theorem reap (stragglers : Stragglers) : Mirrors (stragglers.reap host.recorded) (stragglers.reap host) := by
  induction stragglers with
  | nil => exact pure _
  | cons child rest ih =>
    unfold Stragglers.reap
    refine bind (wait _ _) fun answer => ?_
    split
    · exact bind ih fun _ => pure _
    · exact ih

end Mirrors

/-- A session does the same and leaves the same stragglers, whether its history is kept or not. -/
theorem session_recorded {σ : Type} (host : Host σ) (stragglers : Stragglers) (ops : List Operation) :
    Mirrors (session host.recorded stragglers ops) (session host stragglers ops) := by
  induction ops generalizing stragglers with
  | nil => exact Mirrors.pure _
  | cons op ops ih =>
    cases op with
    | run mode pipeline => exact Mirrors.bind (Mirrors.runPipeline _ _ _) fun _ => ih _
    | reap => exact Mirrors.bind (Mirrors.reap _) fun _ => ih _

/-! ## What a launch adds to the history -/

section

variable {σ : Type} {host : Host σ}

theorem keeps_aside {α : Type} (c : StateM σ α) : Keeps Prod.snd (aside c) := fun _ => rfl

theorem ensures_fork (code : StateM (σ × List ChildEvent) Departure) (log : List ChildEvent) :
    Ensures (fun p => p.2 = log) (host.recorded.fork code).run fun forked p => p.2 = log ++ ChildEvent.ofFork forked := by
  rintro p rfl
  rfl

/-- Whether a launch goes through or stops, it adds the children that it started, in order, and nothing else. One that goes through
started one for each stage. -/
theorem ensures_launchFrom (pipeline : Pipeline) (index : Nat) (inlet : Option StagePipe) (argvs : List (List String))
    (log : List ChildEvent) :
    Ensures (fun p => p.2 = log) (launchFrom host.recorded pipeline index inlet argvs) fun l p =>
      p.2 = log ++ l.children.map .forked ∧ (l.failure = none → l.children.length = argvs.length) := by
  induction argvs generalizing index inlet log with
  | nil => exact .pure fun p hp => ⟨hp.trans (List.append_nil log).symm, fun _ => rfl⟩
  | cons argv rest ih =>
    rw [launchFrom_cons]
    -- between the forks nothing is written down
    have hclose (fd : Fd) : Keeps Prod.snd (host.recorded.close fd).run := keeps_aside _
    refine .bind ((Keeps.openOutlet (keeps_aside _) rest).ensures log) fun opened => ?_
    cases opened with
    | error e =>
      refine .bind ((Keeps.abandon hclose _).ensures log) fun _ => .pure fun p hp => ⟨?_, fun hn => nomatch hn⟩
      exact hp.trans (List.append_nil log).symm
    | ok outlet =>
      refine .bind (ensures_fork _ log) fun forked => ?_
      cases forked with
      | error e =>
        refine .bind ((Keeps.abandon hclose _).ensures _) fun _ => .bind ((Keeps.abandon hclose _).ensures _) fun _ =>
          .pure fun p hp => ⟨hp, fun hn => nomatch hn⟩
      | ok child =>
        refine .bind ((Keeps.closeInlet hclose inlet).ensures _) fun closed => ?_
        cases closed with
        | error e => exact .bind ((Keeps.abandon hclose _).ensures _) fun _ => .pure fun p hp => ⟨hp, fun hn => nomatch hn⟩
        | ok _ =>
          refine .bind (ih (index + 1) outlet _) fun l => .pure fun p hp => ⟨?_, fun hn => congrArg (· + 1) (hp.2 hn)⟩
          rw [hp.1, List.append_assoc]
          rfl

end

/-! ## Going through the stragglers -/

variable {σ : Type}

/-- Looks at children one after another, without waiting for any. -/
def poll (host : Host σ) (children : List Pid) : StateM σ (List (Pid × WaitAnswer)) :=
  children.mapM fun child => (child, ·) <$> (host.wait child .poll).run

/-- The children that are still running. -/
def stillAlive : List (Pid × WaitAnswer) → Stragglers
  | [] => []
  | (child, .ok .stillAlive) :: rest => child :: stillAlive rest
  | _ :: rest => stillAlive rest

/-- One child is looked at, and then the rest. -/
theorem poll_cons (host : Host σ) (child : Pid) (rest : List Pid) (s : σ) :
    (poll host (child :: rest)).run s =
      let waited := (host.wait child .poll).run.run s
      ((child, waited.1) :: ((poll host rest).run waited.2).1, ((poll host rest).run waited.2).2) := by
  rw [poll, List.mapM_cons]
  rfl

/-- What no look at a child changes is the same after any number of them. -/
theorem poll_keeps {host : Host σ} {α : Type} {view : σ → α}
    (hwait : ∀ child u, view ((host.wait child .poll).run.run u).2 = view u) (children : List Pid) (s : σ) :
    view ((poll host children).run s).2 = view s := by
  induction children generalizing s with
  | nil => rfl
  | cons child rest ih =>
    rw [poll_cons]
    exact (ih _).trans (hwait child s)

/-- Every straggler is looked at once, in order, and those still running are kept. -/
theorem Stragglers.reap_eq (host : Host σ) (stragglers : Stragglers) :
    stragglers.reap host = stillAlive <$> poll host stragglers := by
  induction stragglers with
  | nil => simp [reap, poll, stillAlive]
  | cons child rest ih =>
    rw [reap, poll, List.mapM_cons, bind_map_left, map_bind]
    refine congrArg _ (funext fun answer => ?_)
    rw [ih, poll]
    rcases answer with e | _ | _ | _ | _ | _ <;> simp [stillAlive]

end PipelineShell
