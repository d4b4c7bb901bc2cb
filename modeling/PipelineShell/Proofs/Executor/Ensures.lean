import PipelineShell.Executor

/-!
# Statements about what a host is made to do

`Ensures P c Q`: run from a state in which `P` holds, `c` ends with a result and in a state for which `Q` holds. Its rules follow the
way programs are put together, so a statement about a function of the executor is proved along its text.
-/

namespace PipelineShell

variable {σ α β ε : Type}

/-- A program goes on from what the one before it has come to. -/
theorem run_bind_of_run {x : StateM σ α} {s t : σ} {a : α} (h : x.run s = (a, t)) (f : α → StateM σ β) :
    (x >>= f).run s = (f a).run t := by
  rw [StateT.run_bind, h]
  rfl

/-- A program that may stop with an error runs on from a result. -/
theorem run_bind_ok {x : ExceptT ε (StateM σ) α} {s t : σ} {a : α} (h : x.run.run s = (.ok a, t))
    (f : α → ExceptT ε (StateM σ) β) : (x >>= f).run.run s = (f a).run.run t := by
  rw [ExceptT.run_bind, StateT.run_bind, h]
  rfl

/-- At an error it stops. -/
theorem run_bind_error {x : ExceptT ε (StateM σ) α} {s t : σ} {e : ε} (h : x.run.run s = (.error e, t))
    (f : α → ExceptT ε (StateM σ) β) : (x >>= f).run.run s = (.error e, t) := by
  rw [ExceptT.run_bind, StateT.run_bind, h]
  rfl

section

variable {host : Host σ} {held : List Fd} {c : Setup σ Unit} {s t : σ} {f : SetupFailure}

/-- A part of a setup that succeeds keeps what it holds. -/
theorem run_holding_ok (h : c.run.run s = (.ok (), t)) : (holding host held c).run.run s = (.ok (), t) := by
  rw [holding, ExceptT.run_mk, run_bind_of_run h]
  rfl

/-- One that fails gives it up. -/
theorem run_holding_error (h : c.run.run s = (.error f, t)) :
    (holding host held c).run.run s = (.error f, ((abandon host held).run t).2) := by
  rw [holding, ExceptT.run_mk, run_bind_of_run h]
  rfl

end

/-- From every state with `P`, the result and the state that `c` ends with satisfy `Q`. -/
def Ensures (P : σ → Prop) (c : StateM σ α) (Q : α → σ → Prop) : Prop := ∀ s, P s → Q (c.run s).1 (c.run s).2

/-- What holds of a result that may be an error. -/
def Outcome (Q : α → σ → Prop) (E : ε → σ → Prop) : Except ε α → σ → Prop
  | .ok a => Q a
  | .error e => E e

namespace Ensures

variable {P P' : σ → Prop} {Q : α → σ → Prop} {R : β → σ → Prop} {c : StateM σ α}

theorem pure {a : α} (h : ∀ s, P s → Q a s) : Ensures P (Pure.pure a) Q := h

theorem bind {f : α → StateM σ β} (hc : Ensures P c Q) (hf : ∀ a, Ensures (Q a) (f a) R) : Ensures P (c >>= f) R :=
  fun s hs => hf _ _ (hc s hs)

theorem mapM {f : β → StateM σ α} (h : ∀ b, Ensures P (f b) fun _ => P) (bs : List β) : Ensures P (bs.mapM f) fun _ => P := by
  induction bs with
  | nil => exact pure fun _ hs => hs
  | cons b bs ih =>
    rw [List.mapM_cons]
    exact bind (h b) fun _ => bind ih fun _ => pure fun _ hs => hs

theorem strengthen (h : Ensures P c Q) (hP : ∀ s, P' s → P s) : Ensures P' c Q := fun s hs => h s (hP s hs)

end Ensures

namespace Stage

/-- What is done where there is something to do it with. -/
def whenSome (o : Option α) (f : α → Setup σ Unit) : Setup σ Unit :=
  match o with
  | none => Pure.pure ()
  | some a => f a

/-- The setup of a stage is four steps in order, each left out where the stage has nothing for it. -/
theorem setup_eq (host : Host σ) (s : Stage) :
    s.setup host = (do
      whenSome s.input? fun path =>
        holding host (StagePipe.ends s.inlet ++ StagePipe.ends s.outlet) (during "redirect_input" (Redirect.input host path))
      whenSome s.outlet fun p => holding host (StagePipe.ends s.inlet) (takeEnd host p.readEnd p.writeEnd standardOutput)
      whenSome s.output? fun target =>
        holding host (StagePipe.ends s.inlet) (during "redirect_output" (Redirect.output host target.path target.mode))
      whenSome s.inlet fun p => takeEnd host p.writeEnd p.readEnd standardInput) := by
  unfold setup whenSome
  cases s.input? <;> cases s.outlet <;> cases s.output? <;> cases s.inlet <;> simp

/-- A child reports what its setup failed at, or goes on to its program. -/
theorem start_eq (host : Host σ) (s : Stage) :
    s.start host = (do
      match ← (s.setup host).run with
      | .error failure =>
        host.complain failure.message
        return .exited 1
      | .ok () =>
        match ← (host.exec s.argv).run with
        | .error cause =>
          host.complain (SetupFailure.message ⟨"execvp", cause⟩)
          return .exited 1
        | .ok () => return .replaced) := by
  unfold start
  rw [ExceptT.run_bind, bind_assoc]
  congr 1
  funext r
  cases r with
  | error failure => simp
  | ok _ =>
    show ((Except.mapError _ <$> (host.exec s.argv).run) >>= fun outcome => _) = _
    rw [bind_map_left]
    congr 1
    funext r
    cases r <;> rfl

end Stage

/-! ## One stage of a launch -/

/-- The pipe to the next stage, if there is one. -/
def openOutlet (host : Host σ) (rest : List (List String)) : StateM σ (Except Errno (Option StagePipe)) :=
  if rest.isEmpty then pure (.ok none) else do
    let ends ← host.pipe.run
    return ends.map fun ends => some ⟨ends.1, ends.2⟩

/-- The pipe from the stage before is given up once its reader has been started. -/
def closeInlet (host : Host σ) (inlet : Option StagePipe) : StateM σ (Except Errno Unit) :=
  match inlet with
  | none => pure (.ok ())
  | some p => (p.close host).run

/-- A stage is launched by opening its outlet, forking, and closing its inlet. -/
theorem launchFrom_cons (host : Host σ) (pipeline : Pipeline) (index : Nat) (inlet : Option StagePipe) (argv : List String)
    (rest : List (List String)) :
    launchFrom host pipeline index inlet (argv :: rest) = (do
      match ← openOutlet host rest with
      | .error e =>
        abandon host (StagePipe.ends inlet)
        return ⟨[], some (.pipe e)⟩
      | .ok outlet =>
        match ← (host.fork (Stage.start host ⟨pipeline, index, argv, inlet, outlet⟩)).run with
        | .error e =>
          abandon host (StagePipe.ends outlet)
          abandon host (StagePipe.ends inlet)
          return ⟨[], some (.fork e)⟩
        | .ok child =>
          match ← closeInlet host inlet with
          | .error e =>
            abandon host (StagePipe.ends outlet)
            return ⟨[child], some (.close e)⟩
          | .ok () => return (← launchFrom host pipeline (index + 1) outlet rest).cons child) := by
  rw [launchFrom, openOutlet]
  cases rest.isEmpty <;> cases inlet <;> rfl

/-! ## What running a pipeline does not change -/

/-- Whatever `c` does, `view` shows the same as before. -/
def Keeps {ω : Type} (view : σ → ω) (c : StateM σ α) : Prop := ∀ s, view (c.run s).2 = view s

namespace Keeps

variable {ω : Type} {view : σ → ω} {host : Host σ}

theorem pure (a : α) : Keeps view (Pure.pure a : StateM σ α) := fun _ => rfl

theorem bind {c : StateM σ α} {f : α → StateM σ β} (hc : Keeps view c) (hf : ∀ a, Keeps view (f a)) : Keeps view (c >>= f) :=
  fun s => (hf _ _).trans (hc s)

theorem ensures {c : StateM σ α} (h : Keeps view c) (w : ω) : Ensures (fun s => view s = w) c fun _ s => view s = w :=
  fun s hs => (h s).trans hs

section

variable (hclose : ∀ fd, Keeps view (host.close fd).run)

include hclose

theorem closePipe (p : StagePipe) : Keeps view (p.close host).run := bind (hclose _) fun _ => bind (hclose _) fun _ => pure _

theorem abandon (held : List Fd) : Keeps view (abandon host held) := by
  induction held with
  | nil => exact pure _
  | cons fd held ih => exact bind (bind (hclose fd) fun _ => pure _) fun _ => ih

theorem closeInlet (inlet : Option StagePipe) : Keeps view (closeInlet host inlet) := by
  cases inlet with
  | none => exact pure _
  | some p => exact closePipe hclose p

end

theorem openOutlet (hpipe : Keeps view host.pipe.run) (rest : List (List String)) : Keeps view (openOutlet host rest) := by
  unfold PipelineShell.openOutlet
  split
  · exact pure _
  · exact bind hpipe fun _ => pure _

theorem launchFrom (hpipe : Keeps view host.pipe.run) (hclose : ∀ fd, Keeps view (host.close fd).run)
    (hfork : ∀ stage, Keeps view (host.fork (Stage.start host stage)).run) (pipeline : Pipeline) (index : Nat)
    (inlet : Option StagePipe) (argvs : List (List String)) : Keeps view (launchFrom host pipeline index inlet argvs) := by
  induction argvs generalizing index inlet with
  | nil => exact pure _
  | cons argv rest ih =>
    rw [launchFrom_cons]
    refine bind (openOutlet hpipe rest) fun opened => ?_
    cases opened with
    | error e => exact bind (abandon hclose _) fun _ => pure _
    | ok outlet =>
      refine bind (hfork _) fun forked => ?_
      cases forked with
      | error e => exact bind (abandon hclose _) fun _ => bind (abandon hclose _) fun _ => pure _
      | ok child =>
        refine bind (closeInlet hclose inlet) fun closed => ?_
        cases closed with
        | error e => exact bind (abandon hclose _) fun _ => pure _
        | ok _ => exact bind (ih _ _) fun _ => pure _

theorem collect (hwait : ∀ child option, Keeps view (host.wait child option).run) (mode : WaitMode) (stragglers : Stragglers)
    (code : ExitCode) (pending : List (Pid × Command)) : Keeps view (collect host mode stragglers code pending) := by
  induction pending generalizing stragglers code with
  | nil => exact pure _
  | cons stage pending ih =>
    unfold PipelineShell.collect
    refine bind (hwait _ _) fun answer => ?_
    rcases answer with e | _ | _ | _ | _ | _
    · exact pure _
    · exact ih _ _
    · exact pure _
    · exact pure _
    · exact pure _
    · exact ih _ _

/-- Running a pipeline changes nothing that pipes, forks, closes and waits do not change. -/
theorem runPipeline (hpipe : Keeps view host.pipe.run) (hclose : ∀ fd, Keeps view (host.close fd).run)
    (hfork : ∀ stage, Keeps view (host.fork (Stage.start host stage)).run)
    (hwait : ∀ child option, Keeps view (host.wait child option).run) (mode : WaitMode) (pipeline : Pipeline)
    (stragglers : Stragglers) : Keeps view (runPipeline host mode pipeline stragglers) := by
  unfold PipelineShell.runPipeline
  split
  · exact pure _
  · refine bind (launchFrom hpipe hclose hfork _ _ _ _) fun launched => ?_
    split
    · exact pure _
    · exact collect hwait _ _ _ _

end Keeps

/-! ## Two hosts side by side -/

/-- Run from related states, the two come to the same result, in related states. -/
def Agree {τ : Type} (R : σ → τ → Prop) (c : StateM σ α) (d : StateM τ α) : Prop :=
  ∀ s t, R s t → (c.run s).1 = (d.run t).1 ∧ R (c.run s).2 (d.run t).2

namespace Agree

variable {τ : Type} {R : σ → τ → Prop} {host : Host σ} {other : Host τ}

theorem pure (a : α) : Agree R (Pure.pure a) (Pure.pure a) := fun _ _ h => ⟨rfl, h⟩

theorem bind {c : StateM σ α} {d : StateM τ α} {f : α → StateM σ β} {g : α → StateM τ β} (hc : Agree R c d)
    (hf : ∀ a, Agree R (f a) (g a)) : Agree R (c >>= f) (d >>= g) := by
  intro s t hst
  obtain ⟨hresult, hend⟩ := hc s t hst
  rcases hs : c.run s with ⟨a, u⟩
  rcases ht : d.run t with ⟨b, v⟩
  rw [hs, ht] at hresult hend
  obtain rfl : a = b := hresult
  rw [run_bind_of_run hs, run_bind_of_run ht]
  exact hf a u v hend

section

variable (hclose : ∀ fd, Agree R (host.close fd).run (other.close fd).run)

include hclose

theorem closePipe (p : StagePipe) : Agree R (p.close host).run (p.close other).run :=
  bind (hclose _) fun _ => bind (hclose _) fun _ => pure _

theorem abandon (held : List Fd) : Agree R (abandon host held) (PipelineShell.abandon other held) := by
  induction held with
  | nil => exact pure _
  | cons fd held ih => exact bind (bind (hclose fd) fun _ => pure _) fun _ => ih

theorem closeInlet (inlet : Option StagePipe) : Agree R (closeInlet host inlet) (PipelineShell.closeInlet other inlet) := by
  cases inlet with
  | none => exact pure _
  | some p => exact closePipe hclose p

end

theorem openOutlet (hpipe : Agree R host.pipe.run other.pipe.run) (rest : List (List String)) :
    Agree R (openOutlet host rest) (PipelineShell.openOutlet other rest) := by
  unfold PipelineShell.openOutlet
  split
  · exact pure _
  · exact bind hpipe fun _ => pure _

/-- Launches agree where the calls that they consist of do. -/
theorem launchFrom (hpipe : Agree R host.pipe.run other.pipe.run) (hclose : ∀ fd, Agree R (host.close fd).run (other.close fd).run)
    (hfork : ∀ stage, Agree R (host.fork (Stage.start host stage)).run (other.fork (Stage.start other stage)).run)
    (pipeline : Pipeline) (index : Nat) (inlet : Option StagePipe) (argvs : List (List String)) :
    Agree R (launchFrom host pipeline index inlet argvs) (PipelineShell.launchFrom other pipeline index inlet argvs) := by
  induction argvs generalizing index inlet with
  | nil => exact pure _
  | cons argv rest ih =>
    rw [launchFrom_cons, launchFrom_cons]
    refine bind (openOutlet hpipe rest) fun opened => ?_
    cases opened with
    | error e => exact bind (abandon hclose _) fun _ => pure _
    | ok outlet =>
      refine bind (hfork _) fun forked => ?_
      cases forked with
      | error e => exact bind (abandon hclose _) fun _ => bind (abandon hclose _) fun _ => pure _
      | ok child =>
        refine bind (closeInlet hclose inlet) fun closed => ?_
        cases closed with
        | error e => exact bind (abandon hclose _) fun _ => pure _
        | ok _ => exact bind (ih _ _) fun _ => pure _

end Agree

end PipelineShell
