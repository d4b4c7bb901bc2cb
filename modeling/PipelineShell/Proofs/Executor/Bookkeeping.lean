import PipelineShell.Proofs.Executor.Stragglers

/-!
# The stragglers as the books of a session

Process numbers are given out again once a child has been collected, so a number kept too long, or kept twice, would make the shell
wait for a child that is not its own. `session_bookkeeping` says that this does not happen. Through any sequence of runs and reaps,
whatever forks and waits answer, each straggler is a child still to be collected and is listed once; a wait is called on no other
child; and a reap looks at each straggler once and keeps those still alive, in their order.
-/

namespace PipelineShell

/-- Every wait of a history is on a child that was running when it was called. -/
def WaitsOnRunning (log : List ChildEvent) : Prop :=
  ∀ pre child answer post, log = pre ++ .waited child answer :: post → Running pre child

/-- The children held are accounted for, and no wait has been called on a child that was not running. -/
structure Audited (log : List ChildEvent) (held : List Pid) : Prop extends Accounts log held where
  waits : WaitsOnRunning log

section

variable {log : List ChildEvent} {held xs ys : List Pid} {child : Pid}

theorem WaitsOnRunning.fork (h : WaitsOnRunning log) : WaitsOnRunning (log ++ [.forked child]) := by
  intro pre other answer post hlog
  obtain ⟨-, hlast⟩ | ⟨post, hlog⟩ := eq_or_exists_of_concat hlog
  · nomatch hlast
  · exact h pre other answer post hlog

theorem WaitsOnRunning.wait (h : WaitsOnRunning log) (hchild : Running log child) (a : WaitAnswer) :
    WaitsOnRunning (log ++ [.waited child a]) := by
  intro pre other answer post hlog
  obtain ⟨rfl, hlast⟩ | ⟨post, hlog⟩ := eq_or_exists_of_concat hlog
  · cases hlast
    exact hchild
  · exact h pre other answer post hlog

namespace Audited

theorem nil : Audited [] [] where
  toAccounts := .nil
  waits _ _ _ _ h := by simp at h

theorem running_middle (h : Audited log (xs ++ child :: ys)) : Running log child :=
  (h.mem_iff child).mp (List.mem_append_right xs List.mem_cons_self)

/-- The executor waits only on children it holds, so the books stay in order. -/
theorem ledger : Ledger Audited where
  fork h hchild := ⟨h.toAccounts.fork hchild, h.waits.fork⟩
  keep h := ⟨h.toAccounts.keep, h.waits.wait h.running_middle _⟩
  drop h ha := ⟨h.toAccounts.drop ha, h.waits.wait h.running_middle _⟩

end Audited

end

variable {σ : Type}

/-! ## What a reap adds to a session -/

/-- With its history kept, a session does the same and the history is kept beside. -/
theorem session_recorded_run (host : Host σ) (ops : List Operation) (s : σ) :
    (session host.recorded [] ops).run (s, []) =
      (((session host [] ops).run s).1, (((session host [] ops).run s).2, history host ops s)) := by
  obtain ⟨log, hrun⟩ := session_recorded host [] ops s []
  rw [history, hrun]

theorem session_append (host : Host σ) (stragglers : Stragglers) (ops more : List Operation) :
    session host stragglers (ops ++ more) = session host stragglers ops >>= fun held => session host held more := by
  induction ops generalizing stragglers with
  | nil => rfl
  | cons op ops ih =>
    cases op with
    | run mode pipeline => exact bind_congr fun r => ih _
    | reap => exact bind_congr fun r => ih _

/-- What looking at a child adds to the history. -/
def ChildEvent.ofLook (look : Pid × WaitAnswer) : ChildEvent := .waited look.1 look.2

theorem poll_children (host : Host σ) (children : List Pid) (s : σ) :
    ((poll host children).run s).1.map Prod.fst = children := by
  induction children generalizing s with
  | nil => rfl
  | cons child rest ih =>
    rw [poll_cons]
    exact congrArg (child :: ·) (ih _)

/-- Nothing goes into the history but the looks, in order. -/
theorem poll_recorded (host : Host σ) (children : List Pid) (s : σ) (log : List ChildEvent) :
    (poll host.recorded children).run (s, log) =
      let looks := (poll host children).run s
      (looks.1, (looks.2, log ++ looks.1.map .ofLook)) := by
  induction children generalizing s log with
  | nil =>
    show ([], (s, log)) = ([], (s, log ++ []))
    rw [List.append_nil]
  | cons child rest ih =>
    have hwait : (host.recorded.wait child .poll).run.run (s, log) =
        let waited := (host.wait child .poll).run.run s
        (waited.1, (waited.2, log ++ [.waited child waited.1])) := rfl
    rw [poll_cons, poll_cons, hwait]
    dsimp only
    rw [ih]
    simp [ChildEvent.ofLook]

/-- A reap at the end of a session looks at each straggler once, in order, and keeps those that are still alive. -/
theorem session_reap (host : Host σ) (ops : List Operation) (s : σ) :
    ∃ looks, looks.map Prod.fst = ((session host [] ops).run s).1 ∧
      history host (ops ++ [.reap]) s = history host ops s ++ looks.map .ofLook ∧
      ((session host [] (ops ++ [.reap])).run s).1 = stillAlive looks := by
  refine ⟨((poll host ((session host [] ops).run s).1).run ((session host [] ops).run s).2).1, poll_children _ _ _, ?_, ?_⟩
  · rw [history, session_append, StateT.run_bind, session_recorded_run]
    show ((Stragglers.reap host.recorded _ >>= fun kept => session host.recorded kept []).run _).2.2 = _
    rw [Stragglers.reap_eq]
    show ((poll host.recorded _).run _).2.2 = _
    rw [poll_recorded]
  · rw [session_append]
    show ((Stragglers.reap host _).run _).1 = _
    rw [Stragglers.reap_eq]
    rfl

/-! ## A whole session -/

/-- The books of a session that began without stragglers are in order at its end. -/
theorem audited_session (host : Host σ) (ops : List Operation) (s : σ) (hfresh : Fresh (history host ops s)) :
    Audited (history host ops s) ((session host [] ops).run s).1 := by
  have hsession : Ensures (Holds Audited []) (session host.recorded [] ops) fun r => Holds Audited r :=
    Audited.ledger.ensures_session [] ops
  have haudited := hsession (s, []) fun _ => Audited.nil
  rw [session_recorded_run] at haudited
  exact haudited hfresh

/-- As long as no child gets the number of one that is still to be collected, the stragglers that a session leaves are all
different, and each is a child still to be collected; no wait of the session was on a child that had been collected; and a reap
now would look at each straggler once, in order, and keep those of which it is told that they are still alive. -/
theorem session_bookkeeping (host : Host σ) (ops : List Operation) (s : σ) (hfresh : Fresh (history host ops s)) :
    ((session host [] ops).run s).1.Nodup ∧
    (∀ child ∈ ((session host [] ops).run s).1, Uncollected (history host ops s) child) ∧
    (∀ pre child answer post, history host ops s = pre ++ .waited child answer :: post → Uncollected pre child) ∧
    ∃ looks, looks.map Prod.fst = ((session host [] ops).run s).1 ∧
      history host (ops ++ [.reap]) s = history host ops s ++ looks.map .ofLook ∧
      ((session host [] (ops ++ [.reap])).run s).1 = stillAlive looks := by
  have haudited := audited_session host ops s hfresh
  refine ⟨haudited.nodup, fun child hchild => ((haudited.mem_iff child).mp hchild).uncollected, ?_, session_reap host ops s⟩
  intro pre child answer post hlog
  exact (haudited.waits pre child answer post hlog).uncollected

/-- A host that numbers its children 0 and 1 in turn. -/
def recyclingHost : Host (Pid × List WaitAnswer) :=
  { answeringHost with fork := fun _ => ExceptT.mk fun s => (.ok (s.1 % 2), (s.1 + 1, s.2)) }

/-- Two stages of which the first has ended when it is looked at, and a stage that gets its number. -/
def recyclingSession : List Operation :=
  [.run .poll ⟨[⟨"a", []⟩, ⟨"b", []⟩], none, none⟩, .run .poll ⟨[⟨"c", []⟩], none, none⟩]

/-- What the waits of that session and of a reap after it answer. -/
def recyclingAnswers : List WaitAnswer :=
  [.ok (.exited 0), .ok .stillAlive, .ok .stillAlive, .ok (.exited 0), .ok .stillAlive]

/-- Child 0 is collected before its number is given out again. -/
def recyclingLog : List ChildEvent :=
  [.forked 0, .forked 1, .waited 0 (.ok (.exited 0)), .waited 1 (.ok .stillAlive), .forked 0]

theorem history_recyclingSession :
    history recyclingHost recyclingSession (0, recyclingAnswers) = recyclingLog ++ [.waited 0 (.ok .stillAlive)] := by
  rfl

theorem stragglers_recyclingSession : ((session recyclingHost [] recyclingSession).run (0, recyclingAnswers)).1 = [1, 0] := by
  rfl

theorem fresh_recyclingSession : Fresh (history recyclingHost recyclingSession (0, recyclingAnswers)) := by
  rw [history_recyclingSession]
  have hfirst : Fresh [.forked 0] := Fresh.nil.fork fun ⟨_, has, _⟩ => nomatch has
  have hsecond : Fresh [.forked 0, .forked 1] := hfirst.fork fun ⟨_, has, _⟩ => nomatch has
  have hcollected : Fresh [.forked 0, .forked 1, .waited 0 (.ok (.exited 0))] := hsecond.wait _
  have hwaits : Fresh [.forked 0, .forked 1, .waited 0 (.ok (.exited 0)), .waited 1 (.ok .stillAlive)] := hcollected.wait _
  have hagain : Fresh recyclingLog := hwaits.fork fun ⟨as, has, hall⟩ => by
    obtain rfl : [.ok (.exited 0)] = as := Option.some.inj has
    exact absurd (hall _ (List.mem_singleton_self _)) (by decide)
  exact hagain.wait _

/-- The two children left are listed in the order in which they were looked at, the one with the number of a child collected before
last; a reap collects the first of them. -/
theorem session_bookkeeping_recycled :
    ((session recyclingHost [] recyclingSession).run (0, recyclingAnswers)).1 = [1, 0] ∧ [1, 0].Nodup ∧
      Uncollected (recyclingLog ++ [.waited 0 (.ok .stillAlive)]) 0 ∧ Uncollected recyclingLog 0 ∧
      ∃ looks, looks.map Prod.fst = [1, 0] ∧ stillAlive looks = [0] := by
  have hkept : ((session recyclingHost [] (recyclingSession ++ [.reap])).run (0, recyclingAnswers)).1 = [0] := by rfl
  obtain ⟨hnodup, hheld, hwaits, looks, hlooks, -, hreaped⟩ :=
    session_bookkeeping recyclingHost recyclingSession (0, recyclingAnswers) fresh_recyclingSession
  rw [stragglers_recyclingSession] at hnodup hheld hlooks ⊢
  rw [history_recyclingSession] at hheld hwaits
  exact ⟨rfl, hnodup, hheld 0 (by decide), hwaits recyclingLog 0 _ [] rfl, looks, hlooks, hreaped.symm.trans hkept⟩

end PipelineShell
