import PipelineShell.Proofs.Executor.History

/-!
# Which children are still held at the end of a session

A child is to be collected from its fork to the first wait that says it has ended. `mem_session_iff` says which of these children
the stragglers hold: those of which every wait said that they are still alive. A child that a wait reports in any other way without
collecting it, as one that has been stopped, is held no longer, though nothing has collected it (`stopped_child_is_not_held`).
-/

namespace PipelineShell

/-- The child has ended and the wait has collected it. A wait that cannot name the signal a child died of collects it too. -/
def collects : WaitAnswer → Bool
  | .ok (.exited _) | .ok (.killed _ _) | .error .invalid => true
  | _ => false

/-- What waits on a child have answered since it was forked, oldest first; none if there is no such child. -/
def answersAfter (child : Pid) (answers : Option (List WaitAnswer)) : ChildEvent → Option (List WaitAnswer)
  | .forked other => if other = child then some [] else answers
  | .waited other answer => if other = child then answers.map (· ++ [answer]) else answers

/-- What waits on a child have answered in a history since it was forked last. -/
def answers (child : Pid) (log : List ChildEvent) : Option (List WaitAnswer) := log.foldl (answersAfter child) none

/-- A child has been forked, and no wait has collected it. -/
def Uncollected (log : List ChildEvent) (child : Pid) : Prop :=
  ∃ as, answers child log = some as ∧ ∀ a ∈ as, collects a = false

/-- A child has been forked, and every wait on it has said that it is still alive. -/
def Running (log : List ChildEvent) (child : Pid) : Prop :=
  ∃ as, answers child log = some as ∧ ∀ a ∈ as, a = .ok .stillAlive

/-- No child gets the number of one that is still to be collected. This is what the system promises of process numbers. -/
def Fresh (log : List ChildEvent) : Prop := ∀ pre child post, log = pre ++ .forked child :: post → ¬ Uncollected pre child

section

variable {log : List ChildEvent} {child other : Pid}

@[simp] theorem answers_concat (child : Pid) (log : List ChildEvent) (e : ChildEvent) :
    answers child (log ++ [e]) = answersAfter child (answers child log) e := by
  rw [answers, List.foldl_append]
  rfl

theorem Running.uncollected (h : Running log child) : Uncollected log child := by
  obtain ⟨as, has, hall⟩ := h
  refine ⟨as, has, fun a ha => ?_⟩
  rw [hall a ha]
  rfl

theorem Fresh.of_append {more : List ChildEvent} (h : Fresh (log ++ more)) : Fresh log := by
  intro pre child post hlog
  refine h pre child (post ++ more) ?_
  rw [hlog, List.append_assoc]
  rfl

theorem Fresh.not_uncollected (h : Fresh (log ++ [.forked child])) : ¬ Uncollected log child := h log child [] rfl

theorem Fresh.nil : Fresh [] := fun _ _ _ h => by simp at h

/-- A place in a history that has grown by an event is that of the event or one before it. -/
theorem eq_or_exists_of_concat {pre post : List ChildEvent} {e e' : ChildEvent} (h : log ++ [e] = pre ++ e' :: post) :
    (log = pre ∧ e = e') ∨ ∃ post', log = pre ++ e' :: post' := by
  rcases List.eq_nil_or_concat post with rfl | ⟨post, last, rfl⟩
  · obtain ⟨hlog, he⟩ := List.append_inj' h rfl
    exact .inl ⟨hlog, List.singleton_inj.mp he⟩
  · rw [List.concat_eq_append, ← List.cons_append, ← List.append_assoc] at h
    exact .inr ⟨post, (List.append_inj' h rfl).1⟩

theorem Fresh.fork (h : Fresh log) (hchild : ¬ Uncollected log child) : Fresh (log ++ [.forked child]) := by
  intro pre other post hlog
  obtain ⟨rfl, hlast⟩ | ⟨post, hlog⟩ := eq_or_exists_of_concat hlog
  · cases hlast
    exact hchild
  · exact h pre other post hlog

theorem Fresh.wait (h : Fresh log) (a : WaitAnswer) : Fresh (log ++ [.waited child a]) := by
  intro pre other post hlog
  obtain ⟨-, hlast⟩ | ⟨post, hlog⟩ := eq_or_exists_of_concat hlog
  · nomatch hlast
  · exact h pre other post hlog

/-! A history changes what is known of one child at a time. -/

theorem running_forked_self : Running (log ++ [.forked child]) child :=
  ⟨[], by simp [answersAfter], fun _ ha => nomatch ha⟩

theorem running_forked_of_ne (h : other ≠ child) : Running (log ++ [.forked other]) child ↔ Running log child := by
  simp [Running, answersAfter, h]

theorem running_waited_of_ne (h : other ≠ child) (a : WaitAnswer) :
    Running (log ++ [.waited other a]) child ↔ Running log child := by
  simp [Running, answersAfter, h]

theorem running_waited_self (a : WaitAnswer) :
    Running (log ++ [.waited child a]) child ↔ Running log child ∧ a = .ok .stillAlive := by
  unfold Running
  rw [answers_concat, answersAfter, if_pos rfl]
  constructor
  · rintro ⟨as, has, hall⟩
    obtain ⟨bs, hbs, rfl⟩ := Option.map_eq_some_iff.mp has
    exact ⟨⟨bs, hbs, fun b hb => hall b (List.mem_append_left _ hb)⟩,
      hall a (List.mem_append_right _ (List.mem_singleton_self a))⟩
  · rintro ⟨⟨bs, hbs, hall⟩, rfl⟩
    refine ⟨bs ++ [.ok .stillAlive], by rw [hbs]; rfl, fun b hb => ?_⟩
    rcases List.mem_append.mp hb with hb | hb
    · exact hall b hb
    · exact List.mem_singleton.mp hb

end

/-! ## The children held are those running -/

/-- The children held are those of which every wait said that they are still alive, each held once. -/
structure Accounts (log : List ChildEvent) (held : List Pid) : Prop where
  nodup : held.Nodup
  mem_iff : ∀ child, child ∈ held ↔ Running log child

namespace Accounts

variable {log : List ChildEvent} {held xs ys : List Pid} {child : Pid}

theorem nil : Accounts [] [] where
  nodup := List.nodup_nil
  mem_iff _ := ⟨fun h => (nomatch h), fun ⟨_, h, _⟩ => (nomatch h)⟩

/-- A new child is held. -/
theorem fork (h : Accounts log held) (hchild : ¬ Uncollected log child) :
    Accounts (log ++ [.forked child]) (held ++ [child]) where
  nodup := by
    refine List.nodup_append.mpr ⟨h.nodup, by simp, fun a ha b hb hab => ?_⟩
    rw [hab, List.mem_singleton.mp hb] at ha
    exact hchild ((h.mem_iff child).mp ha).uncollected
  mem_iff other := by
    rw [List.mem_append, List.mem_singleton, h.mem_iff]
    by_cases hother : other = child
    · subst hother
      exact ⟨fun _ => running_forked_self, fun _ => .inr rfl⟩
    · rw [running_forked_of_ne (Ne.symm hother)]
      exact ⟨fun hm => hm.resolve_right hother, .inl⟩

/-- A child that is still alive stays held. -/
theorem keep (h : Accounts log held) : Accounts (log ++ [.waited child (.ok .stillAlive)]) held where
  nodup := h.nodup
  mem_iff other := by
    rw [h.mem_iff]
    by_cases hother : child = other
    · subst hother
      rw [running_waited_self]
      exact ⟨fun hr => ⟨hr, rfl⟩, And.left⟩
    · rw [running_waited_of_ne hother]

/-- A child of which a wait says anything else is held no longer. -/
theorem drop {a : WaitAnswer} (h : Accounts log (xs ++ child :: ys)) (ha : a ≠ .ok .stillAlive) :
    Accounts (log ++ [.waited child a]) (xs ++ ys) where
  nodup := h.nodup.sublist (List.Sublist.append (List.Sublist.refl xs) (List.sublist_cons_self child ys))
  mem_iff other := by
    have hnodup : (child :: (xs ++ ys)).Nodup := List.perm_middle.nodup_iff.mp h.nodup
    by_cases hother : child = other
    · subst hother
      rw [running_waited_self]
      exact ⟨fun hm => absurd hm (List.nodup_cons.mp hnodup).1, fun hr => absurd hr.2 ha⟩
    · rw [running_waited_of_ne hother, ← h.mem_iff, List.perm_middle.mem_iff, List.mem_cons]
      exact ⟨.inr, fun hm => hm.resolve_left (Ne.symm hother)⟩

end Accounts

/-! ## Through the executor

What the executor does with a child is one of three things: it holds a new one, it keeps one that a wait says is still alive, and it
drops one of which a wait says anything else. Whatever these three leave true is true at the end of a session. -/

variable {σ : Type} {host : Host σ} {held xs ys : List Pid}

/-- What can be said of a history and of the children held, and stays true when a child is held, kept or dropped. -/
structure Ledger (P : List ChildEvent → List Pid → Prop) : Prop where
  fork {log held child} : P log held → ¬ Uncollected log child → P (log ++ [.forked child]) (held ++ [child])
  keep {log xs ys child} : P log (xs ++ child :: ys) → P (log ++ [.waited child (.ok .stillAlive)]) (xs ++ child :: ys)
  drop {log xs ys child a} : P log (xs ++ child :: ys) → a ≠ .ok .stillAlive → P (log ++ [.waited child a]) (xs ++ ys)

theorem Accounts.ledger : Ledger Accounts := ⟨fork, keep, drop⟩

/-- It is true of a history and of the children held, as long as no process number has been given out too early. -/
def Holds (P : List ChildEvent → List Pid → Prop) (held : List Pid) (p : σ × List ChildEvent) : Prop := Fresh p.2 → P p.2 held

/-- The children held are accounted for, as long as no process number has been given out too early. -/
def Accounted (held : List Pid) (p : σ × List ChildEvent) : Prop := Fresh p.2 → Accounts p.2 held

/-- A child stays held after a wait that says it is still alive. -/
def keptAfter (child : Pid) : WaitAnswer → List Pid
  | .ok .stillAlive => [child]
  | _ => []

theorem keptAfter_of_ne {child : Pid} {a : WaitAnswer} (h : a ≠ .ok .stillAlive) : keptAfter child a = [] := by
  unfold keptAfter
  split
  · exact absurd rfl h
  · rfl

section

variable {P : List ChildEvent → List Pid → Prop}

namespace Ledger

/-- New children are held, in the order in which they were forked. -/
theorem forks (hP : Ledger P) {log : List ChildEvent} (children : List Pid) (h : Fresh log → P log held)
    (hfresh : Fresh (log ++ children.map .forked)) : P (log ++ children.map .forked) (held ++ children) := by
  induction children generalizing log held with
  | nil =>
    rw [List.map_nil, List.append_nil] at hfresh ⊢
    rw [List.append_nil]
    exact h hfresh
  | cons child children ih =>
    rw [List.map_cons, List.append_cons] at hfresh ⊢
    rw [List.append_cons held]
    exact ih (fun hforked => hP.fork (h hforked.of_append) hforked.not_uncollected) hfresh

theorem ensures_wait (hP : Ledger P) (child : Pid) (option : WaitOption) (xs ys : List Pid) :
    Ensures (Holds P (xs ++ child :: ys)) (host.recorded.wait child option).run
      fun a => Holds P (xs ++ keptAfter child a ++ ys) := by
  intro p h
  have hrun : (host.recorded.wait child option).run.run p =
      let waited := (host.wait child option).run.run p.1
      (waited.1, (waited.2, p.2 ++ [.waited child waited.1])) := rfl
  rw [hrun]
  generalize (host.wait child option).run.run p.1 = waited
  obtain ⟨a, s⟩ := waited
  intro hfresh
  have hbefore := h hfresh.of_append
  by_cases ha : a = .ok .stillAlive
  · subst ha
    rw [List.append_assoc]
    exact hP.keep hbefore
  · rw [keptAfter_of_ne ha, List.append_nil]
    exact hP.drop hbefore ha

/-- Whether a launch goes through or stops, the children it started are held. One that goes through started one for each stage. -/
theorem ensures_launchFrom (hP : Ledger P) (pipeline : Pipeline) (index : Nat) (inlet : Option StagePipe)
    (argvs : List (List String)) (held : List Pid) :
    Ensures (Holds P held) (launchFrom host.recorded pipeline index inlet argvs) fun l p =>
      Holds P (held ++ l.children) p ∧ (l.failure = none → l.children.length = argvs.length) := by
  intro p h
  obtain ⟨hlog, hlength⟩ := PipelineShell.ensures_launchFrom pipeline index inlet argvs p.2 p rfl
  refine ⟨fun hfresh => ?_, hlength⟩
  rw [hlog] at hfresh ⊢
  exact hP.forks _ h hfresh

/-- Waiting for the stages of a pipeline hands on every child that it was not told to have ended or stopped. -/
theorem ensures_collect (hP : Ledger P) (mode : WaitMode) (stragglers : Stragglers) (code : ExitCode)
    (pending : List (Pid × Command)) :
    Ensures (Holds P (stragglers ++ pending.map Prod.fst)) (collect host.recorded mode stragglers code pending)
      fun r => Holds P r.stragglers := by
  induction pending generalizing stragglers code with
  | nil =>
    refine .pure fun p h => ?_
    rwa [List.map_nil, List.append_nil] at h
  | cons stage pending ih =>
    obtain ⟨child, command⟩ := stage
    unfold collect
    refine .bind (hP.ensures_wait child mode.option stragglers (pending.map Prod.fst)) fun answer => ?_
    rcases answer with e | code | _ | _ | _ | _
    · exact .pure fun p h => by simpa only [keptAfter, List.append_nil] using h
    · exact (ih stragglers code).strengthen fun p h => by simpa only [keptAfter, List.append_nil] using h
    · exact .pure fun p h => by simpa only [keptAfter, List.append_nil] using h
    · exact .pure fun p h => by simpa only [keptAfter, List.append_nil] using h
    · exact .pure fun p h => by simpa only [keptAfter, List.append_nil] using h
    · exact ih (stragglers ++ [child]) 0

theorem ensures_runPipeline (hP : Ledger P) (mode : WaitMode) (pipeline : Pipeline) (stragglers : Stragglers) :
    Ensures (Holds P stragglers) (runPipeline host.recorded mode pipeline stragglers) fun r => Holds P r.stragglers := by
  unfold runPipeline
  split
  · exact .pure fun _ h => h
  · refine .bind (hP.ensures_launchFrom pipeline 0 none _ stragglers) fun launched => ?_
    split
    · exact .pure fun _ h => h.1
    · rename_i hfailure
      refine (hP.ensures_collect mode stragglers 0 _).strengthen fun p h => ?_
      have hlen := h.2 hfailure
      rw [List.length_map] at hlen
      rw [List.map_fst_zip (Nat.le_of_eq hlen)]
      exact h.1

/-- Going through the stragglers keeps those that are still alive. -/
theorem ensures_reap (hP : Ledger P) (kept rest : Stragglers) :
    Ensures (Holds P (kept ++ rest)) (rest.reap host.recorded) fun r => Holds P (kept ++ r) := by
  induction rest generalizing kept with
  | nil => exact .pure fun _ h => h
  | cons child rest ih =>
    unfold Stragglers.reap
    refine .bind (hP.ensures_wait child .poll kept rest) fun answer => ?_
    split
    · refine .bind (ih (kept ++ [child])) fun r => .pure fun p h => ?_
      rwa [List.append_assoc] at h
    · rename_i ha
      refine (ih kept).strengthen fun p h => ?_
      rwa [keptAfter_of_ne ha, List.append_nil] at h

/-- At the end of a session it is true of the stragglers. -/
theorem ensures_session (hP : Ledger P) (stragglers : Stragglers) (ops : List Operation) :
    Ensures (Holds P stragglers) (session host.recorded stragglers ops) fun r => Holds P r := by
  induction ops generalizing stragglers with
  | nil => exact .pure fun _ h => h
  | cons op ops ih =>
    cases op with
    | run mode pipeline => exact .bind (hP.ensures_runPipeline mode pipeline stragglers) fun r => ih r.stragglers
    | reap => exact .bind (hP.ensures_reap [] stragglers) fun r => ih r

end Ledger

end

/-- Through a whole session the stragglers are the children accounted for. -/
theorem ensures_session (stragglers : Stragglers) (ops : List Operation) :
    Ensures (Accounted stragglers) (session host.recorded stragglers ops) fun r => Accounted r :=
  Accounts.ledger.ensures_session stragglers ops

/-- At the end of a session that began without stragglers, a child that is still to be collected is one of the stragglers if and
only if every wait on it has said that it is still alive. -/
theorem mem_session_iff (host : Host σ) (ops : List Operation) (s : σ) (hfresh : Fresh (history host ops s)) {child : Pid}
    (hchild : Uncollected (history host ops s) child) :
    child ∈ ((session host [] ops).run s).1 ↔
      ∀ as, answers child (history host ops s) = some as → ∀ a ∈ as, a = .ok .stillAlive := by
  have hsession : Ensures (Accounted []) (session host.recorded [] ops) fun r => Accounted r := ensures_session [] ops
  have haccounts := hsession (s, []) (fun _ => Accounts.nil) hfresh
  obtain ⟨log, hrun⟩ := session_recorded host [] ops s []
  rw [hrun] at haccounts
  rw [haccounts.mem_iff]
  obtain ⟨as, has, -⟩ := hchild
  have hhistory : history host ops s = log := by rw [history, hrun]
  rw [hhistory] at has ⊢
  constructor
  · rintro ⟨bs, hbs, hall⟩ cs hcs
    rw [Option.some.inj (hcs.symm.trans hbs)]
    exact hall
  · exact fun h => ⟨as, has, h as has⟩

/-- A host on which every call succeeds. Children are numbered from the first part of the state on, and waits answer what the second
part lists, and then that the child is still alive. -/
def answeringHost : Host (Pid × List WaitAnswer) where
  openFile _ _ _ := return 3
  dup2 _ _ := return ()
  close _ := return ()
  pipe := return (3, 4)
  fork _ := ExceptT.mk fun s => (.ok s.1, (s.1 + 1, s.2))
  exec _ := return ()
  wait _ _ := ExceptT.mk fun s => (s.2.headD (.ok .stillAlive), (s.1, s.2.tail))
  complain _ := return ()
  print _ := return ()
  canonicalize path := return path
  changeDirectory _ := return ()
  currentDirectory := return "/"
  environment := return []
  readLine _ := return .ok none
  lineBound := return 0

/-- Two stages of which the first is reported as stopped. -/
def stoppedSession : List Operation := [.run .block ⟨[⟨"a", []⟩, ⟨"b", []⟩], none, none⟩]

/-- The answer to a wait on a child that has been stopped. -/
def stoppedAnswer : WaitAnswer := .ok (.stopped ⟨19⟩)

theorem history_stoppedSession : history answeringHost stoppedSession (1, [stoppedAnswer]) =
    [.forked 1, .forked 2, .waited 1 stoppedAnswer] := by rfl

theorem fresh_stoppedSession : Fresh (history answeringHost stoppedSession (1, [stoppedAnswer])) := by
  rw [history_stoppedSession]
  have hfirst : Fresh [.forked 1] := Fresh.nil.fork fun ⟨_, has, _⟩ => nomatch has
  have hsecond : Fresh [.forked 1, .forked 2] := hfirst.fork fun ⟨_, has, _⟩ => nomatch has
  exact hsecond.wait stoppedAnswer

/-- The stage after the one that was stopped is still held. -/
theorem two_mem_stoppedSession : 2 ∈ ((session answeringHost [] stoppedSession).run (1, [stoppedAnswer])).1 := by
  refine (mem_session_iff answeringHost stoppedSession (1, [stoppedAnswer]) fresh_stoppedSession ⟨[], ?_, ?_⟩).mpr ?_
  · rfl
  · exact fun _ ha => nomatch ha
  · intro as has
    obtain rfl : [] = as := Option.some.inj has
    exact fun _ ha => nomatch ha

/-- A child that was reported as stopped is still to be collected, and held no longer. -/
theorem stopped_child_is_not_held :
    Uncollected (history answeringHost stoppedSession (1, [stoppedAnswer])) 1 ∧
      1 ∉ ((session answeringHost [] stoppedSession).run (1, [stoppedAnswer])).1 := by
  refine ⟨⟨[stoppedAnswer], rfl, ?_⟩, by decide⟩
  rintro a ha
  rw [List.mem_singleton.mp ha]
  rfl

end PipelineShell
