import Mathlib.Logic.Function.Basic
import PipelineShell.Proofs.Executor.Ensures

/-!
# What is asked of the system about descriptors

The host of a shell is left open, so what the system does to descriptors is stated as laws. An `Observer` tells what can be seen in a
state of the host: the descriptor table of the process whose code is running, each entry with where it comes from, and the tables that
programs have been started with. `Observer.Posix` are the laws: opening and piping give free descriptors, a fork copies the table,
and duplicating and closing do what they say.
-/

namespace PipelineShell

/-- Where an entry of a descriptor table comes from. Pipes are numbered as they are made. -/
inductive Source (H : Type) where
  | inherited (handle : H)
  | file (path : String) (flags : OpenFlags)
  | readEnd (pipe : Nat)
  | writeEnd (pipe : Nat)
  deriving DecidableEq, Repr

/-- What each descriptor refers to. -/
abbrev Table (H : Type) := Fd → Option (Source H)

/-- No descriptor refers to the pipe of a number. -/
def Table.Lacks {H : Type} (t : Table H) (n : Nat) : Prop := ∀ fd, t fd ≠ some (.readEnd n) ∧ t fd ≠ some (.writeEnd n)

/-- A program that is being started: its argument vector and the descriptors it gets. -/
structure Execution (H : Type) where
  argv : List String
  table : Table H

/-- What can be seen in a state. -/
structure View (H : Type) where
  /-- The descriptor table of the process whose code is running. -/
  table : Table H
  /-- How many pipes have been made. -/
  pipes : Nat
  /-- Every call that was to start a program, in order. -/
  executions : List (Execution H)

namespace View

variable {H : Type}

/-- The view with another table. -/
def rewire (v : View H) (f : Table H → Table H) : View H := { v with table := f v.table }

/-- The view with another entry for one descriptor. -/
def put (v : View H) (fd : Fd) (source : Option (Source H)) : View H := v.rewire fun t => Function.update t fd source

end View

/-- What is observed of a host. -/
structure Observer (σ H : Type) where
  view : σ → View H
  /-- No call to open, pipe, fork, duplicate or close has failed so far, in the shell or in a child. -/
  clean : σ → Prop

namespace Observer

variable {σ H α β ε : Type}

/-- Something has failed. -/
def Stuck (o : Observer σ H) (s : σ) : Prop := ¬ o.clean s

/-- If nothing has failed after a program, then nothing had before, and it ends with a result and an effect on what is seen as `E`
says. -/
def Does (o : Observer σ H) (c : ExceptT ε (StateM σ) α) (E : View H → α → View H → Prop) : Prop :=
  ∀ s, o.clean (c.run.run s).2 → o.clean s ∧ ∃ a, (c.run.run s).1 = .ok a ∧ E (o.view s) a (o.view (c.run.run s).2)

/-- What the system does to descriptors. -/
structure Posix (o : Observer σ H) (host : Host σ) : Prop where
  /-- An opened file gets a free descriptor. -/
  openFile : ∀ path flags permissions, o.Does (host.openFile path flags permissions) fun v fd v' =>
    v.table fd = none ∧ v' = v.put fd (some (.file path flags))
  /-- A new pipe gets two free descriptors, and nothing has referred to it before. -/
  pipe : o.Does host.pipe fun v ends v' =>
    v.table ends.1 = none ∧ v.table ends.2 = none ∧ ends.1 ≠ ends.2 ∧ v.table.Lacks v.pipes ∧
      v' = { (v.put ends.1 (some (.readEnd v.pipes))).put ends.2 (some (.writeEnd v.pipes)) with pipes := v.pipes + 1 }
  dup2 : ∀ fd target, o.Does (host.dup2 fd target) fun v _ v' => v.table fd ≠ none ∧ v' = v.put target (v.table fd)
  close : ∀ fd, o.Does (host.close fd) fun v _ v' => v.table fd ≠ none ∧ v' = v.put fd none
  /-- The child begins with the table of its parent, whose own table stays as it is. -/
  fork : ∀ code, o.Does (host.fork code) fun v _ v' => ∃ t, o.clean (code.run t).2 ∧ (o.view t).table = v.table ∧
    (o.view t).executions = v.executions ∧ v' = { v with executions := (o.view (code.run t).2).executions }
  /-- A call that is to start a program is seen with the table at that moment, whether or not it succeeds. -/
  exec : ∀ argv s, (o.clean ((host.exec argv).run.run s).2 → o.clean s) ∧
    (o.view ((host.exec argv).run.run s).2).executions =
      (o.view s).executions ++ [⟨argv, (o.view s).table⟩]
  complain : ∀ text s, (o.clean ((host.complain text).run s).2 → o.clean s) ∧
    (o.view ((host.complain text).run s).2).executions = (o.view s).executions

namespace Does

variable {o : Observer σ H} {E E' : View H → α → View H → Prop} {c : ExceptT ε (StateM σ) α}

theorem weaken (h : o.Does c E) (hE : ∀ v a v', E v a v' → E' v a v') : o.Does c E' := by
  intro s hs
  obtain ⟨hclean, a, ha, he⟩ := h s hs
  exact ⟨hclean, a, ha, hE _ _ _ he⟩

theorem pure (a : α) : o.Does (Pure.pure a : ExceptT ε (StateM σ) α) fun v b v' => b = a ∧ v' = v :=
  fun _ hs => ⟨hs, a, rfl, rfl, rfl⟩

theorem bind {f : α → ExceptT ε (StateM σ) β} {F : α → View H → β → View H → Prop} (hc : o.Does c E)
    (hf : ∀ a, o.Does (f a) (F a)) : o.Does (c >>= f) fun v b v'' => ∃ a v', E v a v' ∧ F a v' b v'' := by
  intro s hs
  have hc := hc s
  generalize hr : c.run.run s = r at hc
  obtain ⟨e | a, t⟩ := r
  · rw [run_bind_error hr] at hs
    obtain ⟨-, a, ha, -⟩ := hc hs
    nomatch ha
  · rw [run_bind_ok hr] at hs ⊢
    obtain ⟨ht, b, hb, hF⟩ := hf a t hs
    obtain ⟨hclean, a', ha, hE⟩ := hc ht
    obtain rfl : a = a' := Except.ok.inj ha
    exact ⟨hclean, b, hb, a, o.view t, hE, hF⟩

/-- Two effects that one program has. -/
theorem and (h : o.Does c E) (h' : o.Does c E') : o.Does c fun v a v' => E v a v' ∧ E' v a v' := by
  intro s hs
  obtain ⟨hclean, a, ha, he⟩ := h s hs
  obtain ⟨-, b, hb, he'⟩ := h' s hs
  obtain rfl : a = b := Except.ok.inj (ha.symm.trans hb)
  exact ⟨hclean, a, ha, he, he'⟩

/-- Two programs that are both run, whatever the first one comes to. -/
theorem both {x y : ExceptT ε (StateM σ) Unit} {F G : View H → Unit → View H → Prop} (hx : o.Does x F) (hy : o.Does y G)
    {join : Except ε Unit → Except ε Unit → Except ε Unit} (hjoin : join (.ok ()) (.ok ()) = .ok ()) :
    o.Does (ExceptT.mk do
      let r ← x.run
      let q ← y.run
      return join r q) fun v _ v'' => ∃ v', F v () v' ∧ G v' () v'' := by
  intro s hs
  obtain ⟨hclean', ⟨⟩, hq, hG⟩ := hy (x.run.run s).2 hs
  obtain ⟨hclean, ⟨⟩, hr, hF⟩ := hx s hclean'
  refine ⟨hclean, (), ?_, _, hF, hG⟩
  show join (x.run.run s).1 (y.run.run (x.run.run s).2).1 = .ok ()
  rw [hr, hq, hjoin]

/-- Reporting a call under a name changes nothing of what it does. -/
theorem during {c : Call σ α} (h : o.Does c E) (call : String) : o.Does (during call c) E := by
  intro s hs
  obtain ⟨hclean, a, ha, hE⟩ := h s hs
  refine ⟨hclean, a, ?_, hE⟩
  show Except.mapError _ (c.run.run s).1 = _
  rw [ha]
  rfl

/-- What has failed stays so. -/
theorem stuck (h : o.Does c E) : Ensures o.Stuck c.run fun _ => o.Stuck := fun s hs ht => hs (h s ht).1

end Does

/-- Giving descriptors up is no recovery. -/
theorem Posix.stuck_abandon {o : Observer σ H} {host : Host σ} (h : o.Posix host) (held : List Fd) :
    Ensures o.Stuck (abandon host held) fun _ => o.Stuck := by
  induction held with
  | nil => exact .pure fun _ hs => hs
  | cons fd held ih => exact .bind (.bind (h.close fd).stuck fun _ => .pure fun _ hs => hs) fun _ => ih

/-- Where nothing fails it makes no difference what is held. -/
theorem Does.holding {o : Observer σ H} {host : Host σ} {c : Setup σ Unit} {E : View H → Unit → View H → Prop} (h : o.Does c E)
    (hposix : o.Posix host) (held : List Fd) : o.Does (holding host held c) E := by
  intro s hs
  have hc := h s
  generalize hr : c.run.run s = r at hc
  obtain ⟨f | ⟨⟩, t⟩ := r
  · have hstuck : o.Stuck t := fun ht => by
      obtain ⟨-, a, ha, -⟩ := hc ht
      nomatch ha
    rw [run_holding_error hr] at hs
    exact absurd hs (hposix.stuck_abandon held t hstuck)
  · rw [run_holding_ok hr] at hs ⊢
    exact hc hs

/-- After a program in which nothing has failed, the table is `f` of what it was, and nothing else is seen to have changed. -/
def Maps (o : Observer σ H) (c : ExceptT ε (StateM σ) Unit) (f : Table H → Table H) : Prop :=
  o.Does c fun v _ v' => v' = v.rewire f

namespace Maps

variable {o : Observer σ H} {f g : Table H → Table H} {c d : ExceptT ε (StateM σ) Unit}

theorem bind (hc : o.Maps c f) (hd : o.Maps d g) : o.Maps (do c; d) fun t => g (f t) := by
  refine (Does.bind hc fun _ => hd).weaken ?_
  rintro v _ v'' ⟨-, v', rfl, rfl⟩
  rfl

theorem during {c : Call σ Unit} (h : o.Maps c f) (call : String) : o.Maps (during call c) f := Does.during h call

theorem holding {host : Host σ} {c : Setup σ Unit} (h : o.Maps c f) (hposix : o.Posix host) (held : List Fd) :
    o.Maps (holding host held c) f := Does.holding h hposix held

/-- What is done where there is something for it. -/
theorem whenSome {x : Option α} {body : α → Setup σ Unit} {k : α → Table H → Table H} (h : ∀ a, o.Maps (body a) (k a)) :
    o.Maps (Stage.whenSome x body) fun t => x.elim t fun a => k a t := by
  cases x with
  | none =>
    refine (Does.pure ()).weaken ?_
    rintro v _ v' ⟨-, rfl⟩
    rfl
  | some a => exact h a

end Maps

/-- As long as nothing has failed, `P` holds of what is seen. -/
def Guard (o : Observer σ H) (P : View H → Prop) (s : σ) : Prop := o.clean s → P (o.view s)

theorem Does.ensures {o : Observer σ H} {c : ExceptT ε (StateM σ) α} {E : View H → α → View H → Prop} {P : View H → Prop}
    {Q : α → View H → Prop} (h : o.Does c E) (hQ : ∀ v a v', P v → E v a v' → Q a v') :
    Ensures (o.Guard P) c.run (Outcome (fun a => o.Guard (Q a)) fun _ => o.Stuck) := by
  intro s hs
  have hs' := h s
  generalize c.run.run s = r at hs' ⊢
  obtain ⟨e | a, t⟩ := r
  · intro ht
    obtain ⟨-, a, ha, -⟩ := hs' ht
    nomatch ha
  · intro ht
    obtain ⟨hclean, a', ha, hE⟩ := hs' ht
    obtain rfl : a = a' := Except.ok.inj ha
    exact hQ _ _ _ (hs hclean) hE

namespace Posix

variable {o : Observer σ H} {host : Host σ}

theorem ensures_exec (h : o.Posix host) (argv : List String) (v : View H) :
    Ensures (o.Guard (· = v)) (host.exec argv).run
      fun _ => o.Guard fun v' => v'.executions = v.executions ++ [⟨argv, v.table⟩] := by
  intro s hs ht
  obtain ⟨hclean, hexecutions⟩ := h.exec argv s
  rw [hexecutions, hs (hclean ht)]

theorem ensures_complain (h : o.Posix host) (text : String) (executions : List (Execution H)) :
    Ensures (o.Guard (·.executions = executions)) (host.complain text) fun _ => o.Guard (·.executions = executions) := by
  intro s hs ht
  obtain ⟨hclean, hexecutions⟩ := h.complain text s
  exact hexecutions.trans (hs (hclean ht))

theorem stuck_complain (h : o.Posix host) (text : String) : Ensures o.Stuck (host.complain text) fun _ => o.Stuck :=
  fun s hs ht => hs ((h.complain text s).1 ht)

end Posix

end Observer

end PipelineShell
