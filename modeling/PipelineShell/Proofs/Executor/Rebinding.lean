import Mathlib
import PipelineShell.Kernel.Host
import PipelineShell.Proofs.Executor.TableHost

/-!
# Rebinding one descriptor

`Redirect.stream` is to change what one descriptor refers to, and on the way there it opens another one. What the system does to the
descriptor table is stated as laws again, here for the calls that fail as well (`Host.Rebinds`); they hold of the machine
(`Kernel.rebinds`). Under these laws the new descriptor is gone in the end, or is the one that was asked for, on every way through the
function, and a failure leaves the table as it was (`Redirect.stream_rebinds`).
-/

namespace PipelineShell

open Function

/-- What the calls on descriptors do to the table that is seen in a state, whether they succeed or fail. -/
structure Host.Rebinds {σ F : Type} (host : Host σ) (table : σ → Fd → Option F) : Prop where
  /-- An opened file gets a descriptor that was free. -/
  opened {path : String} {flags : OpenFlags} {permissions : Nat} {s t : σ} {fd : Fd} :
    (host.openFile path flags permissions).run.run s = (.ok fd, t) →
      table s fd = none ∧ ∃ file, table t = update (table s) fd (some file)
  notOpened {path : String} {flags : OpenFlags} {permissions : Nat} {s t : σ} {e : Errno} :
    (host.openFile path flags permissions).run.run s = (.error e, t) → table t = table s
  duplicated {fd target : Fd} {s t : σ} :
    (host.dup2 fd target).run.run s = (.ok (), t) → table t = update (table s) target (table s fd)
  notDuplicated {fd target : Fd} {s t : σ} {e : Errno} : (host.dup2 fd target).run.run s = (.error e, t) → table t = table s
  closed {fd : Fd} {s t : σ} : (host.close fd).run.run s = (.ok (), t) → table t = update (table s) fd none

/-! ## The laws hold of the machine -/

namespace Machine

/-- The descriptor table of the running task. -/
def table (m : Machine) : Fd → Option Handle := m.self.descriptors.get?

theorem run_get_bind {α : Type} (f : Machine → Call Machine α) (m : Machine) : (get >>= f).run.run m = (f m).run.run m := rfl

/-- A question about the files either stops the call or lets it go on; the machine stays as it is. -/
theorem run_lift_bind {α β : Type} (x : Except Errno α) (f : α → Call Machine β) (m : Machine) :
    ((liftM x : Call Machine α) >>= f).run.run m =
      match x with
      | .error e => (.error e, m)
      | .ok a => (f a).run.run m := by
  cases x <;> rfl

theorem run_install (m : Machine) (h : Handle) :
    (install h).run.run m =
      if m.self.descriptors.lowestFree ≥ descriptorLimit then (.error .tooManyOpen, m)
      else (.ok (m.self.descriptors.lowestFree : Fd),
        { m with self := { m.self with descriptors := m.self.descriptors.put m.self.descriptors.lowestFree h } }) := by
  unfold install
  rw [run_get_bind]
  dsimp only
  split <;> rfl

theorem run_register (files : Filesystem) (node : Nat) (flags : OpenFlags) (m : Machine) :
    ∃ h n, n.self = m.self ∧ (register files node flags).run.run m = (.ok h, n) :=
  ⟨_, ((register files node flags).run.run m).2, rfl, rfl⟩

theorem keeps_reopen (node n : Nat) (flags : OpenFlags) : Keeps self (reopen node n flags).run := by
  intro m
  unfold reopen
  rw [run_get_bind]
  split
  · rfl
  · split
    · rw [run_lift_bind]
      split <;> rfl
    · rfl
  · by_cases hdirectory : flags.directory
    · rw [if_pos hdirectory]
      rfl
    · rw [if_neg hdirectory]
      split <;> rfl
  · by_cases hdirectory : flags.directory
    · rw [if_pos hdirectory]
      rfl
    · rw [if_neg hdirectory]
      split <;> rfl

/-- Opening a file fails with the task as it was, or comes down to giving a handle a descriptor. -/
theorem run_openFile (path : String) (flags : OpenFlags) (permissions : Nat) (m : Machine) :
    (∃ e n, n.self = m.self ∧ (openFile path flags permissions).run.run m = (.error e, n)) ∨
      ∃ h n, n.self = m.self ∧ (openFile path flags permissions).run.run m = (install h).run.run n := by
  unfold openFile
  rw [run_get_bind]
  split
  · exact .inl ⟨_, m, rfl, rfl⟩
  · rw [run_lift_bind]
    rcases m.files.openFile m.self.directory m.self.mask path flags.effective permissions with e | ⟨node, files⟩
    · exact .inl ⟨e, m, rfl, rfl⟩
    · dsimp only
      split
      · rename_i k _ _
        have hself := keeps_reopen node k flags.effective m
        rcases hr : (reopen node k flags.effective).run.run m with ⟨e | h, n⟩
        · rw [hr] at hself
          exact .inl ⟨e, n, hself, run_bind_error hr _⟩
        · rw [hr] at hself
          exact .inr ⟨h, n, hself, run_bind_ok hr _⟩
      · obtain ⟨h, n, hself, hr⟩ := run_register files node flags.effective m
        exact .inr ⟨h, n, hself, run_bind_ok hr _⟩

variable {m n : Machine}

theorem table_of_opened {path : String} {flags : OpenFlags} {permissions : Nat} {fd : Fd}
    (h : (openFile path flags permissions).run.run m = (.ok fd, n)) :
    m.table fd = none ∧ ∃ handle, n.table = update m.table fd (some handle) := by
  obtain ⟨e, u, -, hopen⟩ | ⟨handle, u, hself, hopen⟩ := run_openFile path flags permissions m
  · cases hopen.symm.trans h
  · rw [hopen, run_install] at h
    split at h
    · cases h
    · cases h
      unfold table
      rw [← hself]
      exact ⟨u.self.descriptors.slot?_lowestFree, handle, Descriptors.get?_put _ _ _⟩

theorem table_of_notOpened {path : String} {flags : OpenFlags} {permissions : Nat} {e : Errno}
    (h : (openFile path flags permissions).run.run m = (.error e, n)) : n.table = m.table := by
  obtain ⟨cause, u, hself, hopen⟩ | ⟨handle, u, hself, hopen⟩ := run_openFile path flags permissions m
  · cases hopen.symm.trans h
    rw [table, table, hself]
  · rw [hopen, run_install] at h
    split at h
    · cases h
      rw [table, table, hself]
    · cases h

/-- Duplicating a descriptor that refers to something gives a target in range the same; anything else fails and changes nothing. -/
theorem run_dup2 (fd target : Fd) (m : Machine) :
    (∃ e, (dup2 fd target).run.run m = (.error e, m)) ∨
      ∃ n h, (dup2 fd target).run.run m = (.ok (), n) ∧ m.table fd = some h ∧ n.table = update m.table target (some h) := by
  unfold dup2
  rw [run_get_bind]
  split
  · rename_i h k hfd
    split
    · exact .inl ⟨_, rfl⟩
    · exact .inr ⟨_, h, rfl, hfd, Descriptors.get?_put _ _ _⟩
  · exact .inl ⟨_, rfl⟩

theorem table_of_closed {fd : Fd} (h : (close fd).run.run m = (.ok (), n)) : n.table = update m.table fd none := by
  unfold close at h
  rw [run_get_bind] at h
  split at h
  · cases h
  · rename_i handle hfd
    cases h
    cases fd with
    | ofNat k => exact Descriptors.get?_erase _ _
    | negSucc k => cases hfd

end Machine

namespace Kernel

variable {α : Type} {c : Call Machine α} {s t : Kernel} {r : Except Errno α}

/-- A call on the machine is made there. -/
theorem run_of_run_call (h : (call c).run.run s = (r, t)) : c.run.run s.machine = (r, t.machine) := by
  cases h
  rfl

theorem host_rebinds : Kernel.host.Rebinds fun s => s.machine.table where
  opened h := Machine.table_of_opened (run_of_run_call h)
  notOpened h := Machine.table_of_notOpened (run_of_run_call h)
  duplicated {fd target s t} h := by
    obtain ⟨e, hrun⟩ | ⟨n, handle, hrun, hfd, htable⟩ := Machine.run_dup2 fd target s.machine
    · cases hrun.symm.trans (run_of_run_call h)
    · cases hrun.symm.trans (run_of_run_call h)
      rw [hfd]
      exact htable
  notDuplicated {fd target s t e} h := by
    obtain ⟨e, hrun⟩ | ⟨n, handle, hrun, -, -⟩ := Machine.run_dup2 fd target s.machine
    · exact congrArg Machine.table (congrArg Prod.snd ((run_of_run_call h).symm.trans hrun))
    · cases hrun.symm.trans (run_of_run_call h)
  closed h := Machine.table_of_closed (run_of_run_call h)

end Kernel

namespace Redirect

variable {σ F : Type} {host : Host σ} {table : σ → Fd → Option F} {fd : Fd} {path : String} {flags : OpenFlags} {permissions : Nat}
  {s u : σ}

/-! ## The ways through the function -/

theorem stream_of_notOpened {e : Errno} (h : (host.openFile path flags permissions).run.run s = (.error e, u)) :
    (stream host fd path flags permissions).run.run s = (.error e, u) := run_bind_error h _

theorem stream_of_opened_same (h : (host.openFile path flags permissions).run.run s = (.ok fd, u)) :
    (stream host fd path flags permissions).run.run s = (.ok (), u) := by
  rw [stream, run_bind_ok h, if_pos rfl]
  rfl

/-- A new descriptor that is not the one asked for is duplicated and closed, whatever the duplication comes to. -/
theorem stream_of_opened_other {opened : Fd} {moved : Except Errno Unit} {v t : σ} (hne : opened ≠ fd)
    (hopen : (host.openFile path flags permissions).run.run s = (.ok opened, u))
    (hdup : (host.dup2 opened fd).run.run u = (moved, v)) (hclose : (host.close opened).run.run v = (.ok (), t)) :
    (stream host fd path flags permissions).run.run s = (moved, t) := by
  rw [stream, run_bind_ok hopen, if_neg hne]
  show (do
      let duplicated ← (host.dup2 opened fd).run
      let closed ← (host.close opened).run
      return closed.bind fun () => duplicated : StateM σ (Except Errno Unit)).run u = _
  rw [run_bind_of_run hdup, run_bind_of_run hclose]
  rfl

/-! ## What becomes of the table -/

/-- The new descriptor leaves nothing behind where it is closed at once. -/
theorem table_of_given_up (h : host.Rebinds table) {opened : Fd} {v t : σ} {e : Errno}
    (hopen : (host.openFile path flags permissions).run.run s = (.ok opened, u))
    (hdup : (host.dup2 opened fd).run.run u = (.error e, v)) (hclose : (host.close opened).run.run v = (.ok (), t)) :
    table t = table s := by
  obtain ⟨hfree, file, hu⟩ := h.opened hopen
  calc table t = update (table v) opened none := h.closed hclose
    _ = update (update (table s) opened (some file)) opened none := by rw [h.notDuplicated hdup, hu]
    _ = update (table s) opened (table s opened) := by rw [update_idem, hfree]
    _ = table s := update_eq_self opened (table s)

/-- Once it has been duplicated only the duplicate is left. -/
theorem table_of_moved (h : host.Rebinds table) {opened : Fd} {v t : σ} (hne : opened ≠ fd)
    (hopen : (host.openFile path flags permissions).run.run s = (.ok opened, u))
    (hdup : (host.dup2 opened fd).run.run u = (.ok (), v)) (hclose : (host.close opened).run.run v = (.ok (), t)) :
    table t = update (table s) fd (table u opened) := by
  obtain ⟨hfree, file, hu⟩ := h.opened hopen
  calc table t = update (table v) opened none := h.closed hclose
    _ = update (update (update (table s) opened (some file)) fd (table u opened)) opened none := by rw [h.duplicated hdup, hu]
    _ = update (update (table s) opened (table s opened)) fd (table u opened) := by
      rw [update_comm hne.symm, update_idem, hfree]
    _ = update (table s) fd (table u opened) := by rw [update_eq_self]

/-- Where closing a descriptor that was just opened does not fail, redirecting changes one entry of the table or none. A success
leaves `fd` at the opened file and every other descriptor where it was. A failure leaves the whole table as it was, and it is that
of opening, if opening has failed, and else that of duplicating. -/
theorem stream_rebinds (h : host.Rebinds table) (s : σ)
    (hclose : ∀ opened u, (host.openFile path flags permissions).run.run s = (.ok opened, u) →
      ((host.close opened).run.run ((host.dup2 opened fd).run.run u).2).1 = .ok ()) :
    (∀ t, (stream host fd path flags permissions).run.run s = (.ok (), t) →
      ∃ opened u, (host.openFile path flags permissions).run.run s = (.ok opened, u) ∧ table u opened ≠ none ∧
        table t = update (table s) fd (table u opened)) ∧
    (∀ e t, (stream host fd path flags permissions).run.run s = (.error e, t) →
      table t = table s ∧
        match (host.openFile path flags permissions).run.run s with
        | (.error cause, _) => e = cause
        | (.ok opened, u) => opened ≠ fd ∧ ((host.dup2 opened fd).run.run u).1 = .error e) := by
  rcases hopen : (host.openFile path flags permissions).run.run s with ⟨cause | opened, u⟩
  · rw [stream_of_notOpened hopen]
    refine ⟨fun t ht => ?_, fun e t ht => ?_⟩
    · cases ht
    · cases ht
      exact ⟨h.notOpened hopen, rfl⟩
  · obtain ⟨-, file, hu⟩ := h.opened hopen
    have hfile : table u opened ≠ none := by
      rw [hu, update_self]
      exact nofun
    by_cases hsame : opened = fd
    · subst hsame
      rw [stream_of_opened_same hopen]
      refine ⟨fun t ht => ?_, fun e t ht => ?_⟩
      · cases ht
        refine ⟨opened, u, rfl, hfile, ?_⟩
        rw [hu, update_self]
      · cases ht
    · rcases hdup : (host.dup2 opened fd).run.run u with ⟨moved, v⟩
      rcases hend : (host.close opened).run.run v with ⟨closed, w⟩
      obtain rfl : closed = .ok () := by
        have hclosed := hclose opened u hopen
        rwa [hdup, hend] at hclosed
      rw [stream_of_opened_other hsame hopen hdup hend]
      refine ⟨fun t ht => ?_, fun e t ht => ?_⟩
      · cases ht
        exact ⟨opened, u, rfl, hfile, table_of_moved h hsame hopen hdup hend⟩
      · cases ht
        exact ⟨table_of_given_up h hopen hdup hend, hsame, by rw [hdup]⟩

/-- A machine with one file, and a process whose descriptors 0 and 2 are in use. -/
def gapped : Kernel :=
  { machine := {
      files := ⟨[.directory { mode := 0o755, parent := 0, entries := [("in", 1)] }, .file 0o644 []]⟩
      self := { descriptors := ⟨[some (.readEnd 0), none, some (.writeEnd 0)]⟩ } } }

/-- Opening the file gives descriptor 1. To have it as -1 fails and nothing stays open, to have it as 1 takes no more than that, and
to have it as 2 replaces what was there. -/
theorem stream_rebinds_gapped :
    (∃ t, (stream Kernel.host (-1) "in" { access := .read } 0).run.run gapped = (.error .badDescriptor, t) ∧
      t.machine.table = gapped.machine.table) ∧
    ∀ fd ∈ [1, 2], ∃ t, (stream Kernel.host fd "in" { access := .read } 0).run.run gapped = (.ok (), t) ∧
      t.machine.table = update gapped.machine.table fd (some (.file 0)) := by
  have hopen : ((Kernel.host.openFile "in" { access := .read } 0).run.run gapped).1 = .ok 1 := by cbv
  have hfile : ((Kernel.host.openFile "in" { access := .read } 0).run.run gapped).2.machine.table 1 = some (.file 0) := by cbv
  have hclose (fd : Fd) (hfd : fd ∈ [-1, 1, 2]) :
      ∀ opened u, (Kernel.host.openFile "in" { access := .read } 0).run.run gapped = (.ok opened, u) →
        ((Kernel.host.close opened).run.run ((Kernel.host.dup2 opened fd).run.run u).2).1 = .ok () := by
    intro opened u hu
    obtain rfl : opened = 1 := Except.ok.inj ((congrArg Prod.fst hu).symm.trans hopen)
    obtain rfl : _ = u := congrArg Prod.snd hu
    simp only [List.mem_cons, List.not_mem_nil, or_false] at hfd
    rcases hfd with rfl | rfl | rfl <;> cbv
  refine ⟨?_, fun fd hfd => ?_⟩
  · have hrun : ((stream Kernel.host (-1) "in" { access := .read } 0).run.run gapped).1 = .error .badDescriptor := by cbv
    obtain ⟨-, hfailed⟩ := stream_rebinds Kernel.host_rebinds gapped (hclose (-1) (by decide))
    exact ⟨_, Prod.ext hrun rfl, (hfailed _ _ (Prod.ext hrun rfl)).1⟩
  · have hrun : ((stream Kernel.host fd "in" { access := .read } 0).run.run gapped).1 = .ok () := by
      simp only [List.mem_cons, List.not_mem_nil, or_false] at hfd
      rcases hfd with rfl | rfl <;> cbv
    obtain ⟨hdone, -⟩ := stream_rebinds Kernel.host_rebinds gapped (hclose fd (List.mem_cons_of_mem _ hfd))
    obtain ⟨opened, u, hu, -, htable⟩ := hdone _ (Prod.ext hrun rfl)
    obtain rfl : opened = 1 := Except.ok.inj ((congrArg Prod.fst hu).symm.trans hopen)
    obtain rfl : _ = u := congrArg Prod.snd hu
    rw [hfile] at htable
    exact ⟨_, Prod.ext hrun rfl, htable⟩

end Redirect

end PipelineShell
