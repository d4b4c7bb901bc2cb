import PipelineShell.Machine.Descriptors
import PipelineShell.Proofs.Executor.Posix

/-!
# A host of descriptors alone

A small host for which the laws about descriptors hold: it keeps the descriptor table of a process, numbers the pipes, and remembers
which programs were to be started. There are no files in it, so every file can be opened.
-/

namespace PipelineShell

open Function

theorem Descriptors.get?_put {α : Type} (d : Descriptors α) (n : Nat) (a : α) :
    (d.put n a).get? = update d.get? (n : Fd) (some a) := by
  funext fd
  rw [update_apply]
  cases fd with
  | ofNat m => simp only [Descriptors.get?, Descriptors.slot?_put, Int.ofNat_eq_natCast, Int.natCast_inj]
  | negSucc m => rfl

theorem Descriptors.get?_erase {α : Type} (d : Descriptors α) (n : Nat) : (d.erase n).get? = update d.get? (n : Fd) none := by
  funext fd
  rw [update_apply]
  cases fd with
  | ofNat m => simp only [Descriptors.get?, Descriptors.slot?_erase, Int.ofNat_eq_natCast, Int.natCast_inj]
  | negSucc m => rfl

/-- An entry that is no end of a pipe can be made without one. -/
theorem Table.Lacks.update {H : Type} {t : Table H} {n : Nat} (h : t.Lacks n) (fd : Fd) {x : Option (Source H)}
    (hx : x ≠ some (.readEnd n) ∧ x ≠ some (.writeEnd n)) : Table.Lacks (update t fd x) n := by
  intro other
  rw [update_apply]
  split
  · exact hx
  · exact h other

/-- A process, the pipes that it has made and the programs that were to be started. -/
structure Bench where
  descriptors : Descriptors (Source String)
  pipes : Nat := 0
  executions : List (Execution String) := []
  forks : Nat := 0
  failed : Bool := false
  /-- A pipe that is still to be made has no ends. -/
  numbered : ∀ n, pipes ≤ n → Table.Lacks descriptors.get? n

namespace Bench

/-- A call that fails. -/
def refuse {α : Type} (e : Errno) : Call Bench α := ExceptT.mk fun s => (.error e, { s with failed := true })

/-- Makes a descriptor refer to something that is no end of a pipe still to be made. -/
def put (s : Bench) (n : Nat) (x : Source String)
    (hx : ∀ m, s.pipes ≤ m → some x ≠ some (.readEnd m) ∧ some x ≠ some (.writeEnd m)) : Bench :=
  { s with
    descriptors := s.descriptors.put n x
    numbered := fun m hm => s.descriptors.get?_put n x ▸ (s.numbered m hm).update n (hx m hm) }

/-- Makes a descriptor refer to nothing. -/
def erase (s : Bench) (n : Nat) : Bench :=
  { s with
    descriptors := s.descriptors.erase n
    numbered := fun m hm => s.descriptors.get?_erase n ▸ (s.numbered m hm).update n ⟨nofun, nofun⟩ }

/-- Opens a file as the lowest free descriptor. -/
def openFile (path : String) (flags : OpenFlags) : Call Bench Fd := ExceptT.mk fun s =>
  (.ok s.descriptors.lowestFree, s.put s.descriptors.lowestFree (.file path flags) fun _ _ => ⟨nofun, nofun⟩)

/-- Makes `target` refer to what `fd` refers to. -/
def dup2 (fd target : Fd) : Call Bench Unit := ExceptT.mk fun s =>
  match h : s.descriptors.get? fd, target with
  | some x, .ofNat n => (.ok (), s.put n x fun m hm => h ▸ s.numbered m hm fd)
  | _, _ => (refuse .badDescriptor).run s

/-- Closes a descriptor. -/
def close (fd : Fd) : Call Bench Unit := ExceptT.mk fun s =>
  match s.descriptors.get? fd, fd with
  | some _, .ofNat n => (.ok (), s.erase n)
  | _, _ => (refuse .badDescriptor).run s

/-- Makes a pipe of the two lowest free descriptors. -/
def pipe : Call Bench (Fd × Fd) := ExceptT.mk fun s =>
  let first := s.descriptors.lowestFree
  let opened := s.descriptors.put first (.readEnd s.pipes)
  let second := opened.lowestFree
  (.ok (first, second), { s with
    descriptors := opened.put second (.writeEnd s.pipes)
    pipes := s.pipes + 1
    numbered := fun n hn => by
      have hne : s.pipes ≠ n := by omega
      rw [Descriptors.get?_put, Descriptors.get?_put]
      refine ((s.numbered n (by omega)).update first ?_).update second ?_
      · simpa using hne
      · simpa using hne })

/-- Runs the code of a child on a copy of the process. -/
def fork (code : StateM Bench Departure) : Call Bench Pid := ExceptT.mk fun s =>
  let child := (code.run s).2
  (.ok s.forks, { s with
    executions := child.executions
    forks := s.forks + 1
    failed := s.failed || child.failed })

/-- Notes that a program was to be started. -/
def exec (argv : List String) : Call Bench Unit := ExceptT.mk fun s =>
  (.ok (), { s with executions := s.executions ++ [⟨argv, s.descriptors.get?⟩] })

end Bench

/-- The host that keeps a table. -/
def tableHost : Host Bench where
  openFile path flags _ := Bench.openFile path flags
  dup2 := Bench.dup2
  close := Bench.close
  pipe := Bench.pipe
  fork := Bench.fork
  exec := Bench.exec
  wait _ _ := return .stillAlive
  complain _ := return ()
  print _ := return ()
  canonicalize path := return path
  changeDirectory _ := return ()
  currentDirectory := return "/"
  environment := return []
  readLine _ := return .ok none
  lineBound := return 0

/-- What is seen of the host. -/
def tableObserver : Observer Bench String where
  view s := ⟨s.descriptors.get?, s.pipes, s.executions⟩
  clean s := s.failed = false

namespace Bench

theorem view_put (s : Bench) (n : Nat) (x : Source String) (hx) :
    tableObserver.view (s.put n x hx) = (tableObserver.view s).put n (some x) := by
  simp only [tableObserver, put, View.put, View.rewire, Descriptors.get?_put]

theorem view_erase (s : Bench) (n : Nat) : tableObserver.view (s.erase n) = (tableObserver.view s).put n none := by
  simp only [tableObserver, erase, View.put, View.rewire, Descriptors.get?_erase]

theorem does_openFile (path : String) (flags : OpenFlags) : tableObserver.Does (openFile path flags) fun v fd v' =>
    v.table fd = none ∧ v' = v.put fd (some (.file path flags)) := by
  intro s hs
  exact ⟨hs, _, rfl, s.descriptors.slot?_lowestFree, s.view_put _ (.file path flags) fun _ _ => ⟨nofun, nofun⟩⟩

theorem does_dup2 (fd target : Fd) : tableObserver.Does (dup2 fd target) fun v _ v' =>
    v.table fd ≠ none ∧ v' = v.put target (v.table fd) := by
  intro s
  simp only [dup2, ExceptT.run_mk, StateT.run]
  split
  · rename_i x n hfd
    intro hs
    refine ⟨hs, (), rfl, ?_, ?_⟩
    · show s.descriptors.get? fd ≠ none
      rw [hfd]
      exact nofun
    · rw [view_put]
      show _ = (tableObserver.view s).put _ (s.descriptors.get? fd)
      rw [hfd]
      rfl
  · exact fun hs => nomatch hs

theorem does_close (fd : Fd) : tableObserver.Does (close fd) fun v _ v' => v.table fd ≠ none ∧ v' = v.put fd none := by
  intro s
  simp only [close, ExceptT.run_mk, StateT.run]
  split
  · rename_i x n hfd
    intro hs
    refine ⟨hs, (), rfl, ?_, s.view_erase n⟩
    show s.descriptors.get? (Int.ofNat n) ≠ none
    rw [hfd]
    exact nofun
  · exact fun hs => nomatch hs

theorem does_pipe : tableObserver.Does pipe fun v ends v' =>
    v.table ends.1 = none ∧ v.table ends.2 = none ∧ ends.1 ≠ ends.2 ∧ v.table.Lacks v.pipes ∧
      v' = { (v.put ends.1 (some (.readEnd v.pipes))).put ends.2 (some (.writeEnd v.pipes)) with pipes := v.pipes + 1 } := by
  intro s hs
  have hsecond := (s.descriptors.put s.descriptors.lowestFree (.readEnd s.pipes)).slot?_lowestFree
  rw [Descriptors.slot?_put] at hsecond
  split at hsecond
  · nomatch hsecond
  · rename_i hne
    refine ⟨hs, _, rfl, s.descriptors.slot?_lowestFree, hsecond, ?_, s.numbered s.pipes (Nat.le_refl _), ?_⟩
    · exact fun he => hne (Int.ofNat.inj he).symm
    · simp only [tableObserver, pipe, View.put, View.rewire, ExceptT.run_mk, StateT.run, Descriptors.get?_put]

theorem does_fork (code : StateM Bench Departure) : tableObserver.Does (fork code) fun v _ v' =>
    ∃ t, tableObserver.clean (code.run t).2 ∧ (tableObserver.view t).table = v.table ∧
      (tableObserver.view t).executions = v.executions ∧
      v' = { v with executions := (tableObserver.view (code.run t).2).executions } := by
  intro s hs
  have hs : (s.failed || (code.run s).2.failed) = false := hs
  obtain ⟨hclean, hchild⟩ := Bool.or_eq_false_iff.mp hs
  exact ⟨hclean, _, rfl, s, hchild, rfl, rfl, rfl⟩

end Bench

/-- The laws hold of the host. -/
theorem tableHost_posix : tableObserver.Posix tableHost where
  openFile path flags _ := Bench.does_openFile path flags
  pipe := Bench.does_pipe
  dup2 := Bench.does_dup2
  close := Bench.does_close
  fork := Bench.does_fork
  exec _ _ := ⟨id, rfl⟩
  complain _ _ := ⟨id, rfl⟩

end PipelineShell
