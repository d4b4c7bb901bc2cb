import PipelineShell.Proofs.Executor.OutputHistory

/-!
# Runs that send their output to one file

A run is a process that opens a file as its standard output and then writes to it. Runs one after another, and runs that append however
they overlap, make orderly histories; so the file holds what they add up to, and `Redirect.output_over_runs` says what that is.
-/

namespace PipelineShell

open Redirect

/-- A process that opens a path and then writes chunks. -/
structure Run where
  task : Task
  path : String
  mode : OutputMode
  chunks : List Bytes

namespace Run

variable {r : Run}

/-- The number of the process. -/
def pid (r : Run) : Pid := r.task.pid

/-- What it does, in order. -/
def deeds (r : Run) : Deeds := (r.pid, .opens r.path r.mode) :: r.chunks.map fun chunk => (r.pid, .writes chunk)

/-- All that it writes. -/
def written (r : Run) : Bytes := r.chunks.flatten

/-- Where its path leads. -/
def spot (r : Run) (files : Filesystem) : Except Errno Spot := files.resolve r.task.directory r.path outputName

/-- The process has not ended and has a descriptor to spare. -/
structure Fresh (r : Run) (s : Kernel) : Prop where
  task : s.task? r.pid = some r.task
  free : r.task.descriptors.lowestFree < Machine.descriptorLimit

/-- The paths of runs lead to a file with these permission bits and contents. -/
structure Share (runs : List Run) (files : Filesystem) (n bits : Nat) (data : Bytes) : Prop where
  node : files.node? n = some (.file bits data)
  paths : ∀ r ∈ runs, ∃ up name, r.spot files = .ok (.found n up name)

theorem mem_deeds {step : Pid × Deed} (h : step ∈ r.deeds) :
    step = (r.pid, .opens r.path r.mode) ∨ ∃ chunk, step = (r.pid, .writes chunk) := by
  obtain rfl | h := List.mem_cons.mp h
  · exact .inl rfl
  · obtain ⟨chunk, -, rfl⟩ := List.mem_map.mp h
    exact .inr ⟨chunk, rfl⟩

theorem pid_of_mem_deeds {step : Pid × Deed} (h : step ∈ r.deeds) : step.1 = r.pid := by
  obtain rfl | ⟨chunk, rfl⟩ := mem_deeds h <;> rfl

/-- A run opens its file before anything else. -/
theorem deeds_eq_append_opens {before after : Deeds} {pid : Pid} {path : String} {mode : OutputMode}
    (h : r.deeds = before ++ (pid, .opens path mode) :: after) : before = [] := by
  cases before with
  | nil => rfl
  | cons step before =>
    have hmem : (pid, Deed.opens path mode) ∈ r.chunks.map fun chunk => (r.pid, Deed.writes chunk) := by
      rw [(List.cons.inj h).2]
      exact List.mem_append_right before List.mem_cons_self
    obtain ⟨chunk, -, hchunk⟩ := List.mem_map.mp hmem
    nomatch hchunk

/-- What it writes comes after that. -/
theorem deeds_eq_append_writes {before after : Deeds} {pid : Pid} {chunk : Bytes}
    (h : r.deeds = before ++ (pid, .writes chunk) :: after) :
    pid = r.pid ∧ ∃ since, before = (r.pid, .opens r.path r.mode) :: since ∧ ∀ step ∈ since, step.1 = r.pid := by
  have hpid : ∀ step ∈ before ++ (pid, .writes chunk) :: after, step.1 = r.pid := fun step hstep => pid_of_mem_deeds (h ▸ hstep)
  refine ⟨hpid _ (List.mem_append_right before List.mem_cons_self), ?_⟩
  cases before with
  | nil => nomatch h
  | cons step since =>
    obtain ⟨rfl, -⟩ := List.cons.inj h
    exact ⟨since, rfl, fun step hstep => hpid step (List.mem_append_left _ (List.mem_cons_of_mem _ hstep))⟩

end Run

namespace Deeds

variable {history before after : Deeds} {runs : List Run} {data : Bytes} {pid : Pid} {r : Run}

/-! ## Orderly histories -/

/-- A history in which each of these runs does what it does, in its own order, and nobody else does anything. -/
structure Interleaves (history : Deeds) (runs : List Run) : Prop where
  ofRun : ∀ step ∈ history, ∃ r ∈ runs, step.1 = r.pid
  each : ∀ r ∈ runs, history.filter (fun step => step.1 = r.pid) = r.deeds

namespace Interleaves

theorem mem_deeds (h : history.Interleaves runs) {step : Pid × Deed} (hstep : step ∈ history) :
    ∃ r ∈ runs, step.1 = r.pid ∧ step ∈ r.deeds := by
  obtain ⟨r, hr, hpid⟩ := h.ofRun step hstep
  refine ⟨r, hr, hpid, ?_⟩
  rw [← h.each r hr]
  exact List.mem_filter.mpr ⟨hstep, decide_eq_true hpid⟩

/-- A process of no run does nothing. -/
theorem pid_ne (h : history.Interleaves runs) (hpid : ∀ r ∈ runs, r.pid ≠ pid) : ∀ step ∈ history, step.1 ≠ pid := by
  intro step hstep heq
  obtain ⟨r, hr, hstep⟩ := h.ofRun step hstep
  exact hpid r hr (hstep.symm.trans heq)

/-- A step with the steps of the same run before it. -/
theorem split (h : history.Interleaves runs) {deed : Deed} (hsplit : history = before ++ (pid, deed) :: after) :
    ∃ r ∈ runs, pid = r.pid ∧
      r.deeds = before.filter (fun step => step.1 = r.pid) ++ (pid, deed) :: after.filter fun step => step.1 = r.pid := by
  obtain ⟨r, hr, hpid⟩ := h.ofRun (pid, deed) (hsplit ▸ List.mem_append_right before List.mem_cons_self)
  refine ⟨r, hr, hpid, ?_⟩
  have hkept : decide ((pid, deed).1 = r.pid) = true := decide_eq_true hpid
  rw [← h.each r hr, hsplit, List.filter_append]
  exact congrArg _ (List.filter_cons_of_pos hkept)

theorem opensFirst (h : history.Interleaves runs) {path : String} {mode : OutputMode}
    (hsplit : history = before ++ (pid, .opens path mode) :: after) : ∀ step ∈ before, step.1 ≠ pid := by
  obtain ⟨r, -, rfl, hdeeds⟩ := h.split hsplit
  have hnone := Run.deeds_eq_append_opens hdeeds
  exact fun step hstep hpid => of_decide_eq_false (Bool.eq_false_iff.mpr (List.filter_eq_nil_iff.mp hnone step hstep)) hpid

/-- It begins with a file being opened. -/
theorem head_eq {step : Pid × Deed} (h : Interleaves (step :: after) runs) (hr : r ∈ runs) (hpid : step.1 = r.pid) :
    step = (r.pid, .opens r.path r.mode) := by
  have hkept : (step :: after).filter (fun other => other.1 = r.pid) = step :: after.filter fun other => other.1 = r.pid :=
    List.filter_cons_of_pos (decide_eq_true hpid)
  exact (List.cons.inj (hkept.symm.trans (h.each r hr))).1

/-- Runs that append make an orderly history, however they overlap. -/
theorem orderly_of_append (h : history.Interleaves runs) (happend : ∀ r ∈ runs, r.mode = .append) : history.Orderly where
  opensFirst := h.opensFirst
  writesAtEnd {before _ _ _} hsplit := by
    obtain ⟨r, hr, rfl, hdeeds⟩ := h.split hsplit
    obtain ⟨-, since, hbefore, -⟩ := Run.deeds_eq_append_writes hdeeds
    have hmem : (r.pid, Deed.opens r.path .append) ∈ before.filter fun step => step.1 = r.pid := by
      rw [hbefore, happend r hr]
      exact List.mem_cons_self
    exact .inl ⟨r.path, (List.mem_filter.mp hmem).1⟩

end Interleaves

/-- Runs one after another interleave in this way, too. -/
theorem interleaves_flatMap (hpids : (runs.map Run.pid).Nodup) : Interleaves (runs.flatMap Run.deeds) runs where
  ofRun step hstep := by
    obtain ⟨r, hr, hmem⟩ := List.mem_flatMap.mp hstep
    exact ⟨r, hr, Run.pid_of_mem_deeds hmem⟩
  each := by
    induction runs with
    | nil => exact nofun
    | cons first rest ih =>
      rw [List.map_cons, List.nodup_cons] at hpids
      have hall {r : Run} {pid : Pid} (h : r.pid = pid) : r.deeds.filter (fun step => step.1 = pid) = r.deeds :=
        List.filter_eq_self.mpr fun step hstep => decide_eq_true ((Run.pid_of_mem_deeds hstep).trans h)
      have hnone {r : Run} {pid : Pid} (h : r.pid ≠ pid) : r.deeds.filter (fun step => step.1 = pid) = [] :=
        List.filter_eq_nil_iff.mpr fun step hstep heq => h ((Run.pid_of_mem_deeds hstep).symm.trans (of_decide_eq_true heq))
      intro r hr
      rw [List.flatMap_cons, List.filter_append]
      obtain rfl | hr := List.mem_cons.mp hr
      · rw [hall rfl, List.filter_flatMap, List.flatMap_eq_nil_iff.mpr, List.append_nil]
        exact fun other hother => hnone fun heq => hpids.1 (List.mem_map.mpr ⟨other, hother, heq⟩)
      · have hne : first.pid ≠ r.pid := fun heq => hpids.1 (List.mem_map.mpr ⟨r, hr, heq.symm⟩)
        rw [hnone hne, List.nil_append]
        exact ih hpids.2 r hr

theorem AtEnd.append_left (h : before.AtEnd pid) (earlier : Deeds) : AtEnd (earlier ++ before) pid := by
  obtain ⟨path, hmem⟩ | ⟨first, path, since, rfl, hsince⟩ := h
  · exact .inl ⟨path, List.mem_append_right earlier hmem⟩
  · exact .inr ⟨earlier ++ first, path, since, (List.append_assoc _ _ _).symm, hsince⟩

/-- In a single run every write is made at the end. -/
theorem atEnd_of_deeds {chunk : Bytes} (h : r.deeds = before ++ (pid, .writes chunk) :: after) : before.AtEnd pid := by
  obtain ⟨rfl, since, rfl, hsince⟩ := Run.deeds_eq_append_writes h
  cases hmode : r.mode with
  | append => exact .inl ⟨r.path, List.mem_cons_self⟩
  | truncate => exact .inr ⟨[], r.path, since, rfl, fun step hstep => .inl (hsince step hstep)⟩

theorem atEnd_of_flatMap {chunk : Bytes} (h : runs.flatMap Run.deeds = before ++ (pid, .writes chunk) :: after) :
    before.AtEnd pid := by
  induction runs generalizing before with
  | nil => cases before <;> nomatch h
  | cons r rest ih =>
    rw [List.flatMap_cons, List.append_eq_append_iff] at h
    obtain ⟨later, rfl, hlater⟩ | ⟨tail, hdeeds, htail⟩ := h
    · exact (ih hlater).append_left r.deeds
    · cases tail with
      | nil =>
        have hrest : rest.flatMap Run.deeds = [] ++ (pid, .writes chunk) :: after := htail.symm
        rw [← List.append_nil before]
        exact (ih hrest).append_left before
      | cons step tail =>
        obtain ⟨rfl, -⟩ := List.cons.inj htail
        exact atEnd_of_deeds hdeeds

/-- Runs one after another make an orderly history, whatever their modes. -/
theorem orderly_flatMap (hpids : (runs.map Run.pid).Nodup) : Orderly (runs.flatMap Run.deeds) where
  opensFirst := (interleaves_flatMap hpids).opensFirst
  writesAtEnd := atEnd_of_flatMap

/-! ## What runs add up to -/

theorem contents_append (data : Bytes) (before after : Deeds) :
    contents data (before ++ after) = contents (contents data before) after := List.foldl_append

theorem contents_writes (data : Bytes) (pid : Pid) (chunks : List Bytes) :
    contents data (chunks.map fun chunk => (pid, .writes chunk)) = data ++ chunks.flatten := by
  induction chunks generalizing data with
  | nil => exact (List.append_nil data).symm
  | cons chunk rest ih => exact (ih (data ++ chunk)).trans (List.append_assoc _ _ _)

theorem contents_deeds (data : Bytes) (r : Run) :
    contents data r.deeds = (if r.mode = .truncate then [] else data) ++ r.written := contents_writes _ r.pid r.chunks

/-- Runs one after another that append add what they write. -/
theorem contents_of_append (happend : ∀ r ∈ runs, r.mode = .append) (data : Bytes) :
    contents data (runs.flatMap Run.deeds) = data ++ runs.flatMap Run.written := by
  induction runs generalizing data with
  | nil => exact (List.append_nil data).symm
  | cons r rest ih =>
    rw [List.forall_mem_cons] at happend
    rw [List.flatMap_cons, List.flatMap_cons, contents_append, contents_deeds, happend.1, ih happend.2, if_neg nofun,
      List.append_assoc]

/-- After one that truncates there is nothing from before. -/
theorem contents_of_truncate {earlier later : List Run} (htruncate : r.mode = .truncate) (happend : ∀ r ∈ later, r.mode = .append)
    (data : Bytes) : contents data ((earlier ++ r :: later).flatMap Run.deeds) = (r :: later).flatMap Run.written := by
  rw [List.flatMap_append, List.flatMap_cons, List.flatMap_cons, contents_append, contents_append, contents_deeds, htruncate,
    contents_of_append happend, if_pos rfl, List.nil_append]

/-- Runs that append add what they write however they overlap, in the order in which it is written. -/
theorem Interleaves.contents_of_append (h : history.Interleaves runs) (happend : ∀ r ∈ runs, r.mode = .append) (data : Bytes) :
    history.contents data = data ++ history.written := by
  have hopens : ∀ step ∈ history, ∀ data, step.2.contents data = data ++ step.2.chunk := by
    intro step hstep data
    obtain ⟨r, hr, -, hdeed⟩ := h.mem_deeds hstep
    obtain rfl | ⟨chunk, rfl⟩ := Run.mem_deeds hdeed
    · rw [happend r hr]
      exact (List.append_nil data).symm
    · rfl
  clear h
  induction history generalizing data with
  | nil => exact (List.append_nil data).symm
  | cons step rest ih =>
    rw [List.forall_mem_cons] at hopens
    refine (ih (step.2.contents data) hopens.2).trans ?_
    rw [hopens.1, List.append_assoc]
    rfl

end Deeds

/-! ## Doing them -/

namespace Run

open Filesystem Kernel

variable {s t : Kernel} {runs : List Run} {history : Deeds} {files : Filesystem} {n up bits : Nat} {name : String} {old data : Bytes}

theorem Share.setNode (h : Share runs files n bits old) (data : Bytes) : Share runs (files.setNode n (.file bits data)) n bits data where
  node := by
    rw [node?_setNode (List.getElem?_eq_some_iff.mp h.node).1, if_pos rfl]
  paths r hr := by
    obtain ⟨up, name, hpath⟩ := h.paths r hr
    exact ⟨up, name, resolve_setNode h.node bits data rfl hpath⟩

theorem Share.addEntry {d : Directory} (hd : files.directory? up = some d) (h : ∀ r ∈ runs, r.spot files = .ok (.missing up name))
    (bits : Nat) (data : Bytes) : Share runs (files.addEntry up name (.file bits data)).2 files.nodes.length bits data where
  node := node?_added hd
  paths r hr := ⟨up, name, resolve_addEntry hd bits data rfl (h r hr)⟩

/-- Whoever opens the file has a descriptor to spare, and its path leads there. -/
theorem opens_of_fresh (h : history.Interleaves runs) (hfresh : ∀ r ∈ runs, r.Fresh s) (hshare : Share runs files n bits old) (pid : Pid)
    (path : String) (mode : OutputMode) (hmem : (pid, .opens path mode) ∈ history) :
    ∃ task up name, s.task? pid = some task ∧ task.descriptors.lowestFree < Machine.descriptorLimit ∧
      files.resolve task.directory path outputName = .ok (.found n up name) := by
  obtain ⟨r, hr, -, hdeed⟩ := h.mem_deeds hmem
  obtain heq | ⟨chunk, heq⟩ := mem_deeds hdeed
  · cases heq
    obtain ⟨up, name, hpath⟩ := hshare.paths r hr
    exact ⟨r.task, up, name, (hfresh r hr).task, (hfresh r hr).free, hpath⟩
  · nomatch heq

/-- Where the paths lead to a file, that holds in the end what the runs add up to; no other node is changed, and no other process. -/
theorem perform_of_share (h : history.Interleaves runs) (horderly : history.Orderly) (hfresh : ∀ r ∈ runs, r.Fresh s)
    (hshare : Share runs s.machine.files n bits old) :
    ∃ t, (perform history).run.run s = (.ok (), t) ∧
      t.machine.files = s.machine.files.setNode n (.file bits (history.contents old)) ∧
      ∀ pid, (∀ r ∈ runs, r.pid ≠ pid) → t.task? pid = s.task? pid := by
  have hstart : s.Underway s s.machine.files n bits [] old :=
    { toStanding := .nil s n old.length, files_eq := (setNode_self hshare.node).symm }
  have hall : ([] ++ history : Deeds).Orderly := horderly
  obtain ⟨t, ht, hend⟩ := perform_underway hshare.node hall (opens_of_fresh h hfresh hshare) hstart
  exact ⟨t, ht, hend.files_eq, fun pid hpid => hend.waiting (h.pid_ne hpid)⟩

/-- Where they lead to a missing name, the first of them makes a file there. -/
theorem perform_of_missing (h : history.Interleaves runs) (horderly : history.Orderly) (hfresh : ∀ r ∈ runs, r.Fresh s)
    (htakes : s.machine.files.takesNames up = true) (hmissing : ∀ r ∈ runs, r.spot s.machine.files = .ok (.missing up name))
    {first : Run} (hfirst : first ∈ runs) (hhead : history.head?.map Prod.fst = some first.pid) :
    ∃ t, (perform history).run.run s = (.ok (), t) ∧
      t.machine.files =
        (s.machine.files.addEntry up name (.file (masked first.task.mask outputPermissions) (history.contents []))).2 ∧
      ∀ pid, (∀ r ∈ runs, r.pid ≠ pid) → t.task? pid = s.task? pid := by
  obtain ⟨d, hd⟩ := directory?_of_takesNames htakes
  cases history with
  | nil => nomatch hhead
  | cons step rest =>
    obtain rfl := h.head_eq hfirst (Option.some.inj hhead)
    have hshare := Share.addEntry hd hmissing (masked first.task.mask outputPermissions) []
    obtain ⟨t, ht, hfiles, hopened, htasks⟩ := run_opens (hfresh first hfirst).task
      (openFile_of_missing first.mode htakes (hmissing first hfirst)) hshare.node (hfresh first hfirst).free
    have hopening : t.Standing s s.machine.files.nodes.length [(first.pid, .opens first.path first.mode)]
        (if first.mode = .truncate then 0 else 0) := (Standing.nil s _ 0).opens nofun hopened htasks
    rw [ite_self] at hopening
    have hstart : t.Underway s _ _ _ [(first.pid, .opens first.path first.mode)] [] :=
      { toStanding := hopening, files_eq := hfiles.trans (setNode_self hshare.node).symm }
    obtain ⟨u, hu, hend⟩ := perform_underway hshare.node horderly
      (fun pid path mode hmem => opens_of_fresh h hfresh hshare pid path mode (List.mem_cons_of_mem _ hmem)) hstart
    refine ⟨u, (perform_cons (hfresh first hfirst).task ht rest).trans hu, ?_, fun pid hpid => hend.waiting (h.pid_ne hpid)⟩
    have hempty : (Deed.opens first.path first.mode).contents [] = [] := ite_self []
    rw [hend.files_eq, setNode_addEntry hd, Deeds.contents, Deeds.contents, List.foldl_cons, hempty]

end Run

/-- Take runs from fresh processes, either one after another or all appending and overlapping in any way; every redirection and every
write goes through. If their paths lead to a file, that keeps its permission bits and holds what the runs add up to. If they lead to a
name that is missing in a directory, that name is given to a file, which holds the same, from nothing on, and has the bits 0666 without
those of the first process's mask. No other node changes, and no process besides these, so that more runs can follow. Runs one after
another add up to the initial contents and all that is written, if all append, and otherwise to what is written from the last one on
that truncates; runs that append and overlap, to the initial contents and all chunks in the order in which they are written. -/
theorem Redirect.output_over_runs (s : Kernel) (runs : List Run) (history : Deeds) (hpids : (runs.map Run.pid).Nodup)
    (hfresh : ∀ r ∈ runs, r.Fresh s)
    (hhistory : history = runs.flatMap Run.deeds ∨ history.Interleaves runs ∧ ∀ r ∈ runs, r.mode = .append) :
    (∀ n bits initial, Run.Share runs s.machine.files n bits initial →
      ∃ t, (Kernel.perform history).run.run s = (.ok (), t) ∧ Run.Share runs t.machine.files n bits (history.contents initial) ∧
        t.machine.files = s.machine.files.setNode n (.file bits (history.contents initial)) ∧
        ∀ pid, (∀ r ∈ runs, r.pid ≠ pid) → t.task? pid = s.task? pid) ∧
    (∀ up name first, s.machine.files.takesNames up = true → (∀ r ∈ runs, r.spot s.machine.files = .ok (.missing up name)) →
      first ∈ runs → history.head?.map Prod.fst = some first.pid →
        ∃ t bits, (Kernel.perform history).run.run s = (.ok (), t) ∧
          Run.Share runs t.machine.files s.machine.files.nodes.length bits (history.contents []) ∧
          t.machine.files = (s.machine.files.addEntry up name (.file bits (history.contents []))).2 ∧
          (∀ pid, (∀ r ∈ runs, r.pid ≠ pid) → t.task? pid = s.task? pid) ∧
          ∀ i, bits.testBit i = (Nat.testBit 0o666 i && !first.task.mask.testBit i)) ∧
    (history = runs.flatMap Run.deeds → ∀ initial,
      ((∀ r ∈ runs, r.mode = .append) → history.contents initial = initial ++ runs.flatMap Run.written) ∧
      ∀ earlier r later, runs = earlier ++ r :: later → r.mode = .truncate → (∀ after ∈ later, after.mode = .append) →
        history.contents initial = (r :: later).flatMap Run.written) ∧
    ((∀ r ∈ runs, r.mode = .append) → ∀ initial, history.contents initial = initial ++ history.written) := by
  have hinterleaves : history.Interleaves runs := by
    obtain rfl | ⟨h, -⟩ := hhistory
    · exact Deeds.interleaves_flatMap hpids
    · exact h
  have horderly : history.Orderly := by
    obtain rfl | ⟨h, happend⟩ := hhistory
    · exact Deeds.orderly_flatMap hpids
    · exact h.orderly_of_append happend
  refine ⟨fun n bits initial hshare => ?_, fun up name first htakes hmissing hfirst hhead => ?_, ?_,
    hinterleaves.contents_of_append⟩
  · obtain ⟨t, ht, hfiles, hothers⟩ := Run.perform_of_share hinterleaves horderly hfresh hshare
    exact ⟨t, ht, hfiles ▸ hshare.setNode _, hfiles, hothers⟩
  · obtain ⟨t, ht, hfiles, hothers⟩ := Run.perform_of_missing hinterleaves horderly hfresh htakes hmissing hfirst hhead
    obtain ⟨d, hd⟩ := Filesystem.directory?_of_takesNames htakes
    exact ⟨t, _, ht, hfiles ▸ Run.Share.addEntry hd hmissing _ _, hfiles, hothers, Filesystem.testBit_masked (by decide) _⟩
  · rintro rfl initial
    refine ⟨fun happend => Deeds.contents_of_append happend initial, ?_⟩
    rintro earlier r later rfl htruncate happend
    exact Deeds.contents_of_truncate htruncate happend initial

/-- A process with a mask, and one whose lowest free descriptor is 1. -/
def loggers : List Task := [{ pid := 2, mask := 0o022 }, { pid := 3, descriptors := ⟨[some (.readEnd 0)]⟩ }]

/-- A machine with these and with a file that holds one byte. -/
def logKernel : Kernel where
  machine := {
    files := ⟨[.directory { mode := 0o755, parent := 0, entries := [("log", 1)] }, .file 0o600 [1]]⟩
    pipes := [[]]
    processes := loggers.map fun task => { task, parent := 1 } }

/-- A run of each of them, the first of which appends. -/
def logRuns (name : String) (mode : OutputMode) : List Run :=
  [⟨loggers[0], name, .append, [[2], [3]]⟩, ⟨loggers[1], name, mode, [[4]]⟩]

/-- The second opens and writes while the first is at work. -/
def logOverlap (name : String) : Deeds :=
  [(2, .opens name .append), (3, .opens name .append), (2, .writes [2]), (3, .writes [4]), (2, .writes [3])]

theorem interleaves_logOverlap (name : String) : (logOverlap name).Interleaves (logRuns name .append) where
  ofRun step hstep := by
    simp only [logOverlap, List.mem_cons, List.not_mem_nil, or_false] at hstep
    rcases hstep with rfl | rfl | rfl | rfl | rfl <;> simp [logRuns, loggers, Run.pid]
  each r hr := by
    simp only [logRuns, List.mem_cons, List.not_mem_nil, or_false] at hr
    rcases hr with rfl | rfl <;> rfl

/-- Runs that overlap add to the file, or make it, without a bit that is masked; one after another, the second truncates what the first
has written. -/
theorem Redirect.output_over_runs_log :
    (∃ t, (Kernel.perform (logOverlap "log")).run.run logKernel = (.ok (), t) ∧
      t.machine.files.node? 1 = some (.file 0o600 [1, 2, 4, 3])) ∧
    (∃ t bits, (Kernel.perform (logOverlap "new")).run.run logKernel = (.ok (), t) ∧
      t.machine.files.node? 2 = some (.file bits [2, 4, 3]) ∧ bits.testBit 4 = false ∧ bits.testBit 5 = true) ∧
    ∃ t, (Kernel.perform ((logRuns "log" .truncate).flatMap Run.deeds)).run.run logKernel = (.ok (), t) ∧
      t.machine.files.node? 1 = some (.file 0o600 [4]) := by
  have hpids (name : String) (mode : OutputMode) : ((logRuns name mode).map Run.pid).Nodup := by
    show [2, 3].Nodup
    decide
  have hruns {P : Run → Prop} {name : String} {mode : OutputMode} (hfirst : P ⟨loggers[0], name, .append, [[2], [3]]⟩)
      (hsecond : P ⟨loggers[1], name, mode, [[4]]⟩) : ∀ r ∈ logRuns name mode, P r := by
    simpa [logRuns] using And.intro hfirst hsecond
  have hfirst : loggers[0].descriptors.lowestFree < Machine.descriptorLimit := by decide
  have hsecond : loggers[1].descriptors.lowestFree < Machine.descriptorLimit := by decide
  have hfresh (name : String) (mode : OutputMode) : ∀ r ∈ logRuns name mode, r.Fresh logKernel :=
    hruns ⟨rfl, hfirst⟩ ⟨rfl, hsecond⟩
  have happend (name : String) : ∀ r ∈ logRuns name .append, r.mode = .append := hruns rfl rfl
  have hlog (mode : OutputMode) : Run.Share (logRuns "log" mode) logKernel.machine.files 1 0o600 [1] :=
    ⟨rfl, hruns ⟨0, "log", by cbv⟩ ⟨0, "log", by cbv⟩⟩
  have hoverlap (name : String) := output_over_runs logKernel (logRuns name .append) (logOverlap name) (hpids name .append)
    (hfresh name .append) (.inr ⟨interleaves_logOverlap name, happend name⟩)
  refine ⟨?_, ?_, ?_⟩
  · obtain ⟨t, ht, hshare, -⟩ := (hoverlap "log").1 1 0o600 [1] (hlog .append)
    exact ⟨t, ht, hshare.node⟩
  · obtain ⟨t, bits, ht, hshare, -, -, hbits⟩ := (hoverlap "new").2.1 0 "new" ⟨loggers[0], "new", .append, [[2], [3]]⟩ (by decide)
      (hruns (by cbv) (by cbv)) List.mem_cons_self rfl
    exact ⟨t, bits, ht, hshare.node, hbits 4, hbits 5⟩
  · obtain ⟨t, ht, hshare, -⟩ := (output_over_runs logKernel (logRuns "log" .truncate) _ (hpids "log" .truncate)
      (hfresh "log" .truncate) (.inl rfl)).1 1 0o600 [1] (hlog .truncate)
    exact ⟨t, ht, hshare.node⟩

end PipelineShell
