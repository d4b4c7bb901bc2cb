import PipelineShell.Proofs.Machine.OutputFile

/-!
# Many processes that write to one file

Processes send their standard output to a file and write to it, each in its turn. A write goes to the end of the file if the writer has
opened it to append, or if nobody else has written to it since the writer has truncated it; a history in which every write is one of
these leaves what its writes add up to (`Kernel.perform_underway`).
-/

namespace PipelineShell

open Function Redirect

/-- What a process does about its standard output. -/
inductive Deed where
  /-- It is sent to a file. -/
  | opens (path : String) (mode : OutputMode)
  /-- It is written to. -/
  | writes (chunk : Bytes)

/-- The calls that this takes. -/
def Deed.call : Deed → Call Kernel Unit
  | .opens path mode => Redirect.output Kernel.host path mode
  | .writes chunk => do let _ ← Kernel.call (Machine.write standardOutput chunk)

/-- What it makes of the contents of the file, if it is done at the end of it. -/
def Deed.contents (data : Bytes) : Deed → Bytes
  | .opens _ mode => if mode = .truncate then [] else data
  | .writes chunk => data ++ chunk

/-- What it writes. -/
def Deed.chunk : Deed → Bytes
  | .opens _ _ => []
  | .writes chunk => chunk

/-- What processes do in order. -/
abbrev Deeds := List (Pid × Deed)

namespace Deeds

/-- What they make of the contents of the file. -/
def contents (data : Bytes) (history : Deeds) : Bytes := history.foldl (fun data step => step.2.contents data) data

/-- All that is written, in order. -/
def written (history : Deeds) : Bytes := history.flatMap fun step => step.2.chunk

end Deeds

namespace Kernel

/-- The task of a process that has not ended. -/
def task? (s : Kernel) (pid : Pid) : Option Task := ((s.machine.process? pid).filter (·.fate?.isNone)).map Process.task

/-- Lets a process with a task make a call, in a turn of its own. -/
def inTurn {α : Type} (task : Task) (c : Call Kernel α) : Call Kernel α := ExceptT.mk do
  modify fun s => s.withMachine (s.machine.enter task)
  let result ← c.run
  modify fun s => s.withMachine s.machine.leave
  return result

/-- Lets processes do something in order. It stops at a call that fails, or at a process that has ended. -/
def perform : Deeds → Call Kernel Unit
  | [] => return ()
  | (pid, deed) :: rest => do
    match (← get).task? pid with
    | none => throw .noChild
    | some task =>
      inTurn task deed.call
      perform rest

end Kernel

/-! ## One turn -/

theorem Machine.process?_modifyProcess (m : Machine) {pid : Pid} {f : Process → Process} (hf : ∀ p, p.pid = pid → (f p).pid = pid)
    (q : Pid) : (m.modifyProcess pid f).process? q = (m.process? q).map fun p => if p.pid = pid then f p else p := by
  have hsame (p : Process) : (if p.pid = pid then f p else p).pid = p.pid := by
    split
    · rename_i hp
      exact (hf p hp).trans hp.symm
    · rfl
  show List.find? _ (m.processes.map _) = _
  rw [List.find?_map]
  congr 2
  funext p
  exact congrArg (decide <| · = q) (hsame p)

/-- A process with what has been made of its task, unless it has ended. -/
def Process.resumed (p : Process) (task : Task) : Process := if p.fate?.isSome then p else { p with task }

theorem Process.resumed_of_running {p : Process} {task : Task} (h : p.fate? = none) : p.resumed task = { p with task } :=
  if_neg (by rw [h]; exact Bool.false_ne_true)

theorem Process.pid_resumed {p : Process} {task : Task} (h : p.pid = task.pid) : (p.resumed task).pid = task.pid := by
  unfold resumed
  split
  · exact h
  · rfl

theorem Machine.leave_of_suspended {m : Machine} {shell : Task} (h : m.suspended = some shell) :
    m.leave = { m.modifyProcess m.self.pid (·.resumed m.self) with self := shell, suspended := none } := by
  rw [leave, h]
  rfl

namespace Kernel

variable {s u : Kernel} {pid : Pid} {task : Task}

theorem task?_eq_some_iff :
    s.task? pid = some task ↔ ∃ p, s.machine.process? pid = some p ∧ p.fate? = none ∧ p.task = task := by
  unfold task?
  simp only [Option.map_eq_some_iff, Option.filter_eq_some_iff, Option.isNone_iff_eq_none, and_assoc]

theorem pid_of_process? {p : Process} (h : s.machine.process? pid = some p) : p.pid = pid := by
  have hfound := List.find?_some h
  exact of_decide_eq_true hfound

theorem task?_congr (h : u.machine.processes = s.machine.processes) : u.task? = s.task? := by
  funext q
  rw [task?, task?, Machine.process?, Machine.process?, h]

/-- A process whose turn has ended has the task that it has been working on, and no other process has changed. -/
theorem task?_leave {shell : Task} (hsuspended : u.machine.suspended = some shell) (htask : u.task? u.machine.self.pid = some task) :
    (u.withMachine u.machine.leave).task? = update u.task? u.machine.self.pid (some u.machine.self) := by
  obtain ⟨p, hp, hfate, -⟩ := task?_eq_some_iff.mp htask
  have hpid : p.pid = u.machine.self.pid := pid_of_process? hp
  have hprocess (q : Pid) : (u.withMachine u.machine.leave).machine.process? q =
      (u.machine.process? q).map fun r => if r.pid = u.machine.self.pid then r.resumed u.machine.self else r := by
    show u.machine.leave.process? q = _
    rw [Machine.leave_of_suspended hsuspended]
    exact u.machine.process?_modifyProcess (fun r => Process.pid_resumed) q
  funext q
  rw [task?, hprocess, update_apply]
  split
  · rename_i hq
    subst hq
    have hfate' : ({ p with task := u.machine.self } : Process).fate? = none := hfate
    rw [hp, Option.map_some, if_pos hpid, Process.resumed_of_running hfate, Option.filter_some, hfate']
    rfl
  · rename_i hq
    rw [task?]
    cases hr : u.machine.process? q with
    | none => rfl
    | some r => rw [Option.map_some, if_neg fun h => hq ((pid_of_process? hr).symm.trans h)]

/-- A call that goes through, and that leaves the processes as they are, is made by the process whose turn it is and by no other. -/
theorem run_inTurn {α : Type} {c : Call Kernel α} {a : α} (htask : s.task? pid = some task)
    (hrun : c.run.run (s.withMachine (s.machine.enter task)) = (.ok a, u)) (hprocesses : u.machine.processes = s.machine.processes)
    (hsuspended : u.machine.suspended = some s.machine.self) (hpid : u.machine.self.pid = task.pid) :
    ∃ t, (inTurn task c).run.run s = (.ok a, t) ∧ t.machine.files = u.machine.files ∧ t.machine.opened = u.machine.opened ∧
      t.task? = update s.task? pid (some u.machine.self) := by
  have htasks := task?_congr hprocesses
  obtain rfl : u.machine.self.pid = pid := by
    obtain ⟨p, hp, -, rfl⟩ := task?_eq_some_iff.mp htask
    exact hpid.trans (pid_of_process? hp)
  refine ⟨u.withMachine u.machine.leave, ?_, ?_, ?_, htasks ▸ task?_leave hsuspended (htasks ▸ htask)⟩
  · show (do
        let result ← c.run
        modify fun s => s.withMachine s.machine.leave
        return result : StateM Kernel (Except Errno α)).run _ = _
    rw [run_bind_of_run hrun]
    rfl
  · show u.machine.leave.files = _
    rw [Machine.leave_of_suspended hsuspended]
    rfl
  · show u.machine.leave.opened = _
    rw [Machine.leave_of_suspended hsuspended]
    rfl

end Kernel

/-! ## Writes at the end of the file -/

/-- Nobody but this process writes or truncates. -/
def Deeds.Undisputed (pid : Pid) (since : Deeds) : Prop := ∀ step ∈ since, step.1 = pid ∨ ∃ path, step.2 = .opens path .append

/-- After so much, a process writes at the end of the file: it appends, or has truncated the file, and since then nobody else has written
to it or truncated it. -/
def Deeds.AtEnd (before : Deeds) (pid : Pid) : Prop :=
  (∃ path, (pid, .opens path .append) ∈ before) ∨
    ∃ earlier path since, before = earlier ++ (pid, .opens path .truncate) :: since ∧ Undisputed pid since

/-- Every process opens the file before it does anything else, and all writes are made at the end of the file. -/
structure Deeds.Orderly (history : Deeds) : Prop where
  opensFirst {before after : Deeds} {pid : Pid} {path : String} {mode : OutputMode} :
    history = before ++ (pid, .opens path mode) :: after → ∀ step ∈ before, step.1 ≠ pid
  writesAtEnd {before after : Deeds} {pid : Pid} {chunk : Bytes} :
    history = before ++ (pid, .writes chunk) :: after → before.AtEnd pid

/-- Descriptor 1 of a process refers to this opened file. -/
def Kernel.WritesTo (s : Kernel) (pid : Pid) (file : OpenFile) : Prop :=
  ∃ task k, s.task? pid = some task ∧ task.descriptors.get? standardOutput = some (.file k) ∧ s.machine.opened[k]? = some file

/-- A kernel in which processes have done so much, from another one on, and the file has this length now. Who has done nothing yet is what
it was; who appends does so still; who has truncated the file and is not disputed stands at its end. -/
structure Kernel.Standing (s start : Kernel) (n : Nat) (before : Deeds) (length : Nat) : Prop where
  waiting {pid : Pid} : (∀ step ∈ before, step.1 ≠ pid) → s.task? pid = start.task? pid
  appending {pid : Pid} {path : String} : (pid, .opens path .append) ∈ before →
    ∃ offset, s.WritesTo pid { node := n, access := .readWrite, append := true, offset }
  truncated {earlier since : Deeds} {pid : Pid} {path : String} : before = earlier ++ (pid, .opens path .truncate) :: since →
    since.Undisputed pid → s.WritesTo pid { node := n, access := .readWrite, append := false, offset := length }

/-- Besides, the filesystem is what it was but for the contents of the file. -/
structure Kernel.Underway (s start : Kernel) (files : Filesystem) (n bits : Nat) (before : Deeds) (data : Bytes) : Prop
    extends s.Standing start n before data.length where
  files_eq : s.machine.files = files.setNode n (.file bits data)

namespace Kernel

variable {start s t : Kernel} {files : Filesystem} {n up bits k : Nat} {name path : String} {before rest : Deeds} {data chunk : Bytes}
  {pid q : Pid} {task : Task} {mode : OutputMode} {file file' : OpenFile}

/-- One more step is done at the end, or the steps before have been the same. -/
theorem snoc_eq_append_cons {x y : Pid × Deed} {earlier since : Deeds} (h : before ++ [x] = earlier ++ y :: since) :
    (since = [] ∧ before = earlier ∧ x = y) ∨ ∃ since', since = since' ++ [x] ∧ before = earlier ++ y :: since' := by
  rcases List.eq_nil_or_concat since with rfl | ⟨since', last, rfl⟩
  · obtain ⟨hbefore, hlast⟩ := List.append_inj' h rfl
    exact .inl ⟨rfl, hbefore, List.singleton_inj.mp hlast⟩
  · rw [List.concat_eq_append] at h ⊢
    rw [← List.cons_append, ← List.append_assoc] at h
    obtain ⟨hbefore, hlast⟩ := List.append_inj' h rfl
    rw [List.singleton_inj.mp hlast]
    exact .inr ⟨since', rfl, hbefore⟩

/-- What others open makes no difference to a process. -/
theorem WritesTo.of_opened (h : s.WritesTo q file) {added : List OpenFile} (hopened : t.machine.opened = s.machine.opened ++ added)
    (htask : t.task? q = s.task? q) : t.WritesTo q file := by
  obtain ⟨task, k, hq, hout, hk⟩ := h
  refine ⟨task, k, htask.trans hq, hout, ?_⟩
  rw [hopened, List.getElem?_append_left (List.getElem?_eq_some_iff.mp hk).1, hk]

/-- Where an opened file has been written to, whoever has it has it at its new offset, and whoever has another has that as it was. -/
theorem WritesTo.of_written (h : s.WritesTo q file') (hk : s.machine.opened[k]? = some file) {offset : Nat}
    (hopened : t.machine.opened = s.machine.opened.set k { file with offset }) (htask : t.task? q = s.task? q) :
    t.WritesTo q file' ∨ file' = file ∧ t.WritesTo q { file with offset } := by
  obtain ⟨task, j, hq, hout, hj⟩ := h
  by_cases hjk : k = j
  · subst hjk
    refine .inr ⟨Option.some.inj (hj.symm.trans hk), task, k, htask.trans hq, hout, ?_⟩
    rw [hopened, List.getElem?_set_self (List.getElem?_eq_some_iff.mp hk).1]
  · refine .inl ⟨task, j, htask.trans hq, hout, ?_⟩
    rw [hopened, List.getElem?_set_ne hjk, hj]

/-- There is one such file. -/
theorem WritesTo.unique (h : s.WritesTo q file) (h' : s.WritesTo q file') : file = file' := by
  obtain ⟨task, k, hq, hout, hk⟩ := h
  obtain ⟨task', k', hq', hout', hk'⟩ := h'
  obtain rfl : task = task' := Option.some.inj (hq.symm.trans hq')
  obtain rfl : k = k' := Handle.file.inj (Option.some.inj (hout.symm.trans hout'))
  exact Option.some.inj (hk.symm.trans hk')

/-- Where the file can be opened a process does so in its turn. -/
theorem run_opens (htask : s.task? pid = some task)
    (hopen : s.machine.files.openFile task.directory task.mask path (outputFlags mode) outputPermissions = .ok (n, files))
    (hfile : files.node? n = some (.file bits data)) (hfree : task.descriptors.lowestFree < Machine.descriptorLimit) :
    ∃ t, (inTurn task (Deed.opens path mode).call).run.run s = (.ok (), t) ∧ t.machine.files = files ∧
      t.machine.opened = s.machine.opened ++ [{ node := n, access := .readWrite, append := mode = .append }] ∧
      t.task? = update s.task? pid
        (some { task with descriptors := task.descriptors.rebound (.file s.machine.opened.length) }) := by
  have hrun := Redirect.run_output (s := s.withMachine (s.machine.enter task)) hopen hfile hfree
  exact run_inTurn htask hrun rfl rfl rfl

/-- At the end of the file it writes in its turn. -/
theorem run_writes (htask : s.task? pid = some task) (hout : task.descriptors.get? standardOutput = some (.file k))
    (hopened : s.machine.opened[k]? = some file) (hfile : s.machine.files.node? file.node = some (.file bits data))
    (haccess : file.access = .readWrite) (hdirect : file.direct = false) (hend : file.append = true ∨ file.offset = data.length)
    (chunk : Bytes) :
    ∃ t, (inTurn task (Deed.writes chunk).call).run.run s = (.ok (), t) ∧
      t.machine.files = s.machine.files.setNode file.node (.file bits (data ++ chunk)) ∧
      t.machine.opened = s.machine.opened.set k { file with offset := data.length + chunk.length } ∧
      t.task? = s.task? := by
  have hwrite := run_call (s := s.withMachine (s.machine.enter task))
    (Machine.run_write_at_end chunk hout hopened hfile haccess hdirect hend)
  have hrun : (Deed.writes chunk).call.run.run (s.withMachine (s.machine.enter task)) = (.ok (), (s.withMachine _).withMachine _) :=
    run_bind_ok hwrite _
  obtain ⟨t, ht, hfiles, hset, htasks⟩ := run_inTurn htask hrun rfl rfl rfl
  exact ⟨t, ht, hfiles, hset, htasks.trans (htask ▸ update_eq_self pid s.task?)⟩

theorem Standing.nil (s : Kernel) (n length : Nat) : s.Standing s n [] length where
  waiting _ := rfl
  appending := nofun
  truncated {earlier _ _ _} hnil := by cases earlier <;> nomatch hnil

/-- A process that has done nothing yet has opened the file. -/
theorem Standing.opens {length : Nat} (h : s.Standing start n before length) (hnew : ∀ step ∈ before, step.1 ≠ pid)
    (hopened : t.machine.opened = s.machine.opened ++ [{ node := n, access := .readWrite, append := mode = .append }])
    (htasks : t.task? = update s.task? pid
      (some { task with descriptors := task.descriptors.rebound (.file s.machine.opened.length) })) :
    t.Standing start n (before ++ [(pid, .opens path mode)]) (if mode = .truncate then 0 else length) := by
  have hother {q : Pid} (hq : q ≠ pid) : t.task? q = s.task? q := by
    rw [htasks, update_of_ne hq]
  have hwriter : t.WritesTo pid { node := n, access := .readWrite, append := mode = .append } := by
    refine ⟨_, s.machine.opened.length, by rw [htasks, update_self], Descriptors.get?_rebound _ _, ?_⟩
    rw [hopened]
    exact List.getElem?_concat_length
  refine ⟨fun hq => ?_, fun {q path'} hmem => ?_, fun {earlier since q path'} hbefore hsince => ?_⟩
  · have hne := hq _ (List.mem_append_right before List.mem_cons_self)
    exact (hother hne.symm).trans (h.waiting fun step hstep => hq step (List.mem_append_left _ hstep))
  · rcases List.mem_append.mp hmem with hmem | hmem
    · obtain ⟨offset, hwrites⟩ := h.appending hmem
      exact ⟨offset, hwrites.of_opened hopened (hother (hnew _ hmem))⟩
    · cases List.mem_singleton.mp hmem
      exact ⟨0, hwriter⟩
  · obtain ⟨rfl, -, hstep⟩ | ⟨since, rfl, rfl⟩ := snoc_eq_append_cons hbefore
    · cases hstep
      exact hwriter
    · -- a process that has truncated the file is not the one that opens it now, so this one appends
      have hne : q ≠ pid := hnew (q, .opens path' .truncate) (List.mem_append_right earlier List.mem_cons_self)
      obtain hsame | ⟨_, happend⟩ := hsince _ (List.mem_append_right since List.mem_cons_self)
      · exact absurd hsame.symm hne
      · cases happend
        exact (h.truncated rfl fun step hstep => hsince step (List.mem_append_left _ hstep)).of_opened hopened (hother hne)

/-- A process has written to the end of the file. -/
theorem Standing.writes {length : Nat} (h : s.Standing start n before length) (htask : s.task? pid = some task)
    (hout : task.descriptors.get? standardOutput = some (.file k)) (hk : s.machine.opened[k]? = some file)
    (hopened : t.machine.opened = s.machine.opened.set k { file with offset := length + chunk.length }) (htasks : t.task? = s.task?) :
    t.Standing start n (before ++ [(pid, .writes chunk)]) (length + chunk.length) := by
  have hsame (q : Pid) : t.task? q = s.task? q := congrFun htasks q
  refine ⟨fun hq => ?_, fun {q path'} hmem => ?_, fun {earlier since q path'} hbefore hsince => ?_⟩
  · exact (hsame _).trans (h.waiting fun step hstep => hq step (List.mem_append_left _ hstep))
  · rcases List.mem_append.mp hmem with hmem | hmem
    · obtain ⟨offset, hwrites⟩ := h.appending hmem
      obtain hkept | ⟨rfl, hmoved⟩ := hwrites.of_written hk hopened (hsame q)
      · exact ⟨offset, hkept⟩
      · exact ⟨_, hmoved⟩
    · nomatch List.mem_singleton.mp hmem
  · obtain ⟨-, -, hstep⟩ | ⟨since, rfl, rfl⟩ := snoc_eq_append_cons hbefore
    · nomatch hstep
    · -- whoever is not disputed by this write has made it
      obtain rfl | ⟨_, hstep⟩ := hsince _ (List.mem_append_right since List.mem_cons_self)
      · have hwrites := h.truncated rfl fun step hstep => hsince step (List.mem_append_left _ hstep)
        obtain rfl := hwrites.unique ⟨task, k, htask, hout, hk⟩
        refine ⟨task, k, (hsame _).trans htask, hout, ?_⟩
        rw [hopened, List.getElem?_set_self (List.getElem?_eq_some_iff.mp hk).1]
      · nomatch hstep

namespace Underway

theorem node?_eq (h : s.Underway start files n bits before data) (hlt : n < files.nodes.length) :
    s.machine.files.node? n = some (.file bits data) := by
  rw [h.files_eq, Filesystem.node?_setNode hlt, if_pos rfl]

/-- A process that has done nothing yet opens the file. -/
theorem opens (h : s.Underway start files n bits before data) {old : Bytes} (hold : files.node? n = some (.file bits old))
    (hnew : ∀ step ∈ before, step.1 ≠ pid) (htask : start.task? pid = some task)
    (hfree : task.descriptors.lowestFree < Machine.descriptorLimit)
    (hpath : files.resolve task.directory path outputName = .ok (.found n up name)) :
    ∃ t, (inTurn task (Deed.opens path mode).call).run.run s = (.ok (), t) ∧
      t.Underway start files n bits (before ++ [(pid, .opens path mode)]) ((Deed.opens path mode).contents data) := by
  have hlt : n < files.nodes.length := (List.getElem?_eq_some_iff.mp hold).1
  have hspot : s.machine.files.resolve task.directory path outputName = .ok (.found n up name) := by
    rw [h.files_eq]
    exact Filesystem.resolve_setNode hold bits data rfl hpath
  let emptied : Node := .file bits (if mode = .truncate then [] else data)
  have hopen : s.machine.files.openFile task.directory task.mask path (outputFlags mode) outputPermissions =
      .ok (n, files.setNode n emptied) := by
    rw [Filesystem.openFile_of_found mode (h.node?_eq hlt) hspot, h.files_eq, Filesystem.setNode_setNode]
  have hnode : (files.setNode n emptied).node? n = some emptied := (Filesystem.node?_setNode hlt n).trans (if_pos rfl)
  obtain ⟨t, ht, hfiles, hopened, htasks⟩ := run_opens ((h.waiting hnew).trans htask) hopen hnode hfree
  refine ⟨t, ht, { files_eq := hfiles, toStanding := ?_ }⟩
  rw [Deed.contents, apply_ite List.length]
  exact h.toStanding.opens hnew hopened htasks

/-- A process that is at the end of the file writes to it. -/
theorem writes (h : s.Underway start files n bits before data) (hlt : n < files.nodes.length) (hend : before.AtEnd pid)
    (chunk : Bytes) :
    ∃ task t, s.task? pid = some task ∧ (inTurn task (Deed.writes chunk).call).run.run s = (.ok (), t) ∧
      t.Underway start files n bits (before ++ [(pid, .writes chunk)]) ((Deed.writes chunk).contents data) := by
  obtain ⟨file, ⟨task, k, htask, hout, hk⟩, hnode, haccess, hdirect, hend⟩ : ∃ file, s.WritesTo pid file ∧ file.node = n ∧
      file.access = .readWrite ∧ file.direct = false ∧ (file.append = true ∨ file.offset = data.length) := by
    rcases hend with ⟨path, hmem⟩ | ⟨earlier, path, since, hbefore, hsince⟩
    · obtain ⟨offset, hwrites⟩ := h.appending hmem
      exact ⟨_, hwrites, rfl, rfl, rfl, .inl rfl⟩
    · exact ⟨_, h.truncated hbefore hsince, rfl, rfl, rfl, .inr rfl⟩
  subst hnode
  obtain ⟨t, ht, hfiles, hopened, htasks⟩ := run_writes htask hout hk (h.node?_eq hlt) haccess hdirect hend chunk
  rw [h.files_eq, Filesystem.setNode_setNode] at hfiles
  refine ⟨task, t, htask, ht, { files_eq := hfiles, toStanding := ?_ }⟩
  rw [Deed.contents, List.length_append]
  exact h.toStanding.writes htask hout hk hopened htasks

end Underway

theorem perform_cons {deed : Deed} (htask : s.task? pid = some task) (hrun : (inTurn task deed.call).run.run s = (.ok (), t))
    (rest : Deeds) : (perform ((pid, deed) :: rest)).run.run s = (perform rest).run.run t := by
  have hget : (get : Call Kernel Kernel).run.run s = (.ok s, s) := rfl
  rw [perform, run_bind_ok hget, htask]
  exact run_bind_ok hrun _

/-- Deeds that go on in an orderly way from where processes are make of the contents what they add up to. Every process that is still to
open the file has a descriptor to spare, and its path leads there. -/
theorem perform_underway {old : Bytes} (hold : files.node? n = some (.file bits old)) (horderly : (before ++ rest).Orderly)
    (hopens : ∀ pid path mode, (pid, .opens path mode) ∈ rest → ∃ task up name, start.task? pid = some task ∧
      task.descriptors.lowestFree < Machine.descriptorLimit ∧
      files.resolve task.directory path outputName = .ok (.found n up name))
    (h : s.Underway start files n bits before data) :
    ∃ t, (perform rest).run.run s = (.ok (), t) ∧ t.Underway start files n bits (before ++ rest) (rest.contents data) := by
  induction rest generalizing before data s with
  | nil => exact ⟨s, rfl, by rwa [List.append_nil]⟩
  | cons step rest ih =>
    have hlt : n < files.nodes.length := (List.getElem?_eq_some_iff.mp hold).1
    obtain ⟨pid, deed⟩ := step
    have hstep : ∃ task t, s.task? pid = some task ∧ (inTurn task deed.call).run.run s = (.ok (), t) ∧
        t.Underway start files n bits (before ++ [(pid, deed)]) (deed.contents data) := by
      cases deed with
      | writes chunk => exact h.writes hlt (horderly.writesAtEnd rfl) chunk
      | opens path mode =>
        obtain ⟨task, up, name, htask, hfree, hpath⟩ := hopens pid path mode List.mem_cons_self
        have hnew := horderly.opensFirst rfl
        obtain ⟨t, ht, hunderway⟩ := h.opens hold hnew htask hfree hpath
        exact ⟨task, t, (h.waiting hnew).trans htask, ht, hunderway⟩
    obtain ⟨task, t, htask, ht, hunderway⟩ := hstep
    have happend : before ++ [(pid, deed)] ++ rest = before ++ (pid, deed) :: rest := by rw [List.append_assoc]; rfl
    obtain ⟨u, hu, hend⟩ := ih (happend ▸ horderly) (fun pid path mode hmem => hopens pid path mode (List.mem_cons_of_mem _ hmem))
      hunderway
    rw [happend] at hend
    exact ⟨u, (perform_cons htask ht rest).trans hu, hend⟩

end Kernel

end PipelineShell
