import Mathlib.Data.Nat.Bitwise
import PipelineShell.Proofs.Executor.Rebinding
import PipelineShell.Proofs.Machine.Walk

/-!
# Opening and writing an output file

What `Redirect.output` and a write to descriptor 1 do to the machine where the path leads to a regular file, or to a name that such a
file can be made under. Both go through, and neither changes any file but that one.
-/

namespace PipelineShell

/-! ## Permission bits -/

/-- A new node has the bits that are asked for, without those of the mask. -/
theorem Filesystem.testBit_masked {permissions : Nat} (h : permissions < 2 ^ 9) (mask i : Nat) :
    (masked mask permissions).testBit i = (permissions.testBit i && !mask.testBit i) := by
  have hmask : mask % 2 ^ 9 < 2 ^ 12 := Nat.lt_of_lt_of_le (Nat.mod_lt _ (by decide)) (by decide)
  have hbits : masked mask permissions = permissions % 2 ^ 12 &&& (2 ^ 12 - (mask % 2 ^ 9 + 1)) := by
    rw [masked]
    congr 1
    omega
  rw [hbits, Nat.testBit_and, Nat.testBit_two_pow_sub_succ hmask, Nat.testBit_mod_two_pow, Nat.testBit_mod_two_pow]
  by_cases hi : i < 9
  · have hi' : i < 12 := Nat.lt_trans hi (by decide)
    simp [hi, hi']
  · have hzero : permissions.testBit i = false :=
      Nat.testBit_lt_two_pow (Nat.lt_of_lt_of_le h (Nat.pow_le_pow_right (by decide) (Nat.le_of_not_lt hi)))
    simp [hzero]

namespace Redirect

/-- How the last name of the path of an output file is taken: a link is followed, and a file made if there is none. -/
def outputName : Filesystem.LastName := { follow := true, create := true }

theorem contradict_outputFlags (mode : OutputMode) : (outputFlags mode).contradict = false := by
  cases mode <;> rfl

end Redirect

namespace Filesystem

open Redirect

variable {fs : Filesystem} {working mask n up bits : Nat} {path name : String} {data : Bytes}

theorem setNode_self {node : Node} (h : fs.node? n = some node) : fs.setNode n node = fs := by
  obtain ⟨hlt, hnode⟩ := List.getElem?_eq_some_iff.mp h
  rw [setNode, ← hnode, List.set_getElem_self]

theorem setNode_setNode (first second : Node) : (fs.setNode n first).setNode n second = fs.setNode n second := by
  rw [setNode, setNode, setNode, List.set_set]

/-- A file that there is is opened as it is, or emptied. -/
theorem openFile_of_found (mode : OutputMode) (hn : fs.node? n = some (.file bits data))
    (hok : fs.resolve working path outputName = .ok (.found n up name)) :
    fs.openFile working mask path (outputFlags mode) outputPermissions =
      .ok (n, fs.setNode n (.file bits (if mode = .truncate then [] else data))) := by
  unfold openFile
  rw [contradict_outputFlags]
  show (fs.resolve working path outputName >>= _) = _
  rw [hok]
  show fs.openFound n (outputFlags mode) = _
  unfold openFound
  rw [hn]
  cases mode with
  | truncate => rfl
  | append => exact congrArg (fun files => Except.ok (n, files)) (setNode_self hn).symm

/-- One that there is not is made, empty. -/
theorem openFile_of_missing (mode : OutputMode) (htakes : fs.takesNames up = true)
    (hok : fs.resolve working path outputName = .ok (.missing up name)) :
    fs.openFile working mask path (outputFlags mode) outputPermissions =
      .ok (fs.addEntry up name (.file (masked mask outputPermissions) [])) := by
  unfold openFile
  rw [contradict_outputFlags]
  show (fs.resolve working path outputName >>= _) = _
  rw [hok]
  exact if_pos ⟨rfl, htakes⟩

end Filesystem

/-! ## Opening -/

/-- A table in which descriptor 1 has been rebound. The descriptor that was opened for it is free again. -/
def Descriptors.rebound (t : Descriptors Handle) (h : Handle) : Descriptors Handle :=
  if t.lowestFree = 1 then t.put 1 h else ((t.put t.lowestFree h).put 1 h).erase t.lowestFree

theorem Descriptors.get?_rebound (t : Descriptors Handle) (h : Handle) : (t.rebound h).get? standardOutput = some h := by
  show (t.rebound h).slot? 1 = some h
  unfold rebound
  split
  · rw [slot?_put, if_pos rfl]
  · rename_i hne
    rw [slot?_erase, if_neg (Ne.symm hne), slot?_put, if_pos rfl]

namespace Machine

open Redirect

variable {m : Machine} {files : Filesystem} {n bits : Nat} {path : String} {data : Bytes} {mode : OutputMode}

/-- The machine with another descriptor table for the running task. -/
def withDescriptors (m : Machine) (descriptors : Descriptors Handle) : Machine := { m with self := { m.self with descriptors } }

/-- The machine with a file that has been opened for output besides the others. -/
def registered (m : Machine) (files : Filesystem) (n : Nat) (mode : OutputMode) : Machine :=
  { m with files, opened := m.opened ++ [{ node := n, access := .readWrite, append := mode = .append }] }

/-- The machine once the running task has such a file as its standard output. -/
def outputOpened (m : Machine) (files : Filesystem) (n : Nat) (mode : OutputMode) : Machine :=
  (m.registered files n mode).withDescriptors (m.self.descriptors.rebound (.file m.opened.length))

/-- The file gets the lowest free descriptor. -/
theorem run_openFile_output
    (hopen : m.files.openFile m.self.directory m.self.mask path (outputFlags mode) outputPermissions = .ok (n, files))
    (hfile : files.node? n = some (.file bits data)) (hfree : m.self.descriptors.lowestFree < descriptorLimit) :
    (openFile path (outputFlags mode) outputPermissions).run.run m =
      (.ok (m.self.descriptors.lowestFree : Fd),
        (m.registered files n mode).withDescriptors
          (m.self.descriptors.put m.self.descriptors.lowestFree (.file m.opened.length))) := by
  have heffective : (outputFlags mode).effective = outputFlags mode := rfl
  unfold openFile
  rw [run_get_bind, heffective, if_neg (Nat.not_le_of_lt hfree), run_lift_bind, hopen]
  dsimp only
  rw [hfile]
  have hregister : (register files n (outputFlags mode)).run.run m = (.ok (.file m.opened.length), m.registered files n mode) := rfl
  refine (run_bind_ok hregister _).trans ?_
  rw [run_install]
  exact if_neg (Nat.not_le_of_lt hfree)

theorem run_dup2_of_open {fd : Fd} {h : Handle} {target : Nat} (hfd : m.handle? fd = some h) (htarget : target < descriptorLimit) :
    (dup2 fd target).run.run m = (.ok (), m.withDescriptors (m.self.descriptors.put target h)) := by
  unfold dup2
  rw [run_get_bind, hfd]
  dsimp only
  split
  · rename_i hlimit
    exact absurd hlimit (Nat.not_le_of_lt htarget)
  · rfl

theorem run_close_of_open {fd : Fd} {h : Handle} (hfd : m.handle? fd = some h) :
    (close fd).run.run m = (.ok (), m.withDescriptors (m.self.descriptors.erase fd.toNat)) := by
  unfold close
  rw [run_get_bind, hfd]
  rfl

end Machine

/-- A kernel with another machine. -/
def Kernel.withMachine (s : Kernel) (machine : Machine) : Kernel := { s with machine }

theorem Kernel.run_call {α : Type} {c : Call Machine α} {s : Kernel} {m : Machine} {r : Except Errno α}
    (h : c.run.run s.machine = (r, m)) : (call c).run.run s = (r, s.withMachine m) := by
  show (fun ran : Except Errno α × Machine => (ran.1, s.withMachine ran.2)) (c.run.run s.machine) = _
  rw [h]

/-- Redirecting output goes through where the file can be opened. -/
theorem Redirect.run_output {s : Kernel} {files : Filesystem} {n bits : Nat} {path : String} {data : Bytes} {mode : OutputMode}
    (hopen : s.machine.files.openFile s.machine.self.directory s.machine.self.mask path (outputFlags mode) outputPermissions =
      .ok (n, files))
    (hfile : files.node? n = some (.file bits data)) (hfree : s.machine.self.descriptors.lowestFree < Machine.descriptorLimit) :
    (output Kernel.host path mode).run.run s = (.ok (), s.withMachine (s.machine.outputOpened files n mode)) := by
  have hopened := Kernel.run_call (Machine.run_openFile_output hopen hfile hfree)
  rw [Machine.outputOpened, Descriptors.rebound]
  generalize s.machine.self.descriptors = t at *
  generalize Handle.file s.machine.opened.length = h at *
  generalize hfd : t.lowestFree = fd at *
  generalize s.machine.registered files n mode = m at *
  by_cases hone : fd = 1
  · subst hone
    rw [if_pos rfl]
    exact stream_of_opened_same hopened
  · have hne : (fd : Fd) ≠ standardOutput := fun h => hone (Int.ofNat.inj h)
    have hdup : (Kernel.host.dup2 fd standardOutput).run.run (s.withMachine (m.withDescriptors (t.put fd h))) =
        (.ok (), s.withMachine (m.withDescriptors ((t.put fd h).put 1 h))) := by
      refine Kernel.run_call (Machine.run_dup2_of_open ?_ (by decide))
      exact (Descriptors.slot?_put t fd fd h).trans (if_pos rfl)
    have hclose : (Kernel.host.close fd).run.run (s.withMachine (m.withDescriptors ((t.put fd h).put 1 h))) =
        (.ok (), s.withMachine (m.withDescriptors (((t.put fd h).put 1 h).erase fd))) := by
      refine Kernel.run_call (Machine.run_close_of_open (h := h) ?_)
      show ((t.put fd h).put 1 h).slot? fd = _
      rw [Descriptors.slot?_put, if_neg hone, Descriptors.slot?_put, if_pos rfl]
    rw [if_neg hone]
    exact stream_of_opened_other hne hopened hdup hclose

/-! ## Writing -/

/-- Whoever appends to a file, or stands at its end, adds to its contents. -/
theorem Machine.run_write_at_end {m : Machine} {k bits : Nat} {file : OpenFile} {data : Bytes} (chunk : Bytes)
    (hout : m.handle? standardOutput = some (.file k)) (hopened : m.opened[k]? = some file)
    (hfile : m.files.node? file.node = some (.file bits data)) (haccess : file.access = .readWrite) (hdirect : file.direct = false)
    (hend : file.append = true ∨ file.offset = data.length) :
    (write standardOutput chunk).run.run m =
      (.ok chunk.length,
        { m with
          files := m.files.setNode file.node (.file bits (data ++ chunk))
          opened := m.opened.set k { file with offset := data.length + chunk.length } }) := by
  have hoffset : (if file.append then data.length else file.offset) = data.length := by
    split
    · rfl
    · rename_i happend
      exact hend.resolve_left happend
  have hmove (offset size : Nat) : canMove file offset size = true := by
    rw [canMove, hdirect]
    rfl
  have hcontents : (if chunk.isEmpty then m.files else m.files.setContents file.node (data ++ chunk)) =
      m.files.setNode file.node (.file bits (data ++ chunk)) := by
    cases chunk with
    | nil =>
      rw [List.append_nil]
      exact (Filesystem.setNode_self hfile).symm
    | cons b rest =>
      rw [Filesystem.setContents, hfile]
      rfl
  have hwrite : m.writeFile k file chunk = .ok { m with
      files := m.files.setNode file.node (.file bits (data ++ chunk))
      opened := m.opened.set k { file with offset := data.length + chunk.length } } := by
    unfold writeFile
    rw [hfile]
    dsimp only
    rw [hmove, hoffset, Bytes.splice_at_end, hcontents]
    rfl
  have hcan : file.access.canWrite = true := by
    rw [haccess]
    rfl
  unfold write
  rw [run_get_bind, hout]
  dsimp only
  rw [hopened]
  dsimp only
  rw [hcan, hwrite]
  rfl

end PipelineShell
