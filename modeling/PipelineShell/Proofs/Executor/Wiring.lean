import PipelineShell.Proofs.Executor.Posix

/-!
# The descriptors of the stages of a pipeline

What a stage is started with is followed through the executor: `Stage.rewired` is what the setup of a stage does to the table it
was forked with, and `Pipeline.wired` is the table the stage is to have. The two agree on every table that the shell has at a fork
(`Stage.Piped.rewired`), and between two forks the shell is left with the pipe to the next stage alone.
-/

namespace PipelineShell

open Function

variable {σ H : Type} {o : Observer σ H} {host : Host σ}

/-! ## The setup of a stage -/

/-- An entry moved to another descriptor. -/
def Table.move (t : Table H) (fd target : Fd) : Table H := update (update t target (t fd)) fd none

/-- A file that is opened as a given descriptor. -/
theorem Observer.Posix.maps_stream (h : o.Posix host) (fd : Fd) (path : String) (flags : OpenFlags) (permissions : Nat) :
    o.Maps (Redirect.stream host fd path flags permissions) fun t => update t fd (some (.file path flags)) := by
  refine ((h.openFile path flags permissions).bind (F := fun opened v _ v' =>
    v' = if opened = fd then v else (v.put fd (v.table opened)).put opened none) fun opened => ?_).weaken ?_
  · split
    · exact (Observer.Does.pure ()).weaken fun _ _ _ hv => hv.2
    · refine (Observer.Does.both (h.dup2 opened fd) (h.close opened) rfl).weaken ?_
      rintro v _ v'' ⟨v', ⟨-, rfl⟩, -, rfl⟩
      rfl
  · rintro v _ v'' ⟨opened, v', ⟨hfree, rfl⟩, rfl⟩
    split
    · rename_i hfd
      rw [hfd]
      rfl
    · rename_i hfd
      simp only [View.put, View.rewire]
      congr 1
      rw [update_self, update_comm hfd, update_idem, ← hfree, update_comm (Ne.symm hfd), update_eq_self]

/-- A pipe end that is moved onto a standard descriptor. -/
theorem Observer.Posix.maps_moveOnto (h : o.Posix host) (fd target : Fd) :
    o.Maps (Stage.moveOnto host fd target) fun t => Table.move t fd target := by
  refine ((((h.dup2 fd target).during "dup2").holding h [fd]).bind fun _ => (h.close fd).during "close").weaken ?_
  rintro v _ v'' ⟨-, v', ⟨-, rfl⟩, -, rfl⟩
  rfl

theorem Observer.Posix.maps_close (h : o.Posix host) (fd : Fd) (call : String) :
    o.Maps (during call (host.close fd)) fun t => update t fd none := by
  refine ((h.close fd).during call).weaken ?_
  rintro v _ v' ⟨-, rfl⟩
  rfl

namespace Stage

/-- What a file has become standard input as. -/
def inputSource (path : String) : Source H := .file path { access := .read }

/-- What a file has become standard output as. -/
def outputSource (target : OutputTarget) : Source H := .file target.path (Redirect.outputFlags target.mode)

section

variable (s : Stage) (t : Table H)

/-- The input file becomes standard input. -/
def takeInput : Table H := s.input?.elim t fun path => update t standardInput (some (inputSource path))

/-- The write end of the outlet becomes standard output, and its read end is closed. -/
def takeOutlet : Table H := s.outlet.elim t fun p => Table.move (update t p.readEnd none) p.writeEnd standardOutput

/-- The output file becomes standard output. -/
def takeOutput : Table H := s.output?.elim t fun target => update t standardOutput (some (outputSource target))

/-- The read end of the inlet becomes standard input, and its write end is closed. -/
def takeInlet : Table H := s.inlet.elim t fun p => Table.move (update t p.writeEnd none) p.readEnd standardInput

/-- The table that the setup of a stage leaves: it takes the input file, the pipe to the stage after, the output file, the pipe from
the stage before, each where there is one. -/
def rewired : Table H := s.takeInlet (s.takeOutput (s.takeOutlet (s.takeInput t)))

end

end Stage

/-- The end of a pipe that is taken, with the other one closed. -/
theorem Observer.Posix.maps_takeEnd (h : o.Posix host) (unused taken target : Fd) :
    o.Maps (Stage.takeEnd host unused taken target) fun t => Table.move (update t unused none) taken target :=
  .bind (.holding (h.maps_close _ _) h _) (h.maps_moveOnto _ _)

theorem Observer.Posix.maps_setup (h : o.Posix host) (s : Stage) : o.Maps (s.setup host) s.rewired := by
  rw [Stage.setup_eq]
  have hinput : o.Maps (Stage.whenSome s.input? fun path => holding host (StagePipe.ends s.inlet ++ StagePipe.ends s.outlet)
      (during "redirect_input" (Redirect.input host path))) s.takeInput :=
    .whenSome fun path => .holding (.during (h.maps_stream _ _ _ _) _) h _
  have houtlet : o.Maps (Stage.whenSome s.outlet fun p => holding host (StagePipe.ends s.inlet)
      (Stage.takeEnd host p.readEnd p.writeEnd standardOutput)) s.takeOutlet :=
    .whenSome fun p => .holding (h.maps_takeEnd _ _ _) h _
  have houtput : o.Maps (Stage.whenSome s.output? fun target => holding host (StagePipe.ends s.inlet)
      (during "redirect_output" (Redirect.output host target.path target.mode))) s.takeOutput :=
    .whenSome fun target => .holding (.during (h.maps_stream _ _ _ _) _) h _
  have hinlet : o.Maps (Stage.whenSome s.inlet fun p => Stage.takeEnd host p.writeEnd p.readEnd standardInput) s.takeInlet :=
    .whenSome fun p => h.maps_takeEnd _ _ _
  exact hinput.bind (houtlet.bind (houtput.bind hinlet))

/-- A child in which nothing fails calls for its program with the table of its setup. -/
theorem Observer.Posix.ensures_start (h : o.Posix host) (stage : Stage) (v : View H) :
    Ensures (o.Guard (· = v)) (stage.start host)
      fun _ => o.Guard (·.executions = v.executions ++ [⟨stage.argv, stage.rewired v.table⟩]) := by
  rw [Stage.start_eq]
  refine .bind ((h.maps_setup stage).ensures (Q := fun _ v' => v' = v.rewire stage.rewired) ?_) fun r => ?_
  · rintro _ _ _ rfl hv
    exact hv
  cases r with
  | error failure =>
    exact .bind (h.stuck_complain _) fun _ => .pure fun s hs ht => absurd ht hs
  | ok _ =>
    refine .bind (h.ensures_exec stage.argv (v.rewire stage.rewired)) fun r => ?_
    cases r with
    | error cause => exact .bind (h.ensures_complain _ _) fun _ => .pure fun _ hs => hs
    | ok _ => exact .pure fun _ hs => hs

/-! ## The tables of a launch -/

/-- The two ends of a pipe are where nothing was. -/
structure StagePipe.Free (p : StagePipe) (t : Table H) : Prop where
  readEnd : t p.readEnd = none
  writeEnd : t p.writeEnd = none
  ne : p.readEnd ≠ p.writeEnd

/-- A table with the ends of the pipe of a number, if there is one. -/
def Table.withPipe (t : Table H) (p : Option StagePipe) (n : Nat) : Table H :=
  p.elim t fun p => update (update t p.readEnd (some (.readEnd n))) p.writeEnd (some (.writeEnd n))

namespace Pipeline

/-- What descriptor 0 of a stage refers to: the pipe from the stage before, or for the first stage the input file or what the shell
has there. Pipe `n` of the pipeline is number `first + n`. -/
def source (p : Pipeline) (t : Table H) (first k : Nat) : Option (Source H) :=
  if 0 < k then some (.readEnd (first + (k - 1)))
  else p.input.elim (t standardInput) fun path => some (Stage.inputSource path)

/-- What descriptor 1 of a stage refers to: the pipe to the stage after, or for the last stage the output file or what the shell has
there. -/
def sink (p : Pipeline) (t : Table H) (first k : Nat) : Option (Source H) :=
  if k + 1 < p.commands.length then some (.writeEnd (first + k))
  else p.output.elim (t standardOutput) fun target => some (Stage.outputSource target)

/-- The table that a stage is started with by a shell with the table `t`. -/
def wired (p : Pipeline) (t : Table H) (first k : Nat) : Table H :=
  update (update t standardInput (p.source t first k)) standardOutput (p.sink t first k)

end Pipeline

section

variable {t : Table H} {p : Pipeline} {first k : Nat} {inlet outlet : Option StagePipe}

/-- A descriptor that is open is neither end of a new pipe. -/
theorem StagePipe.Free.ne_of_open {q : StagePipe} {fd : Fd} (h : q.Free t) (hfd : t fd ≠ none) :
    fd ≠ q.readEnd ∧ fd ≠ q.writeEnd :=
  ⟨fun he => hfd (he ▸ h.readEnd), fun he => hfd (he ▸ h.writeEnd)⟩

theorem StagePipe.Free.update {q : StagePipe} {fd : Fd} (h : q.Free t) (hfd : t fd ≠ none) (x : Option (Source H)) :
    q.Free (update t fd x) := by
  obtain ⟨hr, hw⟩ := h.ne_of_open hfd
  exact ⟨by rw [update_of_ne (Ne.symm hr), h.readEnd], by rw [update_of_ne (Ne.symm hw), h.writeEnd], h.ne⟩

/-- An entry that is no pipe end can be changed below a pipe. -/
theorem update_withPipe {fd : Fd} (hfd : t fd ≠ none) {q : Option StagePipe} (hq : ∀ r ∈ q, r.Free t) (n : Nat)
    (x : Option (Source H)) : update (t.withPipe q n) fd x = Table.withPipe (update t fd x) q n := by
  cases q with
  | none => rfl
  | some q =>
    obtain ⟨hr, hw⟩ := (hq q rfl).ne_of_open hfd
    simp only [Table.withPipe, Option.elim]
    rw [update_comm (Ne.symm hw), update_comm (Ne.symm hr)]

/-- What an open descriptor refers to is seen through a pipe. -/
theorem withPipe_of_open {fd : Fd} (hfd : t fd ≠ none) {q : Option StagePipe} (hq : ∀ r ∈ q, r.Free t) (n : Nat) :
    t.withPipe q n fd = t fd := by
  cases q with
  | none => rfl
  | some q =>
    obtain ⟨hr, hw⟩ := (hq q rfl).ne_of_open hfd
    simp only [Table.withPipe, Option.elim]
    rw [update_of_ne hw, update_of_ne hr]

theorem Stage.takeInput_eq (s : Stage) (t : Table H) :
    s.takeInput t = update t standardInput (s.input?.elim (t standardInput) fun path => some (Stage.inputSource path)) := by
  unfold Stage.takeInput
  cases s.input? with
  | none => exact (update_eq_self _ _).symm
  | some path => rfl

theorem Stage.takeOutput_eq (s : Stage) (t : Table H) :
    s.takeOutput t =
      update t standardOutput (s.output?.elim (t standardOutput) fun target => some (Stage.outputSource target)) := by
  unfold Stage.takeOutput
  cases s.output? with
  | none => exact (update_eq_self _ _).symm
  | some target => rfl

/-- The write end of the outlet becomes standard output, and the pipe is gone. -/
theorem Stage.takeOutlet_withPipe (s : Stage) (h1 : t standardOutput ≠ none) (hfree : ∀ q ∈ s.outlet, q.Free t) (n : Nat) :
    s.takeOutlet (t.withPipe s.outlet n) =
      update t standardOutput (s.outlet.elim (t standardOutput) fun _ => some (.writeEnd n)) := by
  unfold Stage.takeOutlet
  cases hq : s.outlet with
  | none => exact (update_eq_self _ _).symm
  | some q =>
    obtain ⟨hr, hw⟩ := (hfree q hq).ne_of_open h1
    obtain ⟨hread, hwrite, hne⟩ := hfree q hq
    funext x
    simp only [Table.move, Table.withPipe, Option.elim, update_apply]
    grind

/-- The read end of the inlet becomes standard input, and the pipe is gone, where neither of its ends is descriptor 0. -/
theorem Stage.takeInlet_of_ne (s : Stage) (hne : ∀ q ∈ s.inlet, standardInput ≠ q.readEnd ∧ standardInput ≠ q.writeEnd)
    (hfree : ∀ q ∈ s.inlet, q.Free t) (n : Nat) :
    s.takeInlet (t.withPipe s.inlet n) =
      update t standardInput (s.inlet.elim (t standardInput) fun _ => some (.readEnd n)) := by
  unfold Stage.takeInlet
  cases hq : s.inlet with
  | none => exact (update_eq_self _ _).symm
  | some q =>
    obtain ⟨hr, hw⟩ := hne q hq
    obtain ⟨hread, hwrite, hends⟩ := hfree q hq
    funext x
    simp only [Table.move, Table.withPipe, Option.elim, update_apply]
    grind

/-- The read end of the inlet becomes standard input, and the pipe is gone. -/
theorem Stage.takeInlet_withPipe (s : Stage) (h0 : t standardInput ≠ none) (hfree : ∀ q ∈ s.inlet, q.Free t) (n : Nat) :
    s.takeInlet (t.withPipe s.inlet n) =
      update t standardInput (s.inlet.elim (t standardInput) fun _ => some (.readEnd n)) :=
  s.takeInlet_of_ne (fun q hq => (hfree q hq).ne_of_open h0) hfree n

/-- Closing both ends of a pipe undoes it, also below another pipe. -/
theorem close_withPipe {q : StagePipe} (hq : q.Free t) {r : Option StagePipe} (n m : Nat)
    (hr : ∀ x ∈ r, x.Free (t.withPipe (some q) n)) :
    update (update ((t.withPipe (some q) n).withPipe r m) q.readEnd none) q.writeEnd none = t.withPipe r m := by
  obtain ⟨hread, hwrite, hne⟩ := hq
  cases r with
  | none =>
    funext x
    simp only [Table.withPipe, Option.elim, update_apply]
    grind
  | some r =>
    obtain ⟨hr₀, hr₁, hrne⟩ := hr r rfl
    funext x
    simp only [Table.withPipe, Option.elim, update_apply] at *
    grind

/-- A stage of a launch, and the table of the shell when it is forked: the pipe to the stage before has been kept for it, and the pipe
to the stage after is new. -/
structure Stage.Piped (s : Stage) (t : Table H) (first : Nat) : Prop where
  inlet_none : s.inlet = none ↔ s.index = 0
  outlet_none : s.outlet = none ↔ s.index + 1 = s.pipeline.commands.length
  index_lt : s.index < s.pipeline.commands.length
  inlet_free : ∀ q ∈ s.inlet, q.Free t
  outlet_free : ∀ q ∈ s.outlet, q.Free (t.withPipe s.inlet (first + (s.index - 1)))

/-- The table of the shell when a stage is forked: the one that it began with, and the pipes on both sides of the stage. -/
def Stage.atFork (s : Stage) (t : Table H) (first : Nat) : Table H :=
  (t.withPipe s.inlet (first + (s.index - 1))).withPipe s.outlet (first + s.index)

/-- The setup of a stage gives it the table it is to have. -/
theorem Stage.Piped.rewired {s : Stage} (h : s.Piped t first) (h0 : t standardInput ≠ none) (h1 : t standardOutput ≠ none) :
    s.rewired (s.atFork t first) = s.pipeline.wired t first s.index := by
  have hne : standardInput ≠ standardOutput := by decide
  obtain ⟨hfirst, hlast, hk, hinlet, houtlet⟩ := h
  have h0' : t.withPipe s.inlet (first + (s.index - 1)) standardInput ≠ none := by rwa [withPipe_of_open h0 hinlet]
  have h1' : t.withPipe s.inlet (first + (s.index - 1)) standardOutput ≠ none := by rwa [withPipe_of_open h1 hinlet]
  rw [Stage.atFork, Stage.rewired, Stage.takeInput_eq, withPipe_of_open h0' houtlet, withPipe_of_open h0 hinlet, update_withPipe h0' houtlet]
  rw [Stage.takeOutlet_withPipe s (by rwa [update_of_ne hne.symm]) fun q hq => (houtlet q hq).update h0' _]
  rw [Stage.takeOutput_eq, update_idem, update_self, update_of_ne hne.symm, withPipe_of_open h1 hinlet]
  rw [update_withPipe h0 hinlet, update_withPipe (by rwa [update_of_ne hne.symm]) fun q hq => (hinlet q hq).update h0 _]
  have hx : (s.input?.elim (t standardInput) fun path => some (inputSource path)) ≠ none := by
    cases s.input? with
    | none => exact h0
    | some path => exact Option.some_ne_none _
  have h1'' : update t standardInput (s.input?.elim (t standardInput) fun path => some (inputSource path)) standardOutput ≠
      none := by
    rwa [update_of_ne hne.symm]
  rw [Stage.takeInlet_withPipe s (by rwa [update_of_ne hne, update_self]) fun q hq => ((hinlet q hq).update h0 _).update h1'' _]
  rw [update_of_ne hne, update_self, update_comm hne.symm, update_idem, Pipeline.wired]
  congr 2
  · unfold Pipeline.source Stage.input?
    cases hq : s.inlet with
    | none => simp [hfirst.1 hq]
    | some q =>
      have hpos : 0 < s.index := Nat.pos_of_ne_zero fun he => by simp [hfirst.2 he] at hq
      simp [hpos]
  · unfold Pipeline.sink Stage.output?
    cases hq : s.outlet with
    | none => simp [hlast.1 hq]
    | some q =>
      have hend : s.index + 1 ≠ s.pipeline.commands.length := fun he => by simp [hlast.2 he] at hq
      have hlt : s.index + 1 < s.pipeline.commands.length := by omega
      simp [hend, hlt]

end

end PipelineShell
