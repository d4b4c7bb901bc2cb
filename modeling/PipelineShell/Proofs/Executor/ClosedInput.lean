import Mathlib.Order.Bounds.Defs
import PipelineShell.Proofs.Executor.LaunchTables

/-!
# Launching without a standard input

A shell whose descriptor 0 is closed gets it back as the read end of a pipe, and that pipe end is then moved onto itself and closed,
or closed as the end that the first stage does not use. `launch_tables_closedInput` says which stages lose their input to this. The
pipes alternate, since the read end of a pipe is descriptor 0 if and only if that of the pipe before is not.
-/

namespace PipelineShell

open Function

variable {σ H : Type} {o : Observer σ H} {host : Host σ}

/-- A new pipe gets the two lowest free descriptors, its read end the lower one. -/
def Observer.PipesLowest (o : Observer σ H) (host : Host σ) : Prop :=
  o.Does host.pipe fun v ends _ => IsLeast {fd | 0 ≤ fd ∧ v.table fd = none} ends.1 ∧
    IsLeast {fd | 0 ≤ fd ∧ fd ≠ ends.1 ∧ v.table fd = none} ends.2

namespace Pipeline

/-- A stage whose input survives: the stages with an even number, of which the first must not have to give its input file away. -/
def KeepsInput (p : Pipeline) (k : Nat) : Prop := k % 2 = 0 ∧ (k = 0 → p.input = none ∨ p.commands.length = 1)

instance (p : Pipeline) (k : Nat) : Decidable (p.KeepsInput k) := inferInstanceAs (Decidable (_ ∧ _))

/-- The table that a stage is started with by a shell with the table `t`, in which descriptor 0 is closed. -/
def wiredClosed (p : Pipeline) (t : Table H) (first k : Nat) : Table H :=
  if p.KeepsInput k then p.wired t first k else update (p.wired t first k) standardInput none

end Pipeline

variable {t : Table H} {p : Pipeline} {first k : Nat} {inlet : Option StagePipe} {ends : Fd × Fd}

theorem Pipeline.wiredClosed_of_keeps (hk : p.KeepsInput k) : p.wiredClosed t first k = p.wired t first k := if_pos hk

theorem Pipeline.wiredClosed_of_not_keeps (h0 : t standardInput = none) (hk : ¬ p.KeepsInput k) :
    p.wiredClosed t first k = update t standardOutput (p.sink t first k) := by
  have hne : standardInput ≠ standardOutput := by decide
  rw [wiredClosed, if_neg hk, wired, update_comm hne, update_idem, update_comm hne.symm, ← h0, update_eq_self]

/-- The pipe to a stage has its read end as descriptor 0 if and only if the number of the stage is odd, and never its write end. -/
def Alternates (k : Nat) (inlet : Option StagePipe) : Prop :=
  ∀ q ∈ inlet, (q.readEnd = standardInput ↔ k % 2 = 1) ∧ q.writeEnd ≠ standardInput

/-- Descriptor 0 is taken as the read end wherever it is free. -/
theorem alternates_next {u : Table H} (h0 : t standardInput = none) (hfirst : inlet = none ↔ k = 0)
    (hu : u = t.withPipe inlet first) (hinlet : Alternates k inlet) (hread : IsLeast {fd | 0 ≤ fd ∧ u fd = none} ends.1)
    (hwrite : IsLeast {fd | 0 ≤ fd ∧ fd ≠ ends.1 ∧ u fd = none} ends.2) : Alternates (k + 1) (some ⟨ends.1, ends.2⟩) := by
  have hfree : u standardInput = none ↔ k % 2 = 0 := by
    subst hu
    cases inlet with
    | none => simp [Table.withPipe, h0, hfirst.mp rfl]
    | some q =>
      obtain ⟨hq, hqw⟩ := hinlet q rfl
      simp only [Table.withPipe, Option.elim, update_apply, if_neg (Ne.symm hqw), h0]
      grind
  have hzero : ends.1 = standardInput ↔ u standardInput = none :=
    ⟨fun h => h ▸ hread.1.2, fun h => Int.le_antisymm (hread.2 ⟨Int.le_refl _, h⟩) hread.1.1⟩
  have hwriteEnd : ends.2 ≠ standardInput := by
    intro hw
    obtain ⟨-, hne, hnone⟩ := hwrite.1
    rw [hw] at hne hnone
    exact hne (hzero.mpr hnone).symm
  have hreadEnd : ends.1 = standardInput ↔ (k + 1) % 2 = 1 := by
    rw [hzero, hfree]
    omega
  rintro q ⟨⟩
  exact ⟨hreadEnd, hwriteEnd⟩

/-- The read end of the outlet has taken the place of standard input, and closing it leaves no input. -/
theorem Stage.takeOutlet_lost (s : Stage) {u : Table H} {q : StagePipe} (hq : s.outlet = some q) (hfree : q.Free u)
    (h1 : u standardOutput ≠ none) (hread : q.readEnd = standardInput) (n : Nat) :
    s.takeOutlet (s.takeInput (u.withPipe s.outlet n)) = update u standardOutput (some (.writeEnd n)) := by
  obtain ⟨-, hw⟩ := hfree.ne_of_open h1
  obtain ⟨hr, hwrite, hends⟩ := hfree
  have hne : standardInput ≠ standardOutput := by decide
  rw [Stage.takeInput_eq, Stage.takeOutlet, hq]
  funext x
  simp only [Table.move, Table.withPipe, Option.elim, update_apply]
  grind

/-- The read end of the inlet is moved onto itself, and closing it leaves no input. -/
theorem Stage.takeInlet_lost (s : Stage) {q : StagePipe} (hq : s.inlet = some q) (hfree : q.Free t)
    (hread : q.readEnd = standardInput) (n : Nat) : s.takeInlet (t.withPipe s.inlet n) = t := by
  obtain ⟨hr, hwrite, hends⟩ := hfree
  rw [Stage.takeInlet, hq]
  funext x
  simp only [Table.move, Table.withPipe, Option.elim, update_apply]
  grind

namespace Stage.Piped

variable {s : Stage}

/-- Only the first stage has an input file, and it has no inlet. -/
theorem takeInput_of_inlet {q : StagePipe} (h : s.Piped t first) (hq : s.inlet = some q) (u : Table H) : s.takeInput u = u := by
  have hindex : s.index ≠ 0 := fun he => by simp [h.inlet_none.mpr he] at hq
  simp [Stage.takeInput, Stage.input?, hindex]

/-- The last stage: its input file, if it has one, is where it should be, and so is standard output. -/
theorem takeOutput_last (h : s.Piped t first) (h1 : t standardOutput ≠ none) (hq : s.outlet = none) :
    s.takeOutput (s.takeOutlet (s.takeInput (s.atFork t first))) =
      Table.withPipe (update (s.takeInput t) standardOutput (s.pipeline.sink t first s.index)) s.inlet (first + (s.index - 1)) := by
  have hne : standardInput ≠ standardOutput := by decide
  have hlast : s.index + 1 = s.pipeline.commands.length := h.outlet_none.mp hq
  have hout : s.takeInput t standardOutput = t standardOutput := by
    rw [Stage.takeInput_eq, update_of_ne hne.symm]
  have htaken : s.takeOutlet (s.takeInput (s.atFork t first)) =
      (s.takeInput t).withPipe s.inlet (first + (s.index - 1)) := by
    rw [Stage.takeOutlet, Stage.atFork, hq]
    show s.takeInput (t.withPipe s.inlet (first + (s.index - 1))) = _
    cases hi : s.inlet with
    | none => rfl
    | some r => rw [h.takeInput_of_inlet hi, h.takeInput_of_inlet hi]
  have hfree : ∀ r ∈ s.inlet, r.Free (s.takeInput t) := by
    intro r hr
    rw [h.takeInput_of_inlet hr]
    exact h.inlet_free r hr
  have hsink : s.pipeline.sink t first s.index =
      s.output?.elim (t standardOutput) fun target => some (Stage.outputSource target) := by
    rw [Pipeline.sink, Stage.output?, if_neg (by omega), if_pos hlast]
  rw [htaken, Stage.takeOutput_eq, withPipe_of_open (by rwa [hout]) hfree, hout, hsink, update_withPipe (by rwa [hout]) hfree]

/-- Any other stage: standard output is where it should be, and an input file is gone. -/
theorem takeOutput_inner {q : StagePipe} (h : s.Piped t first) (h1 : t standardOutput ≠ none)
    (houtlet : Alternates (s.index + 1) s.outlet) (hq : s.outlet = some q) :
    s.takeOutput (s.takeOutlet (s.takeInput (s.atFork t first))) =
      Table.withPipe (update t standardOutput (s.pipeline.sink t first s.index)) s.inlet (first + (s.index - 1)) := by
  have hu : t.withPipe s.inlet (first + (s.index - 1)) standardOutput ≠ none := by rwa [withPipe_of_open h1 h.inlet_free]
  have hlast : s.index + 1 ≠ s.pipeline.commands.length := fun he => by simp [h.outlet_none.mpr he] at hq
  have hlt : s.index + 1 < s.pipeline.commands.length := by
    have := h.index_lt
    omega
  have htaken : s.takeOutlet (s.takeInput (s.atFork t first)) =
      update (t.withPipe s.inlet (first + (s.index - 1))) standardOutput (some (.writeEnd (first + s.index))) := by
    by_cases hread : q.readEnd = standardInput
    · exact s.takeOutlet_lost hq (h.outlet_free q hq) hu hread _
    · have hindex : s.index ≠ 0 := fun he => hread ((houtlet q hq).1.mpr (by rw [he]))
      have hinput : s.input? = none := if_neg hindex
      rw [Stage.takeInput, hinput, Option.elim, Stage.atFork, Stage.takeOutlet_withPipe s hu h.outlet_free, hq]
      rfl
  rw [htaken, Stage.takeOutput, Stage.output?, if_neg hlast, Pipeline.sink, if_pos hlt, update_withPipe h1 h.inlet_free]
  rfl

/-- The first stage keeps its input file only if it is the last as well. -/
theorem rewired_first (h : s.Piped t first) (h0 : t standardInput = none) (h1 : t standardOutput ≠ none)
    (houtlet : Alternates (s.index + 1) s.outlet) (hi : s.inlet = none) :
    s.rewired (s.atFork t first) = s.pipeline.wiredClosed t first s.index := by
  have hindex := h.inlet_none.mp hi
  have hwired : s.pipeline.wired t first s.index =
      update (s.takeInput t) standardOutput (s.pipeline.sink t first s.index) := by
    rw [Pipeline.wired, Stage.takeInput_eq]
    congr 2
    simp [Pipeline.source, Stage.input?, hindex]
  rw [Stage.rewired, Stage.takeInlet]
  cases hq : s.outlet with
  | none =>
    have hone : s.pipeline.commands.length = 1 := by
      rw [← h.outlet_none.mp hq, hindex]
    rw [h.takeOutput_last h1 hq, hi, Pipeline.wiredClosed_of_keeps ⟨by rw [hindex], fun _ => .inr hone⟩, hwired]
    rfl
  | some q =>
    rw [h.takeOutput_inner h1 houtlet hq, hi]
    by_cases hk : s.pipeline.KeepsInput s.index
    · have hone : s.pipeline.commands.length ≠ 1 := fun he => by simp [h.outlet_none.mpr (by rw [hindex, he])] at hq
      have hinput : s.input? = none := by
        rw [Stage.input?, if_pos hindex]
        exact (hk.2 hindex).resolve_right hone
      rw [Pipeline.wiredClosed_of_keeps hk, hwired, Stage.takeInput, hinput]
      rfl
    · rw [Pipeline.wiredClosed_of_not_keeps h0 hk]
      rfl

/-- A later stage keeps the pipe from the stage before unless the read end of it is descriptor 0. -/
theorem rewired_later {r : StagePipe} (h : s.Piped t first) (h0 : t standardInput = none) (h1 : t standardOutput ≠ none)
    (hinlet : Alternates s.index s.inlet) (houtlet : Alternates (s.index + 1) s.outlet) (hi : s.inlet = some r) :
    s.rewired (s.atFork t first) = s.pipeline.wiredClosed t first s.index := by
  have hne : standardInput ≠ standardOutput := by decide
  have hindex : s.index ≠ 0 := fun he => by simp [h.inlet_none.mpr he] at hi
  have htaken : s.takeOutput (s.takeOutlet (s.takeInput (s.atFork t first))) =
      Table.withPipe (update t standardOutput (s.pipeline.sink t first s.index)) s.inlet (first + (s.index - 1)) := by
    cases hq : s.outlet with
    | none => rw [h.takeOutput_last h1 hq, h.takeInput_of_inlet hi]
    | some q => rw [h.takeOutput_inner h1 houtlet hq]
  have hfree : ∀ q ∈ s.inlet, q.Free (update t standardOutput (s.pipeline.sink t first s.index)) :=
    fun q hq => (h.inlet_free q hq).update h1 _
  rw [Stage.rewired, htaken]
  by_cases hodd : s.index % 2 = 1
  · have hk : ¬ s.pipeline.KeepsInput s.index := fun hk => by have := hk.1; omega
    rw [s.takeInlet_lost hi (hfree r hi) ((hinlet r hi).1.mpr hodd), Pipeline.wiredClosed_of_not_keeps h0 hk]
  · have hk : s.pipeline.KeepsInput s.index := ⟨by omega, fun he => absurd he hindex⟩
    have hends : ∀ q ∈ s.inlet, standardInput ≠ q.readEnd ∧ standardInput ≠ q.writeEnd :=
      fun q hq => ⟨fun he => hodd ((hinlet q hq).1.mp he.symm), (hinlet q hq).2.symm⟩
    have hsource : s.pipeline.source t first s.index = some (.readEnd (first + (s.index - 1))) :=
      if_pos (Nat.pos_of_ne_zero hindex)
    rw [s.takeInlet_of_ne hends hfree, hi, Pipeline.wiredClosed_of_keeps hk, Pipeline.wired, hsource, update_comm hne]
    rfl

/-- The setup of a stage of a shell without standard input. -/
theorem rewired_closed (h : s.Piped t first) (h0 : t standardInput = none) (h1 : t standardOutput ≠ none)
    (hinlet : Alternates s.index s.inlet) (houtlet : Alternates (s.index + 1) s.outlet) :
    s.rewired (s.atFork t first) = s.pipeline.wiredClosed t first s.index := by
  cases hi : s.inlet with
  | none => exact h.rewired_first h0 h1 houtlet hi
  | some r => exact h.rewired_later h0 h1 hinlet houtlet hi

end Stage.Piped

/-- The pipes of a shell without standard input alternate. -/
def Layout.closedInput (hlow : o.PipesLowest host) (h0 : t standardInput = none) (h1 : t standardOutput ≠ none) :
    Layout o host p t first where
  holds := Alternates
  wired := p.wiredClosed t first
  holds_none _ := nofun
  holds_pipe := hlow.weaken fun _ _ _ ⟨hread, hwrite⟩ _ _ hfirst _ htable hinlet =>
    alternates_next h0 hfirst htable hinlet hread hwrite
  rewired _ hp hpiped hinlet houtlet := hp ▸ hpiped.rewired_closed h0 h1 hinlet houtlet

/-- A stage that does not keep its input was to have one. -/
theorem source_ne_none (t : Table H) (first : Nat) (hk : ¬ p.KeepsInput k) : p.source t first k ≠ none := by
  unfold Pipeline.source
  split
  · exact Option.some_ne_none _
  · rename_i hzero
    obtain rfl := Nat.eq_zero_of_not_pos hzero
    cases hi : p.input with
    | none => exact absurd ⟨rfl, fun _ => .inl hi⟩ hk
    | some path => exact Option.some_ne_none _

/-- If no call fails, a shell without standard input starts every stage with descriptor 1 to the stage after and the rest as the shell
has it, but with descriptor 0 from the stage before, or from the input file, only if the stage is one that keeps its input; any other
one is started without. The shell is left with the table it began with. -/
theorem launch_tables_closedInput (h : o.Posix host) (hlow : o.PipesLowest host) (p : Pipeline) (s : σ)
    (h0 : (o.view s).table standardInput = none) (h1 : (o.view s).table standardOutput ≠ none)
    (hclean : o.clean ((launch host p).run s).2) :
    ((launch host p).run s).1.failure = none ∧
      (o.view ((launch host p).run s).2).table = (o.view s).table ∧
      (o.view ((launch host p).run s).2).executions = (o.view s).executions ++
        p.commands.mapIdx (fun k c => ⟨c.argv, p.wiredClosed (o.view s).table (o.view s).pipes k⟩) ∧
      ∀ k, p.wiredClosed (o.view s).table (o.view s).pipes k standardOutput = p.sink (o.view s).table (o.view s).pipes k ∧
        (p.wiredClosed (o.view s).table (o.view s).pipes k standardInput = p.source (o.view s).table (o.view s).pipes k ↔
          p.KeepsInput k) := by
  have hne : standardInput ≠ standardOutput := by decide
  obtain ⟨hfailure, htable, -, hexecutions⟩ := (Layout.closedInput hlow h0 h1).launched h hclean
  refine ⟨hfailure, htable, hexecutions, fun k => ?_⟩
  by_cases hk : p.KeepsInput k
  · simp [Pipeline.wiredClosed_of_keeps hk, Pipeline.wired, hne, hk]
  · have hsource := source_ne_none (o.view s).table (o.view s).pipes hk
    simp [Pipeline.wiredClosed_of_not_keeps h0 hk, hne, hk, h0, hsource.symm]

theorem Descriptors.isLeast_lowestFree {α : Type} (d : Descriptors α) :
    IsLeast {fd : Fd | 0 ≤ fd ∧ d.get? fd = none} d.lowestFree := by
  refine ⟨⟨Int.natCast_nonneg _, d.slot?_lowestFree⟩, ?_⟩
  rintro fd ⟨hfd, hnone⟩
  obtain ⟨n, rfl⟩ := Int.eq_ofNat_of_zero_le hfd
  refine Int.ofNat_le.mpr (Nat.le_of_not_lt fun hlt => ?_)
  have hsome := d.isSome_slot?_of_lt_lowestFree hlt
  rw [← d.get?_ofNat, hnone] at hsome
  nomatch hsome

/-- Pipes of the small host get the lowest free descriptors. -/
theorem tableHost_pipesLowest : tableObserver.PipesLowest tableHost := by
  intro s hs
  obtain ⟨hclean, _, _, -⟩ := tableHost_posix.pipe s hs
  refine ⟨hclean, _, rfl, s.descriptors.isLeast_lowestFree, ?_⟩
  show IsLeast _ (Descriptors.lowestFree (s.descriptors.put s.descriptors.lowestFree (.readEnd s.pipes)) : Fd)
  have hsecond := (s.descriptors.put s.descriptors.lowestFree (.readEnd s.pipes)).isLeast_lowestFree
  generalize Descriptors.lowestFree (s.descriptors.put s.descriptors.lowestFree (.readEnd s.pipes)) = second at hsecond
  rw [Descriptors.get?_put] at hsecond
  obtain ⟨⟨hnonneg, hnone⟩, hleast⟩ := hsecond
  have hne : (second : Fd) ≠ (s.descriptors.lowestFree : Fd) := by
    intro he
    rw [he, update_self] at hnone
    nomatch hnone
  rw [update_of_ne hne] at hnone
  refine ⟨⟨hnonneg, hne, hnone⟩, fun fd hfd => hleast ⟨hfd.1, ?_⟩⟩
  rw [update_of_ne hfd.2.1]
  exact hfd.2.2

/-- A process whose standard input is closed. -/
def closedBench : Bench where
  descriptors := ⟨[none, some (.inherited "terminal"), some (.inherited "terminal")]⟩
  numbered n _ fd := by
    match fd with
    | 0 | 1 | 2 => exact ⟨nofun, nofun⟩
    | .ofNat (m + 3) => exact ⟨nofun, nofun⟩
    | .negSucc m => exact ⟨nofun, nofun⟩

/-- Of three stages the last one alone keeps its input; the first one has its file taken away. -/
theorem launch_tables_closedInput_three_stages :
    ((launch tableHost threeStages).run closedBench).2.executions.map
        (fun e => (e.argv, e.table standardInput, e.table standardOutput)) =
      [(["sort"], none, some (.writeEnd 0)), (["uniq", "-c"], none, some (.writeEnd 1)),
        (["head"], some (.readEnd 1), some (.file "counts" (Redirect.outputFlags .append)))] := by
  obtain ⟨-, -, hexecutions, -⟩ :=
    launch_tables_closedInput tableHost_posix tableHost_pipesLowest threeStages closedBench (by rfl) (by decide) (by rfl)
  have hexecutions : ((launch tableHost threeStages).run closedBench).2.executions = _ := hexecutions
  rw [hexecutions]
  rfl

/-- No call fails, and yet the second of two stages is started without the pipe that the first one writes to. -/
theorem second_stage_has_no_input :
    ((launch tableHost ⟨[⟨"true", []⟩, ⟨"cat", []⟩], none, none⟩).run closedBench).2.failed = false ∧
      ((launch tableHost ⟨[⟨"true", []⟩, ⟨"cat", []⟩], none, none⟩).run closedBench).2.executions.map
          (fun e => (e.argv, e.table standardInput, e.table standardOutput)) =
        [(["true"], none, some (.writeEnd 0)), (["cat"], none, some (.inherited "terminal"))] := by
  exact ⟨rfl, rfl⟩

end PipelineShell
