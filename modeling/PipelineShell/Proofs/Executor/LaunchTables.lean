import PipelineShell.Proofs.Executor.TableHost
import PipelineShell.Proofs.Executor.Wiring

/-!
# What a launch starts the stages of a pipeline with

A launch is followed stage by stage. `Poised` is what is seen before a stage: the table of the shell is the one it began with and the
pipe from the stage before. A stage is forked with the pipe to the stage after besides, and the pipe from the stage before is closed
then.
-/

namespace PipelineShell

open Function

variable {σ H : Type} {o : Observer σ H} {host : Host σ}

/-- The programs of a launch from a stage on, with the tables they get. -/
def Pipeline.started (p : Pipeline) (t : Table H) (first k : Nat) (rest : List (List String)) : List (Execution H) :=
  (rest.zipIdx k).map fun (argv, k) => ⟨argv, p.wired t first k⟩

/-- What is seen before stage `k` is launched by a shell that began with the table `t`. -/
structure Poised (p : Pipeline) (t : Table H) (first k : Nat) (inlet : Option StagePipe) (rest : List (List String))
    (executions : List (Execution H)) (v : View H) : Prop where
  length : k + rest.length = p.commands.length
  inlet_none : inlet = none ↔ k = 0 ∨ rest = []
  inlet_free : ∀ q ∈ inlet, q.Free t
  table : v.table = t.withPipe inlet (first + (k - 1))
  pipes : rest ≠ [] → v.pipes = first + k
  /-- The pipes that have been made are new to the table. -/
  lacks : ∀ j < k, j + 1 < p.commands.length → t.Lacks (first + j)
  executions_eq : v.executions = executions

/-- What is seen once stage `s` has its outlet, with `rest` the stages after it. -/
structure Forking (s : Stage) (t : Table H) (first : Nat) (rest : List (List String)) (executions : List (Execution H))
    (v : View H) : Prop where
  length : s.index + 1 + rest.length = s.pipeline.commands.length
  piped : s.Piped t first
  table : v.table = s.atFork t first
  pipes : rest ≠ [] → v.pipes = first + (s.index + 1)
  lacks : ∀ j < s.index + 1, j + 1 < s.pipeline.commands.length → t.Lacks (first + j)
  executions_eq : v.executions = executions

/-- What is seen after a launch. -/
structure Launched (p : Pipeline) (t : Table H) (first : Nat) (executions : List (Execution H)) (l : Launch) (v : View H) :
    Prop where
  failure : l.failure = none
  table : v.table = t
  lacks : ∀ j, j + 1 < p.commands.length → t.Lacks (first + j)
  executions_eq : v.executions = executions

section

variable {t : Table H} {p : Pipeline} {first k : Nat} {inlet : Option StagePipe} {argv : List String} {rest : List (List String)}
  {executions : List (Execution H)}

/-- A pipe whose ends are free below another one is free without it. -/
theorem StagePipe.Free.of_withPipe {q : StagePipe} {r : Option StagePipe} {n : Nat} (h : q.Free (t.withPipe r n)) : q.Free t := by
  cases r with
  | none => exact h
  | some r =>
    obtain ⟨hread, hwrite, hne⟩ := h
    simp only [Table.withPipe, Option.elim, update_apply] at hread hwrite
    refine ⟨?_, ?_, hne⟩ <;> grind

/-- A table that lacks a pipe with another one below it lacks it without. -/
theorem Table.Lacks.of_withPipe {r : Option StagePipe} (hr : ∀ q ∈ r, q.Free t) {n m : Nat} (h : (t.withPipe r n).Lacks m) :
    t.Lacks m := by
  intro fd
  by_cases hfd : t fd = none
  · rw [hfd]
    exact ⟨nofun, nofun⟩
  · rw [← withPipe_of_open hfd hr n]
    exact h fd

/-- Before the last stage is forked no pipe is made. -/
theorem Poised.forking_last {v : View H} (h : Poised p t first k inlet [argv] executions v) :
    Forking ⟨p, k, argv, inlet, none⟩ t first [] executions v := by
  have hlength : k + 1 = p.commands.length := h.length
  refine ⟨hlength, ⟨?_, iff_of_true rfl hlength, ?_, h.inlet_free, nofun⟩, h.table, fun hne => absurd rfl hne, ?_, h.executions_eq⟩
  · simpa using h.inlet_none
  · show k < p.commands.length
    omega
  · intro j _ (hj : j + 1 < p.commands.length)
    exact h.lacks j (by omega) hj

/-- Before any other one is, a new pipe leads to the stage after it. -/
theorem Poised.forking_next {v : View H} {argv' : List String} {ends : Fd × Fd}
    (h : Poised p t first k inlet (argv :: argv' :: rest) executions v) (hread : v.table ends.1 = none)
    (hwrite : v.table ends.2 = none) (hne : ends.1 ≠ ends.2) (hnew : v.table.Lacks v.pipes) :
    Forking ⟨p, k, argv, inlet, some ⟨ends.1, ends.2⟩⟩ t first (argv' :: rest) executions
      { (v.put ends.1 (some (.readEnd v.pipes))).put ends.2 (some (.writeEnd v.pipes)) with pipes := v.pipes + 1 } := by
  have hpipes := h.pipes (List.cons_ne_nil _ _)
  have hlength := h.length
  simp only [List.length_cons] at hlength
  rw [h.table] at hread hwrite hnew
  rw [hpipes] at hnew
  refine ⟨?_, ⟨?_, iff_of_false nofun ?_, ?_, h.inlet_free, ?_⟩, ?_, fun _ => ?_, ?_, h.executions_eq⟩
  · show k + 1 + (rest.length + 1) = p.commands.length
    omega
  · simpa using h.inlet_none
  · show k + 1 ≠ p.commands.length
    omega
  · show k < p.commands.length
    omega
  · rintro q ⟨⟩
    exact ⟨hread, hwrite, hne⟩
  · show update (update v.table _ _) _ _ = _
    rw [h.table, hpipes]
    rfl
  · show v.pipes + 1 = _
    rw [hpipes]
    rfl
  · intro j (hj : j < k + 1) hj'
    rcases Nat.lt_succ_iff_lt_or_eq.mp hj with hj | rfl
    · exact h.lacks j hj hj'
    · exact hnew.of_withPipe h.inlet_free

/-- Without the pipe from the stage before, what is seen is what the next stage is to be launched from. -/
theorem Forking.poised {s : Stage} {v v' : View H} (h : Forking s t first rest executions v)
    (htable : v'.table = t.withPipe s.outlet (first + s.index)) (hpipes : rest ≠ [] → v'.pipes = first + (s.index + 1))
    (hexecutions : v'.executions = executions) : Poised s.pipeline t first (s.index + 1) s.outlet rest executions v' where
  length := h.length
  inlet_none := by
    have hlength := h.length
    rw [h.piped.outlet_none, ← List.length_eq_zero_iff]
    omega
  inlet_free q hq := (h.piped.outlet_free q hq).of_withPipe
  table := htable
  pipes := hpipes
  lacks := h.lacks
  executions_eq := hexecutions

end

/-! ## A launch, stage by stage -/

/-- What a launch does with the descriptors that its pipes get: what is known of the pipe to a stage, and the table that the stage is
started with for it. -/
structure Layout (o : Observer σ H) (host : Host σ) (p : Pipeline) (t : Table H) (first : Nat) where
  /-- What is known of the pipe from the stage before. -/
  holds : Nat → Option StagePipe → Prop
  /-- The table that a stage is started with. -/
  wired : Nat → Table H
  holds_none : ∀ k, holds k none
  holds_pipe : o.Does host.pipe fun v ends _ => ∀ k inlet, (inlet = none ↔ k = 0) → (∀ q ∈ inlet, q.Free t) →
    v.table = t.withPipe inlet (first + (k - 1)) → holds k inlet → holds (k + 1) (some ⟨ends.1, ends.2⟩)
  rewired : ∀ s : Stage, s.pipeline = p → s.Piped t first → holds s.index s.inlet → holds (s.index + 1) s.outlet →
    s.rewired (s.atFork t first) = wired s.index

namespace Layout

variable {p : Pipeline} {t : Table H} {first k : Nat} {inlet outlet : Option StagePipe} {argv : List String}
  {rest : List (List String)} {executions : List (Execution H)} (L : Layout o host p t first)

/-- The programs of a launch from a stage on, with the tables they get. -/
def started (k : Nat) (rest : List (List String)) : List (Execution H) :=
  (rest.zipIdx k).map fun (argv, k) => ⟨argv, L.wired k⟩

/-- What is seen and known before stage `k` is launched. -/
def Poised (k : Nat) (inlet : Option StagePipe) (rest : List (List String)) (executions : List (Execution H)) (v : View H) : Prop :=
  PipelineShell.Poised p t first k inlet rest executions v ∧ L.holds k inlet

/-- What is seen and known once stage `k` has its outlet. -/
def Forking (k : Nat) (argv : List String) (inlet outlet : Option StagePipe) (rest : List (List String))
    (executions : List (Execution H)) (v : View H) : Prop :=
  PipelineShell.Forking ⟨p, k, argv, inlet, outlet⟩ t first rest executions v ∧ L.holds k inlet ∧ L.holds (k + 1) outlet

theorem ensures_openOutlet (h : o.Posix host) :
    Ensures (o.Guard (L.Poised k inlet (argv :: rest) executions)) (openOutlet host rest)
      (Outcome (fun outlet => o.Guard (L.Forking k argv inlet outlet rest executions)) fun _ => o.Stuck) := by
  unfold openOutlet
  cases rest with
  | nil => exact .pure fun s hs ht => ⟨(hs ht).1.forking_last, (hs ht).2, L.holds_none _⟩
  | cons argv' rest =>
    refine .bind ((h.pipe.and L.holds_pipe).ensures (Q := fun ends =>
      L.Forking k argv inlet (some ⟨ends.1, ends.2⟩) (argv' :: rest) executions) ?_) fun r => .pure fun s hs => ?_
    · rintro v ends v' ⟨hpoised, hholds⟩ ⟨⟨hread, hwrite, hne, hnew, rfl⟩, hpipe⟩
      have hfirst : inlet = none ↔ k = 0 := by simpa using hpoised.inlet_none
      exact ⟨hpoised.forking_next hread hwrite hne hnew, hholds, hpipe k inlet hfirst hpoised.inlet_free hpoised.table hholds⟩
    · cases r with
      | error e => exact hs
      | ok ends => exact hs

/-- A child starts its program with the table that its stage is to have. -/
theorem ensures_fork (h : o.Posix host) :
    Ensures (o.Guard (L.Forking k argv inlet outlet rest executions))
      (host.fork (Stage.start host ⟨p, k, argv, inlet, outlet⟩)).run
      (Outcome (fun _ => o.Guard (L.Forking k argv inlet outlet rest (executions ++ [⟨argv, L.wired k⟩]))) fun _ => o.Stuck) := by
  refine (h.fork _).ensures ?_
  rintro v _ v' ⟨⟨hlength, hpiped, htable, hpipes, hlacks, hexecutions⟩, hinlet, houtlet⟩ ⟨u, hu, hutable, huexecutions, rfl⟩
  have hstart := h.ensures_start _ (o.view u) u (fun _ => rfl) hu
  rw [hutable, huexecutions, hexecutions, htable, L.rewired _ rfl hpiped hinlet houtlet] at hstart
  exact ⟨⟨hlength, hpiped, htable, hpipes, hlacks, hstart⟩, hinlet, houtlet⟩

/-- Closing the inlet leaves what is seen before the next stage. -/
theorem ensures_closeInlet (h : o.Posix host) :
    Ensures (o.Guard (L.Forking k argv inlet outlet rest executions)) (closeInlet host inlet)
      (Outcome (fun _ => o.Guard (L.Poised (k + 1) outlet rest executions)) fun _ => o.Stuck) := by
  unfold closeInlet
  cases inlet with
  | none =>
    refine .pure fun u hu ht => ?_
    obtain ⟨hforking, -, houtlet⟩ := hu ht
    exact ⟨hforking.poised hforking.table hforking.pipes hforking.executions_eq, houtlet⟩
  | some q =>
    refine (Observer.Does.both (h.close q.readEnd) (h.close q.writeEnd) rfl).ensures ?_
    rintro v _ v'' ⟨hforking, -, houtlet⟩ ⟨v', ⟨-, rfl⟩, -, rfl⟩
    refine ⟨hforking.poised ?_ hforking.pipes hforking.executions_eq, houtlet⟩
    show update (update v.table _ _) _ _ = _
    rw [hforking.table, Stage.atFork, close_withPipe (hforking.piped.inlet_free q rfl) _ _ hforking.piped.outlet_free]

/-- Every stage of a launch starts its program with the table it is to have, and the shell is left with the table it began with. -/
theorem ensures_launchFrom (h : o.Posix host) (rest : List (List String)) (k : Nat) (inlet : Option StagePipe)
    (executions : List (Execution H)) :
    Ensures (o.Guard (L.Poised k inlet rest executions)) (launchFrom host p k inlet rest)
      fun l => o.Guard (Launched p t first (executions ++ L.started k rest) l) := by
  induction rest generalizing k inlet executions with
  | nil =>
    refine .pure fun s hs ht => ?_
    obtain ⟨⟨hlength, hnone, -, htable, -, hlacks, hexecutions⟩, -⟩ := hs ht
    obtain rfl := hnone.mpr (.inr rfl)
    refine ⟨rfl, htable, fun j hj => hlacks j (by simp at hlength; omega) hj, ?_⟩
    rw [hexecutions]
    exact (List.append_nil _).symm
  | cons argv rest ih =>
    rw [launchFrom_cons]
    refine .bind (L.ensures_openOutlet h) fun r => ?_
    cases r with
    | error e => exact .bind (h.stuck_abandon _) fun _ => .pure fun s hs ht => absurd ht hs
    | ok outlet =>
      refine .bind (L.ensures_fork h) fun r => ?_
      cases r with
      | error e =>
        exact .bind (h.stuck_abandon _) fun _ => .bind (h.stuck_abandon _) fun _ => .pure fun s hs ht => absurd ht hs
      | ok child =>
        refine .bind (L.ensures_closeInlet h) fun r => ?_
        cases r with
        | error e => exact .bind (h.stuck_abandon _) fun _ => .pure fun s hs ht => absurd ht hs
        | ok _ =>
          refine .bind (ih (k + 1) outlet _) fun l => .pure fun s hs ht => ?_
          obtain ⟨hfailure, htable, hlacks, hexecutions⟩ := hs ht
          refine ⟨hfailure, htable, hlacks, ?_⟩
          rw [hexecutions, List.append_assoc]
          rfl

/-- A launch in which nothing fails, with the tables of a layout. -/
theorem launched (h : o.Posix host) {s : σ} (L : Layout o host p (o.view s).table (o.view s).pipes)
    (hclean : o.clean ((launch host p).run s).2) :
    Launched p (o.view s).table (o.view s).pipes ((o.view s).executions ++ p.commands.mapIdx fun k c => ⟨c.argv, L.wired k⟩)
      ((launch host p).run s).1 (o.view ((launch host p).run s).2) := by
  have hpoised : L.Poised 0 none (p.commands.map Command.argv) (o.view s).executions (o.view s) :=
    ⟨⟨by simp, by simp, by simp, rfl, fun _ => rfl, by simp, rfl⟩, L.holds_none 0⟩
  have hstarted : L.started 0 (p.commands.map Command.argv) = p.commands.mapIdx fun k c => ⟨c.argv, L.wired k⟩ := by
    rw [started, List.zipIdx_map, List.map_map, List.mapIdx_eq_zipIdx_map]
    rfl
  rw [← hstarted]
  exact L.ensures_launchFrom h _ _ _ _ s (fun _ => hpoised) hclean

end Layout

section

variable {t : Table H} {p : Pipeline} {first k : Nat}

/-- Where the shell has both standard descriptors nothing has to be known of the pipes. -/
def Layout.standard (h : o.Posix host) (h0 : t standardInput ≠ none) (h1 : t standardOutput ≠ none) : Layout o host p t first where
  holds _ _ := True
  wired := p.wired t first
  holds_none _ := trivial
  holds_pipe := h.pipe.weaken fun _ _ _ _ _ _ _ _ _ _ => trivial
  rewired _ hp hpiped _ _ := hp ▸ hpiped.rewired h0 h1

/-- Every stage is started with its two neighbours as standard input and output. -/
theorem Observer.Posix.ensures_launchFrom (h : o.Posix host) (h0 : t standardInput ≠ none) (h1 : t standardOutput ≠ none)
    (rest : List (List String)) (k : Nat) (inlet : Option StagePipe) (executions : List (Execution H)) :
    Ensures (o.Guard (Poised p t first k inlet rest executions)) (launchFrom host p k inlet rest)
      fun l => o.Guard (Launched p t first (executions ++ p.started t first k rest) l) :=
  ((Layout.standard h h0 h1).ensures_launchFrom h rest k inlet executions).strengthen fun _ hs ht => ⟨hs ht, trivial⟩

theorem source_ne_writeEnd {n : Nat} (hlacks : t.Lacks n) : p.source t first k ≠ some (.writeEnd n) := by
  unfold Pipeline.source
  split
  · exact nofun
  · cases p.input with
    | none => exact (hlacks standardInput).2
    | some path => exact nofun

theorem sink_ne_readEnd {n : Nat} (hlacks : t.Lacks n) : p.sink t first k ≠ some (.readEnd n) := by
  unfold Pipeline.sink
  split
  · exact nofun
  · cases p.output with
    | none => exact (hlacks standardOutput).1
    | some target => exact nofun

theorem source_eq_readEnd_iff {j : Nat} (hlacks : t.Lacks (first + j)) :
    p.source t first k = some (.readEnd (first + j)) ↔ k = j + 1 := by
  unfold Pipeline.source
  split
  · simp only [Option.some.injEq, Source.readEnd.injEq]
    omega
  · refine iff_of_false ?_ (by omega)
    cases p.input with
    | none => exact (hlacks standardInput).1
    | some path => exact nofun

theorem sink_eq_writeEnd_iff {j : Nat} (hlacks : t.Lacks (first + j)) (hj : j + 1 < p.commands.length) :
    p.sink t first k = some (.writeEnd (first + j)) ↔ k = j := by
  unfold Pipeline.sink
  split
  · simp only [Option.some.injEq, Source.writeEnd.injEq]
    omega
  · refine iff_of_false ?_ (by omega)
    cases p.output with
    | none => exact (hlacks standardOutput).2
    | some target => exact nofun

/-- The read end of a pipe is standard input of the stage after it, and no other stage has it. -/
theorem wired_eq_readEnd_iff {j : Nat} (hlacks : t.Lacks (first + j)) (fd : Fd) :
    p.wired t first k fd = some (.readEnd (first + j)) ↔ fd = standardInput ∧ k = j + 1 := by
  simp only [Pipeline.wired, update_apply]
  split
  · rename_i hfd
    refine iff_of_false (sink_ne_readEnd hlacks) fun h => ?_
    exact absurd (hfd.symm.trans h.1) (by decide)
  · split
    · rename_i hfd
      rw [source_eq_readEnd_iff hlacks, and_iff_right hfd]
    · rename_i hfd
      exact iff_of_false (hlacks fd).1 fun h => hfd h.1

/-- The write end of a pipe is standard output of the stage before it, and no other stage has it. -/
theorem wired_eq_writeEnd_iff {j : Nat} (hlacks : t.Lacks (first + j)) (hj : j + 1 < p.commands.length) (fd : Fd) :
    p.wired t first k fd = some (.writeEnd (first + j)) ↔ fd = standardOutput ∧ k = j := by
  simp only [Pipeline.wired, update_apply]
  split
  · rename_i hfd
    rw [sink_eq_writeEnd_iff hlacks hj, and_iff_right hfd]
  · rename_i hout
    split
    · exact iff_of_false (source_ne_writeEnd hlacks) fun h => hout h.1
    · exact iff_of_false (hlacks fd).2 fun h => hout h.1

end

/-- If no call fails, every stage of a launch starts its program with descriptor 0 from the stage before, descriptor 1 to the stage
after and the rest as the shell has it, so that an end of a pipe is where it is wanted and nowhere else; and the shell is left with
the table it began with. -/
theorem launch_tables (h : o.Posix host) (p : Pipeline) (s : σ) (h0 : (o.view s).table standardInput ≠ none)
    (h1 : (o.view s).table standardOutput ≠ none) (hclean : o.clean ((launch host p).run s).2) :
    ((launch host p).run s).1.failure = none ∧
      (o.view ((launch host p).run s).2).table = (o.view s).table ∧
      (o.view ((launch host p).run s).2).executions = (o.view s).executions ++
        p.commands.mapIdx (fun k c => ⟨c.argv, p.wired (o.view s).table (o.view s).pipes k⟩) ∧
      ∀ j k fd, j + 1 < p.commands.length →
        (p.wired (o.view s).table (o.view s).pipes k fd = some (.readEnd ((o.view s).pipes + j)) ↔
            fd = standardInput ∧ k = j + 1) ∧
          (p.wired (o.view s).table (o.view s).pipes k fd = some (.writeEnd ((o.view s).pipes + j)) ↔
            fd = standardOutput ∧ k = j) := by
  have hpoised : Poised p (o.view s).table (o.view s).pipes 0 none (p.commands.map Command.argv) (o.view s).executions
      (o.view s) :=
    ⟨by simp, by simp, nofun, rfl, fun _ => rfl, nofun, rfl⟩
  obtain ⟨hfailure, htable, hlacks, hexecutions⟩ := h.ensures_launchFrom h0 h1 _ _ _ _ s (fun _ => hpoised) hclean
  refine ⟨hfailure, htable, ?_, fun j k fd hj => ⟨?_, ?_⟩⟩
  · refine hexecutions.trans ?_
    rw [Pipeline.started, List.zipIdx_map, List.map_map, List.mapIdx_eq_zipIdx_map]
    rfl
  · exact wired_eq_readEnd_iff (hlacks j hj) fd
  · exact wired_eq_writeEnd_iff (hlacks j hj) hj fd

/-- Three stages with a file at either end. -/
def threeStages : Pipeline := ⟨[⟨"sort", []⟩, ⟨"uniq", ["-c"]⟩, ⟨"head", []⟩], some "words", some ⟨"counts", .append⟩⟩

/-- A process whose standard descriptors refer to a terminal. -/
def standardBench : Bench where
  descriptors := ⟨List.replicate 3 (some (.inherited "terminal"))⟩
  numbered n _ fd := by
    match fd with
    | 0 | 1 | 2 => exact ⟨nofun, nofun⟩
    | .ofNat (m + 3) => exact ⟨nofun, nofun⟩
    | .negSucc m => exact ⟨nofun, nofun⟩

/-- What the three stages have as their standard descriptors, and that the shell has its own ones as before. -/
theorem launch_tables_three_stages :
    ((launch tableHost threeStages).run standardBench).2.executions.map
        (fun e => (e.argv, e.table standardInput, e.table standardOutput, e.table 2)) =
      [(["sort"], some (.file "words" { access := .read }), some (.writeEnd 0), some (.inherited "terminal")),
        (["uniq", "-c"], some (.readEnd 0), some (.writeEnd 1), some (.inherited "terminal")),
        (["head"], some (.readEnd 1), some (.file "counts" (Redirect.outputFlags .append)), some (.inherited "terminal"))] ∧
      ((launch tableHost threeStages).run standardBench).2.descriptors.get? = standardBench.descriptors.get? := by
  obtain ⟨-, htable, hexecutions, -⟩ :=
    launch_tables tableHost_posix threeStages standardBench (by decide) (by decide) (by rfl)
  have hexecutions : ((launch tableHost threeStages).run standardBench).2.executions = _ := hexecutions
  refine ⟨?_, htable⟩
  rw [hexecutions]
  rfl

end PipelineShell
