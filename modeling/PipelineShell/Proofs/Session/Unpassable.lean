import PipelineShell.Proofs.Executor.Fates
import PipelineShell.Proofs.Line.Measure
import PipelineShell.Proofs.Session.Routing

/-!
# Arguments that cannot be passed on

The arguments of a program end at a NUL character, so one that holds such a character cannot be passed on. All arguments of all stages
are looked through before the host is asked for anything: the first one of this kind is the result of the pipeline, which then has had
no effect (`runPipeline_unpassable`).
-/

namespace PipelineShell

/-! ## The first NUL character -/

/-- The first NUL character of a text stands at this byte. -/
def FirstNul (text : List Char) (position : Nat) : Prop :=
  ∃ head tail, text = head ++ Char.ofNat 0 :: tail ∧ Char.ofNat 0 ∉ head ∧ position = (String.ofList head).utf8ByteSize

theorem nulPosition?_eq_some_iff {text : List Char} {position : Nat} : nulPosition? text = some position ↔ FirstNul text position := by
  induction text generalizing position with
  | nil => exact iff_of_false nofun fun ⟨head, tail, htext, _⟩ => by cases head <;> nomatch htext
  | cons c rest ih =>
    rw [nulPosition?]
    split
    · rename_i hc
      constructor
      · rintro ⟨⟩
        exact ⟨[], rest, by rw [hc]; rfl, List.not_mem_nil, rfl⟩
      · rintro ⟨head, tail, htext, hhead, rfl⟩
        cases head with
        | nil => rfl
        | cons d head =>
          obtain ⟨rfl, -⟩ := List.cons.inj htext
          exact absurd (hc ▸ List.mem_cons_self) hhead
    · rename_i hc
      rw [Option.map_eq_some_iff]
      constructor
      · rintro ⟨n, hn, rfl⟩
        obtain ⟨head, tail, rfl, hhead, rfl⟩ := ih.mp hn
        refine ⟨c :: head, tail, rfl, ?_, (Line.utf8ByteSize_ofList_cons c head).symm⟩
        exact List.not_mem_cons_of_ne_of_not_mem (Ne.symm hc) hhead
      · rintro ⟨head, tail, htext, hhead, rfl⟩
        cases head with
        | nil => exact absurd (List.cons.inj htext).1 hc
        | cons d head =>
          obtain ⟨rfl, rfl⟩ := List.cons.inj htext
          refine ⟨_, ih.mpr ⟨head, tail, rfl, ?_, rfl⟩, (Line.utf8ByteSize_ofList_cons c head).symm⟩
          exact fun hmem => hhead (List.mem_cons_of_mem c hmem)

theorem nulPosition?_eq_none_iff {text : List Char} : nulPosition? text = none ↔ Char.ofNat 0 ∉ text :=
  ⟨not_mem_of_nulPosition?_eq_none, nulPosition?_eq_none text⟩

/-- Of the arguments of a command the first one with a NUL character has it at this byte. -/
def Command.Unpassable (c : Command) (position : Nat) : Prop :=
  ∃ before arg after, c.argv = before ++ arg :: after ∧ (∀ other ∈ before, Char.ofNat 0 ∉ other.toList) ∧
    FirstNul arg.toList position

/-- The first command of a pipeline that has such an argument is this program, and has it at this byte. -/
def Pipeline.Unpassable (p : Pipeline) (program : String) (position : Nat) : Prop :=
  ∃ before c after, p.commands = before ++ c :: after ∧
    (∀ other ∈ before, ∀ arg ∈ other.argv, Char.ofNat 0 ∉ arg.toList) ∧ program = c.name ∧ c.Unpassable position

theorem Command.invalid?_eq_none_iff {c : Command} : c.invalid? = none ↔ ∀ arg ∈ c.argv, Char.ofNat 0 ∉ arg.toList := by
  rw [invalid?, Option.map_eq_none_iff, List.findSome?_eq_none_iff]
  exact forall₂_congr fun _ _ => nulPosition?_eq_none_iff

theorem Command.invalid?_eq_some_iff {c : Command} {e : ExecError} :
    c.invalid? = some e ↔ ∃ position, c.Unpassable position ∧ .invalidArgument c.name position = e := by
  rw [invalid?, Option.map_eq_some_iff]
  refine exists_congr fun position => and_congr_left' ?_
  rw [List.findSome?_eq_some_iff]
  simp only [nulPosition?_eq_some_iff, nulPosition?_eq_none_iff]
  exact exists_congr fun before => exists_congr fun arg => exists_congr fun after => and_congr_right' and_comm

/-- It is what is found before anything is started. -/
theorem Pipeline.findSome?_invalid?_eq_some_iff {p : Pipeline} {program : String} {position : Nat} :
    p.commands.findSome? Command.invalid? = some (.invalidArgument program position) ↔ p.Unpassable program position := by
  rw [List.findSome?_eq_some_iff]
  refine exists_congr fun before => exists_congr fun c => exists_congr fun after => and_congr_right' ?_
  rw [Command.invalid?_eq_some_iff]
  simp only [Command.invalid?_eq_none_iff]
  constructor
  · rintro ⟨⟨_, hc, ⟨⟩⟩, hbefore⟩
    exact ⟨hbefore, rfl, hc⟩
  · rintro ⟨hbefore, rfl, hc⟩
    exact ⟨⟨position, hc, rfl⟩, hbefore⟩

theorem Pipeline.exists_unpassable_iff {p : Pipeline} : (∃ program position, p.Unpassable program position) ↔ ¬ p.NulFree := by
  constructor
  · rintro ⟨program, position, h⟩ hfree
    nomatch hfree.findSome?_invalid?.symm.trans (findSome?_invalid?_eq_some_iff.mpr h)
  · intro h
    obtain ⟨program, position, hfound⟩ := exists_invalid?_of_not_nulFree h
    exact ⟨program, position, findSome?_invalid?_eq_some_iff.mp hfound⟩

/-! ## Running a pipeline -/

section

variable {σ : Type} {host : Host σ} {mode : WaitMode} {p : Pipeline} {stragglers : Stragglers} {s : σ} {program : String}
  {position : Nat}

/-- What stops a launch is a call, never an argument. -/
theorem ensures_launchFrom_called (host : Host σ) (p : Pipeline) (index : Nat) (inlet : Option StagePipe) (argvs : List (List String)) :
    Ensures (fun _ => True) (launchFrom host p index inlet argvs) fun l _ =>
      ∀ program position, l.failure ≠ some (.invalidArgument program position) := by
  induction argvs generalizing index inlet with
  | nil => exact .pure fun _ _ _ _ => nofun
  | cons argv rest ih =>
    rw [launchFrom_cons]
    have hany {α : Type} (c : StateM σ α) : Ensures (fun _ => True) c fun _ _ => True := fun _ _ => trivial
    refine (hany _).bind fun opened => ?_
    cases opened with
    | error e => exact (hany _).bind fun _ => .pure fun _ _ _ _ => nofun
    | ok outlet =>
      refine (hany _).bind fun forked => ?_
      cases forked with
      | error e => exact (hany _).bind fun _ => (hany _).bind fun _ => .pure fun _ _ _ _ => nofun
      | ok child =>
        refine (hany _).bind fun closed => ?_
        cases closed with
        | error e => exact (hany _).bind fun _ => .pure fun _ _ _ _ => nofun
        | ok _ => exact (ih (index + 1) outlet).bind fun _ => .pure fun _ h => h

/-- What ends the waits is an answer, never an argument. -/
theorem ensures_collect_answered (host : Host σ) (mode : WaitMode) (stragglers : Stragglers) (code : ExitCode)
    (stages : List (Pid × Command)) :
    Ensures (fun _ => True) (collect host mode stragglers code stages) fun r _ =>
      ∀ program position, r.outcome ≠ .error (.invalidArgument program position) := by
  induction stages generalizing stragglers code with
  | nil => exact .pure fun _ _ _ _ => nofun
  | cons stage pending ih =>
    obtain ⟨child, command⟩ := stage
    rw [collect_cons]
    refine Ensures.bind (Q := fun _ _ => True) (fun _ _ => trivial) fun answer => ?_
    split
    · exact ih _ _
    · cases answer <;> exact .pure fun _ _ _ _ => nofun

/-- A pipeline with an argument that cannot be passed on asks nothing of the host. -/
theorem runPipeline_of_unpassable (h : p.Unpassable program position) :
    (runPipeline host mode p stragglers).run s = (⟨.error (.invalidArgument program position), stragglers⟩, s) := by
  rw [runPipeline, Pipeline.findSome?_invalid?_eq_some_iff.mpr h]
  rfl

/-- No other pipeline comes to that. -/
theorem unpassable_of_runPipeline
    (h : ((runPipeline host mode p stragglers).run s).1.outcome = .error (.invalidArgument program position)) :
    p.Unpassable program position := by
  by_cases hfree : p.NulFree
  · have hruns : Ensures (fun _ => True) (runPipeline host mode p stragglers) fun r _ =>
        ∀ program position, r.outcome ≠ .error (.invalidArgument program position) := by
      rw [runPipeline, hfree.findSome?_invalid?]
      refine (ensures_launchFrom_called host p _ _ _).bind fun launched => ?_
      cases hfailure : launched.failure with
      | none => exact (ensures_collect_answered host _ _ _ _).strengthen fun _ _ => trivial
      | some e => exact .pure fun _ hcalled program position heq => hcalled program position (congrArg some (Except.error.inj heq))
    exact absurd h (hruns s trivial program position)
  · obtain ⟨program', position', hp⟩ := Pipeline.exists_unpassable_iff.mpr hfree
    rw [runPipeline_of_unpassable hp] at h
    cases h
    exact hp

end

/-! ## Running its line -/

namespace Shell

variable {σ : Type} {host : Host σ} {s t : Session σ} {p : Pipeline} {program : String} {position : Nat} {status status' : ExitCode}
  {before rest : List Statement}

/-- Statements after others are run from what those have left, if the session is not to end. -/
theorem runStatements_append_of_stay (hrun : (runStatements host status before).run s = (status', t))
    (hstay : t.shell.env.shouldExit = false) :
    (runStatements host status (before ++ rest)).run s = (runStatements host status' rest).run t := by
  induction before generalizing status s with
  | nil =>
    cases hrun
    rfl
  | cons statement before ih =>
    rw [runStatements_cons] at hrun
    rw [List.cons_append, runStatements_cons]
    by_cases hexit : ((runStatement host statement).run s).2.shell.env.shouldExit = true
    · rw [if_pos hexit] at hrun
      rw [hrun, hstay] at hexit
      nomatch hexit
    · rw [if_neg hexit] at hrun
      rw [if_neg hexit, ih hrun]

/-- Of a statement with such an argument there is a complaint and nothing else. -/
theorem runStatement_of_unpassable (h : p.Unpassable program position) (hprocesses : ¬ ∃ c code, p.Handled s.shell.builtins c code) :
    (runStatement host (.ready p)).run s = (1, s.complain host (ExecError.invalidArgument program position).message) :=
  runReady_of_not_handled hprocesses (runPipeline_of_unpassable h)

end Shell

/-- A pipeline comes to an argument that cannot be passed on exactly if there is one with a NUL character, whatever the host, the mode
and the stragglers. It then names the program of the first stage that has one, and the byte at which the first of these arguments holds
its first; nothing is asked of the host, and the stragglers are the same. In a line the statement has status 1, with a complaint and no
other effect, and the statements after it are run. -/
theorem runPipeline_unpassable {σ : Type} (host : Host σ) (mode : WaitMode) (p : Pipeline) (stragglers : Stragglers) (s : σ) :
    ((∃ program position, ((runPipeline host mode p stragglers).run s).1.outcome = .error (.invalidArgument program position)) ↔
      ∃ c ∈ p.commands, ∃ arg ∈ c.argv, Char.ofNat 0 ∈ arg.toList) ∧
    (∀ program position, ((runPipeline host mode p stragglers).run s).1.outcome = .error (.invalidArgument program position) ↔
      p.Unpassable program position) ∧
    ∀ program position, p.Unpassable program position →
      (runPipeline host mode p stragglers).run s = (⟨.error (.invalidArgument program position), stragglers⟩, s) ∧
      ∀ (line : String) (u t : Session σ) (before rest : List Statement) (status : ExitCode),
        parseLine u.shell.limits (Shell.trimLine line) = .ok (before ++ .ready p :: rest) →
        (Shell.runStatements host 0 before).run (u.reaped host) = (status, t) → t.shell.env.shouldExit = false →
        (¬ ∃ c code, p.Handled t.shell.builtins c code) →
          (Shell.runStatement host (.ready p)).run t =
              (1, t.complain host (ExecError.invalidArgument program position).message) ∧
            (Shell.executeLine host line).run u =
              (Shell.runStatements host 1 rest).run (t.complain host (ExecError.invalidArgument program position).message) := by
  have hiff (program : String) (position : Nat) :
      ((runPipeline host mode p stragglers).run s).1.outcome = .error (.invalidArgument program position) ↔
        p.Unpassable program position :=
    ⟨unpassable_of_runPipeline, fun h => by rw [runPipeline_of_unpassable h]⟩
  refine ⟨?_, hiff, fun program position h => ⟨runPipeline_of_unpassable h, ?_⟩⟩
  · simp only [hiff]
    rw [Pipeline.exists_unpassable_iff, Pipeline.NulFree]
    simp only [not_forall, not_not, exists_prop]
  · intro line u t before rest status hparse hbefore hstay hprocesses
    have hstatement : (Shell.runStatement host (.ready p)).run t = _ := Shell.runStatement_of_unpassable h hprocesses
    refine ⟨hstatement, ?_⟩
    rw [Shell.executeLine_of_ok hparse, Shell.runStatements_append_of_stay hbefore hstay, Shell.runStatements_cons, hstatement]
    exact if_neg (by rw [show (t.complain host _).shell.env.shouldExit = false from hstay]; exact Bool.false_ne_true)

/-- Two stages, of which the second has an argument with a NUL character, and a file to be written. -/
def cutPipeline : Pipeline := ⟨[⟨"true", []⟩, ⟨"echo", ["a", "\u00e9\x00b"]⟩], none, some ⟨"out", .truncate⟩⟩

/-- That character is the third byte of the argument. On a line with another statement, that is run: it leaves the session. -/
theorem runPipeline_unpassable_cut :
    cutPipeline.Unpassable "echo" 2 ∧
    (runPipeline tableHost .poll cutPipeline [7]).run bareBench = (⟨.error (.invalidArgument "echo" 2), [7]⟩, bareBench) ∧
    parseLine {} (Shell.trimLine "true|echo a \u00e9\x00b>out;leave\n") =
      .ok [.ready cutPipeline, .ready ⟨[⟨"leave", []⟩], none, none⟩] ∧
    ((Shell.executeLine tableHost "true|echo a \u00e9\x00b>out;leave\n").run leaverSession).1 = 3 := by
  have hcut : cutPipeline.Unpassable "echo" 2 := by
    refine ⟨[⟨"true", []⟩], ⟨"echo", ["a", "\u00e9\x00b"]⟩, [], rfl, by decide, rfl, ["echo", "a"], "\u00e9\x00b", [], rfl, by decide, ?_⟩
    exact ⟨['\u00e9'], ['b'], by decide, by decide, by decide⟩
  have hparse : parseLine {} (Shell.trimLine "true|echo a \u00e9\x00b>out;leave\n") =
      .ok [.ready cutPipeline, .ready ⟨[⟨"leave", []⟩], none, none⟩] := by rfl
  have hprocesses : ¬ ∃ c code, cutPipeline.Handled leaverSession.shell.builtins c code := fun ⟨_, _, h⟩ => nomatch h.commands
  obtain ⟨hrun, hline⟩ := (runPipeline_unpassable tableHost .poll cutPipeline [7] bareBench).2.2 "echo" 2 hcut
  obtain ⟨-, hexecute⟩ := hline _ leaverSession _ [] _ 0 hparse rfl rfl hprocesses
  refine ⟨hcut, hrun, hparse, ?_⟩
  rw [hexecute]
  rfl

end PipelineShell
