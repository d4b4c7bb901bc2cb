import PipelineShell.Proofs.Session.ExecuteLine

/-!
# In the shell or as processes

A statement that is ready goes one of two ways. The first builtin of the table that accepts its only command runs in the shell's own
process and writes to standard output; then nothing else is asked of the host than to report its failure, and the redirections of the
statement mean nothing. Every other statement is one run of its pipeline, after which the environment is what it was. `runStatement_routed` says which
way a statement goes, and what it leaves.
-/

namespace PipelineShell

variable {σ : Type}

/-- The status that an outcome counts for: an error counts as 1. -/
def statusOf {ε : Type} : Except ε ExitCode → ExitCode
  | .ok code => code
  | .error _ => 1

/-- A pipeline of one command that some builtin of a table accepts, with what the first of those does for it. -/
structure Pipeline.Handled (p : Pipeline) (builtins : List (Builtin σ)) (c : Command) (code : BuiltinM σ ExitCode) : Prop where
  commands : p.commands = [c]
  first : ∃ before b after, builtins = before ++ b :: after ∧ b.create? c.name c.args = some code ∧
    ∀ other ∈ before, other.create? c.name c.args = none

theorem Pipeline.single?_eq_some_iff {p : Pipeline} {c : Command} : p.single? = some c ↔ p.commands = [c] := by
  unfold single?
  split
  · rename_i only hcommands
    rw [hcommands, Option.some.injEq, List.cons.injEq, and_iff_left rfl]
  · rename_i hcommands
    exact iff_of_false nofun (hcommands c)

/-- It is what the table is searched for. -/
theorem Pipeline.handled_iff {p : Pipeline} {builtins : List (Builtin σ)} {c : Command} {code : BuiltinM σ ExitCode} :
    p.Handled builtins c code ↔ p.single? = some c ∧ Shell.findBuiltin? builtins c = some code := by
  rw [single?_eq_some_iff, Shell.findBuiltin?, List.findSome?_eq_some_iff]
  exact ⟨fun h => ⟨h.commands, h.first⟩, fun h => ⟨h.1, h.2⟩⟩

/-- A pipeline is handled exactly if it has one command and some builtin accepts that. -/
theorem Pipeline.exists_handled_iff {p : Pipeline} {builtins : List (Builtin σ)} :
    (∃ c code, p.Handled builtins c code) ↔
      ∃ c, p.commands = [c] ∧ ∃ b ∈ builtins, (b.create? c.name c.args).isSome := by
  constructor
  · rintro ⟨c, code, hcommands, before, b, after, rfl, hcode, -⟩
    exact ⟨c, hcommands, b, List.mem_append_right before List.mem_cons_self, hcode ▸ rfl⟩
  · rintro ⟨c, hcommands, hsome⟩
    obtain ⟨code, hcode⟩ := Option.isSome_iff_exists.mp (List.findSome?_isSome_iff.mpr hsome)
    exact ⟨c, code, handled_iff.mpr ⟨single?_eq_some_iff.mpr hcommands, hcode⟩⟩

namespace Session

/-- A session in which a builtin has run: the environment is what the builtin has made of it. Its failure is reported under the name of
the command. -/
def afterBuiltin (host : Host σ) (s : Session σ) (c : Command) (outcome : Except Failure ExitCode) (after : BuiltinState σ) :
    Session σ :=
  let ended : Session σ := { shell := { s.shell with env := after.env }, host := after.host }
  match outcome with
  | .ok _ => ended
  | .error failure => ended.complain host (c.name ++ ": " ++ failure.message)

theorem env_afterBuiltin (host : Host σ) (s : Session σ) (c : Command) (outcome : Except Failure ExitCode) (after : BuiltinState σ) :
    (s.afterBuiltin host c outcome after).shell.env = after.env := by
  cases outcome <;> rfl

/-- A session in which a pipeline has been run as processes: only the stragglers are others. A failure is reported. -/
def afterProcesses (host : Host σ) (s : Session σ) (result : PipelineResult) (t : σ) : Session σ :=
  let ended : Session σ := { shell := { s.shell with stragglers := result.stragglers }, host := t }
  match result.outcome with
  | .ok _ => ended
  | .error e => ended.complain host e.message

theorem env_afterProcesses (host : Host σ) (s : Session σ) (result : PipelineResult) (t : σ) :
    (s.afterProcesses host result t).shell.env = s.shell.env := by
  unfold afterProcesses
  split <;> rfl

end Session

namespace Shell

variable {host : Host σ} {s : Session σ} {p : Pipeline} {c : Command} {code : BuiltinM σ ExitCode}

/-- What a builtin starts from: the environment of the session, and standard output to write to. -/
def builtinState (host : Host σ) (s : Session σ) : BuiltinState σ :=
  { env := s.shell.env, writer := .stream host.print, host := s.host }

theorem runBuiltin_run {outcome : Except Failure ExitCode} {after : BuiltinState σ}
    (hrun : code.run.run (builtinState host s) = (outcome, after)) :
    (runBuiltin code (.stream host.print)).run s =
      ((outcome, after.writer), { shell := { s.shell with env := after.env }, host := after.host }) := by
  show (fun ran : Except Failure ExitCode × BuiltinState σ => ((ran.1, ran.2.writer),
    ({ shell := { s.shell with env := ran.2.env }, host := ran.2.host } : Session σ))) (code.run.run (builtinState host s)) = _
  rw [hrun]

/-- A pipeline that is handled comes to one run of the builtin, whatever that comes to. -/
theorem runReady_of_handled (h : p.Handled s.shell.builtins c code) {outcome : Except Failure ExitCode} {after : BuiltinState σ}
    (hrun : code.run.run (builtinState host s) = (outcome, after)) :
    (runReady host p).run s = (statusOf outcome, s.afterBuiltin host c outcome after) := by
  obtain ⟨hsingle, hfind⟩ := Pipeline.handled_iff.mp h
  have htry : (tryBuiltin host c (.stream host.print)).run s =
      ((.ranAsBuiltin (statusOf outcome), after.writer), s.afterBuiltin host c outcome after) := by
    rw [tryBuiltin, run_bind_of_run (get_run s), hfind]
    cases outcome with
    | ok status => exact run_bind_of_run (runBuiltin_run hrun) _
    | error failure => exact run_bind_of_run (runBuiltin_run hrun) _
  rw [runReady, hsingle]
  exact run_bind_of_run htry _

/-- Running a pipeline as processes comes to one run of it. -/
theorem runProcesses_run {result : PipelineResult} {t : σ}
    (hrun : (runPipeline host s.shell.wait p s.shell.stragglers).run s.host = (result, t)) :
    (runProcesses host p).run s = (statusOf result.outcome, s.afterProcesses host result t) := by
  obtain ⟨outcome, stragglers⟩ := result
  have honHost : (onHost (runPipeline host s.shell.wait p s.shell.stragglers)).run s = (⟨outcome, stragglers⟩, { s with host := t }) := by
    show (fun ran : PipelineResult × σ => (ran.1, { s with host := ran.2 })) ((runPipeline host _ p _).run s.host) = _
    rw [hrun]
  rw [runProcesses, run_bind_of_run (get_run s), run_bind_of_run honHost]
  cases outcome <;> rfl

/-- Where no builtin recognises it, a pipeline is run as processes. -/
theorem runReady_of_none (h : ∀ c, p.single? = some c → findBuiltin? s.shell.builtins c = none) :
    (runReady host p).run s = (runProcesses host p).run s := by
  rw [runReady]
  cases hsingle : p.single? with
  | none => rfl
  | some c =>
    have htry : (tryBuiltin host c (.stream host.print)).run s = ((.notABuiltin, .stream host.print), s) := by
      rw [tryBuiltin, run_bind_of_run (get_run s), h c hsingle]
      rfl
    exact run_bind_of_run htry _

/-- A pipeline that is not handled comes to one run of it. -/
theorem runReady_of_not_handled (h : ¬ ∃ c code, p.Handled s.shell.builtins c code) {result : PipelineResult} {t : σ}
    (hrun : (runPipeline host s.shell.wait p s.shell.stragglers).run s.host = (result, t)) :
    (runReady host p).run s = (statusOf result.outcome, s.afterProcesses host result t) := by
  refine (runReady_of_none fun c hsingle => ?_).trans (runProcesses_run hrun)
  rw [Option.eq_none_iff_forall_ne_some]
  exact fun code hfind => h ⟨c, code, Pipeline.handled_iff.mpr ⟨hsingle, hfind⟩⟩

/-- Two hosts that complain and print alike make no difference to a pipeline that is handled, and neither do its redirections. -/
theorem runReady_congr_of_handled (h : p.Handled s.shell.builtins c code) {other : Host σ} (hcomplain : other.complain = host.complain)
    (hprint : other.print = host.print) (input : Option String) (output : Option OutputTarget) :
    (runReady other { p with input, output }).run s = (runReady host p).run s := by
  have h' : Pipeline.Handled { p with input, output } s.shell.builtins c code := ⟨h.commands, h.first⟩
  rcases hrun : code.run.run (builtinState host s) with ⟨outcome, after⟩
  have hother : code.run.run (builtinState other s) = (outcome, after) := by rw [builtinState, hprint, ← hrun, builtinState]
  rw [runReady_of_handled h hrun, runReady_of_handled h' hother]
  unfold Session.afterBuiltin Session.complain
  rw [hcomplain]

/-- Which way a statement goes that is ready, and what it leaves. It is handled in the shell's own process exactly if it has one command
and some builtin of the table accepts that. Then it comes to one run of what the first of those does for it, on standard output and with a
failure counting as 1, and of the host nothing is asked besides but to complain: one that complains and prints alike and does all the rest
otherwise makes no difference, and neither do the redirections. A statement that is not handled comes to one run of its pipeline, and
leaves the environment as it is. -/
theorem runStatement_routed (host : Host σ) (p : Pipeline) (s : Session σ) :
    ((∃ c code, p.Handled s.shell.builtins c code) ↔
      ∃ c, p.commands = [c] ∧ ∃ b ∈ s.shell.builtins, (b.create? c.name c.args).isSome) ∧
    (∀ c code, p.Handled s.shell.builtins c code →
      (∃ outcome after, code.run.run { env := s.shell.env, writer := .stream host.print, host := s.host } = (outcome, after) ∧
        (runStatement host (.ready p)).run s = (statusOf outcome, s.afterBuiltin host c outcome after)) ∧
      ∀ (other : Host σ) (input : Option String) (output : Option OutputTarget), other.complain = host.complain →
        other.print = host.print →
          (runStatement other (.ready { p with input, output })).run s = (runStatement host (.ready p)).run s) ∧
    ((¬ ∃ c code, p.Handled s.shell.builtins c code) →
      ∃ result t, (runPipeline host s.shell.wait p s.shell.stragglers).run s.host = (result, t) ∧
        (runStatement host (.ready p)).run s = (statusOf result.outcome, s.afterProcesses host result t) ∧
        (s.afterProcesses host result t).shell.env = s.shell.env) := by
  refine ⟨Pipeline.exists_handled_iff, fun c code h => ⟨?_, fun other input output hcomplain hprint => ?_⟩, fun h => ?_⟩
  · rcases hrun : code.run.run (builtinState host s) with ⟨outcome, after⟩
    exact ⟨outcome, after, hrun, runReady_of_handled h hrun⟩
  · exact runReady_congr_of_handled h hcomplain hprint input output
  · rcases hrun : (runPipeline host s.shell.wait p s.shell.stragglers).run s.host with ⟨result, t⟩
    exact ⟨result, t, rfl, runReady_of_not_handled h hrun, s.env_afterProcesses host result t⟩

end Shell

/-- Three builtins of one name. The first stands only for calls with an argument; the second fails. -/
def marks : List ScriptedBuiltin :=
  [{ name := "mark", minArgs := 1, code := 5 }, { name := "mark", failure? := some ⟨"no mark", ["left"]⟩ }, { name := "mark", code := 9 }]

/-- A session with these and no others. -/
def markSession : Session Bench where
  shell := { env := {}, builtins := marks.map (·.toBuiltin tableHost) }
  host := bareBench

/-- A call without arguments, with both redirections. -/
def redirectedMark : Pipeline := ⟨[⟨"mark", []⟩], some "in", some ⟨"out", .truncate⟩⟩

/-- The host that keeps a table, with files that cannot be opened. -/
def lockedHost : Host Bench := { tableHost with openFile := fun _ _ _ => Bench.refuse .accessDenied }

/-- The call without arguments is one of the second, whose failure counts as 1, also where no file can be opened. The same call is run as
processes where it is one of two stages, and there all are launched. -/
theorem Shell.runStatement_routed_mark :
    (∃ code, redirectedMark.Handled markSession.shell.builtins ⟨"mark", []⟩ code) ∧
    ((runStatement lockedHost (.ready redirectedMark)).run markSession).1 = 1 ∧
    (¬ ∃ c code, Pipeline.Handled ⟨[⟨"mark", []⟩, ⟨"true", []⟩], none, none⟩ markSession.shell.builtins c code) ∧
    ((runStatement tableHost (.ready ⟨[⟨"mark", []⟩, ⟨"true", []⟩], none, none⟩)).run markSession).2.shell.stragglers = [0, 1] := by
  have hsecond : redirectedMark.Handled markSession.shell.builtins ⟨"mark", []⟩ (marks[1].run tableHost []) :=
    ⟨rfl, [marks[0].toBuiltin tableHost], _, [marks[2].toBuiltin tableHost], rfl, rfl, fun other hother => by
      rw [List.mem_singleton.mp hother]
      rfl⟩
  have htwo : ¬ ∃ c code, Pipeline.Handled ⟨[⟨"mark", []⟩, ⟨"true", []⟩], none, none⟩ markSession.shell.builtins c code :=
    fun ⟨_, _, h⟩ => nomatch h.commands
  refine ⟨⟨_, hsecond⟩, ?_, htwo, ?_⟩
  · obtain ⟨⟨outcome, after, hrun, hstatus⟩, hsame⟩ :=
      (runStatement_routed tableHost redirectedMark markSession).2.1 ⟨"mark", []⟩ _ hsecond
    obtain rfl : .error ⟨"no mark", ["left"]⟩ = outcome := congrArg Prod.fst hrun
    have hlocked := (hsame lockedHost (some "in") (some ⟨"out", .truncate⟩) rfl rfl).trans hstatus
    exact congrArg Prod.fst hlocked
  · obtain ⟨result, t, hrun, hstatus, -⟩ :=
      (runStatement_routed tableHost ⟨[⟨"mark", []⟩, ⟨"true", []⟩], none, none⟩ markSession).2.2 htwo
    have hkept : result.stragglers = [0, 1] := (congrArg (fun ran => ran.1.stragglers) hrun).symm
    rw [hstatus, Session.afterProcesses]
    split <;> exact hkept

end PipelineShell
