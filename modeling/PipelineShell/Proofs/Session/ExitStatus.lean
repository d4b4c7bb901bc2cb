import PipelineShell.CommandLine
import PipelineShell.Proofs.Session.Leaving
import PipelineShell.Proofs.Session.SupplyHost

/-!
# The status that the shell ends with

The command line ends with the status of its line, and the loop with the status asked to leave with, or else with that of its last
line. `exitStatus_agrees` says that the two agree with each other, on every line without a backspace. A backspace makes a difference:
it takes back what was typed before it where the loop reads a line, and is a character like any other on the command line
(`exitStatus_backspace`).
-/

namespace PipelineShell

variable {σ ω : Type}

/-! ## One line on the command line -/

/-- What a statement does in a session with the standard builtins and this wait mode is a function of what it sees. -/
def Determined (host : Host σ) (wait : WaitMode) (view : σ → ω) : Prop :=
  ∀ (st : Statement) (s t : Session σ), s.shell.builtins = Builtin.standard host → s.shell.wait = wait → s.Alike view t →
    ((Shell.runStatement host st).run s).1 = ((Shell.runStatement host st).run t).1 ∧
      ((Shell.runStatement host st).run s).2.Alike view ((Shell.runStatement host st).run t).2

namespace Determined

open Shell

variable {host : Host σ} {wait : WaitMode} {view : σ → ω} {pending : σ → List String} {s t : Session σ}

theorem runStatements (h : Determined host wait view) (hs : Feeds.Fits host wait s) (halike : s.Alike view t)
    (status : ExitCode) (statements : List Statement) :
    ((runStatements host status statements).run s).1 = ((runStatements host status statements).run t).1 := by
  induction statements generalizing s t status with
  | nil => rfl
  | cons statement rest ih =>
    obtain ⟨hstatus, halike'⟩ := h statement s t hs.1 hs.2 halike
    rw [runStatements_cons, runStatements_cons, ← halike'.env, ← hstatus]
    split
    · exact hstatus
    · exact ih (hs.of_setup (KeepsSetup.runStatement host statement s)) halike' _

/-- The status of a line is a function of what its statements see, and line breaks at its end do not count. -/
theorem executeLine (h : Determined host wait view) (hf : Feeds host wait view pending) (hs : Feeds.Fits host wait s)
    (halike : s.Alike view t) {line line' : String} (htrim : trimLine line = trimLine line') :
    ((executeLine host line).run s).1 = ((executeLine host line').run t).1 := by
  have hlimits : s.shell.limits = t.shell.limits := congrArg (·.2.1) halike.setup
  cases hparse : parseLine s.shell.limits (trimLine line) with
  | error e =>
    rw [executeLine_of_error hparse]
    rw [htrim, hlimits] at hparse
    rw [executeLine_of_error hparse]
  | ok statements =>
    rw [executeLine_of_ok hparse]
    rw [htrim, hlimits] at hparse
    rw [executeLine_of_ok hparse]
    have hpoll (u : Session σ) : view (u.reaped host).host = view u.host :=
      poll_keeps (fun child u => (hf.poll child u).1) u.shell.stragglers u.host
    exact h.runStatements (s := s.reaped host) (t := t.reaped host) hs
      ⟨halike.setup, halike.env, (hpoll s).trans (halike.host.trans (hpoll t).symm)⟩ 0 statements

end Determined

/-! ## Lines as they are typed -/

namespace Line

/-- Without a backspace nothing that has been typed is taken back. -/
theorem foldl_type (clusters : List (List Char)) (d : Draft) (h : [backspace] ∉ clusters) :
    (clusters.foldl Draft.type d).text = clusters.flatten.reverse ++ d.text := by
  induction clusters generalizing d with
  | nil => rfl
  | cons cluster rest ih =>
    rw [List.mem_cons, not_or] at h
    rw [List.foldl_cons, ih _ h.2, Draft.type, if_neg (Ne.symm h.1), List.flatten_cons, List.reverse_append, List.append_assoc]

theorem edit_eq (line : String) (h : backspace ∉ line.toList) : edit line = line := by
  have hclusters : [backspace] ∉ Grapheme.clusters line.toList := by
    intro hmem
    refine h ?_
    rw [← Grapheme.flatten_clusters line.toList]
    exact List.mem_flatten.mpr ⟨_, hmem, List.mem_singleton_self _⟩
  rw [edit, foldl_type _ _ hclusters, List.append_nil, List.reverse_reverse, Grapheme.flatten_clusters, String.ofList_toList]

end Line

/-- Line breaks at the end of a line do not count. -/
theorem Shell.trimLine_concat {c : Char} (hc : c = '\n' ∨ c = '\r') (text : List Char) :
    trimLine (String.ofList (text ++ [c])) = trimLine (String.ofList text) := by
  unfold trimLine
  rw [String.toList_ofList, String.toList_ofList, List.reverse_append, List.reverse_singleton, List.singleton_append,
    List.dropWhile_cons_of_pos]
  exact decide_eq_true hc

/-- The end that is taken off a line of standard input. -/
theorem Line.withoutEnd_eq {line text : String} (hbreak : '\n' ∉ line.toList) (htext : text = line ∨ text = line ++ "\n") :
    line.toList = withoutEnd text.toList ∨ line.toList = withoutEnd text.toList ++ ['\r'] := by
  unfold withoutEnd
  obtain rfl | rfl := htext
  · rw [if_neg fun hlast => hbreak (List.mem_of_getLast? hlast)]
    exact .inl rfl
  · have htyped : (line ++ "\n").toList = line.toList ++ ['\n'] := String.toList_append
    rw [htyped, List.getLast?_concat, if_pos rfl, List.dropLast_concat]
    split
    · rename_i hreturn
      obtain ⟨before, hline⟩ := List.getLast?_eq_some_iff.mp hreturn
      rw [hline, List.dropLast_concat]
      exact .inr rfl
    · exact .inl rfl

/-- A line of standard input is run as it was typed, if it holds no backspace. -/
theorem Line.trimLine_ofInput {line text : String} (hbreak : '\n' ∉ line.toList) (hback : backspace ∉ line.toList)
    (htext : text = line ∨ text = line ++ "\n") : Shell.trimLine line = Shell.trimLine (ofInput text) := by
  have hend := withoutEnd_eq hbreak htext
  have hedit : ofInput text = String.ofList (withoutEnd text.toList) := by
    refine edit_eq _ fun hmem => hback ?_
    rw [String.toList_ofList] at hmem
    rcases hend with hline | hline
    · rwa [hline]
    · rw [hline]
      exact List.mem_append_left _ hmem
  rw [hedit, ← String.ofList_toList (s := line)]
  rcases hend with hline | hline
  · rw [hline]
  · rw [hline]
    exact Shell.trimLine_concat (.inr rfl) _

/-! ## The two ways of running the shell -/

namespace CommandLine

variable {host : Host σ} {view : σ → ω} {pending : σ → List String} {args : Arguments} {line text : String} {u v : σ}

/-- A loop that is fed one line ends with the status of that line, run in a shell that looks the same. -/
theorem readEvalLoop_single {s : Session σ} (h : Feeds host .block view pending) (hs : Feeds.Fits host .block s)
    (hexit : s.shell.env.exitRequested = none) (hpending : pending s.host = [line]) :
    ∃ w t, w.Alike view s ∧ (Shell.readEvalLoop host).run s = (.ok ((Shell.executeLine host line).run w).1, t) := by
  obtain ⟨turns, t, hrun, hturns, hend⟩ := h.readEvalLoop hs hexit
  rw [hpending] at hend
  have hone : turns.map Prod.fst = [line] ∧ ∀ code ∈ t.shell.env.exitRequested, Line.leaves? host s.shell.limits line = some code := by
    cases hend with
    | all run stays request => exact ⟨run, by rw [request]; exact nofun⟩
    | left earlier last later code lines_eq run stays leaves request =>
      obtain ⟨rfl, hlast⟩ | ⟨-, hlast⟩ := List.append_eq_singleton_iff.mp lines_eq.symm
      · obtain ⟨rfl, rfl⟩ := List.cons.inj hlast
        refine ⟨run, fun code' hcode => ?_⟩
        rw [request] at hcode
        rw [leaves, Option.some.inj hcode]
      · nomatch hlast
  obtain ⟨hone, hleaves⟩ := hone
  obtain ⟨⟨typed, code⟩, rfl, htyped⟩ := List.map_eq_singleton_iff.mp hone
  obtain rfl : line = typed := htyped.symm
  cases hturns with
  | @turn _ w _ _ _ _ _ shell seen run rest =>
    have hstatus := (Shell.executeLine_leaves (hs.of_setup (congrArg Shell.setup shell)).1 (shell ▸ hexit) line).2
    rw [shell, run] at hstatus
    refine ⟨w, t, ⟨congrArg Shell.setup shell, congrArg Shell.env shell, seen⟩, ?_⟩
    rw [hrun, run]
    cases hrequest : t.shell.env.exitRequested with
    | none => rfl
    | some asked => rw [Option.getD_some, hstatus asked (hleaves asked hrequest)]

/-- A session as it begins. -/
def opened (host : Host σ) (limits : Limits) (u : σ) : Session σ :=
  let made := (Shell.new host (Builtin.standard host) limits .block).run u
  { shell := made.1, host := made.2 }

/-- What is asked for is run in that session. -/
theorem runSession_fst (args : Arguments) (u : σ) :
    ((runSession host args).run u).1 =
      ((match args.command with
        | some line => return .ok (← Shell.executeLine host line)
        | none => Shell.readEvalLoop host : ShellM σ (Except InputError ExitCode)).run (opened host args.limits u)).1 := by
  unfold runSession
  rfl

/-- The program ends with the status of its session, where there is one. -/
theorem run_accepted {words : List String} (hwords : spec.read {} words = .accepted args) (u : σ) :
    ((run host words).run u).1 =
      if (zeroLimit? args.limits).isSome then 1
      else match ((runSession host args).run u).1 with
        | .ok code => exitStatus code
        | .error _ => 1 := by
  unfold run
  rw [hwords]
  dsimp only
  cases zeroLimit? args.limits with
  | some spelling => rfl
  | none =>
    rcases hsession : (runSession host args).run u with ⟨e | code, v⟩
    · rw [run_bind_of_run hsession]
      rfl
    · rw [run_bind_of_run hsession]
      rfl

/-- A line given on the command line and the same line fed to the loop make the program end with the same status. -/
theorem run_line (h : Feeds host .block view pending) (hdetermined : Determined host .block view) {words words' : List String}
    (hwords : spec.read {} words = .accepted { args with command := some line })
    (hwords' : spec.read {} words' = .accepted { args with command := none })
    (hcapture : ((Environment.capture host).run u).1 = ((Environment.capture host).run v).1) (hview : view u = view v)
    (hpending : pending v = [Line.ofInput text]) (htrim : Shell.trimLine line = Shell.trimLine (Line.ofInput text)) :
    ((run host words).run u).1 = ((run host words').run v).1 := by
  have hopened (x : σ) : view (opened host args.limits x).host = view x ∧ pending (opened host args.limits x).host = pending x :=
    ⟨(h.currentDirectory _).1.trans (h.environment x).1, (h.currentDirectory _).2.trans (h.environment x).2⟩
  have hfits (x : σ) : Feeds.Fits host .block (opened host args.limits x) := ⟨rfl, rfl⟩
  obtain ⟨w, t, halike, hloop⟩ := readEvalLoop_single h (hfits v) rfl ((hopened v).2.trans hpending)
  have hsame : (opened host args.limits u).Alike view w :=
    ⟨halike.setup.symm, hcapture.trans halike.env.symm, (hopened u).1.trans (hview.trans ((hopened v).1.symm.trans halike.host.symm))⟩
  have hstatus := hdetermined.executeLine h (hfits u) hsame htrim
  have honce : ((runSession host { args with command := some line }).run u).1 =
      .ok ((Shell.executeLine host line).run (opened host args.limits u)).1 := by
    rw [runSession_fst]
    exact congrArg Prod.fst (run_bind_of_run (Prod.eta _).symm _)
  have hfed : ((runSession host { args with command := none }).run v).1 =
      .ok ((Shell.executeLine host (Line.ofInput text)).run w).1 := by
    rw [runSession_fst]
    exact congrArg Prod.fst hloop
  rw [run_accepted hwords, run_accepted hwords', honce, hfed, hstatus]
  rfl

end CommandLine

/-- With the standard builtins the status that a session ends with is one and the same thing however it is asked for. A line after which
some builtin has asked to leave has the status asked for. The loop returns the status of the first line that asks to leave, and runs
none after it; without such a line it returns the status of the last one, or 0. And the program ends with the same status whether a
line without line breaks and backspaces is given on the command line or is all that the loop is fed, as long as what a statement does
is a function of what it sees. -/
theorem exitStatus_agrees (host : Host σ) (view : σ → ω) (pending : σ → List String) :
    (∀ (s : Session σ) (line : String), s.shell.builtins = Builtin.standard host → s.shell.env.exitRequested = none →
      ((Shell.executeLine host line).run s).2.shell.env.exitRequested = none ∨
      ((Shell.executeLine host line).run s).2.shell.env.exitRequested = some ((Shell.executeLine host line).run s).1) ∧
    (∀ (wait : WaitMode) (s : Session σ), Feeds host wait view pending → s.shell.builtins = Builtin.standard host →
      s.shell.wait = wait → s.shell.env.exitRequested = none →
      ∃ turns t code, (Shell.readEvalLoop host).run s = (.ok code, t) ∧ Turns host view s turns t ∧
        ((turns.map Prod.fst = pending s.host ∧ (∀ line ∈ pending s.host, Line.leaves? host s.shell.limits line = none) ∧
            code = (turns.getLast?.map Prod.snd).getD 0) ∨
          ∃ earlier line later, pending s.host = earlier ++ line :: later ∧ turns.map Prod.fst = earlier ++ [line] ∧
            (∀ line ∈ earlier, Line.leaves? host s.shell.limits line = none) ∧
            Line.leaves? host s.shell.limits line = some code ∧ pending t.host = later)) ∧
    (∀ (args : CommandLine.Arguments) (line text : String) (words words' : List String) (u v : σ),
      Feeds host .block view pending → Determined host .block view →
      CommandLine.spec.read {} words = .accepted { args with command := some line } →
      CommandLine.spec.read {} words' = .accepted { args with command := none } →
      ((Environment.capture host).run u).1 = ((Environment.capture host).run v).1 → view u = view v →
      pending v = [Line.ofInput text] →
      (line = Line.ofInput text ∨
        (text = line ∨ text = line ++ "\n") ∧ '\n' ∉ line.toList ∧ Line.backspace ∉ line.toList) →
      ((CommandLine.run host words).run u).1 = ((CommandLine.run host words').run v).1) := by
  refine ⟨fun s line hbuiltins hexit => ?_, fun wait s h hbuiltins hwait hexit => ?_, fun args line text words words' u v h
    hdetermined hwords hwords' hcapture hview hpending htext =>
      CommandLine.run_line h hdetermined hwords hwords' hcapture hview hpending ?_⟩
  · obtain ⟨hrequest, hstatus⟩ := Shell.executeLine_leaves hbuiltins hexit line
    rw [hrequest]
    cases hleaves : Line.leaves? host s.shell.limits line with
    | none => exact .inl rfl
    | some code => exact .inr (congrArg some (hstatus code hleaves).symm)
  · obtain ⟨turns, t, hrun, hturns, hend⟩ := h.readEvalLoop ⟨hbuiltins, hwait⟩ hexit
    cases hend with
    | all run stays request =>
      rw [request] at hrun
      exact ⟨turns, t, _, hrun, hturns, .inl ⟨run, stays, rfl⟩⟩
    | left earlier line later code lines_eq run stays leaves request unread =>
      rw [request] at hrun
      exact ⟨turns, t, code, hrun, hturns, .inr ⟨earlier, line, later, lines_eq, run, stays, leaves, unread⟩⟩
  · obtain rfl | ⟨htext, hbreak, hback⟩ := htext
    · rfl
    · exact Line.trimLine_ofInput hbreak hback htext

/-! ## On a host with nothing but standard input -/

/-- What a request comes to there: its status, and what becomes of the environment. -/
def supplyRequest (env : Environment) : Request → ExitCode × Environment
  | .leave code => (code, { env with exitRequested := some code })
  | .move target? =>
    match (target?.filter fun target => target ≠ "" ∧ target ≠ "~").or (env.vars.get? "HOME") with
    | none => (1, env)
    | some target => (0, { env with currentDirectory := Builtin.joinPath env.currentDirectory target })
  | .tell | .help _ => (0, env)
  | .refuse => (1, env)

theorem cdTarget_supplyHost (env : Environment) (target? : Option String) (texts : List String) :
    (Builtin.cdTarget supplyHost env target?).run texts =
      ((target?.filter fun target => target ≠ "" ∧ target ≠ "~").or (env.vars.get? "HOME"), texts) := by
  unfold Builtin.cdTarget
  cases target?.filter fun target => target ≠ "" ∧ target ≠ "~" with
  | some target => rfl
  | none =>
    show (Environment.getVar supplyHost env "HOME").run texts = (env.vars.get? "HOME", texts)
    unfold Environment.getVar
    cases env.vars.get? "HOME" <;> rfl

theorem printLines_supplyHost (lines texts : List String) : (printLines supplyHost lines).run.run texts = (.ok (), texts) := by
  induction lines with
  | nil => rfl
  | cons line rest ih => exact ih

theorem does_supplyHost {r : Request} {state after : BuiltinState (List String)} {outcome : Except Failure ExitCode}
    (h : r.Does supplyHost state outcome after) :
    (statusOf outcome, after.env) = supplyRequest state.env r ∧ after.host = state.host := by
  cases h with
  | leave | refuse => exact ⟨rfl, rfl⟩
  | told hprinted =>
    rw [printLines_supplyHost] at hprinted
    cases hprinted
    exact ⟨rfl, rfl⟩
  | untold hprinted =>
    rw [printLines_supplyHost] at hprinted
    nomatch hprinted
  | helped hprinted =>
    cases hprinted
    exact ⟨rfl, rfl⟩
  | unhelped hprinted => nomatch hprinted
  | unset hnamed =>
    rw [cdTarget_supplyHost] at hnamed
    obtain ⟨hnone, rfl⟩ := Prod.mk.inj hnamed
    refine ⟨?_, rfl⟩
    rw [supplyRequest, hnone]
    rfl
  | barred hnamed hentered => nomatch hentered
  | moved hnamed hentered =>
    rw [cdTarget_supplyHost] at hnamed
    obtain ⟨hsome, rfl⟩ := Prod.mk.inj hnamed
    cases hentered
    refine ⟨?_, rfl⟩
    rw [supplyRequest, hsome]
    rfl

/-- A statement has a status and an effect on the environment that depend on the environment alone. -/
theorem runStatement_supplyStandard (statement : Statement) : ∃ effect : Environment → ExitCode × Environment,
    ∀ s : Session (List String), s.shell.builtins = Builtin.standard supplyHost →
      (Shell.runStatement supplyHost statement).run s =
        ((effect s.shell.env).1, { s with shell := { s.shell with env := (effect s.shell.env).2 } }) := by
  cases statement with
  | discarded e => exact ⟨fun env => (1, env), fun _ _ => rfl⟩
  | ready pipeline =>
    cases hr : pipeline.single?.bind (Command.request? supplyHost) with
    | none =>
      obtain ⟨status, hprocesses⟩ := runProcesses_supplyHost pipeline
      refine ⟨fun env => (status, env), fun s hs => ?_⟩
      rw [Shell.runStatement, Shell.runReady_processes hs hr]
      exact hprocesses s
    | some r =>
      refine ⟨fun env => supplyRequest env r, fun s hs => ?_⟩
      obtain ⟨c, outcome, after, hdoes, hrun⟩ := Shell.runReady_request hs hr
      obtain ⟨heffect, hhost⟩ := does_supplyHost hdoes
      obtain ⟨hstatus, henv⟩ := Prod.mk.inj (heffect.trans (Prod.eta _).symm)
      have hafter : s.afterBuiltin supplyHost c outcome after = { shell := { s.shell with env := after.env }, host := after.host } := by
        cases outcome <;> rfl
      rw [Shell.runStatement, hrun, hafter, hhost, hstatus, henv]
      rfl

theorem feeds_supplyHost (wait : WaitMode) : Feeds supplyHost wait (fun _ => ()) (List.map Line.ofInput) where
  statement st s hs _ := by
    obtain ⟨effect, hrun⟩ := runStatement_supplyStandard st
    rw [hrun s hs]
  complain _ _ := rfl
  poll _ _ := ⟨rfl, rfl⟩
  environment _ := ⟨rfl, rfl⟩
  currentDirectory _ := ⟨rfl, rfl⟩
  lineBound _ := ⟨rfl, rfl⟩
  bound := steady_supplyHost.bound
  atEnd prompt _ h := (steady_supplyHost.atEnd prompt h).1
  next prompt _ _ _ h := steady_supplyHost.next prompt h

theorem determined_supplyHost (wait : WaitMode) : Determined supplyHost wait fun _ => () := by
  intro st s t hs _ halike
  obtain ⟨effect, hrun⟩ := runStatement_supplyStandard st
  have ht : t.shell.builtins = Builtin.standard supplyHost := (congrArg (·.1) halike.setup).symm.trans hs
  rw [hrun s hs, hrun t ht, halike.env]
  exact ⟨rfl, ⟨halike.setup, rfl, rfl⟩⟩

/-- A session on that host with the standard builtins and two lines to read. -/
def leavingSession : Session (List String) where
  shell := { env := {}, builtins := Builtin.standard supplyHost }
  host := ["ver | x; exit 300\n", "cwd\n"]

/-- The loop leaves with 300. Where the first line is all there is, the program ends with 300 modulo 256 in either way. -/
theorem exitStatus_agrees_leaving :
    (∃ turns t, (Shell.readEvalLoop supplyHost).run leavingSession = (.ok 300, t) ∧
        Turns supplyHost (fun _ => ()) leavingSession turns t) ∧
      ((CommandLine.run supplyHost ["-c", "ver | x; exit 300"]).run []).1 =
        ((CommandLine.run supplyHost []).run ["ver | x; exit 300\n"]).1 ∧
      ((CommandLine.run supplyHost ["-c", "ver | x; exit 300"]).run []).1 = 44 := by
  obtain ⟨-, hloop, hline⟩ := exitStatus_agrees supplyHost (fun _ => ()) (List.map Line.ofInput)
  have hcode : ((Shell.readEvalLoop supplyHost).run leavingSession).1 = .ok 300 := by decide +kernel
  obtain ⟨turns, t, code, hrun, hturns, -⟩ := hloop .block leavingSession (feeds_supplyHost .block) rfl rfl rfl
  rw [hrun] at hcode
  refine ⟨⟨turns, t, hrun.trans (congrArg (·, t) hcode), hturns⟩, ?_, by decide +kernel⟩
  exact hline {} "ver | x; exit 300" "ver | x; exit 300\n" ["-c", "ver | x; exit 300"] [] [] ["ver | x; exit 300\n"]
    (feeds_supplyHost .block) (determined_supplyHost .block) rfl rfl rfl rfl rfl (.inr ⟨.inr (by decide), by decide, by decide⟩)

/-- Statements on this host see nothing of standard input and take nothing from it, and yet the two ways differ on a line with a
backspace: where the loop reads it the 1 is taken back, and on the command line the argument is refused. -/
theorem exitStatus_backspace :
    Feeds supplyHost .block (fun _ => ()) (List.map Line.ofInput) ∧ Determined supplyHost .block (fun _ => ()) ∧
      '\n' ∉ "exit 1\x084".toList ∧
      ((CommandLine.run supplyHost ["-c", "exit 1\x084"]).run []).1 = 1 ∧
      ((CommandLine.run supplyHost []).run ["exit 1\x084\n"]).1 = 4 :=
  ⟨feeds_supplyHost .block, determined_supplyHost .block, by decide +kernel⟩

end PipelineShell
