import PipelineShell.Proofs.Session.Steady

/-!
# A host with nothing but standard input

No process can be started on this host, so all that a session can do on it is done by builtins. What a statement does there depends
on the environment alone (`steady_supplyHost`).
-/

namespace PipelineShell

/-- A host that cannot start a process. Its state is what is left of standard input. -/
def supplyHost : Host (List String) where
  openFile _ _ _ := return 3
  dup2 _ _ := return ()
  close _ := return ()
  pipe := return (3, 4)
  fork _ := throw .tryAgain
  exec _ := return ()
  wait _ _ := return .stillAlive
  complain _ := return ()
  print _ := return ()
  canonicalize path := return path
  changeDirectory _ := return ()
  currentDirectory := return "/"
  environment := return []
  readLine _ := fun texts => (.ok texts.head?, texts.tail)
  lineBound := fun texts => (texts.length, texts)

/-- A builtin that binds a variable. -/
def marker : ScriptedBuiltin := { name := "mark", bind? := some ("x", "1") }

/-- That builtin and one that asks to leave. -/
def supplyBuiltins : List (Builtin (List String)) := [marker.toBuiltin supplyHost, leaver.toBuiltin supplyHost]

/-- Every pipeline fails in one way, and leaves standard input as it is. -/
theorem runPipeline_supplyHost (pipeline : Pipeline) : ∃ outcome, ∀ mode stragglers texts,
    (runPipeline supplyHost mode pipeline stragglers).run texts = (⟨outcome, stragglers⟩, texts) := by
  unfold runPipeline
  cases pipeline.commands.findSome? Command.invalid? with
  | some e => exact ⟨.error e, fun _ _ _ => rfl⟩
  | none =>
    obtain ⟨commands, input, output⟩ := pipeline
    cases commands with
    | nil => exact ⟨.ok 0, fun _ _ _ => rfl⟩
    | cons first rest =>
      refine ⟨.error (.fork .tryAgain), fun mode stragglers texts => ?_⟩
      have hlaunch : (launch supplyHost ⟨first :: rest, input, output⟩).run texts =
          (⟨[], some (.fork .tryAgain)⟩, texts) := by cases rest <;> rfl
      rw [run_bind_of_run hlaunch]
      show (PipelineResult.mk _ (stragglers ++ []), texts) = _
      rw [List.append_nil]

theorem runProcesses_supplyHost (pipeline : Pipeline) : ∃ status, ∀ s : Session (List String),
    (Shell.runProcesses supplyHost pipeline).run s = (status, s) := by
  obtain ⟨outcome, hrun⟩ := runPipeline_supplyHost pipeline
  have hhost (s : Session (List String)) :
      (Shell.onHost (runPipeline supplyHost s.shell.wait pipeline s.shell.stragglers)).run s =
        (⟨outcome, s.shell.stragglers⟩, s) := by
    show (((runPipeline supplyHost s.shell.wait pipeline s.shell.stragglers).run s.host).1,
      { s with host := ((runPipeline supplyHost s.shell.wait pipeline s.shell.stragglers).run s.host).2 }) = _
    rw [hrun]
  refine ⟨match outcome with | .ok code => code | .error _ => 1, fun s => ?_⟩
  rw [Shell.runProcesses, run_bind_of_run (Shell.get_run s), run_bind_of_run (hhost s)]
  cases outcome <;> rfl

/-- What the builtins do with a command: its status and its effect on the environment, if it is one of theirs. -/
def supplied (c : Command) : Option (ExitCode × (Environment → Environment)) :=
  if c.name = "mark" then some (0, fun env => env.setVar "x" "1")
  else if c.name = "leave" then some (3, fun env => { env with exitRequested := some 7 })
  else none

theorem findBuiltin_supplyBuiltins (c : Command) : Shell.findBuiltin? supplyBuiltins c =
    if c.name = "mark" then some (marker.run supplyHost c.args)
    else if c.name = "leave" then some (leaver.run supplyHost c.args) else none := by
  by_cases hmark : c.name = "mark"
  · simp [Shell.findBuiltin?, supplyBuiltins, ScriptedBuiltin.toBuiltin, marker, hmark]
  · by_cases hleave : c.name = "leave" <;>
      simp [Shell.findBuiltin?, supplyBuiltins, ScriptedBuiltin.toBuiltin, marker, leaver, hmark, hleave]

theorem tryBuiltin_supplyHost (c : Command) (s : Session (List String)) (hs : s.shell.builtins = supplyBuiltins) :
    (Shell.tryBuiltin supplyHost c (.stream supplyHost.print)).run s = match supplied c with
      | some (status, change) =>
        ((.ranAsBuiltin status, .stream supplyHost.print), { s with shell := { s.shell with env := change s.shell.env } })
      | none => ((.notABuiltin, .stream supplyHost.print), s) := by
  rw [Shell.tryBuiltin, run_bind_of_run (Shell.get_run s), hs, findBuiltin_supplyBuiltins, supplied]
  by_cases hmark : c.name = "mark"
  · rw [if_pos hmark, if_pos hmark]
    rfl
  · rw [if_neg hmark, if_neg hmark]
    by_cases hleave : c.name = "leave"
    · rw [if_pos hleave, if_pos hleave]
      rfl
    · rw [if_neg hleave, if_neg hleave]
      rfl

/-- A statement has one status and one effect on the environment, whatever the session. -/
theorem runStatement_supplyHost (statement : Statement) : ∃ status, ∃ change : Environment → Environment,
    ∀ s : Session (List String), s.shell.builtins = supplyBuiltins →
      (Shell.runStatement supplyHost statement).run s =
        (status, { s with shell := { s.shell with env := change s.shell.env } }) := by
  cases statement with
  | discarded e => exact ⟨1, id, fun _ _ => rfl⟩
  | ready pipeline =>
    obtain ⟨status, hprocesses⟩ := runProcesses_supplyHost pipeline
    cases hsingle : pipeline.single? with
    | none =>
      refine ⟨status, id, fun s _ => ?_⟩
      rw [Shell.runStatement, Shell.runReady, hsingle]
      exact hprocesses s
    | some c =>
      cases hc : supplied c with
      | none =>
        refine ⟨status, id, fun s hs => ?_⟩
        have htry := tryBuiltin_supplyHost c s hs
        rw [hc] at htry
        rw [Shell.runStatement, Shell.runReady, hsingle]
        exact (run_bind_of_run htry _).trans (hprocesses s)
      | some ran =>
        refine ⟨ran.1, ran.2, fun s hs => ?_⟩
        have htry := tryBuiltin_supplyHost c s hs
        rw [hc] at htry
        rw [Shell.runStatement, Shell.runReady, hsingle]
        exact run_bind_of_run htry _

theorem steady_supplyHost : Steady supplyHost supplyBuiltins (fun _ => ()) (List.map Line.ofInput) where
  statement st s t hs _ halike := by
    obtain ⟨status, change, hrun⟩ := runStatement_supplyHost st
    have ht : t.shell.builtins = supplyBuiltins := (congrArg (·.1) halike.setup).symm.trans hs
    rw [hrun s hs, hrun t ht]
    exact ⟨rfl, ⟨halike.setup, congrArg change halike.env, rfl⟩⟩
  keeps st s hs _ := by
    obtain ⟨status, change, hrun⟩ := runStatement_supplyHost st
    rw [hrun s hs]
  poll _ _ := ⟨rfl, rfl⟩
  lineBound _ := ⟨rfl, rfl⟩
  bound texts := Nat.le_of_eq (List.length_map Line.ofInput)
  atEnd _ {texts} h := by
    obtain rfl := List.map_eq_nil_iff.mp h
    exact ⟨rfl, rfl⟩
  next _ {texts line rest} h := by
    obtain ⟨text, texts, rfl, hline, hrest⟩ := List.map_eq_cons_iff.mp h
    exact ⟨⟨text, rfl, hline⟩, rfl, hrest⟩

/-- A session on that host with these texts on standard input. -/
def supplySession (texts : List String) : Session (List String) where
  shell := { env := {}, builtins := supplyBuiltins }
  host := texts

end PipelineShell
