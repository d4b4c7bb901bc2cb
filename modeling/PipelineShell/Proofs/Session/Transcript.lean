import PipelineShell.Proofs.Session.ExecuteLine

/-!
# What a session does, statement by statement

A transcript of a session says which statements it ran, in which environments and to which statuses. It is kept by the read-eval
loop of this module, which is that of a `Shell` but for what it writes down at every statement (`Transcript.readEvalLoop_follows`).
-/

namespace PipelineShell

/-- A statement that has been run, the environment it was run in, and its status. -/
structure Act where
  statement : Statement
  env : Environment
  status : ExitCode
  deriving DecidableEq, Repr

/-- The code of a session that keeps a transcript. -/
abbrev TranscriptM (σ α : Type) := StateM (Session σ × List Act) α

namespace Transcript

variable {σ α β : Type}

/-- Code that is not a statement. -/
def offRecord (c : ShellM σ α) : TranscriptM σ α := fun p => ((c.run p.1).1, ((c.run p.1).2, p.2))

/-- Runs a statement and writes it down. -/
def runStatement (host : Host σ) (statement : Statement) : TranscriptM σ ExitCode := fun p =>
  let (status, s) := (Shell.runStatement host statement).run p.1
  (status, (s, p.2 ++ [⟨statement, p.1.shell.env, status⟩]))

/-- Runs statements in order, up to the one after which the session is to end. -/
def runStatements (host : Host σ) (status : ExitCode) : List Statement → TranscriptM σ ExitCode
  | [] => return status
  | statement :: rest => do
    let status ← runStatement host statement
    if ← offRecord Shell.shouldExit then return status
    runStatements host status rest

/-- Runs one line. -/
def executeLine (host : Host σ) (line : String) : TranscriptM σ ExitCode := do
  offRecord (Shell.reap host)
  match parseLine (← offRecord get).shell.limits (Shell.trimLine line) with
  | .error e =>
    offRecord (Shell.onHost (host.complain e.message))
    return 1
  | .ok statements => runStatements host 0 statements

/-- Asks for lines and runs them in order, and asks at most so many times. -/
def runLines (host : Host σ) : Nat → ExitCode → TranscriptM σ (Except InputError ExitCode)
  | 0, status => return .ok status
  | asks + 1, status => do
    if ← offRecord Shell.shouldExit then return .ok status
    match ← offRecord (Shell.onHost (host.readLine (Shell.prompt (← offRecord get).shell))) with
    | .ok (some line) => runLines host asks (← executeLine host (Line.ofInput line))
    | .error .interrupted => runLines host asks status
    | .ok none => return .ok status
    | .error e => return .error e

/-- Runs the lines of standard input. -/
def readEvalLoop (host : Host σ) : TranscriptM σ (Except InputError ExitCode) := do
  let result ← runLines host ((← offRecord (Shell.onHost host.lineBound)) + 1) 0
  let shell := (← offRecord get).shell
  return result.map shell.env.exitRequested.getD

/-- What is done when a line has been asked for. -/
def afterAsking (host : Host σ) (asks : Nat) (status : ExitCode) :
    Except InputError (Option String) → TranscriptM σ (Except InputError ExitCode)
  | .ok (some line) => do runLines host asks (← executeLine host (Line.ofInput line))
  | .error .interrupted => runLines host asks status
  | .ok none => return .ok status
  | .error e => return .error e

/-! ## Keeping a transcript changes nothing -/

/-- `c'` does what `c` does, whatever the transcript says so far, and only adds to it. -/
def Follows (c' : TranscriptM σ α) (c : ShellM σ α) : Prop :=
  ∀ s acts, ∃ more, c'.run (s, acts) = ((c.run s).1, ((c.run s).2, acts ++ more))

namespace Follows

theorem pure (a : α) : Follows (Pure.pure a : TranscriptM σ α) (Pure.pure a) :=
  fun s acts => ⟨[], congrArg (fun acts => (a, (s, acts))) (List.append_nil acts).symm⟩

theorem offRecord (c : ShellM σ α) : Follows (offRecord c) c :=
  fun s acts => ⟨[], congrArg (fun acts => ((c.run s).1, ((c.run s).2, acts))) (List.append_nil acts).symm⟩

theorem bind {c' : TranscriptM σ α} {c : ShellM σ α} {f' : α → TranscriptM σ β} {f : α → ShellM σ β} (hc : Follows c' c)
    (hf : ∀ a, Follows (f' a) (f a)) : Follows (c' >>= f') (c >>= f) := by
  intro s acts
  obtain ⟨first, hfirst⟩ := hc s acts
  obtain ⟨second, hsecond⟩ := hf (c.run s).1 (c.run s).2 (acts ++ first)
  refine ⟨first ++ second, ?_⟩
  rw [run_bind_of_run hfirst, hsecond, List.append_assoc]
  rfl

theorem runStatement (host : Host σ) (statement : Statement) :
    Follows (runStatement host statement) (Shell.runStatement host statement) := fun _ _ => ⟨[_], rfl⟩

theorem runStatements (host : Host σ) (status : ExitCode) (statements : List Statement) :
    Follows (runStatements host status statements) (Shell.runStatements host status statements) := by
  induction statements generalizing status with
  | nil => exact pure _
  | cons statement rest ih =>
    refine bind (runStatement host statement) fun status => bind (offRecord _) fun exits => ?_
    cases exits with
    | true => exact pure _
    | false => exact ih status

theorem executeLine (host : Host σ) (line : String) : Follows (executeLine host line) (Shell.executeLine host line) := by
  refine bind (offRecord _) fun _ => bind (offRecord _) fun s => ?_
  cases parseLine s.shell.limits (Shell.trimLine line) with
  | error e => exact bind (offRecord _) fun _ => pure _
  | ok statements => exact runStatements host 0 statements

theorem runLines (host : Host σ) (asks : Nat) (status : ExitCode) :
    Follows (runLines host asks status) (Shell.runLines host asks status) := by
  induction asks generalizing status with
  | zero => exact pure _
  | succ asks ih =>
    refine bind (offRecord _) fun exits => ?_
    cases exits with
    | true => exact pure _
    | false =>
      refine bind (offRecord _) fun s => bind (offRecord _) fun read => ?_
      rcases read with (_ | _ | e) | _ | line
      · exact pure _
      · exact ih status
      · exact pure _
      · exact pure _
      · exact bind (executeLine host _) fun status => ih status

theorem run_eq {c' : TranscriptM σ α} {c : ShellM σ α} (h : Follows c' c) {s s' : Session σ} {acts acts' : List Act} {a : α}
    (hrun : c'.run (s, acts) = (a, (s', acts'))) : c.run s = (a, s') := by
  obtain ⟨more, heq⟩ := h s acts
  have hpair := heq.symm.trans hrun
  exact Prod.ext (congrArg (·.1) hpair) (congrArg (·.2.1) hpair)

end Follows

theorem readEvalLoop_follows (host : Host σ) : Follows (readEvalLoop host) (Shell.readEvalLoop host) :=
  .bind (.offRecord _) fun _ => .bind (.runLines host _ _) fun _ => .bind (.offRecord _) fun _ => .pure _

/-! ## One statement and one line at a time -/

section

variable {host : Host σ} {status : ExitCode} {xs : List Statement} {p : Session σ × List Act}

theorem runStatements_cons (host : Host σ) (status : ExitCode) (statement : Statement) (rest : List Statement)
    (p : Session σ × List Act) :
    (runStatements host status (statement :: rest)).run p =
      if ((runStatement host statement).run p).2.1.shell.env.shouldExit then (runStatement host statement).run p
      else (runStatements host ((runStatement host statement).run p).1 rest).run ((runStatement host statement).run p).2 := by
  have hstep : (runStatements host status (statement :: rest)).run p =
      (if ((runStatement host statement).run p).2.1.shell.env.shouldExit then return ((runStatement host statement).run p).1
        else runStatements host ((runStatement host statement).run p).1 rest : TranscriptM σ ExitCode).run
          ((runStatement host statement).run p).2 := rfl
  rw [hstep]
  split <;> rfl

/-- What the status was before the first of some statements does not matter. -/
theorem runStatements_status (host : Host σ) (status : ExitCode) (hxs : xs ≠ []) (p : Session σ × List Act) :
    (runStatements host status xs).run p = (runStatements host 0 xs).run p := by
  cases xs with
  | nil => exact absurd rfl hxs
  | cons x xs => rw [runStatements_cons, runStatements_cons]

/-- Statements that follow others are run if the session is not to end before. -/
theorem runStatements_append (host : Host σ) (status : ExitCode) (hxs : xs ≠ []) (ys : List Statement)
    (p : Session σ × List Act) :
    (runStatements host status (xs ++ ys)).run p =
      if ((runStatements host 0 xs).run p).2.1.shell.env.shouldExit then (runStatements host 0 xs).run p
      else (runStatements host ((runStatements host 0 xs).run p).1 ys).run ((runStatements host 0 xs).run p).2 := by
  induction xs generalizing status p with
  | nil => exact absurd rfl hxs
  | cons x xs ih =>
    rw [List.cons_append, runStatements_cons, runStatements_cons]
    by_cases hexit : ((runStatement host x).run p).2.1.shell.env.shouldExit
    · rw [if_pos hexit, if_pos hexit, if_pos hexit]
    · rw [if_neg hexit, if_neg hexit]
      cases xs with
      | nil =>
        rw [List.nil_append]
        exact (if_neg hexit).symm
      | cons y xs =>
        have hne := List.cons_ne_nil y xs
        rw [ih _ hne, runStatements_status host ((runStatement host x).run p).1 hne]

/-- Statements are written down as they are run, and all are unless a builtin has asked to leave before the last. -/
theorem runStatements_acts (host : Host σ) (status : ExitCode) (xs : List Statement) (p : Session σ × List Act) :
    ∃ left, p.2.map Act.statement ++ xs = ((runStatements host status xs).run p).2.2.map Act.statement ++ left ∧
      (((runStatements host status xs).run p).2.1.shell.env.shouldExit = false → left = []) := by
  induction xs generalizing status p with
  | nil => exact ⟨[], rfl, fun _ => rfl⟩
  | cons x xs ih =>
    have hact : p.2.map Act.statement ++ x :: xs = ((runStatement host x).run p).2.2.map Act.statement ++ xs := by
      show _ = (p.2 ++ [_]).map Act.statement ++ xs
      rw [List.map_append, List.append_assoc]
      rfl
    rw [runStatements_cons]
    split
    · rename_i hexit
      exact ⟨xs, hact, fun hstay => absurd hexit (by rw [hstay]; exact Bool.false_ne_true)⟩
    · obtain ⟨left, hleft, hall⟩ := ih ((runStatement host x).run p).1 ((runStatement host x).run p).2
      exact ⟨left, hact.trans hleft, hall⟩

/-- Of a line that is accepted the statements are run. -/
theorem executeLine_of_ok {line : String} {statements : List Statement}
    (hs : parseLine p.1.shell.limits (Shell.trimLine line) = .ok statements) :
    (executeLine host line).run p = (runStatements host 0 statements).run (p.1.reaped host, p.2) := by
  have hreap : (offRecord (Shell.reap host)).run p = ((), (p.1.reaped host, p.2)) := by
    show (_, (((Shell.reap host).run p.1).2, p.2)) = _
    rw [Shell.reap_run]
  have hs : parseLine (p.1.reaped host).shell.limits (Shell.trimLine line) = .ok statements := hs
  have hget : (offRecord get).run (p.1.reaped host, p.2) = (p.1.reaped host, (p.1.reaped host, p.2)) := rfl
  rw [executeLine, run_bind_of_run hreap, run_bind_of_run hget, hs]

/-- No line is asked for once a builtin has asked to leave. -/
theorem runLines_of_exit (asks : Nat) (hexit : p.1.shell.env.shouldExit = true) :
    (runLines host asks status).run p = (.ok status, p) := by
  cases asks with
  | zero => rfl
  | succ asks =>
    show StateT.run (if p.1.shell.env.shouldExit then _ else _) p = _
    rw [hexit]
    rfl

/-- Otherwise one is asked for. -/
theorem runLines_succ {read : Except InputError (Option String)} {u : σ} (asks : Nat) (hstay : p.1.shell.env.shouldExit = false)
    (hread : (host.readLine (Shell.prompt p.1.shell)).run p.1.host = (read, u)) :
    (runLines host (asks + 1) status).run p = (afterAsking host asks status read).run ({ p.1 with host := u }, p.2) := by
  show StateT.run (if p.1.shell.env.shouldExit then _ else _) p = _
  rw [hstay]
  have hget : (offRecord get).run p = (p.1, p) := rfl
  have hasked : (offRecord (Shell.onHost (host.readLine (Shell.prompt p.1.shell)))).run p =
      (read, ({ p.1 with host := u }, p.2)) := by
    show (fun asked : Except InputError (Option String) × σ => (asked.1, ({ p.1 with host := asked.2 }, p.2)))
      ((host.readLine (Shell.prompt p.1.shell)).run p.1.host) = _
    rw [hread]
  refine ((run_bind_of_run hget _).trans (run_bind_of_run hasked _)).trans ?_
  rcases read with (_ | _ | _) | _ | _ <;> rfl

end

end Transcript

end PipelineShell
