import Mathlib.Order.Bounds.Defs
import PipelineShell.Builtin.Scripted
import PipelineShell.Proofs.Executor.History
import PipelineShell.Proofs.Executor.TableHost
import PipelineShell.Shell

/-!
# What a line makes a session do

`executeLine_run` says it for every session and every line. The stragglers are looked at first, each once. Of a line that is
refused there is then a complaint and nothing else. Of any other the statements are run, each once and in order, up to the end or to
the first one after which some builtin has asked to leave; what came of a statement does not matter to the ones after it.
-/

namespace PipelineShell

variable {σ : Type}

namespace Shell

/-- Runs statements in order, whatever comes of them, and returns their statuses. -/
def runEach (host : Host σ) (statements : List Statement) : ShellM σ (List ExitCode) := statements.mapM (runStatement host)

/-- A line without the line breaks at its end is what stands before them. -/
theorem trimLine_eq_iff {line body : String} : trimLine line = body ↔
    ∃ breaks, line = body ++ breaks ∧ (∀ c ∈ breaks.toList, c = '\n' ∨ c = '\r') ∧
      ∀ c ∈ body.toList.getLast?, ¬ (c = '\n' ∨ c = '\r') := by
  unfold trimLine
  generalize hp : (fun c => decide (c = '\n' ∨ c = '\r')) = p
  have hbreak (c : Char) : p c = true ↔ c = '\n' ∨ c = '\r' := by
    rw [← hp, decide_eq_true_iff]
  constructor
  · rintro rfl
    refine ⟨String.ofList (line.toList.reverse.takeWhile p).reverse, ?_, fun c hc => ?_, fun c hc => ?_⟩
    · rw [← String.ofList_append, ← List.reverse_append, List.takeWhile_append_dropWhile, List.reverse_reverse, String.ofList_toList]
    · rw [String.toList_ofList, List.mem_reverse] at hc
      exact (hbreak c).mp (List.all_eq_true.mp List.all_takeWhile c hc)
    · rw [String.toList_ofList, List.getLast?_reverse] at hc
      have := List.head?_dropWhile_not p line.toList.reverse
      rw [hc] at this
      simpa [← hbreak] using this
  · rintro ⟨breaks, rfl, hbreaks, hlast⟩
    rw [String.toList_append, List.reverse_append,
      List.dropWhile_append_of_pos fun c hc => (hbreak c).mpr (hbreaks c (List.mem_reverse.mp hc))]
    have hkept : body.toList.reverse.dropWhile p = body.toList.reverse := by
      cases hbody : body.toList.reverse with
      | nil => rfl
      | cons c cs =>
        have hc := hlast c (by rw [← List.head?_reverse, hbody]; rfl)
        exact List.dropWhile_cons_of_neg (by rwa [hbreak])
    rw [hkept, List.reverse_reverse, String.ofList_toList]

end Shell

namespace Session

/-- A session after a complaint. -/
def complain (host : Host σ) (text : String) (s : Session σ) : Session σ := { s with host := ((host.complain text).run s.host).2 }

/-- A session once it has gone through its stragglers. -/
def reaped (host : Host σ) (s : Session σ) : Session σ :=
  let polled := (poll host s.shell.stragglers).run s.host
  { shell := { s.shell with stragglers := stillAlive polled.1 }, host := polled.2 }

/-- Of statements run from a session, `j` are run before the line is over: all of them, or as many as it takes for some builtin to
have asked to leave after the last of them. -/
def EndsAfter (host : Host σ) (s : Session σ) (statements : List Statement) (j : Nat) : Prop :=
  j = statements.length ∨ 0 < j ∧ j < statements.length ∧
    ((Shell.runEach host (statements.take j)).run s).2.shell.env.shouldExit = true

end Session

/-- All that can be seen of a host that neither a look at a child nor a complaint changes is the same in both states. -/
def Undisturbed (host : Host σ) (s t : σ) : Prop :=
  ∀ {α : Type} (view : σ → α), (∀ child u, view ((host.wait child .poll).run.run u).2 = view u) →
    (∀ text u, view ((host.complain text).run u).2 = view u) → view t = view s

namespace Shell

open Session

variable {host : Host σ} {s : Session σ} {statements : List Statement}

theorem runStatement_discarded (host : Host σ) (e : LimitError) (s : Session σ) :
    (runStatement host (.discarded e)).run s = (1, s.complain host e.message) := rfl

theorem get_run (s : Session σ) : (get : ShellM σ (Session σ)).run s = (s, s) := rfl

theorem reap_run (host : Host σ) (s : Session σ) : (reap host).run s = ((), s.reaped host) := by
  simp only [reap, Stragglers.reap_eq]
  rfl

/-- One statement is run, and then the rest if the session is not to end. -/
theorem runStatements_cons (host : Host σ) (status : ExitCode) (statement : Statement) (rest : List Statement) (s : Session σ) :
    (runStatements host status (statement :: rest)).run s =
      if ((runStatement host statement).run s).2.shell.env.shouldExit then (runStatement host statement).run s
      else (runStatements host ((runStatement host statement).run s).1 rest).run ((runStatement host statement).run s).2 := by
  have hstep : (runStatements host status (statement :: rest)).run s =
      (if ((runStatement host statement).run s).2.shell.env.shouldExit then return ((runStatement host statement).run s).1
        else runStatements host ((runStatement host statement).run s).1 rest : ShellM σ ExitCode).run
          ((runStatement host statement).run s).2 := rfl
  rw [hstep]
  split <;> rfl

theorem runEach_cons (host : Host σ) (statement : Statement) (rest : List Statement) (s : Session σ) :
    (runEach host (statement :: rest)).run s =
      (((runStatement host statement).run s).1 :: ((runEach host rest).run ((runStatement host statement).run s).2).1,
        ((runEach host rest).run ((runStatement host statement).run s).2).2) := by
  rw [runEach, List.mapM_cons]
  rfl

/-- Where the session does not end with the first statement, it ends with the rest as it would from there. -/
theorem endsAfter_cons_succ {statement : Statement} {rest : List Statement}
    (h : ¬ ((runStatement host statement).run s).2.shell.env.shouldExit = true) (j : Nat) :
    s.EndsAfter host (statement :: rest) (j + 1) ↔ ((runStatement host statement).run s).2.EndsAfter host rest j := by
  unfold EndsAfter
  rw [List.length_cons, List.take_succ_cons, runEach_cons]
  cases j with
  | zero =>
    constructor
    · rintro (hlength | ⟨-, -, hexit⟩)
      · exact .inl (Nat.succ.inj hlength)
      · exact absurd hexit h
    · rintro (hlength | ⟨hpos, -⟩)
      · exact .inl (congrArg Nat.succ hlength)
      · exact absurd hpos (Nat.lt_irrefl 0)
  | succ j => simp

/-- Statements are run in order up to the first one after which the line is over, and each once. -/
theorem runStatements_run (host : Host σ) (status : ExitCode) (statements : List Statement) (s : Session σ) :
    ∃ k, IsLeast {j | s.EndsAfter host statements j} k ∧
      (runStatements host status statements).run s =
        (((runEach host (statements.take k)).run s).1.getLast?.getD status, ((runEach host (statements.take k)).run s).2) := by
  induction statements generalizing status s with
  | nil => exact ⟨0, ⟨.inl rfl, fun j _ => Nat.zero_le j⟩, rfl⟩
  | cons statement rest ih =>
    rw [runStatements_cons]
    have hpos {j : Nat} (hj : s.EndsAfter host (statement :: rest) j) : 0 < j := by
      obtain rfl | ⟨hj, -⟩ := hj
      · exact Nat.succ_pos _
      · exact hj
    split
    · rename_i hexit
      refine ⟨1, ⟨?_, fun j hj => hpos hj⟩, ?_⟩
      · cases rest with
        | nil => exact .inl rfl
        | cons next rest => exact .inr ⟨Nat.one_pos, Nat.succ_lt_succ (Nat.succ_pos _), hexit⟩
      · rw [List.take_succ_cons, runEach_cons]
        rfl
    · rename_i hstay
      obtain ⟨k, ⟨hk, hleast⟩, hrun⟩ := ih ((runStatement host statement).run s).1 ((runStatement host statement).run s).2
      refine ⟨k + 1, ⟨(endsAfter_cons_succ hstay k).mpr hk, fun j hj => ?_⟩, ?_⟩
      · obtain ⟨j, rfl⟩ := Nat.exists_eq_succ_of_ne_zero (Nat.ne_of_gt (hpos hj))
        exact Nat.succ_le_succ (hleast ((endsAfter_cons_succ hstay j).mp hj))
      · rw [hrun, List.take_succ_cons, runEach_cons, List.getLast?_cons, Option.getD_some]

end Shell

namespace Undisturbed

variable {host : Host σ}

theorem poll (children : List Pid) (s : σ) : Undisturbed host s ((poll host children).run s).2 :=
  fun _ hwait _ => poll_keeps hwait children s

theorem complain {s t : σ} (h : Undisturbed host s t) (text : String) : Undisturbed host s ((host.complain text).run t).2 :=
  fun view hwait hcomplain => (hcomplain text t).trans (h view hwait hcomplain)

end Undisturbed

/-- Of a line that is refused there is a complaint. -/
theorem Shell.executeLine_of_error {host : Host σ} {line : String} {s : Session σ} {e : SyntaxError}
    (he : parseLine s.shell.limits (trimLine line) = .error e) :
    (executeLine host line).run s = (1, (s.reaped host).complain host e.message) := by
  have he : parseLine (s.reaped host).shell.limits (trimLine line) = .error e := he
  rw [executeLine, run_bind_of_run (reap_run host s), run_bind_of_run (get_run _), he]
  rfl

/-- Of any other the statements are run. -/
theorem Shell.executeLine_of_ok {host : Host σ} {line : String} {s : Session σ} {statements : List Statement}
    (hs : parseLine s.shell.limits (trimLine line) = .ok statements) :
    (executeLine host line).run s = (runStatements host 0 statements).run (s.reaped host) := by
  have hs : parseLine (s.reaped host).shell.limits (trimLine line) = .ok statements := hs
  rw [executeLine, run_bind_of_run (reap_run host s), run_bind_of_run (get_run _), hs]

namespace Shell

variable {host : Host σ} {s : Session σ}

/-- What every statement leaves true is true after any number of them. -/
theorem ensures_runStatements {P : Session σ → Prop} (hstatement : ∀ statement, Ensures P (runStatement host statement) fun _ => P)
    (status : ExitCode) (statements : List Statement) : Ensures P (runStatements host status statements) fun _ => P := by
  induction statements generalizing status with
  | nil => exact .pure fun _ hs => hs
  | cons statement rest ih =>
    intro s hs
    have hstep := hstatement statement s hs
    rw [runStatements_cons]
    split
    · exact hstep
    · exact ih _ _ hstep

/-- And after a line, if going through the stragglers and complaining leave it true as well. -/
theorem ensures_executeLine {P : Session σ → Prop} (hstatement : ∀ statement, Ensures P (runStatement host statement) fun _ => P)
    (hreaped : ∀ s, P s → P (s.reaped host)) (hcomplain : ∀ text s, P s → P (s.complain host text)) (line : String) :
    Ensures P (executeLine host line) fun _ => P := by
  intro s hs
  cases hparse : parseLine s.shell.limits (trimLine line) with
  | error e =>
    rw [executeLine_of_error hparse]
    exact hcomplain _ _ (hreaped s hs)
  | ok statements =>
    rw [executeLine_of_ok hparse]
    exact ensures_runStatements hstatement 0 statements _ (hreaped s hs)

/-- No line is asked for once a builtin has asked to leave. -/
theorem runLines_of_exit {status : ExitCode} (asks : Nat) (hexit : s.shell.env.shouldExit = true) :
    (runLines host asks status).run s = (.ok status, s) := by
  cases asks with
  | zero => rfl
  | succ asks =>
    show StateT.run (if s.shell.env.shouldExit then _ else _) s = _
    rw [hexit]
    rfl

/-- What is done when a line has been asked for: one that there is is run, and then at most so many more are asked for. -/
def afterAsking (host : Host σ) (asks : Nat) (status : ExitCode) :
    Except InputError (Option String) → ShellM σ (Except InputError ExitCode)
  | .ok (some line) => do runLines host asks (← executeLine host (Line.ofInput line))
  | .error .interrupted => runLines host asks status
  | .ok none => return .ok status
  | .error e => return .error e

/-- Otherwise one is asked for. -/
theorem runLines_succ {status : ExitCode} {read : Except InputError (Option String)} {u : σ} (asks : Nat)
    (hstay : s.shell.env.shouldExit = false) (hread : (host.readLine (prompt s.shell)).run s.host = (read, u)) :
    (runLines host (asks + 1) status).run s = (afterAsking host asks status read).run { s with host := u } := by
  show StateT.run (if s.shell.env.shouldExit then _ else _) s = _
  rw [hstay]
  have hasked : (onHost (host.readLine (prompt s.shell))).run s = (read, { s with host := u }) := by
    show (fun asked : Except InputError (Option String) × σ => (asked.1, { s with host := asked.2 }))
      ((host.readLine (prompt s.shell)).run s.host) = _
    rw [hread]
  refine ((run_bind_of_run (get_run s) _).trans (run_bind_of_run hasked _)).trans ?_
  rcases read with (_ | _ | _) | _ | _ <;> rfl

end Shell

/-- What a line makes a session do. A line that is refused is reported with status 1, and besides nothing is done than looking at the
stragglers. Of any other line the statements are run, each once and in order, up to the end or to the first one after which some
builtin has asked to leave; the result is the status of the last one run, or 0. A statement that broke a limit counts as run with the
report of it. -/
theorem Shell.executeLine_run (host : Host σ) (line : String) (s : Session σ) :
    (∀ e, parseLine s.shell.limits (trimLine line) = .error e →
      (executeLine host line).run s = (1, (s.reaped host).complain host e.message) ∧
        ((s.reaped host).complain host e.message).shell.env = s.shell.env ∧
        Undisturbed host s.host ((s.reaped host).complain host e.message).host) ∧
    (∀ statements, parseLine s.shell.limits (trimLine line) = .ok statements →
      ∃ k codes t, IsLeast {j | (s.reaped host).EndsAfter host statements j} k ∧
        (runEach host (statements.take k)).run (s.reaped host) = (codes, t) ∧
        (executeLine host line).run s = (codes.getLast?.getD 0, t)) ∧
    ∀ e t, (runStatement host (.discarded e)).run t = (1, t.complain host e.message) := by
  refine ⟨fun e he => ⟨executeLine_of_error he, rfl, Undisturbed.complain (Undisturbed.poll _ _) _⟩, fun statements hs => ?_,
    runStatement_discarded host⟩
  obtain ⟨k, hk, hrun⟩ := runStatements_run host 0 statements (s.reaped host)
  exact ⟨k, _, _, hk, rfl, (executeLine_of_ok hs).trans hrun⟩

/-- A builtin that asks to leave with one status and has another. -/
def leaver : ScriptedBuiltin := { name := "leave", leaveWith? := some 7, code := 3 }

/-- A process without descriptors. -/
def bareBench : Bench where
  descriptors := {}
  numbered _ _ fd := by cases fd <;> exact ⟨nofun, nofun⟩

/-- A session with that builtin and no other. -/
def leaverSession : Session Bench where
  shell := { env := {}, builtins := [leaver.toBuiltin tableHost] }
  host := bareBench

/-- A line of three statements, the first of which breaks a limit, is over after the second; of a line that is refused for its last
statement not even the first one is run. -/
theorem Shell.executeLine_run_leave :
    (parseLine {} (trimLine "a b c d e f g h i; leave; leave\r\n") = .ok
        [.discarded (.tooManyArguments "a"), .ready ⟨[⟨"leave", []⟩], none, none⟩, .ready ⟨[⟨"leave", []⟩], none, none⟩] ∧
      ((executeLine tableHost "a b c d e f g h i; leave; leave\r\n").run leaverSession).1 = 3) ∧
    parseLine {} (trimLine "leave; a |\n") = .error (.unexpectedOperator .pipe) ∧
      ((executeLine tableHost "leave; a |\n").run leaverSession).1 = 1 ∧
      ((executeLine tableHost "leave; a |\n").run leaverSession).2.shell.env = {} := by
  have hparse : parseLine {} (trimLine "a b c d e f g h i; leave; leave\r\n") = .ok
      [.discarded (.tooManyArguments "a"), .ready ⟨[⟨"leave", []⟩], none, none⟩, .ready ⟨[⟨"leave", []⟩], none, none⟩] := by
    rfl
  have hrefused : parseLine {} (trimLine "leave; a |\n") = .error (.unexpectedOperator .pipe) := by rfl
  refine ⟨⟨hparse, ?_⟩, hrefused, ?_⟩
  · obtain ⟨k, codes, t, ⟨hk, hleast⟩, hrun, hexec⟩ :=
      (executeLine_run tableHost "a b c d e f g h i; leave; leave\r\n" leaverSession).2.1 _ hparse
    have htwo : k ≤ 2 := hleast (.inr ⟨by decide, by decide, rfl⟩)
    have hk2 : k = 2 := by
      rcases hk with hk | ⟨hpos, -, hexit⟩
      · exact absurd (hk ▸ htwo) (by decide)
      · have hone : k ≠ 1 := by
          rintro rfl
          nomatch hexit
        omega
    subst hk2
    have hcodes : codes = [1, 3] := (congrArg Prod.fst hrun).symm
    rw [hexec, hcodes]
    rfl
  · obtain ⟨hrun, henv, -⟩ := (executeLine_run tableHost "leave; a |\n" leaverSession).1 _ hrefused
    rw [hrun]
    exact ⟨rfl, henv⟩

end PipelineShell
