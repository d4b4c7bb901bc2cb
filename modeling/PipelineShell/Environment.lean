import PipelineShell.Host

/-!
# Variables, the working directory and the request to leave

What the builtins of a session act on. Variables of the session hide those of the process; a variable that the session does
not have is looked up in the process as it is at that moment.
-/

namespace PipelineShell

/-- Names bound to values, each name once, in the order in which they were first bound. -/
abbrev Bindings := List (String × String)

namespace Bindings

/-- The value of a name. -/
def get? (b : Bindings) (name : String) : Option String := b.lookup name

/-- Binds a name, in its old place if it had one. -/
def set : Bindings → String → String → Bindings
  | [], name, value => [(name, value)]
  | (key, old) :: rest, name, value =>
    if key = name then (name, value) :: rest else (key, old) :: set rest name value

/-- Takes a name away. -/
def erase (b : Bindings) (name : String) : Bindings := b.filter fun entry => entry.1 ≠ name

theorem get?_set (b : Bindings) (name value key : String) :
    (b.set name value).get? key = if key = name then some value else b.get? key := by
  induction b with
  | nil => by_cases h : key = name <;> simp [set, get?, h]
  | cons entry rest ih =>
    obtain ⟨k, old⟩ := entry
    simp only [get?] at ih ⊢
    by_cases h : key = k
    · subst h
      by_cases hk : key = name <;> simp [set, hk]
    · have e : (key == k) = false := by simpa using h
      by_cases hk : k = name
      · subst hk
        simp [set, List.lookup_cons, e, h]
      · simp [set, List.lookup_cons, e, hk, ih]

end Bindings

/-- The view of the process that builtins act on. -/
structure Environment where
  vars : Bindings := []
  /-- The working directory; `cd` keeps it in step with the process. -/
  currentDirectory : String := "."
  /-- The status `exit` asked to leave with. The shell stops once the current statement is done. -/
  exitRequested : Option ExitCode := none
  deriving DecidableEq, Repr

namespace Environment

/-- The environment of a process as it is now. A directory that cannot be named is written `.`. -/
def capture {σ : Type} (host : Host σ) : StateM σ Environment := do
  let vars ← host.environment
  let directory ← host.currentDirectory.run
  return { vars := vars.foldl (fun b entry => b.set entry.1 entry.2) []
           currentDirectory := match directory with
             | .ok path => path
             | .error _ => "." }

/-- The value of a variable: of the session, or else of the process. -/
def getVar {σ : Type} (host : Host σ) (e : Environment) (name : String) : StateM σ (Option String) := do
  match e.vars.get? name with
  | some value => return some value
  | none => return Bindings.get? (← host.environment) name

/-- Binds a variable of the session. -/
def setVar (e : Environment) (name value : String) : Environment := { e with vars := e.vars.set name value }

/-- Some builtin asked to leave. -/
def shouldExit (e : Environment) : Bool := e.exitRequested.isSome

end Environment

end PipelineShell
