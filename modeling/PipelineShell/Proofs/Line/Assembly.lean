import PipelineShell.Line.Scan
import PipelineShell.Proofs.Line.Reading

/-!
# Putting words and operators together without limits

An `Assembly` takes the words and operators of a line one by one and knows no limit; what it comes to is what a line says,
whatever limits it is read under. Two readings of it agree: token by token (`Assembly.takeAll`) and lexeme by lexeme, with the
word being read beside it (`Assembly.readAll`).
-/

namespace PipelineShell

namespace Line

/-- A redirection whose path is still to come. -/
inductive Awaited where
  | input
  | output (mode : OutputMode)
  deriving DecidableEq, Repr

/-- The operator that asked for the path. -/
def Awaited.operator : Awaited → Operator
  | .input => .input
  | .output mode => .output mode

/-- What has been put together of a line. -/
structure Assembly where
  /-- The statements that a `;` has ended. -/
  finished : List Pipeline := []
  /-- The stages that a `|` has ended. -/
  commands : List Command := []
  /-- The arguments of the current stage. -/
  argv : List String := []
  input : Option String := none
  output : Option OutputTarget := none
  awaited : Option Awaited := none
  deriving DecidableEq, Repr

namespace Assembly

/-- The pipeline of the current statement. -/
def pipeline (a : Assembly) : Pipeline := ⟨a.commands ++ (Command.ofArgv? a.argv).toList, a.input, a.output⟩

/-- Nothing of the current statement has been read. -/
def IsBlank (a : Assembly) : Prop := a.commands = [] ∧ a.argv = [] ∧ a.input = none ∧ a.output = none

instance (a : Assembly) : Decidable a.IsBlank := inferInstanceAs (Decidable (_ ∧ _ ∧ _ ∧ _))

/-- Takes a word: an argument, or the path that is awaited. -/
def takeWord (a : Assembly) (w : String) : Assembly :=
  match a.awaited with
  | none => { a with argv := a.argv ++ [w] }
  | some .input => { a with input := some w, awaited := none }
  | some (.output mode) => { a with output := some ⟨w, mode⟩, awaited := none }

/-- An operator can stand here: the current stage has a name, no path is awaited, a redirection is the first of its kind, `<`
belongs to the first stage, and no `|` follows an output redirection. -/
def Permits (a : Assembly) : Operator → Prop
  | .pipe => a.awaited = none ∧ a.argv ≠ [] ∧ a.output = none
  | .input => a.awaited = none ∧ a.argv ≠ [] ∧ a.commands = [] ∧ a.input = none
  | .output _ => a.awaited = none ∧ a.argv ≠ [] ∧ a.output = none
  | .semicolon => a.awaited = none ∧ a.argv ≠ []

instance (a : Assembly) : (o : Operator) → Decidable (a.Permits o)
  | .pipe | .output _ => inferInstanceAs (Decidable (_ ∧ _ ∧ _))
  | .input => inferInstanceAs (Decidable (_ ∧ _ ∧ _ ∧ _))
  | .semicolon => inferInstanceAs (Decidable (_ ∧ _))

/-- What an operator does where it can stand. -/
def operate (a : Assembly) : Operator → Assembly
  | .pipe => { a with commands := a.pipeline.commands, argv := [] }
  | .input => { a with awaited := some .input }
  | .output mode => { a with awaited := some (.output mode) }
  | .semicolon => { finished := a.finished ++ [a.pipeline] }

/-- Takes a word or an operator; an operator that cannot stand here is the error. -/
def take (a : Assembly) : Token → Except Operator Assembly
  | .word w => .ok (a.takeWord w)
  | .operator o => if a.Permits o then .ok (a.operate o) else .error o

/-- Takes tokens in order. -/
def takeAll (a : Assembly) (ts : List Token) : Except Operator Assembly := ts.foldlM take a

/-- The statements at the end of a line. -/
def finish (a : Assembly) : Except Operator (List Pipeline) :=
  match a.awaited with
  | some r => .error r.operator
  | none =>
    if a.IsBlank then .ok a.finished
    else if a.argv = [] then .error .pipe
    else .ok (a.finished ++ [a.pipeline])

@[simp] theorem takeAll_word (a : Assembly) (w : String) (ts : List Token) :
    a.takeAll (.word w :: ts) = (a.takeWord w).takeAll ts := rfl

theorem takeAll_operator {a : Assembly} {o : Operator} (h : a.Permits o) (ts : List Token) :
    a.takeAll (.operator o :: ts) = (a.operate o).takeAll ts := by
  simp only [takeAll, List.foldlM_cons, take, if_pos h]
  rfl

/-! ## Lexeme by lexeme -/

/-- Ends the word being read, if there is one. -/
def flush (a : Assembly) (run : String) : Assembly := if run = "" then a else a.takeWord run

@[simp] theorem flush_empty (a : Assembly) : a.flush "" = a := rfl

theorem flush_of_ne (a : Assembly) {run : String} (h : run ≠ "") : a.flush run = a.takeWord run := if_neg h

/-- Takes a lexeme: the assembly and the word being read after it. -/
def read (a : Assembly) (run : String) : Lexeme → Except Operator (Assembly × String)
  | .literal c => .ok (a, run.push c)
  | .blank => .ok (a.flush run, "")
  | .operator o => if (a.flush run).Permits o then .ok ((a.flush run).operate o, "") else .error o

/-- Takes lexemes in order. -/
def readAll (p : Assembly × String) (ls : List Lexeme) : Except Operator (Assembly × String) :=
  ls.foldlM (fun p => p.1.read p.2) p

theorem takeAll_ofRun (a : Assembly) (run : String) (ts : List Token) :
    a.takeAll (Token.ofRun run ++ ts) = (a.flush run).takeAll ts := by
  unfold Token.ofRun flush
  by_cases h : run = ""
  · rw [if_pos h, if_pos h]
    rfl
  · rw [if_neg h, if_neg h]
    rfl

/-- Reading lexemes and then ending the last word is taking the tokens they make. -/
theorem readAll_flush (p : Assembly × String) (ls : List Lexeme) :
    (readAll p ls).map (fun q => q.1.flush q.2) = p.1.takeAll (tokens p.2 ls) := by
  induction ls generalizing p with
  | nil =>
    have := takeAll_ofRun p.1 p.2 []
    rw [List.append_nil] at this
    exact this.symm
  | cons l ls ih =>
    cases l with
    | literal c => exact ih (p.1, p.2.push c)
    | blank =>
      rw [tokens, takeAll_ofRun]
      exact ih (p.1.flush p.2, "")
    | operator o =>
      rw [tokens, takeAll_ofRun]
      by_cases h : (p.1.flush p.2).Permits o
      · rw [takeAll_operator h, readAll, List.foldlM_cons, read, if_pos h]
        exact ih ((p.1.flush p.2).operate o, "")
      · rw [takeAll, List.foldlM_cons, take, if_neg h, readAll, List.foldlM_cons, read, if_neg h]
        rfl

/-- A line can end where no path is awaited and the current statement, if one has been begun, has its last stage. -/
theorem finish_eq_ok_iff {a : Assembly} {ps : List Pipeline} :
    a.finish = .ok ps ↔
      a.awaited = none ∧ (a.IsBlank ∧ ps = a.finished ∨ a.argv ≠ [] ∧ ps = a.finished ++ [a.pipeline]) := by
  unfold finish
  cases a.awaited with
  | some r => simp
  | none =>
    by_cases hb : a.IsBlank
    · simp [hb, hb.2.1, eq_comm]
    · by_cases hargv : a.argv = []
      · simp [hb, hargv]
      · simp [hb, hargv, eq_comm]

end Assembly

/-- What the words and operators of a line say: its statements, or the operator that cannot stand where it does. -/
def assemble (ts : List Token) : Except Operator (List Pipeline) := (({} : Assembly).takeAll ts).bind Assembly.finish

end Line

end PipelineShell
