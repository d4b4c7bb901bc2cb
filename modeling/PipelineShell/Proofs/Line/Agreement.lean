import PipelineShell.Proofs.Line.Configuration
import PipelineShell.Proofs.Line.Ready

/-!
# The scan knows where it is

The place of a scan, its cursor and the operators it has taken are kept apart, and no step checks that they fit together. They always
do. What a cursor holds is settled by the last operator alone (`Cursor.Behind`), and so is where literal characters go (`Placed`); a step
keeps this whatever the limits are. `agrees_of_reached` says what it means for each place and each part of the cursor. Two branches of
the scan turn out to be narrower than they look: a character never has to make the slot of the path it belongs to, and a line is refused
for a `|` at its end only where no word has come behind that `|`.
-/

namespace PipelineShell

/-- The operator that a lexeme is. -/
def Lexeme.operator? : Lexeme → Option Operator
  | .operator o => some o
  | .literal _ | .blank => none

namespace Line

/-- The last operator of some lexemes. -/
def lastOperator? (ls : List Lexeme) : Option Operator := (ls.filterMap Lexeme.operator?).getLast?

theorem lastOperator?_concat (ls : List Lexeme) (l : Lexeme) : lastOperator? (ls ++ [l]) = l.operator?.or (lastOperator? ls) := by
  unfold lastOperator?
  rw [List.filterMap_append, List.getLast?_append]
  cases l <;> rfl

end Line

open Line

namespace Cursor

/-- The words of every stage, those of the current one last. -/
def stages (k : Cursor) : List (List String) := k.commands.map Command.argv ++ [k.argv]

/-- What a cursor holds behind the last operator that the scan has taken. Behind none, and behind a `;`, a statement begins. -/
def Behind (k : Cursor) : Option Operator → Prop
  | none | some .semicolon => k.commands = [] ∧ k.input = none ∧ k.output = none
  | some .pipe => k.commands ≠ [] ∧ k.output = none
  | some .input => k.argv ≠ [] ∧ k.commands = [] ∧ k.input ≠ none
  | some (.output mode) => k.argv ≠ [] ∧ ∃ path, k.output = some ⟨path, mode⟩

/-- Adds a character to the output path, if there is a slot for it. -/
def pushOutputSlot? (limits : Limits) (k : Cursor) (c : Char) : Option (Except LimitError Cursor) :=
  k.output.map fun target =>
    (extendPath limits target.path c).map fun path => { k with output := some { target with path } }

/-- Adds a character to the input path, if there is a slot for it. -/
def pushInputSlot? (limits : Limits) (k : Cursor) (c : Char) : Option (Except LimitError Cursor) :=
  k.input.map fun path => (extendPath limits path c).map fun path => { k with input := some path }

end Cursor

/-- Where literal characters go and what the cursor holds, behind the last operator that the scan has taken. -/
inductive Placed : Option Operator → Place → Cursor → Prop where
  | argument {last : Option Operator} {k : Cursor} : k.Behind last → Placed last .argument k
  | outputPath {mode : OutputMode} {k : Cursor} : k.Behind (some (.output mode)) → k.token = "" →
      Placed (some (.output mode)) .outputPath k
  | inputPath {k : Cursor} : k.Behind (some .input) → k.token = "" → Placed (some .input) .inputPath k
  | skipping {last : Option Operator} : Placed last .skipping {}

namespace Scan

/-- The place of a scan, its cursor and the lexemes it has taken fit together, inside quotes and out. -/
structure Agrees (ls : List Lexeme) (s : Scan) : Prop where
  /-- The output path is read into a slot with the mode of the operator that has asked for it, and behind no unfinished word. -/
  outputPath : s.place = .outputPath →
    ∃ target, s.cursor.output = some target ∧ lastOperator? ls = some (.output target.mode) ∧ s.cursor.token = ""
  inputPath : s.place = .inputPath → s.cursor.input ≠ none ∧ lastOperator? ls = some .input ∧ s.cursor.token = ""
  /-- Of a statement that is being dropped nothing is kept. -/
  skipping : s.place = .skipping → s.cursor = {}
  /-- An output path that is not being read is there as a whole. -/
  outputBegun : s.place ≠ .outputPath → ∀ target ∈ s.cursor.output, target.path ≠ ""
  inputBegun : s.place ≠ .inputPath → ∀ path ∈ s.cursor.input, path ≠ ""
  /-- The output redirection belongs to a stage that has a name. -/
  outputStage : s.cursor.output ≠ none → s.cursor.argv ≠ []
  /-- So does the input redirection, and this stage is the first one. -/
  inputStage : s.cursor.input ≠ none → ∃ first later, s.cursor.stages = first :: later ∧ first ≠ []
  /-- No stage that a `|` has ended is empty, and no word of it. -/
  commands : ∀ c ∈ s.cursor.commands, c.argv ≠ [] ∧ ∀ w ∈ c.argv, w ≠ ""

/-- The last operator is a `|`, and the stage behind it is still to be begun. -/
structure AwaitsStage (ls : List Lexeme) (s : Scan) : Prop where
  operator : lastOperator? ls = some .pipe
  place : s.place = .argument
  argv : s.cursor.argv = []
  token : s.cursor.token = ""

end Scan

variable {limits : Limits} {last : Option Operator} {s t : Scan} {ls : List Lexeme} {l : Lexeme} {k k' : Cursor} {place : Place}

/-! ## What a step keeps -/

theorem Cursor.WordEnd.token_eq (h : k.WordEnd limits k') : k'.token = "" := by
  cases h with
  | none htoken => exact htoken
  | word htoken hargs => rfl

/-- What a cursor holds behind an operator does not depend on the word being read, and more words of the stage do no harm. -/
theorem Cursor.Behind.of_eq (h : k.Behind last) (hcommands : k'.commands = k.commands) (hinput : k'.input = k.input)
    (houtput : k'.output = k.output) (hargv : k.argv ≠ [] → k'.argv ≠ []) : k'.Behind last := by
  rcases last with _ | _ | _ | mode | _ <;> simp only [Behind, hcommands, hinput, houtput] at h ⊢
  · exact h
  · exact h
  · exact ⟨hargv h.1, h.2⟩
  · exact ⟨hargv h.1, h.2⟩
  · exact h

theorem Cursor.Behind.wordEnd (h : k.Behind last) (hend : k.WordEnd limits k') : k'.Behind last := by
  cases hend with
  | none htoken => exact h
  | word htoken hargs => exact h.of_eq rfl rfl rfl fun _ => List.concat_ne_nil _ _

theorem Placed.behind (h : Placed last place k) (hplace : place ≠ .skipping) : k.Behind last := by
  cases h with
  | argument hbehind => exact hbehind
  | outputPath hbehind htoken => exact hbehind
  | inputPath hbehind htoken => exact hbehind
  | skipping => exact absurd rfl hplace

/-- Where a statement begins nothing has been collected. -/
theorem placed_fresh : Placed (some .semicolon) .argument {} := .argument ⟨rfl, rfl, rfl⟩

/-- Up to the next operator the cursor only grows. An operator that is taken leaves a cursor that fits behind it, whatever the one
before has left. -/
theorem Placed.step (h : Placed last s.place s.cursor) (he : Scan.Effect limits s l t) :
    Placed (l.operator?.or last) t.place t.cursor := by
  obtain ⟨place, k, sts⟩ := s
  cases he with
  | skipped hplace hl =>
    cases hplace
    cases h
    exact .skipping
  | resumed hplace => exact placed_fresh
  | setAside e hplace =>
    rw [Scan.discard_eq]
    exact .skipping
  | setAsideWhole e hplace =>
    rw [Scan.discard_eq]
    exact placed_fresh
  | tokenGrown c hplace hsize =>
    cases hplace
    cases h with
    | argument hbehind => exact .argument (hbehind.of_eq rfl rfl rfl id)
  | outputGrown c target hplace htarget hsize =>
    cases hplace
    cases h with
    | outputPath hbehind htoken =>
      -- the slot is there, so the character does not make one
      obtain ⟨hargv, path, houtput⟩ := hbehind
      rw [houtput] at htarget
      subst htarget
      exact .outputPath ⟨hargv, _, rfl⟩ htoken
  | inputGrown c path hplace hpath hsize =>
    cases hplace
    cases h with
    | inputPath hbehind htoken => exact .inputPath ⟨hbehind.1, hbehind.2.1, Option.some_ne_none _⟩ htoken
  | wordEnded hplace hend =>
    cases hplace
    cases h with
    | argument hbehind => exact .argument (hbehind.wordEnd hend)
  | awaited hawaits => exact h
  | pathEnded hplace hbegun =>
    rcases hplace with hplace | hplace <;> cases hplace <;> exact .argument (h.behind Place.noConfusion)
  | piped hlive hargv houtput hstages =>
    obtain ⟨c, -, hall⟩ := Cursor.allCommands_eq hargv
    refine .argument ⟨?_, houtput⟩
    rw [hall]
    exact List.concat_ne_nil _ _
  | inputAsked hlive hargv hcommands hinput =>
    exact .inputPath ⟨hargv, hcommands, Option.some_ne_none _⟩ hlive.wordEnd.token_eq
  | outputAsked mode hlive hargv houtput => exact .outputPath ⟨hargv, _, rfl⟩ hlive.wordEnd.token_eq
  | completed hlive hargv =>
    rw [Scan.complete_eq]
    exact placed_fresh

theorem placed_of_reached {line : String} {c : Configuration} (h : c.Reached limits line) :
    Placed (lastOperator? c.lexemes) c.scan.place c.scan.cursor := by
  induction h with
  | refl => exact .argument ⟨rfl, rfl, rfl⟩
  | tail _ hturn ih =>
    cases hturn with
    | quote => exact ih
    | lexeme hbegins hstep =>
      rw [lastOperator?_concat]
      exact ih.step (Scan.effect_of_step hstep)

/-! ## What follows for the cursor -/

/-- The slot of an output path is made behind a word, and the stage cannot be ended any more. -/
theorem Cursor.Behind.outputStage (h : k.Behind last) (houtput : k.output ≠ none) : k.argv ≠ [] := by
  rcases last with _ | _ | _ | mode | _
  · exact absurd h.2.2 houtput
  · exact absurd h.2 houtput
  · exact h.1
  · exact h.1
  · exact absurd h.2.2 houtput

/-- The slot of an input path is made behind a word of the first stage, which a `|` may end later. -/
theorem Cursor.Behind.inputStage (h : k.Behind last) (hinput : k.input ≠ none) :
    ∃ first later, k.stages = first :: later ∧ first ≠ [] := by
  unfold Cursor.stages
  cases hcommands : k.commands with
  | cons c cs => exact ⟨c.argv, _, rfl, List.cons_ne_nil _ _⟩
  | nil =>
    refine ⟨k.argv, [], rfl, ?_⟩
    rcases last with _ | _ | _ | mode | _
    · exact absurd h.2.1 hinput
    · exact absurd hcommands h.1
    · exact h.1
    · exact h.1
    · exact absurd h.2.1 hinput

/-- A statement that has been begun and whose last stage has no word has a `|` as its last operator. -/
theorem Placed.eq_pipe (h : Placed last place k) (hargv : k.argv = []) (htoken : k.token = "") (hblank : ¬ k.isBlank) :
    last = some .pipe ∧ place = .argument := by
  have hbegins (hnone : k.commands = [] ∧ k.input = none ∧ k.output = none) : k.isBlank := by
    simp [Cursor.isBlank, hnone, hargv, htoken]
  cases h with
  | argument hbehind =>
    rcases last with _ | _ | _ | mode | _
    · exact absurd (hbegins hbehind) hblank
    · exact ⟨rfl, rfl⟩
    · exact absurd hargv hbehind.1
    · exact absurd hargv hbehind.1
    · exact absurd (hbegins hbehind) hblank
  | outputPath hbehind _ => exact absurd hargv hbehind.1
  | inputPath hbehind _ => exact absurd hargv hbehind.1
  | skipping => exact absurd rfl hblank

/-- Whatever the place is, what the cursor holds fits behind some operator: a cursor that holds nothing fits behind none. -/
theorem Placed.exists_behind (h : Placed last place k) : ∃ o, k.Behind o := by
  cases h with
  | argument hbehind => exact ⟨_, hbehind⟩
  | outputPath hbehind htoken => exact ⟨_, hbehind⟩
  | inputPath hbehind htoken => exact ⟨_, hbehind⟩
  | skipping => exact ⟨none, rfl, rfl, rfl⟩

namespace Scan

theorem agrees_of_placed (h : Placed (lastOperator? ls) s.place s.cursor) (hsound : s.Sound limits) : s.Agrees ls := by
  obtain ⟨o, hbehind⟩ := h.exists_behind
  have hplaced : (s.place = .outputPath → ∃ target, s.cursor.output = some target ∧
        lastOperator? ls = some (.output target.mode) ∧ s.cursor.token = "") ∧
      (s.place = .inputPath → s.cursor.input ≠ none ∧ lastOperator? ls = some .input ∧ s.cursor.token = "") ∧
      (s.place = .skipping → s.cursor = {}) := by
    generalize lastOperator? ls = last, s.place = place, s.cursor = k at h ⊢
    cases h with
    | argument hbehind => exact ⟨nofun, nofun, nofun⟩
    | outputPath hbehind htoken =>
      obtain ⟨-, path, houtput⟩ := hbehind
      exact ⟨fun _ => ⟨_, houtput, rfl, htoken⟩, nofun, nofun⟩
    | inputPath hbehind htoken => exact ⟨nofun, fun _ => ⟨hbehind.2.2, rfl, htoken⟩, nofun⟩
    | skipping => exact ⟨nofun, nofun, fun _ => rfl⟩
  exact {
    outputPath := hplaced.1
    inputPath := hplaced.2.1
    skipping := hplaced.2.2
    outputBegun := hsound.output
    inputBegun := hsound.input
    outputStage := hbehind.outputStage
    inputStage := hbehind.inputStage
    commands := fun c hc => ⟨List.cons_ne_nil _ _, hsound.cursor.commands c hc⟩ }

/-- The end of a statement is refused for a `|` exactly where the stage behind a `|` is still to be begun. -/
theorem finishStatement_eq_pipe_iff (h : Placed (lastOperator? ls) s.place s.cursor) :
    s.finishStatement limits = .error (.syntaxError (.unexpectedOperator .pipe)) ↔ s.AwaitsStage ls := by
  constructor
  · intro hreport
    unfold finishStatement endToken at hreport
    cases hk : s.cursor.endToken limits with
    | error e => simp [hk, bind, Except.bind] at hreport
    | ok k =>
      simp only [hk, bind, Except.bind] at hreport
      split at hreport
      · cases hreport
      · rename_i hblank
        split at hreport
        · rename_i hargv
          cases Cursor.wordEnd_of_endToken hk with
          | word htoken hargs => simp at hargv
          | none htoken =>
            obtain ⟨hlast, hplace⟩ := h.eq_pipe (List.isEmpty_iff.mp hargv) htoken hblank
            exact ⟨hlast, hplace, List.isEmpty_iff.mp hargv, htoken⟩
        · cases hreport
  · rintro ⟨hlast, hplace, hargv, htoken⟩
    have hcommands : s.cursor.commands ≠ [] := by
      have hbehind := h.behind (hplace ▸ Place.noConfusion)
      rw [hlast] at hbehind
      exact hbehind.1
    have hend : s.endToken limits = .ok s := by simp [endToken, Cursor.endToken, htoken]
    have hblank : s.cursor.isBlank = false := by simp [Cursor.isBlank, hcommands]
    simp [finishStatement, hend, bind, Except.bind, hblank, hargv]

theorem dangling_ne_pipe (s : Scan) : s.dangling? ≠ some .pipe := by
  unfold dangling?
  split <;> simp

/-- At the end of a line that is complete nothing else is refused for a `|`. -/
theorem finish_eq_pipe_iff {e : Ending} (h : Placed (lastOperator? ls) s.place s.cursor) :
    s.finish limits e = .error (.unexpectedOperator .pipe) ↔ e = .complete ∧ s.AwaitsStage ls := by
  have hstatement : s.finishStatement limits = .error (.syntaxError (.unexpectedOperator .pipe)) ↔ s.AwaitsStage ls :=
    finishStatement_eq_pipe_iff h
  rw [← hstatement]
  constructor
  · intro hreport
    cases e with
    | openQuote => cases hreport
    | loneBackslash quoted =>
      rw [finish] at hreport
      split at hreport
      · cases hreport
      · split at hreport <;> cases hreport
    | complete =>
      rw [finish] at hreport
      split at hreport
      · cases hreport
      · split at hreport
        · rename_i o ho
          cases hreport
          exact absurd ho s.dangling_ne_pipe
        · rcases hf : s.finishStatement limits with (err | err) | next <;> rw [hf] at hreport <;> cases hreport
          exact ⟨rfl, rfl⟩
  · rintro ⟨rfl, hreport⟩
    have hplace := (hstatement.mp hreport).place
    have hdangling : s.dangling? = none := by simp [dangling?, hplace]
    rw [finish, if_neg (hplace ▸ Place.noConfusion), hdangling, hreport]
    rfl

end Scan

/-- In every configuration that a line leads to, inside quotes and out, the place of the scan, its cursor and the operators it has taken
fit together. A character that is read into a path finds the slot of that path there, so none is ever made for it. A statement that
ended there would be refused for a `|` exactly if a `|` is the last operator and no word has come behind it, and if the line ends there
this is what refuses the line. -/
theorem agrees_of_reached {line : String} {c : Configuration} (h : c.Reached limits line) :
    c.scan.Agrees c.lexemes ∧
      (c.scan.place = .outputPath →
        ∀ ch, c.scan.cursor.pushOutputSlot? limits ch = some (c.scan.cursor.pushOutput limits ch)) ∧
      (c.scan.place = .inputPath →
        ∀ ch, c.scan.cursor.pushInputSlot? limits ch = some (c.scan.cursor.pushInput limits ch)) ∧
      (c.scan.finishStatement limits = .error (.syntaxError (.unexpectedOperator .pipe)) ↔ c.scan.AwaitsStage c.lexemes) ∧
      (c.rest = [] → line.utf8ByteSize ≤ limits.maxLineLength →
        (parseLine limits line = .error (.unexpectedOperator .pipe) ↔ c.quoted = false ∧ c.scan.AwaitsStage c.lexemes)) := by
  have hplaced := placed_of_reached h
  have hempty : ({} : Scan).Sound limits := Scan.sound_fresh Limits.Admitted.nil
  have hsound : c.scan.Sound limits := Scan.run_induction (fun h he => h.step he) hempty (run_of_reached h)
  have hagrees := Scan.agrees_of_placed hplaced hsound
  refine ⟨hagrees, ?_, ?_, Scan.finishStatement_eq_pipe_iff hplaced, ?_⟩
  · intro hplace ch
    obtain ⟨target, htarget, -, -⟩ := hagrees.outputPath hplace
    rw [Cursor.pushOutputSlot?, Cursor.pushOutput, htarget]
    rfl
  · intro hplace ch
    obtain ⟨path, hpath⟩ := Option.ne_none_iff_exists'.mp (hagrees.inputPath hplace).1
    rw [Cursor.pushInputSlot?, Cursor.pushInput, hpath]
    rfl
  · intro hrest hsize
    rw [parseLine, if_neg (Nat.not_lt_of_le hsize), ofLine_of_reached h hrest, Reading.statements, run_of_reached h]
    refine (Scan.finish_eq_pipe_iff hplaced).trans ?_
    cases c.quoted <;> simp

/-- The line `a>>"b c` before its last character. -/
def withinPath : Configuration where
  rest := ['c']
  quoted := true
  lexemes := [.literal 'a', .operator (.output .append), .literal 'b', .literal ' ']
  scan := ⟨.outputPath, { argv := ["a"], output := some ⟨"b ", .append⟩ }, []⟩

/-- The line `a<f |` at its end. -/
def behindPipe : Configuration where
  rest := []
  quoted := false
  lexemes := [.literal 'a', .operator .input, .literal 'f', .blank, .operator .pipe]
  scan := ⟨.argument, { commands := [⟨"a", []⟩], input := some "f" }, []⟩

/-- A character of a quoted path goes to the slot that `>>` has made, and a line that ends with a `|` is refused for it, with the path
before it complete. -/
theorem agrees_of_reached_append :
    (withinPath.Reached {} "a>>\"b c" ∧ withinPath.scan.Agrees withinPath.lexemes ∧
      withinPath.scan.cursor.pushOutputSlot? {} 'c' = some (withinPath.scan.cursor.pushOutput {} 'c')) ∧
    (behindPipe.Reached {} "a<f |" ∧ behindPipe.scan.Agrees behindPipe.lexemes ∧
      parseLine {} "a<f |" = .error (.unexpectedOperator .pipe)) := by
  have hword (line : String) (rest : List Char) (hline : line.toList = 'a' :: rest) :
      Turn {} (Configuration.ofLine line) ⟨rest, false, [.literal 'a'], ⟨.argument, { token := "a" }, []⟩⟩ := by
    rw [Configuration.ofLine, hline]
    exact .lexeme (.plain (by decide) (by decide) fun h => absurd h (by decide)) rfl
  have hwithin : withinPath.Reached {} "a>>\"b c" := by
    refine .head (hword _ _ rfl) (.head (.lexeme .append rfl) (.head .quote ?_))
    exact .head (.lexeme (.inside (by decide) (by decide)) rfl) (.single (.lexeme (.inside (by decide) (by decide)) rfl))
  have hbehind : behindPipe.Reached {} "a<f |" := by
    refine .head (hword _ _ rfl) (.head (.lexeme (.plain (by decide) (by decide) (by decide)) rfl) ?_)
    refine .head (.lexeme (.plain (by decide) (by decide) (by decide)) rfl) ?_
    refine .head (.lexeme (.plain (by decide) (by decide) (by decide)) rfl) ?_
    exact .single (.lexeme (.plain (by decide) (by decide) (by decide)) rfl)
  obtain ⟨hwithinAgrees, hslot, -⟩ := agrees_of_reached hwithin
  obtain ⟨hbehindAgrees, -, -, -, hreport⟩ := agrees_of_reached hbehind
  exact ⟨⟨hwithin, hwithinAgrees, hslot rfl 'c'⟩, hbehind, hbehindAgrees,
    (hreport rfl (by decide)).mpr ⟨rfl, rfl, rfl, rfl, rfl⟩⟩

end PipelineShell
