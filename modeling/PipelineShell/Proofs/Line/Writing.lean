import PipelineShell.Proofs.Line.Grammar
import PipelineShell.Proofs.Line.Simulation

/-!
# Every list of pipelines can be written down

A `Hand` writes pipelines as a line. Of each word it chooses whether to put a backslash before every character or to put the word
between quotes, so no character of it means anything to the reader. `parseLine_line` says that what has been written is read back
unchanged, whatever the hand. It is proved along the text from the back (`ReadsAs`): what a part is read as does not depend on what
follows it.
-/

namespace PipelineShell

/-- The parts that a line can say: stages, words and paths that are not empty. -/
structure Pipeline.Writable (p : Pipeline) : Prop where
  commands : p.commands ≠ []
  words : ∀ c ∈ p.commands, ∀ w ∈ c.argv, w ≠ ""
  input : ∀ path ∈ p.input, path ≠ ""
  output : ∀ target ∈ p.output, target.path ≠ ""

instance (p : Pipeline) : Decidable p.Writable :=
  decidable_of_decidable_of_iff (p := _ ∧ (∀ c ∈ p.commands, ∀ w ∈ c.argv, _) ∧ (∀ path ∈ p.input, _) ∧ ∀ target ∈ p.output, _)
    ⟨fun h => ⟨h.1, h.2.1, h.2.2.1, h.2.2.2⟩, fun h => ⟨h.commands, h.words, h.input, h.output⟩⟩

namespace Line

/-- The ways to write a word. -/
inductive Quoting where
  /-- With a backslash before every character. -/
  | escaped
  /-- Between double quotes, with a backslash before every double quote and every backslash. -/
  | quoted
  deriving DecidableEq, Repr

/-- A character as it is written between quotes. -/
def guardChar (c : Char) : List Char := if c = '"' ∨ c = '\\' then ['\\', c] else [c]

/-- A word as it is written. -/
def Quoting.write (q : Quoting) (w : String) : List Char :=
  match q with
  | .escaped => w.toList.flatMap fun c => ['\\', c]
  | .quoted => '"' :: (w.toList.flatMap guardChar ++ ['"'])

/-- The choices of a writer. The places for words are counted along the line. -/
structure Hand where
  /-- How the word in a place is written. -/
  quoting : Nat → Quoting
  /-- The blanks before the operator that asks for the path in a place. -/
  before : Nat → Nat := fun _ => 1
  /-- The blanks after that operator. -/
  after : Nat → Nat := fun _ => 1

namespace Hand

variable (hand : Hand)

/-- The word in place `n`. -/
def word (n : Nat) (w : String) : List Char := (hand.quoting n).write w

/-- The words of a command, one blank apart. -/
def words (n : Nat) (c : Command) : List Char :=
  hand.word n c.name ++ (c.args.zipIdx (n + 1)).flatMap fun (w, i) => ' ' :: hand.word i w

/-- A redirection whose path is in place `n`. -/
def redirection (n : Nat) (o : Operator) (path : String) : List Char :=
  List.replicate (hand.before n) ' ' ++ (o.text.toList ++ (List.replicate (hand.after n) ' ' ++ hand.word n path))

/-- A stage: its words, then its redirections. -/
def stage (n : Nat) (c : Command) (input : Option String) (output : Option OutputTarget) : List Char :=
  hand.words n c ++ ((input.elim [] (hand.redirection (n + c.argv.length) .input)) ++
    output.elim [] fun target => hand.redirection (n + c.argv.length + 1) (.output target.mode) target.path)

/-- Stages joined by ` | `; the first has the input, the last the output. -/
def stages (n : Nat) (input : Option String) (output : Option OutputTarget) : List Command → List Char
  | [] => []
  | [c] => hand.stage n c input output
  | c :: d :: cs =>
    hand.stage n c input none ++ (' ' :: '|' :: ' ' :: stages (n + c.argv.length + 2) none output (d :: cs))

/-- The places that a pipeline takes: one for each word, and in each stage one for either path. -/
def places (p : Pipeline) : Nat := p.commands.foldl (fun n c => n + c.argv.length + 2) 0

/-- Statements joined by ` ; `. -/
def statements (n : Nat) : List Pipeline → List Char
  | [] => []
  | [p] => hand.stages n p.input p.output p.commands
  | p :: q :: ps =>
    hand.stages n p.input p.output p.commands ++ (' ' :: ';' :: ' ' :: statements (n + places p) (q :: ps))

/-- Pipelines as a line. -/
def line (ps : List Pipeline) : String := String.ofList (hand.statements 0 ps)

end Hand

/-! ## What is written is read -/

/-- Characters are read, from outside quotes to their end there, as these words and operators. -/
def ReadsAs (cs : List Char) (ts : List Token) : Prop := ∃ ls, Reads false cs ls .complete ∧ tokens "" ls = ts

/-- No word goes on with these characters. -/
def Ends (cs : List Char) : Prop := ∀ c ∈ cs.head?, c ∈ [' ', '|', '<', ';', '>']

section

variable {cs : List Char} {ls : List Lexeme} {ts : List Token} {w : String}

theorem ends_nil : Ends [] := nofun

theorem ends_blank (cs : List Char) : Ends (' ' :: cs) := by
  rintro c hc
  rw [← Option.some.inj hc]
  decide

/-- The characters of a word are literal, however it is written. -/
theorem Quoting.reads_write (q : Quoting) (w : String) {e : Ending} (h : Reads false cs ls e) :
    Reads false (q.write w ++ cs) (w.toList.map .literal ++ ls) e := by
  unfold Quoting.write
  generalize w.toList = text
  cases q with
  | escaped =>
    induction text with
    | nil => exact h
    | cons c text ih => exact .escaped c ih
  | quoted =>
    refine .quote ?_
    show Reads true (text.flatMap guardChar ++ ['"'] ++ cs) _ _
    rw [List.append_assoc, List.singleton_append]
    induction text with
    | nil => exact .quote h
    | cons c text ih =>
      rw [List.flatMap_cons, guardChar]
      split
      · exact .escaped c ih
      · rename_i hc
        rw [not_or] at hc
        exact .inside hc.2 hc.1 ih

/-- Literal characters go on with a word. -/
theorem tokens_literals (run : String) (text : List Char) (ls : List Lexeme) :
    tokens run (text.map .literal ++ ls) = tokens (run ++ String.ofList text) ls := by
  induction text generalizing run with
  | nil => simp
  | cons c text ih =>
    rw [List.map_cons, List.cons_append, tokens, ih, String.ofList_cons, String.push_eq_append, String.append_assoc]

/-- Where no word can go on, the word before is ended. -/
theorem tokens_of_ends (hcs : Ends cs) (h : Reads false cs ls .complete) (run : String) :
    tokens run ls = Token.ofRun run ++ tokens "" ls := by
  cases h with
  | finished => exact (List.append_nil _).symm
  | blank | pipe | input | semicolon | append | truncate => rfl
  | escaped | quote =>
    have hmem := hcs _ rfl
    exact absurd hmem (by decide)
  | plain hc => exact absurd (List.mem_cons_of_mem _ (List.mem_cons_of_mem _ (hcs _ rfl))) hc

namespace ReadsAs

theorem nil : ReadsAs [] [] := ⟨[], .finished, rfl⟩

theorem blank (h : ReadsAs cs ts) : ReadsAs (' ' :: cs) ts := by
  obtain ⟨ls, hreads, htokens⟩ := h
  exact ⟨_, hreads.blank, htokens⟩

theorem blanks (h : ReadsAs cs ts) (n : Nat) : ReadsAs (List.replicate n ' ' ++ cs) ts := by
  induction n with
  | zero => exact h
  | succ n ih => exact ih.blank

/-- An operator is read as what it is. -/
theorem operator (h : ReadsAs cs ts) (o : Operator) (hg : cs.head? ≠ some '>') :
    ReadsAs (o.text.toList ++ cs) (.operator o :: ts) := by
  obtain ⟨ls, hreads, rfl⟩ := h
  cases o with
  | pipe => exact ⟨_, hreads.pipe, rfl⟩
  | input => exact ⟨_, hreads.input, rfl⟩
  | semicolon => exact ⟨_, hreads.semicolon, rfl⟩
  | output mode =>
    cases mode with
    | truncate => exact ⟨_, hreads.truncate hg, rfl⟩
    | append => exact ⟨_, hreads.append, rfl⟩

/-- A word is read as what it is, however it is written. -/
theorem word (h : ReadsAs cs ts) (hcs : Ends cs) (hw : w ≠ "") (q : Quoting) :
    ReadsAs (q.write w ++ cs) (.word w :: ts) := by
  obtain ⟨ls, hreads, rfl⟩ := h
  refine ⟨_, q.reads_write w hreads, ?_⟩
  rw [tokens_literals, String.empty_append, String.ofList_toList, tokens_of_ends hcs hreads, Token.ofRun, if_neg hw]
  rfl

end ReadsAs

/-- No word begins with an operator, however it is written. -/
theorem Quoting.head_write (q : Quoting) (hw : w ≠ "") : (q.write w ++ cs).head? ≠ some '>' := by
  have ht : w.toList ≠ [] := fun h => hw (String.toList_eq_nil_iff.mp h)
  cases q with
  | escaped =>
    obtain ⟨c, text, hc⟩ := List.exists_cons_of_ne_nil ht
    simp [Quoting.write, hc]
  | quoted => simp [Quoting.write]

namespace Hand

variable (hand : Hand) {n : Nat}

/-- The arguments of a command end the word before them. -/
theorem ends_args (hcs : Ends cs) (args : List String) :
    Ends ((args.zipIdx n).flatMap (fun (w, i) => ' ' :: hand.word i w) ++ cs) := by
  cases args with
  | nil => exact hcs
  | cons w args => exact ends_blank _

/-- Arguments are read as words. -/
theorem reads_args {args : List String} (hw : ∀ w ∈ args, w ≠ "") (hcs : Ends cs) (h : ReadsAs cs ts) :
    ReadsAs ((args.zipIdx n).flatMap (fun (w, i) => ' ' :: hand.word i w) ++ cs) (args.map .word ++ ts) := by
  induction args generalizing n with
  | nil => exact h
  | cons w args ih =>
    rw [List.zipIdx_cons, List.flatMap_cons, List.append_assoc]
    have hrest := ih (n := n + 1) fun v hv => hw v (List.mem_cons_of_mem w hv)
    exact (hrest.word (hand.ends_args hcs args) (hw w List.mem_cons_self) _).blank

/-- The words of a command are read as words. -/
theorem reads_words {c : Command} (hw : ∀ w ∈ c.argv, w ≠ "") (hcs : Ends cs) (h : ReadsAs cs ts) :
    ReadsAs (hand.words n c ++ cs) (c.argv.map .word ++ ts) := by
  have hargs := hand.reads_args (n := n + 1) (fun w hw' => hw w (List.mem_cons_of_mem _ hw')) hcs h
  rw [words, List.append_assoc]
  exact hargs.word (hand.ends_args hcs _) (hw _ List.mem_cons_self) _

/-- A redirection ends the word before it. -/
theorem ends_redirection (o : Operator) (path : String) : Ends (hand.redirection n o path ++ cs) := by
  unfold redirection
  cases hand.before n with
  | zero =>
    rintro c hc
    cases o with
    | pipe | input | semicolon =>
      obtain rfl := Option.some.inj hc
      decide
    | output mode =>
      cases mode <;>
      · obtain rfl := Option.some.inj hc
        decide
  | succ k => exact ends_blank _

/-- A redirection is read as its operator and its path. -/
theorem reads_redirection (o : Operator) {path : String} (hpath : path ≠ "") (hcs : Ends cs) (h : ReadsAs cs ts) :
    ReadsAs (hand.redirection n o path ++ cs) (.operator o :: .word path :: ts) := by
  unfold redirection
  rw [List.append_assoc, List.append_assoc, List.append_assoc]
  refine (ReadsAs.operator ((h.word hcs hpath _).blanks _) o ?_).blanks _
  cases hand.after n with
  | zero => exact Quoting.head_write _ hpath
  | succ k => exact fun hc => nomatch hc

end Hand

end

/-! ## The form of a pipeline -/

/-- A stage with its redirections after its words. -/
def stageForm (c : Command) (input : Option String) (output : Option OutputTarget) : StageForm :=
  ⟨c.name, c.args.map .argument ++ (input.toList.map .input ++ output.toList.map .output)⟩

/-- Stages of which the first has the input and the last the output. -/
def stageForms (input : Option String) (output : Option OutputTarget) : List Command → List StageForm
  | [] => []
  | [c] => [stageForm c input output]
  | c :: d :: cs => stageForm c input none :: stageForms none output (d :: cs)

section

variable (c : Command) (input : Option String) (output : Option OutputTarget)

@[simp] theorem tokens_stageForm :
    (stageForm c input output).tokens = c.argv.map .word ++
      (input.toList.flatMap (fun path => [.operator .input, .word path]) ++
        output.toList.flatMap fun target => [.operator (.output target.mode), .word target.path]) := by
  simp [stageForm, StageForm.tokens, Command.argv, List.flatMap_map, StagePart.tokens, ← List.map_eq_flatMap]

@[simp] theorem command_stageForm : (stageForm c input output).command = c := by
  cases input <;> cases output <;>
    simp [stageForm, StageForm.command, StagePart.argument?, List.filterMap_cons, List.filterMap_map, Function.comp_def]

@[simp] theorem inputs_stageForm : (stageForm c input output).inputs = input.toList := by
  cases input <;> cases output <;>
    simp [stageForm, StageForm.inputs, StagePart.input?, List.filterMap_cons, List.filterMap_map, Function.comp_def]

@[simp] theorem outputs_stageForm : (stageForm c input output).outputs = output.toList := by
  cases input <;> cases output <;>
    simp [stageForm, StageForm.outputs, StagePart.output?, List.filterMap_cons, List.filterMap_map, Function.comp_def]

end

section

variable {input : Option String} {output : Option OutputTarget} {commands : List Command}

theorem stageForms_ne_nil (h : commands ≠ []) : stageForms input output commands ≠ [] := by
  fun_cases stageForms input output commands with
  | case1 => exact absurd rfl h
  | case2 | case3 => simp

theorem map_command_stageForms : (stageForms input output commands).map StageForm.command = commands := by
  fun_induction stageForms input output commands with
  | case1 => rfl
  | case2 c => simp
  | case3 input c d cs ih => simp [ih]

theorem inputs_stageForms (h : commands ≠ []) :
    (stageForms input output commands).flatMap StageForm.inputs = input.toList ∧
      ∀ t ∈ (stageForms input output commands).tail, t.inputs = [] := by
  fun_induction stageForms input output commands with
  | case1 => exact absurd rfl h
  | case2 c => simp
  | case3 input c d cs ih =>
    have hrest := (ih (by simp)).1
    rw [List.flatMap_cons, hrest, inputs_stageForm]
    exact ⟨List.append_nil _, List.flatMap_eq_nil_iff.mp hrest⟩

theorem outputs_stageForms (h : commands ≠ []) :
    (stageForms input output commands).flatMap StageForm.outputs = output.toList ∧
      ∀ t ∈ (stageForms input output commands).dropLast, t.outputs = [] := by
  fun_induction stageForms input output commands with
  | case1 => exact absurd rfl h
  | case2 c => simp
  | case3 input c d cs ih =>
    obtain ⟨hrest, hlast⟩ := ih (by simp)
    rw [List.flatMap_cons, hrest, outputs_stageForm, List.dropLast_cons_of_ne_nil (stageForms_ne_nil (by simp))]
    exact ⟨rfl, List.forall_mem_cons.mpr ⟨by simp, hlast⟩⟩

end

/-- The statement that says a pipeline. -/
def statementForm (p : Pipeline) (h : p.commands ≠ []) : StatementForm :=
  ⟨stageForms p.input p.output p.commands, stageForms_ne_nil h⟩

theorem pipeline_statementForm {p : Pipeline} (h : p.commands ≠ []) : (statementForm p h).pipeline = p := by
  obtain ⟨commands, input, output⟩ := p
  simp only [StatementForm.pipeline, statementForm, map_command_stageForms, (inputs_stageForms h).1, (outputs_stageForms h).1]
  simp

theorem valid_statementForm {p : Pipeline} (h : p.commands ≠ []) : (statementForm p h).Valid where
  inputs_length := by
    rw [statementForm, (inputs_stageForms h).1]
    exact Option.length_toList_le
  inputs_first := (inputs_stageForms h).2
  outputs_length := by
    rw [statementForm, (outputs_stageForms h).1]
    exact Option.length_toList_le
  outputs_last := (outputs_stageForms h).2

namespace Hand

variable (hand : Hand) {n : Nat} {cs : List Char} {ts : List Token}

/-- A stage is read as its form. -/
theorem reads_stage {c : Command} {input : Option String} {output : Option OutputTarget} (hwords : ∀ w ∈ c.argv, w ≠ "")
    (hinput : ∀ path ∈ input, path ≠ "") (houtput : ∀ target ∈ output, target.path ≠ "") (hcs : Ends cs) (h : ReadsAs cs ts) :
    ReadsAs (hand.stage n c input output ++ cs) ((stageForm c input output).tokens ++ ts) := by
  unfold stage
  rw [tokens_stageForm]
  cases input with
  | none =>
    cases output with
    | none => simpa using hand.reads_words hwords hcs h
    | some target =>
      have hout := hand.reads_redirection (n := n + c.argv.length + 1) (.output target.mode) (houtput _ rfl) hcs h
      simpa using hand.reads_words hwords (hand.ends_redirection _ _) hout
  | some path =>
    cases output with
    | none =>
      have hin := hand.reads_redirection (n := n + c.argv.length) .input (hinput _ rfl) hcs h
      simpa using hand.reads_words hwords (hand.ends_redirection _ _) hin
    | some target =>
      have hout := hand.reads_redirection (n := n + c.argv.length + 1) (.output target.mode) (houtput _ rfl) hcs h
      have hin := hand.reads_redirection (n := n + c.argv.length) .input (hinput _ rfl) (hand.ends_redirection _ _) hout
      simpa using hand.reads_words hwords (hand.ends_redirection _ _) hin

/-- Stages are read as their forms. -/
theorem reads_stages {commands : List Command} {input : Option String} {output : Option OutputTarget}
    (hne : commands ≠ []) (hwords : ∀ c ∈ commands, ∀ w ∈ c.argv, w ≠ "") (hinput : ∀ path ∈ input, path ≠ "")
    (houtput : ∀ target ∈ output, target.path ≠ "") (hcs : Ends cs) (h : ReadsAs cs ts) :
    ReadsAs (hand.stages n input output commands ++ cs)
      ([Token.operator .pipe].intercalate ((stageForms input output commands).map StageForm.tokens) ++ ts) := by
  induction commands generalizing n input with
  | nil => exact absurd rfl hne
  | cons c commands ih =>
    rw [List.forall_mem_cons] at hwords
    cases commands with
    | nil => simpa [stages, stageForms] using hand.reads_stage hwords.1 hinput houtput hcs h
    | cons d commands =>
      have hrest : ReadsAs (hand.stages (n + c.argv.length + 2) none output (d :: commands) ++ cs) _ :=
        ih (by simp) hwords.2 nofun
      rw [stages, stageForms, List.map_cons, List.intercalate_cons_of_ne_nil (by simpa using stageForms_ne_nil (by simp)),
        List.append_assoc, List.append_assoc, List.append_assoc]
      exact hand.reads_stage hwords.1 hinput nofun (ends_blank _) (hrest.blank.operator .pipe nofun).blank

/-- Statements are read as their forms. -/
theorem reads_statements {ps : List Pipeline} (h : ∀ p ∈ ps, p.Writable) :
    ∃ forms : List StatementForm, (∀ s ∈ forms, s.Valid) ∧ forms.map StatementForm.pipeline = ps ∧
      ReadsAs (hand.statements n ps) ([Token.operator .semicolon].intercalate (forms.map StatementForm.tokens)) := by
  induction ps generalizing n with
  | nil => exact ⟨[], nofun, rfl, .nil⟩
  | cons p ps ih =>
    rw [List.forall_mem_cons] at h
    have hp := h.1
    have hone {cs : List Char} {ts : List Token} (hcs : Ends cs) (hts : ReadsAs cs ts) :
        ReadsAs (hand.stages n p.input p.output p.commands ++ cs) ((statementForm p hp.commands).tokens ++ ts) :=
      hand.reads_stages hp.commands hp.words hp.input hp.output hcs hts
    obtain ⟨forms, hvalid, hforms, hreads⟩ := ih (n := n + places p) h.2
    refine ⟨statementForm p hp.commands :: forms, List.forall_mem_cons.mpr ⟨valid_statementForm _, hvalid⟩, ?_, ?_⟩
    · rw [List.map_cons, pipeline_statementForm, hforms]
    · cases ps with
      | nil =>
        obtain rfl := List.map_eq_nil_iff.mp hforms
        simpa [statements] using hone ends_nil .nil
      | cons q ps =>
        have hne : forms.map StatementForm.tokens ≠ [] := by
          rintro hnil
          rw [List.map_eq_nil_iff.mp hnil] at hforms
          cases hforms
        rw [statements, List.map_cons, List.intercalate_cons_of_ne_nil hne, List.append_assoc]
        exact hone (ends_blank _) (hreads.blank.operator .semicolon nofun).blank

end Hand

end Line

open Line

/-- Pipelines that have been written down are read back unchanged, under all limits that neither they nor the line exceed. -/
theorem parseLine_line (hand : Hand) {limits : Limits} {ps : List Pipeline} (hwritable : ∀ p ∈ ps, p.Writable)
    (hcount : ps.length ≤ limits.maxStatements) (hfits : ∀ p ∈ ps, p.Fits limits)
    (hsize : (hand.line ps).utf8ByteSize ≤ limits.maxLineLength) :
    parseLine limits (hand.line ps) = .ok (ps.map .ready) := by
  obtain ⟨forms, hvalid, hforms, lexemes, hreads, htokens⟩ := hand.reads_statements (n := 0) hwritable
  have hofLine : Reading.ofLine (hand.line ps) = ⟨lexemes, .complete⟩ := by
    rw [Reading.ofLine, Hand.line, String.toList_ofList]
    exact reads_iff.mp hreads
  have hline : LineForm.Valid ⟨forms, false⟩ := ⟨hvalid, nofun⟩
  have hassemble : assemble (tokens "" (Reading.ofLine (hand.line ps)).lexemes) = .ok ps := by
    have := assemble_tokens hline
    rw [LineForm.tokens, if_neg Bool.false_ne_true, List.append_nil] at this
    rw [hofLine, htokens, this, LineForm.pipelines, hforms]
  obtain ⟨sts, hsts, hj⟩ := judged_of_assemble hsize (congrArg Reading.ending hofLine) hassemble
  rw [hsts, hj.eq_map_ready (hj.not_discards hfits hcount)]

/-- The hand that escapes the words in even places and quotes the others. -/
def alternating : Hand := { quoting := fun n => if n % 2 = 0 then .escaped else .quoted }

/-- Words and paths made of operators, blanks, quotes and backslashes are read back as what they are. -/
theorem parseLine_line_alternating :
    alternating.line [⟨[⟨"a b", ["|;", "\\"]⟩, ⟨"\"", []⟩], some "<é", some ⟨">", .append⟩⟩, ⟨[⟨"\n", []⟩], none, none⟩] =
        "\\a\\ \\b \"|;\" \\\\ < \"<é\" | \"\\\"\" >> \">\" ; \\\n" ∧
      parseLine {} "\\a\\ \\b \"|;\" \\\\ < \"<é\" | \"\\\"\" >> \">\" ; \\\n" =
        .ok [.ready ⟨[⟨"a b", ["|;", "\\"]⟩, ⟨"\"", []⟩], some "<é", some ⟨">", .append⟩⟩, .ready ⟨[⟨"\n", []⟩], none, none⟩] := by
  have hline : alternating.line
      [⟨[⟨"a b", ["|;", "\\"]⟩, ⟨"\"", []⟩], some "<é", some ⟨">", .append⟩⟩, ⟨[⟨"\n", []⟩], none, none⟩] =
        "\\a\\ \\b \"|;\" \\\\ < \"<é\" | \"\\\"\" >> \">\" ; \\\n" := by
    rfl
  refine ⟨hline, ?_⟩
  rw [← hline]
  exact parseLine_line alternating (by decide) (by decide) (by decide) (by decide)

end PipelineShell
