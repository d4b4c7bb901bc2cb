import PipelineShell.Proofs.Line.Assembly

/-!
# The grammar of a line

A line is blank, or statements joined by `;`, with or without a last `;`. A statement is stages joined by `|`, and a stage is a
word followed by words and redirections in any order. At most one `<` stands in a statement, in its first stage, and at most one
of `>` and `>>`, in its last. A `LineForm` is a line as this grammar writes it: its `tokens` are what is written and its
`pipelines` what it means. `assemble_eq_ok_iff` says that assembling finds exactly the forms of the grammar.
-/

namespace PipelineShell

namespace Line

/-- What may follow the name of a stage. -/
inductive StagePart where
  | argument (word : String)
  | input (path : String)
  | output (target : OutputTarget)
  deriving DecidableEq, Repr

namespace StagePart

/-- A part as it is written. -/
def tokens : StagePart → List Token
  | argument word => [.word word]
  | input path => [.operator .input, .word path]
  | output target => [.operator (.output target.mode), .word target.path]

/-- The argument that a part is. -/
def argument? : StagePart → Option String
  | argument word => some word
  | _ => none

/-- The path that a part reads from. -/
def input? : StagePart → Option String
  | input path => some path
  | _ => none

/-- The target that a part writes to. -/
def output? : StagePart → Option OutputTarget
  | output target => some target
  | _ => none

end StagePart

/-- A stage: its name, then arguments and redirections in any order. -/
structure StageForm where
  name : String
  parts : List StagePart := []
  deriving DecidableEq, Repr

namespace StageForm

/-- A stage as it is written. -/
def tokens (s : StageForm) : List Token := .word s.name :: s.parts.flatMap StagePart.tokens

/-- The command of a stage. -/
def command (s : StageForm) : Command := ⟨s.name, s.parts.filterMap StagePart.argument?⟩

/-- The paths after `<` in a stage. -/
def inputs (s : StageForm) : List String := s.parts.filterMap StagePart.input?

/-- The targets after `>` and `>>` in a stage. -/
def outputs (s : StageForm) : List OutputTarget := s.parts.filterMap StagePart.output?

/-- A stage with one more part. -/
def add (s : StageForm) (p : StagePart) : StageForm := { s with parts := s.parts ++ [p] }

@[simp] theorem tokens_add (s : StageForm) (p : StagePart) : (s.add p).tokens = s.tokens ++ p.tokens := by
  simp [tokens, add]

@[simp] theorem argv_add (s : StageForm) (p : StagePart) :
    (s.add p).command.argv = s.command.argv ++ p.argument?.toList := by
  cases p <;> simp [command, add, Command.argv, StagePart.argument?]

@[simp] theorem inputs_add (s : StageForm) (p : StagePart) : (s.add p).inputs = s.inputs ++ p.input?.toList := by
  cases p <;> simp [inputs, add, StagePart.input?]

@[simp] theorem outputs_add (s : StageForm) (p : StagePart) : (s.add p).outputs = s.outputs ++ p.output?.toList := by
  cases p <;> simp [outputs, add, StagePart.output?]

end StageForm

/-- A statement: one stage or more. -/
structure StatementForm where
  stages : List StageForm
  stages_ne_nil : stages ≠ []
  deriving DecidableEq, Repr

namespace StatementForm

/-- A statement as it is written. -/
def tokens (s : StatementForm) : List Token := [Token.operator .pipe].intercalate (s.stages.map StageForm.tokens)

/-- The pipeline of a statement. -/
def pipeline (s : StatementForm) : Pipeline :=
  ⟨s.stages.map StageForm.command, (s.stages.flatMap StageForm.inputs).head?, (s.stages.flatMap StageForm.outputs).head?⟩

/-- The redirections are at the ends: at most one `<`, in the first stage, and at most one of `>` and `>>`, in the last. -/
structure Valid (s : StatementForm) : Prop where
  inputs_length : (s.stages.flatMap StageForm.inputs).length ≤ 1
  inputs_first : ∀ t ∈ s.stages.tail, t.inputs = []
  outputs_length : (s.stages.flatMap StageForm.outputs).length ≤ 1
  outputs_last : ∀ t ∈ s.stages.dropLast, t.outputs = []

instance (s : StatementForm) : Decidable s.Valid :=
  decidable_of_decidable_of_iff (p := _ ∧ _ ∧ _ ∧ _)
    ⟨fun h => ⟨h.1, h.2.1, h.2.2.1, h.2.2.2⟩, fun h => ⟨h.inputs_length, h.inputs_first, h.outputs_length, h.outputs_last⟩⟩

end StatementForm

/-- A line: statements, with or without a `;` after the last one. -/
structure LineForm where
  statements : List StatementForm
  closed : Bool := false
  deriving DecidableEq, Repr

namespace LineForm

/-- A line as it is written. -/
def tokens (l : LineForm) : List Token :=
  [Token.operator .semicolon].intercalate (l.statements.map StatementForm.tokens) ++
    if l.closed then [Token.operator .semicolon] else []

/-- The statements of a line. -/
def pipelines (l : LineForm) : List Pipeline := l.statements.map StatementForm.pipeline

/-- Every statement is valid, and only a statement is closed. -/
structure Valid (l : LineForm) : Prop where
  statements : ∀ s ∈ l.statements, s.Valid
  closed : l.closed = true → l.statements ≠ []

instance (l : LineForm) : Decidable l.Valid :=
  decidable_of_decidable_of_iff (p := _ ∧ _) ⟨fun h => ⟨h.1, h.2⟩, fun h => ⟨h.statements, h.closed⟩⟩

end LineForm

/-- Joining with a separator is putting it after each part but the last. -/
theorem intercalate_concat {α β : Type} (sep : α) (f : β → List α) (xs : List β) (y : β) :
    [sep].intercalate ((xs ++ [y]).map f) = xs.flatMap (fun x => f x ++ [sep]) ++ f y := by
  induction xs with
  | nil => simp
  | cons x xs ih =>
    rw [List.cons_append, List.map_cons, List.intercalate_cons_of_ne_nil (by simp), ih]
    simp

/-- A separator after each part, the last one included. -/
theorem intercalate_append {α β : Type} (sep : α) (f : β → List α) {xs : List β} (h : xs ≠ []) :
    [sep].intercalate (xs.map f) ++ [sep] = xs.flatMap (fun x => f x ++ [sep]) := by
  obtain ⟨ys, y, rfl⟩ := (List.eq_nil_or_concat xs).resolve_left h
  rw [List.concat_eq_append, intercalate_concat]
  simp

/-! ## What is assembled has a form -/

/-- The form of what has been assembled of a line: statements that a `;` has ended, stages that a `|` has ended, the stage being
read, and the redirection that awaits its path. -/
structure Spells (a : Assembly) (ts : List Token) (ds : List StatementForm) (ss : List StageForm)
    (current : Option StageForm) : Prop where
  tokens : ts = ds.flatMap (fun d => d.tokens ++ [.operator .semicolon]) ++
    (ss.flatMap (fun s => s.tokens ++ [.operator .pipe]) ++
      (current.elim [] StageForm.tokens ++ a.awaited.elim [] fun r => [.operator r.operator]))
  finished : a.finished = ds.map StatementForm.pipeline
  valid : ∀ d ∈ ds, d.Valid
  commands : a.commands = ss.map StageForm.command
  argv : a.argv = current.elim [] fun s => s.command.argv
  input : (ss ++ current.toList).flatMap StageForm.inputs = a.input.toList
  inputs_first : ∀ s ∈ (ss ++ current.toList).tail, s.inputs = []
  output : (ss ++ current.toList).flatMap StageForm.outputs = a.output.toList
  outputs_last : ∀ s ∈ ss, s.outputs = []
  awaited : a.awaited ≠ none → a.argv ≠ []
  awaited_input : a.awaited = some .input → ss = [] ∧ a.input = none
  awaited_output : ∀ mode, a.awaited = some (.output mode) → a.output = none

namespace Spells

variable {a : Assembly} {ts : List Token} {ds : List StatementForm} {ss : List StageForm} {current : Option StageForm}

/-- Nothing has been read. -/
theorem empty : Spells {} [] [] [] none := by
  constructor <;> simp

/-- A stage with a name is being read. -/
theorem exists_current (h : Spells a ts ds ss current) (ha : a.argv ≠ []) : ∃ c, current = some c := by
  cases current with
  | none => exact absurd h.argv ha
  | some c => exact ⟨c, rfl⟩

/-- The pipeline being assembled is that of the stages read. -/
theorem pipeline {c : StageForm} (h : Spells a ts ds ss (some c)) :
    a.pipeline = StatementForm.pipeline ⟨ss ++ [c], by simp⟩ := by
  have hi := h.input
  have ho := h.output
  rw [Option.toList_some] at hi ho
  simp only [Assembly.pipeline, StatementForm.pipeline, h.argv, h.commands, hi, ho, Option.elim, Command.ofArgv?_argv]
  simp

/-- The statement being read is valid. -/
theorem statement_valid {c : StageForm} (h : Spells a ts ds ss (some c)) :
    StatementForm.Valid ⟨ss ++ [c], by simp⟩ where
  inputs_length := by
    have := congrArg List.length h.input
    rw [Option.toList_some] at this
    exact this ▸ Option.length_toList_le
  inputs_first := h.inputs_first
  outputs_length := by
    have := congrArg List.length h.output
    rw [Option.toList_some] at this
    exact this ▸ Option.length_toList_le
  outputs_last := by simpa using h.outputs_last

/-- A part is added to the stage being read: `us` completes what is awaited to the part. -/
theorem add {a' : Assembly} {us : List Token} {c : StageForm} (h : Spells a ts ds ss (some c)) (p : StagePart)
    (htokens : (a.awaited.elim [] fun r => [Token.operator r.operator]) ++ us = p.tokens)
    (hfirst : p.input? = none ∨ ss = []) (hfinished : a'.finished = a.finished) (hcommands : a'.commands = a.commands)
    (hargv : a'.argv = a.argv ++ p.argument?.toList) (hinput : a'.input.toList = a.input.toList ++ p.input?.toList)
    (houtput : a'.output.toList = a.output.toList ++ p.output?.toList) (hawaited : a'.awaited = none) :
    Spells a' (ts ++ us) ds ss (some (c.add p)) where
  tokens := by
    rw [h.tokens, hawaited]
    simp only [Option.elim, StageForm.tokens_add, ← htokens, List.append_assoc, List.append_nil]
  finished := hfinished.trans h.finished
  valid := h.valid
  commands := hcommands.trans h.commands
  argv := by
    rw [hargv, h.argv]
    exact (StageForm.argv_add c p).symm
  input := by
    rw [hinput, ← h.input]
    simp
  inputs_first := by
    intro s hs
    cases ss with
    | nil => exact absurd hs (List.not_mem_nil)
    | cons s₀ ss =>
      rcases List.mem_append.mp hs with hs | hs
      · exact h.inputs_first s (List.mem_append.mpr (Or.inl hs))
      · rw [Option.toList_some, List.mem_singleton] at hs
        have hc : c.inputs = [] := h.inputs_first c (List.mem_append.mpr (Or.inr (by simp)))
        rw [hs, StageForm.inputs_add, hc, hfirst.resolve_right (List.cons_ne_nil _ _)]
        rfl
  output := by
    rw [houtput, ← h.output]
    simp
  outputs_last := h.outputs_last
  awaited hne := absurd hawaited hne
  awaited_input ha := nomatch hawaited.symm.trans ha
  awaited_output _ ha := nomatch hawaited.symm.trans ha

/-- A word begins a stage where none is being read. -/
theorem begin (h : Spells a ts ds ss none) (ha : a.awaited = none) (w : String) :
    Spells { a with argv := a.argv ++ [w] } (ts ++ [.word w]) ds ss (some ⟨w, []⟩) where
  tokens := by
    rw [h.tokens, ha]
    simp [StageForm.tokens]
  finished := h.finished
  valid := h.valid
  commands := h.commands
  argv := by
    rw [h.argv]
    rfl
  input := by
    have := h.input
    simpa [StageForm.inputs] using this
  inputs_first := by
    have := h.inputs_first
    rw [Option.toList_none, List.append_nil] at this
    intro s hs
    cases ss with
    | nil => exact absurd hs (List.not_mem_nil)
    | cons s₀ ss =>
      rcases List.mem_append.mp hs with hs | hs
      · exact this s hs
      · rw [Option.toList_some, List.mem_singleton] at hs
        rw [hs]
        rfl
  output := by
    have := h.output
    simpa [StageForm.outputs] using this
  outputs_last := h.outputs_last
  awaited hne := absurd ha hne
  awaited_input hi := nomatch ha.symm.trans hi
  awaited_output _ ho := nomatch ha.symm.trans ho

/-- A word begins a stage, continues it, or is the path that is awaited. -/
theorem takeWord (h : Spells a ts ds ss current) (w : String) :
    ∃ c, Spells (a.takeWord w) (ts ++ [.word w]) ds ss (some c) := by
  unfold Assembly.takeWord
  split
  · rename_i hr
    cases current with
    | none => exact ⟨_, h.begin hr w⟩
    | some c =>
      exact ⟨_, h.add (.argument w) (by rw [hr]; rfl) (Or.inl rfl) rfl rfl rfl (by simp [StagePart.input?])
        (by simp [StagePart.output?]) hr⟩
  · rename_i hr
    obtain ⟨c, rfl⟩ := h.exists_current (h.awaited (by simp [hr]))
    obtain ⟨hs, hi⟩ := h.awaited_input hr
    exact ⟨_, h.add (.input w) (by rw [hr]; rfl) (Or.inr hs) rfl rfl (by simp [StagePart.argument?])
      (by simp [StagePart.input?, hi]) (by simp [StagePart.output?]) rfl⟩
  · rename_i mode hr
    obtain ⟨c, rfl⟩ := h.exists_current (h.awaited (by simp [hr]))
    have ho := h.awaited_output mode hr
    exact ⟨_, h.add (.output ⟨w, mode⟩) (by rw [hr]; rfl) (Or.inl rfl) rfl rfl (by simp [StagePart.argument?])
      (by simp [StagePart.input?]) (by simp [StagePart.output?, ho]) rfl⟩

/-- A redirection operator is awaited after the stage being read. -/
theorem await {c : StageForm} (h : Spells a ts ds ss (some c)) (ha : a.awaited = none) (r : Awaited)
    (hinput : r = .input → ss = [] ∧ a.input = none) (houtput : ∀ mode, r = .output mode → a.output = none) :
    Spells { a with awaited := some r } (ts ++ [.operator r.operator]) ds ss (some c) where
  tokens := by
    rw [h.tokens, ha]
    simp
  finished := h.finished
  valid := h.valid
  commands := h.commands
  argv := h.argv
  input := h.input
  inputs_first := h.inputs_first
  output := h.output
  outputs_last := h.outputs_last
  awaited _ := by
    rw [h.argv]
    exact List.cons_ne_nil _ _
  awaited_input hi := hinput (Option.some.inj hi)
  awaited_output mode ho := houtput mode (Option.some.inj ho)

/-- `|` ends the stage being read. -/
theorem pipe {c : StageForm} (h : Spells a ts ds ss (some c)) (ha : a.awaited = none) (ho : a.output = none) :
    Spells { a with commands := a.pipeline.commands, argv := [] } (ts ++ [.operator .pipe]) ds (ss ++ [c]) none where
  tokens := by
    rw [h.tokens, ha]
    simp
  finished := h.finished
  valid := h.valid
  commands := by
    simp [Assembly.pipeline, h.commands, h.argv]
  argv := rfl
  input := by
    have := h.input
    simpa using this
  inputs_first := by
    have := h.inputs_first
    simpa using this
  output := by
    have := h.output
    simpa using this
  outputs_last := by
    intro s hs
    have := h.output
    rw [ho, Option.toList_some] at this
    exact List.flatMap_eq_nil_iff.mp this s hs
  awaited hne := absurd ha hne
  awaited_input hi := nomatch ha.symm.trans hi
  awaited_output _ hm := nomatch ha.symm.trans hm

/-- `;` ends the statement being read. -/
theorem semicolon {c : StageForm} (h : Spells a ts ds ss (some c)) (ha : a.awaited = none) :
    Spells { finished := a.finished ++ [a.pipeline] } (ts ++ [.operator .semicolon]) (ds ++ [⟨ss ++ [c], by simp⟩]) []
      none where
  tokens := by
    rw [h.tokens, ha, List.flatMap_append, List.flatMap_singleton, StatementForm.tokens, intercalate_concat]
    simp
  finished := by
    simp [h.finished, h.pipeline]
  valid := by
    intro d hd
    rcases List.mem_append.mp hd with hd | hd
    · exact h.valid d hd
    · rw [List.mem_singleton.mp hd]
      exact h.statement_valid
  commands := rfl
  argv := rfl
  input := rfl
  inputs_first := by simp
  output := rfl
  outputs_last := by simp
  awaited hne := absurd rfl hne
  awaited_input hi := nomatch hi
  awaited_output _ hm := nomatch hm

/-- Every token that is taken continues the form. -/
theorem take {a' : Assembly} {t : Token} (h : Spells a ts ds ss current) (ha : a.take t = .ok a') :
    ∃ ds' ss' current', Spells a' (ts ++ [t]) ds' ss' current' := by
  cases t with
  | word w =>
    obtain ⟨c, hc⟩ := h.takeWord w
    rw [← Except.ok.inj ha]
    exact ⟨ds, ss, some c, hc⟩
  | operator o =>
    by_cases hp : a.Permits o
    · rw [Assembly.take, if_pos hp] at ha
      rw [← Except.ok.inj ha]
      cases o with
      | pipe =>
        obtain ⟨hr, hargv, ho⟩ := hp
        obtain ⟨c, rfl⟩ := h.exists_current hargv
        exact ⟨_, _, _, h.pipe hr ho⟩
      | input =>
        obtain ⟨hr, hargv, hcommands, hi⟩ := hp
        obtain ⟨c, rfl⟩ := h.exists_current hargv
        have hs : ss = [] := List.map_eq_nil_iff.mp (h.commands.symm.trans hcommands)
        exact ⟨_, _, _, h.await hr .input (fun _ => ⟨hs, hi⟩) (fun _ hm => by cases hm)⟩
      | output mode =>
        obtain ⟨hr, hargv, ho⟩ := hp
        obtain ⟨c, rfl⟩ := h.exists_current hargv
        exact ⟨_, _, _, h.await hr (.output mode) (fun hi => by cases hi) (fun _ _ => ho)⟩
      | semicolon =>
        obtain ⟨hr, hargv⟩ := hp
        obtain ⟨c, rfl⟩ := h.exists_current hargv
        exact ⟨_, _, _, h.semicolon hr⟩
    · rw [Assembly.take, if_neg hp] at ha
      cases ha

/-- A run of tokens that are taken continues the form. -/
theorem takeAll {a' : Assembly} {us : List Token} (h : Spells a ts ds ss current) (ha : a.takeAll us = .ok a') :
    ∃ ds' ss' current', Spells a' (ts ++ us) ds' ss' current' := by
  induction us generalizing a ts ds ss current with
  | nil =>
    rw [← Except.ok.inj ha, List.append_nil]
    exact ⟨_, _, _, h⟩
  | cons t us ih =>
    cases ht : a.take t with
    | error o =>
      rw [Assembly.takeAll, List.foldlM_cons, ht] at ha
      cases ha
    | ok b =>
      rw [Assembly.takeAll, List.foldlM_cons, ht] at ha
      obtain ⟨ds', ss', current', hb⟩ := h.take ht
      obtain ⟨ds'', ss'', current'', hc⟩ := ih hb ha
      rw [List.append_assoc, List.singleton_append] at hc
      exact ⟨_, _, _, hc⟩

/-- Where nothing of a statement has been read, the line is the statements that a `;` has ended. -/
theorem line_ended (h : Spells a ts ds [] none) (hr : a.awaited = none) :
    LineForm.tokens ⟨ds, !ds.isEmpty⟩ = ts ∧ LineForm.Valid ⟨ds, !ds.isEmpty⟩ := by
  have htokens := h.tokens
  rw [hr] at htokens
  simp only [List.flatMap_nil, Option.elim, List.append_nil] at htokens
  refine ⟨?_, h.valid, by simp⟩
  cases ds with
  | nil => exact htokens.symm
  | cons d ds =>
    rw [htokens, ← intercalate_append _ _ (List.cons_ne_nil d ds)]
    rfl

/-- Where the last stage of a statement has been read, this statement is the last one of the line. -/
theorem line_open {c : StageForm} (h : Spells a ts ds ss (some c)) (hr : a.awaited = none) :
    LineForm.tokens ⟨ds ++ [⟨ss ++ [c], by simp⟩], false⟩ = ts ∧ LineForm.Valid ⟨ds ++ [⟨ss ++ [c], by simp⟩], false⟩ := by
  refine ⟨?_, (h.semicolon hr).valid, by simp⟩
  rw [h.tokens, hr, LineForm.tokens, intercalate_concat, StatementForm.tokens, intercalate_concat]
  simp

/-- Where nothing of a statement has been assembled, no stage of it has been read. -/
theorem eq_of_isBlank (h : Spells a ts ds ss current) (hb : a.IsBlank) : ss = [] ∧ current = none := by
  obtain ⟨hcommands, hargv, -, -⟩ := hb
  refine ⟨List.map_eq_nil_iff.mp (h.commands.symm.trans hcommands), ?_⟩
  cases current with
  | none => rfl
  | some c => exact absurd (h.argv.symm.trans hargv) (List.cons_ne_nil _ _)

/-- What has been assembled at the end of a line is what a form of the grammar means. -/
theorem finish {ps : List Pipeline} (h : Spells a ts ds ss current) (ha : a.finish = .ok ps) :
    ∃ form : LineForm, form.tokens = ts ∧ form.Valid ∧ form.pipelines = ps := by
  obtain ⟨hr, ⟨hb, rfl⟩ | ⟨hargv, rfl⟩⟩ := Assembly.finish_eq_ok_iff.mp ha
  · obtain ⟨rfl, rfl⟩ := h.eq_of_isBlank hb
    obtain ⟨htokens, hvalid⟩ := h.line_ended hr
    exact ⟨_, htokens, hvalid, h.finished.symm⟩
  · obtain ⟨c, rfl⟩ := h.exists_current hargv
    obtain ⟨htokens, hvalid⟩ := h.line_open hr
    exact ⟨_, htokens, hvalid, (h.semicolon hr).finished.symm⟩

end Spells

/-! ## What has a form is assembled -/

section

variable (a : Assembly) (ts : List Token)

/-- The parts of a stage are taken in turn, as long as its redirections can stand. -/
theorem takeAll_parts {parts : List StagePart} (ha : a.awaited = none) (hargv : a.argv ≠ [])
    (hinputs : parts.filterMap StagePart.input? ≠ [] → a.commands = [] ∧ a.input = none)
    (hinput : (parts.filterMap StagePart.input?).length ≤ 1)
    (houtputs : parts.filterMap StagePart.output? ≠ [] → a.output = none)
    (houtput : (parts.filterMap StagePart.output?).length ≤ 1) :
    a.takeAll (parts.flatMap StagePart.tokens ++ ts) =
      Assembly.takeAll { a with
        argv := a.argv ++ parts.filterMap StagePart.argument?
        input := a.input.or (parts.filterMap StagePart.input?).head?
        output := a.output.or (parts.filterMap StagePart.output?).head? } ts := by
  induction parts generalizing a with
  | nil => simp
  | cons p parts ih =>
    rw [List.flatMap_cons, List.append_assoc]
    cases p with
    | argument w =>
      have hw : a.takeWord w = { a with argv := a.argv ++ [w] } := by simp [Assembly.takeWord, ha]
      rw [StagePart.tokens, List.singleton_append, Assembly.takeAll_word, hw]
      rw [ih { a with argv := a.argv ++ [w] } ha (by simp) hinputs hinput houtputs houtput]
      simp only [List.filterMap_cons, StagePart.argument?, StagePart.input?, StagePart.output?, List.append_assoc,
        List.singleton_append]
    | input path =>
      obtain ⟨hc, hi⟩ := hinputs (by simp [StagePart.input?])
      have hn : parts.filterMap StagePart.input? = [] := by
        simpa [StagePart.input?] using hinput
      have hp : a.Permits .input := ⟨ha, hargv, hc, hi⟩
      have hw : (a.operate .input).takeWord path = { a with input := some path } := by
        simp [Assembly.operate, Assembly.takeWord, ha]
      rw [StagePart.tokens, List.cons_append, List.singleton_append, Assembly.takeAll_operator hp, Assembly.takeAll_word, hw]
      rw [ih { a with input := some path } ha hargv (fun h => absurd hn h) (by simp [hn]) houtputs houtput]
      simp only [List.filterMap_cons, StagePart.argument?, StagePart.input?, StagePart.output?, hi, List.head?_cons,
        Option.some_or, Option.none_or]
    | output target =>
      have ho := houtputs (by simp [StagePart.output?])
      have hn : parts.filterMap StagePart.output? = [] := by
        simpa [StagePart.output?] using houtput
      have hp : a.Permits (.output target.mode) := ⟨ha, hargv, ho⟩
      have hw : (a.operate (.output target.mode)).takeWord target.path = { a with output := some target } := by
        simp [Assembly.operate, Assembly.takeWord, ha]
      rw [StagePart.tokens, List.cons_append, List.singleton_append, Assembly.takeAll_operator hp, Assembly.takeAll_word, hw]
      rw [ih { a with output := some target } ha hargv hinputs hinput (fun h => absurd hn h) (by simp [hn])]
      simp only [List.filterMap_cons, StagePart.argument?, StagePart.input?, StagePart.output?, ho, List.head?_cons,
        Option.some_or, Option.none_or]

/-- A stage is taken as a whole. -/
theorem takeAll_stage {s : StageForm} (ha : a.awaited = none) (hargv : a.argv = [])
    (hinputs : s.inputs ≠ [] → a.commands = [] ∧ a.input = none) (hinput : s.inputs.length ≤ 1)
    (hout : a.output = none) (houtput : s.outputs.length ≤ 1) :
    a.takeAll (s.tokens ++ ts) =
      Assembly.takeAll { a with
        argv := s.command.argv
        input := a.input.or s.inputs.head?
        output := s.outputs.head? } ts := by
  have hw : a.takeWord s.name = { a with argv := [s.name] } := by simp [Assembly.takeWord, ha, hargv]
  rw [StageForm.tokens, List.cons_append, Assembly.takeAll_word, hw]
  rw [takeAll_parts { a with argv := [s.name] } ts ha (List.cons_ne_nil _ _) hinputs hinput (fun _ => hout) houtput, hout]
  rfl

/-- Stages joined by `|` are taken as a whole: the assembly then holds their pipeline. -/
theorem takeAll_stages {ss : List StageForm} (hs : ss ≠ []) (ha : a.awaited = none) (hargv : a.argv = [])
    (hinputs : ss.flatMap StageForm.inputs ≠ [] → a.commands = [] ∧ a.input = none)
    (hinput : (ss.flatMap StageForm.inputs).length ≤ 1) (hfirst : ∀ s ∈ ss.tail, s.inputs = [])
    (hout : a.output = none) (houtput : (ss.flatMap StageForm.outputs).length ≤ 1)
    (hlast : ∀ s ∈ ss.dropLast, s.outputs = []) :
    ∃ b : Assembly,
      a.takeAll ([Token.operator .pipe].intercalate (ss.map StageForm.tokens) ++ ts) = b.takeAll ts ∧
      b.awaited = none ∧ b.argv ≠ [] ∧ b.finished = a.finished ∧
      b.pipeline = ⟨a.commands ++ ss.map StageForm.command, a.input.or (ss.flatMap StageForm.inputs).head?,
        (ss.flatMap StageForm.outputs).head?⟩ := by
  induction ss generalizing a with
  | nil => exact absurd rfl hs
  | cons s ss ih =>
    rw [List.flatMap_cons, List.length_append] at hinput houtput
    have hi : s.inputs ≠ [] → a.commands = [] ∧ a.input = none := fun h => hinputs (by simp [h])
    cases ss with
    | nil =>
      rw [List.map_singleton, List.intercalate_singleton, takeAll_stage a ts ha hargv hi (by omega) hout (by omega)]
      refine ⟨_, rfl, ha, List.cons_ne_nil _ _, rfl, ?_⟩
      simp [Assembly.pipeline]
    | cons t ss =>
      have ho : s.outputs = [] := hlast s (by simp)
      have hrest : (t :: ss).flatMap StageForm.inputs = [] := List.flatMap_eq_nil_iff.mpr hfirst
      have hp : Assembly.Permits { a with argv := s.command.argv, input := a.input.or s.inputs.head?, output := none }
        .pipe := ⟨ha, List.cons_ne_nil _ _, rfl⟩
      rw [List.map_cons, List.intercalate_cons_of_ne_nil (by simp), List.append_assoc, List.append_assoc,
        takeAll_stage a _ ha hargv hi (by omega) hout (by omega), List.singleton_append, ho, List.head?_nil,
        Assembly.takeAll_operator hp]
      obtain ⟨b, hb, hawaited, hname, hfinished, hpipeline⟩ := ih
        (Assembly.operate { a with argv := s.command.argv, input := a.input.or s.inputs.head?, output := none } .pipe)
        (List.cons_ne_nil _ _) ha rfl (fun h => absurd hrest h) (by simp [hrest])
        (fun r hr => hfirst r (List.mem_of_mem_tail hr)) rfl (by omega) (fun r hr => hlast r (by simp [hr]))
      refine ⟨b, hb, hawaited, hname, hfinished, hpipeline.trans ?_⟩
      rw [List.flatMap_cons (x := s), hrest, List.flatMap_cons (x := s), ho]
      simp [Assembly.operate, Assembly.pipeline]

/-- A statement is taken as a whole. -/
theorem takeAll_statement {s : StatementForm} (hs : s.Valid) (ps : List Pipeline) :
    ∃ b : Assembly,
      Assembly.takeAll { finished := ps } (s.tokens ++ ts) = b.takeAll ts ∧
      b.awaited = none ∧ b.argv ≠ [] ∧ b.finished = ps ∧ b.pipeline = s.pipeline := by
  obtain ⟨b, hb, hawaited, hname, hfinished, hpipeline⟩ := takeAll_stages { finished := ps } ts s.stages_ne_nil rfl rfl
    (fun _ => ⟨rfl, rfl⟩) hs.inputs_length hs.inputs_first rfl hs.outputs_length hs.outputs_last
  refine ⟨b, hb, hawaited, hname, hfinished, hpipeline.trans ?_⟩
  simp [StatementForm.pipeline]

/-- Statements that a `;` follows are taken one by one. -/
theorem takeAll_statements {ss : List StatementForm} (hs : ∀ s ∈ ss, s.Valid) (ps : List Pipeline) :
    Assembly.takeAll { finished := ps } (ss.flatMap (fun s => s.tokens ++ [.operator .semicolon]) ++ ts) =
      Assembly.takeAll { finished := ps ++ ss.map StatementForm.pipeline } ts := by
  induction ss generalizing ps with
  | nil => simp
  | cons s ss ih =>
    rw [List.flatMap_cons, List.append_assoc, List.append_assoc]
    obtain ⟨b, hb, hawaited, hname, hfinished, hpipeline⟩ := takeAll_statement _ (hs s (by simp)) ps
    have hp : b.Permits .semicolon := ⟨hawaited, hname⟩
    rw [hb, List.singleton_append, Assembly.takeAll_operator hp, Assembly.operate, hfinished, hpipeline,
      ih (fun t ht => hs t (by simp [ht]))]
    simp

end

/-- A line as the grammar writes it is assembled to what it means. -/
theorem assemble_tokens {form : LineForm} (h : form.Valid) : assemble form.tokens = .ok form.pipelines := by
  obtain ⟨ss, closed⟩ := form
  unfold assemble LineForm.tokens LineForm.pipelines
  cases closed with
  | true =>
    rw [if_pos rfl, intercalate_append _ _ (h.closed rfl), ← List.append_nil (List.flatMap _ _),
      takeAll_statements _ h.statements []]
    rfl
  | false =>
    rw [if_neg Bool.false_ne_true, List.append_nil]
    rcases List.eq_nil_or_concat ss with rfl | ⟨ss, s, rfl⟩
    · rfl
    · rw [List.concat_eq_append] at h ⊢
      rw [intercalate_concat, takeAll_statements _ (fun t ht => h.statements t (List.mem_append_left _ ht)) []]
      obtain ⟨b, hb, hawaited, hname, hfinished, hpipeline⟩ := takeAll_statement []
        (h.statements s (List.mem_append_right _ (List.mem_singleton_self s))) (ss.map StatementForm.pipeline)
      rw [List.append_nil] at hb
      rw [List.nil_append, hb]
      exact Assembly.finish_eq_ok_iff.mpr ⟨hawaited, .inr ⟨hname, by simp [hfinished, hpipeline]⟩⟩

/-- Assembling finds the forms of the grammar, and nothing else. -/
theorem assemble_eq_ok_iff {ts : List Token} {ps : List Pipeline} :
    assemble ts = .ok ps ↔ ∃ form : LineForm, form.tokens = ts ∧ form.Valid ∧ form.pipelines = ps := by
  constructor
  · intro h
    unfold assemble at h
    cases ha : ({} : Assembly).takeAll ts with
    | error o =>
      rw [ha] at h
      cases h
    | ok a =>
      rw [ha] at h
      obtain ⟨ds, ss, current, hs⟩ := Spells.empty.takeAll ha
      exact hs.finish h
  · rintro ⟨form, rfl, hv, rfl⟩
    exact assemble_tokens hv

end Line

end PipelineShell
