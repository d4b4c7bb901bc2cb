import PipelineShell.Proofs.Line.Measure

/-!
# The limits that a statement breaks, in reading order

One statement can break several limits. `StatementForm.breaches` lists them as they come up when its words and operators are read from
left to right, each with the report that goes with it: a word that is too long, at the character that does not fit any more and shown
by what does; a stage with too many arguments, at the end of the first one too many; too many stages, at the `|` before the first one
too many. A statement breaks nothing exactly if its pipeline fits (`StatementForm.breaches_eq_nil_iff`).
-/

namespace PipelineShell

namespace Line

/-! ## What fits of a text -/

/-- The characters at the start of a text, as long as they fit in so many bytes. -/
def fittingChars : Nat → List Char → List Char
  | _, [] => []
  | n, c :: cs => if c.utf8Size ≤ n then c :: fittingChars (n - c.utf8Size) cs else []

/-- The longest beginning of a text that fits in so many bytes. -/
def fitting (n : Nat) (text : String) : String := String.ofList (fittingChars n text.toList)

/-- Among the beginnings of a text, what fits of it is longer than any other one that fits. -/
theorem prefix_fittingChars_iff {n : Nat} {p cs : List Char} :
    p <+: fittingChars n cs ↔ p <+: cs ∧ (String.ofList p).utf8ByteSize ≤ n := by
  induction cs generalizing n p with
  | nil =>
    rw [fittingChars, List.prefix_nil]
    constructor
    · rintro rfl
      exact ⟨rfl, Nat.zero_le _⟩
    · exact And.left
  | cons c cs ih =>
    cases p with
    | nil => exact iff_of_true List.nil_prefix ⟨List.nil_prefix, Nat.zero_le _⟩
    | cons d p =>
      rw [fittingChars, utf8ByteSize_ofList_cons, List.cons_prefix_cons]
      split
      · rename_i hc
        rw [List.cons_prefix_cons, ih]
        constructor
        · rintro ⟨rfl, hp, hsize⟩
          exact ⟨⟨rfl, hp⟩, by omega⟩
        · rintro ⟨⟨rfl, hp⟩, hsize⟩
          exact ⟨rfl, hp, by omega⟩
      · rename_i hc
        rw [List.prefix_nil]
        constructor
        · intro h
          cases h
        · rintro ⟨⟨rfl, -⟩, hsize⟩
          omega

theorem fittingChars_prefix_self (n : Nat) (cs : List Char) : fittingChars n cs <+: cs :=
  (prefix_fittingChars_iff.mp List.prefix_rfl).1

/-- A text that fits fits as a whole. -/
theorem fitting_of_le {n : Nat} {text : String} (h : text.utf8ByteSize ≤ n) : fitting n text = text := by
  have hsize : (String.ofList text.toList).utf8ByteSize ≤ n := by rwa [String.ofList_toList]
  have hall : text.toList <+: fittingChars n text.toList := prefix_fittingChars_iff.mpr ⟨List.prefix_rfl, hsize⟩
  rw [fitting, (fittingChars_prefix_self n text.toList).eq_of_length_le hall.length_le, String.ofList_toList]

/-- A character that does not fit any more adds nothing to what fits. -/
theorem fitting_push {n : Nat} {text : String} {c : Char} (h : n < (text.push c).utf8ByteSize) :
    fitting n (text.push c) = fitting n text := by
  unfold fitting
  congr 1
  rw [String.toList_push]
  obtain ⟨hpart, hsize⟩ := prefix_fittingChars_iff.mp (List.prefix_refl (fittingChars n (text.toList ++ [c])))
  have hshorter : fittingChars n (text.toList ++ [c]) <+: fittingChars n text.toList := by
    refine prefix_fittingChars_iff.mpr ⟨?_, hsize⟩
    rcases List.prefix_concat_iff.mp hpart with hall | hpart
    · rw [hall, ← String.toList_push, String.ofList_toList] at hsize
      omega
    · exact hpart
  obtain ⟨hpart', hsize'⟩ := prefix_fittingChars_iff.mp (List.prefix_refl (fittingChars n text.toList))
  have hlonger : fittingChars n text.toList <+: fittingChars n (text.toList ++ [c]) :=
    prefix_fittingChars_iff.mpr ⟨hpart'.trans (List.prefix_append _ _), hsize'⟩
  exact hshorter.eq_of_length_le hlonger.length_le

/-- What is shown of a text that is too long: the first five characters of what fits, or all of it if there are fewer. -/
def shown (n : Nat) (text : String) : String := String.ofList ((fitting n text).toList.take 5)

theorem shown_push {n : Nat} {text : String} {c : Char} (h : n < (text.push c).utf8ByteSize) :
    shown n (text.push c) = shown n text := by
  rw [shown, fitting_push h, shown]

/-- Of a text that still fits it is what the scan keeps for its report. -/
theorem opening_eq_shown {n : Nat} {text : String} (h : text.utf8ByteSize ≤ n) : opening text = shown n text := by
  rw [shown, fitting_of_le h, opening]

/-! ## Words -/

/-- The report of a word that is too long, with what is shown of it. -/
def Role.overlong : Role → String → LimitError
  | .argument => .argumentTooLong
  | .path => .pathTooLong

/-- A word that is too long is reported. -/
def Role.lengthBreaches (limits : Limits) (r : Role) (w : String) : List LimitError :=
  if r.limit limits < w.utf8ByteSize then [r.overlong (shown (r.limit limits) w)] else []

/-- The end of an argument before which `n` others stand in the stage, the first one being `first`. -/
def Role.countBreaches (limits : Limits) (first : String) (n : Nat) (r : Role) : List LimitError :=
  if r = .argument ∧ n = limits.maxArgs then [.tooManyArguments first] else []

/-- What the words of a stage break that come after `n` arguments. -/
def wordsBreaches (limits : Limits) (first : String) : Nat → List (Role × String) → List LimitError
  | _, [] => []
  | n, (r, w) :: ws =>
    r.lengthBreaches limits w ++ r.countBreaches limits first n ++
      wordsBreaches limits first (if r = .argument then n + 1 else n) ws

/-- The words of a stage in order, each with its role. -/
def StageForm.words (s : StageForm) : List (Role × String) := (.argument, s.name) :: s.parts.map StagePart.word

/-- What a stage breaks by its words. -/
def StageForm.breaches (limits : Limits) (s : StageForm) : List LimitError := wordsBreaches limits s.name 0 s.words

/-! ## Stages -/

/-- The report of too many stages names the first two of those read. -/
def overstaged (before : List StageForm) : LimitError :=
  .tooManyStages ((before[0]?.map StageForm.name).getD "") ((before[1]?.map StageForm.name).getD "")

/-- The `|` behind stages. A single stage is never one too many. -/
def pipeBreaches (limits : Limits) (before : List StageForm) : List LimitError :=
  if before.length = max 1 limits.maxStages then [overstaged before] else []

/-- What stages break that come after others, with the `|` in front of each. -/
def stagesBreaches (limits : Limits) : List StageForm → List StageForm → List LimitError
  | _, [] => []
  | before, s :: ss => pipeBreaches limits before ++ s.breaches limits ++ stagesBreaches limits (before ++ [s]) ss

/-- The limits that a statement breaks, in reading order. -/
def StatementForm.breaches (limits : Limits) (s : StatementForm) : List LimitError := stagesBreaches limits [] s.stages

/-- What a statement becomes: the first limit that it breaks sets it aside. -/
def StatementForm.judge (limits : Limits) (s : StatementForm) : Statement :=
  match (s.breaches limits).head? with
  | none => .ready s.pipeline
  | some e => .discarded e

variable {limits : Limits}

theorem StatementForm.judge_of_head? {s : StatementForm} {e : LimitError} (h : (s.breaches limits).head? = some e) :
    s.judge limits = .discarded e := by
  rw [judge, h]

theorem StatementForm.judge_of_nil {s : StatementForm} (h : s.breaches limits = []) : s.judge limits = .ready s.pipeline := by
  rw [judge, h]
  rfl

/-! ## One more word, one more stage -/

@[simp] theorem lengthBreaches_empty (limits : Limits) (r : Role) : r.lengthBreaches limits "" = [] := by
  simp [Role.lengthBreaches]

theorem lengthBreaches_eq_nil_iff {r : Role} {w : String} : r.lengthBreaches limits w = [] ↔ w.utf8ByteSize ≤ r.limit limits := by
  unfold Role.lengthBreaches
  split <;> simp <;> omega

/-- A word that grows stays too long, and is shown by the same. -/
theorem lengthBreaches_push (limits : Limits) (r : Role) (w : String) (c : Char) :
    r.lengthBreaches limits w <+: r.lengthBreaches limits (w.push c) := by
  unfold Role.lengthBreaches
  split
  · rename_i hw
    have hpush : r.limit limits < (w.push c).utf8ByteSize := by
      rw [String.utf8ByteSize_push]
      omega
    simp only [if_pos hpush, shown_push hpush, List.prefix_rfl]
  · exact List.nil_prefix

@[simp] theorem countBreaches_path (limits : Limits) (first : String) (n : Nat) : Role.path.countBreaches limits first n = [] :=
  if_neg fun h => Role.noConfusion h.1

theorem wordsBreaches_concat (limits : Limits) (first : String) (n : Nat) (ws : List (Role × String)) (r : Role) (w : String) :
    wordsBreaches limits first n (ws ++ [(r, w)]) =
      wordsBreaches limits first n ws ++
        (r.lengthBreaches limits w ++ r.countBreaches limits first (n + (ws.filter (·.1 = .argument)).length)) := by
  induction ws generalizing n with
  | nil => simp [wordsBreaches]
  | cons x ws ih =>
    obtain ⟨r', w'⟩ := x
    rw [List.cons_append, wordsBreaches, wordsBreaches, ih, List.append_assoc]
    cases r' with
    | argument =>
      simp only [if_true, decide_true, List.filter_cons_of_pos, List.length_cons, List.append_assoc]
      rw [Nat.add_right_comm, Nat.add_assoc]
    | path => simp

theorem StageForm.length_arguments (s : StageForm) :
    (s.words.filter (·.1 = .argument)).length = s.command.argv.length := by
  rw [← arguments_words s, List.length_map]
  rfl

/-- A part that is added breaks what its word breaks behind the arguments there are. -/
theorem StageForm.breaches_add (limits : Limits) (s : StageForm) (p : StagePart) :
    (s.add p).breaches limits =
      s.breaches limits ++ (p.word.1.lengthBreaches limits p.word.2 ++
        p.word.1.countBreaches limits s.name s.command.argv.length) := by
  have hwords : (s.add p).words = s.words ++ [p.word] := by simp [words, add]
  rw [breaches, hwords, wordsBreaches_concat, s.length_arguments, Nat.zero_add]
  rfl

/-- A stage that is added breaks what the `|` before it and its words break. -/
theorem stagesBreaches_concat (limits : Limits) (before ss : List StageForm) (s : StageForm) :
    stagesBreaches limits before (ss ++ [s]) =
      stagesBreaches limits before ss ++ pipeBreaches limits (before ++ ss) ++ s.breaches limits := by
  induction ss generalizing before with
  | nil => simp [stagesBreaches]
  | cons t ss ih => simp [stagesBreaches, ih]

/-! ## A statement breaks nothing exactly if its pipeline fits -/

theorem wordsBreaches_eq_nil_iff {first : String} {n : Nat} {ws : List (Role × String)} :
    wordsBreaches limits first n ws = [] ↔
      (∀ w ∈ ws, w.2.utf8ByteSize ≤ w.1.limit limits) ∧
        (n ≤ limits.maxArgs → n + (ws.filter (·.1 = .argument)).length ≤ limits.maxArgs) := by
  induction ws generalizing n with
  | nil => simp [wordsBreaches]
  | cons x ws ih =>
    obtain ⟨r, w⟩ := x
    rw [wordsBreaches, List.append_eq_nil_iff, List.append_eq_nil_iff, lengthBreaches_eq_nil_iff, ih, List.forall_mem_cons]
    cases r with
    | argument =>
      have hcount : Role.argument.countBreaches limits first n = [] ↔ n ≠ limits.maxArgs := by simp [Role.countBreaches]
      rw [hcount]
      simp only [if_true, decide_true, List.filter_cons_of_pos, List.length_cons]
      constructor
      · rintro ⟨⟨hw, hne⟩, hws, hargs⟩
        exact ⟨⟨hw, hws⟩, fun hn => by have := hargs (by omega); omega⟩
      · rintro ⟨⟨hw, hws⟩, hargs⟩
        refine ⟨⟨hw, fun hn => ?_⟩, hws, fun hn => ?_⟩
        · have := hargs (by omega)
          omega
        · have := hargs (by omega)
          omega
    | path => simp [and_assoc]

/-- Every word of a stage is an argument of its command or a path of one of its redirections. -/
theorem StageForm.breaches_eq_nil_iff {s : StageForm} : s.breaches limits = [] ↔ s.Fits limits := by
  rw [breaches, wordsBreaches_eq_nil_iff, s.length_arguments, Nat.zero_add]
  constructor
  · rintro ⟨hwords, hargs⟩
    have htokens : Line.words .argument (s.tokens ++ []) = s.words := (words_tokens s []).trans (List.append_nil _)
    refine stage_fits [] ⟨?_, ?_⟩
    · rw [htokens, s.length_arguments]
      exact hargs (Nat.zero_le _)
    · rw [htokens]
      exact hwords
  · rintro ⟨⟨hargs, hargv⟩, hinputs, houtputs⟩
    refine ⟨fun w hw => ?_, fun _ => hargs⟩
    rcases List.mem_cons.mp hw with rfl | hw
    · exact hargv s.name List.mem_cons_self
    · obtain ⟨p, hp, rfl⟩ := List.mem_map.mp hw
      cases p with
      | argument w => exact hargv w (List.mem_cons_of_mem _ (List.mem_filterMap.mpr ⟨_, hp, rfl⟩))
      | input path => exact hinputs path (List.mem_filterMap.mpr ⟨_, hp, rfl⟩)
      | output target => exact houtputs target (List.mem_filterMap.mpr ⟨_, hp, rfl⟩)

theorem stagesBreaches_eq_nil_iff {before ss : List StageForm} :
    stagesBreaches limits before ss = [] ↔
      (∀ s ∈ ss, s.Fits limits) ∧
        (before.length ≤ max 1 limits.maxStages → before.length + ss.length ≤ max 1 limits.maxStages) := by
  induction ss generalizing before with
  | nil => simp [stagesBreaches]
  | cons s ss ih =>
    have hpipe : pipeBreaches limits before = [] ↔ before.length ≠ max 1 limits.maxStages := by simp [pipeBreaches]
    rw [stagesBreaches, List.append_eq_nil_iff, List.append_eq_nil_iff, hpipe, StageForm.breaches_eq_nil_iff, ih,
      List.forall_mem_cons, List.length_append, List.length_singleton, List.length_cons]
    constructor
    · rintro ⟨⟨hne, hs⟩, hss, hstages⟩
      exact ⟨⟨hs, hss⟩, fun hn => by have := hstages (by omega); omega⟩
    · rintro ⟨⟨hs, hss⟩, hstages⟩
      refine ⟨⟨fun hn => ?_, hs⟩, hss, fun hn => ?_⟩
      · have := hstages (by omega)
        omega
      · have := hstages (by omega)
        omega

/-- A statement breaks nothing exactly if its pipeline fits. -/
theorem StatementForm.breaches_eq_nil_iff {s : StatementForm} (hs : s.Valid) :
    s.breaches limits = [] ↔ s.pipeline.Fits limits := by
  rw [breaches, stagesBreaches_eq_nil_iff, pipeline_fits_iff hs]
  simp

/-- Four limits are broken here, and the path is the first of them to be read. -/
example : StatementForm.breaches { maxStages := 1, maxArgs := 1, maxTokenLength := 2, maxPathLength := 2 }
    ⟨[⟨"ab", [.input "xyz", .argument "cde"]⟩, ⟨"f", []⟩], by decide⟩ =
      [.pathTooLong "xy", .argumentTooLong "cd", .tooManyArguments "ab", .tooManyStages "ab" ""] := by decide

end Line

end PipelineShell
