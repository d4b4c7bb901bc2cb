import PipelineShell.Proofs.Line.Grammar
import PipelineShell.Proofs.Line.Simulation

/-!
# Lines that no limit concerns

`Limits.Admits` measures the words and operators of a line, whether they follow the grammar or not: the pieces between `;`, the
pieces of these between `|`, the arguments of a piece, and every word. Where no part of a line exceeds a limit nothing of it is set
aside, and the line is accepted or refused for its structure alone.
-/

namespace PipelineShell

namespace Line

/-- What a word is, judged by the operator right before it. -/
inductive Role where
  | argument
  | path
  deriving DecidableEq, Repr

/-- The role of a word right after an operator. -/
def Role.after : Operator → Role
  | .input | .output _ => .path
  | .pipe | .semicolon => .argument

/-- How many bytes a word can have. -/
def Role.limit (limits : Limits) : Role → Nat
  | .argument => limits.maxTokenLength
  | .path => limits.maxPathLength

/-- The words among tokens, each with its role; `r` is the role of a word that comes first. -/
def words (r : Role) : List Token → List (Role × String)
  | [] => []
  | .word w :: ts => (r, w) :: words .argument ts
  | .operator o :: ts => words (.after o) ts

end Line

open Line

/-- The words between two `|` are few enough and short enough. -/
structure Limits.AdmitsStage (limits : Limits) (ts : List Token) : Prop where
  args : ((words .argument ts).filter (·.1 = .argument)).length ≤ limits.maxArgs
  words : ∀ w ∈ words .argument ts, w.2.utf8ByteSize ≤ w.1.limit limits

/-- No part of a line exceeds a limit. The pieces of a line are what stands between `;`; one that is empty is no statement. -/
structure Limits.Admits (limits : Limits) (ts : List Token) : Prop where
  statements : ((ts.splitOn (.operator .semicolon)).filter (· ≠ [])).length ≤ limits.maxStatements
  stages : ∀ piece ∈ ts.splitOn (.operator .semicolon), (piece.splitOn (.operator .pipe)).length ≤ max 1 limits.maxStages
  stage : ∀ piece ∈ ts.splitOn (.operator .semicolon), ∀ stage ∈ piece.splitOn (.operator .pipe), limits.AdmitsStage stage

instance (limits : Limits) (ts : List Token) : Decidable (limits.AdmitsStage ts) :=
  decidable_of_decidable_of_iff (p := _ ∧ _) ⟨fun h => ⟨h.1, h.2⟩, fun h => ⟨h.args, h.words⟩⟩

instance (limits : Limits) (ts : List Token) : Decidable (limits.Admits ts) :=
  decidable_of_decidable_of_iff (p := _ ∧ _ ∧ _) ⟨fun h => ⟨h.1, h.2.1, h.2.2⟩, fun h => ⟨h.statements, h.stages, h.stage⟩⟩

namespace Line

/-! ## Pieces -/

section

variable {α β : Type} [DecidableEq α] {sep : α}

/-- Parts that hold no separator, each with one after it, are the first pieces. -/
theorem splitOn_flatMap {f : β → List α} {xs : List β} (h : ∀ x ∈ xs, sep ∉ f x) (ys : List α) :
    (xs.flatMap (fun x => f x ++ [sep]) ++ ys).splitOn sep = xs.map f ++ ys.splitOn sep := by
  induction xs with
  | nil => rfl
  | cons x xs ih =>
    rw [List.flatMap_cons, List.append_assoc, List.append_assoc, List.singleton_append,
      List.splitOn_append_cons_self_of_not_mem (h x List.mem_cons_self), ih (fun y hy => h y (List.mem_cons_of_mem x hy))]
    rfl

/-- What holds no separator belongs to the first piece. -/
theorem splitOn_append {xs : List α} (h : sep ∉ xs) (ys : List α) :
    ∃ first rest, ys.splitOn sep = first :: rest ∧ (xs ++ ys).splitOn sep = (xs ++ first) :: rest := by
  obtain ⟨first, rest, hys⟩ := List.exists_cons_of_ne_nil (List.splitOn_ne_nil sep ys)
  refine ⟨first, rest, hys, ?_⟩
  induction xs with
  | nil => exact hys
  | cons x xs ih =>
    rw [List.mem_cons, not_or] at h
    rw [List.cons_append, List.splitOn_cons_eq_if_modifyHead, ih h.2, if_neg (by simpa using Ne.symm h.1)]
    rfl

/-- The first piece begins with what begins the list, if that is no separator. -/
theorem head_splitOn {x : α} {xs first : List α} {rest : List (List α)} (h : (x :: xs).splitOn sep = first :: rest)
    (hx : x ≠ sep) : ∃ ys, first = x :: ys := by
  have hsep : sep ∉ [x] := fun hmem => hx (List.mem_singleton.mp hmem).symm
  obtain ⟨ys, rest', -, hsplit⟩ := splitOn_append hsep xs
  obtain ⟨rfl, -⟩ := List.cons.inj (h.symm.trans hsplit)
  exact ⟨ys, rfl⟩

end

/-! ## Forms and their pieces -/

/-- A part as a word with its role. -/
def StagePart.word : StagePart → Role × String
  | argument w => (.argument, w)
  | input path => (.path, path)
  | output target => (.path, target.path)

namespace StageForm

theorem words_parts (parts : List StagePart) (ts : List Token) :
    words .argument (parts.flatMap StagePart.tokens ++ ts) = parts.map StagePart.word ++ words .argument ts := by
  induction parts with
  | nil => rfl
  | cons p parts ih =>
    rw [List.flatMap_cons, List.append_assoc, List.map_cons, List.cons_append, ← ih]
    cases p <;> rfl

/-- The words of a stage are its name and those of its parts. -/
theorem words_tokens (s : StageForm) (ts : List Token) :
    words .argument (s.tokens ++ ts) = (.argument, s.name) :: s.parts.map StagePart.word ++ words .argument ts := by
  rw [tokens, List.cons_append, words, words_parts]
  rfl

/-- The arguments among the words of a stage are those of its command. -/
theorem arguments_words (s : StageForm) :
    (((.argument, s.name) :: s.parts.map StagePart.word).filter (·.1 = Role.argument)).map Prod.snd = s.command.argv := by
  have hparts (parts : List StagePart) :
      ((parts.map StagePart.word).filter (·.1 = Role.argument)).map Prod.snd = parts.filterMap StagePart.argument? := by
    induction parts with
    | nil => rfl
    | cons p parts ih => cases p <;> simp [StagePart.word, StagePart.argument?, List.filterMap_cons, ih]
  simp [command, Command.argv, hparts]

theorem not_mem_tokens {s : StageForm} {o : Operator} (ho : Role.after o = .argument) : Token.operator o ∉ s.tokens := by
  intro h
  rcases List.mem_cons.mp h with h | h
  · cases h
  · obtain ⟨p, -, hp⟩ := List.mem_flatMap.mp h
    cases p with
    | argument w => simp [StagePart.tokens] at hp
    | input path =>
      obtain rfl : o = .input := by simpa [StagePart.tokens] using hp
      cases ho
    | output target =>
      obtain rfl : o = .output target.mode := by simpa [StagePart.tokens] using hp
      cases ho

end StageForm

/-- A stage breaks no limit. -/
def StageForm.Fits (limits : Limits) (s : StageForm) : Prop :=
  s.command.Fits limits ∧ (∀ path ∈ s.inputs, PathFits limits path) ∧ ∀ target ∈ s.outputs, PathFits limits target.path

/-- A stage fits where its words are admitted, whatever follows it. -/
theorem stage_fits {limits : Limits} {s : StageForm} (ts : List Token) (h : limits.AdmitsStage (s.tokens ++ ts)) :
    s.Fits limits := by
  obtain ⟨hargs, hwords⟩ := h
  rw [StageForm.words_tokens] at hargs hwords
  rw [List.filter_append, List.length_append] at hargs
  have hargv := StageForm.arguments_words s
  refine ⟨⟨?_, fun w hw => ?_⟩, fun path hp => ?_, fun target ht => ?_⟩
  · rw [← hargv, List.length_map]
    exact Nat.le_trans (Nat.le_add_right _ _) hargs
  · rw [← hargv, List.mem_map] at hw
    obtain ⟨⟨r, w⟩, hmem, rfl⟩ := hw
    rw [List.mem_filter, decide_eq_true_eq] at hmem
    obtain ⟨hmem, rfl⟩ := hmem
    exact hwords _ (List.mem_append_left _ hmem)
  · obtain ⟨p, hmem, hpath⟩ := List.mem_filterMap.mp hp
    cases p with
    | input path' =>
      obtain rfl := Option.some.inj hpath
      exact hwords _ (List.mem_append_left _ (List.mem_cons_of_mem _ (List.mem_map_of_mem hmem)))
    | _ => cases hpath
  · obtain ⟨p, hmem, htarget⟩ := List.mem_filterMap.mp ht
    cases p with
    | output target' =>
      obtain rfl := Option.some.inj htarget
      exact hwords _ (List.mem_append_left _ (List.mem_cons_of_mem _ (List.mem_map_of_mem hmem)))
    | _ => cases htarget

/-- Stages that a `|` has ended hold no `;`. -/
theorem not_mem_stages (ss : List StageForm) :
    Token.operator .semicolon ∉ ss.flatMap fun s => s.tokens ++ [.operator .pipe] := by
  intro h
  obtain ⟨s, -, h⟩ := List.mem_flatMap.mp h
  rcases List.mem_append.mp h with h | h
  · exact StageForm.not_mem_tokens rfl h
  · nomatch List.mem_singleton.mp h

/-- A statement holds no `;`. -/
theorem not_mem_statement (s : StatementForm) : Token.operator .semicolon ∉ s.tokens := fun h =>
  not_mem_stages s.stages (intercalate_append _ _ s.stages_ne_nil ▸ List.mem_append_left _ h)

/-- The pieces of a statement are its stages. -/
theorem splitOn_statement (s : StatementForm) : s.tokens.splitOn (.operator .pipe) = s.stages.map StageForm.tokens := by
  refine List.splitOn_intercalate _ (fun ts hts => ?_) (by simp [s.stages_ne_nil])
  obtain ⟨t, -, rfl⟩ := List.mem_map.mp hts
  exact StageForm.not_mem_tokens rfl

theorem StatementForm.tokens_ne_nil (s : StatementForm) : s.tokens ≠ [] := by
  intro h
  have hsplit := splitOn_statement s
  rw [h, List.splitOn_nil] at hsplit
  obtain ⟨t, ht, hnil⟩ := List.mem_map.mp (hsplit ▸ List.mem_singleton_self ([] : List Token))
  exact List.cons_ne_nil _ _ hnil

/-- The pieces of a line that are not empty are its statements. -/
theorem splitOn_line (l : LineForm) (hl : l.Valid) :
    (l.tokens.splitOn (.operator .semicolon)).filter (· ≠ []) = l.statements.map StatementForm.tokens := by
  have hfilter : (l.statements.map StatementForm.tokens).filter (· ≠ []) = l.statements.map StatementForm.tokens := by
    refine List.filter_eq_self.mpr (fun ts hts => ?_)
    obtain ⟨s, -, rfl⟩ := List.mem_map.mp hts
    exact decide_eq_true s.tokens_ne_nil
  obtain ⟨ss, closed⟩ := l
  unfold LineForm.tokens
  cases closed with
  | true =>
    have hsplit := splitOn_flatMap (fun s (_ : s ∈ ss) => not_mem_statement s) []
    rw [List.append_nil] at hsplit
    rw [if_pos rfl, intercalate_append _ _ (hl.closed rfl), hsplit, List.filter_append, hfilter, List.splitOn_nil]
    exact List.append_nil _
  | false =>
    rw [if_neg Bool.false_ne_true, List.append_nil]
    by_cases hs : ss = []
    · rw [hs]
      rfl
    · rw [List.splitOn_intercalate _ _ (by simpa using hs), hfilter]
      intro ts hts
      obtain ⟨s, -, rfl⟩ := List.mem_map.mp hts
      exact not_mem_statement s

/-- The only one of a list is its first. -/
theorem mem_head?_of_length_le {α : Type} {xs : List α} {x : α} (hlen : xs.length ≤ 1) (hx : x ∈ xs) : x ∈ xs.head? := by
  cases xs with
  | nil => cases hx
  | cons y ys =>
    obtain rfl : ys = [] := List.length_eq_zero_iff.mp (by simpa using hlen)
    rw [List.mem_singleton.mp hx]
    rfl

/-- A pipeline fits exactly if its stages do and are not too many. -/
theorem StatementForm.pipeline_fits_iff {limits : Limits} {s : StatementForm} (hs : s.Valid) :
    s.pipeline.Fits limits ↔ (∀ t ∈ s.stages, t.Fits limits) ∧ s.stages.length ≤ max 1 limits.maxStages := by
  constructor
  · rintro ⟨hstages, hcommands, hinput, houtput⟩
    refine ⟨fun t ht => ⟨hcommands _ (List.mem_map_of_mem ht), fun path hp => hinput path ?_, fun target hp => houtput target ?_⟩, ?_⟩
    · exact mem_head?_of_length_le hs.inputs_length (List.mem_flatMap.mpr ⟨t, ht, hp⟩)
    · exact mem_head?_of_length_le hs.outputs_length (List.mem_flatMap.mpr ⟨t, ht, hp⟩)
    · simpa [pipeline] using hstages
  · rintro ⟨hfit, hstages⟩
    refine ⟨by simpa [pipeline] using hstages, fun c hc => ?_, fun path hp => ?_, fun target hp => ?_⟩
    · obtain ⟨t, ht, rfl⟩ := List.mem_map.mp hc
      exact (hfit t ht).1
    · obtain ⟨t, ht, hp⟩ := List.mem_flatMap.mp (List.mem_of_mem_head? hp)
      exact (hfit t ht).2.1 path hp
    · obtain ⟨t, ht, hp⟩ := List.mem_flatMap.mp (List.mem_of_mem_head? hp)
      exact (hfit t ht).2.2 target hp

/-- What a line that is admitted means fits. -/
theorem pipelines_fit {limits : Limits} {l : LineForm} (hl : l.Valid) (h : limits.Admits l.tokens) :
    ∀ p ∈ l.pipelines, p.Fits limits := by
  intro p hp
  obtain ⟨s, hs, rfl⟩ := List.mem_map.mp hp
  have hpiece : s.tokens ∈ l.tokens.splitOn (.operator .semicolon) :=
    (List.mem_filter.mp (splitOn_line l hl ▸ List.mem_map_of_mem hs)).1
  have hstages := h.stages _ hpiece
  rw [splitOn_statement, List.length_map] at hstages
  refine (StatementForm.pipeline_fits_iff (hl.statements s hs)).mpr ⟨fun t ht => stage_fits [] ?_, hstages⟩
  rw [List.append_nil]
  exact h.stage _ hpiece _ (splitOn_statement s ▸ List.mem_map_of_mem ht)

/-! ## What has been read of an admitted line fits -/

theorem not_mem_current (current : Option StageForm) (awaited : Option Awaited) {o : Operator}
    (ho : Role.after o = .argument) :
    Token.operator o ∉ current.elim [] StageForm.tokens ++ awaited.elim [] fun r => [Token.operator r.operator] := by
  intro h
  rcases List.mem_append.mp h with h | h
  · cases current with
    | none => cases h
    | some s => exact StageForm.not_mem_tokens ho h
  · cases awaited with
    | none => cases h
    | some r =>
      obtain rfl : o = r.operator := by simpa using h
      cases r <;> cases ho

/-- The word being read begins the word that it becomes. -/
theorem tokens_of_ne {run : String} (hr : run ≠ "") (ls : List Lexeme) :
    ∃ w ts, tokens run ls = .word w :: ts ∧ run.utf8ByteSize ≤ w.utf8ByteSize := by
  induction ls generalizing run with
  | nil => exact ⟨run, [], by rw [tokens, Token.ofRun, if_neg hr], Nat.le_refl _⟩
  | cons l ls ih =>
    cases l with
    | literal c =>
      obtain ⟨w, ts, hts, hle⟩ := ih (String.push_ne_empty : run.push c ≠ "")
      rw [String.utf8ByteSize_push] at hle
      exact ⟨w, ts, hts, Nat.le_trans (Nat.le_add_right _ _) hle⟩
    | blank => exact ⟨run, _, by rw [tokens, Token.ofRun, if_neg hr]; rfl, Nat.le_refl _⟩
    | operator o => exact ⟨run, _, by rw [tokens, Token.ofRun, if_neg hr]; rfl, Nat.le_refl _⟩

section

variable {limits : Limits} {a : Assembly} {run : String} {ts : List Token} {ds : List StatementForm} {ss : List StageForm}
  {current : Option StageForm} {ls : List Lexeme}

/-- The stages read of the current statement are admitted, and the one being read together with what follows it. -/
theorem admits_current (h : Spells a ts ds ss current) (hl : limits.Admits (ts ++ tokens run ls)) :
    ss.length < max 1 limits.maxStages ∧ (∀ s ∈ ss, limits.AdmitsStage s.tokens) ∧
      ∃ us, limits.AdmitsStage (current.elim [] StageForm.tokens ++
        ((a.awaited.elim [] fun r => [Token.operator r.operator]) ++ us)) ∧
        (run ≠ "" → ∃ w us', us = .word w :: us' ∧ run.utf8ByteSize ≤ w.utf8ByteSize) := by
  have hsemicolon : Token.operator .semicolon ∉ (ss.flatMap fun s => s.tokens ++ [.operator .pipe]) ++
      (current.elim [] StageForm.tokens ++ a.awaited.elim [] fun r => [Token.operator r.operator]) := fun hmem =>
    (List.mem_append.mp hmem).elim (not_mem_stages ss) (not_mem_current current a.awaited rfl)
  -- the piece of the line in which the word being read stands, and the piece of that piece
  obtain ⟨piece, pieces, hpiece, hline⟩ := splitOn_append hsemicolon (tokens run ls)
  have hpipe : Token.operator .pipe ∉ _ := not_mem_current current a.awaited rfl
  obtain ⟨stage, stages, hstage, hsplit⟩ := splitOn_append hpipe piece
  have hmem : ss.flatMap (fun s => s.tokens ++ [.operator .pipe]) ++
      (current.elim [] StageForm.tokens ++ a.awaited.elim [] fun r => [Token.operator r.operator]) ++ piece ∈
      (ts ++ tokens run ls).splitOn (.operator .semicolon) := by
    rw [h.tokens, List.append_assoc, splitOn_flatMap (fun d _ => not_mem_statement d), hline]
    exact List.mem_append_right _ List.mem_cons_self
  have hstages := hl.stages _ hmem
  have hall := hl.stage _ hmem
  rw [List.append_assoc, splitOn_flatMap (fun s _ => StageForm.not_mem_tokens rfl), hsplit] at hstages hall
  rw [List.length_append, List.length_map, List.length_cons] at hstages
  refine ⟨by omega, fun s hs => hall _ (List.mem_append_left _ (List.mem_map_of_mem hs)), stage, ?_, fun hr => ?_⟩
  · rw [← List.append_assoc]
    exact hall _ (List.mem_append_right _ List.mem_cons_self)
  · obtain ⟨w, us, hus, hle⟩ := tokens_of_ne hr ls
    rw [hus] at hpiece
    obtain ⟨ys, rfl⟩ := head_splitOn hpiece Token.noConfusion
    obtain ⟨zs, rfl⟩ := head_splitOn hstage Token.noConfusion
    exact ⟨w, zs, rfl, hle⟩

/-- A word that comes next is short enough for what it is. -/
theorem word_fits {w : String} {us : List Token} (h : Spells a ts ds ss current)
    (hus : limits.AdmitsStage (current.elim [] StageForm.tokens ++
      ((a.awaited.elim [] fun r => [Token.operator r.operator]) ++ .word w :: us))) :
    w.utf8ByteSize ≤ a.wordLimit limits := by
  have hwords := hus.words
  unfold Assembly.wordLimit
  cases current with
  | none =>
    have ha : a.awaited = none := Decidable.not_not.mp fun hn => h.awaited hn h.argv
    rw [ha] at hwords
    rw [if_pos ha]
    exact hwords (.argument, w) List.mem_cons_self
  | some s =>
    rw [Option.elim, StageForm.words_tokens] at hwords
    cases ha : a.awaited with
    | none =>
      rw [ha] at hwords
      exact hwords (.argument, w) (List.mem_append_right _ List.mem_cons_self)
    | some r =>
      rw [ha] at hwords
      refine hwords (.path, w) (List.mem_append_right _ ?_)
      cases r <;> exact List.mem_cons_self

/-- What has been assembled fits if the stages that it spells do. -/
theorem Spells.parts_fit (h : Spells a ts ds ss current) (hfit : ∀ s ∈ ss ++ current.toList, s.Fits limits) :
    (∀ c ∈ a.commands, c.Fits limits) ∧
      (a.argv.length ≤ limits.maxArgs ∧ ∀ w ∈ a.argv, w.utf8ByteSize ≤ limits.maxTokenLength) ∧
      (∀ path ∈ a.input, PathFits limits path) ∧ ∀ target ∈ a.output, PathFits limits target.path := by
  refine ⟨fun c hc => ?_, ?_, fun path hp => ?_, fun target ht => ?_⟩
  · rw [h.commands] at hc
    obtain ⟨s, hs, rfl⟩ := List.mem_map.mp hc
    exact (hfit s (List.mem_append_left _ hs)).1
  · rw [h.argv]
    cases current with
    | none => exact ⟨Nat.zero_le _, fun _ hw => nomatch hw⟩
    | some s => exact (hfit s (List.mem_append_right _ (by simp))).1
  · obtain ⟨s, hs, hp⟩ := List.mem_flatMap.mp (h.input ▸ Option.mem_toList.mpr hp)
    exact (hfit s hs).2.1 path hp
  · obtain ⟨s, hs, ht⟩ := List.mem_flatMap.mp (h.output ▸ Option.mem_toList.mpr ht)
    exact (hfit s hs).2.2 target ht

/-- What has been read of an admitted line fits, the beginning of a word included. -/
theorem cursor_fits (h : Spells a ts ds ss current) (hl : limits.Admits (ts ++ tokens run ls)) :
    (a.cursor run).Fits limits := by
  obtain ⟨hstages, hdone, us, hus, hrun⟩ := admits_current h hl
  have hfit : ∀ s ∈ ss ++ current.toList, s.Fits limits := by
    intro s hs
    rcases List.mem_append.mp hs with hs | hs
    · refine stage_fits [] ?_
      rw [List.append_nil]
      exact hdone s hs
    · obtain rfl : current = some s := by simpa using hs
      exact stage_fits _ hus
  obtain ⟨hcommands, hargv, hinput, houtput⟩ := h.parts_fit hfit
  have hlen : a.commands.length < max 1 limits.maxStages := by
    rwa [h.commands, List.length_map]
  have hword : run.utf8ByteSize ≤ a.wordLimit limits := by
    by_cases hr : run = ""
    · rw [hr]
      exact Nat.zero_le _
    · obtain ⟨w, us', rfl, hle⟩ := hrun hr
      exact Nat.le_trans hle (word_fits h hus)
  unfold Assembly.cursor
  unfold Assembly.wordLimit at hword
  split
  · rename_i ha
    rw [if_pos ha] at hword
    exact ⟨hlen, hcommands, hargv.1, hargv.2, hword, hinput, houtput⟩
  · rename_i ha
    rw [if_neg (by simp [ha])] at hword
    exact ⟨hlen, hcommands, hargv.1, hargv.2, Nat.zero_le _, fun path hp => Option.some.inj hp ▸ hword, houtput⟩
  · rename_i ha
    rw [if_neg (by simp [ha])] at hword
    exact ⟨hlen, hcommands, hargv.1, hargv.2, Nat.zero_le _, hinput, fun target ht => Option.some.inj ht ▸ hword⟩

end

end Line

end PipelineShell
