import Mathlib.Logic.Basic
import PipelineShell.Proofs.Line.Fragment
import PipelineShell.Proofs.Line.Joining

/-!
# Lines that are past repair

Of a line of which only a part has been typed, either something can still be typed that makes it acceptable, or the scan has met an
operator that it cannot take, and then nothing helps and the report is of that operator whatever comes (`completable_xor_pastRepair`).
So a line is refused at the first character that leaves no way to complete it. One letter is enough to complete it, and a quote
behind it where one is open.
-/

namespace PipelineShell

/-- Something can be typed behind a text, as long as the line may be, with which it is accepted. -/
def Limits.Completable (limits : Limits) (text : String) : Prop :=
  ∃ more sts, (text ++ more).utf8ByteSize ≤ limits.maxLineLength ∧ parseLine limits (text ++ more) = .ok sts

/-- The last character of a text is a `>`, and without it the text could be completed. -/
def Limits.EndsWithAngle (limits : Limits) (text : String) : Prop := ∃ before, text = before ++ ">" ∧ limits.Completable before

/-- Whatever is typed behind a text, as long as the line may be, it is refused for one operator. If this is a `>` with which the text
ends, it is reported together with a `>` behind it. -/
structure Limits.PastRepair (limits : Limits) (text : String) (o : Operator) : Prop where
  refused (more : String) : (text ++ more).utf8ByteSize ≤ limits.maxLineLength →
    ¬ (limits.EndsWithAngle text ∧ more.toList.head? = some '>') →
    parseLine limits (text ++ more) = .error (.unexpectedOperator o)
  joined (more : String) : (text ++ more).utf8ByteSize ≤ limits.maxLineLength →
    limits.EndsWithAngle text → more.toList.head? = some '>' →
    o = .output .truncate ∧ parseLine limits (text ++ more) = .error (.unexpectedOperator (.output .append))

namespace Scan

variable {limits : Limits} {s t : Scan} {l : Lexeme} {e : SyntaxError} {ls ms : List Lexeme}

/-! ## What a scan refuses -/

theorem eq_of_operate_syntaxError {o : Operator} (h : s.operate limits o = .error (.syntaxError e)) : e = .unexpectedOperator o := by
  cases hk : s.cursor.endToken limits with
  | error err =>
    rw [operate_of_error hk] at h
    split at h <;> cases h
  | ok k =>
    have htoken := token_endToken hk
    rw [operate_of_ok o hk] at h
    cases o with
    | pipe =>
      rw [operate_pipe htoken] at h
      split at h
      · cases h
        rfl
      · split at h <;> cases h
    | input =>
      rw [operate_input htoken] at h
      split at h <;> cases h
      rfl
    | output mode =>
      rw [operate_output htoken] at h
      split at h <;> cases h
      rfl
    | semicolon =>
      rw [operate_semicolon htoken] at h
      split at h <;> cases h
      rfl

/-- Only an operator is refused, and it is what the report names. -/
theorem eq_of_step_error (h : s.step limits l = .error e) : ∃ o, l = .operator o ∧ e = .unexpectedOperator o := by
  have htake : s.take limits l = .error (.syntaxError e) := by
    unfold step at h
    rcases hr : s.take limits l with (err | err) | next <;> rw [hr] at h <;> cases h
    rfl
  cases l with
  | literal c =>
    simp only [take, literal] at htake
    split at htake <;> cases htake
  | blank =>
    simp only [take, blank, endToken] at htake
    split at htake
    · split at htake <;> cases htake
    · cases htake
    · cases htake
    · cases htake
  | operator o =>
    refine ⟨o, rfl, ?_⟩
    rw [take, operator] at htake
    split at htake
    · cases htake
    · split at htake
      · cases htake
        rfl
      · exact eq_of_operate_syntaxError htake

theorem exists_of_run_error (h : s.run limits ls = .error e) : ∃ o, e = .unexpectedOperator o := by
  induction ls generalizing s with
  | nil => cases h
  | cons l ls ih =>
    rw [run, List.foldlM_cons] at h
    cases hl : s.step limits l with
    | error err =>
      rw [hl] at h
      cases h
      obtain ⟨o, -, ho⟩ := eq_of_step_error hl
      exact ⟨o, ho⟩
    | ok next =>
      rw [hl] at h
      exact ih h

/-- A scan that has refused its lexemes reads no further. -/
theorem run_of_prefix (hpre : ls <+: ms) (h : s.run limits ls = .error e) : s.run limits ms = .error e := by
  obtain ⟨rest, rfl⟩ := hpre
  rw [run_append, h]
  rfl

/-- Where one of `>` and `>>` is refused, so is the other. -/
theorem step_output_of_error {mode : OutputMode} (h : s.step limits (.operator (.output mode)) = .error e) (other : OutputMode) :
    s.step limits (.operator (.output other)) = .error (.unexpectedOperator (.output other)) := by
  rw [step, take, operator] at h ⊢
  split at h
  · cases h
  · rename_i hplace
    rw [if_neg hplace]
    split at h
    · rename_i hawaits
      rw [if_pos hawaits]
      rfl
    · rename_i hbegun
      rw [if_neg hbegun]
      cases hk : s.cursor.endToken limits with
      | error err =>
        rw [operate_of_error (s := { s with place := .argument }) hk, if_neg Operator.noConfusion] at h
        cases h
      | ok k =>
        have htoken := token_endToken hk
        rw [operate_of_ok (s := { s with place := .argument }) _ hk, operate_output htoken] at h ⊢
        split at h
        · rename_i hrefused
          rw [if_pos hrefused]
          rfl
        · cases h

theorem run_singleton (s : Scan) (l : Lexeme) : s.run limits [l] = s.step limits l := bind_pure (s.step limits l)

theorem run_concat_of_ok (hls : s.run limits ls = .ok t) (l : Lexeme) : s.run limits (ls ++ [l]) = t.step limits l := by
  rw [run_append, hls]
  exact run_singleton t l

/-! ## What a scan can be brought to an end with -/

/-- A path is asked for only behind a word. -/
def AsksBehindWord (s : Scan) : Prop := s.place = .outputPath ∨ s.place = .inputPath → s.cursor.argv ≠ []

theorem AsksBehindWord.step (h : s.AsksBehindWord) (he : Effect limits s l t) : t.AsksBehindWord := by
  have hargument {sts : List Statement} {k : Cursor} : AsksBehindWord ⟨.argument, k, sts⟩ := by
    rintro (hplace | hplace) <;> cases hplace
  cases he with
  | skipped hplace hl => exact h
  | setAside e hplace =>
    rw [discard_eq]
    rintro (hplace | hplace) <;> cases hplace
  | tokenGrown c hplace hsize => exact h
  | outputGrown c target hplace htarget hsize => exact h
  | inputGrown c path hplace hpath hsize => exact h
  | wordEnded hplace hend =>
    rintro (hpath | hpath)
    · exact absurd (hplace.symm.trans hpath) (by decide)
    · exact absurd (hplace.symm.trans hpath) (by decide)
  | awaited hawaits => exact h
  | completed hlive hargv =>
    rw [complete_eq]
    exact hargument
  | resumed hplace => exact hargument
  | setAsideWhole e hplace => exact hargument
  | pathEnded hplace hbegun => exact hargument
  | piped hlive hargv houtput hstages => exact hargument
  | inputAsked hlive hargv hcommands hinput => exact fun _ => hargv
  | outputAsked mode hlive hargv houtput => exact fun _ => hargv

/-- A line can end where the stage has a word and no path is still to be begun. -/
theorem exists_finish (hbegun : t.awaitsPath = false) (hword : t.cursor.argv ≠ [] ∨ t.cursor.token ≠ "") :
    ∃ sts, t.finish limits .complete = .ok sts := by
  by_cases hplace : t.place = .skipping
  · exact ⟨_, by rw [finish, if_pos hplace]⟩
  · rw [finish, if_neg hplace, dangling_eq_none hbegun, finishStatement, endToken]
    cases hk : t.cursor.endToken limits with
    | error e => exact ⟨_, rfl⟩
    | ok k =>
      have hargv : k.argv ≠ [] := by
        cases Cursor.wordEnd_of_endToken hk with
        | none htoken => exact hword.resolve_right (not_not_intro htoken)
        | word htoken hargs => exact List.append_ne_nil_of_right_ne_nil _ (List.cons_ne_nil _ _)
      refine ⟨({ t with cursor := k }.complete limits).statements, ?_⟩
      simp only [bind, Except.bind]
      rw [if_neg (by simp [Cursor.isBlank, hargv]), if_neg (by simp [hargv])]
      rfl

/-- A letter makes a word or a path where one is missing, so the line may end behind it. -/
theorem exists_finish_of_literal (h : s.AsksBehindWord) (c : Char) :
    ∃ t sts, s.step limits (.literal c) = .ok t ∧ t.finish limits .complete = .ok sts := by
  cases hstep : s.step limits (.literal c) with
  | error e =>
    obtain ⟨o, ho, -⟩ := eq_of_step_error hstep
    cases ho
  | ok t =>
    have hpush (text : String) : text.push c ≠ "" := by simp
    have hasks := h.step (effect_of_step hstep)
    suffices hfinish : ∃ sts, t.finish limits .complete = .ok sts by
      obtain ⟨sts, hsts⟩ := hfinish
      exact ⟨t, sts, rfl, hsts⟩
    cases effect_of_step hstep with
    | skipped hplace hl => exact ⟨_, by rw [finish, if_pos hplace]⟩
    | setAside e hplace => exact ⟨_, by rw [discard_eq, finish, if_pos rfl]⟩
    | tokenGrown c hplace hsize => exact exists_finish (by simp [awaitsPath, hplace]) (.inr (hpush _))
    | outputGrown c target hplace htarget hsize =>
      exact exists_finish (by simp [awaitsPath, hplace, Cursor.outputStarted]) (.inl (hasks (.inl hplace)))
    | inputGrown c path hplace hpath hsize =>
      exact exists_finish (by simp [awaitsPath, hplace, Cursor.inputStarted]) (.inl (hasks (.inr hplace)))

end Scan

namespace Line

/-- A letter, and a quote behind it where one is open. -/
def Fragment.closing (f : Fragment) : List Char :=
  match f.mode with
  | .text true | .escape true => ['x', '"']
  | _ => ['x']

/-- The letter is the last lexeme, and nothing is left open. -/
theorem Fragment.reading_closing (f : Fragment) :
    (f.takeAll f.closing).reading = ⟨f.reading.lexemes ++ [.literal 'x'], .complete⟩ := by
  obtain ⟨ls, (_ | _) | (_ | _) | _⟩ := f <;> rfl

theorem Fragment.size_closing (f : Fragment) : (String.ofList f.closing).utf8ByteSize ≤ 2 := by
  unfold closing
  split <;> decide

end Line

open Line

variable {limits : Limits} {text more : String} {e : SyntaxError} {s : Scan} {o : Operator}

/-! ## What follows a text -/

/-- A text can be completed as long as the scan has refused nothing of it. -/
theorem completable_of_run (hroom : text.utf8ByteSize + 2 ≤ limits.maxLineLength)
    (hrun : ({} : Scan).run limits (Reading.ofLine text).lexemes = .ok s) : limits.Completable text := by
  have hempty : ({} : Scan).AsksBehindWord := by rintro (hplace | hplace) <;> cases hplace
  have hasks : s.AsksBehindWord := Scan.run_induction (fun h he => h.step he) hempty hrun
  obtain ⟨t, sts, hstep, hfinish⟩ :
      ∃ t sts, s.step limits (.literal 'x') = .ok t ∧ t.finish limits .complete = .ok sts :=
    Scan.exists_finish_of_literal hasks 'x'
  have hsize : (text ++ String.ofList (Fragment.ofText text).closing).utf8ByteSize ≤ limits.maxLineLength := by
    have := (Fragment.ofText text).size_closing
    rw [String.utf8ByteSize_append]
    omega
  refine ⟨_, sts, hsize, ?_⟩
  rw [parseLine, if_neg (Nat.not_lt_of_le hsize), ← Fragment.reading_ofText, Fragment.ofText_append, String.toList_ofList,
    Fragment.reading_closing, Fragment.reading_ofText, Reading.statements, Scan.run_concat_of_ok hrun, hstep]
  exact hfinish

/-- What the scan has refused before the end of a line is what the line is refused for. -/
theorem parseLine_of_prefix {line : String} {ls : List Lexeme} (hsize : line.utf8ByteSize ≤ limits.maxLineLength)
    (hpre : ls <+: (Reading.ofLine line).lexemes) (hrun : ({} : Scan).run limits ls = .error e) :
    parseLine limits line = .error e := by
  rw [parseLine, if_neg (Nat.not_lt_of_le hsize), Reading.statements, Scan.run_of_prefix hpre hrun]
  rfl

/-- Nothing typed behind a text changes what has been refused of its settled part. -/
theorem parseLine_append_of_settled (hsize : (text ++ more).utf8ByteSize ≤ limits.maxLineLength)
    (hrun : ({} : Scan).run limits (Fragment.ofText text).settled = .error e) : parseLine limits (text ++ more) = .error e := by
  refine parseLine_of_prefix hsize ?_ hrun
  rw [← Fragment.reading_ofText, Fragment.ofText_append]
  exact Fragment.settled_prefix _ _

/-- A `>` at the end that is refused is refused as a `>>` if another one follows. -/
theorem parseLine_append_of_angle (hsize : (text ++ more).utf8ByteSize ≤ limits.maxLineLength)
    (hmode : (Fragment.ofText text).mode = .angle) (hrun : ({} : Scan).run limits (Fragment.ofText text).settled = .ok s)
    (hstep : s.step limits (.operator (.output .truncate)) = .error e) :
    parseLine limits (text ++ more) =
      .error (.unexpectedOperator (.output (if more.toList.head? = some '>' then .append else .truncate))) := by
  have hrefused (mode : OutputMode) : ({} : Scan).run limits ((Fragment.ofText text).settled ++ [.operator (.output mode)]) =
      .error (.unexpectedOperator (.output mode)) :=
    (Scan.run_concat_of_ok hrun _).trans (Scan.step_output_of_error hstep mode)
  refine parseLine_of_prefix hsize ?_ (hrefused _)
  rw [← Fragment.reading_ofText, Fragment.ofText_append]
  revert hmode
  generalize Fragment.ofText text = f
  obtain ⟨ls, mode⟩ := f
  rintro rfl
  cases hmore : more.toList with
  | nil => exact List.prefix_rfl
  | cons c cs =>
    rw [Fragment.takeAll_cons]
    refine .trans ?_ (Fragment.settled_prefix _ _)
    by_cases hc : c = '>'
    · subst hc
      exact List.prefix_rfl
    · rw [List.head?_cons, if_neg (fun h => hc (Option.some.inj h)), Fragment.take_angle ls hc]
      exact Fragment.settled_prefix_take ⟨ls ++ [.operator (.output .truncate)], .text false⟩ c

/-- What is refused of a text is refused of its settled part, or it is a `>` at its end. -/
theorem settled_or_angle (h : ({} : Scan).run limits (Reading.ofLine text).lexemes = .error e) :
    ({} : Scan).run limits (Fragment.ofText text).settled = .error e ∨
      (Fragment.ofText text).mode = .angle ∧ ∃ s, ({} : Scan).run limits (Fragment.ofText text).settled = .ok s ∧
        s.step limits (.operator (.output .truncate)) = .error e := by
  rw [← Fragment.reading_ofText] at h
  generalize Fragment.ofText text = f at h
  obtain ⟨ls, quoted | quoted | _⟩ := f
  · exact .inl h
  · exact .inl h
  · cases hs : ({} : Scan).run limits ls with
    | error err =>
      have herr := Scan.run_of_prefix (List.prefix_append ls [.operator (.output .truncate)]) hs
      exact .inl (herr.symm.trans h)
    | ok s => exact .inr ⟨rfl, s, rfl, (Scan.run_concat_of_ok hs _).symm.trans h⟩

theorem run_of_completable (h : limits.Completable text) :
    ∃ s, ({} : Scan).run limits (Reading.ofLine text).lexemes = .ok s := by
  obtain ⟨more, sts, hsize, hparse⟩ := h
  cases hrun : ({} : Scan).run limits (Reading.ofLine text).lexemes with
  | ok s => exact ⟨s, rfl⟩
  | error e =>
    obtain hsettled | ⟨hmode, s, hs, hstep⟩ := settled_or_angle hrun
    · cases (parseLine_append_of_settled hsize hsettled).symm.trans hparse
    · cases (parseLine_append_of_angle hsize hmode hs hstep).symm.trans hparse

/-- Of what could be completed before its last character, a `>`, nothing settled is refused. -/
theorem run_settled_of_endsWithAngle (h : limits.EndsWithAngle text) :
    ∃ s, ({} : Scan).run limits (Fragment.ofText text).settled = .ok s := by
  obtain ⟨before, rfl, hbefore⟩ := h
  obtain ⟨s, hs⟩ := run_of_completable hbefore
  rw [← Fragment.reading_ofText] at hs
  rw [Fragment.ofText_append]
  show ∃ s, ({} : Scan).run limits ((Fragment.ofText before).take '>').settled = .ok s
  generalize Fragment.ofText before = f at hs ⊢
  -- a literal is never refused, and a `>>` only where the `>` was
  have hliteral (ls : List Lexeme) (hls : ({} : Scan).run limits ls = .ok s) :
      ∃ t, ({} : Scan).run limits (ls ++ [.literal '>']) = .ok t := by
    rw [Scan.run_concat_of_ok hls]
    cases hstep : s.step limits (.literal '>') with
    | ok t => exact ⟨t, rfl⟩
    | error e =>
      obtain ⟨o, ho, -⟩ := Scan.eq_of_step_error hstep
      cases ho
  obtain ⟨ls, (_ | _) | quoted | _⟩ := f
  · exact ⟨s, hs⟩
  · exact hliteral ls hs
  · exact hliteral ls hs
  · obtain ⟨t, ht, hstep⟩ := Scan.run_concat hs
    show ∃ s, ({} : Scan).run limits (ls ++ [.operator (.output .append)]) = .ok s
    rw [Scan.run_concat_of_ok ht]
    cases happend : t.step limits (.operator (.output .append)) with
    | ok u => exact ⟨u, rfl⟩
    | error e => cases (Scan.step_output_of_error happend .truncate).symm.trans hstep

/-- Once the scan has refused something of a text, no continuation helps. -/
theorem exists_pastRepair (hroom : text.utf8ByteSize + 2 ≤ limits.maxLineLength)
    (h : ({} : Scan).run limits (Reading.ofLine text).lexemes = .error e) : ∃ o, limits.PastRepair text o := by
  obtain hsettled | ⟨hmode, s, hs, hstep⟩ := settled_or_angle h
  · obtain ⟨o, rfl⟩ := Scan.exists_of_run_error hsettled
    refine ⟨o, fun more hsize _ => parseLine_append_of_settled hsize hsettled, fun more hsize hends _ => ?_⟩
    obtain ⟨s, hs⟩ := run_settled_of_endsWithAngle hends
    cases hs.symm.trans hsettled
  · have hends : limits.EndsWithAngle text := by
      obtain ⟨before, rfl, hsettled⟩ := Fragment.exists_of_mode_angle hmode
      rw [hsettled, Fragment.reading_ofText] at hs
      refine ⟨before, rfl, completable_of_run ?_ hs⟩
      rw [String.utf8ByteSize_append] at hroom
      omega
    refine ⟨.output .truncate, fun more hsize hnot => ?_, fun more hsize _ hmore => ⟨rfl, ?_⟩⟩
    · rw [parseLine_append_of_angle hsize hmode hs hstep, if_neg fun hmore => hnot ⟨hends, hmore⟩]
    · rw [parseLine_append_of_angle hsize hmode hs hstep, if_pos hmore]

/-- Either something can be typed behind a text with which it is accepted, or whatever is typed it is refused for one and the same
operator, where a `>` with which it ends is reported together with a `>` behind it. -/
theorem completable_xor_pastRepair (hroom : text.utf8ByteSize + 2 ≤ limits.maxLineLength) :
    Xor (limits.Completable text) (∃ o, limits.PastRepair text o) := by
  cases hrun : ({} : Scan).run limits (Reading.ofLine text).lexemes with
  | error e =>
    refine .inr ⟨exists_pastRepair hroom hrun, fun hcompletable => ?_⟩
    obtain ⟨s, hs⟩ := run_of_completable hcompletable
    cases hs.symm.trans hrun
  | ok s =>
    have hcompletable := completable_of_run hroom hrun
    refine .inl ⟨hcompletable, fun ⟨o, ho⟩ => ?_⟩
    obtain ⟨more, sts, hsize, hparse⟩ := hcompletable
    by_cases hjoined : limits.EndsWithAngle text ∧ more.toList.head? = some '>'
    · cases (ho.joined more hsize hjoined.1 hjoined.2).2.symm.trans hparse
    · cases (ho.refused more hsize hjoined).symm.trans hparse

/-- Room for six bytes. -/
def sixBytes : Limits := { maxLineLength := 6 }

/-- The second `>` of a statement is past repair as soon as it is there, and is reported as it goes on. -/
theorem completable_xor_pastRepair_second_output :
    "a>b>".utf8ByteSize + 2 ≤ sixBytes.maxLineLength ∧ sixBytes.PastRepair "a>b>" (.output .truncate) ∧
      parseLine sixBytes ("a>b>" ++ "c") = .error (.unexpectedOperator (.output .truncate)) ∧
      parseLine sixBytes ("a>b>" ++ ">") = .error (.unexpectedOperator (.output .append)) := by
  have hroom : "a>b>".utf8ByteSize + 2 ≤ sixBytes.maxLineLength := by decide
  have hends : sixBytes.EndsWithAngle "a>b>" :=
    ⟨"a>b", rfl, "", [.ready ⟨[⟨"a", []⟩], none, some ⟨"b", .truncate⟩⟩], by decide, by rfl⟩
  rcases completable_xor_pastRepair hroom with ⟨hcompletable, -⟩ | ⟨⟨o, ho⟩, -⟩
  · obtain ⟨s, hs⟩ := run_of_completable hcompletable
    have hrefused : ({} : Scan).run sixBytes (Reading.ofLine "a>b>").lexemes =
        .error (.unexpectedOperator (.output .truncate)) := by rfl
    cases hs.symm.trans hrefused
  · obtain ⟨rfl, hjoined⟩ := ho.joined ">" (by decide) hends rfl
    exact ⟨hroom, ho, ho.refused "c" (by decide) fun h => absurd h.2 (by decide), hjoined⟩

end PipelineShell
