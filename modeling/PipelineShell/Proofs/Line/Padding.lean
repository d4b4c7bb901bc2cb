import PipelineShell.Proofs.Line.Completion

/-!
# Spaces around a line

A space in front of a line ends nothing, for nothing has been begun. A space behind it does early what the end of the line would do:
it ends a word, or a path that has been begun, and the end of the line then finds nothing left to end (`Scan.finish_of_step_blank`).
In an open quote it is one more character of a line that is refused for the quote, and in a statement that is skipped it is dropped.
Only a backslash at the end is answered by it: `\ ` is a space of a word. So spaces around a line change nothing, unless the line
was refused for its last backslash (`parseLine_padded_iff`).
-/

namespace PipelineShell

/-- So many spaces. -/
def spaces (n : Nat) : String := String.ofList (List.replicate n ' ')

/-- A line with spaces in front and behind. -/
def padded (front : Nat) (line : String) (back : Nat) : String := spaces front ++ line ++ spaces back

theorem spaces_succ (n : Nat) : spaces (n + 1) = spaces n ++ " " := by
  rw [spaces, List.replicate_succ', String.ofList_append]
  rfl

/-! ## Spaces in front -/

theorem ofChars_spaces (n : Nat) (cs : List Char) :
    Reading.ofChars false (List.replicate n ' ' ++ cs) =
      ⟨List.replicate n .blank ++ (Reading.ofChars false cs).lexemes, (Reading.ofChars false cs).ending⟩ := by
  induction n with
  | zero => rfl
  | succ n ih =>
    show (Reading.ofChars false (List.replicate n ' ' ++ cs)).cons .blank = _
    rw [ih]
    rfl

theorem ofLine_spaces_append (n : Nat) (line : String) :
    Reading.ofLine (spaces n ++ line) =
      ⟨List.replicate n .blank ++ (Reading.ofLine line).lexemes, (Reading.ofLine line).ending⟩ := by
  rw [Reading.ofLine, spaces, String.toList_append, String.toList_ofList]
  exact ofChars_spaces n line.toList

namespace Scan

variable {limits : Limits} {s t : Scan}

/-- Blanks at the start of a line leave the scan where it was. -/
theorem run_blanks_append (limits : Limits) (n : Nat) (ls : List Lexeme) :
    ({} : Scan).run limits (List.replicate n .blank ++ ls) = ({} : Scan).run limits ls := by
  induction n with
  | zero => rfl
  | succ n ih =>
    have hblank : ({} : Scan).step limits .blank = .ok {} := rfl
    rw [List.replicate_succ, List.cons_append, run, List.foldlM_cons, hblank]
    exact ih

/-! ## A space behind -/

theorem finishStatement_of_endToken {k : Cursor} (h : s.cursor.endToken limits = .ok k) :
    s.finishStatement limits = Scan.finishStatement limits { s with cursor := k } := by
  have hk : k.endToken limits = .ok k := by simp [Cursor.endToken, token_endToken h]
  simp only [finishStatement, endToken, h, hk]

/-- What the end of the line records does not depend on where literal characters would have gone. -/
theorem settle_finishStatement_place (place : Place) :
    (settle limits { s with place } (finishStatement limits { s with place })).map Scan.statements =
      (s.settle limits (s.finishStatement limits)).map Scan.statements := by
  unfold finishStatement endToken
  cases hk : s.cursor.endToken limits with
  | error e =>
    simp only [bind, Except.bind, settle, Except.map, discard_eq]
  | ok k =>
    simp only [bind, Except.bind]
    by_cases hblank : k.isBlank
    · simp only [hblank, if_true, settle, Except.map]
    · by_cases hargv : k.argv.isEmpty
      · simp only [hblank, hargv, if_true, Bool.false_eq_true, if_false, settle]
      · simp only [hblank, hargv, Bool.false_eq_true, if_false, settle, Except.map, complete_eq]

/-- A line in which no path is to be begun ends with its statement. -/
theorem finish_of_begun (hplace : s.place ≠ .skipping) (hbegun : s.awaitsPath = false) :
    s.finish limits .complete = (s.settle limits (s.finishStatement limits)).map Scan.statements := by
  rw [finish, if_neg hplace, dangling_eq_none hbegun]

/-- A blank is never refused, and the line ends behind it as it would have ended before it. -/
theorem finish_of_step_blank (limits : Limits) (s : Scan) :
    ∃ t, s.step limits .blank = .ok t ∧ t.finish limits .complete = s.finish limits .complete := by
  rw [step, take, blank]
  cases hplace : s.place with
  | argument =>
    have hlive : s.place ≠ .skipping := by simp [hplace]
    have hbegun : s.awaitsPath = false := by simp [awaitsPath, hplace]
    rw [finish_of_begun hlive hbegun]
    cases hk : s.cursor.endToken limits with
    | error e =>
      refine ⟨s.discard limits e, by simp only [endToken, hk, settle], ?_⟩
      rw [finish, if_pos (by rw [discard_eq])]
      simp only [finishStatement, endToken, hk, bind, Except.bind, settle, Except.map]
    | ok k =>
      refine ⟨{ s with cursor := k }, by simp only [endToken, hk, settle], ?_⟩
      rw [finish_of_begun (s := { s with cursor := k }) hlive (by simp [awaitsPath, hplace]), finishStatement_of_endToken hk]
      rcases Scan.finishStatement limits { s with cursor := k } with (e | e) | t
      · rfl
      · simp only [settle, Except.map, discard_eq]
      · rfl
  | outputPath | inputPath =>
    have hlive : s.place ≠ .skipping := by simp [hplace]
    cases hawaits : s.awaitsPath with
    | true => exact ⟨s, rfl, rfl⟩
    | false =>
      refine ⟨{ s with place := .argument }, rfl, ?_⟩
      rw [finish_of_begun hlive hawaits, finish_of_begun (s := { s with place := .argument }) (by simp) rfl]
      exact settle_finishStatement_place .argument
  | skipping => exact ⟨s, rfl, rfl⟩

/-- A literal is never refused. -/
theorem exists_step_literal (limits : Limits) (s : Scan) (c : Char) : ∃ t, s.step limits (.literal c) = .ok t := by
  cases hstep : s.step limits (.literal c) with
  | ok t => exact ⟨t, rfl⟩
  | error e =>
    obtain ⟨o, ho, -⟩ := eq_of_step_error hstep
    cases ho

theorem step_literal_of_skipping (h : s.place = .skipping) (c : Char) : s.step limits (.literal c) = .ok s := by
  simp only [step, take, literal, h, settle]
  rw [← h]

/-- Where the rest of a statement is skipped, a backslash at the end stands for nothing. -/
theorem finish_of_skipping (h : s.place = .skipping) (quoted : Bool) :
    s.finish limits (if quoted then .openQuote else .complete) = s.finish limits (.loneBackslash quoted) := by
  cases quoted <;> simp [finish, h]

end Scan

namespace Line

variable {line : String}

/-- A space behind a line is a blank outside quotes, and else a character. -/
theorem ofLine_concat_space (line : String) :
    Reading.ofLine (line ++ " ") =
      match (Reading.ofLine line).ending with
      | .complete => ⟨(Reading.ofLine line).lexemes ++ [.blank], .complete⟩
      | .openQuote => ⟨(Reading.ofLine line).lexemes ++ [.literal ' '], .openQuote⟩
      | .loneBackslash quoted =>
        ⟨(Reading.ofLine line).lexemes ++ [.literal ' '], if quoted then .openQuote else .complete⟩ := by
  rw [← Fragment.reading_ofText, ← Fragment.reading_ofText, Fragment.ofText_append]
  show ((Fragment.ofText line).take ' ').reading = _
  generalize Fragment.ofText line = f
  obtain ⟨ls, (_ | _) | (_ | _) | _⟩ := f <;> rfl

/-- Behind a space no backslash is alone. -/
theorem ending_concat_space (quoted : Bool) : (Reading.ofLine (line ++ " ")).ending ≠ .loneBackslash quoted := by
  rw [ofLine_concat_space]
  cases (Reading.ofLine line).ending with
  | complete | openQuote => exact nofun
  | loneBackslash inside => cases inside <;> exact nofun

end Line

open Line

variable {limits : Limits} {line : String}

/-- Only a line that ends with a backslash is refused for one. -/
theorem statements_ne_unexpectedBackslash {r : Reading} (h : ∀ quoted, r.ending ≠ .loneBackslash quoted) :
    r.statements limits ≠ .error .unexpectedBackslash := by
  intro hr
  unfold Reading.statements at hr
  cases hrun : ({} : Scan).run limits r.lexemes with
  | error e =>
    obtain ⟨o, rfl⟩ := Scan.exists_of_run_error hrun
    rw [hrun] at hr
    cases hr
  | ok s =>
    rw [hrun] at hr
    replace hr : s.finish limits r.ending = .error .unexpectedBackslash := hr
    cases hending : r.ending with
    | loneBackslash quoted => exact h quoted hending
    | openQuote =>
      rw [hending] at hr
      cases hr
    | complete =>
      rw [hending, Scan.finish] at hr
      split at hr
      · cases hr
      · split at hr
        · cases hr
        · simp only [Scan.finishStatement, Scan.endToken] at hr
          cases hk : s.cursor.endToken limits with
          | error e =>
            rw [hk] at hr
            cases hr
          | ok k =>
            simp only [hk, bind, Except.bind] at hr
            split at hr
            · cases hr
            · split at hr <;> cases hr

/-- One space behind a line changes nothing of what is made of its reading, unless it answers a backslash. -/
theorem statements_concat_space (h : (Reading.ofLine line).statements limits ≠ .error .unexpectedBackslash) :
    (Reading.ofLine (line ++ " ")).statements limits = (Reading.ofLine line).statements limits := by
  rw [ofLine_concat_space]
  unfold Reading.statements at h ⊢
  cases hrun : ({} : Scan).run limits (Reading.ofLine line).lexemes with
  | error e =>
    -- the line is refused before its end
    have hmore (l : Lexeme) : ({} : Scan).run limits ((Reading.ofLine line).lexemes ++ [l]) = .error e :=
      Scan.run_of_prefix (List.prefix_append _ _) hrun
    cases (Reading.ofLine line).ending <;> exact congrArg (· >>= _) (hmore _)
  | ok s =>
    rw [hrun] at h
    obtain ⟨t, hblank, hfinish⟩ := Scan.finish_of_step_blank limits s
    obtain ⟨u, hliteral⟩ := Scan.exists_step_literal limits s ' '
    cases hending : (Reading.ofLine line).ending with
    | complete =>
      simp only [Scan.run_concat_of_ok hrun, hblank]
      exact hfinish
    | openQuote =>
      simp only [Scan.run_concat_of_ok hrun, hliteral]
      rfl
    | loneBackslash quoted =>
      have hskipping : s.place = .skipping := by
        rw [hending] at h
        exact Decidable.not_not.mp fun hplace => h (if_pos hplace)
      simp only [Scan.run_concat_of_ok hrun, Scan.step_literal_of_skipping hskipping]
      exact Scan.finish_of_skipping hskipping quoted

theorem statements_append_spaces (back : Nat) (h : (Reading.ofLine line).statements limits ≠ .error .unexpectedBackslash) :
    (Reading.ofLine (line ++ spaces back)).statements limits = (Reading.ofLine line).statements limits := by
  induction back with
  | zero => rw [spaces, List.replicate_zero, String.ofList_nil, String.append_empty]
  | succ back ih =>
    rw [spaces_succ, ← String.append_assoc, statements_concat_space (by rwa [ih]), ih]

theorem statements_spaces_append (front : Nat) (line : String) :
    (Reading.ofLine (spaces front ++ line)).statements limits = (Reading.ofLine line).statements limits := by
  rw [ofLine_spaces_append, Reading.statements, Scan.run_blanks_append]
  rfl

/-- Spaces around a line that leave it short enough change nothing of what is made of it, statements and reports alike, but for one
case: spaces behind a line that is refused for the backslash at its end. There they always do. -/
theorem parseLine_padded_iff {front back : Nat} (hsize : (padded front line back).utf8ByteSize ≤ limits.maxLineLength) :
    parseLine limits (padded front line back) = parseLine limits line ↔
      back = 0 ∨ parseLine limits line ≠ .error .unexpectedBackslash := by
  have hline : line.utf8ByteSize ≤ limits.maxLineLength := by
    rw [padded, String.utf8ByteSize_append, String.utf8ByteSize_append] at hsize
    omega
  have hparse : parseLine limits line = (Reading.ofLine line).statements limits := if_neg (by omega)
  have hpadded : parseLine limits (padded front line back) = (Reading.ofLine (line ++ spaces back)).statements limits := by
    rw [parseLine, if_neg (by omega), padded, String.append_assoc, statements_spaces_append]
  rw [hparse, hpadded]
  constructor
  · intro heq
    cases back with
    | zero => exact .inl rfl
    | succ back =>
      right
      rw [← heq, spaces_succ, ← String.append_assoc]
      exact statements_ne_unexpectedBackslash ending_concat_space
  · rintro (rfl | hkept)
    · exact congrArg (fun text => (Reading.ofLine text).statements limits) (String.append_empty)
    · exact statements_append_spaces back hkept

/-- One word a stage. -/
def oneWord : Limits := { maxArgs := 1 }

/-- The word that is one too many is set aside at the space behind it as it is at the end of the line, and a backslash at the end is
answered by the space. -/
theorem parseLine_padded_iff_word :
    parseLine oneWord (padded 2 "a b" 1) = parseLine oneWord "a b" ∧
      parseLine oneWord "a b" = .ok [.discarded (.tooManyArguments "a")] ∧
      parseLine oneWord (padded 0 "a\\" 1) ≠ parseLine oneWord "a\\" := by
  have hword : parseLine oneWord "a b" = .ok [.discarded (.tooManyArguments "a")] := by rfl
  have hback : parseLine oneWord "a\\" = .error .unexpectedBackslash := by rfl
  refine ⟨(parseLine_padded_iff (by decide)).mpr (.inr ?_), hword, ?_⟩
  · rw [hword]
    exact nofun
  · rw [ne_eq, parseLine_padded_iff (by decide), hback]
    simp

end PipelineShell
