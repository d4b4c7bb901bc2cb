import PipelineShell.Proofs.Line.Reading
import PipelineShell.Proofs.Line.Verdicts

/-!
# Statements are read in isolation

Nothing of a statement is left where its `;` has been taken but what has been recorded. So a scan goes on behind a `;` as it would
from the start of a line, with the statements before it in front of its own (`Scan.run_behind`): only the limit on statements
counts them all. `parseLine_append_semicolon` says the same of whole lines.
-/

namespace PipelineShell

/-- The limit on statements, applied to the statements of a line: of those past it only the places are kept. -/
def Limits.cap (limits : Limits) (sts : List Statement) : List Statement :=
  sts.mapIdx fun i st => if limits.maxStatements ≤ i then .discarded .tooManyStatements else st

namespace Limits

theorem cap_concat (limits : Limits) (sts : List Statement) (st : Statement) :
    limits.cap (sts ++ [st]) =
      limits.cap sts ++ [if limits.maxStatements ≤ sts.length then .discarded .tooManyStatements else st] := by
  simp [cap, List.mapIdx_append]

@[simp] theorem length_cap (limits : Limits) (sts : List Statement) : (limits.cap sts).length = sts.length := by
  simp [cap]

end Limits

namespace Line

variable {quoted inside : Bool} {cs ds : List Char} {ls ms : List Lexeme} {ending e : Ending}

/-- What follows a reading that ends outside or inside quotes is read on from there, if no `>` comes next. -/
theorem Reads.concat (h : Reads quoted cs ls ending) (hd : Reads inside ds ms e)
    (hend : ending = if inside then .openQuote else .complete) (hg : ds.head? ≠ some '>') :
    Reads quoted (cs ++ ds) (ls ++ ms) e := by
  induction h with
  | finished =>
    cases inside with
    | false => exact hd
    | true => nomatch hend
  | unclosed =>
    cases inside with
    | false => nomatch hend
    | true => exact hd
  | alone => cases inside <;> nomatch hend
  | escaped c _ ih => exact .escaped c (ih hend)
  | quote _ ih => exact .quote (ih hend)
  | inside hb hq _ ih => exact .inside hb hq (ih hend)
  | blank _ ih => exact .blank (ih hend)
  | pipe _ ih => exact .pipe (ih hend)
  | input _ ih => exact .input (ih hend)
  | semicolon _ ih => exact .semicolon (ih hend)
  | append _ ih => exact .append (ih hend)
  | @truncate cs _ _ hcs _ ih =>
    refine .truncate ?_ (ih hend)
    cases cs with
    | nil => exact hg
    | cons c cs => exact hcs
  | plain hc _ ih => exact .plain hc (ih hend)

end Line

namespace Scan

variable {limits : Limits} {s t : Scan} {before : List Statement}

/-- The scan with the statements of what stands before in the line in front of its own. -/
def behind (limits : Limits) (before : List Statement) (s : Scan) : Scan :=
  { s with statements := limits.cap (before ++ s.statements) }

@[simp] theorem place_behind (limits : Limits) (before : List Statement) (s : Scan) :
    (s.behind limits before).place = s.place := rfl

@[simp] theorem cursor_behind (limits : Limits) (before : List Statement) (s : Scan) :
    (s.behind limits before).cursor = s.cursor := rfl

/-- A statement is recorded behind those before it as it is without them, or is one too many for being behind them. -/
theorem cap_recorded (limits : Limits) (before sts : List Statement) (st : Statement) :
    limits.cap (before ++ (sts ++ [if limits.maxStatements ≤ sts.length then .discarded .tooManyStatements else st])) =
      limits.cap (before ++ sts) ++
        [if limits.maxStatements ≤ (limits.cap (before ++ sts)).length then .discarded .tooManyStatements else st] := by
  rw [← List.append_assoc, Limits.cap_concat, Limits.length_cap, List.length_append]
  congr 2
  split
  · rfl
  · rename_i h
    rw [if_neg (by omega)]

theorem discard_behind (e : LimitError) :
    (s.behind limits before).discard limits e = (s.discard limits e).behind limits before := by
  have h := cap_recorded limits before s.statements (.discarded e)
  simp only [← apply_ite Statement.discarded] at h
  rw [discard_eq, discard_eq]
  exact congrArg (Scan.mk .skipping {}) h.symm

theorem complete_behind : (s.behind limits before).complete limits = (s.complete limits).behind limits before := by
  have h := cap_recorded limits before s.statements (.ready s.cursor.pipeline)
  rw [complete_eq, complete_eq]
  exact congrArg (Scan.mk .argument {}) h.symm

theorem literal_behind (c : Char) :
    (s.behind limits before).literal limits c = (s.literal limits c).map (behind limits before) := by
  simp only [literal, place_behind, cursor_behind]
  split <;> rfl

theorem endToken_behind : (s.behind limits before).endToken limits = (s.endToken limits).map (behind limits before) := by
  simp only [endToken, cursor_behind]
  split <;> rfl

theorem blank_behind : (s.behind limits before).blank limits = (s.blank limits).map (behind limits before) := by
  unfold blank
  rw [place_behind]
  cases s.place with
  | argument => exact endToken_behind
  | outputPath | inputPath =>
    show Except.ok (if s.awaitsPath then _ else _) = Except.ok (behind limits before (if s.awaitsPath then _ else _))
    split <;> rfl
  | skipping => rfl

theorem operate_behind (o : Operator) :
    (s.behind limits before).operate limits o = (s.operate limits o).map (behind limits before) := by
  cases hk : s.cursor.endToken limits with
  | error e =>
    have hk' : (s.behind limits before).cursor.endToken limits = .error e := hk
    rw [operate_of_error hk, operate_of_error hk', discard_behind]
    split <;> rfl
  | ok k =>
    have ht := token_endToken hk
    have hk' : (s.behind limits before).cursor.endToken limits = .ok k := hk
    rw [operate_of_ok o hk, operate_of_ok o hk']
    cases o with
    | pipe =>
      rw [operate_pipe ht, operate_pipe ht]
      dsimp only
      split
      · rfl
      · split <;> rfl
    | input =>
      rw [operate_input ht, operate_input ht]
      dsimp only
      split <;> rfl
    | output mode =>
      rw [operate_output ht, operate_output ht]
      dsimp only
      split <;> rfl
    | semicolon =>
      rw [operate_semicolon ht, operate_semicolon ht]
      dsimp only
      split
      · rfl
      · exact congrArg Except.ok (complete_behind (s := { s with cursor := k }))

theorem operator_behind (o : Operator) :
    (s.behind limits before).operator limits o = (s.operator limits o).map (behind limits before) := by
  unfold operator
  rw [place_behind, show (s.behind limits before).awaitsPath = s.awaitsPath from rfl]
  split
  · split <;> rfl
  · split
    · rfl
    · exact operate_behind (s := { s with place := .argument }) o

/-- A lexeme is taken behind other statements as it is without them. -/
theorem step_behind (l : Lexeme) :
    (s.behind limits before).step limits l = (s.step limits l).map (behind limits before) := by
  have htake : (s.behind limits before).take limits l = (s.take limits l).map (behind limits before) := by
    cases l with
    | literal c => exact literal_behind c
    | blank => exact blank_behind
    | operator o => exact operator_behind o
  rw [step, step, htake]
  rcases s.take limits l with (e | e) | t
  · rfl
  · exact congrArg Except.ok (discard_behind e)
  · rfl

/-- The rest of a line is read behind other statements as it is without them. -/
theorem run_behind (ls : List Lexeme) :
    (s.behind limits before).run limits ls = (s.run limits ls).map (behind limits before) := by
  induction ls generalizing s with
  | nil => rfl
  | cons l ls ih =>
    rw [run, run, List.foldlM_cons, List.foldlM_cons, step_behind]
    cases s.step limits l with
    | error e => rfl
    | ok t => exact ih

theorem finishStatement_behind :
    (s.behind limits before).finishStatement limits = (s.finishStatement limits).map (behind limits before) := by
  unfold finishStatement
  rw [endToken_behind]
  cases s.endToken limits with
  | error e => rfl
  | ok t =>
    show (if t.cursor.isBlank = true then _ else _) = Except.map _ (if t.cursor.isBlank = true then _ else _)
    split
    · rfl
    · show (if t.cursor.argv.isEmpty = true then _ else _) = Except.map _ (if t.cursor.argv.isEmpty = true then _ else _)
      split
      · rfl
      · exact congrArg Except.ok complete_behind

/-- The end of a line is taken behind other statements as it is without them. -/
theorem finish_behind (e : Ending) :
    (s.behind limits before).finish limits e = (s.finish limits e).map fun sts => limits.cap (before ++ sts) := by
  unfold finish
  cases e with
  | openQuote => rfl
  | loneBackslash quoted =>
    dsimp only
    rw [place_behind]
    split
    · rfl
    · split <;> rfl
  | complete =>
    dsimp only
    rw [place_behind, show (s.behind limits before).dangling? = s.dangling? from rfl, finishStatement_behind]
    split
    · rfl
    · cases s.dangling? with
      | some o => rfl
      | none =>
        rcases s.finishStatement limits with (e | e) | t
        · rfl
        · exact congrArg (fun t : Scan => Except.ok t.statements) (discard_behind e)
        · rfl

/-- Whatever is recorded of a line is within the limit on statements. -/
theorem cap_statements_of_run {ls : List Lexeme} (h : ({} : Scan).run limits ls = .ok s) : limits.cap s.statements = s.statements := by
  have hrun : (({} : Scan).behind limits []).run limits ls = (({} : Scan).run limits ls).map (behind limits []) := run_behind ls
  rw [show ({} : Scan).behind limits [] = {} from rfl, h] at hrun
  exact (congrArg Scan.statements (Except.ok.inj hrun)).symm

/-- A `;` that is taken leaves nothing of the statement it ends but what has been recorded. -/
theorem eq_of_step_semicolon (h : s.step limits (.operator .semicolon) = .ok t) : t = ⟨.argument, {}, t.statements⟩ := by
  rw [step, take, operator] at h
  split at h
  · rw [← Except.ok.inj h]
    rfl
  · split at h
    · cases h
    · rw [operate, semicolon] at h
      split at h
      · rw [← Except.ok.inj h, discard_eq]
      · split at h
        · cases h
        · rw [← Except.ok.inj h, complete_eq]

theorem run_append (ls ms : List Lexeme) : s.run limits (ls ++ ms) = (s.run limits ls).bind fun t => t.run limits ms :=
  List.foldlM_append

/-- After a `;` a line goes on as from its start, behind what has been recorded. -/
theorem eq_behind_of_run_semicolon {ls : List Lexeme} (h : ({} : Scan).run limits (ls ++ [.operator .semicolon]) = .ok s) :
    s = ({} : Scan).behind limits s.statements := by
  have hcap := cap_statements_of_run h
  rw [run_append] at h
  cases ht : ({} : Scan).run limits ls with
  | error e =>
    rw [ht] at h
    cases h
  | ok t =>
    rw [ht] at h
    have hstep : t.step limits (.operator .semicolon) = .ok s := by
      rw [← h]
      exact (bind_pure _).symm
    rw [behind, List.append_nil, hcap]
    exact eq_of_step_semicolon hstep

/-- At the end of the line nothing is added to it. -/
theorem finish_behind_empty (limits : Limits) (before : List Statement) :
    (({} : Scan).behind limits before).finish limits .complete = .ok (limits.cap before) := by
  have hfinish : ({} : Scan).finish limits .complete = .ok [] := rfl
  rw [finish_behind, hfinish, Except.map, List.append_nil]

end Scan

open Line

/-- Behind a `;` outside quotes a line is read as from its start. -/
theorem ofLine_append_semicolon {a : String} (h : (Reading.ofLine a).ending = .complete) (b : String) :
    Reading.ofLine (a ++ ";" ++ b) =
      ⟨(Reading.ofLine a).lexemes ++ .operator .semicolon :: (Reading.ofLine b).lexemes, (Reading.ofLine b).ending⟩ := by
  have hfirst := reads_ofChars false a.toList
  have hsecond := reads_ofChars false b.toList
  rw [Reading.ofLine, String.append_assoc, String.toList_append, String.toList_append]
  exact reads_iff.mp (hfirst.concat hsecond.semicolon h nofun)

/-- A `;` outside quotes ends a line that is complete. -/
theorem ofLine_concat_semicolon {a : String} (h : (Reading.ofLine a).ending = .complete) :
    Reading.ofLine (a ++ ";") = ⟨(Reading.ofLine a).lexemes ++ [.operator .semicolon], .complete⟩ := by
  have hline := ofLine_append_semicolon h ""
  rwa [String.append_empty] at hline

/-- Where a line that a `;` ends is accepted, what stands before the `;` is complete, unless it ends with a backslash. -/
theorem ending_of_parseLine_semicolon {limits : Limits} {a : String} {sts : List Statement}
    (hback : ∀ quoted, (Reading.ofLine a).ending ≠ .loneBackslash quoted) (h : parseLine limits (a ++ ";") = .ok sts) :
    (Reading.ofLine a).ending = .complete := by
  have hfirst := reads_ofChars false a.toList
  cases he : (Reading.ofLine a).ending with
  | complete => rfl
  | loneBackslash quoted => exact absurd he (hback quoted)
  | openQuote =>
    have hopen : Reads true [';'] [.literal ';'] .openQuote := .inside (by decide) (by decide) .unclosed
    have hline := reads_iff.mp (hfirst.concat hopen he nofun)
    obtain ⟨-, s, -, hfinish⟩ := parseLine_eq_ok h
    rw [Reading.ofLine, String.toList_append, show ";".toList = [';'] from rfl, hline] at hfinish
    cases hfinish

/-- A statement does not depend on those before it: a line that a `;` divides is refused as its second part is refused, and else has
the statements of the first part and then those of the second, up to the limit on statements. -/
theorem parseLine_append_semicolon {limits : Limits} {a b : String} {sts : List Statement}
    (hback : ∀ quoted, (Reading.ofLine a).ending ≠ .loneBackslash quoted)
    (hsize : (a ++ ";" ++ b).utf8ByteSize ≤ limits.maxLineLength) (h : parseLine limits (a ++ ";") = .ok sts) :
    parseLine limits (a ++ ";" ++ b) = (parseLine limits b).map fun more => limits.cap (sts ++ more) := by
  have he := ending_of_parseLine_semicolon hback h
  -- the first part, up to its `;`
  obtain ⟨-, s, hs, hfinish⟩ := parseLine_eq_ok h
  rw [ofLine_concat_semicolon he] at hs hfinish
  have hbehind := Scan.eq_behind_of_run_semicolon hs
  obtain rfl : s.statements = sts := by
    rw [hbehind] at hfinish
    exact (Scan.cap_statements_of_run hs).symm.trans (Except.ok.inj ((Scan.finish_behind_empty _ _).symm.trans hfinish))
  -- and the second, behind it
  have hrun : ({} : Scan).run limits (Reading.ofLine (a ++ ";" ++ b)).lexemes =
      (({} : Scan).run limits (Reading.ofLine b).lexemes).map (Scan.behind limits s.statements) := by
    rw [ofLine_append_semicolon he, List.append_cons, Scan.run_append, hs]
    exact (congrArg (Scan.run limits · _) hbehind).trans (Scan.run_behind _)
  have hb : b.utf8ByteSize ≤ limits.maxLineLength := by
    rw [String.utf8ByteSize_append] at hsize
    omega
  rw [parseLine, parseLine, if_neg (by omega), if_neg (by omega), Reading.statements, Reading.statements, hrun,
    ofLine_append_semicolon he]
  cases ({} : Scan).run limits (Reading.ofLine b).lexemes with
  | error e => rfl
  | ok t => exact Scan.finish_behind _

/-- Room for two words and two statements. -/
def twoOfEach : Limits := { maxArgs := 2, maxStatements := 2 }

/-- The first statement is set aside at its third word, and nothing of what is skipped of it touches the two after it. -/
theorem parseLine_append_semicolon_skipped :
    parseLine twoOfEach "a b c |<;" = .ok [.discarded (.tooManyArguments "a")] ∧
      parseLine twoOfEach ("a b c |<" ++ ";" ++ "d;e") =
        .ok [.discarded (.tooManyArguments "a"), .ready ⟨[⟨"d", []⟩], none, none⟩, .discarded .tooManyStatements] := by
  have hfirst : parseLine twoOfEach ("a b c |<" ++ ";") = .ok [.discarded (.tooManyArguments "a")] := by rfl
  have hsecond : parseLine twoOfEach "d;e" = .ok [.ready ⟨[⟨"d", []⟩], none, none⟩, .ready ⟨[⟨"e", []⟩], none, none⟩] := by rfl
  have hending : (Reading.ofLine "a b c |<").ending = .complete := by rfl
  refine ⟨hfirst, ?_⟩
  rw [parseLine_append_semicolon (by rw [hending]; exact nofun) (by decide) hfirst, hsecond]
  rfl

end PipelineShell
