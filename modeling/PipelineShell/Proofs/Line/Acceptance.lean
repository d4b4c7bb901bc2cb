import PipelineShell.Proofs.Line.Measure

/-!
# Which lines are accepted, and as what

`parseLine_eq_ok_iff` is about lines of which no part exceeds a limit: these are accepted exactly if they are complete and their
words and operators follow the grammar, and then the statements are the pipelines of the grammar. `parseLine_filter` is about
all limits: whatever they are, they only judge the statements that the line has without them.
-/

namespace PipelineShell

namespace Line

variable {limits : Limits} {a : Assembly} {run : String} {ts : List Token} {ds : List StatementForm} {ss : List StageForm}
  {current : Option StageForm}

namespace Spells

/-- The end of a word continues the form. -/
theorem flush (h : Spells a ts ds ss current) (run : String) :
    ∃ current', Spells (a.flush run) (ts ++ Token.ofRun run) ds ss current' := by
  unfold Assembly.flush Token.ofRun
  by_cases hr : run = ""
  · rw [if_pos hr, if_pos hr, List.append_nil]
    exact ⟨current, h⟩
  · rw [if_neg hr, if_neg hr]
    obtain ⟨c, hc⟩ := h.takeWord run
    exact ⟨some c, hc⟩

/-- A lexeme continues the form, and the tokens of the line stay the same. -/
theorem read {l : Lexeme} {p : Assembly × String} (h : Spells a ts ds ss current) (hread : a.read run l = .ok p) :
    ∃ ts' ds' ss' current', Spells p.1 ts' ds' ss' current' ∧
      ∀ ls, ts ++ Line.tokens run (l :: ls) = ts' ++ Line.tokens p.2 ls := by
  obtain ⟨current', hflush⟩ := h.flush run
  cases l with
  | literal c =>
    obtain rfl : (a, run.push c) = p := Except.ok.inj hread
    exact ⟨ts, ds, ss, current, h, fun _ => rfl⟩
  | blank =>
    obtain rfl : (a.flush run, "") = p := Except.ok.inj hread
    exact ⟨_, _, _, _, hflush, fun _ => (List.append_assoc _ _ _).symm⟩
  | operator o =>
    by_cases hp : (a.flush run).Permits o
    · rw [Assembly.read, if_pos hp] at hread
      obtain rfl := Except.ok.inj hread
      obtain ⟨ds', ss', current'', ho⟩ := hflush.take (t := .operator o) (if_pos hp)
      refine ⟨_, _, _, _, ho, fun ls => ?_⟩
      rw [Line.tokens, List.append_assoc, List.append_assoc]
      rfl
    · rw [Assembly.read, if_neg hp] at hread
      cases hread

end Spells

/-- Of an admitted line the scan takes nothing that the assembly does not, and all that it takes has a form. -/
theorem readAll_of_run {ls : List Lexeme} {sts : List Statement} {s : Scan} (h : Spells a ts ds ss current)
    (hl : limits.Admits (ts ++ tokens run ls)) (hj : Judged limits a.finished sts)
    (hs : (a.scan run sts).run limits ls = .ok s) :
    ∃ p ts' ds' ss' current', Assembly.readAll (a, run) ls = .ok p ∧ Spells p.1 ts' ds' ss' current' ∧
      ts ++ tokens run ls = ts' ++ tokens p.2 [] := by
  induction ls generalizing a run ts ds ss current sts with
  | nil => exact ⟨_, _, _, _, _, rfl, h, rfl⟩
  | cons l ls ih =>
    have hfit := cursor_fits h hl
    rw [Scan.run, List.foldlM_cons] at hs
    cases hread : a.read run l with
    | ok p =>
      obtain ⟨t, ht, hk⟩ := (Keeps.reading hfit hj).step hread
      obtain ⟨ts', ds', ss', current', hp, htokens⟩ := h.read hread
      rw [htokens] at hl
      simp only [ht] at hs
      cases hk with
      | skipping hn => exact absurd (cursor_fits hp hl) hn
      | reading hfit' hj' =>
        obtain ⟨q, us, ds'', ss'', current'', hq, hspells, hus⟩ := ih hp hl hj' hs
        refine ⟨q, us, ds'', ss'', current'', ?_, hspells, (htokens ls).trans hus⟩
        rw [Assembly.readAll, List.foldlM_cons, hread]
        exact hq
    | error o =>
      cases l with
      | literal c => cases hread
      | blank => cases hread
      | operator o' =>
        by_cases hp : (a.flush run).Permits o'
        · rw [Assembly.read, if_pos hp] at hread
          cases hread
        · obtain ⟨current', hflush⟩ := h.flush run
          have hl' : limits.Admits (ts ++ Token.ofRun run ++ tokens "" (.operator o' :: ls)) := by
            rw [List.append_assoc]
            exact hl
          rw [Keeps.operator_of_not_permits hfit (cursor_fits hflush hl') hp] at hs
          cases hs

/-- An admitted line that is accepted is complete, and its words and operators can be assembled. -/
theorem assemble_of_admits {line : String} {sts : List Statement}
    (hl : limits.Admits (tokens "" (Reading.ofLine line).lexemes)) (h : parseLine limits line = .ok sts) :
    (Reading.ofLine line).ending = .complete ∧ ∃ ps, assemble (tokens "" (Reading.ofLine line).lexemes) = .ok ps := by
  obtain ⟨-, s, hs, hf⟩ := parseLine_eq_ok h
  obtain ⟨p, ts, ds, ss, current, hr, hspells, hts⟩ := readAll_of_run Spells.empty hl .nil hs
  rw [List.nil_append] at hts
  have hempty : Keeps limits {} {} "" := .empty
  obtain ⟨s', hs', hk⟩ := hempty.run_ok hr
  obtain rfl : s = s' := Except.ok.inj (hs.symm.trans hs')
  have hfit : (p.1.cursor p.2).Fits limits := cursor_fits hspells (hts ▸ hl)
  cases hk with
  | skipping hn => exact absurd hfit hn
  | reading _ hj =>
    have he := Scan.complete_of_finish (Assembly.place_scan _ _ _) hf
    refine ⟨he, ?_⟩
    rw [assemble, ← Assembly.readAll_flush ({}, ""), hr]
    cases hp : (p.1.flush p.2).finish with
    | ok ps => exact ⟨ps, hp⟩
    | error o =>
      obtain ⟨current', hflush⟩ := hspells.flush p.2
      have hl' : limits.Admits (ts ++ Token.ofRun p.2 ++ tokens "" []) := by
        rw [show tokens "" [] = [] from rfl, List.append_nil]
        exact hts ▸ hl
      rw [he, Keeps.finish_of_fits hfit (cursor_fits hflush hl') hp] at hf
      cases hf

end Line

open Line

/-- The limits admit a line, its length and every part of it. -/
structure Limits.AdmitsLine (limits : Limits) (line : String) : Prop where
  size : line.utf8ByteSize ≤ limits.maxLineLength
  parts : limits.Admits (tokens "" (Reading.ofLine line).lexemes)

instance (limits : Limits) (line : String) : Decidable (limits.AdmitsLine line) :=
  decidable_of_decidable_of_iff (p := _ ∧ _) ⟨fun h => ⟨h.1, h.2⟩, fun h => ⟨h.size, h.parts⟩⟩

/-- Limits above the length of a line admit it, whatever it says. -/
theorem Limits.Above.admitsLine {limits : Limits} {line : String} (h : limits.Above line.utf8ByteSize) : limits.AdmitsLine line :=
  ⟨Nat.le_of_lt h.line, h.admits⟩

/-- A line that the limits admit has the statements of the form that its words and operators have. -/
theorem parseLine_of_form {limits : Limits} {line : String} {form : LineForm} (h : limits.AdmitsLine line) (hv : form.Valid)
    (ht : form.tokens = tokens "" (Reading.ofLine line).lexemes) (he : (Reading.ofLine line).ending = .complete) :
    parseLine limits line = .ok (form.pipelines.map .ready) := by
  obtain ⟨sts, hsts, hj⟩ := judged_of_assemble h.size he (ht ▸ assemble_tokens hv)
  have hadmits := ht ▸ h.parts
  have hlen : form.pipelines.length ≤ limits.maxStatements := by
    have hle := hadmits.statements
    rwa [splitOn_line form hv, List.length_map, ← List.length_map StatementForm.pipeline] at hle
  rw [hsts, hj.eq_map_ready (hj.not_discards (pipelines_fit hv hadmits) hlen)]

/-- A line that the limits admit is accepted exactly if it is read to its end outside quotes and its words and operators are
those of a line of the grammar; the statements are then the pipelines of that line. -/
theorem parseLine_eq_ok_iff {limits : Limits} {line : String} (h : limits.AdmitsLine line) (sts : List Statement) :
    parseLine limits line = .ok sts ↔
      ∃ lexemes, ∃ form : LineForm, Reads false line.toList lexemes .complete ∧ form.tokens = tokens "" lexemes ∧
        form.Valid ∧ sts = form.pipelines.map .ready := by
  constructor
  · intro hp
    obtain ⟨he, ps, hps⟩ := assemble_of_admits h.parts hp
    obtain ⟨form, ht, hv, rfl⟩ := assemble_eq_ok_iff.mp hps
    refine ⟨(Reading.ofLine line).lexemes, form, ?_, ht, hv, Except.ok.inj (hp.symm.trans (parseLine_of_form h hv ht he))⟩
    rw [reads_iff, ← he]
    rfl
  · rintro ⟨lexemes, form, hreads, ht, hv, rfl⟩
    have hofLine : Reading.ofLine line = ⟨lexemes, .complete⟩ := reads_iff.mp hreads
    exact parseLine_of_form h hv (by rw [ht, hofLine]) (by rw [hofLine])

/-- The default limits admit this line, and it says what the grammar says. -/
theorem parseLine_two_statements :
    Limits.AdmitsLine {} "sort <a|wc \"|\" >>b; x" ∧
      parseLine {} "sort <a|wc \"|\" >>b; x" = .ok
        [.ready ⟨[⟨"sort", []⟩, ⟨"wc", ["|"]⟩], some "a", some ⟨"b", .append⟩⟩, .ready ⟨[⟨"x", []⟩], none, none⟩] := by
  have h : Limits.AdmitsLine {} "sort <a|wc \"|\" >>b; x" := by decide
  refine ⟨h, (parseLine_eq_ok_iff h _).mpr ⟨_, ⟨[⟨[⟨"sort", [.input "a"]⟩, ⟨"wc", [.argument "|", .output ⟨"b", .append⟩]⟩],
    by decide⟩, ⟨[⟨"x", []⟩], by decide⟩], false⟩, reads_iff.mpr rfl, by decide, by decide, by decide⟩⟩

/-- What limits make of a line whose every statement is ready under some limits: each statement stays what it is and where it is if
it fits and stands below the limit on statements, and is set aside in its place if not. -/
theorem parseLine_filter {unlimited limits : Limits} {line : String} {ps : List Pipeline}
    (h : parseLine unlimited line = .ok (ps.map .ready)) (hsize : line.utf8ByteSize ≤ limits.maxLineLength) :
    ∃ sts, parseLine limits line = .ok sts ∧ sts.length = ps.length ∧ ∀ i p, ps[i]? = some p →
      (i < limits.maxStatements ∧ p.Fits limits → sts[i]? = some (.ready p)) ∧
      (¬ (i < limits.maxStatements ∧ p.Fits limits) →
        ∃ e, sts[i]? = some (.discarded e) ∧ (e = .tooManyStatements ↔ limits.maxStatements ≤ i)) := by
  have hd : ¬ Discards (ps.map .ready) := by
    rintro ⟨e, he⟩
    obtain ⟨p, -, hp⟩ := List.mem_map.mp he
    cases hp
  obtain ⟨hlength, he, qs, hqs⟩ := assemble_of_parseLine h hd
  obtain ⟨sts', hsts', hj'⟩ := judged_of_assemble hlength he hqs
  obtain rfl : ps = qs := by
    have hready := hj'.eq_map_ready
    rw [← Except.ok.inj (h.symm.trans hsts')] at hready
    exact (List.map_inj_right fun _ _ h => Statement.ready.inj h).mp (hready hd)
  obtain ⟨sts, hsts, hj⟩ := judged_of_assemble hsize he hqs
  refine ⟨sts, hsts, hj.length_eq, fun i p hp => ?_⟩
  obtain ⟨st, hst, hv⟩ := hj.verdict hp
  cases st with
  | ready q =>
    obtain ⟨rfl, hkept⟩ := hv
    exact ⟨fun _ => hst, fun hn => absurd hkept hn⟩
  | discarded e => exact ⟨fun hkept => absurd hkept hv.1, fun _ => ⟨e, hst, hv.2⟩⟩

/-- With room for two arguments and two statements the first statement is set aside, the second kept and the third one too many. -/
theorem parseLine_filter_three_statements :
    ∃ sts e, parseLine { maxArgs := 2, maxStatements := 2 } "a b c;d;e" = .ok sts ∧ sts.length = 3 ∧
      sts[0]? = some (.discarded e) ∧ e ≠ .tooManyStatements ∧ sts[1]? = some (.ready ⟨[⟨"d", []⟩], none, none⟩) ∧
      sts[2]? = some (.discarded .tooManyStatements) := by
  have hready : parseLine {} "a b c;d;e" = .ok ([⟨[⟨"a", ["b", "c"]⟩], none, none⟩, ⟨[⟨"d", []⟩], none, none⟩,
    ⟨[⟨"e", []⟩], none, none⟩].map .ready) := by rfl
  have hsize : "a b c;d;e".utf8ByteSize ≤ Limits.maxLineLength { maxArgs := 2, maxStatements := 2 } := by decide
  obtain ⟨sts, hsts, hlen, hfilter⟩ := parseLine_filter hready hsize
  obtain ⟨e, he, hiff⟩ := (hfilter 0 ⟨[⟨"a", ["b", "c"]⟩], none, none⟩ rfl).2 (by decide)
  obtain ⟨e', he', hiff'⟩ := (hfilter 2 ⟨[⟨"e", []⟩], none, none⟩ rfl).2 (by decide)
  obtain rfl : e' = .tooManyStatements := hiff'.mpr (by decide)
  exact ⟨sts, e, hsts, hlen, he, fun h => absurd (hiff.mp h) (by decide),
    (hfilter 1 ⟨[⟨"d", []⟩], none, none⟩ rfl).1 (by decide), he'⟩

end PipelineShell
