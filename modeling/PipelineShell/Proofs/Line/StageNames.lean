import PipelineShell.Proofs.Line.FirstBreach

/-!
# The names in the report of too many stages

A statement with too many stages is set aside at the `|` behind the last one that there is room for, and the report names the first two
of the stages read by then. One stage is always read before there can be a `|`; a second one has been read by then only where there is
room for two (`parseLine_tooManyStages`). Where there is room for one at most, the report leaves the second name out
(`second_stage_is_not_named`).
-/

namespace PipelineShell

namespace Line

variable {limits : Limits}

/-- No report about the words of a stage is of too many stages. -/
theorem not_mem_wordsBreaches (name first second : String) (n : Nat) (ws : List (Role × String)) :
    .tooManyStages first second ∉ wordsBreaches limits name n ws := by
  induction ws generalizing n with
  | nil => exact List.not_mem_nil
  | cons x ws ih =>
    obtain ⟨r, w⟩ := x
    rw [wordsBreaches, List.mem_append, List.mem_append]
    rintro ((hlength | hcount) | hrest)
    · cases r <;> simp [Role.lengthBreaches, Role.overlong] at hlength
    · simp [Role.countBreaches] at hcount
    · exact ih _ hrest

/-- Too many stages are reported at a `|` with as many stages before it as there is room for, and one after it. -/
theorem exists_of_mem_stagesBreaches {before ss : List StageForm} {first second : String}
    (h : .tooManyStages first second ∈ stagesBreaches limits before ss) :
    ∃ taken s rest, ss = taken ++ s :: rest ∧ (before ++ taken).length = max 1 limits.maxStages ∧
      overstaged (before ++ taken) = .tooManyStages first second := by
  induction ss generalizing before with
  | nil => exact absurd h List.not_mem_nil
  | cons s ss ih =>
    rw [stagesBreaches, List.mem_append, List.mem_append] at h
    obtain (hpipe | hwords) | hrest := h
    · unfold pipeBreaches at hpipe
      split at hpipe
      · rename_i hlength
        refine ⟨[], s, ss, rfl, ?_, ?_⟩
        · rwa [List.append_nil]
        · rw [List.append_nil, ← List.mem_singleton.mp hpipe]
      · exact absurd hpipe List.not_mem_nil
    · exact absurd hwords (not_mem_wordsBreaches _ _ _ _ _)
    · obtain ⟨taken, t, rest, rfl, hlength, hnames⟩ := ih hrest
      rw [List.append_assoc, List.singleton_append] at hlength hnames
      exact ⟨s :: taken, t, rest, rfl, hlength, hnames⟩

/-- A statement that is set aside for too many stages has two at least. The report names the first of them, and the second if there is
room for two. -/
theorem StatementForm.names_of_judge {s : StatementForm} {first second : String}
    (h : s.judge limits = .discarded (.tooManyStages first second)) :
    ∃ c d rest, s.pipeline.commands = c :: d :: rest ∧ first = c.name ∧
      second = if 2 ≤ limits.maxStages then d.name else "" := by
  have hmem : .tooManyStages first second ∈ s.breaches limits := by
    unfold judge at h
    split at h
    · cases h
    · rename_i e he
      cases h
      exact List.mem_of_head? he
  obtain ⟨taken, t, rest, hstages, hlength, hnames⟩ := exists_of_mem_stagesBreaches hmem
  rw [List.nil_append] at hlength hnames
  have hcommands : s.pipeline.commands = (taken ++ t :: rest).map StageForm.command := congrArg _ hstages
  match taken with
  | [] =>
    rw [List.length_nil] at hlength
    omega
  | [c] =>
    rw [List.length_singleton] at hlength
    obtain ⟨rfl, rfl⟩ := LimitError.tooManyStages.inj hnames
    exact ⟨c.command, t.command, rest.map StageForm.command, hcommands, rfl, (if_neg (by omega)).symm⟩
  | c :: d :: taken =>
    rw [List.length_cons, List.length_cons] at hlength
    obtain ⟨rfl, rfl⟩ := LimitError.tooManyStages.inj hnames
    exact ⟨c.command, d.command, (taken ++ t :: rest).map StageForm.command, hcommands, rfl, (if_pos (by omega)).symm⟩

end Line

open Line

theorem Limits.exists_of_getElem?_cap {limits : Limits} {sts : List Statement} {i : Nat} {st : Statement}
    (h : (limits.cap sts)[i]? = some st) (hst : st ≠ .discarded .tooManyStatements) : sts[i]? = some st := by
  rw [cap, List.getElem?_mapIdx, Option.map_eq_some_iff] at h
  obtain ⟨given, hgiven, hcap⟩ := h
  split at hcap
  · exact absurd hcap.symm hst
  · rw [hgiven, hcap]

/-- Of a line that is accepted where no limit concerns it, a statement that limits set aside for too many stages has two at least. The
report begins with the name of the first, and goes on with that of the second exactly if there is room for two stages; otherwise it
leaves the second name out. -/
theorem parseLine_tooManyStages {unlimited limits : Limits} {line : String} {sts : List Statement}
    (habove : unlimited.Above line.utf8ByteSize) (h : parseLine unlimited line = .ok sts)
    (hsize : line.utf8ByteSize ≤ limits.maxLineLength) :
    ∃ judged, parseLine limits line = .ok judged ∧
      ∀ (i : Nat) (first second : String), judged[i]? = some (.discarded (.tooManyStages first second)) →
        ∃ p c d rest, sts[i]? = some (.ready p) ∧ p.commands = c :: d :: rest ∧ first = c.name ∧
          second = if 2 ≤ limits.maxStages then d.name else "" := by
  obtain ⟨he, ps, hps⟩ := assemble_of_admits habove.admits h
  obtain ⟨form, htokens, hvalid, hparse⟩ := parseLine_eq_judge hsize he hps
  refine ⟨_, hparse, fun i first second hi => ?_⟩
  have hjudged := Limits.exists_of_getElem?_cap hi (by simp)
  rw [List.getElem?_map, Option.map_eq_some_iff] at hjudged
  obtain ⟨s, hs, hjudge⟩ := hjudged
  obtain ⟨c, d, rest, hcommands, hfirst, hsecond⟩ := StatementForm.names_of_judge hjudge
  refine ⟨s.pipeline, c, d, rest, ?_, hcommands, hfirst, hsecond⟩
  rw [Except.ok.inj (h.symm.trans (parseLine_of_form habove.admitsLine hvalid htokens he)), List.getElem?_map,
    LineForm.pipelines, List.getElem?_map, hs]
  rfl

/-- With room for two stages a statement of two is kept and one of three set aside. The report names its first two. -/
theorem parseLine_tooManyStages_third :
    parseLine { maxStages := 2 } "a|b;c x|d|e" =
        .ok [.ready ⟨[⟨"a", []⟩, ⟨"b", []⟩], none, none⟩, .discarded (.tooManyStages "c" "d")] ∧
      ∃ p c d rest, [Statement.ready ⟨[⟨"a", []⟩, ⟨"b", []⟩], none, none⟩,
          .ready ⟨[⟨"c", ["x"]⟩, ⟨"d", []⟩, ⟨"e", []⟩], none, none⟩][1]? = some (.ready p) ∧
        p.commands = c :: d :: rest ∧ "c" = c.name ∧ "d" = d.name := by
  let wide : Limits := ⟨20, 20, 20, 20, 20, 20⟩
  have habove : wide.Above "a|b;c x|d|e".utf8ByteSize := by constructor <;> decide
  have hwide : parseLine wide "a|b;c x|d|e" = .ok [.ready ⟨[⟨"a", []⟩, ⟨"b", []⟩], none, none⟩,
    .ready ⟨[⟨"c", ["x"]⟩, ⟨"d", []⟩, ⟨"e", []⟩], none, none⟩] := by rfl
  have hnarrow : parseLine { maxStages := 2 } "a|b;c x|d|e" =
    .ok [.ready ⟨[⟨"a", []⟩, ⟨"b", []⟩], none, none⟩, .discarded (.tooManyStages "c" "d")] := by rfl
  have hsize : "a|b;c x|d|e".utf8ByteSize ≤ Limits.maxLineLength { maxStages := 2 } := by decide
  obtain ⟨judged, hjudged, hnames⟩ := parseLine_tooManyStages habove hwide hsize
  obtain rfl := Except.ok.inj (hnarrow.symm.trans hjudged)
  obtain ⟨p, c, d, rest, hp, hcommands, hfirst, hsecond⟩ := hnames 1 "c" "d" rfl
  exact ⟨hnarrow, p, c, d, rest, hp, hcommands, hfirst, hsecond.trans (if_pos (by decide))⟩

/-- Where there is room for one stage, the report on two of them gives the empty text for the name of the second. -/
theorem second_stage_is_not_named :
    parseLine {} "a|b" = .ok [.ready ⟨[⟨"a", []⟩, ⟨"b", []⟩], none, none⟩] ∧
      parseLine { maxStages := 1 } "a|b" = .ok [.discarded (.tooManyStages "a" "")] := ⟨by rfl, by rfl⟩

end PipelineShell
