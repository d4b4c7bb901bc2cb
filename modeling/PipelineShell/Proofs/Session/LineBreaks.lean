import PipelineShell.Proofs.Line.Joining
import PipelineShell.Proofs.Session.SupplyHost

/-!
# A `;` for a line break

Two statements may stand on two lines or on one, with a `;` between them. `readEvalLoop_joined` says so of any two lines that are
accepted, unless the one line that they make breaks a limit that the two keep.
-/

namespace PipelineShell

variable {σ ω : Type}

/-- A line that does not end with a line break is not cut. -/
theorem Shell.trimLine_eq {line : String} (h : line.toList.getLast? ≠ some '\n' ∧ line.toList.getLast? ≠ some '\r') :
    trimLine line = line := by
  refine trimLine_eq_iff.mpr ⟨"", (String.append_empty).symm, nofun, fun c hc => ?_⟩
  rintro (rfl | rfl)
  · exact h.1 hc
  · exact h.2 hc

theorem getLast?_joined (a b : String) :
    (a ++ ";" ++ b).toList.getLast? = some ';' ∨ (a ++ ";" ++ b).toList.getLast? = b.toList.getLast? := by
  rw [String.toList_append, String.toList_append, List.getLast?_append]
  cases b.toList.getLast? with
  | none => exact .inl (by simp)
  | some c => exact .inr rfl

/-- Two lines of which the first does not end in the middle of an escape may as well be one, with a `;` between them: the loop runs
the same statements in the same environments and to the same statuses, ends in the same environment and returns the same status.
The statements it runs are those of both lines in order, up to the end or to the one with which a builtin asks to leave. The lines
are as the line editor hands them on (`Line.ofInput`), without what was taken back while they were typed. -/
theorem readEvalLoop_joined {host : Host σ} {builtins : List (Builtin σ)} {limits : Limits} {view : σ → ω}
    {pending : σ → List String} {s t : Session σ} {a b : String} {sts more : List Statement}
    (h : Steady host builtins view pending) (hsetup : s.shell.setup = (builtins, limits, .block))
    (hexit : s.shell.env.exitRequested = none) (halike : t.Alike view s)
    (hs : pending s.host = [a, b]) (ht : pending t.host = [a ++ ";" ++ b])
    (hends : ∀ line ∈ [a, b], line.toList.getLast? ≠ some '\n' ∧ line.toList.getLast? ≠ some '\r')
    (hback : ∀ quoted, (Reading.ofLine a).ending ≠ .loneBackslash quoted)
    (ha : parseLine limits (a ++ ";") = .ok sts) (hb : parseLine limits b = .ok more) (hmore : more ≠ [])
    (hsize : (a ++ ";" ++ b).utf8ByteSize ≤ limits.maxLineLength) (hcount : (sts ++ more).length ≤ limits.maxStatements) :
    ∃ acts left status s' t',
      (Transcript.readEvalLoop host).run (s, []) = (.ok status, (s', acts)) ∧
      (Transcript.readEvalLoop host).run (t, []) = (.ok status, (t', acts)) ∧
      (Shell.readEvalLoop host).run s = (.ok status, s') ∧ (Shell.readEvalLoop host).run t = (.ok status, t') ∧
      s'.shell.env = t'.shell.env ∧ view s'.host = view t'.host ∧
      sts ++ more = acts.map Act.statement ++ left ∧ (s'.shell.env.shouldExit = false → left = []) := by
  obtain ⟨ha', hsts⟩ := parseLine_of_semicolon hback ha
  have hjoined := parseLine_joined hback ha hb hsize hcount
  have hendsB := hends b (List.mem_cons_of_mem a List.mem_cons_self)
  have hendsJoined : (a ++ ";" ++ b).toList.getLast? ≠ some '\n' ∧ (a ++ ";" ++ b).toList.getLast? ≠ some '\r' := by
    rcases getLast?_joined a b with hlast | hlast <;> rw [hlast]
    · decide
    · exact hendsB
  rw [← Shell.trimLine_eq (hends a List.mem_cons_self)] at ha'
  rw [← Shell.trimLine_eq hendsB] at hb
  rw [← Shell.trimLine_eq hendsJoined] at hjoined
  -- both loops do what running the statements of both lines in order does
  have hstay : s.shell.env.shouldExit = false := by rw [Environment.shouldExit, hexit]; rfl
  obtain ⟨⟨s', acts⟩, hrun, hm⟩ := h.readEvalLoop_lines (.cons ⟨ha', hsts⟩ (.cons ⟨hb, hmore⟩ .nil))
    (p := (s, [])) ⟨hsetup, hs⟩ hstay (.refl _)
  obtain ⟨⟨t', acts'⟩, hrun', hm'⟩ := h.readEvalLoop_lines (.cons ⟨hjoined, List.append_ne_nil_of_left_ne_nil hsts more⟩ .nil)
    (p := (t, [])) (q := (s, [])) ⟨halike.setup.trans hsetup, ht⟩ (halike.env ▸ hstay) ⟨halike, rfl⟩
  have hflat : [sts, more].flatten = [sts ++ more].flatten := by simp
  rw [hflat] at hrun hm
  obtain rfl : acts = acts' := hm.acts.trans hm'.acts.symm
  obtain ⟨left, hleft, hall⟩ := Transcript.runStatements_acts host 0 [sts ++ more].flatten (s, [])
  rw [← hm.acts, List.flatten_singleton] at hleft
  rw [← hm.alike.env] at hall
  exact ⟨acts, left, _, s', t', hrun, hrun', (Transcript.readEvalLoop_follows host).run_eq hrun,
    (Transcript.readEvalLoop_follows host).run_eq hrun', hm.alike.env.trans hm'.alike.env.symm,
    hm.alike.host.trans hm'.alike.host.symm, hleft, hall⟩

/-- Where a builtin of the first line asks to leave, the second line is not read, and what stands behind the `;` is not run. -/
theorem readEvalLoop_joined_leave : ∃ acts status s' t',
    (Transcript.readEvalLoop supplyHost).run (supplySession ["mark; leave\n", "cat\n"], []) = (.ok status, (s', acts)) ∧
      (Transcript.readEvalLoop supplyHost).run (supplySession ["mark; leave;cat\n"], []) = (.ok status, (t', acts)) ∧
      s'.shell.env = t'.shell.env ∧ status = 7 ∧
      acts.map Act.statement = [.ready ⟨[⟨"mark", []⟩], none, none⟩, .ready ⟨[⟨"leave", []⟩], none, none⟩] := by
  have hfirst : parseLine {} ("mark; leave" ++ ";") =
      .ok [.ready ⟨[⟨"mark", []⟩], none, none⟩, .ready ⟨[⟨"leave", []⟩], none, none⟩] := by rfl
  have hsecond : parseLine {} "cat" = .ok [.ready ⟨[⟨"cat", []⟩], none, none⟩] := by rfl
  have hending : (Reading.ofLine "mark; leave").ending = .complete := by rfl
  obtain ⟨acts, left, status, s', t', hrun, hrun', -, -, henv, -, hleft, -⟩ := readEvalLoop_joined steady_supplyHost
    (s := supplySession ["mark; leave\n", "cat\n"]) (t := supplySession ["mark; leave;cat\n"]) rfl rfl ⟨rfl, rfl, rfl⟩
    (by rfl) (by rfl) (by decide) (by rw [hending]; exact nofun) hfirst hsecond (by decide) (by decide) (by decide)
  have hstatus : ((Transcript.readEvalLoop supplyHost).run (supplySession ["mark; leave\n", "cat\n"], [])).1 = .ok 7 := by
    decide +kernel
  have htwo : ((Transcript.readEvalLoop supplyHost).run (supplySession ["mark; leave\n", "cat\n"], [])).2.2.length = 2 := by
    decide +kernel
  rw [hrun] at hstatus htwo
  rw [← List.length_map Act.statement] at htwo
  exact ⟨acts, status, s', t', hrun, hrun', henv, Except.ok.inj hstatus, (List.append_inj hleft htwo.symm).1.symm⟩

end PipelineShell
