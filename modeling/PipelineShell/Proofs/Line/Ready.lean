import PipelineShell.Proofs.Line.Effect

/-!
# Statements that are ready

Limits are checked while a statement is being read, each at its own moment, and the pipeline is built at the end of it. `Scan.Sound`
is what connects the two: at every moment what has been collected is within the limits and nothing of it is empty, a path apart that
has just been asked for. So nothing that a line makes ready has to be checked again (`parseLine_ready`), whatever the limits are and
whatever stands in the rest of the line.
-/

namespace PipelineShell

/-- Nothing of a pipeline is empty: it has a stage, and no word and no path of it is the empty text. That a stage has a word needs no
mention, for a command is built around its name. -/
structure Pipeline.Solid (p : Pipeline) : Prop where
  commands : p.commands ≠ []
  words : ∀ c ∈ p.commands, ∀ w ∈ c.argv, w ≠ ""
  input : ∀ path ∈ p.input, path ≠ ""
  output : ∀ target ∈ p.output, target.path ≠ ""

/-- What is ready is in one of the places that the limits have for statements, is not empty anywhere and breaks no limit. -/
def Limits.Admitted (limits : Limits) (sts : List Statement) : Prop :=
  ∀ i p, sts[i]? = some (.ready p) → i < limits.maxStatements ∧ p.Solid ∧ p.Fits limits

namespace Limits.Admitted

variable {limits : Limits} {sts : List Statement}

theorem nil : limits.Admitted [] := by
  intro i p hp
  cases hp

theorem concat_discarded (h : limits.Admitted sts) (e : LimitError) : limits.Admitted (sts ++ [.discarded e]) := by
  intro i p hp
  by_cases hi : i < sts.length
  · rw [List.getElem?_append_left hi] at hp
    exact h i p hp
  · rw [List.getElem?_append_right (Nat.le_of_not_lt hi)] at hp
    have hlast := List.mem_singleton.mp (List.mem_of_getElem? hp)
    cases hlast

theorem concat_ready (h : limits.Admitted sts) (hplace : sts.length < limits.maxStatements) {p : Pipeline} (hsolid : p.Solid)
    (hfits : p.Fits limits) : limits.Admitted (sts ++ [.ready p]) := by
  intro i q hq
  rcases Nat.lt_trichotomy i sts.length with hi | hi | hi
  · rw [List.getElem?_append_left hi] at hq
    exact h i q hq
  · subst hi
    rw [List.getElem?_concat_length] at hq
    obtain rfl := Statement.ready.inj (Option.some.inj hq)
    exact ⟨hplace, hsolid, hfits⟩
  · have hend : (sts ++ [Statement.ready p])[i]? = none := by
      rw [List.getElem?_eq_none_iff, List.length_append, List.length_singleton]
      omega
    rw [hend] at hq
    cases hq

theorem discard {s : Scan} (h : limits.Admitted s.statements) (e : LimitError) :
    limits.Admitted (s.discard limits e).statements := by
  rw [Scan.discard_eq]
  exact h.concat_discarded _

theorem complete {s : Scan} (h : limits.Admitted s.statements) (hsolid : s.cursor.pipeline.Solid)
    (hfits : s.cursor.pipeline.Fits limits) : limits.Admitted (s.complete limits).statements := by
  rw [Scan.complete_eq]
  show limits.Admitted (s.statements ++ _)
  split
  · exact h.concat_discarded _
  · rename_i hplace
    exact h.concat_ready (Nat.lt_of_not_le hplace) hsolid hfits

end Limits.Admitted

/-! ## What has been collected -/

/-- What has been collected of a statement is within the limits, and no word of it is empty. -/
structure Cursor.Sound (limits : Limits) (k : Cursor) : Prop where
  fits : k.Fits limits
  argv : ∀ w ∈ k.argv, w ≠ ""
  commands : ∀ c ∈ k.commands, ∀ w ∈ c.argv, w ≠ ""

/-- Every path that there is has been begun. -/
structure Cursor.PathsBegun (k : Cursor) : Prop where
  input : ∀ path ∈ k.input, path ≠ ""
  output : ∀ target ∈ k.output, target.path ≠ ""

namespace Cursor

variable {limits : Limits} {k k' : Cursor}

theorem sound_empty : ({} : Cursor).Sound limits where
  fits := Line.Assembly.fits_empty
  argv := nofun
  commands := nofun

/-- A word that ends becomes an argument, for which there is room. -/
theorem Sound.wordEnd (h : k.Sound limits) (hend : k.WordEnd limits k') : k'.Sound limits := by
  cases hend with
  | none htoken => exact h
  | word htoken hargs =>
    have hfits : Cursor.Fits limits { k with argv := k.argv ++ [k.token], token := "" } := by
      refine ⟨h.fits.stages, h.fits.commands, ?_, ?_, Nat.zero_le _, h.fits.input, h.fits.output⟩
      · rw [List.length_append, List.length_singleton]
        exact hargs
      · intro w hw
        rcases List.mem_append.mp hw with hw | hw
        · exact h.fits.words w hw
        · rw [List.mem_singleton.mp hw]
          exact h.fits.token
    refine ⟨hfits, ?_, h.commands⟩
    intro w hw
    rcases List.mem_append.mp hw with hw | hw
    · exact h.argv w hw
    · rw [List.mem_singleton.mp hw]
      exact htoken

theorem PathsBegun.wordEnd (h : k.PathsBegun) (hend : k.WordEnd limits k') : k'.PathsBegun := by
  cases hend with
  | none htoken => exact h
  | word htoken hargs => exact ⟨h.input, h.output⟩

/-- The stages that have been ended and the current one, which has a name. -/
theorem allCommands_eq (hargv : k.argv ≠ []) : ∃ c : Command, c.argv = k.argv ∧ k.allCommands = k.commands ++ [c] := by
  obtain ⟨name, args, hname⟩ := List.exists_cons_of_ne_nil hargv
  refine ⟨⟨name, args⟩, hname.symm, ?_⟩
  rw [allCommands, hname]
  rfl

/-- The stages of a statement are within the limits and have no empty words. -/
theorem Sound.allCommands (h : k.Sound limits) (hargv : k.argv ≠ []) :
    ∀ c ∈ k.allCommands, c.Fits limits ∧ ∀ w ∈ c.argv, w ≠ "" := by
  obtain ⟨last, hlast, hall⟩ := allCommands_eq hargv
  intro c hc
  rw [hall] at hc
  rcases List.mem_append.mp hc with hc | hc
  · exact ⟨h.fits.commands c hc, h.commands c hc⟩
  · rw [List.mem_singleton.mp hc, Command.Fits, hlast]
    exact ⟨⟨h.fits.args, h.fits.words⟩, h.argv⟩

/-- `|` ends a stage where there is room for another. -/
theorem Sound.pipe (h : k.Sound limits) (hargv : k.argv ≠ []) (hstages : k.commands.length + 2 ≤ limits.maxStages) :
    Cursor.Sound limits { k with commands := k.allCommands, argv := [] } := by
  obtain ⟨last, -, hall⟩ := allCommands_eq hargv
  have hlength : k.allCommands.length < max 1 limits.maxStages := by
    rw [hall, List.length_append, List.length_singleton]
    omega
  refine ⟨⟨hlength, ?_, Nat.zero_le _, nofun, h.fits.token, h.fits.input, h.fits.output⟩, nofun, ?_⟩
  · exact fun c hc => (h.allCommands hargv c hc).1
  · exact fun c hc => (h.allCommands hargv c hc).2

/-- The pipeline of a statement that has its last stage is not empty anywhere and breaks no limit. -/
theorem Sound.pipeline (h : k.Sound limits) (hpaths : k.PathsBegun) (hargv : k.argv ≠ []) :
    k.pipeline.Solid ∧ k.pipeline.Fits limits := by
  obtain ⟨last, -, hall⟩ := allCommands_eq hargv
  have hne : k.allCommands ≠ [] := by
    rw [hall]
    exact List.append_ne_nil_of_right_ne_nil _ (List.cons_ne_nil last [])
  have hlength : k.allCommands.length ≤ max 1 limits.maxStages := by
    rw [hall, List.length_append, List.length_singleton]
    exact h.fits.stages
  constructor
  · exact ⟨hne, fun c hc => (h.allCommands hargv c hc).2, hpaths.input, hpaths.output⟩
  · exact ⟨hlength, fun c hc => (h.allCommands hargv c hc).1, h.fits.input, h.fits.output⟩

end Cursor

/-! ## Through the scan -/

/-- Between two lexemes: what has been collected is sound, a path is begun unless it is the one being read, and what has been made
ready may be run. -/
structure Scan.Sound (limits : Limits) (s : Scan) : Prop where
  cursor : s.cursor.Sound limits
  input : s.place ≠ .inputPath → ∀ path ∈ s.cursor.input, path ≠ ""
  output : s.place ≠ .outputPath → ∀ target ∈ s.cursor.output, target.path ≠ ""
  admitted : limits.Admitted s.statements

namespace Scan

variable {limits : Limits} {s t : Scan}

theorem sound_fresh {place : Place} {sts : List Statement} (h : limits.Admitted sts) : Sound limits ⟨place, {}, sts⟩ where
  cursor := Cursor.sound_empty
  input _ := nofun
  output _ := nofun
  admitted := h

theorem sound_discard (h : s.Sound limits) (e : LimitError) : Sound limits (s.discard limits e) := by
  have hadmitted := h.admitted.discard e
  rw [discard_eq] at hadmitted ⊢
  exact sound_fresh hadmitted

/-- Where no path is awaited, every path has been begun. -/
theorem Sound.pathsBegun (h : s.Sound limits) (hbegun : s.awaitsPath = false) : s.cursor.PathsBegun := by
  constructor
  · intro path hpath
    by_cases hplace : s.place = .inputPath
    · simp only [awaitsPath, hplace, Cursor.inputStarted, Option.mem_def.mp hpath] at hbegun
      simpa using hbegun
    · exact h.input hplace path hpath
  · intro target htarget
    by_cases hplace : s.place = .outputPath
    · simp only [awaitsPath, hplace, Cursor.outputStarted, Option.mem_def.mp htarget] at hbegun
      simpa using hbegun
    · exact h.output hplace target htarget

/-- The same at the end of a line. -/
theorem Sound.pathsBegun_of_dangling (h : s.Sound limits) (hdangling : s.dangling? = none) : s.cursor.PathsBegun := by
  constructor
  · intro path hpath
    by_cases hplace : s.place = .inputPath
    · simp only [dangling?, hplace, Option.mem_def.mp hpath] at hdangling
      simpa [Option.filter] using hdangling
    · exact h.input hplace path hpath
  · intro target htarget
    by_cases hplace : s.place = .outputPath
    · simp only [dangling?, hplace, Option.mem_def.mp htarget] at hdangling
      simpa [Option.filter] using hdangling
    · exact h.output hplace target htarget

/-- A lexeme leaves a sound scan sound. -/
theorem Sound.step {l : Lexeme} (h : s.Sound limits) (he : Effect limits s l t) : t.Sound limits := by
  have hfits := h.cursor.fits
  cases he with
  | skipped hplace hl => exact h
  | resumed hplace => exact sound_fresh h.admitted
  | setAside e hplace => exact sound_discard h e
  | setAsideWhole e hplace =>
    have hadmitted := h.admitted.discard e
    rw [discard_eq] at hadmitted ⊢
    exact sound_fresh hadmitted
  | tokenGrown c hplace hsize =>
    have htoken : (s.cursor.token.push c).utf8ByteSize ≤ limits.maxTokenLength := by
      rw [String.utf8ByteSize_push]
      exact hsize
    have hcursor : Cursor.Fits limits { s.cursor with token := s.cursor.token.push c } :=
      ⟨hfits.stages, hfits.commands, hfits.args, hfits.words, htoken, hfits.input, hfits.output⟩
    exact ⟨⟨hcursor, h.cursor.argv, h.cursor.commands⟩, h.input, h.output, h.admitted⟩
  | outputGrown c target hplace htarget hsize =>
    have hpath : PathFits limits (target.path.push c) := by
      rw [PathFits, String.utf8ByteSize_push]
      exact hsize
    have hcursor : Cursor.Fits limits
        { s.cursor with output := some { target with path := target.path.push c } } := by
      refine ⟨hfits.stages, hfits.commands, hfits.args, hfits.words, hfits.token, hfits.input, ?_⟩
      intro target' htarget'
      rw [← Option.some.inj htarget']
      exact hpath
    exact ⟨⟨hcursor, h.cursor.argv, h.cursor.commands⟩, h.input, fun hn => absurd hplace hn, h.admitted⟩
  | inputGrown c path hplace hpath hsize =>
    have hgrown : PathFits limits (path.push c) := by
      rw [PathFits, String.utf8ByteSize_push]
      exact hsize
    have hcursor : Cursor.Fits limits { s.cursor with input := some (path.push c) } := by
      refine ⟨hfits.stages, hfits.commands, hfits.args, hfits.words, hfits.token, ?_, hfits.output⟩
      intro path' hpath'
      rw [← Option.some.inj hpath']
      exact hgrown
    exact ⟨⟨hcursor, h.cursor.argv, h.cursor.commands⟩, fun hn => absurd hplace hn, h.output, h.admitted⟩
  | wordEnded hplace hend =>
    have hpaths : s.cursor.PathsBegun :=
      ⟨h.input (by rw [hplace]; exact nofun), h.output (by rw [hplace]; exact nofun)⟩
    have hbegun := hpaths.wordEnd hend
    exact ⟨h.cursor.wordEnd hend, fun _ => hbegun.input, fun _ => hbegun.output, h.admitted⟩
  | awaited hawaits => exact h
  | pathEnded hplace hbegun =>
    have hpaths := h.pathsBegun hbegun
    exact ⟨h.cursor, fun _ => hpaths.input, fun _ => hpaths.output, h.admitted⟩
  | piped hlive hargv houtput hstages =>
    have hcursor := h.cursor.wordEnd hlive.wordEnd
    have hpaths := (h.pathsBegun hlive.begun).wordEnd hlive.wordEnd
    exact ⟨hcursor.pipe hargv hstages, fun _ => hpaths.input, fun _ => hpaths.output, h.admitted⟩
  | @inputAsked k hlive hargv hcommands hinput =>
    have hcursor := h.cursor.wordEnd hlive.wordEnd
    have hpaths := (h.pathsBegun hlive.begun).wordEnd hlive.wordEnd
    have hk := hcursor.fits
    have hasked : Cursor.Fits limits { k with input := some "" } := by
      refine ⟨hk.stages, hk.commands, hk.args, hk.words, hk.token, ?_, hk.output⟩
      intro path hpath
      rw [← Option.some.inj hpath]
      exact Nat.zero_le _
    exact ⟨⟨hasked, hcursor.argv, hcursor.commands⟩, fun hn => absurd rfl hn, fun _ => hpaths.output, h.admitted⟩
  | @outputAsked k mode hlive hargv houtput =>
    have hcursor := h.cursor.wordEnd hlive.wordEnd
    have hpaths := (h.pathsBegun hlive.begun).wordEnd hlive.wordEnd
    have hk := hcursor.fits
    have hasked : Cursor.Fits limits { k with output := some ⟨"", mode⟩ } := by
      refine ⟨hk.stages, hk.commands, hk.args, hk.words, hk.token, hk.input, ?_⟩
      intro target htarget
      rw [← Option.some.inj htarget]
      exact Nat.zero_le _
    exact ⟨⟨hasked, hcursor.argv, hcursor.commands⟩, fun _ => hpaths.input, fun hn => absurd rfl hn, h.admitted⟩
  | @completed k hlive hargv =>
    have hpaths := (h.pathsBegun hlive.begun).wordEnd hlive.wordEnd
    obtain ⟨hsolid, hready⟩ := (h.cursor.wordEnd hlive.wordEnd).pipeline hpaths hargv
    have hadmitted := Limits.Admitted.complete (s := { s with cursor := k }) h.admitted hsolid hready
    rw [complete_eq] at hadmitted ⊢
    exact sound_fresh hadmitted

/-- At the end of a line a sound scan leaves nothing that may not be run. -/
theorem Sound.closing {sts : List Statement} (h : s.Sound limits) (hc : Closing limits s sts) : limits.Admitted sts := by
  cases hc with
  | skipped hplace => exact h.admitted
  | setAside e hplace => exact h.admitted.discard e
  | blank hend hblank => exact h.admitted
  | @completed k hplace hdangling hend hargv =>
    have hpaths := (h.pathsBegun_of_dangling hdangling).wordEnd hend
    obtain ⟨hsolid, hready⟩ := (h.cursor.wordEnd hend).pipeline hpaths hargv
    exact Limits.Admitted.complete (s := { s with cursor := k }) h.admitted hsolid hready

end Scan

/-- Whatever a line makes ready may be run as it is: it stands in one of the places that the limits have for statements, has a
stage, has no empty word and no empty path, and breaks no limit. -/
theorem parseLine_ready {limits : Limits} {line : String} {sts : List Statement} (h : parseLine limits line = .ok sts) {i : Nat}
    {p : Pipeline} (hp : sts[i]? = some (.ready p)) : i < limits.maxStatements ∧ p.Solid ∧ p.Fits limits := by
  obtain ⟨-, s, hs, hfinish⟩ := parseLine_eq_ok h
  have hempty : ({} : Scan).Sound limits := Scan.sound_fresh Limits.Admitted.nil
  have hsound : s.Sound limits := Scan.run_induction (fun h he => h.step he) hempty hs
  exact hsound.closing (Scan.closing_of_finish hfinish) i p hp

/-- Room for two words and two statements, and none for a second stage. -/
def tight : Limits := { maxStages := 0, maxArgs := 2, maxStatements := 2 }

/-- What stands between two statements that are set aside, one of them malformed past its third word, may be run. -/
theorem parseLine_ready_between :
    parseLine tight "a b c||<<;d \"e\">>f;g" = .ok [.discarded (.tooManyArguments "a"),
        .ready ⟨[⟨"d", ["e"]⟩], none, some ⟨"f", .append⟩⟩, .discarded .tooManyStatements] ∧
      1 < tight.maxStatements ∧ Pipeline.Solid ⟨[⟨"d", ["e"]⟩], none, some ⟨"f", .append⟩⟩ ∧
      Pipeline.Fits tight ⟨[⟨"d", ["e"]⟩], none, some ⟨"f", .append⟩⟩ := by
  have hparse : parseLine tight "a b c||<<;d \"e\">>f;g" = .ok [.discarded (.tooManyArguments "a"),
      .ready ⟨[⟨"d", ["e"]⟩], none, some ⟨"f", .append⟩⟩, .discarded .tooManyStatements] := by rfl
  exact ⟨hparse, parseLine_ready hparse rfl⟩

end PipelineShell
