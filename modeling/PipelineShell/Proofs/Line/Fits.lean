import PipelineShell.Proofs.Line.Assembly

/-!
# What fits the limits

`Pipeline.Fits` says which pipelines the limits of a line admit, and `Cursor.Fits` the same of what has been collected so far.
`Assembly.cursor` is the cursor that holds an assembly together with the word being read. Reading on never makes a cursor fit
again that did not: this is why a statement can be set aside at the character that breaks a limit.
-/

namespace PipelineShell

/-- The words of a command, the name included, are few enough and short enough. -/
def Command.Fits (limits : Limits) (c : Command) : Prop :=
  c.argv.length ≤ limits.maxArgs ∧ ∀ w ∈ c.argv, w.utf8ByteSize ≤ limits.maxTokenLength

instance (limits : Limits) (c : Command) : Decidable (c.Fits limits) := inferInstanceAs (Decidable (_ ∧ _))

/-- A redirection path is short enough. -/
def PathFits (limits : Limits) (path : String) : Prop := path.utf8ByteSize ≤ limits.maxPathLength

instance (limits : Limits) (path : String) : Decidable (PathFits limits path) := inferInstanceAs (Decidable (_ ≤ _))

/-- A pipeline breaks no limit. A single stage is never one too many. -/
def Pipeline.Fits (limits : Limits) (p : Pipeline) : Prop :=
  p.commands.length ≤ max 1 limits.maxStages ∧ (∀ c ∈ p.commands, c.Fits limits) ∧
    (∀ path ∈ p.input, PathFits limits path) ∧ ∀ target ∈ p.output, PathFits limits target.path

instance (limits : Limits) (p : Pipeline) : Decidable (p.Fits limits) :=
  inferInstanceAs (Decidable (_ ∧ _ ∧ (∀ path ∈ p.input, _) ∧ (∀ target ∈ p.output, _)))

/-- What has been collected of a statement breaks no limit, and another stage can be ended without breaking one. -/
structure Cursor.Fits (limits : Limits) (k : Cursor) : Prop where
  stages : k.commands.length < max 1 limits.maxStages
  commands : ∀ c ∈ k.commands, c.Fits limits
  args : k.argv.length ≤ limits.maxArgs
  words : ∀ w ∈ k.argv, w.utf8ByteSize ≤ limits.maxTokenLength
  token : k.token.utf8ByteSize ≤ limits.maxTokenLength
  input : ∀ path ∈ k.input, PathFits limits path
  output : ∀ target ∈ k.output, PathFits limits target.path

namespace Line

variable {limits : Limits}

namespace Assembly

/-- Where the characters of the word being read go. -/
def place (a : Assembly) : Place :=
  match a.awaited with
  | none => .argument
  | some .input => .inputPath
  | some (.output _) => .outputPath

/-- An assembly and the word being read, held by a cursor. -/
def cursor (a : Assembly) (run : String) : Cursor :=
  match a.awaited with
  | none => ⟨a.commands, a.argv, run, a.input, a.output⟩
  | some .input => ⟨a.commands, a.argv, "", some run, a.output⟩
  | some (.output mode) => ⟨a.commands, a.argv, "", a.input, some ⟨run, mode⟩⟩

theorem cursor_of_none {a : Assembly} (h : a.awaited = none) (run : String) :
    a.cursor run = ⟨a.commands, a.argv, run, a.input, a.output⟩ := by
  rw [cursor, h]

theorem place_of_none {a : Assembly} (h : a.awaited = none) : a.place = .argument := by
  rw [place, h]

@[simp] theorem finished_takeWord (a : Assembly) (w : String) : (a.takeWord w).finished = a.finished := by
  unfold takeWord
  split <;> rfl

@[simp] theorem awaited_takeWord (a : Assembly) (w : String) : (a.takeWord w).awaited = none := by
  unfold takeWord
  split
  · assumption
  · rfl
  · rfl

@[simp] theorem finished_flush (a : Assembly) (run : String) : (a.flush run).finished = a.finished := by
  unfold flush
  split
  · rfl
  · exact finished_takeWord a run

theorem awaited_flush {a : Assembly} {run : String} (h : a.awaited = none ∨ run ≠ "") : (a.flush run).awaited = none := by
  by_cases hr : run = ""
  · rw [hr, flush_empty]
    exact h.resolve_right (fun hn => hn hr)
  · rw [flush_of_ne a hr]
    exact awaited_takeWord a run

/-! ## Reading on breaks no limit less -/

theorem fits_empty : (({} : Assembly).cursor "").Fits limits := by
  refine ⟨?_, nofun, Nat.zero_le _, nofun, ?_, nofun, nofun⟩
  · show 0 < max 1 limits.maxStages
    omega
  · show "".utf8ByteSize ≤ limits.maxTokenLength
    exact Nat.zero_le _

/-- A shorter word fits where a longer one does. -/
theorem fits_of_push {a : Assembly} {run : String} {c : Char} (h : (a.cursor (run.push c)).Fits limits) :
    (a.cursor run).Fits limits := by
  have hle : run.utf8ByteSize ≤ (run.push c).utf8ByteSize := by
    rw [String.utf8ByteSize_push]
    exact Nat.le_add_right _ _
  obtain ⟨finished, commands, argv, input, output, _ | _ | mode⟩ := a
  · exact ⟨h.stages, h.commands, h.args, h.words, Nat.le_trans hle h.token, h.input, h.output⟩
  · refine ⟨h.stages, h.commands, h.args, h.words, h.token, ?_, h.output⟩
    rintro path hp
    rw [← Option.some.inj hp]
    exact Nat.le_trans hle (h.input _ rfl)
  · refine ⟨h.stages, h.commands, h.args, h.words, h.token, h.input, ?_⟩
    rintro target hp
    rw [← Option.some.inj hp]
    exact Nat.le_trans hle (h.output _ rfl)

/-- The word being read fits where the assembly that has taken it does. -/
theorem fits_of_flush {a : Assembly} {run : String} (h : ((a.flush run).cursor "").Fits limits) :
    (a.cursor run).Fits limits := by
  by_cases hr : run = ""
  · rw [hr, flush_empty] at h
    rwa [hr]
  · rw [flush_of_ne a hr] at h
    obtain ⟨finished, commands, argv, input, output, _ | _ | mode⟩ := a
    · have hargs : (argv ++ [run]).length ≤ limits.maxArgs := h.args
      have hwords : ∀ w ∈ argv ++ [run], w.utf8ByteSize ≤ limits.maxTokenLength := h.words
      rw [List.length_append] at hargs
      exact ⟨h.stages, h.commands, Nat.le_trans (Nat.le_add_right _ _) hargs, fun w hw => hwords w (List.mem_append_left _ hw),
        hwords run (List.mem_append_right _ (List.mem_singleton_self run)), h.input, h.output⟩
    · exact ⟨h.stages, h.commands, h.args, h.words, h.token, h.input, h.output⟩
    · exact ⟨h.stages, h.commands, h.args, h.words, h.token, h.input, h.output⟩

/-- What an operator leaves of the statement fits only if it did before. -/
theorem fits_of_operate {a : Assembly} {o : Operator} (hp : a.Permits o) (ho : o ≠ .semicolon)
    (h : ((a.operate o).cursor "").Fits limits) : (a.cursor "").Fits limits := by
  obtain ⟨finished, commands, argv, input, output, awaited⟩ := a
  cases o with
  | semicolon => exact absurd rfl ho
  | pipe =>
    obtain ⟨rfl, hargv, -⟩ := hp
    obtain ⟨name, args, rfl⟩ := List.exists_cons_of_ne_nil hargv
    have hstages : (commands ++ [(⟨name, args⟩ : Command)]).length < max 1 limits.maxStages := h.stages
    have hcommands : ∀ c ∈ commands ++ [(⟨name, args⟩ : Command)], c.Fits limits := h.commands
    have hlast := hcommands _ (List.mem_append_right _ (List.mem_singleton_self _))
    rw [List.length_append] at hstages
    exact ⟨Nat.lt_of_le_of_lt (Nat.le_add_right _ _) hstages, fun c hc => hcommands c (List.mem_append_left _ hc), hlast.1,
      hlast.2, h.token, h.input, h.output⟩
  | input =>
    obtain ⟨rfl, -, -, rfl⟩ := hp
    exact ⟨h.stages, h.commands, h.args, h.words, h.token, (fun _ hn => nomatch hn), h.output⟩
  | output mode =>
    obtain ⟨rfl, -, rfl⟩ := hp
    exact ⟨h.stages, h.commands, h.args, h.words, h.token, h.input, fun _ hn => nomatch hn⟩

/-- Where a stage has a name, the statement fits if and only if its pipeline does. -/
theorem pipeline_fits_iff {a : Assembly} (ha : a.awaited = none) (hargv : a.argv ≠ []) :
    a.pipeline.Fits limits ↔ (a.cursor "").Fits limits := by
  obtain ⟨finished, commands, argv, input, output, awaited⟩ := a
  obtain rfl : awaited = none := ha
  obtain ⟨name, args, rfl⟩ := List.exists_cons_of_ne_nil hargv
  have hp : Assembly.pipeline ⟨finished, commands, name :: args, input, output, none⟩ =
    ⟨commands ++ [⟨name, args⟩], input, output⟩ := rfl
  rw [hp]
  constructor
  · rintro ⟨hstages, hcommands, hinput, houtput⟩
    rw [List.length_append] at hstages
    have hlast := hcommands _ (List.mem_append_right _ (List.mem_singleton_self _))
    exact ⟨hstages, fun c hc => hcommands c (List.mem_append_left _ hc), hlast.1, hlast.2, Nat.zero_le _, hinput, houtput⟩
  · intro h
    refine ⟨?_, ?_, h.input, h.output⟩
    · rw [List.length_append]
      exact h.stages
    · intro c hc
      rcases List.mem_append.mp hc with hc | hc
      · exact h.commands c hc
      · rw [List.mem_singleton.mp hc]
        exact ⟨h.args, h.words⟩

end Assembly

end Line

end PipelineShell
