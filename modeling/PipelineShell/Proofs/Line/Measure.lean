import PipelineShell.Proofs.Line.Admission

/-!
# How long the parts of a line are

Whatever a line says, its words and operators are no more than its bytes, and no word of it is longer than the line. So limits above
the length of a line concern no part of it (`Limits.Above.admits`).
-/

namespace PipelineShell

/-- How many bytes of a line a lexeme takes at least. -/
def Lexeme.size : Lexeme → Nat
  | .literal c => c.utf8Size
  | .blank | .operator _ => 1

/-- How many bytes lexemes take together at least. -/
def Lexeme.sizes : List Lexeme → Nat
  | [] => 0
  | l :: ls => l.size + sizes ls

namespace Line

theorem utf8ByteSize_ofList_cons (c : Char) (cs : List Char) :
    (String.ofList (c :: cs)).utf8ByteSize = c.utf8Size + (String.ofList cs).utf8ByteSize := by
  rw [String.ofList_cons, String.utf8ByteSize_append, String.utf8ByteSize_singleton]

section

variable {cs : List Char} {ls : List Lexeme}

theorem size_le_cons (c : Char) (cs : List Char) : (String.ofList cs).utf8ByteSize ≤ (String.ofList (c :: cs)).utf8ByteSize := by
  rw [utf8ByteSize_ofList_cons]
  exact Nat.le_add_left _ _

theorem sizes_cons_le {l : Lexeme} {c : Char} (hl : l.size ≤ c.utf8Size)
    (h : Lexeme.sizes ls ≤ (String.ofList cs).utf8ByteSize) :
    Lexeme.sizes (l :: ls) ≤ (String.ofList (c :: cs)).utf8ByteSize := by
  rw [utf8ByteSize_ofList_cons, Lexeme.sizes]
  exact Nat.add_le_add hl h

/-- A line is at least as long as what is read of it. -/
theorem Reads.size_le {quoted : Bool} {e : Ending} (h : Reads quoted cs ls e) :
    Lexeme.sizes ls ≤ (String.ofList cs).utf8ByteSize := by
  induction h with
  | finished | unclosed | alone => exact Nat.zero_le _
  | escaped c _ ih => exact Nat.le_trans (sizes_cons_le (Nat.le_refl _) ih) (size_le_cons _ _)
  | quote _ ih => exact Nat.le_trans ih (size_le_cons _ _)
  | inside _ _ _ ih | plain _ _ ih => exact sizes_cons_le (Nat.le_refl _) ih
  | blank _ ih | pipe _ ih | input _ ih | semicolon _ ih | truncate _ _ ih => exact sizes_cons_le (Char.utf8Size_pos _) ih
  | append _ ih => exact Nat.le_trans (sizes_cons_le (Char.utf8Size_pos _) ih) (size_le_cons _ _)

end

/-- A run of characters makes no more words than it has bytes. -/
theorem length_ofRun_le (run : String) : (Token.ofRun run).length ≤ run.utf8ByteSize := by
  unfold Token.ofRun
  split
  · exact Nat.zero_le _
  · rename_i hr
    exact Nat.pos_of_ne_zero fun h => hr (String.utf8ByteSize_eq_zero_iff.mp h)

theorem eq_of_mem_ofRun {run w : String} (h : .word w ∈ Token.ofRun run) : w = run := by
  unfold Token.ofRun at h
  split at h
  · cases h
  · exact Token.word.inj (List.mem_singleton.mp h)

/-- Words and operators are no more than the bytes they are read from. -/
theorem length_tokens_le (run : String) (ls : List Lexeme) :
    (tokens run ls).length ≤ run.utf8ByteSize + Lexeme.sizes ls := by
  fun_induction tokens run ls with
  | case1 run => exact length_ofRun_le run
  | case2 run c ls ih =>
    rw [String.utf8ByteSize_push] at ih
    rw [Lexeme.sizes, Lexeme.size]
    omega
  | case3 run ls ih =>
    have hrun := length_ofRun_le run
    rw [String.utf8ByteSize_empty] at ih
    rw [List.length_append, Lexeme.sizes, Lexeme.size]
    omega
  | case4 run o ls ih =>
    have hrun := length_ofRun_le run
    rw [String.utf8ByteSize_empty] at ih
    rw [List.length_append, List.length_cons, Lexeme.sizes, Lexeme.size]
    omega

/-- No word is longer than what it is read from. -/
theorem size_le_of_mem_tokens {w : String} (run : String) (ls : List Lexeme) (h : .word w ∈ tokens run ls) :
    w.utf8ByteSize ≤ run.utf8ByteSize + Lexeme.sizes ls := by
  fun_induction tokens run ls with
  | case1 run =>
    rw [eq_of_mem_ofRun h]
    exact Nat.le_add_right _ _
  | case2 run c ls ih =>
    have hw := ih h
    rw [String.utf8ByteSize_push] at hw
    rw [Lexeme.sizes, Lexeme.size]
    omega
  | case3 run ls ih =>
    rw [Lexeme.sizes]
    rcases List.mem_append.mp h with h | h
    · rw [eq_of_mem_ofRun h]
      exact Nat.le_add_right _ _
    · have hw := ih h
      rw [String.utf8ByteSize_empty] at hw
      omega
  | case4 run o ls ih =>
    rw [Lexeme.sizes]
    rcases List.mem_append.mp h with h | h
    · rw [eq_of_mem_ofRun h]
      exact Nat.le_add_right _ _
    · rcases List.mem_cons.mp h with h | h
      · cases h
      · have hw := ih h
        rw [String.utf8ByteSize_empty] at hw
        omega

section

variable {α : Type} [DecidableEq α] {sep : α}

/-- There is at most one piece more than there are elements. -/
theorem length_splitOn_le (sep : α) (xs : List α) : (xs.splitOn sep).length ≤ xs.length + 1 := by
  induction xs with
  | nil => exact Nat.le_refl _
  | cons x xs ih =>
    rw [List.splitOn_cons_eq_if_modifyHead]
    split
    · exact Nat.succ_le_succ ih
    · rw [List.length_modifyHead, List.length_cons]
      omega

/-- A piece is made of elements of the list, in their order. -/
theorem sublist_of_mem_splitOn {xs piece : List α} (h : piece ∈ xs.splitOn sep) : piece.Sublist xs := by
  induction xs generalizing piece with
  | nil =>
    obtain rfl := List.mem_singleton.mp h
    exact List.Sublist.refl _
  | cons x xs ih =>
    rw [List.splitOn_cons_eq_if_modifyHead] at h
    split at h
    · rcases List.mem_cons.mp h with rfl | h
      · exact List.nil_sublist _
      · exact (ih h).cons x
    · obtain ⟨first, rest, hpieces⟩ := List.exists_cons_of_ne_nil (List.splitOn_ne_nil sep xs)
      rw [hpieces] at h ih
      rcases List.mem_cons.mp h with rfl | h
      · exact (ih List.mem_cons_self).cons_cons x
      · exact (ih (List.mem_cons_of_mem first h)).cons x

end

/-- Words are no more than the tokens they are among. -/
theorem length_words_le (r : Role) (ts : List Token) : (words r ts).length ≤ ts.length := by
  induction ts generalizing r with
  | nil => exact Nat.le_refl _
  | cons t ts ih =>
    cases t with
    | word w => exact Nat.succ_le_succ (ih .argument)
    | operator o => exact Nat.le_succ_of_le (ih (.after o))

theorem mem_of_mem_words {r : Role} {ts : List Token} {w : Role × String} (h : w ∈ words r ts) : .word w.2 ∈ ts := by
  induction ts generalizing r with
  | nil => cases h
  | cons t ts ih =>
    cases t with
    | word v =>
      rcases List.mem_cons.mp h with rfl | h
      · exact List.mem_cons_self
      · exact List.mem_cons_of_mem _ (ih h)
    | operator o => exact List.mem_cons_of_mem _ (ih h)

end Line

open Line

/-- Every limit is above a number. -/
structure Limits.Above (limits : Limits) (n : Nat) : Prop where
  line : n < limits.maxLineLength
  statements : n < limits.maxStatements
  stages : n < limits.maxStages
  args : n < limits.maxArgs
  token : n < limits.maxTokenLength
  path : n < limits.maxPathLength

/-- Limits above the length of a line concern no part of it. -/
theorem Limits.Above.admits {limits : Limits} {line : String} (h : limits.Above line.utf8ByteSize) :
    limits.Admits (tokens "" (Reading.ofLine line).lexemes) := by
  have hread := (reads_ofChars false line.toList).size_le
  rw [String.ofList_toList] at hread
  have hlength := length_tokens_le "" (Reading.ofLine line).lexemes
  have hword {w : String} (hw : .word w ∈ tokens "" (Reading.ofLine line).lexemes) : w.utf8ByteSize ≤ line.utf8ByteSize := by
    have hsize := size_le_of_mem_tokens _ _ hw
    rw [String.utf8ByteSize_empty, Nat.zero_add] at hsize
    exact Nat.le_trans hsize hread
  generalize tokens "" (Reading.ofLine line).lexemes = ts at hlength hword ⊢
  rw [String.utf8ByteSize_empty, Nat.zero_add] at hlength
  have hlength := Nat.le_trans hlength hread
  refine ⟨?_, fun piece hpiece => ?_, fun piece hpiece stage hstage => ⟨?_, fun w hw => ?_⟩⟩
  · have hfilter := List.length_filter_le (· ≠ []) (ts.splitOn (.operator .semicolon))
    have hpieces := length_splitOn_le (.operator .semicolon) ts
    have habove := h.statements
    omega
  · have hpieces := length_splitOn_le (.operator .pipe) piece
    have hpiece := (sublist_of_mem_splitOn hpiece).length_le
    have habove := h.stages
    omega
  · have hfilter := List.length_filter_le (·.1 = .argument) (words .argument stage)
    have hwords := length_words_le .argument stage
    have hstage := ((sublist_of_mem_splitOn hstage).trans (sublist_of_mem_splitOn hpiece)).length_le
    have habove := h.args
    omega
  · have hmem := ((sublist_of_mem_splitOn hstage).trans (sublist_of_mem_splitOn hpiece)).subset (mem_of_mem_words hw)
    refine Nat.le_trans (hword hmem) ?_
    cases w.1 with
    | argument => exact Nat.le_of_lt h.token
    | path => exact Nat.le_of_lt h.path

end PipelineShell
