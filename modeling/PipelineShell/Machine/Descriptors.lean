import PipelineShell.Host

/-!
# Descriptor tables

A table says what each descriptor of a process refers to. Its view is `get?`; the operations are described by what they do to
that view. A new descriptor is always the lowest free one.
-/

namespace PipelineShell

/-- A descriptor table. -/
structure Descriptors (α : Type) where
  slots : List (Option α) := []
  deriving DecidableEq, Repr

namespace Descriptors

variable {α : Type}

/-- What the descriptor numbered `n` refers to. -/
def slot? (t : Descriptors α) (n : Nat) : Option α := (t.slots[n]?).getD none

/-- What a descriptor refers to; a negative one refers to nothing. -/
def get? (t : Descriptors α) : Fd → Option α
  | .ofNat n => t.slot? n
  | .negSucc _ => none

/-- The lowest number that refers to nothing. -/
def lowestFree (t : Descriptors α) : Nat := t.slots.findIdx Option.isNone

/-- Makes a number refer to `a`. -/
def put (t : Descriptors α) (n : Nat) (a : α) : Descriptors α :=
  ⟨(t.slots ++ List.replicate (n + 1 - t.slots.length) none).set n (some a)⟩

/-- Makes a number refer to nothing. -/
def erase (t : Descriptors α) (n : Nat) : Descriptors α := ⟨t.slots.set n none⟩

/-- The numbers in use, with what they refer to. -/
def toList (t : Descriptors α) : List (Nat × α) :=
  t.slots.zipIdx.filterMap fun (entry, n) => entry.map (n, ·)

@[simp] theorem get?_ofNat (t : Descriptors α) (n : Nat) : t.get? (n : Int) = t.slot? n := rfl

theorem slot?_lowestFree (t : Descriptors α) : t.slot? t.lowestFree = none := by
  unfold slot? lowestFree
  by_cases h : t.slots.findIdx Option.isNone < t.slots.length
  · have e : (t.slots.get ⟨t.slots.findIdx Option.isNone, h⟩).isNone = true := List.findIdx_getElem
    rw [List.getElem?_eq_getElem h]
    simpa [Option.isNone_iff_eq_none] using e
  · rw [List.getElem?_eq_none (by omega)]
    rfl

theorem isSome_slot?_of_lt_lowestFree (t : Descriptors α) {n : Nat} (h : n < t.lowestFree) : (t.slot? n).isSome := by
  unfold lowestFree at h
  have e := List.not_of_lt_findIdx h
  have l : n < t.slots.length := Nat.lt_of_lt_of_le h List.findIdx_le_length
  unfold slot?
  rw [List.getElem?_eq_getElem l]
  cases hs : t.slots[n] with
  | none => simp [hs] at e
  | some a => simp

theorem slot?_put (t : Descriptors α) (n m : Nat) (a : α) :
    (t.put n a).slot? m = if m = n then some a else t.slot? m := by
  unfold slot? put
  rw [List.getElem?_set]
  by_cases h : n = m
  · subst h
    have l : n < (t.slots ++ List.replicate (n + 1 - t.slots.length) none).length := by
      simp
      omega
    rw [if_pos rfl, if_pos l, if_pos rfl]
    rfl
  · rw [if_neg h, if_neg (Ne.symm h)]
    by_cases hm : m < t.slots.length
    · rw [List.getElem?_append_left hm]
    · rw [List.getElem?_append_right (by omega), List.getElem?_replicate, List.getElem?_eq_none (by omega)]
      split <;> rfl

theorem slot?_erase (t : Descriptors α) (n m : Nat) : (t.erase n).slot? m = if m = n then none else t.slot? m := by
  unfold slot? erase
  rw [List.getElem?_set]
  by_cases h : n = m
  · subst h
    simp only [if_true]
    split <;> rfl
  · rw [if_neg h, if_neg (Ne.symm h)]

end Descriptors

end PipelineShell
