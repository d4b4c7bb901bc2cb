import PipelineShell.Proofs.Line.Reading

/-!
# A line read as it is typed

A `Fragment` is what has been read of a line of which only a part is there yet. Each character takes it one step further, and nothing
that has been settled is looked at again (`Fragment.settled_prefix`): only a `>` at the end is left open, for another one behind it
would make it `>>`. `Fragment.reading_ofText` says that a line read in this way has the reading it has as a whole.
-/

namespace PipelineShell

namespace Line

/-- Where the next character of a line is read. -/
inductive Mode where
  /-- Outside or inside quotes. -/
  | text (quoted : Bool)
  /-- After a backslash. -/
  | escape (quoted : Bool)
  /-- After an operator `>`. -/
  | angle
  deriving DecidableEq, Repr

/-- What has been read of a line so far. -/
structure Fragment where
  /-- The lexemes that no character behind them can change. -/
  settled : List Lexeme := []
  mode : Mode := .text false
  deriving DecidableEq, Repr

namespace Fragment

/-- Reads a character that no backslash stands before and that does not make a `>` before it a `>>`. -/
def takePlain (ls : List Lexeme) (quoted : Bool) (c : Char) : Fragment :=
  if c = '\\' then ⟨ls, .escape quoted⟩
  else if c = '"' then ⟨ls, .text (!quoted)⟩
  else if quoted then ⟨ls ++ [.literal c], .text true⟩
  else if c = '>' then ⟨ls, .angle⟩
  else ⟨ls ++ [Reading.plainLexeme c], .text false⟩

/-- Reads a character. -/
def take (f : Fragment) (c : Char) : Fragment :=
  match f.mode with
  | .text quoted => takePlain f.settled quoted c
  | .escape quoted => ⟨f.settled ++ [.literal c], .text quoted⟩
  | .angle =>
    if c = '>' then ⟨f.settled ++ [.operator (.output .append)], .text false⟩
    else takePlain (f.settled ++ [.operator (.output .truncate)]) false c

/-- Reads characters in order. -/
def takeAll (f : Fragment) (cs : List Char) : Fragment := cs.foldl take f

/-- The reading, if the line ends here. -/
def reading (f : Fragment) : Reading :=
  match f.mode with
  | .text quoted => ⟨f.settled, if quoted then .openQuote else .complete⟩
  | .escape quoted => ⟨f.settled, .loneBackslash quoted⟩
  | .angle => ⟨f.settled ++ [.operator (.output .truncate)], .complete⟩

/-- What is read of a text. -/
def ofText (text : String) : Fragment := takeAll {} text.toList

variable {f : Fragment} {cs : List Char} {c : Char}

@[simp] theorem takeAll_nil (f : Fragment) : f.takeAll [] = f := rfl

@[simp] theorem takeAll_cons (f : Fragment) (c : Char) (cs : List Char) : f.takeAll (c :: cs) = (f.take c).takeAll cs := rfl

theorem ofText_append (text more : String) : ofText (text ++ more) = (ofText text).takeAll more.toList := by
  rw [ofText, String.toList_append, takeAll, List.foldl_append]
  rfl

/-! ## The reading of a fragment -/

/-- A character that is no lexeme of its own behind a `>` is read there as if the `>` were settled. -/
theorem take_angle (ls : List Lexeme) (hc : c ≠ '>') :
    take ⟨ls, .angle⟩ c = take ⟨ls ++ [.operator (.output .truncate)], .text false⟩ c := if_neg hc

@[simp] theorem take_text (ls : List Lexeme) (quoted : Bool) (c : Char) : take ⟨ls, .text quoted⟩ c = takePlain ls quoted c := rfl

theorem takePlain_inside (ls : List Lexeme) (hb : c ≠ '\\') (hq : c ≠ '"') :
    takePlain ls true c = ⟨ls ++ [.literal c], .text true⟩ := by
  rw [takePlain, if_neg hb, if_neg hq, if_pos rfl]

theorem takePlain_of_not_special (ls : List Lexeme) (hc : c ∉ special) :
    takePlain ls false c = ⟨ls ++ [.literal c], .text false⟩ := by
  simp only [special, List.mem_cons, List.not_mem_nil, or_false, not_or] at hc
  obtain ⟨hb, hq, h1, h2, h3, h4, h5⟩ := hc
  simp [takePlain, Reading.plainLexeme, hb, hq, h5]

/-- Characters that are read by the rules are read as they come. -/
theorem reading_takeAll {quoted : Bool} {ls : List Lexeme} {e : Ending} (h : Reads quoted cs ls e) (before : List Lexeme) :
    (takeAll ⟨before, .text quoted⟩ cs).reading = ⟨before ++ ls, e⟩ := by
  induction h generalizing before with
  | finished | unclosed | alone =>
    rw [List.append_nil]
    rfl
  | @escaped quoted cs ls e c _ ih =>
    rw [List.append_cons]
    exact ih _
  | quote _ ih => exact ih before
  | @inside c cs ls e hb hq _ ih =>
    rw [List.append_cons, takeAll_cons, take_text, takePlain_inside _ hb hq]
    exact ih _
  | blank _ ih | pipe _ ih | input _ ih | semicolon _ ih | append _ ih =>
    rw [List.append_cons]
    exact ih _
  | @truncate cs ls e hcs _ ih =>
    have hrest := ih (before ++ [.operator (.output .truncate)])
    rw [List.append_cons, ← hrest]
    cases cs with
    | nil => rfl
    | cons c cs =>
      have hc : c ≠ '>' := fun hc => hcs (congrArg some hc)
      show (takeAll (take ⟨before, .angle⟩ c) cs).reading = _
      rw [take_angle before hc]
      rfl
  | plain hc _ ih =>
    rw [List.append_cons, takeAll_cons, take_text, takePlain_of_not_special _ hc]
    exact ih _

/-- A line read as it is typed has its reading. -/
theorem reading_ofText (text : String) : (ofText text).reading = Reading.ofLine text :=
  reading_takeAll (reads_ofChars false text.toList) []

/-! ## What is settled stays -/

theorem settled_prefix_reading (f : Fragment) : f.settled <+: f.reading.lexemes := by
  unfold reading
  split
  · exact List.prefix_rfl
  · exact List.prefix_rfl
  · exact List.prefix_append _ _

theorem prefix_takePlain (ls : List Lexeme) (quoted : Bool) (c : Char) : ls <+: (takePlain ls quoted c).settled := by
  unfold takePlain
  split
  · exact List.prefix_rfl
  · split
    · exact List.prefix_rfl
    · split
      · exact List.prefix_append _ _
      · split
        · exact List.prefix_rfl
        · exact List.prefix_append _ _

theorem settled_prefix_take (f : Fragment) (c : Char) : f.settled <+: (f.take c).settled := by
  unfold take
  split
  · exact prefix_takePlain _ _ c
  · exact List.prefix_append _ _
  · split
    · exact List.prefix_append _ _
    · exact (List.prefix_append _ _).trans (prefix_takePlain _ _ c)

/-- What has been settled is part of every reading that the line can come to. -/
theorem settled_prefix (f : Fragment) (cs : List Char) : f.settled <+: (f.takeAll cs).reading.lexemes := by
  induction cs generalizing f with
  | nil => exact f.settled_prefix_reading
  | cons c cs ih => exact (f.settled_prefix_take c).trans (ih (f.take c))

/-! ## A `>` at the end -/

theorem mode_takePlain_eq_angle {ls : List Lexeme} {quoted : Bool} (h : (takePlain ls quoted c).mode = .angle) :
    c = '>' ∧ (takePlain ls quoted c).settled = ls := by
  unfold takePlain at h ⊢
  split at h
  · cases h
  · split at h
    · cases h
    · split at h
      · cases h
      · split at h
        · rename_i hb hq hquoted hc
          subst hc
          rw [if_neg hb, if_neg hq, if_neg hquoted, if_pos rfl]
          exact ⟨rfl, rfl⟩
        · cases h

theorem mode_take_eq_angle (h : (f.take c).mode = .angle) : c = '>' ∧ (f.take c).settled = f.reading.lexemes := by
  obtain ⟨ls, quoted | quoted | _⟩ := f
  · exact mode_takePlain_eq_angle h
  · cases h
  · by_cases hc : c = '>'
    · subst hc
      cases h
    · rw [take_angle ls hc] at h ⊢
      exact mode_takePlain_eq_angle h

/-- A fragment is open at its end only behind a `>`, and then everything before the `>` is settled. -/
theorem exists_of_mode_angle {text : String} (h : (ofText text).mode = .angle) :
    ∃ before, text = before ++ ">" ∧ (ofText text).settled = (ofText before).reading.lexemes := by
  rcases List.eq_nil_or_concat text.toList with hnil | ⟨bs, c, hcs⟩
  · rw [ofText, hnil] at h
    cases h
  · have htext : text = String.ofList bs ++ String.ofList [c] := by
      rw [← String.ofList_append, ← List.concat_eq_append, ← hcs, String.ofList_toList]
    have hlast : ofText text = (ofText (String.ofList bs)).take c := by
      rw [htext, ofText_append, String.toList_ofList]
      rfl
    rw [hlast] at h ⊢
    obtain ⟨rfl, hsettled⟩ := mode_take_eq_angle h
    exact ⟨String.ofList bs, htext, hsettled⟩

end Fragment

end Line

end PipelineShell
