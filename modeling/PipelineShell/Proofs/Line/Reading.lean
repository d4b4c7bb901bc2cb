import PipelineShell.Line.Lexeme

/-!
# How a line is read

`Reads` states the rules of quotes, escapes and operators one by one; `reads_iff` says that `Reading.ofChars` follows them and
nothing else, so every line has exactly one reading. The lexemes of a reading are then put together to words and operators
(`tokens`), which is what the grammar of a line is about.
-/

namespace PipelineShell

namespace Line

/-- The characters that are never literal outside quotes unless a backslash stands before them. -/
def special : List Char := ['\\', '"', ' ', '|', '<', ';', '>']

/-- `Reads quoted cs ls e`: read from outside or inside a quoted stretch, `cs` gives the lexemes `ls` and ends as `e` says. -/
inductive Reads : Bool → List Char → List Lexeme → Ending → Prop where
  | finished : Reads false [] [] .complete
  | unclosed : Reads true [] [] .openQuote
  | alone (quoted : Bool) : Reads quoted ['\\'] [] (.loneBackslash quoted)
  /-- A backslash makes the next character literal, inside quotes and out. -/
  | escaped {quoted : Bool} {cs : List Char} {ls : List Lexeme} {e : Ending} (c : Char) :
      Reads quoted cs ls e → Reads quoted ('\\' :: c :: cs) (.literal c :: ls) e
  /-- An unescaped double quote begins or ends a quoted stretch and stands for nothing. -/
  | quote {quoted : Bool} {cs : List Char} {ls : List Lexeme} {e : Ending} :
      Reads (!quoted) cs ls e → Reads quoted ('"' :: cs) ls e
  | inside {c : Char} {cs : List Char} {ls : List Lexeme} {e : Ending} :
      c ≠ '\\' → c ≠ '"' → Reads true cs ls e → Reads true (c :: cs) (.literal c :: ls) e
  | blank {cs : List Char} {ls : List Lexeme} {e : Ending} :
      Reads false cs ls e → Reads false (' ' :: cs) (.blank :: ls) e
  | pipe {cs : List Char} {ls : List Lexeme} {e : Ending} :
      Reads false cs ls e → Reads false ('|' :: cs) (.operator .pipe :: ls) e
  | input {cs : List Char} {ls : List Lexeme} {e : Ending} :
      Reads false cs ls e → Reads false ('<' :: cs) (.operator .input :: ls) e
  | semicolon {cs : List Char} {ls : List Lexeme} {e : Ending} :
      Reads false cs ls e → Reads false (';' :: cs) (.operator .semicolon :: ls) e
  /-- Two adjacent `>` are one operator. -/
  | append {cs : List Char} {ls : List Lexeme} {e : Ending} :
      Reads false cs ls e → Reads false ('>' :: '>' :: cs) (.operator (.output .append) :: ls) e
  | truncate {cs : List Char} {ls : List Lexeme} {e : Ending} :
      cs.head? ≠ some '>' → Reads false cs ls e → Reads false ('>' :: cs) (.operator (.output .truncate) :: ls) e
  | plain {c : Char} {cs : List Char} {ls : List Lexeme} {e : Ending} :
      c ∉ special → Reads false cs ls e → Reads false (c :: cs) (.literal c :: ls) e

/-- A character that no lookahead concerns is read outside quotes as `plainLexeme` says. -/
theorem reads_plainLexeme {c : Char} {cs : List Char} {ls : List Lexeme} {e : Ending} (hb : c ≠ '\\') (hq : c ≠ '"')
    (hg : c = '>' → cs.head? ≠ some '>') (h : Reads false cs ls e) :
    Reads false (c :: cs) (Reading.plainLexeme c :: ls) e := by
  unfold Reading.plainLexeme
  split
  · exact Reads.blank h
  · exact Reads.pipe h
  · exact Reads.input h
  · exact Reads.semicolon h
  · exact Reads.truncate (hg rfl) h
  · rename_i h1 h2 h3 h4 h5
    refine Reads.plain ?_ h
    simp only [special, List.mem_cons, List.not_mem_nil, or_false, not_or]
    exact ⟨hb, hq, h1, h2, h3, h4, h5⟩

/-- Every line has a reading that follows the rules. -/
theorem reads_ofChars (quoted : Bool) (cs : List Char) :
    Reads quoted cs (Reading.ofChars quoted cs).lexemes (Reading.ofChars quoted cs).ending := by
  fun_induction Reading.ofChars quoted cs with
  | case1 quoted =>
    cases quoted
    · exact Reads.finished
    · exact Reads.unclosed
  | case2 quoted => exact Reads.alone quoted
  | case3 quoted c rest ih => exact Reads.escaped c ih
  | case4 quoted rest ih => exact Reads.quote ih
  | case5 rest ih => exact Reads.inside (by decide) (by decide) (Reads.inside (by decide) (by decide) ih)
  | case6 quoted rest hq ih =>
    rw [Bool.not_eq_true] at hq
    subst hq
    exact Reads.append ih
  | case7 quoted c rest hn hc hq hg ih =>
    have hb : c ≠ '\\' := by
      rintro rfl
      cases rest with
      | nil => exact hn rfl rfl
      | cons d rest => exact hc d rest rfl rfl
    cases quoted with
    | true => exact Reads.inside hb hq ih
    | false =>
      refine reads_plainLexeme hb hq (fun h hh => ?_) ih
      obtain ⟨d, rest, rfl⟩ := List.exists_cons_of_ne_nil (l := rest) (by rintro rfl; cases hh)
      cases hh
      exact hg rest h rfl

/-- Neither a backslash nor a quote nor the first of two adjacent `>`: the character is a lexeme of its own. -/
theorem ofChars_cons {quoted : Bool} {c : Char} {cs : List Char} (hb : c ≠ '\\') (hq : c ≠ '"')
    (hg : c = '>' → cs.head? ≠ some '>') :
    Reading.ofChars quoted (c :: cs) =
      (Reading.ofChars quoted cs).cons (if quoted then .literal c else Reading.plainLexeme c) := by
  rw [Reading.ofChars]
  · exact fun h _ => hb h
  · exact fun _ _ h _ => hb h
  · exact hq
  · rintro rest h rfl
    exact hg h rfl

/-- Inside quotes the lookahead of `>` makes no difference. -/
theorem ofChars_inside {c : Char} {cs : List Char} (hb : c ≠ '\\') (hq : c ≠ '"') :
    Reading.ofChars true (c :: cs) = (Reading.ofChars true cs).cons (.literal c) := by
  induction cs generalizing c with
  | nil => exact ofChars_cons hb hq (fun _ h => nomatch h)
  | cons d cs ih =>
    by_cases h : c = '>' ∧ d = '>'
    · obtain ⟨rfl, rfl⟩ := h
      rw [ih hb hq, Reading.ofChars, if_pos rfl]
    · refine ofChars_cons hb hq (fun hc hd => h ⟨hc, ?_⟩)
      simpa using hd

/-- A reading that follows the rules is the one of `Reading.ofChars`. -/
theorem ofChars_of_reads {quoted : Bool} {cs : List Char} {ls : List Lexeme} {e : Ending} (h : Reads quoted cs ls e) :
    Reading.ofChars quoted cs = ⟨ls, e⟩ := by
  induction h with
  | finished | unclosed | alone => rfl
  | escaped c _ ih => rw [Reading.ofChars, ih]; rfl
  | quote _ ih => rw [Reading.ofChars, ih]
  | inside hb hq _ ih => rw [ofChars_inside hb hq, ih]; rfl
  | blank _ ih | pipe _ ih | input _ ih | semicolon _ ih =>
    rw [ofChars_cons (by decide) (by decide) (fun h => absurd h (by decide)), ih]
    rfl
  | append _ ih => rw [Reading.ofChars, ih]; rfl
  | truncate hg _ ih =>
    rw [ofChars_cons (by decide) (by decide) (fun _ => hg), ih]
    rfl
  | @plain c cs ls e hc _ ih =>
    simp only [special, List.mem_cons, List.not_mem_nil, or_false, not_or] at hc
    obtain ⟨hb, hq, h1, h2, h3, h4, h5⟩ := hc
    have hl : Reading.plainLexeme c = .literal c := by simp [Reading.plainLexeme]
    rw [ofChars_cons hb hq (fun h => absurd h h5), ih, if_neg Bool.false_ne_true, hl]
    rfl

/-- `Reading.ofChars` gives the one reading that follows the rules. -/
theorem reads_iff {quoted : Bool} {cs : List Char} {ls : List Lexeme} {e : Ending} :
    Reads quoted cs ls e ↔ Reading.ofChars quoted cs = ⟨ls, e⟩ := by
  refine ⟨ofChars_of_reads, fun h => ?_⟩
  have := reads_ofChars quoted cs
  rwa [h] at this

/-! ## Words and operators -/

/-- What the structure of a line is made of. -/
inductive Token where
  | word (text : String)
  | operator (o : Operator)
  deriving DecidableEq, Repr

/-- The word that a run of literal characters makes; no character makes no word. -/
def Token.ofRun (run : String) : List Token := if run = "" then [] else [.word run]

/-- The words and operators of lexemes that follow the characters `run` of a word: a word is a longest run of literal
characters. -/
def tokens (run : String) : List Lexeme → List Token
  | [] => Token.ofRun run
  | .literal c :: ls => tokens (run.push c) ls
  | .blank :: ls => Token.ofRun run ++ tokens "" ls
  | .operator o :: ls => Token.ofRun run ++ .operator o :: tokens "" ls

end Line

end PipelineShell
