import PipelineShell.Utility.Escape

/-!
# Programs that write their arguments: `echo` and `printf`

A format is text, escapes and conversions; each conversion takes an argument, and the format is used as often as there are
arguments left. `PrintfRules` says where the program and the command of the interpreter that bear the name differ.
-/

namespace PipelineShell

namespace Utility

/-- The escapes of `echo -e`. -/
def echoEscapes : EscapeRules :=
  { letters := "abefnrtv\\".toList, stops := true, leadingZero := true, hexadecimal := true }

/-- The arguments of `echo` after its options, and which letters these have. -/
def echoOptions : List String → List Char × List String
  | [] => ([], [])
  | arg :: rest =>
    match arg.toList with
    | '-' :: c :: cs =>
      if (c :: cs).all fun letter => letter = 'n' ∨ letter = 'e' ∨ letter = 'E' then
        let (letters, words) := echoOptions rest
        (c :: cs ++ letters, words)
      else ([], arg :: rest)
    | _ => ([], arg :: rest)

/-- The line `echo` writes; `-n` leaves out its end, and `-e` replaces escapes. -/
def echoOutput (args : List String) : Bytes :=
  let (letters, words) := echoOptions args
  let line := " ".intercalate words
  let ending := Output.ofString (if letters.contains 'n' then "" else "\n")
  let interpret := (letters.reverse.find? fun letter => letter ≠ 'n') = some 'e'
  ((if interpret then unescape echoEscapes line.toList else Output.ofString line).append ending).data

/-- Writes its arguments, one blank apart. -/
def echo : Utility := fun argv => finish 0 (echoOutput (argv.drop 1))

/-- A width or a precision. -/
inductive Measured where
  | fixed (n : Nat)
  /-- The next argument tells it. -/
  | argument
  deriving DecidableEq, Repr

/-- A conversion of a format. -/
structure Conversion where
  /-- It as it is written, with its percent sign. -/
  written : String
  flags : List Char := []
  width : Option Measured := none
  precision : Option Measured := none
  /-- What the argument is read as. None if the format ends before it. -/
  letter : Option Char := none
  deriving DecidableEq, Repr

namespace Conversion

/-- Letters that tell the size of a number; they change nothing here. -/
def sizeLetters : List Char := "lLhjtz".toList

/-- Reads a width or a precision. -/
def readMeasured : List Char → Option Measured × List Char
  | '*' :: cs => (some .argument, cs)
  | cs =>
    let digits := cs.takeWhile Char.isDigit
    (if digits.isEmpty then none else some (.fixed (digits.foldl (fun n c => n * 10 + (c.toNat - 48)) 0)),
      cs.dropWhile Char.isDigit)

/-- Reads a conversion, after its percent sign, and tells how many characters it has. `sized` says that it may have letters
for a size. -/
def read (sized : Bool) (cs : List Char) : Conversion × Nat :=
  let flags := cs.takeWhile "-+ #0".toList.contains
  let (width, rest) := readMeasured (cs.drop flags.length)
  let (precision, rest) := match rest with
    | '.' :: rest =>
      let (precision, rest) := readMeasured rest
      (some (precision.getD (.fixed 0)), rest)
    | rest => (none, rest)
  let rest := if sized then rest.dropWhile sizeLetters.contains else rest
  let length := cs.length - (rest.drop 1).length
  ({ written := "%" ++ String.ofList (cs.take length), flags, width, precision, letter := rest.head? }, length)

/-- The widest field there is. -/
def widthMax : Nat := 2147483647

/-- Puts blanks on one side of a text. Nothing comes of a field that is too wide. -/
def pad (c : Conversion) (width : Nat) (text : Bytes) : Bytes :=
  let blanks := List.replicate (width - text.length) 32
  if width ≥ widthMax then []
  else if c.flags.contains '-' then text ++ blanks else blanks ++ text

/-- A number in a field: its sign or what else comes first, then its digits. -/
def renderNumber (c : Conversion) (width : Nat) (precision : Option Nat) (start : String) (digits : List Char) : Bytes :=
  let digits := if precision = some 0 ∧ digits = ['0'] then [] else digits
  let shortest := match precision with
    | some n => n
    | none => if c.flags.contains '0' ∧ !c.flags.contains '-' then width - start.length else 1
  let zeros := List.replicate (shortest - digits.length) '0'
  c.pad width (Bytes.ofString (start ++ String.ofList (zeros ++ digits)))

/-- A number as the letter asks for. -/
def renderInteger (c : Conversion) (width : Nat) (precision : Option Nat) (letter : Char) (n : Int) : Bytes :=
  let alternate := c.flags.contains '#' ∧ n ≠ 0
  match letter with
  | 'o' =>
    let digits := Nat.toDigits 8 n.toNat
    let shortest := if alternate then max (precision.getD 1) (digits.length + 1) else precision.getD 1
    c.renderNumber width (if alternate ∨ precision.isSome then some shortest else none) "" digits
  | 'x' => c.renderNumber width precision (if alternate then "0x" else "") (Nat.toDigits 16 n.toNat)
  | 'X' => c.renderNumber width precision (if alternate then "0X" else "") ((Nat.toDigits 16 n.toNat).map Char.toUpper)
  | 'u' => c.renderNumber width precision "" (Nat.toDigits 10 n.toNat)
  | _ =>
    let sign := if n < 0 then "-" else if c.flags.contains '+' then "+" else if c.flags.contains ' ' then " " else ""
    c.renderNumber width precision sign (Nat.toDigits 10 n.natAbs)

/-- A text as the letter asks for: as much of it as the precision allows. -/
def renderText (c : Conversion) (width : Nat) (precision : Option Nat) (text : Bytes) : Bytes :=
  c.pad width (match precision with
    | some n => text.take n
    | none => text)

end Conversion

/-- A part of a format. -/
inductive FormatPart where
  | verbatim (output : Output)
  | conversion (c : Conversion)
  deriving DecidableEq, Repr

/-- The parts of a format. -/
def FormatPart.ofFormat (escapes : EscapeRules) (sized : Bool) (format : List Char) : List FormatPart :=
  match format with
  | [] => []
  | '\\' :: cs => .verbatim (escape escapes cs).1 :: ofFormat escapes sized (escape escapes cs).2
  | '%' :: '%' :: cs => .verbatim (Output.ofString "%") :: ofFormat escapes sized cs
  | '%' :: cs =>
    let (c, length) := Conversion.read sized cs
    .conversion c :: ofFormat escapes sized (cs.drop length)
  | c :: cs => .verbatim (Output.ofString c.toString) :: ofFormat escapes sized cs
termination_by format.length
decreasing_by
  · have := length_escape escapes cs
    simp only [List.length_cons]
    omega
  · simp only [List.length_cons]
    omega
  · simp only [List.length_cons, List.length_drop]
    omega
  · simp only [List.length_cons]
    omega

/-- What is wrong with an argument that is to be a number. -/
inductive NumberFault where
  | noNumber
  | hasMore
  | outOfRange
  deriving DecidableEq, Repr

/-- An integer that a text begins with, in base ten, eight after a zero or sixteen after `0x`, and what follows it. -/
def leadingInteger? (text : List Char) : Option (Int × List Char) :=
  let body := text.dropWhile fun c => c = ' ' ∨ ('\t' ≤ c ∧ c ≤ '\r')
  let (negative, body) := match body with
    | '-' :: rest => (true, rest)
    | '+' :: rest => (false, rest)
    | rest => (false, rest)
  let (base, digits) := match body with
    | '0' :: x :: d :: rest =>
      if (x = 'x' ∨ x = 'X') ∧ (digitIn? 16 d).isSome then (16, d :: rest) else (8, body)
    | '0' :: _ => (8, body)
    | _ => (10, body)
  let (magnitude, rest) := readDigits base digits.length 0 digits
  if rest.length = digits.length then none else some (if negative then -(magnitude : Int) else magnitude, rest)

/-- The numbers of 64 bits: how many there are. -/
def wordCount : Int := 18446744073709551616

/-- A number as one of 64 bits with a sign or without, the nearest one there is. Without a sign a negative number counts from the
other end. -/
def toWord (signed : Bool) (n : Int) : Int × Option NumberFault :=
  if signed then
    if n < Decimal.longMin then (Decimal.longMin, some .outOfRange)
    else if n > Decimal.longMax then (Decimal.longMax, some .outOfRange)
    else (n, none)
  else if n.natAbs > Decimal.wordMax then (Decimal.wordMax, some .outOfRange)
  else (if n < 0 then n + wordCount else n, none)

/-- The number of 64 bits an argument is. The byte after a quote is one, too. -/
def integerOf (signed : Bool) (arg : String) : Int × Option NumberFault :=
  let quoted? := match arg.toList with
    | quote :: c :: _ => if quote = '\'' ∨ quote = '"' then (Bytes.ofString c.toString).head? else none
    | _ => none
  match quoted?, leadingInteger? arg.toList with
  | some b, _ => (b.toNat, none)
  | none, none => (0, if arg.isEmpty then none else some .noNumber)
  | none, some (n, rest) =>
    let (n, fault?) := toWord signed n
    (n, fault?.or (if rest.isEmpty then none else some .hasMore))

/-- Where those that bear the name `printf` differ. -/
structure PrintfRules where
  /-- The escapes of a format. -/
  escapes : EscapeRules
  /-- The escapes of an argument. -/
  argumentEscapes : EscapeRules
  /-- The size of a number may be told. -/
  sized : Bool
  /-- Conversions that are accepted. -/
  accepts : Conversion → Char → Bool
  /-- The complaint about a conversion that is not accepted, and the status. -/
  refusal : Conversion → String × Nat
  /-- The complaint about an argument. -/
  numberComplaint : String → NumberFault → String
  /-- Arguments that no conversion takes are complained of. -/
  countsArguments : Bool

namespace PrintfRules

/-- The letters of conversions. -/
def letters : List Char := "bcdiosuxX".toList

/-- The rules of the program. -/
def program : PrintfRules where
  escapes := { letters := "abefnrtv\\\"".toList, stops := true, hexadecimal := true }
  argumentEscapes := { letters := "abefnrtv\\\"".toList, stops := true, leadingZero := true, hexadecimal := true }
  sized := true
  accepts c letter :=
    letters.contains letter && (letter ≠ 'b' || c.written = "%b") &&
      !(c.flags.contains '#' && "cdisu".toList.contains letter) &&
      !(c.flags.contains '0' && "cs".toList.contains letter) && !(c.precision.isSome && letter = 'c')
  refusal c := (c.written ++ ": invalid conversion specification", 1)
  numberComplaint arg fault := cited arg ++ match fault with
    | .noNumber => ": expected a numeric value"
    | .hasMore => ": value not completely converted"
    | .outOfRange => ": Numerical result out of range"
  countsArguments := true

/-- The rules of the command of the interpreter. -/
def command : PrintfRules where
  escapes := { letters := "abefnrtv\\".toList }
  argumentEscapes := { letters := "abefnrtv\\".toList, stops := true, leadingZero := true }
  sized := false
  accepts _ letter := letters.contains letter
  refusal c := (if c.letter.isNone then "missing format character" else c.written ++ ": invalid directive", 2)
  numberComplaint arg fault := arg ++ match fault with
    | .noNumber => ": expected numeric value"
    | .hasMore => ": not completely converted"
    | .outOfRange => ": Numerical result out of range"
  countsArguments := false

end PrintfRules

/-- How far a format has been used. -/
structure PrintfState where
  args : List String
  status : Nat := 0
  deriving DecidableEq, Repr

/-- The running of a format. -/
abbrev PrintfM (α : Type) := StateT PrintfState UtilityM α

namespace PrintfM

/-- The next argument; an empty one if none is left. -/
def next : PrintfM String := do
  let arg := (← get).args.headD ""
  modify fun s => { s with args := s.args.drop 1 }
  return arg

/-- The next argument as a number. -/
def nextInteger (rules : PrintfRules) (argv : List String) (signed : Bool) : PrintfM Int := do
  let arg ← next
  let (n, fault?) := integerOf signed arg
  if let some fault := fault? then
    complain argv (rules.numberComplaint arg fault)
    modify fun s => { s with status := 1 }
  return n

/-- A width or a precision as a number. -/
def measured (rules : PrintfRules) (argv : List String) : Option Measured → PrintfM (Option Int)
  | none => return none
  | some (.fixed n) => return some n
  | some .argument => return some (← nextInteger rules argv true)

/-- Writes output; nothing is written after a final one. -/
def write (output : Output) : PrintfM Unit := do
  let _ ← (put output.data : UtilityM (Option Errno))
  if output.final then throw (← get).status

/-- Writes what a conversion makes of the next argument. -/
def convert (rules : PrintfRules) (argv : List String) (c : Conversion) (letter : Char) : PrintfM Unit := do
  let width := (← measured rules argv c.width).getD 0
  let precision := (← measured rules argv c.precision).bind fun n => if n < 0 then none else some n.toNat
  let c := if width < 0 then { c with flags := '-' :: c.flags } else c
  match letter with
  | 's' => write ⟨c.renderText width.natAbs precision (Bytes.ofString (← next)), false⟩
  | 'b' =>
    let output := unescape rules.argumentEscapes (← next).toList
    write { output with data := c.renderText width.natAbs precision output.data }
  | 'c' =>
    let text := Bytes.ofString (← next)
    write ⟨c.pad width.natAbs [text.headD 0], false⟩
  | letter =>
    let n ← nextInteger rules argv (letter = 'd' ∨ letter = 'i')
    write ⟨c.renderInteger width.natAbs precision letter n, false⟩

/-- Writes one part of a format. -/
def part (rules : PrintfRules) (argv : List String) : FormatPart → PrintfM Unit
  | .verbatim output => write output
  | .conversion c => do
    match c.letter.filter (rules.accepts c) with
    | some letter => convert rules argv c letter
    | none =>
      let (complaint, status) := rules.refusal c
      (fail argv status complaint : UtilityM Unit)

/-- Uses a format once, and then as often as there are arguments left, if it takes any; `fuel` bounds the number of times. -/
def useFormat (rules : PrintfRules) (argv : List String) (parts : List FormatPart) : Nat → PrintfM Nat
  | 0 => return (← get).status
  | fuel + 1 => do
    let before := (← get).args.length
    parts.forM (part rules argv)
    let s ← get
    if s.args.isEmpty then return s.status
    else if s.args.length < before then useFormat rules argv parts fuel
    else
      if rules.countsArguments then
        complain argv ("warning: ignoring excess arguments, starting with " ++ cited (s.args.headD ""))
      return s.status

end PrintfM

/-- Writes arguments under a format. -/
def writeFormatted (rules : PrintfRules) (argv : List String) (format : String) (args : List String) : UtilityM Nat := do
  let parts := FormatPart.ofFormat rules.escapes rules.sized format.toList
  let (status, _) ← (PrintfM.useFormat rules argv parts (args.length + 1)).run { args }
  return status

/-- Writes its arguments under a format. -/
def printf : Utility := fun argv =>
  let args := if argv[1]? = some "--" then argv.drop 2 else argv.drop 1
  match args with
  | format :: args => writeFormatted .program argv format args
  | [] => misuse argv 1 "missing operand"

end Utility

end PipelineShell
