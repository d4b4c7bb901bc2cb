import PipelineShell.Utility.Arguments

/-!
# Programs that show the beginning or the end of their input: `head` and `tail`

An `Extent` says how much of it. Beside the letters of other programs they understand a short form, in which a count takes the
place of a letter.
-/

namespace PipelineShell

namespace Utility

/-- What the extent of a part is counted in. -/
inductive Measure where
  | lines
  | bytes
  deriving DecidableEq, Repr

/-- How much of the beginning or the end of a source is wanted. -/
structure Extent where
  measure : Measure := .lines
  count : Nat := 10
  /-- The count is from the other end: all but the last so many for a beginning, all from the one so numbered for an end. -/
  fromOther : Bool := false
  deriving DecidableEq, Repr

namespace Extent

/-- The complaint about a count. -/
def badCount (measure : Measure) (text : String) : String :=
  "invalid number of " ++ (match measure with
    | .lines => "lines"
    | .bytes => "bytes") ++ ": " ++ cited text

/-- The powers of a thousand that letters stand for, from the first one on. -/
def powerLetters : List Char := "KMGTPEZY".toList

/-- What a letter multiplies a count by, in powers of a thousand. -/
def power? (letter : Char) : Option Nat :=
  (powerLetters.idxOf? (if letter = 'k' ∨ letter = 'm' then letter.toUpper else letter)).map (· + 1)

/-- What the letters after the digits of a count multiply it by. -/
def scale? : List Char → Option Nat
  | [] => some 1
  | ['b'] => some 512
  | letter :: more =>
    match power? letter, more with
    | some power, [] | some power, ['i', 'B'] => some (Nat.pow 1024 power)
    | some power, ['B'] | some power, ['D'] => some (Nat.pow 1000 power)
    | _, _ => none

/-- Counts are less than this. -/
def countBound : Nat := 18446744073709551616

/-- The number that a count is written as: digits and letters. A letter alone stands for one of its units. The error is the end of
the complaint. -/
def readCount (text : List Char) : Except String Nat :=
  let body := match text.dropWhile fun c => c = ' ' ∨ ('\t' ≤ c ∧ c ≤ '\r') with
    | '+' :: rest => rest
    | rest => rest
  let digits := body.takeWhile Char.isDigit
  let (count, letters) :=
    if digits.isEmpty then (1, text)
    else (digits.foldl (fun n c => n * 10 + (c.toNat - 48)) 0, body.dropWhile Char.isDigit)
  match scale? letters with
  | none => .error ""
  | some scale =>
    if text.isEmpty then .error ""
    else if count * scale < countBound then .ok (count * scale)
    else .error ": Value too large for defined data type"

/-- The extent that a count names. A `turning` sign is one that counts from the other end. The error is the complaint. -/
def ofCount (turning : Char) (measure : Measure) (text : String) : Except String Extent :=
  let (fromOther, text) := match text.toList with
    | '-' :: cs => (turning == '-', cs)
    | cs => (turning == '+' && cs.head? == some '+', cs)
  match readCount text with
  | .ok count => .ok { measure, count, fromOther }
  | .error reason => .error (badCount measure (String.ofList text) ++ reason)

/-- The first lines of a text, with their ends. -/
def firstLines (n : Nat) (data : Bytes) : Bytes :=
  let stretches := pieces (· = Bytes.newline) data
  if n < stretches.length then unlines (stretches.take n) else data

/-- The beginning of a text: so many lines or bytes. -/
def prefixOf (measure : Measure) (n : Nat) (data : Bytes) : Bytes :=
  match measure with
  | .lines => firstLines n data
  | .bytes => data.take n

/-- How many lines or bytes a text has. -/
def size (measure : Measure) (data : Bytes) : Nat :=
  match measure with
  | .lines => (lines data).length
  | .bytes => data.length

/-- The part wanted of the beginning of a text. -/
def first (e : Extent) (data : Bytes) : Bytes :=
  prefixOf e.measure (if e.fromOther then size e.measure data - e.count else e.count) data

/-- The part wanted of the end of a text. -/
def last (e : Extent) (data : Bytes) : Bytes :=
  let before := if e.fromOther then e.count - 1 else size e.measure data - e.count
  data.drop (prefixOf e.measure before data).length

end Extent

/-- The name of a source in the headings and complaints of several programs. -/
def sourceTitle (name : String) : String := if name = "-" then "standard input" else name

/-- Shows bytes, or ends the program. -/
def present (argv : List String) (b : Bytes) : UtilityM Unit := putOrFail argv "error writing 'standard output'" b

/-- Shows the first bytes of a source, `left` of them, reading at most so many times. -/
def showBytes (argv : List String) (fd : Fd) : Nat → Nat → UtilityM (Except Errno Unit)
  | 0, _ | _, 0 => return .ok ()
  | turns + 1, left => do
    match ← perform (Program.read fd (min left partSize)) with
    | .error e => return .error e
    | .ok [] => return .ok ()
    | .ok data =>
      present argv data
      showBytes argv fd turns (left - data.length)

/-- Shows the first lines of a source, `left` of them, reading at most so many times. What was read beyond them is left to
others. -/
def showLines (argv : List String) (fd : Fd) : Nat → Nat → UtilityM (Except Errno Unit)
  | 0, _ | _, 0 => return .ok ()
  | turns + 1, left => do
    match ← perform (Program.read fd partSize) with
    | .error e => return .error e
    | .ok [] => return .ok ()
    | .ok data =>
      let count := data.count Bytes.newline
      let part := if count < left then data else Extent.firstLines left data
      if part.length < data.length then seekBack fd (data.length - part.length)
      present argv part
      showLines argv fd turns (left - count)

/-- Shows the beginning of a source. What is not shown is left to others; but a file of more than a block is searched from its end,
part by part, so that it is the first part that has been read in the end if there are too few lines. -/
def showBeginning (argv : List String) (extent : Extent) (fd : Fd) : UtilityM (Except Errno Unit) := do
  match extent.fromOther, extent.measure with
  | false, .bytes => showBytes argv fd Program.turnMax extent.count
  | false, .lines => showLines argv fd Program.turnMax extent.count
  | true, _ =>
    let size := ((fileExtent? (← Program.machine) fd).map Prod.fst).getD 0
    match ← perform (Program.readAll fd) with
    | .error e => return .error e
    | .ok data =>
      let part := extent.first data
      let searched := part.isEmpty ∧ extent.measure = .lines ∧ blockSize < size
      seekBack fd (data.length - if searched then partSize else part.length)
      present argv part
      return .ok ()

/-- Shows the end of a source. -/
def showEnd (argv : List String) (extent : Extent) (fd : Fd) : UtilityM (Except Errno Unit) := do
  match ← perform (Program.readAll fd) with
  | .error e => return .error e
  | .ok data =>
    present argv (extent.last data)
    return .ok ()

/-- What arguments ask for: an extent, and headings always, never, or where there are several sources. -/
structure ExtentRequest where
  extent : Extent := {}
  headings : Option Bool := none
  deriving DecidableEq, Repr

namespace ExtentRequest

/-- What options ask for; a later one settles what an earlier one has asked for. The error is the complaint. -/
def ofOptions (turning : Char) (options : List (Char × String)) : Except String ExtentRequest :=
  options.foldlM (fun request (letter, text) => match letter with
    | 'n' => (Extent.ofCount turning .lines text).map ({ request with extent := · })
    | 'c' => (Extent.ofCount turning .bytes text).map ({ request with extent := · })
    | letter => .ok { request with headings := some (letter = 'v') }) {}

/-- Shows a part of every source, perhaps under headings. `measures` says that a source is measured before it is read. -/
def showParts (argv operands : List String) (request : ExtentRequest) (measures : Bool)
    (part : Fd → UtilityM (Except Errno Unit)) : UtilityM Nat := do
  let names := sources operands
  let headed := request.headings.getD (names.length > 1)
  let mut status := 0
  let mut gap := ""
  for name in names do
    let heading := if headed then gap ++ "==> " ++ sourceTitle name ++ " <==\n" else ""
    let shown ← withSource name fun fd => do
      putText heading
      part fd
    match shown with
    | .ok () => gap := "\n"
    | .error e =>
      let reading := e = .isDirectory ∨ name = "-"
      if reading then gap := "\n"
      complain argv ((if measures ∧ e = .badDescriptor then "cannot fstat '" ++ sourceTitle name ++ "': "
        else if reading then "error reading '" ++ sourceTitle name ++ "': "
        else "cannot open " ++ quoted name ++ " for reading: ") ++ e.systemText)
      status := 1
  closeInput argv names "-" status

end ExtentRequest

/-- The options of `head` that the letters after the digits of its short form stand for, or a letter that it does not know. -/
def shortOptions (digits : List Char) : Char → List Char → List Char → Except Char (List (Char × String))
  | measure, unit, [] => .ok [(measure, String.ofList (digits ++ unit))]
  | measure, unit, letter :: letters => match letter with
    | 'c' => shortOptions digits 'c' [] letters
    | 'b' | 'k' | 'm' => shortOptions digits 'c' [letter] letters
    | 'l' => shortOptions digits 'n' unit letters
    | 'q' | 'v' => (shortOptions digits measure unit letters).map ((letter, "") :: ·)
    | letter => .error letter

/-- The options of the short form of `head`, where the first argument is one. -/
def headShort? (arg : String) : Option (Except Char (List (Char × String))) :=
  match arg.toList with
  | '-' :: c :: cs =>
    if c.isDigit then some (shortOptions ((c :: cs).takeWhile Char.isDigit) 'n' [] ((c :: cs).dropWhile Char.isDigit))
    else none
  | _ => none

/-- The options of the short form of `tail`: a sign, digits and a unit. -/
def tailShort? (arg : String) : Option (List (Char × String)) :=
  let option (turning digits : List Char) (measure : Char) (unit : List Char) : List (Char × String) :=
    [(measure, String.ofList (turning ++ (if digits.isEmpty then ['1', '0'] else digits) ++ unit))]
  let ofSigned (turning text : List Char) : Option (List (Char × String)) :=
    let digits := text.takeWhile Char.isDigit
    match text.dropWhile Char.isDigit with
    | [] | ['l'] => some (option turning digits 'n' [])
    | ['c'] => some (option turning digits 'c' [])
    | ['b'] => some (option turning digits 'c' ['b'])
    | _ => none
  match arg.toList with
  | '+' :: text => ofSigned ['+'] text
  | '-' :: text => if text = [] ∨ text = ['c'] then none else ofSigned [] text
  | _ => none

/-- The arguments of `tail` may begin with the short form: at most one file comes after it. -/
def mayBeShort : List String → Bool
  | [_] | [_, "--"] | [_, "--", _] => true
  | [_, file] => !(file.toList.head? = some '-' && file != "-")
  | _ => false

/-- Complains of letters that are digits, but do not come first. -/
def trailingDigit (fault : ArgumentFault) : Option Char :=
  match fault with
  | .unknownLetter letter => if letter.isDigit then some letter else none
  | _ => none

/-- The letters that take a count. -/
def countLetters : List Char := ['n', 'c']

/-- The letters that settle whether there are headings. -/
def headingLetters : List Char := ['q', 'v']

/-- Shows the beginning of every source. -/
def head : Utility := fun argv => do
  let refuse (letter : Char) : UtilityM Nat := misuse argv 1 ("invalid trailing option -- " ++ letter.toString)
  let args := argv.drop 1
  let (short, rest) := match args.head?.bind headShort? with
    | some short => (short, args.drop 1)
    | none => (.ok [], args)
  match short with
  | .error letter => refuse letter
  | .ok options =>
    let args := (Arguments.read headingLetters countLetters true rest).after options
    match ExtentRequest.ofOptions '-' args.options, args.fault with
    | .error complaint, _ => fail argv 1 complaint
    | .ok _, some fault => match trailingDigit fault with
      | some letter => refuse letter
      | none => misuse argv 1 fault.message
    | .ok request, none =>
      request.showParts argv args.operands request.extent.fromOther (showBeginning argv request.extent)

/-- Shows the end of every source. -/
def tail : Utility := fun argv => do
  let args := argv.drop 1
  let (options, rest) := match (if mayBeShort args then args.head?.bind tailShort? else none) with
    | some options => (options, args.drop 1)
    | none => ([], args)
  let args := (Arguments.read headingLetters countLetters true rest).after options
  match ExtentRequest.ofOptions '+' args.options, args.fault with
  | .error complaint, _ => fail argv 1 complaint
  | .ok _, some fault => match trailingDigit fault with
    | some letter => fail argv 1 ("option used in invalid context -- " ++ letter.toString)
    | none => misuse argv 1 fault.message
  | .ok request, none =>
    if request.extent.count = 0 ∧ !request.extent.fromOther then return 0
    else request.showParts argv args.operands true (showEnd argv request.extent)

end Utility

end PipelineShell
