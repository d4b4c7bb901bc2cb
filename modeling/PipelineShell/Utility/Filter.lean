import PipelineShell.Utility.Arguments

/-!
# Programs that read their input and write something made of it: `cat`, `sort`, `uniq` and `wc`

Texts are taken byte by byte: order is the order of byte values, and a line ends with a newline.
-/

namespace PipelineShell

namespace Utility

/-- The position in the opened file that a descriptor refers to, with its node; a descriptor for writing at the end is there
already. -/
def position? (m : Machine) (fd : Fd) : Option (Nat × Nat) :=
  match m.handle? fd with
  | some (.file k) => m.opened[k]?.bind fun file =>
    (m.files.contents? file.node).map fun data => (file.node, if file.append then data.length else file.offset)
  | _ => none

/-- Where reading a source begins: a node and a position in it. -/
def sourcePosition? (m : Machine) (name : String) : Option (Nat × Nat) :=
  if name = "-" then position? m standardInput else (m.files.find m.self.directory name).toOption.map (·, 0)

/-- Reading a source would go on for as long as it is written to. -/
def feedsItself (m : Machine) (name : String) : Bool :=
  match sourcePosition? m name, position? m standardOutput with
  | some (source, start), some (target, stop) => source = target ∧ start < stop
  | _, _ => false

/-- How far the numbering of lines has come. -/
structure Numbering where
  /-- The number of the last line that has begun. -/
  last : Nat := 0
  /-- The next byte begins a line. -/
  atStart : Bool := true
  deriving DecidableEq, Repr

namespace Numbering

/-- The number of a line, in its column. -/
def label (n : Nat) : Bytes :=
  let number := toString n
  Bytes.ofString (String.ofList (List.replicate (6 - number.length) ' ') ++ number ++ "\t")

/-- Puts numbers in front of the lines that begin in a text. -/
def apply (n : Numbering) (data : Bytes) : Bytes × Numbering :=
  let (output, n) := data.foldl (fun (state : List Bytes × Numbering) b =>
    let (output, n) := state
    let ends := b = Bytes.newline
    if n.atStart then ([b] :: label (n.last + 1) :: output, ⟨n.last + 1, ends⟩) else ([b] :: output, ⟨n.last, ends⟩)) ([], n)
  (output.reverse.flatten, n)

end Numbering

/-- Writes bytes at once, or ends the program. -/
def emit (argv : List String) (b : Bytes) : UtilityM Unit := do
  match ← perform (Program.write standardOutput b) with
  | .ok () => return ()
  | .error e => fail argv 1 ("write error: " ++ e.systemText)

/-- Copies a source to standard output as it comes in, at most so many parts of it. -/
def copy (argv : List String) (fd : Fd) : Nat → Option Numbering → UtilityM (Except Errno (Option Numbering))
  | 0, numbering? => return .ok numbering?
  | turns + 1, numbering? => do
    match ← perform (Program.read fd Program.chunkSize) with
    | .error e => return .error e
    | .ok [] => return .ok numbering?
    | .ok data =>
      match numbering? with
      | none => do
        emit argv data
        copy argv fd turns none
      | some n => do
        let (output, n) := n.apply data
        emit argv output
        copy argv fd turns (some n)

/-- Copies the sources to standard output; `-n` numbers their lines. -/
def cat : Utility := fun argv => withFlags argv "nu" 1 fun letters operands => do
  if ((← Program.machine).handle? standardOutput).isNone then
    fail argv 1 ("standard output: " ++ Errno.badDescriptor.systemText)
  let mut status := 0
  let mut numbering? : Option Numbering := if letters.contains 'n' then some {} else none
  for name in sources operands do
    if feedsItself (← Program.machine) name then
      complain argv (shown name ++ ": input file is output file")
      status := 1
    else match ← withSource name fun fd => copy argv fd Program.turnMax numbering? with
      | .error e =>
        complain argv (shown name ++ ": " ++ e.systemText)
        status := 1
      | .ok after => numbering? := after
  closeInput argv (sources operands) "closing standard input" status

/-- The order of byte values. -/
def bytesLe : Bytes → Bytes → Bool
  | [], _ => true
  | _ :: _, [] => false
  | a :: as, b :: bs => if a = b then bytesLe as bs else a < b

/-- The value of a digit. -/
def digitOf? (b : UInt8) : Option Nat := if 48 ≤ b ∧ b ≤ 57 then some (b.toNat - 48) else none

/-- The integer a line begins with, after blanks; zero if it begins with none. -/
def leadingNumber (line : Bytes) : Int :=
  let line := line.dropWhile fun b => b = 32 ∨ b = 9
  let magnitude (digits : Bytes) : Nat :=
    (digits.takeWhile fun b => (digitOf? b).isSome).foldl (fun n b => n * 10 + (digitOf? b).getD 0) 0
  match line with
  | 45 :: digits => -(magnitude digits : Int)
  | digits => magnitude digits

/-- Puts a line in front of others, unless it is the same as the last one put there; that one is then left out. -/
def consDistinct (same : Bytes → Bytes → Bool) (line : Bytes) : List Bytes → List Bytes
  | first :: others => if same line first then line :: others else line :: first :: others
  | [] => [line]

/-- Leaves of neighbours that are the same the first one. -/
def mergeNeighbours (same : Bytes → Bytes → Bool) (ls : List Bytes) : List Bytes := ls.foldr (consDistinct same) []

/-- The lines of all sources, or the first one that cannot be read. -/
def gatherLines : List String → UtilityM (Except (String × Errno) (List Bytes))
  | [] => return .ok []
  | name :: rest => do
    match ← contents name with
    | .error e => return .error (name, e)
    | .ok data => return (← gatherLines rest).map (lines data ++ ·)

/-- Ends the program if there is a source that cannot be found. -/
def requireSources (argv : List String) (names : List String) : UtilityM Unit := do
  let m ← Program.machine
  for name in names do
    if let (false, .error e) := (name == "-", m.files.find m.self.directory name) then
      fail argv 2 ("cannot read: " ++ shown name ++ ": " ++ e.systemText)

/-- Writes sorted lines, or ends the program. -/
def writeSorted (argv : List String) (output : Bytes) : UtilityM Unit := do
  let whole := ": 'standard output': "
  if let some e := ← put output then fail argv 2 ("write failed" ++ whole ++ e.systemText)
  if let some e := ← flush then fail argv 2 ("fflush failed" ++ whole ++ e.systemText)

/-- Sorts the lines of all sources: `-n` by the numbers they begin with, `-r` in falling order, `-u` with one of each. -/
def sort : Utility := fun argv => withFlags argv "nru" 2 fun letters operands => do
  requireSources argv operands
  match ← gatherLines (sources operands) with
  | .error (name, e) =>
    let what := if name = "-" ∧ e = .badDescriptor then "stat failed: " else "read failed: "
    fail argv 2 (what ++ shown name ++ ": " ++ e.systemText)
  | .ok ls =>
    let numeric := letters.contains 'n'
    let unique := letters.contains 'u'
    let keyLe (a b : Bytes) : Bool := if numeric then leadingNumber a ≤ leadingNumber b else bytesLe a b
    let same (a b : Bytes) : Bool := keyLe a b && keyLe b a
    let le (a b : Bytes) : Bool := if same a b then unique || bytesLe a b else keyLe a b
    let ordered (a b : Bytes) : Bool := if letters.contains 'r' then le b a else le a b
    let sorted := ls.mergeSort ordered
    writeSorted argv (unlines (if unique then mergeNeighbours same sorted else sorted))
    return 0

/-- Puts a line in front of runs. -/
def consRun (line : Bytes) : List (Nat × Bytes) → List (Nat × Bytes)
  | (n, first) :: others => if line = first then (n + 1, first) :: others else (1, line) :: (n, first) :: others
  | [] => [(1, line)]

/-- The runs of equal lines, each with its length. -/
def runs (ls : List Bytes) : List (Nat × Bytes) := ls.foldr consRun []

/-- Merges equal neighbours: `-c` counts them, `-d` shows only those that were several, `-u` those that were one. -/
def uniq : Utility := fun argv => withFlags argv "cdu" 1 fun letters operands => do
  let name := operands.headD "-"
  match ← contents name with
  | .error e =>
    let what := if e = .isDirectory ∨ name = "-" then "error reading '" ++ name ++ "'" else shown name
    fail argv 1 (what ++ ": " ++ e.systemText)
  | .ok data =>
    let wanted := (runs (lines data)).filter fun run =>
      (!letters.contains 'd' || run.1 > 1) && (!letters.contains 'u' || run.1 = 1)
    let output := wanted.map fun (n, line) =>
      if letters.contains 'c' then
        let count := toString n
        Bytes.ofString (String.ofList (List.replicate (7 - count.length) ' ') ++ count ++ " ") ++ line
      else line
    putOrFail argv "write error" (unlines output)
    return 0

/-- The lines, words and bytes of a text. -/
structure Counts where
  lines : Nat := 0
  words : Nat := 0
  bytes : Nat := 0
  deriving DecidableEq, Repr

namespace Counts

/-- White space separates words. -/
def isSpace (b : UInt8) : Bool := b = 32 || (9 ≤ b && b ≤ 13)

/-- The counts of a text. -/
def ofBytes (data : Bytes) : Counts :=
  { lines := data.count Bytes.newline
    words := ((pieces isSpace data).filter (!·.isEmpty)).length
    bytes := data.length }

/-- Counts taken together. -/
def add (a b : Counts) : Counts := ⟨a.lines + b.lines, a.words + b.words, a.bytes + b.bytes⟩

/-- The counts that letters ask for; all of them if they ask for none. -/
def selected (letters : List Char) (c : Counts) : List Nat :=
  let wants (letter : Char) := letters.isEmpty || letters.contains letter
  (if wants 'l' then [c.lines] else []) ++ (if wants 'w' then [c.words] else []) ++
    (if wants 'c' || letters.contains 'm' then [c.bytes] else [])

end Counts

/-- The size of a source that is a file, before any of it is read. -/
def sizeOf? (m : Machine) (name : String) : Option Nat :=
  let node := if name = "-" then (position? m standardInput).map Prod.fst
    else (m.files.find m.self.directory name).toOption
  (node.bind m.files.contents?).map List.length

/-- A source is a path that leads nowhere, or a descriptor that is closed. -/
def isMissing (m : Machine) (name : String) : Bool :=
  if name = "-" then (m.handle? standardInput).isNone else !(m.files.find m.self.directory name).isOk

/-- The width of the columns of `wc`: one for a single count of a single source, or else that of the size of all sources, but at
least seven if one of them is no file. -/
def countWidth (m : Machine) (letters : List Char) (names : List String) : Nat :=
  if names.length = 1 ∧ letters.length = 1 then 1
  else
    let width := (toString ((names.filterMap (sizeOf? m)).foldl (· + ·) 0)).length
    if names.all fun name => (sizeOf? m name).isSome ∨ isMissing m name then width else max width 7

/-- A row of counts. -/
def countRow (width : Nat) (counts : List Nat) (name : Option String) : String :=
  let column (n : Nat) : String := String.ofList (List.replicate (width - (toString n).length) ' ') ++ toString n
  " ".intercalate (counts.map column ++ name.toList) ++ "\n"

/-- The size of a page of memory. -/
def pageSize : Nat := 4096

/-- Counts the bytes that are left of a source. The size of a file tells that without reading; but a size that is a whole number
of pages may be made up, so that such a file is read from near its end on. -/
def countBytes (fd : Fd) : UtilityM (Except Errno Nat) := do
  match fileExtent? (← Program.machine) fd with
  | none => readOut 0
  | some (size, position) =>
    let step := size - size % (pageSize + 1)
    if size % pageSize ≠ 0 then return .ok (size - position)
    else if position < step then
      seek fd (· + step)
      readOut (step - position)
    else readOut 0
where
  /-- Reads to the end, and adds the number of bytes to another one. -/
  readOut (before : Nat) : UtilityM (Except Errno Nat) := do
    return (← perform (Program.readAll fd)).map fun data => before + data.length

/-- Counts what the letters ask for in a source. -/
def countSource (letters : List Char) (name : String) : UtilityM (Except Errno Counts) := do
  if !letters.isEmpty ∧ letters.all fun letter => letter = 'c' ∨ letter = 'm' then
    return (← withSource name countBytes).map fun bytes => { bytes }
  else return (← contents name).map Counts.ofBytes

/-- Counts lines, words and bytes. -/
def wc : Utility := fun argv => withFlags argv "clmw" 1 fun letters operands => do
  let names := sources operands
  let width := countWidth (← Program.machine) letters names
  let mut status := 0
  let mut total : Counts := {}
  for name in names do
    let title := if operands.isEmpty then none else some name
    if name.isEmpty then
      complain argv "invalid zero-length file name"
      status := 1
    else match ← countSource letters name with
    | .error e =>
      complain argv ((if title.isNone then "'standard input'" else shown name) ++ ": " ++ e.systemText)
      status := 1
      if e = .isDirectory ∨ name = "-" then putText (countRow width (Counts.selected letters {}) title)
    | .ok counts =>
      total := total.add counts
      putText (countRow width (counts.selected letters) title)
  if names.length > 1 then putText (countRow width (total.selected letters) (some "total"))
  closeInput argv names "-" status

end Utility

end PipelineShell
