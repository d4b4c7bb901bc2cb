/-!
# Signals and the ends of processes
-/

namespace PipelineShell

/-- A signal, by number. -/
structure Signal where
  number : Nat
  deriving DecidableEq, Repr

/-- What a signal does to a process that has made no arrangement for it. -/
inductive Disposition where
  | terminate
  | ignore
  | stop
  | resume
  deriving DecidableEq, Repr

namespace Signal

/-- The short names of the signals 1 to 31, in order. -/
def names : List String :=
  ["HUP", "INT", "QUIT", "ILL", "TRAP", "ABRT", "BUS", "FPE", "KILL", "USR1", "SEGV", "USR2", "PIPE", "ALRM", "TERM",
    "STKFLT", "CHLD", "CONT", "STOP", "TSTP", "TTIN", "TTOU", "URG", "XCPU", "XFSZ", "VTALRM", "PROF", "WINCH", "IO",
    "PWR", "SYS"]

/-- The full name of a signal; those above 31 have none. -/
def name? (s : Signal) : Option String :=
  if s.number = 0 then none else names[s.number - 1]?.map ("SIG" ++ ·)

/-- The signal of a short or full name. -/
def ofName? (text : String) : Option Signal :=
  (names.findIdx? fun short => text = short ∨ text = "SIG" ++ short).map fun i => ⟨i + 1⟩

/-- The wordings for the ends of processes by the signals 1 to 31, in order. -/
def descriptions : List String :=
  ["Hangup", "Interrupt", "Quit", "Illegal instruction", "Trace/breakpoint trap", "Aborted", "Bus error",
    "Floating point exception", "Killed", "User defined signal 1", "Segmentation fault", "User defined signal 2",
    "Broken pipe", "Alarm clock", "Terminated", "Stack fault", "Child exited", "Continued", "Stopped (signal)", "Stopped",
    "Stopped (tty input)", "Stopped (tty output)", "Urgent I/O condition", "CPU time limit exceeded",
    "File size limit exceeded", "Virtual timer expired", "Profiling timer expired", "Window changed", "I/O possible",
    "Power failure", "Bad system call"]

/-- The wording for the end of a process by a signal. -/
def description (s : Signal) : String :=
  if s.number = 0 then "Unknown signal 0"
  else descriptions[s.number - 1]?.getD ("Real-time signal " ++ toString (s.number - 34))

/-- The effect of a signal on a process that ignores the one for broken pipes and has made no other arrangement. The signals by
which a terminal stops a job do nothing to a job that no other one has in its charge. -/
def effect (s : Signal) : Disposition :=
  match s.number with
  | 0 | 13 | 17 | 20 | 21 | 22 | 23 | 28 => .ignore
  | 18 => .resume
  | 19 => .stop
  | _ => .terminate

/-- The signal that nothing holds up. -/
def isKill (s : Signal) : Bool := s.number = 9

end Signal

/-- What waiting for a child reports. -/
inductive WaitStatus where
  | exited (code : Int)
  | killed (signal : Signal) (dumpedCore : Bool)
  | stopped (signal : Signal)
  | continued
  /-- The child is running and the caller would not wait. -/
  | stillAlive
  deriving DecidableEq, Repr

end PipelineShell
