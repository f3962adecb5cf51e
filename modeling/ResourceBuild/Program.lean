import ResourceBuild.Text.Digits

/-!
# Programs that are run

How a program that was run ends, and what it leaves.
-/

namespace ResourceBuild

namespace Program

/-- How a program ends: with a code, or by a signal, perhaps leaving a dump of its memory. -/
inductive Status where
  | exited (code : Nat)
  | killed (signal : Nat) (dumped : Bool)
  deriving DecidableEq

namespace Status

def signalNames : List String :=
  ["SIGHUP", "SIGINT", "SIGQUIT", "SIGILL", "SIGTRAP", "SIGABRT", "SIGBUS", "SIGFPE", "SIGKILL",
    "SIGUSR1", "SIGSEGV", "SIGUSR2", "SIGPIPE", "SIGALRM", "SIGTERM", "SIGSTKFLT", "SIGCHLD",
    "SIGCONT", "SIGSTOP", "SIGTSTP", "SIGTTIN", "SIGTTOU", "SIGURG", "SIGXCPU", "SIGXFSZ",
    "SIGVTALRM", "SIGPROF", "SIGWINCH", "SIGIO", "SIGPWR", "SIGSYS"]

/-- A signal with its name. -/
def signalWords (signal : Nat) : String :=
  Text.decimal signal ++
    match signal with
    | 0 => ""
    | n + 1 => match signalNames[n]? with
      | some name => " (" ++ name ++ ")"
      | none => ""

def words : Status → String
  | .exited code => "exit status: " ++ Text.decimal code
  | .killed signal dumped =>
    "signal: " ++ signalWords signal ++ (if dumped then " (core dumped)" else "")

def isSuccess (s : Status) : Bool :=
  s == .exited 0

/-- The exit code, if the program ended with one. -/
def code? : Status → Option Nat
  | .exited code => some code
  | .killed _ _ => none

end Status

/-- What a program leaves that was run: its status and what it wrote. -/
structure Ended where
  status : Status
  output : ByteArray
  complaints : ByteArray

end Program

/-- A program as it shows from outside: how it ends, and what it writes. -/
structure Program where
  status : Program.Status
  output : String
  complaints : String
  deriving DecidableEq

def Program.ended (p : Program) : Program.Ended :=
  ⟨p.status, p.output.toUTF8, p.complaints.toUTF8⟩

end ResourceBuild
