/-!
# Signals

The signals of Linux on x86-64 that have a name of their own.

## Main definitions

* `Signal.name?` — the name of a signal number
-/

namespace Pipework.Signal

/-- The names of signals 1 to 31, in order. -/
def standardNames : List String :=
  ["SIGHUP", "SIGINT", "SIGQUIT", "SIGILL", "SIGTRAP", "SIGABRT", "SIGBUS", "SIGFPE", "SIGKILL",
   "SIGUSR1", "SIGSEGV", "SIGUSR2", "SIGPIPE", "SIGALRM", "SIGTERM", "SIGSTKFLT", "SIGCHLD",
   "SIGCONT", "SIGSTOP", "SIGTSTP", "SIGTTIN", "SIGTTOU", "SIGURG", "SIGXCPU", "SIGXFSZ",
   "SIGVTALRM", "SIGPROF", "SIGWINCH", "SIGIO", "SIGPWR", "SIGSYS"]

/-- The name of a signal number. Of the real-time signals only the first and the last have one. -/
def name? (n : Int) : Option String :=
  if n ≤ 0 then none
  else if n == 34 then some "SIGRTMIN"
  else if n == 64 then some "SIGRTMAX"
  else standardNames[n.toNat - 1]?

end Pipework.Signal
