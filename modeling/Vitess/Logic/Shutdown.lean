import Mathlib.Order.Basic
import Vitess.Go
import Vitess.Runs

/-!
`acceptSignals` of package logic (go/vt/vttablet/endtoend/call_test.go): a goroutine ranges over
the signal channel `c`, reloads the configuration on `SIGHUP`, and on `SIGTERM` makes
`timeout := time.After(*shutdownWaitTime)` and loads `shardsLockCounter` every 100 ms until it
reads zero or finds the timeout channel filled, then calls `os.Exit(0)`. `signal.Notify` drops a
signal while `c` holds one, the runtime fills the timeout channel at or after its deadline, and
other goroutines set the counter at any time. What the reload and the audits do is left out.
-/

namespace Vitess.Logic

/-- `syscall.SIGHUP` and `syscall.SIGTERM`, the signals `acceptSignals` registers for. -/
inductive Signal
  | sighup
  | sigterm
  deriving DecidableEq, Repr

/-- Where the goroutine of `acceptSignals` is: in `for sig := range c`, in the loop of the
`SIGTERM` case before its next load of `shardsLockCounter`, or past `os.Exit(0)`. -/
inductive SignalPc
  | ranging
  | draining
  | exited
  deriving DecidableEq, Repr

/-- A load of `shardsLockCounter`: the count read, whether the timeout channel was filled when
the `select` after it ran, and the clock. -/
structure Poll where
  count : Int
  fired : Bool
  time : Nat
  deriving DecidableEq, Repr

/-- What the goroutine does that others see: the `SIGHUP` case, the `SIGTERM` case up to its
loop, and each load of `shardsLockCounter`. -/
inductive SignalObs
  | reloaded
  | terminating
  | polled (poll : Poll)
  deriving DecidableEq, Repr

structure Shutdown where
  now : Nat
  c : Option Signal
  pc : SignalPc
  hasReceivedSIGTERM : Bool
  shardsLockCounter : Int
  /-- The deadline of `time.After(*shutdownWaitTime)`, once the `SIGTERM` case has made it. -/
  timeout : Option Nat
  /-- The clock when the runtime filled the channel of `time.After`, once it has. -/
  firedAt : Option Nat
  history : List SignalObs
  deriving DecidableEq, Repr

def Shutdown.init : Shutdown := ⟨0, none, .ranging, false, 0, none, none, []⟩

inductive ShutdownEvent
  | elapse (duration : Nat)
  /-- The runtime delivers a signal to `c`. -/
  | notify (sig : Signal)
  /-- Another goroutine changes `shardsLockCounter`. -/
  | setShardsLockCounter (count : Int)
  /-- The runtime's timer sends on the channel of `time.After`. -/
  | fire
  /-- The goroutine of `acceptSignals` takes its next step. -/
  | handle
  deriving DecidableEq, Repr

/-- `time.Sleep(100 * time.Millisecond)` between two loads of the drain. -/
def pollInterval : Nat := 100 * Time.millisecond

/-- `case <-timeout` is ready: the channel of `time.After` holds its value. -/
def Shutdown.timedOut (s : Shutdown) : Bool := s.firedAt.isSome

/-- The next step of the goroutine of `acceptSignals`: a signal taken from `c`, or one pass of the
loop of the `SIGTERM` case; `none` while `c` is empty and after `os.Exit(0)`. -/
def Shutdown.handle (shutdownWaitTime : Nat) (s : Shutdown) : Option Shutdown :=
  match s.pc, s.c with
  | .ranging, none => none
  | .ranging, some .sighup => some { s with c := none, history := s.history ++ [.reloaded] }
  | .ranging, some .sigterm =>
    some { s with
      c := none, pc := .draining, hasReceivedSIGTERM := true,
      timeout := some (s.now + shutdownWaitTime), history := s.history ++ [.terminating] }
  | .draining, _ =>
    let polled := s.history ++ [.polled ⟨s.shardsLockCounter, s.timedOut, s.now⟩]
    if s.shardsLockCounter = 0 then some { s with pc := .exited, history := polled }
    else if s.timedOut then some { s with pc := .exited, history := polled }
    else some { s with now := s.now + pollInterval, history := polled }
  | .exited, _ => none

/-- The timer of `time.After` sends once, at or after its deadline. -/
def Shutdown.fire (s : Shutdown) : Option Shutdown :=
  match s.timeout, s.firedAt with
  | some deadline, none => if deadline ≤ s.now then some { s with firedAt := some s.now } else none
  | _, _ => none

def Shutdown.step (shutdownWaitTime : Nat) (s : Shutdown) (e : ShutdownEvent) : Option Shutdown :=
  if s.pc = .exited then none
  else match e with
    | .elapse duration => some { s with now := s.now + duration }
    | .notify sig => some (if s.c.isSome then s else { s with c := some sig })
    | .setShardsLockCounter count => some { s with shardsLockCounter := count }
    | .fire => s.fire
    | .handle => s.handle shutdownWaitTime

section Drain
variable {shutdownWaitTime : Nat}

end Drain

end Vitess.Logic
