import Vitess.Cache
import Vitess.Runs

/-!
`DiscoverInstance` of package logic (go/vt/vttablet/endtoend/call_test.go) and its throttle on
`recentDiscoveryOperationKeys`, for any number of concurrent calls on one clock while SIGHUP
reloads change `InstancePollSeconds`. A call makes its skip checks and its cache `Add` in one
step, reads the backend in a second and probes in a third. What the skip checks and
`ReadInstance` find is an argument of the step; the stopwatch and the metrics are left out.
-/

namespace Vitess.Logic

variable {K : Type}

/-- Where a `DiscoverInstance` call stands. `admitted` is ghost state: the time and the duration
of the entry its `Add` inserted, or `none` for a forced call whose `Add` failed. -/
inductive DiscoverPc where
  | start
  | reading (admitted : Option (Nat × Int))
  | probing (admitted : Option (Nat × Int))
  | done
  deriving DecidableEq, Repr

def DiscoverPc.admitted : DiscoverPc → Option (Option (Nat × Int))
  | .reading admitted | .probing admitted => some admitted
  | _ => none

structure DiscoverCall (K : Type) where
  instanceKey : K
  forceDiscovery : Bool
  pc : DiscoverPc
  deriving DecidableEq, Repr

/-- Ghost history: each insertion into the cache, and each probe with the insertion of the
call that made it. -/
inductive DiscoverObs (K : Type) where
  | inserted (call : Nat) (key : K) (time : Nat) (ttl : Int)
  | probed (call : Nat) (key : K) (forceDiscovery : Bool) (admitted : Option (Nat × Int))
      (time : Nat)
  deriving DecidableEq, Repr

structure Discoverer (K : Type) where
  now : Nat
  instancePollSeconds : Nat
  recentDiscoveryOperationKeys : Cache K
  calls : List (DiscoverCall K)
  history : List (DiscoverObs K)

/-- `time.Duration(config.Config.InstancePollSeconds) * time.Second`, which wraps in int64. -/
def instancePollSecondsDuration (instancePollSeconds : Nat) : Int :=
  wrapInt64 (instancePollSeconds * Time.second)

/-- The process once `ContinuousDiscovery` has made the cache: no entry and no call yet. -/
def Discoverer.init (instancePollSeconds : Nat) : Discoverer K :=
  ⟨0, instancePollSeconds, .new (instancePollSecondsDuration instancePollSeconds), [], []⟩

inductive DiscoverEvent (K : Type) where
  | call (instanceKey : K) (forceDiscovery : Bool)
  | step (i : Nat) (skip upToDate : Bool)
  | elapse (duration : Nat)
  | sighup (instancePollSeconds : Nat)

variable [DecidableEq K]

/-- One step of call `i`: its next place, the cache, and what it records. `skip` is whether a
check before the cache returns (a forgotten key, an ignored hostname, a key still invalid after
`ResolveHostname`); `upToDate` is whether `ReadInstance` finds the instance up to date with a
valid last check. The duration is computed at each `Add`, from the interval in force. -/
def discoverInstance (s : Discoverer K) (i : Nat) (call : DiscoverCall K) (skip upToDate : Bool) :
    Option (DiscoverPc × Cache K × List (DiscoverObs K)) :=
  match call.pc with
  | .start =>
    if skip then some (.done, s.recentDiscoveryOperationKeys, [])
    else
      let ttl := instancePollSecondsDuration s.instancePollSeconds
      match s.recentDiscoveryOperationKeys.add s.now call.instanceKey ttl with
      | some cache =>
        some (.reading (some (s.now, ttl)), cache, [.inserted i call.instanceKey s.now ttl])
      | none =>
        some (if call.forceDiscovery then .reading none else .done, s.recentDiscoveryOperationKeys, [])
  | .reading admitted =>
    some (if !call.forceDiscovery && upToDate then .done else .probing admitted,
      s.recentDiscoveryOperationKeys, [])
  | .probing admitted =>
    some (.done, s.recentDiscoveryOperationKeys,
      [.probed i call.instanceKey call.forceDiscovery admitted s.now])
  | .done => none

def Discoverer.applyCall (s : Discoverer K) (i : Nat) (call : DiscoverCall K)
    (w : DiscoverPc × Cache K × List (DiscoverObs K)) : Discoverer K :=
  { s with
    calls := s.calls.set i { call with pc := w.1 }
    recentDiscoveryOperationKeys := w.2.1
    history := s.history ++ w.2.2 }

def Discoverer.step (s : Discoverer K) : DiscoverEvent K → Option (Discoverer K)
  | .call key force => some { s with calls := s.calls ++ [⟨key, force, .start⟩] }
  | .step i skip upToDate =>
    s.calls[i]?.bind fun call => (discoverInstance s i call skip upToDate).map (s.applyCall i call)
  | .elapse duration => some { s with now := s.now + duration }
  | .sighup n => some { s with instancePollSeconds := n }

/-! ## The throttle invariant -/

section Throttle

/- The default expiration of the run's cache, which `New` fixed. -/
variable (defaultExpiration : Int)

variable {defaultExpiration}

end Throttle

end Vitess.Logic
