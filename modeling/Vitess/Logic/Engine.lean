import Vitess.Discovery.Queue
import Vitess.Runs

/-!
The coordination loop of package logic (go/vt/orchestrator/logic/orchestrator.go, carried in
this snapshot inside go/vt/vttablet/endtoend/call_test.go), from the end of
`ContinuousDiscovery`'s setup. An event is one atomic step of one goroutine, pooled by the code
it runs, or one move of the environment: a timer tick, a discovery request, the wait period
elapsing. Ghost state: the demotions a goroutine's leader check saw, and a `history` of every
election, store, spawn and operation start with the `isElectedNode` of that moment.
-/

namespace Vitess.Logic
open Discovery

/-- The operations whose start the model observes: the functions the select loop and
`onHealthTick` run with `go`, `CheckAndRecover`, a worker's `DiscoverInstance`, and a `Push`
by `onHealthTick`. -/
inductive Action (K : Type) where
  | registerNode | expireMaintenance | updateClusterAliases | expireDowntime | injectSeeds
  | reviewUnseenInstances | injectUnseenPrimaries | forgetLongUnseenInstances
  | forgetUnseenInstancesDifferentlyResolved | forgetExpiredHostnameResolves
  | deleteInvalidHostnameResolves | resolveUnknownPrimaryHostnameResolves
  | expireCandidateInstances | expireHostnameUnresolve | expireClusterDomainName
  | expireAudit | expirePoolInstances | flushNontrivialResolveCacheToDatabase
  | expireStaleInstanceBinlogCoordinates | expireNodesHistory | expireAccessTokens
  | expireAvailableNodes | expireFailureDetectionHistory | expireTopologyRecoveryHistory
  | expireTopologyRecoveryStepsHistory | submitPrimariesToKvStores
  | clearActiveFailureDetections | clearActiveRecoveries | expireBlockedRecoveries
  | acknowledgeCrashedRecoveries | expireInstanceAnalysisChangelog | snapshotTopologies
  | loadHostnameResolveCache | refreshTablets
  | checkAndRecover | discoverInstance (key : K) | push (key : K)
  deriving DecidableEq, Repr

variable {K : Type}

-- Everything but a non-leader's self-refresh and the ungated tablet refresh.
def Action.leaderOnly : Action K → Bool
  | .loadHostnameResolveCache | .refreshTablets => false
  | _ => true

def instancePollActions : List (Action K) := [.updateClusterAliases, .expireDowntime, .injectSeeds]

def caretakingActions : List (Action K) :=
  [.reviewUnseenInstances, .injectUnseenPrimaries, .forgetLongUnseenInstances,
    .forgetUnseenInstancesDifferentlyResolved, .forgetExpiredHostnameResolves,
    .deleteInvalidHostnameResolves, .resolveUnknownPrimaryHostnameResolves, .expireMaintenance,
    .expireCandidateInstances, .expireHostnameUnresolve, .expireClusterDomainName, .expireAudit,
    .expirePoolInstances, .flushNontrivialResolveCacheToDatabase,
    .expireStaleInstanceBinlogCoordinates, .expireNodesHistory, .expireAccessTokens,
    .expireAvailableNodes, .expireFailureDetectionHistory, .expireTopologyRecoveryHistory,
    .expireTopologyRecoveryStepsHistory]

def recoveryActions : List (Action K) :=
  [.clearActiveFailureDetections, .clearActiveRecoveries, .expireBlockedRecoveries,
    .acknowledgeCrashedRecoveries, .expireInstanceAnalysisChangelog]

inductive Timer where
  | healthTick | instancePollTick | caretakingTick | recoveryTick | snapshotTopologiesTick
  | tabletTopoTick
  deriving DecidableEq, Repr

/-- Where an `onHealthTick` goroutine stands. `draining` holds the receives still to do. -/
inductive HealthPc (K : Type) where
  | start
  | electing (wasAlreadyElected : Bool)
  | storing (wasAlreadyElected myIsElectedNode : Bool)
  | checking (wasAlreadyElected : Bool)
  | reading (wasAlreadyElected : Bool) (checkedAt : Nat)
  | locking (instanceKeys : List K) (checkedAt : Nat)
  | draining (instanceKeys : List K) (remaining : Nat) (checkedAt : Nat)
  | pushing (instanceKeys : List K) (checkedAt : Nat)
  | done
  deriving DecidableEq, Repr

inductive QueueOp (K : Type) where
  | consume (key : K)
  | release (key : K)
  deriving DecidableEq, Repr

/-- Where a discovery worker stands in its loop: `calling` has passed the leader check and
not yet entered `DiscoverInstance`. -/
inductive WorkerPc (K : Type) where
  | consuming
  | checking (key : K)
  | calling (key : K) (checkedAt : Nat)
  | discovering (key : K)
  | releasing (key : K)
  deriving DecidableEq, Repr

/-- A worker and, as ghost state, its `Consume` and `Release` calls, oldest first. -/
structure Worker (K : Type) where
  pc : WorkerPc K
  calls : List (QueueOp K)
  deriving DecidableEq, Repr

/-- The goroutine a timer case of the select loop spawns; `kvSubmit` is the caretaking
goroutine at its `runCheckAndRecoverOperationsTimeRipe() && IsLeader()` test. -/
inductive TickTask where
  | instancePoll | caretaking | kvSubmit | recovery | snapshotTopologies | done
  deriving DecidableEq, Repr

/-- The non-reentrant recovery goroutine: before its `CompareAndSwapInt64`, between a
successful one and `CheckAndRecover`, inside `CheckAndRecover`, or returned. -/
inductive GuardPc where
  | start (checkedAt : Nat)
  | entered (checkedAt : Nat)
  | recovering
  | done
  deriving DecidableEq, Repr

/-- A goroutine `go f()` that has not started `f` yet. -/
inductive Spawned (K : Type) where
  | go (f : Action K) (checkedAt : Nat)
  | done
  deriving DecidableEq, Repr

inductive Obs (K : Type) where
  | elected (won : Bool)
  | stored (previous value : Nat)
  | becameLeader
  | started (f : Action K) (isElectedNode : Nat) (demotedSinceCheck : Bool)
  deriving DecidableEq, Repr

-- The capacity of `snapshotDiscoveryKeys`, made in `init`.
def snapshotDiscoveryKeysCapacity : Nat := 10

structure Engine (K : Type) where
  isElectedNode : Nat
  recoveryEntrance : Nat
  discoveryQueue : Queue K
  snapshotDiscoveryKeys : List K
  snapshotDiscoveryKeysMutex : Bool
  timeRipe : Bool
  healthTicks : List (HealthPc K)
  workers : List (Worker K)
  tickTasks : List TickTask
  guards : List GuardPc
  spawned : List (Spawned K)
  history : List (Obs K)

def Engine.init (discoveryMaxConcurrency capacity : Nat) : Engine K where
  isElectedNode := 0
  recoveryEntrance := 0
  discoveryQueue := ⟨capacity, [], []⟩
  snapshotDiscoveryKeys := []
  snapshotDiscoveryKeysMutex := false
  timeRipe := false
  healthTicks := []
  workers := List.replicate discoveryMaxConcurrency ⟨.consuming, []⟩
  tickTasks := []
  guards := []
  spawned := []
  history := []

def isLeader (s : Engine K) : Bool := s.isElectedNode == 1

def isLeaderOrActive (s : Engine K) : Bool := s.isElectedNode == 1

def Obs.isDemotion : Obs K → Bool
  | .stored previous value => previous == 1 && value == 0
  | _ => false

def demotions (s : Engine K) : Nat := s.history.countP Obs.isDemotion

def Engine.start (s : Engine K) (f : Action K) (checkedAt : Nat) : Obs K :=
  .started f s.isElectedNode (decide (checkedAt < demotions s))

/-- What one step of an `onHealthTick` goroutine writes. -/
structure HealthWrite (K : Type) where
  pc : HealthPc K
  isElectedNode : Nat
  snapshotDiscoveryKeys : List K
  snapshotDiscoveryKeysMutex : Bool
  discoveryQueue : Queue K
  spawned : List (Spawned K)
  observed : List (Obs K)

def Engine.keep (s : Engine K) (pc : HealthPc K) : HealthWrite K :=
  ⟨pc, s.isElectedNode, s.snapshotDiscoveryKeys, s.snapshotDiscoveryKeysMutex, s.discoveryQueue,
    [], []⟩

variable [DecidableEq K]

/-- One step of an `onHealthTick` goroutine. `won` is what `process.AttemptElection` returns
at `electing` (an error counts as not elected), and `outdated` what
`inst.ReadOutdatedInstanceKeys` returns at `reading`; other steps ignore them. -/
def onHealthTick (isValid : K → Bool) (s : Engine K) (won : Bool) (outdated : List K) :
    HealthPc K → Option (HealthWrite K)
  | .start => some (s.keep (.electing (isLeader s)))
  | .electing was => some { s.keep (.storing was won) with observed := [.elected won] }
  | .storing was mine =>
    let value := if mine then 1 else 0
    some { s.keep (.checking was) with
      isElectedNode := value, observed := [.stored s.isElectedNode value] }
  | .checking was =>
    some (s.keep (if isLeaderOrActive s then .reading was (demotions s) else .done))
  | .reading was checkedAt =>
    if was then some (s.keep (.locking outdated checkedAt))
    else some { s.keep (.locking outdated checkedAt) with
      spawned := [.go .registerNode checkedAt, .go .expireMaintenance checkedAt],
      observed := [.becameLeader] }
  | .locking keys checkedAt =>
    if s.snapshotDiscoveryKeysMutex then none
    else some { s.keep (.draining keys s.snapshotDiscoveryKeys.length checkedAt) with
      snapshotDiscoveryKeysMutex := true }
  | .draining keys 0 checkedAt =>
    some { s.keep (.pushing keys checkedAt) with snapshotDiscoveryKeysMutex := false }
  | .draining keys (remaining + 1) checkedAt =>
    match s.snapshotDiscoveryKeys with
    | [] => none
    | key :: rest => some { s.keep (.draining (keys ++ [key]) remaining checkedAt) with
        snapshotDiscoveryKeys := rest }
  | .pushing [] _ => some (s.keep .done)
  | .pushing (key :: keys) checkedAt =>
    if isValid key then
      (s.discoveryQueue.push key).map fun q =>
        { s.keep (.pushing keys checkedAt) with
          discoveryQueue := q, observed := [s.start (.push key) checkedAt] }
    else some (s.keep (.pushing keys checkedAt))
  | .done => none

/-- One step of a worker of `handleDiscoveryRequests`: its next state, the queue, and what
it starts. -/
def handleDiscoveryRequests (s : Engine K) (worker : Worker K) :
    Option (Worker K × Queue K × List (Obs K)) :=
  match worker.pc with
  | .consuming => s.discoveryQueue.consume.map fun (key, q) =>
    (⟨.checking key, worker.calls ++ [.consume key]⟩, q, [])
  | .checking key =>
    some (⟨if isLeaderOrActive s then .calling key (demotions s) else .releasing key,
      worker.calls⟩, s.discoveryQueue, [])
  | .calling key checkedAt =>
    some (⟨.discovering key, worker.calls⟩, s.discoveryQueue,
      [s.start (.discoverInstance key) checkedAt])
  | .discovering key => some (⟨.releasing key, worker.calls⟩, s.discoveryQueue, [])
  | .releasing key =>
    some (⟨.consuming, worker.calls ++ [.release key]⟩, s.discoveryQueue.release key, [])

def Engine.gated (s : Engine K) (fs : List (Action K)) : List (Spawned K) :=
  if isLeaderOrActive s then fs.map (Spawned.go · (demotions s)) else []

/-- One step of a goroutine the select loop spawned for a timer: what it becomes, the
goroutines `go f()` it spawns, and the recovery goroutines it spawns. -/
def tickTaskStep (s : Engine K) : TickTask → Option (TickTask × List (Spawned K) × List GuardPc)
  | .instancePoll => some (.done, s.gated instancePollActions, [])
  | .caretaking =>
    some (if isLeaderOrActive s then (.kvSubmit, s.gated caretakingActions, [])
      else (.done, [.go .loadHostnameResolveCache 0], []))
  | .kvSubmit =>
    some (.done, if s.timeRipe && isLeader s
      then [.go .submitPrimariesToKvStores (demotions s)] else [], [])
  | .recovery =>
    some (.done, s.gated recoveryActions,
      if isLeaderOrActive s then [.start (demotions s)] else [])
  | .snapshotTopologies => some (.done, s.gated [.snapshotTopologies], [])
  | .done => none

/-- One step of the recovery goroutine: `CompareAndSwapInt64(&recoveryEntrance, 0, 1)`, then
`CheckAndRecover` once the wait period has passed, and the deferred
`StoreInt64(&recoveryEntrance, 0)` on every way out, a panic included. -/
def recoveryStep (s : Engine K) : GuardPc → Option (GuardPc × Nat × List (Obs K))
  | .start checkedAt =>
    some (if s.recoveryEntrance = 0 then (.entered checkedAt, 1, [])
      else (.done, s.recoveryEntrance, []))
  | .entered checkedAt =>
    some (if s.timeRipe then (.recovering, s.recoveryEntrance, [s.start .checkAndRecover checkedAt])
      else (.done, 0, []))
  | .recovering => some (.done, 0, [])
  | .done => none

inductive Event (K : Type) where
  | tick (timer : Timer)
  | health (i : Nat) (won : Bool) (outdated : List K)
  | worker (i : Nat)
  | tickTask (i : Nat)
  | guard (i : Nat)
  | spawned (i : Nat)
  | request (key : K)
  | ripen
  deriving DecidableEq, Repr

def Engine.applyHealth (s : Engine K) (i : Nat) (w : HealthWrite K) : Engine K :=
  { s with
    healthTicks := s.healthTicks.set i w.pc
    isElectedNode := w.isElectedNode
    snapshotDiscoveryKeys := w.snapshotDiscoveryKeys
    snapshotDiscoveryKeysMutex := w.snapshotDiscoveryKeysMutex
    discoveryQueue := w.discoveryQueue
    spawned := s.spawned ++ w.spawned
    history := s.history ++ w.observed }

def Engine.applyWorker (s : Engine K) (i : Nat) (w : Worker K × Queue K × List (Obs K)) :
    Engine K :=
  { s with
    workers := s.workers.set i w.1
    discoveryQueue := w.2.1
    history := s.history ++ w.2.2 }

def Engine.applyTickTask (s : Engine K) (i : Nat)
    (w : TickTask × List (Spawned K) × List GuardPc) : Engine K :=
  { s with
    tickTasks := s.tickTasks.set i w.1
    spawned := s.spawned ++ w.2.1
    guards := s.guards ++ w.2.2 }

def Engine.applyGuard (s : Engine K) (i : Nat) (w : GuardPc × Nat × List (Obs K)) : Engine K :=
  { s with
    guards := s.guards.set i w.1
    recoveryEntrance := w.2.1
    history := s.history ++ w.2.2 }

def Timer.spawn (s : Engine K) : Timer → Engine K
  | .healthTick => { s with healthTicks := s.healthTicks ++ [.start] }
  | .instancePollTick => { s with tickTasks := s.tickTasks ++ [.instancePoll] }
  | .caretakingTick => { s with tickTasks := s.tickTasks ++ [.caretaking] }
  | .recoveryTick => { s with tickTasks := s.tickTasks ++ [.recovery] }
  | .snapshotTopologiesTick => { s with tickTasks := s.tickTasks ++ [.snapshotTopologies] }
  | .tabletTopoTick => { s with spawned := s.spawned ++ [.go .refreshTablets 0] }

def Engine.step (isValid : K → Bool) (s : Engine K) : Event K → Option (Engine K)
  | .tick timer => some (timer.spawn s)
  | .health i won outdated =>
    s.healthTicks[i]?.bind fun pc => (onHealthTick isValid s won outdated pc).map (s.applyHealth i)
  | .worker i => s.workers[i]?.bind fun w => (handleDiscoveryRequests s w).map (s.applyWorker i)
  | .tickTask i => s.tickTasks[i]?.bind fun t => (tickTaskStep s t).map (s.applyTickTask i)
  | .guard i => s.guards[i]?.bind fun g => (recoveryStep s g).map (s.applyGuard i)
  | .spawned i =>
    match s.spawned[i]? with
    | some (.go f checkedAt) =>
      some { s with
        spawned := s.spawned.set i .done
        history := s.history ++ [s.start f checkedAt] }
    | _ => none
  | .request key =>
    if s.snapshotDiscoveryKeys.length < snapshotDiscoveryKeysCapacity then
      some { s with snapshotDiscoveryKeys := s.snapshotDiscoveryKeys ++ [key] }
    else none
  | .ripen => some { s with timeRipe := true }

def Engine.run (isValid : K → Bool) (s : Engine K) : List (Event K) → Option (Engine K)
  | [] => some s
  | e :: rest => (s.step isValid e).bind fun next => next.run isValid rest

theorem countP_set_add {α : Type} {l : List α} {i : Nat} {a : α} (p : α → Bool) (b : α)
    (found : l[i]? = some a) :
    (l.set i b).countP p + (if p a then 1 else 0) = l.countP p + (if p b then 1 else 0) := by
  obtain ⟨inside, rfl⟩ := List.getElem?_eq_some_iff.mp found
  have bounded := List.boole_getElem_le_countP p l i inside
  rw [List.countP_set p l i b inside]
  omega

-- A member of a list after a write is an old member or the written one.
theorem old_or_set {α : Type} {P : α → Prop} {l : List α} {i : Nat} {a : α} (new : P a) :
    ∀ x ∈ l.set i a, x ∈ l ∨ P x := by
  intro x member
  rcases List.mem_or_eq_of_mem_set member with old | rfl
  exacts [.inl old, .inr new]

theorem forall_mem_set_of {α : Type} {P : α → Prop} {l : List α} {i : Nat} {a : α}
    (all : ∀ x ∈ l, P x) (new : P a) : ∀ x ∈ l.set i a, P x :=
  fun x member => (old_or_set new x member).elim (all x) id

theorem old_or_append {α : Type} {P : α → Prop} {l extra : List α} (new : ∀ x ∈ extra, P x) :
    ∀ x ∈ l ++ extra, x ∈ l ∨ P x :=
  fun x member => (List.mem_append.mp member).imp_right (new x)

/-! One inversion lemma per kind of event: what a step of that kind can do. -/
section Inversion
variable {isValid : K → Bool} {s s' : Engine K}

theorem step_health {i : Nat} {won : Bool} {outdated : List K}
    (stepped : s.step isValid (.health i won outdated) = some s') :
    ∃ pc w, s.healthTicks[i]? = some pc ∧ onHealthTick isValid s won outdated pc = some w ∧
      s' = s.applyHealth i w := by
  simp only [Engine.step, Option.bind_eq_some, Option.map_eq_some'] at stepped
  obtain ⟨pc, found, w, stepped, rfl⟩ := stepped
  exact ⟨pc, w, found, stepped, rfl⟩

theorem step_worker {i : Nat} (stepped : s.step isValid (.worker i) = some s') :
    ∃ worker w, s.workers[i]? = some worker ∧ handleDiscoveryRequests s worker = some w ∧
      s' = s.applyWorker i w := by
  simp only [Engine.step, Option.bind_eq_some, Option.map_eq_some'] at stepped
  obtain ⟨worker, found, w, stepped, rfl⟩ := stepped
  exact ⟨worker, w, found, stepped, rfl⟩

theorem step_tickTask {i : Nat} (stepped : s.step isValid (.tickTask i) = some s') :
    ∃ t w, s.tickTasks[i]? = some t ∧ tickTaskStep s t = some w ∧ s' = s.applyTickTask i w := by
  simp only [Engine.step, Option.bind_eq_some, Option.map_eq_some'] at stepped
  obtain ⟨t, found, w, stepped, rfl⟩ := stepped
  exact ⟨t, w, found, stepped, rfl⟩

theorem step_guard {i : Nat} (stepped : s.step isValid (.guard i) = some s') :
    ∃ g w, s.guards[i]? = some g ∧ recoveryStep s g = some w ∧ s' = s.applyGuard i w := by
  simp only [Engine.step, Option.bind_eq_some, Option.map_eq_some'] at stepped
  obtain ⟨g, found, w, stepped, rfl⟩ := stepped
  exact ⟨g, w, found, stepped, rfl⟩

theorem step_spawned {i : Nat} (stepped : s.step isValid (.spawned i) = some s') :
    ∃ f checkedAt, s.spawned[i]? = some (.go f checkedAt) ∧
      s' = { s with
        spawned := s.spawned.set i .done
        history := s.history ++ [s.start f checkedAt] } := by
  simp only [Engine.step] at stepped
  split at stepped
  · rename_i f checkedAt found
    cases stepped
    exact ⟨f, checkedAt, found, rfl⟩
  · cases stepped

theorem step_request {key : K} (stepped : s.step isValid (.request key) = some s') :
    s' = { s with snapshotDiscoveryKeys := s.snapshotDiscoveryKeys ++ [key] } := by
  simp only [Engine.step] at stepped
  split at stepped
  · cases stepped; rfl
  · cases stepped

end Inversion

section Reachability
variable (isValid : K → Bool) (discoveryMaxConcurrency capacity : Nat)

inductive Reachable : Engine K → Prop where
  | init : Reachable (.init discoveryMaxConcurrency capacity)
  | step {s s' : Engine K} {e : Event K} : Reachable s → s.step isValid e = some s' →
      Reachable s'

theorem Reachable.run {s t : Engine K} {events : List (Event K)}
    (reached : Reachable isValid discoveryMaxConcurrency capacity s)
    (ran : s.run isValid events = some t) : Reachable isValid discoveryMaxConcurrency capacity t := by
  induction events generalizing s with
  | nil => cases ran; exact reached
  | cons e rest ih =>
    obtain ⟨next, stepped, ran⟩ := Option.bind_eq_some.mp ran
    exact ih (.step reached stepped) ran

-- A concrete schedule shows a property of some reachable state.
theorem exists_reachable_of_run {P : Engine K → Prop} [DecidablePred P] (events : List (Event K))
    (holds : ((Engine.init discoveryMaxConcurrency capacity).run isValid events).any
      (fun s => decide (P s)) = true) :
    ∃ s, Reachable isValid discoveryMaxConcurrency capacity s ∧ P s :=
  let ⟨s, ran, holds⟩ := exists_of_any holds
  ⟨s, Reachable.run _ _ _ .init ran, holds⟩

end Reachability

end Vitess.Logic
