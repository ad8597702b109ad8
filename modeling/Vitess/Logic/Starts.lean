import Vitess.Logic.SnapshotDrain
import Vitess.Logic.Workers

/-!
What the coordination loop starts, over every interleaving. A worker of
`handleDiscoveryRequests` calls `DiscoverInstance` only on a key an `onHealthTick` goroutine
pushed onto the discovery queue: every call, and every copy of a key still queued or consumed
and not yet handed to `DiscoverInstance`, is matched by a distinct `Push` of that key. A
`Push` the queue drops because the key is already there only widens the margin. Since
`onHealthTick` pushes only keys that pass `IsValid`, no invalid key is ever queued, consumed or
discovered. And the two operations that wait for `runCheckAndRecoverOperationsTimeRipe`,
`CheckAndRecover` and `SubmitPrimariesToKvStores`, never start before it holds.
-/

namespace Vitess.Logic
open Discovery

variable {K : Type}

/-- Every start a step records is of an action that `P` allows. -/
def StartsOnly (P : Action K → Prop) (observed : List (Obs K)) : Prop :=
  ∀ f isElectedNode demotedSinceCheck, Obs.started f isElectedNode demotedSinceCheck ∈ observed → P f

/-- `Push` and `DiscoverInstance`: the actions that move keys through the discovery queue. -/
def Action.movesKeys : Action K → Bool
  | .push _ | .discoverInstance _ => true
  | _ => false

-- A start of an action that moves no key is neither a `Push` nor a discovery.
theorem starts_of_movesKeys {f : Action K} (plain : f.movesKeys = false) (key : K) :
    f ≠ .push key ∧ f ≠ .discoverInstance key := by
  constructor <;> rintro rfl <;> cases plain

/-- The operations that wait for `runCheckAndRecoverOperationsTimeRipe`. -/
def Action.waitsForRipe : Action K → Bool
  | .checkAndRecover | .submitPrimariesToKvStores => true
  | _ => false

/-- What a goroutine of a timer case spawns moves no key, and waits for the wait period only
once it has passed: the gated routine operations, the self-refresh of a non-leader, and
`SubmitPrimariesToKvStores` after `runCheckAndRecoverOperationsTimeRipe()`. -/
theorem tickTaskStep_spawned {s : Engine K} {t : TickTask}
    {w : TickTask × List (Spawned K) × List GuardPc} (stepped : tickTaskStep s t = some w)
    {f : Action K} {checkedAt : Nat} (member : Spawned.go f checkedAt ∈ w.2.1) :
    f.movesKeys = false ∧ (f.waitsForRipe = true → s.timeRipe = true) := by
  have routine : (instancePollActions ++ caretakingActions ++ recoveryActions : List (Action K)).all
      (fun f => !f.movesKeys && !f.waitsForRipe) = true := rfl
  have listed : ∀ {fs : List (Action K)}, fs ⊆ instancePollActions ++ caretakingActions ++
      recoveryActions → f ∈ fs → f.movesKeys = false ∧ (f.waitsForRipe = true → s.timeRipe = true) :=
    fun within member => by
      have plain := List.all_eq_true.mp routine f (within member)
      simp only [Bool.and_eq_true, Bool.not_eq_true'] at plain
      exact ⟨plain.1, fun waits => by rw [plain.2] at waits; cases waits⟩
  cases t <;> cases stepped
  · exact listed (by simp) (mem_gated member)
  · split at member
    · exact listed (by simp) (mem_gated member)
    · simp only [List.mem_singleton, Spawned.go.injEq] at member
      rw [member.1]
      exact ⟨rfl, nofun⟩
  · split at member
    · rename_i ripe
      simp only [List.mem_singleton, Spawned.go.injEq] at member
      rw [member.1]
      exact ⟨rfl, fun _ => (Bool.and_eq_true _ _ ▸ ripe).1⟩
    · cases member
  · exact listed (by simp) (mem_gated member)
  · simp only [List.mem_singleton.mp (mem_gated member)]
    exact ⟨rfl, nofun⟩

theorem recoveryStep_starts {s : Engine K} {g : GuardPc} {w : GuardPc × Nat × List (Obs K)}
    (stepped : recoveryStep s g = some w) :
    StartsOnly (fun f => f = .checkAndRecover ∧ s.timeRipe = true) w.2.2 := by
  cases g with
  | entered checkedAt =>
    cases stepped
    split
    · rename_i ripe
      intro f _ _ member
      simp only [Engine.start, List.mem_singleton, Obs.started.injEq] at member
      exact ⟨member.1, ripe⟩
    · exact fun _ _ _ member => by simp at member
  | done => cases stepped
  | _ => cases stepped; (try split) <;> exact fun _ _ _ member => by simp at member

variable [DecidableEq K]

/-- A consumed key whose `DiscoverInstance` call has not started yet. -/
def WorkerPc.awaits (key : K) : WorkerPc K → Bool
  | .checking k | .calling k _ => k == key
  | _ => false

/-- The start of `a`. -/
def Obs.starts (a : Action K) : Obs K → Bool
  | .started f _ _ => f == a
  | _ => false

def discoveries (s : Engine K) (key : K) : Nat :=
  s.history.countP (Obs.starts (.discoverInstance key))

/-- The copies of `key` on their way to `DiscoverInstance`: queued, or consumed by a worker
that has not called it yet. -/
def pending (s : Engine K) (key : K) : Nat :=
  s.discoveryQueue.queued.count key + s.workers.countP fun worker => worker.pc.awaits key

theorem isPush_eq_starts (key : K) : Obs.isPush key = Obs.starts (.push key) := by
  funext o
  cases o <;> rfl

theorem countP_starts_eq_zero {P : Action K → Prop} {observed : List (Obs K)} {a : Action K}
    (only : StartsOnly P observed) (excluded : ¬ P a) : observed.countP (Obs.starts a) = 0 := by
  refine List.countP_eq_zero.mpr fun o member => ?_
  cases o with
  | started f isElectedNode demotedSinceCheck =>
    simp only [Obs.starts, beq_iff_eq]
    rintro rfl
    exact excluded (only _ _ _ member)
  | _ => simp [Obs.starts]

/-- What an `onHealthTick` step that wrote `w` starts, spawns and queues: it starts only
`Push`es of valid keys, spawns only the just-became-leader goroutines, and queues a key only
by pushing it. -/
def HealthStarts (isValid : K → Bool) (s : Engine K) (w : HealthWrite K) : Prop :=
  StartsOnly (fun f => ∃ key, f = .push key ∧ isValid key = true) w.observed ∧
    (∀ f checkedAt, Spawned.go f checkedAt ∈ w.spawned →
      f.movesKeys = false ∧ f.waitsForRipe = false) ∧
    ∀ key, w.discoveryQueue.queued.count key ≤
      s.discoveryQueue.queued.count key + w.observed.countP (Obs.isPush key)

-- A step that records no start, spawns nothing and leaves the queue.
theorem healthStarts_quiet {isValid : K → Bool} {s : Engine K} {w : HealthWrite K}
    (observed : StartsOnly (fun _ => False) w.observed) (spawned : w.spawned = [])
    (queue : w.discoveryQueue = s.discoveryQueue) : HealthStarts isValid s w :=
  ⟨fun f e d member => (observed f e d member).elim, by rw [spawned]; exact nofun,
    fun _ => by rw [queue]; exact Nat.le_add_right _ _⟩

theorem onHealthTick_starts {isValid : K → Bool} {s : Engine K} {won : Bool} {outdated : List K}
    {pc : HealthPc K} {w : HealthWrite K} (stepped : onHealthTick isValid s won outdated pc = some w) :
    HealthStarts isValid s w := by
  have quiet : ∀ {w : HealthWrite K}, w.observed = [] → w.spawned = [] →
      w.discoveryQueue = s.discoveryQueue → HealthStarts isValid s w :=
    fun observed => healthStarts_quiet (by rw [observed]; exact nofun)
  cases pc with
  | reading was checkedAt =>
    cases was <;> cases stepped
    · refine ⟨fun _ _ _ member => by simp at member, fun f _ member => ?_,
        fun _ => Nat.le_add_right _ _⟩
      simp only [List.mem_cons, Spawned.go.injEq, List.mem_singleton, List.not_mem_nil,
        or_false] at member
      rcases member with ⟨rfl, -⟩ | ⟨rfl, -⟩ <;> exact ⟨rfl, rfl⟩
    · exact quiet rfl rfl rfl
  | locking keys checkedAt =>
    simp only [onHealthTick] at stepped
    split at stepped <;> cases stepped
    exact quiet rfl rfl rfl
  | draining keys remaining checkedAt =>
    cases remaining with
    | zero => cases stepped; exact quiet rfl rfl rfl
    | succ remaining =>
      simp only [onHealthTick] at stepped
      split at stepped <;> cases stepped
      exact quiet rfl rfl rfl
  | pushing keys checkedAt =>
    cases keys with
    | nil => cases stepped; exact quiet rfl rfl rfl
    | cons key keys =>
      simp only [onHealthTick] at stepped
      split at stepped
      · rename_i valid
        obtain ⟨q, pushed, rfl⟩ := Option.map_eq_some'.mp stepped
        refine ⟨fun f _ _ member => ?_, nofun, fun k => ?_⟩
        · simp only [Engine.start, List.mem_singleton, Obs.started.injEq] at member
          exact ⟨key, member.1, valid⟩
        · simpa [Engine.start, Obs.isPush, List.countP_cons] using push_queued_count pushed k
      · cases stepped; exact quiet rfl rfl rfl
  | done => cases stepped
  -- The election steps and the leader check record elections and stores, no start.
  | _ =>
    cases stepped
    exact healthStarts_quiet (fun _ _ _ member => by simp [Engine.keep] at member) rfl rfl

/-- What a worker step starts and how it moves a key: `Consume` takes a queued key to the
worker, and the worker's `DiscoverInstance` call, or its release after a failed leader check,
takes it away. -/
theorem handleDiscoveryRequests_flow {s : Engine K} {worker : Worker K}
    {w : Worker K × Queue K × List (Obs K)} (stepped : handleDiscoveryRequests s worker = some w) :
    StartsOnly (fun f => ∃ key, f = .discoverInstance key) w.2.2 ∧
      ∀ key, w.2.2.countP (Obs.starts (.discoverInstance key)) +
          (if w.1.pc.awaits key then 1 else 0) + w.2.1.queued.count key ≤
        (if worker.pc.awaits key then 1 else 0) + s.discoveryQueue.queued.count key := by
  rcases worker with ⟨pc, calls⟩
  cases pc with
  | consuming =>
    obtain ⟨⟨k, q⟩, consumed, rfl⟩ := Option.map_eq_some'.mp stepped
    refine ⟨fun _ _ _ member => by simp at member, fun key => ?_⟩
    rw [consume_queued consumed]
    simp only [WorkerPc.awaits, List.count_cons, beq_iff_eq, List.countP_nil]
    split <;> omega
  | checking k =>
    cases stepped
    refine ⟨fun _ _ _ member => by simp at member, fun key => ?_⟩
    split <;> simp [WorkerPc.awaits]
  | calling k checkedAt =>
    cases stepped
    refine ⟨fun f _ _ member => ?_, fun key => ?_⟩
    · simp only [Engine.start, List.mem_singleton, Obs.started.injEq] at member
      exact ⟨k, member.1⟩
    · simp [WorkerPc.awaits, Engine.start, Obs.starts, List.countP_cons]
  | discovering k =>
    cases stepped
    exact ⟨fun _ _ _ member => by simp at member, fun key => by simp [WorkerPc.awaits]⟩
  | releasing k =>
    cases stepped
    exact ⟨fun _ _ _ member => by simp at member,
      fun key => by simp [WorkerPc.awaits, release_queued]⟩

/-! ## Discovery provenance -/

structure FlowInv (isValid : K → Bool) (s : Engine K) : Prop where
  /-- Every discovery of a key, and every copy of it on its way, is matched by a `Push`. -/
  flow : ∀ key, discoveries s key + pending s key ≤ pushes s key
  /-- Only valid keys are pushed. -/
  valid : ∀ key, isValid key = false → pushes s key = 0
  /-- No goroutine `go f()` pushes or discovers. -/
  spawned : ∀ f checkedAt, Spawned.go f checkedAt ∈ s.spawned → f.movesKeys = false

theorem flowInv_init (isValid : K → Bool) (discoveryMaxConcurrency capacity : Nat) :
    FlowInv isValid (.init discoveryMaxConcurrency capacity) := by
  refine ⟨fun key => ?_, fun _ _ => rfl, nofun⟩
  simp [discoveries, pending, pushes, Engine.init, List.countP_replicate, WorkerPc.awaits]

theorem flowInv_step {isValid : K → Bool} {s s' : Engine K} {e : Event K} (inv : FlowInv isValid s)
    (stepped : s.step isValid e = some s') : FlowInv isValid s' := by
  cases e with
  | tick timer =>
    cases stepped
    cases timer
    case tabletTopoTick =>
      refine ⟨inv.flow, inv.valid, fun f checkedAt member => ?_⟩
      rcases List.mem_append.mp member with old | new
      · exact inv.spawned f checkedAt old
      · simp only [List.mem_singleton, Spawned.go.injEq] at new
        rw [new.1]
        rfl
    all_goals exact ⟨inv.flow, inv.valid, inv.spawned⟩
  | health i won outdated =>
    obtain ⟨pc, w, found, healthStepped, rfl⟩ := step_health stepped
    obtain ⟨starts, spawns, queued⟩ := onHealthTick_starts healthStepped
    have none : ∀ key, w.observed.countP (Obs.starts (.discoverInstance key)) = 0 := fun key =>
      countP_starts_eq_zero starts fun ⟨_, same, _⟩ => by cases same
    refine ⟨fun key => ?_, fun key invalid => ?_, fun f checkedAt member => ?_⟩
    · have before := inv.flow key
      have grew := queued key
      simp only [discoveries, pending, pushes, Engine.applyHealth, List.countP_append, none]
        at before ⊢
      omega
    · have unpushed : w.observed.countP (Obs.isPush key) = 0 := by
        rw [isPush_eq_starts]
        exact countP_starts_eq_zero starts fun ⟨_, same, valid⟩ => by
          cases same
          rw [invalid] at valid
          cases valid
      have before := inv.valid key invalid
      simp only [pushes, Engine.applyHealth, List.countP_append, unpushed] at before ⊢
      omega
    · rcases List.mem_append.mp member with old | new
      exacts [inv.spawned f checkedAt old, (spawns f checkedAt new).1]
  | worker i =>
    obtain ⟨worker, w, found, workerStepped, rfl⟩ := step_worker stepped
    obtain ⟨starts, moved⟩ := handleDiscoveryRequests_flow workerStepped
    have unpushed : ∀ key, w.2.2.countP (Obs.isPush key) = 0 := fun key => by
      rw [isPush_eq_starts]
      exact countP_starts_eq_zero starts fun ⟨_, same⟩ => by cases same
    refine ⟨fun key => ?_, fun key invalid => ?_, inv.spawned⟩
    · have before := inv.flow key
      have step := moved key
      have workers := countP_set_add (fun worker => worker.pc.awaits key) w.1 found
      simp only [discoveries, pending, pushes, Engine.applyWorker, List.countP_append,
        unpushed] at before workers ⊢
      omega
    · have before := inv.valid key invalid
      simp only [pushes, Engine.applyWorker, List.countP_append, unpushed] at before ⊢
      omega
  | tickTask i =>
    obtain ⟨_, w, _, taskStepped, rfl⟩ := step_tickTask stepped
    refine ⟨inv.flow, inv.valid, fun f checkedAt member => ?_⟩
    rcases List.mem_append.mp member with old | new
    exacts [inv.spawned f checkedAt old, (tickTaskStep_spawned taskStepped new).1]
  | guard i =>
    obtain ⟨_, w, _, guardStepped, rfl⟩ := step_guard stepped
    have starts := recoveryStep_starts guardStepped
    have none : ∀ a : Action K, a ≠ .checkAndRecover → w.2.2.countP (Obs.starts a) = 0 :=
      fun a other => countP_starts_eq_zero starts fun ⟨same, _⟩ => other same
    refine ⟨fun key => ?_, fun key invalid => ?_, inv.spawned⟩
    · have before := inv.flow key
      simp only [discoveries, pending, pushes, Engine.applyGuard, List.countP_append,
        isPush_eq_starts, none (.push key) nofun, none (.discoverInstance key) nofun] at before ⊢
      omega
    · have before := inv.valid key invalid
      simp only [pushes, Engine.applyGuard, List.countP_append, isPush_eq_starts,
        none (.push key) nofun] at before ⊢
      omega
  | spawned i =>
    obtain ⟨f, checkedAt, found, rfl⟩ := step_spawned stepped
    have plain := starts_of_movesKeys (inv.spawned f checkedAt (List.getElem?_mem found))
    refine ⟨fun key => ?_, fun key invalid => ?_, fun g c member => ?_⟩
    · have before := inv.flow key
      simp only [discoveries, pending, pushes, List.countP_append, isPush_eq_starts] at before ⊢
      simp [Engine.start, Obs.starts, (plain key).1, (plain key).2]
      omega
    · have before := inv.valid key invalid
      simp only [pushes, List.countP_append, isPush_eq_starts] at before ⊢
      simp [Engine.start, Obs.starts, (plain key).1, before]
    · rcases List.mem_or_eq_of_mem_set member with old | done
      exacts [inv.spawned g c old, nomatch done]
  | request key => rw [step_request stepped]; exact ⟨inv.flow, inv.valid, inv.spawned⟩
  | ripen => cases stepped; exact ⟨inv.flow, inv.valid, inv.spawned⟩

theorem flowInv_reachable {isValid : K → Bool} {discoveryMaxConcurrency capacity : Nat}
    {s : Engine K} (reached : Reachable isValid discoveryMaxConcurrency capacity s) :
    FlowInv isValid s := by
  induction reached with
  | init => exact flowInv_init _ _ _
  | step _ stepped inv => exact flowInv_step inv stepped

-- Every `DiscoverInstance` a worker starts on a key, and every copy of the key still queued or
-- consumed and waiting for its call, is matched by a distinct `Push` of the key by
-- `onHealthTick`; an invalid key is never discovered, queued or consumed.
theorem discoveries_follow_pushes {isValid : K → Bool} {discoveryMaxConcurrency capacity : Nat}
    {s : Engine K} (reached : Reachable isValid discoveryMaxConcurrency capacity s) (key : K) :
    discoveries s key + pending s key ≤ pushes s key ∧
      (isValid key = false → discoveries s key = 0 ∧ pending s key = 0) := by
  have inv := flowInv_reachable reached
  have bound := inv.flow key
  exact ⟨bound, fun invalid => by have := inv.valid key invalid; omega⟩

-- Of the outdated keys 3 and 0, only 3 is valid: it is pushed once and discovered once.
theorem discoveries_follow_pushes_discovered :
    ∃ s : Engine Nat, Reachable (fun key => key != 0) 2 4 s ∧
      discoveries s 3 = 1 ∧ pushes s 3 = 1 ∧ ∀ key,
        discoveries s key + pending s key ≤ pushes s key ∧
          ((fun key => key != 0) key = false → discoveries s key = 0 ∧ pending s key = 0) :=
  let ⟨s, reached, discovered, pushed⟩ := exists_reachable_of_run (fun key : Nat => key != 0) 2 4
    (P := fun s : Engine Nat => discoveries s 3 = 1 ∧ pushes s 3 = 1)
    (discoveryEvents [3, 0]) (by decide)
  ⟨s, reached, discovered, pushed, discoveries_follow_pushes reached⟩

/-! ## The wait period -/

/-- Before `runCheckAndRecoverOperationsTimeRipe()` holds, nothing that waits for it has
started or is spawned. -/
def RipeInv (s : Engine K) : Prop :=
  s.timeRipe = false →
    StartsOnly (fun f => f.waitsForRipe = false) s.history ∧
      ∀ f checkedAt, Spawned.go f checkedAt ∈ s.spawned → f.waitsForRipe = false

theorem ripeInv_step {isValid : K → Bool} {s s' : Engine K} {e : Event K} (inv : RipeInv s)
    (stepped : s.step isValid e = some s') : RipeInv s' := by
  intro early
  cases e with
  | tick timer =>
    cases stepped
    obtain ⟨started, spawned⟩ := inv (by cases timer <;> exact early)
    cases timer
    case tabletTopoTick =>
      refine ⟨started, fun f checkedAt member => ?_⟩
      rcases List.mem_append.mp member with old | new
      · exact spawned f checkedAt old
      · simp only [List.mem_singleton, Spawned.go.injEq] at new
        rw [new.1]
        rfl
    all_goals exact ⟨started, spawned⟩
  | health i won outdated =>
    obtain ⟨pc, w, found, healthStepped, rfl⟩ := step_health stepped
    obtain ⟨started, spawned⟩ := inv early
    obtain ⟨starts, spawns, -⟩ := onHealthTick_starts healthStepped
    refine ⟨fun f isElectedNode demoted member => ?_, fun f checkedAt member => ?_⟩
    · rcases List.mem_append.mp member with old | new
      · exact started f isElectedNode demoted old
      · obtain ⟨key, rfl, -⟩ := starts f isElectedNode demoted new
        rfl
    · rcases List.mem_append.mp member with old | new
      exacts [spawned f checkedAt old, (spawns f checkedAt new).2]
  | worker i =>
    obtain ⟨_, w, _, workerStepped, rfl⟩ := step_worker stepped
    obtain ⟨started, spawned⟩ := inv early
    refine ⟨fun f isElectedNode demoted member => ?_, spawned⟩
    rcases List.mem_append.mp member with old | new
    · exact started f isElectedNode demoted old
    · obtain ⟨key, rfl⟩ := (handleDiscoveryRequests_flow workerStepped).1 f isElectedNode demoted new
      rfl
  | tickTask i =>
    obtain ⟨_, w, _, taskStepped, rfl⟩ := step_tickTask stepped
    obtain ⟨started, spawned⟩ := inv early
    refine ⟨started, fun f checkedAt member => ?_⟩
    rcases List.mem_append.mp member with old | new
    · exact spawned f checkedAt old
    · cases waits : f.waitsForRipe
      · rfl
      · change s.timeRipe = false at early
        rw [(tickTaskStep_spawned taskStepped new).2 waits] at early
        cases early
  | guard i =>
    obtain ⟨_, w, _, guardStepped, rfl⟩ := step_guard stepped
    obtain ⟨started, spawned⟩ := inv early
    refine ⟨fun f isElectedNode demoted member => ?_, spawned⟩
    rcases List.mem_append.mp member with old | new
    · exact started f isElectedNode demoted old
    · change s.timeRipe = false at early
      rw [(recoveryStep_starts guardStepped f isElectedNode demoted new).2] at early
      cases early
  | spawned i =>
    obtain ⟨f, checkedAt, found, rfl⟩ := step_spawned stepped
    obtain ⟨started, spawned⟩ := inv early
    refine ⟨fun g isElectedNode demoted member => ?_, fun g c member => ?_⟩
    · rcases List.mem_append.mp member with old | new
      · exact started g isElectedNode demoted old
      · simp only [Engine.start, List.mem_singleton, Obs.started.injEq] at new
        rw [new.1]
        exact spawned f checkedAt (List.getElem?_mem found)
    · rcases List.mem_or_eq_of_mem_set member with old | done
      exacts [spawned g c old, nomatch done]
  | request key => rw [step_request stepped] at early ⊢; exact inv early
  | ripen => cases stepped; cases early

theorem ripeInv_reachable {isValid : K → Bool} {discoveryMaxConcurrency capacity : Nat}
    {s : Engine K} (reached : Reachable isValid discoveryMaxConcurrency capacity s) : RipeInv s := by
  induction reached with
  | init => exact fun _ => ⟨nofun, nofun⟩
  | step _ stepped inv => exact ripeInv_step inv stepped

-- Before the wait period has passed, neither `CheckAndRecover` nor `SubmitPrimariesToKvStores`
-- has started, in any interleaving.
theorem recovery_waits_for_time_ripe {isValid : K → Bool}
    {discoveryMaxConcurrency capacity : Nat} {s : Engine K}
    (reached : Reachable isValid discoveryMaxConcurrency capacity s) (early : s.timeRipe = false) :
    ∀ f isElectedNode demotedSinceCheck,
      Obs.started f isElectedNode demotedSinceCheck ∈ s.history →
        f ≠ .checkAndRecover ∧ f ≠ .submitPrimariesToKvStores := by
  intro f isElectedNode demotedSinceCheck member
  have waits := (ripeInv_reachable reached early).1 f isElectedNode demotedSinceCheck member
  constructor <;> rintro rfl <;> cases waits

/-- A leader's recovery tick before the wait period has passed: `ClearActiveFailureDetections`
starts, and the recovery goroutine enters the section and returns without `CheckAndRecover`. -/
def earlyRecoveryEvents : List (Event Nat) :=
  [.tick .healthTick, .health 0 true [], .health 0 true [], .health 0 true [],
    .tick .recoveryTick, .tickTask 0, .spawned 0, .guard 0, .guard 0]

theorem recovery_waits_for_time_ripe_early_tick :
    ∃ s : Engine Nat, Reachable (fun _ => true) 2 4 s ∧ s.guards = [.done] ∧
      Obs.started .clearActiveFailureDetections 1 false ∈ s.history ∧ s.timeRipe = false ∧
      ∀ f isElectedNode demotedSinceCheck,
        Obs.started f isElectedNode demotedSinceCheck ∈ s.history →
          f ≠ .checkAndRecover ∧ f ≠ .submitPrimariesToKvStores :=
  let ⟨s, reached, returned, started, early⟩ := exists_reachable_of_run (fun _ : Nat => true) 2 4
    (P := fun s : Engine Nat => s.guards = [.done] ∧
      Obs.started .clearActiveFailureDetections 1 false ∈ s.history ∧ s.timeRipe = false)
    earlyRecoveryEvents (by decide)
  ⟨s, reached, returned, started, early, recovery_waits_for_time_ripe reached early⟩

end Vitess.Logic
