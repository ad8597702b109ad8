import Mathlib.Algebra.BigOperators.Group.List
import Mathlib.Algebra.Order.Ring.Nat
import Vitess.Logic.Engine

/-!
The snapshot drain of `onHealthTick`: under `snapshotDiscoveryKeysMutex` a goroutine receives
`len(snapshotDiscoveryKeys)` keys into its `instanceKeys`, then `Push`es each valid one. The
mutex makes it the channel's only receiver, so a receive never blocks, a push blocks only on a
full queue, and no valid key is lost. `Engine.arrived` is ghost state: the keys that entered.
-/

namespace Vitess.Logic
open Discovery

variable {K : Type}

/-- The `instanceKeys` a goroutine holds from `ReadOutdatedInstanceKeys` to its last `Push`. -/
def HealthPc.instanceKeys : HealthPc K → List K
  | .locking keys _ | .draining keys _ _ | .pushing keys _ => keys
  | _ => []

def HealthPc.isDraining : HealthPc K → Bool
  | .draining _ _ _ => true
  | _ => false

/-- The receives a draining goroutine has left. -/
def HealthPc.remaining : HealthPc K → Nat
  | .draining _ remaining _ => remaining
  | _ => 0

/-- What `inst.ReadOutdatedInstanceKeys` gives a goroutine that steps at `reading`. -/
def HealthPc.read (outdated : List K) : HealthPc K → List K
  | .reading _ _ => outdated
  | _ => []

theorem HealthPc.remaining_eq_zero {pc : HealthPc K} (idle : pc.isDraining = false) :
    pc.remaining = 0 := by
  cases pc <;> first | rfl | cases idle

/-- The keys an event brings in: the one a sender puts on `snapshotDiscoveryKeys`, and those
`ReadOutdatedInstanceKeys` returns. -/
def Engine.arrivals (s : Engine K) : Event K → List K
  | .request key => [key]
  | .health i _ outdated => (s.healthTicks[i]?.map (HealthPc.read outdated)).getD []
  | _ => []

theorem sum_map_set_add {α : Type} {l : List α} {i : Nat} {a : α} (f : α → Nat) (b : α)
    (found : l[i]? = some a) : ((l.set i b).map f).sum + f a = (l.map f).sum + f b := by
  induction l generalizing i with
  | nil => cases found
  | cons x rest ih =>
    cases i with
    | zero =>
      rw [List.getElem?_cons_zero, Option.some.injEq] at found
      subst found
      simp only [List.set_cons_zero, List.map_cons, List.sum_cons]
      omega
    | succ i =>
      have := ih (by simpa using found)
      simp only [List.set_cons_succ, List.map_cons, List.sum_cons]
      omega

-- With no goroutine draining, none has a receive left.
theorem sum_remaining_of_idle {l : List (HealthPc K)} (idle : l.countP HealthPc.isDraining = 0) :
    (l.map HealthPc.remaining).sum = 0 := by
  induction l with
  | nil => rfl
  | cons pc rest ih =>
    cases draining : pc.isDraining
    · simp only [List.countP_cons, draining] at idle
      simp only [List.map_cons, List.sum_cons, HealthPc.remaining_eq_zero draining, ih (by simpa using idle)]
    · simp [List.countP_cons, draining] at idle

variable [DecidableEq K]

/-- The keys that entered along a run, which stops at a blocked step. -/
def Engine.arrived (isValid : K → Bool) : Engine K → List (Event K) → List K
  | _, [] => []
  | s, e :: rest =>
    match s.step isValid e with
    | some next => s.arrivals e ++ next.arrived isValid rest
    | none => []

/-- The start of a `Push` of `key`. -/
def Obs.isPush (key : K) : Obs K → Bool
  | .started f _ _ => f == .push key
  | _ => false

def pushes (s : Engine K) (key : K) : Nat := s.history.countP (Obs.isPush key)

/-- The copies of `key` in the goroutines' `instanceKeys`. -/
def keysHeld (s : Engine K) (key : K) : Nat :=
  (s.healthTicks.map fun pc => pc.instanceKeys.count key).sum

structure DrainInv (isValid : K → Bool) (s : Engine K) (arrived : List K) : Prop where
  /-- The goroutine that holds `snapshotDiscoveryKeysMutex` is the one that drains. -/
  mutex : s.healthTicks.countP HealthPc.isDraining = if s.snapshotDiscoveryKeysMutex then 1 else 0
  /-- The channel holds every receive still to do. -/
  stocked : (s.healthTicks.map HealthPc.remaining).sum ≤ s.snapshotDiscoveryKeys.length
  /-- Only `onHealthTick` pushes: no goroutine `go f()` is a `Push`. -/
  spawned : ∀ f checkedAt key, Spawned.go f checkedAt ∈ s.spawned → f ≠ .push key
  /-- Every valid key that entered is on the channel, held, or pushed. -/
  kept : ∀ key, isValid key = true →
    arrived.count key = s.snapshotDiscoveryKeys.count key + keysHeld s key + pushes s key

theorem drainInv_init (isValid : K → Bool) (discoveryMaxConcurrency capacity : Nat) :
    DrainInv isValid (.init discoveryMaxConcurrency capacity) [] :=
  ⟨rfl, Nat.le_refl 0, nofun, fun _ _ => rfl⟩

/-- What one `onHealthTick` step does to the drain: it spawns no `Push`; it moves keys between
the channel, its `instanceKeys` and the pushes, adding those it reads and losing only invalid
ones; and it takes the free lock with as many receives as the channel holds, receives one key,
releases the lock, or touches neither. -/
theorem onHealthTick_drain {isValid : K → Bool} {s : Engine K} {won : Bool} {outdated : List K}
    {pc : HealthPc K} {w : HealthWrite K} (stepped : onHealthTick isValid s won outdated pc = some w) :
    (∀ f checkedAt key, Spawned.go f checkedAt ∈ w.spawned → f ≠ .push key) ∧
    (∀ key, isValid key = true →
      pc.instanceKeys.count key + s.snapshotDiscoveryKeys.count key + (pc.read outdated).count key =
        w.pc.instanceKeys.count key + w.snapshotDiscoveryKeys.count key +
          w.observed.countP (Obs.isPush key)) ∧
    ((s.snapshotDiscoveryKeysMutex = false ∧ w.snapshotDiscoveryKeysMutex = true ∧
        pc.isDraining = false ∧ w.pc.isDraining = true ∧
        w.pc.remaining = s.snapshotDiscoveryKeys.length ∧
        w.snapshotDiscoveryKeys = s.snapshotDiscoveryKeys) ∨
      (w.snapshotDiscoveryKeysMutex = s.snapshotDiscoveryKeysMutex ∧ pc.isDraining = true ∧
        w.pc.isDraining = true ∧ pc.remaining = w.pc.remaining + 1 ∧
        s.snapshotDiscoveryKeys.length = w.snapshotDiscoveryKeys.length + 1) ∨
      (w.snapshotDiscoveryKeysMutex = false ∧ pc.isDraining = true ∧ w.pc.isDraining = false ∧
        pc.remaining = 0 ∧ w.snapshotDiscoveryKeys = s.snapshotDiscoveryKeys) ∨
      (w.snapshotDiscoveryKeysMutex = s.snapshotDiscoveryKeysMutex ∧ pc.isDraining = false ∧
        w.pc.isDraining = false ∧ w.snapshotDiscoveryKeys = s.snapshotDiscoveryKeys)) := by
  cases pc with
  | reading was checkedAt =>
    cases was <;> cases stepped
    · refine ⟨?_, fun key _ => ?_, .inr (.inr (.inr ⟨rfl, rfl, rfl, rfl⟩))⟩
      · intro f _ key member
        simp only [List.mem_cons, Spawned.go.injEq, List.mem_singleton] at member
        rcases member with ⟨rfl, -⟩ | ⟨rfl, -⟩ | nothing <;> simp_all
      · simp [Engine.keep, HealthPc.instanceKeys, HealthPc.read, Obs.isPush]; omega
    · exact ⟨nofun, fun key _ => by simp [Engine.keep, HealthPc.instanceKeys, HealthPc.read]; omega,
        .inr (.inr (.inr ⟨rfl, rfl, rfl, rfl⟩))⟩
  | locking keys checkedAt =>
    simp only [onHealthTick] at stepped
    split at stepped
    · cases stepped
    · cases stepped
      rename_i free
      exact ⟨nofun, fun _ _ => rfl, .inl ⟨Bool.eq_false_iff.mpr free, rfl, rfl, rfl, rfl, rfl⟩⟩
  | draining keys remaining checkedAt =>
    cases remaining with
    | zero => cases stepped; exact ⟨nofun, fun _ _ => rfl, .inr (.inr (.inl ⟨rfl, rfl, rfl, rfl, rfl⟩))⟩
    | succ remaining =>
      simp only [onHealthTick] at stepped
      split at stepped
      · cases stepped
      · rename_i key rest channel
        cases stepped
        refine ⟨nofun, fun k _ => ?_, .inr (.inl ⟨rfl, rfl, rfl, rfl, by simp [channel]⟩)⟩
        simp [Engine.keep, HealthPc.instanceKeys, HealthPc.read, channel, List.count_cons]
        omega
  | pushing keys checkedAt =>
    cases keys with
    | nil => cases stepped; exact ⟨nofun, fun _ _ => rfl, .inr (.inr (.inr ⟨rfl, rfl, rfl, rfl⟩))⟩
    | cons key keys =>
      simp only [onHealthTick] at stepped
      split at stepped
      · obtain ⟨q, -, rfl⟩ := Option.map_eq_some'.mp stepped
        refine ⟨nofun, fun k _ => ?_, .inr (.inr (.inr ⟨rfl, rfl, rfl, rfl⟩))⟩
        simp [Engine.keep, HealthPc.instanceKeys, HealthPc.read, Engine.start, Obs.isPush, List.count_cons,
          List.countP_cons]
        omega
      · rename_i invalid
        cases stepped
        refine ⟨nofun, fun k valid => ?_, .inr (.inr (.inr ⟨rfl, rfl, rfl, rfl⟩))⟩
        have other : key ≠ k := fun same => by simp_all
        simp [Engine.keep, HealthPc.instanceKeys, HealthPc.read, List.count_cons, other]
  | done => cases stepped
  -- The election steps and the leader check: no keys, no lock.
  | _ =>
    cases stepped
    try split
    all_goals exact ⟨nofun, fun _ _ => rfl, .inr (.inr (.inr ⟨rfl, rfl, rfl, rfl⟩))⟩

theorem drainInv_health {isValid : K → Bool} {s : Engine K} {arrived : List K} {i : Nat}
    {won : Bool} {outdated : List K} {pc : HealthPc K} {w : HealthWrite K}
    (inv : DrainInv isValid s arrived) (found : s.healthTicks[i]? = some pc)
    (stepped : onHealthTick isValid s won outdated pc = some w) :
    DrainInv isValid (s.applyHealth i w) (arrived ++ pc.read outdated) := by
  obtain ⟨noPush, conserved, move⟩ := onHealthTick_drain stepped
  have draining := countP_set_add HealthPc.isDraining w.pc found
  have remaining := sum_map_set_add HealthPc.remaining w.pc found
  have mutex := inv.mutex
  have stocked := inv.stocked
  refine ⟨?_, ?_, ?_, fun key valid => ?_⟩
  · show (s.healthTicks.set i w.pc).countP HealthPc.isDraining =
      if w.snapshotDiscoveryKeysMutex then 1 else 0
    rcases move with ⟨free, locked, idle, busy, -, -⟩ | ⟨same, busy, busy', -, -⟩ |
      ⟨unlocked, busy, idle, -, -⟩ | ⟨same, idle, idle', -⟩
    · simp only [free, locked, idle, busy, Bool.false_eq_true, if_true, if_false] at mutex draining ⊢
      omega
    · simp only [same, busy, busy'] at draining ⊢; omega
    · simp only [unlocked, busy, idle, Bool.false_eq_true, if_true, if_false] at draining ⊢
      cases lock : s.snapshotDiscoveryKeysMutex <;>
        simp only [lock, Bool.false_eq_true, if_true, if_false] at mutex <;> omega
    · simp only [same, idle, idle'] at draining ⊢; omega
  · show ((s.healthTicks.set i w.pc).map HealthPc.remaining).sum ≤ w.snapshotDiscoveryKeys.length
    rcases move with ⟨free, -, idle, -, full, channel⟩ | ⟨-, -, -, received, shorter⟩ |
      ⟨-, -, idle', none, channel⟩ | ⟨-, idle, idle', channel⟩
    · have empty := sum_remaining_of_idle (by simpa [free] using mutex)
      rw [HealthPc.remaining_eq_zero idle] at remaining
      rw [channel]; omega
    · omega
    · rw [none, HealthPc.remaining_eq_zero idle'] at remaining
      rw [channel]; omega
    · rw [HealthPc.remaining_eq_zero idle, HealthPc.remaining_eq_zero idle'] at remaining
      rw [channel]; omega
  · intro f checkedAt key member
    rcases List.mem_append.mp member with old | new
    exacts [inv.spawned f checkedAt key old, noPush f checkedAt key new]
  · have counted := conserved key valid
    have before := inv.kept key valid
    have moved := sum_map_set_add (fun pc => pc.instanceKeys.count key) w.pc found
    simp only [keysHeld, pushes, Engine.applyHealth, List.count_append, List.countP_append]
      at before moved ⊢
    omega

theorem handleDiscoveryRequests_pushes {s : Engine K} {worker : Worker K}
    {w : Worker K × Queue K × List (Obs K)} (stepped : handleDiscoveryRequests s worker = some w)
    (key : K) : w.2.2.countP (Obs.isPush key) = 0 := by
  rcases worker with ⟨pc, calls⟩
  cases pc with
  | consuming => obtain ⟨_, _, rfl⟩ := Option.map_eq_some'.mp stepped; rfl
  | calling k checkedAt => cases stepped; simp [Engine.start, Obs.isPush]
  | _ => cases stepped; rfl

theorem recoveryStep_pushes {s : Engine K} {g : GuardPc} {w : GuardPc × Nat × List (Obs K)}
    (stepped : recoveryStep s g = some w) (key : K) : w.2.2.countP (Obs.isPush key) = 0 := by
  cases g with
  | start checkedAt => cases stepped; split <;> rfl
  | entered checkedAt => cases stepped; split <;> simp [Engine.start, Obs.isPush]
  | recovering => cases stepped; rfl
  | done => cases stepped

omit [DecidableEq K] in
theorem mem_gated {s : Engine K} {fs : List (Action K)} {f : Action K} {checkedAt : Nat}
    (member : Spawned.go f checkedAt ∈ s.gated fs) : f ∈ fs := by
  unfold Engine.gated at member
  split at member
  · obtain ⟨g, listed, same⟩ := List.mem_map.mp member
    cases same
    exact listed
  · cases member

omit [DecidableEq K] in
theorem tickTaskStep_spawns {s : Engine K} {t : TickTask}
    {w : TickTask × List (Spawned K) × List GuardPc} (stepped : tickTaskStep s t = some w) :
    ∀ f checkedAt key, Spawned.go f checkedAt ∈ w.2.1 → f ≠ .push key := by
  rintro f checkedAt key member rfl
  cases t <;> cases stepped
  · simpa [instancePollActions] using mem_gated member
  · split at member
    · simpa [caretakingActions] using mem_gated member
    · simp at member
  · split at member <;> simp at member
  · simpa [recoveryActions] using mem_gated member
  · simpa using mem_gated member

-- A step that leaves the goroutines, the channel and its lock, and starts no `Push`, keeps the
-- invariant.
theorem DrainInv.frame {isValid : K → Bool} {s s' : Engine K} {arrived : List K}
    (inv : DrainInv isValid s arrived) (ticks : s'.healthTicks = s.healthTicks)
    (channel : s'.snapshotDiscoveryKeys = s.snapshotDiscoveryKeys)
    (locked : s'.snapshotDiscoveryKeysMutex = s.snapshotDiscoveryKeysMutex)
    (started : ∀ key, pushes s' key = pushes s key)
    (spawned : ∀ f checkedAt key, Spawned.go f checkedAt ∈ s'.spawned →
      Spawned.go f checkedAt ∈ s.spawned ∨ f ≠ .push key) :
    DrainInv isValid s' arrived where
  mutex := by rw [ticks, locked]; exact inv.mutex
  stocked := by rw [ticks, channel]; exact inv.stocked
  spawned f checkedAt key member :=
    (spawned f checkedAt key member).elim (inv.spawned f checkedAt key) id
  kept key valid := by
    rw [channel, started, show keysHeld s' key = keysHeld s key by simp only [keysHeld, ticks]]
    exact inv.kept key valid

theorem drainInv_step {isValid : K → Bool} {s s' : Engine K} {e : Event K} {arrived : List K}
    (inv : DrainInv isValid s arrived) (stepped : s.step isValid e = some s') :
    DrainInv isValid s' (arrived ++ s.arrivals e) := by
  cases e
  case health i won outdated =>
    obtain ⟨pc, w, found, healthStepped, rfl⟩ := step_health stepped
    simpa [Engine.arrivals, found] using drainInv_health inv found healthStepped
  case request key =>
    rw [step_request stepped]
    refine ⟨inv.mutex, ?_, inv.spawned, fun k valid => ?_⟩
    · have := inv.stocked
      simp only [List.length_append, List.length_singleton]
      omega
    · have := inv.kept k valid
      simp only [Engine.arrivals, List.count_append, keysHeld, pushes] at this ⊢
      omega
  -- Every other event brings no key in.
  all_goals simp only [Engine.arrivals, List.append_nil]
  case tick timer =>
    cases stepped
    cases timer
    case healthTick =>
      refine ⟨?_, ?_, inv.spawned, fun key valid => ?_⟩
      · simpa [Timer.spawn, HealthPc.isDraining] using inv.mutex
      · simpa [Timer.spawn, HealthPc.remaining] using inv.stocked
      · simpa [Timer.spawn, keysHeld, pushes, HealthPc.instanceKeys] using inv.kept key valid
    case tabletTopoTick =>
      refine inv.frame rfl rfl rfl (fun _ => rfl) fun f checkedAt key member => ?_
      rcases List.mem_append.mp member with old | new
      exacts [.inl old, .inr (by simp at new; rw [new.1]; nofun)]
    all_goals exact inv.frame rfl rfl rfl (fun _ => rfl) fun _ _ _ member => .inl member
  case worker i =>
    obtain ⟨_, w, _, workerStepped, rfl⟩ := step_worker stepped
    refine inv.frame rfl rfl rfl (fun key => ?_) fun _ _ _ member => .inl member
    simp [pushes, Engine.applyWorker, List.countP_append, handleDiscoveryRequests_pushes workerStepped]
  case tickTask i =>
    obtain ⟨_, w, _, taskStepped, rfl⟩ := step_tickTask stepped
    exact inv.frame rfl rfl rfl (fun _ => rfl) fun f checkedAt key member =>
      (List.mem_append.mp member).imp_right (tickTaskStep_spawns taskStepped f checkedAt key)
  case guard i =>
    obtain ⟨_, w, _, guardStepped, rfl⟩ := step_guard stepped
    refine inv.frame rfl rfl rfl (fun key => ?_) fun _ _ _ member => .inl member
    simp [pushes, Engine.applyGuard, List.countP_append, recoveryStep_pushes guardStepped]
  case spawned i =>
    obtain ⟨f, checkedAt, found, rfl⟩ := step_spawned stepped
    refine inv.frame rfl rfl rfl (fun key => ?_) fun g c key member => ?_
    · simp [pushes, List.countP_append, Engine.start, Obs.isPush,
        inv.spawned f checkedAt key (List.getElem?_mem found)]
    · rcases List.mem_or_eq_of_mem_set member with old | done
      exacts [.inl old, nomatch done]
  case ripen =>
    cases stepped
    exact inv.frame rfl rfl rfl (fun _ => rfl) fun _ _ _ member => .inl member

theorem drainInv_run {isValid : K → Bool} {events : List (Event K)} {s t : Engine K}
    {arrived : List K} (inv : DrainInv isValid s arrived) (ran : s.run isValid events = some t) :
    DrainInv isValid t (arrived ++ s.arrived isValid events) := by
  induction events generalizing s arrived with
  | nil => cases ran; simpa [Engine.arrived] using inv
  | cons e rest ih =>
    obtain ⟨next, stepped, ran⟩ := Option.bind_eq_some.mp ran
    simpa [Engine.arrived, stepped] using ih (drainInv_step inv stepped) ran

-- With the channel stocked, a draining goroutine's next receive takes the channel's head.
theorem receive_succeeds {isValid : K → Bool} {s : Engine K} {i : Nat} {keys : List K}
    {remaining checkedAt : Nat}
    (stocked : (s.healthTicks.map HealthPc.remaining).sum ≤ s.snapshotDiscoveryKeys.length)
    (found : s.healthTicks[i]? = some (.draining keys (remaining + 1) checkedAt)) :
    ∃ key rest, s.snapshotDiscoveryKeys = key :: rest ∧ ∀ won outdated, ∃ s',
      s.step isValid (.health i won outdated) = some s' ∧
        s'.healthTicks[i]? = some (.draining (keys ++ [key]) remaining checkedAt) ∧
        s'.snapshotDiscoveryKeys = rest := by
  have atLeast := sum_map_set_add HealthPc.remaining .done found
  obtain ⟨inside, -⟩ := List.getElem?_eq_some_iff.mp found
  cases channel : s.snapshotDiscoveryKeys with
  | nil => simp only [channel, List.length_nil, HealthPc.remaining] at stocked atLeast; omega
  | cons key rest =>
    refine ⟨key, rest, rfl, fun won outdated =>
      ⟨s.applyHealth i { s.keep (.draining (keys ++ [key]) remaining checkedAt) with
        snapshotDiscoveryKeys := rest }, ?_, ?_, rfl⟩⟩
    · simp [Engine.step, found, onHealthTick, channel]
    · simp [Engine.applyHealth, Engine.keep, inside]

-- A goroutine at the `Push` of a valid key steps whenever the push does not block: the key is
-- queued or being processed already, or the queue has room. It starts the `Push`, and the key
-- is then in the queue.
theorem push_succeeds {isValid : K → Bool} {s : Engine K} {i : Nat} {key : K} {keys : List K}
    {checkedAt : Nat} (found : s.healthTicks[i]? = some (.pushing (key :: keys) checkedAt))
    (valid : isValid key = true)
    (room : key ∈ s.discoveryQueue.queued ∨ key ∈ s.discoveryQueue.consumed ∨
      s.discoveryQueue.queued.length < s.discoveryQueue.capacity) :
    ∀ won outdated, ∃ s', s.step isValid (.health i won outdated) = some s' ∧
      s'.healthTicks[i]? = some (.pushing keys checkedAt) ∧ pushes s' key = pushes s key + 1 ∧
      (key ∈ s'.discoveryQueue.queued ∨ key ∈ s'.discoveryQueue.consumed) := by
  intro won outdated
  obtain ⟨inside, -⟩ := List.getElem?_eq_some_iff.mp found
  obtain ⟨q, pushed, member⟩ := push_of_room room
  refine ⟨s.applyHealth i { s.keep (.pushing keys checkedAt) with
    discoveryQueue := q, observed := [s.start (.push key) checkedAt] }, ?_, ?_, ?_, member⟩
  · simp [Engine.step, found, onHealthTick, valid, pushed]
  · simp [Engine.applyHealth, Engine.keep, inside]
  · simp [pushes, Engine.applyHealth, List.countP_append, Engine.start, Obs.isPush]

-- In every run, a draining goroutine's receive never blocks and takes the channel's head into
-- its `instanceKeys`; a goroutine at the `Push` of a valid key pushes it unless the queue is
-- full; and every valid key that entered is on the channel, held, or pushed.
theorem snapshot_drain_nonblocking_lossless {isValid : K → Bool}
    {discoveryMaxConcurrency capacity : Nat} {events : List (Event K)} {s : Engine K}
    (ran : (Engine.init discoveryMaxConcurrency capacity).run isValid events = some s) :
    (∀ i keys remaining checkedAt,
      s.healthTicks[i]? = some (.draining keys (remaining + 1) checkedAt) →
        ∃ key rest, s.snapshotDiscoveryKeys = key :: rest ∧ ∀ won outdated, ∃ s',
          s.step isValid (.health i won outdated) = some s' ∧
            s'.healthTicks[i]? = some (.draining (keys ++ [key]) remaining checkedAt) ∧
            s'.snapshotDiscoveryKeys = rest) ∧
      (∀ i key keys checkedAt, s.healthTicks[i]? = some (.pushing (key :: keys) checkedAt) →
        isValid key = true →
        (key ∈ s.discoveryQueue.queued ∨ key ∈ s.discoveryQueue.consumed ∨
          s.discoveryQueue.queued.length < s.discoveryQueue.capacity) →
        ∀ won outdated, ∃ s', s.step isValid (.health i won outdated) = some s' ∧
          s'.healthTicks[i]? = some (.pushing keys checkedAt) ∧ pushes s' key = pushes s key + 1 ∧
          (key ∈ s'.discoveryQueue.queued ∨ key ∈ s'.discoveryQueue.consumed)) ∧
      ∀ key, isValid key = true →
        ((Engine.init discoveryMaxConcurrency capacity).arrived isValid events).count key =
          s.snapshotDiscoveryKeys.count key + keysHeld s key + pushes s key := by
  have inv := drainInv_run (drainInv_init isValid discoveryMaxConcurrency capacity) ran
  exact ⟨fun _ _ _ _ found => receive_succeeds inv.stocked found,
    fun _ _ _ _ found valid room => push_succeeds found valid room,
    fun key valid => by simpa using inv.kept key valid⟩

/-- A request puts key 5 on the channel; a health tick is elected, reads no outdated key, takes
the lock with one receive to do, receives 5 and releases the lock: it is about to push 5. -/
def drainEvents : List (Event Nat) :=
  [.request 5, .tick .healthTick, .health 0 true [], .health 0 true [], .health 0 true [],
    .health 0 true [], .health 0 true [], .health 0 true [], .health 0 true [], .health 0 true []]

theorem snapshot_drain_nonblocking_lossless_pushing :
    ∃ s, (Engine.init 1 4).run (fun _ => true) drainEvents = some s ∧
      s.healthTicks[0]? = some (.pushing [5] 0) ∧
      (∀ i keys remaining checkedAt,
        s.healthTicks[i]? = some (.draining keys (remaining + 1) checkedAt) →
          ∃ key rest, s.snapshotDiscoveryKeys = key :: rest ∧ ∀ won outdated, ∃ s',
            s.step (fun _ => true) (.health i won outdated) = some s' ∧
              s'.healthTicks[i]? = some (.draining (keys ++ [key]) remaining checkedAt) ∧
              s'.snapshotDiscoveryKeys = rest) ∧
        (∀ i key keys checkedAt, s.healthTicks[i]? = some (.pushing (key :: keys) checkedAt) →
          (fun _ => true) key = true →
          (key ∈ s.discoveryQueue.queued ∨ key ∈ s.discoveryQueue.consumed ∨
            s.discoveryQueue.queued.length < s.discoveryQueue.capacity) →
          ∀ won outdated, ∃ s', s.step (fun _ => true) (.health i won outdated) = some s' ∧
            s'.healthTicks[i]? = some (.pushing keys checkedAt) ∧
            pushes s' key = pushes s key + 1 ∧
            (key ∈ s'.discoveryQueue.queued ∨ key ∈ s'.discoveryQueue.consumed)) ∧
        ∀ key, (fun _ => true) key = true →
          ((Engine.init 1 4).arrived (fun _ => true) drainEvents).count key =
            s.snapshotDiscoveryKeys.count key + keysHeld s key + pushes s key :=
  let ⟨s, ran, pushing⟩ := exists_of_any
    (P := fun s : Engine Nat => s.healthTicks[0]? = some (.pushing [5] 0))
    (o := (Engine.init 1 4).run (fun _ => true) drainEvents) (by decide)
  ⟨s, ran, pushing, snapshot_drain_nonblocking_lossless ran⟩

-- Only the `onHealthTick` goroutine that holds `snapshotDiscoveryKeysMutex` drains
-- `snapshotDiscoveryKeys`: in every run at most one drains at a time, and one does exactly while
-- the mutex is locked.
theorem snapshot_drain_exclusive {isValid : K → Bool} {discoveryMaxConcurrency capacity : Nat}
    {events : List (Event K)} {s : Engine K}
    (ran : (Engine.init discoveryMaxConcurrency capacity).run isValid events = some s) :
    s.healthTicks.countP HealthPc.isDraining = if s.snapshotDiscoveryKeysMutex then 1 else 0 :=
  (drainInv_run (drainInv_init isValid discoveryMaxConcurrency capacity) ran).mutex

-- The schedule above up to the lock: the goroutine drains while it holds the mutex.
theorem snapshot_drain_exclusive_locked :
    ∃ s, (Engine.init 1 4).run (fun _ => true) (drainEvents.take 8) = some s ∧
      s.snapshotDiscoveryKeysMutex = true ∧
      s.healthTicks.countP HealthPc.isDraining = if s.snapshotDiscoveryKeysMutex then 1 else 0 :=
  let ⟨s, ran, locked⟩ := exists_of_any (P := fun s : Engine Nat => s.snapshotDiscoveryKeysMutex)
    (o := (Engine.init 1 4).run (fun _ => true) (drainEvents.take 8)) (by decide)
  ⟨s, ran, locked, snapshot_drain_exclusive ran⟩

end Vitess.Logic
