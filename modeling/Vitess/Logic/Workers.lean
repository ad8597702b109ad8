import Vitess.Logic.Engine

/-!
The discovery workers of `handleDiscoveryRequests` racing with the pushes of `onHealthTick`
goroutines, over the queue contract of package discovery. In every interleaving the queued
and consumed keys are distinct, the consumed keys are exactly the keys the workers hold, and
each worker's queue calls alternate `Consume k` and `Release k` of the same key, on the
demoted path and on the discovery path alike.
-/

namespace Vitess.Logic
open Discovery

variable {K : Type}

def WorkerPc.held : WorkerPc K → Option K
  | .consuming => none
  | .checking key | .calling key _ | .discovering key | .releasing key => some key

variable [DecidableEq K]

/-- The key a worker holds after `calls`, when they alternate `Consume k` and `Release k` of
the same key; `none` when they do not. -/
def heldAfter : Option K → List (QueueOp K) → Option (Option K)
  | held, [] => some held
  | none, .consume key :: rest => heldAfter (some key) rest
  | some key, .release key' :: rest => if key = key' then heldAfter none rest else none
  | _, _ :: _ => none

theorem heldAfter_append (held : Option K) (calls : List (QueueOp K)) (op : QueueOp K) :
    heldAfter held (calls ++ [op]) = (heldAfter held calls).bind (heldAfter · [op]) := by
  induction calls generalizing held with
  | nil => cases held <;> rfl
  | cons call rest ih =>
    cases held <;> cases call <;> simp only [List.cons_append, heldAfter, Option.none_bind]
    · exact ih _
    · split_ifs
      · exact ih _
      · rfl

def holds (key : K) (worker : Worker K) : Bool := worker.pc.held == some key

def WorkersInv (s : Engine K) : Prop :=
  s.discoveryQueue.Dedup ∧
  (∀ key, s.discoveryQueue.consumed.count key = s.workers.countP (holds key)) ∧
  ∀ worker ∈ s.workers, heldAfter none worker.calls = some worker.pc.held

theorem workersInv_init (discoveryMaxConcurrency capacity : Nat) :
    WorkersInv (Engine.init discoveryMaxConcurrency capacity : Engine K) := by
  refine ⟨List.nodup_nil, fun key => ?_, fun worker member => ?_⟩
  · simp [Engine.init, List.countP_replicate, holds, WorkerPc.held]
  · simp only [Engine.init, List.mem_replicate] at member
    rw [member.2]
    rfl

-- `onHealthTick` changes the queue only by a `Push`.
theorem onHealthTick_queue {isValid : K → Bool} {s : Engine K} {won : Bool} {outdated : List K}
    {pc : HealthPc K} {w : HealthWrite K} (stepped : onHealthTick isValid s won outdated pc = some w) :
    w.discoveryQueue = s.discoveryQueue ∨ ∃ key, s.discoveryQueue.push key = some w.discoveryQueue := by
  cases pc with
  | pushing keys checkedAt =>
    cases keys with
    | nil => cases stepped; exact .inl rfl
    | cons key keys =>
      simp only [onHealthTick] at stepped
      split_ifs at stepped
      · obtain ⟨q, pushed, rfl⟩ := Option.map_eq_some'.mp stepped
        exact .inr ⟨key, pushed⟩
      · cases stepped; exact .inl rfl
  | draining keys remaining checkedAt =>
    cases remaining with
    | zero => cases stepped; exact .inl rfl
    | succ remaining =>
      simp only [onHealthTick] at stepped
      split at stepped
      · cases stepped
      · cases stepped; exact .inl rfl
  | locking keys checkedAt =>
    simp only [onHealthTick] at stepped
    split_ifs at stepped
    cases stepped; exact .inl rfl
  | reading was checkedAt =>
    simp only [onHealthTick] at stepped
    split_ifs at stepped <;> cases stepped <;> exact .inl rfl
  | done => cases stepped
  | _ => cases stepped; exact .inl rfl

-- A worker step that keeps the held key, the calls and the queue keeps the invariant.
theorem keeps_workersInv {s : Engine K} {i : Nat} {worker worker' : Worker K}
    {observed : List (Obs K)} (inv : WorkersInv s) (found : s.workers[i]? = some worker)
    (held : worker'.pc.held = worker.pc.held) (calls : worker'.calls = worker.calls) :
    WorkersInv (s.applyWorker i (worker', s.discoveryQueue, observed)) := by
  obtain ⟨dedup, counts, history⟩ := inv
  refine ⟨dedup, fun key => ?_, forall_mem_set_of history ?_⟩
  · have counted := countP_set_add (holds key) worker' found
    simp only [holds, held] at counted
    simp only [Engine.applyWorker, counts key]
    omega
  · rw [held, calls]
    exact history worker (List.getElem?_mem found)

theorem handleDiscoveryRequests_inv {s : Engine K} {i : Nat} {worker : Worker K}
    {w : Worker K × Queue K × List (Obs K)} (inv : WorkersInv s)
    (found : s.workers[i]? = some worker) (stepped : handleDiscoveryRequests s worker = some w) :
    WorkersInv (s.applyWorker i w) := by
  rcases worker with ⟨pc, trace⟩
  cases pc with
  | checking key => cases stepped; exact keeps_workersInv inv found (by split_ifs <;> rfl) rfl
  | calling key checkedAt => cases stepped; exact keeps_workersInv inv found rfl rfl
  | discovering key => cases stepped; exact keeps_workersInv inv found rfl rfl
  | consuming =>
    obtain ⟨dedup, counts, history⟩ := inv
    obtain ⟨⟨key, q⟩, consumed, rfl⟩ := Option.map_eq_some'.mp stepped
    refine ⟨consume_dedup dedup consumed, fun k => ?_, forall_mem_set_of history ?_⟩
    · have counted := countP_set_add (holds k) ⟨.checking key, trace ++ [.consume key]⟩ found
      simp only [holds, WorkerPc.held] at counted
      simp only [Engine.applyWorker, consume_consumed consumed, List.count_cons, counts k]
      simp at counted ⊢
      omega
    · simp only [heldAfter_append, history _ (List.getElem?_mem found)]
      rfl
  | releasing key =>
    obtain ⟨dedup, counts, history⟩ := inv
    cases stepped
    refine ⟨release_dedup key dedup, fun k => ?_, forall_mem_set_of history ?_⟩
    · have counted := countP_set_add (holds k) ⟨.consuming, trace ++ [.release key]⟩ found
      simp only [holds, WorkerPc.held] at counted
      simp only [Engine.applyWorker, Queue.release, List.count_erase, counts k]
      simp at counted ⊢
      omega
    · simp only [heldAfter_append, history _ (List.getElem?_mem found)]
      simp [heldAfter, WorkerPc.held]

theorem workersInv_step {isValid : K → Bool} {s s' : Engine K} {e : Event K}
    (inv : WorkersInv s) (stepped : s.step isValid e = some s') : WorkersInv s' := by
  cases e with
  | tick timer => cases stepped; cases timer <;> exact inv
  | health i won outdated =>
    obtain ⟨_, w, _, healthStepped, rfl⟩ := step_health stepped
    obtain ⟨dedup, counts, calls⟩ := inv
    refine ⟨?_, fun key => ?_, calls⟩ <;> simp only [Engine.applyHealth]
    · rcases onHealthTick_queue healthStepped with same | ⟨key, pushed⟩
      · exact same ▸ dedup
      · exact push_dedup dedup pushed
    · rcases onHealthTick_queue healthStepped with same | ⟨_, pushed⟩
      · exact same ▸ counts key
      · exact push_consumed pushed ▸ counts key
  | worker i =>
    obtain ⟨_, _, found, workerStepped, rfl⟩ := step_worker stepped
    exact handleDiscoveryRequests_inv inv found workerStepped
  | tickTask i => obtain ⟨_, _, _, _, rfl⟩ := step_tickTask stepped; exact inv
  | guard i => obtain ⟨_, _, _, _, rfl⟩ := step_guard stepped; exact inv
  | spawned i => obtain ⟨_, _, _, rfl⟩ := step_spawned stepped; exact inv
  | request key => rw [step_request stepped]; exact inv
  | ripen => cases stepped; exact inv

theorem workersInv_reachable {isValid : K → Bool} {discoveryMaxConcurrency capacity : Nat}
    {s : Engine K} (reached : Reachable isValid discoveryMaxConcurrency capacity s) :
    WorkersInv s := by
  induction reached with
  | init => exact workersInv_init _ _
  | step _ stepped inv => exact workersInv_step inv stepped

def WorkerPc.inDiscoverInstance (key : K) : WorkerPc K → Bool
  | .discovering k => k == key
  | _ => false

theorem discovery_queue_dedup {isValid : K → Bool} {discoveryMaxConcurrency capacity : Nat}
    {s : Engine K} (reached : Reachable isValid discoveryMaxConcurrency capacity s) :
    (s.discoveryQueue.queued ++ s.discoveryQueue.consumed).Nodup ∧
      (∀ key, s.discoveryQueue.consumed.count key = s.workers.countP (holds key)) ∧
      (∀ key, s.workers.countP (fun worker => worker.pc.inDiscoverInstance key) ≤ 1) ∧
      ∀ worker ∈ s.workers, heldAfter none worker.calls = some worker.pc.held := by
  obtain ⟨dedup, counts, calls⟩ := workersInv_reachable reached
  refine ⟨dedup, counts, fun key => ?_, calls⟩
  have once : s.discoveryQueue.consumed.count key ≤ 1 :=
    List.nodup_iff_count_le_one.mp (dedup.sublist (List.sublist_append_right _ _)) key
  have inside : s.workers.countP (fun worker => worker.pc.inDiscoverInstance key) ≤
      s.workers.countP (holds key) := by
    refine List.countP_mono_left fun worker _ => ?_
    rcases worker with ⟨pc, _⟩
    cases pc <;> simp [WorkerPc.inDiscoverInstance, holds, WorkerPc.held]
  rw [counts key] at once
  omega

/-- A leader's health tick reads the outdated keys and pushes the valid ones; the first worker
then consumes the first key and enters `DiscoverInstance` on it. -/
def discoveryEvents (outdated : List Nat) : List (Event Nat) :=
  [.tick .healthTick, .health 0 true [], .health 0 true [], .health 0 true [], .health 0 true [],
    .health 0 true outdated, .health 0 true [], .health 0 true [], .health 0 true [],
    .health 0 true [], .worker 0, .worker 0, .worker 0]

theorem discovery_queue_dedup_discovering :
    ∃ s : Engine Nat, Reachable (fun _ => true) 2 4 s ∧
      s.workers.map Worker.pc = [.discovering 3, .consuming] ∧ s.discoveryQueue.queued = [4] ∧
      (s.discoveryQueue.queued ++ s.discoveryQueue.consumed).Nodup ∧
      (∀ key, s.discoveryQueue.consumed.count key = s.workers.countP (holds key)) ∧
      (∀ key, s.workers.countP (fun worker => worker.pc.inDiscoverInstance key) ≤ 1) ∧
      ∀ worker ∈ s.workers, heldAfter none worker.calls = some worker.pc.held :=
  let ⟨s, reached, discovering, queued⟩ := exists_reachable_of_run (fun _ : Nat => true) 2 4
    (P := fun s : Engine Nat =>
      s.workers.map Worker.pc = [.discovering 3, .consuming] ∧ s.discoveryQueue.queued = [4])
    (discoveryEvents [3, 4]) (by decide)
  ⟨s, reached, discovering, queued, discovery_queue_dedup reached⟩

end Vitess.Logic
