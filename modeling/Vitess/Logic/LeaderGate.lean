import Vitess.Logic.Engine

/-!
Leader gating. Each leader-only operation runs in a goroutine that read `isElectedNode = 1`
in an `IsLeaderOrActive` (or `IsLeader`) check, but the check and the operation are separate
steps, and an `onHealthTick` goroutine may store 0 in between. What holds in every
interleaving is the weaker law below: an operation that starts while `isElectedNode = 0` was
checked before a demotion that landed between its check and its start.
-/

namespace Vitess.Logic
open Discovery

variable {K : Type}

def HealthPc.checkedAt? : HealthPc K → Option Nat
  | .reading _ checkedAt | .locking _ checkedAt | .draining _ _ checkedAt
  | .pushing _ checkedAt => some checkedAt
  | _ => none

def WorkerPc.checkedAt? : WorkerPc K → Option Nat
  | .calling _ checkedAt => some checkedAt
  | _ => none

def GuardPc.checkedAt? : GuardPc → Option Nat
  | .start checkedAt | .entered checkedAt => some checkedAt
  | _ => none

def Spawned.checkedAt? : Spawned K → Option Nat
  | .go f checkedAt => if f.leaderOnly then some checkedAt else none
  | .done => none

/-- A check made when `checkedAt` demotions had happened read `isElectedNode = 1`, and only
a demotion since can have changed that. -/
def Fresh (s : Engine K) (checkedAt : Nat) : Prop :=
  checkedAt ≤ demotions s ∧ (demotions s = checkedAt → s.isElectedNode = 1)

def Obs.Gated : Obs K → Prop
  | .started f isElectedNode demotedSinceCheck =>
    f.leaderOnly = true → isElectedNode = 1 ∨ demotedSinceCheck = true
  | _ => True

def GateInv (s : Engine K) : Prop :=
  (∀ pc ∈ s.healthTicks, ∀ d ∈ pc.checkedAt?, Fresh s d) ∧
  (∀ worker ∈ s.workers, ∀ d ∈ worker.pc.checkedAt?, Fresh s d) ∧
  (∀ g ∈ s.guards, ∀ d ∈ g.checkedAt?, Fresh s d) ∧
  (∀ t ∈ s.spawned, ∀ d ∈ t.checkedAt?, Fresh s d) ∧
  ∀ o ∈ s.history, o.Gated

theorem gateInv_init (discoveryMaxConcurrency capacity : Nat) :
    GateInv (Engine.init discoveryMaxConcurrency capacity : Engine K) := by
  refine ⟨by simp [Engine.init], fun worker member => ?_, by simp [Engine.init],
    by simp [Engine.init], by simp [Engine.init]⟩
  simp only [Engine.init, List.mem_replicate] at member
  simp [member.2, WorkerPc.checkedAt?]

theorem fresh_now {s : Engine K} (leader : isLeaderOrActive s = true) : Fresh s (demotions s) :=
  ⟨le_rfl, fun _ => by simpa [isLeaderOrActive] using leader⟩

theorem fresh_frame {s s' : Engine K} {d : Nat} (flag : s'.isElectedNode = s.isElectedNode)
    (count : demotions s' = demotions s) (fresh : Fresh s d) : Fresh s' d := by
  unfold Fresh
  rw [flag, count]
  exact fresh

-- A store of `value` over the flag keeps every check fresh: it is a demotion or it is not.
theorem fresh_store {s s' : Engine K} {d value : Nat} (binary : value ≤ 1)
    (flag : s'.isElectedNode = value)
    (count : demotions s' = demotions s + if s.isElectedNode = 1 ∧ value = 0 then 1 else 0)
    (fresh : Fresh s d) : Fresh s' d := by
  obtain ⟨checked, still⟩ := fresh
  refine ⟨by omega, fun same => ?_⟩
  rw [flag]
  by_cases demoted : s.isElectedNode = 1 ∧ value = 0
  · rw [if_pos demoted] at count
    omega
  · rw [if_neg demoted] at count
    have elected := still (by omega)
    omega

theorem start_gated {s : Engine K} {f : Action K} {d : Nat} (fresh : Fresh s d) :
    (s.start f d).Gated := by
  intro _
  by_cases elected : s.isElectedNode = 1
  · exact .inl elected
  · have moved : demotions s ≠ d := mt fresh.2 elected
    exact .inr (decide_eq_true (by have := fresh.1; omega))

theorem demotions_append (s : Engine K) (observed : List (Obs K)) :
    (s.history ++ observed).countP Obs.isDemotion =
      demotions s + observed.countP Obs.isDemotion :=
  List.countP_append _ _ _

-- A step keeps the invariant when it keeps every fresh check fresh and whatever it adds, a
-- goroutine's new place or a new observation, is fresh or gated.
theorem gateInv_of {s s' : Engine K} (inv : GateInv s) (keep : ∀ d, Fresh s d → Fresh s' d)
    (health : ∀ pc ∈ s'.healthTicks, pc ∈ s.healthTicks ∨ ∀ d ∈ pc.checkedAt?, Fresh s' d)
    (workers : ∀ w ∈ s'.workers, w ∈ s.workers ∨ ∀ d ∈ w.pc.checkedAt?, Fresh s' d)
    (guards : ∀ g ∈ s'.guards, g ∈ s.guards ∨ ∀ d ∈ g.checkedAt?, Fresh s' d)
    (spawned : ∀ t ∈ s'.spawned, t ∈ s.spawned ∨ ∀ d ∈ t.checkedAt?, Fresh s' d)
    (history : ∀ o ∈ s'.history, o ∈ s.history ∨ o.Gated) : GateInv s' := by
  obtain ⟨healthFresh, workersFresh, guardsFresh, spawnedFresh, gated⟩ := inv
  refine ⟨fun pc member d checked => ?_, fun w member d checked => ?_,
    fun g member d checked => ?_, fun t member d checked => ?_, fun o member => ?_⟩
  · rcases health pc member with old | new
    exacts [keep d (healthFresh pc old d checked), new d checked]
  · rcases workers w member with old | new
    exacts [keep d (workersFresh w old d checked), new d checked]
  · rcases guards g member with old | new
    exacts [keep d (guardsFresh g old d checked), new d checked]
  · rcases spawned t member with old | new
    exacts [keep d (spawnedFresh t old d checked), new d checked]
  · rcases history o member with old | new
    exacts [gated o old, new]

theorem recoveryStep_gate {s : Engine K} {g : GuardPc} {w : GuardPc × Nat × List (Obs K)}
    (fresh : ∀ d ∈ g.checkedAt?, Fresh s d) (stepped : recoveryStep s g = some w) :
    w.2.2.countP Obs.isDemotion = 0 ∧ (∀ d ∈ w.1.checkedAt?, Fresh s d) ∧
      ∀ o ∈ w.2.2, o.Gated := by
  cases g with
  | start checkedAt =>
    cases stepped
    split <;> simp [GuardPc.checkedAt?, fresh checkedAt rfl]
  | entered checkedAt =>
    cases stepped
    split
    · exact ⟨by simp [Engine.start, Obs.isDemotion], by simp [GuardPc.checkedAt?],
        by simpa using start_gated (fresh checkedAt rfl)⟩
    · simp [GuardPc.checkedAt?]
  | recovering => cases stepped; simp [GuardPc.checkedAt?]
  | done => cases stepped

theorem tickTaskStep_gate {s : Engine K} {t : TickTask}
    {w : TickTask × List (Spawned K) × List GuardPc} (stepped : tickTaskStep s t = some w) :
    (∀ spawned ∈ w.2.1, ∀ d ∈ spawned.checkedAt?, Fresh s d) ∧
      ∀ g ∈ w.2.2, ∀ d ∈ g.checkedAt?, Fresh s d := by
  have gated : ∀ fs : List (Action K), ∀ spawned ∈ s.gated fs, ∀ d ∈ spawned.checkedAt?,
      Fresh s d := by
    intro fs spawned member d checked
    unfold Engine.gated at member
    split at member
    · obtain ⟨f, _, rfl⟩ := List.mem_map.mp member
      obtain ⟨-, rfl⟩ : f.leaderOnly = true ∧ demotions s = d := by
        simpa [Spawned.checkedAt?] using checked
      exact fresh_now ‹_›
    · cases member
  cases t with
  | instancePoll => cases stepped; exact ⟨gated _, by simp⟩
  | caretaking =>
    cases stepped
    split
    · exact ⟨gated _, by simp⟩
    · simp [Spawned.checkedAt?, Action.leaderOnly]
  | kvSubmit =>
    cases stepped
    refine ⟨fun spawned member d checked => ?_, by simp⟩
    split at member
    · rename_i ripeLeader
      obtain ⟨rfl⟩ := List.mem_singleton.mp member
      cases checked
      exact fresh_now ((Bool.and_eq_true _ _).mp ripeLeader).2
    · cases member
  | recovery =>
    cases stepped
    refine ⟨gated _, fun g member d checked => ?_⟩
    split at member
    · obtain ⟨rfl⟩ := List.mem_singleton.mp member
      cases checked
      exact fresh_now ‹_›
    · cases member
  | snapshotTopologies => cases stepped; exact ⟨gated _, by simp⟩
  | done => cases stepped

-- A timer spawns goroutines that have made no check yet.
theorem spawn_gate {s : Engine K} (timer : Timer) (inv : GateInv s) : GateInv (timer.spawn s) := by
  cases timer
  case healthTick =>
    exact gateInv_of inv (fun _ => id) (old_or_append (by simp [HealthPc.checkedAt?]))
      (fun _ => .inl) (fun _ => .inl) (fun _ => .inl) (fun _ => .inl)
  case tabletTopoTick =>
    exact gateInv_of inv (fun _ => id) (fun _ => .inl) (fun _ => .inl) (fun _ => .inl)
      (old_or_append (by simp [Spawned.checkedAt?, Action.leaderOnly])) (fun _ => .inl)
  all_goals exact inv

-- A step that stores no flag and spawns and observes nothing keeps every check fresh.
theorem quiet_gate {s : Engine K} {i : Nat} {w : HealthWrite K}
    (flag : w.isElectedNode = s.isElectedNode) (spawned : w.spawned = [])
    (observed : w.observed = []) (fresh : ∀ d ∈ w.pc.checkedAt?, Fresh s d) :
    (∀ d, Fresh s d → Fresh (s.applyHealth i w) d) ∧
      (∀ d ∈ w.pc.checkedAt?, Fresh (s.applyHealth i w) d) ∧
      (∀ t ∈ w.spawned, ∀ d ∈ t.checkedAt?, Fresh (s.applyHealth i w) d) ∧
      ∀ o ∈ w.observed, o.Gated := by
  have keep : ∀ d, Fresh s d → Fresh (s.applyHealth i w) d := fun _ =>
    fresh_frame flag (by simp [demotions, Engine.applyHealth, observed])
  exact ⟨keep, fun d checked => keep d (fresh d checked), by simp [spawned], by simp [observed]⟩

variable [DecidableEq K]

-- What one `onHealthTick` step does to the checks: every check it holds afterwards, its own
-- or that of a goroutine it spawns, was fresh before the step.
theorem onHealthTick_gate {isValid : K → Bool} {s : Engine K} {i : Nat} {won : Bool}
    {outdated : List K} {pc : HealthPc K} {w : HealthWrite K}
    (fresh : ∀ d ∈ pc.checkedAt?, Fresh s d)
    (stepped : onHealthTick isValid s won outdated pc = some w) :
    (∀ d, Fresh s d → Fresh (s.applyHealth i w) d) ∧
      (∀ d ∈ w.pc.checkedAt?, Fresh (s.applyHealth i w) d) ∧
      (∀ t ∈ w.spawned, ∀ d ∈ t.checkedAt?, Fresh (s.applyHealth i w) d) ∧
      ∀ o ∈ w.observed, o.Gated := by
  have frame : w.isElectedNode = s.isElectedNode → w.observed.countP Obs.isDemotion = 0 →
      ∀ d, Fresh s d → Fresh (s.applyHealth i w) d := fun flag none _ =>
    fresh_frame flag (by simp [demotions, Engine.applyHealth, demotions_append, none])
  cases pc with
  | start =>
    cases stepped
    exact quiet_gate rfl rfl rfl (by simp [Engine.keep, HealthPc.checkedAt?])
  | electing was =>
    cases stepped
    exact ⟨frame rfl rfl, by simp [Engine.keep, HealthPc.checkedAt?], by simp [Engine.keep],
      by simp [Obs.Gated]⟩
  | storing was mine =>
    cases stepped
    refine ⟨fun d => fresh_store ?_ rfl ?_, by simp [Engine.keep, HealthPc.checkedAt?],
      by simp [Engine.keep], by simp [Obs.Gated]⟩ <;> cases mine <;>
      simp [Engine.applyHealth, demotions, demotions_append, List.countP_cons, Obs.isDemotion]
  | checking was =>
    cases stepped
    refine quiet_gate rfl rfl rfl fun d member => ?_
    split at member
    · cases member; exact fresh_now ‹_›
    · cases member
  | reading was checkedAt =>
    simp only [onHealthTick] at stepped
    split_ifs at stepped <;> cases stepped
    · exact quiet_gate rfl rfl rfl fresh
    · have keep := frame rfl rfl
      refine ⟨keep, fun d member => keep d (fresh d member), fun t member d checked => ?_,
        by simp [Obs.Gated]⟩
      simp only [List.mem_cons, List.mem_singleton, List.not_mem_nil, or_false] at member
      rcases member with rfl | rfl <;> exact keep d (fresh d checked)
  | locking keys checkedAt =>
    simp only [onHealthTick] at stepped
    split_ifs at stepped
    cases stepped
    exact quiet_gate rfl rfl rfl fresh
  | draining keys remaining checkedAt =>
    cases remaining with
    | zero => cases stepped; exact quiet_gate rfl rfl rfl fresh
    | succ remaining =>
      simp only [onHealthTick] at stepped
      split at stepped
      · cases stepped
      · cases stepped; exact quiet_gate rfl rfl rfl fresh
  | pushing keys checkedAt =>
    cases keys with
    | nil =>
      cases stepped
      exact quiet_gate rfl rfl rfl (by simp [Engine.keep, HealthPc.checkedAt?])
    | cons key keys =>
      simp only [onHealthTick] at stepped
      split_ifs at stepped
      · obtain ⟨q, _, rfl⟩ := Option.map_eq_some'.mp stepped
        have keep := frame rfl (by simp [Engine.start, Obs.isDemotion])
        exact ⟨keep, fun d member => keep d (fresh d member), by simp [Engine.keep],
          by simpa using start_gated (fresh checkedAt rfl)⟩
      · cases stepped; exact quiet_gate rfl rfl rfl fresh
  | done => cases stepped

theorem handleDiscoveryRequests_gate {s : Engine K} {worker : Worker K}
    {w : Worker K × Queue K × List (Obs K)} (fresh : ∀ d ∈ worker.pc.checkedAt?, Fresh s d)
    (stepped : handleDiscoveryRequests s worker = some w) :
    w.2.2.countP Obs.isDemotion = 0 ∧ (∀ d ∈ w.1.pc.checkedAt?, Fresh s d) ∧
      ∀ o ∈ w.2.2, o.Gated := by
  rcases worker with ⟨pc, calls⟩
  cases pc with
  | consuming =>
    obtain ⟨⟨key, q⟩, _, rfl⟩ := Option.map_eq_some'.mp stepped
    simp [WorkerPc.checkedAt?]
  | checking key =>
    cases stepped
    refine ⟨rfl, fun d checked => ?_, by simp⟩
    split at checked
    · rename_i leader
      cases checked
      exact fresh_now leader
    · cases checked
  | calling key checkedAt =>
    cases stepped
    exact ⟨by simp [Engine.start, Obs.isDemotion], by simp [WorkerPc.checkedAt?],
      by simpa using start_gated (fresh checkedAt rfl)⟩
  | discovering key => cases stepped; simp [WorkerPc.checkedAt?]
  | releasing key => cases stepped; simp [WorkerPc.checkedAt?]

theorem gateInv_step {isValid : K → Bool} {s s' : Engine K} {e : Event K} (inv : GateInv s)
    (stepped : s.step isValid e = some s') : GateInv s' := by
  have ⟨healthFresh, workersFresh, guardsFresh, spawnedFresh, _⟩ := inv
  cases e with
  | tick timer => cases stepped; exact spawn_gate timer inv
  | health i won outdated =>
    obtain ⟨pc, w, found, healthStepped, rfl⟩ := step_health stepped
    obtain ⟨keep, newPc, newSpawned, newObserved⟩ :=
      onHealthTick_gate (healthFresh pc (List.getElem?_mem found)) healthStepped (i := i)
    exact gateInv_of inv keep (old_or_set newPc) (fun _ => .inl) (fun _ => .inl)
      (old_or_append newSpawned) (old_or_append newObserved)
  | worker i =>
    obtain ⟨worker, w, found, workerStepped, rfl⟩ := step_worker stepped
    obtain ⟨count, newPc, newObserved⟩ :=
      handleDiscoveryRequests_gate (workersFresh worker (List.getElem?_mem found)) workerStepped
    have keep : ∀ d, Fresh s d → Fresh (s.applyWorker i w) d := fun _ =>
      fresh_frame rfl (by simp [Engine.applyWorker, count, demotions])
    exact gateInv_of inv keep (fun _ => .inl) (old_or_set fun d checked => keep d (newPc d checked))
      (fun _ => .inl) (fun _ => .inl) (old_or_append newObserved)
  | tickTask i =>
    obtain ⟨t, w, _, tickStepped, rfl⟩ := step_tickTask stepped
    obtain ⟨newSpawned, newGuards⟩ := tickTaskStep_gate tickStepped
    exact gateInv_of inv (fun _ => fresh_frame rfl rfl) (fun _ => .inl) (fun _ => .inl)
      (old_or_append newGuards) (old_or_append newSpawned) (fun _ => .inl)
  | guard i =>
    obtain ⟨g, w, found, guardStepped, rfl⟩ := step_guard stepped
    obtain ⟨count, newPc, newObserved⟩ :=
      recoveryStep_gate (guardsFresh g (List.getElem?_mem found)) guardStepped
    have keep : ∀ d, Fresh s d → Fresh (s.applyGuard i w) d := fun _ =>
      fresh_frame rfl (by simp [Engine.applyGuard, count, demotions])
    exact gateInv_of inv keep (fun _ => .inl) (fun _ => .inl)
      (old_or_set fun d checked => keep d (newPc d checked)) (fun _ => .inl)
      (old_or_append newObserved)
  | spawned i =>
    obtain ⟨f, checkedAt, found, rfl⟩ := step_spawned stepped
    have own := spawnedFresh _ (List.getElem?_mem found)
    refine gateInv_of inv (fun _ => fresh_frame rfl ?_) (fun _ => .inl) (fun _ => .inl)
      (fun _ => .inl) (old_or_set (by simp [Spawned.checkedAt?])) (old_or_append ?_)
    · simp [demotions, Engine.start, Obs.isDemotion]
    · simp only [List.mem_singleton, forall_eq]
      exact fun leaderOnly => start_gated (own checkedAt (by simp [Spawned.checkedAt?, leaderOnly]))
        leaderOnly
  | request key =>
    rw [step_request stepped]
    exact inv
  | ripen => cases stepped; exact inv

theorem gateInv_reachable {isValid : K → Bool} {discoveryMaxConcurrency capacity : Nat}
    {s : Engine K} (reached : Reachable isValid discoveryMaxConcurrency capacity s) :
    GateInv s := by
  induction reached with
  | init => exact gateInv_init _ _
  | step _ stepped inv => exact gateInv_step inv stepped

-- A leader-only operation that starts while `isElectedNode = 0` was checked before a
-- demotion that came between its check and its start.
theorem leader_only_start_after_demotion {isValid : K → Bool}
    {discoveryMaxConcurrency capacity : Nat} {s : Engine K}
    (reached : Reachable isValid discoveryMaxConcurrency capacity s) :
    ∀ f isElectedNode demotedSinceCheck,
      Obs.started f isElectedNode demotedSinceCheck ∈ s.history → f.leaderOnly = true →
        isElectedNode = 1 ∨ demotedSinceCheck = true :=
  fun _ _ _ started => (gateInv_reachable reached).2.2.2.2 _ started

/-- The caretaking goroutine passes its check, a health tick stores 0, and the spawned
`ExpireMaintenance` starts on a demoted node. -/
def demotedStartEvents : List (Event Nat) :=
  [.tick .healthTick, .health 0 true [], .health 0 true [], .health 0 true [],
    .tick .caretakingTick, .tickTask 0,
    .tick .healthTick, .health 1 false [], .health 1 false [], .health 1 false [],
    .spawned 7]

theorem leader_only_start_after_demotion_demoted :
    ∃ s : Engine Nat, Reachable (fun _ => true) 0 0 s ∧ Obs.started .expireMaintenance 0 true ∈ s.history ∧
      ∀ f isElectedNode demotedSinceCheck,
        Obs.started f isElectedNode demotedSinceCheck ∈ s.history → f.leaderOnly = true →
          isElectedNode = 1 ∨ demotedSinceCheck = true :=
  let ⟨s, reached, started⟩ := exists_reachable_of_run (fun _ : Nat => true) 0 0
    (P := fun s : Engine Nat => Obs.started .expireMaintenance 0 true ∈ s.history)
    demotedStartEvents (by decide)
  ⟨s, reached, started, leader_only_start_after_demotion reached⟩

theorem leader_only_start_while_demoted :
    ¬ ∀ s : Engine Nat, Reachable (fun _ => true) 0 0 s →
      ∀ f isElectedNode demotedSinceCheck,
        Obs.started f isElectedNode demotedSinceCheck ∈ s.history → f.leaderOnly = true →
          isElectedNode = 1 := by
  intro gated
  obtain ⟨s, reached, started⟩ : ∃ s : Engine Nat, Reachable (fun _ => true) 0 0 s ∧
      Obs.started .expireMaintenance 0 true ∈ s.history :=
    exists_reachable_of_run _ _ _ demotedStartEvents (by decide)
  exact absurd (gated s reached _ _ _ started rfl) (by decide)

end Vitess.Logic
