import Vitess.Logic.Engine

/-!
The recovery goroutine that the recovery tick spawns guards `CheckAndRecover` with
`CompareAndSwapInt64(&recoveryEntrance, 0, 1)` and resets the flag by a deferred store on
every way out. Over every interleaving of any number of such goroutines with the rest of the
engine, the flag counts the goroutines between a successful swap and the reset, and that
count never exceeds one; with none inside, the next swap succeeds.
-/

namespace Vitess.Logic

variable {K : Type}

def GuardPc.inSection : GuardPc → Bool
  | .entered _ | .recovering => true
  | _ => false

def inSection (s : Engine K) : Nat := s.guards.countP GuardPc.inSection

def GuardInv (s : Engine K) : Prop :=
  inSection s ≤ 1 ∧ s.recoveryEntrance = inSection s

theorem guardInv_init (discoveryMaxConcurrency capacity : Nat) :
    GuardInv (Engine.init discoveryMaxConcurrency capacity : Engine K) := by
  simp [GuardInv, inSection, Engine.init]

-- A goroutine of the select loop spawns recovery goroutines only before their swap.
theorem tickTaskStep_outside {s : Engine K} {t : TickTask}
    {w : TickTask × List (Spawned K) × List GuardPc} (stepped : tickTaskStep s t = some w) :
    w.2.2.countP GuardPc.inSection = 0 := by
  cases t <;> cases stepped <;> (try split_ifs) <;> rfl

theorem recoveryStep_inv {s : Engine K} {i : Nat} {g : GuardPc}
    {w : GuardPc × Nat × List (Obs K)} (inv : GuardInv s) (found : s.guards[i]? = some g)
    (stepped : recoveryStep s g = some w) : GuardInv (s.applyGuard i w) := by
  have counted := countP_set_add GuardPc.inSection w.1 found
  obtain ⟨atMostOne, entrance⟩ := inv
  simp only [GuardInv, inSection, Engine.applyGuard] at atMostOne entrance ⊢
  cases g with
  | start checkedAt | entered checkedAt =>
    simp only [recoveryStep] at stepped
    split_ifs at stepped <;> cases stepped <;> simp [GuardPc.inSection] at counted ⊢ <;> omega
  | recovering =>
    cases stepped
    simp [GuardPc.inSection] at counted ⊢
    omega
  | done => cases stepped

variable [DecidableEq K]

theorem guardInv_step {isValid : K → Bool} {s s' : Engine K} {e : Event K} (inv : GuardInv s)
    (stepped : s.step isValid e = some s') : GuardInv s' := by
  cases e with
  | tick timer => cases stepped; cases timer <;> exact inv
  | health i won outdated => obtain ⟨_, _, _, _, rfl⟩ := step_health stepped; exact inv
  | worker i => obtain ⟨_, _, _, _, rfl⟩ := step_worker stepped; exact inv
  | tickTask i =>
    obtain ⟨_, w, _, spawnedGuards, rfl⟩ := step_tickTask stepped
    simpa [GuardInv, inSection, Engine.applyTickTask, tickTaskStep_outside spawnedGuards]
      using inv
  | guard i =>
    obtain ⟨_, _, found, guarded, rfl⟩ := step_guard stepped
    exact recoveryStep_inv inv found guarded
  | spawned i => obtain ⟨_, _, _, rfl⟩ := step_spawned stepped; exact inv
  | request key => rw [step_request stepped]; exact inv
  | ripen => cases stepped; exact inv

theorem guardInv_reachable {isValid : K → Bool} {discoveryMaxConcurrency capacity : Nat}
    {s : Engine K} (reached : Reachable isValid discoveryMaxConcurrency capacity s) :
    GuardInv s := by
  induction reached with
  | init => exact guardInv_init _ _
  | step _ stepped inv => exact guardInv_step inv stepped

-- With no goroutine inside, a waiting goroutine's swap succeeds.
theorem swap_succeeds {isValid : K → Bool} {s : Engine K} {i checkedAt : Nat}
    (idle : s.recoveryEntrance = 0) (found : s.guards[i]? = some (.start checkedAt)) :
    ∃ s', s.step isValid (.guard i) = some s' ∧ s'.guards[i]? = some (.entered checkedAt) := by
  obtain ⟨inside, -⟩ := List.getElem?_eq_some_iff.mp found
  refine ⟨_, by simp [Engine.step, found, recoveryStep, idle]; rfl, ?_⟩
  simp [Engine.applyGuard, inside]

theorem recovery_mutual_exclusion {isValid : K → Bool} {discoveryMaxConcurrency capacity : Nat}
    {s : Engine K} (reached : Reachable isValid discoveryMaxConcurrency capacity s) :
    inSection s ≤ 1 ∧ s.recoveryEntrance = inSection s ∧
      (inSection s = 0 → ∀ i checkedAt, s.guards[i]? = some (.start checkedAt) →
        ∃ s', s.step isValid (.guard i) = some s' ∧ s'.guards[i]? = some (.entered checkedAt)) := by
  obtain ⟨atMostOne, entrance⟩ := guardInv_reachable reached
  exact ⟨atMostOne, entrance, fun none _ _ found => swap_succeeds (entrance.trans none) found⟩

/-- A leader's two recovery ticks: the first goroutine enters the section, the second is spawned
while it is inside, and the first returns (the wait period has not passed) before the second
tries its swap. -/
def recoveryEvents : List (Event Nat) :=
  [.tick .healthTick, .health 0 true [], .health 0 true [], .health 0 true [],
    .tick .recoveryTick, .tickTask 0, .guard 0, .tick .recoveryTick, .tickTask 1, .guard 0]

theorem recovery_mutual_exclusion_second_guard :
    ∃ s : Engine Nat, Reachable (fun _ => true) 1 4 s ∧ s.guards = [.done, .start 0] ∧
      inSection s ≤ 1 ∧ s.recoveryEntrance = inSection s ∧
      (inSection s = 0 → ∀ i checkedAt, s.guards[i]? = some (.start checkedAt) →
        ∃ s', s.step (fun _ => true) (.guard i) = some s' ∧ s'.guards[i]? = some (.entered checkedAt)) :=
  let ⟨s, reached, waiting⟩ := exists_reachable_of_run (fun _ : Nat => true) 1 4
    (P := fun s : Engine Nat => s.guards = [.done, .start 0]) recoveryEvents (by decide)
  ⟨s, reached, waiting, recovery_mutual_exclusion reached⟩

end Vitess.Logic
