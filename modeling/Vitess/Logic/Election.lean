import Vitess.Logic.Engine

/-!
The election block of `onHealthTick`. A goroutine reads `wasAlreadyElected := IsLeader()`,
calls `process.AttemptElection()`, stores the answer in `isElectedNode`, and, when it was not
elected before and `IsLeaderOrActive()` holds after the store, spawns the just-became-leader
goroutines `RegisterNode` and `ExpireMaintenance`. The select loop spawns one such goroutine
per health tick and does not wait for the last. When two of them overlap, an older answer
can be stored over a newer one, and one promotion of the flag from 0 to 1 can be announced
twice. When they do not overlap, the flag follows the latest election, and each promotion is
announced exactly once.
-/

namespace Vitess.Logic
open Discovery

variable {K : Type}

def Obs.isPromotion : Obs K → Bool
  | .stored previous value => previous == 0 && value == 1
  | _ => false

def Obs.isLeaderSpawn : Obs K → Bool
  | .becameLeader => true
  | _ => false

def Obs.lastElection (last : Option Bool) : Obs K → Option Bool
  | .elected won => some won
  | _ => last

/-- The stores that moved `isElectedNode` from 0 to 1. -/
def promotions (s : Engine K) : Nat := s.history.countP Obs.isPromotion

/-- The steps that spawned `RegisterNode` and `ExpireMaintenance`. -/
def leaderSpawns (s : Engine K) : Nat := s.history.countP Obs.isLeaderSpawn

/-- The answer of the `AttemptElection` call that returned last. -/
def lastElection (s : Engine K) : Option Bool := s.history.foldl Obs.lastElection none

/-- What the election laws read of a state. -/
structure ElectionView where
  isElectedNode : Nat
  promotions : Nat
  leaderSpawns : Nat
  lastElection : Option Bool

def Engine.view (s : Engine K) : ElectionView :=
  ⟨s.isElectedNode, promotions s, leaderSpawns s, lastElection s⟩

@[simp] theorem view_isElectedNode (s : Engine K) : s.view.isElectedNode = s.isElectedNode := rfl

@[simp] theorem view_promotions (s : Engine K) : s.view.promotions = promotions s := rfl

@[simp] theorem view_leaderSpawns (s : Engine K) : s.view.leaderSpawns = leaderSpawns s := rfl

@[simp] theorem view_lastElection (s : Engine K) : s.view.lastElection = lastElection s := rfl

@[simp] theorem view_init (discoveryMaxConcurrency capacity : Nat) :
    (Engine.init discoveryMaxConcurrency capacity : Engine K).view = ⟨0, 0, 0, none⟩ := rfl

@[simp] theorem view_applyHealth (s : Engine K) (i : Nat) (w : HealthWrite K) :
    (s.applyHealth i w).view =
      ⟨w.isElectedNode, promotions s + w.observed.countP Obs.isPromotion,
        leaderSpawns s + w.observed.countP Obs.isLeaderSpawn,
        w.observed.foldl Obs.lastElection (lastElection s)⟩ := by
  simp [Engine.view, Engine.applyHealth, promotions, leaderSpawns, lastElection,
    List.countP_append, List.foldl_append]

-- The starts that workers, recovery goroutines and spawned goroutines record leave the view.
theorem view_starts {s s' : Engine K} {observed : List (Obs K)}
    (flag : s'.isElectedNode = s.isElectedNode) (history : s'.history = s.history ++ observed)
    (starts : observed = [] ∨ ∃ f checkedAt, observed = [s.start f checkedAt]) :
    s'.view = s.view := by
  rcases starts with rfl | ⟨f, checkedAt, rfl⟩ <;>
    simp [Engine.view, flag, history, promotions, leaderSpawns, lastElection, Engine.start,
      Obs.isPromotion, Obs.isLeaderSpawn, Obs.lastElection]

theorem view_applyHealth_starts {s : Engine K} {i : Nat} {w : HealthWrite K}
    (flag : w.isElectedNode = s.isElectedNode)
    (starts : w.observed = [] ∨ ∃ f checkedAt, w.observed = [s.start f checkedAt]) :
    (s.applyHealth i w).view = s.view :=
  view_starts flag rfl starts

def HealthPc.active : HealthPc K → Bool
  | .done => false
  | _ => true

@[simp] theorem HealthPc.active_eq_false {pc : HealthPc K} : pc.active = false ↔ pc = .done := by
  cases pc <;> simp [HealthPc.active]

-- With at most one goroutine running, the one that steps is it: every other one has returned.
theorem serial_set {l : List (HealthPc K)} {i : Nat} {pc pc' other : HealthPc K}
    (serial : l.countP HealthPc.active ≤ 1) (found : l[i]? = some pc)
    (running : pc.active = true) (member : other ∈ l.set i pc') : other = pc' ∨ other = .done := by
  obtain ⟨j, at_j⟩ := List.mem_iff_getElem?.mp member
  by_cases same : i = j
  · subst same
    rw [List.getElem?_set_self (List.getElem?_eq_some_iff.mp found).1] at at_j
    exact .inl (Option.some_injective _ at_j).symm
  · rw [List.getElem?_set_ne same] at at_j
    refine .inr (HealthPc.active_eq_false.mp (Bool.eq_false_iff.mpr fun otherRunning => ?_))
    have counted := countP_set_add HealthPc.active .done at_j
    have stillRunning : 0 < (l.set j .done).countP HealthPc.active :=
      List.countP_pos_iff.mpr ⟨pc, List.getElem?_mem (by rwa [List.getElem?_set_ne (Ne.symm same)]),
        running⟩
    have idle : (HealthPc.done : HealthPc K).active = false := rfl
    simp only [otherRunning, idle, if_true, Bool.false_eq_true, if_false] at counted
    omega

/-- The part of `onHealthTick` after the election block and the leader check: the snapshot
drain under `snapshotDiscoveryKeysMutex` and the pushes. -/
def HealthPc.discoveryPhase : HealthPc K → Bool
  | .locking _ _ | .draining _ _ _ | .pushing _ _ => true
  | _ => false

theorem recoveryStep_observed {s : Engine K} {g : GuardPc} {w : GuardPc × Nat × List (Obs K)}
    (stepped : recoveryStep s g = some w) :
    w.2.2 = [] ∨ ∃ f checkedAt, w.2.2 = [s.start f checkedAt] := by
  cases g with
  | start checkedAt => cases stepped; split <;> exact .inl rfl
  | entered checkedAt =>
    cases stepped
    split
    exacts [.inr ⟨_, _, rfl⟩, .inl rfl]
  | recovering => cases stepped; exact .inl rfl
  | done => cases stepped

variable [DecidableEq K]

theorem onHealthTick_active {isValid : K → Bool} {s : Engine K} {won : Bool}
    {outdated : List K} {pc : HealthPc K} {w : HealthWrite K}
    (stepped : onHealthTick isValid s won outdated pc = some w) : pc.active = true := by
  cases pc with
  | done => cases stepped
  | _ => rfl

theorem handleDiscoveryRequests_observed {s : Engine K} {worker : Worker K}
    {w : Worker K × Queue K × List (Obs K)} (stepped : handleDiscoveryRequests s worker = some w) :
    w.2.2 = [] ∨ ∃ f checkedAt, w.2.2 = [s.start f checkedAt] := by
  rcases worker with ⟨pc, calls⟩
  cases pc with
  | consuming => obtain ⟨_, _, rfl⟩ := Option.map_eq_some'.mp stepped; exact .inl rfl
  | calling key checkedAt => cases stepped; exact .inr ⟨_, _, rfl⟩
  | _ => cases stepped; exact .inl rfl

/-- What a step does to the health goroutines and the view: the health ticker adds a
goroutine, a health step moves one, and every other step leaves both. -/
theorem step_election {isValid : K → Bool} {s s' : Engine K} {e : Event K}
    (stepped : s.step isValid e = some s') :
    (e = .tick .healthTick ∧ s'.healthTicks = s.healthTicks ++ [.start] ∧ s'.view = s.view) ∨
      (∃ i won outdated pc w, s.healthTicks[i]? = some pc ∧
        onHealthTick isValid s won outdated pc = some w ∧ s' = s.applyHealth i w) ∨
      (s'.healthTicks = s.healthTicks ∧ s'.view = s.view) := by
  cases e with
  | tick timer =>
    cases stepped
    cases timer
    exacts [.inl ⟨rfl, rfl, rfl⟩, .inr (.inr ⟨rfl, rfl⟩), .inr (.inr ⟨rfl, rfl⟩),
      .inr (.inr ⟨rfl, rfl⟩), .inr (.inr ⟨rfl, rfl⟩), .inr (.inr ⟨rfl, rfl⟩)]
  | health i won outdated =>
    obtain ⟨pc, w, found, healthStepped, rfl⟩ := step_health stepped
    exact .inr (.inl ⟨i, won, outdated, pc, w, found, healthStepped, rfl⟩)
  | worker i =>
    obtain ⟨_, w, _, workerStepped, rfl⟩ := step_worker stepped
    exact .inr (.inr ⟨rfl, view_starts rfl rfl (handleDiscoveryRequests_observed workerStepped)⟩)
  | tickTask i => obtain ⟨_, _, _, _, rfl⟩ := step_tickTask stepped; exact .inr (.inr ⟨rfl, rfl⟩)
  | guard i =>
    obtain ⟨_, w, _, guardStepped, rfl⟩ := step_guard stepped
    exact .inr (.inr ⟨rfl, view_starts rfl rfl (recoveryStep_observed guardStepped)⟩)
  | spawned i =>
    obtain ⟨f, checkedAt, _, rfl⟩ := step_spawned stepped
    exact .inr (.inr ⟨rfl, view_starts rfl rfl (.inr ⟨f, checkedAt, rfl⟩)⟩)
  | request key => rw [step_request stepped]; exact .inr (.inr ⟨rfl, rfl⟩)
  | ripen => cases stepped; exact .inr (.inr ⟨rfl, rfl⟩)

/-- What one `onHealthTick` step does to the view, by where the goroutine stands: the
election records its answer, the store writes the flag, the goroutine that was not elected
before announces its promotion, and nothing else touches the view. -/
theorem onHealthTick_view {isValid : K → Bool} {s : Engine K} {i : Nat} {won : Bool}
    {outdated : List K} {pc : HealthPc K} {w : HealthWrite K}
    (stepped : onHealthTick isValid s won outdated pc = some w) :
    (pc = .start ∧ w.pc = .electing (isLeader s) ∧ (s.applyHealth i w).view = s.view) ∨
      (∃ was, pc = .electing was ∧ w.pc = .storing was won ∧
        (s.applyHealth i w).view = { s.view with lastElection := some won }) ∨
      (∃ was mine, pc = .storing was mine ∧ w.pc = .checking was ∧
        (s.applyHealth i w).view = { s.view with
          isElectedNode := if mine then 1 else 0
          promotions := promotions s + if s.isElectedNode = 0 ∧ mine = true then 1 else 0 }) ∨
      (∃ was, pc = .checking was ∧
        w.pc = (if isLeaderOrActive s then .reading was (demotions s) else .done) ∧
        (s.applyHealth i w).view = s.view) ∨
      (∃ was checkedAt, pc = .reading was checkedAt ∧ w.pc = .locking outdated checkedAt ∧
        (s.applyHealth i w).view = { s.view with
          leaderSpawns := leaderSpawns s + if was then 0 else 1 }) ∨
      (pc.discoveryPhase = true ∧ (w.pc.discoveryPhase = true ∨ w.pc = .done) ∧
        (s.applyHealth i w).view = s.view) := by
  cases pc with
  | start => cases stepped; exact .inl ⟨rfl, rfl, view_applyHealth_starts rfl (.inl rfl)⟩
  | electing was =>
    cases stepped
    exact .inr <| .inl ⟨was, rfl, rfl, by simp [Engine.keep, Obs.isPromotion, Obs.isLeaderSpawn,
      Obs.lastElection]⟩
  | storing was mine =>
    cases stepped
    refine .inr <| .inr <| .inl ⟨was, mine, rfl, rfl, ?_⟩
    cases mine <;> simp [Engine.keep, List.countP_singleton, Obs.isPromotion, Obs.isLeaderSpawn,
      Obs.lastElection]
  | checking was =>
    cases stepped
    exact .inr <| .inr <| .inr <| .inl ⟨was, rfl, rfl, view_applyHealth_starts rfl (.inl rfl)⟩
  | reading was checkedAt =>
    refine .inr <| .inr <| .inr <| .inr <| .inl ⟨was, checkedAt, rfl, ?_⟩
    cases was
    · cases stepped
      exact ⟨rfl, by simp [Engine.keep, Obs.isPromotion, Obs.isLeaderSpawn, Obs.lastElection]⟩
    · cases stepped
      exact ⟨rfl, view_applyHealth_starts rfl (.inl rfl)⟩
  | locking keys checkedAt =>
    simp only [onHealthTick] at stepped
    split_ifs at stepped
    cases stepped
    exact .inr <| .inr <| .inr <| .inr <| .inr ⟨rfl, .inl rfl, view_applyHealth_starts rfl (.inl rfl)⟩
  | draining keys remaining checkedAt =>
    refine .inr <| .inr <| .inr <| .inr <| .inr ⟨rfl, ?_⟩
    cases remaining with
    | zero => cases stepped; exact ⟨.inl rfl, view_applyHealth_starts rfl (.inl rfl)⟩
    | succ remaining =>
      simp only [onHealthTick] at stepped
      split at stepped
      · cases stepped
      · cases stepped; exact ⟨.inl rfl, view_applyHealth_starts rfl (.inl rfl)⟩
  | pushing keys checkedAt =>
    refine .inr <| .inr <| .inr <| .inr <| .inr ⟨rfl, ?_⟩
    cases keys with
    | nil => cases stepped; exact ⟨.inr rfl, view_applyHealth_starts rfl (.inl rfl)⟩
    | cons key keys =>
      simp only [onHealthTick] at stepped
      split_ifs at stepped
      · obtain ⟨_, _, rfl⟩ := Option.map_eq_some'.mp stepped
        exact ⟨.inl rfl, view_applyHealth_starts rfl (.inr ⟨_, _, rfl⟩)⟩
      · cases stepped; exact ⟨.inl rfl, view_applyHealth_starts rfl (.inl rfl)⟩
  | done => cases stepped

-- `AttemptElection`'s answer is stored as 1 or 0, so the flag is always one of the two.
theorem onHealthTick_isElectedNode {isValid : K → Bool} {s : Engine K} {won : Bool}
    {outdated : List K} {pc : HealthPc K} {w : HealthWrite K} (binary : s.isElectedNode ≤ 1)
    (stepped : onHealthTick isValid s won outdated pc = some w) : w.isElectedNode ≤ 1 := by
  have flag : (s.applyHealth 0 w).view.isElectedNode = w.isElectedNode := rfl
  rcases onHealthTick_view stepped (i := 0) with ⟨_, _, view⟩ | ⟨_, _, _, view⟩ |
      ⟨_, mine, _, _, view⟩ | ⟨_, _, _, view⟩ | ⟨_, _, _, _, view⟩ | ⟨_, _, view⟩ <;>
    rw [← flag, view] <;> try exact binary
  cases mine <;> simp

theorem isElectedNode_binary {isValid : K → Bool} {discoveryMaxConcurrency capacity : Nat}
    {s : Engine K} (reached : Reachable isValid discoveryMaxConcurrency capacity s) :
    s.isElectedNode ≤ 1 := by
  induction reached with
  | init => exact Nat.zero_le 1
  | step _ stepped binary =>
    rcases step_election stepped with ⟨_, _, same⟩ | ⟨_, _, _, _, _, _, healthStepped, rfl⟩ |
        ⟨_, same⟩
    · exact (congrArg ElectionView.isElectedNode same).trans_le binary
    · exact onHealthTick_isElectedNode binary healthStepped
    · exact (congrArg ElectionView.isElectedNode same).trans_le binary

/-! ## Health ticks that do not overlap -/

section Serial
variable (isValid : K → Bool) (discoveryMaxConcurrency capacity : Nat)

/-- The runs in which the health ticker fires only once every `onHealthTick` goroutine it
spawned before has returned. -/
inductive SerialReachable : Engine K → Prop where
  | init : SerialReachable (.init discoveryMaxConcurrency capacity)
  | step {s s' : Engine K} {e : Event K} : SerialReachable s → s.step isValid e = some s' →
      (e = .tick .healthTick → ∀ pc ∈ s.healthTicks, pc = .done) → SerialReachable s'

variable {isValid discoveryMaxConcurrency capacity}

theorem SerialReachable.reachable {s : Engine K}
    (reached : SerialReachable isValid discoveryMaxConcurrency capacity s) :
    Reachable isValid discoveryMaxConcurrency capacity s := by
  induction reached with
  | init => exact .init
  | step _ stepped _ reached => exact .step reached stepped

/-- `Engine.run` over the serial runs: a health tick while an `onHealthTick` goroutine is
still running ends the run. -/
def Engine.serialRun (isValid : K → Bool) (s : Engine K) : List (Event K) → Option (Engine K)
  | [] => some s
  | e :: rest =>
    if e = .tick .healthTick → ∀ pc ∈ s.healthTicks, pc = .done then
      (s.step isValid e).bind fun next => next.serialRun isValid rest
    else none

theorem SerialReachable.serialRun {s t : Engine K} {events : List (Event K)}
    (reached : SerialReachable isValid discoveryMaxConcurrency capacity s)
    (ran : s.serialRun isValid events = some t) :
    SerialReachable isValid discoveryMaxConcurrency capacity t := by
  induction events generalizing s with
  | nil => cases ran; exact reached
  | cons e rest ih =>
    simp only [Engine.serialRun] at ran
    split at ran
    · obtain ⟨next, stepped, ran⟩ := Option.bind_eq_some.mp ran
      exact ih (.step reached stepped ‹_›) ran
    · cases ran

variable (isValid discoveryMaxConcurrency capacity) in
-- A concrete serial schedule shows a property of some serially reachable state.
theorem exists_serialReachable_of_run {P : Engine K → Prop} [DecidablePred P]
    (events : List (Event K))
    (holds : ((Engine.init discoveryMaxConcurrency capacity).serialRun isValid events).any
      (fun s => decide (P s)) = true) :
    ∃ s, SerialReachable isValid discoveryMaxConcurrency capacity s ∧ P s :=
  let ⟨s, ran, holds⟩ := exists_of_any holds
  ⟨s, SerialReachable.init.serialRun ran, holds⟩

theorem serial_reachable {s : Engine K}
    (reached : SerialReachable isValid discoveryMaxConcurrency capacity s) :
    s.healthTicks.countP HealthPc.active ≤ 1 := by
  induction reached with
  | init => simp [Engine.init]
  | @step s _ _ _ stepped restricted serial =>
    rcases step_election stepped with ⟨rfl, ticks, _⟩ | ⟨i, _, _, pc, w, found, healthStepped, rfl⟩ |
        ⟨ticks, _⟩
    · have idle : s.healthTicks.countP HealthPc.active = 0 :=
        List.countP_eq_zero.mpr fun pc member => by simp [restricted rfl pc member]
      simp [ticks, idle, HealthPc.active]
    · have counted := countP_set_add HealthPc.active w.pc found
      rw [if_pos (onHealthTick_active healthStepped)] at counted
      simp only [Engine.applyHealth]
      split at counted <;> omega
    · exact ticks ▸ serial

/-! A law that each `onHealthTick` goroutine keeps from where it stands. With none running,
a goroutine that started now would find it kept. -/

variable (Account : ElectionView → HealthPc K → Prop)

def TickInv (s : Engine K) : Prop :=
  ((∀ pc ∈ s.healthTicks, pc = .done) → Account s.view .start) ∧
    ∀ pc ∈ s.healthTicks, Account s.view pc

variable (isValid) in
/-- Each step of a goroutine keeps the law, and one that returns leaves it as a new
goroutine would find it. -/
def Advances : Prop :=
  ∀ {s : Engine K} {i : Nat} {won : Bool} {outdated : List K} {pc : HealthPc K}
    {w : HealthWrite K}, s.isElectedNode ≤ 1 → Account s.view pc →
    onHealthTick isValid s won outdated pc = some w →
    Account (s.applyHealth i w).view w.pc ∧ (w.pc = .done → Account (s.applyHealth i w).view .start)

variable {Account}

theorem tickInv_step (finished : ∀ v, Account v .done)
    (advance : Advances isValid Account)
    {s s' : Engine K} {e : Event K} (binary : s.isElectedNode ≤ 1)
    (serial : s.healthTicks.countP HealthPc.active ≤ 1) (inv : TickInv Account s)
    (stepped : s.step isValid e = some s')
    (restricted : e = .tick .healthTick → ∀ pc ∈ s.healthTicks, pc = .done) :
    TickInv Account s' := by
  obtain ⟨idle, accounts⟩ := inv
  rcases step_election stepped with ⟨rfl, ticks, view⟩ | ⟨i, _, _, pc, w, found, healthStepped, rfl⟩ |
      ⟨ticks, view⟩
  · refine ⟨fun all => absurd (all .start (by simp [ticks])) (by simp), fun pc member => ?_⟩
    rw [view]
    rcases List.mem_append.mp (ticks ▸ member) with old | new
    · exact accounts pc old
    · exact List.mem_singleton.mp new ▸ idle (restricted rfl)
  · obtain ⟨own, returned⟩ := advance binary (accounts pc (List.getElem?_mem found)) healthStepped
    have inside : w.pc ∈ (s.applyHealth i w).healthTicks :=
      List.mem_set _ _ (List.getElem?_eq_some_iff.mp found).1 _
    refine ⟨fun all => returned (all _ inside), fun other member => ?_⟩
    rcases serial_set serial found (onHealthTick_active healthStepped) member with rfl | rfl
    exacts [own, finished _]
  · unfold TickInv
    rw [view, ticks]
    exact ⟨idle, accounts⟩

theorem tickInv_reachable (initial : Account ⟨0, 0, 0, none⟩ .start)
    (finished : ∀ v, Account v .done)
    (advance : Advances isValid Account)
    {s : Engine K} (reached : SerialReachable isValid discoveryMaxConcurrency capacity s) :
    TickInv Account s := by
  induction reached with
  | init => exact ⟨fun _ => initial, by simp [Engine.init]⟩
  | step reached stepped restricted inv =>
    exact tickInv_step finished advance (isElectedNode_binary reached.reachable)
      (serial_reachable reached) inv stepped restricted

end Serial

/-! ## The flag and the latest election -/

/-- Between its election and its store a goroutine holds the latest answer; everywhere else
the flag agrees with it. -/
def ElectionAccount (v : ElectionView) : HealthPc K → Prop
  | .storing _ mine => v.lastElection = some mine
  | .done => True
  | .start | .electing _ | .checking _ | .reading _ _ | .locking _ _ | .draining _ _ _
  | .pushing _ _ => (v.isElectedNode = 1 ↔ v.lastElection = some true)

omit [DecidableEq K] in
theorem electionAccount_discoveryPhase {v : ElectionView} {pc : HealthPc K}
    (late : pc.discoveryPhase = true) :
    ElectionAccount v pc ↔ (v.isElectedNode = 1 ↔ v.lastElection = some true) := by
  cases pc <;> simp_all [HealthPc.discoveryPhase, ElectionAccount]

theorem electionAccount_advance {isValid : K → Bool} {s : Engine K} {i : Nat} {won : Bool}
    {outdated : List K} {pc : HealthPc K} {w : HealthWrite K}
    (account : ElectionAccount s.view pc) (stepped : onHealthTick isValid s won outdated pc = some w) :
    ElectionAccount (s.applyHealth i w).view w.pc ∧
      (w.pc = .done → ElectionAccount (s.applyHealth i w).view (.start : HealthPc K)) := by
  rcases onHealthTick_view stepped (i := i) with ⟨rfl, next, view⟩ | ⟨was, rfl, next, view⟩ |
      ⟨was, mine, rfl, next, view⟩ | ⟨was, rfl, next, view⟩ | ⟨was, checkedAt, rfl, next, view⟩ |
      ⟨late, next, view⟩ <;> rw [view]
  · rw [next]; exact ⟨account, nofun⟩
  · rw [next]; exact ⟨rfl, nofun⟩
  · -- the store writes the answer the goroutine holds, which is the latest
    have last : lastElection s = some mine := account
    rw [next]
    exact ⟨by cases mine <;> simp [ElectionAccount, last], nofun⟩
  · rw [next]
    split
    exacts [⟨account, nofun⟩, ⟨trivial, fun _ => account⟩]
  · rw [next]; exact ⟨account, nofun⟩
  · have agree := (electionAccount_discoveryPhase late).mp account
    refine ⟨?_, fun _ => agree⟩
    rcases next with late | finished
    · exact (electionAccount_discoveryPhase late).mpr agree
    · rw [finished]; trivial

theorem serial_elected_flag_follows_last_election {isValid : K → Bool}
    {discoveryMaxConcurrency capacity : Nat} {s : Engine K}
    (reached : SerialReachable isValid discoveryMaxConcurrency capacity s) :
    (∀ was mine, HealthPc.storing was mine ∈ s.healthTicks → lastElection s = some mine) ∧
      ((∀ was mine, HealthPc.storing was mine ∉ s.healthTicks) →
        (s.isElectedNode = 1 ↔ lastElection s = some true)) := by
  obtain ⟨idle, accounts⟩ : TickInv ElectionAccount s := tickInv_reachable (by simp [ElectionAccount])
    (fun _ => trivial) (fun _ => electionAccount_advance) reached
  refine ⟨fun was mine member => accounts _ member, fun noStore => ?_⟩
  by_cases all : ∀ pc ∈ s.healthTicks, pc = .done
  · exact idle all
  · push_neg at all
    obtain ⟨pc, member, running⟩ := all
    have account := accounts pc member
    cases pc with
    | storing was mine => exact absurd member (noStore was mine)
    | done => exact absurd rfl running
    | _ => exact account

/-- Two health ticks that do not overlap: the first is elected, promotes the node and runs to
its end; the second loses its election and stores 0. -/
def serialEvents : List (Event Nat) :=
  [.tick .healthTick, .health 0 true [], .health 0 true [], .health 0 true [], .health 0 true [],
    .health 0 true [], .health 0 true [], .health 0 true [], .health 0 true [],
    .tick .healthTick, .health 1 false [], .health 1 false [], .health 1 false [],
    .health 1 false []]

-- The second tick holds its lost election and has not stored it: the flag still says leader.
theorem serial_elected_flag_follows_last_election_pending :
    ∃ s : Engine Nat, SerialReachable (fun _ => true) 1 4 s ∧
      HealthPc.storing true false ∈ s.healthTicks ∧ s.isElectedNode = 1 ∧
      (∀ was mine, HealthPc.storing was mine ∈ s.healthTicks → lastElection s = some mine) ∧
      ((∀ was mine, HealthPc.storing was mine ∉ s.healthTicks) →
        (s.isElectedNode = 1 ↔ lastElection s = some true)) :=
  let ⟨s, reached, storing, elected⟩ := exists_serialReachable_of_run (fun _ : Nat => true) 1 4
    (P := fun s : Engine Nat => HealthPc.storing true false ∈ s.healthTicks ∧ s.isElectedNode = 1)
    (serialEvents.take 12) (by decide)
  ⟨s, reached, storing, elected, serial_elected_flag_follows_last_election reached⟩

-- Two overlapping ticks: the first is elected, the second is not and stores 0, and then the
-- first stores its older answer.
theorem elected_flag_outlives_lost_election :
    ¬ ∀ s : Engine Nat, Reachable (fun _ => true) 0 0 s → s.isElectedNode = 1 →
      lastElection s = some true := by
  intro follows
  obtain ⟨s, reached, elected, lost⟩ : ∃ s : Engine Nat, Reachable (fun _ => true) 0 0 s ∧
      s.isElectedNode = 1 ∧ lastElection s = some false := exists_reachable_of_run _ _ _
    [.tick .healthTick, .tick .healthTick, .health 0 true [], .health 0 true [],
      .health 1 true [], .health 1 false [], .health 1 false [], .health 1 false [],
      .health 0 true []] (by decide)
  exact absurd (follows s reached elected) (by rw [lost]; decide)

/-! ## Just-became-leader spawns and promotions -/

/-- The promotions a goroutine has made and not yet announced: one after it stored 1 over
0, until it spawns the just-became-leader goroutines. `wasAlreadyElected` is the flag as it
stands until the store. -/
def LeaderAccount (v : ElectionView) : HealthPc K → Prop
  | .start | .locking _ _ | .draining _ _ _ | .pushing _ _ => v.promotions = v.leaderSpawns
  | .electing was | .storing was _ => v.promotions = v.leaderSpawns ∧ was = (v.isElectedNode == 1)
  | .checking was => v.promotions = v.leaderSpawns + (!was && v.isElectedNode == 1).toNat
  | .reading was _ => v.promotions = v.leaderSpawns + (!was).toNat
  | .done => True

omit [DecidableEq K] in
theorem leaderAccount_discoveryPhase {v : ElectionView} {pc : HealthPc K}
    (late : pc.discoveryPhase = true) : LeaderAccount v pc ↔ v.promotions = v.leaderSpawns := by
  cases pc <;> simp_all [HealthPc.discoveryPhase, LeaderAccount]

theorem leaderAccount_advance {isValid : K → Bool} {s : Engine K} {i : Nat} {won : Bool}
    {outdated : List K} {pc : HealthPc K} {w : HealthWrite K} (binary : s.isElectedNode ≤ 1)
    (account : LeaderAccount s.view pc) (stepped : onHealthTick isValid s won outdated pc = some w) :
    LeaderAccount (s.applyHealth i w).view w.pc ∧
      (w.pc = .done → LeaderAccount (s.applyHealth i w).view (.start : HealthPc K)) := by
  rcases onHealthTick_view stepped (i := i) with ⟨rfl, next, view⟩ | ⟨was, rfl, next, view⟩ |
      ⟨was, mine, rfl, next, view⟩ | ⟨was, rfl, next, view⟩ | ⟨was, checkedAt, rfl, next, view⟩ |
      ⟨late, next, view⟩ <;> rw [view]
  · rw [next]; exact ⟨⟨account, rfl⟩, nofun⟩
  · rw [next]; exact ⟨account, nofun⟩
  · -- a store of 1 over 0 is a promotion, owed by a goroutine that was not elected before
    obtain ⟨settled, rfl⟩ := account
    rw [next]
    refine ⟨?_, nofun⟩
    have : s.isElectedNode = 0 ∨ s.isElectedNode = 1 := by omega
    rcases this with flag | flag <;> cases mine <;>
      simp_all [LeaderAccount]
  · rw [next]
    split <;> rename_i leader <;> simp only [isLeaderOrActive] at leader
    · exact ⟨by simpa [LeaderAccount, leader] using account, nofun⟩
    · exact ⟨trivial, fun _ => by simpa [LeaderAccount, leader] using account⟩
  · -- a goroutine that was not elected before announces its promotion
    rw [next]
    exact ⟨by cases was <;> simpa [LeaderAccount] using account, nofun⟩
  · have settled := (leaderAccount_discoveryPhase late).mp account
    refine ⟨?_, fun _ => settled⟩
    rcases next with late | finished
    · exact (leaderAccount_discoveryPhase late).mpr settled
    · rw [finished]; trivial

omit [DecidableEq K] in
theorem leaderAccount_bounds {v : ElectionView} {pc : HealthPc K} (account : LeaderAccount v pc)
    (running : pc ≠ .done) : v.leaderSpawns ≤ v.promotions ∧ v.promotions ≤ v.leaderSpawns + 1 := by
  cases pc with
  | done => exact absurd rfl running
  | electing was | storing was _ => have settled := account.1; omega
  | checking was =>
    have owed := Bool.toNat_le (!was && v.isElectedNode == 1)
    simp only [LeaderAccount] at account
    omega
  | reading was _ =>
    have owed := Bool.toNat_le (!was)
    simp only [LeaderAccount] at account
    omega
  | _ => simp only [LeaderAccount] at account; omega

theorem serial_leader_spawns_match_promotions {isValid : K → Bool}
    {discoveryMaxConcurrency capacity : Nat} {s : Engine K}
    (reached : SerialReachable isValid discoveryMaxConcurrency capacity s) :
    leaderSpawns s ≤ promotions s ∧ promotions s ≤ leaderSpawns s + 1 ∧
      ((∀ pc ∈ s.healthTicks, pc = .done) → leaderSpawns s = promotions s) := by
  obtain ⟨idle, accounts⟩ : TickInv LeaderAccount s := tickInv_reachable rfl (fun _ => trivial)
    leaderAccount_advance reached
  by_cases all : ∀ pc ∈ s.healthTicks, pc = .done
  · have settled : promotions s = leaderSpawns s := idle all
    exact ⟨settled.ge, by omega, fun _ => settled.symm⟩
  · push_neg at all
    obtain ⟨pc, member, running⟩ := all
    obtain ⟨low, high⟩ := leaderAccount_bounds (accounts pc member) running
    exact ⟨low, high, fun all => absurd (all pc member) running⟩

-- Both ticks have returned: one promotion, announced once.
theorem serial_leader_spawns_match_promotions_promoted :
    ∃ s : Engine Nat, SerialReachable (fun _ => true) 1 4 s ∧
      (∀ pc ∈ s.healthTicks, pc = .done) ∧ promotions s = 1 ∧
      leaderSpawns s ≤ promotions s ∧ promotions s ≤ leaderSpawns s + 1 ∧
      ((∀ pc ∈ s.healthTicks, pc = .done) → leaderSpawns s = promotions s) :=
  let ⟨s, reached, idle, promoted⟩ := exists_serialReachable_of_run (fun _ : Nat => true) 1 4
    (P := fun s : Engine Nat => (∀ pc ∈ s.healthTicks, pc = .done) ∧ promotions s = 1)
    serialEvents (by decide)
  ⟨s, reached, idle, promoted, serial_leader_spawns_match_promotions reached⟩

-- Two overlapping ticks both read `wasAlreadyElected = false` before either stores, both
-- are elected, and both spawn the just-became-leader goroutines for the one promotion.
theorem leader_spawned_twice_for_one_promotion :
    ¬ ∀ s : Engine Nat, Reachable (fun _ => true) 0 0 s → leaderSpawns s ≤ promotions s := by
  intro announced
  obtain ⟨s, reached, twice, once⟩ : ∃ s : Engine Nat, Reachable (fun _ => true) 0 0 s ∧
      leaderSpawns s = 2 ∧ promotions s = 1 := exists_reachable_of_run _ _ _
    [.tick .healthTick, .tick .healthTick, .health 0 true [], .health 1 true [],
      .health 0 true [], .health 0 true [], .health 1 true [], .health 1 true [],
      .health 0 true [], .health 0 true [], .health 1 true [], .health 1 true []] (by decide)
  have := announced s reached
  omega

end Vitess.Logic
