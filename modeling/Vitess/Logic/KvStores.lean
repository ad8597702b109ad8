import Mathlib.Data.List.Nodup
import Vitess.Cache
import Vitess.Runs

/-!
`SubmitPrimariesToKvStores` of package logic (go/vt/vttablet/endtoend/call_test.go) and its
`kvFoundCache`, over any history of earlier calls, of `PutKVPair` calls by other writers and of
the clock; the KV store changes only through `PutKVPair`. What the backend answers is an
argument of the call: the pairs `GetPrimariesKVPairs` returns, and whether each `GetValue` and
each `PutKVPair` call fails. `kv.DistributePairs` writes to other stores and only logs its
error; it is left out.
-/

namespace Vitess.Logic

structure KVPair (K V : Type) where
  key : K
  value : V
  deriving DecidableEq, Repr

/-- The default expiration of `kvFoundCache = cache.New(10*time.Minute, time.Minute)`. -/
def kvFoundCacheDefaultExpiration : Nat := 10 * Time.minute

structure KvStores (K V : Type) where
  now : Nat
  store : K → Option V
  kvFoundCache : Cache K

/-- What a call returns: the pairs `GetPrimariesKVPairs` gave, `submittedCount`, whether an
error is returned, and, as ghost state, the pairs it passed to `PutKVPair`. -/
structure Submitted (K V : Type) where
  kvPairs : List (KVPair K V)
  submittedCount : Nat
  failed : Bool
  submitKvPairs : List (KVPair K V)
  deriving DecidableEq, Repr

variable {K V : Type}

def newKvFoundCache : Cache K := .new kvFoundCacheDefaultExpiration

/-- The store before the process starts, and an empty `kvFoundCache`. -/
def KvStores.init (store : K → Option V) : KvStores K V := ⟨0, store, newKvFoundCache⟩

/-- A call's backend answers are by position: `getFails i` is whether the `GetValue` call for
the `i`-th pair fails, `putFails j` whether the `PutKVPair` call for the `j`-th submitted pair
does. -/
inductive KvEvent (K V : Type) where
  | elapse (duration : Nat)
  | putKVPair (kvPair : KVPair K V) (fails : Bool)
  | submit (primaries : Except Unit (List (KVPair K V))) (force : Bool)
      (getFails putFails : Nat → Bool)

variable [DecidableEq K] [DecidableEq V]

/-- `kv.GetValue(kvPair.Key)` for the pair at `index`: an error when that call fails, else what
the store holds. -/
def getValue (store : K → Option V) (getFails : Nat → Bool) (index : Nat) (key : K) :
    Except Unit (Option V) :=
  if getFails index then .error () else .ok (store key)

/-- `err == nil && found && v == kvPair.Value`, on what `GetValue` returned. -/
def KVPair.upToDate (kvPair : KVPair K V) : Except Unit (Option V) → Bool
  | .ok (some v) => v == kvPair.value
  | _ => false

/-- The selection loop from the pair at `index`: `kvFoundCache` after it and `submitKvPairs`. -/
def selectKvPairs (force : Bool) (now : Nat) (getValue : Nat → K → Except Unit (Option V)) :
    Nat → Cache K → List (KVPair K V) → Cache K × List (KVPair K V)
  | _, cache, [] => (cache, [])
  | index, cache, kvPair :: rest =>
    if !force && cache.found now kvPair.key then
      selectKvPairs force now getValue (index + 1) cache rest
    else if !force && kvPair.upToDate (getValue index kvPair.key) then
      -- `cache.DefaultExpiration`
      selectKvPairs force now getValue (index + 1) (cache.set now kvPair.key 0) rest
    else
      let selected := selectKvPairs force now getValue (index + 1) cache rest
      (selected.1, kvPair :: selected.2)

omit [DecidableEq K] in
-- With a read that succeeds, a pair is up to date exactly when the store holds its value.
theorem upToDate_getValue {store : K → Option V} {getFails : Nat → Bool} {index : Nat}
    {kvPair : KVPair K V} (readable : getFails index = false) :
    kvPair.upToDate (getValue store getFails index kvPair.key) = true ↔
      store kvPair.key = some kvPair.value := by
  unfold getValue
  rw [readable, if_neg Bool.false_ne_true]
  cases store kvPair.key <;> simp [KVPair.upToDate]

omit [DecidableEq K] in
theorem stored_of_upToDate {store : K → Option V} {getFails : Nat → Bool} {index : Nat}
    {kvPair : KVPair K V} (current : kvPair.upToDate (getValue store getFails index kvPair.key) = true) :
    store kvPair.key = some kvPair.value := by
  cases readable : getFails index
  · exact (upToDate_getValue readable).mp current
  · simp [KVPair.upToDate, getValue, readable] at current

def KVPair.put (store : K → Option V) (kvPair : KVPair K V) : K → Option V :=
  fun key => if key = kvPair.key then some kvPair.value else store key

/-- The put loop from the submitted pair at `index`: the store after it, `submittedCount`, and
whether a put failed. A failed put leaves the store as it was. -/
def putKvPairs (putFails : Nat → Bool) :
    Nat → (K → Option V) → List (KVPair K V) → (K → Option V) × Nat × Bool
  | _, store, [] => (store, 0, false)
  | index, store, kvPair :: rest =>
    if putFails index then
      let put := putKvPairs putFails (index + 1) store rest
      (put.1, put.2.1, true)
    else
      let put := putKvPairs putFails (index + 1) (kvPair.put store) rest
      (put.1, put.2.1 + 1, put.2.2)

/-- `SubmitPrimariesToKvStores(clusterName, force)`: `primaries` is what
`inst.GetPrimariesKVPairs(clusterName)` returns. -/
def submitPrimariesToKvStores (s : KvStores K V) (primaries : Except Unit (List (KVPair K V)))
    (force : Bool) (getFails putFails : Nat → Bool) : KvStores K V × Submitted K V :=
  match primaries with
  | .error _ => (s, ⟨[], 0, true, []⟩)
  | .ok kvPairs =>
    let selected := selectKvPairs force s.now (getValue s.store getFails) 0 s.kvFoundCache kvPairs
    let put := putKvPairs putFails 0 s.store selected.2
    ({ s with store := put.1, kvFoundCache := selected.1 }, ⟨kvPairs, put.2.1, put.2.2, selected.2⟩)

def KvStores.step (s : KvStores K V) : KvEvent K V → Option (KvStores K V)
  | .elapse duration => some { s with now := s.now + duration }
  | .putKVPair kvPair fails => some (if fails then s else { s with store := kvPair.put s.store })
  | .submit primaries force getFails putFails =>
    some (submitPrimariesToKvStores s primaries force getFails putFails).1

section Select
variable {now : Nat} {getValue : Nat → K → Except Unit (Option V)}

-- Every pair a call that is not forced submits is one of its pairs whose own read did not
-- find it up to date.
theorem selectKvPairs_submitted {index : Nat} {cache : Cache K} {kvPairs : List (KVPair K V)} :
    ∀ kvPair ∈ (selectKvPairs false now getValue index cache kvPairs).2, ∃ i,
      kvPairs[i]? = some kvPair ∧ kvPair.upToDate (getValue (index + i) kvPair.key) = false := by
  induction kvPairs generalizing index cache with
  | nil => nofun
  | cons first rest ih =>
    intro kvPair member
    simp only [selectKvPairs, Bool.not_false, Bool.true_and] at member
    -- A pair of the rest sits one place further on.
    have later : ∀ {cache'}, kvPair ∈ (selectKvPairs false now getValue (index + 1) cache' rest).2 →
        ∃ i, (first :: rest)[i]? = some kvPair ∧
          kvPair.upToDate (getValue (index + i) kvPair.key) = false := fun member => by
      obtain ⟨i, found, stale⟩ := ih kvPair member
      exact ⟨i + 1, by simpa using found, by rwa [Nat.add_right_comm, Nat.add_assoc] at stale⟩
    split_ifs at member with cached current
    · exact later member
    · exact later member
    · rcases List.mem_cons.mp member with rfl | member
      · exact ⟨0, by simp, by simpa using current⟩
      · exact later member

/-- The loop from `cache` submits what it submits from `empty`, less the pairs whose key `base`
holds, as long as `cache` finds exactly what `base` or `empty` finds. -/
theorem selectKvPairs_filter {base : Cache K} {index : Nat} {kvPairs : List (KVPair K V)}
    {cache empty : Cache K}
    (agree : ∀ key, cache.found now key = (base.found now key || empty.found now key)) :
    (selectKvPairs false now getValue index cache kvPairs).2 =
      (selectKvPairs false now getValue index empty kvPairs).2.filter
        (fun kvPair => !base.found now kvPair.key) := by
  induction kvPairs generalizing index cache empty with
  | nil => rfl
  | cons kvPair rest ih =>
    have atKey := agree kvPair.key
    simp only [selectKvPairs, Bool.not_false, Bool.true_and]
    by_cases skipped : cache.found now kvPair.key
    · by_cases skippedEmpty : empty.found now kvPair.key
      · simp only [skipped, skippedEmpty, if_true]
        exact ih agree
      · have old : base.found now kvPair.key = true := by simpa [skipped, skippedEmpty] using atKey
        simp only [skipped, skippedEmpty, if_true, Bool.false_eq_true, if_false]
        split_ifs with current
        · refine ih fun key => ?_
          by_cases same : key = kvPair.key
          · subst same; simp [skipped, old]
          · rw [Cache.found_set_of_ne same, agree key]
        · simp only [List.filter_cons, old, Bool.not_true, Bool.false_eq_true, if_false]
          exact ih agree
    · have fresh : base.found now kvPair.key = false ∧ empty.found now kvPair.key = false := by
        simpa [skipped] using atKey.symm
      simp only [skipped, fresh.2, Bool.false_eq_true, if_false]
      split_ifs with current
      · refine ih fun key => ?_
        by_cases same : key = kvPair.key
        · subst same; simp [fresh.1]
        · rw [Cache.found_set_of_ne same, Cache.found_set_of_ne same, agree key]
      · simp only [List.filter_cons, fresh.1, Bool.not_false, if_true]
        exact congrArg _ (ih agree)

-- A pair a call that is not forced submits had no unexpired entry when the loop began.
theorem selectKvPairs_submitted_fresh {index : Nat} {cache : Cache K} {kvPairs : List (KVPair K V)} :
    ∀ kvPair ∈ (selectKvPairs false now getValue index cache kvPairs).2,
      cache.found now kvPair.key = false := by
  induction kvPairs generalizing index cache with
  | nil => nofun
  | cons first rest ih =>
    intro kvPair member
    simp only [selectKvPairs, Bool.not_false, Bool.true_and] at member
    split_ifs at member with cached current
    · exact ih kvPair member
    · have later := ih kvPair member
      by_cases same : kvPair.key = first.key
      · simp [same] at later
      · rwa [Cache.found_set_of_ne same] at later
    · rcases List.mem_cons.mp member with rfl | later
      · simpa using cached
      · exact ih kvPair later

-- With distinct keys, every pair is submitted, skipped on an unexpired entry, or found up to
-- date by its own read.
theorem selectKvPairs_covers {index : Nat} {cache : Cache K} {kvPairs : List (KVPair K V)}
    (distinct : (kvPairs.map KVPair.key).Nodup) :
    ∀ i kvPair, kvPairs[i]? = some kvPair →
      kvPair ∈ (selectKvPairs false now getValue index cache kvPairs).2 ∨
        cache.found now kvPair.key = true ∨
        kvPair.upToDate (getValue (index + i) kvPair.key) = true := by
  induction kvPairs generalizing index cache with
  | nil => nofun
  | cons first rest ih =>
    rw [List.map_cons, List.nodup_cons] at distinct
    intro i kvPair found
    simp only [selectKvPairs, Bool.not_false, Bool.true_and]
    cases i with
    | zero =>
      obtain rfl : first = kvPair := by simpa using found
      split_ifs with cached current
      · exact .inr (.inl cached)
      · exact .inr (.inr current)
      · exact .inl (List.mem_cons_self _ _)
    | succ i =>
      have found : rest[i]? = some kvPair := by simpa using found
      have other : kvPair.key ≠ first.key := fun same =>
        distinct.1 (same ▸ List.mem_map_of_mem KVPair.key (List.getElem?_mem found))
      have shifted : index + 1 + i = index + (i + 1) := by omega
      split_ifs with cached current
      · simpa only [shifted] using @ih (index + 1) cache distinct.2 i kvPair found
      · exact (shifted ▸ @ih (index + 1) _ distinct.2 i kvPair found).imp_right
          (Or.imp_left fun cached => by rwa [Cache.found_set_of_ne other] at cached)
      · exact (shifted ▸ @ih (index + 1) cache distinct.2 i kvPair found).imp_left
          (List.mem_cons_of_mem _)

end Select

-- The loop only adds entries that are unexpired at its own clock.
theorem selectKvPairs_found_mono {force : Bool} {now : Nat}
    {getValue : Nat → K → Except Unit (Option V)} {index : Nat} {cache : Cache K}
    {kvPairs : List (KVPair K V)} {key : K} (cached : cache.found now key = true) :
    (selectKvPairs force now getValue index cache kvPairs).1.found now key = true := by
  induction kvPairs generalizing index cache with
  | nil => exact cached
  | cons first rest ih =>
    simp only [selectKvPairs]
    split_ifs
    · exact ih cached
    · refine ih ?_
      by_cases same : key = first.key
      · subst same; exact Cache.found_set_self _ _ _ _
      · rwa [Cache.found_set_of_ne same]
    · exact ih cached

theorem selectKvPairs_sublist {force : Bool} {now : Nat}
    {getValue : Nat → K → Except Unit (Option V)} {index : Nat} {cache : Cache K}
    {kvPairs : List (KVPair K V)} :
    (selectKvPairs force now getValue index cache kvPairs).2.Sublist kvPairs := by
  induction kvPairs generalizing index cache with
  | nil => exact .slnil
  | cons first rest ih =>
    simp only [selectKvPairs]
    split_ifs
    · exact ih.cons _
    · exact ih.cons _
    · exact ih.cons₂ _

-- A forced call checks nothing: it submits every pair and sets no entry.
theorem selectKvPairs_force {now : Nat} {getValue : Nat → K → Except Unit (Option V)}
    (index : Nat) (cache : Cache K) (kvPairs : List (KVPair K V)) :
    selectKvPairs true now getValue index cache kvPairs = (cache, kvPairs) := by
  induction kvPairs generalizing index with
  | nil => rfl
  | cons first rest ih => simp [selectKvPairs, ih]

section Puts
variable {putFails : Nat → Bool}
omit [DecidableEq V]

/-- The pairs from the one at `index` whose `PutKVPair` call succeeds. -/
def acceptedPairs (putFails : Nat → Bool) : Nat → List (KVPair K V) → List (KVPair K V)
  | _, [] => []
  | index, kvPair :: rest =>
    if putFails index then acceptedPairs putFails (index + 1) rest
    else kvPair :: acceptedPairs putFails (index + 1) rest

/-- The value that the last of `kvPairs` with key `key` writes, if one has that key. -/
def lastValue (key : K) : List (KVPair K V) → Option V
  | [] => none
  | kvPair :: rest => (lastValue key rest).or (if kvPair.key = key then some kvPair.value else none)

-- Every key ends with the value of the last pair put there whose put succeeded, else keeps its value.
theorem putKvPairs_store (index : Nat) (store : K → Option V) (kvPairs : List (KVPair K V))
    (key : K) :
    (putKvPairs putFails index store kvPairs).1 key =
      (lastValue key (acceptedPairs putFails index kvPairs)).or (store key) := by
  induction kvPairs generalizing index store with
  | nil => rfl
  | cons first rest ih =>
    simp only [putKvPairs, acceptedPairs]
    split_ifs with refused
    · exact ih _ _
    · rw [ih, lastValue, Option.or_assoc]
      by_cases same : first.key = key
      · simp [KVPair.put, same]
      · simp [KVPair.put, same, Ne.symm same]

-- A failing call among those from `index + 1` is one from `index` other than the first.
theorem exists_fails_succ {index length : Nat} :
    (∃ j < length, putFails (index + 1 + j) = true) ↔
      ∃ j < length + 1, j ≠ 0 ∧ putFails (index + j) = true := by
  constructor
  · rintro ⟨j, inside, fails⟩
    exact ⟨j + 1, by omega, by omega, by rwa [Nat.add_right_comm, Nat.add_assoc] at fails⟩
  · rintro ⟨j, inside, nonzero, fails⟩
    obtain ⟨j, rfl⟩ := Nat.exists_eq_succ_of_ne_zero nonzero
    exact ⟨j, by omega, by rwa [Nat.add_right_comm, Nat.add_assoc]⟩

-- `submittedCount` counts the puts that succeed; an error is returned when one fails.
theorem putKvPairs_results (index : Nat) (store : K → Option V) (kvPairs : List (KVPair K V)) :
    (putKvPairs putFails index store kvPairs).2 = ((acceptedPairs putFails index kvPairs).length,
      decide (∃ j < kvPairs.length, putFails (index + j) = true)) := by
  induction kvPairs generalizing index store with
  | nil => simp [putKvPairs, acceptedPairs]
  | cons first rest ih =>
    simp only [putKvPairs, acceptedPairs, List.length_cons]
    split_ifs with refused
    · simp only [ih, Prod.mk.injEq, true_and]
      exact (decide_eq_true ⟨0, by omega, by simpa using refused⟩).symm
    · simp only [ih, List.length_cons, Prod.mk.injEq, true_and, exists_fails_succ]
      refine decide_eq_decide.mpr ⟨fun ⟨j, inside, _, fails⟩ => ⟨j, inside, fails⟩,
        fun ⟨j, inside, fails⟩ => ⟨j, inside, fun zero => ?_, fails⟩⟩
      subst zero
      simp_all

omit [DecidableEq K] in
theorem acceptedPairs_of_succeed {index : Nat} {kvPairs : List (KVPair K V)}
    (succeed : ∀ j < kvPairs.length, putFails (index + j) = false) :
    acceptedPairs putFails index kvPairs = kvPairs := by
  induction kvPairs generalizing index with
  | nil => rfl
  | cons first rest ih =>
    have firstSucceeds : putFails index = false := succeed 0 (by simp)
    simp only [acceptedPairs, firstSucceeds, Bool.false_eq_true, if_false]
    refine congrArg _ (ih fun j inside => ?_)
    have later := succeed (j + 1) (by simpa using inside)
    rwa [← Nat.add_assoc, Nat.add_right_comm] at later

theorem lastValue_eq_none {key : K} {kvPairs : List (KVPair K V)}
    (absent : ∀ kvPair ∈ kvPairs, kvPair.key ≠ key) : lastValue key kvPairs = none := by
  induction kvPairs with
  | nil => rfl
  | cons first rest ih =>
    simp [lastValue, ih fun kvPair member => absent kvPair (List.mem_cons_of_mem _ member),
      absent first (List.mem_cons_self _ _)]

theorem lastValue_of_nodup {kvPairs : List (KVPair K V)} (distinct : (kvPairs.map KVPair.key).Nodup)
    {kvPair : KVPair K V} (member : kvPair ∈ kvPairs) : lastValue kvPair.key kvPairs = some kvPair.value := by
  induction kvPairs with
  | nil => cases member
  | cons first rest ih =>
    rw [List.map_cons, List.nodup_cons] at distinct
    rcases List.mem_cons.mp member with rfl | later
    · have absent : ∀ other ∈ rest, other.key ≠ kvPair.key := fun other listed same =>
        distinct.1 (same ▸ List.mem_map_of_mem KVPair.key listed)
      simp [lastValue, lastValue_eq_none absent]
    · simp [lastValue, ih distinct.2 later]

end Puts

/-- `kvFoundCache` keeps its ten-minute default, and every entry expires within ten minutes of
the clock. -/
structure FoundWithinTtl (s : KvStores K V) : Prop where
  default : s.kvFoundCache.defaultExpiration = kvFoundCacheDefaultExpiration
  within : ∀ key expiration, s.kvFoundCache.items key = some expiration →
    0 < expiration ∧ expiration ≤ s.now + kvFoundCacheDefaultExpiration

-- `Set` with `cache.DefaultExpiration` on `kvFoundCache` keeps an entry ten minutes.
theorem itemExpiration_kvFoundCache (now : Nat) :
    Cache.itemExpiration kvFoundCacheDefaultExpiration now 0 =
      now + kvFoundCacheDefaultExpiration := by
  simp [Cache.itemExpiration, kvFoundCacheDefaultExpiration, Time.minute, Time.second]

theorem selectKvPairs_within {force : Bool} {now : Nat}
    {getValue : Nat → K → Except Unit (Option V)} {index : Nat} {cache : Cache K}
    {kvPairs : List (KVPair K V)} (default : cache.defaultExpiration = kvFoundCacheDefaultExpiration)
    (within : ∀ key expiration, cache.items key = some expiration →
      0 < expiration ∧ expiration ≤ now + kvFoundCacheDefaultExpiration) :
    (selectKvPairs force now getValue index cache kvPairs).1.defaultExpiration =
        kvFoundCacheDefaultExpiration ∧
      ∀ key expiration, (selectKvPairs force now getValue index cache kvPairs).1.items key =
        some expiration → 0 < expiration ∧ expiration ≤ now + kvFoundCacheDefaultExpiration := by
  induction kvPairs generalizing index cache with
  | nil => exact ⟨default, within⟩
  | cons kvPair rest ih =>
    simp only [selectKvPairs]
    split_ifs
    · exact ih default within
    · refine ih (by simpa using default) fun key expiration item => ?_
      rw [Cache.set_items] at item
      split_ifs at item
      · cases item
        rw [default, itemExpiration_kvFoundCache]
        exact ⟨by simp [kvFoundCacheDefaultExpiration, Time.minute, Time.second], Nat.le_refl _⟩
      · exact within key expiration item
    · exact ih default within

theorem foundWithinTtl_step {s s' : KvStores K V} {e : KvEvent K V} (found : FoundWithinTtl s)
    (stepped : s.step e = some s') : FoundWithinTtl s' := by
  cases e with
  | elapse duration =>
    cases stepped
    refine ⟨found.default, fun key expiration item => ?_⟩
    have := found.within key expiration item
    simp only at this ⊢
    omega
  | putKVPair kvPair fails => cases stepped; split <;> exact ⟨found.default, found.within⟩
  | submit primaries force getFails putFails =>
    cases stepped
    cases primaries with
    | error => exact found
    | ok kvPairs =>
      exact ⟨(selectKvPairs_within found.default found.within).1,
        (selectKvPairs_within found.default found.within).2⟩

theorem foundWithinTtl_reachable {store : K → Option V} {s : KvStores K V}
    (reached : Reaches KvStores.step (KvStores.init store) s) : FoundWithinTtl s :=
  have initial : FoundWithinTtl (KvStores.init store) :=
    ⟨by simp [KvStores.init, newKvFoundCache, Cache.new, kvFoundCacheDefaultExpiration,
      Time.minute, Time.second], fun _ _ item => by cases item⟩
  reached.inv initial foundWithinTtl_step

-- A call that is not forced puts, in order, what the same call puts from an empty
-- `kvFoundCache`, less the pairs whose key has an unexpired entry, which expires within ten
-- minutes; the two agree when the read of every pair whose key has such an entry finds it up
-- to date.
theorem kv_submit_skips_found_keys {store : K → Option V} {s : KvStores K V}
    (reached : Reaches KvStores.step (KvStores.init store) s) :
    ∀ primaries getFails putFails,
      (submitPrimariesToKvStores s primaries false getFails putFails).2.submitKvPairs =
          ((submitPrimariesToKvStores { s with kvFoundCache := newKvFoundCache } primaries false
            getFails putFails).2.submitKvPairs.filter
              fun kvPair => !s.kvFoundCache.found s.now kvPair.key) ∧
        (∀ key, s.kvFoundCache.found s.now key = true → ∃ expiration,
          s.kvFoundCache.items key = some expiration ∧ 0 < expiration ∧
            expiration ≤ s.now + kvFoundCacheDefaultExpiration) ∧
        ((∀ kvPairs, primaries = .ok kvPairs → ∀ i (kvPair : KVPair _ _), kvPairs[i]? = some kvPair →
            s.kvFoundCache.found s.now kvPair.key = true →
              kvPair.upToDate (getValue s.store getFails i kvPair.key) = true) →
          (submitPrimariesToKvStores s primaries false getFails putFails).2.submitKvPairs =
            (submitPrimariesToKvStores { s with kvFoundCache := newKvFoundCache } primaries false
              getFails putFails).2.submitKvPairs) := by
  have found := foundWithinTtl_reachable reached
  intro primaries getFails putFails
  have expires : ∀ key, s.kvFoundCache.found s.now key = true → ∃ expiration,
      s.kvFoundCache.items key = some expiration ∧ 0 < expiration ∧
        expiration ≤ s.now + kvFoundCacheDefaultExpiration := by
    intro key cached
    cases item : s.kvFoundCache.items key with
    | none => simp [Cache.found, item] at cached
    | some expiration => exact ⟨expiration, rfl, found.within key expiration item⟩
  cases primaries with
  | error => exact ⟨rfl, expires, fun _ => rfl⟩
  | ok kvPairs =>
    have dropped :
        (selectKvPairs false s.now (getValue s.store getFails) 0 s.kvFoundCache kvPairs).2 =
          (selectKvPairs false s.now (getValue s.store getFails) 0 newKvFoundCache kvPairs).2.filter
            fun kvPair => !s.kvFoundCache.found s.now kvPair.key :=
      selectKvPairs_filter (by simp [newKvFoundCache])
    refine ⟨dropped, expires, fun current => dropped.trans (List.filter_eq_self.mpr ?_)⟩
    intro kvPair member
    obtain ⟨i, listed, stale⟩ := selectKvPairs_submitted kvPair member
    cases cached : s.kvFoundCache.found s.now kvPair.key
    · rfl
    · rw [Nat.zero_add, current kvPairs rfl i kvPair listed cached] at stale
      cases stale

-- Key 0 holds 0 and a call found its pair (0, 0) up to date: from there, the entry for key 0
-- drops the pairs with that key that a call from an empty cache puts.
theorem kv_submit_skips_found_keys_after_found :
    let store : Nat → Option Nat := fun key => if key = 0 then some 0 else none
    let s := (submitPrimariesToKvStores (KvStores.init store) (.ok [⟨0, 0⟩]) false
      (fun _ => false) (fun _ => false)).1
    Reaches KvStores.step (KvStores.init store) s ∧ s.kvFoundCache.found s.now 0 = true ∧
    ∀ primaries getFails putFails,
      (submitPrimariesToKvStores s primaries false getFails putFails).2.submitKvPairs =
          ((submitPrimariesToKvStores { s with kvFoundCache := newKvFoundCache } primaries false
            getFails putFails).2.submitKvPairs.filter
              fun kvPair => !s.kvFoundCache.found s.now kvPair.key) ∧
        (∀ key, s.kvFoundCache.found s.now key = true → ∃ expiration,
          s.kvFoundCache.items key = some expiration ∧ 0 < expiration ∧
            expiration ≤ s.now + kvFoundCacheDefaultExpiration) ∧
        ((∀ kvPairs, primaries = .ok kvPairs → ∀ i (kvPair : KVPair _ _), kvPairs[i]? = some kvPair →
            s.kvFoundCache.found s.now kvPair.key = true →
              kvPair.upToDate (getValue s.store getFails i kvPair.key) = true) →
          (submitPrimariesToKvStores s primaries false getFails putFails).2.submitKvPairs =
            (submitPrimariesToKvStores { s with kvFoundCache := newKvFoundCache } primaries false
              getFails putFails).2.submitKvPairs) :=
  have reached : Reaches KvStores.step (KvStores.init fun key => if key = 0 then some 0 else none)
      (submitPrimariesToKvStores (.init fun key => if key = 0 then some 0 else none)
        (.ok [⟨0, 0⟩]) false (fun _ => false) (fun _ => false)).1 :=
    .step .init (e := .submit (.ok [⟨0, 0⟩]) false (fun _ => false) (fun _ => false)) rfl
  ⟨reached, rfl, kv_submit_skips_found_keys reached⟩

-- Key 0 holds 0 and a call finds its pair (0, 0) up to date. The primary then changes: the next
-- call's pair is (0, 1), which it skips, where from an empty cache it would put it.
theorem stale_found_entry_skips_new_primary :
    ¬ ∀ (store : Nat → Option Nat) (s : KvStores Nat Nat),
      Reaches KvStores.step (KvStores.init store) s → ∀ primaries getFails putFails,
        (submitPrimariesToKvStores s primaries false getFails putFails).2.submitKvPairs =
          (submitPrimariesToKvStores { s with kvFoundCache := newKvFoundCache } primaries false
            getFails putFails).2.submitKvPairs := by
  intro transparent
  have reached : Reaches KvStores.step (KvStores.init fun key => if key = 0 then some 0 else none)
      (submitPrimariesToKvStores (.init fun key => if key = 0 then some 0 else none)
        (.ok [⟨0, 0⟩]) false (fun _ => false) (fun _ => false)).1 :=
    .step .init (e := .submit (.ok [⟨0, 0⟩]) false (fun _ => false) (fun _ => false)) rfl
  exact absurd (transparent _ _ reached (.ok [⟨0, 1⟩]) (fun _ => false) (fun _ => false))
    (by decide)

/-! ## What a call reports and what it stores -/

-- `submittedCount` counts the submitted pairs whose put succeeded, and an error is returned
-- exactly when `GetPrimariesKVPairs` or a put failed. Each key ends with the value of the last
-- such pair with that key, else keeps what it held. A forced call submits every pair, in
-- order, and leaves `kvFoundCache` as it was.
theorem kv_submit_reports_puts (s : KvStores K V) (primaries : Except Unit (List (KVPair K V)))
    (force : Bool) (getFails putFails : Nat → Bool) :
    let result := submitPrimariesToKvStores s primaries force getFails putFails
    let accepted := acceptedPairs putFails 0 result.2.submitKvPairs
    result.2.submittedCount = accepted.length ∧
      (result.2.failed = true ↔
        primaries.isOk = false ∨ ∃ j < result.2.submitKvPairs.length, putFails j = true) ∧
      (∀ key, result.1.store key = (lastValue key accepted).or (s.store key)) ∧
      (force = true →
        result.2.submitKvPairs = result.2.kvPairs ∧ result.1.kvFoundCache = s.kvFoundCache) := by
  intro result accepted
  cases primaries with
  | error => exact ⟨rfl, by simp [result, submitPrimariesToKvStores, Except.isOk, Except.toBool],
      fun _ => rfl, fun _ => ⟨rfl, rfl⟩⟩
  | ok kvPairs =>
    refine ⟨congrArg Prod.fst (putKvPairs_results _ _ _), ?_, putKvPairs_store _ _ _,
      fun forced => ?_⟩
    · simp [result, submitPrimariesToKvStores, putKvPairs_results, Except.isOk, Except.toBool]
    · subst forced
      simp [result, submitPrimariesToKvStores, selectKvPairs_force]

/-! ## A repeated call -/

-- After a call that is not forced and whose puts all succeed, each pair of distinct keys that
-- had no unexpired entry holds its value: the call put it, or found it up to date.
theorem submit_stores_unskipped {s : KvStores K V} {kvPairs : List (KVPair K V)}
    (distinct : (kvPairs.map KVPair.key).Nodup) {getFails putFails : Nat → Bool}
    (accepted : ∀ j < kvPairs.length, putFails j = false) {kvPair : KVPair K V}
    (listed : kvPair ∈ kvPairs) (fresh : s.kvFoundCache.found s.now kvPair.key = false) :
    (submitPrimariesToKvStores s (.ok kvPairs) false getFails putFails).1.store kvPair.key =
      some kvPair.value := by
  simp only [submitPrimariesToKvStores]
  rw [putKvPairs_store]
  set selected := (selectKvPairs false s.now (getValue s.store getFails) 0 s.kvFoundCache kvPairs).2
  have within : selected.Sublist kvPairs := selectKvPairs_sublist
  rw [acceptedPairs_of_succeed fun j inside =>
    accepted _ (by simpa using Nat.lt_of_lt_of_le inside within.length_le)]
  by_cases submitted : kvPair ∈ selected
  · rw [lastValue_of_nodup (distinct.sublist (within.map _)) submitted]
    rfl
  · obtain ⟨i, found⟩ := List.getElem?_of_mem listed
    have current : kvPair.upToDate (getValue s.store getFails (0 + i) kvPair.key) = true := by
      rcases selectKvPairs_covers distinct i kvPair found with put | cached | current
      · exact absurd put submitted
      · rw [fresh] at cached; cases cached
      · exact current
    have absent : ∀ other ∈ selected, other.key ≠ kvPair.key := fun other put same =>
      submitted (List.inj_on_of_nodup_map distinct (within.subset put) listed same ▸ put)
    rw [lastValue_eq_none absent]
    exact stored_of_upToDate current

-- Two calls that are not forced, with the same pairs of distinct keys, `elapsed` apart: when the
-- first call's puts all succeed and the second's reads all succeed, the second submits only
-- pairs the first skipped on an unexpired entry that has since expired; with no time between
-- the two, it submits nothing.
theorem kv_resubmits_only_expired {s : KvStores K V} {kvPairs : List (KVPair K V)}
    (distinct : (kvPairs.map KVPair.key).Nodup) {getFails₁ putFails₁ getFails₂ putFails₂ : Nat → Bool}
    (accepted : ∀ j < kvPairs.length, putFails₁ j = false)
    (readable : ∀ i < kvPairs.length, getFails₂ i = false) (elapsed : Nat) :
    let first := (submitPrimariesToKvStores s (.ok kvPairs) false getFails₁ putFails₁).1
    let second := submitPrimariesToKvStores { first with now := first.now + elapsed }
      (.ok kvPairs) false getFails₂ putFails₂
    (∀ kvPair ∈ second.2.submitKvPairs, kvPair ∈ kvPairs ∧
        s.kvFoundCache.found s.now kvPair.key = true ∧
        first.kvFoundCache.found (s.now + elapsed) kvPair.key = false) ∧
      (elapsed = 0 → second.2.submitKvPairs = []) := by
  intro first second
  have resubmitted : ∀ kvPair ∈ second.2.submitKvPairs, kvPair ∈ kvPairs ∧
      s.kvFoundCache.found s.now kvPair.key = true ∧
      first.kvFoundCache.found (s.now + elapsed) kvPair.key = false := by
    intro kvPair member
    obtain ⟨i, listed, stale⟩ := selectKvPairs_submitted kvPair member
    refine ⟨List.getElem?_mem listed, ?_, selectKvPairs_submitted_fresh kvPair member⟩
    cases cached : s.kvFoundCache.found s.now kvPair.key
    · have stored : first.store kvPair.key = some kvPair.value :=
        submit_stores_unskipped distinct accepted (List.getElem?_mem listed) cached
      have inside : i < kvPairs.length := (List.getElem?_eq_some_iff.mp listed).1
      rw [Nat.zero_add, (upToDate_getValue (readable i inside)).mpr stored] at stale
      cases stale
    · rfl
  refine ⟨resubmitted, fun zero => List.eq_nil_iff_forall_not_mem.mpr fun kvPair member => ?_⟩
  obtain ⟨-, cached, expired⟩ := resubmitted kvPair member
  have kept : first.kvFoundCache.found s.now kvPair.key = true := selectKvPairs_found_mono cached
  rw [zero, Nat.add_zero, kept] at expired
  cases expired

-- Key 0 holds 0 and a call found (0, 0) up to date. The next call, with the pair (0, 1), skips
-- it on the entry; a call eleven minutes later, after the entry expired, puts it.
theorem kv_resubmits_only_expired_after_expiry :
    let store : Nat → Option Nat := fun key => if key = 0 then some 0 else none
    let s := (submitPrimariesToKvStores (KvStores.init store) (.ok [⟨0, 0⟩]) false
      (fun _ => false) (fun _ => false)).1
    let kvPairs : List (KVPair Nat Nat) := [⟨0, 1⟩]
    let first := (submitPrimariesToKvStores s (.ok kvPairs) false (fun _ => false)
      (fun _ => false)).1
    let second := submitPrimariesToKvStores { first with now := first.now + 11 * Time.minute }
      (.ok kvPairs) false (fun _ => false) (fun _ => false)
    (kvPairs.map KVPair.key).Nodup ∧ (∀ j < kvPairs.length, (fun _ => false) j = false) ∧
      second.2.submitKvPairs = kvPairs ∧
      (∀ kvPair ∈ second.2.submitKvPairs, kvPair ∈ kvPairs ∧
          s.kvFoundCache.found s.now kvPair.key = true ∧
          first.kvFoundCache.found (s.now + 11 * Time.minute) kvPair.key = false) ∧
        (11 * Time.minute = 0 → second.2.submitKvPairs = []) :=
  have distinct : (([⟨0, 1⟩] : List (KVPair Nat Nat)).map KVPair.key).Nodup := by decide
  have succeed : ∀ j < ([⟨0, 1⟩] : List (KVPair Nat Nat)).length, (fun _ => false) j = false :=
    fun _ _ => rfl
  ⟨distinct, succeed, rfl, kv_resubmits_only_expired distinct succeed succeed (11 * Time.minute)⟩

end Vitess.Logic
