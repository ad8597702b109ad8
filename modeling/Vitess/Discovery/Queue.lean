import Mathlib.Data.List.Nodup

/-!
The discovery queue of package discovery, which package logic drives through `Push`,
`Consume` and `Release`. Its code is not part of this snapshot: the operations follow the
queue's documented contract. A key is queued at most once while it is queued or being
processed, `Consume` moves the oldest queued key to the consumed keys, `Release` forgets a
consumed key, and a `Push` of a new key into a full queue blocks.
-/

namespace Vitess.Discovery

/-- `discovery.Queue`: its capacity, its queued keys in order and
the keys consumed and not yet released. -/
structure Queue (K : Type) where
  capacity : Nat
  queued : List K
  consumed : List K
  deriving DecidableEq, Repr

variable {K : Type}

/-- Every key is at most once queued or consumed. -/
def Queue.Dedup (q : Queue K) : Prop := (q.queued ++ q.consumed).Nodup

/-- `Queue.Consume`; `none` while the queue is empty, where the call
blocks. -/
def Queue.consume (q : Queue K) : Option (K × Queue K) :=
  match q.queued with
  | [] => none
  | key :: rest => some (key, { q with queued := rest, consumed := key :: q.consumed })

theorem consume_dedup {q q' : Queue K} {key : K} (dedup : q.Dedup)
    (consumed : q.consume = some (key, q')) : q'.Dedup := by
  unfold Queue.consume at consumed
  split at consumed
  · cases consumed
  · rename_i rest queued
    cases consumed
    simp only [Queue.Dedup, queued, List.cons_append] at dedup ⊢
    exact List.nodup_middle.mpr dedup

theorem consume_consumed {q q' : Queue K} {key : K} (consumed : q.consume = some (key, q')) :
    q'.consumed = key :: q.consumed := by
  unfold Queue.consume at consumed
  split at consumed
  · cases consumed
  · cases consumed; rfl

-- `Consume` takes the oldest queued key.
theorem consume_queued {q q' : Queue K} {key : K} (consumed : q.consume = some (key, q')) :
    q.queued = key :: q'.queued := by
  unfold Queue.consume at consumed
  split at consumed
  · cases consumed
  · rename_i rest queued
    cases consumed
    exact queued

variable [DecidableEq K]

/-- `Queue.Push`; `none` is a push that blocks on a full queue. -/
def Queue.push (q : Queue K) (key : K) : Option (Queue K) :=
  if key ∈ q.queued ∨ key ∈ q.consumed then some q
  else if q.queued.length < q.capacity then some { q with queued := q.queued ++ [key] }
  else none

/-- `Queue.Release`. -/
def Queue.release (q : Queue K) (key : K) : Queue K :=
  { q with consumed := q.consumed.erase key }

theorem push_dedup {q q' : Queue K} {key : K} (dedup : q.Dedup) (pushed : q.push key = some q') :
    q'.Dedup := by
  unfold Queue.push at pushed
  split_ifs at pushed with present
  · cases pushed; exact dedup
  · cases pushed
    push_neg at present
    simp only [Queue.Dedup, List.append_assoc, List.singleton_append] at dedup ⊢
    exact List.nodup_middle.mpr (List.nodup_cons.mpr ⟨by simp [present.1, present.2], dedup⟩)

theorem push_consumed {q q' : Queue K} {key : K} (pushed : q.push key = some q') :
    q'.consumed = q.consumed := by
  unfold Queue.push at pushed
  split_ifs at pushed <;> cases pushed <;> rfl

-- A `Push` queues at most the pushed key, once.
theorem push_queued_count {q q' : Queue K} {key : K} (pushed : q.push key = some q') (k : K) :
    q'.queued.count k ≤ q.queued.count k + if key = k then 1 else 0 := by
  unfold Queue.push at pushed
  split_ifs at pushed <;> cases pushed
  all_goals simp [List.count_append, List.count_cons]

-- A `Push` blocks only on a new key and a full queue; after it, the key is in the queue.
theorem push_of_room {q : Queue K} {key : K}
    (room : key ∈ q.queued ∨ key ∈ q.consumed ∨ q.queued.length < q.capacity) :
    ∃ q', q.push key = some q' ∧ (key ∈ q'.queued ∨ key ∈ q'.consumed) := by
  unfold Queue.push
  split_ifs with present fits
  · exact ⟨q, rfl, present⟩
  · exact ⟨_, rfl, .inl (List.mem_append_right _ (List.mem_singleton_self _))⟩
  · push_neg at present
    exact absurd (room.resolve_left present.1 |>.resolve_left present.2) fits

theorem release_queued (q : Queue K) (key : K) : (q.release key).queued = q.queued := rfl

theorem release_dedup {q : Queue K} (key : K) (dedup : q.Dedup) : (q.release key).Dedup :=
  List.Nodup.sublist (List.Sublist.append_left (List.erase_sublist _ _) _) dedup

end Vitess.Discovery
