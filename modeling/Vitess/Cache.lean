import Mathlib.Data.List.Basic
import Vitess.Go

/-!
The expiring map of package cache (github.com/patrickmn/go-cache), as package logic uses it for
`recentDiscoveryOperationKeys` and `kvFoundCache`. The package is not part of this snapshot:
`New`, `Get`, `Set` and `Add` follow go-cache's code. An item's `Expiration` is a time on the
process clock in nanoseconds, or 0 for an item that never expires. The janitor deletes only
items `Get` no longer finds and is left out, as are the stored values, markers nothing reads.
-/

namespace Vitess

/-- The default expiration `New` fixed, and the `Expiration` of each key's item. -/
structure Cache (K : Type) where
  defaultExpiration : Int
  items : K → Option Nat

namespace Cache

variable {K : Type}

/-- `New`: a default expiration of 0 is made -1, that is, never. -/
def new (defaultExpiration : Int) : Cache K :=
  ⟨if defaultExpiration = 0 then -1 else defaultExpiration, fun _ => none⟩

/-- The `Expiration` that `set` gives an item at `now` for the duration `d`: `d`, or the
default for `DefaultExpiration` (0), after `now` when it is positive, and 0 otherwise. -/
def itemExpiration (defaultExpiration : Int) (now : Nat) (d : Int) : Nat :=
  let d := if d = 0 then defaultExpiration else d
  if 0 < d then now + d.toNat else 0

/-- `Get`: an item is found unless it has an expiration and the clock has passed it. -/
def found (c : Cache K) (now : Nat) (key : K) : Bool :=
  match c.items key with
  | some expiration => decide (expiration = 0 ∨ now ≤ expiration)
  | none => false

variable [DecidableEq K]

/-- `Set(key, x, d)`. -/
def set (c : Cache K) (now : Nat) (key : K) (d : Int) : Cache K :=
  { c with
    items := fun k => if k = key then some (itemExpiration c.defaultExpiration now d)
      else c.items k }

/-- `Add(key, x, d)`; `none` is its error "Item already exists". -/
def add (c : Cache K) (now : Nat) (key : K) (d : Int) : Option (Cache K) :=
  if c.found now key then none else some (c.set now key d)

/-- An item that expires at all expires after the time it was set. -/
theorem itemExpiration_cases (defaultExpiration : Int) (now : Nat) (d : Int) :
    itemExpiration defaultExpiration now d = 0 ∨ now < itemExpiration defaultExpiration now d := by
  simp only [itemExpiration]
  split_ifs <;> omega

theorem itemExpiration_of_pos {defaultExpiration d : Int} (now : Nat) (positive : 0 < d) :
    itemExpiration defaultExpiration now d = now + d.toNat := by
  have nonzero : d ≠ 0 := by omega
  simp only [itemExpiration, nonzero, if_false, positive, if_true]

omit [DecidableEq K] in
@[simp] theorem found_new (defaultExpiration : Int) (now : Nat) (key : K) :
    (new defaultExpiration : Cache K).found now key = false := rfl

@[simp] theorem set_defaultExpiration (c : Cache K) (now : Nat) (key : K) (d : Int) :
    (c.set now key d).defaultExpiration = c.defaultExpiration := rfl

@[simp] theorem set_items (c : Cache K) (now : Nat) (key : K) (d : Int) (k : K) :
    (c.set now key d).items k =
      if k = key then some (itemExpiration c.defaultExpiration now d) else c.items k := rfl

theorem found_set (c : Cache K) (now now' : Nat) (key k : K) (d : Int) :
    (c.set now key d).found now' k =
      if k = key then decide (itemExpiration c.defaultExpiration now d = 0 ∨
        now' ≤ itemExpiration c.defaultExpiration now d)
      else c.found now' k := by
  unfold found
  split_ifs <;> simp_all

@[simp] theorem found_set_self (c : Cache K) (now : Nat) (key : K) (d : Int) :
    (c.set now key d).found now key = true := by
  have := itemExpiration_cases c.defaultExpiration now d
  simp only [found_set, if_true, decide_eq_true_eq]
  omega

theorem found_set_of_ne {c : Cache K} {now now' : Nat} {key k : K} {d : Int} (other : k ≠ key) :
    (c.set now key d).found now' k = c.found now' k := by
  simp [found_set, other]

-- `Add` fails exactly on an item `Get` finds.
theorem add_eq_none {c : Cache K} {now : Nat} {key : K} {d : Int} :
    c.add now key d = none ↔ c.found now key = true := by
  unfold add
  cases c.found now key <;> simp

end Cache

end Vitess
