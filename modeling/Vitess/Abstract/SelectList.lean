import Vitess.Abstract.QueryProjection

/-!
The select-list loop of `CreateQPFromSelect`. Each item it accepts becomes one entry of
`SelectExprs`: an aggregate call with one argument and no DISTINCT is an `Aggr` entry and sets
`HasAggr`, any other aliased expression is a plain entry when it contains no aggregation and
sets `hasNonAggr`. The loop touches nothing else of the projection.
-/

namespace Vitess.Abstract
open Sqlparser

variable {toLower : String → String}

theorem bind_eq_ok {ε α β : Type} {x : Except ε α} {f : α → Except ε β} {b : β} :
    x.bind f = .ok b ↔ ∃ a, x = .ok a ∧ f a = .ok b := by
  cases x <;> simp [Except.bind]

theorem map_eq_ok {ε α β : Type} {x : Except ε α} {f : α → β} {b : β} :
    x.map f = .ok b ↔ ∃ a, x = .ok a ∧ f a = b := by
  cases x <;> simp [Except.map]

theorem bind_eq_error {ε α β : Type} {x : Except ε α} {f : α → Except ε β} {e : ε} :
    x.bind f = .error e ↔ x = .error e ∨ ∃ a, x = .ok a ∧ f a = .error e := by
  cases x <;> simp [Except.bind]

theorem map_eq_error {ε α β : Type} {x : Except ε α} {f : α → β} {e : ε} :
    x.map f = .error e ↔ x = .error e := by
  cases x <;> simp [Except.map]

variable (toLower) in
/-- The entry the loop makes of an item it accepts: the item's own aliased expression,
flagged `Aggr` exactly when it is an aggregate call. -/
def SelectEntry (item : Sqlparser.SelectExpr) (entry : SelectExpr) : Prop :=
  item = .aliased entry.col ∧ entry.aggr = isAggregateFunc toLower entry.col.expr ∧
    (entry.aggr = true →
      ∃ qualifier name exprs, entry.col.expr = .funcExpr qualifier name false exprs ∧
        exprs.length = 1) ∧
    (entry.aggr = false → containsAggregation toLower entry.col.expr = false)

theorem addNonAggr_ok {qp : QueryProjection} {exp : AliasedExpr}
    {result : QueryProjection × Bool} (added : addNonAggr toLower qp exp = .ok result) :
    containsAggregation toLower exp.expr = false ∧
      result = ({ qp with selectExprs := qp.selectExprs ++ [⟨exp, false⟩] }, true) := by
  unfold addNonAggr at added
  split at added
  · cases added
  · rename_i clean
    cases added
    exact ⟨by simpa using clean, rfl⟩

theorem addSelectExpr_ok {qp qp' : QueryProjection} {hasNonAggr hasNonAggr' : Bool}
    {item : Sqlparser.SelectExpr} (added : addSelectExpr toLower qp hasNonAggr item = .ok (qp', hasNonAggr')) :
    ∃ entry, SelectEntry toLower item entry ∧
      qp' = { qp with
        hasAggr := qp.hasAggr || entry.aggr
        selectExprs := qp.selectExprs ++ [entry] } ∧
      hasNonAggr' = (hasNonAggr || !entry.aggr) := by
  have plain : ∀ exp : AliasedExpr, isAggregateFunc toLower exp.expr = false →
      addNonAggr toLower qp exp = .ok (qp', hasNonAggr') → ∃ entry, SelectEntry toLower (.aliased exp) entry ∧
        qp' = { qp with
          hasAggr := qp.hasAggr || entry.aggr
          selectExprs := qp.selectExprs ++ [entry] } ∧
        hasNonAggr' = (hasNonAggr || !entry.aggr) := by
    intro exp notAggregate added
    obtain ⟨clean, same⟩ := addNonAggr_ok added
    simp only [Prod.mk.injEq] at same
    obtain ⟨rfl, rfl⟩ := same
    exact ⟨⟨exp, false⟩, ⟨rfl, notAggregate.symm, nofun, fun _ => clean⟩, by simp, by simp⟩
  cases item with
  | aliased exp =>
    obtain ⟨expr, as⟩ := exp
    cases expr with
    | funcExpr qualifier name distinct exprs =>
      simp only [addSelectExpr] at added
      split_ifs at added with aggregate arity distinctCall
      · cases added
        refine ⟨⟨⟨.funcExpr qualifier name distinct exprs, as⟩, true⟩,
          ⟨rfl, by simp [isAggregateFunc, aggregate], fun _ => ?_, nofun⟩, by simp, by simp⟩
        exact ⟨qualifier, name, exprs, by simp [distinctCall], by simpa using arity⟩
      · exact plain _ (by simp [isAggregateFunc, aggregate]) added
    | _ => exact plain _ rfl added
  | _ => cases added

/-- The select-list loop: one entry per item, in order. -/
theorem addSelectExprs_ok {qp qp' : QueryProjection} {hasNonAggr hasNonAggr' : Bool}
    {items : List Sqlparser.SelectExpr}
    (added : addSelectExprs toLower qp hasNonAggr items = .ok (qp', hasNonAggr')) :
    ∃ entries, List.Forall₂ (SelectEntry toLower) items entries ∧
      qp' = { qp with
        hasAggr := qp.hasAggr || entries.any (·.aggr)
        selectExprs := qp.selectExprs ++ entries } ∧
      hasNonAggr' = (hasNonAggr || entries.any (!·.aggr)) := by
  induction items generalizing qp hasNonAggr with
  | nil => cases added; exact ⟨[], .nil, by simp, by simp⟩
  | cons item rest ih =>
    obtain ⟨⟨next, nextNonAggr⟩, first, later⟩ := bind_eq_ok.mp added
    obtain ⟨entry, made, rfl, rfl⟩ := addSelectExpr_ok first
    obtain ⟨entries, made', rfl, rfl⟩ := ih later
    exact ⟨entry :: entries, .cons made made', by simp [Bool.or_assoc], by simp [Bool.or_assoc]⟩

end Vitess.Abstract
