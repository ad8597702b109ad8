import Mathlib.Data.List.Forall2
import Vitess.Abstract.SelectList

/-!
The ORDER BY and GROUP BY loops of `CreateQPFromSelect` and the entries `addOrderBy` makes.
An accepted query's `OrderExprs` is one entry per ORDER BY item, in order, then one ascending
entry for each GROUP BY item whose expression is not the Inner expression of an entry already
in the list. Each entry comes from one of the three paths of `addOrderBy`: an ordinal sorts on
the item's alias, or on its expression when it has none, and weighs the item's expression; an
unqualified column that names an alias weighs the first aliased item's expression; anything
else weighs itself.
-/

namespace Vitess.Abstract
open Sqlparser

variable {toLower : String → String}

theorem exists_of_forall₂_mem {α β : Type} {R : α → β → Prop} {l₁ : List α} {l₂ : List β}
    (related : List.Forall₂ R l₁ l₂) {b : β} (member : b ∈ l₂) : ∃ a ∈ l₁, R a b := by
  induction related with
  | nil => cases member
  | cons head _ ih =>
    rcases List.mem_cons.mp member with rfl | later
    · exact ⟨_, List.mem_cons_self _ _, head⟩
    · obtain ⟨a, inside, rel⟩ := ih later
      exact ⟨a, List.mem_cons_of_mem _ inside, rel⟩

/-- The column offset `addOrderBy` reads from an integer literal. -/
def ordinal? : Expr → Option Int
  | .literal .intVal val => some (atoi val)
  | _ => none

variable (toLower) in
/-- The alias lookup of `addOrderBy` on its own: the expression of the first select item
aliased `expr` when `expr` is an unqualified column name equal to the alias, and `expr`
itself otherwise. -/
def aliasTarget (selectExprs : List SelectExpr) (expr : Expr) : Expr :=
  match expr with
  | .colName name qualifier =>
    match qualifier.isEmpty,
        selectExprs.find? (fun selectExpr => !selectExpr.col.as.isEmpty && name.equal toLower selectExpr.col.as) with
    | true, some selectExpr => selectExpr.col.expr
    | _, _ => expr
  | _ => expr

/-- The three paths of `addOrderBy`. -/
theorem orderByEntry_ok {selectExprs : List SelectExpr} {order : Order} {entry : OrderBy}
    (added : orderByEntry toLower selectExprs order = .ok entry) :
    (∃ n item, ordinal? order.expr = some n ∧ index? selectExprs (n - 1) = some item ∧
      entry = ⟨⟨if item.col.as.isEmpty then item.col.expr else .colName item.col.as ⟨"", ""⟩,
        order.direction⟩, item.col.expr⟩) ∨
    (ordinal? order.expr = none ∧ entry = ⟨order, aliasTarget toLower selectExprs order.expr⟩) := by
  obtain ⟨expr, direction⟩ := order
  cases expr with
  | literal type val =>
    cases type
    case intVal =>
      simp only [orderByEntry] at added
      split at added
      · cases added
      · rename_i item found
        cases added
        exact .inl ⟨_, item, rfl, found, rfl⟩
    all_goals cases added; exact .inr ⟨rfl, rfl⟩
  | colName name qualifier =>
    refine .inr ⟨rfl, ?_⟩
    simp only [orderByEntry, aliasTarget] at added ⊢
    revert added
    cases qualifier.isEmpty <;>
      cases selectExprs.find?
        (fun selectExpr => !selectExpr.col.as.isEmpty && name.equal toLower selectExpr.col.as) <;>
      intro added <;> cases added <;> rfl
  | _ => cases added; exact .inr ⟨rfl, rfl⟩

theorem orderByEntry_direction {selectExprs : List SelectExpr} {order : Order} {entry : OrderBy}
    (added : orderByEntry toLower selectExprs order = .ok entry) : entry.inner.direction = order.direction := by
  rcases orderByEntry_ok added with ⟨_, _, _, _, rfl⟩ | ⟨_, rfl⟩ <;> rfl

theorem addOrderBy_ok {qp qp' : QueryProjection} {order : Order}
    (added : qp.addOrderBy toLower order = .ok qp') :
    ∃ entry, orderByEntry toLower qp.selectExprs order = .ok entry ∧
      qp' = { qp with orderExprs := qp.orderExprs ++ [entry] } := by
  obtain ⟨entry, made, rfl⟩ := map_eq_ok.mp added
  exact ⟨entry, made, rfl⟩

/-- The ORDER BY loop: one entry per ORDER BY item, in order. -/
theorem addOrderBys_ok {qp qp' : QueryProjection} {orders : List Order}
    (added : qp.addOrderBys toLower orders = .ok qp') :
    ∃ entries, List.Forall₂ (fun order entry => orderByEntry toLower qp.selectExprs order = .ok entry)
      orders entries ∧ qp' = { qp with orderExprs := qp.orderExprs ++ entries } := by
  induction orders generalizing qp with
  | nil => cases added; exact ⟨[], .nil, by simp⟩
  | cons order rest ih =>
    obtain ⟨next, first, later⟩ := bind_eq_ok.mp added
    obtain ⟨entry, made, rfl⟩ := addOrderBy_ok first
    obtain ⟨entries, made', rfl⟩ := ih later
    exact ⟨entry :: entries, .cons made made', by simp⟩

/-- The entries the GROUP BY loop appends after `entries`: a grouping key that equals the
Inner expression of an entry already in the list adds nothing, and any other key adds the
entry `addOrderBy` makes for it as an ascending ordering. -/
inductive GroupingSuffix (toLower : String → String) (selectExprs : List SelectExpr) :
    List OrderBy → List Expr → List OrderBy → Prop where
  | nil (entries : List OrderBy) : GroupingSuffix toLower selectExprs entries [] []
  | ordered {entries : List OrderBy} {expr : Expr} {exprs : List Expr} {suffix : List OrderBy} :
      entries.any (fun entry => equalsExpr expr entry.inner.expr) = true →
      GroupingSuffix toLower selectExprs entries exprs suffix →
      GroupingSuffix toLower selectExprs entries (expr :: exprs) suffix
  | added {entries : List OrderBy} {expr : Expr} {exprs : List Expr} {entry : OrderBy}
      {suffix : List OrderBy} :
      entries.any (fun entry => equalsExpr expr entry.inner.expr) = false →
      orderByEntry toLower selectExprs ⟨expr, .ascOrder⟩ = .ok entry →
      GroupingSuffix toLower selectExprs (entries ++ [entry]) exprs suffix →
      GroupingSuffix toLower selectExprs entries (expr :: exprs) (entry :: suffix)

/-- The GROUP BY loop. -/
theorem addGroupByOrders_ok {qp qp' : QueryProjection} {exprs : List Expr}
    (added : qp.addGroupByOrders toLower exprs = .ok qp') :
    ∃ suffix, GroupingSuffix toLower qp.selectExprs qp.orderExprs exprs suffix ∧
      qp' = { qp with orderExprs := qp.orderExprs ++ suffix } := by
  induction exprs generalizing qp with
  | nil => cases added; exact ⟨[], .nil _, by simp⟩
  | cons expr rest ih =>
    unfold QueryProjection.addGroupByOrders at added
    split at added
    · rename_i ordered
      obtain ⟨suffix, grouped, rfl⟩ := ih added
      exact ⟨suffix, .ordered ordered grouped, rfl⟩
    · rename_i fresh
      obtain ⟨next, first, later⟩ := bind_eq_ok.mp added
      obtain ⟨entry, made, rfl⟩ := addOrderBy_ok first
      obtain ⟨suffix, grouped, rfl⟩ := ih later
      exact ⟨entry :: suffix, .added (by simpa using fresh) made grouped, by simp⟩

-- Every appended entry is ascending, and each comes from its own GROUP BY item, in order.
theorem GroupingSuffix.keys {selectExprs : List SelectExpr} {entries : List OrderBy}
    {exprs : List Expr} {suffix : List OrderBy}
    (grouped : GroupingSuffix toLower selectExprs entries exprs suffix) :
    ∃ keys, keys.Sublist exprs ∧
      List.Forall₂ (fun expr entry => orderByEntry toLower selectExprs ⟨expr, .ascOrder⟩ = .ok entry)
        keys suffix := by
  induction grouped with
  | nil => exact ⟨[], .slnil, .nil⟩
  | ordered _ _ ih =>
    obtain ⟨keys, sub, made⟩ := ih
    exact ⟨keys, sub.cons _, made⟩
  | added _ made _ ih =>
    obtain ⟨keys, sub, made'⟩ := ih
    exact ⟨_ :: keys, sub.cons₂ _, .cons made made'⟩

theorem GroupingSuffix.ascending {selectExprs : List SelectExpr} {entries : List OrderBy}
    {exprs : List Expr} {suffix : List OrderBy}
    (grouped : GroupingSuffix toLower selectExprs entries exprs suffix) :
    ∀ entry ∈ suffix, entry.inner.direction = .ascOrder := by
  induction grouped with
  | nil => simp
  | ordered _ _ ih => exact ih
  | added _ made _ ih =>
    intro entry member
    rcases List.mem_cons.mp member with rfl | later
    exacts [orderByEntry_direction made, ih entry later]

/-- An accepted query, step by step: the select-list loop, the mixing check, the ORDER BY
loop and the GROUP BY loop. -/
theorem createQPFromSelect_ok {sel : Select} {qp : QueryProjection}
    (accepted : createQPFromSelect toLower sel = .ok (.ok qp)) :
    ∃ entries suffix, List.Forall₂ (SelectEntry toLower) sel.selectExprs qp.selectExprs ∧
      qp.hasAggr = qp.selectExprs.any (·.aggr) ∧
      (qp.selectExprs.any (!·.aggr) && qp.hasAggr && sel.groupBy.isEmpty) = false ∧
      qp.groupByExprs = sel.groupBy ∧
      List.Forall₂ (fun order entry => orderByEntry toLower qp.selectExprs order = .ok entry)
        sel.orderBy entries ∧
      GroupingSuffix toLower qp.selectExprs entries sel.groupBy suffix ∧
      qp.orderExprs = entries ++ suffix := by
  unfold createQPFromSelect at accepted
  split at accepted
  · cases accepted
  · rename_i selected hasNonAggr listed
    obtain ⟨items, made, rfl, rfl⟩ := addSelectExprs_ok listed
    split_ifs at accepted with mixing
    · cases accepted
    obtain ⟨projected, ordered, ⟨⟩⟩ := map_eq_ok.mp accepted
    obtain ⟨sorted, bySort, grouped⟩ := bind_eq_ok.mp ordered
    obtain ⟨entries, made', rfl⟩ := addOrderBys_ok bySort
    obtain ⟨suffix, made'', rfl⟩ := addGroupByOrders_ok grouped
    refine ⟨entries, suffix, by simpa [emptyProjection] using made, by simp [emptyProjection], ?_,
      rfl, by simpa [emptyProjection] using made', by simpa [emptyProjection] using made'',
      by simp [emptyProjection]⟩
    simpa [emptyProjection] using mixing

theorem order_by_then_grouping_keys {sel : Select} {qp : QueryProjection}
    (accepted : createQPFromSelect toLower sel = .ok (.ok qp)) :
    ∃ entries suffix, qp.orderExprs = entries ++ suffix ∧
      List.Forall₂ (fun order entry => orderByEntry toLower qp.selectExprs order = .ok entry ∧
        entry.inner.direction = order.direction) sel.orderBy entries ∧
      (∀ entry ∈ suffix, entry.inner.direction = .ascOrder) ∧
      (∃ keys, keys.Sublist sel.groupBy ∧ List.Forall₂ (fun expr entry =>
        orderByEntry toLower qp.selectExprs ⟨expr, .ascOrder⟩ = .ok entry) keys suffix) ∧
      GroupingSuffix toLower qp.selectExprs entries sel.groupBy suffix := by
  obtain ⟨entries, suffix, -, -, -, -, sorted, grouped, split⟩ := createQPFromSelect_ok accepted
  exact ⟨entries, suffix, split, sorted.imp fun _ _ made => ⟨made, orderByEntry_direction made⟩,
    grouped.ascending, grouped.keys, grouped⟩

-- `select a, b from t group by b, a order by a desc`: `b` is appended, `a` is already sorted.
theorem order_by_then_grouping_keys_example :
    let sel : Select := ⟨[.aliased ⟨.colName ⟨"a"⟩ ⟨"", ""⟩, ⟨""⟩⟩,
      .aliased ⟨.colName ⟨"b"⟩ ⟨"", ""⟩, ⟨""⟩⟩], [.colName ⟨"b"⟩ ⟨"", ""⟩, .colName ⟨"a"⟩ ⟨"", ""⟩],
      [⟨.colName ⟨"a"⟩ ⟨"", ""⟩, .descOrder⟩]⟩
    ∃ qp, createQPFromSelect asciiToLower sel = .ok (.ok qp) ∧
      ∃ entries suffix, qp.orderExprs = entries ++ suffix ∧
        List.Forall₂ (fun order entry => orderByEntry asciiToLower qp.selectExprs order = .ok entry ∧
          entry.inner.direction = order.direction) sel.orderBy entries ∧
        (∀ entry ∈ suffix, entry.inner.direction = .ascOrder) ∧
        (∃ keys, keys.Sublist sel.groupBy ∧ List.Forall₂ (fun expr entry =>
          orderByEntry asciiToLower qp.selectExprs ⟨expr, .ascOrder⟩ = .ok entry) keys suffix) ∧
        GroupingSuffix asciiToLower qp.selectExprs entries sel.groupBy suffix :=
  ⟨_, rfl, order_by_then_grouping_keys rfl⟩

-- What the entry `addOrderBy` makes for `order` sorts and weighs on, by the path it takes.
theorem orderByEntry_sorts_on {selectExprs : List SelectExpr} {order : Order} {entry : OrderBy}
    (added : orderByEntry toLower selectExprs order = .ok entry) :
    (∀ n, ordinal? order.expr = some n → ∃ item, index? selectExprs (n - 1) = some item ∧
      entry.weightStrExpr = item.col.expr ∧
      entry.inner.expr = if item.col.as.isEmpty then item.col.expr
        else .colName item.col.as ⟨"", ""⟩) ∧
    (ordinal? order.expr = none → entry.inner.expr = order.expr ∧
      entry.weightStrExpr = aliasTarget toLower selectExprs order.expr) := by
  rcases orderByEntry_ok added with ⟨n, item, numbered, found, rfl⟩ | ⟨plain, rfl⟩
  · refine ⟨fun m renumbered => ?_, fun absent => nomatch numbered.symm.trans absent⟩
    obtain rfl : n = m := Option.some_injective _ (numbered.symm.trans renumbered)
    exact ⟨item, found, rfl, rfl⟩
  · exact ⟨fun _ numbered => (nomatch plain.symm.trans numbered), fun _ => ⟨rfl, rfl⟩⟩

theorem order_entry_weight_string {sel : Select} {qp : QueryProjection}
    (accepted : createQPFromSelect toLower sel = .ok (.ok qp)) :
    ∀ entry ∈ qp.orderExprs, ∃ expr ∈ sel.orderBy.map (·.expr) ++ sel.groupBy,
      (∀ n, ordinal? expr = some n → ∃ item, index? qp.selectExprs (n - 1) = some item ∧
        entry.weightStrExpr = item.col.expr ∧
        entry.inner.expr = if item.col.as.isEmpty then item.col.expr
          else .colName item.col.as ⟨"", ""⟩) ∧
      (ordinal? expr = none → entry.inner.expr = expr ∧
        entry.weightStrExpr = aliasTarget toLower qp.selectExprs expr) := by
  obtain ⟨entries, suffix, -, -, -, -, sorted, grouped, split⟩ := createQPFromSelect_ok accepted
  intro entry member
  rw [split] at member
  rcases List.mem_append.mp member with ordered | appended
  · obtain ⟨order, listed, made⟩ := exists_of_forall₂_mem sorted ordered
    exact ⟨order.expr, List.mem_append_left _ (List.mem_map_of_mem _ listed),
      orderByEntry_sorts_on made⟩
  · obtain ⟨keys, sub, made⟩ := grouped.keys
    obtain ⟨key, listed, made⟩ := exists_of_forall₂_mem made appended
    exact ⟨key, List.mem_append_right _ (sub.subset listed), orderByEntry_sorts_on made⟩

-- `select a as X, b from t group by 2 order by x`: the alias lookup ignores case.
theorem order_entry_weight_string_example :
    let sel : Select := ⟨[.aliased ⟨.colName ⟨"a"⟩ ⟨"", ""⟩, ⟨"X"⟩⟩,
      .aliased ⟨.colName ⟨"b"⟩ ⟨"", ""⟩, ⟨""⟩⟩], [.literal .intVal "2"],
      [⟨.colName ⟨"x"⟩ ⟨"", ""⟩, .ascOrder⟩]⟩
    ∃ qp, createQPFromSelect asciiToLower sel = .ok (.ok qp) ∧
      ∀ entry ∈ qp.orderExprs, ∃ expr ∈ sel.orderBy.map (·.expr) ++ sel.groupBy,
        (∀ n, ordinal? expr = some n → ∃ item, index? qp.selectExprs (n - 1) = some item ∧
          entry.weightStrExpr = item.col.expr ∧
          entry.inner.expr = if item.col.as.isEmpty then item.col.expr
            else .colName item.col.as ⟨"", ""⟩) ∧
        (ordinal? expr = none → entry.inner.expr = expr ∧
          entry.weightStrExpr = aliasTarget asciiToLower qp.selectExprs expr) :=
  ⟨_, rfl, order_entry_weight_string rfl⟩

-- `select a as x, b as x from t order by 2`: the ordinal sorts on the alias `x`, which the
-- alias lookup sends to `a`, and weighs `b`. The names are ASCII, where `strings.ToLower` is
-- `asciiToLower`.
theorem weight_string_not_alias_target :
    ¬ ∀ (sel : Select) (qp : QueryProjection), createQPFromSelect asciiToLower sel = .ok (.ok qp) →
      ∀ entry ∈ qp.orderExprs,
        entry.weightStrExpr = aliasTarget asciiToLower qp.selectExprs entry.inner.expr := by
  intro agrees
  have weighs := agrees ⟨[.aliased ⟨.colName ⟨"a"⟩ ⟨"", ""⟩, ⟨"x"⟩⟩,
      .aliased ⟨.colName ⟨"b"⟩ ⟨"", ""⟩, ⟨"x"⟩⟩], [], [⟨.literal .intVal "2", .ascOrder⟩]⟩ _ rfl _
    (List.mem_singleton_self _)
  exact absurd weighs (by decide)

-- `select a, 1 from t group by 1 order by 2`: the GROUP BY key `1` names column `a`, but it
-- equals the Inner expression of the ORDER BY entry, which sorts on the literal `1`, so the
-- loop adds nothing and no entry sorts on `a`.
variable (toLower) in
theorem grouping_key_without_sort_entry :
    ∃ qp, createQPFromSelect toLower ⟨[.aliased ⟨.colName ⟨"a"⟩ ⟨"", ""⟩, ⟨""⟩⟩,
        .aliased ⟨.literal .intVal "1", ⟨""⟩⟩], [.literal .intVal "1"],
        [⟨.literal .intVal "2", .ascOrder⟩]⟩ = .ok (.ok qp) ∧
      orderByEntry toLower qp.selectExprs ⟨.literal .intVal "1", .ascOrder⟩ =
        .ok ⟨⟨.colName ⟨"a"⟩ ⟨"", ""⟩, .ascOrder⟩, .colName ⟨"a"⟩ ⟨"", ""⟩⟩ ∧
      ∀ entry ∈ qp.orderExprs, equalsExpr entry.weightStrExpr (.colName ⟨"a"⟩ ⟨"", ""⟩) = false :=
  ⟨_, rfl, rfl, by decide⟩

-- `select a from t order by 2`, `order by 0` and `group by 3`: `SelectExprs[num-1]` out of
-- range, a Go runtime panic and not a returned error.
variable (toLower) in
theorem ordinal_out_of_range_panics :
    createQPFromSelect toLower ⟨[.aliased ⟨.colName ⟨"a"⟩ ⟨"", ""⟩, ⟨""⟩⟩], [],
        [⟨.literal .intVal "2", .ascOrder⟩]⟩ = .error (.indexOutOfRange 1 1) ∧
      createQPFromSelect toLower ⟨[.aliased ⟨.colName ⟨"a"⟩ ⟨"", ""⟩, ⟨""⟩⟩], [],
        [⟨.literal .intVal "0", .ascOrder⟩]⟩ = .error (.indexOutOfRange (-1) 1) ∧
      createQPFromSelect toLower ⟨[.aliased ⟨.colName ⟨"a"⟩ ⟨"", ""⟩, ⟨""⟩⟩], [.literal .intVal "3"],
        []⟩ = .error (.indexOutOfRange 2 1) :=
  ⟨rfl, rfl, rfl⟩

end Vitess.Abstract
