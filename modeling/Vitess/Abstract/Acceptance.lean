import Vitess.Abstract.Ordering

/-!
Which selects `CreateQPFromSelect` accepts, what it makes of their select lists, and when it
panics. It accepts exactly the selects whose items are aliased expressions, each an aggregate
call with one argument and no DISTINCT or free of aggregation, that have a GROUP BY when they
mix the two kinds, and whose ordinals stay in range. It checks nothing inside an aggregate
call's argument, so `count(max(a))` passes. Its only runtime panic is an ordinal out of range.
-/

namespace Vitess.Abstract
open Sqlparser

variable {toLower : String → String}

variable (toLower) in
/-- The select items the select-list loop accepts, stated apart from the loop: an aliased
aggregate call with one argument and no DISTINCT, or an aliased expression with no
aggregation in it. -/
def acceptableItem : Sqlparser.SelectExpr → Bool
  | .aliased exp =>
    match exp.expr with
    | .funcExpr _ name distinct exprs =>
      if isAggregate toLower name then exprs.length == 1 && !distinct else !containsAggregation toLower exp.expr
    | _ => !containsAggregation toLower exp.expr
  | _ => false

variable (toLower) in
def isAggregateItem : Sqlparser.SelectExpr → Bool
  | .aliased exp => isAggregateFunc toLower exp.expr
  | _ => false

/-- An expression that is not an ordinal, or an ordinal that names one of `count` items. -/
def ordinalInRange (count : Nat) (expr : Expr) : Bool :=
  match ordinal? expr with
  | some n => decide (1 ≤ n ∧ n ≤ count)
  | none => true

theorem index?_eq_none_iff {α : Type} (xs : List α) (i : Int) :
    index? xs i = none ↔ ¬(0 ≤ i ∧ i < xs.length) := by
  unfold index?
  split
  · simp only [true_iff]
    omega
  · rw [List.getElem?_eq_none_iff]
    omega

theorem orderByEntry_ok_iff {selectExprs : List SelectExpr} {order : Order} :
    (∃ entry, orderByEntry toLower selectExprs order = .ok entry) ↔
      ordinalInRange selectExprs.length order.expr = true := by
  obtain ⟨expr, direction⟩ := order
  cases expr with
  | literal type val =>
    cases type
    case intVal =>
      have range := index?_eq_none_iff selectExprs (atoi val - 1)
      simp only [orderByEntry, ordinalInRange, ordinal?, decide_eq_true_eq]
      cases found : index? selectExprs (atoi val - 1) with
      | none => exact ⟨fun ⟨_, made⟩ => (nomatch made), fun _ => absurd (range.mp found) (by omega)⟩
      | some item =>
        have inside : ¬¬(0 ≤ atoi val - 1 ∧ atoi val - 1 < selectExprs.length) :=
          mt range.mpr (by simp [found])
        exact ⟨fun _ => by omega, fun _ => ⟨_, rfl⟩⟩
    all_goals exact ⟨fun _ => rfl, fun _ => ⟨_, rfl⟩⟩
  | colName name qualifier =>
    refine ⟨fun _ => rfl, fun _ => ?_⟩
    simp only [orderByEntry]
    split <;> exact ⟨_, rfl⟩
  | _ => exact ⟨fun _ => rfl, fun _ => ⟨_, rfl⟩⟩

-- The panic `addOrderBy` raises, with the index Go prints.
theorem orderByEntry_error {selectExprs : List SelectExpr} {order : Order} {panic : RuntimePanic}
    (raised : orderByEntry toLower selectExprs order = .error panic) :
    ∃ n, ordinal? order.expr = some n ∧ ¬(1 ≤ n ∧ n ≤ selectExprs.length) ∧
      panic = .indexOutOfRange (wrapInt64 (n - 1)) selectExprs.length := by
  obtain ⟨expr, direction⟩ := order
  cases expr with
  | literal type val =>
    cases type
    case intVal =>
      simp only [orderByEntry] at raised
      split at raised
      · rename_i found
        cases raised
        have outside := (index?_eq_none_iff selectExprs (atoi val - 1)).mp found
        exact ⟨atoi val, rfl, by omega, rfl⟩
      · cases raised
    all_goals cases raised
  | colName name qualifier =>
    simp only [orderByEntry] at raised
    split at raised <;> cases raised
  | _ => cases raised

theorem ordinal?_mem_range {expr : Expr} {n : Int} (numbered : ordinal? expr = some n) :
    minInt64 ≤ n ∧ n ≤ maxInt64 := by
  unfold ordinal? at numbered
  split at numbered
  · cases numbered
    exact atoi_mem_range _
  · cases numbered

/-- The message of an ordinal's panic. Go computes `num-1` in int64: it is negative exactly
when `num ≤ 0`, save at the int64 minimum, where it wraps to the maximum. -/
theorem ordinal_panic_error {n : Int} (range : minInt64 ≤ n ∧ n ≤ maxInt64) (length : Nat) :
    (RuntimePanic.indexOutOfRange (wrapInt64 (n - 1)) length).error =
      "runtime error: index out of range [" ++ toString (wrapInt64 (n - 1)) ++
        if n ≤ 0 ∧ n ≠ minInt64 then "]" else "] with length " ++ toString length := by
  have negative : wrapInt64 (n - 1) < 0 ↔ n ≤ 0 ∧ n ≠ minInt64 := by
    unfold wrapInt64
    unfold minInt64 maxInt64 at *
    omega
  by_cases below : n ≤ 0 ∧ n ≠ minInt64
  · simp [RuntimePanic.error, negative.mpr below, below]
  · simp [RuntimePanic.error, mt negative.mp below, below, String.append_assoc]

theorem addOrderBys_of_inRange {qp : QueryProjection} {orders : List Order}
    (inRange : ∀ order ∈ orders, ordinalInRange qp.selectExprs.length order.expr = true) :
    ∃ qp', qp.addOrderBys toLower orders = .ok qp' := by
  induction orders generalizing qp with
  | nil => exact ⟨qp, rfl⟩
  | cons order rest ih =>
    obtain ⟨entry, made⟩ := orderByEntry_ok_iff.mpr (inRange order (List.mem_cons_self _ _))
    obtain ⟨qp', later⟩ := @ih { qp with orderExprs := qp.orderExprs ++ [entry] }
      fun order listed => inRange order (List.mem_cons_of_mem _ listed)
    exact ⟨qp', by rw [QueryProjection.addOrderBys, QueryProjection.addOrderBy, made]; exact later⟩

theorem addGroupByOrders_of_inRange {qp : QueryProjection} {exprs : List Expr}
    (inRange : ∀ expr ∈ exprs, ordinalInRange qp.selectExprs.length expr = true) :
    ∃ qp', qp.addGroupByOrders toLower exprs = .ok qp' := by
  induction exprs generalizing qp with
  | nil => exact ⟨qp, rfl⟩
  | cons expr rest ih =>
    have later := fun expr listed => inRange expr (List.mem_cons_of_mem _ listed)
    rw [QueryProjection.addGroupByOrders]
    split
    · exact ih later
    · obtain ⟨entry, made⟩ := (@orderByEntry_ok_iff _ qp.selectExprs ⟨expr, .ascOrder⟩).mpr
        (inRange expr (List.mem_cons_self _ _))
      obtain ⟨qp', grouped⟩ := @ih { qp with orderExprs := qp.orderExprs ++ [entry] } later
      exact ⟨qp', by rw [QueryProjection.addOrderBy, made]; exact grouped⟩

theorem addOrderBys_panics {qp : QueryProjection} {orders : List Order} {order : Order}
    {panic : RuntimePanic} (listed : order ∈ orders)
    (raised : orderByEntry toLower qp.selectExprs order = .error panic) :
    ∃ panic', qp.addOrderBys toLower orders = .error panic' := by
  induction orders generalizing qp with
  | nil => cases listed
  | cons first rest ih =>
    rw [QueryProjection.addOrderBys, QueryProjection.addOrderBy]
    rcases List.mem_cons.mp listed with rfl | later
    · exact ⟨panic, by rw [raised]; rfl⟩
    · cases made : orderByEntry toLower qp.selectExprs first with
      | error panic' => exact ⟨panic', rfl⟩
      | ok entry => exact @ih { qp with orderExprs := qp.orderExprs ++ [entry] } later raised

theorem addSelectExpr_of_acceptable {qp : QueryProjection} {hasNonAggr : Bool}
    {item : Sqlparser.SelectExpr} (acceptable : acceptableItem toLower item = true) :
    ∃ qp' hasNonAggr', addSelectExpr toLower qp hasNonAggr item = .ok (qp', hasNonAggr') := by
  have plain : ∀ exp : AliasedExpr, containsAggregation toLower exp.expr = false →
      ∃ qp' hasNonAggr', addNonAggr toLower qp exp = .ok (qp', hasNonAggr') :=
    fun exp clean => ⟨{ qp with selectExprs := qp.selectExprs ++ [⟨exp, false⟩] }, true,
      by simp [addNonAggr, clean]⟩
  cases item with
  | aliased exp =>
    obtain ⟨expr, as⟩ := exp
    cases expr with
    | funcExpr qualifier name distinct exprs =>
      by_cases aggregate : isAggregate toLower name
      · simp only [acceptableItem, aggregate, if_true, Bool.and_eq_true, beq_iff_eq,
          Bool.not_eq_true'] at acceptable
        simp [addSelectExpr, aggregate, acceptable]
      · simp only [acceptableItem, aggregate] at acceptable
        simp only [addSelectExpr, aggregate]
        exact plain _ (by simpa using acceptable)
    | _ => exact plain _ (by simpa [acceptableItem] using acceptable)
  | _ => cases acceptable

theorem addSelectExprs_of_acceptable {qp : QueryProjection} {hasNonAggr : Bool}
    {items : List Sqlparser.SelectExpr} (acceptable : ∀ item ∈ items, acceptableItem toLower item = true) :
    ∃ qp' hasNonAggr', addSelectExprs toLower qp hasNonAggr items = .ok (qp', hasNonAggr') := by
  induction items generalizing qp hasNonAggr with
  | nil => exact ⟨qp, hasNonAggr, rfl⟩
  | cons item rest ih =>
    obtain ⟨next, nextNonAggr, first⟩ :=
      @addSelectExpr_of_acceptable _ qp hasNonAggr _ (acceptable item (List.mem_cons_self _ _))
    obtain ⟨qp', hasNonAggr', later⟩ :=
      @ih next nextNonAggr fun item listed => acceptable item (List.mem_cons_of_mem _ listed)
    exact ⟨qp', hasNonAggr', by rw [addSelectExprs, first]; exact later⟩

theorem SelectEntry.aliased {item : Sqlparser.SelectExpr} {entry : SelectExpr}
    (made : SelectEntry toLower item entry) : item = .aliased entry.col ∧ isAggregateItem toLower item = entry.aggr := by
  obtain ⟨rfl, aggregate, -, -⟩ := made
  exact ⟨rfl, aggregate.symm⟩

theorem forall₂_selectEntry {items : List Sqlparser.SelectExpr} {entries : List SelectExpr}
    (made : List.Forall₂ (SelectEntry toLower) items entries) :
    items = entries.map (fun entry => .aliased entry.col) := by
  induction made with
  | nil => rfl
  | cons first _ ih => rw [first.aliased.1, ih]; rfl

theorem any_isAggregateItem {items : List Sqlparser.SelectExpr} {entries : List SelectExpr}
    (made : List.Forall₂ (SelectEntry toLower) items entries) (p : Bool → Bool) :
    items.any (fun item => p (isAggregateItem toLower item)) = entries.any (fun entry => p entry.aggr) := by
  induction made with
  | nil => rfl
  | cons first _ ih => simp only [List.any_cons, first.aliased.2, ih]

-- A select list of acceptable items passes the loop and, with a GROUP BY where it mixes
-- aggregates and plain items, the mixing check.
theorem selectList_passes {sel : Select}
    (acceptable : ∀ item ∈ sel.selectExprs, acceptableItem toLower item = true)
    (mixed : sel.selectExprs.any (isAggregateItem toLower) = true →
      sel.selectExprs.any (!isAggregateItem toLower ·) = true → sel.groupBy ≠ []) :
    ∃ selected hasNonAggr,
      addSelectExprs toLower emptyProjection false sel.selectExprs = .ok (selected, hasNonAggr) ∧
      (hasNonAggr && selected.hasAggr && sel.groupBy.isEmpty) = false ∧
      selected.selectExprs.length = sel.selectExprs.length := by
  obtain ⟨selected, hasNonAggr, listed⟩ :=
    @addSelectExprs_of_acceptable _ emptyProjection false _ acceptable
  obtain ⟨entries, made, selectedEq, rfl⟩ := addSelectExprs_ok listed
  refine ⟨selected, _, listed, ?_, by simp [selectedEq, emptyProjection, made.length_eq]⟩
  rw [selectedEq]
  cases plain : entries.any (!·.aggr) <;> cases aggregate : entries.any (·.aggr) <;>
    simp only [emptyProjection, Bool.false_or, Bool.false_and, Bool.and_false, Bool.true_and]
  have grouped := mixed ((any_isAggregateItem made id).trans aggregate)
    ((any_isAggregateItem made not).trans plain)
  cases ungrouped : sel.groupBy
  exacts [absurd ungrouped grouped, rfl]

variable (toLower) in
theorem select_list_accepted (sel : Select) :
    (∀ qp, createQPFromSelect toLower sel = .ok (.ok qp) →
      sel.selectExprs = qp.selectExprs.map (fun entry => .aliased entry.col) ∧
      (∀ entry ∈ qp.selectExprs, entry.aggr = isAggregateFunc toLower entry.col.expr ∧
        (entry.aggr = true → ∃ qualifier name exprs,
          entry.col.expr = .funcExpr qualifier name false exprs ∧ exprs.length = 1) ∧
        (entry.aggr = false → containsAggregation toLower entry.col.expr = false)) ∧
      qp.hasAggr = qp.selectExprs.any (·.aggr) ∧
      (qp.selectExprs.any (·.aggr) = true → qp.selectExprs.any (!·.aggr) = true →
        sel.groupBy ≠ [])) ∧
    ((∀ item ∈ sel.selectExprs, acceptableItem toLower item = true) →
      (sel.selectExprs.any (isAggregateItem toLower) = true → sel.selectExprs.any (!isAggregateItem toLower ·) = true →
        sel.groupBy ≠ []) →
      (∀ order ∈ sel.orderBy, ordinalInRange sel.selectExprs.length order.expr = true) →
      (∀ expr ∈ sel.groupBy, ordinalInRange sel.selectExprs.length expr = true) →
      ∃ qp, createQPFromSelect toLower sel = .ok (.ok qp)) := by
  refine ⟨fun qp accepted => ?_, fun acceptable mixed sortable groupable => ?_⟩
  · obtain ⟨_, _, made, hasAggr, notMixed, -⟩ := createQPFromSelect_ok accepted
    refine ⟨forall₂_selectEntry made, fun entry member => ?_, hasAggr,
      fun aggregate plain ungrouped => ?_⟩
    · obtain ⟨_, _, _, facts⟩ := exists_of_forall₂_mem made member
      exact facts
    · simp [hasAggr, aggregate, plain, ungrouped] at notMixed
  · obtain ⟨selected, hasNonAggr, listed, notMixed, count⟩ := selectList_passes acceptable mixed
    obtain ⟨sorted, bySort⟩ := @addOrderBys_of_inRange toLower { selected with groupByExprs := sel.groupBy }
      sel.orderBy fun order listed => count ▸ sortable order listed
    obtain ⟨_, _, sortedEq⟩ := addOrderBys_ok bySort
    obtain ⟨grouped, byGroup⟩ := @addGroupByOrders_of_inRange toLower sorted sel.groupBy
      fun expr listed => sortedEq ▸ count ▸ groupable expr listed
    refine ⟨grouped, ?_⟩
    simp only [createQPFromSelect, listed, notMixed, Bool.false_eq_true, if_false, bySort]
    exact congrArg (Except.map Except.ok) byGroup

-- `select COUNT(a), b from t group by b order by 1 desc`
theorem select_list_accepted_grouped_count :
    ∃ qp, createQPFromSelect asciiToLower ⟨[.aliased ⟨.funcExpr "" ⟨"COUNT"⟩ false
        (.cons (.colName ⟨"a"⟩ ⟨"", ""⟩) .nil), ⟨""⟩⟩, .aliased ⟨.colName ⟨"b"⟩ ⟨"", ""⟩, ⟨""⟩⟩],
        [.colName ⟨"b"⟩ ⟨"", ""⟩], [⟨.literal .intVal "1", .descOrder⟩]⟩ = .ok (.ok qp) :=
  (select_list_accepted asciiToLower _).2 (by decide) (by decide) (by decide) (by decide)

-- `select count(max(a)) from t`: the loop accepts an aggregate call whatever its argument.
theorem nested_aggregate_accepted :
    ¬ ∀ (sel : Select) (qp : QueryProjection), createQPFromSelect asciiToLower sel = .ok (.ok qp) →
      ∀ entry ∈ qp.selectExprs, entry.aggr = true → ∀ qualifier name distinct exprs,
        entry.col.expr = .funcExpr qualifier name distinct exprs →
          containsAggregationIn asciiToLower exprs = false := by
  intro clean
  have inner := clean ⟨[.aliased ⟨.funcExpr "" ⟨"count"⟩ false
      (.cons (.funcExpr "" ⟨"max"⟩ false (.cons (.colName ⟨"a"⟩ ⟨"", ""⟩) .nil)) .nil), ⟨""⟩⟩],
      [], []⟩ _ rfl _ (List.mem_singleton_self _) rfl _ _ _ _ rfl
  exact absurd inner (by decide)

theorem addOrderBys_error {qp : QueryProjection} {orders : List Order} {panic : RuntimePanic}
    (raised : qp.addOrderBys toLower orders = .error panic) :
    ∃ order ∈ orders, orderByEntry toLower qp.selectExprs order = .error panic := by
  induction orders generalizing qp with
  | nil => cases raised
  | cons order rest ih =>
    rcases bind_eq_error.mp raised with made | ⟨_, added, later⟩
    · exact ⟨order, List.mem_cons_self _ _, map_eq_error.mp made⟩
    · obtain ⟨_, -, rfl⟩ := map_eq_ok.mp added
      obtain ⟨order', listed, made⟩ := ih later
      exact ⟨order', List.mem_cons_of_mem _ listed, made⟩

theorem addGroupByOrders_error {qp : QueryProjection} {exprs : List Expr} {panic : RuntimePanic}
    (raised : qp.addGroupByOrders toLower exprs = .error panic) :
    ∃ expr ∈ exprs, orderByEntry toLower qp.selectExprs ⟨expr, .ascOrder⟩ = .error panic := by
  induction exprs generalizing qp with
  | nil => cases raised
  | cons expr rest ih =>
    rw [QueryProjection.addGroupByOrders] at raised
    split at raised
    · obtain ⟨expr', listed, made⟩ := ih raised
      exact ⟨expr', List.mem_cons_of_mem _ listed, made⟩
    · rcases bind_eq_error.mp raised with made | ⟨_, added, grouped⟩
      · exact ⟨expr, List.mem_cons_self _ _, map_eq_error.mp made⟩
      · obtain ⟨_, -, rfl⟩ := map_eq_ok.mp added
        obtain ⟨expr', listed, made⟩ := ih grouped
        exact ⟨expr', List.mem_cons_of_mem _ listed, made⟩

theorem createQPFromSelect_error_index {sel : Select} {panic : RuntimePanic}
    (raised : createQPFromSelect toLower sel = .error panic) :
    ∃ expr ∈ sel.orderBy.map (·.expr) ++ sel.groupBy, ∃ n, ordinal? expr = some n ∧
      ¬(1 ≤ n ∧ n ≤ sel.selectExprs.length) ∧
      panic = .indexOutOfRange (wrapInt64 (n - 1)) sel.selectExprs.length := by
  unfold createQPFromSelect at raised
  split at raised
  · cases raised
  · rename_i selected hasNonAggr listed
    obtain ⟨entries, made, rfl, rfl⟩ := addSelectExprs_ok listed
    have count : (emptyProjection.selectExprs ++ entries).length = sel.selectExprs.length := by
      simp [emptyProjection, made.length_eq]
    split_ifs at raised
    rcases bind_eq_error.mp (map_eq_error.mp raised) with sortPanic | ⟨sorted, bySort, groupPanic⟩
    · obtain ⟨order, listed, made'⟩ := addOrderBys_error sortPanic
      obtain ⟨n, numbered, outside, rfl⟩ := orderByEntry_error made'
      exact ⟨order.expr, List.mem_append_left _ (List.mem_map_of_mem _ listed), n, numbered,
        count ▸ outside, count ▸ rfl⟩
    · obtain ⟨_, _, rfl⟩ := addOrderBys_ok bySort
      obtain ⟨expr, listed, made'⟩ := addGroupByOrders_error groupPanic
      obtain ⟨n, numbered, outside, rfl⟩ := orderByEntry_error made'
      exact ⟨expr, List.mem_append_right _ listed, n, numbered, count ▸ outside, count ▸ rfl⟩

/-- The only runtime panic of `CreateQPFromSelect` is an ORDER BY or GROUP BY ordinal out of
range, with the index and the message Go prints. -/
theorem createQPFromSelect_panic_ordinal {sel : Select} {panic : RuntimePanic}
    (raised : createQPFromSelect toLower sel = .error panic) :
    ∃ expr ∈ sel.orderBy.map (·.expr) ++ sel.groupBy, ∃ n, ordinal? expr = some n ∧
      ¬(1 ≤ n ∧ n ≤ sel.selectExprs.length) ∧
      panic = .indexOutOfRange (wrapInt64 (n - 1)) sel.selectExprs.length ∧
      panic.error = "runtime error: index out of range [" ++ toString (wrapInt64 (n - 1)) ++
        if n ≤ 0 ∧ n ≠ minInt64 then "]" else "] with length " ++ toString sel.selectExprs.length := by
  obtain ⟨expr, listed, n, numbered, outside, rfl⟩ := createQPFromSelect_error_index raised
  exact ⟨expr, listed, n, numbered, outside, rfl, ordinal_panic_error (ordinal?_mem_range numbered) _⟩

-- `select a from t group by 3` panics with the length, `select a from t order by 0` without.
theorem createQPFromSelect_panic_messages :
    let byThree : Select := ⟨[.aliased ⟨.colName ⟨"a"⟩ ⟨"", ""⟩, ⟨""⟩⟩], [.literal .intVal "3"], []⟩
    let byZero : Select :=
      ⟨[.aliased ⟨.colName ⟨"a"⟩ ⟨"", ""⟩, ⟨""⟩⟩], [], [⟨.literal .intVal "0", .ascOrder⟩]⟩
    createQPFromSelect asciiToLower byThree = .error (.indexOutOfRange 2 1) ∧
      (∃ expr ∈ byThree.orderBy.map (·.expr) ++ byThree.groupBy, ∃ n, ordinal? expr = some n ∧
        ¬(1 ≤ n ∧ n ≤ byThree.selectExprs.length) ∧
        RuntimePanic.indexOutOfRange 2 1 =
          .indexOutOfRange (wrapInt64 (n - 1)) byThree.selectExprs.length ∧
        (RuntimePanic.indexOutOfRange 2 1).error =
          "runtime error: index out of range [" ++ toString (wrapInt64 (n - 1)) ++
            if n ≤ 0 ∧ n ≠ minInt64 then "]"
            else "] with length " ++ toString byThree.selectExprs.length) ∧
      createQPFromSelect asciiToLower byZero = .error (.indexOutOfRange (-1) 1) ∧
      (∃ expr ∈ byZero.orderBy.map (·.expr) ++ byZero.groupBy, ∃ n, ordinal? expr = some n ∧
        ¬(1 ≤ n ∧ n ≤ byZero.selectExprs.length) ∧
        RuntimePanic.indexOutOfRange (-1) 1 =
          .indexOutOfRange (wrapInt64 (n - 1)) byZero.selectExprs.length ∧
        (RuntimePanic.indexOutOfRange (-1) 1).error =
          "runtime error: index out of range [" ++ toString (wrapInt64 (n - 1)) ++
            if n ≤ 0 ∧ n ≠ minInt64 then "]"
            else "] with length " ++ toString byZero.selectExprs.length) :=
  ⟨rfl, @createQPFromSelect_panic_ordinal asciiToLower _ _ rfl, rfl,
    @createQPFromSelect_panic_ordinal asciiToLower _ _ rfl⟩

-- An acceptable select list with an ORDER BY ordinal out of range panics: it never comes
-- back as an error.
theorem orderBy_ordinal_out_of_range_panics {sel : Select}
    (acceptable : ∀ item ∈ sel.selectExprs, acceptableItem toLower item = true)
    (mixed : sel.selectExprs.any (isAggregateItem toLower) = true →
      sel.selectExprs.any (!isAggregateItem toLower ·) = true → sel.groupBy ≠ [])
    {order : Order} (listed : order ∈ sel.orderBy)
    (outside : ordinalInRange sel.selectExprs.length order.expr = false) :
    ∃ panic, createQPFromSelect toLower sel = .error panic := by
  obtain ⟨selected, hasNonAggr, selectedOk, notMixed, count⟩ := selectList_passes acceptable mixed
  obtain ⟨panic, raised⟩ : ∃ panic, orderByEntry toLower selected.selectExprs order = .error panic := by
    cases made : orderByEntry toLower selected.selectExprs order with
    | error panic => exact ⟨panic, rfl⟩
    | ok entry => exact absurd (count ▸ orderByEntry_ok_iff.mp ⟨entry, made⟩) (by simp [outside])
  obtain ⟨panic', sortPanic⟩ :=
    @addOrderBys_panics _ { selected with groupByExprs := sel.groupBy } _ _ _ listed raised
  exact ⟨panic', by
    simp only [createQPFromSelect, selectedOk, notMixed, Bool.false_eq_true, if_false, sortPanic]
    rfl⟩

-- `select COUNT(a), b from t group by b order by 3`
theorem orderBy_ordinal_three_panics :
    ∃ panic, createQPFromSelect asciiToLower ⟨[.aliased ⟨.funcExpr "" ⟨"COUNT"⟩ false
        (.cons (.colName ⟨"a"⟩ ⟨"", ""⟩) .nil), ⟨""⟩⟩, .aliased ⟨.colName ⟨"b"⟩ ⟨"", ""⟩, ⟨""⟩⟩],
      [.colName ⟨"b"⟩ ⟨"", ""⟩], [⟨.literal .intVal "3", .ascOrder⟩]⟩ = .error panic :=
  orderBy_ordinal_out_of_range_panics (by decide) (by decide) (List.mem_singleton_self _) rfl

end Vitess.Abstract
