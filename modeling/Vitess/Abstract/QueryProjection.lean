import Vitess.Sqlparser

/-!
`abstract.CreateQPFromSelect` and `QueryProjection.addOrderBy` of
go/vt/vtgate/planbuilder/abstract/queryprojection.go. The select-list loop returns the
errors of the source; `addOrderBy` indexes `qp.SelectExprs[num-1]` without a bounds check, so
an out-of-range ordinal is a Go runtime panic, kept apart from the returned errors:
`createQPFromSelect` returns `.error` for a panic and `.ok (.error e)` for a returned error.
`ToString` only renders the projection and is not modelled.
-/

namespace Vitess.Abstract
open Sqlparser

structure SelectExpr where
  col : AliasedExpr
  aggr : Bool
  deriving DecidableEq, Repr

structure OrderBy where
  inner : Order
  weightStrExpr : Expr
  deriving DecidableEq, Repr

structure QueryProjection where
  selectExprs : List SelectExpr
  hasAggr : Bool
  groupByExprs : List Expr
  orderExprs : List OrderBy
  deriving DecidableEq, Repr

inductive VtrpcCode where
  | invalidArgument | unimplemented
  deriving DecidableEq, Repr

inductive ErrorState where
  | syntaxError | mixOfGroupFuncAndFields
  deriving DecidableEq, Repr

/-- The errors of `CreateQPFromSelect`, with the format and arguments of their messages:
`semantics.Gen4NotSupportedF` and `vterrors.NewErrorf`/`vterrors.New`. -/
inductive QPError where
  | gen4NotSupported (format : String) (args : List String)
  | vterror (code : VtrpcCode) (state : Option ErrorState) (format : String) (args : List Expr)
  deriving DecidableEq, Repr

/-- The runtime's `boundsError` for an index out of range. -/
inductive RuntimePanic where
  | indexOutOfRange (index : Int) (length : Nat)
  deriving DecidableEq, Repr

/-- `boundsError.Error`, the message the panic prints: a negative index has no length. -/
def RuntimePanic.error : RuntimePanic → String
  | .indexOutOfRange index length =>
    if index < 0 then "runtime error: index out of range [" ++ toString index ++ "]"
    else "runtime error: index out of range [" ++ toString index ++ "] with length " ++
      toString length

example : (RuntimePanic.indexOutOfRange 2 1).error =
    "runtime error: index out of range [2] with length 1" := by decide

def index? {α : Type} (xs : List α) (i : Int) : Option α :=
  if i < 0 then none else xs[i.toNat]?

section Lowering

variable (toLower : String → String)

/-- The entry `addOrderBy` appends for `order`: by ordinal, by select alias, or as it is. -/
def orderByEntry (selectExprs : List SelectExpr) (order : Order) :
    Except RuntimePanic OrderBy :=
  match order.expr with
  | .literal .intVal val =>
    let num := atoi val
    match index? selectExprs (num - 1) with
    | none => .error (.indexOutOfRange (wrapInt64 (num - 1)) selectExprs.length)
    | some selectExpr =>
      let aliasedExpr := selectExpr.col
      let expr := if aliasedExpr.as.isEmpty then aliasedExpr.expr
        else .colName aliasedExpr.as ⟨"", ""⟩
      .ok ⟨⟨expr, order.direction⟩, aliasedExpr.expr⟩
  | .colName name qualifier =>
    let aliased := fun (selectExpr : SelectExpr) =>
      !selectExpr.col.as.isEmpty && name.equal toLower selectExpr.col.as
    match qualifier.isEmpty, selectExprs.find? aliased with
    | true, some selectExpr => .ok ⟨order, selectExpr.col.expr⟩
    | _, _ => .ok ⟨order, order.expr⟩
  | _ => .ok ⟨order, order.expr⟩

def QueryProjection.addOrderBy (qp : QueryProjection) (order : Order) :
    Except RuntimePanic QueryProjection :=
  (orderByEntry toLower qp.selectExprs order).map fun entry =>
    { qp with orderExprs := qp.orderExprs ++ [entry] }

/-- The ORDER BY loop. -/
def QueryProjection.addOrderBys (qp : QueryProjection) :
    List Order → Except RuntimePanic QueryProjection
  | [] => .ok qp
  | order :: rest => (qp.addOrderBy toLower order).bind (·.addOrderBys rest)

/-- The GROUP BY loop: a grouping key that is not already an ORDER BY expression is
appended as an ascending ordering. -/
def QueryProjection.addGroupByOrders (qp : QueryProjection) :
    List Expr → Except RuntimePanic QueryProjection
  | [] => .ok qp
  | expr :: rest =>
    if qp.orderExprs.any (fun orderExpr => equalsExpr expr orderExpr.inner.expr) then
      qp.addGroupByOrders rest
    else (qp.addOrderBy toLower ⟨expr, .ascOrder⟩).bind (·.addGroupByOrders rest)

def isAggregateFunc : Expr → Bool
  | .funcExpr _ name _ _ => isAggregate toLower name
  | _ => false

/-- A select item that is not an aggregate call: it may contain no aggregation. -/
def addNonAggr (qp : QueryProjection) (exp : AliasedExpr) :
    Except QPError (QueryProjection × Bool) :=
  if containsAggregation toLower exp.expr then
    .error (.vterror .unimplemented none
      "unsupported: in scatter query: complex aggregate expression" [])
  else .ok ({ qp with selectExprs := qp.selectExprs ++ [⟨exp, false⟩] }, true)

/-- One select item of the select-list loop, on the projection and `hasNonAggr` so far. -/
def addSelectExpr (qp : QueryProjection) (hasNonAggr : Bool) :
    Sqlparser.SelectExpr → Except QPError (QueryProjection × Bool)
  | .aliased exp =>
    match exp.expr with
    | .funcExpr _ name distinct exprs =>
      if isAggregate toLower name then
        if exprs.length ≠ 1 then
          .error (.vterror .invalidArgument (some .syntaxError)
            "aggregate functions take a single argument '%s'" [exp.expr])
        else if distinct then .error (.gen4NotSupported "distinct aggregation" [])
        else .ok ({ qp with hasAggr := true, selectExprs := qp.selectExprs ++ [⟨exp, true⟩] },
          hasNonAggr)
      else addNonAggr toLower qp exp
    | _ => addNonAggr toLower qp exp
  | selExp => .error (.gen4NotSupported "%T in select list" [selExp.typeName])

def addSelectExprs (qp : QueryProjection) (hasNonAggr : Bool) :
    List Sqlparser.SelectExpr → Except QPError (QueryProjection × Bool)
  | [] => .ok (qp, hasNonAggr)
  | selExp :: rest =>
    (addSelectExpr toLower qp hasNonAggr selExp).bind fun next => addSelectExprs next.1 next.2 rest

end Lowering

def emptyProjection : QueryProjection := ⟨[], false, [], []⟩

def mixingError : QPError :=
  .vterror .invalidArgument (some .mixOfGroupFuncAndFields)
    "Mixing of aggregation and non-aggregation columns is not allowed if there is no GROUP BY clause"
    []

variable (toLower : String → String) in
def createQPFromSelect (sel : Select) : Except RuntimePanic (Except QPError QueryProjection) :=
  match addSelectExprs toLower emptyProjection false sel.selectExprs with
  | .error e => .ok (.error e)
  | .ok (qp, hasNonAggr) =>
    if hasNonAggr && qp.hasAggr && sel.groupBy.isEmpty then .ok (.error mixingError)
    else
      let qp := { qp with groupByExprs := sel.groupBy }
      ((qp.addOrderBys toLower sel.orderBy).bind (·.addGroupByOrders toLower qp.groupByExprs)).map .ok

end Vitess.Abstract
