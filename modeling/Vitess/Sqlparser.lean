import Mathlib.Data.List.Basic
import Vitess.Go

/-!
The part of package sqlparser that `abstract.CreateQPFromSelect` reads: expressions, select
items, ORDER BY items and the SELECT statement, and the helpers the planner calls on them
(`EqualsExpr`, `ColIdent.Equal`, `FuncExpr.IsAggregate`, `ContainsAggregation`). The package
is not part of this snapshot. Nodes the planner never inspects are `other`, which keeps its
child expressions so that `ContainsAggregation` still walks through them; a function's
argument list keeps only the argument expressions. `strings.ToLower`, Go's Unicode case
mapping, is the parameter `toLower`; `strconv.Atoi` follows the Go standard library on a
64-bit platform.
-/

namespace Vitess.Sqlparser

-- Go's second field, `lowered`, only caches what `Lowered` computes and is left out.
structure ColIdent where
  val : String
  deriving DecidableEq, Repr

def ColIdent.isEmpty (node : ColIdent) : Bool := node.val == ""

structure TableName where
  name : String
  qualifier : String
  deriving DecidableEq, Repr

def TableName.isEmpty (node : TableName) : Bool := node.name == ""

inductive ValType where
  | strVal | intVal | floatVal | hexNum | hexVal | bitVal
  deriving DecidableEq, Repr

mutual
inductive Expr where
  | literal (type : ValType) (val : String)
  | colName (name : ColIdent) (qualifier : TableName)
  | funcExpr (qualifier : String) (name : ColIdent) (distinct : Bool) (exprs : Exprs)
  | groupConcatExpr (distinct : Bool) (exprs : Exprs)
  | star (table : TableName)
  | other (kind : String) (children : Exprs)
inductive Exprs where
  | nil
  | cons (head : Expr) (tail : Exprs)
end

deriving instance DecidableEq for Expr
deriving instance Repr for Expr

def Exprs.length : Exprs → Nat
  | .nil => 0
  | .cons _ tail => tail.length + 1

/-- `sqlparser.EqualsExpr`, the generated deep equality of expression trees. -/
def equalsExpr (a b : Expr) : Bool := a == b

def aggregates : List String :=
  ["avg", "bit_and", "bit_or", "bit_xor", "count", "group_concat", "max", "min", "std",
    "stddev_pop", "stddev_samp", "stddev", "sum", "var_pop", "var_samp", "variance"]

section Lowering

variable (toLower : String → String)

def ColIdent.lowered (node : ColIdent) : String := if node.val = "" then "" else toLower node.val

def ColIdent.equal (node other : ColIdent) : Bool := node.lowered toLower == other.lowered toLower

/-- `FuncExpr.IsAggregate`: the lower-cased name is a key of `sqlparser.Aggregates`. -/
def isAggregate (name : ColIdent) : Bool := aggregates.contains (name.lowered toLower)

-- `Walk` visits a node before its children and stops below an aggregation.
mutual
def containsAggregation : Expr → Bool
  | .funcExpr _ name _ exprs => isAggregate toLower name || containsAggregationIn exprs
  | .groupConcatExpr _ _ => true
  | .other _ children => containsAggregationIn children
  | .literal _ _ | .colName _ _ | .star _ => false
def containsAggregationIn : Exprs → Bool
  | .nil => false
  | .cons head tail => containsAggregation head || containsAggregationIn tail
end

end Lowering

/-- `strings.ToLower` on ASCII text, where it agrees with Go's Unicode mapping: the lowering
the model is run with on ASCII names. -/
def asciiToLower (s : String) : String := ⟨s.data.map Char.toLower⟩

structure AliasedExpr where
  expr : Expr
  as : ColIdent
  deriving DecidableEq, Repr

inductive SelectExpr where
  | aliased (exp : AliasedExpr)
  | star (table : TableName)
  | nextval (expr : Expr)
  deriving DecidableEq, Repr

-- The dynamic type `%T` prints for a select item.
def SelectExpr.typeName : SelectExpr → String
  | .aliased _ => "*sqlparser.AliasedExpr"
  | .star _ => "*sqlparser.StarExpr"
  | .nextval _ => "sqlparser.Nextval"

inductive OrderDirection where
  | ascOrder | descOrder
  deriving DecidableEq, Repr

structure Order where
  expr : Expr
  direction : OrderDirection
  deriving DecidableEq, Repr

/-- The clauses of a `sqlparser.Select` the planner reads. `groupBy = []` is Go's nil
`GroupBy`: the parser never builds an empty non-nil one. -/
structure Select where
  selectExprs : List SelectExpr
  groupBy : List Expr
  orderBy : List Order
  deriving DecidableEq, Repr

def digitsValue (digits : List Char) : Nat :=
  digits.foldl (fun acc c => 10 * acc + (c.toNat - '0'.toNat)) 0

/-- `strconv.Atoi`: an optional sign and at least one decimal digit; 0 on a syntax error and
the int64 bound on a range error. -/
def atoi (s : String) : Int :=
  let (negative, digits) : Bool × List Char := match s.data with
    | '-' :: rest => (true, rest)
    | '+' :: rest => (false, rest)
    | cs => (false, cs)
  if digits.isEmpty || !digits.all Char.isDigit then 0
  else if negative then max (-(digitsValue digits : Int)) minInt64
  else min (digitsValue digits : Int) maxInt64

theorem atoi_mem_range (s : String) : minInt64 ≤ atoi s ∧ atoi s ≤ maxInt64 := by
  unfold atoi minInt64 maxInt64
  split
  split_ifs <;> omega

example : atoi "12" = 12 ∧ atoi "-7" = -7 ∧ atoi "1x" = 0 ∧ atoi "" = 0 := by decide

end Vitess.Sqlparser
