import SqlTree.RuleSet.Basic

/-!
# Rule sets — transforming trees

`Node.transform` rebuilds a tree from the leaves up.  The parts of a node are transformed first,
from left to right, and then the rebuilt node is handed to the rule for its kind.  What a rule
returns is not visited again.  The log holds every node as it was handed to a rule.

A part whose place holds nodes of one kind only is checked as soon as it is transformed; the first
failure ends the walk.  The texts of raw fragments are no nodes and are left alone.
-/

namespace SqlTree

namespace Identifier

def transform (rules : RuleSet) (slot : Slot) (id : Identifier) : Transformation Identifier :=
  rules.applyIn slot Node.identifier? (.identifier id)

def transformOption (rules : RuleSet) (slot : Slot) :
    Option Identifier → Transformation (Option Identifier)
  | none => .ok none
  | some id => do
    let id ← id.transform rules slot
    return some id

def transformList (rules : RuleSet) (slot : Slot) :
    List Identifier → Transformation (List Identifier)
  | [] => .ok []
  | id :: ids => do
    let id ← id.transform rules slot
    let ids ← transformList rules slot ids
    return id :: ids

end Identifier

def ColumnReference.transformParts (rules : RuleSet) (c : ColumnReference) :
    Transformation ColumnReference := do
  let table ← Identifier.transformOption rules .columnQualifier c.table
  let column ← c.column.transform rules .columnName
  return ⟨table, column⟩

namespace TableReference

def transformParts (rules : RuleSet) (t : TableReference) : Transformation TableReference := do
  let schema ← Identifier.transformOption rules .tableSchema t.schema
  let name ← t.name.transform rules .tableName
  let aliasName ← Identifier.transformOption rules .tableAlias t.aliasName
  return ⟨schema, name, aliasName⟩

/-- Transforms a table in a place that only holds tables. -/
def transform (rules : RuleSet) (slot : Slot) (t : TableReference) :
    Transformation TableReference := do
  let t ← t.transformParts rules
  rules.applyIn slot Node.tableReference? (.tableReference t)

end TableReference

namespace ColumnDefinition

def transformParts (rules : RuleSet) (c : ColumnDefinition) : Transformation ColumnDefinition := do
  let column ← c.column.transform rules .columnDefinition
  return { c with column }

def transformList (rules : RuleSet) : List ColumnDefinition → Transformation (List ColumnDefinition)
  | [] => .ok []
  | c :: cs => do
    let c ← c.transformParts rules
    let c ← rules.applyIn .columnDefinitions Node.columnDefinition? (.columnDefinition c)
    let cs ← transformList rules cs
    return c :: cs

end ColumnDefinition

def CreateTable.transformParts (rules : RuleSet) (q : CreateTable) :
    Transformation CreateTable := do
  let table ← q.table.transform rules .createTableTarget
  let columns ← ColumnDefinition.transformList rules q.columns
  return { q with table, columns }

def DropTable.transformParts (rules : RuleSet) (q : DropTable) : Transformation DropTable := do
  let table ← q.table.transform rules .dropTableTarget
  return { q with table }

mutual

def Node.transform (rules : RuleSet) : Node → Transformation Node
  | .identifier id => rules.apply (.identifier id)
  | .columnReference c => do
    let c ← c.transformParts rules
    rules.apply (.columnReference c)
  | .tableReference t => do
    let t ← t.transformParts rules
    rules.apply (.tableReference t)
  | .aliased expr name => do
    let expr ← expr.transform rules
    let name ← name.transform rules .expressionAlias
    rules.apply (.aliased expr name)
  | .wildcard table => do
    let table ← Identifier.transformOption rules .wildcardQualifier table
    rules.apply (.wildcard table)
  | .join j => do
    let j ← j.transformParts rules
    rules.apply (.join j)
  | .orderItem item => do
    let item ← item.transformParts rules
    rules.apply (.orderItem item)
  | .binary l op r => do
    let l ← l.transform rules
    let r ← r.transform rules
    rules.apply (.binary l op r)
  | .unary op n => do
    let n ← n.transform rules
    rules.apply (.unary op n)
  | .call function args => do
    let args ← Node.transformList rules args
    rules.apply (.call function args)
  | .valueList items => do
    let items ← Node.transformList rules items
    rules.apply (.valueList items)
  | .columnUpdate u => do
    let u ← u.transformParts rules
    rules.apply (.columnUpdate u)
  | .columnDefinition c => do
    let c ← c.transformParts rules
    rules.apply (.columnDefinition c)
  | .select q => do
    let q ← q.transformParts rules
    rules.apply (.select q)
  | .insert q => do
    let q ← q.transformParts rules
    rules.apply (.insert q)
  | .update q => do
    let q ← q.transformParts rules
    rules.apply (.update q)
  | .delete q => do
    let q ← q.transformParts rules
    rules.apply (.delete q)
  | .createTable q => do
    let q ← q.transformParts rules
    rules.apply (.createTable q)
  | .dropTable q => do
    let q ← q.transformParts rules
    rules.apply (.dropTable q)
  | .rawFragment texts bindings => do
    let bindings ← Node.transformList rules bindings
    rules.apply (.rawFragment texts bindings)
  | .parameter v => rules.apply (.parameter v)

def Node.transformList (rules : RuleSet) : List Node → Transformation (List Node)
  | [] => .ok []
  | n :: ns => do
    let n ← n.transform rules
    let ns ← Node.transformList rules ns
    return n :: ns

def Node.transformOption (rules : RuleSet) : Option Node → Transformation (Option Node)
  | none => .ok none
  | some n => do
    let n ← n.transform rules
    return some n

def Node.transformRows (rules : RuleSet) : List (List Node) → Transformation (List (List Node))
  | [] => .ok []
  | r :: rs => do
    let r ← Node.transformList rules r
    let rs ← Node.transformRows rules rs
    return r :: rs

def Join.transformParts (rules : RuleSet) : Join → Transformation Join
  | ⟨joinType, target, condition⟩ => do
    let target ← target.transform rules
    let condition ← Node.transformOption rules condition
    return ⟨joinType, target, condition⟩

def Join.transformList (rules : RuleSet) : List Join → Transformation (List Join)
  | [] => .ok []
  | j :: js => do
    let j ← j.transformParts rules
    let j ← rules.applyIn .joinList Node.join? (.join j)
    let js ← Join.transformList rules js
    return j :: js

def OrderItem.transformParts (rules : RuleSet) : OrderItem → Transformation OrderItem
  | ⟨expr, direction⟩ => do
    let expr ← expr.transform rules
    return ⟨expr, direction⟩

def OrderItem.transformList (rules : RuleSet) : List OrderItem → Transformation (List OrderItem)
  | [] => .ok []
  | i :: is => do
    let i ← i.transformParts rules
    let i ← rules.applyIn .orderByList Node.orderItem? (.orderItem i)
    let is ← OrderItem.transformList rules is
    return i :: is

def ColumnUpdate.transformParts (rules : RuleSet) : ColumnUpdate → Transformation ColumnUpdate
  | ⟨column, value⟩ => do
    let column ← column.transform rules .updateColumn
    let value ← value.transform rules
    return ⟨column, value⟩

def ColumnUpdate.transformList (rules : RuleSet) :
    List ColumnUpdate → Transformation (List ColumnUpdate)
  | [] => .ok []
  | u :: us => do
    let u ← u.transformParts rules
    let u ← rules.applyIn .updateList Node.columnUpdate? (.columnUpdate u)
    let us ← ColumnUpdate.transformList rules us
    return u :: us

def Select.transformParts (rules : RuleSet) : Select → Transformation Select
  | ⟨distinct, selections, sources, joins, condition, grouping, having, ordering, limit, offset⟩ =>
    do
    let selections ← Node.transformList rules selections
    let sources ← Node.transformList rules sources
    let joins ← Join.transformList rules joins
    let condition ← Node.transformOption rules condition
    let grouping ← Node.transformList rules grouping
    let having ← Node.transformOption rules having
    let ordering ← OrderItem.transformList rules ordering
    let limit ← Node.transformOption rules limit
    let offset ← Node.transformOption rules offset
    return ⟨distinct, selections, sources, joins, condition, grouping, having, ordering, limit,
      offset⟩

def Insert.transformParts (rules : RuleSet) : Insert → Transformation Insert
  | ⟨table, columns, rows, returning⟩ => do
    let table ← table.transform rules .insertTarget
    let columns ← Identifier.transformList rules .insertColumn columns
    let rows ← Node.transformRows rules rows
    let returning ← Node.transformList rules returning
    return ⟨table, columns, rows, returning⟩

def Update.transformParts (rules : RuleSet) : Update → Transformation Update
  | ⟨table, updates, condition, returning⟩ => do
    let table ← table.transform rules .updateTarget
    let updates ← ColumnUpdate.transformList rules updates
    let condition ← Node.transformOption rules condition
    let returning ← Node.transformList rules returning
    return ⟨table, updates, condition, returning⟩

def Delete.transformParts (rules : RuleSet) : Delete → Transformation Delete
  | ⟨table, condition, returning⟩ => do
    let table ← table.transform rules .deleteTarget
    let condition ← Node.transformOption rules condition
    let returning ← Node.transformList rules returning
    return ⟨table, condition, returning⟩

end

/-- The transformed tree. -/
def RuleSet.transform (rules : RuleSet) (n : Node) : Except QueryError Node :=
  (n.transform rules).result

end SqlTree
