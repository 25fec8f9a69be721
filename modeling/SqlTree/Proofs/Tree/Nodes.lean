import SqlTree.Node.Basic

/-!
# Trees — the nodes of a tree

`Node.nodes` lists the nodes of a tree in post-order: the parts of a node from left to right, in the
order of its fields, and behind them the node itself.  What stands in a place for one kind of node
only, such as a name or a table, is a node there like any other.  The texts of raw fragments are
none.
-/

namespace SqlTree

def ColumnReference.parts (c : ColumnReference) : List Node :=
  (c.table.toList ++ [c.column]).map .identifier

def TableReference.parts (t : TableReference) : List Node :=
  (t.schema.toList ++ t.name :: t.aliasName.toList).map .identifier

/-- The nodes of a table in a place that only holds tables. -/
def TableReference.nodes (t : TableReference) : List Node := t.parts ++ [.tableReference t]

/-- The nodes of a column among the columns of a table to be created. -/
def ColumnDefinition.nodes (c : ColumnDefinition) : List Node :=
  [.identifier c.column, .columnDefinition c]

def CreateTable.parts (q : CreateTable) : List Node :=
  q.table.nodes ++ q.columns.flatMap ColumnDefinition.nodes

mutual

/-- The nodes of a tree, its root behind all others. -/
def Node.nodes : Node → List Node
  | .identifier id => [.identifier id]
  | .columnReference c => c.parts ++ [.columnReference c]
  | .tableReference t => t.nodes
  | .aliased expr name => expr.nodes ++ [.identifier name, .aliased expr name]
  | .wildcard table => table.toList.map .identifier ++ [.wildcard table]
  | .join j => j.parts ++ [.join j]
  | .orderItem i => i.parts ++ [.orderItem i]
  | .binary l op r => l.nodes ++ r.nodes ++ [.binary l op r]
  | .unary op n => n.nodes ++ [.unary op n]
  | .call function args => Node.listNodes args ++ [.call function args]
  | .valueList items => Node.listNodes items ++ [.valueList items]
  | .columnUpdate u => u.parts ++ [.columnUpdate u]
  | .columnDefinition c => c.nodes
  | .select q => q.parts ++ [.select q]
  | .insert q => q.parts ++ [.insert q]
  | .update q => q.parts ++ [.update q]
  | .delete q => q.parts ++ [.delete q]
  | .createTable q => q.parts ++ [.createTable q]
  | .dropTable q => q.table.nodes ++ [.dropTable q]
  | .rawFragment texts bindings => Node.listNodes bindings ++ [.rawFragment texts bindings]
  | .parameter v => [.parameter v]

def Node.listNodes : List Node → List Node
  | [] => []
  | n :: ns => n.nodes ++ Node.listNodes ns

def Node.optionNodes : Option Node → List Node
  | none => []
  | some n => n.nodes

def Node.rowNodes : List (List Node) → List Node
  | [] => []
  | r :: rs => Node.listNodes r ++ Node.rowNodes rs

def Join.parts : Join → List Node
  | ⟨_, target, condition⟩ => target.nodes ++ Node.optionNodes condition

def Join.listNodes : List Join → List Node
  | [] => []
  | j :: js => j.parts ++ .join j :: Join.listNodes js

def OrderItem.parts : OrderItem → List Node
  | ⟨expr, _⟩ => expr.nodes

def OrderItem.listNodes : List OrderItem → List Node
  | [] => []
  | i :: is => i.parts ++ .orderItem i :: OrderItem.listNodes is

def ColumnUpdate.parts : ColumnUpdate → List Node
  | ⟨column, value⟩ => .identifier column :: value.nodes

def ColumnUpdate.listNodes : List ColumnUpdate → List Node
  | [] => []
  | u :: us => u.parts ++ .columnUpdate u :: ColumnUpdate.listNodes us

def Select.parts : Select → List Node
  | ⟨_, selections, sources, joins, condition, grouping, having, ordering, limit, offset⟩ =>
    Node.listNodes selections ++ Node.listNodes sources ++ Join.listNodes joins ++
      Node.optionNodes condition ++ Node.listNodes grouping ++ Node.optionNodes having ++
      OrderItem.listNodes ordering ++ Node.optionNodes limit ++ Node.optionNodes offset

def Insert.parts : Insert → List Node
  | ⟨table, columns, rows, returning⟩ =>
    table.nodes ++ columns.map .identifier ++ Node.rowNodes rows ++ Node.listNodes returning

def Update.parts : Update → List Node
  | ⟨table, updates, condition, returning⟩ =>
    table.nodes ++ ColumnUpdate.listNodes updates ++ Node.optionNodes condition ++
      Node.listNodes returning

def Delete.parts : Delete → List Node
  | ⟨table, condition, returning⟩ =>
    table.nodes ++ Node.optionNodes condition ++ Node.listNodes returning

end

end SqlTree
