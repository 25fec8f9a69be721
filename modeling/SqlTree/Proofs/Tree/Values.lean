import Mathlib.Logic.Basic
import SqlTree.Proofs.Tree.Relabel

/-!
# Trees — values

`Node.mapValues` changes the values of the parameters of a tree and nothing else.  Two trees that
differ at most in those values are the same tree once the values are blanked out (`Node.blank`).

Relabelling a tree neither looks at its values nor changes them: it commutes with every change of
the values (`Node.mapValues_relabel`).
-/

namespace SqlTree

section
variable (f : Value → Value)

mutual

/-- The tree with the value of every parameter changed by `f`. -/
def Node.mapValues : Node → Node
  | .identifier id => .identifier id
  | .columnReference c => .columnReference c
  | .tableReference r => .tableReference r
  | .aliased expr name => .aliased expr.mapValues name
  | .wildcard table => .wildcard table
  | .join j => .join j.mapValues
  | .orderItem i => .orderItem i.mapValues
  | .binary l op r => .binary l.mapValues op r.mapValues
  | .unary op n => .unary op n.mapValues
  | .call function args => .call function (Node.mapValuesList args)
  | .valueList items => .valueList (Node.mapValuesList items)
  | .columnUpdate u => .columnUpdate u.mapValues
  | .columnDefinition c => .columnDefinition c
  | .select q => .select q.mapValues
  | .insert q => .insert q.mapValues
  | .update q => .update q.mapValues
  | .delete q => .delete q.mapValues
  | .createTable q => .createTable q
  | .dropTable q => .dropTable q
  | .rawFragment texts bindings => .rawFragment texts (Node.mapValuesList bindings)
  | .parameter v => .parameter (f v)

def Node.mapValuesList : List Node → List Node
  | [] => []
  | n :: ns => n.mapValues :: Node.mapValuesList ns

def Node.mapValuesOption : Option Node → Option Node
  | none => none
  | some n => some n.mapValues

def Node.mapValuesRows : List (List Node) → List (List Node)
  | [] => []
  | r :: rs => Node.mapValuesList r :: Node.mapValuesRows rs

def Join.mapValues : Join → Join
  | ⟨joinType, target, condition⟩ =>
    ⟨joinType, target.mapValues, Node.mapValuesOption condition⟩

def Join.mapValuesList : List Join → List Join
  | [] => []
  | j :: js => j.mapValues :: Join.mapValuesList js

def OrderItem.mapValues : OrderItem → OrderItem
  | ⟨expr, direction⟩ => ⟨expr.mapValues, direction⟩

def OrderItem.mapValuesList : List OrderItem → List OrderItem
  | [] => []
  | i :: is => i.mapValues :: OrderItem.mapValuesList is

def ColumnUpdate.mapValues : ColumnUpdate → ColumnUpdate
  | ⟨column, value⟩ => ⟨column, value.mapValues⟩

def ColumnUpdate.mapValuesList : List ColumnUpdate → List ColumnUpdate
  | [] => []
  | u :: us => u.mapValues :: ColumnUpdate.mapValuesList us

def Select.mapValues : Select → Select
  | ⟨distinct, selections, sources, joins, condition, grouping, having, ordering, limit, offset⟩ =>
    ⟨distinct, Node.mapValuesList selections, Node.mapValuesList sources, Join.mapValuesList joins,
      Node.mapValuesOption condition, Node.mapValuesList grouping, Node.mapValuesOption having,
      OrderItem.mapValuesList ordering, Node.mapValuesOption limit, Node.mapValuesOption offset⟩

def Insert.mapValues : Insert → Insert
  | ⟨table, columns, rows, returning⟩ =>
    ⟨table, columns, Node.mapValuesRows rows, Node.mapValuesList returning⟩

def Update.mapValues : Update → Update
  | ⟨table, updates, condition, returning⟩ =>
    ⟨table, ColumnUpdate.mapValuesList updates, Node.mapValuesOption condition,
      Node.mapValuesList returning⟩

def Delete.mapValues : Delete → Delete
  | ⟨table, condition, returning⟩ =>
    ⟨table, Node.mapValuesOption condition, Node.mapValuesList returning⟩

end

end

/-- The tree without its values; a null stands for each of them. -/
def Node.blank (n : Node) : Node := n.mapValues fun _ => .null

section
variable (f : Value → Value) (g : Identifier → Identifier) (t : TableReference → TableReference)

mutual

/-- Values may be changed before or after names. -/
theorem Node.mapValues_relabel : ∀ n : Node,
    (n.relabel g t).mapValues f = (n.mapValues f).relabel g t
  | .identifier _ | .columnReference _ | .tableReference _ | .wildcard _ => rfl
  | .columnDefinition _ | .createTable _ | .dropTable _ | .parameter _ => rfl
  | .aliased expr name => congrArg (Node.aliased · (g name)) (Node.mapValues_relabel expr)
  | .join j => congrArg Node.join (Join.mapValues_relabel j)
  | .orderItem i => congrArg Node.orderItem (OrderItem.mapValues_relabel i)
  | .binary l op r =>
      congrArg₂ (Node.binary · op ·) (Node.mapValues_relabel l) (Node.mapValues_relabel r)
  | .unary op n => congrArg (Node.unary op) (Node.mapValues_relabel n)
  | .call function args => congrArg (Node.call function) (Node.mapValuesList_relabel args)
  | .valueList items => congrArg Node.valueList (Node.mapValuesList_relabel items)
  | .columnUpdate u => congrArg Node.columnUpdate (ColumnUpdate.mapValues_relabel u)
  | .select q => congrArg Node.select (Select.mapValues_relabel q)
  | .insert q => congrArg Node.insert (Insert.mapValues_relabel q)
  | .update q => congrArg Node.update (Update.mapValues_relabel q)
  | .delete q => congrArg Node.delete (Delete.mapValues_relabel q)
  | .rawFragment texts bindings =>
      congrArg (Node.rawFragment texts) (Node.mapValuesList_relabel bindings)

theorem Node.mapValuesList_relabel : ∀ ns : List Node,
    Node.mapValuesList f (Node.relabelList g t ns) = Node.relabelList g t (Node.mapValuesList f ns)
  | [] => rfl
  | n :: ns => congrArg₂ List.cons (Node.mapValues_relabel n) (Node.mapValuesList_relabel ns)

theorem Node.mapValuesOption_relabel : ∀ n? : Option Node,
    Node.mapValuesOption f (Node.relabelOption g t n?) =
      Node.relabelOption g t (Node.mapValuesOption f n?)
  | none => rfl
  | some n => congrArg some (Node.mapValues_relabel n)

theorem Node.mapValuesRows_relabel : ∀ rs : List (List Node),
    Node.mapValuesRows f (Node.relabelRows g t rs) = Node.relabelRows g t (Node.mapValuesRows f rs)
  | [] => rfl
  | r :: rs => congrArg₂ List.cons (Node.mapValuesList_relabel r) (Node.mapValuesRows_relabel rs)

theorem Join.mapValues_relabel : ∀ j : Join,
    (j.relabel g t).mapValues f = (j.mapValues f).relabel g t
  | ⟨joinType, target, condition⟩ =>
      congrArg₂ (Join.mk joinType) (Node.mapValues_relabel target)
        (Node.mapValuesOption_relabel condition)

theorem Join.mapValuesList_relabel : ∀ js : List Join,
    Join.mapValuesList f (Join.relabelList g t js) = Join.relabelList g t (Join.mapValuesList f js)
  | [] => rfl
  | j :: js => congrArg₂ List.cons (Join.mapValues_relabel j) (Join.mapValuesList_relabel js)

theorem OrderItem.mapValues_relabel : ∀ i : OrderItem,
    (i.relabel g t).mapValues f = (i.mapValues f).relabel g t
  | ⟨expr, direction⟩ => congrArg (OrderItem.mk · direction) (Node.mapValues_relabel expr)

theorem OrderItem.mapValuesList_relabel : ∀ is : List OrderItem,
    OrderItem.mapValuesList f (OrderItem.relabelList g t is) =
      OrderItem.relabelList g t (OrderItem.mapValuesList f is)
  | [] => rfl
  | i :: is =>
      congrArg₂ List.cons (OrderItem.mapValues_relabel i) (OrderItem.mapValuesList_relabel is)

theorem ColumnUpdate.mapValues_relabel : ∀ u : ColumnUpdate,
    (u.relabel g t).mapValues f = (u.mapValues f).relabel g t
  | ⟨column, value⟩ => congrArg (ColumnUpdate.mk (g column)) (Node.mapValues_relabel value)

theorem ColumnUpdate.mapValuesList_relabel : ∀ us : List ColumnUpdate,
    ColumnUpdate.mapValuesList f (ColumnUpdate.relabelList g t us) =
      ColumnUpdate.relabelList g t (ColumnUpdate.mapValuesList f us)
  | [] => rfl
  | u :: us =>
      congrArg₂ List.cons (ColumnUpdate.mapValues_relabel u) (ColumnUpdate.mapValuesList_relabel us)

theorem Select.mapValues_relabel : ∀ q : Select,
    (q.relabel g t).mapValues f = (q.mapValues f).relabel g t
  | ⟨_, selections, sources, joins, condition, grouping, having, ordering, limit, offset⟩ => by
      simp only [Select.relabel, Select.mapValues, Node.mapValuesList_relabel selections,
        Node.mapValuesList_relabel sources, Join.mapValuesList_relabel joins,
        Node.mapValuesOption_relabel condition, Node.mapValuesList_relabel grouping,
        Node.mapValuesOption_relabel having, OrderItem.mapValuesList_relabel ordering,
        Node.mapValuesOption_relabel limit, Node.mapValuesOption_relabel offset]

theorem Insert.mapValues_relabel : ∀ q : Insert,
    (q.relabel g t).mapValues f = (q.mapValues f).relabel g t
  | ⟨_, _, rows, returning⟩ => by
      rw [Insert.relabel, Insert.mapValues, Node.mapValuesRows_relabel rows,
        Node.mapValuesList_relabel returning, Insert.mapValues, Insert.relabel]

theorem Update.mapValues_relabel : ∀ q : Update,
    (q.relabel g t).mapValues f = (q.mapValues f).relabel g t
  | ⟨_, updates, condition, returning⟩ => by
      rw [Update.relabel, Update.mapValues, ColumnUpdate.mapValuesList_relabel updates,
        Node.mapValuesOption_relabel condition, Node.mapValuesList_relabel returning,
        Update.mapValues, Update.relabel]

theorem Delete.mapValues_relabel : ∀ q : Delete,
    (q.relabel g t).mapValues f = (q.mapValues f).relabel g t
  | ⟨_, condition, returning⟩ => by
      rw [Delete.relabel, Delete.mapValues, Node.mapValuesOption_relabel condition,
        Node.mapValuesList_relabel returning, Delete.mapValues, Delete.relabel]

end

end

end SqlTree
