import Mathlib.Data.List.Basic
import Mathlib.Data.List.Flatten
import SqlTree.Error
import SqlTree.Proofs.Tree.Nodes

/-!
# Trees — one level at a time

A node is its children and the rest.  `Node.places` lists the places right below a node, each with
the node that stands there and the slot if the place holds one kind of node only; `Node.shell` is
what is left of the node when every child is taken out.  The two together are the whole node
(`Node.eq_of_shell_of_children`).

What holds of a node as soon as it holds of its children holds of every node
(`Node.places_induction`), whatever shapes the clauses between them have.

`Node.walk` lists the places of a tree in post-order, the root last; the nodes that stand there are
`Node.nodes` (`Node.map_node_walk`).
-/

namespace SqlTree

/-- The kind of the nodes a slot holds. -/
def Slot.kind : Slot → NodeKind
  | columnQualifier | columnName | expressionAlias | wildcardQualifier | updateColumn
  | columnDefinition | insertColumn | tableSchema | tableName | tableAlias => .identifier
  | insertTarget | updateTarget | deleteTarget | createTableTarget | dropTableTarget =>
    .tableReference
  | updateList => .columnUpdate
  | columnDefinitions => .columnDefinition
  | joinList => .join
  | orderByList => .orderItem

/-- A node where it stands: in a slot, or where any node may stand. -/
structure Place where
  slot? : Option Slot
  node : Node

namespace Place

def free (n : Node) : Place := ⟨none, n⟩

def named (slot : Slot) (id : Identifier) : Place := ⟨some slot, .identifier id⟩

def table (slot : Slot) (t : TableReference) : Place := ⟨some slot, .tableReference t⟩

def join (j : Join) : Place := ⟨some .joinList, .join j⟩

def orderItem (i : OrderItem) : Place := ⟨some .orderByList, .orderItem i⟩

def columnUpdate (u : ColumnUpdate) : Place := ⟨some .updateList, .columnUpdate u⟩

def columnDefinition (c : ColumnDefinition) : Place :=
  ⟨some .columnDefinitions, .columnDefinition c⟩

/-- Whether a node may stand in a place. -/
def Accepts (p : Place) (n : Node) : Prop := ∀ slot ∈ p.slot?, n.kind = slot.kind

section
variable (slot : Slot)

@[simp] theorem node_free (n : Node) : (free n).node = n := rfl

@[simp] theorem node_named (id : Identifier) : (named slot id).node = .identifier id := rfl

@[simp] theorem node_table (t : TableReference) : (table slot t).node = .tableReference t := rfl

@[simp] theorem node_join (j : Join) : (join j).node = .join j := rfl

@[simp] theorem node_orderItem (i : OrderItem) : (orderItem i).node = .orderItem i := rfl

@[simp] theorem node_columnUpdate (u : ColumnUpdate) :
    (columnUpdate u).node = .columnUpdate u := rfl

@[simp] theorem node_columnDefinition (c : ColumnDefinition) :
    (columnDefinition c).node = .columnDefinition c := rfl

end

end Place

/-- The places right below a node, in the order of its fields. -/
def Node.places : Node → List Place
  | .identifier _ => []
  | .columnReference c =>
    c.table.toList.map (.named .columnQualifier) ++ [.named .columnName c.column]
  | .tableReference t =>
    t.schema.toList.map (.named .tableSchema) ++ .named .tableName t.name ::
      t.aliasName.toList.map (.named .tableAlias)
  | .aliased expr name => [.free expr, .named .expressionAlias name]
  | .wildcard table => table.toList.map (.named .wildcardQualifier)
  | .join j => .free j.target :: j.condition.toList.map .free
  | .orderItem i => [.free i.expr]
  | .binary l _ r => [.free l, .free r]
  | .unary _ n => [.free n]
  | .call _ args => args.map .free
  | .valueList items => items.map .free
  | .columnUpdate u => [.named .updateColumn u.column, .free u.value]
  | .columnDefinition c => [.named .columnDefinition c.column]
  | .select q =>
    q.selections.map .free ++ q.sources.map .free ++ q.joins.map .join ++
      q.condition.toList.map .free ++ q.grouping.map .free ++ q.having.toList.map .free ++
      q.ordering.map .orderItem ++ q.limit.toList.map .free ++ q.offset.toList.map .free
  | .insert q =>
    .table .insertTarget q.table :: q.columns.map (.named .insertColumn) ++
      q.rows.flatten.map .free ++ q.returning.map .free
  | .update q =>
    .table .updateTarget q.table :: q.updates.map .columnUpdate ++ q.condition.toList.map .free ++
      q.returning.map .free
  | .delete q =>
    .table .deleteTarget q.table :: q.condition.toList.map .free ++ q.returning.map .free
  | .createTable q => .table .createTableTarget q.table :: q.columns.map .columnDefinition
  | .dropTable q => [.table .dropTableTarget q.table]
  | .rawFragment _ bindings => bindings.map .free
  | .parameter _ => []

/-- The nodes right below a node. -/
def Node.children (n : Node) : List Node := n.places.map Place.node

/-- What stands in a tree may stand there. -/
theorem Node.accepts_of_mem_places {n : Node} : ∀ p ∈ n.places, p.Accepts p.node := by
  cases n <;>
    simp only [places, List.forall_mem_append, List.forall_mem_cons, List.forall_mem_map]
  all_goals
    simp [Place.Accepts, Place.free, Place.named, Place.table, Place.join, Place.orderItem,
      Place.columnUpdate, Place.columnDefinition, Node.kind, Slot.kind]

/-! ### Post-order -/

section

theorem Node.listNodes_eq (ns : List Node) : Node.listNodes ns = ns.flatMap Node.nodes := by
  induction ns with
  | nil => rfl
  | cons n ns ih => rw [Node.listNodes, List.flatMap_cons, ih]

theorem Node.optionNodes_eq (n? : Option Node) :
    Node.optionNodes n? = n?.toList.flatMap Node.nodes := by
  cases n? with
  | none => rfl
  | some n => exact (List.append_nil _).symm

theorem Node.rowNodes_eq (rs : List (List Node)) :
    Node.rowNodes rs = rs.flatten.flatMap Node.nodes := by
  induction rs with
  | nil => rfl
  | cons r rs ih => rw [Node.rowNodes, List.flatten_cons, List.flatMap_append, ih, listNodes_eq]

theorem Join.listNodes_eq (js : List Join) :
    Join.listNodes js = js.flatMap fun j => j.parts ++ [.join j] := by
  induction js with
  | nil => rfl
  | cons j js ih => simp [Join.listNodes, ih]

theorem OrderItem.listNodes_eq (is : List OrderItem) :
    OrderItem.listNodes is = is.flatMap fun i => i.parts ++ [.orderItem i] := by
  induction is with
  | nil => rfl
  | cons i is ih => simp [OrderItem.listNodes, ih]

theorem ColumnUpdate.listNodes_eq (us : List ColumnUpdate) :
    ColumnUpdate.listNodes us = us.flatMap fun u => u.parts ++ [.columnUpdate u] := by
  induction us with
  | nil => rfl
  | cons u us ih => simp [ColumnUpdate.listNodes, ih]

attribute [local simp] Node.nodes Node.places Node.listNodes_eq Node.optionNodes_eq
  Node.rowNodes_eq Join.listNodes_eq OrderItem.listNodes_eq ColumnUpdate.listNodes_eq
  TableReference.nodes TableReference.parts ColumnReference.parts Join.parts OrderItem.parts
  ColumnUpdate.parts ColumnDefinition.nodes CreateTable.parts Select.parts Insert.parts
  Update.parts Delete.parts List.flatMap_map

/-- The nodes of a tree are those below its root, and behind them the root. -/
theorem Node.nodes_eq (n : Node) : n.nodes = (n.places.flatMap fun p => p.node.nodes) ++ [n] := by
  cases n with
  | join j => cases j; simp
  | orderItem i => cases i; simp
  | columnUpdate u => cases u; simp
  | select q => cases q; simp
  | insert q => cases q; simp [← List.map_eq_flatMap, -List.map_flatten]
  | update q => cases q; simp
  | delete q => cases q; simp
  | createTable q => simp [funext ColumnDefinition.nodes.eq_1]
  | _ => simp [← List.map_eq_flatMap]

end

theorem Node.length_nodes_lt {n : Node} {p : Place} (h : p ∈ n.places) :
    p.node.nodes.length < n.nodes.length := by
  have hsub : (List.flatMap (fun q => q.node.nodes) [p]).Sublist
      (n.places.flatMap fun q => q.node.nodes) :=
    (List.singleton_sublist.2 h).flatMap _
  rw [List.flatMap_singleton] at hsub
  rw [Node.nodes_eq n, List.length_append]
  exact Nat.lt_succ_of_le hsub.length_le

/-- Induction on trees: what passes from the children of a node to the node holds of every node. -/
@[elab_as_elim]
theorem Node.places_induction {P : Node → Prop}
    (step : ∀ n : Node, (∀ p ∈ n.places, P p.node) → P n) (n : Node) : P n :=
  step n fun p _ => Node.places_induction step p.node
termination_by n.nodes.length
decreasing_by exact Node.length_nodes_lt ‹_›

theorem Node.mem_nodes_self (n : Node) : n ∈ n.nodes := by
  rw [nodes_eq]
  exact List.mem_append_right _ List.mem_cons_self

theorem Node.nodes_subset_of_mem_places {n : Node} {p : Place} (hp : p ∈ n.places) :
    p.node.nodes ⊆ n.nodes := by
  intro m hm
  rw [nodes_eq n]
  exact List.mem_append_left _ (List.mem_flatMap_of_mem hp hm)

/-- The nodes of a node of a tree are nodes of the tree. -/
theorem Node.nodes_subset {m n : Node} (h : m ∈ n.nodes) : m.nodes ⊆ n.nodes := by
  induction n using Node.places_induction with
  | step n ih =>
    rw [nodes_eq n, List.mem_append, List.mem_flatMap, List.mem_singleton] at h
    rcases h with ⟨p, hp, hm⟩ | rfl
    · exact List.Subset.trans (ih p hp hm) (nodes_subset_of_mem_places hp)
    · exact List.Subset.refl _

/-- The places below a place in post-order, and behind them the place itself. -/
def Place.walk (p : Place) : List Place :=
  (p.node.places.attach.flatMap fun q => q.1.walk) ++ [p]
termination_by p.node.nodes.length
decreasing_by exact Node.length_nodes_lt q.2

/-- The places of a tree in post-order, the root last. -/
def Node.walk (n : Node) : List Place := (Place.free n).walk

theorem Place.walk_eq (p : Place) : p.walk = p.node.places.flatMap walk ++ [p] := by
  rw [walk, List.flatMap_subtype fun _ _ => rfl, List.unattach_attach]

theorem Place.map_node_walk (p : Place) : p.walk.map node = p.node.nodes := by
  obtain ⟨slot?, n⟩ := p
  induction n using Node.places_induction generalizing slot? with
  | step n ih =>
    rw [walk_eq, Node.nodes_eq, List.map_append, List.map_flatMap]
    congr 1
    exact List.flatMap_congr fun p hp => ih p hp p.slot?

theorem Node.map_node_walk (n : Node) : n.walk.map Place.node = n.nodes :=
  Place.map_node_walk (.free n)

theorem Place.accepts_of_mem_walk {p : Place} (hp : p.Accepts p.node) :
    ∀ q ∈ p.walk, q.Accepts q.node := by
  obtain ⟨slot?, n⟩ := p
  induction n using Node.places_induction generalizing slot? with
  | step n ih =>
    intro q hq
    rw [walk_eq, List.mem_append, List.mem_flatMap, List.mem_singleton] at hq
    rcases hq with ⟨p, hp', hq⟩ | rfl
    · exact ih p hp' p.slot? (Node.accepts_of_mem_places p hp') q hq
    · exact hp

theorem Node.accepts_of_mem_walk {n : Node} : ∀ p ∈ n.walk, p.Accepts p.node :=
  Place.accepts_of_mem_walk nofun

/-! ### Shells -/

instance : Inhabited Join := ⟨⟨default, default, none⟩⟩

instance : Inhabited OrderItem := ⟨⟨default, default⟩⟩

instance : Inhabited ColumnUpdate := ⟨⟨default, default⟩⟩

/-- What stands in a shell in the place of a child. -/
def blank {α : Type} [Inhabited α] (_ : α) : α := default

/-- The node with a blank for every child.  Its kind is kept, and with it operators, directions,
types, flags, values and texts, and how many children each clause and each row has. -/
def Node.shell : Node → Node
  | .identifier id => .identifier id
  | .columnReference c => .columnReference ⟨c.table.map blank, default⟩
  | .tableReference t => .tableReference ⟨t.schema.map blank, default, t.aliasName.map blank⟩
  | .aliased _ _ => .aliased default default
  | .wildcard table => .wildcard (table.map blank)
  | .join j => .join ⟨j.joinType, default, j.condition.map blank⟩
  | .orderItem i => .orderItem ⟨default, i.direction⟩
  | .binary _ op _ => .binary default op default
  | .unary op _ => .unary op default
  | .call function args => .call function (args.map blank)
  | .valueList items => .valueList (items.map blank)
  | .columnUpdate _ => .columnUpdate default
  | .columnDefinition c => .columnDefinition { c with column := default }
  | .select q =>
    .select ⟨q.distinct, q.selections.map blank, q.sources.map blank, q.joins.map blank,
      q.condition.map blank, q.grouping.map blank, q.having.map blank, q.ordering.map blank,
      q.limit.map blank, q.offset.map blank⟩
  | .insert q =>
    .insert ⟨default, q.columns.map blank, q.rows.map (List.map blank), q.returning.map blank⟩
  | .update q =>
    .update ⟨default, q.updates.map blank, q.condition.map blank, q.returning.map blank⟩
  | .delete q => .delete ⟨default, q.condition.map blank, q.returning.map blank⟩
  | .createTable q => .createTable { q with table := default, columns := q.columns.map blank }
  | .dropTable q => .dropTable { q with table := default }
  | .rawFragment texts bindings => .rawFragment texts (bindings.map blank)
  | .parameter v => .parameter v

@[simp] theorem Node.kind_shell (n : Node) : n.shell.kind = n.kind := by cases n <;> rfl

theorem Node.kind_eq_of_shell {n m : Node} (h : n.shell = m.shell) : n.kind = m.kind := by
  rw [← n.kind_shell, h, m.kind_shell]

section
variable {α : Type} [Inhabited α]

theorem blank_eq : (blank : α → α) = fun _ => default := rfl

/-- Blanks only tell how many there are. -/
theorem map_blank_eq_iff {xs ys : List α} :
    xs.map blank = ys.map blank ↔ xs.length = ys.length := by
  rw [blank_eq, List.map_const', List.map_const', List.replicate_inj]
  simp

theorem optionMap_blank_eq_iff {x? y? : Option α} :
    x?.map blank = y?.map blank ↔ x?.toList.length = y?.toList.length := by
  cases x? <;> cases y? <;> simp [blank]

theorem map_length_of_rowBlanks {rs qs : List (List α)}
    (h : rs.map (List.map blank) = qs.map (List.map blank)) :
    rs.map List.length = qs.map List.length := by
  simpa [Function.comp_def] using congrArg (List.map List.length) h

end

theorem toList_eq_iff {α : Type} {x? y? : Option α} : x?.toList = y?.toList ↔ x? = y? := by
  cases x? <;> cases y? <;> simp

/-- Clauses of the same lengths, one behind the other, can be told apart. -/
theorem append_eq_iff_of_length {α : Type} {xs xs' ys ys' : List α} (h : xs.length = xs'.length) :
    xs ++ ys = xs' ++ ys' ↔ xs = xs' ∧ ys = ys' :=
  ⟨fun e => List.append_inj e h, fun e => by rw [e.1, e.2]⟩

section
attribute [local simp] Node.children Node.places Function.comp_def map_blank_eq_iff
  optionMap_blank_eq_iff toList_eq_iff append_eq_iff_of_length List.map_inj_right

/-- A node is its shell and its children. -/
theorem Node.eq_of_shell_of_children {n m : Node} (hs : n.shell = m.shell)
    (hc : n.children = m.children) : n = m := by
  cases n <;> cases m <;> simp only [Node.shell, reduceCtorEq] at hs
  all_goals simp [-List.map_flatten] at hs hc
  case columnReference.columnReference c c' =>
    cases c
    cases c'
    simp_all
  case tableReference.tableReference t t' =>
    cases t
    cases t'
    simp_all
  case wildcard.wildcard table table' =>
    simp_all
  case join.join j j' =>
    cases j
    cases j'
    simp_all
  case orderItem.orderItem i i' =>
    cases i
    cases i'
    simp_all
  case columnUpdate.columnUpdate u u' =>
    cases u
    cases u'
    simp_all
  case columnDefinition.columnDefinition c c' =>
    cases c
    cases c'
    simp_all
  case select.select q q' =>
    cases q
    cases q'
    simp_all
  case insert.insert q q' =>
    cases q
    cases q'
    have hrows := map_length_of_rowBlanks hs.2.1
    simp_all [List.eq_iff_flatten_eq]
  case update.update q q' =>
    cases q
    cases q'
    simp_all
  case delete.delete q q' =>
    cases q
    cases q'
    simp_all
  case createTable.createTable q q' =>
    cases q
    cases q'
    simp_all
  case dropTable.dropTable q q' =>
    cases q
    cases q'
    simp_all
  all_goals simp_all

end

end SqlTree
