import SqlTree.Proofs.Tree.Places
import SqlTree.Proofs.Tree.Relabel

/-!
# Trees — the identifiers and tables of a relabelled tree

Relabelling acts on every node where it stands.  A relabelled tree has its tables in the order of
the original ones, each with its names changed and then changed itself (`Node.tables_relabel`), and
where only names are changed it has the relabelled nodes in the order of the original ones
(`Node.nodes_relabel_id`).  Two relabellings are one where they are one for a name and for a table
(`Node.relabel_relabel`); so changes of names compose, and so do changes of tables.  A change of
names only depends on what it does to the identifiers of the tree (`Node.relabel_congr`).

A table may get parts that it did not have, such as a schema, so the places of a table are known
only where tables are left alone.
-/

namespace SqlTree

/-- The identifiers of a tree, those in places for them and those in any other place. -/
def Node.identifiers (n : Node) : List Identifier := n.nodes.filterMap Node.identifier?

/-- The tables of a tree, those in places for tables and those in any other place. -/
def Node.tables (n : Node) : List TableReference := n.nodes.filterMap Node.tableReference?

theorem Node.eq_of_identifier? {n : Node} {i : Identifier} (h : n.identifier? = some i) :
    n = .identifier i := by
  cases n with
  | identifier j => exact congrArg _ (Option.some.inj h)
  | _ => cases h

theorem Node.eq_of_tableReference? {n : Node} {r : TableReference}
    (h : n.tableReference? = some r) : n = .tableReference r := by
  cases n with
  | tableReference r' => exact congrArg _ (Option.some.inj h)
  | _ => cases h

/-- A table whose names are left alone. -/
theorem TableReference.relabel_id (t : TableReference → TableReference) :
    TableReference.relabel id t = t := by
  funext r
  simp [relabel]

section
variable (g : Identifier → Identifier) (t : TableReference → TableReference)

/-- The place with what stands in it relabelled. -/
def Place.relabel (p : Place) : Place := ⟨p.slot?, p.node.relabel g t⟩

theorem Node.relabelList_eq (ns : List Node) :
    Node.relabelList g t ns = ns.map (Node.relabel g t) := by
  induction ns with
  | nil => rfl
  | cons n ns ih => rw [Node.relabelList, List.map_cons, ih]

theorem Node.relabelOption_eq (n? : Option Node) :
    Node.relabelOption g t n? = n?.map (Node.relabel g t) := by
  cases n? <;> rfl

theorem Node.relabelRows_eq (rs : List (List Node)) :
    Node.relabelRows g t rs = rs.map (List.map (Node.relabel g t)) := by
  induction rs with
  | nil => rfl
  | cons r rs ih => rw [Node.relabelRows, List.map_cons, ih, relabelList_eq]

theorem Join.relabelList_eq (js : List Join) :
    Join.relabelList g t js = js.map (Join.relabel g t) := by
  induction js with
  | nil => rfl
  | cons j js ih => rw [Join.relabelList, List.map_cons, ih]

theorem OrderItem.relabelList_eq (is : List OrderItem) :
    OrderItem.relabelList g t is = is.map (OrderItem.relabel g t) := by
  induction is with
  | nil => rfl
  | cons i is ih => rw [OrderItem.relabelList, List.map_cons, ih]

theorem ColumnUpdate.relabelList_eq (us : List ColumnUpdate) :
    ColumnUpdate.relabelList g t us = us.map (ColumnUpdate.relabel g t) := by
  induction us with
  | nil => rfl
  | cons u us ih => rw [ColumnUpdate.relabelList, List.map_cons, ih]

section
attribute [local simp] Node.places Node.shell blank_eq Node.relabel Place.relabel
  Node.relabelList_eq Node.relabelOption_eq Node.relabelRows_eq Join.relabelList_eq
  OrderItem.relabelList_eq ColumnUpdate.relabelList_eq ColumnReference.relabel
  TableReference.relabel CreateTable.relabel DropTable.relabel ColumnDefinition.relabel Place.free
  Place.named Place.table Place.join Place.orderItem Place.columnUpdate Place.columnDefinition
  Function.comp_def Option.toList_map

/-- Below a relabelled node that is no table stands what stood there, relabelled. -/
theorem Node.places_relabel {n : Node} (h : n.tableReference? = none) :
    (n.relabel g t).places = n.places.map (Place.relabel g t) := by
  cases n with
  | tableReference r => cases h
  | join j => cases j; simp [Join.relabel]
  | orderItem i => cases i; simp [OrderItem.relabel]
  | columnUpdate u => cases u; simp [ColumnUpdate.relabel]
  | select q => cases q; simp [Select.relabel]
  | insert q => cases q; simp [Insert.relabel]
  | update q => cases q; simp [Update.relabel]
  | delete q => cases q; simp [Delete.relabel]
  | _ => simp

/-- Where tables are left alone, the same holds below a table. -/
theorem Node.places_relabel_id (n : Node) :
    (n.relabel g id).places = n.places.map (Place.relabel g id) := by
  cases n with
  | tableReference r => simp
  | _ => exact places_relabel g id rfl

/-- The names and tables of a node stand below it, unless the node is one itself. -/
theorem Node.shell_relabel {n : Node} (hi : n.identifier? = none) (ht : n.tableReference? = none) :
    (n.relabel g t).shell = n.shell := by
  cases n with
  | identifier id => cases hi
  | tableReference r => cases ht
  | join j => cases j; simp [Join.relabel]
  | orderItem i => cases i; simp [OrderItem.relabel]
  | columnUpdate u => cases u; simp [ColumnUpdate.relabel]
  | select q => cases q; simp [Select.relabel]
  | insert q => cases q; simp [Insert.relabel]
  | update q => cases q; simp [Update.relabel]
  | delete q => cases q; simp [Delete.relabel]
  | _ => simp

end

/-- The nodes of a tree with its names changed are the nodes with their names changed. -/
theorem Node.nodes_relabel_id (n : Node) :
    (n.relabel g id).nodes = n.nodes.map (Node.relabel g id) := by
  induction n using Node.places_induction with
  | step n ih =>
    have hparts : ((n.relabel g id).places.flatMap fun p => p.node.nodes) =
        (n.places.flatMap fun p => p.node.nodes).map (Node.relabel g id) := by
      rw [places_relabel_id, List.flatMap_map, List.map_flatMap]
      exact List.flatMap_congr fun p hp => ih p hp
    rw [nodes_eq, nodes_eq n, hparts, List.map_append, List.map_singleton]

theorem Node.identifier?_relabel (n : Node) :
    (n.relabel g t).identifier? = n.identifier?.map g := by
  cases n <;> rfl

theorem Node.tableReference?_relabel (n : Node) :
    (n.relabel g t).tableReference? = n.tableReference?.map (TableReference.relabel g t) := by
  cases n <;> rfl

theorem Node.children_relabel {n : Node} (h : n.tableReference? = none) :
    (n.relabel g t).children = n.children.map (Node.relabel g t) := by
  rw [children, children, places_relabel g t h, List.map_map, List.map_map]
  rfl

/-- A change of trees is a relabelling if it is one where a name or a table stands alone, and keeps
the shell of every other node and acts on its children. -/
theorem Node.eq_relabel {F : Node → Node} (hname : ∀ i, F (.identifier i) = .identifier (g i))
    (htable : ∀ r, F (.tableReference r) = .tableReference (r.relabel g t))
    (hshell : ∀ n : Node, n.identifier? = none → n.tableReference? = none → (F n).shell = n.shell)
    (hchildren : ∀ n : Node, n.identifier? = none → n.tableReference? = none →
      (F n).children = n.children.map F) (n : Node) : F n = n.relabel g t := by
  induction n using Node.places_induction with
  | step n ih =>
    cases hi : n.identifier? with
    | some i =>
      obtain rfl := eq_of_identifier? hi
      exact hname i
    | none =>
      cases ht : n.tableReference? with
      | some r =>
        obtain rfl := eq_of_tableReference? ht
        exact htable r
      | none =>
        apply eq_of_shell_of_children
        · rw [hshell n hi ht, shell_relabel g t hi ht]
        · rw [hchildren n hi ht, children_relabel g t ht]
          refine List.map_congr_left fun m hm => ?_
          obtain ⟨p, hp, rfl⟩ := List.mem_map.1 hm
          exact ih p hp

theorem Node.relabel_id_id (n : Node) : n.relabel id id = n := by
  refine (eq_relabel id id (F := id) (fun _ => rfl) (fun r => ?_) (fun _ _ _ => rfl)
    (fun n _ _ => (List.map_id n.children).symm) n).symm
  rw [TableReference.relabel_id]
  rfl

section
variable {g t} {g' h : Identifier → Identifier} {t' u : TableReference → TableReference}

/-- Relabelling twice is relabelling once, if it is so for a name and for a table. -/
theorem Node.relabel_relabel (hname : ∀ i, g' (g i) = h i)
    (htable : ∀ r : TableReference, (r.relabel g t).relabel g' t' = r.relabel h u) (n : Node) :
    (n.relabel g t).relabel g' t' = n.relabel h u := by
  refine eq_relabel h u (F := fun n => (n.relabel g t).relabel g' t')
    (fun i => congrArg identifier (hname i)) (fun r => congrArg tableReference (htable r)) ?_ ?_ n
  · intro n hi ht
    have hi' : (n.relabel g t).identifier? = none := by rw [identifier?_relabel, hi]; rfl
    have ht' : (n.relabel g t).tableReference? = none := by rw [tableReference?_relabel, ht]; rfl
    rw [shell_relabel g' t' hi' ht', shell_relabel g t hi ht]
  · intro n _ ht
    have ht' : (n.relabel g t).tableReference? = none := by rw [tableReference?_relabel, ht]; rfl
    rw [children_relabel g' t' ht', children_relabel g t ht, List.map_map]
    rfl

/-- Changing the names of a tree twice is changing them once. -/
theorem Node.relabel_relabel_id (g' : Identifier → Identifier) (n : Node) :
    (n.relabel g id).relabel g' id = n.relabel (g' ∘ g) id := by
  apply relabel_relabel
  · exact fun _ => rfl
  · exact fun r => by simp [TableReference.relabel]

/-- Changing the tables of a tree twice is changing them once. -/
theorem Node.relabel_id_relabel (t' : TableReference → TableReference) (n : Node) :
    (n.relabel id t).relabel id t' = n.relabel id (t' ∘ t) := by
  apply relabel_relabel
  · exact fun _ => rfl
  · exact fun r => by simp only [TableReference.relabel_id, Function.comp_apply]

/-- Names are changed first, and then the tables that have them. -/
theorem Node.relabel_names_tables (n : Node) : (n.relabel g id).relabel id t = n.relabel g t := by
  apply relabel_relabel
  · exact fun _ => rfl
  · exact fun r => by rw [TableReference.relabel_id]; rfl

end

/-! ### Identifiers and tables -/

/-- The identifiers of a tree with its names changed are its identifiers changed. -/
theorem Node.identifiers_relabel_id (n : Node) :
    (n.relabel g id).identifiers = n.identifiers.map g := by
  rw [identifiers, identifiers, nodes_relabel_id, List.filterMap_map, List.map_filterMap]
  exact List.filterMap_congr fun m _ => identifier?_relabel g id m

theorem Node.identifiers_tableReference (r : TableReference) :
    (tableReference r).identifiers = r.schema.toList ++ r.name :: r.aliasName.toList := by
  simp [identifiers, nodes, TableReference.nodes, TableReference.parts, List.filterMap_map,
    Function.comp_def, identifier?]

theorem Node.mem_identifiers_of_mem_places {n : Node} {p : Place} (hp : p ∈ n.places)
    {i : Identifier} (hi : i ∈ p.node.identifiers) : i ∈ n.identifiers := by
  obtain ⟨m, hm, hmi⟩ := List.mem_filterMap.1 hi
  exact List.mem_filterMap.2 ⟨m, nodes_subset_of_mem_places hp hm, hmi⟩

/-- Two changes of names are the same for a tree if they are for its identifiers. -/
theorem Node.relabel_congr {g' : Identifier → Identifier} {n : Node}
    (h : ∀ i ∈ n.identifiers, g i = g' i) : n.relabel g t = n.relabel g' t := by
  induction n using Node.places_induction with
  | step n ih =>
    cases hi : n.identifier? with
    | some i =>
      obtain rfl := eq_of_identifier? hi
      exact congrArg identifier (h i (List.mem_singleton_self i))
    | none =>
      cases ht : n.tableReference? with
      | some r =>
        obtain rfl := eq_of_tableReference? ht
        rw [identifiers_tableReference, List.forall_mem_append, List.forall_mem_cons] at h
        obtain ⟨hschema, hname, halias⟩ := h
        have hs : r.schema.map g = r.schema.map g' :=
          Option.map_congr fun i hi => hschema i (Option.mem_toList.2 hi)
        have ha : r.aliasName.map g = r.aliasName.map g' :=
          Option.map_congr fun i hi => halias i (Option.mem_toList.2 hi)
        rw [relabel, relabel, TableReference.relabel, TableReference.relabel, hs, hname, ha]
      | none =>
        apply eq_of_shell_of_children
        · rw [shell_relabel g t hi ht, shell_relabel g' t hi ht]
        · rw [children_relabel g t ht, children_relabel g' t ht]
          refine List.map_congr_left fun m hm => ?_
          obtain ⟨p, hp, rfl⟩ := List.mem_map.1 hm
          exact ih p hp fun i hi => h i (mem_identifiers_of_mem_places hp hi)

theorem Node.tables_tableReference (r : TableReference) : (tableReference r).tables = [r] := by
  have hparts : r.parts.filterMap Node.tableReference? = [] := by
    rw [TableReference.parts, List.filterMap_map]
    exact List.filterMap_eq_nil_iff.2 fun _ _ => rfl
  rw [tables, nodes, TableReference.nodes, List.filterMap_append, hparts]
  rfl

theorem Node.tables_eq {n : Node} (h : n.tableReference? = none) :
    n.tables = n.places.flatMap fun p => p.node.tables := by
  rw [tables, nodes_eq, List.filterMap_append, List.filterMap_flatMap,
    List.filterMap_cons_none h, List.filterMap_nil, List.append_nil]
  rfl

/-- The tables of a relabelled tree are its tables relabelled, at any depth and in any clause. -/
theorem Node.tables_relabel (n : Node) :
    (n.relabel g t).tables = n.tables.map (TableReference.relabel g t) := by
  induction n using Node.places_induction with
  | step n ih =>
    cases h : n.tableReference? with
    | some r =>
      obtain rfl := eq_of_tableReference? h
      rw [relabel, tables_tableReference, tables_tableReference, List.map_singleton]
    | none =>
      have h' : (n.relabel g t).tableReference? = none := by rw [tableReference?_relabel, h]; rfl
      rw [tables_eq h, tables_eq h', places_relabel g t h, List.flatMap_map, List.map_flatMap]
      exact List.flatMap_congr fun p hp => ih p hp

end

end SqlTree
