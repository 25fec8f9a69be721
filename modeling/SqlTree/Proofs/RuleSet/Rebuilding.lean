import SqlTree.Proofs.Traced
import SqlTree.Proofs.Tree.Places
import SqlTree.RuleSet.Transform

/-!
# Rule sets — rebuilding a node

`Node.transform` treats every clause of every kind of node by itself.  Seen one level at a time it
does the same for all of them: it transforms the places below the node from left to right
(`Place.transformList`), puts what it gets into the shell of the node, and hands the node over
(`Node.exists_rebuilds`).  A place is transformed by transforming the node that stands there and
checking that the result may stand there as well (`Place.transform`).
-/

namespace SqlTree

/-! ### Transforming places -/

namespace Place
variable (rules : RuleSet)

/-- What comes back from a rule, if it may stand in the place. -/
def accept (p : Place) (n : Node) : Transformation Node :=
  match p.slot? with
  | none => .ok n
  | some slot => if n.kind = slot.kind then .ok n else .fail (.unsupportedNodeKind n.kind slot)

/-- What comes to stand in a place. -/
def transform (p : Place) : Transformation Node := do
  let n ← p.node.transform rules
  p.accept n

def transformList : List Place → Transformation (List Node)
  | [] => .ok []
  | p :: ps => do
    let n ← p.transform rules
    let ns ← transformList ps
    return n :: ns

@[simp] theorem transformList_nil : transformList rules [] = .ok [] := rfl

@[simp] theorem transformList_cons (p : Place) (ps : List Place) :
    transformList rules (p :: ps) = do
      let n ← p.transform rules
      let ns ← transformList rules ps
      return n :: ns := rfl

@[simp] theorem transformList_append (ps qs : List Place) :
    transformList rules (ps ++ qs) = do
      let ns ← transformList rules ps
      let ms ← transformList rules qs
      return ns ++ ms := by
  induction ps with
  | nil => simp
  | cons p ps ih => simp [ih]

@[simp] theorem transform_free (n : Node) : (free n).transform rules = n.transform rules :=
  bind_pure _

variable {rules} in
theorem length_of_transformList : ∀ {ps : List Place},
    (transformList rules ps).Ensures fun ns => ns.length = ps.length
  | [] => Traced.ensures_ok rfl
  | _ :: _ =>
      Traced.ensures_bind fun _ => length_of_transformList.bind fun _ h =>
        Traced.ensures_ok (congrArg Nat.succ h)

end Place

/-! ### Slots

`RuleSet.applyIn` reads a node back as what a slot holds.  As a node it is what `Place.accept` lets
through.
-/

/-- `get?` gets back what `f` makes a node of, and from no other node of the kind of the slot. -/
structure Slot.Reads {α : Type} (slot : Slot) (get? : Node → Option α) (f : α → Node) : Prop where
  eq_some (n : Node) (a : α) : get? n = some a ↔ n = f a
  eq_none (n : Node) : get? n = none ↔ n.kind ≠ slot.kind

namespace Slot

theorem reads_identifier {slot : Slot} (hs : slot.kind = .identifier) :
    slot.Reads Node.identifier? .identifier where
  eq_some n id := by cases n <;> simp [Node.identifier?]
  eq_none n := by cases n <;> simp [Node.identifier?, Node.kind, hs]

theorem reads_tableReference {slot : Slot} (hs : slot.kind = .tableReference) :
    slot.Reads Node.tableReference? .tableReference where
  eq_some n t := by cases n <;> simp [Node.tableReference?]
  eq_none n := by cases n <;> simp [Node.tableReference?, Node.kind, hs]

theorem reads_join : joinList.Reads Node.join? .join where
  eq_some n j := by cases n <;> simp [Node.join?]
  eq_none n := by cases n <;> simp [Node.join?, Node.kind, kind]

theorem reads_orderItem : orderByList.Reads Node.orderItem? .orderItem where
  eq_some n i := by cases n <;> simp [Node.orderItem?]
  eq_none n := by cases n <;> simp [Node.orderItem?, Node.kind, kind]

theorem reads_columnUpdate : updateList.Reads Node.columnUpdate? .columnUpdate where
  eq_some n u := by cases n <;> simp [Node.columnUpdate?]
  eq_none n := by cases n <;> simp [Node.columnUpdate?, Node.kind, kind]

theorem reads_columnDefinition :
    columnDefinitions.Reads Node.columnDefinition? .columnDefinition where
  eq_some n c := by cases n <;> simp [Node.columnDefinition?]
  eq_none n := by cases n <;> simp [Node.columnDefinition?, Node.kind, kind]

end Slot

section
variable {rules : RuleSet} {α : Type} {slot : Slot} {get? : Node → Option α} {f : α → Node}

theorem RuleSet.map_applyIn (h : slot.Reads get? f) (n m : Node) :
    f <$> rules.applyIn slot get? n = rules.apply n >>= Place.accept ⟨some slot, m⟩ := by
  rw [applyIn, map_bind]
  congr
  funext r
  rw [Place.accept]
  cases hr : get? r with
  | none =>
    have hk : r.kind ≠ slot.kind := (h.eq_none r).1 hr
    simp only [if_neg hk]
    rfl
  | some a =>
    obtain rfl : r = f a := (h.eq_some r a).1 hr
    have hk : (f a).kind = slot.kind := by
      by_contra hne
      rw [(h.eq_none _).2 hne] at hr
      cases hr
    simp only [if_pos hk]
    rfl

/-- What is transformed in a slot is rebuilt, handed over and read back. -/
theorem Place.transform_slot (h : slot.Reads get? f) {parts : Transformation α} {n : Node}
    (hn : n.transform rules = parts >>= fun a => rules.apply (f a)) :
    Place.transform rules ⟨some slot, n⟩ = f <$> (do
      let a ← parts
      rules.applyIn slot get? (f a)) := by
  rw [map_bind, Place.transform, hn]
  simp only [RuleSet.map_applyIn h _ n]
  exact bind_assoc _ _ _

variable {p : α → Place} {t : α → Transformation α}
  (h : ∀ x, (p x).transform rules = f <$> t x)
include h

/-- A list that is transformed item by item, as a list of places. -/
theorem Place.transformList_map (l : List α → Transformation (List α)) (nil : l [] = .ok [])
    (cons : ∀ x xs, l (x :: xs) = do
      let x ← t x
      let xs ← l xs
      return x :: xs) (xs : List α) :
    transformList rules (xs.map p) = List.map f <$> l xs := by
  induction xs with
  | nil => rw [nil]; rfl
  | cons x xs ih =>
    rw [cons, List.map_cons, transformList, h, ih]
    simp [Traced.map_eq_bind]

end

section
variable (rules : RuleSet)

section
variable {slot : Slot}

@[simp] theorem Identifier.transform_place (hs : slot.kind = .identifier) (id : Identifier) :
    (Place.named slot id).transform rules = Node.identifier <$> id.transform rules slot :=
  (RuleSet.map_applyIn (Slot.reads_identifier hs) _ _).symm

@[simp] theorem Identifier.transformList_places (hs : slot.kind = .identifier)
    (ids : List Identifier) :
    Place.transformList rules (ids.map (.named slot)) =
      List.map .identifier <$> transformList rules slot ids :=
  Place.transformList_map (Identifier.transform_place rules hs) (transformList rules slot) rfl
    (fun _ _ => rfl) ids

@[simp] theorem Identifier.transformList_toList (id? : Option Identifier) :
    transformList rules slot id?.toList = Option.toList <$> transformOption rules slot id? := by
  cases id? with
  | none => rfl
  | some id => simp [transformList, transformOption, Traced.map_eq_bind]

@[simp] theorem TableReference.transform_place (hs : slot.kind = .tableReference)
    (t : TableReference) :
    (Place.table slot t).transform rules = Node.tableReference <$> t.transform rules slot :=
  Place.transform_slot (Slot.reads_tableReference hs) rfl

end

@[simp] theorem ColumnDefinition.transformList_places (cs : List ColumnDefinition) :
    Place.transformList rules (cs.map .columnDefinition) =
      List.map .columnDefinition <$> transformList rules cs :=
  Place.transformList_map (fun _ => Place.transform_slot Slot.reads_columnDefinition rfl)
    (transformList rules) rfl (fun _ _ => (bind_assoc _ _ _).symm) cs

@[simp] theorem Join.transformList_places (js : List Join) :
    Place.transformList rules (js.map .join) = List.map .join <$> transformList rules js :=
  Place.transformList_map (fun _ => Place.transform_slot Slot.reads_join rfl)
    (transformList rules) rfl (fun _ _ => (bind_assoc _ _ _).symm) js

@[simp] theorem OrderItem.transformList_places (is : List OrderItem) :
    Place.transformList rules (is.map .orderItem) =
      List.map .orderItem <$> transformList rules is :=
  Place.transformList_map (fun _ => Place.transform_slot Slot.reads_orderItem rfl)
    (transformList rules) rfl (fun _ _ => (bind_assoc _ _ _).symm) is

@[simp] theorem ColumnUpdate.transformList_places (us : List ColumnUpdate) :
    Place.transformList rules (us.map .columnUpdate) =
      List.map .columnUpdate <$> transformList rules us :=
  Place.transformList_map (fun _ => Place.transform_slot Slot.reads_columnUpdate rfl)
    (transformList rules) rfl (fun _ _ => (bind_assoc _ _ _).symm) us

namespace Node

@[simp] theorem transformList_places (ns : List Node) :
    Place.transformList rules (ns.map .free) = transformList rules ns := by
  induction ns with
  | nil => rfl
  | cons n ns ih => simp [ih, transformList]

@[simp] theorem transformList_append (ns ms : List Node) :
    transformList rules (ns ++ ms) = do
      let ns ← transformList rules ns
      let ms ← transformList rules ms
      return ns ++ ms := by
  simp only [← transformList_places, List.map_append, Place.transformList_append]

@[simp] theorem transformList_toList (n? : Option Node) :
    transformList rules n?.toList = Option.toList <$> transformOption rules n? := by
  cases n? with
  | none => rfl
  | some n => simp [transformList, transformOption, Traced.map_eq_bind]

@[simp] theorem transformList_flatten (rs : List (List Node)) :
    transformList rules rs.flatten = List.flatten <$> transformRows rules rs := by
  induction rs with
  | nil => rfl
  | cons r rs ih =>
    rw [List.flatten_cons, transformList_append, ih, transformRows]
    simp [Traced.map_eq_bind]

end Node

/-! ### What is kept -/

open Traced (ensures_ok ensures_bind)

/-- A list of items comes back with as many of them. -/
theorem Place.ensures_blanks {α : Type} [Inhabited α] {f : α → Node}
    {p : α → Place} {t : Transformation (List α)} {xs : List α}
    (h : transformList rules (xs.map p) = List.map f <$> t) :
    t.Ensures fun ys => ys.map blank = xs.map blank := by
  intro ys hys
  have hr : (transformList rules (xs.map p)).result = .ok (ys.map f) := by
    rw [h, Traced.result_map, hys]
    rfl
  simpa [map_blank_eq_iff] using length_of_transformList _ hr

theorem Identifier.ensures_transformList {slot : Slot} (hs : slot.kind = .identifier)
    (ids : List Identifier) :
    (transformList rules slot ids).Ensures fun new => new.map blank = ids.map blank :=
  Place.ensures_blanks rules (transformList_places rules hs ids)

theorem Identifier.ensures_transformOption (slot : Slot) : ∀ id? : Option Identifier,
    (transformOption rules slot id?).Ensures fun new? => new?.map blank = id?.map blank
  | none => ensures_ok rfl
  | some _ => ensures_bind fun _ => ensures_ok rfl

theorem Node.ensures_transformOption : ∀ n? : Option Node,
    (transformOption rules n?).Ensures fun new? => new?.map blank = n?.map blank
  | none => ensures_ok rfl
  | some _ => ensures_bind fun _ => ensures_ok rfl

theorem Node.ensures_transformList (ns : List Node) :
    (transformList rules ns).Ensures fun new => new.map blank = ns.map blank :=
  Place.ensures_blanks rules
    ((transformList_places rules ns).trans (by rw [List.map_id_fun, id_map]))

theorem Node.ensures_transformRows : ∀ rs : List (List Node),
    (transformRows rules rs).Ensures fun qs => qs.map (List.map blank) = rs.map (List.map blank)
  | [] => ensures_ok rfl
  | r :: rs =>
      (Node.ensures_transformList rules r).bind fun _ hr =>
        (Node.ensures_transformRows rs).bind fun _ hrs =>
          ensures_ok (by rw [List.map_cons, hr, hrs, List.map_cons])

/-! ### One node -/

/-- How a node is transformed: its parts give a node with the same shell, whose children are what
has come to stand in the places of the old ones, and that node is handed over. -/
structure Node.Rebuilds (n : Node) (parts : Transformation Node) : Prop where
  transform : n.transform rules = parts >>= rules.apply
  children : Place.transformList rules n.places = Node.children <$> parts
  shell : parts.Ensures fun m => m.shell = n.shell

section
attribute [local simp] Node.transform Node.places Node.children Traced.map_eq_bind
  Function.comp_def
attribute [-simp] bind_pure_comp List.map_flatten
open Node (ensures_transformOption ensures_transformList ensures_transformRows)

theorem ColumnReference.rebuilds (c : ColumnReference) :
    (Node.columnReference c).Rebuilds rules (.columnReference <$> c.transformParts rules) where
  transform := by simp
  children := by simp (disch := decide) [transformParts]
  shell := .map <|
    (Identifier.ensures_transformOption rules _ c.table).bind fun _ h =>
    ensures_bind fun _ => ensures_ok (by simp only [Node.shell, h])

theorem TableReference.rebuilds (t : TableReference) :
    (Node.tableReference t).Rebuilds rules (.tableReference <$> t.transformParts rules) where
  transform := by simp
  children := by simp (disch := decide) [transformParts]
  shell := .map <|
    (Identifier.ensures_transformOption rules _ t.schema).bind fun _ h₁ =>
    ensures_bind fun _ =>
    (Identifier.ensures_transformOption rules _ t.aliasName).bind fun _ h₂ =>
    ensures_ok (by simp only [Node.shell, h₁, h₂])

theorem ColumnDefinition.rebuilds (c : ColumnDefinition) :
    (Node.columnDefinition c).Rebuilds rules (.columnDefinition <$> c.transformParts rules) where
  transform := by simp
  children := by simp (disch := decide) [transformParts]
  shell := .map (ensures_bind fun _ => ensures_ok rfl)

theorem CreateTable.rebuilds (q : CreateTable) :
    (Node.createTable q).Rebuilds rules (.createTable <$> q.transformParts rules) where
  transform := by simp
  children := by simp (disch := decide) [transformParts]
  shell := .map <|
    ensures_bind fun _ =>
    (Place.ensures_blanks rules (ColumnDefinition.transformList_places rules q.columns)).bind
      fun _ h => ensures_ok (by simp only [Node.shell, h])

theorem DropTable.rebuilds (q : DropTable) :
    (Node.dropTable q).Rebuilds rules (.dropTable <$> q.transformParts rules) where
  transform := by simp
  children := by simp (disch := decide) [transformParts]
  shell := .map (ensures_bind fun _ => ensures_ok rfl)

theorem Join.rebuilds : ∀ j : Join,
    (Node.join j).Rebuilds rules (.join <$> j.transformParts rules)
  | ⟨_, _, condition⟩ =>
    { transform := by simp
      children := by simp [transformParts]
      shell := .map <|
        ensures_bind fun _ =>
        (ensures_transformOption rules condition).bind fun _ h =>
        ensures_ok (by simp only [Node.shell, h]) }

theorem OrderItem.rebuilds : ∀ i : OrderItem,
    (Node.orderItem i).Rebuilds rules (.orderItem <$> i.transformParts rules)
  | ⟨_, _⟩ =>
    { transform := by simp
      children := by simp [transformParts]
      shell := .map (ensures_bind fun _ => ensures_ok rfl) }

theorem ColumnUpdate.rebuilds : ∀ u : ColumnUpdate,
    (Node.columnUpdate u).Rebuilds rules (.columnUpdate <$> u.transformParts rules)
  | ⟨_, _⟩ =>
    { transform := by simp
      children := by simp (disch := decide) [transformParts]
      shell := .map (ensures_bind fun _ => ensures_bind fun _ => ensures_ok rfl) }

theorem Select.rebuilds : ∀ q : Select,
    (Node.select q).Rebuilds rules (.select <$> q.transformParts rules)
  | ⟨_, selections, sources, joins, condition, grouping, having, ordering, limit, offset⟩ =>
    { transform := by simp
      children := by simp [transformParts]
      shell := .map <|
        (ensures_transformList rules selections).bind fun _ h₁ =>
        (ensures_transformList rules sources).bind fun _ h₂ =>
        (Place.ensures_blanks rules (Join.transformList_places rules joins)).bind fun _ h₃ =>
        (ensures_transformOption rules condition).bind fun _ h₄ =>
        (ensures_transformList rules grouping).bind fun _ h₅ =>
        (ensures_transformOption rules having).bind fun _ h₆ =>
        (Place.ensures_blanks rules (OrderItem.transformList_places rules ordering)).bind
          fun _ h₇ =>
        (ensures_transformOption rules limit).bind fun _ h₈ =>
        (ensures_transformOption rules offset).bind fun _ h₉ =>
        ensures_ok (by simp only [Node.shell, h₁, h₂, h₃, h₄, h₅, h₆, h₇, h₈, h₉]) }

theorem Insert.rebuilds : ∀ q : Insert,
    (Node.insert q).Rebuilds rules (.insert <$> q.transformParts rules)
  | ⟨_, columns, rows, returning⟩ =>
    { transform := by simp
      children := by simp (disch := decide) [transformParts]
      shell := .map <|
        ensures_bind fun _ =>
        (Identifier.ensures_transformList rules rfl columns).bind fun _ h₁ =>
        (ensures_transformRows rules rows).bind fun _ h₂ =>
        (ensures_transformList rules returning).bind fun _ h₃ =>
        ensures_ok (by simp only [Node.shell, h₁, h₂, h₃]) }

theorem Update.rebuilds : ∀ q : Update,
    (Node.update q).Rebuilds rules (.update <$> q.transformParts rules)
  | ⟨_, updates, condition, returning⟩ =>
    { transform := by simp
      children := by simp (disch := decide) [transformParts]
      shell := .map <|
        ensures_bind fun _ =>
        (Place.ensures_blanks rules (ColumnUpdate.transformList_places rules updates)).bind
          fun _ h₁ =>
        (ensures_transformOption rules condition).bind fun _ h₂ =>
        (ensures_transformList rules returning).bind fun _ h₃ =>
        ensures_ok (by simp only [Node.shell, h₁, h₂, h₃]) }

theorem Delete.rebuilds : ∀ q : Delete,
    (Node.delete q).Rebuilds rules (.delete <$> q.transformParts rules)
  | ⟨_, condition, returning⟩ =>
    { transform := by simp
      children := by simp (disch := decide) [transformParts]
      shell := .map <|
        ensures_bind fun _ =>
        (ensures_transformOption rules condition).bind fun _ h₁ =>
        (ensures_transformList rules returning).bind fun _ h₂ =>
        ensures_ok (by simp only [Node.shell, h₁, h₂]) }

theorem Node.rebuilds_wildcard (table : Option Identifier) :
    (Node.wildcard table).Rebuilds rules
      (.wildcard <$> Identifier.transformOption rules .wildcardQualifier table) where
  transform := by simp
  children := by simp (disch := decide)
  shell := .map fun new h => by
    simp only [shell, Identifier.ensures_transformOption rules _ table new h]

/-- A node of which nothing but a list of nodes is transformed. -/
theorem Node.rebuilds_list {make : List Node → Node} {ns : List Node}
    (ht : (make ns).transform rules = transformList rules ns >>= fun ms => rules.apply (make ms))
    (hp : ∀ ms, (make ms).places = ms.map .free)
    (hs : ∀ ms, ms.map blank = ns.map blank → (make ms).shell = (make ns).shell) :
    (make ns).Rebuilds rules (make <$> transformList rules ns) where
  transform := by simpa using ht
  children := by simp [hp, -places]
  shell := .map fun new h => hs new (ensures_transformList rules ns new h)

/-- Every node is rebuilt and handed over. -/
theorem Node.exists_rebuilds : ∀ n : Node, ∃ parts, n.Rebuilds rules parts
  | .identifier id => ⟨.ok (.identifier id), rfl, rfl, ensures_ok rfl⟩
  | .columnReference c => ⟨_, c.rebuilds rules⟩
  | .tableReference t => ⟨_, t.rebuilds rules⟩
  | .aliased expr name =>
    ⟨do
      let expr ← expr.transform rules
      let name ← name.transform rules .expressionAlias
      return .aliased expr name,
      by simp, by simp (disch := decide),
      ensures_bind fun _ => ensures_bind fun _ => ensures_ok rfl⟩
  | .wildcard table => ⟨_, Node.rebuilds_wildcard rules table⟩
  | .join j => ⟨_, j.rebuilds rules⟩
  | .orderItem i => ⟨_, i.rebuilds rules⟩
  | .binary l op r =>
    ⟨do
      let l ← l.transform rules
      let r ← r.transform rules
      return .binary l op r,
      by simp, by simp, ensures_bind fun _ => ensures_bind fun _ => ensures_ok rfl⟩
  | .unary op n =>
    ⟨.unary op <$> n.transform rules, by simp, by simp, ensures_bind fun _ => ensures_ok rfl⟩
  | .call _ _ =>
    ⟨_, Node.rebuilds_list rules rfl (fun _ => rfl) fun _ h => by simp only [shell, h]⟩
  | .valueList _ =>
    ⟨_, Node.rebuilds_list rules rfl (fun _ => rfl) fun _ h => by simp only [shell, h]⟩
  | .columnUpdate u => ⟨_, u.rebuilds rules⟩
  | .columnDefinition c => ⟨_, c.rebuilds rules⟩
  | .select q => ⟨_, q.rebuilds rules⟩
  | .insert q => ⟨_, q.rebuilds rules⟩
  | .update q => ⟨_, q.rebuilds rules⟩
  | .delete q => ⟨_, q.rebuilds rules⟩
  | .createTable q => ⟨_, q.rebuilds rules⟩
  | .dropTable q => ⟨_, q.rebuilds rules⟩
  | .rawFragment _ _ =>
    ⟨_, Node.rebuilds_list rules rfl (fun _ => rfl) fun _ h => by simp only [shell, h]⟩
  | .parameter v => ⟨.ok (.parameter v), rfl, rfl, ensures_ok rfl⟩

end

end

end SqlTree
