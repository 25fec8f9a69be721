import SqlTree.Proofs.Statement.Pieces
import SqlTree.Proofs.Tree.Places

/-!
# Statements — templates

What a node adds to a statement is its own words and between them the pieces of the nodes below it.
The template of a node (`Node.template`) is its own words alone: a list of pieces with a
placeholder, the gap, wherever a node below it is written.  `fill` puts groups of pieces into the
gaps, one after another.

**Templates** (`Node.filled`).  A template has one gap for each part of the node, and filled with
the pieces of the parts it is the statement of the node.  Beyond the shell of the node a template
looks only at how its operands group (`Node.template_eq`).
-/

namespace SqlTree

/-! ### Filling gaps -/

/-- What stands in a template for the pieces of a part. -/
def gap : Piece := .placeholder .null

/-- A gap for each element. -/
def gaps {α : Type} (xs : List α) : List (List Piece) := xs.map fun _ => [gap]

/-- Pieces once for each element. -/
def each {α : Type} (xs : List α) (ps : List Piece) : List Piece := xs.flatMap fun _ => ps

/-- Groups of pieces in the place of the placeholders, as far as there are groups. -/
def fill : List (List Piece) → List Piece → List Piece
  | _, [] => []
  | g :: gs, .placeholder _ :: ps => g ++ fill gs ps
  | gs, p :: ps => p :: fill gs ps

/-- Groups that fill the gaps of a template, and what they make of it. -/
structure Filled (groups : List (List Piece)) (template ps : List Piece) : Prop where
  length_eq : (bindings template).length = groups.length
  fill_eq : fill groups template = ps

section
variable {gs hs : List (List Piece)} {F G ps qs : List Piece}

@[simp] theorem fill_nil : fill gs [] = [] := by
  cases gs <;> rfl

@[simp] theorem fill_no_groups (F : List Piece) : fill [] F = F := by
  induction F with
  | nil => rfl
  | cons p F ih => cases p <;> exact congrArg (_ :: ·) ih

@[simp] theorem fill_gap (g : List Piece) (v : Value) :
    fill (g :: gs) (.placeholder v :: F) = g ++ fill gs F := rfl

theorem fill_cons {p : Piece} (h : p.value? = none) : fill gs (p :: F) = p :: fill gs F := by
  cases p with
  | placeholder v => cases h
  | quoted _ | text _ | offence _ => cases gs <;> rfl

/-- The gaps of a first template take the first groups. -/
theorem fill_append (h : (bindings F).length = gs.length) :
    fill (gs ++ hs) (F ++ G) = fill gs F ++ fill hs G := by
  -- a gap takes one group, any other piece none
  induction F generalizing gs with
  | nil =>
      obtain rfl := List.eq_nil_of_length_eq_zero h.symm
      simp
  | cons p F ih =>
      cases p with
      | placeholder v =>
          cases gs with
          | nil => cases h
          | cons g gs => simp [ih (Nat.succ.inj h)]
      | quoted _ | text _ | offence _ =>
          rw [List.cons_append, fill_cons rfl, fill_cons rfl, ih h, List.cons_append]

/-- The gap behind a number of others. -/
theorem exists_gap_of_lt {i : Nat} (h : i < (bindings F).length) :
    ∃ front v back, F = front ++ .placeholder v :: back ∧ (bindings front).length = i := by
  induction F generalizing i with
  | nil => cases h
  | cons p F ih =>
      cases p with
      | placeholder v =>
          cases i with
          | zero => exact ⟨[], v, F, rfl, rfl⟩
          | succ i =>
              obtain ⟨front, w, back, rfl, hi⟩ := ih (Nat.lt_of_succ_lt_succ h)
              exact ⟨.placeholder v :: front, w, back, rfl, congrArg Nat.succ hi⟩
      | quoted _ | text _ | offence _ =>
          obtain ⟨front, w, back, rfl, hi⟩ := ih h
          exact ⟨_ :: front, w, back, rfl, hi⟩

theorem bindings_fill (h : (bindings F).length = gs.length) :
    bindings (fill gs F) = gs.flatMap bindings := by
  induction F generalizing gs with
  | nil =>
      obtain rfl := List.eq_nil_of_length_eq_zero h.symm
      rfl
  | cons p F ih =>
      cases p with
      | placeholder v =>
          cases gs with
          | nil => cases h
          | cons g gs => rw [fill_gap, bindings_append, ih (Nat.succ.inj h), List.flatMap_cons]
      | quoted _ | text _ | offence _ =>
          rw [fill_cons rfl]
          exact ih h

namespace Filled

theorem nil : Filled [] [] [] := ⟨rfl, rfl⟩

theorem gap (g : List Piece) : Filled [g] [gap] g := ⟨rfl, List.append_nil g⟩

/-- Pieces without gaps are their own template. -/
theorem own (ps : List Piece) (h : bindings ps = []) : Filled [] ps ps :=
  ⟨congrArg List.length h, fill_no_groups ps⟩

theorem append (h : Filled gs F ps) (h' : Filled hs G qs) :
    Filled (gs ++ hs) (F ++ G) (ps ++ qs) := by
  constructor
  · rw [bindings_append, List.length_append, h.length_eq, h'.length_eq, List.length_append]
  · rw [fill_append h.length_eq, h.fill_eq, h'.fill_eq]

theorem text (s : String) (h : Filled gs F ps) : Filled gs (.text s :: F) (.text s :: ps) :=
  (own [.text s] rfl).append h

theorem offence (o : Offence) (h : Filled gs F ps) :
    Filled gs (.offence o :: F) (.offence o :: ps) :=
  (own [.offence o] rfl).append h

theorem gap_cons (g : List Piece) (h : Filled gs F ps) :
    Filled (g :: gs) (SqlTree.gap :: F) (g ++ ps) :=
  (gap g).append h

/-- Pieces without gaps behind a template. -/
theorem append_own (h : Filled gs F ps) (qs : List Piece) (hq : bindings qs = []) :
    Filled gs (F ++ qs) (ps ++ qs) := by
  rw [← List.append_nil gs]
  exact h.append (own qs hq)

theorem textIf (written : Bool) (s : String) (h : Filled gs F ps) :
    Filled gs (Piece.textIf written s ++ F) (Piece.textIf written s ++ ps) :=
  (own _ (bindings_textIf written s)).append h

theorem parenthesized (h : Filled gs F ps) :
    Filled gs (Piece.parenthesized F) (Piece.parenthesized ps) :=
  (h.text "(").append_own [.text ")"] rfl

theorem parenthesizedIf (needed : Bool) (h : Filled gs F ps) :
    Filled gs (Piece.parenthesizedIf needed F) (Piece.parenthesizedIf needed ps) := by
  cases needed with
  | false => exact h
  | true => exact h.parenthesized

section
variable {α : Type} {groups : α → List (List Piece)} {template pieces : α → List Piece}

theorem flatMap (h : ∀ x, Filled (groups x) (template x) (pieces x)) (xs : List α) :
    Filled (xs.flatMap groups) (xs.flatMap template) (xs.flatMap pieces) := by
  induction xs with
  | nil => exact .nil
  | cons x xs ih => exact (h x).append ih

theorem commaSeparated (h : ∀ x, Filled (groups x) (template x) (pieces x)) :
    ∀ xs : List α, Filled (xs.flatMap groups) (Piece.commaSeparated (xs.map template))
      (Piece.commaSeparated (xs.map pieces))
  | [] => .nil
  | [x] => by simpa using h x
  | x :: y :: xs => by
      simp only [List.map_cons, Piece.commaSeparated_cons_cons, List.flatMap_cons]
      exact (h x).append ((commaSeparated h (y :: xs)).text ", ")

end

section
variable {α : Type} (pieces : α → List Piece) (xs : List α)

/-- Pieces for each element, each with a gap in it. -/
theorem each (front back : List Piece) (hf : bindings front = []) (hb : bindings back = []) :
    Filled (xs.map pieces) (SqlTree.each xs (front ++ SqlTree.gap :: back))
      (xs.flatMap fun x => front ++ (pieces x ++ back)) := by
  rw [List.map_eq_flatMap]
  exact flatMap (fun x => (own _ hf).append ((gap (pieces x)).append (own _ hb))) xs

theorem commaGaps : Filled (xs.map pieces) (Piece.commaSeparated (gaps xs))
    (Piece.commaSeparated (xs.map pieces)) := by
  have h := commaSeparated (fun x => gap (pieces x)) xs
  rwa [← List.map_eq_flatMap] at h

theorem clause (opening : String) : Filled (xs.map pieces) (Piece.clause opening (gaps xs))
    (Piece.clause opening (xs.map pieces)) := by
  cases xs with
  | nil => exact .nil
  | cons x xs => exact (commaGaps pieces (x :: xs)).text opening

theorem selectionPieces : Filled (xs.map pieces) (SqlTree.selectionPieces (gaps xs))
    (SqlTree.selectionPieces (xs.map pieces)) := by
  cases xs with
  | nil => exact own _ rfl
  | cons x xs => exact commaGaps pieces (x :: xs)

theorem returningPieces (d : Dialect) : Filled (xs.map pieces)
    (SqlTree.returningPieces d (gaps xs)) (SqlTree.returningPieces d (xs.map pieces)) := by
  cases xs with
  | nil => exact .nil
  | cons x xs =>
      have h := clause pieces (x :: xs) " returning "
      unfold SqlTree.returningPieces
      cases d.supportsReturning with
      | true => exact h
      | false => exact h.offence .returning

theorem splice : ∀ (ts : List String) (xs : List α),
    Filled (xs.map pieces) (SqlTree.splice ts (gaps xs)) (SqlTree.splice ts (xs.map pieces))
  | ts, [] => by
      have htexts : bindings (ts.map Piece.text) = [] := by
        induction ts with
        | nil => rfl
        | cons t ts ih => exact ih
      cases ts <;> exact own _ htexts
  | [], x :: xs => gap_cons (pieces x) (splice [] xs)
  | t :: ts, x :: xs => (gap_cons (pieces x) (splice ts xs)).text t

theorem rawPieces (ts : List String) : Filled (xs.map pieces) (SqlTree.rawPieces ts (gaps xs))
    (SqlTree.rawPieces ts (xs.map pieces)) := by
  have h := splice pieces ts xs
  unfold SqlTree.rawPieces
  simp only [gaps, List.length_map]
  split
  · exact h
  · exact h.offence _

end

theorem offsetPieces (d : Dialect) (hasLimit : Bool) (h : Filled gs F ps)
    (he : F.isEmpty = ps.isEmpty) :
    Filled gs (SqlTree.offsetPieces d hasLimit F) (SqlTree.offsetPieces d hasLimit ps) := by
  unfold SqlTree.offsetPieces
  rw [he]
  split
  · next hps =>
      obtain rfl := List.isEmpty_iff.mp hps
      obtain rfl := List.isEmpty_iff.mp (he.trans hps)
      exact h
  · cases hasLimit || d.supportsOffsetWithoutLimit with
    | true => exact h
    | false => exact h.offence _

end Filled

end

/-! ### The templates of nodes -/

/-- The columns of an insert, with a gap for each. -/
def columnListGaps {α : Type} (xs : List α) : List Piece :=
  if xs.isEmpty then [] else .text " (" :: Piece.commaSeparated (gaps xs) ++ [.text ")"]

/-- The words of a node, with a gap for each of its parts. -/
def Node.template (d : Dialect) : Node → List Piece
  | .identifier id => [.ofIdentifier id]
  | .columnReference c => each c.table.toList [gap, .text "."] ++ [gap]
  | .tableReference t =>
    each t.schema.toList [gap, .text "."] ++ gap :: each t.aliasName.toList [.text " as ", gap]
  | .aliased _ _ => [gap, .text " as ", gap]
  | .wildcard table => each table.toList [gap, .text "."] ++ [.text "*"]
  | .join j => [.text j.joinType.sql, .text " ", gap] ++ each j.condition.toList [.text " on ", gap]
  | .orderItem i => [gap, .text " ", .text i.direction.sql]
  | .binary l op r =>
    Piece.parenthesizedIf (l.leftParens op) [gap] ++ [.text " ", .text op.sql, .text " "] ++
      Piece.parenthesizedIf (r.rightParens op) [gap]
  | .unary op n => unaryPieces op n.isAtomic [gap]
  | .call function args => .text function :: Piece.parenthesized (Piece.commaSeparated (gaps args))
  | .valueList items => Piece.parenthesized (Piece.commaSeparated (gaps items))
  | .columnUpdate _ => [gap, .text " = ", gap]
  | .columnDefinition _ => [.offence .strayColumnDefinition]
  | .select q =>
    .text "select " :: Piece.textIf q.distinct "distinct " ++ selectionPieces (gaps q.selections) ++
      Piece.clause " from " (gaps q.sources) ++ each q.joins [.text " ", gap] ++
      each q.condition.toList [.text " where ", gap] ++
      Piece.clause " group by " (gaps q.grouping) ++
      each q.having.toList [.text " having ", gap] ++
      Piece.clause " order by " (gaps q.ordering) ++ each q.limit.toList [.text " limit ", gap] ++
      offsetPieces d q.limit.isSome (each q.offset.toList [.text " offset ", gap])
  | .insert q =>
    [.text "insert into ", gap] ++ columnListGaps q.columns ++
      rowPieces d (q.rows.map fun r => Piece.parenthesized (Piece.commaSeparated (gaps r))) ++
      returningPieces d (gaps q.returning)
  | .update q =>
    [.text "update ", gap, .text " set "] ++ Piece.commaSeparated (gaps q.updates) ++
      each q.condition.toList [.text " where ", gap] ++ returningPieces d (gaps q.returning)
  | .delete q =>
    [.text "delete from ", gap] ++ each q.condition.toList [.text " where ", gap] ++
      returningPieces d (gaps q.returning)
  | .createTable q =>
    .text "create table " :: Piece.textIf q.ifNotExists "if not exists " ++ [gap, .text " ("] ++
      Piece.commaSeparated (q.columns.map (ColumnDefinition.pieces d)) ++ [.text ")"]
  | .dropTable q => .text "drop table " :: Piece.textIf q.ifExists "if exists " ++ [gap]
  | .rawFragment texts bindings => rawPieces texts (gaps bindings)
  | .parameter v => [.placeholder v]

/-- What the gaps of a node stand for: its children, except that a column is only defined in the
words of a table, and that a parameter is nothing but its placeholder. -/
def Node.templateParts : Node → List Node
  | .columnDefinition _ => []
  | .createTable q => [.tableReference q.table]
  | .parameter v => [.parameter v]
  | n => n.children

section
variable {d : Dialect}

theorem Node.pieceGroups_eq (ns : List Node) : Node.pieceGroups d ns = ns.map (Node.pieces d) := by
  induction ns with
  | nil => rfl
  | cons n ns ih => exact congrArg (n.pieces d :: ·) ih

theorem Node.rowGroups_eq (rs : List (List Node)) :
    Node.rowGroups d rs =
      rs.map fun r => Piece.parenthesized (Piece.commaSeparated (r.map (Node.pieces d))) := by
  induction rs with
  | nil => rfl
  | cons r rs ih => rw [Node.rowGroups, ih, Node.pieceGroups_eq, List.map_cons]

theorem Node.clausePieces_eq (opening : String) (n? : Option Node) :
    Node.clausePieces d opening n? = n?.toList.flatMap fun n => .text opening :: n.pieces d := by
  cases n? with
  | none => rfl
  | some n => exact (List.flatMap_singleton ..).symm

theorem Join.listPieces_eq (js : List Join) :
    Join.listPieces d js = js.flatMap fun j => .text " " :: j.pieces d := by
  induction js with
  | nil => rfl
  | cons j js ih => rw [Join.listPieces, ih, List.flatMap_cons]

theorem OrderItem.pieceGroups_eq (is : List OrderItem) :
    OrderItem.pieceGroups d is = is.map (OrderItem.pieces d) := by
  induction is with
  | nil => rfl
  | cons i is ih => exact congrArg (i.pieces d :: ·) ih

theorem ColumnUpdate.pieceGroups_eq (us : List ColumnUpdate) :
    ColumnUpdate.pieceGroups d us = us.map (ColumnUpdate.pieces d) := by
  induction us with
  | nil => rfl
  | cons u us ih => exact congrArg (u.pieces d :: ·) ih

theorem qualifierPieces_eq (id? : Option Identifier) :
    qualifierPieces id? = id?.toList.flatMap fun id => [.ofIdentifier id, .text "."] := by
  cases id? <;> rfl

theorem aliasPieces_eq (id? : Option Identifier) :
    aliasPieces id? = id?.toList.flatMap fun id => [.text " as ", .ofIdentifier id] := by
  cases id? <;> rfl

end

/-! ### Templates are filled with the parts -/

section
variable (d : Dialect)

/-- The clause of a node that may be absent. -/
theorem Filled.clausePieces (opening : String) (n? : Option Node) :
    Filled (n?.toList.map (Node.pieces d)) (SqlTree.each n?.toList [.text opening, SqlTree.gap])
      (Node.clausePieces d opening n?) := by
  have h := each (Node.pieces d) n?.toList [.text opening] [] rfl rfl
  simpa [Node.clausePieces_eq] using h

theorem Filled.qualifierPieces (id? : Option Identifier) :
    Filled (id?.toList.map fun id => [.ofIdentifier id])
      (SqlTree.each id?.toList [SqlTree.gap, .text "."]) (SqlTree.qualifierPieces id?) := by
  rw [qualifierPieces_eq]
  exact each _ id?.toList [] [.text "."] rfl rfl

theorem Filled.aliasPieces (id? : Option Identifier) :
    Filled (id?.toList.map fun id => [.ofIdentifier id])
      (SqlTree.each id?.toList [.text " as ", SqlTree.gap]) (SqlTree.aliasPieces id?) := by
  rw [aliasPieces_eq]
  exact each _ id?.toList [.text " as "] [] rfl rfl

attribute [local simp] Node.template Node.templateParts Node.children Node.places Node.pieces
  Node.pieceGroups_eq Node.rowGroups_eq OrderItem.pieceGroups_eq ColumnUpdate.pieceGroups_eq
  Join.listPieces_eq Function.comp_def

theorem Filled.columnListPieces (columns : List Identifier) :
    Filled (columns.map fun id => [.ofIdentifier id]) (columnListGaps columns)
      (SqlTree.columnListPieces columns) := by
  cases columns with
  | nil => exact .nil
  | cons c cs => exact ((commaGaps _ (c :: cs)).text " (").append_own [.text ")"] rfl

theorem Filled.rowPieces (rs : List (List Node)) :
    Filled (rs.flatten.map (Node.pieces d))
      (SqlTree.rowPieces d (rs.map fun r => Piece.parenthesized (Piece.commaSeparated (gaps r))))
      (SqlTree.rowPieces d (Node.rowGroups d rs)) := by
  have h := Filled.commaSeparated (fun r => (commaGaps (Node.pieces d) r).parenthesized) rs
  rw [List.map_flatten, ← List.flatMap_def, Node.rowGroups_eq]
  cases rs with
  | nil => exact own _ rfl
  | cons r rs => exact h.text " values "

theorem Select.filled (q : Select) :
    Filled ((Node.select q).templateParts.map (Node.pieces d)) ((Node.select q).template d)
      (q.pieces d) := by
  obtain ⟨distinct, selections, sources, joins, condition, grouping, having, ordering, limit,
    offset⟩ := q
  have hjoins := Filled.each (Join.pieces d) joins [.text " "] [] rfl rfl
  have hoffset := (Filled.clausePieces d " offset " offset).offsetPieces d limit.isSome
    (by cases offset <;> rfl)
  have h := ((Filled.selectionPieces (Node.pieces d) selections).textIf distinct "distinct ").text
    "select " |>.append (.clause (Node.pieces d) sources " from ") |>.append hjoins
    |>.append (.clausePieces d " where " condition)
    |>.append (.clause (Node.pieces d) grouping " group by ")
    |>.append (.clausePieces d " having " having)
    |>.append (.clause (OrderItem.pieces d) ordering " order by ")
    |>.append (.clausePieces d " limit " limit) |>.append hoffset
  simpa [Select.pieces] using h

theorem Insert.filled (q : Insert) :
    Filled ((Node.insert q).templateParts.map (Node.pieces d)) ((Node.insert q).template d)
      (q.pieces d) := by
  obtain ⟨table, columns, rows, returning⟩ := q
  have h := ((Filled.gap table.pieces).text "insert into ").append (.columnListPieces columns)
    |>.append (.rowPieces d rows) |>.append (.returningPieces (Node.pieces d) returning d)
  simpa [Insert.pieces, -List.map_flatten] using h

theorem Update.filled (q : Update) :
    Filled ((Node.update q).templateParts.map (Node.pieces d)) ((Node.update q).template d)
      (q.pieces d) := by
  obtain ⟨table, updates, condition, returning⟩ := q
  have h := ((Filled.gap table.pieces).text "update ")
    |>.append ((Filled.commaGaps (ColumnUpdate.pieces d) updates).text " set ")
    |>.append (.clausePieces d " where " condition)
    |>.append (.returningPieces (Node.pieces d) returning d)
  simpa [Update.pieces] using h

theorem Delete.filled (q : Delete) :
    Filled ((Node.delete q).templateParts.map (Node.pieces d)) ((Node.delete q).template d)
      (q.pieces d) := by
  obtain ⟨table, condition, returning⟩ := q
  have h := ((Filled.gap table.pieces).text "delete from ")
    |>.append (.clausePieces d " where " condition)
    |>.append (.returningPieces (Node.pieces d) returning d)
  simpa [Delete.pieces] using h

theorem CreateTable.filled (q : CreateTable) :
    Filled ((Node.createTable q).templateParts.map (Node.pieces d))
      ((Node.createTable q).template d) (q.pieces d) := by
  obtain ⟨table, ifNotExists, columns⟩ := q
  have hcolumns : bindings (Piece.commaSeparated (columns.map (ColumnDefinition.pieces d))) = [] :=
    by simp [ColumnDefinition.pieces]
  have h := ((Filled.gap table.pieces).textIf ifNotExists "if not exists ").text "create table "
    |>.append_own [.text " ("] rfl |>.append_own _ hcolumns
    |>.append_own [.text ")"] rfl
  simpa [CreateTable.pieces] using h

/-- Filled with the pieces of its parts, the template of a node is its statement. -/
theorem Node.filled (n : Node) :
    Filled (n.templateParts.map (Node.pieces d)) (n.template d) (n.statementPieces d) := by
  cases n with
  | identifier id => exact .own _ (by simp)
  | columnReference c =>
      have h := (Filled.qualifierPieces c.table).append (.gap [.ofIdentifier c.column])
      simpa [statementPieces, ColumnReference.pieces] using h
  | tableReference t =>
      have h := (Filled.qualifierPieces t.schema).append
        ((Filled.aliasPieces t.aliasName).gap_cons [.ofIdentifier t.name])
      simpa [statementPieces, TableReference.pieces] using h
  | aliased expr name =>
      have h := Filled.gap_cons (expr.pieces d) ((Filled.gap [.ofIdentifier name]).text " as ")
      simpa [statementPieces, SqlTree.aliasPieces] using h
  | wildcard table =>
      have h := (Filled.qualifierPieces table).append_own [.text "*"] rfl
      simpa [statementPieces] using h
  | join j =>
      obtain ⟨joinType, target, condition⟩ := j
      have h := (((Filled.gap (target.pieces d)).text " ").text joinType.sql).append
        (.clausePieces d " on " condition)
      simpa [statementPieces, Join.pieces] using h
  | orderItem i =>
      obtain ⟨expr, direction⟩ := i
      have h := (Filled.gap (expr.pieces d)).append_own [.text " ", .text direction.sql] rfl
      simpa [statementPieces, OrderItem.pieces] using h
  | binary l op r =>
      have hl := (Filled.gap (l.pieces d)).parenthesizedIf (l.leftParens op)
      have hr := (Filled.gap (r.pieces d)).parenthesizedIf (r.rightParens op)
      have h := (hl.append_own [.text " ", .text op.sql, .text " "] rfl).append hr
      simpa [statementPieces] using h
  | unary op n =>
      have h := Filled.gap (n.pieces d)
      cases op with
      | not => exact (h.parenthesizedIf _).text "not "
      | negate => exact (h.parenthesizedIf _).text "-"
      | «exists» => exact h.text "exists "
      | notExists => exact h.text "not exists "
      | isNull | isNotNull => exact (h.parenthesizedIf _).append_own _ rfl
  | call function args =>
      have h := ((Filled.commaGaps (Node.pieces d) args).parenthesized).text function
      simpa [statementPieces] using h
  | valueList items =>
      have h := (Filled.commaGaps (Node.pieces d) items).parenthesized
      simpa [statementPieces] using h
  | columnUpdate u =>
      obtain ⟨column, value⟩ := u
      have h := Filled.gap_cons [.ofIdentifier column] ((Filled.gap (value.pieces d)).text " = ")
      simpa [statementPieces, ColumnUpdate.pieces] using h
  | columnDefinition c => exact .own _ rfl
  | select q => exact Select.filled d q
  | insert q => exact Insert.filled d q
  | update q => exact Update.filled d q
  | delete q => exact Delete.filled d q
  | createTable q => exact CreateTable.filled d q
  | dropTable q =>
      have h := ((Filled.gap q.table.pieces).textIf q.ifExists "if exists ").text "drop table "
      simpa [statementPieces, DropTable.pieces] using h
  | rawFragment texts bindings =>
      have h := Filled.rawPieces (Node.pieces d) bindings texts
      simpa [statementPieces] using h
  | parameter v => exact ⟨rfl, rfl⟩

end

/-! ### Templates look at shells -/

/-- Two nodes that stand in parentheses under the same operators. -/
structure Node.GroupsLike (n m : Node) : Prop where
  leftParens (op : BinaryOperator) : n.leftParens op = m.leftParens op
  rightParens (op : BinaryOperator) : n.rightParens op = m.rightParens op
  isAtomic : n.isAtomic = m.isAtomic

namespace Node.GroupsLike
variable {n m : Node}

theorem refl (n : Node) : n.GroupsLike n := ⟨fun _ => rfl, fun _ => rfl, rfl⟩

theorem symm (h : n.GroupsLike m) : m.GroupsLike n :=
  ⟨fun op => (h.leftParens op).symm, fun op => (h.rightParens op).symm, h.isAtomic.symm⟩

theorem trans {k : Node} (h : n.GroupsLike m) (h' : m.GroupsLike k) : n.GroupsLike k :=
  ⟨fun op => (h.leftParens op).trans (h'.leftParens op),
    fun op => (h.rightParens op).trans (h'.rightParens op), h.isAtomic.trans h'.isAtomic⟩

theorem shell (n : Node) : n.GroupsLike n.shell := by
  cases n <;> exact ⟨fun _ => rfl, fun _ => rfl, rfl⟩

theorem of_shell (h : n.shell = m.shell) : n.GroupsLike m :=
  (shell n).trans (h ▸ (shell m).symm)

theorem of_isAtomic (hn : n.isAtomic) (hm : m.isAtomic) : n.GroupsLike m := by
  cases n <;> cases hn <;> cases m <;> cases hm <;> exact ⟨fun _ => rfl, fun _ => rfl, rfl⟩

end Node.GroupsLike

section
variable {α : Type} (xs : List α)

theorem gaps_eq_replicate : gaps xs = List.replicate xs.length [gap] := List.map_const' ..

theorem gaps_eq_of_length {ys : List α} (h : xs.length = ys.length) : gaps xs = gaps ys := by
  rw [gaps_eq_replicate, gaps_eq_replicate, h]

theorem columnListGaps_eq_of_length {ys : List α} (h : xs.length = ys.length) :
    columnListGaps xs = columnListGaps ys := by
  have hempty : xs.isEmpty = ys.isEmpty := by
    rw [Bool.eq_iff_iff, List.isEmpty_iff_length_eq_zero, List.isEmpty_iff_length_eq_zero, h]
  rw [columnListGaps, columnListGaps, hempty, gaps_eq_of_length xs h]

theorem each_eq_replicate (ps : List Piece) :
    each xs ps = (List.replicate xs.length ps).flatten := by
  rw [each, List.flatMap_def, List.map_const']

end

/-- Templates only tell the shells of nodes apart, and how the children group.  The columns of a
table are written out in its template. -/
theorem Node.template_eq (d : Dialect) {n m : Node} (hk : n.kind ≠ .createTable)
    (hs : n.shell = m.shell) (hc : List.Forall₂ GroupsLike n.children m.children) :
    n.template d = m.template d := by
  cases n <;> cases m <;> simp only [Node.shell, reduceCtorEq] at hs
  case binary.binary l op r l' op' r' =>
    obtain ⟨hl, hr⟩ : l.GroupsLike l' ∧ r.GroupsLike r' := by
      simpa [children, places] using hc
    cases hs
    rw [template, template, hl.leftParens, hr.rightParens]
  case unary.unary op n op' n' =>
    have hn : n.GroupsLike n' := by simpa [children, places] using hc
    cases hs
    rw [template, template, hn.isAtomic]
  case createTable.createTable => cases hk rfl
  case aliased.aliased | columnUpdate.columnUpdate => rfl
  case insert.insert q q' =>
    simp only [insert.injEq, Insert.mk.injEq, map_blank_eq_iff] at hs
    obtain ⟨-, hcolumns, hrows, hreturning⟩ := hs
    have hgroups : (q.rows.map fun r => Piece.parenthesized (Piece.commaSeparated (gaps r))) =
        q'.rows.map fun r => Piece.parenthesized (Piece.commaSeparated (gaps r)) := by
      simpa [gaps_eq_replicate, Function.comp_def] using congrArg
        (List.map fun k => Piece.parenthesized (Piece.commaSeparated (List.replicate k [gap])))
        (map_length_of_rowBlanks hrows)
    rw [template, template, columnListGaps_eq_of_length _ hcolumns, hgroups,
      gaps_eq_of_length _ hreturning]
  case select.select q q' =>
    simp only [select.injEq, Select.mk.injEq] at hs
    have hlimit : q.limit.isSome = q'.limit.isSome := by
      simpa using congrArg Option.isSome hs.2.2.2.2.2.2.2.2.1
    simp only [map_blank_eq_iff, optionMap_blank_eq_iff] at hs
    simp [template, gaps_eq_replicate, each_eq_replicate, hs, hlimit]
  all_goals
    simp [map_blank_eq_iff, optionMap_blank_eq_iff] at hs
    simp [template, gaps_eq_replicate, each_eq_replicate, hs]

end SqlTree
