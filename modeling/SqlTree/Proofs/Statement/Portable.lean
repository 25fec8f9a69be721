import SqlTree.Proofs.Statement.Marks
import SqlTree.Proofs.Statement.Substitution
import SqlTree.Proofs.Tree.Nodes

/-!
# Statements — one tree in several dialects

The dialects form a chain: MySQL rejects what SQLite rejects, and SQLite rejects what PostgreSQL
rejects.  Apart from what is rejected, dialects differ in the quote, in the spelling of
placeholders, in the columns of a table to be created and in an insert without rows.

**Portability** (`compile_portable`).  A tree that has a statement in one dialect of the chain has
one with the same bindings in those behind it.  If it neither creates a table nor inserts no rows,
all its statements are layouts of the same pieces.
-/

namespace SqlTree

/-- The pieces without the offences among them. -/
def Substitution.permitted : Substitution where
  replace
    | .offence _ => []
    | p => [p]
  replace_text _ := rfl

/-- Whether every dialect spells a node alike, its parts apart. -/
def Node.isPortable : Node → Bool
  | .createTable _ => false
  | .insert q => !q.rows.isEmpty
  | _ => true

section
open Substitution (permitted)
variable {d : Dialect}

theorem keepsNames_permitted : permitted.KeepsNames := fun _ => rfl

theorem permitted_offence (o : Offence) (ps : List Piece) :
    permitted.on (.offence o :: ps) = permitted.on ps := rfl

theorem permitted_returningPieces (gs : List (List Piece)) :
    permitted.on (returningPieces d gs) = Piece.clause " returning " (gs.map permitted.on) := by
  cases h : d.supportsReturning <;> cases gs <;>
    simp [returningPieces, Piece.clause, permitted_offence, h]

theorem permitted_offsetPieces (hasLimit : Bool) (ps : List Piece) :
    permitted.on (offsetPieces d hasLimit ps) = permitted.on ps := by
  cases h : d.supportsOffsetWithoutLimit <;> cases hasLimit <;> cases ps <;>
    simp [offsetPieces, permitted_offence, h]

theorem permitted_rawPieces (ts : List String) (gs : List (List Piece)) :
    permitted.on (rawPieces ts gs) = splice ts (gs.map permitted.on) := by
  unfold rawPieces
  split <;> simp [permitted_offence]

variable (d d' : Dialect)

mutual

/-- A node whose nodes are all portable has the same permitted pieces in every dialect. -/
theorem Node.permitted_pieces : ∀ n : Node, (∀ m ∈ n.nodes, m.isPortable) →
    permitted.on (n.pieces d) = permitted.on (n.pieces d')
  | .identifier _, _ | .columnReference _, _ | .tableReference _, _ | .wildcard _, _
  | .columnDefinition _, _ | .dropTable _, _ | .parameter _, _ => rfl
  | .aliased expr _, h => by
      rw [Node.nodes, List.forall_mem_append] at h
      simp [Node.pieces, Node.permitted_pieces expr h.1]
  | .join j, h => by
      rw [Node.nodes, List.forall_mem_append] at h
      exact Join.permitted_pieces j h.1
  | .orderItem i, h => by
      rw [Node.nodes, List.forall_mem_append] at h
      exact OrderItem.permitted_pieces i h.1
  | .binary l op r, h => by
      rw [Node.nodes, List.forall_mem_append, List.forall_mem_append] at h
      simp [Node.pieces, Node.permitted_pieces l h.1.1, Node.permitted_pieces r h.1.2]
  | .unary op n, h => by
      rw [Node.nodes, List.forall_mem_append] at h
      simp [Node.pieces, Node.permitted_pieces n h.1]
  | .call _ args, h => by
      rw [Node.nodes, List.forall_mem_append] at h
      simp [Node.pieces, Node.permitted_pieceGroups args h.1]
  | .valueList items, h => by
      rw [Node.nodes, List.forall_mem_append] at h
      simp [Node.pieces, Node.permitted_pieceGroups items h.1]
  | .columnUpdate u, h => by
      rw [Node.nodes, List.forall_mem_append] at h
      exact ColumnUpdate.permitted_pieces u h.1
  | .select q, h => by
      rw [Node.nodes, List.forall_mem_append] at h
      simp [Node.pieces, Select.permitted_pieces q h.1]
  | .insert q, h => by
      rw [Node.nodes, List.forall_mem_append] at h
      exact Insert.permitted_pieces q h.1 (h.2 (.insert q) List.mem_cons_self)
  | .update q, h => by
      rw [Node.nodes, List.forall_mem_append] at h
      exact Update.permitted_pieces q h.1
  | .delete q, h => by
      rw [Node.nodes, List.forall_mem_append] at h
      exact Delete.permitted_pieces q h.1
  | .createTable q, h => by
      rw [Node.nodes, List.forall_mem_append] at h
      exact nomatch h.2 (.createTable q) List.mem_cons_self
  | .rawFragment ts bs, h => by
      rw [Node.nodes, List.forall_mem_append] at h
      simp [Node.pieces, permitted_rawPieces, Node.permitted_pieceGroups bs h.1]

theorem Node.permitted_pieceGroups : ∀ ns : List Node,
    (∀ m ∈ Node.listNodes ns, m.isPortable) →
      (Node.pieceGroups d ns).map permitted.on = (Node.pieceGroups d' ns).map permitted.on
  | [], _ => rfl
  | n :: ns, h => by
      rw [Node.listNodes, List.forall_mem_append] at h
      simp [Node.pieceGroups, Node.permitted_pieces n h.1, Node.permitted_pieceGroups ns h.2]

theorem Node.permitted_clausePieces (opening : String) : ∀ n? : Option Node,
    (∀ m ∈ Node.optionNodes n?, m.isPortable) →
      permitted.on (Node.clausePieces d opening n?) =
        permitted.on (Node.clausePieces d' opening n?)
  | none, _ => rfl
  | some n, h => by simp [Node.clausePieces, Node.permitted_pieces n h]

theorem Node.permitted_rowGroups : ∀ rs : List (List Node),
    (∀ m ∈ Node.rowNodes rs, m.isPortable) →
      (Node.rowGroups d rs).map permitted.on = (Node.rowGroups d' rs).map permitted.on
  | [], _ => rfl
  | r :: rs, h => by
      rw [Node.rowNodes, List.forall_mem_append] at h
      simp [Node.rowGroups, Node.permitted_pieceGroups r h.1, Node.permitted_rowGroups rs h.2]

theorem Join.permitted_pieces : ∀ j : Join, (∀ m ∈ j.parts, m.isPortable) →
    permitted.on (j.pieces d) = permitted.on (j.pieces d')
  | ⟨_, target, condition⟩, h => by
      rw [Join.parts, List.forall_mem_append] at h
      simp [Join.pieces, Node.permitted_pieces target h.1,
        Node.permitted_clausePieces " on " condition h.2]

theorem Join.permitted_listPieces : ∀ js : List Join,
    (∀ m ∈ Join.listNodes js, m.isPortable) →
      permitted.on (Join.listPieces d js) = permitted.on (Join.listPieces d' js)
  | [], _ => rfl
  | j :: js, h => by
      rw [Join.listNodes, List.forall_mem_append, List.forall_mem_cons] at h
      simp [Join.listPieces, Join.permitted_pieces j h.1, Join.permitted_listPieces js h.2.2]

theorem OrderItem.permitted_pieces : ∀ i : OrderItem, (∀ m ∈ i.parts, m.isPortable) →
    permitted.on (i.pieces d) = permitted.on (i.pieces d')
  | ⟨expr, _⟩, h => by simp [OrderItem.pieces, Node.permitted_pieces expr h]

theorem OrderItem.permitted_pieceGroups : ∀ is : List OrderItem,
    (∀ m ∈ OrderItem.listNodes is, m.isPortable) →
      (OrderItem.pieceGroups d is).map permitted.on =
        (OrderItem.pieceGroups d' is).map permitted.on
  | [], _ => rfl
  | i :: is, h => by
      rw [OrderItem.listNodes, List.forall_mem_append, List.forall_mem_cons] at h
      simp [OrderItem.pieceGroups, OrderItem.permitted_pieces i h.1,
        OrderItem.permitted_pieceGroups is h.2.2]

theorem ColumnUpdate.permitted_pieces : ∀ u : ColumnUpdate, (∀ m ∈ u.parts, m.isPortable) →
    permitted.on (u.pieces d) = permitted.on (u.pieces d')
  | ⟨column, value⟩, h => by
      rw [ColumnUpdate.parts, List.forall_mem_cons] at h
      simp [ColumnUpdate.pieces, keepsNames_permitted.on_ofIdentifier,
        Node.permitted_pieces value h.2]

theorem ColumnUpdate.permitted_pieceGroups : ∀ us : List ColumnUpdate,
    (∀ m ∈ ColumnUpdate.listNodes us, m.isPortable) →
      (ColumnUpdate.pieceGroups d us).map permitted.on =
        (ColumnUpdate.pieceGroups d' us).map permitted.on
  | [], _ => rfl
  | u :: us, h => by
      rw [ColumnUpdate.listNodes, List.forall_mem_append, List.forall_mem_cons] at h
      simp [ColumnUpdate.pieceGroups, ColumnUpdate.permitted_pieces u h.1,
        ColumnUpdate.permitted_pieceGroups us h.2.2]

theorem Select.permitted_pieces : ∀ q : Select, (∀ m ∈ q.parts, m.isPortable) →
    permitted.on (q.pieces d) = permitted.on (q.pieces d')
  | ⟨_, selections, sources, joins, condition, grouping, having, ordering, limit, offset⟩, h => by
      simp only [Select.parts, List.forall_mem_append] at h
      obtain ⟨⟨⟨⟨⟨⟨⟨⟨hs, hf⟩, hj⟩, hc⟩, hg⟩, hh⟩, ho⟩, hl⟩, hk⟩ := h
      simp [Select.pieces, permitted_offsetPieces, Node.permitted_pieceGroups selections hs,
        Node.permitted_pieceGroups sources hf, Join.permitted_listPieces joins hj,
        Node.permitted_clausePieces _ condition hc, Node.permitted_pieceGroups grouping hg,
        Node.permitted_clausePieces _ having hh, OrderItem.permitted_pieceGroups ordering ho,
        Node.permitted_clausePieces _ limit hl, Node.permitted_clausePieces _ offset hk]

theorem Insert.permitted_pieces : ∀ q : Insert, (∀ m ∈ q.parts, m.isPortable) →
    (Node.insert q).isPortable → permitted.on (q.pieces d) = permitted.on (q.pieces d')
  | ⟨table, columns, rows, returning⟩, h, hrows => by
      simp only [Insert.parts, List.forall_mem_append] at h
      obtain ⟨⟨-, hr⟩, ht⟩ := h
      cases rows with
      | nil => cases hrows
      | cons r rs =>
          -- only the end of an insert without rows depends on the dialect
          have hpieces (d : Dialect) : rowPieces d (Node.rowGroups d (r :: rs)) =
              .text " values " :: Piece.commaSeparated (Node.rowGroups d (r :: rs)) := rfl
          simp [Insert.pieces, hpieces, permitted_returningPieces,
            Node.permitted_rowGroups (r :: rs) hr, Node.permitted_pieceGroups returning ht]

theorem Update.permitted_pieces : ∀ q : Update, (∀ m ∈ q.parts, m.isPortable) →
    permitted.on (q.pieces d) = permitted.on (q.pieces d')
  | ⟨table, updates, condition, returning⟩, h => by
      simp only [Update.parts, List.forall_mem_append] at h
      obtain ⟨⟨⟨-, hu⟩, hc⟩, ht⟩ := h
      simp [Update.pieces, permitted_returningPieces,
        ColumnUpdate.permitted_pieceGroups updates hu, Node.permitted_clausePieces _ condition hc,
        Node.permitted_pieceGroups returning ht]

theorem Delete.permitted_pieces : ∀ q : Delete, (∀ m ∈ q.parts, m.isPortable) →
    permitted.on (q.pieces d) = permitted.on (q.pieces d')
  | ⟨table, condition, returning⟩, h => by
      simp only [Delete.parts, List.forall_mem_append] at h
      obtain ⟨⟨-, hc⟩, ht⟩ := h
      simp [Delete.pieces, permitted_returningPieces, Node.permitted_clausePieces _ condition hc,
        Node.permitted_pieceGroups returning ht]

end

theorem Node.permitted_statementPieces {n : Node} (h : ∀ m ∈ n.nodes, m.isPortable) :
    permitted.on (n.statementPieces d) = permitted.on (n.statementPieces d') := by
  cases n with
  | select q =>
      rw [Node.nodes, List.forall_mem_append] at h
      exact Select.permitted_pieces d d' q h.1
  | _ => exact Node.permitted_pieces d d' _ h

end

/-! ### Statements -/

theorem permitted_of_offence? {p : Piece} (h : p.offence? = none) (ps : List Piece) :
    Substitution.permitted.on (p :: ps) = p :: Substitution.permitted.on ps := by
  cases p with
  | offence o => cases h
  | quoted _ | placeholder _ | text _ => rfl

/-- What is picked from pieces is picked from those that are permitted, if no offence is picked. -/
theorem filterMap_permitted {α : Type} {pick : Piece → Option α}
    (h : ∀ o, pick (.offence o) = none) (ps : List Piece) :
    (Substitution.permitted.on ps).filterMap pick = ps.filterMap pick := by
  induction ps with
  | nil => rfl
  | cons p ps ih =>
      cases p with
      | offence o => rw [permitted_offence, List.filterMap_cons_none (h o), ih]
      | quoted _ | placeholder _ | text _ =>
          rw [permitted_of_offence? rfl, List.filterMap_cons, List.filterMap_cons, ih]

/-- Where no offence is among them, all pieces are permitted. -/
theorem permitted_of_firstOffence? {ps : List Piece} (h : firstOffence? ps = none) :
    Substitution.permitted.on ps = ps := by
  refine Substitution.on_eq_self _ fun p hp => ?_
  cases p with
  | offence o => cases List.findSome?_eq_none_iff.mp h _ hp
  | quoted _ | placeholder _ | text _ => rfl

theorem offences_permitted (ps : List Piece) : offences (Substitution.permitted.on ps) = [] := by
  induction ps with
  | nil => rfl
  | cons p ps ih =>
      cases p with
      | offence o => exact ih
      | quoted _ | placeholder _ | text _ => exact ih

/-- A dialect that rejects no more has a statement wherever another one has, with the same
bindings. -/
theorem compile_of_rejects {d d' : Dialect} (h : ∀ o, d.rejects o = false → d'.rejects o = false)
    {n : Node} {s : Statement} (hs : n.compile d = .ok s) :
    ∃ t, n.compile d' = .ok t ∧ t.bindings = s.bindings := by
  obtain ⟨hnone, rfl⟩ := Node.compile_eq_ok_iff.mp hs
  exact ⟨_, Node.compile_eq_ok_iff.mpr ⟨fun o ho => h o (hnone o ho), rfl⟩, rfl⟩

/-- **Portability.**  A tree with a statement in MySQL has one in SQLite, and one with a statement
in SQLite has one in PostgreSQL, always with the same bindings.  A tree without a table to be
created and without an insert of no rows is one list of names, placeholders and texts, the same for
all dialects: wherever the tree has a statement, that list is laid out in it. -/
theorem compile_portable (n : Node) :
    (∀ s, n.compile .mysql = .ok s →
      ∃ t, n.compile .sqlite = .ok t ∧ t.bindings = s.bindings) ∧
    (∀ s, n.compile .sqlite = .ok s →
      ∃ t, n.compile .postgres = .ok t ∧ t.bindings = s.bindings) ∧
    ((∀ m ∈ n.nodes, m.isPortable) →
      ∃ ps, names ps = n.names ∧ bindings ps = n.parameters ∧ offences ps = [] ∧
        ∀ d s, n.compile d = .ok s → s = ⟨layout d 1 ps, bindings ps⟩) := by
  refine ⟨fun s => compile_of_rejects fun o => ?_, fun s => compile_of_rejects fun o => ?_,
    fun h => ⟨Substitution.permitted.on (n.statementPieces .postgres), ?_, ?_, ?_, ?_⟩⟩
  · cases o <;> simp [Dialect.rejects]
  · cases o <;> simp [Dialect.rejects]
  · rw [names, filterMap_permitted fun _ => rfl]
    exact Node.names_statementPieces _ n
  · rw [bindings, filterMap_permitted fun _ => rfl]
    exact Node.bindings_statementPieces _ n
  · exact offences_permitted _
  · intro d s hs
    rw [Node.compile_eq_ofPieces] at hs
    obtain ⟨hnone, rfl⟩ := Statement.eq_of_ofPieces hs
    rw [← Node.permitted_statementPieces d .postgres h, permitted_of_firstOffence? hnone]

theorem nestedParameters_portable :
    nestedParameters.compile .mysql =
        .ok ⟨"select f(?) from (select ?) as \x60a\"b\x60 where r ? limit ?",
          [.int 1, .text "x", .null, .int 2]⟩ ∧
      (∀ m ∈ nestedParameters.nodes, m.isPortable) ∧
      ∃ ps, names ps = ["a\"b"] ∧ bindings ps = [.int 1, .text "x", .null, .int 2] ∧
        nestedParameters.compile .sqlite = .ok ⟨layout .sqlite 1 ps, bindings ps⟩ ∧
        nestedParameters.compile .postgres = .ok ⟨layout .postgres 1 ps, bindings ps⟩ := by
  have hm : nestedParameters.compile .mysql =
      .ok ⟨"select f(?) from (select ?) as \x60a\"b\x60 where r ? limit ?",
        [.int 1, .text "x", .null, .int 2]⟩ := rfl
  have hp : ∀ m ∈ nestedParameters.nodes, m.isPortable := by decide
  obtain ⟨hsqlite, hpostgres, hpieces⟩ := compile_portable nestedParameters
  obtain ⟨t, ht, -⟩ := hsqlite _ hm
  obtain ⟨u, hu, -⟩ := hpostgres t ht
  obtain ⟨ps, hn, hb, -, hl⟩ := hpieces hp
  exact ⟨hm, hp, ps, hn, hb, hl .sqlite t ht ▸ ht, hl .postgres u hu ▸ hu⟩

end SqlTree
