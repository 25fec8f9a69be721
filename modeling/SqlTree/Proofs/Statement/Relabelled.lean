import Mathlib.Data.List.Forall2
import SqlTree.Proofs.Statement.Marks
import SqlTree.Proofs.Statement.Templates
import SqlTree.Proofs.Tree.Labels

/-!
# Statements — relabelled trees

Relabelling a tree changes the names in its statement, and a table may get a schema with its dot or
lose it.  All of that is text and quoted names.  So whatever else is picked from the pieces of a
tree is picked from those of the relabelled tree as well, in the same order
(`Node.filterMap_pieces_relabel`): it has the same parameters and the same offences.

**Relabelled trees** (`Node.compile_relabel`).  In every dialect a relabelled tree fails with the
error of the tree, or has a statement with the same bindings.
-/

namespace SqlTree

section
variable {α : Type} {pick : Piece → Option α}

/-- What is picked from a filled template depends on the groups by what is picked from them. -/
theorem filterMap_fill {gs hs : List (List Piece)}
    (h : List.Forall₂ (fun g h => g.filterMap pick = h.filterMap pick) gs hs) (F : List Piece) :
    (fill gs F).filterMap pick = (fill hs F).filterMap pick := by
  induction F generalizing gs hs with
  | nil => rw [fill_nil, fill_nil]
  | cons p F ih =>
    cases p with
    | placeholder v =>
      cases h with
      | nil => rfl
      | cons hg hgs =>
        rw [fill_gap, fill_gap, List.filterMap_append, List.filterMap_append, hg, ih hgs]
    | quoted _ | text _ | offence _ =>
      rw [fill_cons rfl, fill_cons rfl, List.filterMap_cons, List.filterMap_cons, ih h]

variable (ht : ∀ s, pick (.text s) = none) (hq : ∀ name, pick (.quoted name) = none)

section
include hq

theorem Identifier.pick_marks (id : Identifier) : ∀ p ∈ id.marks, pick p = none := by
  intro p hp
  unfold Identifier.marks at hp
  split at hp
  · cases hp
  · obtain rfl := List.mem_singleton.1 hp
    exact hq id.name

theorem Identifier.pick_optionMarks (id? : Option Identifier) :
    ∀ p ∈ Identifier.optionMarks id?, pick p = none := by
  cases id? with
  | none => exact fun p hp => absurd hp List.not_mem_nil
  | some id => exact id.pick_marks hq

theorem TableReference.pick_marks (r : TableReference) : ∀ p ∈ r.marks, pick p = none := by
  rw [TableReference.marks, List.forall_mem_append, List.forall_mem_append]
  exact ⟨⟨Identifier.pick_optionMarks hq _, Identifier.pick_marks hq _⟩,
    Identifier.pick_optionMarks hq _⟩

theorem CreateTable.pick_marks (q : CreateTable) :
    ∀ p ∈ (Node.createTable q).marks, pick p = none := by
  rw [Node.marks, List.forall_mem_append]
  refine ⟨q.table.pick_marks hq, fun p hp => ?_⟩
  obtain ⟨c, -, hc⟩ := List.mem_flatMap.1 hp
  exact c.column.pick_marks hq p hc

end

section
include ht
variable (d : Dialect)

theorem Node.filterMap_pieces_of_marks {n : Node} (h : ∀ p ∈ n.marks, pick p = none) :
    (n.pieces d).filterMap pick = [] := by
  rw [← filterMap_marks ht, Node.marks_pieces, List.filterMap_eq_nil_iff]
  exact fun p hp => h p (List.mem_of_mem_filter hp)

/-- The parentheses around a query are text. -/
theorem Node.filterMap_pieces (n : Node) :
    (n.pieces d).filterMap pick = (n.statementPieces d).filterMap pick := by
  cases n with
  | select q => simp [Node.pieces, Node.statementPieces, Piece.parenthesized, ht]
  | _ => rfl

end

section
variable (g : Identifier → Identifier) (t : TableReference → TableReference)

theorem Node.groupsLike_relabel (n : Node) : (n.relabel g t).GroupsLike n := by
  cases n <;> exact ⟨fun _ => rfl, fun _ => rfl, rfl⟩

theorem Node.kind_relabel (n : Node) : (n.relabel g t).kind = n.kind := by
  cases n <;> rfl

theorem Node.templateParts_relabel {n : Node} (hn : n.tableReference? = none)
    (hk : n.kind ≠ .createTable) :
    (n.relabel g t).templateParts = n.templateParts.map (Node.relabel g t) := by
  cases n with
  | createTable q => exact absurd rfl hk
  | columnDefinition c | parameter v => rfl
  | _ => exact children_relabel g t hn

/-- One level: a relabelled node has the template of the node, and the gaps are filled with what was
relabelled below it. -/
theorem Node.filterMap_statementPieces_relabel (d : Dialect) {n : Node}
    (hi : n.identifier? = none) (hn : n.tableReference? = none) (hk : n.kind ≠ .createTable)
    (h : ∀ m ∈ n.templateParts,
      ((m.relabel g t).pieces d).filterMap pick = (m.pieces d).filterMap pick) :
    ((n.relabel g t).statementPieces d).filterMap pick = (n.statementPieces d).filterMap pick := by
  have hchildren : List.Forall₂ GroupsLike (n.relabel g t).children n.children := by
    rw [children_relabel g t hn, List.forall₂_map_left_iff, List.forall₂_same]
    exact fun m _ => m.groupsLike_relabel g t
  have htemplate : (n.relabel g t).template d = n.template d :=
    template_eq d (kind_relabel g t n ▸ hk) (shell_relabel g t hi hn) hchildren
  rw [← (n.filled d).fill_eq, ← ((n.relabel g t).filled d).fill_eq, htemplate,
    templateParts_relabel g t hn hk]
  apply filterMap_fill
  rw [List.map_map, List.forall₂_map_left_iff, List.forall₂_map_right_iff, List.forall₂_same]
  exact h

include ht hq

/-- What is neither text nor a quoted name stays when a tree is relabelled. -/
theorem Node.filterMap_pieces_relabel (d : Dialect) (n : Node) :
    ((n.relabel g t).pieces d).filterMap pick = (n.pieces d).filterMap pick := by
  induction n using Node.places_induction with
  | step n ih =>
    have hparts : ∀ m ∈ n.children,
        ((m.relabel g t).pieces d).filterMap pick = (m.pieces d).filterMap pick :=
      List.forall_mem_map.2 ih
    cases n with
    -- these three have names and tables of their own, and nothing but names and text is written
    | identifier i =>
      exact (filterMap_pieces_of_marks (n := .identifier (g i)) ht d ((g i).pick_marks hq)).trans
        (filterMap_pieces_of_marks (n := .identifier i) ht d (i.pick_marks hq)).symm
    | tableReference r =>
      exact (filterMap_pieces_of_marks (n := .tableReference (r.relabel g t)) ht d
          ((r.relabel g t).pick_marks hq)).trans
        (filterMap_pieces_of_marks (n := .tableReference r) ht d (r.pick_marks hq)).symm
    | createTable q =>
      exact (filterMap_pieces_of_marks ht d ((q.relabel g t).pick_marks hq)).trans
        (filterMap_pieces_of_marks ht d (q.pick_marks hq)).symm
    | columnDefinition c | parameter v => rfl
    | _ =>
      rw [filterMap_pieces ht, filterMap_pieces ht]
      exact filterMap_statementPieces_relabel g t d rfl rfl NodeKind.noConfusion hparts

end

end

section
variable (g : Identifier → Identifier) (t : TableReference → TableReference)

/-- Relabelling leaves the parameters as they are. -/
theorem Node.parameters_relabel (n : Node) : (n.relabel g t).parameters = n.parameters := by
  -- the pieces of either tree in some dialect have its parameters for bindings
  rw [← bindings_pieces .postgres, ← bindings_pieces .postgres]
  exact filterMap_pieces_relabel (fun _ => rfl) (fun _ => rfl) g t .postgres n

theorem Node.firstOffence?_relabel (d : Dialect) (n : Node) :
    firstOffence? ((n.relabel g t).statementPieces d) = firstOffence? (n.statementPieces d) := by
  have h : ((n.relabel g t).pieces d).filterMap Piece.offence? =
      (n.pieces d).filterMap Piece.offence? :=
    filterMap_pieces_relabel (fun _ => rfl) (fun _ => rfl) g t d n
  rw [filterMap_pieces fun _ => rfl, filterMap_pieces fun _ => rfl] at h
  have hoffences : SqlTree.offences ((n.relabel g t).statementPieces d) =
      SqlTree.offences (n.statementPieces d) := h
  rw [firstOffence?_eq_head?, firstOffence?_eq_head?, hoffences]

/-- **Relabelled trees.**  A relabelled tree has a statement if the tree has one, with the same
bindings, and fails with the same error otherwise. -/
theorem Node.compile_relabel (d : Dialect) (n : Node) :
    ((n.relabel g t).compile d).map Statement.bindings = (n.compile d).map Statement.bindings := by
  rw [compile_eq_ofPieces, compile_eq_ofPieces, Statement.ofPieces, Statement.ofPieces,
    firstOffence?_relabel, bindings_statementPieces, bindings_statementPieces, parameters_relabel]
  cases firstOffence? (n.statementPieces d) <;> rfl

end

end SqlTree
