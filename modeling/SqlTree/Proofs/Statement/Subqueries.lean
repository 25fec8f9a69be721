import Mathlib.Data.List.Forall2
import SqlTree.Node.Builder
import SqlTree.Proofs.Statement.Parameters
import SqlTree.Proofs.Statement.Templates
import SqlTree.Proofs.Tree.Contexts

/-!
# Statements — subqueries

A query is written in the same way wherever it stands.  Around a child of a node stands what the
template of the node has before the gap and behind it, filled with the other children; what stands
around a deeper node is found level by level (`Context.WrittenAround`).  None of it depends on the
node that stands there, as long as that is an operand without parentheses, and so the place of a
query in a statement is told by its context.

**Subqueries** (`compile_subquery`).  Where a statement has a query below its root, the query has a
statement of its own.  Between parentheses it is written there with its placeholders counted on from
the parameters in front of it, and its bindings are a slice of those of the statement.
-/

namespace SqlTree

/-- The values of the parameters to the left of a place. -/
def Context.parametersBefore (c : Context) : List Value :=
  c.flatMap fun f => f.left.flatMap Node.parameters

/-- Pieces that are written before and behind whatever atomic node stands in a context.  How the
tree itself is written, as a statement or inside one, is told by `pieces`. -/
structure Context.WrittenAround (d : Dialect) (pieces : Node → List Piece) (c : Context)
    (before after : List Piece) : Prop where
  bindings_before : bindings before = c.parametersBefore
  pieces_eq {m n : Node} (hm : m.isAtomic) (hn : c.Plugs m n) :
    pieces n = before ++ m.pieces d ++ after

section
variable (d : Dialect)

/-! ### One level -/

/-- The nodes that are written wherever they stand, and their children with them. -/
def Node.IsWritten (n : Node) : Prop := n.kind ≠ .createTable ∧ n.kind ≠ .columnDefinition

theorem Node.templateParts_eq {n : Node} (hw : n.IsWritten) (hc : n.children ≠ []) :
    n.templateParts = n.children := by
  cases n with
  | columnDefinition _ => exact absurd rfl hw.2
  | createTable _ => exact absurd rfl hw.1
  | parameter _ => exact absurd rfl hc
  | _ => rfl

/-- What is written around a child does not depend on the child, except on its grouping. -/
theorem Level.Holds.exists_around {f : Level} {m n : Node} (h : f.Holds m n) (hw : n.IsWritten) :
    ∃ before after, bindings before = f.left.flatMap Node.parameters ∧
      ∀ {m' n' : Node}, f.Holds m' n' → m.GroupsLike m' →
        n'.statementPieces d = before ++ m'.pieces d ++ after := by
  have hparts {m' n' : Node} (h' : f.Holds m' n') : n'.templateParts = f.left ++ m' :: f.right := by
    have hk := Node.kind_eq_of_shell (h.shell_eq.trans h'.shell_eq.symm)
    rw [Node.templateParts_eq (by rwa [Node.IsWritten, ← hk]) (by simp [h'.children_eq]),
      h'.children_eq]
  have hlength := (n.filled d).length_eq
  rw [hparts h, List.length_map, List.length_append, List.length_cons] at hlength
  obtain ⟨front, v, back, hsplit, hfront⟩ :=
    exists_gap_of_lt (F := n.template d) (i := f.left.length) (by omega)
  have hfront' : (bindings front).length = (f.left.map (Node.pieces d)).length := by
    rw [hfront, List.length_map]
  refine ⟨fill (f.left.map (Node.pieces d)) front, fill (f.right.map (Node.pieces d)) back, ?_,
    fun {m' n'} h' hm => ?_⟩
  · rw [bindings_fill hfront', List.flatMap_map]
    exact List.flatMap_congr fun k _ => Node.bindings_pieces d k
  · have hchildren : List.Forall₂ Node.GroupsLike n.children n'.children := by
      rw [h.children_eq, h'.children_eq]
      have hsame (ns : List Node) : List.Forall₂ Node.GroupsLike ns ns :=
        List.forall₂_same.mpr fun k _ => .refl k
      exact List.rel_append (hsame f.left) (.cons hm (hsame f.right))
    have htemplate : n.template d = n'.template d :=
      Node.template_eq d hw.1 (h.shell_eq.trans h'.shell_eq.symm) hchildren
    rw [← (n'.filled d).fill_eq, hparts h', ← htemplate, hsplit, List.map_append, List.map_cons,
      fill_append hfront', fill_gap, List.append_assoc]

/-! ### Contexts -/

theorem Node.pieces_of_select {n : Node} (h : n.kind = .select) :
    n.pieces d = Piece.parenthesized (n.statementPieces d) := by
  cases n <;> cases h
  rfl

theorem Node.pieces_of_not_select {n : Node} (h : n.kind ≠ .select) :
    n.pieces d = n.statementPieces d := by
  cases n with
  | select q => exact absurd rfl h
  | _ => rfl

theorem Context.Plugs.groupsLike {c : Context} {m m' n n' : Node} (hm : m.isAtomic)
    (hm' : m'.isAtomic) (h : c.Plugs m n) (h' : c.Plugs m' n') : n.GroupsLike n' := by
  cases c with
  | nil =>
      obtain rfl : n = m := h
      obtain rfl : n' = m' := h'
      exact .of_isAtomic hm hm'
  | cons f c =>
      obtain ⟨k, hf, -⟩ := h
      obtain ⟨k', hf', -⟩ := h'
      exact .of_shell (hf.shell_eq.trans hf'.shell_eq.symm)

namespace Context.WrittenAround
variable {d} {c : Context} {m n : Node} {before after : List Piece}

/-- What is written around a place in the statement of a tree, given what is written around it
below the root. -/
theorem cons {f : Level} (hw : n.IsWritten) (hm : m.isAtomic) (h : Plugs (f :: c) m n)
    (hc : c.WrittenAround d (Node.pieces d) before after) :
    ∃ before after,
      WrittenAround d (Node.statementPieces d) (f :: c) before after := by
  obtain ⟨k, hf, hk⟩ := h
  obtain ⟨front, back, hfront, heq⟩ := hf.exists_around d hw
  refine ⟨front ++ before, after ++ back, ?_, fun {m' n'} hm' hn' => ?_⟩
  · rw [bindings_append, hfront, hc.bindings_before]
    rfl
  · obtain ⟨k', hf', hk'⟩ := hn'
    rw [heq hf' (hk.groupsLike hm hm' hk'), hc.pieces_eq hm' hk']
    simp only [List.append_assoc]

/-- Inside a statement a query has parentheses around it. -/
theorem inside {f : Level} (h : WrittenAround d (Node.statementPieces d) (f :: c) before after) :
    ∃ before after, WrittenAround d (Node.pieces d) (f :: c) before after := by
  have hkind {m n : Node} (hn : Plugs (f :: c) m n) : n.kind = f.shell.kind := by
    obtain ⟨k, hf, -⟩ := hn
    rw [← hf.shell_eq, Node.kind_shell]
  by_cases hs : f.shell.kind = .select
  · refine ⟨.text "(" :: before, after ++ [.text ")"], h.bindings_before, fun {m n} hm hn => ?_⟩
    rw [Node.pieces_of_select d ((hkind hn).trans hs), h.pieces_eq hm hn]
    simp [Piece.parenthesized]
  · refine ⟨before, after, h.bindings_before, fun {m n} hm hn => ?_⟩
    rw [Node.pieces_of_not_select d fun hn' => hs ((hkind hn).symm.trans hn'), h.pieces_eq hm hn]

end Context.WrittenAround

/-- Around every place below the root that is written something is written. -/
theorem Context.exists_writtenAround {c : Context} {m n : Node} (hm : m.isAtomic) (hc : c ≠ [])
    (hw : ∀ f ∈ c, f.shell.IsWritten) (h : c.Plugs m n) :
    ∃ before after, c.WrittenAround d (Node.statementPieces d) before after := by
  induction c generalizing n with
  | nil => exact absurd rfl hc
  | cons f c ih =>
      obtain ⟨k, hf, hk⟩ := h
      have hn : n.IsWritten := by
        rw [Node.IsWritten, ← n.kind_shell, hf.shell_eq]
        exact hw f List.mem_cons_self
      cases c with
      | nil =>
          have hroot : WrittenAround d (Node.pieces d) [] [] [] :=
            ⟨rfl, fun _ hn => by rw [hn, List.nil_append, List.append_nil]⟩
          exact hroot.cons hn hm ⟨k, hf, hk⟩
      | cons g c =>
          obtain ⟨_, _, hbelow⟩ := ih (List.cons_ne_nil _ _)
            (fun f' hf' => hw f' (List.mem_cons_of_mem _ hf')) hk
          obtain ⟨_, _, hinside⟩ := hbelow.inside
          exact hinside.cons hn hm ⟨k, hf, hk⟩

/-! ### Queries -/

theorem Node.isWritten_of_select_mem {q : Select} {n : Node} (h : .select q ∈ n.nodes) :
    n.IsWritten := by
  cases n with
  | createTable c =>
      simp [Node.nodes, CreateTable.parts, TableReference.nodes, TableReference.parts,
        ColumnDefinition.nodes] at h
  | columnDefinition c => simp [Node.nodes, ColumnDefinition.nodes] at h
  | _ => exact ⟨nofun, nofun⟩

theorem Context.Plugs.isWritten {c : Context} {q : Select} {n : Node} (h : c.Plugs (.select q) n) :
    ∀ f ∈ c, f.shell.IsWritten := by
  induction c generalizing n with
  | nil => nofun
  | cons f c ih =>
      have hn := Node.isWritten_of_select_mem h.mem_nodes
      obtain ⟨k, hf, hk⟩ := h
      rw [List.forall_mem_cons, Node.IsWritten, ← hf.shell_eq, n.kind_shell]
      exact ⟨hn, ih hk⟩

end

/-! ### Statements -/

/-- **Subqueries.**  A query below the root of a statement has a statement of its own.  Behind `k`
parameters, it is written as that statement between parentheses, the `i`-th of its placeholders
being the one for `k + i`, and its bindings are those of the whole from the `k`-th on. -/
theorem compile_subquery {d : Dialect} {c : Context} {q : Select} {t : Node} {s : Statement}
    (hc : c ≠ []) (ht : c.Plugs (.select q) t) (h : t.compile d = .ok s) :
    ∃ root before after k, (Node.select q).compile d = .ok root ∧
      c.WrittenAround d (Node.statementPieces d) before after ∧ k = c.parametersBefore.length ∧
      s.sql = layout d 1 before ++ ("(" ++ layout d (k + 1) (q.pieces d) ++ ")") ++
        layout d (k + root.bindings.length + 1) after ∧
      root.sql = layout d 1 (q.pieces d) ∧
      root.bindings = (s.bindings.drop k).take root.bindings.length ∧
      ∀ front v back i, q.pieces d = front ++ .placeholder v :: back →
        i = (bindings front).length + 1 →
        root.sql = layout d 1 front ++ d.placeholder i ++ layout d (i + 1) back ∧
        layout d (k + 1) (q.pieces d) =
          layout d (k + 1) front ++ d.placeholder (k + i) ++ layout d (k + i + 1) back := by
  obtain ⟨before, after, haround⟩ := Context.exists_writtenAround d rfl hc ht.isWritten ht
  have hpieces : t.statementPieces d = before ++ Piece.parenthesized (q.pieces d) ++ after :=
    haround.pieces_eq rfl ht
  rw [Node.compile_eq_ofPieces, hpieces] at h
  obtain ⟨hnone, rfl⟩ := Statement.eq_of_ofPieces h
  have hquery : (Node.select q).compile d =
      .ok ⟨layout d 1 (q.pieces d), bindings (q.pieces d)⟩ := by
    -- what the tree can write it can write of the query
    have hfirst : firstOffence? (q.pieces d) = none := by
      simp [Piece.parenthesized] at hnone
      exact hnone.2.1
    rw [Node.compile_eq_ofPieces, Statement.ofPieces, Node.statementPieces, hfirst]
  refine ⟨_, before, after, _, hquery, haround, rfl, ?_, rfl, ?_, ?_⟩
  · rw [layout_append, layout_append, bindings_append, bindings_parenthesized, List.length_append,
      haround.bindings_before, Piece.parenthesized]
    simp [layout_append, String.append_assoc, Nat.add_comm 1, Nat.add_right_comm, Nat.add_assoc]
  · rw [bindings_append, bindings_append, bindings_parenthesized, haround.bindings_before]
    simp
  · rintro front v back _ hq rfl
    have hcount : c.parametersBefore.length + 1 + (bindings front).length =
        c.parametersBefore.length + ((bindings front).length + 1) := by omega
    rw [hq, layout_split, layout_split, hcount, Nat.add_comm 1]
    exact ⟨rfl, rfl⟩

/-- A filter by a query inside another query, with a parameter in front of each and one behind. -/
def innerQuery : Select where
  selections := [.column ⟨"id", false⟩]
  sources := [.table ⟨"t", false⟩]
  condition := some (.eq (.column ⟨"a", false⟩) (.parameter (.int 2)))

def filteredQuery : Node :=
  .select {
    selections := [.parameter (.int 1)]
    sources := [.table ⟨"u", false⟩]
    condition := some (.binary (.column ⟨"id", false⟩) .isIn (.select innerQuery))
    limit := some (.parameter (.int 3)) }

/-- The place of the inner query: the right operand in the third clause. -/
def innerContext : Context :=
  [⟨filteredQuery.shell, [.parameter (.int 1), .table ⟨"u", false⟩], [.parameter (.int 3)]⟩,
    ⟨.binary default .isIn default, [.column ⟨"id", false⟩], []⟩]

theorem compile_innerQuery :
    filteredQuery.compile .postgres = .ok ⟨"select $1 from \"u\" where \"id\" in " ++
        "(select \"id\" from \"t\" where \"a\" = $2) limit $3", [.int 1, .int 2, .int 3]⟩ ∧
      innerContext.Plugs (.select innerQuery) filteredQuery ∧
      ∃ root : Statement, (Node.select innerQuery).compile .postgres = .ok root ∧
        root.bindings = ([.int 1, .int 2, .int 3].drop 1).take root.bindings.length := by
  have h : filteredQuery.compile .postgres = .ok ⟨"select $1 from \"u\" where \"id\" in " ++
      "(select \"id\" from \"t\" where \"a\" = $2) limit $3", [.int 1, .int 2, .int 3]⟩ := rfl
  have ht : innerContext.Plugs (.select innerQuery) filteredQuery :=
    ⟨_, ⟨rfl, rfl⟩, _, ⟨rfl, rfl⟩, rfl⟩
  obtain ⟨root, _, _, _, hroot, -, rfl, -, -, hb, -⟩ := compile_subquery (List.cons_ne_nil _ _) ht h
  exact ⟨h, ht, root, hroot, hb⟩

end SqlTree
