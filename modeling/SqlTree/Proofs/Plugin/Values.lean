import SqlTree.Proofs.Plugin.Outbound
import SqlTree.Proofs.Statement.Relabelled
import SqlTree.Proofs.Statement.Values

/-!
# Plugins — values

Plugins that relabel pass the values of a tree on untouched, and the pass that writes a statement
binds them.  So nothing of a value reaches the text of a statement, and nothing about a statement
depends on one.

**Values** (`Executor.compile_values`).  Two trees that differ at most in their values either fail
with the same error or have statements with the same text, each bound to the values of its own tree.
-/

namespace SqlTree

section
variable {ps : List Plugin} (h : ∀ p ∈ ps, p.Relabels)
include h

/-- Values may be changed before or after the outbound pass. -/
theorem Plugin.result_outboundAll_mapValues (f : Value → Value) (n : Node) :
    (outboundAll ps (n.mapValues f)).result = (outboundAll ps n).result.map (Node.mapValues f) := by
  induction ps generalizing n with
  | nil => rfl
  | cons p ps ih =>
      rw [List.forall_mem_cons] at h
      obtain ⟨⟨g, t, hp⟩, hps⟩ := h
      rw [result_outboundAll_cons, result_outboundAll_cons, hp, hp, ← Node.mapValues_relabel]
      exact ih hps (n.relabel g t)

/-- What comes out of the outbound pass has the parameters of the tree that went in. -/
theorem Plugin.parameters_of_outboundAll {n m : Node} (hm : (outboundAll ps n).result = .ok m) :
    m.parameters = n.parameters := by
  induction ps generalizing n with
  | nil =>
      obtain rfl := Except.ok.inj hm
      rfl
  | cons p ps ih =>
      rw [List.forall_mem_cons] at h
      obtain ⟨⟨g, t, hp⟩, hps⟩ := h
      rw [result_outboundAll_cons, hp] at hm
      rw [ih hps hm, Node.parameters_relabel]

end

namespace Executor

section
variable {e : Executor} (h : ∀ p ∈ e.plugins, p.Relabels)
include h

/-- An executor makes of a tree with its values changed the statement of the tree with its bindings
changed. -/
theorem compile_mapValues (f : Value → Value) (n : Node) :
    e.compile (n.mapValues f) =
      (e.compile n).map fun s => { s with bindings := s.bindings.map f } := by
  rw [compile_eq, compile_eq, Plugin.result_outboundAll_mapValues h]
  cases (Plugin.outboundAll e.plugins n).result with
  | error err => rfl
  | ok m => exact Node.compile_mapValues f e.dialect m

theorem bindings_of_compile {n : Node} {s : Statement} (hs : e.compile n = .ok s) :
    s.bindings = n.parameters := by
  rw [compile_eq] at hs
  cases hm : (Plugin.outboundAll e.plugins n).result with
  | error err => rw [hm] at hs; cases hs
  | ok m =>
      have hs : m.compile e.dialect = .ok s := by rwa [hm] at hs
      rw [Node.compile_eq_ofPieces] at hs
      obtain ⟨-, rfl⟩ := Statement.eq_of_ofPieces hs
      exact (Node.bindings_statementPieces e.dialect m).trans
        (Plugin.parameters_of_outboundAll h hm)

/-- The statement of a tree is that of the blank tree, bound to the values of the tree. -/
theorem compile_eq_blank (n : Node) :
    e.compile n = (e.compile n.blank).map fun s => ⟨s.sql, n.parameters⟩ := by
  rw [Node.blank, compile_mapValues h]
  cases hn : e.compile n with
  | error err => rfl
  | ok s =>
      rw [← bindings_of_compile h hn]
      rfl

end

/-- **Values.**  Through any number of plugins for naming and for default schemas, two trees that
differ at most in the values of their parameters have as many parameters as each other, and either
fail with the same error, or have statements with the same text, whose bindings are the values of
each tree in their order. -/
theorem compile_values {e : Executor} {n m : Node}
    (hp : ∀ p ∈ e.plugins, (∃ o, p = Plugin.camelCase o) ∨ ∃ schema, p = Plugin.withSchema schema)
    (h : n.blank = m.blank) :
    n.parameters.length = m.parameters.length ∧
      ((∃ err, e.compile n = .error err ∧ e.compile m = .error err) ∨
        ∃ sql, e.compile n = .ok ⟨sql, n.parameters⟩ ∧ e.compile m = .ok ⟨sql, m.parameters⟩) := by
  have hr : ∀ p ∈ e.plugins, p.Relabels := by
    intro p hmem
    obtain ⟨o, rfl⟩ | ⟨schema, rfl⟩ := hp p hmem
    · exact Plugin.camelCase_relabels o
    · exact Plugin.withSchema_relabels schema
  constructor
  · have hlen := congrArg (fun k => k.parameters.length) h
    simpa [Node.blank, Node.parameters_mapValues] using hlen
  · rw [compile_eq_blank hr n, compile_eq_blank hr m, h]
    cases e.compile m.blank with
    | error err => exact .inl ⟨err, rfl, rfl⟩
    | ok s => exact .inr ⟨s.sql, rfl, rfl⟩

/-- The lookup of a user by name. -/
def userByName (v : Value) : Node :=
  .select {
    selections := [.wildcard none]
    sources := [.table ⟨"users", false⟩]
    condition := some (.eq (.column ⟨"userName", false⟩) (.parameter v)) }

/-- An executor that puts names into snake case and tables into a schema. -/
def layeredExecutor : Executor where
  dialect := .postgres
  plugins := [Plugin.camelCase {}, Plugin.withSchema "app"]

theorem userByName_values :
    (∀ p ∈ layeredExecutor.plugins,
        (∃ o, p = Plugin.camelCase o) ∨ ∃ schema, p = Plugin.withSchema schema) ∧
      (userByName (.text "x")).blank = (userByName (.text "' or '' = '")).blank ∧
      layeredExecutor.compile (userByName (.text "x")) =
        .ok ⟨"select * from \"app\".\"users\" where \"user_name\" = $1", [.text "x"]⟩ ∧
      layeredExecutor.compile (userByName (.text "' or '' = '")) =
        .ok ⟨"select * from \"app\".\"users\" where \"user_name\" = $1",
          [.text "' or '' = '"]⟩ := by
  have hp : ∀ p ∈ layeredExecutor.plugins,
      (∃ o, p = Plugin.camelCase o) ∨ ∃ schema, p = Plugin.withSchema schema :=
    List.forall_mem_cons.mpr ⟨.inl ⟨_, rfl⟩, List.forall_mem_singleton.mpr (.inr ⟨_, rfl⟩)⟩
  have hb : (userByName (.text "x")).blank = (userByName (.text "' or '' = '")).blank := rfl
  have hsql : (layeredExecutor.compile (userByName (.text "x"))).toOption.map Statement.sql =
      some "select * from \"app\".\"users\" where \"user_name\" = $1" := by
    decide +kernel
  obtain ⟨-, ⟨err, he, -⟩ | ⟨sql, hx, hy⟩⟩ := compile_values hp hb
  · rw [he] at hsql
    cases hsql
  · rw [hx] at hsql
    obtain rfl := Option.some.inj hsql
    exact ⟨hp, hb, hx, hy⟩

end Executor

end SqlTree
