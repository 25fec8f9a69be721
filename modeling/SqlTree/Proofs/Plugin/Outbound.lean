import SqlTree.Executor
import SqlTree.Proofs.Plugin.Renaming

/-!
# Plugins — what they make of a tree

The plugins for naming and for a default schema work by rules that relabel, so neither of them ever
fails on a tree and neither changes more than names and tables (`Plugin.Relabels`).

The outbound pass runs the hooks one after another, and an executor writes what comes out of it.
`Plugin.result_outboundAll_cons` and `Executor.compile_eq` say so without the log.
-/

namespace SqlTree

theorem schemaRules_relabels (schema : String) :
    (Plugin.schemaRules schema).Relabels id (TableReference.orInSchema schema) where
  identifier _ := rfl
  table _ := rfl
  other n _ ht := by
    have hk : n.kind ≠ .tableReference := by
      cases n with
      | tableReference t => cases ht
      | _ => exact NodeKind.noConfusion
    exact RuleSet.result_apply_of_kind_ne _ hk

namespace Plugin

/-- The outbound hook succeeds on every tree and changes nothing but names and tables. -/
def Relabels (p : Plugin) : Prop := ∃ g t, ∀ n : Node, p.outbound n = .ok (n.relabel g t)

theorem outbound_camelCase (o : NamingOptions) (n : Node) :
    (camelCase o).outbound n = .ok (n.mapNames (Naming.snakeCase o)) :=
  (renamingRules_relabels (Naming.snakeCase o)).transform n

theorem camelCase_relabels (o : NamingOptions) : (camelCase o).Relabels :=
  ⟨_, _, outbound_camelCase o⟩

theorem withSchema_relabels (schema : String) : (withSchema schema).Relabels :=
  ⟨_, _, (schemaRules_relabels schema).transform⟩

theorem result_outboundAll_cons (p : Plugin) (ps : List Plugin) (n : Node) :
    (outboundAll (p :: ps) n).result = p.outbound n >>= fun m => (outboundAll ps m).result := by
  rw [outboundAll, Traced.result_bind]
  exact Traced.result_bind ..

theorem result_outboundAll_singleton (p : Plugin) (n : Node) :
    (outboundAll [p] n).result = p.outbound n := by
  rw [result_outboundAll_cons]
  cases p.outbound n <;> rfl

theorem result_outboundAll_append (ps qs : List Plugin) (n : Node) :
    (outboundAll (ps ++ qs) n).result =
      (outboundAll ps n).result >>= fun m => (outboundAll qs m).result := by
  induction ps generalizing n with
  | nil => rfl
  | cons p ps ih =>
    rw [List.cons_append, result_outboundAll_cons, result_outboundAll_cons]
    cases p.outbound n with
    | error err => rfl
    | ok m => exact ih m

end Plugin

theorem Executor.compile_eq (e : Executor) (n : Node) :
    e.compile n = (Plugin.outboundAll e.plugins n).result >>= fun m => m.compile e.dialect :=
  Traced.result_bind ..

end SqlTree
