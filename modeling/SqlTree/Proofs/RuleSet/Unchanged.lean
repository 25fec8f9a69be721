import SqlTree.Plugin.WithSchema
import SqlTree.Proofs.RuleSet.Failure
import SqlTree.Statement.Compile

/-!
# Rule sets — what leaves a tree unchanged

Rules that would change other trees may return every node of a given tree as it is
(`RuleSet.Fixes`).  Each node of the tree then becomes itself (`RuleSet.Fixes.rewrites`), so what is
handed to a rule is the original node (`RuleSet.Fixes.eq_of_handedOver`), and no place of the tree
can fail.

**Unchanged trees** (`transform_unchanged`).  The transformation of such a tree is the tree, with
every part of every node, and so it has the same statement in each dialect.
-/

namespace SqlTree

/-- Each rule returns the nodes of a tree that it may be given. -/
def RuleSet.Fixes (rules : RuleSet) (n : Node) : Prop :=
  ∀ m ∈ n.nodes, ∀ rule, rules.rule? m.kind = some rule → rule m = .ok m

/-- A rule for every kind that returns what it is given. -/
def RuleSet.identity : RuleSet := ofList (NodeKind.all.map fun kind => (kind, Except.ok))

theorem RuleSet.rule?_identity (kind : NodeKind) : identity.rule? kind = some Except.ok := by
  cases kind <;> rfl

namespace RuleSet.Fixes

theorem empty (n : Node) : RuleSet.empty.Fixes n := by
  intro m _ rule hr
  cases hr

theorem identity (n : Node) : RuleSet.identity.Fixes n := by
  intro m _ rule hr
  rw [rule?_identity] at hr
  cases hr
  rfl

section
variable {rules : RuleSet} {n m : Node} (h : rules.Fixes n)
include h

theorem of_mem_nodes (hm : m ∈ n.nodes) : rules.Fixes m :=
  fun k hk => h k (Node.nodes_subset hm hk)

theorem of_mem_places {p : Place} (hp : p ∈ n.places) : rules.Fixes p.node :=
  h.of_mem_nodes (Node.nodes_subset_of_mem_places hp p.node.mem_nodes_self)

/-- Such a node becomes itself. -/
theorem rewrites : Rewrites rules n n := by
  induction n using Node.places_induction with
  | step n ih =>
    have hchildren : List.Forall₂ (Rewrites rules) n.children n.children := by
      rw [List.forall₂_same, Node.children, List.forall_mem_map]
      exact fun p hp => ih p hp (h.of_mem_places hp)
    cases hf : rules.rule? n.kind with
    | none => exact .kept rfl hchildren hf
    | some rule => exact .replaced rfl hchildren hf (h n n.mem_nodes_self rule hf)

theorem handedOver : HandedOver rules n n where
  shell := rfl
  children := by
    rw [List.forall₂_same, Node.children, List.forall_mem_map]
    exact fun p hp => (h.of_mem_places hp).rewrites

/-- What is handed over for such a node is the node. -/
theorem eq_of_handedOver (hm : HandedOver rules n m) : m = n := hm.unique h.handedOver

theorem passes {p : Place} (hp : p ∈ n.walk) : p.Passes rules := by
  have hmem : p.node ∈ n.nodes := by
    rw [← n.map_node_walk]
    exact List.mem_map_of_mem hp
  have hfixes : rules.Fixes p.node := h.of_mem_nodes hmem
  intro e he
  cases he with
  | rule hh hf hc =>
    obtain rfl := hfixes.eq_of_handedOver hh
    rw [h _ hmem _ hf] at hc
    cases hc
  | slot hh hf hr hs hmis =>
    obtain rfl := hfixes.eq_of_handedOver hh
    rw [h _ hmem _ hf] at hr
    cases hr
    exact hmis (Node.accepts_of_mem_walk p hp _ hs)

theorem transform_eq : rules.transform n = .ok n := by
  have hwalked : Walked rules (Rewrites rules n) n.walk (n.transform rules) := n.walked
  cases hr : rules.transform n with
  | ok m =>
    obtain ⟨-, -, hm⟩ := hwalked.of_ok hr
    rw [hm.unique h.rewrites]
  | error e =>
    obtain ⟨p, hp, e', he⟩ := transform_fails_iff.1 ⟨e, hr⟩
    exact absurd he (h.passes hp e')

/-- The rules are given the nodes of the tree as they are. -/
theorem log_eq : (n.transform rules).log = n.nodes.filter rules.handles := by
  have hwalked : Walked rules (Rewrites rules n) n.walk (n.transform rules) := n.walked
  obtain ⟨-, hcalls, -⟩ := hwalked.of_ok h.transform_eq
  rw [callsFor_walk_iff] at hcalls
  have hself : List.Forall₂ (HandedOver rules) (n.nodes.filter rules.handles)
      (n.nodes.filter rules.handles) :=
    List.forall₂_same.2 fun m hm => (h.of_mem_nodes (List.mem_of_mem_filter hm)).handedOver
  exact forall₂_unique (fun _ _ _ _ hm hm' => hm.unique hm') hcalls hself

end

end RuleSet.Fixes

/-- **Unchanged trees.**  Rules that return every node of a tree they may be given leave the tree
as it is: the transformation succeeds, with a tree that has the same parts throughout, and the rules
have been given the nodes of the tree and nothing else.  Its statement, or the error in place of
one, is the same in each dialect.  Without rules, and with rules that return whatever they are
given, every tree is such a tree. -/
theorem transform_unchanged (rules : RuleSet) (n : Node) :
    (rules.Fixes n →
      rules.transform n = .ok n ∧
      (n.transform rules).log = n.nodes.filter rules.handles ∧
      ∀ d : Dialect, (rules.transform n >>= fun m => m.compile d) = n.compile d) ∧
    RuleSet.empty.Fixes n ∧ RuleSet.identity.Fixes n := by
  refine ⟨fun h => ⟨h.transform_eq, h.log_eq, fun d => ?_⟩, .empty n, .identity n⟩
  rw [h.transform_eq]
  rfl

/-- Rules that put tables into a schema, and accept neither calls nor raw fragments. -/
def guardedRules : RuleSet :=
  ((Plugin.schemaRules "app").register .call fun _ => .error "no calls").register .rawFragment
    fun _ => .error "no raw fragments"

/-- An update of a table in a schema, by a select with an offset. -/
def qualifiedUpdate : Node :=
  .update
    { table := { schema := some { name := "app" }, name := { name := "person" } }
      updates :=
        [⟨{ name := "rank" },
          .select
            { distinct := true
              selections := [.wildcard (some { name := "r" })]
              sources := [.tableReference
                { schema := some { name := "log", raw := true }, name := { name := "ranks" },
                  aliasName := some { name := "r" } }]
              ordering := [⟨.column { name := "day" }, .descending⟩]
              offset := some (.parameter (.int 1)) }⟩]
      returning := [.unary .isNull (.column { name := "rank" })] }

theorem qualifiedUpdate_unchanged :
    guardedRules.Fixes qualifiedUpdate ∧
    guardedRules.transform qualifiedUpdate = .ok qualifiedUpdate ∧
    (qualifiedUpdate.transform guardedRules).log.map Node.kind =
      [.tableReference, .tableReference] := by
  have h : guardedRules.Fixes qualifiedUpdate := by
    intro m hm rule hr
    -- only the two tables have a rule
    have hmem : m ∈ qualifiedUpdate.nodes.filter guardedRules.handles :=
      List.mem_filter.2 ⟨hm, by rw [RuleSet.handles, hr]; rfl⟩
    have hcases : m ∈ [Node.tableReference _, Node.tableReference _] := hmem
    rcases List.mem_pair.1 hcases with rfl | rfl <;> cases hr <;> rfl
  obtain ⟨htransform, hlog, -⟩ := (transform_unchanged guardedRules qualifiedUpdate).1 h
  exact ⟨h, htransform, by rw [hlog]; rfl⟩

end SqlTree
