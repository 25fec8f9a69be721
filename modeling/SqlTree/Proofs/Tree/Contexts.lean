import SqlTree.Proofs.Tree.Places

/-!
# Trees — contexts

The same node may stand in a tree more than once.  Each of its places is a context: the levels from
the root down to the place, a level being a node above it without the one child that leads there.
`Context.Plugs` puts a node into a context.

A context and a node make up one tree at most (`Context.Plugs.unique`), and the nodes of a tree are
those that it has a context for (`Node.mem_nodes_iff_exists_plugs`).
-/

namespace SqlTree

/-- A node without one of its children: its shell, and the children in front of the missing one and
behind it. -/
structure Level where
  shell : Node
  left : List Node
  right : List Node

/-- The node `n` is the level with the child `m`. -/
structure Level.Holds (f : Level) (m n : Node) : Prop where
  shell_eq : n.shell = f.shell
  children_eq : n.children = f.left ++ m :: f.right

/-- The levels above a place in a tree, the root first. -/
abbrev Context := List Level

namespace Context

/-- The tree `n` is the context with the node `m` in it. -/
def Plugs : Context → Node → Node → Prop
  | [], m, n => n = m
  | f :: c, m, n => ∃ k, f.Holds k n ∧ Plugs c m k

namespace Plugs
variable {c : Context} {m n n' : Node}

theorem unique (h : c.Plugs m n) (h' : c.Plugs m n') : n = n' := by
  induction c generalizing n n' with
  | nil => exact Eq.trans h (Eq.symm h')
  | cons f c ih =>
      obtain ⟨k, hf, hk⟩ := h
      obtain ⟨k', hf', hk'⟩ := h'
      obtain rfl := ih hk hk'
      exact Node.eq_of_shell_of_children (hf.shell_eq.trans hf'.shell_eq.symm)
        (hf.children_eq.trans hf'.children_eq.symm)

theorem mem_nodes (h : c.Plugs m n) : m ∈ n.nodes := by
  induction c generalizing n with
  | nil => exact h ▸ n.mem_nodes_self
  | cons f c ih =>
      obtain ⟨k, hf, hk⟩ := h
      have hchild : k ∈ n.children := by
        rw [hf.children_eq]
        exact List.mem_append_right _ List.mem_cons_self
      obtain ⟨p, hp, rfl⟩ := List.mem_map.mp hchild
      exact Node.nodes_subset_of_mem_places hp (ih hk)

end Plugs

end Context

/-- A node of a tree stands in it in some context. -/
theorem Node.mem_nodes_iff_exists_plugs {m n : Node} :
    m ∈ n.nodes ↔ ∃ c : Context, c.Plugs m n := by
  constructor
  · intro h
    induction n using Node.places_induction with
    | step n ih =>
      rw [nodes_eq, List.mem_append, List.mem_flatMap, List.mem_singleton] at h
      rcases h with ⟨p, hp, hm⟩ | rfl
      · obtain ⟨c, hc⟩ := ih p hp hm
        obtain ⟨left, right, hchildren⟩ := List.append_of_mem (List.mem_map_of_mem hp)
        exact ⟨⟨n.shell, left, right⟩ :: c, p.node, ⟨rfl, hchildren⟩, hc⟩
      · exact ⟨[], rfl⟩
  · rintro ⟨c, hc⟩
    exact hc.mem_nodes

end SqlTree
