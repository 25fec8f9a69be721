import Mathlib.Data.List.Induction
import Mathlib.Data.List.Nodup
import SqlTree.Node.Builder
import SqlTree.Proofs.Entries
import SqlTree.Proofs.RuleSet.Rebuilding

/-!
# Rule sets — registrations

Rules are registered one after the other, and a kind may come up again.  What the rule set then is,
is said here by the list of registrations alone: `RuleSet.lastRule?` is the last rule in it for a
kind.

A rule set may be kept as a table with an entry for each kind that has a rule, in whatever order
(`RuleSet.TableOf`).  A registration puts its entry in the place of the one of the same kind, and
may rearrange the others; `RuleSet.TableAfter` relates registrations to the tables that may come of
them.  One registration keeps a table in step with the rule set (`RuleSet.TableOf.register`), so all
of them do (`RuleSet.TableAfter.tableOf`).

A transformation hands over nodes of the kinds that occur in the tree and of no others, so it depends
on the rules only through what they do with those (`Node.transform_congr`).

**Registrations** (`RuleSet.last_registrations`).  The last rule for a kind counts, the kinds with a
rule are those that were registered, and neither the order of the registrations nor that of a table
can be told from a lookup, from the kinds, or from a transformation and its calls.
-/

namespace SqlTree

/-! ### The order of kinds -/

namespace NodeKind

theorem index_injective : Function.Injective index :=
  Function.LeftInverse.injective ofNat_ctorIdx

theorem all_ascending : all.Pairwise fun j k => j.index < k.index := by decide

/-- The kinds in the order of their declaration. -/
def sort (kinds : List NodeKind) : List NodeKind :=
  kinds.mergeSort fun j k => decide (j.index ≤ k.index)

theorem pairwise_sort (kinds : List NodeKind) :
    (sort kinds).Pairwise fun j k => j.index ≤ k.index := by
  refine (List.pairwise_mergeSort (fun i j k hij hjk => ?_) (fun j k => ?_) kinds).imp
    of_decide_eq_true
  · rw [decide_eq_true_iff] at hij hjk ⊢
    exact Nat.le_trans hij hjk
  · rw [Bool.or_eq_true, decide_eq_true_iff, decide_eq_true_iff]
    exact Nat.le_total j.index k.index

/-- There is one way to put kinds that are all different in order. -/
theorem sort_eq_of_perm {kinds sorted : List NodeKind} (h : kinds.Perm sorted)
    (hs : sorted.Pairwise fun j k => j.index < k.index) : sort kinds = sorted := by
  have hperm : (sort kinds).Perm sorted := (List.mergeSort_perm _ _).trans h
  refine hperm.eq_of_pairwise (fun j k _ _ hjk hkj => ?_) (pairwise_sort kinds)
    (hs.imp Nat.le_of_lt)
  exact index_injective (Nat.le_antisymm hjk hkj)

end NodeKind

/-! ### What a transformation depends on -/

section
variable {rules others : RuleSet}

theorem Place.transformList_congr {ps : List Place}
    (h : ∀ p ∈ ps, p.transform rules = p.transform others) :
    transformList rules ps = transformList others ps := by
  induction ps with
  | nil => rfl
  | cons p ps ih =>
    obtain ⟨hp, hps⟩ := List.forall_mem_cons.1 h
    rw [transformList_cons, transformList_cons, hp, ih hps]

/-- Rules that do the same with all nodes of the kinds in a tree transform it alike, with the same
calls. -/
theorem Node.transform_congr {n : Node}
    (h : ∀ m ∈ n.nodes, ∀ k : Node, k.kind = m.kind → rules.apply k = others.apply k) :
    n.transform rules = n.transform others := by
  induction n using Node.places_induction with
  | step n ih =>
    obtain ⟨parts, hparts⟩ := n.exists_rebuilds rules
    obtain ⟨parts', hparts'⟩ := n.exists_rebuilds others
    have hplaces : Place.transformList rules n.places = Place.transformList others n.places := by
      refine Place.transformList_congr fun p hp => ?_
      have hnode : p.node.transform rules = p.node.transform others :=
        ih p hp fun m hm => h m (nodes_subset_of_mem_places hp hm)
      rw [Place.transform, Place.transform, hnode]
    have hsame : parts = parts' := by
      refine hparts.shell.eq_of_map_eq hparts'.shell
        (fun a b ha hb => eq_of_shell_of_children (ha.trans hb.symm)) ?_
      rw [← hparts.children, hplaces, hparts'.children]
    rw [hparts.transform, hparts'.transform, ← hsame]
    -- what is handed over for the root is of its kind
    exact hparts.shell.bind_congr fun k hk => h n n.mem_nodes_self k (kind_eq_of_shell hk)

end

namespace RuleSet

/-! ### The last rule of a kind -/

/-- The last rule that is registered for a kind. -/
def lastRule? (entries : List (NodeKind × Rule)) (kind : NodeKind) : Option Rule :=
  entries.reverse.lookup kind

variable {rules : RuleSet} {entries table : List (NodeKind × Rule)} {kind : NodeKind}

theorem rule?_register (rules : RuleSet) (e : NodeKind × Rule) (kind : NodeKind) :
    (rules.register e.1 e.2).rule? kind = if kind = e.1 then some e.2 else rules.rule? kind := rfl

theorem ofList_concat (entries : List (NodeKind × Rule)) (e : NodeKind × Rule) :
    ofList (entries ++ [e]) = (ofList entries).register e.1 e.2 :=
  List.foldl_concat ..

/-- The last rule for each kind counts. -/
theorem rule?_ofList (entries : List (NodeKind × Rule)) (kind : NodeKind) :
    (ofList entries).rule? kind = lastRule? entries kind := by
  induction entries using List.reverseRecOn with
  | nil => rfl
  | append_singleton entries e ih =>
    rw [ofList_concat, rule?_register, ih]
    exact (lookup_reverse_concat entries e kind).symm

theorem isSome_lastRule?_iff :
    (lastRule? entries kind).isSome ↔ kind ∈ entries.map Prod.fst := by
  rw [lastRule?, List.lookup_isSome_iff, List.mem_map]
  simp only [List.mem_reverse, beq_iff_eq, @eq_comm _ kind]

/-! ### The kinds with a rule -/

theorem mem_kinds_iff : kind ∈ rules.kinds ↔ (rules.rule? kind).isSome := by
  rw [kinds, List.mem_filter]
  exact and_iff_right (NodeKind.mem_all kind)

theorem kinds_ascending (rules : RuleSet) :
    rules.kinds.Pairwise fun j k => j.index < k.index :=
  NodeKind.all_ascending.filter _

theorem nodup_kinds (rules : RuleSet) : rules.kinds.Nodup :=
  rules.kinds_ascending.imp fun h => ne_of_apply_ne NodeKind.index (Nat.ne_of_lt h)

theorem mem_kinds_ofList_iff : kind ∈ (ofList entries).kinds ↔ kind ∈ entries.map Prod.fst := by
  rw [mem_kinds_iff, rule?_ofList, isSome_lastRule?_iff]

theorem isEmpty_ofList_iff : (ofList entries).isEmpty = true ↔ entries = [] := by
  rw [isEmpty, List.isEmpty_iff, List.eq_nil_iff_forall_not_mem]
  simp only [mem_kinds_ofList_iff]
  rw [← List.eq_nil_iff_forall_not_mem, List.map_eq_nil_iff]

/-! ### Tables -/

/-- A table that has the rule of each kind once, and nothing else. -/
structure TableOf (rules : RuleSet) (table : List (NodeKind × Rule)) : Prop where
  distinct : (table.map Prod.fst).Nodup
  mem_iff (e : NodeKind × Rule) : e ∈ table ↔ rules.rule? e.1 = some e.2

/-- A table that may come of some registrations. -/
inductive TableAfter : List (NodeKind × Rule) → List (NodeKind × Rule) → Prop where
  | empty : TableAfter [] []
  /-- The entry takes the place of one of its kind, and any entries may be rearranged. -/
  | register {entries table table' : List (NodeKind × Rule)} {e : NodeKind × Rule}
      (before : TableAfter entries table)
      (entered : table'.Perm (e :: table.filter fun f => f.1 ≠ e.1)) :
      TableAfter (entries ++ [e]) table'

theorem TableOf.register {table' : List (NodeKind × Rule)} {e : NodeKind × Rule}
    (h : TableOf rules table) (entered : table'.Perm (e :: table.filter fun f => f.1 ≠ e.1)) :
    TableOf (rules.register e.1 e.2) table' where
  distinct := by
    have hfresh : e.1 ∉ (table.filter fun f => f.1 ≠ e.1).map Prod.fst := by simp
    rw [(entered.map Prod.fst).nodup_iff, List.map_cons, List.nodup_cons]
    exact ⟨hfresh, (List.filter_sublist.map Prod.fst).nodup h.distinct⟩
  mem_iff f := by
    rw [entered.mem_iff, List.mem_cons, List.mem_filter, h.mem_iff, rule?_register, Prod.ext_iff]
    by_cases hkind : f.1 = e.1
    · simp [hkind, eq_comm]
    · simp [hkind]

theorem TableAfter.tableOf (h : TableAfter entries table) : TableOf (ofList entries) table := by
  induction h with
  | empty => exact ⟨List.nodup_nil, fun _ => iff_of_false List.not_mem_nil nofun⟩
  | register _ entered ih =>
    rw [ofList_concat]
    exact ih.register entered

theorem exists_tableAfter (entries : List (NodeKind × Rule)) :
    ∃ table, TableAfter entries table := by
  induction entries using List.reverseRecOn with
  | nil => exact ⟨[], .empty⟩
  | append_singleton entries e ih =>
    obtain ⟨table, h⟩ := ih
    exact ⟨_, h.register (.refl _)⟩

namespace TableOf
variable (h : TableOf rules table)
include h

theorem lookup_eq (kind : NodeKind) : table.lookup kind = rules.rule? kind := by
  cases hl : table.lookup kind with
  | none =>
    cases hr : rules.rule? kind with
    | none => rfl
    | some rule =>
      have hne := List.lookup_eq_none_iff.1 hl (kind, rule) ((h.mem_iff (kind, rule)).2 hr)
      exact absurd rfl (bne_iff_ne.1 hne)
  | some rule =>
    obtain ⟨before, after, rfl, -⟩ := List.lookup_eq_some_iff.1 hl
    have hmem : (kind, rule) ∈ before ++ (kind, rule) :: after :=
      List.mem_append_right before List.mem_cons_self
    exact ((h.mem_iff _).1 hmem).symm

theorem perm_kinds : (table.map Prod.fst).Perm rules.kinds := by
  refine (List.perm_ext_iff_of_nodup h.distinct rules.nodup_kinds).2 fun kind => ?_
  rw [mem_kinds_iff, Option.isSome_iff_exists, List.mem_map]
  constructor
  · rintro ⟨e, he, rfl⟩
    exact ⟨e.2, (h.mem_iff e).1 he⟩
  · rintro ⟨rule, hr⟩
    exact ⟨(kind, rule), (h.mem_iff (kind, rule)).2 hr, rfl⟩

theorem sort_kinds : NodeKind.sort (table.map Prod.fst) = rules.kinds :=
  NodeKind.sort_eq_of_perm h.perm_kinds rules.kinds_ascending

theorem isEmpty_eq : table.isEmpty = rules.isEmpty := by
  rw [isEmpty, ← h.perm_kinds.isEmpty_eq, List.isEmpty_map]

end TableOf

theorem apply_congr {others : RuleSet} {n : Node}
    (h : rules.rule? n.kind = others.rule? n.kind) : rules.apply n = others.apply n := by
  rw [apply, apply, h]

/-- **Registrations.**  The rule for a kind is the last one that was registered for it.  The kinds
with a rule are those that were registered, each once and in the order of their declaration, and
there are none exactly if nothing was registered.  A table that comes of the registrations gives the
same answers, whatever the order of its entries.  Two lists of registrations with the same last rule
for each kind of node in a tree transform it alike: with the same result or error, and with the same
calls. -/
theorem last_registrations (entries : List (NodeKind × Rule)) :
    (∀ kind rule, (ofList entries).rule? kind = some rule ↔
      ∃ before after, entries = before ++ (kind, rule) :: after ∧ ∀ e ∈ after, e.1 ≠ kind) ∧
    (∀ kind, kind ∈ (ofList entries).kinds ↔ kind ∈ entries.map Prod.fst) ∧
    ((ofList entries).kinds.Pairwise fun j k => j.index < k.index) ∧
    ((ofList entries).isEmpty = true ↔ entries = []) ∧
    (∀ table, TableAfter entries table →
      (∀ kind, table.lookup kind = (ofList entries).rule? kind) ∧
      NodeKind.sort (table.map Prod.fst) = (ofList entries).kinds ∧
      table.isEmpty = (ofList entries).isEmpty) ∧
    ∀ (others : List (NodeKind × Rule)) (n : Node),
      (∀ m ∈ n.nodes, lastRule? entries m.kind = lastRule? others m.kind) →
      n.transform (ofList entries) = n.transform (ofList others) := by
  refine ⟨fun kind rule => ?_, fun kind => mem_kinds_ofList_iff, kinds_ascending _,
    isEmpty_ofList_iff, fun table ht => ?_, fun others n h => ?_⟩
  · rw [rule?_ofList, lastRule?, lookup_reverse_eq_some_iff]
  · have htable : TableOf (ofList entries) table := ht.tableOf
    exact ⟨htable.lookup_eq, htable.sort_kinds, htable.isEmpty_eq⟩
  · refine Node.transform_congr fun m hm k hk => apply_congr ?_
    rw [rule?_ofList, rule?_ofList, hk]
    exact h m hm

/-- Rules that refuse names until another one for them is registered. -/
def overwrittenRegistrations : List (NodeKind × Rule) :=
  [(.identifier, fun _ => .error "no names"), (.parameter, fun n => .ok (.call "cast" [n])),
    (.join, fun _ => .error "no joins"), (.identifier, .ok)]

/-- What counts of them for names and parameters, the other way round. -/
def plainRegistrations : List (NodeKind × Rule) :=
  [(.identifier, .ok), (.parameter, fun n => .ok (.call "cast" [n]))]

/-- A comparison of a column with a value. -/
def idComparison : Node := .binary (.column { name := "id" }) .eq (.parameter (.int 1))

/-- No rule that counts refuses a name, and there is no join to refuse. -/
theorem last_registrations_overwritten :
    (∃ table, TableAfter overwrittenRegistrations table ∧
      NodeKind.sort (table.map Prod.fst) = [.identifier, .join, .parameter]) ∧
    (∀ m ∈ idComparison.nodes,
      lastRule? overwrittenRegistrations m.kind = lastRule? plainRegistrations m.kind) ∧
    idComparison.transform (ofList overwrittenRegistrations) =
      ⟨[.identifier { name := "id" }, .parameter (.int 1)],
        .ok (.binary (.column { name := "id" }) .eq (.call "cast" [.parameter (.int 1)]))⟩ := by
  obtain ⟨-, -, -, -, htables, htransform⟩ := last_registrations overwrittenRegistrations
  obtain ⟨table, htable⟩ := exists_tableAfter overwrittenRegistrations
  have hlast : ∀ m ∈ idComparison.nodes,
      lastRule? overwrittenRegistrations m.kind = lastRule? plainRegistrations m.kind := by
    intro m hm
    have hcases : m ∈ [.identifier _, .columnReference _, .parameter _, idComparison] := hm
    simp only [List.mem_cons, List.not_mem_nil, or_false] at hcases
    rcases hcases with rfl | rfl | rfl | rfl <;> rfl
  exact ⟨⟨table, htable, (htables table htable).2.1.trans rfl⟩, hlast,
    (htransform plainRegistrations idComparison hlast).trans rfl⟩

end RuleSet

end SqlTree
