import Mathlib.Data.List.Forall2
import SqlTree.Node.Builder
import SqlTree.Proofs.RuleSet.Rebuilding

/-!
# Rule sets — the calls of a transformation

What a rule set makes of a tree is said here without the rewriter.  `Rewrites` relates a node to
what becomes of it: its children are rewritten, and the node with its shell and the rewritten
children is kept, or replaced by what the rule for its kind returns.  `HandedOver` relates a node to
the one that is handed to a rule for it.

A place *fails* when the rule that is called there does, or returns a node that may not stand there
(`Place.FailsWith`).  `Walked` says that a computation goes through a list of places: it makes one
call for each of them that has a rule, in order, up to the first place that fails.
-/

namespace SqlTree

/-- Whether a node has a rule. -/
def RuleSet.handles (rules : RuleSet) (n : Node) : Bool := (rules.rule? n.kind).isSome

/-- What becomes of a node. -/
inductive Rewrites (rules : RuleSet) : Node → Node → Prop where
  /-- A node without a rule is kept, with its children rewritten. -/
  | kept {n h : Node} (shell : h.shell = n.shell)
      (children : List.Forall₂ (Rewrites rules) n.children h.children)
      (free : rules.rule? h.kind = none) : Rewrites rules n h
  /-- A node with a rule becomes what the rule makes of it, with its children rewritten. -/
  | replaced {n h m : Node} {rule : Rule} (shell : h.shell = n.shell)
      (children : List.Forall₂ (Rewrites rules) n.children h.children)
      (found : rules.rule? h.kind = some rule) (returned : rule h = .ok m) : Rewrites rules n m

/-- `h` is handed over for `n`: it is `n` with its children rewritten. -/
structure HandedOver (rules : RuleSet) (n h : Node) : Prop where
  shell : h.shell = n.shell
  children : List.Forall₂ (Rewrites rules) n.children h.children

/-- Something goes wrong in a place. -/
inductive Place.FailsWith (rules : RuleSet) (p : Place) : QueryError → Prop where
  /-- The rule that is called fails. -/
  | rule {h : Node} {rule : Rule} {cause : String} (handed : HandedOver rules p.node h)
      (found : rules.rule? h.kind = some rule) (failed : rule h = .error cause) :
      FailsWith rules p (.rule h.kind cause)
  /-- The rule that is called returns a node of another kind than the slot holds. -/
  | slot {h m : Node} {rule : Rule} {slot : Slot} (handed : HandedOver rules p.node h)
      (found : rules.rule? h.kind = some rule) (returned : rule h = .ok m)
      (typed : p.slot? = some slot) (misfit : m.kind ≠ slot.kind) :
      FailsWith rules p (.unsupportedNodeKind m.kind slot)

def Place.Passes (rules : RuleSet) (p : Place) : Prop := ∀ e, ¬ p.FailsWith rules e

/-- The calls made on the way through some places: one for each place whose node has a rule. -/
def CallsFor (rules : RuleSet) (ps : List Place) (log : List Node) : Prop :=
  List.Forall₂ (HandedOver rules) ((ps.map Place.node).filter rules.handles) log

/-- A computation that goes through some places, up to the first one that fails. -/
inductive Walked (rules : RuleSet) {α : Type} (P : α → Prop) :
    List Place → Transformation α → Prop where
  | ok {ps : List Place} {log : List Node} {a : α} (passed : ∀ p ∈ ps, p.Passes rules)
      (calls : CallsFor rules ps log) (result : P a) : Walked rules P ps ⟨log, .ok a⟩
  | error {before after : List Place} {p : Place} {log : List Node} {e : QueryError}
      (passed : ∀ q ∈ before, q.Passes rules) (fails : p.FailsWith rules e)
      (calls : CallsFor rules (before ++ [p]) log) :
      Walked rules P (before ++ p :: after) ⟨log, .error e⟩

section
variable {rules : RuleSet}

namespace RuleSet
variable {n : Node}

theorem apply_of_none (h : rules.rule? n.kind = none) : rules.apply n = .ok n := by
  rw [apply, h]

theorem apply_of_ok {m : Node} {rule : Rule} (h : rules.rule? n.kind = some rule)
    (hm : rule n = .ok m) : rules.apply n = ⟨[n], .ok m⟩ := by
  rw [apply, h]
  simp only [hm]

theorem apply_of_error {cause : String} {rule : Rule} (h : rules.rule? n.kind = some rule)
    (hc : rule n = .error cause) : rules.apply n = ⟨[n], .error (.rule n.kind cause)⟩ := by
  rw [apply, h]
  simp only [hc]

end RuleSet

theorem HandedOver.kind_eq {n h : Node} (hh : HandedOver rules n h) : h.kind = n.kind :=
  Node.kind_eq_of_shell hh.shell

/-! ### Each node becomes one node -/

theorem forall₂_unique {α β : Type} {R : α → β → Prop} {xs : List α} {ys zs : List β}
    (hR : ∀ x ∈ xs, ∀ y z, R x y → R x z → y = z) (hy : List.Forall₂ R xs ys)
    (hz : List.Forall₂ R xs zs) : ys = zs := by
  induction hy generalizing zs with
  | nil => cases hz; rfl
  | cons h _ ih =>
    cases hz with
    | cons h' hz =>
      rw [hR _ List.mem_cons_self _ _ h h', ih (fun x hx => hR x (List.mem_cons_of_mem _ hx)) hz]

theorem Rewrites.unique {n m m' : Node} (h : Rewrites rules n m) (h' : Rewrites rules n m') :
    m = m' := by
  induction n using Node.places_induction generalizing m m' with
  | step n ih =>
    have same {k k' : Node} (hs : k.shell = n.shell)
        (hc : List.Forall₂ (Rewrites rules) n.children k.children) (hs' : k'.shell = n.shell)
        (hc' : List.Forall₂ (Rewrites rules) n.children k'.children) : k = k' := by
      refine Node.eq_of_shell_of_children (hs.trans hs'.symm) (forall₂_unique ?_ hc hc')
      rintro c hc y z hy hz
      obtain ⟨p, hp, rfl⟩ := List.mem_map.1 hc
      exact ih p hp hy hz
    cases h with
    | kept hs hc hf =>
      cases h' with
      | kept hs' hc' _ => exact same hs hc hs' hc'
      | replaced hs' hc' hf' _ =>
        rw [same hs hc hs' hc', hf'] at hf
        cases hf
    | replaced hs hc hf hr =>
      cases h' with
      | kept hs' hc' hf' =>
        rw [same hs hc hs' hc', hf'] at hf
        cases hf
      | replaced hs' hc' hf' hr' =>
        obtain rfl := same hs hc hs' hc'
        rw [hf] at hf'
        cases hf'
        rw [hr] at hr'
        cases hr'
        rfl

theorem HandedOver.unique {n h h' : Node} (hh : HandedOver rules n h)
    (hh' : HandedOver rules n h') : h = h' :=
  Node.eq_of_shell_of_children (hh.shell.trans hh'.shell.symm)
    (forall₂_unique (fun _ _ _ _ h h' => h.unique h') hh.children hh'.children)

/-! ### What happens in one place -/

namespace Place

theorem accept_of_accepts {p : Place} {n : Node} (h : p.Accepts n) : p.accept n = .ok n := by
  obtain ⟨slot?, m⟩ := p
  cases slot? with
  | none => rfl
  | some slot => exact if_pos (h slot rfl)

theorem accept_of_ne {p : Place} {n : Node} {slot : Slot} (hs : p.slot? = some slot)
    (hk : n.kind ≠ slot.kind) : p.accept n = .fail (.unsupportedNodeKind n.kind slot) := by
  rw [accept, hs]
  exact if_neg hk

/-- A place fails with the error of handing its node over and checking what comes back. -/
theorem FailsWith.result {p : Place} {e : QueryError} (h : p.FailsWith rules e) :
    ∃ h, HandedOver rules p.node h ∧ (rules.apply h >>= p.accept).result = .error e := by
  cases h with
  | rule hh hf hc =>
    refine ⟨_, hh, ?_⟩
    rw [RuleSet.apply_of_error hf hc]
    rfl
  | slot hh hf hr ht hm =>
    refine ⟨_, hh, ?_⟩
    rw [RuleSet.apply_of_ok hf hr, Traced.bind_mk_ok, accept_of_ne ht hm]
    rfl

theorem FailsWith.unique {p : Place} {e e' : QueryError} (h : p.FailsWith rules e)
    (h' : p.FailsWith rules e') : e = e' := by
  obtain ⟨h, hh, hr⟩ := h.result
  obtain ⟨h', hh', hr'⟩ := h'.result
  rw [hh.unique hh', hr'] at hr
  cases hr
  rfl

theorem passes_of_result {p : Place} {h m : Node} (hh : HandedOver rules p.node h)
    (hr : (rules.apply h >>= p.accept).result = .ok m) : p.Passes rules := by
  intro e hp
  obtain ⟨h', hh', hr'⟩ := hp.result
  rw [← hh.unique hh', hr] at hr'
  cases hr'

end Place

/-! ### Going through places -/

theorem CallsFor.append {ps qs : List Place} {log log' : List Node} (h : CallsFor rules ps log)
    (h' : CallsFor rules qs log') : CallsFor rules (ps ++ qs) (log ++ log') := by
  rw [CallsFor, List.map_append, List.filter_append]
  exact List.rel_append h h'

theorem callsFor_singleton_of_none {p : Place} (h : rules.rule? p.node.kind = none) :
    CallsFor rules [p] [] := by
  simp [CallsFor, RuleSet.handles, h]

theorem callsFor_singleton_of_some {p : Place} {rule : Rule} {h : Node}
    (hh : HandedOver rules p.node h) (hf : rules.rule? p.node.kind = some rule) :
    CallsFor rules [p] [h] := by
  simp [CallsFor, RuleSet.handles, hf, hh]

namespace Walked
variable {α β : Type} {P : α → Prop} {Q : β → Prop} {ps qs : List Place}

theorem bind {t : Transformation α} {f : α → Transformation β} (ht : Walked rules P ps t)
    (hf : ∀ a, P a → Walked rules Q qs (f a)) : Walked rules Q (ps ++ qs) (t >>= f) := by
  cases ht with
  | error hp hfail hcalls =>
    rw [Traced.bind_mk_error, List.append_assoc, List.cons_append]
    exact .error hp hfail hcalls
  | @ok _ log a hp hcalls ha =>
    have hu := hf a ha
    rw [Traced.bind_mk_ok]
    generalize f a = u at hu ⊢
    cases hu with
    | ok hq hcalls' hb =>
      exact .ok (List.forall_mem_append.2 ⟨hp, hq⟩) (hcalls.append hcalls') hb
    | error hq hfail hcalls' =>
      rw [← List.append_assoc]
      refine .error (List.forall_mem_append.2 ⟨hp, hq⟩) hfail ?_
      rw [List.append_assoc]
      exact hcalls.append hcalls'

theorem pure {a : α} (ha : P a) : Walked rules P [] (.ok a) :=
  .ok (fun _ h => absurd h List.not_mem_nil) .nil ha

/-- Passing a single place. -/
theorem pass {p : Place} {log : List Node} {a : α} (hp : p.Passes rules)
    (hcalls : CallsFor rules [p] log) (ha : P a) : Walked rules P [p] ⟨log, .ok a⟩ :=
  .ok (List.forall_mem_singleton.2 hp) hcalls ha

/-- Failing in a single place. -/
theorem fail {p : Place} {log : List Node} {e : QueryError} (hp : p.FailsWith rules e)
    (hcalls : CallsFor rules [p] log) : Walked rules P [p] ⟨log, .error e⟩ :=
  @Walked.error rules α P [] [] p log e (fun _ h => absurd h List.not_mem_nil) hp hcalls

/-- What is known of the result under a map and of the result itself, together. -/
theorem of_map {t : Transformation α} {f : α → β} {R : α → Prop} (h : Walked rules Q ps (f <$> t))
    (hr : t.Ensures R) : Walked rules (fun a => R a ∧ Q (f a)) ps t := by
  obtain ⟨log, result⟩ := t
  cases result with
  | error e =>
    rw [Traced.map_mk_error] at h
    cases h with
    | error hp hfail hcalls => exact .error hp hfail hcalls
  | ok a =>
    rw [Traced.map_mk_ok] at h
    cases h with
    | ok hp hcalls ha => exact .ok hp hcalls ⟨hr a rfl, ha⟩

theorem of_ok {t : Transformation α} {a : α} (h : Walked rules P ps t) (ha : t.result = .ok a) :
    (∀ p ∈ ps, p.Passes rules) ∧ CallsFor rules ps t.log ∧ P a := by
  cases h with
  | ok hp hcalls hr => cases ha; exact ⟨hp, hcalls, hr⟩
  | error => cases ha

theorem of_error {t : Transformation α} {e : QueryError} (h : Walked rules P ps t)
    (he : t.result = .error e) :
    ∃ before p after, ps = before ++ p :: after ∧ (∀ q ∈ before, q.Passes rules) ∧
      p.FailsWith rules e ∧ CallsFor rules (before ++ [p]) t.log := by
  cases h with
  | ok => cases he
  | @error before after p _ _ hp hfail hcalls =>
    cases he
    exact ⟨before, p, after, rfl, hp, hfail, hcalls⟩

/-- Handing over the node of a place, and checking what comes back. -/
theorem handOver {p : Place} {h : Node} (hp : p.Accepts p.node) (hh : HandedOver rules p.node h) :
    Walked rules (Rewrites rules p.node) [p] (rules.apply h >>= p.accept) := by
  cases hf : rules.rule? h.kind with
  | none =>
    have hacc : p.accept h = .ok h :=
      Place.accept_of_accepts fun slot hs => hh.kind_eq.trans (hp slot hs)
    have hres : rules.apply h >>= p.accept = .ok h := by rw [RuleSet.apply_of_none hf]; exact hacc
    have hpass : p.Passes rules := Place.passes_of_result (m := h) hh (by rw [hres]; rfl)
    have hkept : Rewrites rules p.node h := .kept hh.shell hh.children hf
    rw [hres]
    rw [hh.kind_eq] at hf
    exact pass hpass (callsFor_singleton_of_none hf) hkept
  | some rule =>
    have hcall : CallsFor rules [p] [h] :=
      callsFor_singleton_of_some hh (hh.kind_eq ▸ hf)
    cases hr : rule h with
    | error cause =>
      rw [RuleSet.apply_of_error hf hr]
      exact fail (.rule hh hf hr) hcall
    | ok m =>
      rw [RuleSet.apply_of_ok hf hr]
      by_cases hacc : p.Accepts m
      · have hres : (⟨[h], .ok m⟩ : Transformation Node) >>= p.accept = ⟨[h], .ok m⟩ := by
          rw [Traced.bind_mk_ok, Place.accept_of_accepts hacc]
          rfl
        have hpass : p.Passes rules :=
          Place.passes_of_result (m := m) hh (by rw [RuleSet.apply_of_ok hf hr, hres])
        rw [hres]
        exact pass hpass hcall (.replaced hh.shell hh.children hf hr)
      · obtain ⟨slot, hs, hk⟩ : ∃ slot, p.slot? = some slot ∧ m.kind ≠ slot.kind := by
          simpa [Place.Accepts] using hacc
        rw [Traced.bind_mk_ok, Place.accept_of_ne hs hk]
        exact fail (.slot hh hf hr hs hk) hcall

/-- Places one after the other. -/
theorem transformList : ∀ {ps : List Place},
    (∀ p ∈ ps, Walked rules (Rewrites rules p.node) p.walk (p.transform rules)) →
      Walked rules (List.Forall₂ (Rewrites rules) (ps.map Place.node)) (ps.flatMap Place.walk)
        (Place.transformList rules ps)
  | [], _ => pure .nil
  | p :: ps, h => by
      rw [List.flatMap_cons, Place.transformList]
      refine (h p List.mem_cons_self).bind fun m hm => ?_
      have hps := transformList fun q hq => h q (List.mem_cons_of_mem p hq)
      rw [← List.append_nil (ps.flatMap Place.walk)]
      exact hps.bind fun ms hms => pure (.cons hm hms)

end Walked

/-- Transforming what stands in a place goes through the places of its tree. -/
theorem Place.walked {p : Place} (hp : p.Accepts p.node) :
    Walked rules (Rewrites rules p.node) p.walk (p.transform rules) := by
  obtain ⟨slot?, n⟩ := p
  induction n using Node.places_induction generalizing slot? with
  | step n ih =>
    obtain ⟨parts, hparts⟩ := n.exists_rebuilds rules
    have hchildren : Walked rules (List.Forall₂ (Rewrites rules) n.children)
        (n.places.flatMap walk) (transformList rules n.places) :=
      Walked.transformList fun q hq => ih q hq q.slot? (Node.accepts_of_mem_places q hq)
    rw [hparts.children] at hchildren
    have htransform : Place.transform rules ⟨slot?, n⟩ =
        parts >>= fun h => rules.apply h >>= accept ⟨slot?, n⟩ := by
      rw [Place.transform, hparts.transform, bind_assoc]
    rw [walk_eq, htransform]
    exact (hchildren.of_map hparts.shell).bind fun h hh => Walked.handOver hp ⟨hh.1, hh.2⟩

theorem Node.walked (n : Node) : Walked rules (Rewrites rules n) n.walk (n.transform rules) := by
  have hfree : (Place.free n).Accepts n := nofun
  rw [← Place.transform_free rules n]
  exact Place.walked hfree

/-! ### The calls -/

theorem callsFor_walk_iff {n : Node} {log : List Node} :
    CallsFor rules n.walk log ↔
      List.Forall₂ (HandedOver rules) (n.nodes.filter rules.handles) log := by
  rw [CallsFor, Node.map_node_walk]

theorem map_kind_of_handedOver {ns log : List Node} (h : List.Forall₂ (HandedOver rules) ns log) :
    log.map Node.kind = ns.map Node.kind := by
  induction h with
  | nil => rfl
  | cons hh _ ih => rw [List.map_cons, List.map_cons, hh.kind_eq, ih]

/-- What is handed over for a raw fragment has the texts of the fragment. -/
theorem HandedOver.eq_rawFragment {texts : List String} {bindings : List Node} {h : Node}
    (hh : HandedOver rules (.rawFragment texts bindings) h) :
    ∃ rewritten, h = .rawFragment texts rewritten ∧
      List.Forall₂ (Rewrites rules) bindings rewritten := by
  obtain ⟨hs, hc⟩ := hh
  cases h with
  | rawFragment texts' rewritten =>
    cases (Node.rawFragment.inj hs).1
    exact ⟨rewritten, rfl, by simpa [Node.children, Node.places, Function.comp_def] using hc⟩
  | _ => cases hs

end

/-- **The calls of a transformation.**  When it succeeds, the rules have been called once for each
node of the original tree whose kind has a rule, in post-order, and for nothing else.  Each call was
given a node of the kind of the original one, with the rewritten children in place of the original
ones; for a raw fragment, with the texts of the fragment. -/
theorem transform_calls {rules : RuleSet} {n m : Node} (h : rules.transform n = .ok m) :
    Rewrites rules n m ∧
    List.Forall₂ (HandedOver rules) (n.nodes.filter rules.handles) (n.transform rules).log ∧
    (n.transform rules).log.map Node.kind = (n.nodes.filter rules.handles).map Node.kind ∧
    ∀ texts bindings raw, HandedOver rules (.rawFragment texts bindings) raw →
      ∃ rewritten, raw = .rawFragment texts rewritten ∧
        List.Forall₂ (Rewrites rules) bindings rewritten := by
  have hwalked : Walked rules (Rewrites rules n) n.walk (n.transform rules) := n.walked
  obtain ⟨-, hcalls, hm⟩ := hwalked.of_ok h
  rw [callsFor_walk_iff] at hcalls
  exact ⟨hm, hcalls, map_kind_of_handedOver hcalls, fun _ _ _ hh => hh.eq_rawFragment⟩

/-- Rules that put a node into a larger one: a value into a call with a second value, and a column
under an alias. -/
def wrappingRules : RuleSet :=
  RuleSet.ofList
    [(.parameter, fun n => .ok (.call "coalesce" [n, .parameter .null])),
      (.columnReference, fun n => .ok (.aliased n { name := "c" })),
      (.tableReference, .ok),
      (.rawFragment, .ok)]

/-- An insertion of a value and of a raw fragment around a column. -/
def guestInsertion : Node :=
  .insert
    { table := { name := { name := "guest" } }
      columns := [{ name := "id" }, { name := "name" }]
      rows := [[.parameter (.int 1), .rawFragment ["lower(", ")"] [.column { name := "nick" }]]]
      returning := [.column { name := "id" }] }

/-- The insertion with the value and the columns wrapped. -/
def wrappedInsertion : Node :=
  .insert
    { table := { name := { name := "guest" } }
      columns := [{ name := "id" }, { name := "name" }]
      rows :=
        [[.call "coalesce" [.parameter (.int 1), .parameter .null],
          .rawFragment ["lower(", ")"] [.aliased (.column { name := "nick" }) { name := "c" }]]]
      returning := [.aliased (.column { name := "id" }) { name := "c" }] }

/-- What a rule has put around a node is not handed over: there are five calls, one for each node
of the original insertion that has a rule. -/
theorem wrappedInsertion_calls :
    wrappingRules.transform guestInsertion = .ok wrappedInsertion ∧
    List.Forall₂ (HandedOver wrappingRules) (guestInsertion.nodes.filter wrappingRules.handles)
      (guestInsertion.transform wrappingRules).log ∧
    (guestInsertion.transform wrappingRules).log.map Node.kind =
      [.tableReference, .parameter, .columnReference, .rawFragment, .columnReference] := by
  have h : wrappingRules.transform guestInsertion = .ok wrappedInsertion := rfl
  obtain ⟨-, hcalls, hkinds, -⟩ := transform_calls h
  exact ⟨h, hcalls, hkinds.trans rfl⟩

end SqlTree
