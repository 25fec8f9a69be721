import SqlTree.Proofs.Plugin.Outbound

/-!
# Plugins — executions

What an executor does with a tree, stage by stage.  `HookRun` is a chain of hooks: each is given
what the one before it returned, and the first that fails ends the chain.  An `Execution` is a chain
of outbound hooks, the compiler, the driver and a chain of inbound hooks, as far as these get.  Its
log holds what was called on the way.

**Executions** (`Executor.execute_stages`).  What an executor does is the one execution there is.
The statements handed to the driver are what the executor compiles the tree to: one if the tree
compiles, and none if it does not.
-/

namespace SqlTree

section
variable {α : Type}

/-- Hooks called one after another until one fails, each on what the one before it returned.  The
calls are listed with what was handed over. -/
inductive HookRun (hook : Plugin → α → Except QueryError α) :
    List Plugin → α → List (Plugin × α) → Except QueryError α → Prop where
  | done (a : α) : HookRun hook [] a [] (.ok a)
  | failed {p : Plugin} {a : α} {err : QueryError} (ps : List Plugin) (h : hook p a = .error err) :
      HookRun hook (p :: ps) a [(p, a)] (.error err)
  | passed {p : Plugin} {ps : List Plugin} {a b : α} {calls : List (Plugin × α)}
      {r : Except QueryError α} (h : hook p a = .ok b) (rest : HookRun hook ps b calls r) :
      HookRun hook (p :: ps) a ((p, a) :: calls) r

/-- Every chain of hooks ends. -/
theorem exists_hookRun (hook : Plugin → α → Except QueryError α) (ps : List Plugin) (a : α) :
    ∃ calls r, HookRun hook ps a calls r := by
  induction ps generalizing a with
  | nil => exact ⟨[], .ok a, .done a⟩
  | cons p ps ih =>
    cases h : hook p a with
    | error err => exact ⟨[(p, a)], .error err, .failed ps h⟩
    | ok b =>
      obtain ⟨calls, r, rest⟩ := ih b
      exact ⟨(p, a) :: calls, r, .passed h rest⟩

end

/-- What is reported of the call of an outbound hook. -/
def Event.ofOutbound (call : Plugin × Node) : Event := .outbound call.1.name call.2

/-- What is reported of the call of an inbound hook. -/
def Event.ofInbound (call : Plugin × List Row) : Event := .inbound call.1.name call.2

/-- How an executor may go through its stages: what is called, and how it ends. -/
inductive Execution (e : Executor) (driver : Driver) (n : Node) :
    List Event → Except QueryError (List Row) → Prop where
  /-- An outbound hook fails. -/
  | refused {out : List (Plugin × Node)} {err : QueryError}
      (hooks : HookRun Plugin.outbound e.plugins n out (.error err)) :
      Execution e driver n (out.map .ofOutbound) (.error err)
  /-- The dialect has no way to write what the hooks made of the tree. -/
  | unwritten {out : List (Plugin × Node)} {m : Node} {err : QueryError}
      (hooks : HookRun Plugin.outbound e.plugins n out (.ok m))
      (written : m.compile e.dialect = .error err) :
      Execution e driver n (out.map .ofOutbound) (.error err)
  /-- The driver fails. -/
  | unanswered {out : List (Plugin × Node)} {m : Node} {s : Statement} {cause : String}
      (hooks : HookRun Plugin.outbound e.plugins n out (.ok m))
      (written : m.compile e.dialect = .ok s) (answer : driver s = .error cause) :
      Execution e driver n (out.map .ofOutbound ++ [.driver s]) (.error (.driver cause))
  /-- The driver gives rows, and they go back through the plugins. -/
  | answered {out : List (Plugin × Node)} {m : Node} {s : Statement} {rows : List Row}
      {back : List (Plugin × List Row)} {r : Except QueryError (List Row)}
      (hooks : HookRun Plugin.outbound e.plugins n out (.ok m))
      (written : m.compile e.dialect = .ok s) (answer : driver s = .ok rows)
      (returned : HookRun Plugin.inbound e.plugins.reverse rows back r) :
      Execution e driver n (out.map .ofOutbound ++ .driver s :: back.map .ofInbound) r

/-! ### The passes of a list of plugins -/

section
variable {ps : List Plugin}

theorem HookRun.outboundAll_eq {n : Node} {calls : List (Plugin × Node)}
    {r : Except QueryError Node} (h : HookRun Plugin.outbound ps n calls r) :
    Plugin.outboundAll ps n = ⟨calls.map .ofOutbound, r⟩ := by
  induction h with
  | done n => rfl
  | failed ps h =>
    rw [Plugin.outboundAll, h]
    rfl
  | passed h _ ih =>
    rw [Plugin.outboundAll, h, List.map_cons]
    exact congrArg (fun t => Traced.mk (_ :: t.log) t.result) ih

theorem HookRun.inboundInOrder_eq {rows : List Row} {calls : List (Plugin × List Row)}
    {r : Except QueryError (List Row)} (h : HookRun Plugin.inbound ps rows calls r) :
    Plugin.inboundInOrder ps rows = ⟨calls.map .ofInbound, r⟩ := by
  induction h with
  | done rows => rfl
  | failed ps h =>
    rw [Plugin.inboundInOrder, h]
    rfl
  | passed h _ ih =>
    rw [Plugin.inboundInOrder, h, List.map_cons]
    exact congrArg (fun t => Traced.mk (_ :: t.log) t.result) ih

end

/-! ### Executors -/

section
variable {e : Executor} {driver : Driver} {n : Node}

theorem exists_execution (e : Executor) (driver : Driver) (n : Node) :
    ∃ log r, Execution e driver n log r := by
  obtain ⟨out, m?, hooks⟩ := exists_hookRun Plugin.outbound e.plugins n
  cases m? with
  | error err => exact ⟨_, _, .refused hooks⟩
  | ok m =>
    cases written : m.compile e.dialect with
    | error err => exact ⟨_, _, .unwritten hooks written⟩
    | ok s =>
      cases answer : driver s with
      | error cause => exact ⟨_, _, .unanswered hooks written answer⟩
      | ok rows =>
        obtain ⟨back, r, returned⟩ := exists_hookRun Plugin.inbound e.plugins.reverse rows
        exact ⟨_, _, .answered hooks written answer returned⟩

/-- What is prepared for a tree that comes through the outbound hooks. -/
theorem HookRun.prepare_eq {out : List (Plugin × Node)} {m : Node}
    (hooks : HookRun Plugin.outbound e.plugins n out (.ok m)) :
    e.prepare n = ⟨out.map .ofOutbound, m.compile e.dialect⟩ := by
  rw [Executor.prepare, hooks.outboundAll_eq, Traced.bind_mk_ok, Traced.ofExcept, List.append_nil]

theorem HookRun.prepare_eq_error {out : List (Plugin × Node)} {err : QueryError}
    (hooks : HookRun Plugin.outbound e.plugins n out (.error err)) :
    e.prepare n = ⟨out.map .ofOutbound, .error err⟩ := by
  rw [Executor.prepare, hooks.outboundAll_eq, Traced.bind_mk_error]

/-- There is one execution, and the executor takes it. -/
theorem Execution.execute_eq {log : List Event} {r : Except QueryError (List Row)}
    (h : Execution e driver n log r) : e.execute driver n = ⟨log, r⟩ := by
  rw [Executor.execute]
  cases h with
  | refused hooks => rw [hooks.prepare_eq_error, Traced.bind_mk_error]
  | unwritten hooks written => rw [hooks.prepare_eq, written, Traced.bind_mk_error]
  | unanswered hooks written answer =>
    rw [hooks.prepare_eq, written, Traced.bind_mk_ok, answer]
    rfl
  | answered hooks written answer returned =>
    rw [hooks.prepare_eq, written, Traced.bind_mk_ok, answer]
    have hback := returned.inboundInOrder_eq
    exact congrArg (fun t : Run (List Row) => Traced.mk (_ ++ _ :: t.log) t.result) hback

theorem driverCalls_append (log log' : List Event) :
    driverCalls (log ++ log') = driverCalls log ++ driverCalls log' :=
  List.filterMap_append ..

theorem driverCalls_ofOutbound (calls : List (Plugin × Node)) :
    driverCalls (calls.map .ofOutbound) = [] := by
  rw [driverCalls, List.filterMap_map]
  exact List.filterMap_eq_nil_iff.2 fun _ _ => rfl

theorem driverCalls_ofInbound (calls : List (Plugin × List Row)) :
    driverCalls (calls.map .ofInbound) = [] := by
  rw [driverCalls, List.filterMap_map]
  exact List.filterMap_eq_nil_iff.2 fun _ _ => rfl

/-- The driver is called with what the tree compiles to, if it compiles. -/
theorem Execution.driverCalls_eq {log : List Event} {r : Except QueryError (List Row)}
    (h : Execution e driver n log r) : driverCalls log = (e.compile n).toOption.toList := by
  rw [Executor.compile]
  cases h with
  | refused hooks =>
    rw [hooks.prepare_eq_error, driverCalls_ofOutbound]
    rfl
  | unwritten hooks written =>
    rw [hooks.prepare_eq, written, driverCalls_ofOutbound]
    rfl
  | unanswered hooks written =>
    rw [hooks.prepare_eq, written, driverCalls_append, driverCalls_ofOutbound]
    rfl
  | answered hooks written =>
    rw [hooks.prepare_eq, written, driverCalls_append, driverCalls_ofOutbound]
    exact congrArg (_ :: ·) (driverCalls_ofInbound _)

end

/-- **Executions.**  What an executor calls for a tree, and how it ends, is the one execution of the
tree.  The driver is called at most once: with the statement the tree compiles to, if it compiles.
-/
theorem Executor.execute_stages (e : Executor) (driver : Driver) (n : Node) :
    (∀ log r, e.execute driver n = ⟨log, r⟩ ↔ Execution e driver n log r) ∧
      driverCalls (e.execute driver n).log = (e.compile n).toOption.toList := by
  obtain ⟨log, r, h⟩ := exists_execution e driver n
  refine ⟨fun log' r' => ⟨fun h' => ?_, Execution.execute_eq⟩, ?_⟩
  · obtain ⟨rfl, rfl⟩ := Traced.mk.inj (h.execute_eq.symm.trans h')
    exact h
  · rw [h.execute_eq]
    exact h.driverCalls_eq

end SqlTree
