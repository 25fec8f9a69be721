import SqlTree.Proofs.Reading.Condition

/-!
# Reading — filters

A filter is what a `where` clause is mostly made of: columns and values, compared, and the
comparisons combined by `and` and `or` (`Node.IsFilter`).  There is no test in it that could be
written loosely, so a filter is read as it was meant.

**Filters** (`filter_reading`).  In every dialect a filter can be written, and its text is read as
the filter up to regrouping.
-/

namespace SqlTree

/-- A tree of columns and values that combines them by comparisons, `and` and `or`. -/
inductive Node.IsFilter : Node → Prop where
  | name {id : Identifier} (h : id.raw = false) : IsFilter (.identifier id)
  | column {c : ColumnReference} (table : ∀ t ∈ c.table, t.raw = false)
      (column : c.column.raw = false) : IsFilter (.columnReference c)
  | value (v : Value) : IsFilter (.parameter v)
  | binary {l r : Node} {op : BinaryOperator} (hop : op.isComparison ∨ op = .and ∨ op = .or)
      (hl : IsFilter l) (hr : IsFilter r) : IsFilter (.binary l op r)

/-- A condition without a loose test that is no test itself. -/
structure Expression.IsFilter (e : Expression) : Prop where
  condition : e.isCondition
  quiet : ¬ e.hasLooseTest
  isNot : e.isNot = false
  isNullTest : e.isNullTest = false

section
variable {n : Node}

theorem Identifier.quoted?_of_raw {id : Identifier} (h : id.raw = false) :
    id.quoted? = some id.name := by
  rw [Identifier.quoted?, h]
  rfl

theorem ColumnReference.exists_atom {c : ColumnReference} (table : ∀ t ∈ c.table, t.raw = false)
    (column : c.column.raw = false) : ∃ a, c.atom? = some a := by
  obtain ⟨t?, name⟩ := c
  cases t? with
  | none =>
    refine ⟨.column none name.name, ?_⟩
    rw [atom?, Identifier.quoted?_of_raw column]
    rfl
  | some t =>
    refine ⟨.column (some t.name) name.name, ?_⟩
    rw [atom?, Identifier.quoted?_of_raw (table t rfl), Option.bind_some,
      Identifier.quoted?_of_raw column]
    rfl

theorem Expression.IsFilter.atom (a : Atom) : (Expression.atom a).IsFilter :=
  ⟨rfl, Bool.false_ne_true, rfl, rfl⟩

theorem Expression.IsFilter.binary {l r : Expression} {op : BinaryOperator}
    (hop : op.isComparison ∨ op = .and ∨ op = .or) (hl : l.IsFilter) (hr : r.IsFilter) :
    (Expression.binary l op r).IsFilter where
  condition := isCondition_binary.mpr ⟨hop, hl.condition, hr.condition⟩
  quiet := by
    rw [hasLooseTest, hl.isNot, hr.isNullTest, Bool.or_false, Bool.and_false, Bool.or_false,
      Bool.or_eq_true, not_or]
    exact ⟨hl.quiet, hr.quiet⟩
  isNot := rfl
  isNullTest := rfl

/-- A filter says how its operators are grouped. -/
theorem Node.IsFilter.exists_expression (h : n.IsFilter) (k : Nat) :
    ∃ e, n.expression? k = some e ∧ e.IsFilter := by
  induction h generalizing k with
  | @name id h =>
    refine ⟨_, ?_, .atom (.column none id.name)⟩
    rw [expression?, Identifier.quoted?_of_raw h]
    rfl
  | column table column =>
    obtain ⟨a, ha⟩ := ColumnReference.exists_atom table column
    refine ⟨_, ?_, .atom a⟩
    rw [expression?, ha]
    rfl
  | value v => exact ⟨_, rfl, .atom (.parameter k)⟩
  | @binary l r _ hop _ _ ihl ihr =>
    obtain ⟨left, hl, htl⟩ := ihl k
    obtain ⟨right, hr, htr⟩ := ihr (k + l.parameters.length)
    refine ⟨_, ?_, htl.binary hop htr⟩
    rw [expression?, hl, hr]
    rfl

end

/-- **Filters.**  A filter can be written in every dialect, and its text is read as an expression:
as the filter, up to the grouping of `and` with `and` and of `or` with `or`. -/
theorem filter_reading {n : Node} (h : n.IsFilter) :
    ∃ e, n.expression? 1 = some e ∧ ∀ d : Dialect,
      ∃ s r, n.compile d = .ok s ∧ d.read s.sql = some r ∧ Reassociated r e := by
  obtain ⟨e, hn, he⟩ := h.exists_expression 1
  have htight := Expression.tight_of_isCondition he.condition
  refine ⟨e, hn, fun d => ?_⟩
  obtain ⟨s, hs, hread⟩ := Node.read_compile_eq_reread d hn htight
  exact ⟨s, _, hs, hread, reassociated_reread he.condition he.quiet logical_none⟩

/-- `("town" = 'Riga' or "name" like 'A%') and "age" >= 18 and ("role" = 'guest') <> "t"."staff"`,
with the values as parameters. -/
def personFilter : Node :=
  .and
    (.or (.eq (.column ⟨"town", false⟩) (.parameter (.text "Riga")))
      (.binary (.column ⟨"name", false⟩) .like (.parameter (.text "A%"))))
    (.and (.binary (.column ⟨"age", false⟩) .gtEq (.parameter (.int 18)))
      (.binary (.eq (.column ⟨"role", false⟩) (.parameter (.text "guest"))) .notEq
        (.columnReference ⟨some ⟨"t", false⟩, ⟨"staff", false⟩⟩)))

theorem personFilter_reading :
    personFilter.IsFilter ∧
      ∃ e, personFilter.expression? 1 = some e ∧ ∀ d : Dialect,
        ∃ s r, personFilter.compile d = .ok s ∧ d.read s.sql = some r ∧ Reassociated r e := by
  have compared : ∀ {s op v}, op.isComparison →
      (Node.binary (.column ⟨s, false⟩) op (.parameter v)).IsFilter := fun hop =>
    .binary (.inl hop) (.column nofun rfl) (.value _)
  have staff : (Node.columnReference ⟨some ⟨"t", false⟩, ⟨"staff", false⟩⟩).IsFilter :=
    .column (fun t ht => Option.some.inj ht ▸ rfl) rfl
  have h : personFilter.IsFilter :=
    .binary (.inr (.inl rfl)) (.binary (.inr (.inr rfl)) (compared rfl) (compared rfl))
      (.binary (.inr (.inl rfl)) (compared rfl) (.binary (.inl rfl) (compared rfl) staff))
  exact ⟨h, filter_reading h⟩

end SqlTree
