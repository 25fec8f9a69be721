import SqlTree.Proofs.Json.Members

/-!
# JSON — places

`At j p w` says that the value `w` stands in `j` at the end of the path `p`, the keys and indices
that lead to it.  What holds of all objects of a value, at any depth, is said by `EveryObject`; so
the members of every object are ascending in an `Ordered` value.

What holds of a value as soon as it holds of its parts holds of every value (`parts_induction`).
-/

namespace SqlTree.Json

/-- One level of a path. -/
inductive Step where
  | key (k : String)
  | index (i : Nat)
deriving DecidableEq

/-- The value that stands in another one at the end of a path. -/
inductive At : (j : Json) → (path : List Step) → (w : Json) → Prop
  | here (j : Json) : At j [] j
  | item {items : List Json} {i : Nat} {j w : Json} {p : List Step} (hi : items[i]? = some j)
      (h : At j p w) : At (.array items) (.index i :: p) w
  | member {ms : List (String × Json)} {k : String} {j w : Json} {p : List Step}
      (hk : (k, j) ∈ ms) (h : At j p w) : At (.object ms) (.key k :: p) w

theorem At.eq_of_nil {j w : Json} (h : At j [] w) : w = j := by
  cases h
  rfl

/-- The values right below a value. -/
def parts : Json → List Json
  | .array items => items
  | .object ms => ms.map Prod.snd
  | _ => []

/-- Neither an array nor an object. -/
def IsScalar : Json → Prop
  | .array _ => False
  | .object _ => False
  | _ => True

/-- A value with nothing below it: a scalar, an empty array or an empty object. -/
def IsLeaf (j : Json) : Prop := j.parts = []

theorem sizeOf_lt_of_mem_parts {i j : Json} (h : i ∈ j.parts) : sizeOf i < sizeOf j := by
  cases j with
  | array items =>
    have hi := List.sizeOf_lt_of_mem h
    rw [array.sizeOf_spec]
    exact Nat.lt_add_left 1 hi
  | object ms =>
    obtain ⟨⟨k, i⟩, hm, rfl⟩ := List.mem_map.1 h
    have hms := List.sizeOf_lt_of_mem hm
    rw [Prod.mk.sizeOf_spec] at hms
    rw [object.sizeOf_spec]
    dsimp only
    omega
  | _ => exact absurd h List.not_mem_nil

/-- Induction on values: what passes from the parts of a value to the value holds of every value. -/
@[elab_as_elim]
theorem parts_induction {P : Json → Prop} (step : ∀ j : Json, (∀ i ∈ j.parts, P i) → P j)
    (j : Json) : P j :=
  step j fun i _ => parts_induction step i
termination_by sizeOf j
decreasing_by exact sizeOf_lt_of_mem_parts ‹_›

/-! ### The objects of a value -/

/-- The members of every object in the value, at any depth, have a property. -/
def EveryObject (P : List (String × Json) → Prop) (j : Json) : Prop :=
  ∀ p ms, At j p (.object ms) → P ms

/-- The members of every object are ascending. -/
def Ordered (j : Json) : Prop := EveryObject Ascending j

variable {P : List (String × Json) → Prop} {items : List Json} {ms : List (String × Json)}

theorem EveryObject.of_at {j w : Json} {p : List Step} (h : EveryObject P j) (hw : At j p w) :
    EveryObject P w := by
  induction hw with
  | here => exact h
  | item hi _ ih => exact ih fun q ms hms => h _ ms (.item hi hms)
  | member hk _ ih => exact ih fun q ms hms => h _ ms (.member hk hms)

theorem everyObject_array : EveryObject P (.array items) ↔ ∀ j ∈ items, EveryObject P j := by
  constructor
  · intro h j hj
    obtain ⟨i, hi⟩ := List.mem_iff_getElem?.1 hj
    exact h.of_at (.item hi (.here j))
  · rintro h p ms (_ | ⟨hi, hms⟩)
    exact h _ (List.mem_of_getElem? hi) _ ms hms

theorem everyObject_object :
    EveryObject P (.object ms) ↔ P ms ∧ ∀ m ∈ ms, EveryObject P m.2 := by
  constructor
  · intro h
    exact ⟨h [] ms (.here _), fun m hm => h.of_at (.member hm (.here m.2))⟩
  · rintro ⟨hP, h⟩ p ms' (_ | _ | ⟨hk, hms⟩)
    · exact hP
    · exact h _ hk _ ms' hms

theorem everyObject_of_isScalar {j : Json} (hj : j.IsScalar) : EveryObject P j := by
  rintro p ms (_ | _ | _) <;> exact hj.elim

end SqlTree.Json
