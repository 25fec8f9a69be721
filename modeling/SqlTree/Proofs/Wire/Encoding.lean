import Mathlib.Data.List.Forall2
import SqlTree.Wire.Encoding

/-!
# Wire — lists of parameters

Bound values are encoded one by one, up to the first that is refused.  So the encoding of a list is
that of its values if all of them have one (`encodeAll_eq_ok_iff`), and otherwise the error is that
of the first value without (`encodeAll_eq_error_iff`).  Values beyond the types are not looked at
(`encodeAll_take`).
-/

namespace SqlTree.Wire

/-! ### Lists that may fail -/

section
variable {ε α β : Type} {f : α → Except ε β}

theorem mapM_eq_ok_iff {as : List α} {bs : List β} :
    as.mapM f = .ok bs ↔ List.Forall₂ (fun a b => f a = .ok b) as bs := by
  induction as generalizing bs with
  | nil =>
    rw [List.mapM_nil, List.forall₂_nil_left_iff]
    exact ⟨fun h => (Except.ok.inj h).symm, fun h => congrArg Except.ok h.symm⟩
  | cons a as ih =>
    rw [List.mapM_cons, List.forall₂_cons_left_iff]
    cases ha : f a with
    | error e => exact iff_of_false nofun fun ⟨_, _, h, _⟩ => nomatch h
    | ok b =>
      cases has : as.mapM f with
      | error e =>
        refine iff_of_false nofun fun ⟨_, bs', _, hbs, _⟩ => ?_
        cases has.symm.trans (ih.2 hbs)
      | ok bs' =>
        constructor
        · intro h
          exact ⟨b, bs', rfl, ih.1 has, (Except.ok.inj h).symm⟩
        · rintro ⟨_, _, hb, hbs, rfl⟩
          cases hb
          cases has.symm.trans (ih.2 hbs)
          rfl

/-- The first failure ends a list. -/
theorem mapM_eq_error_iff {as : List α} {e : ε} :
    as.mapM f = .error e ↔ ∃ before a after, as = before ++ a :: after ∧
      (∀ x ∈ before, ∃ b, f x = .ok b) ∧ f a = .error e := by
  induction as with
  | nil =>
    refine iff_of_false nofun ?_
    rintro ⟨before, a, after, heq, -, -⟩
    exact List.append_ne_nil_of_right_ne_nil before (List.cons_ne_nil a after) heq.symm
  | cons x as ih =>
    rw [List.mapM_cons]
    cases hx : f x with
    | error e' =>
      constructor
      · intro h
        exact ⟨[], x, as, rfl, List.forall_mem_nil _, hx.trans (by cases h; rfl)⟩
      · rintro ⟨before, a, after, heq, hbefore, ha⟩
        cases before with
        | nil =>
          cases heq
          cases hx.symm.trans ha
          rfl
        | cons y before =>
          cases heq
          obtain ⟨b, hb⟩ := hbefore x List.mem_cons_self
          cases hx.symm.trans hb
    | ok b =>
      have hstep : (Except.ok b >>= fun b => as.mapM f >>= fun bs => pure (b :: bs)) = .error e ↔
          as.mapM f = .error e := by
        cases as.mapM f with
        | error e' => exact Iff.rfl
        | ok bs => exact iff_of_false nofun nofun
      rw [hstep, ih]
      constructor
      · rintro ⟨before, a, after, rfl, hbefore, ha⟩
        exact ⟨x :: before, a, after, rfl, List.forall_mem_cons.2 ⟨⟨b, hx⟩, hbefore⟩, ha⟩
      · rintro ⟨before, a, after, heq, hbefore, ha⟩
        cases before with
        | nil =>
          cases heq
          cases hx.symm.trans ha
        | cons y before =>
          cases heq
          exact ⟨before, a, after, rfl, (List.forall_mem_cons.1 hbefore).2, ha⟩

end

/-! ### Encodings -/

section
variable {types : List WireType} {values : List Value}

theorem encodeAll_eq_ok_iff {ps : List Parameter} :
    encodeAll types values = .ok ps ↔
      List.Forall₂ (fun p q => encode p.1 p.2 = .ok q) (types.zip values) ps :=
  mapM_eq_ok_iff

theorem encodeAll_eq_error_iff {err : WireError} :
    encodeAll types values = .error err ↔
      ∃ before p after, types.zip values = before ++ p :: after ∧
        (∀ x ∈ before, ∃ q, encode x.1 x.2 = .ok q) ∧ encode p.1 p.2 = .error err :=
  mapM_eq_error_iff

/-- There is a parameter for every value that has a type, and for every type that has a value. -/
theorem length_of_encodeAll {ps : List Parameter} (h : encodeAll types values = .ok ps) :
    ps.length = min types.length values.length := by
  rw [← (encodeAll_eq_ok_iff.1 h).length_eq, List.length_zip]

/-- Values beyond the types are not looked at. -/
theorem encodeAll_append (h : types.length = values.length) (surplus : List Value) :
    encodeAll types (values ++ surplus) = encodeAll types values := by
  have hzip : types.zip (values ++ surplus) = types.zip values := by
    -- nothing is left to pair the surplus with
    rw [← List.append_nil types, List.zip_append h, List.append_nil, List.zip_nil_left,
      List.append_nil]
  rw [encodeAll, encodeAll, hzip]

theorem encodeAll_take (types : List WireType) (values : List Value) :
    encodeAll types (values.take types.length) = encodeAll types values := by
  by_cases h : types.length ≤ values.length
  · have hlength : types.length = (values.take types.length).length := by
      rw [List.length_take, Nat.min_eq_left h]
    rw [← encodeAll_append hlength (values.drop types.length), List.take_append_drop]
  · rw [List.take_of_length_le (Nat.le_of_not_le h)]

end

end SqlTree.Wire
