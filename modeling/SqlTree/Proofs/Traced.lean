import SqlTree.Traced

/-!
# Traced computations — laws

Traced computations obey the laws of a monad.  Mapping the result of one leaves its report as it is
(`Traced.map_mk_ok`), and `Traced.Ensures` is what holds of the result if there is one.
-/

namespace SqlTree

namespace Traced
variable {ω ε α β γ : Type}

instance : LawfulMonad (Traced ω ε) := LawfulMonad.mk' (Traced ω ε)
    (fun t => by
      obtain ⟨log, result⟩ := t
      cases result with
      | error e => rfl
      | ok a => exact congrArg (Traced.mk · _) (List.append_nil log))
    (fun _ _ => rfl)
    (fun t f g => by
      obtain ⟨log, result⟩ := t
      cases result with
      | error e => rfl
      | ok a =>
        rw [bind_mk_ok, bind_mk_ok]
        obtain ⟨log', result'⟩ := f a
        cases result' with
        | error e => rfl
        | ok b => simp only [bind_mk_ok, List.append_assoc])

@[simp] theorem bind_ok_right (t : Traced ω ε α) : (t >>= ok) = t := bind_pure t

theorem map_eq_bind (f : α → β) (t : Traced ω ε α) : f <$> t = t >>= fun a => ok (f a) := rfl

theorem map_mk_ok (f : α → β) (log : List ω) (a : α) :
    f <$> (⟨log, .ok a⟩ : Traced ω ε α) = ⟨log, .ok (f a)⟩ :=
  congrArg (Traced.mk · _) (List.append_nil log)

theorem map_mk_error (f : α → β) (log : List ω) (e : ε) :
    f <$> (⟨log, .error e⟩ : Traced ω ε α) = ⟨log, .error e⟩ := rfl

theorem result_map (f : α → β) (t : Traced ω ε α) : (f <$> t).result = t.result.map f := by
  obtain ⟨log, result⟩ := t
  cases result <;> rfl

/-- What holds of every result a computation may have. -/
def Ensures (t : Traced ω ε α) (P : α → Prop) : Prop := ∀ a, t.result = .ok a → P a

theorem ensures_ok {a : α} {P : α → Prop} (h : P a) : (ok a : Traced ω ε α).Ensures P := by
  intro b hb
  cases hb
  exact h

theorem Ensures.bind {t : Traced ω ε α} {f : α → Traced ω ε β} {P : α → Prop} {Q : β → Prop}
    (ht : t.Ensures P) (hf : ∀ a, P a → (f a).Ensures Q) : (t >>= f).Ensures Q := by
  intro b hb
  rw [result_bind] at hb
  cases ha : t.result with
  | error e => rw [ha] at hb; cases hb
  | ok a => rw [ha] at hb; exact hf a (ht a ha) b hb

theorem Ensures.map {t : Traced ω ε α} {f : α → β} {Q : β → Prop}
    (ht : t.Ensures fun a => Q (f a)) : (f <$> t).Ensures Q :=
  ht.bind fun _ h => ensures_ok h

theorem ensures_bind {t : Traced ω ε α} {f : α → Traced ω ε β} {Q : β → Prop}
    (hf : ∀ a, (f a).Ensures Q) : (t >>= f).Ensures Q :=
  Ensures.bind (fun _ _ => trivial : t.Ensures fun _ => True) fun a _ => hf a

/-- Only what holds of the result matters to the computation behind it. -/
theorem Ensures.bind_congr {t : Traced ω ε α} {f g : α → Traced ω ε β} {P : α → Prop}
    (ht : t.Ensures P) (h : ∀ a, P a → f a = g a) : (t >>= f) = (t >>= g) := by
  obtain ⟨log, result⟩ := t
  cases result with
  | error e => rfl
  | ok a => rw [bind_mk_ok, bind_mk_ok, h a (ht a rfl)]

/-- A map that tells the possible results apart tells the computations apart. -/
theorem Ensures.eq_of_map_eq {t u : Traced ω ε α} {f : α → β} {P Q : α → Prop} (ht : t.Ensures P)
    (hu : u.Ensures Q) (hf : ∀ a b, P a → Q b → f a = f b → a = b) (h : f <$> t = f <$> u) :
    t = u := by
  obtain ⟨log, result⟩ := t
  obtain ⟨log', result'⟩ := u
  cases result with
  | error e =>
    cases result' with
    | error e' =>
      rw [map_mk_error, map_mk_error] at h
      cases h
      rfl
    | ok b =>
      rw [map_mk_error, map_mk_ok] at h
      cases h
  | ok a =>
    cases result' with
    | error e' =>
      rw [map_mk_ok, map_mk_error] at h
      cases h
    | ok b =>
      rw [map_mk_ok, map_mk_ok, mk.injEq, Except.ok.injEq] at h
      obtain ⟨rfl, hab⟩ := h
      rw [hf a b (ht a rfl) (hu b rfl) hab]

end Traced

end SqlTree
