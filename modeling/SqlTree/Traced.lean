/-!
# Traced computations

A `Traced ω ε α` is what a computation reported on its way and how it ended: with a result, or with
the error that stopped it.  Binding two of them puts their reports in order, and the second one runs
only if the first has a result.
-/

namespace SqlTree

structure Traced (ω ε α : Type) where
  log : List ω
  result : Except ε α

namespace Traced
variable {ω ε α β : Type}

def ok (a : α) : Traced ω ε α := ⟨[], .ok a⟩

def fail (e : ε) : Traced ω ε α := ⟨[], .error e⟩

/-- Reports one thing and does nothing else. -/
def report (w : ω) : Traced ω ε Unit := ⟨[w], .ok ()⟩

def ofExcept (r : Except ε α) : Traced ω ε α := ⟨[], r⟩

@[simp] theorem ofExcept_ok (a : α) : (ofExcept (.ok a) : Traced ω ε α) = ok a := rfl

@[simp] theorem ofExcept_error (e : ε) : (ofExcept (.error e) : Traced ω ε α) = fail e := rfl

def bind (t : Traced ω ε α) (f : α → Traced ω ε β) : Traced ω ε β :=
  match t.result with
  | .error e => ⟨t.log, .error e⟩
  | .ok a =>
    let u := f a
    ⟨t.log ++ u.log, u.result⟩

instance : Monad (Traced ω ε) where
  pure := ok
  bind := bind

@[simp] theorem pure_eq (a : α) : (pure a : Traced ω ε α) = ok a := rfl

@[simp] theorem bind_ok (a : α) (f : α → Traced ω ε β) : (ok a >>= f) = f a := rfl

@[simp] theorem bind_fail (e : ε) (f : α → Traced ω ε β) :
    ((fail e : Traced ω ε α) >>= f) = fail e := rfl

theorem bind_mk_ok (log : List ω) (a : α) (f : α → Traced ω ε β) :
    ((⟨log, .ok a⟩ : Traced ω ε α) >>= f) = ⟨log ++ (f a).log, (f a).result⟩ := rfl

theorem bind_mk_error (log : List ω) (e : ε) (f : α → Traced ω ε β) :
    ((⟨log, .error e⟩ : Traced ω ε α) >>= f) = ⟨log, .error e⟩ := rfl

/-- How two bound computations end does not depend on what they reported. -/
theorem result_bind (t : Traced ω ε α) (f : α → Traced ω ε β) :
    (t >>= f).result = t.result >>= fun a => (f a).result := by
  obtain ⟨log, result⟩ := t
  cases result <;> rfl

/-- Two bound computations have a result when both have one. -/
theorem result_bind_of {t : Traced ω ε α} {f : α → Traced ω ε β} {a : α} {b : β}
    (ht : t.result = .ok a) (hf : (f a).result = .ok b) : (t >>= f).result = .ok b := by
  rw [result_bind, ht]
  exact hf

end Traced

end SqlTree
