import SqlTree.Dialect
import Mathlib.Data.List.TakeWhile

/-!
# Reading — tokens

A database that reads a statement finds quoted names and placeholders in it wherever they stand.
`tokens?` finds them without knowing the language otherwise: every other character is a token of its
own.  A quote begins a name, which goes on to the first quote that is not written twice.  The sign
of a placeholder is followed by the longest run of digits where placeholders are numbered, and by
nothing where they are not.

Nothing of the text is lost: the tokens are its parts in order (`flatMap_chars_of_tokens?`).
-/

namespace SqlTree

inductive Token where
  | name (s : String)
  | placeholder (digits : String)
  | other (c : Char)
deriving DecidableEq, Inhabited

namespace Token

def name? : Token → Option String
  | name s => some s
  | _ => none

/-- The digits of a placeholder. -/
def placeholder? : Token → Option String
  | placeholder digits => some digits
  | _ => none

end Token

namespace Dialect

/-- The character that begins a placeholder. -/
def sign : Dialect → Char
  | postgres => '$'
  | _ => '?'

/-- What stands behind the sign in the placeholder of the binding at an index from 1. -/
def numeral : Dialect → Nat → String
  | postgres, k => toString k
  | _, _ => ""

/-- The digits that belong to a placeholder, given what stands behind its sign. -/
def digits (d : Dialect) (cs : List Char) : List Char :=
  if d = postgres then cs.takeWhile Char.isDigit else []

end Dialect

/-- The characters of a name between its quotes. -/
def doubled (q : Char) (name : List Char) : List Char :=
  name.flatMap fun c => if c = q then [c, c] else [c]

/-- The name whose opening quote has been read, and the text behind its closing quote. -/
def closeName? (q : Char) : List Char → Option (List Char × List Char)
  | [] => none
  | [c] => if c = q then some ([], []) else none
  | c :: c' :: cs =>
    if c = q then
      -- of two quotes the first one does not close the name
      if c' = q then (closeName? q cs).map fun (name, rest) => (q :: name, rest)
      else some ([], c' :: cs)
    else (closeName? q (c' :: cs)).map fun (name, rest) => (c :: name, rest)

theorem eq_of_closeName? {q : Char} {cs name rest : List Char}
    (h : closeName? q cs = some (name, rest)) : cs = doubled q name ++ q :: rest := by
  fun_induction closeName? q cs generalizing name with
  | case1 => cases h
  | case2 =>
      obtain ⟨rfl, rfl⟩ := Prod.mk.inj (Option.some.inj h)
      rfl
  | case3 => cases h
  | case4 cs ih =>
      obtain ⟨⟨name', rest'⟩, h', he⟩ := Option.map_eq_some_iff.mp h
      obtain ⟨rfl, rfl⟩ := Prod.mk.inj he
      rw [ih h']
      simp [doubled]
  | case5 c' cs hc =>
      obtain ⟨rfl, rfl⟩ := Prod.mk.inj (Option.some.inj h)
      rfl
  | case6 c c' cs hc ih =>
      obtain ⟨⟨name', rest'⟩, h', he⟩ := Option.map_eq_some_iff.mp h
      obtain ⟨rfl, rfl⟩ := Prod.mk.inj he
      rw [ih h']
      simp [doubled, hc]

theorem length_of_closeName? {q : Char} {cs name rest : List Char}
    (h : closeName? q cs = some (name, rest)) : rest.length < cs.length := by
  rw [eq_of_closeName? h, List.length_append, List.length_cons]
  omega

/-- The tokens of a text; it has none where a name is not closed. -/
def tokens? (d : Dialect) : List Char → Option (List Token)
  | [] => some []
  | c :: cs =>
    if c = d.quote then
      match _h : closeName? d.quote cs with
      | none => none
      | some (name, rest) => (tokens? d rest).map (.name (String.ofList name) :: ·)
    else if c = d.sign then
      (tokens? d (cs.drop (d.digits cs).length)).map
        (.placeholder (String.ofList (d.digits cs)) :: ·)
    else (tokens? d cs).map (.other c :: ·)
termination_by cs => cs.length
decreasing_by
  · exact Nat.lt_succ_of_lt (length_of_closeName? _h)
  · rw [List.length_drop]
    exact Nat.lt_succ_of_le (Nat.sub_le ..)
  · exact Nat.lt_succ_self _

/-- The characters of a token. -/
def Token.chars (d : Dialect) : Token → List Char
  | name s => (d.quoted s).toList
  | placeholder digits => d.sign :: digits.toList
  | other c => [c]

section
variable {d : Dialect} {rest : List Char}

theorem tokens?_nil : tokens? d [] = some [] := by rw [tokens?]

theorem tokens?_closeName {cs name : List Char} (h : closeName? d.quote cs = some (name, rest)) :
    tokens? d (d.quote :: cs) = (tokens? d rest).map (.name (String.ofList name) :: ·) := by
  rw [tokens?, if_pos rfl]
  split
  · next hnone => rw [h] at hnone; cases hnone
  · next hsome =>
      rw [h] at hsome
      obtain ⟨rfl, rfl⟩ := Prod.mk.inj (Option.some.inj hsome)
      rfl

theorem tokens?_sign (cs : List Char) :
    tokens? d (d.sign :: cs) = (tokens? d (cs.drop (d.digits cs).length)).map
      (.placeholder (String.ofList (d.digits cs)) :: ·) := by
  have hq : d.sign ≠ d.quote := by cases d <;> decide
  rw [tokens?, if_neg hq, if_pos rfl]

theorem tokens?_other {c : Char} (hq : c ≠ d.quote) (hs : c ≠ d.sign) (cs : List Char) :
    tokens? d (c :: cs) = (tokens? d cs).map (.other c :: ·) := by
  rw [tokens?, if_neg hq, if_neg hs]

theorem digits_append_drop (cs : List Char) :
    d.digits cs ++ cs.drop (d.digits cs).length = cs := by
  have hprefix : d.digits cs <+: cs := by
    unfold Dialect.digits
    split
    · exact List.takeWhile_prefix _
    · exact List.nil_prefix
  exact List.prefix_iff_eq_append.mp hprefix

/-- The tokens of a text make up the text. -/
theorem flatMap_chars_of_tokens? {cs : List Char} {ts : List Token} (h : tokens? d cs = some ts) :
    ts.flatMap (Token.chars d) = cs := by
  induction cs using tokens?.induct d generalizing ts with
  | case1 =>
      rw [tokens?_nil] at h
      obtain rfl := Option.some.inj h
      rfl
  | case2 cs hnone =>
      -- a name that is not closed has no tokens
      rw [tokens?, if_pos rfl] at h
      split at h
      · cases h
      · next hsome => rw [hnone] at hsome; cases hsome
  | case3 cs name rest hsome ih =>
      rw [tokens?_closeName hsome] at h
      obtain ⟨ts', h', rfl⟩ := Option.map_eq_some_iff.mp h
      rw [List.flatMap_cons, ih h', eq_of_closeName? hsome]
      simp [Token.chars, Dialect.quoted, doubled]
  | case4 cs hq ih =>
      rw [tokens?_sign] at h
      obtain ⟨ts', h', rfl⟩ := Option.map_eq_some_iff.mp h
      rw [List.flatMap_cons, ih h', Token.chars, String.toList_ofList, List.cons_append,
        digits_append_drop]
  | case5 c cs hq hs ih =>
      rw [tokens?_other hq hs] at h
      obtain ⟨ts', h', rfl⟩ := Option.map_eq_some_iff.mp h
      rw [List.flatMap_cons, ih h', Token.chars, List.singleton_append]

/-! ### The tokens of names and placeholders -/

/-- Behind a name stands its closing quote, unless another quote follows. -/
theorem closeName?_doubled (name : List Char) {q : Char} (h : ∀ c ∈ rest.head?, c ≠ q) :
    closeName? q (doubled q name ++ q :: rest) = some (name, rest) := by
  induction name with
  | nil =>
      cases rest with
      | nil => simp [doubled, closeName?]
      | cons c rest => simp [doubled, closeName?, h c rfl]
  | cons c name ih =>
      by_cases hc : c = q
      · subst hc
        have htext : doubled c (c :: name) ++ c :: rest =
            c :: c :: (doubled c name ++ c :: rest) := by
          simp [doubled]
        rw [htext, closeName?, if_pos rfl, if_pos rfl, ih]
        rfl
      · have htext : doubled q (c :: name) ++ q :: rest = c :: (doubled q name ++ q :: rest) := by
          simp [doubled, hc]
        obtain ⟨c', cs, hcs⟩ : ∃ c' cs, doubled q name ++ q :: rest = c' :: cs :=
          List.exists_cons_of_ne_nil (by simp)
        rw [htext, hcs, closeName?, if_neg hc, ← hcs, ih]
        rfl

theorem tokens?_quoted (name : String) (h : ∀ c ∈ rest.head?, c ≠ d.quote) :
    tokens? d ((d.quoted name).toList ++ rest) = (tokens? d rest).map (.name name :: ·) := by
  have htext : (d.quoted name).toList ++ rest =
      d.quote :: (doubled d.quote name.toList ++ d.quote :: rest) := by
    simp [Dialect.quoted, doubled]
  rw [htext, tokens?_closeName (closeName?_doubled name.toList h), String.ofList_toList]

theorem digits_numeral (k : Nat) (h : ∀ c ∈ rest.head?, ¬ c.isDigit) :
    d.digits ((d.numeral k).toList ++ rest) = (d.numeral k).toList := by
  cases d with
  | mysql | sqlite => rfl
  | postgres =>
      have hdigits : ∀ c ∈ Nat.toDigits 10 k, c.isDigit := fun c hc =>
        Nat.isDigit_of_mem_toDigits (by decide) (by decide) hc
      have hrest : rest.takeWhile Char.isDigit = [] := by
        cases rest with
        | nil => rfl
        | cons c rest => exact List.takeWhile_cons_of_neg (h c rfl)
      rw [Dialect.digits, if_pos rfl, Dialect.numeral, Nat.toString_eq_repr, Nat.toList_repr,
        List.takeWhile_append_of_pos hdigits, hrest, List.append_nil]

theorem tokens?_placeholder (k : Nat) (h : ∀ c ∈ rest.head?, ¬ c.isDigit) :
    tokens? d ((d.placeholder k).toList ++ rest) =
      (tokens? d rest).map (.placeholder (d.numeral k) :: ·) := by
  have htext : (d.placeholder k).toList = d.sign :: (d.numeral k).toList := by
    cases d <;> simp [Dialect.placeholder, Dialect.sign, Dialect.numeral]
  rw [htext, List.cons_append, tokens?_sign, digits_numeral k h, List.drop_left,
    String.ofList_toList]

/-- Whether a text has neither quotes nor placeholders in it. -/
def isPlain (d : Dialect) (s : String) : Bool :=
  s.toList.all fun c => c != d.quote && c != d.sign

theorem tokens?_plain {s : String} (h : isPlain d s) :
    tokens? d (s.toList ++ rest) = (tokens? d rest).map (s.toList.map .other ++ ·) := by
  have hall : ∀ c ∈ s.toList, c ≠ d.quote ∧ c ≠ d.sign := by simpa [isPlain] using h
  clear h
  generalize s.toList = cs at hall
  induction cs with
  | nil => simp
  | cons c cs ih =>
      obtain ⟨hq, hs⟩ := hall c List.mem_cons_self
      rw [List.cons_append, tokens?_other hq hs, ih fun x hx => hall x (List.mem_cons_of_mem _ hx)]
      simp [Function.comp_def]

end

end SqlTree
