import Mathlib.Data.List.Forall2
import SqlTree.Proofs.Reading.Conjunct
import SqlTree.Proofs.Reading.Texts
import SqlTree.Proofs.Statement.Conjunction

/-!
# Reading — conditions of built statements

How the clause of several conditions is read, compared with what the conditions are read as when
each stands alone.  An `or` that is a node has parentheses among several conditions, but one in a
text that is written as it is has none: a raw fragment, a raw name, or the value of an assignment.
A condition with such an `or` is regrouped by the `and` next to it.

**Conditions of built statements** (`build_reading`).  The clause consists of the conditions given
to the builder, with `and` between them.  If each can be read alone, then the clause is read as
their conjunction exactly if no condition but an `or` node has an `or` outside of parentheses.
Conditions that are expressions have none.
-/

namespace SqlTree

open Lexeme

/-! ### Texts with `and` between them -/

section
variable {d : Dialect} {k : Nat} {s : String} {ss : List String} {tss : List (List Lexeme)}

/-- Texts with `and` between them fall into their lexemes with `and` between these. -/
theorem lexes_intercalate_and (h : lexAll d k (s :: ss) = some tss) :
    ∃ k', Lexes d k (" and ".intercalate (s :: ss)) k' (joinedByAnd tss) := by
  induction ss generalizing k s tss with
  | nil =>
      obtain ⟨ts, uss, hts, huss, rfl⟩ := lexAll_cons_eq_some h
      cases huss
      rw [String.intercalate_singleton, joinedByAnd_singleton]
      exact ⟨_, lexes_of_lexFrom hts⟩
  | cons s' ss ih =>
      obtain ⟨ts, uss, hts, huss, rfl⟩ := lexAll_cons_eq_some h
      obtain ⟨us, vss, -, -, rfl⟩ := lexAll_cons_eq_some huss
      obtain ⟨k', hrest⟩ := ih huss
      refine ⟨k', ?_⟩
      have hboth := (lexes_of_lexFrom hts).binary .and hrest
      rw [joinedByAnd_cons_cons, String.intercalate_cons_cons]
      have htext : s ++ " and " ++ " and ".intercalate (s' :: ss) =
          s ++ (" " ++ (BinaryOperator.and.sql ++ (" " ++ " and ".intercalate (s' :: ss)))) := by
        simp [BinaryOperator.sql, ← String.append_assoc]
      rw [htext]
      simpa [BinaryOperator.lexemes] using hboth

end

/-! ### Open disjunctions of expressions -/

section
variable {x y : Bool} {e : Expression} {ts us : List Lexeme}

/-- Whether lexemes whose parentheses are all closed have an open `or`. -/
def OpenOrIs (x : Bool) (ts : List Lexeme) : Prop :=
  ∀ k us, hasOpenOr k (ts ++ us) = ((k == 0 && x) || hasOpenOr k us)

theorem OpenOrIs.hasOpenOr_eq (h : OpenOrIs x ts) :
    hasOpenOr 0 ts = x := by
  have hend := h 0 []
  rwa [List.append_nil, hasOpenOr, Bool.or_false, beq_self_eq_true, Bool.true_and] at hend

/-- What can be read has all its parentheses closed. -/
theorem ReadsAs.openOrIs (h : ReadsAs ts e) :
    OpenOrIs (hasOpenOr 0 ts) ts := by
  intro k us
  have happend := hasOpenOr_append h k us
  rwa [parens, List.count_nil, Nat.zero_add] at happend

theorem OpenOrIs.append (h : OpenOrIs x ts) (h' : OpenOrIs y us) :
    OpenOrIs (x || y) (ts ++ us) := by
  intro k vs
  rw [List.append_assoc, h, h', Bool.and_or_distrib_left, Bool.or_assoc]

theorem OpenOrIs.parenthesizedLexemes (h : OpenOrIs x ts) (needed : Bool) :
    OpenOrIs (!needed && x) (parenthesizedLexemes needed ts) := by
  intro k us
  cases needed with
  | false => exact h k us
  | true =>
      have htext : SqlTree.parenthesizedLexemes true ts ++ us =
          .opening :: (ts ++ .closing :: us) := by
        simp [SqlTree.parenthesizedLexemes]
      rw [htext, hasOpenOr_opening, h, hasOpenOr_closing]
      simp

/-- Lexemes without parentheses and without an `or`. -/
theorem openOrIs_false (h : ∀ t ∈ ts, t ≠ .operator .or ∧ ∀ k, t.depth k = k) :
    OpenOrIs false ts := by
  intro k us
  rw [Bool.and_false, Bool.false_or]
  induction ts with
  | nil => rfl
  | cons t ts ih =>
      obtain ⟨ht, hdepth⟩ := h t List.mem_cons_self
      rw [List.cons_append, hasOpenOr_cons ht, hdepth]
      exact ih fun u hu => h u (List.mem_cons_of_mem _ hu)

theorem Atom.openOrIs (a : Atom) : OpenOrIs false a.lexemes := by
  rcases a with ⟨_ | table, name⟩ | k <;> exact openOrIs_false (by simp [lexemes, Lexeme.depth])

theorem BinaryOperator.openOrIs (op : BinaryOperator) : OpenOrIs (op == .or) op.lexemes := by
  cases op with
  | or =>
      intro k us
      simp [lexemes, hasOpenOr, Lexeme.depth]
  | _ => exact openOrIs_false (by simp [lexemes, Lexeme.depth])

theorem openOrIs_nullTestLexemes (negated : Bool) : OpenOrIs false (nullTestLexemes negated) := by
  cases negated <;> exact openOrIs_false (by simp [nullTestLexemes, Lexeme.depth])

/-- An operand that is an `or` has no parentheses just if the operator is an `or` as well. -/
theorem Expression.isDisjunction_of_parens (e : Expression) (op : BinaryOperator) :
    (!e.leftParens op && e.isDisjunction) = (e.isDisjunction && op == .or) ∧
      (!e.rightParens op && e.isDisjunction) = (e.isDisjunction && op == .or) := by
  cases e with
  | binary l child r =>
      cases child with
      | or => cases op <;> exact ⟨rfl, rfl⟩
      | _ => simp [isDisjunction]
  | _ => simp [isDisjunction]

theorem Expression.isDisjunction_binary (l : Expression) (op : BinaryOperator) (r : Expression) :
    (binary l op r).isDisjunction = (op == .or) := by
  cases op <;> rfl

/-- The operand of an operator of one operand. -/
theorem OpenOrIs.operand (h : OpenOrIs e.isDisjunction e.lexemes) :
    OpenOrIs false (SqlTree.parenthesizedLexemes (!e.isAtom) e.lexemes) := by
  have hoperand := h.parenthesizedLexemes (!e.isAtom)
  have hatom : (!(!e.isAtom) && e.isDisjunction) = false := by cases e <;> rfl
  rwa [hatom] at hoperand

/-- An `or` outside of the parentheses of an expression is the expression itself. -/
theorem Expression.openOrIs (e : Expression) : OpenOrIs e.isDisjunction e.lexemes := by
  induction e with
  | atom a => exact a.openOrIs
  | binary l op r ihl ihr =>
      have h := ((ihl.parenthesizedLexemes (l.leftParens op)).append op.openOrIs).append
        (ihr.parenthesizedLexemes (r.rightParens op))
      rw [(l.isDisjunction_of_parens op).1, (r.isDisjunction_of_parens op).2] at h
      have hor : ((l.isDisjunction && op == .or) || op == .or ||
          (r.isDisjunction && op == .or)) = (binary l op r).isDisjunction := by
        rw [isDisjunction_binary]
        cases op == .or <;> simp
      rwa [hor] at h
  | not e ih =>
      have hnot : OpenOrIs false [.not] := openOrIs_false (by simp [Lexeme.depth])
      exact hnot.append ih.operand
  | negate e ih =>
      have hminus : OpenOrIs false [.operator .sub] := openOrIs_false (by simp [Lexeme.depth])
      exact hminus.append ih.operand
  | isNull b e ih => exact ih.operand.append (openOrIs_nullTestLexemes b)

end

/-! ### Conditions one by one and together -/

/-- The conjunction of expressions, grouped to the left. -/
def Expression.conjunction : List Expression → Option Expression
  | [] => none
  | e :: es => some (es.foldl .and e)

/-- The conditions fall into lexemes and are read as expressions when each stands alone,
placeholders being counted from `k` through all of them. -/
structure ReadAlone (d : Dialect) (k : Nat) (ps : List Node) (tss : List (List Lexeme))
    (es : List Expression) : Prop where
  lexemes : lexAll d k (layouts d k (ps.map (Node.pieces d))) = some tss
  expressions : List.Forall₂ ReadsAs tss es

/-- The expression that a text stands for, placeholders being counted from `k`; `Dialect.read` counts
them from one. -/
def Dialect.readFrom (d : Dialect) (k : Nat) (s : String) : Option Expression :=
  (lexFrom d k .between s.toList).bind (parse [] .operand)

/-- The clause of the conditions is read as the conjunction of expressions, up to regrouping. -/
def ReadTogether (d : Dialect) (k : Nat) (ps : List Node) (es : List Expression) : Prop :=
  ∃ r c, d.readFrom k (Node.conditionText d k ps) = some r ∧
    Expression.conjunction es = some c ∧ Reassociated r c

section
variable {d : Dialect} {k : Nat} {ps : List Node} {tss : List (List Lexeme)}
  {es : List Expression}

/-- The lexemes of the members of a conjunction, with the parentheses that some have. -/
def memberLexemes (several : Bool) (ps : List Node) (tss : List (List Lexeme)) :
    List (List Lexeme) :=
  List.zipWith (fun p ts => parenthesizedLexemes (several && p.isDisjunction) ts) ps tss

theorem lexAll_members (several : Bool) {j : Nat}
    (h : lexAll d k (layouts d j (ps.map (Node.pieces d))) = some tss) :
    lexAll d k (layouts d j (ps.map fun p =>
        Piece.parenthesizedIf (several && p.isDisjunction) (p.pieces d))) =
      some (memberLexemes several ps tss) := by
  induction ps generalizing k j tss with
  | nil => cases h; rfl
  | cons p ps ih =>
      obtain ⟨ts, uss, hts, huss, rfl⟩ := lexAll_cons_eq_some h
      have hmember := (lexes_of_lexFrom hts).parenthesized (several && p.isDisjunction)
      rw [List.map_cons, layouts, bindings_parenthesizedIf, layout_parenthesizedIf]
      exact lexAll_cons hmember.lexFrom_eq (hmember.eq_add ▸ ih huss)

/-- Parentheses do not change what is read. -/
theorem ReadsAs.parenthesized {ts : List Lexeme} {e : Expression} (h : ReadsAs ts e)
    (needed : Bool) : ReadsAs (parenthesizedLexemes needed ts) e := by
  cases needed with
  | false => exact h
  | true => exact parse_parenthesized [] h []

theorem readsAs_members (several : Bool) (hlength : ps.length = tss.length)
    (h : List.Forall₂ ReadsAs tss es) :
    List.Forall₂ ReadsAs (memberLexemes several ps tss) es := by
  induction h generalizing ps with
  | nil =>
      obtain rfl := List.length_eq_zero_iff.1 hlength
      exact .nil
  | cons h hs ih =>
      obtain ⟨p, ps, rfl⟩ := List.exists_cons_of_length_eq_add_one hlength
      exact .cons (h.parenthesized _) (ih (Nat.succ.inj hlength))

/-- No member has an open `or` if only the nodes do that have parentheses. -/
theorem noOpenOr_members_iff (several : Bool) (hlength : ps.length = tss.length)
    (h : List.Forall₂ ReadsAs tss es) :
    (∀ us ∈ memberLexemes several ps tss, hasOpenOr 0 us = false) ↔
      List.Forall₂ (fun p ts => hasOpenOr 0 ts → several && p.isDisjunction) ps tss := by
  induction h generalizing ps with
  | nil =>
      obtain rfl := List.length_eq_zero_iff.1 hlength
      simp [memberLexemes]
  | @cons ts e tss es h hs ih =>
      obtain ⟨p, ps, rfl⟩ := List.exists_cons_of_length_eq_add_one hlength
      have hopen := (h.openOrIs.parenthesizedLexemes (several && p.isDisjunction)).hasOpenOr_eq
      have hfirst : hasOpenOr 0 (parenthesizedLexemes (several && p.isDisjunction) ts) = false ↔
          (hasOpenOr 0 ts → several && p.isDisjunction) := by
        rw [hopen]
        cases hasOpenOr 0 ts <;> cases several && p.isDisjunction <;> simp
      rw [memberLexemes, List.zipWith_cons_cons, List.forall_mem_cons, hfirst,
        List.forall₂_cons]
      exact and_congr_right fun _ => ih (Nat.succ.inj hlength)

theorem readFrom_conditionText {p : Node}
    (h : lexAll d k (layouts d k ((p :: ps).map (Node.pieces d))) = some tss) :
    d.readFrom k (Node.conditionText d k (p :: ps)) =
      parse [] .operand (joinedByAnd (memberLexemes (2 ≤ (p :: ps).length) (p :: ps) tss)) := by
  obtain ⟨k', hlex⟩ := lexes_intercalate_and (lexAll_members (2 ≤ (p :: ps).length) h)
  exact congrArg (·.bind (parse [] .operand)) hlex.lexFrom_eq

theorem ReadAlone.length_eq (h : ReadAlone d k ps tss es) : ps.length = tss.length := by
  have hlength := length_of_lexAll h.lexemes
  rw [length_layouts, List.length_map] at hlength
  exact hlength.symm

/-- The clause is read as the conjunction of its conditions exactly if there is just one or no
condition but an `or` node has an open `or`. -/
theorem readTogether_iff (h : ReadAlone d k ps tss es) (hps : ps ≠ []) :
    ReadTogether d k ps es ↔
      ps.length ≤ 1 ∨ List.Forall₂ (fun p ts => hasOpenOr 0 ts → p.isDisjunction) ps tss := by
  have hlength := h.length_eq
  have hmembers := readsAs_members (2 ≤ ps.length) hlength h.expressions
  have hopen := noOpenOr_members_iff (2 ≤ ps.length) hlength h.expressions
  obtain ⟨p, ps, rfl⟩ := List.exists_cons_of_ne_nil hps
  obtain ⟨ts, tss, -, -, rfl⟩ := lexAll_cons_eq_some h.lexemes
  obtain ⟨e, es, -, -, rfl⟩ := List.forall₂_cons_left_iff.1 h.expressions
  have hread : ReadTogether d k (p :: ps) (e :: es) ↔
      ∃ r, parse [] .operand (joinedByAnd
          (memberLexemes (2 ≤ (p :: ps).length) (p :: ps) (ts :: tss))) = some r ∧
        Reassociated r (es.foldl .and e) := by
    simp [ReadTogether, Expression.conjunction, readFrom_conditionText h.lexemes]
  rw [hread]
  refine (parse_conjunction_iff hmembers).trans ?_
  cases ps with
  | nil => simp
  | cons p' ps =>
      obtain ⟨ts', tss, rfl⟩ := List.exists_cons_of_length_eq_add_one (Nat.succ.inj hlength).symm
      refine or_congr (by simp) (hopen.trans ?_)
      simp

end

/-! ### Conditions that are expressions -/

/-- The expressions of conditions, their parameters being numbered from `k` through all of them. -/
def Node.expressions? : Nat → List Node → Option (List Expression)
  | _, [] => some []
  | k, p :: ps =>
    (p.expression? k).bind fun e =>
      (Node.expressions? (k + p.parameters.length) ps).map (e :: ·)

section
variable {d : Dialect} {k : Nat} {p : Node} {ps : List Node} {e : Expression}
  {tss : List (List Lexeme)} {es es' : List Expression}

theorem Node.eq_of_expressions?_cons (h : Node.expressions? k (p :: ps) = some es) :
    ∃ e es', p.expression? k = some e ∧
      Node.expressions? (k + p.parameters.length) ps = some es' ∧ es = e :: es' := by
  obtain ⟨e, he, h⟩ := Option.bind_eq_some_iff.1 h
  obtain ⟨es', hes, rfl⟩ := Option.map_eq_some_iff.1 h
  exact ⟨e, es', he, hes, rfl⟩

theorem Node.isDisjunction_of_expression? (h : p.expression? k = some e) :
    p.isDisjunction = e.isDisjunction := by
  cases p with
  | binary l op r =>
      obtain ⟨left, right, -, -, rfl⟩ := Node.eq_of_expression?_binary h
      cases op <;> rfl
  | identifier id | columnReference c =>
      obtain ⟨a, -, rfl⟩ := Option.map_eq_some_iff.1 h
      rfl
  | parameter v =>
      obtain rfl := Option.some.inj h
      rfl
  | unary u n =>
      cases u with
      | not | negate | isNull | isNotNull =>
          obtain ⟨e', -, rfl⟩ := Option.map_eq_some_iff.1 h
          rfl
      | _ => cases h
  | _ => cases h

theorem lexAll_of_expressions? (h : Node.expressions? k ps = some es) :
    lexAll d k (layouts d k (ps.map (Node.pieces d))) = some (es.map Expression.lexemes) := by
  induction ps generalizing k es with
  | nil => cases h; rfl
  | cons p ps ih =>
      obtain ⟨e, es', he, hes, rfl⟩ := Node.eq_of_expressions?_cons h
      have hlex := Node.lexes (d := d) p he
      have hnext : k + (bindings (p.pieces d)).length = k + parameterCount e.lexemes := by
        rw [p.bindings_pieces, hlex.eq_add]
      have hrest := ih hes
      rw [← p.bindings_pieces d, hnext] at hrest
      rw [List.map_cons, layouts, hnext]
      exact lexAll_cons hlex.lexFrom_eq hrest

/-- Among conditions that are expressions only an `or` node has an open `or`. -/
theorem openOr_of_expressions? (h : Node.expressions? k ps = some es) :
    List.Forall₂ (fun p ts => hasOpenOr 0 ts → p.isDisjunction) ps (es.map Expression.lexemes) := by
  induction ps generalizing k es with
  | nil => cases h; exact .nil
  | cons p ps ih =>
      obtain ⟨e, es', he, hes, rfl⟩ := Node.eq_of_expressions?_cons h
      refine .cons (fun hor => ?_) (ih hes)
      rwa [Node.isDisjunction_of_expression? he, ← e.openOrIs.hasOpenOr_eq]

/-- Conditions that are expressions can be read alone if no test is an operand of arithmetic. -/
theorem readAlone_of_expressions? (h : Node.expressions? k ps = some es)
    (ht : ∀ e ∈ es, e.Tight) :
    ReadAlone d k ps (es.map Expression.lexemes) (es.map (Expression.reread none)) where
  lexemes := lexAll_of_expressions? h
  expressions := by
    rw [List.forall₂_map_left_iff, List.forall₂_map_right_iff, List.forall₂_same]
    exact fun e he => parse_lexemes (ht e he)

theorem readTogether_of_expressions? (h : Node.expressions? k ps = some es)
    (hread : ReadAlone d k ps tss es') (hps : ps ≠ []) : ReadTogether d k ps es' := by
  obtain rfl := Option.some.inj ((lexAll_of_expressions? h).symm.trans hread.lexemes)
  exact (readTogether_iff hread hps).2 (.inr (openOr_of_expressions? h))

end

/-! ### Conditions of built statements -/

/-- How the clause of several conditions is read, placeholders being counted from `k`. -/
structure ConditionsRead (d : Dialect) (k : Nat) (ps : List Node) : Prop where
  /-- Conditions that can be read alone are read as their conjunction exactly if there is just one
  or no condition but an `or` node has an `or` outside of parentheses. -/
  together_iff : ∀ tss es, ReadAlone d k ps tss es →
    (ReadTogether d k ps es ↔
      ps.length ≤ 1 ∨ List.Forall₂ (fun p ts => hasOpenOr 0 ts → p.isDisjunction) ps tss)
  /-- Conditions that are expressions are read as their conjunction. -/
  together : ∀ exprs, Node.expressions? k ps = some exprs → ∀ tss es, ReadAlone d k ps tss es →
    ReadTogether d k ps es
  /-- Conditions that are expressions can be read alone. -/
  alone : ∀ exprs, Node.expressions? k ps = some exprs → (∀ e ∈ exprs, e.Tight) →
    ReadAlone d k ps (exprs.map Expression.lexemes) (exprs.map (Expression.reread none))

theorem conditionsRead (d : Dialect) (k : Nat) {ps : List Node} (hps : ps ≠ []) :
    ConditionsRead d k ps where
  together_iff _ _ h := readTogether_iff h hps
  together _ h _ _ hread := readTogether_of_expressions? h hread hps
  alone _ h ht := readAlone_of_expressions? h ht

/-- A clause of the statement of a query consists of several conditions and is read as these say. -/
def Statement.HasReadClause (d : Dialect) (s : Statement) (opening : String) (ps : List Node)
    (pieces : Option Node → List Piece) : Prop :=
  ∃ k, s.HasClause d opening ps pieces k ∧ ConditionsRead d (k + 1) ps

theorem Statement.HasReadClause.of_hasClause {d : Dialect} {s : Statement} {opening : String}
    {ps : List Node} {pieces : Option Node → List Piece} (hps : ps ≠ [])
    (h : ∃ k, s.HasClause d opening ps pieces k) : s.HasReadClause d opening ps pieces := by
  obtain ⟨k, hk⟩ := h
  exact ⟨k, hk, conditionsRead d (k + 1) hps⟩

/-- The condition `a = $1 or b = $2`. -/
def eitherOne : Node :=
  (Node.eq (.column ⟨"a", false⟩) (.parameter (.int 1))).or
    (.eq (.column ⟨"b", false⟩) (.parameter (.int 2)))

/-- Two conditions and one on groups, with other calls between them. -/
def selectCalls : List Select.Call :=
  [.filter eitherOne, .addSource (.table ⟨"t", false⟩), .groupBy (.column ⟨"c", false⟩),
    .filterGroups (.eq (.call "count" [.wildcard none]) (.parameter (.int 4))),
    .filter (.eq (.column ⟨"c", false⟩) (.parameter (.int 3))), .asDistinct]

def deleteCalls : List Delete.Call :=
  [.filter (.column ⟨"c", false⟩), .addReturning (.column ⟨"d", false⟩), .filter eitherOne]

/-- The expressions of the conditions for a delete. -/
def deleteExpressions (k : Nat) : List Expression :=
  [.atom (.column none "c"),
    .binary (.binary (.atom (.column none "a")) .eq (.atom (.parameter k))) .or
      (.binary (.atom (.column none "b")) .eq (.atom (.parameter (k + 1))))]

/-- A raw `or`, and a condition behind it. -/
def looseCalls : List Delete.Call :=
  [.filter (.rawFragment ["\"a\" or \"b\""] []), .filter (.column ⟨"c", false⟩)]

end SqlTree
