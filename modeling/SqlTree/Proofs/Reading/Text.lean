import SqlTree.Proofs.Reading.Grammar

/-!
# Reading — the text of an expression

`Expression.lexemes` are the lexemes of an expression, with parentheses where a statement has them.
The text of a tree falls into the lexemes of its expression (`Node.lexes`), whatever text follows
it, as long as that begins with a blank or a closing parenthesis.
-/

namespace SqlTree

def Atom.lexemes : Atom → List Lexeme
  | column none name => [.name name]
  | column (some table) name => [.name table, .dot, .name name]
  | parameter k => [.parameter k]

/-- Lexemes, between parentheses if they need them. -/
def parenthesizedLexemes (needed : Bool) (ts : List Lexeme) : List Lexeme :=
  if needed then .opening :: ts ++ [.closing] else ts

def Expression.lexemes : Expression → List Lexeme
  | atom a => a.lexemes
  | binary l op r =>
    parenthesizedLexemes (l.leftParens op) l.lexemes ++ op.lexemes ++
      parenthesizedLexemes (r.rightParens op) r.lexemes
  | not e => .not :: parenthesizedLexemes (!e.isAtom) e.lexemes
  | negate e => .operator .sub :: parenthesizedLexemes (!e.isAtom) e.lexemes
  | isNull negated e => parenthesizedLexemes (!e.isAtom) e.lexemes ++ nullTestLexemes negated

/-- A text falls into lexemes and leaves `k'` as the number of the next placeholder. -/
def Lexes (d : Dialect) (k : Nat) (s : String) (k' : Nat) (ts : List Lexeme) : Prop :=
  ∀ rest, EndsLexeme rest →
    lexFrom d k .between (s.toList ++ rest) = (lexFrom d k' .between rest).map (ts ++ ·)

section
variable {d : Dialect} {k k' : Nat}

theorem EndsLexeme.ne_quote {rest : List Char} (h : EndsLexeme rest) :
    ∀ c ∈ rest.head?, c ≠ d.quote := by
  intro c hc
  rcases h c hc with rfl | rfl
  · cases d <;> decide
  · cases d <;> decide

theorem EndsLexeme.not_isDigit {rest : List Char} (h : EndsLexeme rest) :
    ∀ c ∈ rest.head?, ¬ c.isDigit := by
  intro c hc
  rcases h c hc with rfl | rfl <;> decide

theorem EndsLexeme.not_inRun {rest : List Char} (h : EndsLexeme rest) (symbolic : Bool) :
    ∀ c ∈ rest.head?, ¬ inRun symbolic c := by
  intro c hc
  rcases h c hc with rfl | rfl <;> cases symbolic <;> decide

/-! ### Operands -/

theorem lexes_quoted (name : String) : Lexes d k (d.quoted name) k [.name name] :=
  fun _ h => lexFrom_quoted name h.ne_quote

theorem lexes_qualified (table name : String) :
    Lexes d k (d.quoted table ++ ("." ++ d.quoted name)) k [.name table, .dot, .name name] := by
  intro rest h
  have hdot : ∀ c ∈ ('.' :: ((d.quoted name).toList ++ rest)).head?, c ≠ d.quote := by
    intro c hc
    obtain rfl := Option.some.inj hc
    cases d <;> decide
  have htext : (d.quoted table ++ ("." ++ d.quoted name)).toList ++ rest =
      (d.quoted table).toList ++ '.' :: ((d.quoted name).toList ++ rest) := by
    simp
  rw [htext, lexFrom_quoted table hdot, lexFrom_dot, lexes_quoted name rest h]
  simp [Function.comp_def]

theorem lexes_placeholder (k : Nat) : Lexes d k (d.placeholder k) (k + 1) [.parameter k] :=
  fun _ h => lexFrom_placeholder h.not_isDigit

theorem layout_parenthesizedIf (needed : Bool) (ps : List Piece) :
    layout d k (Piece.parenthesizedIf needed ps) =
      if needed then "(" ++ layout d k ps ++ ")" else layout d k ps := by
  cases needed with
  | false => rfl
  | true => simp [Piece.parenthesizedIf, Piece.parenthesized, layout_append, String.append_assoc]

theorem Lexes.parenthesized {s : String} {ts : List Lexeme} (needed : Bool)
    (h : Lexes d k s k' ts) :
    Lexes d k (if needed then "(" ++ s ++ ")" else s) k' (parenthesizedLexemes needed ts) := by
  cases needed with
  | false => exact h
  | true =>
      intro rest _
      -- the closing parenthesis ends the last lexeme inside
      have htext : ("(" ++ s ++ ")").toList ++ rest = '(' :: (s.toList ++ ')' :: rest) := by simp
      rw [if_pos rfl, htext, lexFrom_opening, h _ (endsLexeme_closing rest), lexFrom_closing]
      simp [parenthesizedLexemes, Function.comp_def]

theorem Lexes.parenthesizedIf {ps : List Piece} {ts : List Lexeme} (needed : Bool)
    (h : Lexes d k (layout d k ps) k' ts) :
    Lexes d k (layout d k (Piece.parenthesizedIf needed ps)) k'
      (parenthesizedLexemes needed ts) := by
  rw [layout_parenthesizedIf]
  exact h.parenthesized needed

/-! ### Operators -/

theorem Lexes.binary {s t : String} {k'' : Nat} {us ts : List Lexeme} (op : BinaryOperator)
    (hl : Lexes d k s k' us) (hr : Lexes d k' t k'' ts) :
    Lexes d k (s ++ (" " ++ (op.sql ++ (" " ++ t)))) k'' (us ++ op.lexemes ++ ts) := by
  intro rest h
  have htext : (s ++ (" " ++ (op.sql ++ (" " ++ t)))).toList ++ rest =
      s.toList ++ ' ' :: (op.sql.toList ++ ' ' :: (t.toList ++ rest)) := by
    simp
  rw [htext, hl _ (endsLexeme_blank _), lexFrom_blank, lexFrom_operator, hr rest h]
  simp [Function.comp_def]

theorem Lexes.not {s : String} {ts : List Lexeme} (hs : Lexes d k s k' ts) :
    Lexes d k ("not " ++ s) k' (.not :: ts) := by
  intro rest h
  rw [String.toList_append, List.append_assoc, lexFrom_not, hs rest h]
  simp [Function.comp_def]

/-- A minus is a lexeme of its own unless the characters of another symbol follow it. -/
theorem Lexes.negate {s : String} {ts : List Lexeme} (hs : Lexes d k s k' ts)
    (hhead : ∃ c cs, s.toList = c :: cs ∧ ¬ inRun true c) :
    Lexes d k ("-" ++ s) k' (.operator .sub :: ts) := by
  intro rest h
  obtain ⟨c, cs, hc, hrun⟩ := hhead
  have hend : ∀ x ∈ (s.toList ++ rest).head?, ¬ inRun true x := by
    intro x hx
    rw [hc] at hx
    obtain rfl := Option.some.inj hx
    exact hrun
  have hminus := lexFrom_run (d := d) (k := k) true ['-'] (s.toList ++ rest) rfl rfl hend
  rw [String.toList_append, List.append_assoc]
  refine hminus.trans ?_
  rw [hs rest h]
  simp [Function.comp_def]

theorem Lexes.nullTest {s : String} {ts : List Lexeme} (negated : Bool) (hs : Lexes d k s k' ts) :
    Lexes d k (s ++ if negated then " is not null" else " is null") k'
      (ts ++ nullTestLexemes negated) := by
  intro rest h
  have hnull : lexFrom d k' .between ("null".toList ++ rest) =
      (lexFrom d k' .between rest).map (.null :: ·) :=
    lexFrom_run false "null".toList rest rfl rfl (h.not_inRun false)
  have his : ∀ cs, lexFrom d k' .between ("is".toList ++ ' ' :: cs) =
      (lexFrom d k' .between cs).map (.is :: ·) :=
    fun cs => lexFrom_run_blank false "is".toList cs rfl rfl
  cases negated with
  | false =>
      have htext : (s ++ " is null").toList ++ rest =
          s.toList ++ ' ' :: ("is".toList ++ ' ' :: ("null".toList ++ rest)) := by
        simp
      rw [if_neg Bool.false_ne_true, htext, hs _ (endsLexeme_blank _), lexFrom_blank, his, hnull]
      simp [nullTestLexemes, Function.comp_def]
  | true =>
      have htext : (s ++ " is not null").toList ++ rest =
          s.toList ++
            ' ' :: ("is".toList ++ ' ' :: ("not ".toList ++ ("null".toList ++ rest))) := by
        simp
      rw [if_pos rfl, htext, hs _ (endsLexeme_blank _), lexFrom_blank, his, lexFrom_not, hnull]
      simp [nullTestLexemes, Function.comp_def]

end

/-! ### Trees -/

section
variable {d : Dialect} {k : Nat}

/-- The operand of an operator of one operand. -/
theorem Lexes.operand {n : Node} {e : Expression} (hn : n.expression? k = some e) {k' : Nat}
    (h : Lexes d k (layout d k (n.pieces d)) k' e.lexemes) :
    Lexes d k (layout d k (Piece.parenthesizedIf (!n.isAtomic) (n.pieces d))) k'
      (parenthesizedLexemes (!e.isAtom) e.lexemes) := by
  rw [← (Node.parens_of_expression? hn .eq).2.2]
  exact h.parenthesizedIf _

theorem head_quoted (d : Dialect) (name rest : String) :
    ∃ c cs, (d.quoted name ++ rest).toList = c :: cs ∧ ¬ inRun true c := by
  refine ⟨d.quote, _, by simp [Dialect.quoted]; rfl, ?_⟩
  cases d <;> decide

theorem head_placeholder (d : Dialect) (k : Nat) (rest : String) :
    ∃ c cs, (d.placeholder k ++ rest).toList = c :: cs ∧ ¬ inRun true c := by
  cases d with
  | postgres => exact ⟨'$', _, by simp [Dialect.placeholder]; rfl, by decide⟩
  | mysql | sqlite => exact ⟨'?', _, by simp [Dialect.placeholder]; rfl, by decide⟩

/-- Neither a parenthesis nor a quote nor a placeholder continues a symbol. -/
theorem head_operand {n : Node} {e : Expression} (h : n.expression? k = some e) :
    ∃ c cs, (layout d k (Piece.parenthesizedIf (!n.isAtomic) (n.pieces d))).toList = c :: cs ∧
      ¬ inRun true c := by
  rw [layout_parenthesizedIf]
  cases hn : n.isAtomic with
  | false => exact ⟨'(', _, by simp; rfl, by decide⟩
  | true =>
      cases n with
      | identifier id =>
          obtain ⟨name, hid, -⟩ := Option.map_eq_some_iff.mp h
          rw [Node.pieces, Identifier.eq_of_quoted? hid]
          exact head_quoted d name _
      | columnReference c =>
          obtain ⟨a, hc, -⟩ := Option.map_eq_some_iff.mp h
          rw [Node.pieces]
          rcases ColumnReference.pieces_of_atom? hc with ⟨name, -, hp⟩ | ⟨table, name, -, hp⟩
          · rw [hp]
            exact head_quoted d name _
          · rw [hp]
            exact head_quoted d table _
      | parameter v => exact head_placeholder d k _
      | binary | unary => cases hn
      | _ => cases h

/-- **Text.**  The text of a tree with an expression falls into the lexemes of that. -/
theorem Node.lexes : ∀ (n : Node) {k : Nat} {e : Expression}, n.expression? k = some e →
    Lexes d k (layout d k (n.pieces d)) (k + n.parameters.length) e.lexemes
  | .identifier id, k, e, h => by
      obtain ⟨name, hid, rfl⟩ := Option.map_eq_some_iff.mp h
      rw [Node.pieces, Identifier.eq_of_quoted? hid, layout, layout, String.append_empty]
      exact lexes_quoted name
  | .columnReference c, k, e, h => by
      obtain ⟨a, hc, rfl⟩ := Option.map_eq_some_iff.mp h
      rw [Node.pieces]
      rcases ColumnReference.pieces_of_atom? hc with ⟨name, rfl, hp⟩ | ⟨table, name, rfl, hp⟩
      · rw [hp, layout, layout, String.append_empty]
        exact lexes_quoted name
      · rw [hp, layout, layout, layout, layout, String.append_empty]
        exact lexes_qualified table name
  | .parameter v, k, e, h => by
      obtain rfl := Option.some.inj h
      rw [Node.pieces, layout, layout, String.append_empty]
      exact lexes_placeholder k
  | .binary l op r, k, e, h => by
      obtain ⟨left, right, hl, hr, rfl⟩ := Node.eq_of_expression?_binary h
      have ihl := (Node.lexes l hl).parenthesizedIf (l.leftParens op)
      have ihr := (Node.lexes r hr).parenthesizedIf (r.rightParens op)
      rw [(Node.parens_of_expression? hl op).1] at ihl
      rw [(Node.parens_of_expression? hr op).2.1] at ihr
      -- the placeholders of the two operands are counted together
      have hlex := ihl.binary op ihr
      rw [Nat.add_assoc, ← List.length_append] at hlex
      simpa [Node.pieces, layout_append, Node.bindings_pieces, Node.parameters, Expression.lexemes,
        (Node.parens_of_expression? hl op).1, (Node.parens_of_expression? hr op).2.1,
        String.append_assoc] using hlex
  | .unary .not n, k, e, h => by
      obtain ⟨e', hn, rfl⟩ := Option.map_eq_some_iff.mp h
      exact (Lexes.operand hn (Node.lexes n hn)).not
  | .unary .negate n, k, e, h => by
      obtain ⟨e', hn, rfl⟩ := Option.map_eq_some_iff.mp h
      exact (Lexes.operand hn (Node.lexes n hn)).negate (head_operand hn)
  | .unary .isNull n, k, e, h => by
      obtain ⟨e', hn, rfl⟩ := Option.map_eq_some_iff.mp h
      have hlex := (Lexes.operand hn (Node.lexes n hn)).nullTest false
      rw [Node.pieces, unaryPieces, layout_append]
      exact hlex
  | .unary .isNotNull n, k, e, h => by
      obtain ⟨e', hn, rfl⟩ := Option.map_eq_some_iff.mp h
      have hlex := (Lexes.operand hn (Node.lexes n hn)).nullTest true
      rw [Node.pieces, unaryPieces, layout_append]
      exact hlex

/-- A tree with an expression can be written for every dialect. -/
theorem Node.firstOffence?_of_expression? : ∀ (n : Node) {k : Nat} {e : Expression},
    n.expression? k = some e → firstOffence? (n.pieces d) = none
  | .identifier id, k, e, h => by
      obtain ⟨name, hid, -⟩ := Option.map_eq_some_iff.mp h
      rw [Node.pieces, Identifier.eq_of_quoted? hid]
      rfl
  | .columnReference c, k, e, h => by
      obtain ⟨a, hc, -⟩ := Option.map_eq_some_iff.mp h
      rw [Node.pieces]
      rcases ColumnReference.pieces_of_atom? hc with ⟨name, -, hp⟩ | ⟨table, name, -, hp⟩
      · rw [hp]
        rfl
      · rw [hp]
        rfl
  | .parameter v, k, e, h => rfl
  | .binary l op r, k, e, h => by
      obtain ⟨left, right, hl, hr, -⟩ := Node.eq_of_expression?_binary h
      simp [Node.pieces, Node.firstOffence?_of_expression? l hl,
        Node.firstOffence?_of_expression? r hr]
  | .unary .not n, k, e, h | .unary .negate n, k, e, h | .unary .isNull n, k, e, h
  | .unary .isNotNull n, k, e, h => by
      obtain ⟨e', hn, -⟩ := Option.map_eq_some_iff.mp h
      simp [Node.pieces, unaryPieces, Node.firstOffence?_of_expression? n hn]

/-- A tree with an expression is written, and reading its text is parsing the lexemes of that. -/
theorem Node.read_compile (d : Dialect) {n : Node} {e : Expression} (h : n.expression? 1 = some e) :
    ∃ s, n.compile d = .ok s ∧ d.read s.sql = parse [] .operand e.lexemes := by
  -- only a select has other pieces at the root
  have hpieces : n.statementPieces d = n.pieces d := by
    cases n with
    | select q => cases h
    | _ => rfl
  refine ⟨⟨layout d 1 (n.pieces d), bindings (n.pieces d)⟩, ?_, ?_⟩
  · rw [Node.compile_eq_ofPieces, hpieces, Statement.ofPieces,
      Node.firstOffence?_of_expression? n h]
  · have hlex := Node.lexes (d := d) n h [] endsLexeme_nil
    rw [List.append_nil] at hlex
    rw [Dialect.read, hlex]
    simp [lexFrom, Scan.lexemes?]

end

end SqlTree
