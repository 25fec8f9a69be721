import Mathlib.Data.List.Infix
import SqlTree.Proofs.Reading.Quoting
import SqlTree.Proofs.Statement.Templates

/-!
# Reading — the words of nodes

What a node writes of itself is its template.  Where the names it writes as they are are words, its
template is readable (`Node.readable_template`): neither quotes nor placeholders are among its
words, and a break follows on every gap.  Apart from the signs of operations its words are calm
(`Node.calm_template`): no comment begins in them.
-/

namespace SqlTree

/-! ### Words -/

/-- Characters of words: letters, digits, underscores and dots, and all that are not ASCII. -/
def isWordChar (c : Char) : Bool := c.isAlphanum || c == '_' || c == '.' || 127 < c.toNat

def isWord (s : String) : Bool := s.toList.all isWordChar

/-- Whether raw names and the names of functions are words, and raw fragments are text without
comments and quotes. -/
def Node.isTame (d : Dialect) : Node → Bool
  | .identifier id => !id.raw || isWord id.name
  | .call function _ => isWord function
  | .rawFragment texts bindings =>
    bindings.isEmpty && texts.all fun t =>
      !decide (['-', '-'] <:+: t.toList) && !decide (['/', '*'] <:+: t.toList) &&
        !t.toList.contains d.quote
  | _ => true

section
variable {d : Dialect} {s : String}

theorem ne_of_isWordChar {c x : Char} (hc : isWordChar c) (hx : isWordChar x = false) : c ≠ x := by
  rintro rfl
  rw [hx] at hc
  cases hc

theorem isWord_toString (k : Nat) : isWord (toString k) := by
  refine List.all_eq_true.mpr fun c hc => ?_
  rw [Nat.toString_eq_repr, Nat.toList_repr] at hc
  have hdigit : c.isDigit := Nat.isDigit_of_mem_toDigits (by decide) (by decide) hc
  have halphanum : c.isAlphanum := (Bool.or_eq_true ..).mpr (.inr hdigit)
  simp [isWordChar, halphanum]

theorem isPlain_of_isWord (h : isWord s) : isPlain d s := by
  refine List.all_eq_true.mpr fun c hc => ?_
  have hword := List.all_eq_true.mp h c hc
  have hquote : c ≠ d.quote := ne_of_isWordChar hword (by cases d <;> decide)
  have hsign : c ≠ d.sign := ne_of_isWordChar hword (by cases d <;> decide)
  simp [hquote, hsign]

theorem Node.isPlain_of_isTame {n : Node} (h : n.isTame d) (hr : n.kind ≠ .rawFragment) :
    n.isPlain d := by
  cases n with
  | identifier id =>
      have hid : id.raw = false ∨ isWord id.name := by simpa [isTame] using h
      rcases hid with hid | hid
      · simp [isPlain, hid]
      · simp [isPlain, isPlain_of_isWord hid]
  | call function args => exact isPlain_of_isWord h
  | rawFragment _ _ => exact absurd rfl hr
  | _ => rfl

end

/-! ### Templates are readable -/

section
variable {d : Dialect} {α : Type} (xs : List α)

theorem readable_gaps : ∀ g ∈ gaps xs, Readable d g :=
  List.forall_mem_map.mpr fun _ _ => ⟨.nil, trivial⟩

theorem readableTail_columnListGaps : ReadableTail d (columnListGaps xs) := by
  have hlist : ReadableTail d (.text " (" :: Piece.commaSeparated (gaps xs)) :=
    .keyword rfl rfl (Readable.commaSeparated (readable_gaps xs))
  unfold columnListGaps
  split
  · exact .nil
  · exact hlist.append (.keyword rfl rfl trivial)

theorem readableTail_each {s : String} (hb : isBreak s) (hs : isKeyword s) :
    ReadableTail d (each xs [.text s, gap]) := by
  have hone : ReadableTail d [.text s, gap] := .keyword hb hs ⟨.nil, trivial⟩
  induction xs with
  | nil => exact .nil
  | cons x xs ih => exact hone.append ih

theorem Readable.qualifierGaps {ps : List Piece} (h : Readable d ps) :
    Readable d (each xs [gap, .text "."] ++ ps) := by
  induction xs with
  | nil => exact h
  | cons x xs ih => exact ⟨fun p hp => Option.some.inj hp ▸ rfl, .keyword rfl ih⟩

end

section
variable (d : Dialect)

/-- The words of a node are plain between the gaps, and every gap is followed by a break. -/
theorem Node.readable_template {n : Node} (h : n.isPlain d) (hw : n.kind ≠ .createTable) :
    Readable d (n.template d) := by
  have hgap : Readable d [gap] := ⟨.nil, trivial⟩
  cases n with
  | identifier id => exact .ofIdentifier h .nil
  | columnReference c => exact .qualifierGaps _ hgap
  | tableReference t =>
      have halias := readableTail_each (d := d) t.aliasName.toList (s := " as ") rfl rfl
      exact .qualifierGaps _ (hgap.append halias)
  | aliased _ _ => exact hgap.append (.keyword rfl rfl hgap)
  | wildcard table => exact .qualifierGaps _ (.keyword rfl trivial)
  | join j =>
      have htype : isKeyword j.joinType.sql := by cases j.joinType <;> rfl
      have htarget : Readable d [.text j.joinType.sql, .text " ", gap] :=
        .keyword htype (.keyword rfl hgap)
      exact htarget.append (readableTail_each _ rfl rfl)
  | orderItem i =>
      have hdirection : isKeyword i.direction.sql := by cases i.direction <;> rfl
      exact hgap.append (.keyword rfl rfl (.keyword hdirection trivial))
  | binary l op r =>
      have hop : isKeyword op.sql := by cases op <;> rfl
      have hright := hgap.parenthesizedIf (r.rightParens op)
      rw [template, List.append_assoc]
      exact (hgap.parenthesizedIf _).append (.keyword rfl rfl (.keyword hop (.keyword rfl hright)))
  | unary op n =>
      cases op with
      | not | negate => exact .keyword rfl (hgap.parenthesizedIf _)
      | «exists» | notExists => exact .keyword rfl hgap
      | isNull | isNotNull => exact (hgap.parenthesizedIf _).append (.keyword rfl rfl trivial)
  | call function args => exact ⟨h, (Readable.commaSeparated (readable_gaps args)).parenthesized⟩
  | valueList items => exact (Readable.commaSeparated (readable_gaps items)).parenthesized
  | columnUpdate u => exact hgap.append (.keyword rfl rfl hgap)
  | columnDefinition _ => trivial
  | select q =>
      refine Readable.append (.append (.append (.append (.append (.append (.append (.append
        (.keywords q.distinct rfl rfl (.selectionPieces (readable_gaps _))) ?_) ?_) ?_) ?_) ?_) ?_)
        ?_) ?_
      · exact .clause rfl rfl (readable_gaps _)
      · exact readableTail_each _ rfl rfl
      · exact readableTail_each _ rfl rfl
      · exact .clause rfl rfl (readable_gaps _)
      · exact readableTail_each _ rfl rfl
      · exact .clause rfl rfl (readable_gaps _)
      · exact readableTail_each _ rfl rfl
      · exact readableTail_offsetPieces _ (readableTail_each _ rfl rfl)
  | insert q =>
      have htable : Readable d [.text "insert into ", gap] := .keyword rfl hgap
      have hrows : ∀ g ∈ q.rows.map fun r => Piece.parenthesized (Piece.commaSeparated (gaps r)),
          Readable d g :=
        List.forall_mem_map.mpr fun r _ =>
          (Readable.commaSeparated (readable_gaps r)).parenthesized
      have hcolumns := htable.append (readableTail_columnListGaps q.columns)
      exact (hcolumns.append (readableTail_rowPieces hrows)).append
        (readableTail_returningPieces (readable_gaps _))
  | update q =>
      have hset : ReadableTail d (.text " set " :: Piece.commaSeparated (gaps q.updates)) :=
        .keyword rfl rfl (Readable.commaSeparated (readable_gaps _))
      have htable : Readable d [.text "update ", gap] := .keyword rfl hgap
      exact ((htable.append hset).append (readableTail_each _ rfl rfl)).append
        (readableTail_returningPieces (readable_gaps _))
  | delete q =>
      have htable : Readable d [.text "delete from ", gap] := .keyword rfl hgap
      exact (htable.append (readableTail_each _ rfl rfl)).append
        (readableTail_returningPieces (readable_gaps _))
  | createTable q => exact absurd rfl hw
  | dropTable q => exact .keywords q.ifExists rfl rfl hgap
  | rawFragment texts bindings => cases h
  | parameter v => exact ⟨.nil, trivial⟩

end

/-! ### Templates are calm -/

/-- Whether no comment begins in a text, whatever stands behind it. -/
def isCalm (s : String) : Bool := s.toList.all fun c => c != '-' && c != '/'

def Piece.isCalm : Piece → Bool
  | text s => SqlTree.isCalm s
  | _ => true

theorem isCalm_append (s t : String) : isCalm (s ++ t) = (isCalm s && isCalm t) := by
  rw [isCalm, String.toList_append, List.all_append, isCalm, isCalm]

theorem isCalm_of_isWord {s : String} (h : isWord s) : isCalm s := by
  refine List.all_eq_true.mpr fun c hc => ?_
  have hword := List.all_eq_true.mp h c hc
  have hminus : c ≠ '-' := ne_of_isWordChar hword (by decide)
  have hslash : c ≠ '/' := ne_of_isWordChar hword (by decide)
  simp [hminus, hslash]

/-- Pieces in whose texts no comment begins. -/
def Calm (ps : List Piece) : Prop := ∀ p ∈ ps, p.isCalm

section
variable {ps qs : List Piece} {α : Type} (xs : List α)

@[simp] theorem calm_nil : Calm [] := List.forall_mem_nil _

@[simp] theorem calm_append : Calm (ps ++ qs) ↔ Calm ps ∧ Calm qs := List.forall_mem_append

@[simp] theorem calm_text {s : String} : Calm (.text s :: ps) ↔ isCalm s ∧ Calm ps :=
  List.forall_mem_cons

@[simp] theorem calm_gap : Calm (gap :: ps) ↔ Calm ps := by
  simp [Calm, gap, Piece.isCalm]

@[simp] theorem calm_offence {o : Offence} : Calm (.offence o :: ps) ↔ Calm ps := by
  simp [Calm, Piece.isCalm]

@[simp] theorem calm_textIf (written : Bool) {s : String} (hs : isCalm s) :
    Calm (Piece.textIf written s) := by
  cases written <;> simp [Piece.textIf, hs]

@[simp] theorem calm_parenthesized : Calm (Piece.parenthesized ps) ↔ Calm ps := by
  have h : isCalm "(" ∧ isCalm ")" := by decide
  simp [Piece.parenthesized, h]

@[simp] theorem calm_parenthesizedIf (needed : Bool) :
    Calm (Piece.parenthesizedIf needed ps) ↔ Calm ps := by
  cases needed <;> simp [Piece.parenthesizedIf]

theorem calm_commaSeparated : ∀ {gs : List (List Piece)}, (∀ g ∈ gs, Calm g) →
    Calm (Piece.commaSeparated gs)
  | [], _ => calm_nil
  | [g], h => by
      rw [Piece.commaSeparated_singleton]
      exact h g List.mem_cons_self
  | g :: g' :: gs, h => by
      rw [List.forall_mem_cons] at h
      rw [Piece.commaSeparated_cons_cons, calm_append, calm_text]
      exact ⟨h.1, rfl, calm_commaSeparated h.2⟩

@[simp] theorem calm_commaGaps : Calm (Piece.commaSeparated (gaps xs)) :=
  calm_commaSeparated (List.forall_mem_map.mpr fun _ _ => calm_gap.mpr calm_nil)

@[simp] theorem calm_each (h : Calm ps) : Calm (each xs ps) := by
  intro p hp
  obtain ⟨_, -, hp⟩ := List.mem_flatMap.mp hp
  exact h p hp

@[simp] theorem calm_clause {opening : String} (h : isCalm opening) :
    Calm (Piece.clause opening (gaps xs)) := by
  unfold Piece.clause
  split <;> simp [h]

@[simp] theorem calm_columnListGaps : Calm (columnListGaps xs) := by
  unfold columnListGaps
  split <;> simp [isCalm]

@[simp] theorem calm_selectionPieces : Calm (selectionPieces (gaps xs)) := by
  unfold selectionPieces
  split <;> simp [isCalm]

@[simp] theorem calm_rowPieces (d : Dialect) (rs : List (List α)) :
    Calm (rowPieces d
      (rs.map fun r => Piece.parenthesized (Piece.commaSeparated (gaps r)))) := by
  have hvalues : isCalm d.defaultValues := by cases d <;> rfl
  have hrows := calm_commaSeparated (List.forall_mem_map.mpr fun r (_ : r ∈ rs) =>
    calm_parenthesized.mpr (calm_commaGaps r))
  unfold rowPieces
  split
  · exact calm_text.mpr ⟨rfl, calm_text.mpr ⟨hvalues, calm_nil⟩⟩
  · exact calm_text.mpr ⟨rfl, hrows⟩

@[simp] theorem calm_returningPieces (d : Dialect) : Calm (returningPieces d (gaps xs)) := by
  unfold returningPieces
  cases d.supportsReturning <;> split <;> simp [isCalm]

@[simp] theorem calm_offsetPieces (d : Dialect) (hasLimit : Bool) (h : Calm ps) :
    Calm (offsetPieces d hasLimit ps) := by
  unfold offsetPieces
  cases hasLimit || d.supportsOffsetWithoutLimit <;> split <;> simp [h]

end

section
variable {d : Dialect}

theorem calm_ofIdentifier {id : Identifier} (h : (Node.identifier id).isTame d) :
    Calm [.ofIdentifier id] := by
  cases hraw : id.raw with
  | false => simp [Piece.ofIdentifier, hraw, Calm, Piece.isCalm]
  | true =>
      have hname : isWord id.name := by simpa [Node.isTame, hraw] using h
      simp [Piece.ofIdentifier, hraw, isCalm_of_isWord hname]

/-- Whether a node has neither a sign nor text of its own among its words, nor columns with their
types. -/
def Node.hasWordsOnly : Node → Bool
  | .binary _ _ _ | .unary .negate _ | .rawFragment _ _ | .createTable _ => false
  | _ => true

theorem Node.calm_template {n : Node} (h : n.isTame d) (hw : n.hasWordsOnly) :
    Calm (n.template d) := by
  cases n with
  | identifier id => exact calm_ofIdentifier h
  | join j => cases ht : j.joinType <;> simp [template, ht, JoinType.sql, isCalm]
  | orderItem i => cases hd : i.direction <;> simp [template, hd, OrderDirection.sql, isCalm]
  | binary _ _ _ | rawFragment _ _ | createTable _ => cases hw
  | unary op m =>
      cases op with
      | negate => cases hw
      | _ => simp [template, unaryPieces, isCalm]
  | call function args =>
      have hfunction : isCalm function := isCalm_of_isWord h
      simp [template, hfunction]
  | parameter v => simp [template, Calm, Piece.isCalm]
  | _ => simp [template, isCalm]

theorem isCalm_typeName (t : DataType) : isCalm (d.typeName t) := by
  cases t with
  | varchar length =>
      cases length with
      | none => cases d <;> rfl
      | some k =>
          have hname : d.typeName (.varchar (some k)) = "varchar(" ++ toString k ++ ")" := by
            cases d <;> rfl
          rw [hname, isCalm_append, isCalm_append, isCalm_of_isWord (isWord_toString k)]
          rfl
  | _ => cases d <;> rfl

theorem ColumnDefinition.calm {c : ColumnDefinition} (h : (Node.identifier c.column).isTame d) :
    Calm (c.pieces d) := by
  have htype : isCalm (if c.autoincrement then d.autoincrementKey else d.typeName c.dataType) := by
    split
    · cases d <;> rfl
    · exact isCalm_typeName c.dataType
  have hrest : Calm [.text " ",
      .text (if c.autoincrement then d.autoincrementKey else d.typeName c.dataType)] :=
    calm_text.mpr ⟨rfl, calm_text.mpr ⟨htype, calm_nil⟩⟩
  have hname := calm_append.mpr ⟨calm_ofIdentifier h, hrest⟩
  exact calm_append.mpr ⟨calm_append.mpr ⟨hname, calm_textIf _ rfl⟩, calm_textIf _ rfl⟩

end

end SqlTree
