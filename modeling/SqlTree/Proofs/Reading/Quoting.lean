import SqlTree.Node.Builder
import SqlTree.Proofs.Reading.Token
import SqlTree.Proofs.Statement.Marks
import SqlTree.Proofs.Tree.Nodes

/-!
# Reading — quoting

Names are arbitrary text: they may hold quotes, placeholders or whole statements.  In the text of a
statement they are nevertheless read back as they are.  Two things make that true.  A quote inside a
name is written twice, and wherever a name or a placeholder ends, the text goes on with a character
that is neither a quote nor a digit.

`Readable` says the second of a list of pieces, and that its texts hold neither quotes nor
placeholders.  A piece list with both properties is read back piece by piece (`tokens?_layout`).

**Quoting** (`compile_tokens`).  The names that a database finds in a statement are the names of the
tree, and the placeholders are those of the bindings, numbered in order.
-/

namespace SqlTree

/-! ### Readable pieces -/

/-- Whether a text has neither quotes nor placeholders in it, whatever the dialect. -/
def isKeyword (s : String) : Bool := Dialect.all.all fun d => isPlain d s

/-- Whether a text begins with a character that ends a name and a placeholder. -/
def isBreak (s : String) : Bool := s.toList.head?.any fun c => [' ', '.', ',', ')'].contains c

def Piece.isBreak : Piece → Bool
  | text s => SqlTree.isBreak s
  | offence _ => true
  | _ => false

/-- Pieces that may stand behind a name or a placeholder. -/
def Breaks (ps : List Piece) : Prop := ∀ p ∈ ps.head?, p.isBreak

/-- Texts are plain, and what stands behind a name or a placeholder ends it. -/
def Readable (d : Dialect) : List Piece → Prop
  | [] => True
  | .text s :: ps => isPlain d s ∧ Readable d ps
  | .offence _ :: ps => Readable d ps
  | .quoted _ :: ps | .placeholder _ :: ps => Breaks ps ∧ Readable d ps

/-- Readable pieces that may stand behind a name or a placeholder. -/
structure ReadableTail (d : Dialect) (ps : List Piece) : Prop where
  breaks : Breaks ps
  readable : Readable d ps

/-- The tokens of pieces, placeholders being counted from `k`. -/
def pieceTokens (d : Dialect) : Nat → List Piece → List Token
  | _, [] => []
  | k, .quoted name :: ps => .name name :: pieceTokens d k ps
  | k, .placeholder _ :: ps => .placeholder (d.numeral k) :: pieceTokens d (k + 1) ps
  | k, .text s :: ps => s.toList.map .other ++ pieceTokens d k ps
  | k, .offence _ :: ps => pieceTokens d k ps

section
variable {d : Dialect} {ps qs : List Piece}

/-- A text that breaks off begins with neither a quote nor a digit. -/
theorem head_layout (k : Nat) (h : Breaks ps) (ho : firstOffence? ps = none) :
    ∀ c ∈ (layout d k ps).toList.head?, c ≠ d.quote ∧ ¬ c.isDigit := by
  cases ps with
  | nil => nofun
  | cons p ps =>
      have hp := h p rfl
      cases p with
      | quoted _ | placeholder _ => cases hp
      | offence o => cases ho
      | text s =>
          obtain ⟨c, hc, hb⟩ : ∃ c, s.toList.head? = some c ∧ [' ', '.', ',', ')'].contains c :=
            (Option.any_eq_true _ _).mp hp
          intro x hx
          rw [layout, String.toList_append, List.head?_append, hc] at hx
          obtain rfl := Option.some.inj hx
          have hall : [' ', '.', ',', ')'].all (fun c => c != d.quote && !c.isDigit) := by
            cases d <;> decide
          simpa using List.all_eq_true.mp hall c (List.contains_iff_mem.mp hb)

/-- **Readable pieces are read back one by one.** -/
theorem tokens?_layout {k : Nat} (h : Readable d ps) (ho : firstOffence? ps = none) :
    tokens? d (layout d k ps).toList = some (pieceTokens d k ps) := by
  induction ps generalizing k with
  | nil => exact tokens?_nil
  | cons p ps ih =>
      cases p with
      | quoted name =>
          have hend := head_layout (d := d) k h.1 ho
          rw [layout, String.toList_append, tokens?_quoted name fun c hc => (hend c hc).1,
            ih h.2 ho]
          rfl
      | placeholder v =>
          have hend := head_layout (d := d) (k + 1) h.1 ho
          rw [layout, String.toList_append, tokens?_placeholder k fun c hc => (hend c hc).2,
            ih h.2 ho]
          rfl
      | text s =>
          rw [layout, String.toList_append, tokens?_plain h.1, ih h.2 ho]
          rfl
      | offence o => cases ho

theorem names_pieceTokens (k : Nat) (ps : List Piece) :
    (pieceTokens d k ps).filterMap Token.name? = names ps := by
  induction ps generalizing k with
  | nil => rfl
  | cons p ps ih =>
      cases p with
      | quoted name => exact congrArg (name :: ·) (ih k)
      | placeholder v => exact ih (k + 1)
      | text s =>
          have hnone : (s.toList.map Token.other).filterMap Token.name? = [] := by
            simp [List.filterMap_map, Function.comp_def, Token.name?]
          rw [pieceTokens, List.filterMap_append, hnone, ih k]
          rfl
      | offence o => exact ih k

/-- The placeholders are numbered in the order in which they stand. -/
theorem placeholders_pieceTokens (k : Nat) (ps : List Piece) :
    (pieceTokens d k ps).filterMap Token.placeholder? =
      (List.range' k (bindings ps).length).map d.numeral := by
  induction ps generalizing k with
  | nil => rfl
  | cons p ps ih =>
      cases p with
      | quoted name => exact ih k
      | placeholder v => exact congrArg (d.numeral k :: ·) (ih (k + 1))
      | text s =>
          have hnone : (s.toList.map Token.other).filterMap Token.placeholder? = [] := by
            simp [List.filterMap_map, Function.comp_def, Token.placeholder?]
          rw [pieceTokens, List.filterMap_append, hnone, ih k]
          rfl
      | offence o => exact ih k

/-! ### Putting readable pieces together -/

theorem isPlain_of_isKeyword {s : String} (h : isKeyword s) : isPlain d s :=
  List.all_eq_true.mp h d (by cases d <;> decide)

theorem Readable.keyword {s : String} (hs : isKeyword s) (h : Readable d ps) :
    Readable d (.text s :: ps) :=
  ⟨isPlain_of_isKeyword hs, h⟩

theorem Breaks.nil : Breaks [] := by
  intro p hp
  cases hp

theorem ReadableTail.nil : ReadableTail d [] := ⟨.nil, trivial⟩

theorem ReadableTail.keyword {s : String} (hb : isBreak s) (hs : isKeyword s)
    (h : Readable d ps) : ReadableTail d (.text s :: ps) := by
  refine ⟨fun p hp => ?_, .keyword hs h⟩
  obtain rfl := Option.some.inj hp
  exact hb

theorem Breaks.append (hp : Breaks ps) (hq : Breaks qs) : Breaks (ps ++ qs) := by
  cases ps with
  | nil => exact hq
  | cons p ps => exact hp

theorem Readable.append (hp : Readable d ps) (hq : ReadableTail d qs) : Readable d (ps ++ qs) := by
  induction ps with
  | nil => exact hq.readable
  | cons p ps ih =>
      cases p with
      | quoted _ | placeholder _ => exact ⟨hp.1.append hq.breaks, ih hp.2⟩
      | text s => exact ⟨hp.1, ih hp.2⟩
      | offence o => exact ih hp

theorem ReadableTail.append (hp : ReadableTail d ps) (hq : ReadableTail d qs) :
    ReadableTail d (ps ++ qs) :=
  ⟨hp.breaks.append hq.breaks, hp.readable.append hq⟩

theorem ReadableTail.textIf {s : String} (written : Bool) (hb : isBreak s) (hs : isKeyword s) :
    ReadableTail d (Piece.textIf written s) := by
  cases written with
  | false => exact .nil
  | true => exact .keyword hb hs trivial

/-- A keyword and one behind it that may be left out. -/
theorem Readable.keywords {s t : String} (written : Bool) (hs : isKeyword s) (ht : isKeyword t)
    (h : Readable d ps) : Readable d (.text s :: Piece.textIf written t ++ ps) := by
  cases written with
  | false => exact .keyword hs h
  | true => exact .keyword hs (.keyword ht h)

theorem Readable.parenthesized (h : Readable d ps) : Readable d (Piece.parenthesized ps) :=
  .keyword rfl (h.append (.keyword rfl rfl trivial))

theorem Readable.parenthesizedIf (needed : Bool) (h : Readable d ps) :
    Readable d (Piece.parenthesizedIf needed ps) := by
  cases needed with
  | false => exact h
  | true => exact h.parenthesized

theorem Readable.commaSeparated : ∀ {gs : List (List Piece)}, (∀ g ∈ gs, Readable d g) →
    Readable d (Piece.commaSeparated gs)
  | [], _ => trivial
  | [g], h => by
      rw [Piece.commaSeparated_singleton]
      exact h g List.mem_cons_self
  | g :: g' :: gs, h => by
      rw [List.forall_mem_cons] at h
      rw [Piece.commaSeparated_cons_cons]
      exact h.1.append (.keyword rfl rfl (Readable.commaSeparated h.2))

theorem ReadableTail.clause {opening : String} {gs : List (List Piece)} (hb : isBreak opening)
    (hs : isKeyword opening) (h : ∀ g ∈ gs, Readable d g) :
    ReadableTail d (Piece.clause opening gs) := by
  cases gs with
  | nil => exact .nil
  | cons g gs => exact .keyword hb hs (Readable.commaSeparated h)

end

/-! ### Names, tables and columns -/

/-- Whether the words that a node puts into a statement as they are, its parts apart, have neither
quotes nor placeholders in them: raw names and the names of functions.  A raw fragment is not plain
whatever its texts are. -/
def Node.isPlain (d : Dialect) : Node → Bool
  | .identifier id => !id.raw || SqlTree.isPlain d id.name
  | .call function _ => SqlTree.isPlain d function
  | .rawFragment _ _ => false
  | _ => true

section
variable {d : Dialect} {ps : List Piece}

theorem Readable.ofIdentifier {id : Identifier} (hid : (Node.identifier id).isPlain d)
    (h : ReadableTail d ps) : Readable d (.ofIdentifier id :: ps) := by
  cases hraw : id.raw with
  | false =>
      rw [Piece.ofIdentifier, hraw]
      exact ⟨h.breaks, h.readable⟩
  | true =>
      rw [Piece.ofIdentifier, hraw]
      have hname : SqlTree.isPlain d id.name := by simpa [Node.isPlain, hraw] using hid
      exact ⟨hname, h.readable⟩

theorem Readable.qualified {id? : Option Identifier}
    (hid : ∀ m ∈ id?.toList.map Node.identifier, m.isPlain d) (h : Readable d ps) :
    Readable d (qualifierPieces id? ++ ps) := by
  cases id? with
  | none => exact h
  | some id => exact .ofIdentifier (hid _ List.mem_cons_self) (.keyword rfl rfl h)

theorem readableTail_aliasPieces {id? : Option Identifier}
    (hid : ∀ m ∈ id?.toList.map Node.identifier, m.isPlain d) :
    ReadableTail d (aliasPieces id?) := by
  cases id? with
  | none => exact .nil
  | some id => exact .keyword rfl rfl (.ofIdentifier (hid _ List.mem_cons_self) .nil)

theorem ColumnReference.readable {c : ColumnReference} (h : ∀ m ∈ c.parts, m.isPlain d) :
    Readable d c.pieces := by
  rw [ColumnReference.parts, List.map_append, List.forall_mem_append] at h
  exact .qualified h.1 (.ofIdentifier (h.2 _ List.mem_cons_self) .nil)

theorem TableReference.readable {t : TableReference} (h : ∀ m ∈ t.nodes, m.isPlain d) :
    Readable d t.pieces := by
  rw [TableReference.nodes, TableReference.parts, List.map_append, List.map_cons,
    List.forall_mem_append, List.forall_mem_append, List.forall_mem_cons] at h
  obtain ⟨⟨hs, hn, ha⟩, -⟩ := h
  exact .qualified hs (.ofIdentifier hn (readableTail_aliasPieces ha))

theorem isPlain_append (s t : String) :
    isPlain d (s ++ t) = (isPlain d s && isPlain d t) := by
  rw [isPlain, String.toList_append, List.all_append, isPlain, isPlain]

/-- A numeral is plain: neither the quote nor the sign of a placeholder is a digit. -/
theorem isPlain_toString (k : Nat) : isPlain d (toString k) := by
  refine List.all_eq_true.mpr fun c hc => ?_
  rw [Nat.toString_eq_repr, Nat.toList_repr] at hc
  have hdigit : c.isDigit := Nat.isDigit_of_mem_toDigits (by decide) (by decide) hc
  have hquote : c ≠ d.quote := by
    rintro rfl
    cases d <;> revert hdigit <;> decide
  have hsign : c ≠ d.sign := by
    rintro rfl
    cases d <;> revert hdigit <;> decide
  simp [hquote, hsign]

theorem isPlain_typeName (t : DataType) : isPlain d (d.typeName t) := by
  cases t with
  | varchar length =>
      cases length with
      | none => cases d <;> rfl
      | some k =>
          have hname : d.typeName (.varchar (some k)) = "varchar(" ++ toString k ++ ")" := by
            cases d <;> rfl
          rw [hname, isPlain_append, isPlain_append, isPlain_toString k]
          cases d <;> rfl
  | _ => cases d <;> rfl

theorem ColumnDefinition.readable {c : ColumnDefinition} (h : ∀ m ∈ c.nodes, m.isPlain d) :
    Readable d (c.pieces d) := by
  have htype :
      isPlain d (if c.autoincrement then d.autoincrementKey else d.typeName c.dataType) := by
    split
    · cases d <;> rfl
    · exact isPlain_typeName c.dataType
  have hname : Readable d [.ofIdentifier c.column, .text " ",
      .text (if c.autoincrement then d.autoincrementKey else d.typeName c.dataType)] :=
    .ofIdentifier (h _ List.mem_cons_self) (.keyword rfl rfl ⟨htype, trivial⟩)
  exact (hname.append (.textIf _ rfl rfl)).append (.textIf _ rfl rfl)

theorem CreateTable.readable {q : CreateTable} (h : ∀ m ∈ q.parts, m.isPlain d) :
    Readable d (q.pieces d) := by
  rw [CreateTable.parts, List.forall_mem_append] at h
  obtain ⟨ht, hc⟩ := h
  have hcolumns : ∀ g ∈ q.columns.map (ColumnDefinition.pieces d), Readable d g := by
    rw [List.forall_mem_map]
    exact fun c hmem => ColumnDefinition.readable fun m hm =>
      hc m (List.mem_flatMap_of_mem hmem hm)
  have htail : ReadableTail d
      (.text " (" :: Piece.commaSeparated (q.columns.map (ColumnDefinition.pieces d))) :=
    .keyword rfl rfl (Readable.commaSeparated hcolumns)
  have htable : Readable d
      (.text "create table " :: Piece.textIf q.ifNotExists "if not exists " ++ q.table.pieces) :=
    .keywords q.ifNotExists rfl rfl (TableReference.readable ht)
  exact (htable.append htail).append (.keyword rfl rfl trivial)

theorem DropTable.readable {q : DropTable} (h : ∀ m ∈ q.table.nodes, m.isPlain d) :
    Readable d q.pieces :=
  .keywords q.ifExists rfl rfl (TableReference.readable h)

theorem readableTail_columnListPieces {columns : List Identifier}
    (h : ∀ m ∈ columns.map Node.identifier, m.isPlain d) :
    ReadableTail d (columnListPieces columns) := by
  cases columns with
  | nil => exact .nil
  | cons c cs =>
      have hgroups : ∀ g ∈ (c :: cs).map fun c => [Piece.ofIdentifier c], Readable d g := by
        rw [List.forall_mem_map]
        exact fun c hc => .ofIdentifier (h _ (List.mem_map_of_mem hc)) .nil
      have hlist : ReadableTail d
          (.text " (" :: Piece.commaSeparated ((c :: cs).map fun c => [.ofIdentifier c])) :=
        .keyword rfl rfl (Readable.commaSeparated hgroups)
      exact hlist.append (.keyword rfl rfl trivial)

theorem Readable.selectionPieces {gs : List (List Piece)} (h : ∀ g ∈ gs, Readable d g) :
    Readable d (selectionPieces gs) := by
  cases gs with
  | nil => exact .keyword rfl trivial
  | cons g gs => exact Readable.commaSeparated h

theorem readableTail_rowPieces {rows : List (List Piece)} (h : ∀ g ∈ rows, Readable d g) :
    ReadableTail d (rowPieces d rows) := by
  cases rows with
  | nil =>
      have hvalues : isPlain d d.defaultValues := by cases d <;> rfl
      exact .keyword rfl rfl ⟨hvalues, trivial⟩
  | cons g gs => exact .keyword rfl rfl (Readable.commaSeparated h)

theorem ReadableTail.offenceUnless (permitted : Bool) (o : Offence) (h : ReadableTail d ps) :
    ReadableTail d ((if permitted then [] else [.offence o]) ++ ps) := by
  cases permitted with
  | true => exact h
  | false =>
      refine ⟨fun p hp => ?_, h.readable⟩
      obtain rfl := Option.some.inj hp
      rfl

theorem readableTail_returningPieces {gs : List (List Piece)} (h : ∀ g ∈ gs, Readable d g) :
    ReadableTail d (returningPieces d gs) := by
  unfold returningPieces
  split
  · exact .nil
  · exact .offenceUnless _ _ (.clause rfl rfl h)

theorem readableTail_offsetPieces (hasLimit : Bool) (h : ReadableTail d ps) :
    ReadableTail d (offsetPieces d hasLimit ps) := by
  unfold offsetPieces
  split
  · exact .nil
  · exact .offenceUnless _ _ h

end

/-! ### Trees -/

section
variable (d : Dialect)

mutual

/-- A node whose words are plain has readable pieces. -/
theorem Node.readable : ∀ n : Node, (∀ m ∈ n.nodes, m.isPlain d) → Readable d (n.pieces d)
  | .identifier id, h => .ofIdentifier (h _ List.mem_cons_self) .nil
  | .columnReference c, h => by
      rw [Node.nodes, List.forall_mem_append] at h
      exact ColumnReference.readable h.1
  | .tableReference t, h => TableReference.readable h
  | .aliased expr name, h => by
      rw [Node.nodes, List.forall_mem_append, List.forall_mem_cons] at h
      obtain ⟨hexpr, hname, -⟩ := h
      exact (Node.readable expr hexpr).append (.keyword rfl rfl (.ofIdentifier hname .nil))
  | .wildcard table, h => by
      rw [Node.nodes, List.forall_mem_append] at h
      exact .qualified h.1 (.keyword rfl trivial)
  | .join j, h => by
      rw [Node.nodes, List.forall_mem_append] at h
      exact Join.readable j h.1
  | .orderItem i, h => by
      rw [Node.nodes, List.forall_mem_append] at h
      exact OrderItem.readable i h.1
  | .binary l op r, h => by
      rw [Node.nodes, List.forall_mem_append, List.forall_mem_append] at h
      obtain ⟨⟨hl, hr⟩, -⟩ := h
      have hop : isKeyword op.sql := by cases op <;> rfl
      have hright := (Node.readable r hr).parenthesizedIf (r.rightParens op)
      rw [Node.pieces, List.append_assoc]
      exact ((Node.readable l hl).parenthesizedIf _).append
        (.keyword rfl rfl (.keyword hop (.keyword rfl hright)))
  | .unary op n, h => by
      rw [Node.nodes, List.forall_mem_append] at h
      have hn := Node.readable n h.1
      cases op with
      | not | negate => exact .keyword rfl (hn.parenthesizedIf _)
      | «exists» | notExists => exact .keyword rfl hn
      | isNull | isNotNull => exact (hn.parenthesizedIf _).append (.keyword rfl rfl trivial)
  | .call function args, h => by
      rw [Node.nodes, List.forall_mem_append] at h
      have hfunction : SqlTree.isPlain d function := h.2 (.call function args) List.mem_cons_self
      have hargs := Readable.commaSeparated (Node.readable_pieceGroups args h.1)
      exact ⟨hfunction, hargs.parenthesized⟩
  | .valueList items, h => by
      rw [Node.nodes, List.forall_mem_append] at h
      exact (Readable.commaSeparated (Node.readable_pieceGroups items h.1)).parenthesized
  | .columnUpdate u, h => by
      rw [Node.nodes, List.forall_mem_append] at h
      exact ColumnUpdate.readable u h.1
  | .columnDefinition _, _ => trivial
  | .select q, h => by
      rw [Node.nodes, List.forall_mem_append] at h
      exact (Select.readable q h.1).parenthesized
  | .insert q, h => by
      rw [Node.nodes, List.forall_mem_append] at h
      exact Insert.readable q h.1
  | .update q, h => by
      rw [Node.nodes, List.forall_mem_append] at h
      exact Update.readable q h.1
  | .delete q, h => by
      rw [Node.nodes, List.forall_mem_append] at h
      exact Delete.readable q h.1
  | .createTable q, h => by
      rw [Node.nodes, List.forall_mem_append] at h
      exact CreateTable.readable h.1
  | .dropTable q, h => by
      rw [Node.nodes, List.forall_mem_append] at h
      exact DropTable.readable h.1
  | .rawFragment ts bs, h => by
      rw [Node.nodes, List.forall_mem_append] at h
      exact nomatch h.2 (.rawFragment ts bs) List.mem_cons_self
  | .parameter _, _ => ⟨.nil, trivial⟩

theorem Node.readable_pieceGroups : ∀ ns : List Node, (∀ m ∈ Node.listNodes ns, m.isPlain d) →
    ∀ g ∈ Node.pieceGroups d ns, Readable d g
  | [], _ => nofun
  | n :: ns, h => by
      rw [Node.listNodes, List.forall_mem_append] at h
      rw [Node.pieceGroups, List.forall_mem_cons]
      exact ⟨Node.readable n h.1, Node.readable_pieceGroups ns h.2⟩

theorem Node.readableTail_clausePieces {opening : String} (hb : isBreak opening)
    (hs : isKeyword opening) : ∀ n? : Option Node, (∀ m ∈ Node.optionNodes n?, m.isPlain d) →
      ReadableTail d (Node.clausePieces d opening n?)
  | none, _ => .nil
  | some n, h => .keyword hb hs (Node.readable n h)

theorem Node.readable_rowGroups : ∀ rs : List (List Node),
    (∀ m ∈ Node.rowNodes rs, m.isPlain d) → ∀ g ∈ Node.rowGroups d rs, Readable d g
  | [], _ => nofun
  | r :: rs, h => by
      rw [Node.rowNodes, List.forall_mem_append] at h
      rw [Node.rowGroups, List.forall_mem_cons]
      exact ⟨(Readable.commaSeparated (Node.readable_pieceGroups r h.1)).parenthesized,
        Node.readable_rowGroups rs h.2⟩

theorem Join.readable : ∀ j : Join, (∀ m ∈ j.parts, m.isPlain d) → Readable d (j.pieces d)
  | ⟨joinType, target, condition⟩, h => by
      rw [Join.parts, List.forall_mem_append] at h
      have htype : isKeyword joinType.sql := by cases joinType <;> rfl
      rw [Join.pieces, List.append_assoc]
      exact .keyword htype (.keyword rfl ((Node.readable target h.1).append
        (Node.readableTail_clausePieces rfl rfl condition h.2)))

theorem Join.readableTail_listPieces : ∀ js : List Join,
    (∀ m ∈ Join.listNodes js, m.isPlain d) → ReadableTail d (Join.listPieces d js)
  | [], _ => .nil
  | j :: js, h => by
      rw [Join.listNodes, List.forall_mem_append, List.forall_mem_cons] at h
      have hj : ReadableTail d (.text " " :: j.pieces d) := .keyword rfl rfl (Join.readable j h.1)
      exact hj.append (Join.readableTail_listPieces js h.2.2)

theorem OrderItem.readable : ∀ i : OrderItem, (∀ m ∈ i.parts, m.isPlain d) →
    Readable d (i.pieces d)
  | ⟨expr, direction⟩, h => by
      have hdirection : isKeyword direction.sql := by cases direction <;> rfl
      exact (Node.readable expr h).append (.keyword rfl rfl (.keyword hdirection trivial))

theorem OrderItem.readable_pieceGroups : ∀ is : List OrderItem,
    (∀ m ∈ OrderItem.listNodes is, m.isPlain d) → ∀ g ∈ OrderItem.pieceGroups d is, Readable d g
  | [], _ => nofun
  | i :: is, h => by
      rw [OrderItem.listNodes, List.forall_mem_append, List.forall_mem_cons] at h
      rw [OrderItem.pieceGroups, List.forall_mem_cons]
      exact ⟨OrderItem.readable i h.1, OrderItem.readable_pieceGroups is h.2.2⟩

theorem ColumnUpdate.readable : ∀ u : ColumnUpdate, (∀ m ∈ u.parts, m.isPlain d) →
    Readable d (u.pieces d)
  | ⟨column, value⟩, h => by
      rw [ColumnUpdate.parts, List.forall_mem_cons] at h
      exact .ofIdentifier h.1 (.keyword rfl rfl (Node.readable value h.2))

theorem ColumnUpdate.readable_pieceGroups : ∀ us : List ColumnUpdate,
    (∀ m ∈ ColumnUpdate.listNodes us, m.isPlain d) →
      ∀ g ∈ ColumnUpdate.pieceGroups d us, Readable d g
  | [], _ => nofun
  | u :: us, h => by
      rw [ColumnUpdate.listNodes, List.forall_mem_append, List.forall_mem_cons] at h
      rw [ColumnUpdate.pieceGroups, List.forall_mem_cons]
      exact ⟨ColumnUpdate.readable u h.1, ColumnUpdate.readable_pieceGroups us h.2.2⟩

theorem Select.readable : ∀ q : Select, (∀ m ∈ q.parts, m.isPlain d) → Readable d (q.pieces d)
  | ⟨distinct, selections, sources, joins, condition, grouping, having, ordering, limit, offset⟩,
    h => by
      simp only [Select.parts, List.forall_mem_append] at h
      obtain ⟨⟨⟨⟨⟨⟨⟨⟨hs, hf⟩, hj⟩, hc⟩, hg⟩, hh⟩, ho⟩, hl⟩, hk⟩ := h
      have hselect := Readable.selectionPieces (Node.readable_pieceGroups selections hs)
      refine Readable.append (.append (.append (.append (.append (.append (.append (.append
        (.keywords distinct rfl rfl hselect) ?_) ?_) ?_) ?_) ?_) ?_) ?_) ?_
      · exact .clause rfl rfl (Node.readable_pieceGroups sources hf)
      · exact Join.readableTail_listPieces joins hj
      · exact Node.readableTail_clausePieces rfl rfl condition hc
      · exact .clause rfl rfl (Node.readable_pieceGroups grouping hg)
      · exact Node.readableTail_clausePieces rfl rfl having hh
      · exact .clause rfl rfl (OrderItem.readable_pieceGroups ordering ho)
      · exact Node.readableTail_clausePieces rfl rfl limit hl
      · exact readableTail_offsetPieces _ (Node.readableTail_clausePieces rfl rfl offset hk)

theorem Insert.readable : ∀ q : Insert, (∀ m ∈ q.parts, m.isPlain d) → Readable d (q.pieces d)
  | ⟨table, columns, rows, returning⟩, h => by
      simp only [Insert.parts, List.forall_mem_append] at h
      obtain ⟨⟨⟨ht, hc⟩, hr⟩, hret⟩ := h
      have htable : Readable d (.text "insert into " :: table.pieces) :=
        .keyword rfl (TableReference.readable ht)
      exact ((htable.append (readableTail_columnListPieces hc)).append
        (readableTail_rowPieces (Node.readable_rowGroups rows hr))).append
          (readableTail_returningPieces (Node.readable_pieceGroups returning hret))

theorem Update.readable : ∀ q : Update, (∀ m ∈ q.parts, m.isPlain d) → Readable d (q.pieces d)
  | ⟨table, updates, condition, returning⟩, h => by
      simp only [Update.parts, List.forall_mem_append] at h
      obtain ⟨⟨⟨ht, hu⟩, hc⟩, hret⟩ := h
      have htable : Readable d (.text "update " :: table.pieces) :=
        .keyword rfl (TableReference.readable ht)
      have hset : ReadableTail d
          (.text " set " :: Piece.commaSeparated (ColumnUpdate.pieceGroups d updates)) :=
        .keyword rfl rfl (Readable.commaSeparated (ColumnUpdate.readable_pieceGroups updates hu))
      have hwhere : ReadableTail d (Node.clausePieces d " where " condition) :=
        Node.readableTail_clausePieces rfl rfl condition hc
      exact ((htable.append hset).append hwhere).append
        (readableTail_returningPieces (Node.readable_pieceGroups returning hret))

theorem Delete.readable : ∀ q : Delete, (∀ m ∈ q.parts, m.isPlain d) → Readable d (q.pieces d)
  | ⟨table, condition, returning⟩, h => by
      simp only [Delete.parts, List.forall_mem_append] at h
      obtain ⟨⟨ht, hc⟩, hret⟩ := h
      have htable : Readable d (.text "delete from " :: table.pieces) :=
        .keyword rfl (TableReference.readable ht)
      exact (htable.append (Node.readableTail_clausePieces rfl rfl condition hc)).append
        (readableTail_returningPieces (Node.readable_pieceGroups returning hret))

end

theorem Node.readable_statementPieces {n : Node} (h : ∀ m ∈ n.nodes, m.isPlain d) :
    Readable d (n.statementPieces d) := by
  cases n with
  | select q =>
      rw [Node.nodes, List.forall_mem_append] at h
      exact Select.readable d q h.1
  | _ => exact Node.readable d _ h

end

/-! ### Statements -/

/-- **Quoting.**  Where raw names and the names of functions are plain, a statement splits into
tokens, whatever the other names are.  Its names are the names of the tree, in the order in which
they are written.  There is one placeholder for each binding, and where the dialect numbers them
they are numbered in order. -/
theorem compile_tokens {d : Dialect} {n : Node} {s : Statement} (hp : ∀ m ∈ n.nodes, m.isPlain d)
    (h : n.compile d = .ok s) :
    ∃ ts, tokens? d s.sql.toList = some ts ∧
      ts.flatMap (Token.chars d) = s.sql.toList ∧
      ts.filterMap Token.name? = n.names ∧
      ts.filterMap Token.placeholder? =
        (List.range' 1 s.bindings.length).map fun k =>
          if d = .postgres then toString k else "" := by
  rw [Node.compile_eq_ofPieces] at h
  obtain ⟨hnone, rfl⟩ := Statement.eq_of_ofPieces h
  have hts := tokens?_layout (k := 1) (Node.readable_statementPieces d hp) hnone
  have hnumeral : d.numeral = fun k => if d = .postgres then toString k else "" := by
    funext k
    cases d <;> rfl
  refine ⟨_, hts, flatMap_chars_of_tokens? hts, ?_, ?_⟩
  · rw [names_pieceTokens, Node.names_statementPieces]
  · rw [placeholders_pieceTokens, hnumeral]

/-- A select whose names end in quotes or look like placeholders and statements. -/
def hostileNames : Node :=
  .select {
    selections := [.column ⟨"\"$1", false⟩, .call "lower" [.column ⟨"?\"", false⟩]]
    sources := [.tableReference { name := ⟨"t\"; drop table \"t", false⟩ }]
    condition := some (.eq (.column ⟨"now", true⟩) (.parameter (.int 1)))
    limit := some (.parameter (.int 2)) }

theorem hostileNames_tokens :
    (∀ m ∈ hostileNames.nodes, m.isPlain .postgres) ∧
      hostileNames.compile .postgres =
        .ok ⟨"select \"\"\"$1\", lower(\"?\"\"\") from \"t\"\"; drop table \"\"t\" " ++
          "where now = $1 limit $2", [.int 1, .int 2]⟩ ∧
      ∃ ts, tokens? .postgres ("select \"\"\"$1\", lower(\"?\"\"\") from " ++
          "\"t\"\"; drop table \"\"t\" where now = $1 limit $2").toList = some ts ∧
        ts.filterMap Token.name? = ["\"$1", "?\"", "t\"; drop table \"t"] ∧
        ts.filterMap Token.placeholder? = ["1", "2"] := by
  have hp : ∀ m ∈ hostileNames.nodes, m.isPlain .postgres := by decide
  have h : hostileNames.compile .postgres =
      .ok ⟨"select \"\"\"$1\", lower(\"?\"\"\") from \"t\"\"; drop table \"\"t\" " ++
        "where now = $1 limit $2", [.int 1, .int 2]⟩ := rfl
  obtain ⟨ts, ht, -, hn, hk⟩ := compile_tokens hp h
  exact ⟨hp, h, ts, ht, hn, hk⟩

end SqlTree
