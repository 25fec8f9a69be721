import SqlTree.Proofs.Reading.Outside
import SqlTree.Proofs.Reading.Words

/-!
# Reading — comments

Two hyphens, or a slash and a star, begin a comment in SQL, and a part of the statement is lost.  In
a quoted name they are harmless.  Elsewhere a statement could only form such a pair where two pieces
meet.  `Quiet` says of pieces that they form none.  The words of a node are calm, and the pieces of
its parts do not meet (`Quiet.fill`); the signs of negation, subtraction and division are looked at
one by one.

**Comments** (`compile_no_comment`).  Where raw names and the names of functions are words, and raw
fragments have neither comments nor quotes in them, a statement has no comment.
-/

namespace SqlTree

/-! ### Quiet pieces -/

/-- Pieces whose text, where they can be written, has no comment in it and no quote beyond those of
its names. -/
def Quiet (d : Dialect) (ps : List Piece) : Prop :=
  firstOffence? ps = none →
    ∀ k, (outside d k ps).IsChain Seam ∧ some d.quote ∉ outside d k ps

section
variable {d : Dialect} {ps qs : List Piece}

theorem Quiet.nil : Quiet d [] := fun _ _ => ⟨.nil, List.not_mem_nil⟩

theorem Quiet.offence (o : Offence) : Quiet d (.offence o :: ps) := nofun

theorem Quiet.text {s : String} (hs : s.toList.IsChain fun x y => Seam (some x) (some y))
    (hq : d.quote ∉ s.toList) : Quiet d [.text s] := by
  intro _ k
  rw [outside, outside, List.append_nil]
  exact ⟨(List.isChain_map some).mpr hs, by simpa using hq⟩

theorem Quiet.quoted (name : String) : Quiet d [.quoted name] :=
  fun _ _ => ⟨.singleton none, by simp [outside]⟩

/-- What stands behind anything in a text begins with a character that does not belong to it. -/
theorem head_outside (k : Nat) (h : Breaks ps) (ho : firstOffence? ps = none) :
    ∀ x ∈ (outside d k ps).head?, x ≠ some '-' ∧ x ≠ some '*' ∧ x ≠ none := by
  cases ps with
  | nil => nofun
  | cons p ps =>
      have hp := h p rfl
      cases p with
      | quoted _ | placeholder _ => cases hp
      | offence o => cases ho
      | text s =>
          obtain ⟨c, hc, hb⟩ : ∃ c, s.toList.head? = some c ∧ [' ', '.', ',', ')'].contains c :=
            (Option.any_eq_true _ _).mp hp
          intro x hx
          rw [outside, List.head?_append, List.head?_map, hc] at hx
          obtain rfl := Option.some.inj hx
          have hall : [' ', '.', ',', ')'].all fun c => c != '-' && c != '*' := by decide
          simpa using List.all_eq_true.mp hall c (List.contains_iff_mem.mp hb)

theorem Quiet.append_of_seam (hp : Quiet d ps) (hq : Quiet d qs)
    (hs : firstOffence? ps = none → firstOffence? qs = none → ∀ k,
      ∀ x ∈ (outside d k ps).getLast?,
      ∀ y ∈ (outside d (k + (bindings ps).length) qs).head?, Seam x y) :
    Quiet d (ps ++ qs) := by
  intro ho k
  rw [firstOffence?_append, Option.or_eq_none_iff] at ho
  obtain ⟨hpc, hpq⟩ := hp ho.1 k
  obtain ⟨hqc, hqq⟩ := hq ho.2 (k + (bindings ps).length)
  rw [outside_append, List.isChain_append, List.mem_append, not_or]
  exact ⟨⟨hpc, hqc, hs ho.1 ho.2 k⟩, hpq, hqq⟩

theorem Quiet.append (hp : Quiet d ps) (hq : Quiet d qs) (hb : Breaks qs) : Quiet d (ps ++ qs) :=
  hp.append_of_seam hq fun _ ho _ _ _ y hy => .of_right (head_outside _ hb ho y hy)

theorem seam_of_isCalm {s : String} (hs : isCalm s) {c : Char} (hc : c ∈ s.toList)
    (y : Option Char) : Seam (some c) y := by
  have hcalm : c ≠ '-' ∧ c ≠ '/' := by simpa using List.all_eq_true.mp hs c hc
  exact .of_left ⟨fun e => hcalm.1 (Option.some.inj e), fun e => hcalm.2 (Option.some.inj e), nofun⟩

theorem Quiet.calm {s : String} (hs : isCalm s) (hq : d.quote ∉ s.toList) : Quiet d [.text s] := by
  have hpairs : s.toList.Pairwise fun x y => Seam (some x) (some y) :=
    List.pairwise_of_forall_mem_list fun c hc y _ => seam_of_isCalm hs hc (some y)
  exact .text hpairs.isChain hq

theorem quote_not_mem_of_isPlain {s : String} (hp : isPlain d s) : d.quote ∉ s.toList :=
  fun hmem => by simpa using List.all_eq_true.mp hp _ hmem

/-- A calm text may stand in front of anything. -/
theorem Quiet.cons_text {s : String} (hs : isCalm s) (hp : isPlain d s) (h : Quiet d ps) :
    Quiet d (.text s :: ps) := by
  refine (calm hs (quote_not_mem_of_isPlain hp)).append_of_seam h fun _ _ k x hx y _ => ?_
  rw [outside, outside, List.append_nil] at hx
  obtain ⟨c, hc, rfl⟩ := List.mem_map.mp (List.mem_of_getLast? hx)
  exact seam_of_isCalm hs hc y

theorem isCalm_placeholder (k : Nat) : isCalm (d.placeholder k) := by
  cases d with
  | postgres =>
      rw [Dialect.placeholder, isCalm_append, isCalm_of_isWord (isWord_toString k)]
      rfl
  | mysql | sqlite => exact (by decide : isCalm "?" = true)

theorem quote_not_mem_placeholder (k : Nat) : d.quote ∉ (d.placeholder k).toList := by
  cases d with
  | postgres =>
      have hnumeral := quote_not_mem_of_isPlain (d := .postgres) (isPlain_toString k)
      rw [Dialect.placeholder, String.toList_append, List.mem_append, not_or]
      exact ⟨by decide, hnumeral⟩
  | mysql | sqlite =>
      show Dialect.quote _ ∉ "?".toList
      decide

/-- A placeholder is written like a text. -/
theorem Quiet.placeholder (v : Value) : Quiet d [.placeholder v] :=
  fun _ k => Quiet.calm (isCalm_placeholder k) (quote_not_mem_placeholder k) rfl k

/-- A negation sign may stand in front of what does not begin with one. -/
theorem Quiet.negate (h : Quiet d ps)
    (hhead : firstOffence? ps = none → ∀ k, some '-' ∉ (outside d k ps).head?) :
    Quiet d (.text "-" :: ps) := by
  have hq : d.quote ∉ "-".toList := by cases d <;> decide
  have htext : Quiet d [.text "-"] := .text (.singleton _) hq
  refine htext.append_of_seam h fun _ ho k x hx y hy => ?_
  obtain rfl := Option.some.inj hx
  refine ⟨fun e => hhead ho _ (e.2 ▸ hy), nofun, nofun⟩

/-- What stands behind a gap stands behind the group that fills it. -/
theorem Breaks.fill {gs : List (List Piece)} (h : Breaks ps) : Breaks (fill gs ps) := by
  cases ps with
  | nil => rwa [fill_nil]
  | cons p ps =>
      have hp := h p rfl
      cases p with
      | quoted _ | placeholder _ => cases hp
      | text _ | offence _ => rwa [fill_cons rfl]

/-- **Quiet groups between the words of a template are quiet.** -/
theorem Quiet.fill {gs : List (List Piece)} (hr : Readable d ps) (hc : ∀ p ∈ ps, p.isCalm)
    (hg : ∀ g ∈ gs, Quiet d g) : Quiet d (fill gs ps) := by
  induction ps generalizing gs with
  | nil =>
      rw [fill_nil]
      exact .nil
  | cons p ps ih =>
      rw [List.forall_mem_cons] at hc
      cases p with
      | text s =>
          rw [fill_cons rfl]
          exact .cons_text hc.1 hr.1 (ih hr.2 hc.2 hg)
      | offence o =>
          rw [fill_cons rfl]
          exact .offence o
      | quoted name =>
          rw [fill_cons rfl]
          exact (Quiet.quoted name).append (ih hr.2 hc.2 hg) hr.1.fill
      | placeholder v =>
          cases gs with
          | nil =>
              have hps := ih hr.2 hc.2 hg
              rw [fill_no_groups] at hps ⊢
              exact (Quiet.placeholder v).append hps hr.1
          | cons g gs =>
              rw [List.forall_mem_cons] at hg
              rw [fill_gap]
              exact hg.1.append (ih hr.2 hc.2 hg.2) hr.1.fill

end

/-! ### Trees -/

section
variable {d : Dialect}

theorem Quiet.parenthesized {ps : List Piece} (h : Quiet d ps) :
    Quiet d (Piece.parenthesized ps) := by
  have hclose : Quiet d [.text ")"] :=
    .cons_text rfl (isPlain_of_isKeyword rfl) .nil
  have hbreak : Breaks [.text ")"] := fun p hp => Option.some.inj hp ▸ rfl
  exact .cons_text rfl (isPlain_of_isKeyword rfl) (h.append hclose hbreak)

theorem Quiet.parenthesizedIf {ps : List Piece} (needed : Bool) (h : Quiet d ps) :
    Quiet d (Piece.parenthesizedIf needed ps) := by
  cases needed with
  | false => exact h
  | true => exact h.parenthesized

/-- The sign of an operation stands between blanks. -/
theorem Quiet.binary (op : BinaryOperator) {ps qs : List Piece} (hp : Quiet d ps)
    (hq : Quiet d qs) : Quiet d (ps ++ [.text " ", .text op.sql, .text " "] ++ qs) := by
  have hblank {rs : List Piece} (h : Quiet d rs) : Quiet d (.text " " :: rs) :=
    .cons_text rfl (isPlain_of_isKeyword rfl) h
  have hbreak (rs : List Piece) : Breaks (.text " " :: rs) := fun p hp => Option.some.inj hp ▸ rfl
  have hop : Quiet d [.text op.sql] :=
    .text (by cases op <;> decide) (by cases op <;> cases d <;> decide)
  rw [List.append_assoc]
  exact hp.append (hblank (hop.append (hblank hq) (hbreak _))) (hbreak _)

theorem isChain_seam {cs : List Char} (hm : ¬ ['-', '-'] <:+: cs) (hs : ¬ ['/', '*'] <:+: cs) :
    cs.IsChain fun x y => Seam (some x) (some y) := by
  rw [List.isChain_iff_forall_rel_of_append_cons_cons]
  rintro a b front back rfl
  have hpair : [a, b] <:+: front ++ a :: b :: back := ⟨front, back, by simp⟩
  refine ⟨?_, ?_, nofun⟩
  · rintro ⟨ha, hb⟩
    exact hm (by simpa [Option.some.inj ha, Option.some.inj hb] using hpair)
  · rintro ⟨ha, hb⟩
    exact hs (by simpa [Option.some.inj ha, Option.some.inj hb] using hpair)

/-- A raw fragment that can be written without bindings is a single text. -/
theorem Quiet.rawFragment {texts : List String} {bindings : List Node}
    (h : (Node.rawFragment texts bindings).isTame d) :
    Quiet d ((Node.rawFragment texts bindings).pieces d) := by
  simp only [Node.isTame, Bool.and_eq_true, List.isEmpty_iff, List.all_eq_true] at h
  obtain ⟨rfl, htexts⟩ := h
  rcases texts with _ | ⟨t, _ | ⟨t', ts⟩⟩
  · exact .offence _
  · have ht := htexts t List.mem_cons_self
    simp only [Bool.not_eq_true', decide_eq_false_iff_not] at ht
    exact .text (isChain_seam ht.1.1 ht.1.2) (by simpa using ht.2)
  · have hlength : (t :: t' :: ts).length ≠ ([] : List (List Piece)).length + 1 := by simp
    rw [Node.pieces, Node.pieceGroups, rawPieces, if_neg hlength]
    exact .offence _

theorem hyphen_not_mem_of_isCalm {s : String} (hs : isCalm s) : '-' ∉ s.toList :=
  fun hmem => by simpa using List.all_eq_true.mp hs _ hmem

theorem hyphen_not_mem_outside {ps : List Piece} (h : Calm ps) (k : Nat) :
    some '-' ∉ outside d k ps := by
  induction ps generalizing k with
  | nil => exact List.not_mem_nil
  | cons p ps ih =>
      have hps := ih (List.forall_mem_cons.mp h).2
      cases p with
      | quoted _ => simpa [outside] using hps k
      | placeholder v =>
          have hp := hyphen_not_mem_of_isCalm (isCalm_placeholder (d := d) k)
          simpa [outside, hp] using hps (k + 1)
      | text s =>
          have hs := hyphen_not_mem_of_isCalm (calm_text.mp h).1
          simpa [outside, hs] using hps k
      | offence o => exact hps k

theorem calm_qualifierPieces {id? : Option Identifier}
    (h : ∀ m ∈ id?.toList.map Node.identifier, m.isTame d) : Calm (qualifierPieces id?) := by
  cases id? with
  | none => exact calm_nil
  | some id =>
      have hid := calm_ofIdentifier (h _ List.mem_cons_self)
      exact calm_append.mpr ⟨hid, calm_text.mpr ⟨rfl, calm_nil⟩⟩

/-- What needs no parentheses under a unary operator does not begin with a hyphen. -/
theorem Node.head_outside_of_isAtomic {n : Node} (ha : n.isAtomic)
    (h : ∀ m ∈ n.nodes, m.isTame d) (k : Nat) : some '-' ∉ (outside d k (n.pieces d)).head? := by
  have hcalm (hn : Calm (n.pieces d)) : some '-' ∉ (outside d k (n.pieces d)).head? :=
    fun hhead => hyphen_not_mem_outside hn k (List.mem_of_head? hhead)
  cases n with
  | identifier id => exact hcalm (calm_ofIdentifier (h _ List.mem_cons_self))
  | columnReference c =>
      rw [nodes, ColumnReference.parts, List.map_append, List.forall_mem_append,
        List.forall_mem_append] at h
      obtain ⟨⟨htable, hcolumn⟩, -⟩ := h
      exact hcalm (calm_append.mpr
        ⟨calm_qualifierPieces htable, calm_ofIdentifier (hcolumn _ List.mem_cons_self)⟩)
  | wildcard table =>
      rw [nodes, List.forall_mem_append] at h
      exact hcalm (calm_append.mpr ⟨calm_qualifierPieces h.1, calm_text.mpr ⟨rfl, calm_nil⟩⟩)
  | call function args =>
      have hfunction : isCalm function := isCalm_of_isWord (h _ (mem_nodes_self _))
      rw [pieces, Piece.parenthesized, List.cons_append, outside, outside]
      cases hname : function.toList with
      | nil => simp
      | cons c cs =>
          have hc := hyphen_not_mem_of_isCalm hfunction
          rw [hname, List.mem_cons, not_or] at hc
          simp [Ne.symm hc.1]
  | valueList _ | select _ =>
      rw [pieces, Piece.parenthesized, List.cons_append, outside]
      simp
  | parameter v => exact hcalm (by simp [pieces, Calm, Piece.isCalm])
  | _ => cases ha

/-- A sign stands in front of parentheses or of what does not begin with one. -/
theorem Quiet.negation {n : Node} (h : ∀ m ∈ n.nodes, m.isTame d) (hn : Quiet d (n.pieces d)) :
    Quiet d ((Node.unary .negate n).pieces d) := by
  refine (hn.parenthesizedIf (!n.isAtomic)).negate fun _ k => ?_
  cases ha : n.isAtomic with
  | true => exact n.head_outside_of_isAtomic ha h k
  | false => simp [Piece.parenthesizedIf, Piece.parenthesized, outside]

theorem CreateTable.quiet {q : CreateTable} (h : ∀ m ∈ q.parts, m.isTame d)
    (ht : Quiet d q.table.pieces) : Quiet d (q.pieces d) := by
  have hcolumn : ∀ c ∈ q.columns, (Node.identifier c.column).isTame d := fun c hc =>
    h _ (List.mem_append_right _ (List.mem_flatMap_of_mem hc List.mem_cons_self))
  have hreadable : Readable d ((Node.createTable q).template d) := by
    have hcolumns : ∀ g ∈ q.columns.map (ColumnDefinition.pieces d), Readable d g := by
      refine List.forall_mem_map.mpr fun c hc => ColumnDefinition.readable ?_
      rw [ColumnDefinition.nodes, List.forall_mem_cons, List.forall_mem_singleton]
      exact ⟨Node.isPlain_of_isTame (hcolumn c hc) nofun, rfl⟩
    have htable : Readable d
        (.text "create table " :: Piece.textIf q.ifNotExists "if not exists " ++ [gap]) :=
      .keywords q.ifNotExists rfl rfl ⟨.nil, trivial⟩
    have hlist : ReadableTail d
        (.text " (" :: Piece.commaSeparated (q.columns.map (ColumnDefinition.pieces d))) :=
      .keyword rfl rfl (Readable.commaSeparated hcolumns)
    have h := (htable.append hlist).append (.keyword rfl rfl trivial : ReadableTail d [.text ")"])
    simpa [Node.template] using h
  have hcalm : Calm ((Node.createTable q).template d) := by
    have hcolumns : ∀ g ∈ q.columns.map (ColumnDefinition.pieces d), Calm g :=
      List.forall_mem_map.mpr fun c hc => ColumnDefinition.calm (hcolumn c hc)
    have hlist := calm_commaSeparated hcolumns
    simp [Node.template, isCalm, hlist]
  rw [← (CreateTable.filled d q).fill_eq]
  exact .fill hreadable hcalm (List.forall_mem_singleton.mpr ht)

/-- What a node adds to a statement is quiet if the pieces of its children are. -/
theorem Node.quiet_statementPieces {n : Node} (h : ∀ m ∈ n.nodes, m.isTame d)
    (hc : ∀ m ∈ n.children, Quiet d (m.pieces d)) : Quiet d (n.statementPieces d) := by
  have hn := h n n.mem_nodes_self
  have hwords (hw : n.hasWordsOnly) (hr : n.kind ≠ .rawFragment) (ht : n.kind ≠ .createTable)
      (hp : n.templateParts = n.children) : Quiet d (n.statementPieces d) := by
    rw [← (n.filled d).fill_eq, hp]
    exact .fill (readable_template d (isPlain_of_isTame hn hr) ht) (calm_template hn hw)
      (List.forall_mem_map.mpr hc)
  cases n with
  | binary l op r =>
      rw [children, places, List.forall_mem_map, List.forall_mem_cons,
        List.forall_mem_singleton] at hc
      exact .binary op (hc.1.parenthesizedIf _) (hc.2.parenthesizedIf _)
  | unary op m =>
      cases op with
      | negate =>
          rw [nodes, List.forall_mem_append] at h
          exact .negation h.1 (hc m List.mem_cons_self)
      | _ => exact hwords rfl nofun nofun rfl
  | columnDefinition _ => exact .offence _
  | createTable q =>
      rw [nodes, List.forall_mem_append] at h
      exact CreateTable.quiet h.1 (hc (.tableReference q.table) List.mem_cons_self)
  | rawFragment texts bindings => exact .rawFragment hn
  | parameter v => exact .placeholder v
  | _ => exact hwords rfl nofun nofun rfl

/-- **The pieces of a tree are quiet.** -/
theorem Node.quiet {n : Node} (h : ∀ m ∈ n.nodes, m.isTame d) : Quiet d (n.pieces d) := by
  induction n using Node.places_induction with
  | step n ih =>
    have hchildren : ∀ m ∈ n.children, Quiet d (m.pieces d) :=
      List.forall_mem_map.mpr fun p hp =>
        ih p hp fun m hm => h m (nodes_subset_of_mem_places hp hm)
    have hn := quiet_statementPieces h hchildren
    cases n with
    | select q => exact hn.parenthesized
    | _ => exact hn

end

/-! ### Statements -/

/-- **Comments.**  Where raw names and the names of functions are words, and raw fragments are text
without comments and quotes, a statement has no comment in it outside of quoted names.  As many
names are found in its text as the tree has names to be quoted. -/
theorem compile_no_comment {d : Dialect} {n : Node} {s : Statement}
    (ht : ∀ m ∈ n.nodes, m.isTame d) (h : n.compile d = .ok s) :
    ∃ cs, outside? d.quote s.sql.toList = some cs ∧ cs.count none = n.names.length ∧
      ¬ [some '-', some '-'] <:+: cs ∧ ¬ [some '/', some '*'] <:+: cs := by
  rw [Node.compile_eq_ofPieces] at h
  obtain ⟨hnone, rfl⟩ := Statement.eq_of_ofPieces h
  have hchildren : ∀ m ∈ n.children, Quiet d (m.pieces d) :=
    List.forall_mem_map.mpr fun p hp =>
      Node.quiet fun m hm => ht m (Node.nodes_subset_of_mem_places hp hm)
  obtain ⟨hchain, hquote⟩ := Node.quiet_statementPieces ht hchildren hnone 1
  have hpair {x y : Option Char} (h : [x, y] <:+: outside d 1 (n.statementPieces d)) :
      Seam x y := by
    have hxy := List.IsChain.infix hchain h
    exact List.isChain_pair.mp hxy
  refine ⟨_, outside?_layout hchain hquote, ?_, fun hm => ?_, fun hs => ?_⟩
  · rw [count_none_outside, Node.names_statementPieces]
  · exact (hpair hm).1 ⟨rfl, rfl⟩
  · exact (hpair hs).2.1 ⟨rfl, rfl⟩

/-- Signs under signs, a division of everything, and names that would begin a comment. -/
def signedQuery : Node :=
  .select {
    selections := [.unary .negate (.unary .negate (.column ⟨"a--", false⟩)),
      .binary (.parameter (.int 1)) .sub (.unary .negate (.parameter (.int 2))),
      .binary (.call "f" []) .div (.wildcard none)]
    sources := [.table ⟨"t/*", false⟩]
    condition := some (.rawFragment ["x - 1"] []) }

theorem compile_signedQuery :
    (∀ m ∈ signedQuery.nodes, m.isTame .postgres) ∧
      signedQuery.compile .postgres = .ok ⟨"select -(-\"a--\"), $1 - -$2, f() / * " ++
        "from \"t/*\" where x - 1", [.int 1, .int 2]⟩ ∧
      ∃ cs, outside? '\x22' ("select -(-\"a--\"), $1 - -$2, f() / * " ++
          "from \"t/*\" where x - 1").toList = some cs ∧ cs.count none = 2 ∧
        ¬ [some '-', some '-'] <:+: cs ∧ ¬ [some '/', some '*'] <:+: cs := by
  have ht : ∀ m ∈ signedQuery.nodes, m.isTame .postgres := by decide
  have h : signedQuery.compile .postgres = .ok ⟨"select -(-\"a--\"), $1 - -$2, f() / * " ++
      "from \"t/*\" where x - 1", [.int 1, .int 2]⟩ := rfl
  exact ⟨ht, h, compile_no_comment ht h⟩

end SqlTree
