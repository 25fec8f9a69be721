import SqlTree.Plugin.CamelCase
import SqlTree.Proofs.Statement.Relabelled
import SqlTree.Proofs.Statement.Substitution

/-!
# Plugins — renaming

A plugin that renames acts on a tree by one rule, the rule that maps the name of every identifier
that is not raw.  The rewriter and the pass that writes a statement are two traversals of a tree,
and a place that only one of them knew would let a definition and its use disagree.

**Renaming** (`renaming_compile`).  The rule reaches every identifier and nothing else: the tree it
gives is the relabelled one, and its statement is that of the tree with every quoted name replaced,
or fails with the same error.
-/

namespace SqlTree

/-- The rules that map the names of a tree. -/
def renamingRules (f : String → String) : RuleSet :=
  RuleSet.empty.register .identifier (Rule.mapName f)

theorem renamingRules_relabels (f : String → String) :
    (renamingRules f).Relabels (Identifier.mapName f) id :=
  RuleSet.relabels_identifier fun _ => rfl

/-- The tree with the name of every identifier mapped that is not raw. -/
def Node.mapNames (f : String → String) (n : Node) : Node := n.relabel (Identifier.mapName f) id

/-! ### Renaming pieces -/

/-- The piece with its name mapped, if it is a quoted name. -/
def Piece.rename (f : String → String) : Piece → Piece
  | quoted name => quoted (f name)
  | p => p

def renamePieces (f : String → String) (ps : List Piece) : List Piece := ps.map (Piece.rename f)

/-- The substitution that maps quoted names and keeps everything else. -/
def Substitution.renamed (f : String → String) : Substitution where
  replace p := [p.rename f]
  replace_text _ := rfl

theorem renamePieces_eq_on (f : String → String) (ps : List Piece) :
    renamePieces f ps = (Substitution.renamed f).on ps :=
  List.map_eq_flatMap

section
open Substitution
variable (f : String → String)

theorem keepsOffences_renamed : (renamed f).KeepsOffences := fun _ => rfl

@[simp] theorem renamed_ofIdentifier (id : Identifier) (ps : List Piece) :
    (renamed f).on (.ofIdentifier id :: ps) =
      .ofIdentifier (id.mapName f) :: (renamed f).on ps := by
  cases h : id.raw <;>
    simp [Piece.ofIdentifier, Identifier.mapName, Substitution.on, renamed, Piece.rename, h]

@[simp] theorem renamed_qualifierPieces (id? : Option Identifier) :
    (renamed f).on (qualifierPieces id?) =
      qualifierPieces (id?.map (Identifier.mapName f)) := by
  cases id? <;> simp [qualifierPieces]

@[simp] theorem renamed_aliasPieces (id? : Option Identifier) :
    (renamed f).on (aliasPieces id?) = aliasPieces (id?.map (Identifier.mapName f)) := by
  cases id? <;> simp [aliasPieces]

@[simp] theorem renamed_columnListPieces (columns : List Identifier) :
    (renamed f).on (columnListPieces columns) =
      columnListPieces (columns.map (Identifier.mapName f)) := by
  cases columns <;> simp [columnListPieces, Function.comp_def]

/-! ### The pieces of a renamed tree -/

theorem TableReference.pieces_relabel (r : TableReference) :
    (r.relabel (Identifier.mapName f) id).pieces = (renamed f).on r.pieces := by
  simp [TableReference.relabel, TableReference.pieces]

theorem ColumnReference.pieces_relabel (c : ColumnReference) :
    (c.relabel (Identifier.mapName f)).pieces = (renamed f).on c.pieces := by
  simp [ColumnReference.relabel, ColumnReference.pieces]

theorem ColumnDefinition.pieces_relabel (d : Dialect) (c : ColumnDefinition) :
    (c.relabel (Identifier.mapName f)).pieces d = (renamed f).on (c.pieces d) := by
  rw [ColumnDefinition.pieces, ColumnDefinition.pieces, on_append, on_append, on_textIf, on_textIf,
    renamed_ofIdentifier, on_text, on_text, on_nil]
  rfl

theorem CreateTable.pieces_relabel (d : Dialect) (q : CreateTable) :
    (q.relabel (Identifier.mapName f) id).pieces d = (renamed f).on (q.pieces d) := by
  simp [CreateTable.relabel, CreateTable.pieces, TableReference.pieces_relabel, Function.comp_def,
    ColumnDefinition.pieces_relabel]

theorem DropTable.pieces_relabel (q : DropTable) :
    (q.relabel (Identifier.mapName f) id).pieces = (renamed f).on q.pieces := by
  simp [DropTable.relabel, DropTable.pieces, TableReference.pieces_relabel]

variable (d : Dialect)

mutual

/-- The pieces of a renamed node are its pieces renamed. -/
theorem Node.pieces_mapNames : ∀ n : Node,
    (n.relabel (Identifier.mapName f) id).pieces d = (renamed f).on (n.pieces d)
  | .identifier id => by simp [Node.relabel, Node.pieces]
  | .columnReference c => ColumnReference.pieces_relabel f c
  | .tableReference r => TableReference.pieces_relabel f r
  | .aliased expr name => by
      simp [Node.relabel, Node.pieces, Node.pieces_mapNames expr]
  | .wildcard table => by simp [Node.relabel, Node.pieces]
  | .join j => Join.pieces_mapNames j
  | .orderItem i => OrderItem.pieces_mapNames i
  | .binary l op r => by
      simp [Node.relabel, Node.pieces, Node.pieces_mapNames l, Node.pieces_mapNames r,
        (Node.groupsLike_relabel _ _ l).leftParens, (Node.groupsLike_relabel _ _ r).rightParens]
  | .unary op n => by
      simp [Node.relabel, Node.pieces, Node.pieces_mapNames n,
        (Node.groupsLike_relabel _ _ n).isAtomic]
  | .call function args => by
      simp [Node.relabel, Node.pieces, Node.pieceGroups_mapNames args]
  | .valueList items => by
      simp [Node.relabel, Node.pieces, Node.pieceGroups_mapNames items]
  | .columnUpdate u => ColumnUpdate.pieces_mapNames u
  | .columnDefinition _ => rfl
  | .select q => by simp [Node.relabel, Node.pieces, Select.pieces_mapNames q]
  | .insert q => Insert.pieces_mapNames q
  | .update q => Update.pieces_mapNames q
  | .delete q => Delete.pieces_mapNames q
  | .createTable q => CreateTable.pieces_relabel f d q
  | .dropTable q => DropTable.pieces_relabel f q
  | .rawFragment texts bindings => by
      simp [Node.relabel, Node.pieces, Node.pieceGroups_mapNames bindings,
        (keepsOffences_renamed f).on_rawPieces]
  | .parameter _ => rfl

theorem Node.pieceGroups_mapNames : ∀ ns : List Node,
    Node.pieceGroups d (Node.relabelList (Identifier.mapName f) id ns) =
      (Node.pieceGroups d ns).map (renamed f).on
  | [] => rfl
  | n :: ns => by
      simp [Node.relabelList, Node.pieceGroups, Node.pieces_mapNames n,
        Node.pieceGroups_mapNames ns]

theorem Node.clausePieces_mapNames (opening : String) : ∀ n? : Option Node,
    Node.clausePieces d opening (Node.relabelOption (Identifier.mapName f) id n?) =
      (renamed f).on (Node.clausePieces d opening n?)
  | none => rfl
  | some n => by simp [Node.relabelOption, Node.clausePieces, Node.pieces_mapNames n]

theorem Node.rowGroups_mapNames : ∀ rs : List (List Node),
    Node.rowGroups d (Node.relabelRows (Identifier.mapName f) id rs) =
      (Node.rowGroups d rs).map (renamed f).on
  | [] => rfl
  | r :: rs => by
      simp [Node.relabelRows, Node.rowGroups, Node.pieceGroups_mapNames r,
        Node.rowGroups_mapNames rs]

theorem Join.pieces_mapNames : ∀ j : Join,
    (j.relabel (Identifier.mapName f) id).pieces d = (renamed f).on (j.pieces d)
  | ⟨_, target, condition⟩ => by
      simp [Join.relabel, Join.pieces, Node.pieces_mapNames target,
        Node.clausePieces_mapNames " on " condition]

theorem Join.listPieces_mapNames : ∀ js : List Join,
    Join.listPieces d (Join.relabelList (Identifier.mapName f) id js) =
      (renamed f).on (Join.listPieces d js)
  | [] => rfl
  | j :: js => by
      simp [Join.relabelList, Join.listPieces, Join.pieces_mapNames j, Join.listPieces_mapNames js]

theorem OrderItem.pieces_mapNames : ∀ i : OrderItem,
    (i.relabel (Identifier.mapName f) id).pieces d = (renamed f).on (i.pieces d)
  | ⟨expr, _⟩ => by simp [OrderItem.relabel, OrderItem.pieces, Node.pieces_mapNames expr]

theorem OrderItem.pieceGroups_mapNames : ∀ is : List OrderItem,
    OrderItem.pieceGroups d (OrderItem.relabelList (Identifier.mapName f) id is) =
      (OrderItem.pieceGroups d is).map (renamed f).on
  | [] => rfl
  | i :: is => by
      simp [OrderItem.relabelList, OrderItem.pieceGroups, OrderItem.pieces_mapNames i,
        OrderItem.pieceGroups_mapNames is]

theorem ColumnUpdate.pieces_mapNames : ∀ u : ColumnUpdate,
    (u.relabel (Identifier.mapName f) id).pieces d = (renamed f).on (u.pieces d)
  | ⟨_, value⟩ => by
      simp [ColumnUpdate.relabel, ColumnUpdate.pieces, Node.pieces_mapNames value]

theorem ColumnUpdate.pieceGroups_mapNames : ∀ us : List ColumnUpdate,
    ColumnUpdate.pieceGroups d (ColumnUpdate.relabelList (Identifier.mapName f) id us) =
      (ColumnUpdate.pieceGroups d us).map (renamed f).on
  | [] => rfl
  | u :: us => by
      simp [ColumnUpdate.relabelList, ColumnUpdate.pieceGroups, ColumnUpdate.pieces_mapNames u,
        ColumnUpdate.pieceGroups_mapNames us]

theorem Select.pieces_mapNames : ∀ q : Select,
    (q.relabel (Identifier.mapName f) id).pieces d = (renamed f).on (q.pieces d)
  | ⟨distinct, selections, sources, joins, condition, grouping, having, ordering, limit, offset⟩ =>
    by
      -- an offset asks whether there is a limit, which no name decides
      have hl : (Node.relabelOption (Identifier.mapName f) id limit).isSome = limit.isSome := by
        cases limit <;> rfl
      simp [Select.relabel, Select.pieces, Node.pieceGroups_mapNames, Join.listPieces_mapNames,
        Node.clausePieces_mapNames, OrderItem.pieceGroups_mapNames,
        (keepsOffences_renamed f).on_offsetPieces, hl]

theorem Insert.pieces_mapNames : ∀ q : Insert,
    (q.relabel (Identifier.mapName f) id).pieces d = (renamed f).on (q.pieces d)
  | ⟨table, columns, rows, returning⟩ => by
      simp [Insert.relabel, Insert.pieces, TableReference.pieces_relabel,
        Node.rowGroups_mapNames rows, Node.pieceGroups_mapNames returning,
        (keepsOffences_renamed f).on_returningPieces]

theorem Update.pieces_mapNames : ∀ q : Update,
    (q.relabel (Identifier.mapName f) id).pieces d = (renamed f).on (q.pieces d)
  | ⟨table, updates, condition, returning⟩ => by
      simp [Update.relabel, Update.pieces, TableReference.pieces_relabel,
        ColumnUpdate.pieceGroups_mapNames updates, Node.clausePieces_mapNames " where " condition,
        Node.pieceGroups_mapNames returning, (keepsOffences_renamed f).on_returningPieces]

theorem Delete.pieces_mapNames : ∀ q : Delete,
    (q.relabel (Identifier.mapName f) id).pieces d = (renamed f).on (q.pieces d)
  | ⟨table, condition, returning⟩ => by
      simp [Delete.relabel, Delete.pieces, TableReference.pieces_relabel,
        Node.clausePieces_mapNames " where " condition, Node.pieceGroups_mapNames returning,
        (keepsOffences_renamed f).on_returningPieces]

end

theorem Node.statementPieces_mapNames (n : Node) :
    (n.mapNames f).statementPieces d = renamePieces f (n.statementPieces d) := by
  rw [renamePieces_eq_on]
  cases n with
  | select q => exact Select.pieces_mapNames f d q
  | _ => exact Node.pieces_mapNames f d _

end

/-! ### Statements -/

theorem bindings_renamePieces (f : String → String) (ps : List Piece) :
    bindings (renamePieces f ps) = bindings ps := by
  induction ps with
  | nil => rfl
  | cons p ps ih =>
      cases p with
      | placeholder v => exact congrArg (v :: ·) ih
      | _ => exact ih

theorem firstOffence?_renamePieces (f : String → String) (ps : List Piece) :
    firstOffence? (renamePieces f ps) = firstOffence? ps := by
  induction ps with
  | nil => rfl
  | cons p ps ih =>
      cases p with
      | offence o => rfl
      | _ => exact ih

/-- **Renaming.**  Transforming by the rule that maps names succeeds on every tree and maps the
names of the tree.  The renamed tree has the statement of the tree, the bindings included, with
every quoted name of the text replaced; where the tree has no statement, it fails with the same
error.  Outbound, the naming plugin is this rule for snake case. -/
theorem renaming_compile (f : String → String) (n : Node) (d : Dialect) :
    (renamingRules f).transform n = .ok (n.mapNames f) ∧
    n.compile d = Statement.ofPieces d (n.statementPieces d) ∧
    (n.mapNames f).compile d = (n.compile d).map (fun s =>
      { s with sql := layout d 1 ((n.statementPieces d).map (Piece.rename f)) }) ∧
    ∀ o : NamingOptions,
      (Plugin.camelCase o).outbound n = (renamingRules (Naming.snakeCase o)).transform n := by
  refine ⟨(renamingRules_relabels f).transform n, Node.compile_eq_ofPieces d n, ?_, fun o => rfl⟩
  rw [Node.compile_eq_ofPieces, Node.compile_eq_ofPieces, Node.statementPieces_mapNames,
    Statement.ofPieces, Statement.ofPieces, firstOffence?_renamePieces, bindings_renamePieces]
  cases firstOffence? (n.statementPieces d) with
  | none => rfl
  | some o => rfl

end SqlTree
