import SqlTree.Node.Builder
import SqlTree.Proofs.Statement.Parameters

/-!
# Statements — conditions of built statements

A builder takes conditions one at a time, between any other calls, and joins each to what it has.
Whatever the other calls are, the condition it ends with is the conjunction of those it was given,
in their order (`Accumulates.foldl`).  A conjunction grows to the left, and its pieces are those of
its members one after another (`Node.layout_conjunction`): an `or` among several members is the only
one in parentheses.

In the statement of a query the clause of the conditions has their texts with `and` between them,
the placeholders being counted on from each to the next, and their bindings in the same order
(`Statement.HasClause`).
-/

namespace SqlTree

/-! ### Builders -/

/-- A call of a function that builds a select. -/
inductive Select.Call where
  | asDistinct
  | select (n : Node)
  | addSource (n : Node)
  | addJoin (j : Join)
  | filter (p : Node)
  | groupBy (n : Node)
  | filterGroups (p : Node)
  | orderBy (item : OrderItem)
  | limitTo (n : Node)
  | skip (n : Node)

/-- A call of a function that builds an update. -/
inductive Update.Call where
  | set (column : Identifier) (value : Node)
  | filter (p : Node)
  | addReturning (n : Node)

/-- A call of a function that builds a delete. -/
inductive Delete.Call where
  | filter (p : Node)
  | addReturning (n : Node)

namespace Select

def run (q : Select) : Call → Select
  | .asDistinct => q.asDistinct
  | .select n => q.select n
  | .addSource n => q.addSource n
  | .addJoin j => q.addJoin j
  | .filter p => q.filter p
  | .groupBy n => q.groupBy n
  | .filterGroups p => q.filterGroups p
  | .orderBy item => q.orderBy item
  | .limitTo n => q.limitTo n
  | .skip n => q.skip n

def build (calls : List Call) : Select := calls.foldl run {}

def Call.filter? : Call → Option Node
  | filter p => some p
  | _ => none

def Call.filterGroups? : Call → Option Node
  | filterGroups p => some p
  | _ => none

end Select

namespace Update

def run (q : Update) : Call → Update
  | .set column value => q.set column value
  | .filter p => q.filter p
  | .addReturning n => q.addReturning n

def build (table : TableReference) (calls : List Call) : Update := calls.foldl run { table }

def Call.filter? : Call → Option Node
  | filter p => some p
  | _ => none

end Update

namespace Delete

def run (q : Delete) : Call → Delete
  | .filter p => q.filter p
  | .addReturning n => q.addReturning n

def build (table : TableReference) (calls : List Call) : Delete := calls.foldl run { table }

def Call.filter? : Call → Option Node
  | filter p => some p
  | _ => none

end Delete

/-- The conditions one after another, each joined to those before it. -/
def Node.conjunction (ps : List Node) : Option Node :=
  ps.foldl (fun earlier p => some (Node.conjoin earlier p)) none

/-- A clause that the calls of a builder add conditions to, and otherwise leave alone. -/
def Accumulates {Query Call : Type} (run : Query → Call → Query) (clause : Query → Option Node)
    (condition? : Call → Option Node) : Prop :=
  ∀ q call, clause (run q call) =
    match condition? call with
    | some p => some (Node.conjoin (clause q) p)
    | none => clause q

/-- After all calls the clause is what it was with the conditions of the calls joined to it. -/
theorem Accumulates.foldl {Query Call : Type} {run : Query → Call → Query}
    {clause : Query → Option Node} {condition? : Call → Option Node}
    (h : Accumulates run clause condition?) (calls : List Call) (q : Query) :
    clause (calls.foldl run q) =
      (calls.filterMap condition?).foldl (fun earlier p => some (Node.conjoin earlier p))
        (clause q) := by
  induction calls generalizing q with
  | nil => rfl
  | cons call calls ih =>
      rw [List.foldl_cons, ih, h q call]
      cases hp : condition? call with
      | none => rw [List.filterMap_cons_none hp]
      | some p => rw [List.filterMap_cons_some hp, List.foldl_cons]

theorem Select.accumulates_filter : Accumulates run condition Call.filter? := by
  intro q call
  cases call <;> rfl

theorem Select.accumulates_filterGroups : Accumulates run having Call.filterGroups? := by
  intro q call
  cases call <;> rfl

theorem Update.accumulates_filter : Accumulates run condition Call.filter? := by
  intro q call
  cases call <;> rfl

theorem Delete.accumulates_filter : Accumulates run condition Call.filter? := by
  intro q call
  cases call <;> rfl

theorem Select.condition_build (calls : List Select.Call) :
    (build calls).condition = Node.conjunction (calls.filterMap Call.filter?) :=
  accumulates_filter.foldl calls {}

theorem Select.having_build (calls : List Select.Call) :
    (build calls).having = Node.conjunction (calls.filterMap Call.filterGroups?) :=
  accumulates_filterGroups.foldl calls {}

theorem Update.condition_build (table : TableReference) (calls : List Update.Call) :
    (build table calls).condition = Node.conjunction (calls.filterMap Call.filter?) :=
  accumulates_filter.foldl calls { table }

theorem Delete.condition_build (table : TableReference) (calls : List Delete.Call) :
    (build table calls).condition = Node.conjunction (calls.filterMap Call.filter?) :=
  accumulates_filter.foldl calls { table }

/-! ### The pieces of a conjunction -/

/-- Whether a node is an operation with `or`. -/
def Node.isDisjunction : Node → Bool
  | .binary _ .or _ => true
  | _ => false

/-- The pieces of the members of a conjunction: of several members a disjunction stands in
parentheses. -/
def Node.conjuncts (d : Dialect) (ps : List Node) : List (List Piece) :=
  ps.map fun p => Piece.parenthesizedIf (2 ≤ ps.length && p.isDisjunction) (p.pieces d)

/-- The texts of groups of pieces, placeholders being counted from `k` on through all of them. -/
def layouts (d : Dialect) : Nat → List (List Piece) → List String
  | _, [] => []
  | k, g :: gs => layout d k g :: layouts d (k + (bindings g).length) gs

section
variable (d : Dialect)

theorem length_layouts (k : Nat) (gs : List (List Piece)) : (layouts d k gs).length = gs.length := by
  induction gs generalizing k with
  | nil => rfl
  | cons g gs ih => rw [layouts, List.length_cons, List.length_cons, ih]

theorem Node.leftParens_and (n : Node) : n.leftParens .and = n.isDisjunction := by
  cases n with
  | binary l op r => cases op <;> rfl
  | _ => rfl

theorem Node.rightParens_and (n : Node) : n.rightParens .and = n.isDisjunction := by
  cases n with
  | binary l op r => cases op <;> rfl
  | _ => rfl

/-- The pieces of a member among several. -/
def Node.memberPieces (p : Node) : List Piece := Piece.parenthesizedIf p.isDisjunction (p.pieces d)

theorem Node.pieces_and (l r : Node) :
    (l.and r).pieces d =
      l.memberPieces d ++ [.text " ", .text "and", .text " "] ++ r.memberPieces d := by
  rw [Node.and, pieces, leftParens_and, rightParens_and]
  rfl

/-- A conjunction is a member without parentheses. -/
theorem Node.memberPieces_and (l r : Node) : (l.and r).memberPieces d = (l.and r).pieces d := rfl

theorem Node.memberPieces_foldl_and (q : Node) (ps : List Node) :
    (ps.foldl Node.and q).memberPieces d =
      q.memberPieces d ++
        ps.flatMap fun p => [.text " ", .text "and", .text " "] ++ p.memberPieces d := by
  -- the conjunction so far is the first member of the rest
  induction ps generalizing q with
  | nil => simp
  | cons p ps ih =>
      rw [List.foldl_cons, ih, memberPieces_and, pieces_and, List.flatMap_cons]
      simp only [List.append_assoc]

theorem Node.isDisjunction_foldl_and (l r : Node) (ps : List Node) :
    (ps.foldl Node.and (l.and r)).isDisjunction = false := by
  induction ps generalizing l r with
  | nil => rfl
  | cons p ps ih => exact ih (l.and r) p

theorem Node.parameters_foldl_and (q : Node) (ps : List Node) :
    (ps.foldl Node.and q).parameters = q.parameters ++ ps.flatMap Node.parameters := by
  induction ps generalizing q with
  | nil => simp
  | cons p ps ih =>
      rw [List.foldl_cons, ih, Node.and, parameters, List.flatMap_cons, List.append_assoc]

theorem Node.conjunction_cons (p : Node) (ps : List Node) :
    conjunction (p :: ps) = some (ps.foldl Node.and p) := by
  have h (q : Node) : ps.foldl (fun earlier p => some (conjoin earlier p)) (some q) =
      some (ps.foldl Node.and q) := by
    induction ps generalizing q with
    | nil => rfl
    | cons p ps ih => exact ih (q.and p)
  exact h p

theorem layout_members (k : Nat) (g : List Piece) (gs : List (List Piece)) :
    layout d k (g ++ gs.flatMap fun h => [.text " ", .text "and", .text " "] ++ h) =
      " and ".intercalate (layouts d k (g :: gs)) := by
  induction gs generalizing k g with
  | nil => simp [layouts]
  | cons h gs ih =>
      have hrest := ih (k + (bindings g).length) h
      have hand (t : String) : " " ++ ("and" ++ (" " ++ t)) = " and " ++ t := by
        rw [← String.append_assoc, ← String.append_assoc]
        rfl
      rw [layouts, layouts, String.intercalate_cons_cons, ← layouts, ← hrest, layout_append,
        List.flatMap_cons, String.append_assoc]
      simp [hand]

/-- A conjunction is written as its members with `and` between them. -/
theorem Node.layout_conjunction (k : Nat) {ps : List Node} (h : ps ≠ []) :
    ∃ n, conjunction ps = some n ∧ n.parameters = ps.flatMap Node.parameters ∧
      layout d k (n.pieces d) = " and ".intercalate (layouts d k (conjuncts d ps)) := by
  obtain ⟨p, ps, rfl⟩ := List.exists_cons_of_ne_nil h
  refine ⟨_, conjunction_cons p ps, parameters_foldl_and p ps, ?_⟩
  cases ps with
  | nil => simp [conjuncts, layouts, Piece.parenthesizedIf]
  | cons r ps =>
      have hmembers : conjuncts d (p :: r :: ps) = (p :: r :: ps).map (memberPieces d) := by
        simp [conjuncts, memberPieces]
      have hpieces := memberPieces_foldl_and d p (r :: ps)
      rw [memberPieces, List.foldl_cons, isDisjunction_foldl_and,
        ← List.flatMap_map (memberPieces d)] at hpieces
      rw [hmembers, List.map_cons, ← layout_members, ← hpieces]
      rfl

end

/-! ### Statements -/

/-- The pieces `pieces c` of a query whose clause has the condition `c` are the clause between
pieces that do not depend on it. -/
def ClauseBetween (d : Dialect) (opening : String) (pieces : Option Node → List Piece)
    (before after : List Piece) : Prop :=
  ∀ c, pieces c = before ++ Node.clausePieces d opening c ++ after

/-- The text of a clause of several conditions: their texts with `and` between them, placeholders
being counted from `k`. -/
def Node.conditionText (d : Dialect) (k : Nat) (ps : List Node) : String :=
  " and ".intercalate (layouts d k (conjuncts d ps))

/-- In the statement of a query a clause consists of several conditions: their texts, one after
another with `and` between them, and their bindings in the same order, behind `k` others. -/
def Statement.HasClause (d : Dialect) (s : Statement) (opening : String) (ps : List Node)
    (pieces : Option Node → List Piece) (k : Nat) : Prop :=
  ∃ before after, ClauseBetween d opening pieces before after ∧
    k = (SqlTree.bindings before).length ∧
    s.sql = layout d 1 before ++ (opening ++ Node.conditionText d (k + 1) ps) ++
      layout d (k + (ps.flatMap Node.parameters).length + 1) after ∧
    s.bindings =
      SqlTree.bindings before ++ ps.flatMap Node.parameters ++ SqlTree.bindings after

theorem ClauseBetween.hasClause {d : Dialect} {s : Statement} {opening : String} {ps : List Node}
    {pieces : Option Node → List Piece} {before after : List Piece}
    (hpieces : ClauseBetween d opening pieces before after) (hps : ps ≠ [])
    (h : Statement.ofPieces d (pieces (Node.conjunction ps)) = .ok s) :
    s.HasClause d opening ps pieces (bindings before).length := by
  obtain ⟨n, hn, hparameters, hlayout⟩ :=
    Node.layout_conjunction d ((bindings before).length + 1) hps
  obtain ⟨-, rfl⟩ := Statement.eq_of_ofPieces h
  have hall := hpieces (Node.conjunction ps)
  rw [hn, Node.clausePieces] at hall
  refine ⟨before, after, hpieces, rfl, ?_, ?_⟩
  · rw [hn, hall, Node.conditionText, ← hlayout, ← hparameters, ← n.bindings_pieces d,
      layout_append, layout_append, layout, bindings_append, bindings_text, List.length_append,
      Nat.add_comm 1, Nat.add_comm 1]
  · rw [hn, hall, ← hparameters, ← n.bindings_pieces d, bindings_append, bindings_append,
      bindings_text]

section
variable {d : Dialect} {s : Statement} {ps : List Node}

theorem clauseBetween_nil (opening : String) (front : List Piece) :
    ClauseBetween d opening (fun c => front ++ Node.clausePieces d opening c) front [] :=
  fun _ => (List.append_nil _).symm

theorem ClauseBetween.append {opening : String} {pieces : Option Node → List Piece}
    {before after : List Piece} (h : ClauseBetween d opening pieces before after)
    (back : List Piece) :
    ClauseBetween d opening (fun c => pieces c ++ back) before (after ++ back) :=
  fun c => (congrArg (· ++ back) (h c)).trans (List.append_assoc ..)

theorem Select.hasClause_where {q : Select} (h : (Node.select q).compile d = .ok s)
    (hq : q.condition = Node.conjunction ps) (hps : ps ≠ []) :
    ∃ k, s.HasClause d " where " ps (fun c => { q with condition := c }.pieces d) k := by
  obtain ⟨distinct, selections, sources, joins, condition, grouping, having, ordering, limit,
    offset⟩ := q
  obtain rfl : condition = Node.conjunction ps := hq
  rw [Node.compile_eq_ofPieces] at h
  exact ⟨_, (((((clauseBetween_nil " where " _).append _).append _).append _).append _).append _
    |>.hasClause hps h⟩

theorem Select.hasClause_having {q : Select} (h : (Node.select q).compile d = .ok s)
    (hq : q.having = Node.conjunction ps) (hps : ps ≠ []) :
    ∃ k, s.HasClause d " having " ps (fun c => { q with having := c }.pieces d) k := by
  obtain ⟨distinct, selections, sources, joins, condition, grouping, having, ordering, limit,
    offset⟩ := q
  obtain rfl : having = Node.conjunction ps := hq
  rw [Node.compile_eq_ofPieces] at h
  exact ⟨_, (((clauseBetween_nil " having " _).append _).append _).append _ |>.hasClause hps h⟩

theorem Update.hasClause_where {q : Update} (h : (Node.update q).compile d = .ok s)
    (hq : q.condition = Node.conjunction ps) (hps : ps ≠ []) :
    ∃ k, s.HasClause d " where " ps (fun c => { q with condition := c }.pieces d) k := by
  obtain ⟨table, updates, condition, returning⟩ := q
  obtain rfl : condition = Node.conjunction ps := hq
  rw [Node.compile_eq_ofPieces] at h
  exact ⟨_, (clauseBetween_nil " where " _).append _ |>.hasClause hps h⟩

theorem Delete.hasClause_where {q : Delete} (h : (Node.delete q).compile d = .ok s)
    (hq : q.condition = Node.conjunction ps) (hps : ps ≠ []) :
    ∃ k, s.HasClause d " where " ps (fun c => { q with condition := c }.pieces d) k := by
  obtain ⟨table, condition, returning⟩ := q
  obtain rfl : condition = Node.conjunction ps := hq
  rw [Node.compile_eq_ofPieces] at h
  exact ⟨_, (clauseBetween_nil " where " _).append _ |>.hasClause hps h⟩

end

end SqlTree
