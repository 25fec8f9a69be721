import SqlTree.Node.Basic

/-!
# Nodes — equality

`Node.same` compares two trees part by part.  It differs from equality only in the values of
parameters, which `Value.same` compares.
-/

namespace SqlTree

mutual

def Node.same : Node → Node → Bool
  | .identifier a, .identifier b => a == b
  | .columnReference a, .columnReference b => a == b
  | .tableReference a, .tableReference b => a == b
  | .aliased a i, .aliased b j => a.same b && i == j
  | .wildcard a, .wildcard b => a == b
  | .join a, .join b => a.same b
  | .orderItem a, .orderItem b => a.same b
  | .binary a o b, .binary c p d => a.same c && o == p && b.same d
  | .unary o a, .unary p b => o == p && a.same b
  | .call f as, .call g bs => f == g && Node.sameList as bs
  | .valueList as, .valueList bs => Node.sameList as bs
  | .columnUpdate a, .columnUpdate b => a.same b
  | .columnDefinition a, .columnDefinition b => a == b
  | .select a, .select b => a.same b
  | .insert a, .insert b => a.same b
  | .update a, .update b => a.same b
  | .delete a, .delete b => a.same b
  | .createTable a, .createTable b => a == b
  | .dropTable a, .dropTable b => a == b
  | .rawFragment ts as, .rawFragment us bs => ts == us && Node.sameList as bs
  | .parameter v, .parameter w => v.same w
  | _, _ => false

def Node.sameList : List Node → List Node → Bool
  | [], [] => true
  | a :: as, b :: bs => a.same b && Node.sameList as bs
  | _, _ => false

def Node.sameOption : Option Node → Option Node → Bool
  | none, none => true
  | some a, some b => a.same b
  | _, _ => false

def Node.sameRows : List (List Node) → List (List Node) → Bool
  | [], [] => true
  | r :: rs, s :: ss => Node.sameList r s && Node.sameRows rs ss
  | _, _ => false

def Join.same : Join → Join → Bool
  | ⟨t, a, o⟩, ⟨u, b, p⟩ => t == u && a.same b && Node.sameOption o p

def Join.sameList : List Join → List Join → Bool
  | [], [] => true
  | a :: as, b :: bs => a.same b && Join.sameList as bs
  | _, _ => false

def OrderItem.same : OrderItem → OrderItem → Bool
  | ⟨a, d⟩, ⟨b, e⟩ => a.same b && d == e

def OrderItem.sameList : List OrderItem → List OrderItem → Bool
  | [], [] => true
  | a :: as, b :: bs => a.same b && OrderItem.sameList as bs
  | _, _ => false

def ColumnUpdate.same : ColumnUpdate → ColumnUpdate → Bool
  | ⟨c, a⟩, ⟨d, b⟩ => c == d && a.same b

def ColumnUpdate.sameList : List ColumnUpdate → List ColumnUpdate → Bool
  | [], [] => true
  | a :: as, b :: bs => a.same b && ColumnUpdate.sameList as bs
  | _, _ => false

def Select.same : Select → Select → Bool
  | ⟨d, ss, fs, js, c, gs, h, os, l, o⟩, ⟨d', ss', fs', js', c', gs', h', os', l', o'⟩ =>
    d == d' && Node.sameList ss ss' && Node.sameList fs fs' && Join.sameList js js' &&
      Node.sameOption c c' && Node.sameList gs gs' && Node.sameOption h h' &&
      OrderItem.sameList os os' && Node.sameOption l l' && Node.sameOption o o'

def Insert.same : Insert → Insert → Bool
  | ⟨t, cs, rs, ret⟩, ⟨t', cs', rs', ret'⟩ =>
    t == t' && cs == cs' && Node.sameRows rs rs' && Node.sameList ret ret'

def Update.same : Update → Update → Bool
  | ⟨t, us, c, ret⟩, ⟨t', us', c', ret'⟩ =>
    t == t' && ColumnUpdate.sameList us us' && Node.sameOption c c' && Node.sameList ret ret'

def Delete.same : Delete → Delete → Bool
  | ⟨t, c, ret⟩, ⟨t', c', ret'⟩ => t == t' && Node.sameOption c c' && Node.sameList ret ret'

end

end SqlTree
