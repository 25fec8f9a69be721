import SqlTree.Proofs.Plugin.Layers
import SqlTree.Proofs.Row.Renaming

/-!
# Plugins — renamed keys

A plugin may rename the keys of rows on their way back.  Nothing is lost as long as no row repeats a
key and no two keys of a row get one name: under its new name every field is read as before
(`Plugin.inbound_renames`).  Of a key that a row repeats the last field is left, though reading the
row before gives the first one (`Row.renaming_merges_repeated_key`).
-/

namespace SqlTree

namespace KeyDecoder
variable {d : KeyDecoder} {f : String → String}

/-- The decoder gives the keys of the row distinct names. -/
structure RenamesApart (d : KeyDecoder) (f : String → String) (row : Row) : Prop where
  distinct : row.keys.Nodup
  apart : Set.InjOn f {k | k ∈ row.keys}
  decode_eq : ∀ k ∈ row.keys, d.decode k = .ok (f k)

theorem decodeRow_eq {row : Row} (h : ∀ k ∈ row.keys, d.decode k = .ok (f k)) :
    d.decodeRow row = .ok (row.mapKeys f) := by
  cases d with
  | checked g => exact Row.mapKeysM_of_ok h
  | plain g =>
    have hfields : ∀ e ∈ row.fields, (g e.1, e.2) = (f e.1, e.2) := fun e he =>
      congrArg (·, e.2) (Except.ok.inj (h e.1 (List.mem_map_of_mem he)))
    exact congrArg (Except.ok ∘ Row.ofList) (List.map_congr_left hfields)

end KeyDecoder

/-- **Renamed keys.**  A row that repeats no key loses nothing when its keys get distinct names, and
no more do the rows that a plugin renames so.  Of a row that repeats keys each is kept once, under
its new name in the place of its first field and with the value of its last one. -/
theorem Plugin.inbound_renames (f : String → String) :
    (∀ row : Row, row.keys.Nodup → Set.InjOn f {k | k ∈ row.keys} →
      row.Renames f (row.mapKeys f)) ∧
    (∀ row : Row, Set.InjOn f {k | k ∈ row.keys} →
      (row.mapKeys f).keys = row.keys.eraseDups.map f ∧
      (∀ k ∈ row.keys, (row.mapKeys f).get? (f k) = row.fields.reverse.lookup k) ∧
      ((row.mapKeys f).size = row.size ↔ row.keys.Nodup)) ∧
    ∀ (p : Plugin) (d : KeyDecoder), (∀ rows, p.inbound rows = rows.mapM d.decodeRow) →
      ∀ (ps : List Plugin) (rows out : List Row), (inboundAll ps rows).result = .ok out →
        (∀ row ∈ out, d.RenamesApart f row) →
        ∃ out', (inboundAll (p :: ps) rows).result = .ok out' ∧
          List.Forall₂ (Row.Renames f) out out' := by
  refine ⟨fun _ => Row.renames_mapKeys, fun row hf => ?_, ?_⟩
  · exact ⟨Row.keys_mapKeys_of_injOn hf, fun k => Row.get?_mapKeys_of_injOn hf,
      Row.size_mapKeys_iff hf⟩
  · intro p d hp ps rows out hout hapart
    refine ⟨out.map (Row.mapKeys f), ?_, ?_⟩
    · rw [result_inboundAll_cons, hout]
      exact (hp out).trans (mapM_eq_ok fun row hrow =>
        KeyDecoder.decodeRow_eq (hapart row hrow).decode_eq)
    · rw [List.forall₂_map_right_iff, List.forall₂_same]
      exact fun row hrow => Row.renames_mapKeys (hapart row hrow).distinct (hapart row hrow).apart

/-- The name of one column for the application. -/
def userIdKey (key : String) : String := if key = "user_id" then "userId" else key

/-- A plugin that renames one column. -/
def Plugin.userId : Plugin where
  name := "userId"
  outbound := .ok
  inbound rows := rows.mapM (KeyDecoder.plain userIdKey).decodeRow

def userRow : Row := ⟨[("user_id", .int 1), ("note", .null)]⟩

theorem Plugin.inbound_renames_userId :
    userRow.Renames userIdKey (userRow.mapKeys userIdKey) ∧
      ∃ out', (inboundAll [Plugin.userId] [userRow]).result = .ok out' ∧
        List.Forall₂ (Row.Renames userIdKey) [userRow] out' := by
  have hdistinct : userRow.keys.Nodup := by decide
  have hapart : Set.InjOn userIdKey {k | k ∈ userRow.keys} := by
    have hnames : ∀ j ∈ userRow.keys, ∀ k ∈ userRow.keys, userIdKey j = userIdKey k → j = k := by
      decide
    exact fun j hj k hk => hnames j hj k hk
  refine ⟨(inbound_renames userIdKey).1 userRow hdistinct hapart, ?_⟩
  refine (inbound_renames userIdKey).2.2 Plugin.userId (.plain userIdKey) (fun _ => rfl) []
    [userRow] [userRow] rfl (List.forall_mem_singleton.2 ?_)
  exact ⟨hdistinct, hapart, fun _ _ => rfl⟩

/-- A join of two tables gives two columns with one name. -/
def joinedRow : Row := ⟨[("user_id", .int 1), ("user_id", .int 2)]⟩

/-- Reading the joined row gives the first of its columns, and after a renaming without clashes only
the second one is left. -/
theorem Row.renaming_merges_repeated_key :
    Set.InjOn userIdKey {k | k ∈ joinedRow.keys} ∧
      joinedRow.get? "user_id" = some (.int 1) ∧
      (joinedRow.mapKeys userIdKey).get? "userId" = some (.int 2) ∧
      ¬ joinedRow.Renames userIdKey (joinedRow.mapKeys userIdKey) := by
  refine ⟨?_, rfl, rfl, fun h => ?_⟩
  · have hsame : ∀ k ∈ joinedRow.keys, k = "user_id" := by decide
    exact fun j hj k hk _ => (hsame j hj).trans (hsame k hk).symm
  · have hsize : 1 = 2 := h.size_eq
    cases hsize

end SqlTree
