import SqlTree.Proofs.Plugin.Outbound
import SqlTree.Proofs.Row.Merging
import SqlTree.Proofs.Tree.Labels

/-!
# Plugins — layers

A `Layer` is a plugin that encodes names on their way out and decodes the keys of rows on their way
back, and whose decoding undoes its encoding.  So its encoding keeps different names apart.

**Round trip** (`Plugin.layers_roundTrip`).  Layers nest.  Outbound, every name of a tree is encoded
by all of them, the first layer first; and rows whose keys are distinct names so encoded come back
as they were.  The outermost encoding is undone first, so every layer is given what it made itself,
and no layer is given two fields with the same key.
-/

namespace SqlTree

theorem Plugin.result_inboundInOrder_cons (p : Plugin) (ps : List Plugin) (rows : List Row) :
    (inboundInOrder (p :: ps) rows).result =
      p.inbound rows >>= fun rows => (inboundInOrder ps rows).result := by
  rw [inboundInOrder, Traced.result_bind]
  exact Traced.result_bind ..

theorem Plugin.result_inboundInOrder_append (ps qs : List Plugin) (rows : List Row) :
    (inboundInOrder (ps ++ qs) rows).result =
      (inboundInOrder ps rows).result >>= fun rows => (inboundInOrder qs rows).result := by
  induction ps generalizing rows with
  | nil => rfl
  | cons p ps ih =>
    rw [List.cons_append, result_inboundInOrder_cons, result_inboundInOrder_cons]
    cases p.inbound rows with
    | error err => rfl
    | ok rows' => exact ih rows'

/-- The plugins in front are given the rows last. -/
theorem Plugin.result_inboundAll_append (ps qs : List Plugin) (rows : List Row) :
    (inboundAll (ps ++ qs) rows).result =
      (inboundAll qs rows).result >>= fun rows => (inboundAll ps rows).result := by
  rw [inboundAll, List.reverse_append, result_inboundInOrder_append]
  rfl

theorem Plugin.result_inboundAll_singleton (p : Plugin) (rows : List Row) :
    (inboundAll [p] rows).result = p.inbound rows := by
  rw [inboundAll, List.reverse_singleton, result_inboundInOrder_cons]
  cases p.inbound rows <;> rfl

theorem Plugin.result_inboundAll_cons (p : Plugin) (ps : List Plugin) (rows : List Row) :
    (inboundAll (p :: ps) rows).result = (inboundAll ps rows).result >>= p.inbound := by
  rw [← List.singleton_append, result_inboundAll_append, funext (result_inboundAll_singleton p)]

/-- A traversal that succeeds at every element. -/
theorem mapM_eq_ok {ε α β : Type} {f : α → Except ε β} {g : α → β} {as : List α}
    (h : ∀ a ∈ as, f a = .ok (g a)) : as.mapM f = .ok (as.map g) := by
  induction as with
  | nil => rfl
  | cons a as ih =>
    rw [List.forall_mem_cons] at h
    rw [List.mapM_cons, h.1, ih h.2]
    rfl

/-- How an inbound hook decodes the keys of a row. -/
inductive KeyDecoder where
  /-- Every key is renamed, unless one of them is refused. -/
  | checked (g : String → Except QueryError String)
  /-- Every key is renamed. -/
  | plain (g : String → String)

namespace KeyDecoder

def decode : KeyDecoder → String → Except QueryError String
  | checked g, key => g key
  | plain g, key => .ok (g key)

def decodeRow : KeyDecoder → Row → Except QueryError Row
  | checked g, row => row.mapKeysM g
  | plain g, row => .ok (row.mapFields fun key value => (g key, value))

/-- Decoding undoes an encoding of distinct keys. -/
theorem decodeRow_mapKeys {d : KeyDecoder} {encode : String → String} {row : Row}
    (hd : ∀ s, d.decode (encode s) = .ok s) (hkeys : row.keys.Nodup)
    (hencoded : (row.keys.map encode).Nodup) :
    d.decodeRow (row.mapKeys encode) = .ok row := by
  cases d with
  | checked g =>
    have hg : g ∘ encode = fun s => pure (id s) := funext hd
    rw [decodeRow, Row.mapKeysM_mapKeys hencoded, hg, Row.mapKeysM_pure, Row.mapKeys_id hkeys]
    rfl
  | plain g =>
    have hg : g ∘ encode = id := funext fun s => Except.ok.inj (hd s)
    have hrow : (row.mapKeys encode).mapKeys g = row := by
      rw [Row.mapKeys_mapKeys hencoded, hg, Row.mapKeys_id hkeys]
    exact congrArg Except.ok hrow

end KeyDecoder

/-- A plugin that encodes names outbound and decodes keys inbound. -/
structure Layer extends Plugin where
  encode : String → String
  /-- What becomes of an identifier.  Whether it is raw may change with its name. -/
  spell : Identifier → Identifier
  decoder : KeyDecoder
  name_spell : ∀ i, (spell i).name = encode i.name
  outbound_eq : ∀ n, outbound n = .ok (n.relabel spell id)
  inbound_eq : ∀ rows, inbound rows = rows.mapM decoder.decodeRow
  decode_encode : ∀ s, decoder.decode (encode s) = .ok s

namespace Layer

theorem encode_injective (l : Layer) : Function.Injective l.encode := by
  intro s t h
  have hs := l.decode_encode s
  rw [h, l.decode_encode t] at hs
  exact (Except.ok.inj hs).symm

/-- A layer gives back the rows whose keys it encoded. -/
theorem inbound_mapKeys (l : Layer) {rows : List Row} (h : ∀ row ∈ rows, row.keys.Nodup) :
    l.inbound (rows.map (Row.mapKeys l.encode)) = .ok rows := by
  have hrow (row : Row) (hmem : row ∈ rows) :
      l.decoder.decodeRow (row.mapKeys l.encode) = .ok (id row) :=
    KeyDecoder.decodeRow_mapKeys l.decode_encode (h row hmem)
      ((h row hmem).map l.encode_injective)
  rw [l.inbound_eq, List.mapM_map]
  exact (mapM_eq_ok hrow).trans (congrArg Except.ok rows.map_id)

/-! ### Lists of layers -/

/-- The name encoded by all layers, the first one first. -/
def encodeAll (layers : List Layer) (s : String) : String := layers.foldl (fun s l => l.encode s) s

/-- What becomes of an identifier on its way through all layers. -/
def spellAll (layers : List Layer) (i : Identifier) : Identifier :=
  layers.foldl (fun i l => l.spell i) i

def plugins (layers : List Layer) : List Plugin := layers.map toPlugin

theorem encodeAll_cons (l : Layer) (layers : List Layer) :
    encodeAll (l :: layers) = encodeAll layers ∘ l.encode := rfl

theorem spellAll_cons (l : Layer) (layers : List Layer) :
    spellAll (l :: layers) = spellAll layers ∘ l.spell := rfl

theorem name_spellAll (layers : List Layer) (i : Identifier) :
    (spellAll layers i).name = encodeAll layers i.name := by
  induction layers generalizing i with
  | nil => rfl
  | cons l layers ih =>
    rw [spellAll_cons, encodeAll_cons, Function.comp_apply, Function.comp_apply, ih, l.name_spell]

theorem result_outboundAll (layers : List Layer) (n : Node) :
    (Plugin.outboundAll (plugins layers) n).result = .ok (n.relabel (spellAll layers) id) := by
  induction layers generalizing n with
  | nil => exact congrArg Except.ok n.relabel_id_id.symm
  | cons l layers ih =>
    have htree : (n.relabel l.spell id).relabel (spellAll layers) id =
        n.relabel (spellAll (l :: layers)) id := by
      rw [Node.relabel_relabel_id, spellAll_cons]
    rw [plugins, List.map_cons, Plugin.result_outboundAll_cons, l.outbound_eq, ← htree]
    exact ih (n.relabel l.spell id)

/-- Rows come back through the layers, from the last one to the first. -/
theorem result_inboundAll (layers : List Layer) {rows : List Row}
    (h : ∀ row ∈ rows, row.keys.Nodup) :
    (Plugin.inboundAll (plugins layers) (rows.map (Row.mapKeys (encodeAll layers)))).result =
      .ok rows := by
  induction layers generalizing rows with
  | nil =>
    have hrows : rows.map (Row.mapKeys id) = rows :=
      (List.map_congr_left fun row hrow => Row.mapKeys_id (h row hrow)).trans (List.map_id rows)
    exact congrArg Except.ok hrows
  | cons l layers ih =>
    have hencoded : ∀ row ∈ rows, (row.keys.map l.encode).Nodup := fun row hrow =>
      (h row hrow).map l.encode_injective
    have hrows : rows.map (Row.mapKeys (encodeAll (l :: layers))) =
        (rows.map (Row.mapKeys l.encode)).map (Row.mapKeys (encodeAll layers)) := by
      rw [List.map_map, encodeAll_cons]
      exact List.map_congr_left fun row hrow => (Row.mapKeys_mapKeys (hencoded row hrow) _).symm
    have hkeys : ∀ row ∈ rows.map (Row.mapKeys l.encode), row.keys.Nodup := by
      rw [List.forall_mem_map]
      intro row hrow
      rw [Row.keys_mapKeys (hencoded row hrow)]
      exact hencoded row hrow
    -- the layers behind this one give it back what it encoded itself
    rw [plugins, List.map_cons, Plugin.result_inboundAll_cons, hrows]
    rw [← plugins, ih hkeys]
    exact l.inbound_mapKeys h

/-! ### Suffixes and marks -/

/-- The rule that writes every name anew, also one that was raw. -/
def rewriteName (f : String → String) : Rule
  | .identifier i => .ok (.identifier ⟨f i.name, false⟩)
  | n => .ok n

theorem rewriteName_relabels (f : String → String) :
    (RuleSet.empty.register .identifier (rewriteName f)).Relabels (fun i => ⟨f i.name, false⟩) id :=
  RuleSet.relabels_identifier fun _ => rfl

/-- The layer that encodes the names of a tree by a rule. -/
def ofNames (name : String) (encode : String → String) (decoder : KeyDecoder)
    (h : ∀ s, decoder.decode (encode s) = .ok s) : Layer where
  name
  encode
  spell i := ⟨encode i.name, false⟩
  decoder
  outbound := (RuleSet.empty.register .identifier (rewriteName encode)).transform
  inbound rows := rows.mapM decoder.decodeRow
  name_spell _ := rfl
  outbound_eq := (rewriteName_relabels encode).transform
  inbound_eq _ := rfl
  decode_encode := h

/-- The key without a suffix, which has to be there. -/
def stripSuffix (plugin suffix key : String) : Except QueryError String :=
  match key.toList.dropSuffix? suffix.toList with
  | some cs => .ok (String.ofList cs)
  | none => .error (.plugin plugin ("key " ++ key ++ " lacks suffix " ++ suffix))

theorem stripSuffix_append (plugin suffix s : String) :
    stripSuffix plugin suffix (s ++ suffix) = .ok s := by
  have hdrop : (s ++ suffix).toList.dropSuffix? suffix.toList = some s.toList := by
    rw [String.toList_append, List.dropSuffix?_eq_some_iff]
    exact ⟨suffix.toList, rfl, beq_self_eq_true _⟩
  rw [stripSuffix, hdrop]
  exact congrArg Except.ok String.ofList_toList

/-- The layer that puts a suffix behind every name. -/
def suffix (name suffix : String) : Layer :=
  ofNames name (· ++ suffix) (.checked (stripSuffix name suffix)) (stripSuffix_append name suffix)

/-- The layer that puts a mark before every name. -/
def marked (name mark : String) : Layer :=
  ofNames name (mark ++ ·) (.plain fun key => String.ofList (key.toList.drop mark.toList.length))
    fun s => by
      rw [KeyDecoder.decode, String.toList_append, List.drop_left, String.ofList_toList]

end Layer

/-- **Round trip.**  Through a list of layers, every tree goes out with its names encoded by all of
them, the first layer first, and is not changed otherwise.  Rows with distinct keys, once their keys
are encoded in this way, come back as they were: no row is lost or moved, and each has its fields in
order, with their keys and values. -/
theorem Plugin.layers_roundTrip (layers : List Layer) :
    (∀ n : Node,
      (outboundAll (Layer.plugins layers) n).result = .ok (n.relabel (Layer.spellAll layers) id) ∧
      (n.relabel (Layer.spellAll layers) id).identifiers.map Identifier.name =
        n.identifiers.map fun i => Layer.encodeAll layers i.name) ∧
    ∀ rows : List Row, (∀ row ∈ rows, row.keys.Nodup) →
      (inboundAll (Layer.plugins layers)
        (rows.map (Row.mapKeys (Layer.encodeAll layers)))).result = .ok rows := by
  refine ⟨fun n => ⟨Layer.result_outboundAll layers n, ?_⟩, fun rows =>
    Layer.result_inboundAll layers⟩
  rw [Node.identifiers_relabel_id, List.map_map]
  exact List.map_congr_left fun i _ => Layer.name_spellAll layers i

/-- Suffixes that are repeated, that overlap and that are empty, and a mark among them. -/
def tenantLayers : List Layer :=
  [.suffix "region" "_a", .suffix "zone" "a", .suffix "unit" "", .marked "tenant" "t_",
    .suffix "copy" "_a"]

def loginRow : Row := ⟨[("id", .int 1), ("id_a", .text "guest")]⟩

theorem loginRow_roundTrip :
    loginRow.keys.Nodup ∧
      (Plugin.outboundAll (Layer.plugins tenantLayers)
        (.columnReference ⟨some ⟨"login", false⟩, ⟨"id", false⟩⟩)).result =
          .ok (.columnReference ⟨some ⟨"t_login_aa_a", false⟩, ⟨"t_id_aa_a", false⟩⟩) ∧
      (Plugin.inboundAll (Layer.plugins tenantLayers)
        [⟨[("t_id_aa_a", .int 1), ("t_id_a_aa_a", .text "guest")]⟩]).result = .ok [loginRow] := by
  have hkeys : loginRow.keys.Nodup := by decide
  have hencoded : loginRow.mapKeys (Layer.encodeAll tenantLayers) =
      ⟨[("t_id_aa_a", .int 1), ("t_id_a_aa_a", .text "guest")]⟩ := rfl
  obtain ⟨hout, hin⟩ := Plugin.layers_roundTrip tenantLayers
  have hrows := hin [loginRow] (List.forall_mem_singleton.2 hkeys)
  rw [List.map_singleton, hencoded] at hrows
  exact ⟨hkeys, (hout (.columnReference ⟨some ⟨"login", false⟩, ⟨"id", false⟩⟩)).1, hrows⟩

end SqlTree
