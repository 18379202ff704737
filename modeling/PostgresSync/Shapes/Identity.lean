import PostgresSync.Storage.Encoding

namespace PostgresSync.Shapes

open PostgresSync.Data

/-! Which definitions share a hash.  The hash is that of the JSON text of the canonical
definition, whose fields are written as the struct tags say. -/

def keyValueCodec : Codec (String × String) :=
  .struct ("", "")
    (fun pair => [("key", some (Codec.text.encode pair.1)),
      ("value", some (Codec.text.encode pair.2))])
    fun fields => do
      let key ← Codec.read fields "key" .text
      let value ← Codec.read fields "value" .text
      return (key, value)

namespace CanonicalSubset

def fields (subset : CanonicalSubset) : List (String × Option Json) :=
  [("where", Codec.unlessEmpty (subset.whereClause = "")
      (Codec.text.encode subset.whereClause)),
    ("params", Codec.unlessEmpty subset.params.isEmpty
      ((Codec.list keyValueCodec).encode subset.params)),
    ("limit", Codec.unlessEmpty subset.limit.isNone
      ((Codec.pointer .int).encode subset.limit)),
    ("offset", Codec.unlessEmpty subset.offset.isNone
      ((Codec.pointer .int).encode subset.offset)),
    ("order_by", Codec.unlessEmpty (subset.orderBy = "")
      (Codec.text.encode subset.orderBy)),
    ("where_expr", Codec.unlessEmpty (subset.whereExpr = "")
      (Codec.text.encode subset.whereExpr)),
    ("order_by_expr", Codec.unlessEmpty (subset.orderByExpr = "")
      (Codec.text.encode subset.orderByExpr))]

def ofFields (fields : List (String × Json)) : Option CanonicalSubset := do
  let whereClause ← Codec.read fields "where" .text
  let params ← Codec.read fields "params" (.list keyValueCodec)
  let limit ← Codec.read fields "limit" (.pointer .int)
  let offset ← Codec.read fields "offset" (.pointer .int)
  let orderBy ← Codec.read fields "order_by" .text
  let whereExpr ← Codec.read fields "where_expr" .text
  let orderByExpr ← Codec.read fields "order_by_expr" .text
  return ⟨whereClause, params, limit, offset, orderBy, whereExpr, orderByExpr⟩

def codec : Codec CanonicalSubset :=
  .struct ⟨"", [], none, none, "", "", ""⟩ fields ofFields

end CanonicalSubset

namespace CanonicalDefinition

def fields (canonical : CanonicalDefinition) : List (String × Option Json) :=
  [("relation", some (Relation.codec.encode canonical.relation)),
    ("where", Codec.unlessEmpty (canonical.whereClause = "")
      (Codec.text.encode canonical.whereClause)),
    ("params", Codec.unlessEmpty canonical.params.isEmpty
      ((Codec.list keyValueCodec).encode canonical.params)),
    ("columns", Codec.unlessEmpty canonical.columns.isEmpty
      ((Codec.list .text).encode canonical.columns)),
    ("replica", Codec.unlessEmpty (canonical.replica = "")
      (Codec.text.encode canonical.replica)),
    ("log", Codec.unlessEmpty (canonical.log = "") (Codec.text.encode canonical.log)),
    ("subset", Codec.unlessEmpty canonical.subset.isNone
      ((Codec.pointer CanonicalSubset.codec).encode canonical.subset))]

def ofFields (fields : List (String × Json)) : Option CanonicalDefinition := do
  let relation ← Codec.read fields "relation" Relation.codec
  let whereClause ← Codec.read fields "where" .text
  let params ← Codec.read fields "params" (.list keyValueCodec)
  let columns ← Codec.read fields "columns" (.list .text)
  let replica ← Codec.read fields "replica" .text
  let log ← Codec.read fields "log" .text
  let subset ← Codec.read fields "subset" (.pointer CanonicalSubset.codec)
  return ⟨relation, whereClause, params, columns, replica, log, subset⟩

def codec : Codec CanonicalDefinition :=
  .struct ⟨.empty, "", [], [], "", "", none⟩ fields ofFields

end CanonicalDefinition

/-! The JSON tells the canonical definition. -/

theorem keeps_pairs (pairs : List (String × String)) : (Codec.list keyValueCodec).Keeps pairs :=
  Codec.keeps_list fun _ _ => rfl

theorem CanonicalSubset.keeps (subset : CanonicalSubset) : codec.Keeps subset := by
  have distinct : (subset.fields.map (·.1)).Nodup := by
    simp [CanonicalSubset.fields]
  have params := Codec.read_list distinct "params" rfl (keeps_pairs subset.params)
  have limit := Codec.read_pointer distinct "limit" rfl (keeps_intPointer subset.limit)
  have offset := Codec.read_pointer distinct "offset" rfl (keeps_intPointer subset.offset)
  show ofFields (Codec.present subset.fields) = some subset
  rw [ofFields, Codec.read_text distinct "where" rfl, params, limit, offset,
    Codec.read_text distinct "order_by" rfl, Codec.read_text distinct "where_expr" rfl,
    Codec.read_text distinct "order_by_expr" rfl]
  rfl

theorem CanonicalDefinition.keeps (canonical : CanonicalDefinition) : codec.Keeps canonical := by
  have distinct : (canonical.fields.map (·.1)).Nodup := by
    simp [CanonicalDefinition.fields]
  have relation := Codec.read_present distinct "relation" rfl canonical.relation.keeps
  have params := Codec.read_list distinct "params" rfl (keeps_pairs canonical.params)
  have columns := Codec.read_list distinct "columns" rfl (keeps_texts canonical.columns)
  have subset := Codec.read_pointer distinct "subset" rfl
    (Codec.keeps_pointer (fun _ written => by cases written)
      fun (subset : CanonicalSubset) (_ : canonical.subset = some subset) => subset.keeps)
  show ofFields (Codec.present canonical.fields) = some canonical
  rw [ofFields, relation, Codec.read_text distinct "where" rfl, params, columns,
    Codec.read_text distinct "replica" rfl, Codec.read_text distinct "log" rfl, subset]
  rfl

theorem CanonicalDefinition.encode_injective :
    Function.Injective CanonicalDefinition.codec.encode := by
  intro left right same
  apply Option.some.inj
  rw [← left.keeps, ← right.keeps, same]

/-! The canonical definition tells the definition up to the order of its columns. -/

theorem canonicalizeMap_injective : Function.Injective canonicalizeMap := by
  intro left right same
  rw [← Dict.ofPairs_toList left, ← Dict.ofPairs_toList right]
  exact congrArg Dict.ofPairs same

theorem canonicalizeStrings_eq_iff {left right : List String} :
    canonicalizeStrings left = canonicalizeStrings right ↔ left.Perm right := by
  have sorted (texts : List String) : (canonicalizeStrings texts).Perm texts :=
    List.perm_insertionSort _ texts
  constructor
  · intro same
    exact (sorted left).symm.trans (same ▸ sorted right)
  · intro permuted
    exact ((sorted left).trans (permuted.trans (sorted right).symm)).eq_of_pairwise'
      (List.pairwise_insertionSort _ left) (List.pairwise_insertionSort _ right)

structure SameIdentity (left right : Definition) : Prop where
  relation : left.relation = right.relation
  whereClause : left.whereClause = right.whereClause
  params : left.params = right.params
  columns : left.columns.Perm right.columns
  replica : left.replica = right.replica
  log : left.log = right.log
  subset : left.subset = right.subset

theorem canonicalDefinition_eq_iff {left right : Definition} :
    canonicalDefinition left = canonicalDefinition right ↔ SameIdentity left right := by
  constructor
  · intro same
    obtain ⟨relation, whereClause, params, columns, replica, log, subset⟩ :=
      CanonicalDefinition.mk.inj same
    refine ⟨relation, whereClause, canonicalizeMap_injective params,
      canonicalizeStrings_eq_iff.mp columns, replica, log, Option.map_injective ?_ subset⟩
    intro first second equal
    obtain ⟨whereClause, params, limit, offset, orderBy, whereExpr, orderByExpr⟩ :=
      CanonicalSubset.mk.inj equal
    rw [Subset.mk.injEq]
    exact ⟨whereClause, canonicalizeMap_injective params, limit, offset, orderBy, whereExpr,
      orderByExpr⟩
  · intro ⟨relation, whereClause, params, columns, replica, log, subset⟩
    rw [canonicalDefinition, relation, whereClause, params, replica, log, subset,
      canonicalizeStrings_eq_iff.mpr columns]
    rfl

/-- Two definitions have one hash exactly when they define one shape.  Texts that are hashed to
the same are the same, and the text tells its JSON. -/
theorem canonicalHash_eq_iff [Digest] (left right : Definition)
    (collisionFree : Digest.sha256Hex (canonicalDefinition left) =
        Digest.sha256Hex (canonicalDefinition right) →
      CanonicalDefinition.codec.encode (canonicalDefinition left) =
        CanonicalDefinition.codec.encode (canonicalDefinition right)) :
    canonicalHash left = canonicalHash right ↔ SameIdentity left right := by
  rw [← canonicalDefinition_eq_iff]
  constructor
  · intro same
    exact CanonicalDefinition.encode_injective (collisionFree same)
  · intro same
    rw [canonicalHash, same]
    rfl

theorem canonicalHash_items :
    letI := twoShapesDigest
    canonicalHash itemsDefinition = canonicalHash oneItemDefinition ↔
      SameIdentity itemsDefinition oneItemDefinition :=
  @canonicalHash_eq_iff twoShapesDigest itemsDefinition oneItemDefinition
    fun same => absurd same (by decide +kernel)

end PostgresSync.Shapes
