import PostgresSync.Data.Quoted
import PostgresSync.Shapes.Definition
import PostgresSync.Shapes.Keys

namespace PostgresSync.Shapes

open PostgresSync.Data

/-! What the two texts made from the primary key of a row tell of the row. -/

section KeyColumns

variable {schema : Schema}

theorem primaryKeyNames_perm (schema : Schema) :
    (primaryKeyNames schema).Perm
      ((schema.toList.filter fun entry => entry.2.pkIndex.isSome).map (·.1)) := by
  have chosen : ∀ entries : List (String × ColumnSchema),
      (entries.filterMap fun entry => entry.2.pkIndex.map fun index =>
        (index, entry.1)).map (·.2) =
          (entries.filter fun entry => entry.2.pkIndex.isSome).map (·.1) := by
    intro entries
    induction entries with
    | nil => rfl
    | cons entry rest hypothesis =>
        cases indexed : entry.2.pkIndex with
        | none =>
            rw [List.filterMap_cons_none (by simp [indexed]),
              List.filter_cons_of_neg (by simp [indexed]), hypothesis]
        | some index =>
            rw [List.filterMap_cons_some (by rw [indexed]; rfl),
              List.filter_cons_of_pos (by simp [indexed]), List.map_cons, List.map_cons,
              hypothesis]
  rw [← chosen]
  exact (List.perm_insertionSort _ _).map _

theorem mem_primaryKeyNames {name : String} :
    name ∈ primaryKeyNames schema ↔ (schema[name]?.bind (·.pkIndex)).isSome = true := by
  rw [(primaryKeyNames_perm schema).mem_iff, List.mem_map]
  constructor
  · intro ⟨entry, member, same⟩
    obtain ⟨listed, indexed⟩ := List.mem_filter.mp member
    rw [← same, Std.ExtTreeMap.mem_toList_iff_getElem?_eq_some.mp listed]
    exact indexed
  · intro keyed
    obtain ⟨index, found⟩ := Option.isSome_iff_exists.mp keyed
    obtain ⟨column, held, indexed⟩ := Option.bind_eq_some_iff.mp found
    refine ⟨(name, column), List.mem_filter.mpr ⟨?_, by simp [indexed]⟩, rfl⟩
    exact Std.ExtTreeMap.mem_toList_iff_getElem?_eq_some.mpr held

theorem primaryKeyNames_nodup (schema : Schema) : (primaryKeyNames schema).Nodup := by
  have names : (schema.toList.map (·.1)).Nodup := by
    rw [List.Nodup, List.pairwise_map]
    exact Std.ExtTreeMap.distinct_keys_toList.imp fun different equal =>
      different (by simp [equal])
  rw [(primaryKeyNames_perm schema).nodup_iff]
  exact names.sublist (List.filter_sublist.map _)

theorem primaryKeyNames_congr {left right : Schema}
    (same : ∀ name : String, left[name]?.bind (·.pkIndex) = right[name]?.bind (·.pkIndex)) :
    primaryKeyNames left = primaryKeyNames right := by
  have pairs (schema : Schema) :
      (schema.toList.filterMap fun entry => entry.2.pkIndex.map fun index => (index, entry.1)) =
        (Std.ExtTreeMap.filterMap (fun _ column => column.pkIndex) schema).toList.map
          Prod.swap := by
    rw [Std.ExtTreeMap.toList_filterMap, List.map_filterMap]
    congr 1
    funext entry
    cases entry.2.pkIndex <;> rfl
  have indexes : Std.ExtTreeMap.filterMap (fun _ column => column.pkIndex) left =
      Std.ExtTreeMap.filterMap (fun _ column => column.pkIndex) right := by
    refine Std.ExtTreeMap.ext_getElem? fun name => ?_
    have agree := same name
    simp only [Std.ExtTreeMap.getElem?_filterMap]
    cases leftFound : left[name]? <;> cases rightFound : right[name]? <;>
      simp_all
  rw [primaryKeyNames, primaryKeyNames, pairs, pairs, indexes]

end KeyColumns

def KeyComplete (schema : Schema) (row : Row) : Prop :=
  ∀ name ∈ primaryKeyNames schema, ∃ text, row[name]? = some (some text)

def SameKey (schema : Schema) (left right : Row) : Prop :=
  ∀ name ∈ primaryKeyNames schema, left[name]? = right[name]?

variable {schema : Schema} {left right : Row}

theorem KeyComplete.sameKey_iff (complete : KeyComplete schema left)
    (completed : KeyComplete schema right) :
    SameKey schema left right ↔
      primaryKeyValues schema left = primaryKeyValues schema right := by
  rw [primaryKeyValues, primaryKeyValues, List.map_inj_left]
  refine forall₂_congr fun name member => ?_
  obtain ⟨text, found⟩ := complete name member
  obtain ⟨other, known⟩ := completed name member
  simp [keyText, found, known]

/-- The text of the primary key is that of this key only, and is not the empty text, which
stands for no key. -/
structure FaithfulKey (schema : Schema) (row : Row) : Prop where
  own : ∀ other : Row, KeyComplete schema other →
    (primaryKeySignature schema row = primaryKeySignature schema other ↔
      SameKey schema row other)
  shown : primaryKeySignature schema row ≠ ""

theorem toList_primaryKeySignature (schema : Schema) (row : Row) :
    (primaryKeySignature schema row).toList =
      ['\x1f'].intercalate ((primaryKeyValues schema row).map String.toList) := by
  rw [primaryKeySignature, String.toList_intercalate]
  rfl

theorem primaryKeySignature_eq_iff :
    primaryKeySignature schema left = primaryKeySignature schema right ↔
      ['\x1f'].intercalate ((primaryKeyValues schema left).map String.toList) =
        ['\x1f'].intercalate ((primaryKeyValues schema right).map String.toList) := by
  rw [← String.toList_inj, toList_primaryKeySignature, toList_primaryKeySignature]

theorem map_toList_injective : Function.Injective (List.map String.toList) :=
  List.map_injective_iff.mpr fun _ _ => String.toList_inj.mp

theorem length_primaryKeyValues (schema : Schema) (row : Row) :
    (primaryKeyValues schema row).length = (primaryKeyNames schema).length := by
  simp [primaryKeyValues]

theorem primaryKeyValues_eq_of_signature (clean : 1 < (primaryKeyNames schema).length →
      ∀ value ∈ primaryKeyValues schema left, '\x1f' ∉ value.toList)
    (equal : primaryKeySignature schema left = primaryKeySignature schema right) :
    primaryKeyValues schema left = primaryKeyValues schema right := by
  have lengths : (primaryKeyValues schema left).length =
      (primaryKeyValues schema right).length := by
    rw [length_primaryKeyValues, length_primaryKeyValues]
  have lists : (primaryKeyValues schema left).map String.toList =
      (primaryKeyValues schema right).map String.toList := by
    rw [primaryKeySignature_eq_iff] at equal
    rcases Nat.lt_or_ge 1 (primaryKeyNames schema).length with several | single
    · refine intercalate_inj ?_ (by simpa using lengths) equal
      intro value member
      obtain ⟨text, listed, rfl⟩ := List.mem_map.mp member
      exact clean several text listed
    · rw [← length_primaryKeyValues schema left] at single
      rcases Nat.le_one_iff_eq_zero_or_eq_one.mp single with empty | single
      · rw [List.eq_nil_of_length_eq_zero empty,
          List.eq_nil_of_length_eq_zero (lengths.symm.trans empty)]
      · obtain ⟨first, leftValues⟩ := List.length_eq_one_iff.mp single
        obtain ⟨second, rightValues⟩ := List.length_eq_one_iff.mp (lengths.symm.trans single)
        rw [leftValues, rightValues] at equal ⊢
        simpa using equal
  exact map_toList_injective lists

def keyRow (schema : Schema) (texts : List String) : Row :=
  Dict.ofPairs ((primaryKeyNames schema).zip (texts.map some))

theorem primaryKeyValues_keyRow {texts : List String}
    (all : texts.length = (primaryKeyNames schema).length) :
    KeyComplete schema (keyRow schema texts) ∧
      primaryKeyValues schema (keyRow schema texts) = texts := by
  have names : ((primaryKeyNames schema).zip (texts.map some)).map (·.1) =
      primaryKeyNames schema := by
    rw [List.map_fst_zip]
    simp [all]
  have found : ∀ pair ∈ (primaryKeyNames schema).zip (texts.map some),
      (keyRow schema texts)[pair.1]? = some pair.2 := by
    intro pair member
    exact Dict.getElem?_ofPairs_of_mem (by rw [names]; exact primaryKeyNames_nodup schema) member
  constructor
  · intro name member
    rw [← names] at member
    obtain ⟨pair, listed, rfl⟩ := List.mem_map.mp member
    have held := found pair listed
    obtain ⟨text, -, same⟩ := List.mem_map.mp (List.of_mem_zip listed).2
    exact ⟨text, by rw [held, ← same]⟩
  · apply List.ext_getElem
    · simp [primaryKeyValues, all]
    · intro index below bound
      have inside : index < (primaryKeyNames schema).length := by omega
      have held := found ((primaryKeyNames schema)[index], some texts[index]) (by
        rw [List.mem_iff_getElem]
        exact ⟨index, by simp [inside, bound], by simp⟩)
      simp only [primaryKeyValues, List.getElem_map, keyText]
      rw [held]

/-- The key is one text that is not empty, or several texts without the separator. -/
def PlainKey (schema : Schema) (row : Row) : Prop :=
  ((primaryKeyNames schema).length = 1 →
      ∀ name ∈ primaryKeyNames schema, keyText row name ≠ "") ∧
    (1 < (primaryKeyNames schema).length →
      ∀ name ∈ primaryKeyNames schema, '\x1f' ∉ (keyText row name).toList)

section Faithful

variable {schema : Schema} {row : Row}

theorem PlainKey.clean (plain : PlainKey schema row)
    (several : 1 < (primaryKeyNames schema).length) :
    ∀ value ∈ primaryKeyValues schema row, '\x1f' ∉ value.toList := by
  intro value member
  obtain ⟨name, key, rfl⟩ := List.mem_map.mp member
  exact plain.2 several name key

theorem primaryKeySignature_of_single {name : String} (alone : primaryKeyNames schema = [name])
    (row : Row) : primaryKeySignature schema row = keyText row name := by
  simp [primaryKeySignature, primaryKeyValues, alone]

theorem primaryKeySignature_ne_empty (several : 1 < (primaryKeyNames schema).length) :
    primaryKeySignature schema row ≠ "" := by
  intro empty
  have counted := length_le_count_intercalate '\x1f'
    ((primaryKeyValues schema row).map String.toList)
  rw [← toList_primaryKeySignature, empty, List.length_map, length_primaryKeyValues] at counted
  simp at counted
  omega

theorem PlainKey.faithful (plain : PlainKey schema row) (complete : KeyComplete schema row)
    (keyed : primaryKeyNames schema ≠ []) : FaithfulKey schema row where
  own := by
    intro other completed
    rw [complete.sameKey_iff completed]
    constructor
    · exact primaryKeyValues_eq_of_signature plain.clean
    · intro equal
      rw [primaryKeySignature, primaryKeySignature, equal]
  shown := by
    rcases Nat.lt_or_ge 1 (primaryKeyNames schema).length with several | single
    · exact primaryKeySignature_ne_empty several
    · have one : (primaryKeyNames schema).length = 1 :=
        le_antisymm single (List.length_pos_of_ne_nil keyed)
      obtain ⟨name, alone⟩ := List.length_eq_one_iff.mp one
      rw [primaryKeySignature_of_single alone]
      exact plain.1 one name (by simp [alone])

theorem FaithfulKey.plain (faithful : FaithfulKey schema row)
    (complete : KeyComplete schema row) : PlainKey schema row := by
  refine ⟨?_, ?_⟩
  · intro one name member empty
    obtain ⟨only, alone⟩ := List.length_eq_one_iff.mp one
    obtain rfl : name = only := by simpa [alone] using member
    apply faithful.shown
    rw [primaryKeySignature_of_single alone, empty]
  · intro several name member inside
    -- a separator inside a value can be taken for the one beside it
    have present : ∃ value ∈ (primaryKeyValues schema row).map String.toList,
        '\x1f' ∈ value :=
      ⟨_, List.mem_map_of_mem (List.mem_map_of_mem member), inside⟩
    obtain ⟨others, lengths, different, same⟩ := exists_intercalate_eq
      (by simpa [length_primaryKeyValues] using Nat.succ_le_of_lt several) present
    obtain ⟨completed, valued⟩ := @primaryKeyValues_keyRow schema (others.map String.ofList)
      (by simpa [length_primaryKeyValues] using lengths)
    have shown : (others.map String.ofList).map String.toList = others := by
      simp [Function.comp_def]
    have equal : primaryKeySignature schema row =
        primaryKeySignature schema (keyRow schema (others.map String.ofList)) := by
      rw [primaryKeySignature_eq_iff, valued, shown, same]
    have agree := (complete.sameKey_iff completed).mp ((faithful.own _ completed).mp equal)
    apply different
    rw [agree, valued, shown]

end Faithful

/-- A key is told from all others by its signature, and its signature is not empty, exactly
when the key is one text that is not empty or several texts without the separator. -/
theorem faithfulKey_iff {schema : Schema} {row : Row} (keyed : primaryKeyNames schema ≠ [])
    (complete : KeyComplete schema row) : FaithfulKey schema row ↔ PlainKey schema row :=
  ⟨fun faithful => faithful.plain complete, fun plain => plain.faithful complete keyed⟩

instance (schema : Schema) (left right : Row) : Decidable (SameKey schema left right) :=
  inferInstanceAs (Decidable (∀ name ∈ _, _))

instance (schema : Schema) (row : Row) : Decidable (PlainKey schema row) :=
  inferInstanceAs (Decidable (_ ∧ _))

instance (schema : Schema) (row : Row) : Decidable (KeyComplete schema row) :=
  decidable_of_iff (∀ name ∈ primaryKeyNames schema, (row[name]?.join).isSome = true) <| by
    refine forall₂_congr fun name _ => ?_
    rw [Option.isSome_iff_exists]
    simp only [Option.join_eq_some_iff]

def pairsSchema : Schema :=
  Dict.ofPairs [("a", ⟨"text", true, some 0⟩), ("b", ⟨"text", true, some 1⟩)]

def pairRow (a b : String) : Row :=
  Dict.ofPairs [("a", some a), ("b", some b)]

theorem faithfulKey_pairRow :
    FaithfulKey itemsSchema (itemRow "1" "one") ∧ FaithfulKey pairsSchema (pairRow "x" "y") :=
  ⟨(faithfulKey_iff (by decide +kernel) (by decide +kernel)).mpr (by decide +kernel),
    (faithfulKey_iff (by decide +kernel) (by decide +kernel)).mpr (by decide +kernel)⟩

/-- The empty text is the signature of a key, and two keys of two columns have one
signature. -/
theorem signatures_not_faithful :
    primaryKeySignature itemsSchema (itemRow "" "none") = "" ∧
      primaryKeySignature pairsSchema (pairRow "x\x1fy" "z") =
        primaryKeySignature pairsSchema (pairRow "x" "y\x1fz") ∧
      ¬FaithfulKey itemsSchema (itemRow "" "none") ∧
      ¬FaithfulKey pairsSchema (pairRow "x\x1fy" "z") := by
  refine ⟨by decide +kernel, by decide +kernel, fun faithful => ?_, fun faithful => ?_⟩
  · exact faithful.shown (by decide +kernel)
  · have agree := (faithful.own (pairRow "x" "y\x1fz") (by decide +kernel)).mp
      (by decide +kernel)
    exact absurd (agree "a" (by decide +kernel)) (by decide +kernel)

/-! The key that a client sees. -/

theorem toList_quoteWith (escape : List Char) (value : String) :
    (quoteWith escape value).toList = '"' :: replaceQuotes escape value.toList ++ ['"'] := by
  rw [quoteWith, String.toList_ofList]
  rfl

theorem toList_quoteQualifiedRelation (relation : Relation) :
    (quoteQualifiedRelation relation).toList =
      '"' :: replaceQuotes ['"', '"'] relation.schema.toList ++ '"' :: '.' :: '"' ::
        (replaceQuotes ['"', '"'] relation.table.toList ++ ['"']) := by
  simp [quoteQualifiedRelation, quoteIdentifier, toList_quoteWith]

theorem intercalate_quoteKeyValue {values : List String} (some : values ≠ []) :
    ['/'].intercalate ((values.map quoteKeyValue).map String.toList) =
      '"' :: quotedRest (values.map String.toList) := by
  induction values with
  | nil => exact absurd rfl some
  | cons value rest hypothesis =>
      have own : (quoteKeyValue value).toList =
          '"' :: escapeQuotes value.toList ++ ['"'] := toList_quoteWith _ value
      cases rest with
      | nil => simp [own, quotedRest]
      | cons next rest =>
          rw [List.map_cons, List.map_cons, intercalate_cons (by simp),
            hypothesis (by simp), own]
          simp [quotedRest]

theorem toList_messageKey (relation : Relation) {schema : Schema} (row : Row)
    (keyed : primaryKeyNames schema ≠ []) :
    (messageKey relation schema row).toList =
      '"' :: replaceQuotes ['"', '"'] relation.schema.toList ++ '"' :: '.' :: '"' ::
        (replaceQuotes ['"', '"'] relation.table.toList ++ '"' :: '/' :: '"' ::
          quotedRest ((primaryKeyValues schema row).map String.toList)) := by
  have some : primaryKeyValues schema row ≠ [] := by
    simpa [primaryKeyValues] using keyed
  have shown : (primaryKeyValues schema row).isEmpty = false := by
    simpa using some
  rw [messageKey, shown, if_neg Bool.false_ne_true, String.toList_intercalate, List.map_cons]
  show ['/'].intercalate _ = _
  rw [intercalate_cons (by simpa using some), intercalate_quoteKeyValue some,
    toList_quoteQualifiedRelation]
  simp

theorem messageKey_parts {left right : Relation} {leftSchema rightSchema : Schema}
    {leftRow rightRow : Row} (leftKeyed : primaryKeyNames leftSchema ≠ [])
    (rightKeyed : primaryKeyNames rightSchema ≠ [])
    (same : messageKey left leftSchema leftRow = messageKey right rightSchema rightRow) :
    left = right ∧
      quotedRest ((primaryKeyValues leftSchema leftRow).map String.toList) =
        quotedRest ((primaryKeyValues rightSchema rightRow).map String.toList) := by
  have texts := congrArg String.toList same
  rw [toList_messageKey left leftRow leftKeyed, toList_messageKey right rightRow rightKeyed,
    List.cons_append, List.cons_append] at texts
  obtain ⟨schemas, afterSchema⟩ := doubled_inj (by simp) (by simp) (List.cons.inj texts).2
  obtain ⟨tables, afterTable⟩ := doubled_inj (by simp) (by simp)
    (List.cons.inj (List.cons.inj afterSchema).2).2
  refine ⟨?_, (List.cons.inj (List.cons.inj afterTable).2).2⟩
  cases left
  cases right
  rw [Relation.mk.injEq]
  exact ⟨String.toList_inj.mp schemas, String.toList_inj.mp tables⟩

theorem primaryKeyValues_eq_of_messageKey {relation : Relation} {schema : Schema}
    {left right : Row} (keyed : primaryKeyNames schema ≠ [])
    (same : messageKey relation schema left = messageKey relation schema right) :
    primaryKeyValues schema left = primaryKeyValues schema right :=
  map_toList_injective (quotedRest_inj (messageKey_parts keyed keyed same).2)

/-- One client key comes from one relation and one list of key values, whatever quotes,
backslashes and slashes these hold. -/
theorem messageKey_unambiguous {left right : Relation} {leftSchema rightSchema : Schema}
    {leftRow rightRow : Row} (leftKeyed : primaryKeyNames leftSchema ≠ [])
    (rightKeyed : primaryKeyNames rightSchema ≠ [])
    (same : messageKey left leftSchema leftRow = messageKey right rightSchema rightRow) :
    left = right ∧
      primaryKeyValues leftSchema leftRow = primaryKeyValues rightSchema rightRow := by
  obtain ⟨relations, texts⟩ := messageKey_parts leftKeyed rightKeyed same
  exact ⟨relations, map_toList_injective (quotedRest_inj texts)⟩

theorem messageKey_unambiguous_backslash :
    messageKey ⟨"public", "pairs"⟩ pairsSchema (pairRow "\\" "/") =
        "\"public\".\"pairs\"/\"\\\"/\"/\"" ∧
      primaryKeyValues pairsSchema (pairRow "\\" "/") =
        primaryKeyValues pairsSchema ((pairRow "\\" "/").insert "note" (some "x")) :=
  ⟨by decide +kernel,
    (@messageKey_unambiguous ⟨"public", "pairs"⟩ ⟨"public", "pairs"⟩ _ _ _ _
      (by decide +kernel) (by decide +kernel) (by decide +kernel)).2⟩

end PostgresSync.Shapes
