import PostgresSync.Pg.Queries
import PostgresSync.Shapes.RowIdentity

namespace PostgresSync.Pg

open PostgresSync.Data
open PostgresSync.Shapes

/-! The columns that a query selects, and the identity of the rows it returns. -/

structure Chosen (described taken : List DescribedColumn) : Prop where
  distinct : (taken.map (·.name)).Nodup
  included : ∀ column ∈ taken, column ∈ described

section Choice

variable {described taken : List DescribedColumn} {wanted : DescribedColumn → Bool}

theorem sameColumn (distinct : (described.map (·.name)).Nodup)
    {left right : DescribedColumn} (leftMember : left ∈ described)
    (rightMember : right ∈ described) (same : left.name = right.name) : left = right :=
  List.inj_on_of_nodup_map distinct leftMember rightMember same

theorem Chosen.takeUnseen (chosen : Chosen described taken) {column : DescribedColumn}
    (member : column ∈ described) : Chosen described (takeUnseen wanted taken column) := by
  unfold Pg.takeUnseen
  split
  · next added =>
      obtain ⟨-, unseen⟩ := Bool.and_eq_true_iff.mp added
      have fresh : column.name ∉ taken.map (·.name) := by
        rintro listed
        obtain ⟨other, known, same⟩ := List.mem_map.mp listed
        have seen : taken.any (fun other => other.name = column.name) = true :=
          List.any_eq_true.mpr ⟨other, known, decide_eq_true same⟩
        rw [seen] at unseen
        cases unseen
      constructor
      · rw [List.map_append]
        exact List.nodup_append.mpr ⟨chosen.distinct, List.nodup_singleton _, by
          rintro name listed _ last rfl
          obtain rfl := List.mem_singleton.mp last
          exact fresh listed⟩
      · intro other listed
        rcases List.mem_append.mp listed with known | last
        · exact chosen.included other known
        · exact List.mem_singleton.mp last ▸ member
  · exact chosen

theorem mem_takeUnseen (distinct : (described.map (·.name)).Nodup)
    (chosen : Chosen described taken) {column other : DescribedColumn}
    (member : column ∈ described) :
    other ∈ takeUnseen wanted taken column ↔
      other ∈ taken ∨ other = column ∧ wanted other = true := by
  unfold takeUnseen
  cases seen : taken.any (fun other => other.name = column.name) with
  | false =>
      cases asked : wanted column with
      | false =>
          refine ⟨.inl, ?_⟩
          rintro (known | ⟨rfl, own⟩)
          · exact known
          · exact absurd own (by simp [asked])
      | true =>
          rw [Bool.not_false, Bool.and_true, if_pos rfl, List.mem_append, List.mem_singleton]
          exact or_congr_right ⟨fun same => ⟨same, same ▸ asked⟩, And.left⟩
  | true =>
      obtain ⟨first, known, same⟩ := List.any_eq_true.mp seen
      rw [Bool.not_true, Bool.and_false, if_neg Bool.false_ne_true]
      refine ⟨.inl, ?_⟩
      rintro (known | ⟨rfl, -⟩)
      · exact known
      · rwa [← sameColumn distinct (chosen.included first known) member
          (of_decide_eq_true same)]

theorem foldl_takeUnseen (distinct : (described.map (·.name)).Nodup)
    (columns : List DescribedColumn) (included : ∀ column ∈ columns, column ∈ described)
    (chosen : Chosen described taken) :
    Chosen described (columns.foldl (takeUnseen wanted) taken) ∧
      ∀ other, other ∈ columns.foldl (takeUnseen wanted) taken ↔
        other ∈ taken ∨ other ∈ columns ∧ wanted other = true := by
  induction columns generalizing taken with
  | nil => exact ⟨chosen, fun other => by simp⟩
  | cons column rest hypothesis =>
      have member := included column List.mem_cons_self
      obtain ⟨kept, holds⟩ := hypothesis
        (fun other listed => included other (List.mem_cons_of_mem column listed))
        (chosen.takeUnseen member)
      refine ⟨kept, fun other => ?_⟩
      rw [List.foldl_cons, holds, mem_takeUnseen distinct chosen member, List.mem_cons, or_assoc,
        or_and_right]

theorem foldl_named (distinct : (described.map (·.name)).Nodup) (explicit : List String)
    (chosen : Chosen described taken) :
    Chosen described (explicit.foldl (fun columns name =>
        described.foldl (takeUnseen fun column => column.name = name) columns) taken) ∧
      ∀ other, other ∈ explicit.foldl (fun columns name =>
          described.foldl (takeUnseen fun column => column.name = name) columns) taken ↔
        other ∈ taken ∨ other ∈ described ∧ other.name ∈ explicit := by
  induction explicit generalizing taken with
  | nil => exact ⟨chosen, fun other => by simp⟩
  | cons name rest hypothesis =>
      obtain ⟨passed, named⟩ := @foldl_takeUnseen described taken
        (fun column => column.name = name) distinct described (fun _ => id) chosen
      obtain ⟨kept, holds⟩ := hypothesis passed
      refine ⟨kept, fun other => ?_⟩
      rw [List.foldl_cons, holds, named, List.mem_cons, or_assoc, and_or_left, decide_eq_true_iff]

variable (explicit : List String)

theorem chosen_projectedColumns (distinct : (described.map (·.name)).Nodup) :
    Chosen described (projectedColumns described explicit) := by
  unfold projectedColumns
  split
  · exact ⟨distinct, fun _ => id⟩
  · obtain ⟨named, -⟩ := foldl_named distinct explicit
      (⟨List.nodup_nil, fun _ listed => nomatch listed⟩ : Chosen described [])
    exact (foldl_takeUnseen distinct described (fun _ => id) named).1

theorem mem_projectedColumns (distinct : (described.map (·.name)).Nodup)
    {column : DescribedColumn} :
    column ∈ projectedColumns described explicit ↔
      column ∈ described ∧
        (explicit = [] ∨ column.name ∈ explicit ∨ column.pkIndex.isSome = true) := by
  unfold projectedColumns
  split
  · next all => simp [List.isEmpty_iff.mp all]
  · next some =>
      obtain ⟨named, asked⟩ := foldl_named distinct explicit
        (⟨List.nodup_nil, fun _ listed => nomatch listed⟩ : Chosen described [])
      dsimp only
      rw [(foldl_takeUnseen distinct described (fun _ => id) named).2, asked]
      have explicitly : explicit ≠ [] := fun none => some (List.isEmpty_iff.mpr none)
      simp only [List.not_mem_nil, false_or, explicitly]
      rw [← and_or_left]

end Choice

section Schema

variable {described columns : List DescribedColumn} {column : DescribedColumn} {name : String}

theorem getElem?_schemaForColumns (columns : List DescribedColumn) (name : String) :
    (schemaForColumns columns)[name]? =
      (columns.reverse.find? fun column => column.name = name).map columnSchema := by
  rw [schemaForColumns, Dict.getElem?_ofPairs, ← List.map_reverse, List.find?_map,
    Option.map_map]
  rfl

theorem schemaForColumns_named (distinct : (columns.map (·.name)).Nodup)
    (member : column ∈ columns) :
    (schemaForColumns columns)[column.name]? = some (columnSchema column) := by
  rw [getElem?_schemaForColumns]
  cases found : columns.reverse.find? (fun other => other.name = column.name) with
  | none =>
      exact absurd (decide_eq_true rfl)
        (List.find?_eq_none.mp found column (List.mem_reverse.mpr member))
  | some other =>
      have same : other.name = column.name := by simpa using List.find?_some found
      rw [sameColumn distinct (List.mem_reverse.mp (List.mem_of_find?_eq_some found)) member same]
      rfl

theorem schemaForColumns_unnamed (absent : name ∉ columns.map (·.name)) :
    (schemaForColumns columns)[name]? = none := by
  rw [getElem?_schemaForColumns, List.find?_eq_none.mpr]
  · rfl
  · intro column member same
    exact absent (List.mem_map.mpr
      ⟨column, List.mem_reverse.mp member, of_decide_eq_true same⟩)

theorem primaryKeyNames_schemaForColumns (distinct : (described.map (·.name)).Nodup)
    (chosen : Chosen described columns)
    (keyed : ∀ column ∈ described, column.pkIndex.isSome = true → column ∈ columns) :
    primaryKeyNames (schemaForColumns columns) = primaryKeyNames (schemaForColumns described) := by
  apply primaryKeyNames_congr
  intro name
  cases known : decide (name ∈ described.map (·.name)) with
  | false =>
      have absent := of_decide_eq_false known
      rw [schemaForColumns_unnamed absent, schemaForColumns_unnamed]
      intro listed
      obtain ⟨column, member, rfl⟩ := List.mem_map.mp listed
      exact absent (List.mem_map.mpr ⟨column, chosen.included column member, rfl⟩)
  | true =>
      obtain ⟨column, member, rfl⟩ := List.mem_map.mp (of_decide_eq_true known)
      rw [schemaForColumns_named distinct member]
      cases taken : decide (column.name ∈ columns.map (·.name)) with
      | true =>
          obtain ⟨other, listed, same⟩ := List.mem_map.mp (of_decide_eq_true taken)
          obtain rfl := sameColumn distinct (chosen.included other listed) member same
          rw [schemaForColumns_named chosen.distinct listed]
      | false =>
          have absent := of_decide_eq_false taken
          rw [schemaForColumns_unnamed absent]
          cases index : column.pkIndex with
          | none => exact index.symm
          | some _ =>
              have listed := keyed column member (by rw [index]; rfl)
              exact absurd (List.mem_map.mpr ⟨column, listed, rfl⟩) absent

theorem mem_primaryKeyNames_schemaForColumns (distinct : (described.map (·.name)).Nodup) :
    name ∈ primaryKeyNames (schemaForColumns described) ↔
      ∃ column ∈ described, column.pkIndex.isSome = true ∧ column.name = name := by
  rw [mem_primaryKeyNames]
  constructor
  · intro keyed
    cases known : decide (name ∈ described.map (·.name)) with
    | false =>
        rw [schemaForColumns_unnamed (of_decide_eq_false known)] at keyed
        cases keyed
    | true =>
        obtain ⟨column, member, rfl⟩ := List.mem_map.mp (of_decide_eq_true known)
        rw [schemaForColumns_named distinct member] at keyed
        exact ⟨column, member, keyed, rfl⟩
  · rintro ⟨column, member, keyed, rfl⟩
    rw [schemaForColumns_named distinct member]
    exact keyed

end Schema

section Rows

variable {described : List DescribedColumn} {explicit : List String} {name : String}

theorem getElem?_selectRow (columns : List DescribedColumn) (row : Row) (name : String) :
    (selectRow columns row)[name]? =
      if name ∈ columns.map (·.name) then some (row.getD name none) else none := by
  have names : (columns.map fun column => (column.name, row.getD column.name none)) =
      (columns.map (·.name)).map fun name => (name, row.getD name none) := by
    rw [List.map_map]
    rfl
  rw [selectRow, names, Dict.getElem?_ofPairs_names]

theorem primaryKeyNames_projectedColumns (distinct : (described.map (·.name)).Nodup) :
    primaryKeyNames (schemaForColumns (projectedColumns described explicit)) =
      primaryKeyNames (schemaForColumns described) :=
  primaryKeyNames_schemaForColumns distinct (chosen_projectedColumns explicit distinct)
    fun _ member index => (mem_projectedColumns explicit distinct).mpr ⟨member, .inr (.inr index)⟩

theorem keyText_selectRow (distinct : (described.map (·.name)).Nodup)
    (keyed : name ∈ primaryKeyNames (schemaForColumns described)) (row : Row) :
    keyText (selectRow (projectedColumns described explicit) row) name = keyText row name := by
  obtain ⟨column, member, index, rfl⟩ :=
    (mem_primaryKeyNames_schemaForColumns distinct).mp keyed
  have listed := (mem_projectedColumns explicit distinct).mpr ⟨member, .inr (.inr index)⟩
  rw [keyText, getElem?_selectRow, if_pos (List.mem_map.mpr ⟨column, listed, rfl⟩),
    Std.ExtTreeMap.getD_eq_getD_getElem?, keyText]
  cases row[column.name]? with
  | none => rfl
  | some value => cases value <;> rfl

theorem primaryKeyValues_selectRow (distinct : (described.map (·.name)).Nodup) (row : Row) :
    primaryKeyValues (schemaForColumns (projectedColumns described explicit))
        (selectRow (projectedColumns described explicit) row) =
      primaryKeyValues (schemaForColumns described) row := by
  rw [primaryKeyValues, primaryKeyNames_projectedColumns distinct]
  exact List.map_congr_left fun name keyed => keyText_selectRow distinct keyed row

/-- Projection leaves the identity of the rows alone. -/
theorem projection_keeps_identity (described : List DescribedColumn)
    (distinct : (described.map (·.name)).Nodup) (explicit : List String) :
    ((projectedColumns described explicit).map (·.name)).Nodup ∧
      (∀ column, column ∈ projectedColumns described explicit ↔
        column ∈ described ∧
          (explicit = [] ∨ column.name ∈ explicit ∨ column.pkIndex.isSome = true)) ∧
      ∀ (relation : Relation) (row : Row),
        Shapes.primaryKeySignature (schemaForColumns (projectedColumns described explicit))
            (selectRow (projectedColumns described explicit) row) =
          Shapes.primaryKeySignature (schemaForColumns described) row ∧
        messageKey relation (schemaForColumns (projectedColumns described explicit))
            (selectRow (projectedColumns described explicit) row) =
          messageKey relation (schemaForColumns described) row := by
  refine ⟨(chosen_projectedColumns explicit distinct).distinct,
    fun _ => mem_projectedColumns explicit distinct, fun relation row => ?_⟩
  have values := @primaryKeyValues_selectRow described explicit distinct row
  exact ⟨by rw [Shapes.primaryKeySignature, values, Shapes.primaryKeySignature],
    by rw [messageKey, values, messageKey]⟩

/-- A table whose key is declared against the order of its columns. -/
def pairsColumns : List DescribedColumn :=
  [⟨"a", "text", true, some 1⟩, ⟨"label", "text", false, none⟩, ⟨"b", "text", true, some 0⟩]

theorem projection_keeps_identity_pairs :
    (projectedColumns pairsColumns ["label", "missing", "label"]).map (·.name) =
        ["label", "a", "b"] ∧
      ((projectedColumns pairsColumns ["label", "missing", "label"]).map (·.name)).Nodup ∧
      messageKey ⟨"public", "pairs"⟩
          (schemaForColumns (projectedColumns pairsColumns ["label", "missing", "label"]))
          (selectRow (projectedColumns pairsColumns ["label", "missing", "label"])
            (pairRow "x" "y")) =
        messageKey ⟨"public", "pairs"⟩ (schemaForColumns pairsColumns) (pairRow "x" "y") := by
  obtain ⟨distinct, -, identity⟩ := projection_keeps_identity pairsColumns (by decide)
    ["label", "missing", "label"]
  exact ⟨by decide, distinct, (identity _ _).2⟩

end Rows

end PostgresSync.Pg
