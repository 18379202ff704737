import Mathlib

namespace PostgresSync.Data

/-! String-keyed finite maps and sets.  They are extensional, and their key
order is the lexicographic order of strings. -/

abbrev Dict (α : Type u) := Std.ExtTreeMap String α compare

abbrev StringSet := Std.ExtTreeSet String compare

namespace Dict

def ofPairs (pairs : List (String × α)) : Dict α :=
  Std.ExtTreeMap.ofList pairs compare

@[simp] theorem getElem?_insert (dict : Dict α) (key other : String)
    (value : α) :
    (dict.insert key value)[other]? =
      if key = other then some value else dict[other]? := by
  simp [Std.ExtTreeMap.getElem?_insert]

@[simp] theorem getElem?_erase (dict : Dict α) (key other : String) :
    (dict.erase key)[other]? =
      if key = other then none else dict[other]? := by
  simp [Std.ExtTreeMap.getElem?_erase]

variable {pairs : List (String × α)} {key : String} {items : List β} {name : β → String}
  {dict : Dict α}

theorem getElem?_ofPairs_of_mem (distinct : (pairs.map (·.1)).Nodup) {value : α}
    (member : (key, value) ∈ pairs) : (ofPairs pairs)[key]? = some value := by
  refine Std.ExtTreeMap.getElem?_ofList_of_mem (by simp) ?_ member
  rw [List.Nodup, List.pairwise_map] at distinct
  exact distinct.imp fun different equal => different (by simpa using equal)

theorem getElem?_ofPairs_of_not_mem (absent : key ∉ pairs.map (·.1)) :
    (ofPairs pairs)[key]? = none := by
  refine Std.ExtTreeMap.getElem?_ofList_of_contains_eq_false ?_
  simpa using absent

theorem getElem?_ofPairs_map (distinct : (items.map name).Nodup) (value : β → α) {item : β}
    (member : item ∈ items) :
    (ofPairs (items.map fun item => (name item, value item)))[name item]? =
      some (value item) := by
  refine getElem?_ofPairs_of_mem ?_
    (List.mem_map_of_mem (f := fun item => (name item, value item)) member)
  simpa [Function.comp_def] using distinct

theorem mem_ofPairs_map (distinct : (items.map name).Nodup) (value : β → α) {item : β}
    (member : item ∈ items) :
    name item ∈ ofPairs (items.map fun item => (name item, value item)) := by
  rw [Std.ExtTreeMap.mem_iff_isSome_getElem?, getElem?_ofPairs_map distinct value member]
  rfl

theorem ofPairs_toList (dict : Dict α) : ofPairs dict.toList = dict := by
  refine Std.ExtTreeMap.ext_getElem? fun key => ?_
  have distinct : (dict.toList.map (·.1)).Nodup := by
    rw [List.Nodup, List.pairwise_map]
    exact Std.ExtTreeMap.distinct_keys_toList.imp fun different equal =>
      different (by simp [equal])
  cases found : dict[key]? with
  | none =>
      refine getElem?_ofPairs_of_not_mem fun member => ?_
      obtain ⟨entry, listed, rfl⟩ := List.mem_map.mp member
      rw [Std.ExtTreeMap.mem_toList_iff_getElem?_eq_some.mp listed] at found
      cases found
  | some value =>
      exact getElem?_ofPairs_of_mem distinct
        (Std.ExtTreeMap.mem_toList_iff_getElem?_eq_some.mpr found)

theorem ofPairs_map_eq_iff (distinct : (items.map name).Nodup) (left right : β → α) :
    ofPairs (items.map fun item => (name item, left item)) =
        ofPairs (items.map fun item => (name item, right item)) ↔
      ∀ item ∈ items, left item = right item := by
  constructor
  · intro equal item member
    have leftValue := getElem?_ofPairs_map distinct left member
    rw [equal, getElem?_ofPairs_map distinct right member] at leftValue
    exact (Option.some.inj leftValue).symm
  · intro agree
    congr 1
    exact List.map_congr_left fun item member => by rw [agree item member]

theorem getElem?_foldl_insert_last (items : List β) (name : β → String) (value : β → α)
    (dict : Dict α) (key : String) :
    (items.foldl (fun dict item => dict.insert (name item) (value item)) dict)[key]? =
      ((items.reverse.find? fun item => name item = key).map value).or dict[key]? := by
  induction items generalizing dict with
  | nil => simp
  | cons item rest hypothesis =>
      rw [List.foldl_cons, hypothesis, List.reverse_cons, List.find?_append, Option.map_or,
        Option.or_assoc, getElem?_insert]
      congr 1
      by_cases same : name item = key <;> simp [same]

theorem getElem?_ofPairs (pairs : List (String × α)) (key : String) :
    (ofPairs pairs)[key]? = (pairs.reverse.find? fun pair => pair.1 = key).map (·.2) := by
  have inserted : ∀ (pairs : List (String × α)) (dict : Dict α), dict.insertMany pairs =
      pairs.foldl (fun dict pair => dict.insert pair.1 pair.2) dict := by
    intro pairs
    induction pairs with
    | nil =>
        intro dict
        exact Std.ExtTreeMap.insertMany_nil
    | cons pair rest hypothesis =>
        intro dict
        rw [Std.ExtTreeMap.insertMany_cons, hypothesis, List.foldl_cons]
  rw [ofPairs, Std.ExtTreeMap.ofList_eq_insertMany_empty, inserted,
    getElem?_foldl_insert_last pairs (·.1) (·.2)]
  simp

theorem forall_ofPairs {holds : α → Prop} (all : ∀ pair ∈ pairs, holds pair.2) (key : String)
    (value : α)
    (found : (ofPairs pairs)[key]? = some value) : holds value := by
  rw [getElem?_ofPairs] at found
  obtain ⟨pair, first, rfl⟩ := Option.map_eq_some_iff.mp found
  exact all pair (List.mem_reverse.mp (List.mem_of_find?_eq_some first))

theorem getElem?_ofPairs_names (names : List String) (value : String → α) (name : String) :
    (ofPairs (names.map fun name => (name, value name)))[name]? =
      if name ∈ names then some (value name) else none := by
  rw [getElem?_ofPairs, ← List.map_reverse, List.find?_map, Option.map_map]
  split
  · next member =>
      obtain ⟨found, first⟩ := Option.isSome_iff_exists.mp
        (List.find?_isSome.mpr ⟨name, List.mem_reverse.mpr member, decide_eq_true rfl⟩ :
          ((names.reverse.find? fun other => decide (other = name)).isSome = true))
      have same := List.find?_some first
      simp only [Function.comp_def]
      rw [first, Option.map_some, decide_eq_true_iff.mp same]
  · next absent =>
      rw [Option.map_eq_none_iff, List.find?_eq_none]
      intro other member same
      exact absent (of_decide_eq_true same ▸ List.mem_reverse.mp member)

theorem getElem?_foldl_insert {value : β → α} (distinct : (items.map name).Nodup)
    (dict : Dict α) (key : String) :
    (items.foldl (fun dict item => dict.insert (name item) (value item)) dict)[key]? =
      ((items.find? fun item => name item = key).map value).or dict[key]? := by
  induction items generalizing dict with
  | nil => simp
  | cons item rest hypothesis =>
      rw [List.map_cons, List.nodup_cons] at distinct
      rw [List.foldl_cons, hypothesis distinct.2, List.find?_cons, getElem?_insert]
      by_cases same : name item = key
      · have absent : rest.find? (fun item => name item = key) = none := by
          refine List.find?_eq_none.mpr fun other member equal => distinct.1 ?_
          rw [same, ← of_decide_eq_true equal]
          exact List.mem_map_of_mem member
        simp [same, absent]
      · simp [same]

theorem values_eq (dict : Dict α) : dict.values = dict.toList.map (·.2) := by
  obtain ⟨inner⟩ := dict
  induction inner using Std.ExtDTreeMap.inductionOn with
  | mk tree =>
      show tree.inner.values =
        (Std.DTreeMap.Internal.Impl.Const.toList tree.inner).map (·.2)
      rw [Std.DTreeMap.Internal.Impl.values_eq_map_snd,
        Std.DTreeMap.Internal.Impl.Const.toList_eq_toListModel_map]
      simp

theorem mem_values {value : α} :
    value ∈ dict.values ↔ ∃ key : String, dict[key]? = some value := by
  rw [values_eq, List.mem_map]
  constructor
  · rintro ⟨⟨key, value⟩, member, rfl⟩
    exact ⟨key, Std.ExtTreeMap.mem_toList_iff_getElem?_eq_some.mp member⟩
  · rintro ⟨key, found⟩
    exact ⟨(key, value), Std.ExtTreeMap.mem_toList_iff_getElem?_eq_some.mpr found, rfl⟩

@[simp] theorem getD_insert (dict : Dict α) (key other : String)
    (value fallback : α) :
    Std.ExtTreeMap.getD (dict.insert key value) other fallback =
      if key = other then value else Std.ExtTreeMap.getD dict other fallback := by
  simp [Std.ExtTreeMap.getD_insert]

@[simp] theorem getD_erase (dict : Dict α) (key other : String) (fallback : α) :
    Std.ExtTreeMap.getD (dict.erase key) other fallback =
      if key = other then fallback else Std.ExtTreeMap.getD dict other fallback := by
  simp [Std.ExtTreeMap.getD_erase]

theorem getD_of_getElem? {value : α} (found : dict[key]? = some value) (fallback : α) :
    Std.ExtTreeMap.getD dict key fallback = value := by
  rw [Std.ExtTreeMap.getD_eq_getD_getElem?, found]
  rfl

theorem mem_iff_exists :
    key ∈ dict ↔ ∃ value, dict[key]? = some value := by
  rw [Std.ExtTreeMap.mem_iff_isSome_getElem?, Option.isSome_iff_exists]

theorem toList_insert_of_mem (known : key ∈ dict) (value : α) :
    (dict.insert key value).toList =
      dict.toList.map fun entry => if entry.1 = key then (key, value) else entry := by
  have irreflexive : Std.Irrefl fun left right : String × α => compare left.1 right.1 = .lt :=
    ⟨fun entry below => by simp at below⟩
  have antisymmetric : Std.Antisymm fun left right : String × α => compare left.1 right.1 = .lt :=
    ⟨fun left right below above => by
      rw [compare_lt_iff_lt] at below above
      exact absurd above below.not_gt⟩
  have ordered : (dict.toList.map fun entry =>
      if entry.1 = key then (key, value) else entry).Pairwise
        fun left right => compare left.1 right.1 = .lt := by
    have firsts : ∀ entry : String × α,
        (if entry.1 = key then (key, value) else entry).1 = entry.1 := by
      intro entry
      split
      · next same => exact same.symm
      · rfl
    rw [List.pairwise_map]
    simp only [firsts]
    exact Std.ExtTreeMap.ordered_keys_toList
  apply List.Pairwise.eq_of_mem_iff Std.ExtTreeMap.ordered_keys_toList ordered
  intro entry
  obtain ⟨other, held⟩ := entry
  rw [Std.ExtTreeMap.mem_toList_iff_getElem?_eq_some, getElem?_insert, List.mem_map]
  obtain ⟨old, present⟩ := mem_iff_exists.mp known
  constructor
  · intro found
    split at found
    · next same =>
        subst same
        refine ⟨(key, old), Std.ExtTreeMap.mem_toList_iff_getElem?_eq_some.mpr present, ?_⟩
        rw [if_pos rfl, Option.some.inj found]
    · next apart =>
        refine ⟨(other, held), Std.ExtTreeMap.mem_toList_iff_getElem?_eq_some.mpr found, ?_⟩
        exact if_neg fun same => apart same.symm
  · intro ⟨origin, member, made⟩
    split at made
    · obtain ⟨rfl, rfl⟩ := Prod.mk.inj made
      exact if_pos rfl
    · next apart =>
        subst made
        rw [if_neg fun same => apart same.symm]
        exact Std.ExtTreeMap.mem_toList_iff_getElem?_eq_some.mp member

instance decidableForall (dict : Dict α) (holds : String → α → Prop)
    [∀ key value, Decidable (holds key value)] :
    Decidable (∀ key value, dict[key]? = some value → holds key value) :=
  decidable_of_iff (∀ entry ∈ dict.toList, holds entry.1 entry.2) <| by
    constructor
    · intro all key value found
      exact all (key, value) (Std.ExtTreeMap.mem_toList_iff_getElem?_eq_some.mpr found)
    · intro every entry member
      exact every entry.1 entry.2 (Std.ExtTreeMap.mem_toList_iff_getElem?_eq_some.mp member)

theorem nodup_keys_toList (dict : Dict α) : (dict.toList.map (·.1)).Nodup := by
  rw [List.Nodup, List.pairwise_map]
  exact Std.ExtTreeMap.distinct_keys_toList.imp fun different equal => different (by simp [equal])

theorem getElem?_filter (dict : Dict α) (keep : String → α → Bool) (key : String) :
    (Std.ExtTreeMap.filter keep dict)[key]? = dict[key]?.filter (keep key) := by
  cases found : dict[key]? <;> simp [Std.ExtTreeMap.getElem?_filter, found]

theorem getElem?_alter (dict : Dict α) (key other : String) (change : Option α → Option α) :
    (Std.ExtTreeMap.alter dict key change)[other]? =
      if key = other then change dict[key]? else dict[other]? := by
  simp [Std.ExtTreeMap.getElem?_alter]

section Alterations

variable {change : β → Option α → Option α}

theorem getElem?_foldl_alter_of_ne (dict : Dict α) {key : String}
    (absent : ∀ item ∈ items, name item ≠ key) :
    (items.foldl (fun dict item => Std.ExtTreeMap.alter dict (name item) (change item))
      dict)[key]? = dict[key]? := by
  induction items generalizing dict with
  | nil => rfl
  | cons first rest hypothesis =>
      rw [List.foldl_cons, hypothesis _ fun item member =>
        absent item (List.mem_cons_of_mem first member), getElem?_alter,
        if_neg (absent first List.mem_cons_self)]

theorem getElem?_foldl_alter (distinct : (items.map name).Nodup) (dict : Dict α) {item : β}
    (member : item ∈ items) :
    (items.foldl (fun dict item => Std.ExtTreeMap.alter dict (name item) (change item))
      dict)[name item]? = change item dict[name item]? := by
  induction items generalizing dict with
  | nil => cases member
  | cons first rest hypothesis =>
      rw [List.map_cons, List.nodup_cons] at distinct
      rw [List.foldl_cons]
      rcases List.mem_cons.mp member with rfl | later
      · rw [getElem?_foldl_alter_of_ne, getElem?_alter, if_pos rfl]
        intro other listed same
        exact distinct.1 (List.mem_map.mpr ⟨other, listed, same⟩)
      · have different : name first ≠ name item := by
          intro same
          exact distinct.1 (List.mem_map.mpr ⟨item, later, same.symm⟩)
        rw [hypothesis distinct.2 _ later, getElem?_alter, if_neg different]

end Alterations

end Dict

namespace StringSet

@[simp] theorem mem_insert (set : StringSet) (member other : String) :
    other ∈ Std.ExtTreeSet.insert set member ↔ member = other ∨ other ∈ set := by
  simp [Std.ExtTreeSet.mem_insert]

@[simp] theorem mem_erase (set : StringSet) (member other : String) :
    other ∈ Std.ExtTreeSet.erase set member ↔ member ≠ other ∧ other ∈ set := by
  simp [Std.ExtTreeSet.mem_erase]

theorem not_mem_of_isEmpty {set : StringSet} (empty : Std.ExtTreeSet.isEmpty set = true)
    (other : String) : other ∉ set := by
  have nothing : set = ∅ := Std.ExtTreeSet.isEmpty_iff.mp empty
  simp [nothing]

theorem nodup_toList (set : StringSet) : (Std.ExtTreeSet.toList set).Nodup :=
  Std.ExtTreeSet.distinct_toList.imp fun different equal => different (by simp [equal])

end StringSet

end PostgresSync.Data
