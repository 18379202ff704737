import Mathlib

namespace PostgresSync.Data

/-! A registry of records that is indexed twice: by a tag that at most one live
record carries, and by a group that any number of live records share.  A record
that is no longer live stays under its key. -/

@[ext]
structure Registry (κ ρ τ γ : Type) where
  records : κ → Option ρ
  byTag : τ → Option κ
  listed : γ → κ → Prop

namespace Registry

section Primitives

variable {κ ρ τ γ : Type} [DecidableEq κ] [DecidableEq τ]

def empty : Registry κ ρ τ γ where
  records _ := none
  byTag _ := none
  listed _ _ := False

def setRecord (registry : Registry κ ρ τ γ) (key : κ) (record : ρ) :
    Registry κ ρ τ γ :=
  { registry with
    records := fun other => if key = other then some record else registry.records other }

def setTag (registry : Registry κ ρ τ γ) (tag : τ) (key : κ) :
    Registry κ ρ τ γ :=
  { registry with
    byTag := fun other => if tag = other then some key else registry.byTag other }

def clearTag (registry : Registry κ ρ τ γ) (tag : τ) : Registry κ ρ τ γ :=
  { registry with
    byTag := fun other => if tag = other then none else registry.byTag other }

def list (registry : Registry κ ρ τ γ) (group : γ) (key : κ) :
    Registry κ ρ τ γ :=
  { registry with
    listed := fun group' key' =>
      registry.listed group' key' ∨ (group' = group ∧ key' = key) }

def unlist (registry : Registry κ ρ τ γ) (group : γ) (key : κ) :
    Registry κ ρ τ γ :=
  { registry with
    listed := fun group' key' =>
      registry.listed group' key' ∧ ¬(group' = group ∧ key' = key) }

end Primitives

section Edits

variable {κ ρ τ γ : Type} [DecidableEq κ] [DecidableEq τ]
variable (name : ρ → κ) (tag : ρ → τ) (group : ρ → γ) (live : ρ → Prop)

def Named (registry : Registry κ ρ τ γ) : Prop :=
  ∀ key record, registry.records key = some record → name record = key

def TagSound (registry : Registry κ ρ τ γ) : Prop :=
  ∀ label key, registry.byTag label = some key →
    ∃ record, registry.records key = some record ∧ live record ∧
      tag record = label

def TagComplete (registry : Registry κ ρ τ γ) : Prop :=
  ∀ key record, registry.records key = some record → live record →
    registry.byTag (tag record) = some key

/-- The group index lists exactly the live records of each group. -/
def Listed (registry : Registry κ ρ τ γ) : Prop :=
  ∀ label key, registry.listed label key ↔
    ∃ record, registry.records key = some record ∧ live record ∧
      group record = label

/-- What one operation on the registry can do.  In a `strict` edit a record that
is buried a second time finds its tag unused. -/
inductive Edit (strict : Prop) (registry : Registry κ ρ τ γ) :
    Registry κ ρ τ γ → Prop
  | replace {key : κ} {old : ρ} (new : ρ)
      (found : registry.records key = some old)
      (sameName : name new = name old)
      (sameTag : tag new = tag old) (sameGroup : group new = group old)
      (sameLife : live new ↔ live old) :
      Edit strict registry (registry.setRecord key new)
  | register {key : κ} (new : ρ) (named : name new = key)
      (fresh : registry.records key = none)
      (unused : registry.byTag (tag new) = none) (alive : live new) :
      Edit strict registry
        (((registry.setRecord key new).setTag (tag new) key).list (group new) key)
  | deposit {key : κ} (new : ρ) (named : name new = key)
      (fresh : registry.records key = none) (dead : ¬live new) :
      Edit strict registry (registry.setRecord key new)
  | reissue {key : κ} {old : ρ} (new : ρ)
      (found : registry.records key = some old) (wasAlive : live old)
      (alive : live new) (sameName : name new = name old)
      (sameTag : tag new = tag old) :
      Edit strict registry
        ((((registry.unlist (group old) key).setRecord key new).setTag
          (tag new) key).list (group new) key)
  | bury {key : κ} {old : ρ} (new : ρ)
      (found : registry.records key = some old) (dead : ¬live new)
      (sameName : name new = name old)
      (released : strict → live old ∨ registry.byTag (tag old) = none) :
      Edit strict registry
        (((registry.clearTag (tag old)).unlist (group old) key).setRecord key new)

abbrev Edits (strict : Prop) :
    Registry κ ρ τ γ → Registry κ ρ τ γ → Prop :=
  Relation.ReflTransGen (Edit name tag group live strict)

variable {name tag group live}
variable {strict : Prop} {registry result : Registry κ ρ τ γ}

omit [DecidableEq τ] in
theorem setRecord_named {key : κ} {record : ρ}
    (named : Named name registry) (own : name record = key) :
    Named name (registry.setRecord key record) := by
  intro other held present
  by_cases same : key = other
  · obtain rfl : record = held := by simpa [setRecord, same] using present
    exact own.trans same
  · exact named other held (by simpa [setRecord, same] using present)

theorem Edit.named (edit : Edit name tag group live strict registry result)
    (named : Named name registry) : Named name result := by
  cases edit with
  | @replace changed old new found sameName sameTag sameGroup sameLife =>
      exact setRecord_named named (sameName.trans (named changed old found))
  | @register added new own fresh unused alive => exact setRecord_named named own
  | @deposit added new own fresh dead => exact setRecord_named named own
  | @reissue changed old new found wasAlive alive sameName sameTag =>
      exact setRecord_named named (sameName.trans (named changed old found))
  | @bury changed old new found dead sameName released =>
      exact setRecord_named named (sameName.trans (named changed old found))

theorem Edit.tagSound (edit : Edit name tag group live strict registry result)
    (sound : TagSound tag live registry) : TagSound tag live result := by
  intro label key named
  cases edit with
  | @replace changed old new found sameName sameTag sameGroup sameLife =>
      obtain ⟨record, present, alive, labelled⟩ := sound label key named
      by_cases same : changed = key
      · subst same
        obtain rfl : old = record := by simpa [found] using present
        exact ⟨new, by simp [setRecord], sameLife.mpr alive, sameTag.trans labelled⟩
      · exact ⟨record, by simpa [setRecord, same] using present, alive, labelled⟩
  | @register added new named' fresh unused alive =>
      by_cases same : tag new = label
      · obtain rfl : added = key := by simpa [setTag, list, same] using named
        exact ⟨new, by simp [setRecord, setTag, list], alive, same⟩
      · have before : registry.byTag label = some key := by
          simpa [setTag, setRecord, list, same] using named
        obtain ⟨record, present, alive', labelled⟩ := sound label key before
        have other : added ≠ key := by
          rintro rfl
          simp [fresh] at present
        exact ⟨record, by simpa [setRecord, setTag, list, other] using present,
          alive', labelled⟩
  | @deposit added new named' fresh dead =>
      obtain ⟨record, present, alive, labelled⟩ := sound label key named
      have other : added ≠ key := by
        rintro rfl
        simp [fresh] at present
      exact ⟨record, by simpa [setRecord, other] using present, alive, labelled⟩
  | @reissue changed old new found wasAlive alive sameName sameTag =>
      by_cases same : tag new = label
      · obtain rfl : changed = key := by simpa [setTag, list, same] using named
        exact ⟨new, by simp [setRecord, setTag, list], alive, same⟩
      · have before : registry.byTag label = some key := by
          simpa [setTag, setRecord, list, unlist, same] using named
        obtain ⟨record, present, alive', labelled⟩ := sound label key before
        have other : changed ≠ key := by
          rintro rfl
          obtain rfl : old = record := by simpa [found] using present
          exact same (sameTag.trans labelled)
        exact ⟨record, by simpa [setRecord, setTag, list, unlist, other] using present,
          alive', labelled⟩
  | @bury changed old new found dead sameName released =>
      by_cases same : tag old = label
      · simp [clearTag, unlist, setRecord, same] at named
      · have before : registry.byTag label = some key := by
          simpa [clearTag, setRecord, unlist, same] using named
        obtain ⟨record, present, alive, labelled⟩ := sound label key before
        have other : changed ≠ key := by
          rintro rfl
          obtain rfl : old = record := by simpa [found] using present
          exact same labelled
        exact ⟨record, by simpa [setRecord, unlist, clearTag, other] using present,
          alive, labelled⟩

theorem Edit.tagComplete (edit : Edit name tag group live True registry result)
    (complete : TagComplete tag live registry) :
    TagComplete tag live result := by
  intro key record present alive
  cases edit with
  | @replace changed old new found sameName sameTag sameGroup sameLife =>
      by_cases same : changed = key
      · subst same
        obtain rfl : new = record := by simpa [setRecord] using present
        have before := complete changed old found (sameLife.mp alive)
        simpa [setRecord, sameTag] using before
      · have before : registry.records key = some record := by
          simpa [setRecord, same] using present
        exact complete key record before alive
  | @register added new named' fresh unused alive' =>
      by_cases same : added = key
      · subst same
        obtain rfl : new = record := by
          simpa [setRecord, setTag, list] using present
        simp [setTag, list]
      · have before : registry.records key = some record := by
          simpa [setRecord, setTag, list, same] using present
        have named := complete key record before alive
        have different : tag new ≠ tag record := by
          intro equal
          rw [← equal, unused] at named
          cases named
        simpa [setTag, setRecord, list, different] using named
  | @deposit added new named' fresh dead =>
      by_cases same : added = key
      · subst same
        obtain rfl : new = record := by simpa [setRecord] using present
        exact absurd alive dead
      · have before : registry.records key = some record := by
          simpa [setRecord, same] using present
        exact complete key record before alive
  | @reissue changed old new found wasAlive alive' sameName sameTag =>
      have owned := complete changed old found wasAlive
      by_cases same : changed = key
      · subst same
        obtain rfl : new = record := by
          simpa [setRecord, setTag, list] using present
        simp [setTag, list]
      · have before : registry.records key = some record := by
          simpa [setRecord, setTag, list, unlist, same] using present
        have named := complete key record before alive
        have different : tag new ≠ tag record := by
          intro equal
          rw [← equal, sameTag, owned] at named
          exact same (Option.some.inj named)
        simpa [setTag, setRecord, list, unlist, different] using named
  | @bury changed old new found dead sameName released =>
      by_cases same : changed = key
      · subst same
        obtain rfl : new = record := by simpa [setRecord] using present
        exact absurd alive dead
      · have before : registry.records key = some record := by
          simpa [setRecord, unlist, clearTag, same] using present
        have named := complete key record before alive
        have different : tag old ≠ tag record := by
          intro equal
          rcases released trivial with wasAlive | unused
          · have owned := complete changed old found wasAlive
            rw [equal, named] at owned
            exact same (Option.some.inj owned).symm
          · rw [equal, named] at unused
            cases unused
        simpa [clearTag, setRecord, unlist, different] using named

theorem Edit.listed (edit : Edit name tag group live strict registry result)
    (indexed : Listed group live registry) : Listed group live result := by
  intro label key
  cases edit with
  | @replace changed old new found sameName sameTag sameGroup sameLife =>
      by_cases same : changed = key
      · subst same
        simpa [setRecord, found, sameGroup, sameLife] using indexed label changed
      · simpa [setRecord, same] using indexed label key
  | @register added new named' fresh unused alive =>
      by_cases same : added = key
      · subst same
        have unlisted : ¬registry.listed label added := by
          simp [indexed label added, fresh]
        simp [setRecord, setTag, list, unlisted, alive, eq_comm]
      · have other : key ≠ added := fun equal => same equal.symm
        simpa [setRecord, setTag, list, same, other] using indexed label key
  | @deposit added new named' fresh dead =>
      by_cases same : added = key
      · subst same
        simpa [setRecord, fresh, dead] using indexed label added
      · simpa [setRecord, same] using indexed label key
  | @reissue changed old new found wasAlive alive sameName sameTag =>
      by_cases same : changed = key
      · subst same
        have only : registry.listed label changed ↔ group old = label := by
          simp [indexed label changed, found, wasAlive]
        simp only [list, setTag, setRecord, unlist, only, if_true, Option.some.injEq,
          exists_eq_left', alive, true_and, and_true]
        constructor
        · rintro (⟨equal, different⟩ | equal)
          · exact absurd equal.symm different
          · exact equal.symm
        · intro equal
          exact .inr equal.symm
      · have other : key ≠ changed := fun equal => same equal.symm
        simpa [setRecord, setTag, list, unlist, same, other] using indexed label key
  | @bury changed old new found dead sameName released =>
      by_cases same : changed = key
      · subst same
        have only : registry.listed label changed → group old = label := by
          simp only [indexed label changed, found, Option.some.injEq, exists_eq_left']
          exact fun facts => facts.2
        simp only [setRecord, unlist, clearTag, if_true, Option.some.injEq,
          exists_eq_left', dead, false_and, iff_false]
        rintro ⟨listed, different⟩
        exact different ⟨(only listed).symm, trivial⟩
      · have other : key ≠ changed := fun equal => same equal.symm
        simpa [setRecord, unlist, clearTag, same, other] using indexed label key

theorem Edits.tagSound (edits : Edits name tag group live strict registry result)
    (sound : TagSound tag live registry) : TagSound tag live result := by
  induction edits with
  | refl => exact sound
  | tail _ edit hypothesis => exact edit.tagSound hypothesis

theorem Edits.named (edits : Edits name tag group live strict registry result)
    (named : Named name registry) : Named name result := by
  induction edits with
  | refl => exact named
  | tail _ edit hypothesis => exact edit.named hypothesis

theorem Edits.listed (edits : Edits name tag group live strict registry result)
    (indexed : Listed group live registry) : Listed group live result := by
  induction edits with
  | refl => exact indexed
  | tail _ edit hypothesis => exact edit.listed hypothesis

theorem Edits.tagComplete (edits : Edits name tag group live True registry result)
    (complete : TagComplete tag live registry) :
    TagComplete tag live result := by
  induction edits with
  | refl => exact complete
  | tail _ edit hypothesis => exact edit.tagComplete hypothesis

end Edits

section Coherent

variable {κ ρ τ γ : Type} {tag : ρ → τ} {live : ρ → Prop}
variable {registry : Registry κ ρ τ γ}

/-! In a coherent registry the tag index and the live records determine each
other. -/

theorem byTag_eq_some_iff (sound : TagSound tag live registry)
    (complete : TagComplete tag live registry) (label : τ) (key : κ) :
    registry.byTag label = some key ↔
      ∃ record, registry.records key = some record ∧ live record ∧
        tag record = label := by
  constructor
  · exact sound label key
  · rintro ⟨record, present, alive, rfl⟩
    exact complete key record present alive

theorem live_unique (complete : TagComplete tag live registry)
    {first second : κ} {left right : ρ}
    (leftPresent : registry.records first = some left) (leftAlive : live left)
    (rightPresent : registry.records second = some right)
    (rightAlive : live right) (sameTag : tag left = tag right) :
    first = second := by
  have leftNamed := complete first left leftPresent leftAlive
  have rightNamed := complete second right rightPresent rightAlive
  rw [sameTag, rightNamed] at leftNamed
  exact (Option.some.inj leftNamed).symm

end Coherent

end Registry

end PostgresSync.Data
