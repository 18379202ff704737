import PostgresSync.Pg.Reactions
import PostgresSync.Pg.Replication

/-!
What a `TRUNCATE` does to the registered shapes: those of the relation, of the partitioned
table it belongs to and those invalidated by it become tombstones, and no other changes.
-/

namespace PostgresSync.Pg

open PostgresSync.Data
open PostgresSync.Shapes
open PostgresSync.Storage

section Buried

/-- The shape is gone afterwards if it was gone before or is hit, and is otherwise left
as it was. -/
structure BuriedIf (hit : Prop) (state next : State) : Prop where
  identity : SameIdentity next state
  deleted : next.deleted = true ↔ state.deleted = true ∨ hit
  kept : next.deleted = false → next = state

theorem BuriedIf.congr {hit other : Prop} {state next : State}
    (buried : BuriedIf hit state next) (same : state.deleted = false → (hit ↔ other)) :
    BuriedIf other state next := by
  refine ⟨buried.identity, ?_, buried.kept⟩
  rw [buried.deleted]
  cases deleted : state.deleted with
  | true => simp
  | false => simp [same deleted]

theorem BuriedIf.trans {first second : Prop} {state middle next : State}
    (left : BuriedIf first state middle) (right : BuriedIf second middle next) :
    BuriedIf (first ∨ second) state next := by
  refine ⟨right.identity.trans left.identity, ?_, ?_⟩
  · rw [right.deleted, left.deleted, or_assoc]
  · intro alive
    have same := right.kept alive
    rw [same] at alive
    exact same.trans (left.kept alive)

structure Buries (hit : State → Prop) (before after : Manager σ) : Prop where
  indexed : after.Indexed
  absent : ∀ handle : String, before.byHandle[handle]? = none →
    after.byHandle[handle]? = none
  states : ∀ (handle : String) (state : State), before.byHandle[handle]? = some state →
    ∃ next, after.byHandle[handle]? = some next ∧ BuriedIf (hit state) state next

variable {hit other : State → Prop} {before after : Manager σ}

theorem Buries.refl {manager : Manager σ} (indexed : manager.Indexed) :
    Buries (fun _ => False) manager manager :=
  ⟨indexed, fun _ unknown => unknown, fun _ state found =>
    ⟨state, found, .refl state, by simp, fun _ => rfl⟩⟩

theorem Buries.congr (buries : Buries hit before after)
    (same : ∀ state ∈ before.activeStates, hit state ↔ other state)
    (named : before.registry.Named State.handle) : Buries other before after := by
  refine ⟨buries.indexed, buries.absent, fun handle state found => ?_⟩
  obtain ⟨next, reached, buried⟩ := buries.states handle state found
  refine ⟨next, reached, buried.congr fun active => same state ?_⟩
  rw [mem_activeStates named, Manager.active?_eq_some, named handle state found]
  exact ⟨found, active⟩

theorem Buries.trans {first second : State → Prop} {middle : Manager σ}
    (left : Buries first before middle) (right : Buries second middle after)
    (stable : ∀ one other : State, SameIdentity one other → (second one ↔ second other)) :
    Buries (fun state => first state ∨ second state) before after := by
  refine ⟨right.indexed, fun handle unknown => right.absent handle (left.absent handle unknown),
    fun handle state found => ?_⟩
  obtain ⟨between, reached, buried⟩ := left.states handle state found
  obtain ⟨next, last, later⟩ := right.states handle between reached
  refine ⟨next, last, buried.trans (later.congr fun _ => ?_)⟩
  exact stable between state buried.identity

theorem Buries.mem_activeStates (buries : Buries hit before after)
    (named : before.registry.Named State.handle) {state : State} :
    state ∈ after.activeStates ↔ state ∈ before.activeStates ∧ ¬ hit state := by
  rw [Shapes.mem_activeStates buries.indexed.named, Shapes.mem_activeStates named,
    Manager.active?_eq_some, Manager.active?_eq_some]
  constructor
  · rintro ⟨found, active⟩
    cases origin : before.byHandle[state.handle]? with
    | none =>
        rw [buries.absent _ origin] at found
        cases found
    | some held =>
        obtain ⟨next, reached, buried⟩ := buries.states _ held origin
        cases found.symm.trans reached
        obtain rfl := buried.kept active
        refine ⟨⟨rfl, active⟩, fun struck => ?_⟩
        have gone := buried.deleted.mpr (.inr struck)
        rw [active] at gone
        cases gone
  · rintro ⟨⟨found, active⟩, missed⟩
    obtain ⟨next, reached, buried⟩ := buries.states _ state found
    have alive : next.deleted = false := by
      rw [← Bool.not_eq_true, buried.deleted, not_or]
      exact ⟨by rw [active]; decide, missed⟩
    obtain rfl := buried.kept alive
    exact ⟨reached, active⟩

/-- The loop rule: what the turns hit is hit by the loop. -/
theorem Buries.untilError {body : Manager σ → α → Except ε Unit × Manager σ}
    {hits : α → State → Prop}
    (turn : ∀ {manager next : Manager σ} {item : α}, manager.Indexed →
      body manager item = (.ok (), next) → Buries (hits item) manager next)
    (stable : ∀ item one other, SameIdentity one other → (hits item one ↔ hits item other))
    {items : List α} (indexed : before.Indexed)
    (succeeded : untilError body before items = (.ok (), after)) :
    Buries (fun state => ∃ item ∈ items, hits item state) before after := by
  induction items generalizing before with
  | nil =>
      cases succeeded
      refine (Buries.refl indexed).congr ?_ indexed.named
      simp
  | cons item rest hypothesis =>
      rw [Data.untilError] at succeeded
      split at succeeded
      case h_1 => cases succeeded
      case h_2 middle first =>
        have begun := turn indexed first
        refine (begun.trans (hypothesis begun.indexed succeeded) ?_).congr ?_ indexed.named
        · intro one other same
          simp [stable _ one other same]
        · intro state _
          simp

end Buried

section Truncation

variable [Store σ] {now : Time} {manager after : Manager σ}

theorem deleteInvalidated_buries {item : State} (indexed : manager.Indexed)
    (succeeded : deleteInvalidated now manager item = (.ok (), after)) :
    Buries (fun state => item.handle = state.handle) manager after := by
  have edits : Manager.Edits False manager.registry (manager.delete item.handle now).2.registry :=
    Manager.delete_edits False.elim
  obtain ⟨result, rfl⟩ := Prod.mk.inj succeeded
  obtain ⟨_, -, effect⟩ | ⟨error, failed, -⟩ := manager.delete_outcome item.handle now
  · refine ⟨indexed.edits edits, fun handle unknown => ?_, fun handle state found => ?_⟩
    · rw [effect, unknown]
      split <;> rfl
    · have own : state.handle = handle := indexed.named handle state found
      rw [effect, found]
      split
      case isTrue same =>
        exact ⟨_, rfl, ⟨rfl, rfl⟩, by simp [own, same], nofun⟩
      case isFalse other =>
        exact ⟨state, rfl, .refl state, by simp [own, other], fun _ => rfl⟩
  · rw [failed] at result
    cases result

theorem invalidateRelation_buries {relation : Relation} (indexed : manager.Indexed)
    (succeeded : invalidateRelation relation now manager = (.ok (), after)) :
    Buries (fun state => state.relationIndex = relationKey relation) manager after := by
  have edits : Manager.Edits False manager.registry
      (manager.invalidateByRelation relation now).2.registry :=
    Manager.invalidateByRelation_edits indexed.listed
  obtain ⟨result, rfl⟩ := Prod.mk.inj succeeded
  obtain ⟨_, -, effect⟩ | ⟨error, failed, -⟩ :=
    Manager.invalidateByRelation_outcome indexed.listed relation now
  · refine ⟨indexed.edits edits, fun handle unknown => ?_, fun handle state found => ?_⟩
    · rw [effect, unknown]
      rfl
    · refine ⟨_, by rw [effect, found]; rfl, invalidatedState_identity _ _, ?_, ?_⟩
      · unfold Manager.invalidatedState
        by_cases related : state.relationIndex = relationKey relation
        · cases deleted : state.deleted <;> simp [related, deleted]
        · simp [related]
      · unfold Manager.invalidatedState
        split
        · nofun
        · exact fun _ => rfl
  · rw [failed] at result
    cases result

theorem invalidateDependent_buries {metadata : RelationMetadata} {item : State}
    (indexed : manager.Indexed)
    (succeeded : invalidateDependent metadata now manager item = (.ok (), after)) :
    Buries (fun state => item.handle = state.handle ∧ isDependentOn item metadata = true)
      manager after := by
  unfold invalidateDependent at succeeded
  split at succeeded
  case isTrue skipped =>
    cases succeeded
    refine (Buries.refl indexed).congr ?_ indexed.named
    intro state _
    simp only [isDependentOn, Bool.and_eq_true, Bool.not_eq_true', false_iff, not_and]
    intro _ untargeted
    simpa [untargeted] using skipped
  case isFalse dependent =>
    refine (deleteInvalidated_buries indexed succeeded).congr ?_ indexed.named
    intro state _
    rw [Bool.not_eq_true, Bool.or_eq_false_iff, Bool.not_eq_false'] at dependent
    simp [isDependentOn, dependent.1, dependent.2]

def isHitBy (state : State) (metadata : RelationMetadata) : Bool :=
  isDependentOn state metadata || followsRelation state metadata

theorem isHitBy_congr {metadata : RelationMetadata} {one other : State}
    (same : SameIdentity one other) : isHitBy one metadata = isHitBy other metadata := by
  simp [isHitBy, isDependentOn, followsRelation, same.definition, same.relationIndex]

theorem truncateRelation_buries {cache : RelationCache} {relationID : RelationID}
    (indexed : manager.Indexed)
    (succeeded : truncateRelation cache now manager relationID = (.ok (), after)) :
    Buries (fun state => ∃ metadata, cache[relationID]? = some metadata ∧
      isHitBy state metadata = true) manager after := by
  unfold truncateRelation at succeeded
  cases cached : cache[relationID]? with
  | none =>
      rw [cached] at succeeded
      cases succeeded
      refine (Buries.refl indexed).congr ?_ indexed.named
      simp
  | some metadata =>
      rw [cached] at succeeded
      obtain ⟨first, deleted, succeeded⟩ := thenStep_ok succeeded
      obtain ⟨second, invalidated, succeeded⟩ := thenStep_ok succeeded
      unfold invalidateDependentShapesForRelation at deleted
      have dependents := Buries.untilError
        (fun indexed turn => invalidateDependent_buries indexed turn)
        (fun _ _ _ same => by rw [same.handle]) indexed deleted
      have own := invalidateRelation_buries dependents.indexed invalidated
      have root : Buries (fun state => state.relationIndex = relationKey metadata.rootRelation ∧
          metadata.rootRelation ≠ metadata.relation) second after := by
        split at succeeded
        case isTrue different =>
          refine (invalidateRelation_buries own.indexed succeeded).congr ?_ own.indexed.named
          simp [different]
        case isFalse same =>
          cases succeeded
          refine (Buries.refl own.indexed).congr ?_ own.indexed.named
          simp [not_not.mp same]
      have index (one other : State) (same : SameIdentity one other) := same.relationIndex
      refine ((dependents.trans own ?_).trans root ?_).congr ?_ indexed.named
      · intro one other same
        rw [index one other same]
      · intro one other same
        rw [index one other same]
      · intro state listed
        have unique : (∃ item ∈ manager.activeStates, item.handle = state.handle ∧
            isDependentOn item metadata = true) ↔
              isDependentOn state metadata = true := by
          constructor
          · rintro ⟨item, member, same, dependent⟩
            rw [mem_activeStates indexed.named] at member listed
            rw [same, listed] at member
            cases member
            exact dependent
          · exact fun dependent => ⟨state, listed, rfl, dependent⟩
        rw [unique]
        simp only [Option.some.injEq, exists_eq_left', isHitBy, followsRelation,
          Bool.or_eq_true, decide_eq_true_eq]
        constructor
        · rintro ((dependent | same) | ⟨same, -⟩)
          · exact .inl dependent
          · exact .inr (.inl same)
          · exact .inr (.inr same)
        · rintro (dependent | same | same)
          · exact .inl (.inl dependent)
          · exact .inl (.inr same)
          · by_cases equal : metadata.rootRelation = metadata.relation
            · exact .inl (.inr (equal ▸ same))
            · exact .inr ⟨same, equal⟩

theorem truncateRelations_buries {cache : RelationCache} {relationIDs : List RelationID}
    (indexed : manager.Indexed)
    (succeeded : untilError (truncateRelation cache now) manager relationIDs = (.ok (), after)) :
    Buries (fun state => ∃ relationID ∈ relationIDs, ∃ metadata,
      cache[relationID]? = some metadata ∧ isHitBy state metadata = true) manager after :=
  Buries.untilError (fun indexed turn => truncateRelation_buries indexed turn)
    (fun _ _ _ same => by simp [isHitBy_congr same]) indexed succeeded

end Truncation

end PostgresSync.Pg
