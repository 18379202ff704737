import PostgresSync.Pg.ShapeLife
import PostgresSync.Shapes.RelationIndex

namespace PostgresSync.Pg

open PostgresSync.Data
open PostgresSync.Shapes
open PostgresSync.Storage

/-! The loops of `applyChangeBatch` carry out the planned visits, in their order. -/

section ActiveShapes

variable {manager : Manager σ}

theorem dedupeHandles_sublist (seen : StringSet) (states : List State) :
    (dedupeHandles seen states).Sublist states := by
  induction states generalizing seen with
  | nil => exact .refl _
  | cons state rest hypothesis =>
      rw [dedupeHandles]
      split
      · exact (hypothesis seen).cons _
      · exact (hypothesis _).cons_cons _

theorem mem_dedupeHandles {states : List State}
    (unique : ∀ left ∈ states, ∀ right ∈ states, left.handle = right.handle → left = right)
    (seen : StringSet) {state : State} :
    state ∈ dedupeHandles seen states ↔ state ∈ states ∧ state.handle ∉ seen := by
  induction states generalizing seen with
  | nil => simp [dedupeHandles]
  | cons first rest hypothesis =>
      have others := fun seen => hypothesis (fun left leftMember right rightMember =>
        unique left (List.mem_cons_of_mem _ leftMember) right
          (List.mem_cons_of_mem _ rightMember)) seen
      rw [dedupeHandles]
      split
      · next known =>
          rw [others, List.mem_cons]
          constructor
          · exact fun facts => ⟨.inr facts.1, facts.2⟩
          · rintro ⟨rfl | member, fresh⟩
            · exact absurd known fresh
            · exact ⟨member, fresh⟩
      · next fresh =>
          rw [List.mem_cons, others, List.mem_cons]
          constructor
          · rintro (rfl | ⟨member, unseen⟩)
            · exact ⟨.inl rfl, fresh⟩
            · exact ⟨.inr member, fun known => unseen (by simp [known])⟩
          · rintro ⟨rfl | member, unseen⟩
            · exact .inl rfl
            · by_cases same : first.handle = state.handle
              · exact .inl (unique state (List.mem_cons_of_mem _ member) first
                  List.mem_cons_self same.symm)
              · exact .inr ⟨member, by simpa [same] using unseen⟩

theorem dedupeHandles_distinct (seen : StringSet) (states : List State) :
    ((dedupeHandles seen states).map (·.handle)).Nodup ∧
      ∀ state ∈ dedupeHandles seen states, state.handle ∉ seen := by
  induction states generalizing seen with
  | nil => simp [dedupeHandles]
  | cons first rest hypothesis =>
      rw [dedupeHandles]
      split
      · exact hypothesis seen
      · next fresh =>
          obtain ⟨distinct, unseen⟩ := hypothesis (seen.insert first.handle)
          refine ⟨?_, ?_⟩
          · rw [List.map_cons, List.nodup_cons]
            refine ⟨fun repeated => ?_, distinct⟩
            obtain ⟨state, member, same⟩ := List.mem_map.mp repeated
            exact unseen state member (by simp [same])
          · intro state member
            rcases List.mem_cons.mp member with rfl | member
            · exact fresh
            · exact fun known => unseen state member (by simp [known])

theorem dedupeHandles_handleOrdered (states : List State) :
    HandleOrdered (dedupeHandles ∅ (states.insertionSort
      fun left right => left.handle ≤ right.handle)) := by
  have sorted := (List.pairwise_insertionSort
    (fun left right : State => left.handle ≤ right.handle) states).sublist
      (dedupeHandles_sublist ∅ _)
  have apart := (dedupeHandles_distinct ∅ (states.insertionSort
    fun left right => left.handle ≤ right.handle)).1
  rw [List.Nodup, List.pairwise_map] at apart
  exact (sorted.and apart).imp fun facts => lt_of_le_of_ne facts.1 facts.2

theorem mem_relatedShapes (indexed : manager.Indexed) {metadata : RelationMetadata}
    {state : State} :
    state ∈ relatedShapes manager metadata ↔
      manager.active? state.handle = some state ∧ followsRelation state metadata = true := by
  rw [relatedShapes, List.mem_append, mem_activeByRelation indexed]
  by_cases same : metadata.rootRelation = metadata.relation
  · simp [same, followsRelation]
  · simp only [ne_eq, same, not_false_eq_true, if_true, mem_activeByRelation indexed,
      followsRelation, Bool.or_eq_true, decide_eq_true_eq]
    exact and_or_left.symm

theorem candidateShapes_eq (indexed : manager.Indexed) (metadata : RelationMetadata) :
    candidateShapes manager metadata =
      manager.activeStates.filter (followsRelation · metadata) := by
  have unique : ∀ left ∈ (relatedShapes manager metadata).insertionSort
        (fun left right => left.handle ≤ right.handle),
      ∀ right ∈ (relatedShapes manager metadata).insertionSort
        (fun left right => left.handle ≤ right.handle),
        left.handle = right.handle → left = right := by
    intro left leftMember right rightMember same
    rw [List.mem_insertionSort, mem_relatedShapes indexed] at leftMember rightMember
    have found := leftMember.1
    rw [same, rightMember.1] at found
    exact (Option.some.inj found).symm
  refine HandleOrdered.eq_of_mem_iff (dedupeHandles_handleOrdered _)
    ((activeStates_handleOrdered indexed.named).sublist List.filter_sublist) fun state => ?_
  rw [candidateShapes, mem_dedupeHandles unique, List.mem_insertionSort, mem_relatedShapes indexed,
    List.mem_filter, mem_activeStates indexed.named]
  simp

theorem flatMap_visits {relationID : RelationID} {metadata : RelationMetadata}
    (states : List State) (test : State → Bool) :
    (states.flatMap fun state =>
      if test state then [visitTo relationID metadata state] else []) =
      (states.filter test).map (visitTo relationID metadata) := by
  induction states with
  | nil => rfl
  | cons state rest hypothesis =>
      rw [List.flatMap_cons, hypothesis, List.filter_cons]
      split <;> rfl

end ActiveShapes

section Tracking

variable [Digest] (reads : Reads) (batch : ChangeBatch) (now : Time)

structure Agrees (progress : BatchProgress σ) (handle : String) (life : Life) : Prop where
  state : progress.manager.byHandle[handle]? = some life.state
  installed : progress.installed.filter (fun entry => entry.state.handle = handle) =
    life.installed
  refreshed : life.state.deleted = false →
    (handle ∈ progress.refreshed ↔ life.refreshed = true)

def Planned (before : Manager σ) (visit : Visit) : Prop :=
  ∃ state, before.active? visit.handle = some state ∧ state.definition = visit.definition

/-- The loops have carried out the visits `done`. -/
structure Tracks (before : Manager σ) (done : List Visit) (progress : BatchProgress σ) :
    Prop where
  planned : ∀ visit ∈ done, Planned before visit
  indexed : progress.manager.Indexed
  absent : ∀ handle : String, before.byHandle[handle]? = none →
    progress.manager.byHandle[handle]? = none
  agrees : ∀ (handle : String) (state : State), before.byHandle[handle]? = some state →
    Agrees progress handle (lifeOf reads batch now state done)

variable {reads batch now} {before : Manager σ} {done : List Visit}
  {progress next : BatchProgress σ} {relationID : RelationID} {metadata : RelationMetadata}

theorem Tracks.begin (indexed : before.Indexed) :
    Tracks reads batch now before [] { manager := before } where
  planned := by simp
  indexed := indexed
  absent _ unknown := unknown
  agrees handle state found := ⟨found, rfl, by simp⟩

theorem Tracks.named (tracks : Tracks reads batch now before done progress) {handle : String}
    {state : State} (found : before.byHandle[handle]? = some state) :
    state.handle = handle := by
  have own := tracks.indexed.named handle _ (tracks.agrees handle state found).state
  rw [← own]
  exact (lifeOf_identity state done).handle.symm

theorem Tracks.advance (tracks : Tracks reads batch now before done progress)
    {visit : Visit} (origin : Planned before visit) (indexed : next.manager.Indexed)
    (absent : ∀ handle : String, progress.manager.byHandle[handle]? = none →
      next.manager.byHandle[handle]? = none)
    (agrees : ∀ (handle : String) (life : Life), life.state.handle = handle →
      Agrees progress handle life → Agrees next handle (life.visit reads batch now visit)) :
    Tracks reads batch now before (done ++ [visit]) next where
  planned := by
    simpa [or_imp, forall_and] using And.intro tracks.planned origin
  indexed := indexed
  absent handle unknown := absent handle (tracks.absent handle unknown)
  agrees handle state found := by
    rw [lifeOf_concat]
    refine agrees handle _ ?_ (tracks.agrees handle state found)
    rw [(lifeOf_identity state done).handle, tracks.named found]

theorem Tracks.unchanged (tracks : Tracks reads batch now before done progress)
    (indexed : next.manager.Indexed)
    (states : next.manager.byHandle = progress.manager.byHandle)
    (installed : next.installed = progress.installed)
    (refreshed : next.refreshed = progress.refreshed) :
    Tracks reads batch now before done next where
  planned := tracks.planned
  indexed := indexed
  absent handle unknown := by
    rw [states]
    exact tracks.absent handle unknown
  agrees handle state found := by
    obtain ⟨held, entries, marked⟩ := tracks.agrees handle state found
    exact ⟨by rw [states, held], by rw [installed, entries], by rwa [refreshed]⟩

theorem Tracks.replace (tracks : Tracks reads batch now before done progress)
    {held : State} {handle : String} (updated : State)
    {entries : List Installed} {visit : Visit}
    (origin : Planned before visit) (indexed : next.manager.Indexed)
    (found : progress.manager.byHandle[handle]? = some held)
    (states : ∀ other : String, next.manager.byHandle[other]? =
      if handle = other then some updated else progress.manager.byHandle[other]?)
    (installed : next.installed = progress.installed ++ entries)
    (own : ∀ entry ∈ entries, entry.state.handle = handle)
    (refreshed : ∀ other ≠ handle, other ∈ next.refreshed ↔ other ∈ progress.refreshed)
    (others : ∀ life : Life, life.state.handle ≠ handle →
      life.visit reads batch now visit = life)
    (this : ∀ life : Life, life.state = held → Agrees progress handle life →
      (life.visit reads batch now visit).state = updated ∧
      (life.visit reads batch now visit).installed = life.installed ++ entries ∧
      (updated.deleted = false → (handle ∈ next.refreshed ↔
        (life.visit reads batch now visit).refreshed = true))) :
    Tracks reads batch now before (done ++ [visit]) next := by
  refine tracks.advance origin indexed ?_ ?_
  · intro other unknown
    have different : handle ≠ other := by
      rintro rfl
      simp [found] at unknown
    simp [states, different, unknown]
  · intro other life named agrees
    by_cases same : handle = other
    · subst same
      have current : life.state = held :=
        Option.some.inj (agrees.state.symm.trans found)
      have all : entries.filter (fun entry => entry.state.handle = handle) = entries :=
        List.filter_eq_self.mpr fun entry member => by simp [own entry member]
      obtain ⟨state, logged, marked⟩ := this life current agrees
      refine ⟨by simp [states, state], ?_, by rwa [state]⟩
      rw [installed, List.filter_append, all, agrees.installed, logged]
    · have different : other ≠ handle := fun equal => same equal.symm
      have none : entries.filter (fun entry => entry.state.handle = other) = [] :=
        List.filter_eq_nil_iff.mpr fun entry member => by simp [own entry member, same]
      rw [others life (by rwa [named])]
      refine ⟨by simp [states, same, agrees.state], ?_, fun alive => ?_⟩
      · rw [installed, List.filter_append, none, List.append_nil, agrees.installed]
      · rw [refreshed other different]
        exact agrees.refreshed alive

section Turns

variable [Store σ] {item held : State}

theorem refreshTargetedShape_missing {relation : Relation}
    (tracks : Tracks reads batch now before done progress)
    (origin : Planned before (visitTo relationID metadata item))
    (targeted : definitionSupportsTargetedRefresh item.definition = true)
    (missing : (visitTo relationID metadata item).read reads batch =
      .error (.relationNotFound relation)) :
    Follows (Tracks reads batch now before) done [visitTo relationID metadata item]
      (refreshTargetedShape reads batch relationID metadata now progress item) := by
  have read : snapshotChangedKeys (reads relationID item.handle) item.definition metadata
      (changedKeyRows batch relationID) = .error (.relationNotFound relation) := by
    simpa [Visit.read, visitTo, targeted] using missing
  have edits : Manager.Edits False progress.manager.registry
      (progress.manager.invalidateByRelation item.definition.relation now).2.registry :=
    Manager.invalidateByRelation_edits tracks.indexed.listed
  rcases Manager.invalidateByRelation_outcome tracks.indexed.listed
      item.definition.relation now with ⟨handles, succeeded, effect⟩ | ⟨error, failed, same⟩
  · simp only [refreshTargetedShape, targeted, if_true, read, succeeded, Except.map,
      Except.mapError, Follows]
    refine tracks.advance origin (tracks.indexed.edits edits) ?_ ?_
    · intro handle unknown
      simp [effect, unknown]
    · intro handle life own agrees
      rw [Life.visit_missing targeted missing]
      refine ⟨?_, agrees.installed, fun alive => agrees.refreshed ?_⟩
      · simp [effect, agrees.state, visitTo]
      · revert alive
        unfold Manager.invalidatedState
        split <;> simp
  · simp only [refreshTargetedShape, targeted, if_true, read, failed, Except.map,
      Except.mapError]
    exact .stops (tracks.unchanged (tracks.indexed.edits edits) same rfl rfl)

theorem refreshTargetedShape_read {snapshot : SnapshotResult}
    (tracks : Tracks reads batch now before done progress)
    (origin : Planned before (visitTo relationID metadata item))
    (found : progress.manager.byHandle[item.handle]? = some held)
    (targeted : definitionSupportsTargetedRefresh item.definition = true)
    (read : (visitTo relationID metadata item).read reads batch = .ok snapshot) :
    Follows (Tracks reads batch now before) done [visitTo relationID metadata item]
      (refreshTargetedShape reads batch relationID metadata now progress item) := by
  have queried : snapshotChangedKeys (reads relationID item.handle) item.definition metadata
      (changedKeyRows batch relationID) = .ok snapshot := by
    simpa [Visit.read, visitTo, targeted] using read
  have named : held.handle = item.handle := tracks.indexed.named _ _ found
  have others : ∀ life : Life, life.state.handle ≠ item.handle →
      life.visit reads batch now (visitTo relationID metadata item) = life :=
    fun life other => Life.visit_other (fun same => other same.symm) (by simp [read])
  have visited : ∀ life : Life, life.state = held → held.deleted = false →
      life.visit reads batch now (visitTo relationID metadata item) =
        life.refreshKeys batch now (visitTo relationID metadata item) snapshot :=
    fun life current alive => Life.visit_own_targeted (by rwa [current])
      (by rw [current, named]; rfl) targeted read
  rcases Manager.refreshKeysWithMetadata_outcome found snapshot
      (changedKeyRows batch relationID) (targetedMetadata batch metadata) now with
    ⟨deleted, outcome⟩ | ⟨alive, idle, outcome⟩ | ⟨refreshed, alive, computed, outcome⟩
  · -- the shape is gone, and the error is ignored
    simp only [refreshTargetedShape, targeted, if_true, queried, outcome, ignoreGone,
      installedBy, List.append_nil, Follows]
    refine tracks.advance origin tracks.indexed (fun _ unknown => unknown) ?_
    intro handle life own agrees
    by_cases same : item.handle = handle
    · subst same
      have current : life.state = held := Option.some.inj (agrees.state.symm.trans found)
      rw [Life.visit_of_deleted (by rwa [current])]
      exact agrees
    · rw [others life (by rw [own]; exact fun equal => same equal.symm)]
      exact agrees
  · simp only [refreshTargetedShape, targeted, if_true, queried, outcome, ignoreGone,
      installedBy, Follows]
    refine tracks.replace held origin tracks.indexed found ?_ rfl (by simp [named])
      (fun _ _ => Iff.rfl) others ?_
    · intro other
      by_cases same : item.handle = other
      · subst same
        simp [found]
      · simp [same]
    · intro life current agrees
      rw [visited life current alive]
      have state : (life.refreshKeys batch now (visitTo relationID metadata item)
          snapshot).state = held := by
        simp [Life.refreshKeys, current, idle, visitTo]
      refine ⟨state, ?_, fun _ => ?_⟩
      · simp [Life.refreshKeys, current, idle, visitTo]
      · exact agrees.refreshed (by rwa [current])
  · have same := State.refreshKeys_sameShape computed
    have edits : Manager.Edits False progress.manager.registry
        (progress.manager.refreshKeysWithMetadata item.handle snapshot
          (changedKeyRows batch relationID) (targetedMetadata batch metadata)
          now).2.registry :=
      Manager.refreshKeysWithMetadata_edits
    rcases progress.manager.commitRefresh_outcome item.handle refreshed with
      ⟨accepted, effect⟩ | ⟨error, refused, kept⟩
    · simp only [refreshTargetedShape, targeted, if_true, queried, outcome, accepted,
        ignoreGone, installedBy, Follows] at edits ⊢
      refine tracks.replace refreshed.1 origin (tracks.indexed.edits edits) found effect rfl
        (by simp [same.handle, named]) (fun _ _ => Iff.rfl) others ?_
      intro life current agrees
      rw [visited life current alive]
      refine ⟨?_, ?_, fun _ => agrees.refreshed (by rwa [current])⟩
      · simp [Life.refreshKeys, current, computed, visitTo]
      · simp [Life.refreshKeys, current, computed, visitTo]
    · simp only [refreshTargetedShape, targeted, if_true, queried, outcome, refused,
        ignoreGone, installedBy] at edits ⊢
      exact .stops (tracks.unchanged (tracks.indexed.edits edits) kept (by simp) rfl)

theorem refreshTargetedShape_follows
    (tracks : Tracks reads batch now before done progress)
    (origin : Planned before (visitTo relationID metadata item))
    (found : progress.manager.byHandle[item.handle]? = some held) :
    Follows (Tracks reads batch now before) done
      (if definitionSupportsTargetedRefresh item.definition then
        [visitTo relationID metadata item] else [])
      (refreshTargetedShape reads batch relationID metadata now progress item) := by
  cases targeted : definitionSupportsTargetedRefresh item.definition with
  | false => simpa [refreshTargetedShape, targeted, Follows] using tracks
  | true =>
      rw [if_pos rfl]
      cases read : (visitTo relationID metadata item).read reads batch with
      | ok snapshot => exact refreshTargetedShape_read tracks origin found targeted read
      | error error =>
          by_cases missing : ∃ relation, error = .relationNotFound relation
          · obtain ⟨relation, rfl⟩ := missing
            exact refreshTargetedShape_missing tracks origin targeted read
          · have stopped : refreshTargetedShape reads batch relationID metadata now progress
                item = (.error error, progress) := by
              have queried : snapshotChangedKeys (reads relationID item.handle)
                  item.definition metadata (changedKeyRows batch relationID) =
                    .error error := by
                simpa [Visit.read, visitTo, targeted] using read
              cases error <;> simp_all [refreshTargetedShape]
            rw [stopped]
            exact .stops tracks

theorem deleteDependentShape_follows {visit : Visit}
    (tracks : Tracks reads batch now before done progress) (origin : Planned before visit)
    (found : progress.manager.byHandle[visit.handle]? = some held)
    (others : ∀ life : Life, life.state.handle ≠ visit.handle →
      life.visit reads batch now visit = life)
    (this : ∀ life : Life, life.state = held → Agrees progress visit.handle life →
      life.visit reads batch now visit = life.bury now) :
    Follows (Tracks reads batch now before) done [visit]
      (deleteDependentShape now progress visit.handle) := by
  have edits : Manager.Edits False progress.manager.registry
      (progress.manager.delete visit.handle now).2.registry :=
    Manager.delete_edits False.elim
  rcases progress.manager.delete_outcome visit.handle now with
    ⟨deleted, succeeded, effect⟩ | ⟨error, failed, kept⟩
  · simp only [deleteDependentShape, succeeded, ignoreGone, thenStep, Follows]
    refine tracks.replace (held.tombstone now) origin (tracks.indexed.edits edits) found ?_
      (List.append_nil _).symm (by simp) ?_ others ?_
    · intro other
      by_cases same : visit.handle = other
      · subst same
        simp [BatchProgress.mark, effect, found]
      · simp [BatchProgress.mark, effect, same]
    · intro other different
      simp [BatchProgress.mark, Ne.symm different]
    · intro life current agrees
      rw [this life current agrees]
      simp [Life.bury, current]
  · simp only [deleteDependentShape, failed, ignoreGone, thenStep]
    exact .stops (tracks.unchanged (tracks.indexed.edits edits) kept rfl rfl)

theorem installDependentRefresh_follows {snapshot : SnapshotResult}
    (tracks : Tracks reads batch now before done progress)
    (origin : Planned before (visitTo relationID metadata item))
    (found : progress.manager.byHandle[item.handle]? = some held)
    (alive : held.deleted = false)
    (others : ∀ life : Life, life.state.handle ≠ item.handle →
      life.visit reads batch now (visitTo relationID metadata item) = life)
    (this : ∀ life : Life, life.state = held → Agrees progress item.handle life →
      life.visit reads batch now (visitTo relationID metadata item) =
        life.refresh batch now (visitTo relationID metadata item) snapshot) :
    Follows (Tracks reads batch now before) done [visitTo relationID metadata item]
      (installDependentRefresh batch metadata now progress item.handle snapshot) := by
  have named : held.handle = item.handle := tracks.indexed.named _ _ found
  have same := State.refresh_sameShape held snapshot (dependentMetadata batch metadata) now
  have edits : Manager.Edits False progress.manager.registry
      (progress.manager.refreshWithMetadata item.handle snapshot
        (dependentMetadata batch metadata) now).2.registry :=
    Manager.refreshWithMetadata_edits
  rcases Manager.refreshWithMetadata_outcome found snapshot
      (dependentMetadata batch metadata) now with ⟨deleted, -⟩ | ⟨-, outcome⟩
  · simp [alive] at deleted
  · rcases progress.manager.commitRefresh_outcome item.handle
        (held.refresh snapshot (dependentMetadata batch metadata) now) with
      ⟨accepted, effect⟩ | ⟨error, refused, kept⟩
    · simp only [installDependentRefresh, outcome, accepted, ignoreGone, installedBy,
        thenStep, Follows] at edits ⊢
      refine tracks.replace _ origin (tracks.indexed.edits edits) found effect rfl
        (by simp [same.handle, named]) ?_ others ?_
      · intro other different
        simp [BatchProgress.mark, Ne.symm different]
      · intro life current agrees
        rw [this life current agrees]
        simp [Life.refresh, current, visitTo, BatchProgress.mark]
    · simp only [installDependentRefresh, outcome, refused, ignoreGone, installedBy,
        thenStep] at edits ⊢
      exact .stops (tracks.unchanged (tracks.indexed.edits edits) kept (by simp) rfl)

theorem refreshDependentShape_follows
    (tracks : Tracks reads batch now before done progress)
    (origin : Planned before (visitTo relationID metadata item))
    (found : progress.manager.byHandle[item.handle]? = some held)
    (alive : held.deleted = false) :
    Follows (Tracks reads batch now before) done
      (if isDependentOn item metadata then [visitTo relationID metadata item] else [])
      (refreshDependentShape reads batch relationID metadata now progress item) := by
  have named : held.handle = item.handle := tracks.indexed.named _ _ found
  cases dependent : isDependentOn item metadata with
  | false =>
      have skipped : refreshDependentShape reads batch relationID metadata now progress item =
          (.ok (), progress) := by
        simp only [isDependentOn, Bool.and_eq_false_imp, Bool.not_eq_true'] at dependent
        cases targeted : definitionSupportsTargetedRefresh item.definition with
        | true => simp [refreshDependentShape, targeted]
        | false => simp [refreshDependentShape, targeted, dependent targeted]
      simpa [skipped, Follows] using tracks
  | true =>
      rw [if_pos rfl]
      simp only [isDependentOn, Bool.and_eq_true, Bool.not_eq_true'] at dependent
      obtain ⟨untargeted, required⟩ := dependent
      have others : ∀ life : Life, life.state.handle ≠ item.handle →
          life.visit reads batch now (visitTo relationID metadata item) = life :=
        fun life other => Life.visit_other (fun same => other same.symm)
          fun _ _ => untargeted
      by_cases known : item.handle ∈ progress.refreshed
      · have skipped : refreshDependentShape reads batch relationID metadata now progress
            item = (.ok (), progress) := by
          simp [refreshDependentShape, known]
        rw [skipped]
        refine tracks.advance origin tracks.indexed (fun _ unknown => unknown) ?_
        intro handle life own agrees
        by_cases same : item.handle = handle
        · subst same
          have current : life.state = held :=
            Option.some.inj (agrees.state.symm.trans found)
          rw [Life.visit_refreshed ((agrees.refreshed (by rwa [current])).mp known)
            untargeted]
          exact agrees
        · rw [others life (by rw [own]; exact fun equal => same equal.symm)]
          exact agrees
      · -- the first visit to the shape on behalf of this batch
        have this : ∀ life : Life, life.state = held → Agrees progress item.handle life →
            life.visit reads batch now (visitTo relationID metadata item) =
              life.refreshDependent reads batch now (visitTo relationID metadata item) :=
          fun life current agrees => Life.visit_own_dependent (by rwa [current])
            (by rw [current, named]; rfl)
            (by simpa [known] using agrees.refreshed (by rwa [current])) untargeted
        have queried : (visitTo relationID metadata item).read reads batch =
            snapshot (reads relationID item.handle) item.definition := by
          simp [Visit.read, visitTo, untargeted]
        cases supported : definitionSupportsDependentRefresh item.definition with
        | false =>
            have deleted : refreshDependentShape reads batch relationID metadata now progress
                item = deleteDependentShape now progress item.handle := by
              simp [refreshDependentShape, untargeted, required, known, supported]
            rw [deleted]
            refine deleteDependentShape_follows tracks origin found others
              fun life current agrees => ?_
            rw [this life current agrees]
            simp [Life.refreshDependent, supported]
        | true =>
            cases read : snapshot (reads relationID item.handle) item.definition with
            | ok result =>
                have installs : refreshDependentShape reads batch relationID metadata now
                    progress item = installDependentRefresh batch metadata now progress
                      item.handle result := by
                  simp [refreshDependentShape, untargeted, required, known, supported, read]
                rw [installs]
                refine installDependentRefresh_follows tracks origin found alive others
                  fun life current agrees => ?_
                rw [this life current agrees]
                simp [Life.refreshDependent, supported, queried.trans read]
            | error error =>
                by_cases missing : ∃ relation, error = .relationNotFound relation
                · obtain ⟨relation, rfl⟩ := missing
                  have deleted : refreshDependentShape reads batch relationID metadata now
                      progress item = deleteDependentShape now progress item.handle := by
                    simp [refreshDependentShape, untargeted, required, known, supported,
                      read]
                  rw [deleted]
                  refine deleteDependentShape_follows tracks origin found others
                    fun life current agrees => ?_
                  rw [this life current agrees]
                  simp [Life.refreshDependent, supported, queried.trans read]
                · have stopped : refreshDependentShape reads batch relationID metadata now
                      progress item = (.error error, progress) := by
                    cases error <;>
                      simp_all [refreshDependentShape]
                  rw [stopped]
                  exact .stops tracks

end Turns

section Plans

theorem Tracks.namedBefore (tracks : Tracks reads batch now before done progress) :
    before.registry.Named State.handle :=
  fun _ _ found => tracks.named found

variable (reads batch now) in
def survives (done : List Visit) (state : State) : Bool :=
  !(lifeOf reads batch now state done).state.deleted

theorem active_of_survives {state : State} (survived : survives reads batch now done state) :
    state.deleted = false := by
  cases deleted : state.deleted with
  | false => rfl
  | true =>
      have gone : (lifeOf reads batch now state []).state.deleted = true := deleted
      have stays : lifeOf reads batch now state done = lifeOf reads batch now state [] :=
        lifeOf_append_of_deleted gone done
      simp [survives, stays, deleted] at survived

theorem Tracks.activeStates (tracks : Tracks reads batch now before done progress) :
    progress.manager.activeStates =
      (before.activeStates.filter (survives reads batch now done)).map
        fun state => (lifeOf reads batch now state done).state := by
  have handles : ∀ state, (lifeOf reads batch now state done).state.handle = state.handle :=
    fun state => (lifeOf_identity state done).handle
  refine HandleOrdered.eq_of_mem_iff (activeStates_handleOrdered tracks.indexed.named) ?_ ?_
  · have ordered := (activeStates_handleOrdered tracks.namedBefore).sublist
      (List.filter_sublist (p := survives reads batch now done))
    refine List.pairwise_map.mpr (ordered.imp ?_)
    intro left right below
    simpa [handles] using below
  · intro current
    rw [mem_activeStates tracks.indexed.named, List.mem_map, Manager.active?_eq_some]
    constructor
    · rintro ⟨found, active⟩
      cases origin : before.byHandle[current.handle]? with
      | none =>
          rw [tracks.absent _ origin] at found
          cases found
      | some state =>
          have same := (tracks.agrees _ state origin).state
          rw [found] at same
          obtain rfl := Option.some.inj same
          have survived : survives reads batch now done state = true := by
            simpa [survives, State.Active] using active
          refine ⟨state, List.mem_filter.mpr ⟨?_, survived⟩, rfl⟩
          rw [mem_activeStates tracks.namedBefore, Manager.active?_eq_some]
          rw [handles] at origin
          exact ⟨origin, active_of_survives survived⟩
    · rintro ⟨state, member, rfl⟩
      obtain ⟨member, survived⟩ := List.mem_filter.mp member
      rw [mem_activeStates tracks.namedBefore, Manager.active?_eq_some] at member
      rw [handles]
      exact ⟨(tracks.agrees _ state member.1).state,
        by simpa [survives, State.Active] using survived⟩

theorem Tracks.definitions (tracks : Tracks reads batch now before done progress)
    {state : State} (member : state ∈ before.activeStates) :
    ∀ visit ∈ done, visit.handle = state.handle → visit.definition = state.definition := by
  intro visit performed own
  obtain ⟨held, active, definition⟩ := tracks.planned visit performed
  rw [mem_activeStates tracks.namedBefore] at member
  rw [own, member] at active
  rw [← definition, Option.some.inj active]

theorem Tracks.visit_idle (tracks : Tracks reads batch now before done progress)
    {gone other : State} {handle : String} {more : List Visit}
    (member : gone ∈ before.activeStates)
    (dead : survives reads batch now done gone = false)
    (found : before.byHandle[handle]? = some other) :
    (lifeOf reads batch now other (done ++ more)).visit reads batch now
        (visitTo relationID metadata gone) =
      lifeOf reads batch now other (done ++ more) := by
  have goneDeleted : (lifeOf reads batch now gone done).state.deleted = true := by
    simpa [survives] using dead
  have wasActive := (mem_activeStates tracks.namedBefore).mp member
  obtain ⟨goneFound, goneActive⟩ := Manager.active?_eq_some.mp wasActive
  cases deleted : (lifeOf reads batch now other (done ++ more)).state.deleted with
  | true => rw [Life.visit_of_deleted deleted]
  | false =>
      have identity : SameIdentity (lifeOf reads batch now other (done ++ more)).state other :=
        lifeOf_identity other (done ++ more)
      have alive : (lifeOf reads batch now other done).state.deleted = false := by
        cases earlier : (lifeOf reads batch now other done).state.deleted with
        | false => rfl
        | true =>
            rw [lifeOf_append_of_deleted earlier, earlier] at deleted
            cases deleted
      have different : gone.handle ≠ other.handle := by
        intro same
        rw [tracks.named found] at same
        rw [same, found] at goneFound
        rw [Option.some.inj goneFound, goneDeleted] at alive
        cases alive
      by_cases missing : ∃ relation, (visitTo relationID metadata gone).read reads batch =
            .error (.relationNotFound relation) ∧
          definitionSupportsTargetedRefresh gone.definition = true
      · obtain ⟨relation, missing, targeted⟩ := missing
        have unrelated : gone.relationIndex ≠ other.relationIndex := by
          intro related
          rw [deleted_together related targeted goneActive (tracks.definitions member)
            goneDeleted] at alive
          cases alive
        have kept : Manager.invalidatedState
            (lifeOf reads batch now other (done ++ more)).state
            (relationKey gone.definition.relation) now =
              (lifeOf reads batch now other (done ++ more)).state := by
          have apart : other.relationIndex ≠ relationKey gone.definition.relation :=
            fun equal => unrelated equal.symm
          simp [Manager.invalidatedState, identity.relationIndex, apart]
        rw [Life.visit_missing targeted missing, visitTo_definition, kept]
      · refine Life.visit_other (by rwa [visitTo_handle, identity.handle]) ?_
        intro relation unread
        cases targeted : definitionSupportsTargetedRefresh gone.definition with
        | false => exact targeted
        | true => exact absurd ⟨relation, unread, targeted⟩ missing

variable {states : List State}

theorem Tracks.lifeOf_filter (tracks : Tracks reads batch now before done progress)
    (members : ∀ state ∈ states, state ∈ before.activeStates)
    {handle : String} {other : State} (found : before.byHandle[handle]? = some other) :
    lifeOf reads batch now other (done ++
        (states.filter (survives reads batch now done)).map (visitTo relationID metadata)) =
      lifeOf reads batch now other (done ++ states.map (visitTo relationID metadata)) := by
  induction states using List.reverseRecOn with
  | nil => rfl
  | append_singleton states state hypothesis =>
      have earlier := hypothesis fun state member =>
        members state (List.mem_append_left _ member)
      have member := members state (by simp)
      rw [List.map_append, List.map_singleton, ← List.append_assoc, lifeOf_concat,
        List.filter_append]
      cases survived : survives reads batch now done state with
      | true =>
          rw [List.filter_cons_of_pos survived, List.filter_nil, List.map_append,
            List.map_singleton, ← List.append_assoc, lifeOf_concat, earlier]
      | false =>
          rw [List.filter_cons_of_neg (by simp [survived]), List.filter_nil,
            List.append_nil, earlier, tracks.visit_idle member survived found]

theorem Tracks.restore (tracks : Tracks reads batch now before done progress)
    (members : ∀ state ∈ states, state ∈ before.activeStates)
    {next : BatchProgress σ}
    (reached : Tracks reads batch now before (done ++
      (states.filter (survives reads batch now done)).map (visitTo relationID metadata))
      next) :
    Tracks reads batch now before (done ++ states.map (visitTo relationID metadata)) next where
  planned := by
    intro visit member
    rcases List.mem_append.mp member with performed | member
    · exact tracks.planned visit performed
    · obtain ⟨state, listed, rfl⟩ := List.mem_map.mp member
      exact ⟨state, (mem_activeStates tracks.namedBefore).mp (members state listed), rfl⟩
  indexed := reached.indexed
  absent := reached.absent
  agrees handle state found := by
    rw [← tracks.lifeOf_filter members found]
    exact reached.agrees handle state found

theorem follows_restore (tracks : Tracks reads batch now before done progress)
    (members : ∀ state ∈ states, state ∈ before.activeStates)
    {outcome : Except RuntimeError Unit × BatchProgress σ}
    (follows : Follows (Tracks reads batch now before) done
      ((states.filter (survives reads batch now done)).map (visitTo relationID metadata))
      outcome) :
    Follows (Tracks reads batch now before) done
      (states.map (visitTo relationID metadata)) outcome := by
  obtain ⟨result, next⟩ := outcome
  cases result with
  | ok value => exact tracks.restore members follows
  | error error =>
      obtain ⟨part, early, reached⟩ := follows
      obtain ⟨performed, surviving, rfl⟩ := List.prefix_map_iff.mp early
      obtain ⟨first, leading, rfl⟩ := List.prefix_filter_iff.mp surviving
      refine ⟨first.map (visitTo relationID metadata), leading.map _, ?_⟩
      exact tracks.restore (fun state member => members state (leading.subset member)) reached

end Plans

section Relations

theorem visitTo_lifeOf (relationID : RelationID) (metadata : RelationMetadata)
    (state : State) (visits : List Visit) :
    visitTo relationID metadata (lifeOf reads batch now state visits).state =
      visitTo relationID metadata state := by
  have same : SameIdentity (lifeOf reads batch now state visits).state state :=
    lifeOf_identity state visits
  simp [visitTo, same.handle, same.definition]

theorem Tracks.visits (tracks : Tracks reads batch now before done progress)
    {test : State → Bool}
    (stable : ∀ left right : State, SameIdentity left right → test left = test right) :
    (progress.manager.activeStates.filter test).map (visitTo relationID metadata) =
      ((before.activeStates.filter test).filter (survives reads batch now done)).map
        (visitTo relationID metadata) := by
  have kept : ∀ state, test (lifeOf reads batch now state done).state = test state :=
    fun state => stable _ _ (lifeOf_identity state done)
  rw [tracks.activeStates, List.filter_map, List.map_map, List.filter_filter,
    List.filter_filter]
  simp only [Function.comp_def, kept, visitTo_lifeOf, Bool.and_comm]

theorem Tracks.origin (tracks : Tracks reads batch now before done progress)
    {item : State} (member : item ∈ progress.manager.activeStates) :
    ∃ state, before.active? item.handle = some state ∧
      item = (lifeOf reads batch now state done).state := by
  rw [tracks.activeStates] at member
  obtain ⟨state, survivor, rfl⟩ := List.mem_map.mp member
  refine ⟨state, ?_, rfl⟩
  rw [(lifeOf_identity state done).handle]
  exact (mem_activeStates tracks.namedBefore).mp (List.mem_of_mem_filter survivor)

theorem Tracks.planned_of_active (tracks : Tracks reads batch now before done progress)
    {item : State} (member : item ∈ progress.manager.activeStates) :
    Planned before (visitTo relationID metadata item) := by
  obtain ⟨state, active, identity⟩ := tracks.origin member
  refine ⟨state, active, ?_⟩
  rw [visitTo_definition, identity, (lifeOf_identity state done).definition]

variable [Store σ]

theorem refreshTargetedShapes_follow
    (tracks : Tracks reads batch now before done progress) :
    Follows (Tracks reads batch now before) done
      ((before.activeStates.filter (isTargetedBy · metadata)).map
        (visitTo relationID metadata))
      (untilError (refreshTargetedShape reads batch relationID metadata now) progress
        (candidateShapes progress.manager metadata)) := by
  refine follows_restore tracks (fun _ member => List.mem_of_mem_filter member) ?_
  have plan : (candidateShapes progress.manager metadata).flatMap (fun item =>
        if definitionSupportsTargetedRefresh item.definition then
          [visitTo relationID metadata item] else []) =
      ((before.activeStates.filter (isTargetedBy · metadata)).filter
        (survives reads batch now done)).map (visitTo relationID metadata) := by
    rw [candidateShapes_eq tracks.indexed, flatMap_visits _
      fun item => definitionSupportsTargetedRefresh item.definition, List.filter_filter]
    refine tracks.visits fun left right same => ?_
    simp [followsRelation, same.definition, same.relationIndex]
  rw [← plan]
  refine Follows.untilError ?_ tracks
  intro earlier item later current split reached
  have member : item ∈ candidateShapes progress.manager metadata := by simp [split]
  rw [candidateShapes_eq tracks.indexed] at member
  have listed := List.mem_of_mem_filter member
  obtain ⟨state, active, -⟩ := tracks.origin listed
  have found := (Manager.active?_eq_some.mp active).1
  exact refreshTargetedShape_follows reached (tracks.planned_of_active listed)
    (reached.agrees _ state found).state

theorem refreshDependentShapes_follow
    (tracks : Tracks reads batch now before done progress) :
    Follows (Tracks reads batch now before) done
      ((before.activeStates.filter (isDependentOn · metadata)).map
        (visitTo relationID metadata))
      (refreshDependentShapesForRelation reads batch relationID metadata now progress) := by
  refine follows_restore tracks (fun _ member => List.mem_of_mem_filter member) ?_
  rw [← tracks.visits (fun left right same => by
    simp [isDependentOn, same.definition]), ← flatMap_visits]
  refine Follows.untilError ?_ tracks
  intro earlier item later current split reached
  have listed : item ∈ progress.manager.activeStates := by simp [split]
  obtain ⟨state, active, identity⟩ := tracks.origin listed
  have found := (Manager.active?_eq_some.mp active).1
  have named : item.handle = state.handle := (tracks.named found).symm
  refine refreshDependentShape_follows reached (tracks.planned_of_active listed)
    (reached.agrees _ state found).state ?_
  -- the turns before this one went to other shapes
  have others : ∀ visit ∈ earlier.flatMap (fun item =>
        if isDependentOn item metadata then [visitTo relationID metadata item] else []),
      visit.handle ≠ state.handle ∧
        definitionSupportsTargetedRefresh visit.definition = false := by
    intro visit member
    rw [flatMap_visits] at member
    obtain ⟨other, visited, rfl⟩ := List.mem_map.mp member
    obtain ⟨preceding, dependent⟩ := List.mem_filter.mp visited
    have ordered := activeStates_handleOrdered tracks.indexed.named
    rw [split] at ordered
    have below := (List.pairwise_append.mp ordered).2.2 other preceding item (by simp)
    simp only [isDependentOn, Bool.and_eq_true, Bool.not_eq_true'] at dependent
    refine ⟨?_, dependent.1⟩
    rw [visitTo_handle, ← named]
    exact ne_of_lt below
  rw [lifeOf_append_others others, ← identity]
  exact (Manager.active?_eq_some.mp ((mem_activeStates tracks.indexed.named).mp listed)).2

theorem applyRelation_follows {cache : RelationCache}
    (tracks : Tracks reads batch now before done progress) (relationID : RelationID) :
    Follows (Tracks reads batch now before) done
      (relationVisits before cache batch relationID)
      (applyRelation reads batch now cache progress relationID) := by
  unfold relationVisits applyRelation
  cases cache[relationID]? with
  | none => simpa [Follows] using tracks
  | some metadata =>
      by_cases unchanged : (changedKeyRows batch relationID).isEmpty = true
      · simpa only [if_pos unchanged, Follows, List.append_nil] using tracks
      · simp only [if_neg unchanged, List.map_append]
        exact (refreshTargetedShapes_follow tracks).thenStep fun _ reached =>
          refreshDependentShapes_follow reached

/-- The loops of `applyChangeBatch` visit the shapes in an order that is fixed when
they begin, and an error ends them at one of the visits. -/
theorem applyRelations_follows {cache : RelationCache} (indexed : before.Indexed) :
    Follows (Tracks reads batch now before) [] (batchVisits before cache batch)
      (applyRelations reads batch now cache before) :=
  Follows.untilError (fun _ relationID _ _ _ reached =>
    applyRelation_follows reached relationID) (Tracks.begin indexed)

end Relations

theorem applyRelations_of_applyChangeBatch [Store σ] [LSNText] {runtime : Runtime σ}
    (applied : (applyChangeBatch reads batch now runtime).1 = .ok ()) :
    ∃ progress, applyRelations reads batch now runtime.relationCache runtime.shapes =
      (.ok (), progress) := by
  dsimp only [applyChangeBatch] at applied
  cases outcome : applyRelations reads batch now runtime.relationCache runtime.shapes with
  | mk result progress =>
      rw [outcome] at applied
      cases result with
      | error error => cases applied
      | ok _ => exact ⟨progress, rfl⟩

variable (reads batch now) in
/-- What `applyChangeBatch` has done to the shape: it has carried out the visits of
the plan, or the first of them when it has failed. -/
theorem applyChangeBatch_life [Store σ] [LSNText] {runtime : Runtime σ}
    (indexed : runtime.shapes.Indexed) :
    ∃ part installed,
      part <+: batchVisits runtime.shapes runtime.relationCache batch ∧
      ((applyChangeBatch reads batch now runtime).1 = .ok () →
        part = batchVisits runtime.shapes runtime.relationCache batch) ∧
      (∀ visit ∈ part, Planned runtime.shapes visit) ∧
      (applyChangeBatch reads batch now runtime).2.installed =
        runtime.installed ++ installed ∧
      ∀ (handle : String) (state : State), runtime.shapes.byHandle[handle]? = some state →
        (applyChangeBatch reads batch now runtime).2.shapes.byHandle[handle]? =
            some (lifeOf reads batch now state part).state ∧
          installed.filter (fun entry => entry.state.handle = handle) =
            (lifeOf reads batch now state part).installed := by
  obtain ⟨part, early, complete, tracks⟩ := (applyRelations_follows indexed).part
  refine ⟨part, _, early, fun applied => complete ?_, tracks.planned, ?_,
    fun handle state found => ⟨?_, (tracks.agrees handle state found).installed⟩⟩
  · obtain ⟨progress, succeeded⟩ := applyRelations_of_applyChangeBatch applied
    rw [succeeded]
  · unfold applyChangeBatch
    dsimp only
    split
    · rfl
    · split <;> rfl
  · have held := (tracks.agrees handle state found).state
    unfold applyChangeBatch
    dsimp only
    split
    · exact held
    · split <;> exact held

theorem applyChangeBatch_keeps [Store σ] [LSNText] {runtime : Runtime σ} (reads : Reads)
    (batch : ChangeBatch) (now : Time) (indexed : runtime.shapes.Indexed) :
    (applyChangeBatch reads batch now runtime).2.shapes.Indexed ∧
      ∀ handle : String, runtime.shapes.byHandle[handle]? = none →
        (applyChangeBatch reads batch now runtime).2.shapes.byHandle[handle]? = none := by
  have follows : Follows (Tracks reads batch now runtime.shapes) [] _
    (applyRelations reads batch now runtime.relationCache runtime.shapes) :=
      applyRelations_follows indexed
  obtain ⟨part, -, -, tracks⟩ := follows.part
  unfold applyChangeBatch
  dsimp only
  split
  · exact ⟨tracks.indexed, tracks.absent⟩
  · split
    · exact ⟨⟨tracks.indexed.sound, tracks.indexed.listed, tracks.indexed.named⟩,
        tracks.absent⟩
    · exact ⟨tracks.indexed, tracks.absent⟩

end Tracking

end PostgresSync.Pg
