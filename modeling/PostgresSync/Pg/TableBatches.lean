import PostgresSync.Pg.BatchOffsets
import PostgresSync.Pg.Reactions
import PostgresSync.Pg.RefreshPaths
import PostgresSync.Pg.Table
import PostgresSync.Shapes.RelationIndex

namespace PostgresSync.Pg

open PostgresSync.Data
open PostgresSync.Shapes
open PostgresSync.Storage

/-! What the batch of a transaction does to the shapes of the table that it changes. -/

namespace Table

variable (table : Table)

structure Tells (rows : List Row) : Prop extends table.Holds rows where
  faithful : ∀ row ∈ rows, FaithfulKey table.schema row

def changed (transaction : Transaction) : List String :=
  (table.keys transaction).map table.signature

/-- Some rows of a shape are left as they were and all others are as the table has them;
among these are the rows under the signatures. -/
structure Renews (definition : Definition) (rows : List Row) (signatures : List String)
    (before after : Dict Row) : Prop where
  moves : ∀ signature : String, after[signature]? = before[signature]? ∨
    after[signature]? = (table.expected definition rows)[signature]?
  reached : ∀ signature ∈ signatures,
    after[signature]? = (table.expected definition rows)[signature]?

variable {table} {definition : Definition} {rows : List Row} {signatures : List String}
  {before middle after : Dict Row}

theorem Renews.refl (before : Dict Row) : table.Renews definition rows [] before before :=
  ⟨fun _ => .inl rfl, by simp⟩

theorem Renews.part (renews : table.Renews definition rows signatures before after) :
    table.Renews definition rows [] before after :=
  ⟨renews.moves, by simp⟩

theorem Renews.trans (first : table.Renews definition rows signatures before middle)
    (second : table.Renews definition rows [] middle after) :
    table.Renews definition rows signatures before after := by
  constructor
  · intro signature
    rcases second.moves signature with same | fresh
    · rw [same]
      exact first.moves signature
    · exact .inr fresh
  · intro signature listed
    rcases second.moves signature with same | fresh
    · rw [same]
      exact first.reached signature listed
    · exact fresh

theorem Tells.differ (tells : table.Tells rows) (definition : Definition) :
    SignaturesDiffer (table.schemaFor definition) (table.selected definition rows) := by
  intro first one second two same
  obtain ⟨left, leftSelected, rfl⟩ := List.mem_map.mp one
  obtain ⟨right, rightSelected, rfl⟩ := List.mem_map.mp two
  have leftListed := List.mem_of_mem_filter leftSelected
  have rightListed := List.mem_of_mem_filter rightSelected
  rw [signature_selectRow, signature_selectRow] at same
  have key := ((tells.faithful left leftListed).own right
    (tells.complete right rightListed)).mp same
  rw [tells.unique left leftListed right rightListed key]

theorem Tells.getElem?_expected (tells : table.Tells rows) {signature : String} {row : Row} :
    (table.expected definition rows)[signature]? = some row ↔
      row ∈ table.selected definition rows ∧ table.signature row = signature := by
  rw [expected, (tells.differ definition).getElem?_materializedRows, signature_schemaFor]

section Visits

variable (table) in
structure Visited (visit : Visit) : Prop where
  relationID : visit.relationID = table.relationID
  metadata : visit.metadata = table.metadata
  relation : visit.definition.relation = table.relation

variable {transaction : Transaction} {now : Time} {life : Life} {visit : Visit}

variable (table rows) in
def reads : Reads := fun _ _ => table.database rows

theorem Visited.read (visited : table.Visited visit) (tells : table.Tells rows)
    (faithful : table.Faithful transaction) (some : table.keys transaction ≠ []) :
    ∃ snapshot, visit.read (table.reads rows) (transaction.batch table.cache) = .ok snapshot ∧
      snapshot.schema = table.schemaFor visit.definition ∧
      if definitionSupportsTargetedRefresh visit.definition then
        Restricts (table.schemaFor visit.definition) (table.keys transaction)
          (table.selected visit.definition rows) snapshot.rows
      else
        snapshot.rows = table.selected visit.definition rows := by
  unfold Visit.read
  dsimp only
  rw [visited.relationID, visited.metadata]
  split
  · obtain ⟨restricted, read, restricts⟩ :=
      snapshotChangedKeys_database visited.relation tells.toHolds faithful some
    exact ⟨_, read, rfl, restricts⟩
  · exact ⟨_, snapshot_database visited.relation, rfl, rfl⟩

variable [Digest]

theorem Visited.other (visited : table.Visited visit) (tells : table.Tells rows)
    (faithful : table.Faithful transaction) (some : table.keys transaction ≠ [])
    (other : visit.handle ≠ life.state.handle) :
    life.visit (table.reads rows) (transaction.batch table.cache) now visit = life := by
  obtain ⟨snapshot, read, -⟩ := visited.read tells faithful some
  refine Life.visit_other other fun relation missing => ?_
  rw [read] at missing
  cases missing

theorem Visited.targeted (visited : table.Visited visit) (tells : table.Tells rows)
    (faithful : table.Faithful transaction) (some : table.keys transaction ≠ [])
    (alive : life.state.deleted = false) (own : visit.handle = life.state.handle)
    (targeted : definitionSupportsTargetedRefresh visit.definition = true) :
    table.Renews visit.definition rows (table.changed transaction) life.state.materialized
      (life.visit (table.reads rows) (transaction.batch table.cache) now
        visit).state.materialized := by
  obtain ⟨snapshot, read, schema, restricts⟩ := visited.read tells faithful some
  rw [if_pos targeted] at restricts
  have keyRows : changedKeyRows (transaction.batch table.cache) visit.relationID =
      table.keys transaction := by
    rw [visited.relationID]
    rfl
  have changed : (table.keys transaction).map
      (Shapes.primaryKeySignature (table.schemaFor visit.definition)) =
        table.changed transaction :=
    List.map_congr_left fun key _ => signature_schemaFor key
  rw [Life.visit_own_targeted alive own targeted read, Life.refreshKeys_materialized,
    KeyRead.over, keyRows, schema]
  have lookup (signature : String) (listed : signature ∈ table.changed transaction) :
      (materializedRows (table.schemaFor visit.definition) snapshot.rows)[signature]? =
        (table.expected visit.definition rows)[signature]? :=
    restricts.getElem?_materializedRows (tells.differ visit.definition) (changed ▸ listed)
  constructor
  · intro signature
    rw [getElem?_overlayRows]
    split
    · next member =>
        exact .inr (lookup signature (changed ▸ (restricts.mem_targetedKeySet.mp member).2))
    · exact .inl rfl
  · intro signature listed
    have shown : signature ≠ "" := by
      obtain ⟨key, member, rfl⟩ := List.mem_map.mp listed
      exact (faithful.faithful key member).shown
    rw [getElem?_overlayRows, if_pos
      (restricts.mem_targetedKeySet.mpr ⟨shown, changed.symm ▸ listed⟩)]
    exact lookup signature listed

theorem Visited.dependent (visited : table.Visited visit) (tells : table.Tells rows)
    (faithful : table.Faithful transaction) (some : table.keys transaction ≠ [])
    (alive : life.state.deleted = false) (own : visit.handle = life.state.handle)
    (untargeted : definitionSupportsTargetedRefresh visit.definition = false)
    (fresh : life.refreshed = false)
    (survives : (life.visit (table.reads rows) (transaction.batch table.cache) now
      visit).state.deleted = false) :
    table.Renews visit.definition rows (table.changed transaction) life.state.materialized
      (life.visit (table.reads rows) (transaction.batch table.cache) now
        visit).state.materialized := by
  obtain ⟨snapshot, read, schema, whole⟩ := visited.read tells faithful some
  rw [untargeted, if_neg Bool.false_ne_true] at whole
  rw [Life.visit_own_dependent alive own fresh untargeted, Life.refreshDependent] at survives ⊢
  cases supported : definitionSupportsDependentRefresh visit.definition with
  | false =>
      rw [supported, if_neg Bool.false_ne_true] at survives
      cases survives
  | true =>
      rw [if_pos rfl, read]
      have renewed : (life.refresh (transaction.batch table.cache) now visit
          snapshot).state.materialized = table.expected visit.definition rows := by
        refine (State.refresh_materialized _ _ _ _).trans ?_
        rw [schema, whole]
        rfl
      exact ⟨fun signature => .inr (by rw [renewed]), fun signature _ => by rw [renewed]⟩

theorem Visited.own (visited : table.Visited visit) (tells : table.Tells rows)
    (faithful : table.Faithful transaction) (some : table.keys transaction ≠ [])
    (alive : life.state.deleted = false) (own : visit.handle = life.state.handle)
    (survives : (life.visit (table.reads rows) (transaction.batch table.cache) now
      visit).state.deleted = false) :
    table.Renews visit.definition rows [] life.state.materialized
        (life.visit (table.reads rows) (transaction.batch table.cache) now
          visit).state.materialized ∧
      (life.refreshed = false →
        table.Renews visit.definition rows (table.changed transaction) life.state.materialized
          (life.visit (table.reads rows) (transaction.batch table.cache) now
            visit).state.materialized) := by
  cases targeted : definitionSupportsTargetedRefresh visit.definition with
  | true =>
      have renews := @Visited.targeted _ _ _ now life visit _ visited tells faithful
        some alive own targeted
      exact ⟨renews.part, fun _ => renews⟩
  | false =>
      cases refreshed : life.refreshed with
      | true =>
          rw [Life.visit_refreshed refreshed targeted]
          exact ⟨.refl _, nofun⟩
      | false =>
          have renews := visited.dependent tells faithful some alive own targeted refreshed
            survives
          exact ⟨renews.part, fun _ => renews⟩

theorem foldl_visit_renews (tells : table.Tells rows) (faithful : table.Faithful transaction)
    (some : table.keys transaction ≠ []) {visits : List Visit}
    (visited : ∀ visit ∈ visits, table.Visited visit)
    (planned : ∀ visit ∈ visits, visit.handle = life.state.handle →
      visit.definition = life.state.definition)
    (survives : (visits.foldl (Life.visit (table.reads rows) (transaction.batch table.cache)
      now) life).state.deleted = false) :
    table.Renews life.state.definition rows [] life.state.materialized
        (visits.foldl (Life.visit (table.reads rows) (transaction.batch table.cache) now)
          life).state.materialized ∧
      ((∃ visit ∈ visits, visit.handle = life.state.handle) → life.refreshed = false →
        table.Renews life.state.definition rows (table.changed transaction)
          life.state.materialized
          (visits.foldl (Life.visit (table.reads rows) (transaction.batch table.cache) now)
            life).state.materialized) := by
  induction visits generalizing life with
  | nil => exact ⟨.refl _, by simp⟩
  | cons visit rest hypothesis =>
      have first := visited visit List.mem_cons_self
      have later := fun visit member => visited visit (List.mem_cons_of_mem _ member)
      rw [List.foldl_cons] at survives ⊢
      have same : SameIdentity (life.visit (table.reads rows) (transaction.batch table.cache)
          now visit).state life.state := Life.visit_identity life visit
      by_cases own : visit.handle = life.state.handle
      · have reached : (life.visit (table.reads rows) (transaction.batch table.cache) now
            visit).state.deleted = false := by
          by_contra dead
          rw [foldl_visit_of_deleted (Bool.not_eq_false _ ▸ dead)] at survives
          exact dead survives
        have alive : life.state.deleted = false := by
          by_contra dead
          rw [Life.visit_of_deleted (Bool.not_eq_false _ ▸ dead)] at reached
          exact dead reached
        obtain ⟨moved, renewed⟩ := first.own tells faithful some alive own reached
        obtain ⟨continued, -⟩ := hypothesis later (by
          rw [same.handle, same.definition]
          exact fun visit member => planned visit (List.mem_cons_of_mem _ member)) survives
        rw [planned visit List.mem_cons_self own] at moved renewed
        rw [same.definition] at continued
        exact ⟨moved.trans continued, fun _ fresh => (renewed fresh).trans continued⟩
      · rw [first.other tells faithful some own] at survives ⊢
        obtain ⟨moved, renewed⟩ := hypothesis later
          (fun visit member => planned visit (List.mem_cons_of_mem _ member)) survives
        refine ⟨moved, fun ⟨other, member, handle⟩ => renewed ?_⟩
        rcases List.mem_cons.mp member with rfl | member
        · exact absurd handle own
        · exact ⟨other, member, handle⟩

end Visits

section Batches

variable {transaction : Transaction}

theorem cache_some {relationID : RelationID} {metadata : RelationMetadata}
    (cached : table.cache[relationID]? = some metadata) :
    relationID = table.relationID ∧ metadata = table.metadata := by
  rw [cache, Std.ExtTreeMap.getElem?_insert] at cached
  split at cached
  · next same =>
      rw [Std.LawfulEqCmp.compare_eq_iff_eq] at same
      exact ⟨same.symm, (Option.some.inj cached).symm⟩
  · simp at cached

variable {manager : Manager σ}

theorem visited_of_mem (ours : ∀ state ∈ manager.activeStates,
      state.definition.relation = table.relation) {visit : Visit}
    (member : visit ∈ batchVisits manager table.cache (transaction.batch table.cache)) :
    table.Visited visit ∧ table.keys transaction ≠ [] := by
  obtain ⟨relationID, -, member⟩ := List.mem_flatMap.mp member
  obtain ⟨metadata, cached, changed, state, active, -, rfl⟩ := mem_relationVisits.mp member
  obtain ⟨rfl, rfl⟩ := cache_some cached
  refine ⟨⟨rfl, rfl, ours state active⟩, ?_⟩
  intro none
  rw [show changedKeyRows (transaction.batch table.cache) table.relationID = [] from none]
    at changed
  cases changed

theorem exists_visit {state : State} (active : state ∈ manager.activeStates)
    (ours : state.definition.relation = table.relation) (some : table.keys transaction ≠ []) :
    visitTo table.relationID table.metadata state ∈
      batchVisits manager table.cache (transaction.batch table.cache) := by
  refine List.mem_flatMap.mpr ⟨_, Transaction.relationID_mem_batch some, mem_relationVisits.mpr
    ⟨_, cached, by simpa [keys] using some, state, active, ?_, rfl⟩⟩
  have own : state.definition.relation = table.metadata.relation := ours
  cases targeted : definitionSupportsTargetedRefresh state.definition with
  | true =>
      refine .inl ?_
      simp [isTargetedBy, followsRelation, State.relationIndex, targeted, own]
  | false =>
      refine .inr ?_
      simp [isDependentOn, targeted, requiresInvalidation_own targeted (.inl own)]

variable [Store σ] [Digest] [LSNText] {runtime : Runtime σ}

theorem active_before_batch {reads : Reads} {batch : ChangeBatch} {now : Time}
    (indexed : runtime.shapes.Indexed) {handle : String} {next : State}
    (active : (applyChangeBatch reads batch now runtime).2.shapes.active? handle = some next) :
    ∃ state, runtime.shapes.active? handle = some state := by
  obtain ⟨reached, alive⟩ := Manager.active?_eq_some.mp active
  cases found : runtime.shapes.byHandle[handle]? with
  | none =>
      rw [(applyChangeBatch_keeps reads batch now indexed).2 handle found] at reached
      cases reached
  | some state =>
      refine ⟨state, Manager.active?_eq_some.mpr ⟨found, ?_⟩⟩
      obtain ⟨part, installed, -, -, -, -, lives⟩ :=
        applyChangeBatch_life reads batch now indexed
      obtain ⟨held, -⟩ := lives handle state found
      by_contra dead
      rw [reached] at held
      rw [Option.some.inj held, lifeOf, foldl_visit_of_deleted (Bool.not_eq_false _ ▸ dead)]
        at alive
      exact dead alive

/-- A shape that is there after the batch has rows that it had and rows of the table; after a
batch that succeeds, its rows under the changed keys are those of the table. -/
theorem applyChangeBatch_renews (tells : table.Tells rows)
    (faithful : table.Faithful transaction) (indexed : runtime.shapes.Indexed)
    (known : runtime.relationCache = table.cache)
    (ours : ∀ state ∈ runtime.shapes.activeStates, state.definition.relation = table.relation)
    {now : Time} {handle : String} {next : State}
    (active : (applyChangeBatch (table.reads rows) (transaction.batch table.cache) now
      runtime).2.shapes.active? handle = some next) :
    ∃ state, runtime.shapes.active? handle = some state ∧
      next.definition = state.definition ∧
      table.Renews state.definition rows [] state.materialized next.materialized ∧
      ((applyChangeBatch (table.reads rows) (transaction.batch table.cache) now
          runtime).1 = .ok () →
        table.Renews state.definition rows (table.changed transaction) state.materialized
          next.materialized) := by
  obtain ⟨state, before⟩ := active_before_batch indexed active
  obtain ⟨part, installed, early, whole, planned, -, lives⟩ :=
    applyChangeBatch_life (table.reads rows) (transaction.batch table.cache) now indexed
  obtain ⟨found, alive⟩ := Manager.active?_eq_some.mp before
  obtain ⟨reached, survives⟩ := Manager.active?_eq_some.mp active
  obtain ⟨held, -⟩ := lives handle state found
  rw [reached] at held
  obtain rfl := Option.some.inj held
  have named : state.handle = handle := indexed.named handle state found
  have listed : state ∈ runtime.shapes.activeStates :=
    (mem_activeStates indexed.named).mpr (named ▸ before)
  rw [known] at early whole
  refine ⟨state, before, (lifeOf_identity state part).definition, ?_⟩
  cases keys : table.keys transaction with
  | nil =>
      -- without a key no shape is visited
      have none : part = [] := by
        refine List.eq_nil_iff_forall_not_mem.mpr fun visit member => ?_
        exact (visited_of_mem ours (early.subset member)).2 keys
      rw [none, lifeOf_nil, changed, keys]
      exact ⟨.refl _, fun _ => .refl _⟩
  | cons key rest =>
      have some : table.keys transaction ≠ [] := keys ▸ List.cons_ne_nil _ _
      obtain ⟨moved, renewed⟩ := foldl_visit_renews tells faithful some
        (fun visit member => (visited_of_mem ours (early.subset member)).1)
        (by
          intro visit member own
          obtain ⟨other, visited, definition⟩ := planned visit member
          rw [own, named, before] at visited
          rw [← definition, Option.some.inj visited]) survives
      refine ⟨moved, fun succeeded => renewed
        ⟨visitTo table.relationID table.metadata state, ?_, rfl⟩ rfl⟩
      rw [whole succeeded]
      exact exists_visit listed (ours state listed) some

end Batches

end Table

end PostgresSync.Pg
