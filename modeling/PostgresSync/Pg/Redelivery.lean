import PostgresSync.Data.Run
import PostgresSync.Pg.BatchOffsets
import PostgresSync.Shapes.RelationIndex

namespace PostgresSync.Pg

open PostgresSync.Data
open PostgresSync.Shapes
open PostgresSync.Storage

/-! A transaction that is delivered again.  Its rows are read as they are by then, and what
is new in them is logged under the offsets of the first delivery. -/

section Past

variable {lsn : UInt64} {start finish : Life} {counts : List Nat} {during : List State}

def AppendsPast (state next : State) : Prop :=
  ∃ appended, next.changes = state.changes ++ appended ∧
    ∀ message ∈ appended, compareOffsets state.currentOffset message.offset = .lt

theorem offsetCommit_lt_of_lt {offset : String} (committed : 0 < lsn)
    (below : compareOffsets offset (formatLSNOffset lsn (0 : Nat)) = .lt) :
    offsetCommit offset < lsn := by
  rw [compareOffsets_eq_lt, offsetPosition_formatLSNOffset committed (by decide)] at below
  unfold offsetPosition at below
  unfold offsetCommit
  cases parsed : parseOffset offset with
  | none => exact committed
  | some position =>
      cases position with
      | sequence seq => exact committed
      | now => exact committed
      | lsn commit opPos =>
          rw [parsed, WithBot.coe_lt_coe, ParsedOffset.lsn_lt_lsn] at below
          exact below.resolve_right fun same => Nat.not_lt_zero opPos same.2

theorem Writes.appendsPast_iff (writes : Writes lsn start finish counts during)
    (committed : 0 < lsn) (bound : finish.state.changes.length < 2 ^ 63) :
    AppendsPast start.state finish.state ↔
      counts = [] ∨ offsetCommit start.state.currentOffset < lsn := by
  obtain ⟨written, changes, offsets⟩ := writes.changes
  constructor
  · rintro ⟨appended, same, past⟩
    obtain rfl : appended = written := List.append_cancel_left (same.symm.trans changes)
    cases counts with
    | nil => exact .inl rfl
    | cons count rest =>
        have positive : 0 < count := writes.positive count List.mem_cons_self
        have first : formatLSNOffset lsn (0 : Nat) ∈ appended.map (·.offset) := by
          rw [offsets, List.flatMap_cons]
          exact List.mem_append_left _ (List.mem_map.mpr ⟨0, List.mem_range.mpr positive, rfl⟩)
        obtain ⟨message, member, offset⟩ := List.mem_map.mp first
        exact .inr (offsetCommit_lt_of_lt committed (offset ▸ past message member))
  · intro condition
    refine ⟨written, changes, fun message member => ?_⟩
    have listed : message.offset ∈ counts.flatMap (commitOffsets lsn) :=
      offsets ▸ List.mem_map_of_mem member
    obtain ⟨count, counted, among⟩ := List.mem_flatMap.mp listed
    have later : offsetCommit start.state.currentOffset < lsn := by
      refine condition.resolve_left fun none => ?_
      rw [none] at counted
      exact List.not_mem_nil counted
    have size : count ≤ 2 ^ 63 := by
      have written : commitOffsets lsn count ∈ counts.map (commitOffsets lsn) :=
        List.mem_map_of_mem counted
      have few := (List.sublist_flatten_of_mem written).length_le
      rw [← List.flatMap_def, ← offsets, List.length_map, commitOffsets, List.length_map,
        List.length_range] at few
      rw [changes, List.length_append] at bound
      omega
    exact lt_commitOffsets later size among

end Past

section Whole

variable (reads : Reads) (batch : ChangeBatch) (state : State)

/-- The read of the whole definition that is installed for a shape not refreshed by key. -/
def wholeRead : List Visit → Option SnapshotResult
  | [] => none
  | visit :: rest =>
      if findsMissing reads batch state visit then
        none
      else if visit.handle = state.handle then
        if definitionSupportsDependentRefresh visit.definition then
          match visit.read reads batch with
          | .ok snapshot => some snapshot
          | .error (.relationNotFound _) => none
          | .error _ => wholeRead rest
        else
          none
      else
        wholeRead rest

def FindsUnchanged (visits : List Visit) : Prop :=
  if definitionSupportsTargetedRefresh state.definition then
    changingReads state.materialized (keyReads reads batch state visits) = 0
  else
    ∀ snapshot ∈ wholeRead reads batch state visits,
      SameRows state.materialized (materializedRows snapshot.schema snapshot.rows)

instance (visits : List Visit) : Decidable (FindsUnchanged reads batch state visits) := by
  unfold FindsUnchanged
  infer_instance

variable {reads batch state}

theorem wholeRead_of_part {part visits : List Visit} (early : part <+: visits)
    {snapshot : SnapshotResult} (read : wholeRead reads batch state part = some snapshot) :
    wholeRead reads batch state visits = some snapshot := by
  induction part generalizing visits with
  | nil => cases read
  | cons visit rest hypothesis =>
      obtain ⟨later, rfl⟩ := early
      have continued := hypothesis (List.prefix_append rest later)
      rw [List.cons_append, wholeRead]
      rw [wholeRead] at read
      split at read
      next => cases read
      next present =>
        rw [if_neg present]
        split at read
        next own =>
          rw [if_pos own]
          split at read
          next supported =>
            rw [if_pos supported]
            split at read
            · exact read
            · cases read
            · exact continued read
          next => cases read
        next other =>
          rw [if_neg other]
          exact continued read

theorem FindsUnchanged.of_part {part visits : List Visit} (early : part <+: visits)
    (unchanged : FindsUnchanged reads batch state visits) :
    FindsUnchanged reads batch state part := by
  unfold FindsUnchanged at *
  split at unchanged
  next targeted =>
    rw [if_pos targeted]
    exact Nat.le_zero.mp
      ((changingReads_le_of_part (keyReads_of_part early) _).trans (Nat.le_of_eq unchanged))
  next untargeted =>
    rw [if_neg untargeted]
    intro snapshot read
    exact unchanged snapshot (wholeRead_of_part early read)

end Whole

section Counting

variable [Digest] {reads : Reads} {batch : ChangeBatch} {now : Time}

variable (reads batch now) in
/-- The visits write to the shape at most once, and only for a read that changes its rows. -/
def WritesWholeRead (life : Life) (visits : List Visit) : Prop :=
  ∃ counts during,
    Writes batch.commitLSN life (visits.foldl (Life.visit reads batch now) life)
      counts during ∧
    (counts = [] ↔ ∀ snapshot ∈ wholeRead reads batch life.state visits,
      SameRows life.state.materialized (materializedRows snapshot.schema snapshot.rows))

variable {life : Life} {visit : Visit} {rest : List Visit}

/-- A shape that is dead after a visit is written to no more. -/
theorem WritesWholeRead.stops
    (dead : (life.visit reads batch now visit).state.deleted = true)
    (silent : Writes batch.commitLSN life (life.visit reads batch now visit) [] [])
    (unread : wholeRead reads batch life.state (visit :: rest) = none) :
    WritesWholeRead reads batch now life (visit :: rest) := by
  rw [WritesWholeRead, List.foldl_cons, foldl_visit_of_deleted dead]
  exact ⟨[], [], silent, by simp [unread]⟩

theorem WritesWholeRead.goes (same : life.visit reads batch now visit = life)
    (unread : wholeRead reads batch life.state (visit :: rest) =
      wholeRead reads batch life.state rest)
    (later : WritesWholeRead reads batch now life rest) :
    WritesWholeRead reads batch now life (visit :: rest) := by
  rw [WritesWholeRead, List.foldl_cons, same, unread]
  exact later

theorem writes_wholeRead (committed : 0 < batch.commitLSN)
    (alive : life.state.deleted = false) (fresh : life.refreshed = false)
    (untargeted : definitionSupportsTargetedRefresh life.state.definition = false)
    {visits : List Visit}
    (planned : ∀ visit ∈ visits, visit.handle = life.state.handle →
      visit.definition = life.state.definition) :
    WritesWholeRead reads batch now life visits := by
  induction visits with
  | nil => exact ⟨[], [], .silent rfl rfl rfl, by simp [wholeRead]⟩
  | cons visit rest hypothesis =>
      have later := hypothesis fun other member => planned other (List.mem_cons_of_mem _ member)
      cases missing : findsMissing reads batch life.state visit with
      | true =>
          obtain ⟨dead, silent⟩ := Life.visit_findsMissing now missing
          exact .stops dead silent (by simp [wholeRead, missing])
      | false =>
          by_cases own : visit.handle = life.state.handle
          · have whole : definitionSupportsTargetedRefresh visit.definition = false := by
              rw [planned visit List.mem_cons_self own, untargeted]
            have visited := @Life.visit_own_dependent _ reads batch now life visit alive own
              fresh whole
            have buried : Writes batch.commitLSN life (life.bury now) [] [] :=
              .silent rfl rfl rfl
            cases supported : definitionSupportsDependentRefresh visit.definition with
            | false =>
                rw [Life.refreshDependent, supported, if_neg Bool.false_ne_true] at visited
                refine .stops ?_ ?_ (by simp [wholeRead, missing, own, supported])
                · rw [visited]
                  rfl
                · rw [visited]
                  exact buried
            | true =>
                rw [Life.refreshDependent, if_pos supported] at visited
                cases read : visit.read reads batch with
                | error error =>
                    rw [read] at visited
                    by_cases gone : ∃ relation, error = .relationNotFound relation
                    · obtain ⟨relation, rfl⟩ := gone
                      refine .stops ?_ ?_ (by simp [wholeRead, missing, own, supported, read])
                      · rw [visited]
                        rfl
                      · rw [visited]
                        exact buried
                    · refine .goes ?_ ?_ later
                      · cases error <;> first | exact absurd ⟨_, rfl⟩ gone | exact visited
                      · cases error <;> first
                          | exact absurd ⟨_, rfl⟩ gone
                          | simp [wholeRead, missing, own, supported, read]
                | ok snapshot =>
                    rw [read] at visited
                    have stamped : 0 < (dependentMetadata batch visit.metadata).commitLSN :=
                      committed
                    obtain ⟨rows, count, logged, silent⟩ :=
                      refresh_logged stamped life.state snapshot now
                    have same : SameIdentity (life.refresh batch now visit snapshot).state
                        life.state := Life.refresh_identity life visit snapshot
                    obtain ⟨counts, during, writes, few⟩ := writes_dependent committed rest
                      (life.refresh batch now visit snapshot)
                      (by rw [same.definition, untargeted])
                      (by
                        rw [same.handle, same.definition]
                        exact fun other member =>
                          planned other (List.mem_cons_of_mem _ member))
                    obtain rfl : counts = [] := List.length_eq_zero_iff.mp (Nat.le_zero.mp few)
                    rw [WritesWholeRead, List.foldl_cons, visited]
                    refine ⟨_, _, (Writes.install logged rfl).trans writes, ?_⟩
                    rw [rows] at silent
                    simp [wholeRead, missing, own, supported, read, ← silent]
          · refine .goes ?_ (by simp [wholeRead, missing, own]) later
            exact Life.visit_unread missing (by simp [ownRead, own]) fun same =>
              absurd same own

theorem lifeOf_counts (committed : 0 < batch.commitLSN) {state : State}
    (alive : state.deleted = false) {visits : List Visit}
    (planned : ∀ visit ∈ visits, visit.handle = state.handle →
      visit.definition = state.definition) :
    ∃ counts during,
      Writes batch.commitLSN { state := state } (lifeOf reads batch now state visits)
        counts during ∧
      (counts = [] ↔ FindsUnchanged reads batch state visits) := by
  unfold FindsUnchanged
  cases targeted : definitionSupportsTargetedRefresh state.definition with
  | true =>
      obtain ⟨counts, during, writes, number⟩ := writes_keyReads committed visits
        { state := state } alive targeted planned
      refine ⟨counts, during, writes, ?_⟩
      rw [if_pos rfl, ← number, List.length_eq_zero_iff]
  | false =>
      obtain ⟨counts, during, writes, silent⟩ :=
        @writes_wholeRead _ reads batch now { state := state } committed alive rfl targeted
          visits planned
      exact ⟨counts, during, writes, by simpa using silent⟩

end Counting

section Delivery

variable [Store σ] [Digest] [LSNText] (reads : Reads) (batch : ChangeBatch) (now : Time)
  (runtime : Runtime σ)

def DeliversPast : Prop :=
  ∀ state ∈ runtime.shapes.activeStates, ∃ next,
    (applyChangeBatch reads batch now runtime).2.shapes.byHandle[state.handle]? = some next ∧
      AppendsPast state next

/-- Every shape is behind the commit, or its rows are as the reads of the batch find them. -/
def Undisturbed : Prop :=
  ∀ state ∈ runtime.shapes.activeStates,
    offsetCommit state.currentOffset < batch.commitLSN ∨
      FindsUnchanged reads batch state
        (batchVisits runtime.shapes runtime.relationCache batch)

/-- Logs are slices, whose lengths are `int`s. -/
def LogsFit (manager : Manager σ) : Prop :=
  ∀ state ∈ manager.byHandle.values, state.changes.length < 2 ^ 63

instance : Decidable (Undisturbed reads batch runtime) :=
  inferInstanceAs (Decidable (∀ state ∈ _, _))

instance (manager : Manager σ) : Decidable (LogsFit manager) :=
  inferInstanceAs (Decidable (∀ state ∈ _, _))

variable {reads batch now runtime}

theorem deliversPast_iff (indexed : runtime.shapes.Indexed) (committed : 0 < batch.commitLSN)
    (fit : LogsFit (applyChangeBatch reads batch now runtime).2.shapes) :
    (Undisturbed reads batch runtime → DeliversPast reads batch now runtime) ∧
      ((applyChangeBatch reads batch now runtime).1 = .ok () →
        DeliversPast reads batch now runtime → Undisturbed reads batch runtime) := by
  obtain ⟨part, installed, early, whole, planned, -, lives⟩ :=
    applyChangeBatch_life reads batch now indexed
  have exact : ∀ state ∈ runtime.shapes.activeStates,
      (∃ next, (applyChangeBatch reads batch now runtime).2.shapes.byHandle[state.handle]? =
        some next ∧ AppendsPast state next) ↔
      offsetCommit state.currentOffset < batch.commitLSN ∨
        FindsUnchanged reads batch state part := by
    intro state listed
    have active := (mem_activeStates indexed.named).mp listed
    obtain ⟨found, alive⟩ := Manager.active?_eq_some.mp active
    obtain ⟨held, -⟩ := lives state.handle state found
    have definitions : ∀ visit ∈ part, visit.handle = state.handle →
        visit.definition = state.definition := by
      intro visit member own
      obtain ⟨other, visited, definition⟩ := planned visit member
      rw [own, active] at visited
      rw [← definition, Option.some.inj visited]
    obtain ⟨counts, during, writes, none⟩ :=
      @lifeOf_counts _ reads batch now committed state alive part definitions
    have past := writes.appendsPast_iff committed (fit _ (Dict.mem_values.mpr ⟨_, held⟩))
    rw [← none, or_comm, ← past, held]
    simp
  constructor
  · intro undisturbed state listed
    exact (exact state listed).mpr ((undisturbed state listed).imp_right (.of_part early))
  · intro succeeded past state listed
    rw [← whole succeeded]
    exact (exact state listed).mp (past state listed)

end Delivery

section Runs

structure Deliveries (σ : Type) where
  runtime : Runtime σ
  delivered : List LSN := []

/-- What happens to a runtime: a transaction is delivered, a request calls the manager, the
stream announces a relation, or the process starts again, with whatever a crash has left. -/
inductive Happening (σ : Type) where
  | deliver (reads : Reads) (batch : ChangeBatch) (now : Time)
  | call (call : Call)
  | announce (relationID : RelationID) (metadata : RelationMetadata)
  | restart (runtime : Runtime σ)

variable [Store σ] [Digest] [LSNText]

namespace Deliveries

def step (state : Deliveries σ) : Happening σ → Deliveries σ
  | .deliver reads batch now =>
      ⟨(applyChangeBatch reads batch now state.runtime).2, batch.commitLSN :: state.delivered⟩
  | .call call =>
      { state with
        runtime := { state.runtime with shapes := state.runtime.shapes.perform call } }
  | .announce relationID metadata =>
      { state with
        runtime := { state.runtime with
          relationCache := state.runtime.relationCache.insert relationID metadata } }
  | .restart runtime => { state with runtime := runtime }

def Admits (state : Deliveries σ) : Happening σ → Prop
  | .deliver _ _ _ => True
  | .call call => state.runtime.shapes.TakesFreshHandle call
  | .announce _ _ => True
  | .restart runtime => Arises runtime.shapes

/-- A condition on the deliveries of transactions that have been delivered before. -/
def Redelivering
    (condition : Reads → ChangeBatch → Time → Runtime σ → Prop) (state : Deliveries σ) :
    Happening σ → Prop
  | .deliver reads batch now =>
      0 < batch.commitLSN → batch.commitLSN ∈ state.delivered →
        condition reads batch now state.runtime
  | _ => True

end Deliveries

open Deliveries

theorem Deliveries.step_indexed {state : Deliveries σ} {happening : Happening σ}
    (indexed : state.runtime.shapes.Indexed) (admitted : state.Admits happening) :
    (state.step happening).runtime.shapes.Indexed := by
  cases happening with
  | deliver reads batch now => exact (applyChangeBatch_keeps reads batch now indexed).1
  | call call => exact indexed.perform admitted
  | announce relationID metadata => exact indexed
  | restart runtime => exact Arises.indexed admitted

/-- In every run, if each redelivery finds the shapes behind its commit or their rows as they
are, then what it appends stands past their offsets; and if each redelivery is completed, only
then. -/
theorem redeliveries_append_past_iff {start : Deliveries σ} {run : List (Happening σ)}
    (indexed : start.runtime.shapes.Indexed) (admitted : Along step Admits start run)
    (fit : Along step (fun state happening => LogsFit (state.step happening).runtime.shapes)
      start run) :
    (Along step (Redelivering fun reads batch _ runtime => Undisturbed reads batch runtime)
        start run →
      Along step (Redelivering DeliversPast) start run) ∧
    (Along step (Redelivering fun reads batch now runtime =>
        (applyChangeBatch reads batch now runtime).1 = .ok ()) start run →
      Along step (Redelivering DeliversPast) start run →
        Along step (Redelivering fun reads batch _ runtime => Undisturbed reads batch runtime)
          start run) := by
  have usable := Along.and run start admitted fit
  constructor
  · intro undisturbed
    refine Along.of_invariant (fun state => state.runtime.shapes.Indexed)
      (fun state happening indexed condition => step_indexed indexed condition.1.1) ?_ run start
      indexed (Along.and run start usable undisturbed)
    intro state happening indexed ⟨⟨_, fit⟩, undisturbed⟩
    cases happening with
    | deliver reads batch now =>
        intro committed again
        exact (deliversPast_iff indexed committed fit).1 (undisturbed committed again)
    | call call => trivial
    | announce relationID metadata => trivial
    | restart runtime => trivial
  · intro completed past
    refine Along.of_invariant (fun state => state.runtime.shapes.Indexed)
      (fun state happening indexed condition => step_indexed indexed condition.1.1) ?_ run start
      indexed (Along.and run start usable (Along.and run start completed past))
    intro state happening indexed ⟨⟨_, fit⟩, completed, past⟩
    cases happening with
    | deliver reads batch now =>
        intro committed again
        exact (deliversPast_iff indexed committed fit).2 (completed committed again)
          (past committed again)
    | call call => trivial
    | announce relationID metadata => trivial
    | restart runtime => trivial

end Runs

section Partitions

def renamedDatabase (name : String) : Database :=
  { itemsDatabase with matching := fun _ _ => .ok [itemRow "1" "one", itemRow "2" name] }

def redelivered (first second : String) : List (Happening MemoryStore) :=
  [.deliver (fun _ _ => renamedDatabase first) onePartitionBatch 2000,
    .deliver (fun _ _ => renamedDatabase second) onePartitionBatch 3000]

theorem redelivery_unrenamed :
    letI := tabulatedDigest
    letI := tabulatedLSNText
    Along Deliveries.step (Deliveries.Redelivering DeliversPast) ⟨partitionsRuntime, []⟩
      (redelivered "two" "two") :=
  (@redeliveries_append_past_iff _ _ tabulatedDigest tabulatedLSNText
    ⟨partitionsRuntime, []⟩ (redelivered "two" "two") itemsManagerOver_indexed
    ⟨trivial, trivial, trivial⟩ ⟨by decide +kernel, by decide +kernel, trivial⟩).1
    ⟨fun _ _ => by decide +kernel, fun _ _ => by decide +kernel, trivial⟩

/-- The item has been renamed before the second delivery, which logs the new name at the
offset that the shape has reached already. -/
theorem redelivery_renamed :
    letI := tabulatedDigest
    letI := tabulatedLSNText
    let once := (Deliveries.step ⟨partitionsRuntime, []⟩
      (.deliver (fun _ _ => renamedDatabase "two") onePartitionBatch 2000)).runtime
    (once.shapes.stateAt "fa19db76c4-1").currentOffset = "100_0" ∧
      ((applyChangeBatch (fun _ _ => renamedDatabase "zwei") onePartitionBatch 3000
        once).2.shapes.stateAt "fa19db76c4-1").changes.map (·.offset) = ["100_0", "100_0"] ∧
      ¬ Along Deliveries.step (Deliveries.Redelivering DeliversPast) ⟨partitionsRuntime, []⟩
        (redelivered "two" "zwei") := by
  refine ⟨by decide +kernel, by decide +kernel, ?_⟩
  intro ⟨_, second, _⟩
  have disturbed := (@deliversPast_iff _ _ tabulatedDigest tabulatedLSNText
    (fun _ _ => renamedDatabase "zwei") onePartitionBatch 3000 _
    (@applyChangeBatch_keeps _ tabulatedDigest _ tabulatedLSNText partitionsRuntime
      (fun _ _ => renamedDatabase "two") onePartitionBatch 2000 itemsManagerOver_indexed).1
    (by decide) (by decide +kernel)).2 (by decide +kernel)
    (second (by decide) (by decide +kernel))
  revert disturbed
  decide +kernel

end Partitions

end PostgresSync.Pg
