import PostgresSync.Pg.BatchPlan
import PostgresSync.Pg.ReplicationStart
import PostgresSync.Shapes.ChangeLog
import PostgresSync.Shapes.Refreshes

namespace PostgresSync.Pg

open PostgresSync.Data
open PostgresSync.Shapes
open PostgresSync.Storage

/-! The offsets that one transaction gives to the messages of a shape. -/

structure CurrentIsLargest (state : State) : Prop where
  above : ∀ message ∈ state.changes,
    compareOffsets message.offset state.currentOffset ≠ .gt
  reached : state.changes ≠ [] →
    ∃ message ∈ state.changes, message.offset = state.currentOffset

/-- From one state of a shape to a later one, messages are appended past the current
offset, and the current offset does not go back. -/
structure Advances (state next : State) : Prop where
  appended : ∃ appended, next.changes = state.changes ++ appended ∧
    ∀ message ∈ appended, compareOffsets state.currentOffset message.offset = .lt
  current : compareOffsets next.currentOffset state.currentOffset ≠ .lt

section Advancing

variable {first second third : State}

theorem Advances.trans (left : Advances first second) (right : Advances second third) :
    Advances first third := by
  obtain ⟨⟨earlier, secondChanges, earlierAbove⟩, secondCurrent⟩ := left
  obtain ⟨⟨later, thirdChanges, laterAbove⟩, thirdCurrent⟩ := right
  simp only [ne_eq, compareOffsets_eq_lt, not_lt] at secondCurrent thirdCurrent
  refine ⟨⟨earlier ++ later, ?_, ?_⟩, ?_⟩
  · rw [thirdChanges, secondChanges, List.append_assoc]
  · intro message member
    rcases List.mem_append.mp member with member | member
    · exact earlierAbove message member
    · have above := laterAbove message member
      rw [compareOffsets_eq_lt] at above ⊢
      exact secondCurrent.trans_lt above
  · rw [ne_eq, compareOffsets_eq_lt, not_lt]
    exact secondCurrent.trans thirdCurrent

theorem Advances.of_sameLog (changes : second.changes = first.changes)
    (current : second.currentOffset = first.currentOffset) : Advances first second := by
  refine ⟨⟨[], by simp [changes], by simp⟩, ?_⟩
  rw [current, ne_eq, compareOffsets_eq_lt]
  exact lt_irrefl _

theorem Advances.of_logged {lsn : UInt64} {count : Nat}
    (later : count ≠ 0 → offsetCommit first.currentOffset < lsn)
    (bound : second.changes.length < 2 ^ 63) (logged : Logged lsn count first second) :
    Advances first second := by
  obtain ⟨⟨appended, changes, offsets⟩, current⟩ := logged
  rcases Nat.eq_zero_or_pos count with rfl | positive
  · have none : appended = [] := by simpa [commitOffsets] using offsets
    exact .of_sameLog (by simp [changes, none]) (by simp [current, commitOffsets])
  · have later := later positive.ne'
    have size : count ≤ 2 ^ 63 := by
      have length := congrArg List.length offsets
      simp only [List.length_map, commitOffsets, List.length_range] at length
      simp only [changes, List.length_append] at bound
      omega
    have nonempty : commitOffsets lsn count ≠ [] := by
      simp [commitOffsets, positive.ne']
    refine ⟨⟨appended, changes, ?_⟩, ?_⟩
    · intro message member
      refine lt_commitOffsets later size ?_
      rw [← offsets]
      exact List.mem_map_of_mem member
    · have above := lt_commitOffsets later size (List.getLast_mem nonempty)
      rw [current, List.getLast?_eq_some_getLast nonempty, Option.getD_some, ne_eq,
        compareOffsets_eq_lt, not_lt]
      rw [compareOffsets_eq_lt] at above
      exact above.le

theorem pairwise_advances_append {left right : List State}
    (before : (left ++ [second]).Pairwise Advances)
    (after : (second :: right).Pairwise Advances) :
    (left ++ right).Pairwise Advances := by
  obtain ⟨leftAdvances, -, toSecond⟩ := List.pairwise_append.mp before
  obtain ⟨fromSecond, rightAdvances⟩ := List.pairwise_cons.mp after
  refine List.pairwise_append.mpr ⟨leftAdvances, rightAdvances, ?_⟩
  intro state member next nextMember
  exact (toSecond state member second (by simp)).trans (fromSecond next nextMember)

end Advancing

/-- What a part of a batch writes to the log of a shape: each refresh that logs
something stamps its messages with the commit and their positions in the refresh. -/
structure Writes (lsn : UInt64) (start finish : Life) (counts : List Nat)
    (during : List State) : Prop where
  positive : ∀ count ∈ counts, 0 < count
  changes : ∃ appended, finish.state.changes = start.state.changes ++ appended ∧
    appended.map (·.offset) = counts.flatMap (commitOffsets lsn)
  current : finish.state.currentOffset =
    (counts.flatMap (commitOffsets lsn)).getLast?.getD start.state.currentOffset
  installed : finish.installed.map (·.state) = start.installed.map (·.state) ++ during
  advances : counts.length ≤ 1 →
    (counts ≠ [] → offsetCommit start.state.currentOffset < lsn) →
      finish.state.changes.length < 2 ^ 63 →
        (start.state :: during ++ [finish.state]).Pairwise Advances

section Writing

variable {lsn : UInt64} {start middle finish : Life} {counts more : List Nat}
  {during later : List State}

theorem Writes.silent (changes : finish.state.changes = start.state.changes)
    (current : finish.state.currentOffset = start.state.currentOffset)
    (installed : finish.installed = start.installed) : Writes lsn start finish [] [] where
  positive := by simp
  changes := ⟨[], by simp [changes], rfl⟩
  current := by simp [current]
  installed := by simp [installed]
  advances _ _ _ := by simpa using Advances.of_sameLog changes current

theorem Writes.install {count : Nat} {query : Option KeyQuery}
    (logged : Logged lsn count start.state finish.state)
    (installed : finish.installed = start.installed ++ [⟨finish.state, query⟩]) :
    Writes lsn start finish (if count = 0 then [] else [count]) [finish.state] where
  positive := by
    split
    · simp
    · simp
      omega
  changes := by
    obtain ⟨appended, changes, offsets⟩ := logged.changes
    refine ⟨appended, changes, ?_⟩
    rw [offsets]
    split <;> simp_all [commitOffsets]
  current := by
    rw [logged.currentOffset]
    split <;> simp_all [commitOffsets]
  installed := by simp [installed]
  advances _ later bound := by
    have advance : Advances start.state finish.state :=
      .of_logged (fun some => later (by simp [some])) bound logged
    have still : Advances finish.state finish.state := .of_sameLog rfl rfl
    simp [advance, still]

theorem Writes.trans (first : Writes lsn start middle counts during)
    (second : Writes lsn middle finish more later) :
    Writes lsn start finish (counts ++ more) (during ++ later) where
  positive := by
    intro count member
    rcases List.mem_append.mp member with member | member
    · exact first.positive count member
    · exact second.positive count member
  changes := by
    obtain ⟨earlier, middleChanges, earlierOffsets⟩ := first.changes
    obtain ⟨appended, finishChanges, offsets⟩ := second.changes
    refine ⟨earlier ++ appended, ?_, ?_⟩
    · rw [finishChanges, middleChanges, List.append_assoc]
    · rw [List.map_append, earlierOffsets, offsets, List.flatMap_append]
  current := by
    rw [second.current, first.current, List.flatMap_append, List.getLast?_append]
    cases (more.flatMap (commitOffsets lsn)).getLast? <;> simp
  installed := by
    rw [second.installed, first.installed, List.append_assoc]
  advances few above bound := by
    simp only [List.length_append] at few
    have shorter : middle.state.changes.length < 2 ^ 63 := by
      obtain ⟨appended, finishChanges, -⟩ := second.changes
      simp only [finishChanges, List.length_append] at bound
      omega
    have begun := first.advances (by omega)
      (fun some => above (by simp [some])) shorter
    -- at most one of the two parts logs anything
    have continued := second.advances (by omega) (fun some => by
      have none : counts = [] := by
        have := List.length_pos_iff.mpr some
        exact List.length_eq_zero_iff.mp (by omega)
      rw [first.current, none]
      exact above (by simp [some])) bound
    have joined := pairwise_advances_append begun continued
    simpa [List.append_assoc] using joined

theorem Writes.count_le {count : Nat} (writes : Writes lsn start finish [count] during)
    (bound : finish.state.changes.length < 2 ^ 63) : count ≤ 2 ^ 63 := by
  obtain ⟨appended, changes, offsets⟩ := writes.changes
  have length := congrArg List.length offsets
  simp only [List.flatMap_singleton, List.length_map, commitOffsets,
    List.length_range] at length
  simp only [changes, List.length_append] at bound
  omega

/-- A single refresh that logs something: its last message is at the current offset, and
no other one of its messages is beyond. -/
theorem Writes.last {count : Nat} (writes : Writes lsn start finish [count] during)
    (committed : 0 < lsn) (bound : finish.state.changes.length < 2 ^ 63) :
    finish.state.currentOffset ∈ commitOffsets lsn count ∧
      ∀ offset ∈ commitOffsets lsn count,
        compareOffsets offset finish.state.currentOffset ≠ .gt := by
  have positive : 0 < count := writes.positive count (by simp)
  have nonempty : commitOffsets lsn count ≠ [] := by
    simp [commitOffsets, positive.ne']
  have current := writes.current
  simp only [List.flatMap_singleton] at current
  rw [List.getLast?_eq_some_getLast nonempty, Option.getD_some] at current
  have ordered := commitOffsets_pairwise committed (writes.count_le bound)
  refine ⟨current ▸ List.getLast_mem nonempty, fun offset member => ?_⟩
  rw [← List.dropLast_append_getLast nonempty] at member ordered
  rw [current, ne_eq, compareOffsets_eq_gt, not_lt]
  rcases List.mem_append.mp member with member | member
  · have below := (List.pairwise_append.mp ordered).2.2 offset member _
      (List.mem_singleton_self _)
    rw [compareOffsets_eq_lt] at below
    exact below.le
  · rw [List.mem_singleton.mp member]

theorem CurrentIsLargest.congr {first second : State} (largest : CurrentIsLargest first)
    (changes : second.changes = first.changes)
    (current : second.currentOffset = first.currentOffset) : CurrentIsLargest second := by
  constructor
  · rw [changes, current]
    exact largest.above
  · rw [changes, current]
    exact largest.reached

end Writing

/-! What the reads of a batch find for a shape that is refreshed by key. -/

structure KeyRead where
  snapshot : SnapshotResult
  keyRows : List Row

/-- The rows of a shape with those of the keys as they have been read. -/
def KeyRead.over (read : KeyRead) (rows : Dict Row) : Dict Row :=
  State.overlayRows rows (materializedRows read.snapshot.schema read.snapshot.rows)
    (targetedKeySet read.snapshot.schema read.keyRows read.snapshot.rows)

/-- How many of the reads, one after the other, find a row that has changed. -/
def changingReads : Dict Row → List KeyRead → Nat
  | _, [] => 0
  | rows, read :: rest =>
      (if SameRows rows (read.over rows) then 0 else 1) + changingReads (read.over rows) rest

section Reading

variable (reads : Reads) (batch : ChangeBatch) (state : State)

/-- The read for a shape of the same relation says that the relation is gone. -/
def findsMissing (visit : Visit) : Bool :=
  definitionSupportsTargetedRefresh visit.definition &&
    state.relationIndex = relationKey visit.definition.relation &&
      match visit.read reads batch with
      | .error (.relationNotFound _) => true
      | _ => false

def ownRead (visit : Visit) : List KeyRead :=
  if visit.handle = state.handle then
    match visit.read reads batch with
    | .ok snapshot => [⟨snapshot, changedKeyRows batch visit.relationID⟩]
    | .error _ => []
  else
    []

/-- The reads made for the shape until its relation is found to be gone. -/
def keyReads : List Visit → List KeyRead
  | [] => []
  | visit :: rest =>
      if findsMissing reads batch state visit then
        []
      else
        ownRead reads batch state visit ++ keyReads rest

variable {reads batch state}

theorem findsMissing_congr {other : State} (same : SameIdentity state other)
    (visit : Visit) :
    findsMissing reads batch state visit = findsMissing reads batch other visit := by
  unfold findsMissing
  rw [same.relationIndex]

theorem keyReads_congr {other : State} (same : SameIdentity state other)
    (visits : List Visit) :
    keyReads reads batch state visits = keyReads reads batch other visits := by
  induction visits with
  | nil => rfl
  | cons visit rest hypothesis =>
      simp only [keyReads, ownRead, findsMissing_congr same, same.handle, hypothesis]

theorem keyReads_of_part {part visits : List Visit} (early : part <+: visits) :
    keyReads reads batch state part <+: keyReads reads batch state visits := by
  induction part generalizing visits with
  | nil => exact List.nil_prefix
  | cons visit rest hypothesis =>
      obtain ⟨later, rfl⟩ := early
      simp only [List.cons_append, keyReads]
      split
      · exact List.prefix_rfl
      · exact (List.prefix_append_right_inj _).mpr (hypothesis (List.prefix_append _ _))

theorem changingReads_le_of_part {part reads : List KeyRead} (early : part <+: reads)
    (rows : Dict Row) : changingReads rows part ≤ changingReads rows reads := by
  induction part generalizing reads rows with
  | nil => simp [changingReads]
  | cons read rest hypothesis =>
      obtain ⟨later, rfl⟩ := early
      have shorter := hypothesis (List.prefix_append rest later) (read.over rows)
      simp only [List.cons_append, changingReads]
      omega

end Reading

section Refreshing

variable [Digest] {reads : Reads} {batch : ChangeBatch} {now : Time} {life : Life}
  {visit : Visit}

omit [Digest] in
theorem Life.refreshKeys_materialized (now : Time) (life : Life) (visit : Visit)
    (snapshot : SnapshotResult) :
    (life.refreshKeys batch now visit snapshot).state.materialized =
      KeyRead.over ⟨snapshot, changedKeyRows batch visit.relationID⟩
        life.state.materialized := by
  simp only [Life.refreshKeys]
  cases computed : life.state.refreshKeys snapshot (changedKeyRows batch visit.relationID)
      (targetedMetadata batch visit.metadata) now with
  | none =>
      have none := State.refreshKeys_eq_none.mp computed
      apply Std.ExtTreeMap.ext_getElem?
      intro key
      have absent : key ∉ targetedKeySet snapshot.schema
          (changedKeyRows batch visit.relationID) snapshot.rows := by
        simp [Std.ExtTreeSet.isEmpty_iff.mp none]
      simp [KeyRead.over, getElem?_overlayRows, absent]
  | some refreshed => exact State.refreshKeys_materialized computed

omit [Digest] in
theorem Life.refreshKeys_logged (committed : 0 < batch.commitLSN) (now : Time) (life : Life)
    (visit : Visit) (snapshot : SnapshotResult) :
    (life.refreshKeys batch now visit snapshot).state.materialized =
        KeyRead.over ⟨snapshot, changedKeyRows batch visit.relationID⟩
          life.state.materialized ∧
      ∃ count, Logged batch.commitLSN count life.state
          (life.refreshKeys batch now visit snapshot).state ∧
        (count = 0 ↔ SameRows life.state.materialized
          (life.refreshKeys batch now visit snapshot).state.materialized) := by
  refine ⟨Life.refreshKeys_materialized now life visit snapshot, ?_⟩
  simp only [Life.refreshKeys]
  cases computed : life.state.refreshKeys snapshot (changedKeyRows batch visit.relationID)
      (targetedMetadata batch visit.metadata) now with
  | none => exact ⟨0, .refl _ _, by simp [SameRows.refl]⟩
  | some refreshed => exact (Shapes.refreshKeys_logged committed computed).2

theorem foldl_visit_of_deleted (deleted : life.state.deleted = true) (visits : List Visit) :
    visits.foldl (Life.visit reads batch now) life = life := by
  induction visits with
  | nil => rfl
  | cons visit rest hypothesis =>
      rw [List.foldl_cons, Life.visit_of_deleted deleted, hypothesis]

omit [Digest] in
theorem Writes.invalidate {lsn : UInt64} (key : String) :
    Writes lsn life
      { life with state := Manager.invalidatedState life.state key now } [] [] := by
  refine .silent ?_ ?_ rfl <;>
  · unfold Manager.invalidatedState
    split <;> rfl

theorem Life.visit_findsMissing (now : Time)
    (missing : findsMissing reads batch life.state visit = true) :
    (life.visit reads batch now visit).state.deleted = true ∧
      Writes batch.commitLSN life (life.visit reads batch now visit) [] [] := by
  simp only [findsMissing, Bool.and_eq_true, decide_eq_true_eq] at missing
  obtain ⟨⟨targeted, related⟩, missing⟩ := missing
  split at missing
  · next relation unread =>
      rw [Life.visit_missing targeted unread]
      exact ⟨invalidatedState_deleted related, .invalidate _⟩
  · cases missing

theorem Life.visit_unread (present : findsMissing reads batch life.state visit = false)
    (unread : ownRead reads batch life.state visit = [])
    (targeted : visit.handle = life.state.handle →
      visit.definition = life.state.definition ∧
        definitionSupportsTargetedRefresh visit.definition = true) :
    life.visit reads batch now visit = life := by
  by_cases alive : life.state.deleted = true
  · exact Life.visit_of_deleted alive visit
  by_cases missing : ∃ relation, visit.read reads batch =
        .error (.relationNotFound relation) ∧
      definitionSupportsTargetedRefresh visit.definition = true
  · obtain ⟨relation, missing, byKey⟩ := missing
    have unrelated : life.state.relationIndex ≠ relationKey visit.definition.relation := by
      simpa [findsMissing, missing, byKey] using present
    rw [Life.visit_missing byKey missing]
    simp [Manager.invalidatedState, unrelated]
  · by_cases own : visit.handle = life.state.handle
    · obtain ⟨-, byKey⟩ := targeted own
      cases read : visit.read reads batch with
      | ok snapshot => simp [ownRead, own, read] at unread
      | error error => cases error <;> simp_all [Life.visit, Life.visitTargeted]
    · refine Life.visit_other own fun relation read => ?_
      by_contra byKey
      exact missing ⟨relation, read, by simpa using byKey⟩

theorem writes_keyReads (committed : 0 < batch.commitLSN) (visits : List Visit) :
    ∀ life : Life, life.state.deleted = false →
      definitionSupportsTargetedRefresh life.state.definition = true →
      (∀ visit ∈ visits, visit.handle = life.state.handle →
        visit.definition = life.state.definition) →
      ∃ counts during,
        Writes batch.commitLSN life (visits.foldl (Life.visit reads batch now) life)
          counts during ∧
        counts.length =
          changingReads life.state.materialized (keyReads reads batch life.state visits) := by
  induction visits with
  | nil =>
      intro life _ _ _
      exact ⟨[], [], .silent rfl rfl rfl, rfl⟩
  | cons visit rest hypothesis =>
      intro life alive targeted planned
      have byKey : visit.handle = life.state.handle →
          visit.definition = life.state.definition ∧
            definitionSupportsTargetedRefresh visit.definition = true := by
        intro own
        have same := planned visit (by simp) own
        exact ⟨same, by rw [same, targeted]⟩
      have later : ∀ other ∈ rest, other.handle = life.state.handle →
          other.definition = life.state.definition := fun other member =>
        planned other (by simp [member])
      rw [List.foldl_cons]
      cases missing : findsMissing reads batch life.state visit with
      | true =>
          obtain ⟨gone, silent⟩ := Life.visit_findsMissing now missing
          rw [foldl_visit_of_deleted gone]
          exact ⟨[], [], silent, by simp [keyReads, missing, changingReads]⟩
      | false =>
          by_cases unread : ownRead reads batch life.state visit = []
          · rw [Life.visit_unread missing unread byKey]
            obtain ⟨counts, during, writes, number⟩ := hypothesis life alive targeted later
            exact ⟨counts, during, writes, by simp [keyReads, missing, unread, number]⟩
          · have own : visit.handle = life.state.handle := by
              by_contra other
              simp [ownRead, other] at unread
            cases read : visit.read reads batch with
            | error error => simp [ownRead, read] at unread
            | ok snapshot =>
                rw [Life.visit_own_targeted alive own (byKey own).2 read]
                obtain ⟨rows, count, logged, silent⟩ :=
                  Life.refreshKeys_logged committed now life visit snapshot
                have same : SameIdentity (life.refreshKeys batch now visit snapshot).state
                    life.state := Life.refreshKeys_identity life visit snapshot
                obtain ⟨counts, during, writes, number⟩ :=
                  hypothesis (life.refreshKeys batch now visit snapshot)
                    (by rw [Life.refreshKeys_deleted, alive])
                    (by rw [same.definition, targeted])
                    (by rw [same.handle, same.definition]; exact later)
                refine ⟨_, _, (Writes.install logged rfl).trans writes, ?_⟩
                rw [rows] at silent
                rw [List.length_append, number, keyReads_congr same, rows]
                simp only [keyReads, missing, ownRead, own, read, if_true, if_false,
                  Bool.false_eq_true, List.cons_append, List.nil_append, changingReads,
                  ← silent]
                split <;> simp

theorem Life.visit_other_writes {lsn : UInt64} (reads : Reads) (batch : ChangeBatch)
    (now : Time)
    (other : visit.handle ≠ life.state.handle) :
    Writes lsn life (life.visit reads batch now visit) [] [] ∧
      (life.visit reads batch now visit).refreshed = life.refreshed := by
  by_cases missing : ∃ relation, visit.read reads batch =
        .error (.relationNotFound relation) ∧
      definitionSupportsTargetedRefresh visit.definition = true
  · obtain ⟨relation, missing, byKey⟩ := missing
    rw [Life.visit_missing byKey missing]
    exact ⟨.invalidate _, rfl⟩
  · have same : life.visit reads batch now visit = life := by
      refine Life.visit_other other fun relation read => ?_
      by_contra byKey
      exact missing ⟨relation, read, by simpa using byKey⟩
    rw [same]
    exact ⟨.silent rfl rfl rfl, rfl⟩

theorem Life.refreshDependent_writes (reads : Reads) (committed : 0 < batch.commitLSN)
    (now : Time) (life : Life) (visit : Visit) :
    (∃ counts during, Writes batch.commitLSN life
        (life.refreshDependent reads batch now visit) counts during ∧ counts.length ≤ 1 ∧
          (life.refreshDependent reads batch now visit).refreshed = true) ∨
      life.refreshDependent reads batch now visit = life := by
  unfold Life.refreshDependent
  split
  · split
    · exact .inl ⟨[], [], .silent rfl rfl rfl, by simp, rfl⟩
    · exact .inr rfl
    · next snapshot _ =>
        have stamped : 0 < (dependentMetadata batch visit.metadata).commitLSN := committed
        obtain ⟨-, count, logged, -⟩ := refresh_logged stamped life.state snapshot now
        refine .inl ⟨_, _, Writes.install logged rfl, ?_, rfl⟩
        split <;> simp
  · exact .inl ⟨[], [], .silent rfl rfl rfl, by simp, rfl⟩

theorem Life.visit_dependent_writes (committed : 0 < batch.commitLSN) (now : Time)
    (untargeted : visit.handle = life.state.handle →
      definitionSupportsTargetedRefresh visit.definition = false) :
    ∃ counts during,
      Writes batch.commitLSN life (life.visit reads batch now visit) counts during ∧
        (counts.length + if (life.visit reads batch now visit).refreshed then 0 else 1) ≤
          if life.refreshed then 0 else 1 := by
  have unchanged : life.visit reads batch now visit = life → ∃ counts during,
      Writes batch.commitLSN life (life.visit reads batch now visit) counts during ∧
        (counts.length + if (life.visit reads batch now visit).refreshed then 0 else 1) ≤
          if life.refreshed then 0 else 1 := by
    intro same
    rw [same]
    exact ⟨[], [], .silent rfl rfl rfl, by simp⟩
  by_cases own : visit.handle = life.state.handle
  · cases deleted : life.state.deleted with
    | true => exact unchanged (Life.visit_of_deleted deleted visit)
    | false =>
        cases refreshed : life.refreshed with
        | true => simpa [refreshed] using
            unchanged (Life.visit_refreshed refreshed (untargeted own))
        | false =>
            have visited : life.visit reads batch now visit =
                life.refreshDependent reads batch now visit :=
              Life.visit_own_dependent deleted own refreshed (untargeted own)
            rcases Life.refreshDependent_writes reads committed now life visit with
              ⟨counts, during, writes, few, marked⟩ | same
            · rw [visited]
              exact ⟨counts, during, writes, by simpa [marked] using few⟩
            · simpa [refreshed] using unchanged (visited.trans same)
  · obtain ⟨writes, same⟩ : Writes batch.commitLSN life _ [] [] ∧ _ :=
      Life.visit_other_writes reads batch now own
    exact ⟨[], [], writes, by simp [same]⟩

theorem writes_dependent (committed : 0 < batch.commitLSN) (visits : List Visit) :
    ∀ life : Life, definitionSupportsTargetedRefresh life.state.definition = false →
      (∀ visit ∈ visits, visit.handle = life.state.handle →
        visit.definition = life.state.definition) →
      ∃ counts during,
        Writes batch.commitLSN life (visits.foldl (Life.visit reads batch now) life)
          counts during ∧
        counts.length ≤ if life.refreshed then 0 else 1 := by
  induction visits with
  | nil =>
      intro life _ _
      exact ⟨[], [], .silent rfl rfl rfl, by simp⟩
  | cons visit rest hypothesis =>
      intro life untargeted planned
      have same : SameIdentity (life.visit reads batch now visit).state life.state :=
        Life.visit_identity life visit
      obtain ⟨counts, during, writes, first⟩ :
          ∃ counts during,
            Writes batch.commitLSN life (life.visit reads batch now visit) counts during ∧ _ :=
        Life.visit_dependent_writes committed now fun own => by
          rw [planned visit (by simp) own, untargeted]
      obtain ⟨more, after, rest, few⟩ := hypothesis (life.visit reads batch now visit)
        (by rw [same.definition, untargeted])
        (by
          rw [same.handle, same.definition]
          exact fun other member => planned other (by simp [member]))
      refine ⟨_, _, writes.trans rest, ?_⟩
      rw [List.length_append]
      omega

end Refreshing

section Batch

variable [Store σ] [Digest] [LSNText] (reads : Reads) (batch : ChangeBatch)

variable {reads batch} {now : Time}

end Batch

section Partitions

def itemsColumns : List DescribedColumn :=
  [⟨"id", "text", true, some 0⟩, ⟨"name", "text", false, none⟩]

def itemsPartition (table : String) : RelationMetadata where
  relation := ⟨"public", table⟩
  rootRelation := ⟨"public", "items"⟩
  columns := itemsColumns
  pkColumns := primaryKeyColumns itemsColumns

def itemsDatabase : Database where
  describe _ := .ok itemsColumns
  partitionRoot _ := .ok ⟨"public", "items"⟩
  matching _ _ := .ok [itemRow "1" "one", itemRow "2" "two", itemRow "3" "three"]

def itemInsert (table id name : String) : ChangeRecord where
  relation := ⟨"public", table⟩
  operation := .insert
  primaryKey := Dict.ofPairs [("id", some id)]
  newTuple := itemRow id name

def partitionsRuntime : Runtime MemoryStore where
  cfg := syncConfig
  shapes := itemsManagerOver newMemoryStore
  systemIdentity := ⟨"7001", 1, 200⟩
  replicationSlot := "postgres_sync_go_main_slot"
  relationCache := (∅ : RelationCache) |>.insert 1 (itemsPartition "items_a")
    |>.insert 2 (itemsPartition "items_b")

def onePartitionBatch : ChangeBatch :=
  { (ChangeBatch.reset 7).add 1 (itemInsert "items_a" "2" "two") with commitLSN := 100 }

theorem itemsManagerOver_indexed : (itemsManagerOver newMemoryStore).Indexed :=
  @Manager.Indexed.perform _ tabulatedDigest _ { store := newMemoryStore }
    ⟨.upsertSnapshot itemsDefinition ⟨itemsSchema, [itemRow "1" "one"], none⟩, 1000⟩
    (.empty newMemoryStore) (by decide +kernel)

def itemsBefore : State :=
  (partitionsRuntime.shapes.active? "fa19db76c4-1").getD {}

def applyToPartitions (batch : ChangeBatch) :
    Except RuntimeError Unit × Runtime MemoryStore :=
  letI := tabulatedDigest
  letI := tabulatedLSNText
  applyChangeBatch (fun _ _ => itemsDatabase) batch 2000 partitionsRuntime

def itemsAfter (batch : ChangeBatch) : State :=
  ((applyToPartitions batch).2.shapes.byHandle["fa19db76c4-1"]?).getD {}

end Partitions

end PostgresSync.Pg
