import PostgresSync.Shapes.LogOrder
import PostgresSync.Shapes.RelationIndex
import PostgresSync.Shapes.WriteThrough

namespace PostgresSync.Shapes

open PostgresSync.Data
open PostgresSync.Storage

/-! Readers of one shape's log. -/

/-- The shape was at this offset when its log had `n` messages. -/
structure State.Marked (state : State) (offset : String) (n : Nat) : Prop where
  parsed : (parseOffset offset).isSome = true
  splits : Splits (fun message : Message => offsetPosition message.offset) state.changes
    (offsetPosition offset) n
  within : offsetPosition offset ≤ offsetPosition state.currentOffset
  last : n = state.changes.length → offset = state.currentOffset

theorem State.LogOrdered.marked {state : State} (ordered : state.LogOrdered) :
    state.Marked state.currentOffset state.changes.length where
  parsed := by
    obtain ⟨position, parsed, -⟩ := ordered.current
    simp [parsed]
  splits := .of_le ordered.below
  within := le_rfl
  last _ := rfl

theorem State.Marked.extends {state next : State} {appended : List Message} {offset : String}
    {n : Nat} (marked : state.Marked offset n) (extended : state.Extends next appended) :
    next.Marked offset n where
  parsed := marked.parsed
  splits := by
    rw [extended.changes]
    apply marked.splits.append
    intro message member
    exact marked.within.trans_lt (extended.later message member)
  within := by
    rw [extended.current]
    cases last : appended.getLast? with
    | none => exact marked.within
    | some final =>
        exact marked.within.trans (extended.later final (List.mem_of_getLast? last)).le
  last same := by
    have bound := marked.splits.bound
    rw [extended.changes, List.length_append] at same
    have nothing : appended = [] := List.eq_nil_of_length_eq_zero (by omega)
    subst nothing
    rw [extended.current]
    exact marked.last (by simpa using same)

theorem Manager.changesAfter_eq (changes : List Message) (offset : String) :
    changesAfter changes offset =
      changes.filter fun message => offsetPosition offset < offsetPosition message.offset := by
  apply List.filter_congr
  intro message _
  rw [decide_eq_decide]
  exact compareOffsets_eq_gt message.offset offset

theorem Manager.read_marked {manager : Manager σ} {handle : String} {state : State}
    (found : manager.byHandle[handle]? = some state) (active : state.deleted = false)
    (ordered : state.LogOrdered) {offset : String} {n : Nat} (marked : state.Marked offset n) :
    manager.read handle offset = .ok (state, state.changes.drop n) := by
  have parsed : (parseOffset offset).isNone = false := by
    obtain ⟨position, parsed⟩ := Option.isSome_iff_exists.mp marked.parsed
    simp [parsed]
  have bound := marked.splits.bound
  simp only [read, readLocked, found, active, parsed, Bool.false_eq_true, if_false]
  by_cases last : n = state.changes.length
  · have same : compareOffsets offset state.currentOffset = .eq := by
      rw [compareOffsets_eq_eq, marked.last last]
    simp [same, last]
  · -- the first message after the mark stands between the two offsets
    have behind : compareOffsets offset state.currentOffset = .lt := by
      rw [compareOffsets_eq_lt]
      have rest : n < state.changes.length := by omega
      have member : state.changes.get ⟨n, rest⟩ ∈ state.changes.drop n := by
        rw [List.drop_eq_getElem_cons rest]
        exact List.mem_cons_self
      exact (marked.splits.after _ member).trans_le
        (ordered.below _ (List.mem_of_mem_drop member))
    simp [behind, changesAfter_eq, marked.splits.filter_eq_drop]

/-! What the requests, the deletes and the invalidations do to the logs of the shapes. -/

structure State.SameLog (old new : State) : Prop where
  changes : new.changes = old.changes
  currentOffset : new.currentOffset = old.currentOffset

structure State.EmptyLog (state : State) : Prop where
  changes : state.changes = []
  currentOffset : state.currentOffset = initialOffset ∨ state.currentOffset = nowOffset

namespace Manager

/-- Every shape has the log that it had before, or an empty one. -/
structure KeepsLogs (before after : Manager σ) : Prop where
  linked : before.Linked → after.Linked
  logs : ∀ (handle : String) (state : State), after.byHandle[handle]? = some state →
    (∃ old, before.byHandle[handle]? = some old ∧ old.SameLog state) ∨ state.EmptyLog

theorem KeepsLogs.of_eq {before after : Manager σ} (shapes : after.byHandle = before.byHandle)
    (hashes : after.byHash = before.byHash) : before.KeepsLogs after where
  linked linked := by
    constructor
    · rw [shapes]
      exact linked.named
    · rw [shapes, hashes]
      exact linked.known
  logs handle state found := by
    rw [shapes] at found
    exact .inl ⟨state, found, rfl, rfl⟩

theorem KeepsLogs.refl (manager : Manager σ) : manager.KeepsLogs manager :=
  .of_eq rfl rfl

theorem KeepsLogs.trans {first second third : Manager σ} (left : first.KeepsLogs second)
    (right : second.KeepsLogs third) : first.KeepsLogs third where
  linked linked := right.linked (left.linked linked)
  logs handle state found := by
    rcases right.logs handle state found with ⟨middle, held, same⟩ | empty
    · rcases left.logs handle middle held with ⟨old, known, earlier⟩ | empty
      · exact .inl ⟨old, known, same.changes.trans earlier.changes,
          same.currentOffset.trans earlier.currentOffset⟩
      · refine .inr ⟨same.changes.trans empty.changes, ?_⟩
        rw [same.currentOffset]
        exact empty.currentOffset
    · exact .inr empty

variable [Digest] [Store σ] {manager : Manager σ}

theorem KeepsLogs.attempt {write : Write} (legit : write.Legit manager)
    (log : (∃ old, manager.byHandle[write.handle]? = some old ∧ old.SameLog write.state) ∨
      write.state.EmptyLog) : manager.KeepsLogs (manager.attempt write) where
  linked linked := linked.attempt legit
  logs handle state found := by
    unfold Manager.attempt at found
    split at found
    · rw [install_byHandle] at found
      split at found
      · next same =>
          obtain rfl := Option.some.inj found
          rw [same] at log
          exact log
      · exact .inl ⟨state, found, rfl, rfl⟩
    · exact .inl ⟨state, found, rfl, rfl⟩

theorem KeepsLogs.upsert (manager : Manager σ) (definition : Definition)
    (snapshot : SnapshotResult) {currentOffset : String}
    (offset : currentOffset = initialOffset ∨ currentOffset = nowOffset) (now : Time) :
    manager.KeepsLogs
      (manager.upsertSnapshotAtOffset definition snapshot currentOffset now).2 where
  linked linked :=
    linked.perform ⟨.upsertSnapshotAtOffset definition snapshot currentOffset, now⟩
  logs handle state found := by
    by_cases accepted : manager.Accepts
        (manager.upsertState definition snapshot currentOffset now)
    · rw [(manager.upsertSnapshotAtOffset_of_accepts definition snapshot currentOffset now
        accepted).2] at found
      split at found
      · obtain ⟨base, stored⟩ :=
          manager.upsertState_eq definition snapshot currentOffset now
        rw [← Option.some.inj found, stored]
        exact .inr ⟨rfl, offset⟩
      · exact .inl ⟨state, found, rfl, rfl⟩
    · obtain ⟨error, refused⟩ := manager.upsertSnapshotAtOffset_of_not_accepts definition
        snapshot currentOffset now accepted
      rw [refused] at found
      exact .inl ⟨state, found, rfl, rfl⟩

theorem KeepsLogs.delete (manager : Manager σ) (handle : String) (now : Time) :
    manager.KeepsLogs (manager.delete handle now).2 where
  linked linked := linked.perform ⟨.delete handle, now⟩
  logs other state found := by
    rcases manager.delete_outcome handle now with ⟨-, -, after⟩ | ⟨-, -, after⟩
    · rw [after] at found
      split at found
      · obtain ⟨old, held, rfl⟩ := Option.map_eq_some_iff.mp found
        exact .inl ⟨old, held, rfl, rfl⟩
      · exact .inl ⟨state, found, rfl, rfl⟩
    · rw [after] at found
      exact .inl ⟨state, found, rfl, rfl⟩

omit [Digest] in
theorem KeepsLogs.invalidateByRelation (manager : Manager σ) (relation : Relation)
    (now : Time) : manager.KeepsLogs (manager.invalidateByRelation relation now).2 where
  linked linked := linked.invalidateByRelation relation now
  logs handle state found := by
    rcases manager.invalidateByRelation_cases relation now with
      ⟨-, nothing⟩ | ⟨store, ⟨error, -, failed⟩ | ⟨-, succeeded⟩⟩
    · rw [nothing] at found
      exact .inl ⟨state, found, rfl, rfl⟩
    · rw [failed] at found
      exact .inl ⟨state, found, rfl, rfl⟩
    · have distinct := manager.listedTombstones_nodup relation now
      rw [succeeded] at found
      dsimp only at found
      rw [installTombstones_byHandle distinct, find?_tombstones] at found
      split at found
      · cases looked : manager.active? handle with
        | none =>
            rw [looked] at found
            exact .inl ⟨state, found, rfl, rfl⟩
        | some old =>
            rw [looked] at found
            rw [← Option.some.inj found]
            exact .inl ⟨old, (active?_eq_some.mp looked).1, rfl, rfl⟩
      · exact .inl ⟨state, found, rfl, rfl⟩

theorem KeepsLogs.buries {last : Manager σ} (buries : manager.Buries last) :
    manager.KeepsLogs last := by
  induction buries with
  | done manager => exact .refl manager
  | next active rest hypothesis =>
      have found := (active?_eq_some.mp active).1
      exact (KeepsLogs.attempt (.bury found) (.inl ⟨_, found, rfl, rfl⟩)).trans hypothesis

omit [Store σ] in
theorem Linked.upsertState_handle (linked : manager.Linked) (definition : Definition)
    (snapshot : SnapshotResult) (currentOffset : String) (now : Time) :
    (manager.upsertState definition snapshot currentOffset now).handle =
      manager.upsertTarget definition now := by
  unfold upsertState upsertTarget
  cases named : manager.byHash[canonicalHash definition]? with
  | some handle => exact linked.stateAt named
  | none => rfl

omit [Digest] [Store σ] in
theorem waitForChange_shapes (manager : Manager σ) (handle offset : String) (fresh : Nat)
    (wake : Wake) (phase : WaitPhase) :
    (manager.waitForChange handle offset fresh wake phase).2.byHandle = manager.byHandle ∧
      (manager.waitForChange handle offset fresh wake phase).2.byHash = manager.byHash := by
  cases phase with
  | polling =>
      rw [Manager.waitForChange]
      split <;> exact ⟨rfl, rfl⟩
  | registering =>
      rw [Manager.waitForChange]
      split <;> exact ⟨rfl, rfl⟩
  | waiting waiter =>
      cases wake with
      | deadline => exact ⟨rfl, rfl⟩
      | notified =>
          rw [Manager.waitForChange]
          split <;> exact ⟨rfl, rfl⟩

end Manager

/-! What a read from an offset finds once a shape has only been refreshed at later commits. -/

structure State.Commits (state next : State) (appended : List Message) : Prop where
  deleted : next.deleted = state.deleted
  changes : next.changes = state.changes ++ appended
  current : next.currentOffset = (appended.getLast?.map (·.offset)).getD state.currentOffset
  later : ∀ message ∈ appended,
    offsetPosition state.currentOffset < offsetPosition message.offset
  committed : ∀ message ∈ appended, offsetPosition nowOffset < offsetPosition message.offset

instance (old new : State) : Decidable (old.SameLog new) :=
  decidable_of_iff (new.changes = old.changes ∧ new.currentOffset = old.currentOffset)
    ⟨fun ⟨changes, current⟩ => ⟨changes, current⟩, fun same => ⟨same.changes, same.currentOffset⟩⟩

theorem State.Commits.of_sameLog {state next : State} (same : state.SameLog next)
    (deleted : next.deleted = state.deleted) : state.Commits next [] where
  deleted := deleted
  changes := by rw [same.changes, List.append_nil]
  current := same.currentOffset
  later := by simp
  committed := by simp

theorem State.Commits.current_le {state next : State} {appended : List Message}
    (commits : state.Commits next appended) :
    offsetPosition state.currentOffset ≤ offsetPosition next.currentOffset := by
  rw [commits.current]
  cases last : appended.getLast? with
  | none => exact le_rfl
  | some final => exact (commits.later final (List.mem_of_getLast? last)).le

theorem State.Commits.trans {first second third : State} {earlier later : List Message}
    (before : first.Commits second earlier) (after : second.Commits third later) :
    first.Commits third (earlier ++ later) where
  deleted := after.deleted.trans before.deleted
  changes := by rw [after.changes, before.changes, List.append_assoc]
  current := by
    rw [after.current, before.current, List.getLast?_append]
    cases later.getLast? <;> rfl
  later message member := by
    rcases List.mem_append.mp member with old | new
    · exact before.later message old
    · exact before.current_le.trans_lt (after.later message new)
  committed message member := by
    rcases List.mem_append.mp member with old | new
    · exact before.committed message old
    · exact after.committed message new

section Refreshes

variable {state base : State} {messages : List Message} {metadata : ChangeMetadata}
  {snapshot : SnapshotResult} {now : Time}

theorem logMessages_commits (later : offsetCommit state.currentOffset < metadata.commitLSN)
    (deleted : base.deleted = state.deleted) (changes : base.changes = state.changes)
    (current : base.currentOffset = state.currentOffset)
    (bound : (base.logMessages messages metadata).1.changes.length < 2 ^ 63) :
    ∃ appended, state.Commits (base.logMessages messages metadata).1 appended := by
  have committed : 0 < metadata.commitLSN := UInt64.lt_of_le_of_lt UInt64.zero_le later
  obtain ⟨⟨appended, logged, stamped⟩, moved⟩ :=
    logMessages_logged committed changes current messages
  have count : messages.length ≤ 2 ^ 63 := by
    have length := congrArg List.length stamped
    rw [commitOffsets, List.length_map, List.length_map, List.length_range] at length
    rw [logged, List.length_append] at bound
    omega
  have beyond : ∀ offset, offsetCommit offset < metadata.commitLSN →
      ∀ message ∈ appended, offsetPosition offset < offsetPosition message.offset := by
    intro offset earlier message member
    rw [← compareOffsets_eq_lt]
    apply lt_commitOffsets earlier count
    rw [← stamped]
    exact List.mem_map_of_mem member
  refine ⟨appended, ?_, logged, ?_, beyond _ later, beyond _ ?_⟩
  · rw [← deleted]
    exact (State.logMessages_sameShape _ _ _).deleted
  · rw [moved, ← stamped, List.getLast?_map]
  · rw [offsetCommit, parseOffset_nowOffset]
    exact committed

theorem refreshKeys_commits {keyRows : List Row} {refreshed : State × List Message}
    (later : offsetCommit state.currentOffset < metadata.commitLSN)
    (computed : state.refreshKeys snapshot keyRows metadata now = some refreshed)
    (bound : refreshed.1.changes.length < 2 ^ 63) :
    ∃ appended, state.Commits refreshed.1 appended := by
  unfold State.refreshKeys at computed
  dsimp only at computed
  split at computed
  · cases computed
  · obtain rfl := Option.some.inj computed
    exact logMessages_commits later (by rfl) (by rfl) (by rfl) bound

theorem refresh_commits [Digest]
    (later : offsetCommit state.currentOffset < metadata.commitLSN)
    (bound : (state.refresh snapshot metadata now).1.changes.length < 2 ^ 63) :
    ∃ appended, state.Commits (state.refresh snapshot metadata now).1 appended := by
  unfold State.refresh at bound ⊢
  dsimp only at bound ⊢
  exact logMessages_commits later (by rfl) (by rfl) (by rfl) bound

end Refreshes

/-- From this offset a reader is given exactly what the shape has logged since: the shape is
still at the offset, or has left it behind without a message beyond it. -/
def State.ResumableAt (held : State) (offset : String) (logged : Bool) : Prop :=
  (parseOffset offset).isSome = true ∧
    (logged = false ∧ compareOffsets offset held.currentOffset = .eq ∨
      (logged = true ∨ compareOffsets offset held.currentOffset = .lt) ∧
        ∀ message ∈ held.changes, compareOffsets message.offset offset ≠ .gt)

instance (held : State) (offset : String) (logged : Bool) :
    Decidable (held.ResumableAt offset logged) :=
  inferInstanceAs (Decidable (_ ∧ _))

theorem Manager.changesAfter_eq_nil (changes : List Message) (offset : String) :
    changesAfter changes offset = [] ↔
      ∀ message ∈ changes, compareOffsets message.offset offset ≠ .gt := by
  rw [changesAfter, List.filter_eq_nil_iff]
  simp

theorem Manager.read_of_commits {manager : Manager σ} {handle offset : String}
    {held later : State} {appended : List Message}
    (found : manager.active? handle = some later) (commits : held.Commits later appended)
    (before : ∀ message ∈ appended, offsetPosition offset < offsetPosition message.offset) :
    manager.read handle offset = .ok (later, appended) ↔
      held.ResumableAt offset (!appended.isEmpty) := by
  obtain ⟨stored, active⟩ := active?_eq_some.mp found
  unfold read readLocked State.ResumableAt
  rw [stored]
  dsimp only
  rw [active]
  cases parsed : parseOffset offset with
  | none => simp
  | some position =>
      rw [commits.changes]
      cases last : appended.getLast? with
      | none =>
          obtain rfl := List.getLast?_eq_none_iff.mp last
          rw [show later.currentOffset = held.currentOffset from commits.current]
          cases compared : compareOffsets offset held.currentOffset <;>
            simp [changesAfter_eq_nil]
      | some final =>
          have member := List.mem_of_getLast? last
          have some : appended ≠ [] := List.ne_nil_of_mem member
          have behind : compareOffsets offset later.currentOffset = .lt := by
            rw [compareOffsets_eq_lt, commits.current, last]
            exact before final member
          have new : changesAfter appended offset = appended := by
            rw [changesAfter_eq, List.filter_eq_self]
            intro message known
            exact decide_eq_true (before message known)
          have split : changesAfter (held.changes ++ appended) offset =
              changesAfter held.changes offset ++ appended := by
            conv_rhs => rw [← new]
            exact List.filter_append _ _
          simp [behind, split, changesAfter_eq_nil, some]

end PostgresSync.Shapes
