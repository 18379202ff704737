import PostgresSync.Shapes.LiveView
import PostgresSync.Shapes.LogReads

namespace PostgresSync.Shapes

open PostgresSync.Data

/-! Clients that continue from an offset of a shape, and the rows that they get to. -/

section Replay

/-- A change of one row that ends in the same row whatever it began with, or merges columns
into it. -/
def Settles (change : Option Row → Option Row) : Prop :=
  (∃ last, ∀ row, change row = last) ∨
    ∃ columns : Row, ∀ row, change row = row.map fun row => row ∪ columns

theorem Settles.idempotent {change : Option Row → Option Row} (settles : Settles change)
    (row : Option Row) : change (change row) = change row := by
  rcases settles with ⟨last, same⟩ | ⟨columns, merges⟩
  · rw [same, same]
  · rw [merges, merges, Option.map_map]
    congr 1
    funext row
    refine Std.ExtTreeMap.ext_getElem? fun name => ?_
    simp only [Function.comp_apply, Std.ExtTreeMap.getElem?_union]
    cases columns[name]? <;> simp

theorem Settles.comp {first second : Option Row → Option Row} (before : Settles first)
    (after : Settles second) : Settles fun row => second (first row) := by
  rcases after with ⟨last, same⟩ | ⟨columns, merges⟩
  · exact .inl ⟨last, fun row => same _⟩
  · rcases before with ⟨last, same⟩ | ⟨earlier, merged⟩
    · exact .inl ⟨second last, fun row => congrArg second (same row)⟩
    · refine .inr ⟨earlier ∪ columns, fun row => ?_⟩
      dsimp only
      rw [merges, merged, Option.map_map]
      congr 1
      funext row
      refine Std.ExtTreeMap.ext_getElem? fun name => ?_
      simp only [Function.comp_apply, Std.ExtTreeMap.getElem?_union]
      cases columns[name]? <;> simp

theorem Settles.id : Settles fun row => row := by
  refine .inr ⟨∅, fun row => ?_⟩
  cases row with
  | none => rfl
  | some row =>
      refine congrArg some (Std.ExtTreeMap.ext_getElem? fun name => ?_)
      simp [Std.ExtTreeMap.getElem?_union]

theorem Message.effect_settles (message : Message) : Settles message.effect := by
  unfold Message.effect
  split
  · exact .inl ⟨_, fun _ => rfl⟩
  · split
    · exact .inr ⟨_, fun _ => rfl⟩
    · split
      · exact .inl ⟨_, fun _ => rfl⟩
      · exact Settles.id

theorem foldl_applyMessage_settles (messages : List Message) (key : String) :
    ∃ change, Settles change ∧
      ∀ view, (messages.foldl applyMessage view)[key]? = change view[key]? := by
  induction messages with
  | nil => exact ⟨_, .id, fun _ => rfl⟩
  | cons message rest hypothesis =>
      obtain ⟨change, settles, later⟩ := hypothesis
      by_cases own : message.key = key
      · refine ⟨_, message.effect_settles.comp settles, fun view => ?_⟩
        rw [List.foldl_cons, later, applyMessage, Dict.getElem?_alter, if_pos own, own]
      · refine ⟨change, settles, fun view => ?_⟩
        rw [List.foldl_cons, later, applyMessage, Dict.getElem?_alter, if_neg own]

theorem foldl_applyMessage_idempotent (messages : List Message) (view : Dict Row) :
    messages.foldl applyMessage (messages.foldl applyMessage view) =
      messages.foldl applyMessage view := by
  refine Std.ExtTreeMap.ext_getElem? fun key => ?_
  obtain ⟨change, settles, changed⟩ := foldl_applyMessage_settles messages key
  rw [changed, changed, settles.idempotent]

end Replay

/-! Reading from an offset. -/

def State.Reaches (state : State) (offset : String) : Prop :=
  (parseOffset offset).isSome = true ∧
    offsetPosition offset ≤ offsetPosition state.currentOffset

theorem Manager.read_of_reaches {manager : Manager σ} {handle offset : String} {state : State}
    (found : manager.active? handle = some state) (ordered : state.LogOrdered)
    (reaches : state.Reaches offset) :
    manager.read handle offset = .ok (state, changesAfter state.changes offset) := by
  obtain ⟨stored, active⟩ := active?_eq_some.mp found
  have alive : state.deleted = false := active
  have parsed : (parseOffset offset).isNone = false := by
    rw [← Option.not_isSome, reaches.1]
    rfl
  unfold read readLocked
  rw [stored]
  simp only [alive, parsed, Bool.false_eq_true, if_false]
  cases compared : compareOffsets offset state.currentOffset with
  | lt => rfl
  | gt => exact absurd ((compareOffsets_eq_gt _ _).mp compared) reaches.2.not_gt
  | eq =>
      have same := (compareOffsets_eq_eq _ _).mp compared
      have nothing : changesAfter state.changes offset = [] := by
        rw [changesAfter_eq, List.filter_eq_nil_iff]
        intro message member
        rw [decide_eq_true_eq, same, not_lt]
        exact ordered.below message member
      rw [nothing]

theorem Manager.read_of_not_reaches {manager : Manager σ} {handle offset : String}
    {state : State} (found : manager.active? handle = some state)
    (beyond : ¬state.Reaches offset) :
    manager.read handle offset = .error .offsetOutOfRange := by
  obtain ⟨stored, active⟩ := active?_eq_some.mp found
  have alive : state.deleted = false := active
  unfold read readLocked
  rw [stored]
  cases parsed : parseOffset offset with
  | none => simp [alive]
  | some position =>
      have past : compareOffsets offset state.currentOffset = .gt := by
        rw [compareOffsets_eq_gt, ← not_le]
        exact fun within => beyond ⟨by simp [parsed], within⟩
      simp [alive, past]

/-! What continuing from an offset leads to. -/

section CatchUp

variable {schema : Schema} {state next : State} {offset : String} {view other : Dict Row}

def State.ShownBy (state : State) (schema : Schema) (view : Dict Row) : Prop :=
  shownView schema view =
    shownView schema (clientView state.definition.relation schema state.materialized)

instance (state : State) (schema : Schema) (view : Dict Row) :
    Decidable (state.ShownBy schema view) :=
  inferInstanceAs (Decidable (_ = _))

/-- A client with this view that continues from this offset gets to the rows of the shape. -/
structure State.CaughtUp (state : State) (schema : Schema) (offset : String)
    (view : Dict Row) : Prop where
  reaches : state.Reaches offset
  shown : state.ShownBy schema
    ((Manager.changesAfter state.changes offset).foldl applyMessage view)

theorem State.LogOrdered.caughtUp (ordered : state.LogOrdered)
    (shown : state.ShownBy schema view) :
    state.CaughtUp schema state.currentOffset view where
  reaches := by
    obtain ⟨position, parsed, -⟩ := ordered.current
    exact ⟨by simp [parsed], le_rfl⟩
  shown := by
    have nothing : Manager.changesAfter state.changes state.currentOffset = [] := by
      rw [Manager.changesAfter_eq, List.filter_eq_nil_iff]
      intro message member
      rw [decide_eq_true_eq, not_lt]
      exact ordered.below message member
    rw [nothing]
    exact shown

theorem State.CaughtUp.again (caughtUp : state.CaughtUp schema offset view)
    (shown : state.ShownBy schema other) : state.CaughtUp schema offset other where
  reaches := caughtUp.reaches
  shown := by
    have replayed : shownView schema
          ((Manager.changesAfter state.changes offset).foldl applyMessage other) =
        shownView schema ((Manager.changesAfter state.changes offset).foldl applyMessage
          ((Manager.changesAfter state.changes offset).foldl applyMessage view)) :=
      shownView_foldl_congr (.inl rfl) (shown.trans caughtUp.shown.symm)
    rw [foldl_applyMessage_idempotent] at replayed
    exact replayed.trans caughtUp.shown

theorem State.caughtUp_snapshotted_iff (unchanged : next.changes = [])
    (current : next.currentOffset = initialOffset)
    (parsed : (parseOffset offset).isSome = true) :
    next.CaughtUp schema offset view ↔
      compareOffsets offset initialOffset ≠ .gt ∧ next.ShownBy schema view := by
  have within : next.Reaches offset ↔ compareOffsets offset initialOffset ≠ .gt := by
    rw [State.Reaches, current, ne_eq, compareOffsets_eq_gt, not_lt]
    exact and_iff_right parsed
  rw [← within]
  constructor
  · intro ⟨reaches, shown⟩
    rw [unchanged] at shown
    exact ⟨reaches, shown⟩
  · intro ⟨reaches, shown⟩
    refine ⟨reaches, ?_⟩
    rw [unchanged]
    exact shown

theorem initialOffset_lt_nowOffset : offsetPosition initialOffset < offsetPosition nowOffset := by
  decide +kernel

/-- The log of a shape brings a client of its snapshot up to date, and has commits only. -/
structure State.Replays (state : State) (schema : Schema) : Prop where
  ordered : state.LogOrdered
  filed : FiledRows schema state.materialized
  committed : ∀ message ∈ state.changes, offsetPosition nowOffset < offsetPosition message.offset
  origin : ∃ view, state.CaughtUp schema initialOffset view

theorem State.replays_resnapshot [Digest] (state : State) (definition : Definition)
    {snapshot : SnapshotResult} (table : TableRows snapshot.schema snapshot.rows) (now : Time) :
    (state.resnapshot definition snapshot initialOffset now).Replays snapshot.schema := by
  have ordered : (state.resnapshot definition snapshot initialOffset now).LogOrdered :=
    .snapshotted rfl (.inl rfl)
  exact ⟨ordered, table.filed, by simp [State.resnapshot], _, ordered.caughtUp rfl⟩

theorem State.Replays.past_now (replays : state.Replays schema)
    (some : Manager.changesAfter state.changes offset ≠ []) :
    offsetPosition nowOffset < offsetPosition state.currentOffset := by
  obtain ⟨message, member⟩ := List.exists_mem_of_ne_nil _ some
  have logged := List.mem_of_mem_filter member
  exact (replays.committed message logged).trans_le (replays.ordered.below message logged)

/-- Where a stream with nothing to send is told to continue from: a shape that has logged
nothing has not got there, and of others it sends the whole log. -/
theorem State.Replays.caughtUp_now_iff (replays : state.Replays schema)
    (shown : state.ShownBy schema view) :
    state.CaughtUp schema nowOffset view ↔
      compareOffsets nowOffset state.currentOffset ≠ .gt := by
  obtain ⟨origin, begun⟩ := replays.origin
  have whole (offset : String) (early : offsetPosition offset ≤ offsetPosition nowOffset) :
      Manager.changesAfter state.changes offset = state.changes := by
    rw [Manager.changesAfter_eq, List.filter_eq_self]
    intro message member
    exact decide_eq_true (early.trans_lt (replays.committed message member))
  rw [ne_eq, compareOffsets_eq_gt, not_lt]
  constructor
  · intro caughtUp
    exact caughtUp.reaches.2
  · intro within
    refine ⟨⟨by decide +kernel, within⟩, ?_⟩
    have replayed := (begun.again shown).shown
    rw [whole initialOffset initialOffset_lt_nowOffset.le] at replayed
    rw [whole nowOffset le_rfl]
    exact replayed

/-- A refresh at a commit, as the clients of the shape see it. -/
structure State.Grows (state next : State) (schema : Schema) (lsn : UInt64)
    (appended : List Message) : Prop where
  log : state.Extends next appended
  ordered : next.LogOrdered
  commit : offsetCommit next.currentOffset ≤ lsn
  committed : ∀ message ∈ appended, offsetPosition nowOffset < offsetPosition message.offset
  before : FiledRows schema state.materialized
  after : FiledRows schema next.materialized
  deeds : appended.map Message.deed = (diffRows state.definition schema state.materialized
        next.materialized state.definition.relation).map Message.deed ∨
    appended.map Message.deed = (applyLiveWireFormat schema (diffRows state.definition schema
        state.materialized next.materialized state.definition.relation)).map Message.deed

section Growing

variable {lsn : UInt64} {appended : List Message} (keyed : primaryKeyNames schema ≠ [])
  (grows : state.Grows next schema lsn appended)

include keyed grows

theorem State.Grows.caughtUp_iff (caughtUp : state.CaughtUp schema offset view) :
    next.CaughtUp schema offset view ↔
      KeysKept schema state.materialized next.materialized := by
  have later (message : Message) (member : message ∈ appended) :
      offsetPosition offset < offsetPosition message.offset :=
    caughtUp.reaches.2.trans_lt (grows.log.later message member)
  have reaches : next.Reaches offset := by
    refine ⟨caughtUp.reaches.1, ?_⟩
    rw [grows.log.current]
    cases last : appended.getLast? with
    | none => exact caughtUp.reaches.2
    | some final => exact (later final (List.mem_of_getLast? last)).le
  have split : Manager.changesAfter next.changes offset =
      Manager.changesAfter state.changes offset ++ appended := by
    rw [grows.log.changes, Manager.changesAfter_eq, Manager.changesAfter_eq, List.filter_append]
    congr 1
    rw [List.filter_eq_self]
    intro message member
    exact decide_eq_true (later message member)
  have patched := patched_iff keyed grows.before grows.after grows.deeds caughtUp.shown
  rw [← List.foldl_append, ← split, ← grows.log.shape.definition] at patched
  rw [← patched]
  exact ⟨fun caughtUp => caughtUp.shown, fun shown => ⟨reaches, shown⟩⟩

theorem State.Grows.replays (replays : state.Replays schema)
    (kept : KeysKept schema state.materialized next.materialized) : next.Replays schema where
  ordered := grows.ordered
  filed := grows.after
  committed message member := by
    rw [grows.log.changes] at member
    rcases List.mem_append.mp member with old | new
    · exact replays.committed message old
    · exact grows.committed message new
  origin := by
    obtain ⟨origin, begun⟩ := replays.origin
    exact ⟨origin, (grows.caughtUp_iff keyed begun).mpr kept⟩

end Growing

section Commits

variable {lsn : UInt64} {count : Nat} {appended : List Message}

theorem Logged.commit_le (logged : Logged lsn count state next) (committed : 0 < lsn)
    (earlier : offsetCommit state.currentOffset ≤ lsn) (bound : count ≤ 2 ^ 63) :
    offsetCommit next.currentOffset ≤ lsn := by
  rw [logged.currentOffset]
  cases last : (commitOffsets lsn count).getLast? with
  | none => exact earlier
  | some offset =>
      obtain ⟨index, below, rfl⟩ := List.mem_map.mp (List.mem_of_getLast? last)
      have small : index < 2 ^ 63 := (List.mem_range.mp below).trans_le bound
      rw [Option.getD_some, offsetCommit, parseOffset_formatLSNOffset committed small]
      exact UInt64.le_refl lsn

theorem State.Grows.of_logged (extended : next.LogOrdered ∧ state.Extends next appended)
    (logged : Logged lsn count state next) (later : offsetCommit state.currentOffset < lsn)
    (bound : next.changes.length < 2 ^ 63) (before : FiledRows schema state.materialized)
    (after : FiledRows schema next.materialized)
    (deeds : appended.map Message.deed = (diffRows state.definition schema state.materialized
          next.materialized state.definition.relation).map Message.deed ∨
      appended.map Message.deed = (applyLiveWireFormat schema (diffRows state.definition schema
          state.materialized next.materialized state.definition.relation)).map Message.deed) :
    state.Grows next schema lsn appended := by
  have committed : 0 < lsn := UInt64.lt_of_le_of_lt UInt64.zero_le later
  obtain ⟨messages, changes, stamped⟩ := logged.changes
  obtain rfl : messages = appended :=
    List.append_cancel_left (changes.symm.trans extended.2.changes)
  have few : count ≤ 2 ^ 63 := by
    have length := congrArg List.length stamped
    rw [commitOffsets, List.length_map, List.length_map, List.length_range] at length
    rw [changes, List.length_append] at bound
    omega
  refine ⟨extended.2, extended.1, logged.commit_le committed (UInt64.le_of_lt later) few, ?_,
    before, after,
    deeds⟩
  intro message member
  rw [← compareOffsets_eq_lt]
  apply lt_commitOffsets _ few
  · rw [← stamped]
    exact List.mem_map_of_mem member
  · rw [offsetCommit, parseOffset_nowOffset]
    exact committed

variable {snapshot : SnapshotResult} {metadata : ChangeMetadata} {now : Time}
  (replays : state.Replays schema) (table : TableRows schema snapshot.rows)
  (same : snapshot.schema = schema) (own : metadata.keyRelation = state.definition.relation)
  (later : offsetCommit state.currentOffset < metadata.commitLSN)

include replays table same own later

theorem State.Replays.refreshKeys_grows {keyRows : List Row} {refreshed : State × List Message}
    (computed : state.refreshKeys snapshot keyRows metadata now = some refreshed)
    (bound : refreshed.1.changes.length < 2 ^ 63) :
    state.Grows refreshed.1 schema metadata.commitLSN refreshed.2 := by
  subst same
  have committed : 0 < metadata.commitLSN := UInt64.lt_of_le_of_lt UInt64.zero_le later
  obtain ⟨overlaid, count, logged, -⟩ := refreshKeys_logged committed computed
  have after : FiledRows snapshot.schema refreshed.1.materialized := by
    rw [overlaid]
    exact replays.filed.overlay table.filed _
  exact .of_logged (refreshKeys_extends replays.ordered (.inr later) computed bound) logged
    later bound replays.filed after (.inr (State.refreshKeys_deeds computed own committed))

theorem State.Replays.refresh_grows [Digest]
    (bound : (state.refresh snapshot metadata now).1.changes.length < 2 ^ 63) :
    state.Grows (state.refresh snapshot metadata now).1 schema metadata.commitLSN
      (state.refresh snapshot metadata now).2 := by
  subst same
  have committed : 0 < metadata.commitLSN := UInt64.lt_of_le_of_lt UInt64.zero_le later
  obtain ⟨read, count, logged, -⟩ := refresh_logged committed state snapshot now
  have after : FiledRows snapshot.schema (state.refresh snapshot metadata now).1.materialized := by
    rw [read]
    exact table.filed
  exact .of_logged (refresh_extends replays.ordered (.inr later) bound) logged later bound
    replays.filed after (.inl (State.refresh_deeds state snapshot now own))

end Commits

end CatchUp

end PostgresSync.Shapes
