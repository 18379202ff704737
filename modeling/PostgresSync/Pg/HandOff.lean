import PostgresSync.Data.Run
import PostgresSync.Pg.TableBatches

namespace PostgresSync.Pg

open PostgresSync.Data
open PostgresSync.Shapes
open PostgresSync.Storage

/-! How a snapshot and the stream of transactions take turns.  A request reads its snapshot
and registers it later; in between the database goes on, and so does the stream. -/

/-- A request between its `Snapshot` and its `UpsertSnapshotAtOffset`. -/
structure Registration where
  definition : Definition
  snapshot : SnapshotResult
  currentOffset : String

/-- A table of the database, the transactions that have been committed and not applied, the
requests that are under way, and the runtime. -/
structure HandOff (σ : Type) where
  runtime : Runtime σ
  rows : List Row
  pending : List Transaction := []
  requests : List Registration := []

def differing (left right : List Row) : List Row :=
  (left.filter fun row => row ∉ right) ++ right.filter fun row => row ∉ left

theorem mem_differing {left right : List Row} {row : Row} :
    row ∈ differing left right ↔ ¬(row ∈ left ↔ row ∈ right) := by
  simp only [differing, List.mem_append, List.mem_filter, decide_eq_true_eq]
  tauto

namespace HandOff

inductive Event where
  /-- A transaction is committed, and leaves these rows. -/
  | commit (transaction : Transaction) (rows : List Row)
  /-- `serveInitialSnapshot` up to its read. -/
  | readInitial (definition : Definition) (metadata : Option SnapshotMetadata)
  /-- `serveNow` up to its read. -/
  | readNow (definition : Definition) (metadata : Option SnapshotMetadata)
  /-- One of the requests registers what it has read. -/
  | upsert (index : Nat) (now : Time)
  /-- The oldest transaction is delivered.  It is delivered again when it fails. -/
  | apply (now : Time)

section Machine

variable [Store σ] [Digest] [LSNText] (table : Table)

def readSnapshot (state : HandOff σ) (definition : Definition)
    (metadata : Option SnapshotMetadata) (currentOffset : String) : HandOff σ :=
  match snapshot (table.database state.rows) definition with
  | .error _ => state
  | .ok snapshot =>
      { state with
        requests := state.requests ++
          [⟨definition, { snapshot with metadata := metadata }, currentOffset⟩] }

def upsert (state : HandOff σ) (request : Registration) (index : Nat) (now : Time) :
    HandOff σ :=
  let shapes := (state.runtime.shapes.upsertSnapshotAtOffset request.definition
    request.snapshot request.currentOffset now).2
  { state with
    runtime := { state.runtime with shapes := shapes }
    requests := state.requests.eraseIdx index }

def apply (state : HandOff σ) (transaction : Transaction) (rest : List Transaction)
    (now : Time) : HandOff σ :=
  let applied := applyChangeBatch (table.reads state.rows)
    (transaction.batch state.runtime.relationCache) now state.runtime
  { state with
    runtime := applied.2
    pending :=
      match applied.1 with
      | .ok () => rest
      | .error _ => state.pending }

def step (state : HandOff σ) : Event → HandOff σ
  | .commit transaction rows =>
      { state with rows := rows, pending := state.pending ++ [transaction] }
  | .readInitial definition metadata =>
      state.readSnapshot table definition metadata initialOffset
  | .readNow definition metadata =>
      match state.runtime.shapes.lookupByDefinition definition with
      | some _ => state
      | none => state.readSnapshot table definition metadata nowOffset
  | .upsert index now =>
      match state.requests[index]? with
      | none => state
      | some request => state.upsert request index now
  | .apply now =>
      match state.pending with
      | [] => state
      | transaction :: rest => state.apply table transaction rest now

end Machine

section Statements

variable [Store σ] [Digest] [LSNText] (table : Table) (state : HandOff σ)

/-- The transaction takes the table from some rows to others, and its batch has the key of
every row that it changes. -/
structure Commits (transaction : Transaction) (before after : List Row) : Prop where
  holds : table.Holds after
  complete : ∀ key ∈ table.keys transaction, KeyComplete table.schema key
  named : ∀ row ∈ differing before after,
    ∃ key ∈ table.keys transaction, SameKey table.schema key row

def Admits : Event → Prop
  | .commit transaction rows => Commits table transaction state.rows rows
  | .readInitial _ _ => True
  | .readNow _ _ => True
  | .upsert index now => ∀ request ∈ state.requests[index]?,
      state.runtime.shapes.FreshHandle request.definition now
  | .apply _ => True

/-- The signatures of the keys that the stream is still to bring. -/
def outstanding : List String := state.pending.flatMap table.changed

/-- Whatever a request registers is what the table has now, except under keys that the stream
is still to bring.  The keys are told by their signatures. -/
def HandsOver : Event → Prop
  | .commit transaction rows =>
      (∀ key ∈ table.keys transaction, FaithfulKey table.schema key) ∧
        ∀ row ∈ rows, FaithfulKey table.schema row
  | .readInitial _ _ => True
  | .readNow _ _ => True
  | .upsert index now => ∀ request ∈ state.requests[index]?,
      state.runtime.shapes.Accepts (state.runtime.shapes.upsertState request.definition
        request.snapshot request.currentOffset now) →
      ∀ row ∈ differing request.snapshot.rows (table.selected request.definition state.rows),
        table.signature row ∈ state.outstanding table
  | .apply _ => True

/-- All committed transactions have been applied and no request is under way. -/
def Quiet : Prop := state.pending = [] ∧ state.requests = []

/-- Every active shape has the rows that its definition selects, each under its key. -/
def Current : Prop :=
  ∀ shape ∈ state.runtime.shapes.activeStates, ∀ signature row,
    shape.materialized[signature]? = some row ↔
      row ∈ table.selected shape.definition state.rows ∧ table.signature row = signature

/-- A runtime that follows the table, and has shapes of the table only. -/
structure Started : Prop where
  indexed : state.runtime.shapes.Indexed
  known : state.runtime.relationCache = table.cache
  tells : table.Tells state.rows
  ours : ∀ shape ∈ state.runtime.shapes.activeStates,
    shape.definition.relation = table.relation
  quiet : state.Quiet
  current : state.Current table

instance (index : Nat) (now : Time) : Decidable (Admits table state (.upsert index now)) :=
  inferInstanceAs (Decidable (∀ request ∈ state.requests[index]?, _))

instance (index : Nat) (now : Time) : Decidable (HandsOver table state (.upsert index now)) :=
  inferInstanceAs (Decidable (∀ request ∈ state.requests[index]?, _ → ∀ row ∈ _, _))

end Statements

section Soundness

variable {table : Table} {state : HandOff σ}

structure Taken (table : Table) (request : Registration) : Prop where
  relation : request.definition.relation = table.relation
  schema : request.snapshot.schema = table.schemaFor request.definition
  differ : SignaturesDiffer (table.schemaFor request.definition) request.snapshot.rows

/-- The rows of a shape are those of the table, except under keys that the stream is still to
bring. -/
def Follows (table : Table) (state : HandOff σ) (shape : State) : Prop :=
  shape.definition.relation = table.relation ∧
    ∀ signature, signature ∉ state.outstanding table → shape.materialized[signature]? =
      (table.expected shape.definition state.rows)[signature]?

structure Sound (table : Table) (state : HandOff σ) : Prop where
  indexed : state.runtime.shapes.Indexed
  known : state.runtime.relationCache = table.cache
  tells : table.Tells state.rows
  faithful : ∀ transaction ∈ state.pending, table.Faithful transaction
  taken : ∀ request ∈ state.requests, Taken table request
  shapes : ∀ handle shape, state.runtime.shapes.active? handle = some shape →
    Follows table state shape

theorem Sound.mem_activeStates (sound : Sound table state) {shape : State} :
    shape ∈ state.runtime.shapes.activeStates ↔
      state.runtime.shapes.active? shape.handle = some shape :=
  Shapes.mem_activeStates sound.indexed.named

theorem Sound.ours (sound : Sound table state) :
    ∀ shape ∈ state.runtime.shapes.activeStates,
      shape.definition.relation = table.relation :=
  fun shape active => (sound.shapes _ shape (sound.mem_activeStates.mp active)).1

theorem shows_iff (tells : table.Tells state.rows) {shape : State} :
    (∀ signature row, shape.materialized[signature]? = some row ↔
      row ∈ table.selected shape.definition state.rows ∧ table.signature row = signature) ↔
      ∀ signature : String, shape.materialized[signature]? =
        (table.expected shape.definition state.rows)[signature]? := by
  refine forall_congr' fun signature => ?_
  rw [Option.ext_iff]
  exact forall_congr' fun row => by rw [tells.getElem?_expected]

theorem Started.sound (started : state.Started table) : Sound table state := by
  obtain ⟨indexed, known, tells, ours, ⟨pending, requests⟩, current⟩ := started
  refine ⟨indexed, known, tells, ?_, ?_, ?_⟩
  · rw [pending]
    nofun
  · rw [requests]
    nofun
  · intro handle shape active
    have named := indexed.named handle shape (Manager.active?_eq_some.mp active).1
    have listed := (Shapes.mem_activeStates indexed.named).mpr (named ▸ active)
    exact ⟨ours shape listed, fun signature _ =>
      (shows_iff tells).mp (current shape listed) signature⟩

theorem Sound.current (sound : Sound table state) (quiet : state.Quiet) :
    state.Current table := by
  intro shape active
  refine (shows_iff sound.tells).mpr fun signature => ?_
  apply (sound.shapes _ shape (sound.mem_activeStates.mp active)).2
  simp [outstanding, quiet.1]

theorem Sound.readSnapshot (sound : Sound table state) (definition : Definition)
    (metadata : Option SnapshotMetadata) (currentOffset : String) :
    Sound table (state.readSnapshot table definition metadata currentOffset) := by
  unfold HandOff.readSnapshot
  by_cases ours : definition.relation = table.relation
  · rw [Table.snapshot_database ours]
    refine ⟨sound.indexed, sound.known, sound.tells, sound.faithful, ?_, sound.shapes⟩
    intro request member
    rcases List.mem_append.mp member with earlier | last
    · exact sound.taken request earlier
    · rw [List.mem_singleton.mp last]
      exact ⟨ours, rfl, sound.tells.differ definition⟩
  · rw [Table.snapshot_database_missing ours]
    exact sound

section Commit

variable {transaction : Transaction} {rows : List Row}

theorem Commits.expected (commits : Commits table transaction state.rows rows)
    (tells : table.Tells state.rows) (after : table.Tells rows)
    (faithful : table.Faithful transaction) (definition : Definition) {signature : String}
    (unchanged : signature ∉ table.changed transaction) :
    (table.expected definition rows)[signature]? =
      (table.expected definition state.rows)[signature]? := by
  have kept (row : Row) (same : table.signature row = signature)
      (complete : KeyComplete table.schema row) : row ∈ state.rows ↔ row ∈ rows := by
    by_contra moved
    obtain ⟨key, member, shared⟩ := commits.named row (mem_differing.mpr moved)
    apply unchanged
    have signed : table.signature key = table.signature row :=
      ((faithful.faithful key member).own row complete).mpr shared
    rw [← same, ← signed]
    exact List.mem_map_of_mem member
  refine Option.ext fun row => ?_
  rw [after.getElem?_expected, tells.getElem?_expected]
  refine and_congr_left fun same => ?_
  have signed (source : Row)
      (shown : selectRow (table.projected definition) source = row) :
      table.signature source = signature := by
    rw [← same, ← shown, ← table.signature_selectRow source, table.signature_schemaFor]
  simp only [Table.selected, List.mem_map, List.mem_filter]
  refine exists_congr fun source => and_congr_left fun shown =>
    and_congr_left fun _ => ⟨fun member => ?_, fun member => ?_⟩
  · exact (kept source (signed source shown) (after.complete source member)).mpr member
  · exact (kept source (signed source shown) (tells.complete source member)).mp member

theorem Sound.commit [Store σ] [Digest] [LSNText] (sound : Sound table state)
    (commits : Commits table transaction state.rows rows)
    (faithful : ∀ key ∈ table.keys transaction, FaithfulKey table.schema key)
    (told : ∀ row ∈ rows, FaithfulKey table.schema row) :
    Sound table (state.step table (.commit transaction rows)) := by
  have after : table.Tells rows := ⟨commits.holds, told⟩
  have keys : table.Faithful transaction := ⟨commits.complete, faithful⟩
  refine ⟨sound.indexed, sound.known, after, ?_, sound.taken, ?_⟩
  · intro other member
    rcases List.mem_append.mp member with earlier | last
    · exact sound.faithful other earlier
    · rw [List.mem_singleton.mp last]
      exact keys
  · intro handle shape active
    obtain ⟨relation, agrees⟩ := sound.shapes handle shape active
    refine ⟨relation, fun signature absent => ?_⟩
    simp only [outstanding, step, List.flatMap_append, List.flatMap_singleton,
      List.mem_append, not_or] at absent
    rw [agrees signature absent.1]
    exact (commits.expected sound.tells after keys shape.definition absent.2).symm

end Commit

section Upsert

variable {request : Registration} {index : Nat} {now : Time}

theorem Taken.follows (taken : Taken table request) (tells : table.Tells state.rows)
    (handed : ∀ row ∈ differing request.snapshot.rows
        (table.selected request.definition state.rows),
      table.signature row ∈ state.outstanding table)
    {signature : String} (absent : signature ∉ state.outstanding table) :
    (materializedRows request.snapshot.schema request.snapshot.rows)[signature]? =
      (table.expected request.definition state.rows)[signature]? := by
  refine Option.ext fun row => ?_
  rw [taken.schema, taken.differ.getElem?_materializedRows, table.signature_schemaFor,
    tells.getElem?_expected]
  refine and_congr_left fun same => ?_
  by_contra moved
  exact absent (same ▸ handed row (mem_differing.mpr moved))

theorem Taken.rows_iff (taken : Taken table request) (tells : table.Tells state.rows)
    (agrees : ∀ signature : String,
      (materializedRows request.snapshot.schema request.snapshot.rows)[signature]? =
        (table.expected request.definition state.rows)[signature]?) (row : Row) :
    row ∈ request.snapshot.rows ↔ row ∈ table.selected request.definition state.rows := by
  have equal := Option.ext_iff.mp (agrees (table.signature row)) row
  rw [taken.schema, taken.differ.getElem?_materializedRows, table.signature_schemaFor,
    tells.getElem?_expected] at equal
  simpa using equal

variable [Store σ] [Digest]

theorem active?_upsert {handle : String} {shape : State}
    (active : (state.upsert request index now).runtime.shapes.active? handle = some shape) :
    state.runtime.shapes.active? handle = some shape ∨
      (state.runtime.shapes.Accepts (state.runtime.shapes.upsertState request.definition
          request.snapshot request.currentOffset now) ∧
        shape.definition = request.definition ∧
        shape.materialized =
          materializedRows request.snapshot.schema request.snapshot.rows) := by
  obtain ⟨found, alive⟩ := Manager.active?_eq_some.mp active
  change (state.runtime.shapes.upsertSnapshotAtOffset request.definition request.snapshot
    request.currentOffset now).2.byHandle[handle]? = some shape at found
  by_cases accepted : state.runtime.shapes.Accepts (state.runtime.shapes.upsertState
      request.definition request.snapshot request.currentOffset now)
  · rw [(Manager.upsertSnapshotAtOffset_of_accepts _ _ _ _ _ accepted).2] at found
    split at found
    · obtain ⟨base, same⟩ := state.runtime.shapes.upsertState_eq request.definition
        request.snapshot request.currentOffset now
      rw [same] at found
      obtain rfl := Option.some.inj found
      exact .inr ⟨accepted, rfl, rfl⟩
    · exact .inl (Manager.active?_eq_some.mpr ⟨found, alive⟩)
  · obtain ⟨error, failed⟩ := Manager.upsertSnapshotAtOffset_of_not_accepts _ _ _ _ _ accepted
    rw [failed] at found
    exact .inl (Manager.active?_eq_some.mpr ⟨found, alive⟩)

theorem Sound.upsert (sound : Sound table state) (member : request ∈ state.requests)
    (fresh : state.runtime.shapes.FreshHandle request.definition now)
    (handed : state.runtime.shapes.Accepts (state.runtime.shapes.upsertState
        request.definition request.snapshot request.currentOffset now) →
      ∀ row ∈ differing request.snapshot.rows (table.selected request.definition state.rows),
        table.signature row ∈ state.outstanding table) :
    Sound table (state.upsert request index now) := by
  have taken := sound.taken request member
  have indexed := @Manager.Indexed.perform _ _ _ _ ⟨.upsertSnapshotAtOffset request.definition
    request.snapshot request.currentOffset, now⟩ sound.indexed fresh
  refine ⟨indexed, sound.known, sound.tells, sound.faithful, ?_, ?_⟩
  · exact fun other kept => sound.taken other (List.mem_of_mem_eraseIdx kept)
  · intro handle shape active
    rcases active?_upsert active with before | ⟨accepted, definition, materialized⟩
    · exact sound.shapes handle shape before
    · refine ⟨definition ▸ taken.relation, fun signature absent => ?_⟩
      rw [definition, materialized]
      exact taken.follows sound.tells (handed accepted) absent

theorem Sound.handed_of_current (sound : Sound table state) (member : request ∈ state.requests)
    (fresh : state.runtime.shapes.FreshHandle request.definition now)
    (accepted : state.runtime.shapes.Accepts (state.runtime.shapes.upsertState
      request.definition request.snapshot request.currentOffset now))
    (current : (state.upsert request index now).Current table) :
    differing request.snapshot.rows (table.selected request.definition state.rows) = [] := by
  have indexed := @Manager.Indexed.perform _ _ _ _ ⟨.upsertSnapshotAtOffset request.definition
    request.snapshot request.currentOffset, now⟩ sound.indexed fresh
  have held := (Manager.upsertSnapshotAtOffset_of_accepts _ _ _ _ _ accepted).2
    (state.runtime.shapes.upsertTarget request.definition now)
  rw [if_pos rfl] at held
  obtain ⟨base, same⟩ := state.runtime.shapes.upsertState_eq request.definition
    request.snapshot request.currentOffset now
  rw [same] at held
  have active : base.resnapshot request.definition request.snapshot request.currentOffset
      now ∈ (state.upsert request index now).runtime.shapes.activeStates := by
    refine (Shapes.mem_activeStates indexed.named).mpr (Manager.active?_eq_some.mpr ⟨?_, rfl⟩)
    rw [indexed.named _ _ held]
    exact held
  have agrees := (shows_iff sound.tells).mp (current _ active)
  refine List.eq_nil_iff_forall_not_mem.mpr fun row moved => ?_
  exact mem_differing.mp moved ((sound.taken request member).rows_iff sound.tells agrees row)

end Upsert

section Apply

variable [Store σ] [Digest] [LSNText] {transaction : Transaction} {rest : List Transaction}
  {now : Time}

theorem applyChangeBatch_relationCache (reads : Reads) (batch : ChangeBatch) (now : Time)
    (runtime : Runtime σ) :
    (applyChangeBatch reads batch now runtime).2.relationCache = runtime.relationCache := by
  unfold applyChangeBatch
  dsimp only
  split
  · rfl
  · split <;> rfl

theorem Sound.apply (sound : Sound table state)
    (oldest : state.pending = transaction :: rest) (now : Time) :
    Sound table (state.apply table transaction rest now) := by
  have keys := sound.faithful transaction (oldest ▸ List.mem_cons_self)
  unfold HandOff.apply
  dsimp only
  rw [sound.known]
  obtain ⟨indexed, -⟩ := applyChangeBatch_keeps (table.reads state.rows)
    (transaction.batch table.cache) now sound.indexed
  have known := (applyChangeBatch_relationCache (table.reads state.rows)
    (transaction.batch table.cache) now state.runtime).trans sound.known
  cases result : (applyChangeBatch (table.reads state.rows) (transaction.batch table.cache)
      now state.runtime).1 with
  | error error =>
      refine ⟨indexed, known, sound.tells, sound.faithful, sound.taken, ?_⟩
      intro handle next active
      obtain ⟨shape, before, definition, moved, -⟩ := Table.applyChangeBatch_renews
        sound.tells keys sound.indexed sound.known sound.ours active
      obtain ⟨relation, agrees⟩ := sound.shapes handle shape before
      rw [Follows, definition]
      refine ⟨relation, fun signature absent => ?_⟩
      rcases moved.moves signature with same | fresh
      · exact same.trans (agrees signature absent)
      · exact fresh
  | ok value =>
      refine ⟨indexed, known, sound.tells, ?_, sound.taken, ?_⟩
      · exact fun other member => sound.faithful other (oldest ▸ List.mem_cons_of_mem _ member)
      · intro handle next active
        obtain ⟨shape, before, definition, moved, renewed⟩ := Table.applyChangeBatch_renews
          sound.tells keys sound.indexed sound.known sound.ours active
        obtain ⟨relation, agrees⟩ := sound.shapes handle shape before
        rw [Follows, definition]
        refine ⟨relation, fun signature absent => ?_⟩
        by_cases listed : signature ∈ table.changed transaction
        · exact (renewed result).reached signature listed
        · have unlisted : signature ∉ state.outstanding table := by
            rw [outstanding, oldest, List.flatMap_cons, List.mem_append, not_or]
            exact ⟨listed, absent⟩
          rcases moved.moves signature with same | fresh
          · exact same.trans (agrees signature unlisted)
          · exact fresh

end Apply

section Runs

variable [Store σ] [Digest] [LSNText] {event : Event}

theorem Sound.step (sound : Sound table state) (admitted : state.Admits table event)
    (handed : state.HandsOver table event) : Sound table (state.step table event) := by
  cases event with
  | commit transaction rows => exact sound.commit admitted handed.1 handed.2
  | readInitial definition metadata => exact sound.readSnapshot definition metadata _
  | readNow definition metadata =>
      dsimp only [HandOff.step]
      split
      · exact sound
      · exact sound.readSnapshot definition metadata _
  | upsert index now =>
      dsimp only [HandOff.step]
      split
      · exact sound
      · next request found =>
          exact sound.upsert (List.mem_of_getElem? found) (admitted request found)
            (handed request found)
  | apply now =>
      dsimp only [HandOff.step]
      split
      · exact sound
      · next oldest => exact sound.apply oldest now

theorem Sound.current_iff (sound : Sound table state) (admitted : state.Admits table event)
    (quiet : (state.step table event).Quiet) :
    (state.step table event).Current table ↔ state.HandsOver table event := by
  have current (handed : state.HandsOver table event) :=
    (sound.step admitted handed).current quiet
  cases event with
  | commit transaction rows => simp [Quiet, HandOff.step] at quiet
  | readInitial definition metadata => exact iff_of_true (current trivial) trivial
  | readNow definition metadata => exact iff_of_true (current trivial) trivial
  | apply now => exact iff_of_true (current trivial) trivial
  | upsert index now =>
      refine ⟨fun shown request found accepted row moved => ?_, current⟩
      have step : state.step table (.upsert index now) = state.upsert request index now := by
        dsimp only [HandOff.step]
        rw [Option.mem_def.mp found]
      rw [step] at shown
      rw [sound.handed_of_current (List.mem_of_getElem? found) (admitted request found)
        accepted shown] at moved
      cases moved

/-- When every request of a run hands over, the shapes are current whenever the run is quiet;
and a further step that makes it quiet leaves them current exactly when it hands over too. -/
theorem handOff_current_iff {start : HandOff σ} {run : List Event}
    (started : start.Started table)
    (admitted : Along (HandOff.step table) (Admits table) start run)
    (handed : Along (HandOff.step table) (HandsOver table) start run) :
    ((run.foldl (HandOff.step table) start).Quiet →
        (run.foldl (HandOff.step table) start).Current table) ∧
      ∀ event, (run.foldl (HandOff.step table) start).Admits table event →
        ((run.foldl (HandOff.step table) start).step table event).Quiet →
          (((run.foldl (HandOff.step table) start).step table event).Current table ↔
            (run.foldl (HandOff.step table) start).HandsOver table event) := by
  have sound : Sound table (run.foldl (HandOff.step table) start) :=
    Along.invariant (fun state event sound met => sound.step met.1 met.2) run start
      started.sound (Along.and run start admitted handed)
  exact ⟨sound.current, fun event admitted quiet => sound.current_iff admitted quiet⟩

end Runs

end Soundness

section Items

def itemsTable : Table where
  relationID := 1
  relation := ⟨"public", "items"⟩
  columns := itemsColumns
  selects _ _ := true
  distinct := by decide
  keyed := by decide

def itemsStart : HandOff MemoryStore where
  runtime := {
    cfg := syncConfig
    shapes := { store := newMemoryStore }
    systemIdentity := ⟨"7001", 1, 200⟩
    replicationSlot := "postgres_sync_go_main_slot"
    relationCache := itemsTable.cache }
  rows := [itemRow "1" "one"]

def secondItem : Transaction where
  xid := 7
  changes := [.insert 1 [⟨'t', "2"⟩, ⟨'t', "two"⟩]]
  commitLSN := 100
  transactionEndLSN := 110

def commitSecond : Event := .commit secondItem [itemRow "1" "one", itemRow "2" "two"]

def promptRun : List Event :=
  [.readInitial itemsDefinition none, commitSecond, .upsert 0 1000, .apply 2000]

def lateRun : List Event :=
  [.readInitial itemsDefinition none, commitSecond, .apply 1000, .upsert 0 2000]

theorem itemsStart_started :
    letI := tabulatedDigest
    itemsStart.Started itemsTable where
  indexed := .empty newMemoryStore
  known := rfl
  tells := {
    complete := by decide +kernel
    unique := by simp [itemsStart]
    faithful := by
      intro row member
      obtain rfl := List.mem_singleton.mp member
      exact PlainKey.faithful (by decide +kernel) (by decide +kernel) (by decide +kernel) }
  ours := by decide +kernel
  quiet := ⟨rfl, rfl⟩
  current := by
    have none : itemsStart.runtime.shapes.activeStates = [] := by decide +kernel
    simp [Current, none]

theorem commitSecond_commits :
    Commits itemsTable secondItem itemsStart.rows [itemRow "1" "one", itemRow "2" "two"] where
  holds := {
    complete := by decide +kernel
    unique := by decide +kernel }
  complete := by decide +kernel
  named := by decide +kernel

theorem commitSecond_faithful :
    (∀ key ∈ itemsTable.keys secondItem, FaithfulKey itemsTable.schema key) ∧
      ∀ row ∈ [itemRow "1" "one", itemRow "2" "two"], FaithfulKey itemsTable.schema row := by
  have plain : ∀ row ∈ itemsTable.keys secondItem ++ [itemRow "1" "one", itemRow "2" "two"],
      PlainKey itemsTable.schema row ∧ KeyComplete itemsTable.schema row := by
    decide +kernel
  have faithful row member := PlainKey.faithful (plain row member).1 (plain row member).2
    (by decide +kernel)
  exact ⟨fun row member => faithful row (List.mem_append_left _ member),
    fun row member => faithful row (List.mem_append_right _ member)⟩

theorem handOff_current_prompt :
    letI := tabulatedDigest
    letI := tabulatedLSNText
    (promptRun.foldl (step itemsTable) itemsStart).Quiet ∧
      ((promptRun.foldl (step itemsTable) itemsStart).runtime.shapes.stateAt
        "fa19db76c4-1").materialized.values = [itemRow "1" "one", itemRow "2" "two"] ∧
      (promptRun.foldl (step itemsTable) itemsStart).Current itemsTable := by
  have quiet : @Quiet MemoryStore (promptRun.foldl
      (@step _ _ tabulatedDigest tabulatedLSNText itemsTable) itemsStart) := by
    exact ⟨by decide +kernel, by decide +kernel⟩
  refine ⟨quiet, by decide +kernel, ?_⟩
  exact (@handOff_current_iff _ itemsTable _ tabulatedDigest tabulatedLSNText itemsStart
    promptRun itemsStart_started
    ⟨trivial, commitSecond_commits, by decide +kernel, trivial, trivial⟩
    ⟨trivial, commitSecond_faithful, by decide +kernel, trivial, trivial⟩).1 quiet

/-- The stream passes by before the shape is there, and the shape never gets the row. -/
theorem handOff_loses_row :
    letI := tabulatedDigest
    letI := tabulatedLSNText
    itemsStart.Started itemsTable ∧
      Along (step itemsTable) (Admits itemsTable) itemsStart lateRun ∧
      (lateRun.foldl (step itemsTable) itemsStart).Quiet ∧
      (lateRun.foldl (step itemsTable) itemsStart).rows =
        [itemRow "1" "one", itemRow "2" "two"] ∧
      ((lateRun.foldl (step itemsTable) itemsStart).runtime.shapes.stateAt
        "fa19db76c4-2").materialized.values = [itemRow "1" "one"] ∧
      ¬(lateRun.foldl (step itemsTable) itemsStart).Current itemsTable := by
  refine ⟨itemsStart_started, ⟨trivial, commitSecond_commits, trivial, by decide +kernel, trivial⟩,
    ⟨by decide +kernel, by decide +kernel⟩, by decide +kernel, by decide +kernel, ?_⟩
  intro current
  have stale : ∃ shape ∈ (lateRun.foldl
      (@step _ _ tabulatedDigest tabulatedLSNText itemsTable)
        itemsStart).runtime.shapes.activeStates,
      shape.materialized["2"]? ≠ some (itemRow "2" "two") ∧
        itemRow "2" "two" ∈ itemsTable.selected shape.definition
          (lateRun.foldl (@step _ _ tabulatedDigest tabulatedLSNText itemsTable)
            itemsStart).rows ∧
        itemsTable.signature (itemRow "2" "two") = "2" := by
    decide +kernel
  obtain ⟨shape, active, missing, selected⟩ := stale
  exact missing ((current shape active "2" _).mpr selected)

end Items

end HandOff

end PostgresSync.Pg
