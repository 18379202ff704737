import PostgresSync.Protocol.Validators

namespace PostgresSync.Protocol

open PostgresSync.Data
open PostgresSync.Shapes
open PostgresSync.Storage

/-! The service and the responses that it has sent. -/

structure Sent where
  request : ShapeRequest
  etag : String
  messages : List Message
deriving DecidableEq

/-- `waiting` are the long polls and the streams that are open.  `reads` are the
schemas and rows that the initial requests of a handle have read, and `commits` the commits
that have been logged for a handle. -/
structure Serving (σ : Type) where
  manager : Manager σ
  commits : List (String × UInt64) := []
  reads : List (String × Schema × List Row) := []
  waiting : List (ShapeRequest × Phase) := []
  sent : List Sent := []

/-- What happens to the service.  The database is whatever the backend of a request
reads. -/
inductive ServingStep where
  | get (backend : Backend) (request : ShapeRequest) (now : Time)
  | proceed (id : Nat) (backend : Backend) (now : Time) (fresh : Nat) (wake : Manager.Wake)
  | delete (allowShapeDeletion : Bool) (request : ShapeRequest) (now : Time)
  | refresh (handle : String) (snapshot : SnapshotResult) (metadata : ChangeMetadata)
      (now : Time)
  | refreshKeys (handle : String) (snapshot : SnapshotResult) (keyRows : List Row)
      (metadata : ChangeMetadata) (now : Time)
  | invalidateByRelation (relation : Relation) (now : Time)
  | invalidateAll (now : Time)

def Progress.phase? : Progress → Option Phase
  | .pending phase => some phase
  | .streamed _ _ phase => some phase
  | .answered _ => none
  | .ended _ => none

section

variable [Digest] [Store σ]

/-- The handle of an initial request that succeeds, and what the backend has read for it. -/
def initialRead (backend : Backend) (request : ShapeRequest) (manager : Manager σ)
    (now : Time) : List (String × Schema × List Row) :=
  if request.subset = none ∧ request.offset = "-1" then
    let definition := snapshotDefinitionFromRequest request
    match backend.snapshot ⟨definition, .data, true⟩ with
    | .error _ => []
    | .ok snapshot =>
        if manager.Accepts (manager.upsertState definition snapshot initialOffset now) then
          [(manager.upsertTarget definition now, snapshot.schema, snapshot.rows)]
        else
          []
  else
    []

namespace Serving

def exchange (system : Serving σ) :
    ServingStep → Option (ShapeRequest × (ShapeRequest → Progress × Manager σ))
  | .get backend request now =>
      some (request, fun request => handleShape backend request system.manager now)
  | .proceed id backend now fresh wake =>
      system.waiting[id]?.map fun pending =>
        (pending.1, fun request => stepContinuation backend request
          (shapeDefinitionFromRequest request) system.manager now fresh wake pending.2)
  | _ => none

def recorded (system : Serving σ) (request : ShapeRequest) (progress : Progress) :
    List Sent :=
  match progress.sent? with
  | some (tag, messages) => system.sent ++ [⟨request.plain, tag, messages⟩]
  | none => system.sent

def refreshed (system : Serving σ) (handle : String) (metadata : ChangeMetadata)
    (manager : Manager σ) : Serving σ :=
  { system with
    manager := manager
    commits :=
      if (manager.stateAt handle).changes = (system.manager.stateAt handle).changes then
        system.commits
      else
        system.commits ++ [(handle, metadata.commitLSN)] }

def step (system : Serving σ) : ServingStep → Serving σ
  | .get backend request now =>
      let served := handleShape backend request system.manager now
      { system with
        manager := served.2
        reads := system.reads ++ initialRead backend request system.manager now
        waiting := system.waiting ++ (served.1.phase?.map (request, ·)).toList
        sent := system.recorded request served.1 }
  | .proceed id backend now fresh wake =>
      match system.waiting[id]? with
      | none => system
      | some (request, phase) =>
          let served := stepContinuation backend request
            (shapeDefinitionFromRequest request) system.manager now fresh wake phase
          { system with
            manager := served.2
            waiting :=
              match served.1.phase? with
              | some phase => system.waiting.set id (request, phase)
              | none => system.waiting.eraseIdx id
            sent := system.recorded request served.1 }
  | .delete allowShapeDeletion request now =>
      { system with
        manager := (deleteShape allowShapeDeletion request
          (shapeDefinitionFromRequest request) system.manager now).2 }
  | .refresh handle snapshot metadata now =>
      system.refreshed handle metadata
        (system.manager.refreshWithMetadata handle snapshot metadata now).2
  | .refreshKeys handle snapshot keyRows metadata now =>
      system.refreshed handle metadata
        (system.manager.refreshKeysWithMetadata handle snapshot keyRows metadata now).2
  | .invalidateByRelation relation now =>
      { system with manager := (system.manager.invalidateByRelation relation now).2 }
  | .invalidateAll now =>
      { system with manager := (system.manager.invalidateAll now).2 }

/-- When a request is told that nothing was modified, every earlier response to it with
that ETag had the messages that it would be sent now. -/
def Sound (system : Serving σ) (step : ServingStep) : Prop :=
  ∀ exchange ∈ system.exchange step,
    let request := exchange.1
    let handler := exchange.2
    ∀ tag ∈ (handler request).1.notModified?,
      ∀ earlier ∈ system.sent, earlier.request = request.plain → earlier.etag = tag →
        (handler request.plain).1.sent? = some (tag, earlier.messages)

instance (system : Serving σ) (step : ServingStep) : Decidable (system.Sound step) :=
  inferInstanceAs (Decidable (∀ exchange ∈ system.exchange step,
    ∀ tag ∈ (exchange.2 exchange.1).1.notModified?, ∀ earlier ∈ system.sent,
      earlier.request = exchange.1.plain → earlier.etag = tag →
        (exchange.2 exchange.1.plain).1.sent? = some (tag, earlier.messages)))

/-- A refresh that appends to the log of a shape has a later commit than every refresh
that did so before. -/
def CommitsLater (system : Serving σ) (handle : String) (lsn : UInt64)
    (manager : Manager σ) : Prop :=
  (manager.stateAt handle).changes ≠ (system.manager.stateAt handle).changes →
    0 < lsn ∧ ∀ commit ∈ system.commits, commit.1 = handle → commit.2 < lsn

/-- An initial request that carries the ETag of its shape's snapshots reads what every
initial request of the shape has read, and the commits of a shape grow. -/
def Steady (system : Serving σ) : ServingStep → Prop
  | .get backend request now =>
      ∀ read ∈ initialRead backend request system.manager now,
        request.ifNoneMatch = "\"" ++ etag read.1 "-1" initialOffset false now ++ "\"" →
          ∀ earlier ∈ system.reads, earlier.1 = read.1 → earlier.2 = read.2
  | .refresh handle snapshot metadata now =>
      system.CommitsLater handle metadata.commitLSN
        (system.manager.refreshWithMetadata handle snapshot metadata now).2
  | .refreshKeys handle snapshot keyRows metadata now =>
      system.CommitsLater handle metadata.commitLSN
        (system.manager.refreshKeysWithMetadata handle snapshot keyRows metadata now).2
  | _ => True

instance (system : Serving σ) (handle : String) (lsn : UInt64) (manager : Manager σ) :
    Decidable (system.CommitsLater handle lsn manager) :=
  inferInstanceAs (Decidable (_ ≠ _ → _ ∧ _))

instance (system : Serving σ) : (step : ServingStep) → Decidable (system.Steady step)
  | .get backend request now =>
      inferInstanceAs (Decidable (∀ read ∈ initialRead backend request system.manager now,
        _ → ∀ earlier ∈ system.reads, _ → _))
  | .refresh handle _ metadata _ | .refreshKeys handle _ _ metadata _ =>
      inferInstanceAs (Decidable (system.CommitsLater handle metadata.commitLSN _))
  | .proceed .. | .delete .. | .invalidateByRelation .. | .invalidateAll _ =>
      inferInstanceAs (Decidable True)

end Serving

end

/-! The text of an ETag. -/

section Text

variable {handle other offset current currentOther : String} {now later : Time}

theorem etag_toList (handle offset current : String) (now : Time) :
    (etag handle offset current false now).toList =
      (handle.toList ++ ':' :: offset.toList) ++ ':' :: current.toList := by
  simp [etag]

theorem etag_toList_unchanged (handle offset current : String) (now : Time) :
    (etag handle offset current true now).toList =
      (handle.toList ++ ':' :: offset.toList ++ ':' :: current.toList) ++
        ':' :: Nat.toDigits 10 now := by
  simp [etag, toString, Nat.repr]

theorem etag_inj (plain : ':' ∉ current.toList) (plainOther : ':' ∉ currentOther.toList)
    (same : etag handle offset current false now =
      etag other offset currentOther false later) :
    handle = other ∧ current = currentOther := by
  have lists := congrArg String.toList same
  rw [etag_toList, etag_toList] at lists
  obtain ⟨front, back⟩ := append_separator_inj plain plainOther lists
  exact ⟨String.toList_inj.mp (List.append_cancel_right front), String.toList_inj.mp back⟩

theorem etag_ne_unchanged (plain : ':' ∉ current.toList) (offsetText : '_' ∈ current.toList) :
    etag handle offset current false now ≠ etag other offset currentOther true later := by
  intro same
  have digits : ∀ c ∈ Nat.toDigits 10 later, c.isDigit = true :=
    List.all_eq_true.mp (toDigits_all_isDigit later)
  have lists := congrArg String.toList same
  rw [etag_toList, etag_toList_unchanged] at lists
  obtain ⟨-, back⟩ := append_separator_inj plain
    (fun member => absurd (digits _ member) (by decide)) lists
  rw [back] at offsetText
  exact absurd (digits _ offsetText) (by decide)

theorem formatLSNOffset_text (lsn : UInt64) (position : Nat) :
    ':' ∉ (formatLSNOffset lsn position).toList ∧ '_' ∈ (formatLSNOffset lsn position).toList := by
  have digits : ∀ n, ':' ∉ Nat.toDigits 10 n := by
    intro n member
    exact absurd (List.all_eq_true.mp (toDigits_all_isDigit n) _ member) (by decide)
  rw [formatLSNOffset_toList]
  simp [digits]

theorem cut_formatLSNOffset (lsn : UInt64) (position : Nat) :
    cut '_' (formatLSNOffset lsn position).toList =
      some (Nat.toDigits 10 lsn.toNat, Nat.toDigits 10 position) := by
  rw [formatLSNOffset_toList]
  apply cut_append
  intro member
  exact absurd (List.all_eq_true.mp (toDigits_all_isDigit _) _ member) (by decide)

theorem formatLSNOffset_lsn {lsn earlier : UInt64} {position before : Nat}
    (same : formatLSNOffset lsn position = formatLSNOffset earlier before) :
    lsn = earlier := by
  have parts := congrArg (fun text : String => cut '_' text.toList) same
  simp only [cut_formatLSNOffset, Option.some.injEq, Prod.mk.injEq] at parts
  have numbers := congrArg parseUint64 parts.1
  rw [parseUint64_toDigits, parseUint64_toDigits] at numbers
  exact Option.some.inj numbers

theorem formatLSNOffset_ne {lsn : UInt64} {position : Nat} (committed : 0 < lsn)
    {offset : String} (first : offset = initialOffset ∨ offset = nowOffset) :
    formatLSNOffset lsn position ≠ offset := by
  intro same
  have parts := congrArg (fun text : String => cut '_' text.toList) same
  rw [cut_formatLSNOffset] at parts
  rcases first with rfl | rfl
  · exact toDigits_ne_zero committed (Prod.mk.inj (Option.some.inj parts)).1
  · exact toDigits_ne_zero committed (Prod.mk.inj (Option.some.inj parts)).1

end Text

/-! What a response that has been sent says of the shape it came from. -/

section Explanations

variable {backend : Backend} {request : ShapeRequest}
  {manager next : Manager σ} {now : Time} {commits commitsAfter : List (String × UInt64)}
  {reads readsAfter : List (String × Schema × List Row)} {sent : Sent}

/-- Every log is empty, or ends at a commit that is known of its shape. -/
def Stamped (commits : List (String × UInt64)) (manager : Manager σ) : Prop :=
  ∀ (handle : String) (state : State), manager.byHandle[handle]? = some state →
    state.EmptyLog ∨ ∃ (lsn : UInt64) (position : Nat), 0 < lsn ∧ (handle, lsn) ∈ commits ∧
      state.currentOffset = formatLSNOffset lsn position

/-- Every log is as it was, or empty, or ends at a new commit. -/
def Advances (commits commitsAfter : List (String × UInt64)) (manager next : Manager σ) :
    Prop :=
  ∀ (handle : String) (state : State), next.byHandle[handle]? = some state →
    (∃ old, manager.byHandle[handle]? = some old ∧ old.SameLog state) ∨ state.EmptyLog ∨
      ∃ (lsn : UInt64) (position : Nat), 0 < lsn ∧ (handle, lsn) ∈ commitsAfter ∧
        (∀ commit ∈ commits, commit.1 = handle → commit.2 < lsn) ∧
          state.currentOffset = formatLSNOffset lsn position

theorem Advances.of_keepsLogs (kept : manager.KeepsLogs next) :
    Advances commits commits manager next := by
  intro handle state found
  rcases kept.logs handle state found with same | empty
  · exact .inl same
  · exact .inr (.inl empty)

theorem Stamped.advances (stamped : Stamped commits manager)
    (more : commits ⊆ commitsAfter) (advances : Advances commits commitsAfter manager next) :
    Stamped commitsAfter next := by
  intro handle state found
  rcases advances handle state found with ⟨old, held, same⟩ | empty |
    ⟨lsn, position, committed, known, -, current⟩
  · rcases stamped handle old held with empty | ⟨lsn, position, committed, known, current⟩
    · refine .inl ⟨same.changes.trans empty.changes, ?_⟩
      rw [same.currentOffset]
      exact empty.currentOffset
    · exact .inr ⟨lsn, position, committed, more known, same.currentOffset.trans current⟩
  · exact .inl empty
  · exact .inr ⟨lsn, position, committed, known, current⟩

theorem read_changes {handle offset : String} {state : State} {messages : List Message}
    (read : manager.read handle offset = .ok (state, messages)) (some : messages ≠ []) :
    messages = Manager.changesAfter state.changes offset := by
  unfold Manager.read Manager.readLocked at read
  cases found : manager.byHandle[handle]? with
  | none =>
      rw [found] at read
      cases read
  | some held =>
      rw [found] at read
      dsimp only at read
      split at read
      · cases read
      · split at read
        · cases read
        · split at read
          · cases read
          · obtain ⟨-, empty⟩ := Prod.mk.inj (Except.ok.inj read)
            exact absurd empty.symm some
          · obtain ⟨rfl, rfl⟩ := Prod.mk.inj (Except.ok.inj read)
            rfl

theorem Stamped.of_read (stamped : Stamped commits manager) {handle offset : String}
    {state : State} {messages : List Message}
    (read : manager.read handle offset = .ok (state, messages)) (some : messages ≠ []) :
    ∃ (lsn : UInt64) (position : Nat), 0 < lsn ∧ (handle, lsn) ∈ commits ∧
      state.currentOffset = formatLSNOffset lsn position := by
  apply (stamped handle state (Manager.read_ok read).1).resolve_left
  intro empty
  have sent := read_changes read some
  rw [empty.changes] at sent
  exact some sent

variable [Digest]

/-- The messages of an initial request that has read these rows. -/
def initialMessages (request : ShapeRequest) (handle : String) (read : Schema × List Row) :
    List Message :=
  let definition := snapshotDefinitionFromRequest request
  decorateDependentSnapshotMessages handle definition
    (buildSnapshotMessages definition ⟨read.1, read.2, none⟩)

/-- The rows or the log that a response came from.  A log that ends at the same commit
still has the messages of the response. -/
inductive Explained (manager : Manager σ) (reads : List (String × Schema × List Row))
    (commits : List (String × UInt64)) : Sent → Prop
  | snapshot {request : ShapeRequest} {handle : String} {read : Schema × List Row}
      {now : Time} (initial : request.offset = "-1") (made : (handle, read) ∈ reads) :
      Explained manager reads commits
        ⟨request, etag handle "-1" initialOffset false now,
          initialMessages request handle read⟩
  | nothing {request : ShapeRequest} {handle current : String} {now : Time}
      (continued : request.offset ≠ "-1") :
      Explained manager reads commits
        ⟨request, etag handle request.offset current true now, []⟩
  | log {request : ShapeRequest} {handle : String} {lsn : UInt64} {position : Nat}
      {messages : List Message} {now : Time} (continued : request.offset ≠ "-1")
      (committed : 0 < lsn) (known : (handle, lsn) ∈ commits)
      (logged : ∀ state, manager.byHandle[handle]? = some state →
        state.currentOffset = formatLSNOffset lsn position →
          Manager.changesAfter state.changes request.offset = messages) :
      Explained manager reads commits
        ⟨request, etag handle request.offset (formatLSNOffset lsn position) false now,
          messages⟩

theorem Explained.advances (explained : Explained manager reads commits sent)
    (moreReads : reads ⊆ readsAfter) (more : commits ⊆ commitsAfter)
    (advances : Advances commits commitsAfter manager next) :
    Explained next readsAfter commitsAfter sent := by
  cases explained with
  | snapshot initial made => exact .snapshot initial (moreReads made)
  | nothing continued => exact .nothing continued
  | @log _ handle lsn position _ _ continued committed known logged =>
      refine .log continued committed (more known) ?_
      intro state found current
      rcases advances handle state found with ⟨old, held, same⟩ | empty |
        ⟨newer, index, -, -, above, stands⟩
      · rw [same.changes]
        exact logged old held (same.currentOffset.symm.trans current)
      · exact absurd current.symm (formatLSNOffset_ne committed empty.currentOffset)
      · have equal := formatLSNOffset_lsn (current.symm.trans stands)
        have below := above _ known rfl
        rw [equal] at below
        exact absurd below (UInt64.lt_irrefl newer)

theorem upsertState_initialMessages (linked : manager.Linked) (snapshot : SnapshotResult) :
    (manager.upsertState (snapshotDefinitionFromRequest request) snapshot initialOffset
        now).snapshot =
      initialMessages request
        (manager.upsertTarget (snapshotDefinitionFromRequest request) now)
        (snapshot.schema, snapshot.rows) := by
  rw [← linked.upsertState_handle (snapshotDefinitionFromRequest request) snapshot initialOffset
    now]
  obtain ⟨base, same⟩ := manager.upsertState_eq (snapshotDefinitionFromRequest request) snapshot
    initialOffset now
  rw [same]
  rfl

variable [Store σ]

theorem initialRead_eq {snapshot : SnapshotResult} (whole : request.subset = none)
    (initial : request.offset = "-1")
    (read : backend.snapshot ⟨snapshotDefinitionFromRequest request, .data, true⟩ =
      .ok snapshot)
    (accepted : manager.Accepts (manager.upsertState
      (snapshotDefinitionFromRequest request) snapshot initialOffset now)) :
    initialRead backend request manager now =
      [(manager.upsertTarget (snapshotDefinitionFromRequest request) now, snapshot.schema,
        snapshot.rows)] := by
  simp [initialRead, whole, initial, read, accepted]

theorem Source.explained {tag : String} {messages : List Message}
    (source : Source backend request manager next now tag messages)
    (linked : manager.Linked) (stamped : Stamped commits manager)
    (read : initialRead backend request manager now ⊆ reads) :
    Explained next reads commits ⟨request.plain, tag, messages⟩ := by
  cases source with
  | snapshot whole initial described accepted =>
      rw [linked.upsertState_handle, upsertState_initialMessages linked]
      refine .snapshot initial (read ?_)
      rw [initialRead_eq whole initial described accepted]
      exact List.mem_singleton_self _
  | nothing continued => exact .nothing continued
  | @log state _ continued kept found some =>
      have held := (Manager.read_ok found).1
      obtain ⟨lsn, position, committed, known, current⟩ := stamped.of_read found some
      rw [linked.named _ _ held, current]
      refine .log continued committed known ?_
      intro other present _
      rw [kept, held] at present
      rw [← Option.some.inj present]
      exact (read_changes found some).symm

theorem Explained.messages_eq {tag : String} {messages : List Message}
    (explained : Explained manager reads commits sent)
    (source : Source backend request manager next now tag messages)
    (linked : manager.Linked) (stamped : Stamped commits manager)
    (asked : sent.request = request.plain) (same : sent.etag = tag)
    (reread : ∀ read ∈ initialRead backend request manager now,
      tag = etag read.1 "-1" initialOffset false now →
        ∀ earlier ∈ reads, earlier.1 = read.1 → earlier.2 = read.2) :
    sent.messages = messages := by
  have offset : sent.request.offset = request.offset := by
    rw [asked]
    rfl
  cases explained with
  | snapshot first made =>
      cases source with
      | snapshot whole initial described accepted =>
          rw [linked.upsertState_handle] at same reread
          obtain ⟨rfl, -⟩ := etag_inj (by decide) (by decide) same
          rw [initialRead_eq whole initial described accepted] at reread
          have reads := reread _ (List.mem_singleton_self _) rfl _ made rfl
          dsimp only at reads asked ⊢
          rw [upsertState_initialMessages linked, reads, asked]
          rfl
      | nothing continued => exact absurd (offset.symm.trans first) continued
      | log continued kept found some => exact absurd (offset.symm.trans first) continued
  | nothing continued =>
      cases source with
      | snapshot whole initial described accepted =>
          exact absurd (offset.trans initial) continued
      | nothing _ => rfl
      | log _ kept found some =>
          obtain ⟨lsn, position, -, -, current⟩ := stamped.of_read found some
          obtain ⟨plain, text⟩ := formatLSNOffset_text lsn position
          dsimp only at same offset
          rw [offset, current] at same
          exact absurd same.symm (etag_ne_unchanged plain text)
  | @log _ handle lsn position _ _ continued committed known logged =>
      obtain ⟨plain, text⟩ := formatLSNOffset_text lsn position
      cases source with
      | snapshot whole initial described accepted =>
          exact absurd (offset.trans initial) continued
      | nothing _ =>
          dsimp only at same offset
          rw [offset] at same
          exact absurd same (etag_ne_unchanged plain text)
      | @log state _ _ kept found some =>
          have held := (Manager.read_ok found).1
          obtain ⟨other, stands, -, -, current⟩ := stamped.of_read found some
          dsimp only at same offset
          rw [offset, linked.named _ _ held, current] at same
          obtain ⟨rfl, ends⟩ := etag_inj plain (formatLSNOffset_text other stands).1 same
          rw [← logged state held (current.trans ends.symm), offset]
          exact (read_changes found some).symm

end Explanations

/-! Refreshes. -/

section Refreshes

variable {state next base : State} {metadata : ChangeMetadata}

/-- A refresh leaves the log alone, or appends to it and ends at its commit. -/
def LogsAt (lsn : UInt64) (state next : State) : Prop :=
  state.SameLog next ∨ (next.changes ≠ state.changes ∧
    (0 < lsn → ∃ position : Nat, next.currentOffset = formatLSNOffset lsn position))

theorem logMessages_logsAt (changes : base.changes = state.changes)
    (current : base.currentOffset = state.currentOffset) (messages : List Message)
    (metadata : ChangeMetadata) :
    LogsAt metadata.commitLSN state (base.logMessages messages metadata).1 := by
  cases messages with
  | nil => exact .inl ⟨changes, current⟩
  | cons message rest =>
      refine .inr ⟨?_, fun committed => ?_⟩
      · intro same
        have length := applyChangeOffsets_length base.currentOffset (message :: rest) metadata
        have appended : (base.logMessages (message :: rest) metadata).1.changes =
            state.changes ++ (applyChangeOffsets base.currentOffset (message :: rest)
              metadata).1 := congrArg (· ++ _) changes
        rw [same, List.self_eq_append_right] at appended
        rw [appended] at length
        cases length
      · have logged := (logMessages_logged committed changes current
          (message :: rest)).currentOffset
        refine ⟨rest.length, logged.trans ?_⟩
        simp [commitOffsets, List.range_succ]

theorem refreshKeys_logsAt {snapshot : SnapshotResult} {keyRows : List Row} {now : Time}
    {refreshed : State × List Message}
    (computed : state.refreshKeys snapshot keyRows metadata now = some refreshed) :
    LogsAt metadata.commitLSN state refreshed.1 := by
  unfold State.refreshKeys at computed
  dsimp only at computed
  split at computed
  · cases computed
  · obtain rfl := Option.some.inj computed
    exact logMessages_logsAt (by rfl) (by rfl) _ metadata

inductive Refreshes (lsn : UInt64) (handle : String) (manager next : Manager σ) : Prop
  | unchanged (shapes : next.byHandle = manager.byHandle)
  | installed {old new : State} (found : manager.byHandle[handle]? = some old)
      (shapes : ∀ other : String, next.byHandle[other]? =
        if handle = other then some new else manager.byHandle[other]?)
      (logs : LogsAt lsn old new)

variable [Store σ]

theorem commitRefresh_refreshes {manager : Manager σ} {handle : String} {lsn : UInt64}
    (found : manager.byHandle[handle]? = some state) {refreshed : State × List Message}
    (logs : LogsAt lsn state refreshed.1) :
    Refreshes lsn handle manager (manager.commitRefresh handle refreshed).2 := by
  rcases manager.commitRefresh_outcome handle refreshed with ⟨-, after⟩ | ⟨error, -, after⟩
  · exact .installed found after logs
  · exact .unchanged after

theorem refreshKeysWithMetadata_refreshes (manager : Manager σ) (handle : String)
    (snapshot : SnapshotResult) (keyRows : List Row) (metadata : ChangeMetadata)
    (now : Time) :
    Refreshes metadata.commitLSN handle manager
      (manager.refreshKeysWithMetadata handle snapshot keyRows metadata now).2 := by
  cases found : manager.byHandle[handle]? with
  | none =>
      apply Refreshes.unchanged
      simp [Manager.refreshKeysWithMetadata, Manager.requireActive, found]
  | some state =>
      rcases Manager.refreshKeysWithMetadata_outcome found snapshot keyRows metadata now with
        ⟨-, outcome⟩ | ⟨-, -, outcome⟩ | ⟨refreshed, -, computed, outcome⟩
      · rw [outcome]
        exact .unchanged rfl
      · rw [outcome]
        exact .unchanged rfl
      · rw [outcome]
        exact commitRefresh_refreshes found (refreshKeys_logsAt computed)

variable [Digest]

theorem refresh_logsAt (state : State) (snapshot : SnapshotResult)
    (metadata : ChangeMetadata) (now : Time) :
    LogsAt metadata.commitLSN state (state.refresh snapshot metadata now).1 :=
  logMessages_logsAt (by rfl) (by rfl) _ metadata

theorem refreshWithMetadata_refreshes (manager : Manager σ) (handle : String)
    (snapshot : SnapshotResult) (metadata : ChangeMetadata) (now : Time) :
    Refreshes metadata.commitLSN handle manager
      (manager.refreshWithMetadata handle snapshot metadata now).2 := by
  cases found : manager.byHandle[handle]? with
  | none =>
      apply Refreshes.unchanged
      simp [Manager.refreshWithMetadata, Manager.requireActive, found]
  | some state =>
      rcases Manager.refreshWithMetadata_outcome found snapshot metadata now with
        ⟨-, outcome⟩ | ⟨-, outcome⟩
      · rw [outcome]
        exact .unchanged rfl
      · rw [outcome]
        exact commitRefresh_refreshes found (refresh_logsAt state snapshot metadata now)

end Refreshes

namespace Serving

variable {system : Serving σ}

theorem Refreshes.advances {handle : String} {metadata : ChangeMetadata} {manager : Manager σ}
    (refreshes : Refreshes metadata.commitLSN handle system.manager manager)
    (later : system.CommitsLater handle metadata.commitLSN manager) :
    Advances system.commits (system.refreshed handle metadata manager).commits
      system.manager manager := by
  intro other state found
  cases refreshes with
  | unchanged shapes =>
      rw [shapes] at found
      exact .inl ⟨state, found, rfl, rfl⟩
  | @installed old new held shapes logs =>
      have before : system.manager.stateAt handle = old := Manager.stateAt_of_records held
      have after : manager.stateAt handle = new :=
        Manager.stateAt_of_records ((shapes handle).trans (if_pos rfl))
      rw [shapes] at found
      split at found
      · next same =>
          subst same
          obtain rfl := Option.some.inj found
          rcases logs with unchanged | ⟨appended, stands⟩
          · exact .inl ⟨old, held, unchanged⟩
          · rw [CommitsLater, before, after] at later
            obtain ⟨committed, above⟩ := later appended
            obtain ⟨position, current⟩ := stands committed
            refine .inr (.inr ⟨_, position, committed, ?_, above, current⟩)
            simp [refreshed, before, after, appended]
      · exact .inl ⟨state, found, rfl, rfl⟩

variable [Digest]

/-- The logs end at known commits, and every response that has been sent is explained. -/
structure Consistent (system : Serving σ) : Prop where
  linked : system.manager.Linked
  stamped : Stamped system.commits system.manager
  waiting : ∀ pending ∈ system.waiting, pending.1.offset ≠ "-1"
  sent : ∀ sent ∈ system.sent, Explained system.manager system.reads system.commits sent

theorem Consistent.keepsLogs (consistent : system.Consistent) {manager : Manager σ}
    (kept : system.manager.KeepsLogs manager) :
    Consistent { system with manager := manager } where
  linked := kept.linked consistent.linked
  stamped := consistent.stamped.advances (List.Subset.refl _) (.of_keepsLogs kept)
  waiting := consistent.waiting
  sent sent member := (consistent.sent sent member).advances (List.Subset.refl _)
    (List.Subset.refl _) (.of_keepsLogs kept)

theorem Consistent.refreshed (consistent : system.Consistent) {handle : String}
    {metadata : ChangeMetadata} {manager : Manager σ} (linked : manager.Linked)
    (refreshes : Refreshes metadata.commitLSN handle system.manager manager)
    (later : system.CommitsLater handle metadata.commitLSN manager) :
    (system.refreshed handle metadata manager).Consistent := by
  have more : system.commits ⊆ (system.refreshed handle metadata manager).commits := by
    unfold Serving.refreshed
    dsimp only
    split
    · exact List.Subset.refl _
    · exact List.subset_append_left _ _
  have advances := Refreshes.advances refreshes later
  refine ⟨linked, consistent.stamped.advances more advances, consistent.waiting, ?_⟩
  intro sent member
  exact (consistent.sent sent member).advances (List.Subset.refl _) more advances

variable [Store σ]

variable {backend : Backend} {request : ShapeRequest} {now : Time} {manager : Manager σ}

theorem Consistent.served (consistent : system.Consistent) {progress unvalidated : Progress}
    {reads : List (String × Schema × List Row)}
    {waiting : List (ShapeRequest × Phase)} (kept : system.manager.KeepsLogs manager)
    (validated : Validated request (Source backend request system.manager manager now)
      progress unvalidated)
    (read : initialRead backend request system.manager now ⊆ reads)
    (more : system.reads ⊆ reads) (waits : ∀ pending ∈ waiting, pending.1.offset ≠ "-1") :
    Consistent { system with
      manager := manager
      reads := reads
      waiting := waiting
      sent := system.recorded request progress } where
  linked := kept.linked consistent.linked
  stamped := consistent.stamped.advances (List.Subset.refl _) (.of_keepsLogs kept)
  waiting := waits
  sent sent member := by
    have old : ∀ sent ∈ system.sent, Explained manager reads system.commits sent := by
      intro sent member
      exact (consistent.sent sent member).advances more (List.Subset.refl _)
        (.of_keepsLogs kept)
    dsimp only [recorded] at member
    cases validated with
    | silent sends _ =>
        rw [sends] at member
        exact old sent member
    | notModified sends _ _ _ _ =>
        rw [sends] at member
        exact old sent member
    | sent sends _ source =>
        rw [sends] at member
        rcases List.mem_append.mp member with earlier | new
        · exact old sent earlier
        · rw [List.mem_singleton.mp new]
          exact source.explained consistent.linked consistent.stamped read

theorem initialRead_of_continued (continued : request.offset ≠ "-1") :
    initialRead backend request manager now = [] := by
  simp [initialRead, continued]

theorem handleShape_phase {phase : Phase}
    (pending : (handleShape backend request manager now).1.phase? = some phase) :
    request.offset ≠ "-1" := by
  intro initial
  unfold handleShape at pending
  dsimp only at pending
  split at pending
  · cases pending
  · cases pending

theorem Consistent.step (consistent : system.Consistent) (step : ServingStep)
    (steady : system.Steady step) : (system.step step).Consistent := by
  cases step with
  | get backend request now =>
      refine consistent.served (handleShape_keepsLogs backend request system.manager now)
        handleShape_validated (List.subset_append_right _ _) (List.subset_append_left _ _) ?_
      intro pending member
      rcases List.mem_append.mp member with old | new
      · exact consistent.waiting pending old
      · obtain ⟨phase, pended, rfl⟩ := Option.map_eq_some_iff.mp (Option.mem_toList.mp new)
        exact handleShape_phase pended
  | proceed id backend now fresh wake =>
      rw [Serving.step]
      cases known : system.waiting[id]? with
      | none => exact consistent
      | some pending =>
          obtain ⟨request, phase⟩ := pending
          have continued := consistent.waiting _ (List.mem_of_getElem? known)
          refine consistent.served
            (stepContinuation_keepsLogs backend request _ system.manager now fresh wake phase)
            (stepContinuation_validated _ fresh wake phase continued) ?_
            (List.Subset.refl _) ?_
          · rw [initialRead_of_continued continued]
            exact List.nil_subset _
          · intro other member
            split at member
            · rcases List.mem_or_eq_of_mem_set member with old | rfl
              · exact consistent.waiting other old
              · exact continued
            · exact consistent.waiting other (List.mem_of_mem_eraseIdx member)
  | delete allowShapeDeletion request now =>
      exact consistent.keepsLogs (deleteShape_keepsLogs request _ system.manager now _)
  | refresh handle snapshot metadata now =>
      exact consistent.refreshed
        (consistent.linked.perform ⟨.refreshWithMetadata handle snapshot metadata, now⟩)
        (refreshWithMetadata_refreshes system.manager handle snapshot metadata now) steady
  | refreshKeys handle snapshot keyRows metadata now =>
      exact consistent.refreshed
        (consistent.linked.perform
          ⟨.refreshKeysWithMetadata handle snapshot keyRows metadata, now⟩)
        (refreshKeysWithMetadata_refreshes system.manager handle snapshot keyRows metadata now)
        steady
  | invalidateByRelation relation now =>
      exact consistent.keepsLogs (.invalidateByRelation system.manager relation now)
  | invalidateAll now =>
      exact consistent.keepsLogs
        (.buries (Manager.invalidateAllFrom_buries now _ system.manager []))

theorem Consistent.sound_of_validated (consistent : system.Consistent)
    {progress unvalidated : Progress}
    (validated : Validated request (Source backend request system.manager manager now)
      progress unvalidated)
    (reread : ∀ read ∈ initialRead backend request system.manager now,
      request.ifNoneMatch = "\"" ++ etag read.1 "-1" initialOffset false now ++ "\"" →
        ∀ earlier ∈ system.reads, earlier.1 = read.1 → earlier.2 = read.2) :
    ∀ tag ∈ progress.notModified?, ∀ earlier ∈ system.sent,
      earlier.request = request.plain → earlier.etag = tag →
        unvalidated.sent? = some (tag, earlier.messages) := by
  intro tag answered earlier member asked same
  cases validated with
  | silent _ modified =>
      rw [modified] at answered
      cases answered
  | sent _ modified _ =>
      rw [modified] at answered
      cases answered
  | @notModified own messages _ modified validator sends source =>
      rw [modified] at answered
      obtain rfl := Option.some.inj answered
      have equal := (consistent.sent earlier member).messages_eq source consistent.linked
        consistent.stamped asked same (fun read made tagged => reread read made (by
          rw [validator, tagged]))
      rw [equal]
      exact sends

theorem Consistent.sound (consistent : system.Consistent) (step : ServingStep)
    (steady : system.Steady step) : system.Sound step := by
  intro exchange held
  cases step with
  | get backend request now =>
      obtain rfl := Option.some.inj held
      exact consistent.sound_of_validated handleShape_validated steady
  | proceed id backend now fresh wake =>
      obtain ⟨pending, known, rfl⟩ := Option.map_eq_some_iff.mp held
      have continued := consistent.waiting _ (List.mem_of_getElem? known)
      apply consistent.sound_of_validated
        (stepContinuation_validated _ fresh wake pending.2 continued)
      rw [initialRead_of_continued continued]
      intro read made
      cases made
  | delete allowShapeDeletion request now => cases held
  | refresh handle snapshot metadata now => cases held
  | refreshKeys handle snapshot keyRows metadata now => cases held
  | invalidateByRelation relation now => cases held
  | invalidateAll now => cases held

end Serving

/-- In every run in which initial requests that ask about an ETag read what the initial
requests of their shape have read, and in which the commits of each shape grow: when a
request is told that nothing was modified, every earlier response to it with that ETag
had the messages that it would be sent now. -/
theorem etags_are_sound [Digest] [Store σ] (manager : Manager σ)
    (commits : List (String × UInt64)) (linked : manager.Linked)
    (stamped : Stamped commits manager) (steps : List ServingStep)
    (steady : Along Serving.step Serving.Steady ⟨manager, commits, [], [], []⟩ steps) :
    Along Serving.step Serving.Sound ⟨manager, commits, [], [], []⟩ steps := by
  refine Along.of_invariant Serving.Consistent ?_ ?_ steps _ ?_ steady
  · intro system step consistent met
    exact consistent.step step met
  · intro system step consistent met
    exact consistent.sound step met
  · exact ⟨linked, stamped, by simp, by simp⟩

def itemsAt (offset handle tag : String) : ShapeRequest where
  relation := ⟨"public", "items"⟩
  offset := offset
  handle := handle
  ifNoneMatch := if tag = "" then "" else "\"" ++ tag ++ "\""

def askTwice : List ServingStep :=
  [.get (itemsBackend [itemRow "1" "one"]) (itemsAt "-1" "" "") 1000,
    .get (itemsBackend [itemRow "1" "one"])
      (itemsAt "-1" "" "fa19db76c4-1:-1:0_0") 2000,
    .refresh "fa19db76c4-1" ⟨itemsSchema, [itemRow "1" "two"], none⟩
      { commitLSN := 100 } 3000,
    .get (itemsBackend [itemRow "1" "two"]) (itemsAt "0_0" "fa19db76c4-1" "") 4000,
    .get (itemsBackend [itemRow "1" "two"])
      (itemsAt "0_0" "fa19db76c4-1" "fa19db76c4-1:0_0:100_0") 5000]

def freshService : Serving MemoryStore where
  manager := { store := newMemoryStore }

theorem etags_are_sound_askTwice :
    letI := tabulatedDigest
    (askTwice.foldl Serving.step freshService).sent.map (·.etag) =
        ["fa19db76c4-1:-1:0_0", "fa19db76c4-1:0_0:100_0"] ∧
      Along Serving.step Serving.Sound freshService askTwice :=
  ⟨by decide +kernel,
    @etags_are_sound _ tabulatedDigest _ { store := newMemoryStore } [] (.empty _)
      (by simp [Stamped]) askTwice (by decide +kernel)⟩

/-- A client fetches the snapshot, the table changes, and the client asks whether its
snapshot is current. -/
def askAfterUpdate : List ServingStep :=
  [.get (itemsBackend [itemRow "1" "one"]) (itemsAt "-1" "" "") 1000,
    .get (itemsBackend [itemRow "1" "two"])
      (itemsAt "-1" "" "fa19db76c4-1:-1:0_0") 2000]

/-- The client is told that nothing was modified. -/
theorem askAfterUpdate_unsound :
    letI := tabulatedDigest
    ¬Along Serving.step Serving.Sound freshService askAfterUpdate := by
  decide +kernel

end PostgresSync.Protocol
