import PostgresSync.Protocol.Validators
import PostgresSync.Shapes.LogReads
import PostgresSync.Shapes.RelationIndex

namespace PostgresSync.Protocol

open PostgresSync.Data
open PostgresSync.Shapes
open PostgresSync.Storage

/-! The offsets that responses advertise. -/

/-- The `electric-handle` and `electric-offset` headers of a response that has both. -/
def Progress.advertised : Progress → Option (String × String)
  | .answered (.success headers _) => some (headers.handle, headers.offset)
  | .answered (.notModified headers) => some (headers.handle, headers.offset)
  | .answered (.subset handle offset _ _) => some (handle, offset)
  | .streamed (some headers) _ _ => some (headers.handle, headers.offset)
  | _ => none

/-- A request is handled from its arrival to its first wait, and from one wait to the next. -/
inductive Handling where
  | arrives
  | resumes (fresh : Nat) (wake : Manager.Wake) (phase : Phase)

def readsNothing (request : ShapeRequest) (manager : Manager σ) : Bool :=
  match manager.read request.handle request.offset with
  | .ok (_, messages) => messages.isEmpty
  | .error _ => false

def Handling.quiet (request : ShapeRequest) (manager : Manager σ) : Handling → Bool
  | .arrives => request.liveSSE && request.subset.isNone &&
      (request.offset = "now" || request.offset ≠ "-1" && readsNothing request manager)
  | .resumes .. => request.liveSSE && readsNothing request manager

def Handling.serve [Digest] [Store σ] (backend : Backend) (request : ShapeRequest)
    (manager : Manager σ) (now : Time) : Handling → Progress × Manager σ
  | .arrives => handleShape backend request manager now
  | .resumes fresh wake phase =>
      stepContinuation backend request (shapeDefinitionFromRequest request) manager now fresh
        wake phase

def toldOffset (held : State) (quiet : Bool) : String :=
  if quiet then nowOffset else held.currentOffset

/-- What is advertised is the handle of an active shape, and its current offset unless the
request is a quiet stream. -/
def Advertises (quiet : Bool) (next : Manager σ) (progress : Progress) : Prop :=
  ∀ advertised ∈ progress.advertised, ∃ held, next.active? advertised.1 = some held ∧
    advertised.2 = toldOffset held quiet

section Responses

variable {request : ShapeRequest} {manager next : Manager σ} {state : State} {now : Time}
  {quiet : Bool}

theorem Advertises.of_silent {progress : Progress} (silent : progress.advertised = none) :
    Advertises quiet next progress := by
  intro advertised member
  rw [silent] at member
  cases member

theorem Advertises.of_headers {progress : Progress} (options : SuccessHeaderOptions)
    (now : Time) (found : next.active? state.handle = some state)
    (calm : (request.liveSSE && options.noChanges) = quiet)
    (sent : progress.advertised = some ((successHeaders request state options now).handle,
      (successHeaders request state options now).offset)) :
    Advertises quiet next progress := by
  intro advertised member
  rw [sent] at member
  obtain rfl := Option.some.inj member
  refine ⟨state, found, ?_⟩
  rw [← calm]
  rfl

theorem Advertises.respond {options : SuccessHeaderOptions}
    (found : next.active? state.handle = some state)
    (calm : (request.liveSSE && options.noChanges) = quiet) (body : List BodyItem) :
    Advertises quiet next (.answered (respond request state options now body)) := by
  apply Advertises.of_headers options now found calm
  unfold Protocol.respond
  dsimp only
  split <;> rfl

theorem Advertises.openLiveSSE {messages : List Message}
    (found : next.active? state.handle = some state)
    (calm : (request.liveSSE && messages.isEmpty) = quiet) :
    Advertises quiet next (openLiveSSE request state messages now) := by
  apply Advertises.of_headers ⟨true, true, messages.isEmpty⟩ now found calm
  unfold Protocol.openLiveSSE
  dsimp only
  split
  · rfl
  · split <;> rfl

theorem snapshotErrorResponse_advertises (error : SnapshotError) :
    Advertises quiet next (.answered (snapshotErrorResponse error)) := by
  cases error <;> exact .of_silent rfl

theorem active?_of_read (linked : manager.Linked) {handle offset : String}
    {messages : List Message} (read : manager.read handle offset = .ok (state, messages)) :
    manager.active? state.handle = some state := by
  obtain ⟨found, active⟩ := Manager.read_ok read
  obtain rfl := linked.named handle state found
  exact Manager.active?_eq_some.mpr ⟨found, active⟩

end Responses

section Requests

variable [Digest] [Store σ] {backend : Backend} {request : ShapeRequest}
  {definition : Definition} {manager next : Manager σ} {now : Time} {quiet : Bool}

theorem mustRefetch_advertises :
    Advertises quiet next (.answered (mustRefetch backend request definition manager now).1) := by
  apply Advertises.of_silent
  unfold mustRefetch
  cases backend.snapshot ⟨definition, .validateOnly, false⟩ with
  | error error => cases error <;> rfl
  | ok snapshot =>
      dsimp only
      split <;> rfl

theorem answerReadError_advertises (error : ManagerError) :
    Advertises quiet next
      (.answered (answerReadError backend request definition manager now error).1) := by
  cases error with
  | shapeNotFound => exact mustRefetch_advertises
  | shapeDeleted => exact mustRefetch_advertises
  | offsetOutOfRange => exact .of_silent rfl
  | store error => exact .of_silent rfl

theorem active?_of_upserted (linked : manager.Linked) {snapshot : SnapshotResult}
    {currentOffset : String} {state : State}
    (upserted : manager.upsertSnapshotAtOffset definition snapshot currentOffset now =
      (.ok state, next)) : next.active? state.handle = some state := by
  by_cases accepted : manager.Accepts
      (manager.upsertState definition snapshot currentOffset now)
  · obtain ⟨result, after⟩ := manager.upsertSnapshotAtOffset_of_accepts _ _ _ _ accepted
    rw [upserted] at result after
    obtain rfl := Except.ok.inj result
    refine Manager.active?_eq_some.mpr ⟨(after _).trans (if_pos ?_), ?_⟩
    · exact (linked.upsertState_handle definition snapshot currentOffset now).symm
    · obtain ⟨base, same⟩ := manager.upsertState_eq definition snapshot currentOffset now
      rw [same]
      rfl
  · obtain ⟨error, failed⟩ := manager.upsertSnapshotAtOffset_of_not_accepts _ _ _ _ accepted
    rw [upserted] at failed
    cases congrArg Prod.fst failed

omit [Store σ] in
theorem active?_of_lookupByDefinition (linked : manager.Linked) {state : State}
    (looked : manager.lookupByDefinition definition = some state) :
    manager.active? state.handle = some state := by
  obtain ⟨handle, -, active⟩ := Option.bind_eq_some_iff.mp looked
  obtain rfl := linked.named handle state (Manager.active?_eq_some.mp active).1
  exact active

theorem serveInitialSnapshot_advertises (linked : manager.Linked) :
    Advertises false (serveInitialSnapshot backend request definition manager now).2
      (.answered (serveInitialSnapshot backend request definition manager now).1) := by
  unfold serveInitialSnapshot
  cases backend.snapshot ⟨definition, .data, true⟩ with
  | error error => exact snapshotErrorResponse_advertises error
  | ok snapshot =>
      dsimp only
      split
      · exact .of_silent rfl
      · next upserted =>
          exact .respond (active?_of_upserted linked upserted) (Bool.and_false _) _

theorem serveNow_advertises (linked : manager.Linked) :
    Advertises request.liveSSE (serveNow backend request definition manager now).2
      (.answered (serveNow backend request definition manager now).1) := by
  unfold serveNow
  dsimp only
  cases looked : manager.lookupByDefinition definition with
  | some state =>
      exact .respond (active?_of_lookupByDefinition linked looked) (Bool.and_true _) _
  | none =>
      dsimp only
      cases backend.snapshot ⟨definition, .data, true⟩ with
      | error error => exact snapshotErrorResponse_advertises error
      | ok snapshot =>
          dsimp only
          split
          · exact .of_silent rfl
          · next upserted =>
              exact .respond (active?_of_upserted linked upserted) (Bool.and_true _) _

theorem resolveSubsetShape_active (linked : manager.Linked) {state : State}
    (resolved : resolveSubsetShape backend request definition manager now =
      (.ok state, next)) : next.active? state.handle = some state := by
  unfold resolveSubsetShape at resolved
  split at resolved
  · cases looked : manager.lookupByHandle request.handle with
    | none =>
        rw [looked] at resolved
        cases congrArg Prod.fst resolved
    | some held =>
        rw [looked] at resolved
        dsimp only at resolved
        split at resolved
        · cases congrArg Prod.fst resolved
        · obtain ⟨same, rfl⟩ := Prod.mk.inj resolved
          obtain rfl := Except.ok.inj same
          have named := linked.named _ _ (Manager.active?_eq_some.mp looked).1
          rw [named]
          exact looked
  · cases looked : manager.lookupByDefinition definition with
    | some held =>
        rw [looked] at resolved
        obtain ⟨same, rfl⟩ := Prod.mk.inj resolved
        obtain rfl := Except.ok.inj same
        exact active?_of_lookupByDefinition linked looked
    | none =>
        rw [looked] at resolved
        dsimp only at resolved
        cases read : backend.snapshot ⟨definition, .data, false⟩ with
        | error error =>
            rw [read] at resolved
            cases congrArg Prod.fst resolved
        | ok snapshot =>
            rw [read] at resolved
            dsimp only at resolved
            split at resolved
            · cases congrArg Prod.fst resolved
            · next upserted =>
                obtain ⟨same, rfl⟩ := Prod.mk.inj resolved
                obtain rfl := Except.ok.inj same
                exact active?_of_upserted linked upserted

theorem serveSubsetSnapshot_advertises (linked : manager.Linked) (queryDefinition : Definition) :
    Advertises false
      (serveSubsetSnapshot backend request definition queryDefinition manager now).2
      (.answered
        (serveSubsetSnapshot backend request definition queryDefinition manager now).1) := by
  unfold serveSubsetSnapshot
  match resolved : resolveSubsetShape backend request definition manager now with
  | (.error error, after) =>
      cases error with
      | snapshot error => exact snapshotErrorResponse_advertises error
      | manager error =>
          cases error with
          | shapeNotFound => exact mustRefetch_advertises
          | shapeDeleted => exact mustRefetch_advertises
          | offsetOutOfRange => exact .of_silent rfl
          | store error => exact .of_silent rfl
  | (.ok state, after) =>
      have found := resolveSubsetShape_active linked resolved
      dsimp only
      cases backend.snapshot ⟨queryDefinition, .data, true⟩ with
      | error error => exact snapshotErrorResponse_advertises error
      | ok snapshot =>
          intro advertised member
          obtain rfl := Option.some.inj member
          exact ⟨state, found, rfl⟩

theorem serveContinuation_advertises (linked : manager.Linked) :
    Advertises (request.liveSSE && readsNothing request manager)
      (serveContinuation backend request definition manager now).2
      (serveContinuation backend request definition manager now).1 := by
  unfold serveContinuation readsNothing
  cases read : manager.read request.handle request.offset with
  | error error => exact answerReadError_advertises error
  | ok pair =>
      obtain ⟨state, messages⟩ := pair
      have found := active?_of_read linked read
      dsimp only
      split
      · exact mustRefetch_advertises
      · split
        · exact .openLiveSSE found rfl
        · split
          · exact .of_silent rfl
          · exact .respond found rfl _

theorem stepContinuation_advertises (linked : manager.Linked) (fresh : Nat)
    (wake : Manager.Wake) (phase : Phase) :
    Advertises (request.liveSSE && readsNothing request manager)
      (stepContinuation backend request definition manager now fresh wake phase).2
      (stepContinuation backend request definition manager now fresh wake phase).1 := by
  cases phase with
  | received => exact serveContinuation_advertises linked
  | longPoll wait =>
      have shapes :=
        (manager.waitForChange_shapes request.handle request.offset fresh wake wait).1
      dsimp only [stepContinuation]
      match waited : manager.waitForChange request.handle request.offset fresh wake wait with
      | (.pending _, after) => exact .of_silent rfl
      | (.deadlineExceeded, after) => exact .of_silent rfl
      | (.returned (.error error), after) => exact answerReadError_advertises error
      | (.returned (.ok (state, messages)), after) =>
          rw [waited] at shapes
          have read := waitForChange_returned (congrArg Prod.fst waited)
          have found : after.active? state.handle = some state := by
            rw [Manager.active?, shapes]
            exact active?_of_read linked read
          exact .respond found (by rw [readsNothing, read]) _
  | expired =>
      dsimp only [stepContinuation]
      cases read : manager.read request.handle request.offset with
      | error error => exact .of_silent rfl
      | ok pair =>
          obtain ⟨state, messages⟩ := pair
          exact .respond (active?_of_read linked read) (by rw [readsNothing, read]) _
  | streaming currentOffset wait =>
      apply Advertises.of_silent
      dsimp only [stepContinuation]
      match waited : manager.waitForChange request.handle currentOffset fresh wake wait with
      | (.pending _, after) => rfl
      | (.deadlineExceeded, after) => rfl
      | (.returned (.error error), after) => cases error <;> rfl
      | (.returned (.ok (state, messages)), after) =>
          dsimp only [streamChange]
          split <;> rfl

theorem Handling.serve_advertises (linked : manager.Linked) (handling : Handling) :
    Advertises (handling.quiet request manager)
      (handling.serve backend request manager now).2
      (handling.serve backend request manager now).1 := by
  cases handling with
  | resumes fresh wake phase => exact stepContinuation_advertises linked fresh wake phase
  | arrives =>
      dsimp only [Handling.serve, Handling.quiet, handleShape]
      split
      · next subset =>
          have calm : request.subset.isNone = false := by
            rw [← Option.not_isSome, subset]
            rfl
          rw [calm, Bool.and_false, Bool.false_and]
          exact serveSubsetSnapshot_advertises linked _
      · next whole =>
          have alone : request.subset.isNone = true := by
            rw [← Option.not_isSome, Bool.eq_false_iff.mpr whole]
            rfl
          rw [alone, Bool.and_true]
          split
          · next initial =>
              have calm : (decide (request.offset = "now") ||
                  decide (request.offset ≠ "-1") && readsNothing request manager) = false := by
                rw [initial]
                rfl
              rw [calm, Bool.and_false]
              exact serveInitialSnapshot_advertises linked
          · split
            · next instant =>
                rw [decide_eq_true instant, Bool.true_or, Bool.and_true]
                exact serveNow_advertises linked
            · next continued later =>
                rw [decide_eq_false later, decide_eq_true continued, Bool.false_or,
                  Bool.true_and]
                exact serveContinuation_advertises linked

end Requests

/-! What may happen to a shape after a response. -/

inductive Afterward (σ : Type) where
  | refresh (snapshot : SnapshotResult) (metadata : ChangeMetadata) (now : Time)
  | refreshKeys (snapshot : SnapshotResult) (keyRows : List Row) (metadata : ChangeMetadata)
      (now : Time)
  /-- Anything else: other requests, work on other shapes, a restart. -/
  | elsewhere (next : Manager σ)

section Afterwards

variable [Digest] [Store σ] {manager : Manager σ} {handle : String}

def afterward (handle : String) (manager : Manager σ) : Afterward σ → Manager σ
  | .refresh snapshot metadata now =>
      (manager.refreshWithMetadata handle snapshot metadata now).2
  | .refreshKeys snapshot keyRows metadata now =>
      (manager.refreshKeysWithMetadata handle snapshot keyRows metadata now).2
  | .elsewhere next => next

/-- The refresh has a commit after that of the shape's current offset, and leaves a log that a
slice can hold. -/
def RefreshesLater (metadata : ChangeMetadata) (state : State) (next : Manager σ)
    (handle : String) : Prop :=
  offsetCommit state.currentOffset < metadata.commitLSN ∧
    ∀ refreshed ∈ next.byHandle[handle]?, refreshed.changes.length < 2 ^ 63

/-- The shape is neither snapshotted again nor deleted, and is refreshed at later commits
only. -/
def GoesOn (handle : String) (manager : Manager σ) (happening : Afterward σ) : Prop :=
  ∀ state ∈ manager.active? handle,
    match happening with
    | .refresh _ metadata _ | .refreshKeys _ _ metadata _ =>
        RefreshesLater metadata state (afterward handle manager happening) handle
    | .elsewhere next => ∃ kept ∈ next.active? handle, state.SameLog kept

instance (handle : String) (manager : Manager σ) :
    (happening : Afterward σ) → Decidable (GoesOn handle manager happening)
  | .refresh .. | .refreshKeys .. =>
      inferInstanceAs (Decidable (∀ state ∈ manager.active? handle, _ ∧ _))
  | .elsewhere next =>
      inferInstanceAs (Decidable (∀ state ∈ manager.active? handle,
        ∃ kept ∈ next.active? handle, state.SameLog kept))

theorem GoesOn.commits {happening : Afterward σ} (goesOn : GoesOn handle manager happening)
    {state : State} (found : manager.active? handle = some state) :
    ∃ next appended, (afterward handle manager happening).active? handle = some next ∧
      state.Commits next appended := by
  obtain ⟨stored, active⟩ := Manager.active?_eq_some.mp found
  have goes := goesOn state found
  have installed : ∀ refreshed : State × List Message,
      (∀ held ∈ (manager.commitRefresh handle refreshed).2.byHandle[handle]?,
        held.changes.length < 2 ^ 63) →
      (refreshed.1.changes.length < 2 ^ 63 → ∃ appended, state.Commits refreshed.1 appended) →
        ∃ next appended, (manager.commitRefresh handle refreshed).2.active? handle = some next ∧
          state.Commits next appended := by
    intro refreshed bound commits
    rcases manager.commitRefresh_outcome handle refreshed with ⟨-, after⟩ | ⟨error, -, after⟩
    · have present := (after handle).trans (if_pos rfl)
      obtain ⟨appended, extended⟩ := commits (bound refreshed.1 present)
      exact ⟨refreshed.1, appended,
        Manager.active?_eq_some.mpr ⟨present, extended.deleted.trans active⟩, extended⟩
    · refine ⟨state, [], ?_, .of_sameLog ⟨rfl, rfl⟩ rfl⟩
      rw [Manager.active?, after]
      exact found
  cases happening with
  | elsewhere next =>
      obtain ⟨kept, present, same⟩ := goes
      have alive := (Manager.active?_eq_some.mp present).2
      exact ⟨kept, [], present, .of_sameLog same (alive.trans active.symm)⟩
  | refresh snapshot metadata now =>
      obtain ⟨later, bound⟩ := goes
      rcases Manager.refreshWithMetadata_outcome stored snapshot metadata now with
        ⟨deleted, -⟩ | ⟨-, outcome⟩
      · cases active.symm.trans deleted
      · dsimp only [afterward] at bound ⊢
        rw [outcome] at bound ⊢
        exact installed _ bound (refresh_commits later)
  | refreshKeys snapshot keyRows metadata now =>
      obtain ⟨later, bound⟩ := goes
      dsimp only [afterward] at bound ⊢
      rcases Manager.refreshKeysWithMetadata_outcome stored snapshot keyRows metadata now with
        ⟨deleted, -⟩ | ⟨-, -, outcome⟩ | ⟨refreshed, -, computed, outcome⟩
      · cases active.symm.trans deleted
      · rw [outcome]
        exact ⟨state, [], found, .of_sameLog ⟨rfl, rfl⟩ rfl⟩
      · rw [outcome] at bound ⊢
        exact installed _ bound (refreshKeys_commits later computed)

theorem commits_along {held : State} (found : manager.active? handle = some held)
    {happenings : List (Afterward σ)}
    (goesOn : Along (afterward handle) (GoesOn handle) manager happenings) :
    ∃ later appended, (happenings.foldl (afterward handle) manager).active? handle = some later ∧
      held.Commits later appended := by
  apply @Along.invariant _ _ _ _ (fun manager => ∃ later appended,
    manager.active? handle = some later ∧ held.Commits later appended) ?_ happenings manager
    ⟨held, [], found, .of_sameLog ⟨rfl, rfl⟩ rfl⟩ goesOn
  rintro manager happening ⟨later, appended, present, commits⟩ goes
  obtain ⟨next, more, after, extended⟩ := goes.commits present
  exact ⟨next, appended ++ more, after, commits.trans extended⟩

/-- Whatever a response advertises, a later read from there returns exactly what has been
logged since exactly when the offset that the client is told is a resumable one. -/
theorem advertised_resumable_iff {manager : Manager σ} (arises : Arises manager)
    (handling : Handling) (backend : Backend) (request : ShapeRequest) (now : Time)
    {handle offset : String}
    (advertised : (handling.serve backend request manager now).1.advertised =
      some (handle, offset)) :
    ∃ held, (handling.serve backend request manager now).2.active? handle = some held ∧
      ∀ happenings, Along (afterward handle) (GoesOn handle)
          (handling.serve backend request manager now).2 happenings →
        let reached := happenings.foldl (afterward handle)
          (handling.serve backend request manager now).2
        ∃ later appended, reached.active? handle = some later ∧
          later.changes = held.changes ++ appended ∧
          (reached.read handle offset = .ok (later, appended) ↔
            held.ResumableAt (toldOffset held (handling.quiet request manager))
              (!appended.isEmpty)) := by
  obtain ⟨held, found, told⟩ :=
    handling.serve_advertises arises.indexed.linked (handle, offset) advertised
  dsimp only at found told
  refine ⟨held, found, fun happenings goesOn => ?_⟩
  obtain ⟨later, appended, present, commits⟩ := commits_along found goesOn
  refine ⟨later, appended, present, commits.changes, ?_⟩
  rw [← told]
  apply Manager.read_of_commits present commits
  rw [told]
  unfold toldOffset
  split
  · exact commits.committed
  · exact commits.later

end Afterwards

def secondRow : Afterward MemoryStore :=
  .refresh ⟨itemsSchema, [itemRow "1" "one", itemRow "2" "two"], none⟩ { commitLSN := 100 } 3000

theorem advertised_resumable_row :
    letI := tabulatedDigest
    let served := Handling.arrives.serve (itemsBackend []) (itemsRequest "fa19db76c4-1")
      itemsManager 2000
    let reached := afterward "fa19db76c4-1" served.2 secondRow
    served.1.advertised = some ("fa19db76c4-1", "0_0") ∧
      ∃ later, reached.read "fa19db76c4-1" "0_0" = .ok (later, later.changes) ∧
        later.changes.length = 1 := by
  have arises := @Arises.called _ tabulatedDigest _ _
    (@Arises.loaded _ tabulatedDigest _ newMemoryStore [] rfl List.nodup_nil)
    ⟨.upsertSnapshot itemsDefinition ⟨itemsSchema, [itemRow "1" "one"], none⟩, 1000⟩
    (by decide +kernel)
  have advertised : (@Handling.serve _ tabulatedDigest _ (itemsBackend [])
      (itemsRequest "fa19db76c4-1") itemsManager 2000 .arrives).1.advertised =
        some ("fa19db76c4-1", "0_0") := by decide +kernel
  obtain ⟨held, found, resumes⟩ := @advertised_resumable_iff _ tabulatedDigest _ _ arises .arrives
    (itemsBackend []) (itemsRequest "fa19db76c4-1") 2000 _ _ advertised
  obtain ⟨later, appended, present, changes, exact⟩ := resumes [secondRow] (by decide +kernel)
  have blank : ∀ state ∈ (@Handling.serve _ tabulatedDigest _ (itemsBackend [])
      (itemsRequest "fa19db76c4-1") itemsManager 2000 .arrives).2.active? "fa19db76c4-1",
        state.changes = [] ∧ ∀ logged, state.ResumableAt (toldOffset state
          (Handling.arrives.quiet (itemsRequest "fa19db76c4-1") itemsManager)) logged := by
    decide +kernel
  have logged : ∀ state ∈ (@afterward _ tabulatedDigest _ "fa19db76c4-1"
      (@Handling.serve _ tabulatedDigest _ (itemsBackend []) (itemsRequest "fa19db76c4-1")
        itemsManager 2000 .arrives).2 secondRow).active? "fa19db76c4-1",
        state.changes.length = 1 := by decide +kernel
  obtain ⟨nothing, resumable⟩ := blank held found
  rw [nothing, List.nil_append] at changes
  refine ⟨advertised, later, ?_, logged later present⟩
  rw [changes]
  exact exact.mpr (resumable _)

def quietStream : ShapeRequest :=
  { itemsRequest "fa19db76c4-1" with live := true, liveSSE := true }

/-- A live stream with nothing to send is told 0_inf.  Of a shape that has logged nothing this
is out of range, and of one that has logged a commit it is before that commit. -/
theorem quietStream_not_resumable :
    letI := tabulatedDigest
    let served := Handling.arrives.serve (itemsBackend []) quietStream itemsManager 2000
    let committed := afterward "fa19db76c4-1" itemsManager secondRow
    let caughtUp := { quietStream with offset := "100_0" }
    let servedLater := Handling.arrives.serve (itemsBackend []) caughtUp committed 4000
    (served.1.advertised = some ("fa19db76c4-1", "0_inf") ∧
      served.2.read "fa19db76c4-1" "0_inf" = .error .offsetOutOfRange) ∧
    servedLater.1.advertised = some ("fa19db76c4-1", "0_inf") ∧
      ∃ held ∈ servedLater.2.active? "fa19db76c4-1", held.changes.length = 1 ∧
        servedLater.2.read "fa19db76c4-1" "0_inf" = .ok (held, held.changes) := by
  exact ⟨by decide +kernel, by decide +kernel, by decide +kernel⟩

end PostgresSync.Protocol
