import PostgresSync.Protocol.Delivery
import PostgresSync.Shapes.LogReads

namespace PostgresSync.Protocol

open PostgresSync.Data
open PostgresSync.Shapes
open PostgresSync.Storage

/-! What the requests of the service do to the logs. -/

section Managers

variable [Digest] [Store σ] (backend : Backend) (request : ShapeRequest)
  (definition : Definition) (manager : Manager σ) (now : Time)

theorem mustRefetch_keepsLogs :
    manager.KeepsLogs (mustRefetch backend request definition manager now).2 := by
  rw [mustRefetch_manager]
  cases backend.snapshot ⟨definition, .validateOnly, false⟩ with
  | error error => exact .refl manager
  | ok snapshot => exact .upsert manager definition snapshot (.inl rfl) now

theorem answerReadError_keepsLogs (error : ManagerError) :
    manager.KeepsLogs (answerReadError backend request definition manager now error).2 := by
  cases error with
  | shapeNotFound | shapeDeleted => exact mustRefetch_keepsLogs ..
  | offsetOutOfRange | store => exact .refl manager

theorem serveInitialSnapshot_keepsLogs :
    manager.KeepsLogs (serveInitialSnapshot backend request definition manager now).2 := by
  unfold serveInitialSnapshot
  cases backend.snapshot ⟨definition, .data, true⟩ with
  | error error => exact .refl manager
  | ok snapshot =>
      have kept := Manager.KeepsLogs.upsert manager definition snapshot (.inl rfl) now
      dsimp only [Manager.upsertSnapshot]
      split
      all_goals
        next written =>
          rw [written] at kept
          exact kept

theorem serveNow_keepsLogs :
    manager.KeepsLogs (serveNow backend request definition manager now).2 := by
  unfold serveNow
  cases manager.lookupByDefinition definition with
  | some state => exact .refl manager
  | none =>
      cases backend.snapshot ⟨definition, .data, true⟩ with
      | error error => exact .refl manager
      | ok snapshot =>
          have kept := Manager.KeepsLogs.upsert manager definition snapshot (.inr rfl) now
          dsimp only
          split
          all_goals
            next written =>
              rw [written] at kept
              exact kept

theorem resolveSubsetShape_keepsLogs :
    manager.KeepsLogs (resolveSubsetShape backend request definition manager now).2 := by
  unfold resolveSubsetShape
  split
  · cases manager.lookupByHandle request.handle with
    | none => exact .refl manager
    | some state =>
        dsimp only
        split <;> exact .refl manager
  · cases manager.lookupByDefinition definition with
    | some state => exact .refl manager
    | none =>
        cases backend.snapshot ⟨definition, .data, false⟩ with
        | error error => exact .refl manager
        | ok snapshot =>
            have kept := Manager.KeepsLogs.upsert manager definition snapshot (.inl rfl) now
            dsimp only [Manager.upsertSnapshot]
            split
            all_goals
              next written =>
                rw [written] at kept
                exact kept

theorem subsetResolutionResponse_keepsLogs (error : ResolutionError) :
    manager.KeepsLogs
      (subsetResolutionResponse backend request definition manager now error).2 := by
  cases error with
  | snapshot error => exact .refl manager
  | manager error =>
      cases error with
      | shapeNotFound | shapeDeleted => exact mustRefetch_keepsLogs ..
      | offsetOutOfRange | store => exact .refl manager

theorem serveSubsetSnapshot_keepsLogs (queryDefinition : Definition) :
    manager.KeepsLogs
      (serveSubsetSnapshot backend request definition queryDefinition manager now).2 := by
  have resolved := resolveSubsetShape_keepsLogs backend request definition manager now
  unfold serveSubsetSnapshot
  cases result : resolveSubsetShape backend request definition manager now with
  | mk outcome next =>
      rw [result] at resolved
      cases outcome with
      | error error =>
          exact resolved.trans
            (subsetResolutionResponse_keepsLogs backend request definition next now error)
      | ok state =>
          dsimp only
          split <;> exact resolved

theorem serveContinuation_keepsLogs :
    manager.KeepsLogs (serveContinuation backend request definition manager now).2 := by
  unfold serveContinuation
  split
  · next error _ =>
      exact answerReadError_keepsLogs backend request definition manager now error
  · split
    · exact mustRefetch_keepsLogs backend request definition manager now
    · split
      · exact .refl manager
      · split <;> exact .refl manager

theorem stepContinuation_keepsLogs (fresh : Nat) (wake : Manager.Wake) (phase : Phase) :
    manager.KeepsLogs
      (stepContinuation backend request definition manager now fresh wake phase).2 := by
  cases phase with
  | received => exact serveContinuation_keepsLogs backend request definition manager now
  | longPoll phase =>
      obtain ⟨shapes, hashes⟩ :=
        manager.waitForChange_shapes request.handle request.offset fresh wake phase
      dsimp only [stepContinuation]
      cases run : manager.waitForChange request.handle request.offset fresh wake phase with
      | mk progress next =>
          rw [run] at shapes hashes
          have waited : manager.KeepsLogs next := .of_eq shapes hashes
          cases progress with
          | pending phase => exact waited
          | deadlineExceeded => exact waited
          | returned result =>
              cases result with
              | ok pair => exact waited
              | error error =>
                  exact waited.trans
                    (answerReadError_keepsLogs backend request definition next now error)
  | expired =>
      dsimp only [stepContinuation]
      split <;> exact .refl manager
  | streaming currentOffset phase =>
      obtain ⟨shapes, hashes⟩ :=
        manager.waitForChange_shapes request.handle currentOffset fresh wake phase
      dsimp only [stepContinuation]
      cases run : manager.waitForChange request.handle currentOffset fresh wake phase with
      | mk progress next =>
          rw [run] at shapes hashes
          cases progress <;> exact .of_eq shapes hashes

theorem handleShape_keepsLogs :
    manager.KeepsLogs (handleShape backend request manager now).2 := by
  unfold handleShape
  dsimp only
  split
  · exact serveSubsetSnapshot_keepsLogs backend request _ manager now _
  · split
    · exact serveInitialSnapshot_keepsLogs backend request _ manager now
    · split
      · exact serveNow_keepsLogs backend request _ manager now
      · exact serveContinuation_keepsLogs backend request _ manager now

theorem deleteShape_keepsLogs (allowShapeDeletion : Bool) :
    manager.KeepsLogs
      (deleteShape allowShapeDeletion request definition manager now).2 := by
  unfold deleteShape
  dsimp only
  split_ifs
  · exact .refl manager
  · have kept := Manager.KeepsLogs.delete manager request.handle now
    cases deleted : manager.delete request.handle now with
    | mk answer last =>
        rw [deleted] at kept
        cases answer <;> exact kept
  · cases manager.lookupByDefinition definition with
    | none => exact .refl manager
    | some state =>
        have kept := Manager.KeepsLogs.delete manager state.handle now
        dsimp only
        cases deleted : manager.delete state.handle now with
        | mk answer last =>
            rw [deleted] at kept
            cases answer <;> exact kept

end Managers

/-! How a request is answered with a validator and without one. -/

def ShapeRequest.plain (request : ShapeRequest) : ShapeRequest :=
  { request with ifNoneMatch := "" }

/-- The ETag and the messages of a 200 response; of a stream, those that are sent with
its headers. -/
def Progress.sent? : Progress → Option (String × List Message)
  | .answered (.success headers body) => some (headers.etag, bodyMessages body)
  | .streamed (some headers) body _ => some (headers.etag, bodyMessages body)
  | _ => none

def Progress.notModified? : Progress → Option String
  | .answered (.notModified headers) => some headers.etag
  | _ => none

/-- The request is not answered with an ETag, or the same messages would be sent to it
without its validator, and they come from the source. -/
inductive Validated (request : ShapeRequest) (source : String → List Message → Prop)
    (progress unvalidated : Progress) : Prop
  | silent (sends : progress.sent? = none) (modified : progress.notModified? = none)
  | sent {tag : String} {messages : List Message}
      (sends : progress.sent? = some (tag, messages)) (modified : progress.notModified? = none)
      (source : source tag messages)
  | notModified {tag : String} {messages : List Message}
      (sends : progress.sent? = none) (modified : progress.notModified? = some tag)
      (validator : request.ifNoneMatch = "\"" ++ tag ++ "\"")
      (unvalidated : unvalidated.sent? = some (tag, messages)) (source : source tag messages)

theorem Validated.respond (request : ShapeRequest) (state : State)
    (options : SuccessHeaderOptions) (now : Time) (body : List BodyItem)
    {source : String → List Message → Prop}
    (explained : source (etag state.handle request.offset state.currentOffset
      options.noChanges now) (bodyMessages body)) :
    Validated request source (.answered (respond request state options now body))
      (.answered (respond request.plain state options now body)) := by
  have plain : Protocol.respond request.plain state options now body =
      .success (successHeaders request.plain state options now) body := by
    unfold Protocol.respond
    rw [matchesIfNoneMatch_of_plain (by rfl)]
    rfl
  rw [plain]
  unfold Protocol.respond
  cases matched : matchesIfNoneMatch request state options.noChanges now with
  | true => exact .notModified rfl rfl (of_decide_eq_true matched) rfl explained
  | false => exact .sent rfl rfl explained

theorem Validated.openLiveSSE (request : ShapeRequest) (state : State)
    (messages : List Message) (now : Time) {source : String → List Message → Prop}
    (explained : source (etag state.handle request.offset state.currentOffset
      messages.isEmpty now) messages) :
    Validated request source (openLiveSSE request state messages now)
      (openLiveSSE request.plain state messages now) := by
  have plain : request.plain.ifNoneMatch = "" := rfl
  unfold Protocol.openLiveSSE
  dsimp only
  rw [matchesIfNoneMatch_of_plain plain]
  cases messages with
  | nil =>
      simp only [List.isEmpty_nil] at explained ⊢
      cases matched : matchesIfNoneMatch request state true now with
      | true => exact .notModified rfl rfl (of_decide_eq_true matched) rfl explained
      | false => exact .sent rfl rfl explained
  | cons message rest =>
      have body := bodyMessages_messagesToBody (message :: rest) (currentGlobalLSN state)
      simp only [List.isEmpty_cons] at explained ⊢
      rw [← body] at explained
      cases matched : matchesIfNoneMatch request state false now with
      | true => exact .notModified rfl rfl (of_decide_eq_true matched) rfl explained
      | false => exact .sent rfl rfl explained

section Sources

variable [Digest] [Store σ] {backend : Backend} {request : ShapeRequest}
  {manager next : Manager σ} {now : Time} {source : String → List Message → Prop}

/-- Where the messages of a response come from: the rows that an initial request has
read, or the log of the shape. -/
inductive Source (backend : Backend) (request : ShapeRequest) (manager next : Manager σ)
    (now : Time) : String → List Message → Prop
  | snapshot {snapshot : SnapshotResult} (whole : request.subset = none)
      (initial : request.offset = "-1")
      (read : backend.snapshot ⟨snapshotDefinitionFromRequest request, .data, true⟩ =
        .ok snapshot)
      (accepted : manager.Accepts (manager.upsertState
        (snapshotDefinitionFromRequest request) snapshot initialOffset now)) :
      Source backend request manager next now
        (etag (manager.upsertState (snapshotDefinitionFromRequest request) snapshot
          initialOffset now).handle "-1" initialOffset false now)
        (manager.upsertState (snapshotDefinitionFromRequest request) snapshot
          initialOffset now).snapshot
  | nothing {handle current : String} (continued : request.offset ≠ "-1") :
      Source backend request manager next now
        (etag handle request.offset current true now) []
  | log {state : State} {messages : List Message} (continued : request.offset ≠ "-1")
      (kept : next.byHandle = manager.byHandle)
      (read : manager.read request.handle request.offset = .ok (state, messages))
      (some : messages ≠ []) :
      Source backend request manager next now
        (etag state.handle request.offset state.currentOffset false now) messages

theorem Source.read {state : State} {messages : List Message}
    (continued : request.offset ≠ "-1") (kept : next.byHandle = manager.byHandle)
    (read : manager.read request.handle request.offset = .ok (state, messages)) :
    Source backend request manager next now
      (etag state.handle request.offset state.currentOffset messages.isEmpty now) messages := by
  cases messages with
  | nil => exact .nothing continued
  | cons message rest => exact .log continued kept read (by simp)

theorem mustRefetch_silent (definition : Definition)
    (unvalidated : Progress) :
    Validated request source
      (.answered (mustRefetch backend request definition manager now).1) unvalidated := by
  unfold mustRefetch
  cases backend.snapshot ⟨definition, .validateOnly, false⟩ with
  | error error => cases error <;> exact .silent rfl rfl
  | ok snapshot =>
      dsimp only
      split <;> exact .silent rfl rfl

theorem answerReadError_silent (definition : Definition) (error : ManagerError)
    (unvalidated : Progress) :
    Validated request source
      (.answered (answerReadError backend request definition manager now error).1)
      unvalidated := by
  cases error with
  | shapeNotFound | shapeDeleted => exact mustRefetch_silent definition unvalidated
  | offsetOutOfRange | store => exact .silent rfl rfl

theorem answerContinuation_validated {state : State} {messages : List Message}
    (continued : request.offset ≠ "-1") (kept : next.byHandle = manager.byHandle)
    (read : manager.read request.handle request.offset = .ok (state, messages)) :
    Validated request (Source backend request manager next now)
      (.answered (answerContinuation request state messages now))
      (.answered (answerContinuation request.plain state messages now)) := by
  apply Validated.respond
  rw [bodyMessages_messagesToBody]
  exact .read continued kept read

theorem serveContinuation_validated (definition : Definition)
    (continued : request.offset ≠ "-1") :
    Validated request
      (Source backend request manager
        (serveContinuation backend request definition manager now).2 now)
      (serveContinuation backend request definition manager now).1
      (serveContinuation backend request.plain definition manager now).1 := by
  have handle : request.plain.handle = request.handle := rfl
  have offset : request.plain.offset = request.offset := rfl
  have live : request.plain.live = request.live := rfl
  have liveSSE : request.plain.liveSSE = request.liveSSE := rfl
  unfold serveContinuation
  rw [handle, offset, live, liveSSE]
  cases read : manager.read request.handle request.offset with
  | error error => exact answerReadError_silent definition error _
  | ok pair =>
      obtain ⟨state, messages⟩ := pair
      dsimp only
      cases sameShapeDefinition state definition with
      | false => exact mustRefetch_silent definition _
      | true =>
          cases request.liveSSE with
          | true => exact .openLiveSSE request state messages now (.read continued rfl read)
          | false =>
              cases messages.isEmpty && request.live with
              | true => exact .silent rfl rfl
              | false => exact answerContinuation_validated continued rfl read

omit [Digest] [Store σ] in
theorem waitForChange_returned {handle offset : String} {fresh : Nat} {wake : Manager.Wake}
    {phase : Manager.WaitPhase} {result : Except ManagerError (State × List Message)}
    (returned : (manager.waitForChange handle offset fresh wake phase).1 = .returned result) :
    manager.read handle offset = result := by
  cases phase with
  | polling =>
      rw [Manager.waitForChange] at returned
      split at returned
      · cases returned
      · cases returned
        rfl
  | registering =>
      rw [Manager.waitForChange] at returned
      split at returned
      · cases returned
      · cases returned
        rfl
  | waiting waiter =>
      cases wake with
      | deadline => cases returned
      | notified =>
          rw [Manager.waitForChange] at returned
          split at returned
          · cases returned
            rfl
          · cases returned

omit [Digest] in
theorem streamChange_silent (currentOffset : String)
    (result : Except ManagerError (State × List Message)) (unvalidated : Progress) :
    Validated request source (streamChange currentOffset result) unvalidated := by
  cases result with
  | error error => cases error <;> exact .silent rfl rfl
  | ok pair =>
      dsimp only [streamChange]
      split <;> exact .silent rfl rfl

theorem stepContinuation_validated (definition : Definition) (fresh : Nat)
    (wake : Manager.Wake) (phase : Phase) (continued : request.offset ≠ "-1") :
    Validated request
      (Source backend request manager
        (stepContinuation backend request definition manager now fresh wake phase).2 now)
      (stepContinuation backend request definition manager now fresh wake phase).1
      (stepContinuation backend request.plain definition manager now fresh wake phase).1 := by
  cases phase with
  | received => exact serveContinuation_validated definition continued
  | longPoll phase =>
      have shapes :=
        (manager.waitForChange_shapes request.handle request.offset fresh wake phase).1
      dsimp only [stepContinuation, ShapeRequest.plain]
      cases run : manager.waitForChange request.handle request.offset fresh wake phase with
      | mk progress next =>
          rw [run] at shapes
          cases progress with
          | pending phase => exact .silent rfl rfl
          | deadlineExceeded => exact .silent rfl rfl
          | returned result =>
              have read := waitForChange_returned (congrArg Prod.fst run)
              cases result with
              | error error => exact answerReadError_silent definition error _
              | ok pair => exact answerContinuation_validated continued shapes read
  | expired =>
      dsimp only [stepContinuation, ShapeRequest.plain]
      cases read : manager.read request.handle request.offset with
      | error error => exact .silent rfl rfl
      | ok pair => exact answerContinuation_validated continued rfl read
  | streaming currentOffset phase =>
      dsimp only [stepContinuation]
      cases run : manager.waitForChange request.handle currentOffset fresh wake phase with
      | mk progress next =>
          cases progress with
          | pending phase => exact .silent rfl rfl
          | deadlineExceeded => exact .silent rfl rfl
          | returned result => exact streamChange_silent currentOffset result _

theorem serveInitialSnapshot_validated (whole : request.subset = none)
    (initial : request.offset = "-1") :
    Validated request (Source backend request manager next now)
      (.answered (serveInitialSnapshot backend request
        (snapshotDefinitionFromRequest request) manager now).1)
      (.answered (serveInitialSnapshot backend request.plain
        (snapshotDefinitionFromRequest request) manager now).1) := by
  unfold serveInitialSnapshot
  cases read : backend.snapshot ⟨snapshotDefinitionFromRequest request, .data, true⟩ with
  | error error => cases error <;> exact .silent rfl rfl
  | ok snapshot =>
      dsimp only [Manager.upsertSnapshot]
      by_cases accepted : manager.Accepts (manager.upsertState
          (snapshotDefinitionFromRequest request) snapshot initialOffset now)
      · have written := (manager.upsertSnapshotAtOffset_of_accepts
          (snapshotDefinitionFromRequest request) snapshot initialOffset now accepted).1
        obtain ⟨base, stored⟩ := manager.upsertState_eq
          (snapshotDefinitionFromRequest request) snapshot initialOffset now
        cases run : manager.upsertSnapshotAtOffset (snapshotDefinitionFromRequest request)
            snapshot initialOffset now with
        | mk result after =>
            obtain rfl : result = _ := (congrArg Prod.fst run).symm.trans written
            apply Validated.respond
            have body : ∀ messages metadata, bodyMessages
                (messages.map .message ++ [snapshotEndControl metadata]) = messages := by
              intro messages metadata
              cases metadata <;>
                simp [bodyMessages, snapshotEndControl, List.filterMap_map]
            have current : (manager.upsertState (snapshotDefinitionFromRequest request)
                snapshot initialOffset now).currentOffset = initialOffset := by
              rw [stored]
              rfl
            rw [body, current, initial]
            exact .snapshot whole initial read accepted
      · obtain ⟨error, refused⟩ := manager.upsertSnapshotAtOffset_of_not_accepts
          (snapshotDefinitionFromRequest request) snapshot initialOffset now accepted
        rw [refused]
        exact .silent rfl rfl

theorem serveNow_validated (definition : Definition) (continued : request.offset ≠ "-1") :
    Validated request (Source backend request manager next now)
      (.answered (serveNow backend request definition manager now).1)
      (.answered (serveNow backend request.plain definition manager now).1) := by
  unfold serveNow
  cases manager.lookupByDefinition definition with
  | some state =>
      apply Validated.respond
      exact .nothing continued
  | none =>
      cases backend.snapshot ⟨definition, .data, true⟩ with
      | error error => cases error <;> exact .silent rfl rfl
      | ok snapshot =>
          dsimp only
          cases run : manager.upsertSnapshotAtOffset definition snapshot nowOffset now with
          | mk result after =>
              cases result with
              | error error => exact .silent rfl rfl
              | ok state =>
                  apply Validated.respond
                  exact .nothing continued

theorem serveSubsetSnapshot_silent (definition queryDefinition : Definition)
    (unvalidated : Progress) :
    Validated request source (.answered (serveSubsetSnapshot backend request definition
      queryDefinition manager now).1) unvalidated := by
  unfold serveSubsetSnapshot
  cases resolveSubsetShape backend request definition manager now with
  | mk result after =>
      cases result with
      | error error =>
          cases error with
          | snapshot error => cases error <;> exact .silent rfl rfl
          | manager error =>
              cases error with
              | shapeNotFound | shapeDeleted => exact mustRefetch_silent definition unvalidated
              | offsetOutOfRange | store => exact .silent rfl rfl
      | ok state =>
          dsimp only
          cases backend.snapshot ⟨queryDefinition, .data, true⟩ with
          | error error => cases error <;> exact .silent rfl rfl
          | ok snapshot => exact .silent rfl rfl

theorem handleShape_validated :
    Validated request
      (Source backend request manager (handleShape backend request manager now).2 now)
      (handleShape backend request manager now).1
      (handleShape backend request.plain manager now).1 := by
  have definition : shapeDefinitionFromRequest request.plain =
      shapeDefinitionFromRequest request := rfl
  have queryDefinition : snapshotDefinitionFromRequest request.plain =
      snapshotDefinitionFromRequest request := rfl
  have offset : request.plain.offset = request.offset := rfl
  have subset : request.plain.subset = request.subset := rfl
  unfold handleShape
  dsimp only
  rw [definition, queryDefinition, offset, subset]
  cases part : request.subset with
  | some range => exact serveSubsetSnapshot_silent _ _ _
  | none =>
      simp only [Option.isSome_none, Bool.false_eq_true, if_false]
      by_cases initial : request.offset = "-1"
      · simp only [if_pos initial]
        exact serveInitialSnapshot_validated part initial
      · simp only [if_neg initial]
        split
        · exact serveNow_validated _ initial
        · exact serveContinuation_validated _ initial

end Sources

end PostgresSync.Protocol
