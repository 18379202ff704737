import PostgresSync.Shapes.Manager

namespace PostgresSync.Protocol

open PostgresSync.Data
open PostgresSync.Shapes
open PostgresSync.Storage

/-! The shape service, from a validated request to its response.  Cursor, cache
and schema headers are left out. -/

structure ShapeRequest where
  relation : Relation
  whereClause : String := ""
  params : Dict String := ∅
  columns : List String := []
  replica : String := ""
  log : String := ""
  subset : Option Subset := none
  offset : String
  handle : String := ""
  live : Bool := false
  liveSSE : Bool := false
  ifNoneMatch : String := ""
deriving DecidableEq

def shapeDefinitionFromRequest (request : ShapeRequest) : Definition where
  relation := request.relation
  whereClause := request.whereClause
  params := request.params
  columns := request.columns
  replica := request.replica
  log := request.log

def snapshotDefinitionFromRequest (request : ShapeRequest) : Definition :=
  { shapeDefinitionFromRequest request with subset := request.subset }

/-- One entry of a response body.  The offset and internal key of a message are
not written to it. -/
inductive BodyItem where
  | message (message : Message)
  | snapshotEnd (xmin xmax : String) (xipList : List String)
  | upToDate (globalLastSeenLSN : String)
  | mustRefetch
deriving DecidableEq

structure SuccessHeaders where
  handle : String
  offset : String
  hasData : Bool
  upToDate : Bool
  etag : String
deriving DecidableEq

inductive Response where
  | success (headers : SuccessHeaders) (body : List BodyItem)
  | notModified (headers : SuccessHeaders)
  | mustRefetch (handle etag : String)
  | invalidRequest (field message : String)
  | unavailable (message : String)
  | subset (handle offset : String) (rows : List Message)
      (metadata : SnapshotMetadata)
  | deleteAccepted
  | deleteNotAllowed
deriving DecidableEq

def Response.status : Response → Nat
  | .success .. => 200
  | .notModified .. => 304
  | .mustRefetch .. => 409
  | .invalidRequest .. => 400
  | .unavailable .. => 503
  | .subset .. => 200
  | .deleteAccepted => 202
  | .deleteNotAllowed => 405

def errorText : ManagerError → String
  | .shapeNotFound => "shape not found"
  | .shapeDeleted => "shape deleted"
  | .offsetOutOfRange => "offset out of range"
  | .store error => error

def etag (handle requestOffset currentOffset : String) (noChanges : Bool)
    (now : Time) : String :=
  handle ++ ":" ++ requestOffset ++ ":" ++ currentOffset ++
    if noChanges then ":" ++ toString now else ""

def matchesIfNoneMatch (request : ShapeRequest) (state : State)
    (noChanges : Bool) (now : Time) : Bool :=
  request.ifNoneMatch =
    "\"" ++ etag state.handle request.offset state.currentOffset noChanges now ++ "\""

structure SuccessHeaderOptions where
  hasData : Bool
  upToDate : Bool := false
  noChanges : Bool := false

/-- `WriteSuccessHeaders`.  A live stream that has nothing to send yet is told to
continue from `now`. -/
def successHeaders (request : ShapeRequest) (state : State)
    (options : SuccessHeaderOptions) (now : Time) : SuccessHeaders where
  handle := state.handle
  offset :=
    if request.liveSSE && options.noChanges then nowOffset else state.currentOffset
  hasData := options.hasData || (request.liveSSE && options.noChanges)
  upToDate := options.upToDate
  etag := etag state.handle request.offset state.currentOffset options.noChanges now

def respond (request : ShapeRequest) (state : State)
    (options : SuccessHeaderOptions) (now : Time) (body : List BodyItem) :
    Response :=
  let headers := successHeaders request state options now
  if matchesIfNoneMatch request state options.noChanges now then
    .notModified headers
  else
    .success headers body

def currentGlobalLSN (state : State) : String :=
  (offsetLSN state.currentOffset).getD ""

def snapshotEndControl : Option SnapshotMetadata → BodyItem
  | none => .snapshotEnd "0" "0" []
  | some metadata => .snapshotEnd metadata.xmin metadata.xmax metadata.xipList

def snapshotDatabaseLSN (metadata : Option SnapshotMetadata) : String :=
  (metadata.map (·.databaseLSN)).getD ""

def messagesToBody (messages : List Message) (globalLastSeenLSN : String) :
    List BodyItem :=
  messages.map .message ++ [.upToDate globalLastSeenLSN]

def snapshotErrorResponse : SnapshotError → Response
  | .relationNotFound relation =>
      .invalidRequest "table" (relationNotFoundText relation)
  | .other message => .unavailable message

section

variable [Digest] [Store σ]

def sameShapeDefinition (state : State) (definition : Definition) : Bool :=
  state.hash = canonicalHash definition

def serveInitialSnapshot (backend : Backend) (request : ShapeRequest)
    (definition : Definition) (manager : Manager σ) (now : Time) :
    Response × Manager σ :=
  match backend.snapshot ⟨definition, .data, true⟩ with
  | .error error => (snapshotErrorResponse error, manager)
  | .ok snapshot =>
      match manager.upsertSnapshot definition snapshot now with
      | (.error error, manager) => (.unavailable (errorText error), manager)
      | (.ok state, manager) =>
          (respond request state { hasData := !snapshot.rows.isEmpty } now
            (state.snapshot.map .message ++ [snapshotEndControl snapshot.metadata]),
            manager)

def serveNow (backend : Backend) (request : ShapeRequest)
    (definition : Definition) (manager : Manager σ) (now : Time) :
    Response × Manager σ :=
  let options : SuccessHeaderOptions :=
    { hasData := false, upToDate := true, noChanges := true }
  match manager.lookupByDefinition definition with
  | some state =>
      (respond request state options now [.upToDate (currentGlobalLSN state)],
        manager)
  | none =>
      match backend.snapshot ⟨definition, .data, true⟩ with
      | .error error => (snapshotErrorResponse error, manager)
      | .ok snapshot =>
          match manager.upsertSnapshotAtOffset definition snapshot nowOffset now with
          | (.error error, manager) => (.unavailable (errorText error), manager)
          | (.ok state, manager) =>
              (respond request state options now
                [.upToDate (snapshotDatabaseLSN snapshot.metadata)], manager)

def mustRefetch (backend : Backend) (request : ShapeRequest)
    (definition : Definition) (manager : Manager σ) (now : Time) :
    Response × Manager σ :=
  match backend.snapshot ⟨definition, .validateOnly, false⟩ with
  | .error error => (snapshotErrorResponse error, manager)
  | .ok snapshot =>
      match manager.upsertSnapshot definition snapshot now with
      | (.error error, manager) => (.unavailable (errorText error), manager)
      | (.ok state, manager) =>
          (.mustRefetch state.handle
            (etag state.handle request.offset state.currentOffset false now), manager)

/-! A continuation request.  Between its reads the manager is not locked, so it
is a sequence of steps, and other requests run in between. -/

/-- Where a continuation stands when it is not answered yet. -/
inductive Phase where
  /-- Before the `Read` of `serveContinuation`. -/
  | received
  /-- In the `WaitForChange` of a long poll. -/
  | longPoll (phase : Manager.WaitPhase)
  /-- The deadline has passed; before the last `Read`. -/
  | expired
  /-- In the loop of `serveLiveSSE`, caught up to an offset. -/
  | streaming (currentOffset : String) (phase : Manager.WaitPhase)
deriving DecidableEq

inductive Progress where
  | pending (phase : Phase)
  | answered (response : Response)
  /-- The stream has been opened or has sent more of its body. -/
  | streamed (headers : Option SuccessHeaders) (body : List BodyItem)
      (phase : Phase)
  /-- The stream has ended after this last part of its body. -/
  | ended (body : List BodyItem)
deriving DecidableEq

def answerContinuation (request : ShapeRequest) (state : State)
    (messages : List Message) (now : Time) : Response :=
  respond request state
    { hasData := !messages.isEmpty
      upToDate := true
      noChanges := messages.isEmpty } now
    (messagesToBody messages (currentGlobalLSN state))

def answerReadError (backend : Backend) (request : ShapeRequest)
    (definition : Definition) (manager : Manager σ) (now : Time) :
    ManagerError → Response × Manager σ
  | .shapeNotFound => mustRefetch backend request definition manager now
  | .shapeDeleted => mustRefetch backend request definition manager now
  | .offsetOutOfRange =>
      (.invalidRequest "offset" "out of bounds for this shape", manager)
  | .store error => (.unavailable error, manager)

/-- `serveLiveSSE` up to its loop. -/
def openLiveSSE (request : ShapeRequest) (state : State)
    (messages : List Message) (now : Time) : Progress :=
  let options : SuccessHeaderOptions :=
    { hasData := true, upToDate := true, noChanges := messages.isEmpty }
  let headers := successHeaders request state options now
  if matchesIfNoneMatch request state options.noChanges now then
    .answered (.notModified headers)
  else if messages.isEmpty then
    .streamed (some headers) [] (.streaming request.offset .polling)
  else
    .streamed (some headers) (messagesToBody messages (currentGlobalLSN state))
      (.streaming state.currentOffset .polling)

/-- The step of a request that has just been received. -/
def serveContinuation (backend : Backend) (request : ShapeRequest)
    (definition : Definition) (manager : Manager σ) (now : Time) :
    Progress × Manager σ :=
  match manager.read request.handle request.offset with
  | .error error =>
      let answer := answerReadError backend request definition manager now error
      (.answered answer.1, answer.2)
  | .ok (state, messages) =>
      if sameShapeDefinition state definition = false then
        let answer := mustRefetch backend request definition manager now
        (.answered answer.1, answer.2)
      else if request.liveSSE then
        (openLiveSSE request state messages now, manager)
      else if messages.isEmpty && request.live then
        (.pending (.longPoll .polling), manager)
      else
        (.answered (answerContinuation request state messages now), manager)

/-- The loop body of `serveLiveSSE`, once `WaitForChange` has returned. -/
def streamChange (currentOffset : String) :
    Except ManagerError (State × List Message) → Progress
  | .error (.store _) => .ended []
  | .error _ => .ended [.mustRefetch]
  | .ok (state, messages) =>
      if messages.isEmpty then
        .streamed none [.upToDate (currentGlobalLSN state)]
          (.streaming currentOffset .polling)
      else
        .streamed none (messagesToBody messages (currentGlobalLSN state))
          (.streaming state.currentOffset .polling)

def stepContinuation (backend : Backend) (request : ShapeRequest)
    (definition : Definition) (manager : Manager σ) (now : Time) (fresh : Nat)
    (wake : Manager.Wake) : Phase → Progress × Manager σ
  | .received => serveContinuation backend request definition manager now
  | .longPoll phase =>
      match manager.waitForChange request.handle request.offset fresh wake phase with
      | (.pending phase, manager) => (.pending (.longPoll phase), manager)
      | (.deadlineExceeded, manager) => (.pending .expired, manager)
      | (.returned (.error error), manager) =>
          let answer := answerReadError backend request definition manager now error
          (.answered answer.1, answer.2)
      | (.returned (.ok (state, messages)), manager) =>
          (.answered (answerContinuation request state messages now), manager)
  | .expired =>
      match manager.read request.handle request.offset with
      | .error error => (.answered (.unavailable (errorText error)), manager)
      | .ok (state, messages) =>
          (.answered (answerContinuation request state messages now), manager)
  | .streaming currentOffset phase =>
      match manager.waitForChange request.handle currentOffset fresh wake phase with
      | (.pending phase, manager) => (.pending (.streaming currentOffset phase), manager)
      -- A keep-alive comment is no event; the loop waits again.
      | (.deadlineExceeded, manager) =>
          (.pending (.streaming currentOffset .polling), manager)
      | (.returned result, manager) => (streamChange currentOffset result, manager)

/-! Subset requests and deletion. -/

def subsetMetadata (metadata : Option SnapshotMetadata) : SnapshotMetadata :=
  metadata.getD ⟨1, "0", "0", "0", []⟩

def subsetDataMessages (relation : Relation) (snapshot : SnapshotResult)
    (snapshotMark : Int) : List Message :=
  snapshot.rows.map fun row => {
    headers := (operationHeaders "insert" relation).insert "snapshot_mark"
      (.int snapshotMark)
    key := messageKey relation snapshot.schema row
    value := row }

inductive ResolutionError where
  | manager (error : ManagerError)
  | snapshot (error : SnapshotError)

def resolveSubsetShape (backend : Backend) (request : ShapeRequest)
    (shapeDefinition : Definition) (manager : Manager σ) (now : Time) :
    Except ResolutionError State × Manager σ :=
  if request.handle ≠ "" then
    match manager.lookupByHandle request.handle with
    | none => (.error (.manager .shapeNotFound), manager)
    | some state =>
        if sameShapeDefinition state shapeDefinition = false then
          (.error (.manager .shapeDeleted), manager)
        else
          (.ok state, manager)
  else
    match manager.lookupByDefinition shapeDefinition with
    | some state => (.ok state, manager)
    | none =>
        match backend.snapshot ⟨shapeDefinition, .data, false⟩ with
        | .error error => (.error (.snapshot error), manager)
        | .ok snapshot =>
            match manager.upsertSnapshot shapeDefinition snapshot now with
            | (.error error, manager) => (.error (.manager error), manager)
            | (.ok state, manager) => (.ok state, manager)

def subsetResolutionResponse (backend : Backend) (request : ShapeRequest)
    (shapeDefinition : Definition) (manager : Manager σ) (now : Time) :
    ResolutionError → Response × Manager σ
  | .manager .shapeNotFound => mustRefetch backend request shapeDefinition manager now
  | .manager .shapeDeleted => mustRefetch backend request shapeDefinition manager now
  | .manager error => (.unavailable (errorText error), manager)
  | .snapshot error => (snapshotErrorResponse error, manager)

def serveSubsetSnapshot (backend : Backend) (request : ShapeRequest)
    (shapeDefinition queryDefinition : Definition) (manager : Manager σ)
    (now : Time) : Response × Manager σ :=
  match resolveSubsetShape backend request shapeDefinition manager now with
  | (.error error, manager) =>
      subsetResolutionResponse backend request shapeDefinition manager now error
  | (.ok state, manager) =>
      match backend.snapshot ⟨queryDefinition, .data, true⟩ with
      | .error error => (snapshotErrorResponse error, manager)
      | .ok snapshot =>
          let metadata := subsetMetadata snapshot.metadata
          (.subset state.handle state.currentOffset
            (subsetDataMessages queryDefinition.relation snapshot
              metadata.snapshotMark) metadata, manager)

def deleteShape (allowShapeDeletion : Bool) (request : ShapeRequest)
    (definition : Definition) (manager : Manager σ) (now : Time) :
    Response × Manager σ :=
  let deleted (handle : String) : Response × Manager σ :=
    match manager.delete handle now with
    | (.error error, manager) => (.unavailable (errorText error), manager)
    | (.ok _, manager) => (.deleteAccepted, manager)
  if allowShapeDeletion = false then
    (.deleteNotAllowed, manager)
  else if request.handle ≠ "" then
    deleted request.handle
  else
    match manager.lookupByDefinition definition with
    | some state => deleted state.handle
    | none => (.deleteAccepted, manager)

/-- `HandleShape` for a GET request that has passed authorization, validation
and admission. -/
def handleShape (backend : Backend) (request : ShapeRequest)
    (manager : Manager σ) (now : Time) : Progress × Manager σ :=
  let definition := shapeDefinitionFromRequest request
  let queryDefinition := snapshotDefinitionFromRequest request
  let answered (answer : Response × Manager σ) : Progress × Manager σ :=
    (.answered answer.1, answer.2)
  if request.subset.isSome then
    answered (serveSubsetSnapshot backend request definition queryDefinition
      manager now)
  else if request.offset = "-1" then
    answered (serveInitialSnapshot backend request queryDefinition manager now)
  else if request.offset = "now" then
    answered (serveNow backend request queryDefinition manager now)
  else
    serveContinuation backend request definition manager now

end

end PostgresSync.Protocol
