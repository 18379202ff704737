import PostgresSync.Protocol.Resumable
import PostgresSync.Shapes.CatchUp

namespace PostgresSync.Protocol

open PostgresSync.Data
open PostgresSync.Shapes
open PostgresSync.Storage

/-! Any number of clients that follow one definition while its shape is refreshed. -/

/-- A client: the handle and offset that it was handed last, the rows that it has put together,
and where the stream stands that it has open. -/
structure Viewer where
  handle : String
  offset : String
  view : Dict Row
  stream : Option String := none

inductive Turn where
  | arrives (live liveSSE : Bool)
  | polls (wait : Manager.WaitPhase)
  | expires
  | streams (wait : Manager.WaitPhase)

namespace Turn

def live : Turn → Bool
  | arrives live _ => live
  | _ => true

def liveSSE : Turn → Bool
  | arrives _ liveSSE => liveSSE
  | streams _ => true
  | _ => false

/-- The offset that the shape is read from: that of the request, or that of the open stream. -/
def position (viewer : Viewer) : Turn → Option String
  | streams _ => viewer.stream
  | _ => some viewer.offset

def opens : Turn → Bool
  | arrives _ liveSSE => liveSSE
  | _ => false

def phase (position : String) : Turn → Phase
  | arrives _ _ => .received
  | polls wait => .longPoll wait
  | expires => .expired
  | streams wait => .streaming position wait

end Turn

namespace Viewer

def request (base : ShapeRequest) (viewer : Viewer) (turn : Turn) : ShapeRequest :=
  { base with
    handle := viewer.handle
    offset := viewer.offset
    live := turn.live
    liveSSE := turn.liveSSE
    ifNoneMatch := "" }

def receive (viewer : Viewer) : Progress → Option Viewer
  | .pending _ => some viewer
  | .answered (.success headers body) => some {
      handle := headers.handle
      offset := headers.offset
      view := (bodyMessages body).foldl applyMessage viewer.view }
  | .streamed (some headers) body (.streaming position _) => some {
      handle := headers.handle
      offset := headers.offset
      view := (bodyMessages body).foldl applyMessage viewer.view
      stream := some position }
  | .streamed none body (.streaming position _) => some { viewer with
      view := (bodyMessages body).foldl applyMessage viewer.view
      stream := some position }
  | _ => none

end Viewer

structure Moment where
  backend : Backend
  now : Time
  fresh : Nat := 0
  wake : Manager.Wake := .deadline

structure Refresh where
  keyRows : Option (List Row)
  snapshot : SnapshotResult
  metadata : ChangeMetadata
  now : Time

inductive Move where
  | initial (name : String) (moment : Moment)
  | continuation (name : String) (turn : Turn) (moment : Moment)
  | refresh (refresh : Refresh)

/-- The service with its clients.  `committed` is the last commit of a refresh. -/
structure Audience (σ : Type) where
  manager : Manager σ
  committed : UInt64 := 0
  viewers : Dict Viewer := ∅

section Steps

variable [Digest] [Store σ]

def Refresh.run (refresh : Refresh) (manager : Manager σ) (handle : String) : Manager σ :=
  match refresh.keyRows with
  | some keyRows =>
      (manager.refreshKeysWithMetadata handle refresh.snapshot keyRows refresh.metadata
        refresh.now).2
  | none => (manager.refreshWithMetadata handle refresh.snapshot refresh.metadata refresh.now).2

def Refresh.computes (refresh : Refresh) (shape : State) : Option (State × List Message) :=
  match refresh.keyRows with
  | some keyRows => shape.refreshKeys refresh.snapshot keyRows refresh.metadata refresh.now
  | none => some (shape.refresh refresh.snapshot refresh.metadata refresh.now)

variable (base : ShapeRequest)

def Viewer.continues (viewer : Viewer) (turn : Turn) (position : String) (moment : Moment)
    (manager : Manager σ) : Progress × Manager σ :=
  stepContinuation moment.backend (viewer.request base turn) (shapeDefinitionFromRequest base)
    manager moment.now moment.fresh moment.wake (turn.phase position)

def initialRequest : ShapeRequest :=
  { base with
    offset := "-1"
    ifNoneMatch := "" }

def newcomer : Viewer where
  handle := ""
  offset := "-1"
  view := ∅

namespace Audience

def step (audience : Audience σ) : Move → Audience σ
  | .initial name moment =>
      let served := serveInitialSnapshot moment.backend (initialRequest base)
        (shapeDefinitionFromRequest base) audience.manager moment.now
      { audience with
        manager := served.2
        viewers :=
          match newcomer.receive (.answered served.1) with
          | some viewer => audience.viewers.insert name viewer
          | none => audience.viewers }
  | .continuation name turn moment =>
      match audience.viewers[name]? with
      | none => audience
      | some viewer =>
          match turn.position viewer with
          | none => audience
          | some position =>
              let served := viewer.continues base turn position moment audience.manager
              { audience with
                manager := served.2
                viewers := audience.viewers.alter name fun _ => viewer.receive served.1 }
  | .refresh refresh =>
      { audience with
        manager :=
          match audience.manager.lookupByDefinition (shapeDefinitionFromRequest base) with
          | some shape => refresh.run audience.manager shape.handle
          | none => audience.manager
        committed := refresh.metadata.commitLSN }

end Audience

/-- A client is told nothing yet, or to start over, or what brings its view to the rows of the
shape. -/
def Progress.Told (schema : Schema) (shape : State) (view : Dict Row) : Progress → Prop
  | .pending _ => True
  | .answered (.success _ body) =>
      shape.ShownBy schema ((bodyMessages body).foldl applyMessage view)
  | .answered (.mustRefetch ..) => True
  | .answered _ => False
  | .streamed _ body _ => shape.ShownBy schema ((bodyMessages body).foldl applyMessage view)
  | .ended body => body = [.mustRefetch]

instance (schema : Schema) (shape : State) (view : Dict Row) :
    (progress : Progress) → Decidable (progress.Told schema shape view)
  | .pending _ => inferInstanceAs (Decidable True)
  | .answered response =>
      match response with
      | .success .. => inferInstanceAs (Decidable (shape.ShownBy schema _))
      | .mustRefetch .. => inferInstanceAs (Decidable True)
      | .notModified _ | .invalidRequest .. | .unavailable _ | .subset .. | .deleteAccepted
      | .deleteNotAllowed => inferInstanceAs (Decidable False)
  | .streamed .. => inferInstanceAs (Decidable (shape.ShownBy schema _))
  | .ended _ => inferInstanceAs (Decidable (_ = _))

variable (schema : Schema)

namespace Audience

variable (audience : Audience σ)

/-- Whichever client continues next, and however, it is told what it may be told. -/
def Converges : Prop :=
  ∀ (name : String) (viewer : Viewer), audience.viewers[name]? = some viewer →
    ∀ (turn : Turn) (position : String), turn.position viewer = some position →
      ∀ moment : Moment,
        let served := viewer.continues base turn position moment audience.manager
        served.1.Told schema (served.2.stateAt viewer.handle) viewer.view

/-- The table keeps its schema and its primary key.  A refresh is of the shape's relation and
of a later commit, and leaves a log that a slice can hold. -/
def Admits : Move → Prop
  | .initial _ moment =>
      ∀ snapshot ∈ (moment.backend.snapshot
          ⟨shapeDefinitionFromRequest base, .data, true⟩).toOption,
        snapshot.schema = schema ∧ TableRows schema snapshot.rows
  | .continuation .. => True
  | .refresh refresh =>
      refresh.metadata.keyRelation = base.relation ∧
        audience.committed < refresh.metadata.commitLSN ∧
        refresh.snapshot.schema = schema ∧ TableRows schema refresh.snapshot.rows ∧
        ∀ shape ∈ audience.manager.lookupByDefinition (shapeDefinitionFromRequest base),
          ∀ refreshed ∈ refresh.computes shape, refreshed.1.changes.length < 2 ^ 63

/-- When an initial request registers its rows, they have different signatures, and every other
client is still at the first offset and has a view of just these rows.  A stream is opened on a
shape that has logged something.  While there are clients, a refresh reads no row that has the
signature of a row of the shape with another key. -/
def Meets : Move → Prop
  | .initial name moment =>
      ∀ snapshot ∈ (moment.backend.snapshot
          ⟨shapeDefinitionFromRequest base, .data, true⟩).toOption,
        audience.manager.Accepts (audience.manager.upsertState (shapeDefinitionFromRequest base)
            snapshot initialOffset moment.now) →
          SignaturesDiffer schema snapshot.rows ∧
            ∀ (other : String) (viewer : Viewer), audience.viewers[other]? = some viewer →
              other ≠ name → compareOffsets viewer.offset initialOffset ≠ .gt ∧
                shownView schema viewer.view =
                  shownView schema (snapshotView base.relation schema snapshot.rows)
  | .continuation name turn _ => turn.opens = true →
      ∀ viewer ∈ audience.viewers[name]?, ∀ shape ∈ audience.manager.active? viewer.handle,
        compareOffsets nowOffset shape.currentOffset ≠ .gt
  | .refresh refresh =>
      ∀ shape ∈ audience.manager.lookupByDefinition (shapeDefinitionFromRequest base),
        ∀ refreshed ∈ refresh.computes shape, audience.manager.Accepts refreshed.1 →
          ∀ (name : String) (viewer : Viewer), audience.viewers[name]? = some viewer →
            KeysKept schema shape.materialized
              (materializedRows schema refresh.snapshot.rows)

instance : (move : Move) → Decidable (audience.Admits base schema move)
  | .initial .. => inferInstanceAs (Decidable (∀ _ ∈ (_ : Option _), _ ∧ _))
  | .continuation .. => inferInstanceAs (Decidable True)
  | .refresh .. => inferInstanceAs (Decidable (_ ∧ _ ∧ _ ∧ _ ∧ ∀ _ ∈ (_ : Option _),
      ∀ _ ∈ (_ : Option _), _))

instance : (move : Move) → Decidable (audience.Meets base schema move)
  | .initial .. => inferInstanceAs (Decidable (∀ _ ∈ (_ : Option _), _ → _ ∧
      ∀ (other : String) (viewer : Viewer), audience.viewers[other]? = some viewer → _))
  | .continuation .. => inferInstanceAs (Decidable (_ → ∀ _ ∈ (_ : Option _),
      ∀ _ ∈ (_ : Option _), _))
  | .refresh .. => inferInstanceAs (Decidable (∀ _ ∈ (_ : Option _), ∀ _ ∈ (_ : Option _), _ →
      ∀ (name : String) (viewer : Viewer), audience.viewers[name]? = some viewer → _))

end Audience

end Steps

section Serving

variable {base : ShapeRequest} {schema : Schema} {shape : State} {viewer : Viewer} {turn : Turn}
  {position : String} {moment : Moment} {messages : List Message} {progress : Progress}

/-- The messages reach the client, with the offset that it is handed and where its stream is
left. -/
inductive Delivers (shape : State) (position : String) (messages : List Message) :
    Turn → Progress → Prop
  | waits {turn : Turn} {phase : Phase} (single : turn.opens = false) :
      Delivers shape position messages turn (.pending phase)
  | answers {turn : Turn} {headers : SuccessHeaders} {body : List BodyItem}
      (single : turn.opens = false) (handle : headers.handle = shape.handle)
      (offset : headers.offset = shape.currentOffset) (sent : bodyMessages body = messages) :
      Delivers shape position messages turn (.answered (.success headers body))
  | opens {live : Bool} {headers : SuccessHeaders} {body : List BodyItem} {next : String}
      (handle : headers.handle = shape.handle)
      (offset : headers.offset =
        if messages.isEmpty then nowOffset else shape.currentOffset)
      (sent : bodyMessages body = messages)
      (moves : next = if messages.isEmpty then position else shape.currentOffset) :
      Delivers shape position messages (.arrives live true)
        (.streamed (some headers) body (.streaming next .polling))
  | sends {wait : Manager.WaitPhase} {body : List BodyItem} {next : String}
      (sent : bodyMessages body = messages)
      (moves : next = if messages.isEmpty then position else shape.currentOffset) :
      Delivers shape position messages (.streams wait)
        (.streamed none body (.streaming next .polling))

theorem Delivers.told (delivers : Delivers shape position messages turn progress)
    {view : Dict Row} (shown : shape.ShownBy schema (messages.foldl applyMessage view)) :
    progress.Told schema shape view := by
  cases delivers with
  | waits single => trivial
  | answers single handle offset sent =>
      rw [← sent] at shown
      exact shown
  | opens handle offset sent moves =>
      rw [← sent] at shown
      exact shown
  | sends sent moves =>
      rw [← sent] at shown
      exact shown

theorem Delivers.opened (delivers : Delivers shape position messages turn progress)
    (opens : turn.opens = true) :
    ∃ headers body next, progress = .streamed (some headers) body (.streaming next .polling) ∧
      headers.handle = shape.handle ∧
      headers.offset = (if messages.isEmpty then nowOffset else shape.currentOffset) := by
  cases delivers with
  | waits single => cases single.symm.trans opens
  | answers single handle offset sent => cases single.symm.trans opens
  | opens handle offset sent moves => exact ⟨_, _, _, rfl, handle, offset⟩
  | sends sent moves => cases opens

theorem Delivers.answerContinuation {request : ShapeRequest} (plain : request.ifNoneMatch = "")
    (once : request.liveSSE = false) (single : turn.opens = false) (now : Time) :
    Delivers shape position messages turn
      (.answered (answerContinuation request shape messages now)) := by
  unfold Protocol.answerContinuation respond
  dsimp only
  rw [matchesIfNoneMatch_of_plain plain, if_neg Bool.false_ne_true]
  exact .answers single rfl (by simp [successHeaders, once]) (bodyMessages_messagesToBody _ _)

theorem Delivers.openLiveSSE {request : ShapeRequest} {live : Bool}
    (plain : request.ifNoneMatch = "") (stream : request.liveSSE = true)
    (asks : request.offset = position) (now : Time) :
    Delivers shape position messages (.arrives live true)
      (openLiveSSE request shape messages now) := by
  subst asks
  unfold Protocol.openLiveSSE
  dsimp only
  rw [matchesIfNoneMatch_of_plain plain, if_neg Bool.false_ne_true]
  cases messages with
  | nil => exact .opens rfl (by simp [successHeaders, stream]) rfl rfl
  | cons message rest =>
      exact .opens rfl (by simp [successHeaders]) (bodyMessages_messagesToBody _ _) rfl

theorem Delivers.streamChange {wait : Manager.WaitPhase} :
    Delivers shape position messages (.streams wait)
      (streamChange position (.ok (shape, messages))) := by
  unfold Protocol.streamChange
  cases messages with
  | nil => exact .sends rfl rfl
  | cons message rest => exact .sends (bodyMessages_messagesToBody _ _) rfl

variable [Digest] [Store σ] {manager : Manager σ}

structure SameShapes (manager next : Manager σ) : Prop where
  byHandle : next.byHandle = manager.byHandle
  byHash : next.byHash = manager.byHash

theorem Viewer.continues_delivers (found : manager.active? shape.handle = some shape)
    (ordered : shape.LogOrdered)
    (same : shape.hash = canonicalHash (shapeDefinitionFromRequest base))
    (own : viewer.handle = shape.handle) (asks : turn.position viewer = some position)
    (reaches : shape.Reaches position) (moment : Moment) :
    let served := viewer.continues base turn position moment manager
    SameShapes manager served.2 ∧
      Delivers shape position (Manager.changesAfter shape.changes position) turn served.1 := by
  have read := Manager.read_of_reaches found ordered reaches
  rw [← own] at read
  have waits (wait : Manager.WaitPhase) := manager.waitForChange_shapes viewer.handle position
    moment.fresh moment.wake wait
  cases turn with
  | arrives live liveSSE =>
      obtain rfl := Option.some.inj asks
      have defined : sameShapeDefinition shape (shapeDefinitionFromRequest base) = true :=
        decide_eq_true same
      have served : manager.read (viewer.request base (.arrives live liveSSE)).handle
          (viewer.request base (.arrives live liveSSE)).offset = _ := read
      dsimp only [Viewer.continues, Turn.phase, stepContinuation, serveContinuation]
      rw [served]
      dsimp only
      rw [defined, if_neg Bool.true_eq_false.mp]
      cases liveSSE with
      | true =>
          rw [if_pos (by rfl)]
          have opened := @Delivers.openLiveSSE shape viewer.offset
            (Manager.changesAfter shape.changes viewer.offset)
            (viewer.request base (.arrives live true)) live rfl rfl rfl moment.now
          exact ⟨⟨rfl, rfl⟩, opened⟩
      | false =>
          rw [if_neg (by exact Bool.false_ne_true)]
          split
          · exact ⟨⟨rfl, rfl⟩, .waits rfl⟩
          · exact ⟨⟨rfl, rfl⟩, .answerContinuation rfl rfl rfl moment.now⟩
  | polls wait =>
      obtain rfl := Option.some.inj asks
      have kept := waits wait
      dsimp only [Viewer.continues, Turn.phase, stepContinuation, Viewer.request]
      match waited : manager.waitForChange viewer.handle viewer.offset moment.fresh moment.wake
          wait with
      | (.pending _, after) | (.deadlineExceeded, after) =>
          rw [waited] at kept
          exact ⟨⟨kept.1, kept.2⟩, .waits rfl⟩
      | (.returned result, after) =>
          rw [waited] at kept
          obtain rfl := read.symm.trans (waitForChange_returned (congrArg Prod.fst waited))
          exact ⟨⟨kept.1, kept.2⟩, .answerContinuation rfl rfl rfl moment.now⟩
  | expires =>
      obtain rfl := Option.some.inj asks
      dsimp only [Viewer.continues, Turn.phase, stepContinuation, Viewer.request]
      rw [read]
      exact ⟨⟨rfl, rfl⟩, .answerContinuation rfl rfl rfl moment.now⟩
  | streams wait =>
      have kept := waits wait
      dsimp only [Viewer.continues, Turn.phase, stepContinuation, Viewer.request]
      match waited : manager.waitForChange viewer.handle position moment.fresh moment.wake
          wait with
      | (.pending _, after) | (.deadlineExceeded, after) =>
          rw [waited] at kept
          exact ⟨⟨kept.1, kept.2⟩, .waits rfl⟩
      | (.returned result, after) =>
          rw [waited] at kept
          obtain rfl := read.symm.trans (waitForChange_returned (congrArg Prod.fst waited))
          exact ⟨⟨kept.1, kept.2⟩, .streamChange⟩

theorem Viewer.caughtUp_of_told (found : manager.active? shape.handle = some shape)
    (ordered : shape.LogOrdered)
    (same : shape.hash = canonicalHash (shapeDefinitionFromRequest base))
    (own : viewer.handle = shape.handle) (moment : Moment)
    (told : let served := viewer.continues base (.arrives false false) viewer.offset moment manager
      served.1.Told schema (served.2.stateAt viewer.handle) viewer.view) :
    shape.CaughtUp schema viewer.offset viewer.view := by
  have defined : sameShapeDefinition shape (shapeDefinitionFromRequest base) = true :=
    decide_eq_true same
  have held : manager.stateAt viewer.handle = shape := by
    rw [own, Manager.stateAt]
    exact Dict.getD_of_getElem? (Manager.active?_eq_some.mp found).1 _
  dsimp only [Viewer.continues, Turn.phase, stepContinuation, serveContinuation,
    Viewer.request] at told
  by_cases reaches : shape.Reaches viewer.offset
  · have read := Manager.read_of_reaches found ordered reaches
    rw [← own] at read
    rw [read] at told
    dsimp only at told
    rw [defined, if_neg Bool.true_eq_false.mp, if_neg (by exact Bool.false_ne_true),
      if_neg (by simp [Turn.live]), answerContinuation, respond] at told
    dsimp only at told
    rw [matchesIfNoneMatch_of_plain (by rfl), if_neg Bool.false_ne_true] at told
    dsimp only [Progress.Told] at told
    rw [held, bodyMessages_messagesToBody] at told
    exact ⟨reaches, told⟩
  · have read := Manager.read_of_not_reaches found reaches
    rw [← own] at read
    rw [read] at told
    cases told

end Serving

/-! What holds while all clients are told what they may be told. -/

structure Serves [Digest] (base : ShapeRequest) (schema : Schema) (manager : Manager σ)
    (committed : UInt64) (shape : State) : Prop where
  indexed : manager.byHash[canonicalHash (shapeDefinitionFromRequest base)]? = some shape.handle
  active : manager.active? shape.handle = some shape
  hash : shape.hash = canonicalHash (shapeDefinitionFromRequest base)
  definition : shape.definition = shapeDefinitionFromRequest base
  commit : offsetCommit shape.currentOffset ≤ committed
  replays : shape.Replays schema

/-- The client gets to the rows of the shape, from the offset it was handed and on the stream
it has open.  With a stream it was handed an offset past the first. -/
structure Viewer.Follows (viewer : Viewer) (schema : Schema) (shape : State) : Prop where
  handle : viewer.handle = shape.handle
  caughtUp : shape.CaughtUp schema viewer.offset viewer.view
  streams : ∀ position ∈ viewer.stream, shape.CaughtUp schema position viewer.view ∧
    compareOffsets viewer.offset initialOffset = .gt

structure Audience.Sound [Digest] (base : ShapeRequest) (schema : Schema)
    (audience : Audience σ) : Prop where
  linked : audience.manager.Linked
  owned : ∀ handle ∈ audience.manager.byHash[canonicalHash (shapeDefinitionFromRequest base)]?,
    (audience.manager.stateAt handle).hash = canonicalHash (shapeDefinitionFromRequest base)
  follows : ∀ (name : String) (viewer : Viewer), audience.viewers[name]? = some viewer →
    ∃ shape, Serves base schema audience.manager audience.committed shape ∧
      viewer.Follows schema shape

section Invariant

variable [Digest] {base : ShapeRequest} {schema : Schema} {manager next : Manager σ}
  {committed : UInt64} {shape : State} {viewer : Viewer}

theorem Serves.lookup (serves : Serves base schema manager committed shape) :
    manager.lookupByDefinition (shapeDefinitionFromRequest base) = some shape := by
  rw [Manager.lookupByDefinition, serves.indexed]
  exact serves.active

theorem Serves.of_sameShapes (serves : Serves base schema manager committed shape)
    (same : SameShapes manager next) : Serves base schema next committed shape where
  indexed := by
    rw [same.byHash]
    exact serves.indexed
  active := by
    rw [Manager.active?, same.byHandle]
    exact serves.active
  hash := serves.hash
  definition := serves.definition
  commit := serves.commit
  replays := serves.replays

omit [Digest] in
theorem Viewer.Follows.caughtUp_at (follows : viewer.Follows schema shape) {turn : Turn}
    {position : String} (asks : turn.position viewer = some position) :
    shape.CaughtUp schema position viewer.view := by
  cases turn with
  | streams wait => exact (follows.streams position asks).1
  | arrives live liveSSE =>
      obtain rfl := Option.some.inj asks
      exact follows.caughtUp
  | polls wait =>
      obtain rfl := Option.some.inj asks
      exact follows.caughtUp
  | expires =>
      obtain rfl := Option.some.inj asks
      exact follows.caughtUp

omit [Digest] in
theorem SameShapes.stateAt (same : SameShapes manager next) (handle : String) :
    next.stateAt handle = manager.stateAt handle := by
  rw [Manager.stateAt, Manager.stateAt, same.byHandle]

theorem Serves.stateAt (serves : Serves base schema manager committed shape) :
    manager.stateAt shape.handle = shape :=
  Dict.getD_of_getElem? (Manager.active?_eq_some.mp serves.active).1 _

variable [Store σ]

theorem Viewer.Follows.delivers (follows : viewer.Follows schema shape)
    (serves : Serves base schema manager committed shape) {turn : Turn} {position : String}
    (asks : turn.position viewer = some position) (moment : Moment) :
    let served := viewer.continues base turn position moment manager
    SameShapes manager served.2 ∧
      Delivers shape position (Manager.changesAfter shape.changes position) turn served.1 :=
  viewer.continues_delivers serves.active serves.replays.ordered serves.hash follows.handle asks
    (follows.caughtUp_at asks).reaches moment

theorem Audience.Sound.converges {audience : Audience σ} (sound : audience.Sound base schema) :
    audience.Converges base schema := by
  intro name viewer listed turn position asks moment
  obtain ⟨shape, serves, follows⟩ := sound.follows name viewer listed
  obtain ⟨same, delivers⟩ := follows.delivers serves asks moment
  dsimp only
  rw [same.stateAt, follows.handle, serves.stateAt]
  exact delivers.told (follows.caughtUp_at asks).shown

theorem Audience.Converges.caughtUp {audience : Audience σ}
    (converges : audience.Converges base schema) {name : String}
    (listed : audience.viewers[name]? = some viewer)
    (found : audience.manager.active? shape.handle = some shape) (ordered : shape.LogOrdered)
    (same : shape.hash = canonicalHash (shapeDefinitionFromRequest base))
    (own : viewer.handle = shape.handle) :
    shape.CaughtUp schema viewer.offset viewer.view := by
  let moment : Moment := { backend := ⟨fun _ => .error (.other ""), nofun⟩, now := 0 }
  exact viewer.caughtUp_of_told found ordered same own moment
    (converges name viewer listed (.arrives false false) viewer.offset rfl moment)

end Invariant

section Continuations

variable {schema : Schema} {shape : State} {viewer : Viewer} {turn : Turn} {position : String}
  {progress : Progress}

theorem Viewer.Follows.receive (follows : viewer.Follows schema shape)
    (replays : shape.Replays schema) (asks : turn.position viewer = some position)
    (delivers : Delivers shape position (Manager.changesAfter shape.changes position) turn
      progress)
    (meets : turn.opens = true → compareOffsets nowOffset shape.currentOffset ≠ .gt) :
    ∀ next ∈ viewer.receive progress, next.Follows schema shape := by
  have caughtUp := follows.caughtUp_at asks
  have shown := caughtUp.shown
  -- the stream stays where it is when there is nothing to send
  have moved (next : String)
      (moves : next = if (Manager.changesAfter shape.changes position).isEmpty then position
        else shape.currentOffset) :
      shape.CaughtUp schema next
        ((Manager.changesAfter shape.changes position).foldl applyMessage viewer.view) := by
    rw [moves]
    split
    · exact caughtUp.again shown
    · exact replays.ordered.caughtUp shown
  intro next received
  cases delivers with
  | waits single =>
      obtain rfl := Option.some.inj received
      exact follows
  | answers single handle offset sent =>
      obtain rfl := Option.some.inj received
      refine ⟨handle, ?_, by simp⟩
      dsimp only
      rw [offset, sent]
      exact replays.ordered.caughtUp shown
  | @opens live headers body target handle offset sent moves =>
      obtain rfl := Option.some.inj received
      refine ⟨handle, ?_, ?_⟩
      · dsimp only
        rw [offset, sent]
        split
        · exact (replays.caughtUp_now_iff shown).mpr (meets rfl)
        · exact replays.ordered.caughtUp shown
      · rintro known same
        obtain rfl := Option.some.inj same
        dsimp only
        rw [sent]
        refine ⟨moved _ moves, ?_⟩
        rw [offset, compareOffsets_eq_gt]
        split
        · exact initialOffset_lt_nowOffset
        · next some =>
            rw [List.isEmpty_iff] at some
            exact initialOffset_lt_nowOffset.trans (replays.past_now some)
  | @sends wait body target sent moves =>
      obtain rfl := Option.some.inj received
      have opened := follows.streams position asks
      refine ⟨follows.handle, ?_, ?_⟩
      · dsimp only
        rw [sent]
        exact follows.caughtUp.again shown
      · rintro known same
        obtain rfl := Option.some.inj same
        dsimp only
        rw [sent]
        exact ⟨moved _ moves, opened.2⟩

end Continuations

namespace Audience

variable [Digest] {base : ShapeRequest} {schema : Schema} {audience : Audience σ}

theorem Sound.of_sameShapes {next : Audience σ} (sound : audience.Sound base schema)
    (same : SameShapes audience.manager next.manager)
    (follows : ∀ (name : String) (viewer : Viewer), next.viewers[name]? = some viewer →
      ∃ shape, Serves base schema audience.manager next.committed shape ∧
        viewer.Follows schema shape) : next.Sound base schema where
  linked := by
    refine ⟨fun handle state found => ?_, fun hash handle found => ?_⟩
    · rw [same.byHandle] at found
      exact sound.linked.named handle state found
    · rw [same.byHash] at found
      rw [same.byHandle]
      exact sound.linked.known hash handle found
  owned handle found := by
    rw [same.byHash] at found
    rw [same.stateAt]
    exact sound.owned handle found
  follows name viewer listed := by
    obtain ⟨shape, serves, follows⟩ := follows name viewer listed
    exact ⟨shape, serves.of_sameShapes same, follows⟩

variable [Store σ]

theorem Sound.continuation_iff (sound : audience.Sound base schema) (name : String) (turn : Turn)
    (moment : Moment) :
    ((audience.step base (.continuation name turn moment)).Converges base schema →
        audience.Meets base schema (.continuation name turn moment)) ∧
      (audience.Meets base schema (.continuation name turn moment) →
        (audience.step base (.continuation name turn moment)).Sound base schema) := by
  cases listed : audience.viewers[name]? with
  | none =>
      have idle : audience.step base (.continuation name turn moment) = audience := by
        simp only [step, listed]
      rw [idle]
      exact ⟨fun _ _ viewer member => (by rw [listed] at member; cases member), fun _ => sound⟩
  | some viewer =>
      cases asks : turn.position viewer with
      | none =>
          have idle : audience.step base (.continuation name turn moment) = audience := by
            simp only [step, listed, asks]
          rw [idle]
          refine ⟨fun _ opens => ?_, fun _ => sound⟩
          cases turn with
          | arrives live liveSSE => cases asks
          | _ => cases opens
      | some position =>
          obtain ⟨shape, serves, follows⟩ := sound.follows name viewer listed
          obtain ⟨same, delivers⟩ := follows.delivers serves asks moment
          have stepped : audience.step base (.continuation name turn moment) =
              { audience with
                manager := (viewer.continues base turn position moment audience.manager).2
                viewers := audience.viewers.alter name fun _ =>
                  viewer.receive
                    (viewer.continues base turn position moment audience.manager).1 } := by
            simp only [step, listed, asks]
          rw [stepped]
          constructor
          · intro converges opens other member held found
            rw [listed] at member
            obtain rfl := Option.some.inj member
            rw [follows.handle, serves.active] at found
            obtain rfl := Option.some.inj found
            rw [ne_eq, compareOffsets_eq_gt, not_lt]
            obtain ⟨headers, body, target, sent, handle, offset⟩ := delivers.opened opens
            cases quiet : (Manager.changesAfter shape.changes position).isEmpty with
            | false =>
                have logged : Manager.changesAfter shape.changes position ≠ [] := by
                  rw [ne_eq, ← List.isEmpty_iff, quiet]
                  exact Bool.false_ne_true
                exact (serves.replays.past_now logged).le
            | true =>
                rw [quiet, if_pos rfl] at offset
                have kept := serves.of_sameShapes same
                have received : (audience.viewers.alter name fun _ => viewer.receive
                    (viewer.continues base turn position moment audience.manager).1)[name]? =
                      some ⟨headers.handle, headers.offset,
                        (bodyMessages body).foldl applyMessage viewer.view, some target⟩ := by
                  rw [Dict.getElem?_alter, if_pos rfl, sent]
                  rfl
                have caughtUp := converges.caughtUp received kept.active
                  kept.replays.ordered kept.hash handle
                rw [← offset]
                exact caughtUp.reaches.2
          · intro meets
            apply sound.of_sameShapes same
            intro other next found
            dsimp only at found
            rw [Dict.getElem?_alter] at found
            split at found
            · refine ⟨shape, serves, follows.receive serves.replays asks delivers ?_ next found⟩
              intro opens
              apply meets opens viewer listed
              rw [follows.handle]
              exact serves.active
            · exact sound.follows other next found

/-! An initial request registers the rows that it has read. -/

section Registering

variable {snapshot : SnapshotResult} {now : Time}

theorem upsertSnapshot_byHash {manager : Manager σ} {definition : Definition}
    (accepted : manager.Accepts (manager.upsertState definition snapshot initialOffset now)) :
    (manager.upsertSnapshot definition snapshot now).2.byHash =
      manager.byHash.insert (canonicalHash definition) (manager.upsertTarget definition now) := by
  cases named : manager.byHash[canonicalHash definition]? with
  | some handle =>
      simp only [Manager.upsertState, named] at accepted
      simp only [Manager.upsertSnapshot, Manager.upsertSnapshotAtOffset, Manager.upsertTarget,
        named, Manager.persistThen_of_accepts accepted]
      exact Manager.install_byHash _ (.resnapshot _ handle _ _)
  | none =>
      simp only [Manager.upsertState, named] at accepted
      simp only [Manager.upsertSnapshot, Manager.upsertSnapshotAtOffset, Manager.upsertTarget,
        named, Manager.persistThen_of_accepts accepted]
      rfl

omit [Store σ] in
theorem Sound.upsertState_hash (sound : audience.Sound base schema) :
    (audience.manager.upsertState (shapeDefinitionFromRequest base) snapshot initialOffset
      now).hash = canonicalHash (shapeDefinitionFromRequest base) := by
  unfold Manager.upsertState
  cases named : audience.manager.byHash[canonicalHash (shapeDefinitionFromRequest base)]? with
  | some handle => exact sound.owned handle named
  | none => rfl

theorem Sound.registers (sound : audience.Sound base schema)
    (accepted : audience.manager.Accepts (audience.manager.upsertState
      (shapeDefinitionFromRequest base) snapshot initialOffset now))
    (own : snapshot.schema = schema) (table : TableRows schema snapshot.rows) :
    Serves base schema
      (audience.manager.upsertSnapshot (shapeDefinitionFromRequest base) snapshot now).2
      audience.committed
      (audience.manager.upsertState (shapeDefinitionFromRequest base) snapshot initialOffset
        now) := by
  subst own
  have handle := sound.linked.upsertState_handle (shapeDefinitionFromRequest base) snapshot
    initialOffset now
  obtain ⟨existing, made⟩ := audience.manager.upsertState_eq (shapeDefinitionFromRequest base)
    snapshot initialOffset now
  obtain ⟨-, after⟩ := audience.manager.upsertSnapshotAtOffset_of_accepts _ _ _ _ accepted
  refine ⟨?_, ?_, sound.upsertState_hash, ?_, ?_, ?_⟩
  · rw [upsertSnapshot_byHash accepted, Dict.getElem?_insert, if_pos rfl, handle]
  · refine Manager.active?_eq_some.mpr ⟨(after _).trans (if_pos handle.symm), ?_⟩
    rw [made]
    rfl
  · rw [made]
    rfl
  · rw [made]
    show offsetCommit initialOffset ≤ _
    rw [offsetCommit, parseOffset_initialOffset]
    exact UInt64.zero_le
  · rw [made]
    exact existing.replays_resnapshot _ table now

omit [Store σ] in
theorem caughtUp_upsertState_iff (manager : Manager σ) {offset : String} {view : Dict Row}
    (parsed : (parseOffset offset).isSome = true) :
    (manager.upsertState (shapeDefinitionFromRequest base) snapshot initialOffset now).CaughtUp
        snapshot.schema offset view ↔
      compareOffsets offset initialOffset ≠ .gt ∧ shownView snapshot.schema view =
        shownView snapshot.schema (clientView base.relation snapshot.schema
          (materializedRows snapshot.schema snapshot.rows)) := by
  obtain ⟨existing, made⟩ := manager.upsertState_eq (shapeDefinitionFromRequest base)
    snapshot initialOffset now
  rw [made]
  exact State.caughtUp_snapshotted_iff rfl rfl parsed

omit [Store σ] in
theorem Sound.upsertState_handle (sound : audience.Sound base schema) {shape : State}
    {committed : UInt64} (serves : Serves base schema audience.manager committed shape) :
    (audience.manager.upsertState (shapeDefinitionFromRequest base) snapshot initialOffset
      now).handle = shape.handle := by
  rw [sound.linked.upsertState_handle, Manager.upsertTarget, serves.indexed]
  rfl

def registered (base : ShapeRequest) (snapshot : SnapshotResult) (handle : String) : Viewer where
  handle := handle
  offset := initialOffset
  view := snapshotView base.relation snapshot.schema snapshot.rows

theorem serveInitialSnapshot_registers {manager : Manager σ} {moment : Moment}
    (logs : base.log ≠ "changes_only")
    (read : moment.backend.snapshot ⟨shapeDefinitionFromRequest base, .data, true⟩ =
      .ok snapshot)
    (accepted : manager.Accepts (manager.upsertState (shapeDefinitionFromRequest base) snapshot
      initialOffset moment.now)) :
    let served := serveInitialSnapshot moment.backend (initialRequest base)
      (shapeDefinitionFromRequest base) manager moment.now
    newcomer.receive (.answered served.1) = some (registered base snapshot
        (manager.upsertState (shapeDefinitionFromRequest base) snapshot initialOffset
          moment.now).handle) ∧
      served.2 =
        (manager.upsertSnapshot (shapeDefinitionFromRequest base) snapshot moment.now).2 := by
  obtain ⟨result, -⟩ := manager.upsertSnapshotAtOffset_of_accepts _ _ _ _ accepted
  obtain ⟨existing, made⟩ := manager.upsertState_eq (shapeDefinitionFromRequest base)
    snapshot initialOffset moment.now
  have view : (manager.upsertState (shapeDefinitionFromRequest base) snapshot initialOffset
        moment.now).snapshot.foldl applyMessage ∅ =
      snapshotView base.relation snapshot.schema snapshot.rows := by
    rw [made]
    exact (foldl_applyMessage_congr (decorateDependentSnapshotMessages_deed _ _) ∅).trans
      (buildSnapshotMessages_view logs)
  have offset : (manager.upsertState (shapeDefinitionFromRequest base) snapshot initialOffset
      moment.now).currentOffset = initialOffset := by
    rw [made]
    rfl
  have sent (messages : List Message) : bodyMessages
      (messages.map .message ++ [snapshotEndControl snapshot.metadata]) = messages := by
    unfold snapshotEndControl
    cases snapshot.metadata <;> simp [bodyMessages, List.filterMap_map]
  unfold serveInitialSnapshot
  rw [read]
  dsimp only
  cases run : manager.upsertSnapshot (shapeDefinitionFromRequest base) snapshot moment.now with
  | mk outcome next =>
      obtain rfl : outcome = _ := (congrArg Prod.fst run).symm.trans result
      dsimp only
      rw [respond, matchesIfNoneMatch_of_plain (by rfl), if_neg Bool.false_ne_true]
      refine ⟨?_, rfl⟩
      simp [Viewer.receive, successHeaders, registered, newcomer, sent, view, offset]

theorem Sound.initial_iff (sound : audience.Sound base schema)
    (keyed : primaryKeyNames schema ≠ []) (logs : base.log ≠ "changes_only") {name : String}
    {moment : Moment} (admitted : audience.Admits base schema (.initial name moment)) :
    ((audience.step base (.initial name moment)).Converges base schema →
        audience.Meets base schema (.initial name moment)) ∧
      (audience.Meets base schema (.initial name moment) →
        (audience.step base (.initial name moment)).Sound base schema) := by
  cases read : moment.backend.snapshot ⟨shapeDefinitionFromRequest base, .data, true⟩ with
  | error error =>
      have idle : audience.step base (.initial name moment) = audience := by
        simp only [step, serveInitialSnapshot, read]
        cases error <;> rfl
      rw [idle]
      refine ⟨fun _ snapshot member => ?_, fun _ => sound⟩
      rw [read] at member
      cases member
  | ok snapshot =>
      obtain ⟨rfl, table⟩ := admitted snapshot (by rw [read]; rfl)
      have only {other : SnapshotResult} (member : other ∈ (moment.backend.snapshot
          ⟨shapeDefinitionFromRequest base, .data, true⟩).toOption) : snapshot = other := by
        rw [read] at member
        exact Option.some.inj member
      by_cases accepted : audience.manager.Accepts (audience.manager.upsertState
          (shapeDefinitionFromRequest base) snapshot initialOffset moment.now)
      · obtain ⟨received, registers⟩ := serveInitialSnapshot_registers logs read accepted
        have stepped : audience.step base (.initial name moment) =
            { audience with
              manager := (audience.manager.upsertSnapshot (shapeDefinitionFromRequest base)
                snapshot moment.now).2
              viewers := audience.viewers.insert name (registered base snapshot
                (audience.manager.upsertState (shapeDefinitionFromRequest base) snapshot
                  initialOffset moment.now).handle) } := by
          simp only [step, received, registers]
        have serves := sound.registers accepted rfl table
        have parsed : (parseOffset initialOffset).isSome = true := by decide +kernel
        have within : compareOffsets initialOffset initialOffset ≠ .gt := by decide +kernel
        rw [stepped]
        constructor
        · intro converges other member _
          obtain rfl := only member
          have fresh := converges.caughtUp Std.ExtTreeMap.getElem?_insert_self serves.active
            serves.replays.ordered serves.hash rfl
          have differ := (table.snapshotView_iff keyed base.relation).mp
            ((caughtUp_upsertState_iff _ parsed).mp fresh).2
          refine ⟨differ, fun other viewer listed apart => ?_⟩
          obtain ⟨shape, before, follows⟩ := sound.follows other viewer listed
          have caughtUp := converges.caughtUp
            ((Dict.getElem?_insert _ name other _).trans ((if_neg apart.symm).trans listed))
            serves.active
            serves.replays.ordered serves.hash
            (follows.handle.trans (sound.upsertState_handle before).symm)
          obtain ⟨within, shown⟩ :=
            (caughtUp_upsertState_iff _ follows.caughtUp.reaches.1).mp caughtUp
          exact ⟨within, shown.trans ((table.snapshotView_iff keyed base.relation).mpr differ).symm⟩
        · intro meets
          obtain ⟨differ, others⟩ := meets snapshot (by rw [read]; rfl) accepted
          have shown := (table.snapshotView_iff keyed base.relation).mpr differ
          refine ⟨sound.linked.perform ⟨.upsertSnapshot _ snapshot, moment.now⟩, ?_, ?_⟩
          · intro handle named
            rw [serves.indexed] at named
            obtain rfl := Option.some.inj named
            rw [serves.stateAt]
            exact serves.hash
          · intro other viewer listed
            rw [Dict.getElem?_insert] at listed
            split at listed
            · obtain rfl := Option.some.inj listed
              refine ⟨_, serves, rfl, ?_, by simp [registered]⟩
              exact (caughtUp_upsertState_iff _ parsed).mpr ⟨within, shown⟩
            · next apart =>
                obtain ⟨shape, before, follows⟩ := sound.follows other viewer listed
                obtain ⟨within, same⟩ := others other viewer listed (Ne.symm apart)
                refine ⟨_, serves, follows.handle.trans (sound.upsertState_handle before).symm,
                  ?_, ?_⟩
                · exact (caughtUp_upsertState_iff _ follows.caughtUp.reaches.1).mpr
                    ⟨within, same.trans shown⟩
                · intro position opened
                  exact absurd (follows.streams position opened).2 within
      · obtain ⟨error, failed⟩ := audience.manager.upsertSnapshotAtOffset_of_not_accepts
          _ _ _ _ accepted
        have stepped : audience.step base (.initial name moment) =
            { audience with
              manager := audience.manager.offered (audience.manager.upsertState
                (shapeDefinitionFromRequest base) snapshot initialOffset moment.now) } := by
          simp only [step, serveInitialSnapshot, read, Manager.upsertSnapshot, failed]
          rfl
        rw [stepped]
        refine ⟨fun _ other member taken => ?_, fun _ => ?_⟩
        · obtain rfl := only member
          exact absurd taken accepted
        · exact sound.of_sameShapes ⟨rfl, rfl⟩ sound.follows

end Registering

end Audience

/-! A refresh of the shape. -/

section Refreshing

variable [Digest] {base : ShapeRequest} {schema : Schema} {shape : State} {refresh : Refresh}
  {refreshed : State × List Message}

theorem Refresh.sameShape (computed : refresh.computes shape = some refreshed) :
    refreshed.1.SameShape shape := by
  unfold Refresh.computes at computed
  cases asked : refresh.keyRows with
  | some keyRows =>
      rw [asked] at computed
      exact State.refreshKeys_sameShape computed
  | none =>
      rw [asked] at computed
      obtain rfl := Option.some.inj computed
      exact State.refresh_sameShape _ _ _ _

theorem Refresh.grows (computed : refresh.computes shape = some refreshed)
    (replays : shape.Replays schema) (own : refresh.snapshot.schema = schema)
    (table : TableRows schema refresh.snapshot.rows)
    (relation : refresh.metadata.keyRelation = shape.definition.relation)
    (later : offsetCommit shape.currentOffset < refresh.metadata.commitLSN)
    (bound : refreshed.1.changes.length < 2 ^ 63) :
    shape.Grows refreshed.1 schema refresh.metadata.commitLSN refreshed.2 := by
  unfold Refresh.computes at computed
  cases asked : refresh.keyRows with
  | some keyRows =>
      rw [asked] at computed
      exact replays.refreshKeys_grows table own relation later computed bound
  | none =>
      rw [asked] at computed
      obtain rfl := Option.some.inj computed
      exact replays.refresh_grows table own relation later bound

theorem Refresh.keysKept_iff (computed : refresh.computes shape = some refreshed)
    (signed : SignedRows refresh.snapshot.schema shape.materialized) :
    KeysKept refresh.snapshot.schema shape.materialized refreshed.1.materialized ↔
      KeysKept refresh.snapshot.schema shape.materialized
        (materializedRows refresh.snapshot.schema refresh.snapshot.rows) := by
  unfold Refresh.computes at computed
  cases asked : refresh.keyRows with
  | some keyRows =>
      rw [asked] at computed
      rw [State.refreshKeys_materialized computed]
      exact keysKept_overlayRows_iff signed _ _
  | none =>
      rw [asked] at computed
      obtain rfl := Option.some.inj computed
      rw [State.refresh_materialized]

variable [Store σ] {manager : Manager σ} {handle : String}

theorem Refresh.run_eq (found : manager.active? handle = some shape) :
    refresh.run manager handle =
      match refresh.computes shape with
      | none => manager
      | some refreshed => (manager.commitRefresh handle refreshed).2 := by
  have required : manager.requireActive handle = .ok shape :=
    Manager.requireActive_eq_ok.mpr (Manager.active?_eq_some.mp found)
  unfold Refresh.run Refresh.computes
  cases refresh.keyRows with
  | some keyRows =>
      dsimp only
      rw [Manager.refreshKeysWithMetadata, required]
      dsimp only
      cases shape.refreshKeys refresh.snapshot keyRows refresh.metadata refresh.now <;> rfl
  | none =>
      dsimp only
      rw [Manager.refreshWithMetadata, required]

theorem Refresh.run_linked (linked : manager.Linked) :
    (refresh.run manager handle).Linked := by
  unfold Refresh.run
  cases refresh.keyRows with
  | some keyRows =>
      exact linked.perform ⟨.refreshKeysWithMetadata handle refresh.snapshot keyRows
        refresh.metadata, refresh.now⟩
  | none =>
      exact linked.perform ⟨.refreshWithMetadata handle refresh.snapshot refresh.metadata,
        refresh.now⟩

omit [Digest] in
theorem commitRefresh_of_accepts (accepted : manager.Accepts refreshed.1) :
    (manager.commitRefresh handle refreshed).2.byHash = manager.byHash ∧
      ∀ other : String, (manager.commitRefresh handle refreshed).2.byHandle[other]? =
        if handle = other then some refreshed.1 else manager.byHandle[other]? := by
  unfold Manager.commitRefresh
  rw [Manager.persistThen_of_accepts accepted]
  cases refreshed.2.isEmpty with
  | true => exact ⟨rfl, fun other => Manager.putState_byHandle _ _ _ _⟩
  | false => exact ⟨rfl, fun other => Manager.putState_byHandle _ _ _ _⟩

omit [Digest] in
theorem commitRefresh_of_not_accepts (refused : ¬manager.Accepts refreshed.1) :
    SameShapes manager (manager.commitRefresh handle refreshed).2 := by
  unfold Manager.commitRefresh
  obtain ⟨error, failed⟩ := Manager.persistThen_of_not_accepts refused
  rw [failed]
  exact ⟨rfl, rfl⟩

end Refreshing

namespace Audience

variable [Digest] [Store σ] {base : ShapeRequest} {schema : Schema} {audience : Audience σ}

omit [Store σ] in
theorem Sound.unrefreshed (sound : audience.Sound base schema) {next : Manager σ}
    (same : SameShapes audience.manager next) {lsn : UInt64} (later : audience.committed < lsn) :
    ({ audience with manager := next, committed := lsn } : Audience σ).Sound base schema := by
  apply sound.of_sameShapes same
  intro name viewer listed
  obtain ⟨shape, serves, follows⟩ := sound.follows name viewer listed
  exact ⟨shape, ⟨serves.indexed, serves.active, serves.hash, serves.definition,
    UInt64.le_trans serves.commit (UInt64.le_of_lt later), serves.replays⟩, follows⟩

section Installing

variable {shape : State} {refresh : Refresh} {refreshed : State × List Message} {name : String}
  {viewer : Viewer}

omit [Store σ] in
theorem Sound.serves (sound : audience.Sound base schema)
    (looked : audience.manager.lookupByDefinition (shapeDefinitionFromRequest base) = some shape)
    (listed : audience.viewers[name]? = some viewer) :
    Serves base schema audience.manager audience.committed shape ∧
      viewer.Follows schema shape := by
  obtain ⟨other, serves, follows⟩ := sound.follows name viewer listed
  obtain rfl := Option.some.inj (serves.lookup.symm.trans looked)
  exact ⟨serves, follows⟩

omit [Store σ] in
theorem Admits.grows (admitted : audience.Admits base schema (.refresh refresh))
    (serves : Serves base schema audience.manager audience.committed shape)
    (computed : refresh.computes shape = some refreshed) :
    shape.Grows refreshed.1 schema refresh.metadata.commitLSN refreshed.2 := by
  obtain ⟨relation, later, own, table, bound⟩ := admitted
  apply Refresh.grows computed serves.replays own table
  · rw [relation, serves.definition]
    rfl
  · exact UInt64.lt_of_le_of_lt serves.commit later
  · exact bound shape serves.lookup refreshed computed

theorem installed_active {manager : Manager σ}
    (found : manager.active? shape.handle = some shape)
    (computed : refresh.computes shape = some refreshed)
    (accepted : manager.Accepts refreshed.1) :
    (manager.commitRefresh shape.handle refreshed).2.active? refreshed.1.handle =
      some refreshed.1 := by
  have same := Refresh.sameShape computed
  refine Manager.active?_eq_some.mpr ⟨?_, ?_⟩
  · rw [(commitRefresh_of_accepts accepted).2, if_pos same.handle.symm]
  · exact same.deleted.trans (Manager.active?_eq_some.mp found).2

theorem Sound.installed_iff (sound : audience.Sound base schema)
    (keyed : primaryKeyNames schema ≠ [])
    (admitted : audience.Admits base schema (.refresh refresh))
    (looked : audience.manager.lookupByDefinition (shapeDefinitionFromRequest base) = some shape)
    (computed : refresh.computes shape = some refreshed)
    (accepted : audience.manager.Accepts refreshed.1)
    (stepped : audience.step base (.refresh refresh) =
      { audience with
        manager := (audience.manager.commitRefresh shape.handle refreshed).2
        committed := refresh.metadata.commitLSN }) :
    ((audience.step base (.refresh refresh)).Converges base schema →
        audience.Meets base schema (.refresh refresh)) ∧
      (audience.Meets base schema (.refresh refresh) →
        (audience.step base (.refresh refresh)).Sound base schema) := by
  have found := active?_of_lookupByDefinition sound.linked looked
  have same := Refresh.sameShape computed
  have active := installed_active found computed accepted
  obtain ⟨byHash, byHandle⟩ :=
    @commitRefresh_of_accepts _ refreshed _ audience.manager shape.handle accepted
  have kept (signed : SignedRows schema shape.materialized) := Refresh.keysKept_iff computed
    (show SignedRows refresh.snapshot.schema _ from admitted.2.2.1 ▸ signed)
  rw [admitted.2.2.1] at kept
  constructor
  · rw [stepped]
    intro converges other member made makes _ name viewer listed
    rw [looked] at member
    obtain rfl := Option.some.inj member
    rw [computed] at makes
    obtain rfl := Option.some.inj makes
    obtain ⟨serves, follows⟩ := sound.serves looked listed
    have grows := admitted.grows serves computed
    have caughtUp := converges.caughtUp listed active grows.ordered
      (same.hash.trans serves.hash) (follows.handle.trans same.handle.symm)
    rw [← kept serves.replays.filed.signed]
    exact (grows.caughtUp_iff keyed follows.caughtUp).mp caughtUp
  · intro meets
    have linked : (audience.step base (.refresh refresh)).manager.Linked := by
      simp only [step, looked]
      exact refresh.run_linked sound.linked
    rw [stepped] at linked ⊢
    refine ⟨linked, ?_, ?_⟩
    · intro handle named
      dsimp only at named ⊢
      rw [byHash] at named
      have owned := sound.owned handle named
      rw [Manager.stateAt, Std.ExtTreeMap.getD_eq_getD_getElem?, byHandle]
      split
      · next own =>
          rw [← own, Manager.stateAt,
            Dict.getD_of_getElem? (Manager.active?_eq_some.mp found).1] at owned
          exact same.hash.trans owned
      · rw [← Std.ExtTreeMap.getD_eq_getD_getElem?]
        exact owned
    · intro name viewer listed
      obtain ⟨serves, follows⟩ := sound.serves looked listed
      have grows := admitted.grows serves computed
      have keeps := (kept serves.replays.filed.signed).mpr
        (meets shape looked refreshed computed accepted name viewer listed)
      refine ⟨refreshed.1, ⟨?_, active, same.hash.trans serves.hash,
        same.definition.trans serves.definition, grows.commit,
        grows.replays keyed serves.replays keeps⟩,
        follows.handle.trans same.handle.symm,
        (grows.caughtUp_iff keyed follows.caughtUp).mpr keeps, ?_⟩
      · rw [same.handle]
        dsimp only
        rw [byHash]
        exact serves.indexed
      · intro position opened
        obtain ⟨caughtUp, past⟩ := follows.streams position opened
        exact ⟨(grows.caughtUp_iff keyed caughtUp).mpr keeps, past⟩

end Installing

theorem Sound.refresh_iff (sound : audience.Sound base schema)
    (keyed : primaryKeyNames schema ≠ []) {refresh : Refresh}
    (admitted : audience.Admits base schema (.refresh refresh)) :
    ((audience.step base (.refresh refresh)).Converges base schema →
        audience.Meets base schema (.refresh refresh)) ∧
      (audience.Meets base schema (.refresh refresh) →
        (audience.step base (.refresh refresh)).Sound base schema) := by
  have later := admitted.2.1
  cases looked : audience.manager.lookupByDefinition (shapeDefinitionFromRequest base) with
  | none =>
      refine ⟨fun _ shape member => ?_, fun _ => ?_⟩
      · rw [looked] at member
        cases member
      · simp only [step, looked]
        exact sound.unrefreshed ⟨rfl, rfl⟩ later
  | some shape =>
      have found := active?_of_lookupByDefinition sound.linked looked
      have run := @Refresh.run_eq _ _ shape refresh _ _ _ found
      cases computed : refresh.computes shape with
      | none =>
          rw [computed] at run
          refine ⟨fun _ other member refreshed makes => ?_, fun _ => ?_⟩
          · rw [looked] at member
            obtain rfl := Option.some.inj member
            rw [computed] at makes
            cases makes
          · simp only [step, looked, run]
            exact sound.unrefreshed ⟨rfl, rfl⟩ later
      | some refreshed =>
          rw [computed] at run
          by_cases accepted : audience.manager.Accepts refreshed.1
          · apply sound.installed_iff keyed admitted looked computed accepted
            simp only [step, looked, run]
          · refine ⟨fun _ other member made makes taken => ?_, fun _ => ?_⟩
            · rw [looked] at member
              obtain rfl := Option.some.inj member
              rw [computed] at makes
              obtain rfl := Option.some.inj makes
              exact absurd taken accepted
            · simp only [step, looked, run]
              exact sound.unrefreshed (commitRefresh_of_not_accepts accepted) later

theorem Sound.move_iff (sound : audience.Sound base schema)
    (keyed : primaryKeyNames schema ≠ []) (logs : base.log ≠ "changes_only") {move : Move}
    (admitted : audience.Admits base schema move) :
    ((audience.step base move).Converges base schema → audience.Meets base schema move) ∧
      (audience.Meets base schema move → (audience.step base move).Sound base schema) := by
  cases move with
  | initial name moment => exact sound.initial_iff keyed logs admitted
  | continuation name turn moment => exact sound.continuation_iff name turn moment
  | refresh refresh => exact sound.refresh_iff keyed admitted

theorem Sound.of_arises {manager : Manager σ} (arises : Arises manager) (committed : UInt64) :
    (⟨manager, committed, ∅⟩ : Audience σ).Sound base schema where
  linked := arises.indexed.linked
  owned handle named := by
    obtain ⟨state, found, -, hash⟩ := arises.indexed.sound _ handle named
    have held : manager.stateAt handle = state := Dict.getD_of_getElem? found _
    rw [held]
    exact hash
  follows := by simp

end Audience

/-- The clients are told what they may be told in every state of a run exactly when every move
meets the condition. -/
theorem continuations_converge_iff [Digest] [Store σ] {base : ShapeRequest} {schema : Schema}
    (keyed : primaryKeyNames schema ≠ []) (logs : base.log ≠ "changes_only")
    {manager : Manager σ} (arises : Arises manager) (committed : UInt64) (moves : List Move)
    (admitted : Along (Audience.step base) (Audience.Admits base schema)
      ⟨manager, committed, ∅⟩ moves) :
    (∀ part, part <+: moves →
        (part.foldl (Audience.step base) ⟨manager, committed, ∅⟩).Converges base schema) ↔
      Along (Audience.step base) (Audience.Meets base schema) ⟨manager, committed, ∅⟩ moves := by
  have sound : (⟨manager, committed, ∅⟩ : Audience σ).Sound base schema :=
    .of_arises arises committed
  apply Along.throughout_iff_of_admits (Audience.Sound base schema)
  · intro audience move sound _ admitted converges
    obtain ⟨meets, kept⟩ := sound.move_iff keyed logs admitted
    exact kept (meets converges)
  · intro audience move sound _ admitted
    obtain ⟨meets, kept⟩ := sound.move_iff keyed logs admitted
    exact ⟨meets, fun met => (kept met).converges⟩
  · exact sound
  · exact sound.converges
  · exact admitted

/-! Two clients of a table of items. -/

def itemsMoment (rows : List Row) (now : Time) : Moment where
  backend := itemsBackend rows
  now := now

def itemsRefresh (rows : List Row) (lsn : UInt64) (now : Time) : Refresh where
  keyRows := none
  snapshot := ⟨itemsSchema, rows, none⟩
  metadata := { keyRelation := ⟨"public", "items"⟩, commitLSN := lsn }
  now := now

def itemsAudience : Audience MemoryStore where
  manager := (Manager.newManager newMemoryStore).2

/-- Both clients come before the first change, one goes on by requests and one on a stream. -/
def sharedRun : List Move :=
  [.initial "a" (itemsMoment [itemRow "1" "one"] 1000),
    .initial "b" (itemsMoment [itemRow "1" "one"] 2000),
    .refresh (itemsRefresh [itemRow "1" "one", itemRow "2" "two"] 100 3000),
    .continuation "a" (.arrives false false) (itemsMoment [] 4000),
    .continuation "b" (.arrives true true) (itemsMoment [] 5000),
    .refresh (itemsRefresh [itemRow "2" "two"] 200 6000),
    .continuation "b" (.streams .polling) (itemsMoment [] 7000)]

theorem continuations_converge_shared :
    letI := tabulatedDigest
    (∀ part, part <+: sharedRun →
      (part.foldl (Audience.step (itemsRequest "")) itemsAudience).Converges (itemsRequest "")
        itemsSchema) ∧
      ∃ viewer ∈ (sharedRun.foldl (Audience.step (itemsRequest "")) itemsAudience).viewers["b"]?,
        viewer.stream = some "200_0" ∧ viewer.view.toList.map (·.2) = [itemRow "2" "two"] :=
  ⟨(@continuations_converge_iff _ tabulatedDigest _ (itemsRequest "") itemsSchema
      (by decide +kernel) (by decide +kernel) _
      (@Arises.loaded _ tabulatedDigest _ newMemoryStore [] rfl List.nodup_nil) 0 sharedRun
      (by decide +kernel)).mpr (by decide +kernel),
    by decide +kernel⟩

/-- A client has got to the first change when another makes its initial request. -/
def lateRun : List Move :=
  [.initial "a" (itemsMoment [itemRow "1" "one"] 1000),
    .refresh (itemsRefresh [itemRow "1" "one", itemRow "2" "two"] 100 2000),
    .continuation "a" (.arrives false false) (itemsMoment [] 3000),
    .initial "b" (itemsMoment [itemRow "1" "one", itemRow "2" "two"] 4000)]

/-- The rows have changed when another client makes its initial request. -/
def staleRun : List Move :=
  [.initial "a" (itemsMoment [itemRow "1" "one"] 1000),
    .initial "b" (itemsMoment [itemRow "1" "one", itemRow "2" "two"] 2000)]

def plainContinuation [Digest] [Store σ] (viewer : Viewer) (manager : Manager σ) :
    Progress × Manager σ :=
  viewer.continues (itemsRequest "") (.arrives false false) viewer.offset (itemsMoment [] 5000)
    manager

theorem Audience.not_converges [Digest] [Store σ] {audience : Audience σ} {name : String}
    (untold : ∃ viewer ∈ audience.viewers[name]?,
      ¬(plainContinuation viewer audience.manager).1.Told itemsSchema
        ((plainContinuation viewer audience.manager).2.stateAt viewer.handle) viewer.view) :
    ¬audience.Converges (itemsRequest "") itemsSchema := by
  obtain ⟨viewer, listed, untold⟩ := untold
  intro converges
  exact untold (converges name viewer listed (.arrives false false) viewer.offset rfl _)

/-- The snapshot of another client takes the shape back to its first offset.  A client that has
gone on from there is out of bounds, and one that has not is told that it is up to date. -/
theorem continuations_diverge :
    letI := tabulatedDigest
    let late := lateRun.foldl (Audience.step (itemsRequest "")) itemsAudience
    let stale := staleRun.foldl (Audience.step (itemsRequest "")) itemsAudience
    (Along (Audience.step (itemsRequest "")) (Audience.Admits (itemsRequest "") itemsSchema)
        itemsAudience lateRun ∧
      (∃ viewer ∈ late.viewers["a"]?, viewer.offset = "100_0" ∧
        (plainContinuation viewer late.manager).1 =
          .answered (.invalidRequest "offset" "out of bounds for this shape")) ∧
      ¬late.Converges (itemsRequest "") itemsSchema) ∧
    Along (Audience.step (itemsRequest "")) (Audience.Admits (itemsRequest "") itemsSchema)
        itemsAudience staleRun ∧
      (∃ viewer ∈ stale.viewers["a"]?, viewer.offset = "0_0" ∧
        (plainContinuation viewer stale.manager).1 =
          .answered (.success
            ⟨"fa19db76c4-1", "0_0", false, true, "fa19db76c4-1:0_0:0_0:5000"⟩ [.upToDate ""]) ∧
        ¬(stale.manager.stateAt viewer.handle).ShownBy itemsSchema viewer.view) ∧
      ¬stale.Converges (itemsRequest "") itemsSchema :=
  ⟨⟨by decide +kernel, by decide +kernel,
      @Audience.not_converges _ tabulatedDigest _ _ "a" (by decide +kernel)⟩,
    by decide +kernel, by decide +kernel,
    @Audience.not_converges _ tabulatedDigest _ _ "a" (by decide +kernel)⟩

end PostgresSync.Protocol
