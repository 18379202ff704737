import PostgresSync.Data.Run
import PostgresSync.Protocol.MustRefetch
import PostgresSync.Shapes.LogReads

namespace PostgresSync.Protocol

open PostgresSync.Data
open PostgresSync.Shapes
open PostgresSync.Storage

/-! Clients of one shape.  A client has at most one continuation request out, and
sends the next one from the offset that it was last given. -/

/-- `start` and `upTo` count the messages that were in the log when the shape was at
the client's first offset, and when the client was last given something. -/
structure Client where
  offset : String
  delivered : List Message := []
  asking : Option (ShapeRequest × Phase) := none
  start : Nat
  upTo : Nat

/-- `marks` are the offsets that the shape has been at, with the length of the log. -/
structure Delivery (σ : Type) where
  manager : Manager σ
  marks : List (String × Nat)
  clients : List Client := []

/-- What happens to the shape and its clients.  `elsewhere` is anything that the
manager does to other shapes and to the waiters. -/
inductive DeliveryStep (σ : Type) where
  | refresh (snapshot : SnapshotResult) (metadata : ChangeMetadata) (now : Time)
  | refreshKeys (snapshot : SnapshotResult) (keyRows : List Row)
      (metadata : ChangeMetadata) (now : Time)
  | elsewhere (manager : Manager σ)
  | join (mark : Nat)
  | ask (id : Nat) (request : ShapeRequest)
  | serve (id : Nat) (now : Time) (fresh : Nat) (wake : Manager.Wake)
  | disconnect (id : Nat)

def bodyMessages (body : List BodyItem) : List Message :=
  body.filterMap fun item =>
    match item with
    | .message message => some message
    | _ => none

@[simp] theorem bodyMessages_messagesToBody (messages : List Message) (lsn : String) :
    bodyMessages (messagesToBody messages lsn) = messages := by
  simp [bodyMessages, messagesToBody, List.filterMap_map]

def Progress.fails : Progress → Bool
  | .pending _ => false
  | .answered (.success _ _) => false
  | .answered _ => true
  | .streamed _ _ _ => false
  | .ended _ => true

def Client.receive (client : Client) (request : ShapeRequest) (logged : Nat) :
    Progress → Client
  | .pending phase => { client with asking := some (request, phase) }
  | .answered (.success headers body) =>
      { client with
        offset := headers.offset
        delivered := client.delivered ++ bodyMessages body
        asking := none
        upTo := logged }
  | .answered _ => { client with asking := none }
  | .streamed _ body phase =>
      { client with
        offset :=
          match phase with
          | .streaming currentOffset _ => currentOffset
          | _ => client.offset
        delivered := client.delivered ++ bodyMessages body
        asking := some (request, phase)
        upTo := logged }
  | .ended _ => { client with asking := none }

namespace Delivery

variable [Digest] [Store σ]

def log (system : Delivery σ) (handle : String) : List Message :=
  (system.manager.stateAt handle).changes

def refreshed (system : Delivery σ) (handle : String) (manager : Manager σ) : Delivery σ :=
  let state := manager.stateAt handle
  { system with
    manager := manager
    marks := system.marks ++ [(state.currentOffset, state.changes.length)] }

def step (backend : Backend) (handle : String) (system : Delivery σ) :
    DeliveryStep σ → Delivery σ
  | .refresh snapshot metadata now =>
      system.refreshed handle
        (system.manager.refreshWithMetadata handle snapshot metadata now).2
  | .refreshKeys snapshot keyRows metadata now =>
      system.refreshed handle
        (system.manager.refreshKeysWithMetadata handle snapshot keyRows metadata now).2
  | .elsewhere manager => { system with manager := manager }
  | .join mark =>
      match system.marks[mark]? with
      | none => system
      | some (offset, logged) =>
          { system with
            clients := system.clients ++ [{ offset := offset, start := logged, upTo := logged }] }
  | .ask id request =>
      match system.clients[id]? with
      | some client =>
          if client.asking.isSome then
            system
          else
            let request := { request with
              handle := handle, offset := client.offset, ifNoneMatch := "" }
            { system with
              clients := system.clients.set id
                { client with asking := some (request, .received) } }
      | none => system
  | .serve id now fresh wake =>
      match system.clients[id]? with
      | some client =>
          match client.asking with
          | none => system
          | some (request, phase) =>
              let served := stepContinuation backend request
                (shapeDefinitionFromRequest request) system.manager now fresh wake phase
              { system with
                manager := served.2
                clients := system.clients.set id
                  (client.receive request (system.log handle).length served.1) }
      | none => system
  | .disconnect id =>
      match system.clients[id]? with
      | some client =>
          { system with clients := system.clients.set id { client with asking := none } }
      | none => system

end Delivery

/-! What a client holds. -/

section Clients

variable [Digest] {handle : String} {state : State} {client : Client}

def Asks (handle : String) (state : State) (offset : String) (request : ShapeRequest)
    (phase : Phase) : Prop :=
  request.handle = handle ∧ request.ifNoneMatch = "" ∧
    sameShapeDefinition state (shapeDefinitionFromRequest request) = true ∧
    match phase with
    | .received => request.offset = offset
    | .longPoll _ | .expired => request.offset = offset ∧ request.liveSSE = false
    | .streaming currentOffset _ => currentOffset = offset

/-- The client has been given the messages that were logged between its start and its
last read. -/
structure Follows (handle : String) (state : State) (client : Client) : Prop where
  marked : state.Marked client.offset client.upTo
  started : client.start ≤ client.upTo
  delivered : client.delivered = (state.changes.take client.upTo).drop client.start
  asks : ∀ request phase, client.asking = some (request, phase) →
    Asks handle state client.offset request phase

theorem asks_none {offset : String} (request : ShapeRequest) (phase : Phase)
    (asking : none = some (request, phase)) : Asks handle state offset request phase := by
  cases asking

theorem Follows.extends {next : State} {appended : List Message}
    (follows : Follows handle state client) (extended : state.Extends next appended) :
    Follows handle next client where
  marked := follows.marked.extends extended
  started := follows.started
  delivered := by
    rw [extended.changes, List.take_append_of_le_length follows.marked.splits.bound]
    exact follows.delivered
  asks request phase asking := by
    obtain ⟨own, plain, same, continues⟩ := follows.asks request phase asking
    refine ⟨own, plain, ?_, continues⟩
    unfold sameShapeDefinition at same ⊢
    rw [extended.shape.hash]
    exact same

theorem Follows.withAsking (follows : Follows handle state client)
    {asking : Option (ShapeRequest × Phase)}
    (asks : ∀ request phase, asking = some (request, phase) →
      Asks handle state client.offset request phase) :
    Follows handle state { client with asking := asking } :=
  ⟨follows.marked, follows.started, follows.delivered, asks⟩

theorem Follows.caughtUp (follows : Follows handle state client)
    (ordered : state.LogOrdered) {asking : Option (ShapeRequest × Phase)}
    (asks : ∀ request phase, asking = some (request, phase) →
      Asks handle state state.currentOffset request phase) :
    Follows handle state
      { client with
        offset := state.currentOffset
        delivered := client.delivered ++ state.changes.drop client.upTo
        asking := asking
        upTo := state.changes.length } where
  marked := ordered.marked
  started := follows.started.trans follows.marked.splits.bound
  delivered := by
    have read := follows.marked.splits.read follows.started
    rw [follows.marked.splits.filter_eq_drop] at read
    rw [follows.delivered]
    exact read
  asks := asks

omit [Digest] in
theorem matchesIfNoneMatch_of_plain {request : ShapeRequest} (plain : request.ifNoneMatch = "")
    (state : State) (noChanges : Bool) (now : Time) :
    matchesIfNoneMatch request state noChanges now = false := by
  unfold matchesIfNoneMatch
  rw [plain]
  apply decide_eq_false
  intro equal
  have lists := congrArg String.toList equal
  simp at lists

variable {manager : Manager σ}

omit [Digest] in
theorem waitForChange_marked (found : manager.byHandle[handle]? = some state)
    (active : state.deleted = false) (ordered : state.LogOrdered) {offset : String} {n : Nat}
    (marked : state.Marked offset n) (fresh : Nat) (wake : Manager.Wake)
    (phase : Manager.WaitPhase) :
    (manager.waitForChange handle offset fresh wake phase).2.byHandle = manager.byHandle ∧
      ((∃ next, (manager.waitForChange handle offset fresh wake phase).1 = .pending next) ∨
        (manager.waitForChange handle offset fresh wake phase).1 = .deadlineExceeded ∨
        (manager.waitForChange handle offset fresh wake phase).1 =
          .returned (.ok (state, state.changes.drop n))) := by
  have answer := Manager.read_marked found active ordered marked
  have locked : manager.readLocked handle offset =
      .ok (state, state.changes.drop n) := answer
  cases phase with
  | polling =>
      rw [Manager.waitForChange, answer]
      cases rest : state.changes.drop n with
      | nil => exact ⟨rfl, .inl ⟨_, rfl⟩⟩
      | cons message messages => exact ⟨rfl, .inr (.inr rfl)⟩
  | registering =>
      rw [Manager.waitForChange, locked]
      cases rest : state.changes.drop n with
      | nil => exact ⟨rfl, .inl ⟨_, rfl⟩⟩
      | cons message messages => exact ⟨rfl, .inr (.inr rfl)⟩
  | waiting waiter =>
      cases wake with
      | deadline => exact ⟨rfl, .inr (.inl rfl)⟩
      | notified =>
          rw [Manager.waitForChange]
          split
          · exact ⟨rfl, .inr (.inr (by rw [answer]))⟩
          · exact ⟨rfl, .inl ⟨_, rfl⟩⟩

theorem Follows.answered (follows : Follows handle state client)
    (ordered : state.LogOrdered) {request : ShapeRequest} (plain : request.ifNoneMatch = "")
    (single : request.liveSSE = false) (now : Time) :
    let answer := Progress.answered
      (answerContinuation request state (state.changes.drop client.upTo) now)
    Follows handle state (client.receive request state.changes.length answer) ∧
      answer.fails = false := by
  have caught := follows.caughtUp ordered asks_none
  constructor
  · simpa [answerContinuation, respond, matchesIfNoneMatch_of_plain plain, Client.receive,
      successHeaders, single] using caught
  · simp [answerContinuation, respond, matchesIfNoneMatch_of_plain plain, Progress.fails]

theorem Follows.streamed (follows : Follows handle state client)
    (ordered : state.LogOrdered) {request : ShapeRequest}
    (same : sameShapeDefinition state (shapeDefinitionFromRequest request) = true)
    (own : request.handle = handle) (plain : request.ifNoneMatch = "")
    {headers : Option SuccessHeaders} {body : List BodyItem} {currentOffset : String}
    (sends : bodyMessages body = state.changes.drop client.upTo)
    (moves : currentOffset =
      if (state.changes.drop client.upTo).isEmpty then client.offset
      else state.currentOffset) :
    let part := Progress.streamed headers body (.streaming currentOffset .polling)
    Follows handle state (client.receive request state.changes.length part) ∧
      part.fails = false := by
  have current : currentOffset = state.currentOffset := by
    rw [moves]
    split
    · next nothing =>
        apply follows.marked.last
        have bound := follows.marked.splits.bound
        have ended := List.drop_eq_nil_iff.mp (List.isEmpty_iff.mp nothing)
        omega
    · rfl
  subst current
  have caught := follows.caughtUp ordered
    (show ∀ next phase, some (request, Phase.streaming state.currentOffset .polling) =
        some (next, phase) → Asks handle state state.currentOffset next phase by
      intro next phase asking
      obtain ⟨rfl, rfl⟩ := Prod.mk.inj (Option.some.inj asking)
      exact ⟨own, plain, same, rfl⟩)
  rw [← sends] at caught
  exact ⟨caught, rfl⟩

variable [Store σ]

theorem Follows.serve (follows : Follows handle state client)
    (found : manager.byHandle[handle]? = some state) (active : state.deleted = false)
    (ordered : state.LogOrdered) {request : ShapeRequest} {phase : Phase}
    (asking : client.asking = some (request, phase)) (backend : Backend) (now : Time)
    (fresh : Nat) (wake : Manager.Wake) :
    let served := stepContinuation backend request (shapeDefinitionFromRequest request)
      manager now fresh wake phase
    served.2.byHandle = manager.byHandle ∧
      Follows handle state (client.receive request state.changes.length served.1) ∧
      served.1.fails = false := by
  obtain ⟨own, plain, same, continues⟩ := follows.asks request phase asking
  have pends : ∀ next, Asks handle state client.offset request next →
      Follows handle state (client.receive request state.changes.length (.pending next)) ∧
        (Progress.pending next).fails = false := by
    intro next asks
    refine ⟨follows.withAsking ?_, rfl⟩
    intro other phase equal
    obtain ⟨rfl, rfl⟩ := Prod.mk.inj (Option.some.inj equal)
    exact asks
  have wait := waitForChange_marked found active ordered follows.marked fresh wake
  have read := Manager.read_marked found active ordered follows.marked
  cases phase with
  | received =>
      have continues : request.offset = client.offset := continues
      dsimp only [stepContinuation, serveContinuation]
      rw [own, continues, read]
      dsimp only
      rw [if_neg (by simp [same])]
      cases stream : request.liveSSE with
      | true =>
          rw [if_pos rfl]
          refine ⟨rfl, ?_⟩
          unfold openLiveSSE
          dsimp only
          rw [matchesIfNoneMatch_of_plain plain, if_neg Bool.false_ne_true]
          cases rest : state.changes.drop client.upTo with
          | nil =>
              exact follows.streamed ordered same own plain (by simp [rest, bodyMessages])
                (by simp [rest, continues])
          | cons message messages =>
              exact follows.streamed ordered same own plain (by simp [rest]) (by simp [rest])
      | false =>
          rw [if_neg Bool.false_ne_true]
          split
          · exact ⟨rfl, pends _ ⟨own, plain, same, continues, stream⟩⟩
          · exact ⟨rfl, follows.answered ordered plain stream now⟩
  | longPoll phase =>
      obtain ⟨continues, single⟩ : request.offset = client.offset ∧ request.liveSSE = false :=
        continues
      obtain ⟨kept, outcome⟩ := wait phase
      dsimp only [stepContinuation]
      rw [own, continues]
      cases run : manager.waitForChange handle client.offset fresh wake phase with
      | mk progress next =>
          rw [run] at kept outcome
          dsimp only at outcome
          rcases outcome with ⟨later, rfl⟩ | rfl | rfl
          · exact ⟨kept, pends _ ⟨own, plain, same, continues, single⟩⟩
          · exact ⟨kept, pends _ ⟨own, plain, same, continues, single⟩⟩
          · exact ⟨kept, follows.answered ordered plain single now⟩
  | expired =>
      obtain ⟨continues, single⟩ : request.offset = client.offset ∧ request.liveSSE = false :=
        continues
      dsimp only [stepContinuation]
      rw [own, continues, read]
      exact ⟨rfl, follows.answered ordered plain single now⟩
  | streaming currentOffset phase =>
      obtain rfl : currentOffset = client.offset := continues
      obtain ⟨kept, outcome⟩ := wait phase
      dsimp only [stepContinuation]
      rw [own]
      cases run : manager.waitForChange handle client.offset fresh wake phase with
      | mk progress next =>
          rw [run] at kept outcome
          dsimp only at outcome
          rcases outcome with ⟨later, rfl⟩ | rfl | rfl
          · exact ⟨kept, pends _ ⟨own, plain, same, rfl⟩⟩
          · exact ⟨kept, pends _ ⟨own, plain, same, rfl⟩⟩
          · refine ⟨kept, ?_⟩
            dsimp only [streamChange]
            cases rest : state.changes.drop client.upTo with
            | nil =>
                exact follows.streamed ordered same own plain
                  (by simp [rest, bodyMessages]) (by simp [rest])
            | cons message messages =>
                exact follows.streamed ordered same own plain (by simp [rest])
                  (by simp [rest])

end Clients

/-! The shape and all its clients. -/

namespace Delivery

variable [Digest] [Store σ] {handle : String} {system : Delivery σ}

/-- Every offset that the shape has been at is a mark of its log, and every client has
what it has asked for. -/
structure Exact (handle : String) (system : Delivery σ) (state : State) : Prop where
  found : system.manager.byHandle[handle]? = some state
  active : state.deleted = false
  ordered : state.LogOrdered
  marks : ∀ mark ∈ system.marks, state.Marked mark.1 mark.2
  clients : ∀ client ∈ system.clients, Follows handle state client

variable {state : State} {manager : Manager σ}

omit [Store σ] in
theorem Exact.log_eq (exact : Exact handle system state) :
    system.log handle = state.changes := by
  rw [log, Manager.stateAt_of_records exact.found]

omit [Store σ] in
theorem Exact.refreshed {next : State} {appended : List Message}
    (exact : Exact handle system state)
    (installed : manager.byHandle[handle]? = some next) (ordered : next.LogOrdered)
    (extended : state.Extends next appended) :
    Exact handle (system.refreshed handle manager) next := by
  have held : manager.stateAt handle = next := Manager.stateAt_of_records installed
  refine ⟨installed, extended.shape.deleted.trans exact.active, ordered, ?_, ?_⟩
  · intro mark member
    rcases List.mem_append.mp member with old | new
    · exact (exact.marks mark old).extends extended
    · rw [List.mem_singleton.mp new, held]
      exact ordered.marked
  · intro client member
    exact (exact.clients client member).extends extended

omit [Digest] in
theorem extends_self (state : State) : state.Extends state [] :=
  ⟨.refl state, by simp, rfl, by simp⟩

/-- The commits of the refreshes grow, the requests are for this shape, what happens
elsewhere leaves the shape alone, and the log is short enough for a slice. -/
def Admissible (backend : Backend) (handle : String) (system : Delivery σ)
    (step : DeliveryStep σ) : Prop :=
  (match step with
    | .refresh _ metadata _ => metadata.Later (system.manager.stateAt handle)
    | .refreshKeys _ _ metadata _ => metadata.Later (system.manager.stateAt handle)
    | .elsewhere manager =>
        manager.byHandle[handle]? = system.manager.byHandle[handle]?
    | .ask _ request =>
        sameShapeDefinition (system.manager.stateAt handle)
          (shapeDefinitionFromRequest request) = true
    | _ => True) ∧
    ((system.step backend handle step).log handle).length < 2 ^ 63

theorem Exact.commitRefresh (exact : Exact handle system state)
    {refreshed : State × List Message}
    (performed : manager = (system.manager.commitRefresh handle refreshed).2)
    (extended : refreshed.1.changes.length < 2 ^ 63 →
      refreshed.1.LogOrdered ∧ state.Extends refreshed.1 refreshed.2)
    (bound : (manager.stateAt handle).changes.length < 2 ^ 63) :
    ∃ next, Exact handle (system.refreshed handle manager) next := by
  rcases system.manager.commitRefresh_outcome handle refreshed with
    ⟨-, after⟩ | ⟨error, -, after⟩
  · have installed : manager.byHandle[handle]? = some refreshed.1 := by
      rw [performed]
      exact (after handle).trans (if_pos rfl)
    rw [Manager.stateAt_of_records installed] at bound
    obtain ⟨ordered, extended⟩ := extended bound
    exact ⟨_, exact.refreshed installed ordered extended⟩
  · rw [← performed] at after
    exact ⟨_, exact.refreshed (after ▸ exact.found) exact.ordered (extends_self state)⟩

theorem Exact.refresh (exact : Exact handle system state) {snapshot : SnapshotResult}
    {metadata : ChangeMetadata} {now : Time}
    (later : metadata.Later state)
    (performed : manager =
      (system.manager.refreshWithMetadata handle snapshot metadata now).2)
    (bound : (manager.stateAt handle).changes.length < 2 ^ 63) :
    ∃ next, Exact handle (system.refreshed handle manager) next := by
  rcases Manager.refreshWithMetadata_outcome exact.found snapshot metadata now with
    ⟨deleted, -⟩ | ⟨-, outcome⟩
  · rw [exact.active] at deleted
    cases deleted
  · rw [outcome] at performed
    exact exact.commitRefresh performed (refresh_extends exact.ordered later) bound

theorem Exact.refreshKeys (exact : Exact handle system state) {snapshot : SnapshotResult}
    {keyRows : List Row} {metadata : ChangeMetadata} {now : Time}
    (later : metadata.Later state)
    (performed : manager =
      (system.manager.refreshKeysWithMetadata handle snapshot keyRows metadata now).2)
    (bound : (manager.stateAt handle).changes.length < 2 ^ 63) :
    ∃ next, Exact handle (system.refreshed handle manager) next := by
  rcases Manager.refreshKeysWithMetadata_outcome exact.found snapshot keyRows metadata now with
    ⟨deleted, -⟩ | ⟨-, -, outcome⟩ | ⟨refreshed, -, computed, outcome⟩
  · rw [exact.active] at deleted
    cases deleted
  · rw [outcome] at performed
    subst performed
    exact ⟨_, exact.refreshed exact.found exact.ordered (extends_self state)⟩
  · rw [outcome] at performed
    exact exact.commitRefresh performed
      (refreshKeys_extends exact.ordered later computed) bound

omit [Store σ] in
theorem Exact.setClient (exact : Exact handle system state)
    (kept : manager.byHandle = system.manager.byHandle) (id : Nat) {client : Client}
    (follows : Follows handle state client) :
    Exact handle { system with
      manager := manager
      clients := system.clients.set id client } state where
  found := by
    rw [kept]
    exact exact.found
  active := exact.active
  ordered := exact.ordered
  marks := exact.marks
  clients other member := by
    rcases List.mem_or_eq_of_mem_set member with known | rfl
    · exact exact.clients other known
    · exact follows

theorem Exact.step (exact : Exact handle system state) (backend : Backend)
    (action : DeliveryStep σ) (admissible : Admissible backend handle system action) :
    ∃ next, Exact handle (system.step backend handle action) next := by
  obtain ⟨condition, bound⟩ := admissible
  have held := Manager.stateAt_of_records exact.found
  cases action with
  | refresh snapshot metadata now =>
      rw [held] at condition
      exact exact.refresh condition rfl bound
  | refreshKeys snapshot keyRows metadata now =>
      rw [held] at condition
      exact exact.refreshKeys condition rfl bound
  | elsewhere manager =>
      exact ⟨state, condition.trans exact.found, exact.active, exact.ordered, exact.marks,
        exact.clients⟩
  | join mark =>
      rw [Delivery.step]
      cases known : system.marks[mark]? with
      | none => exact ⟨state, exact⟩
      | some entry =>
          refine ⟨state, exact.found, exact.active, exact.ordered, exact.marks, ?_⟩
          intro client member
          rcases List.mem_append.mp member with old | new
          · exact exact.clients client old
          · rw [List.mem_singleton.mp new]
            exact ⟨exact.marks entry (List.mem_of_getElem? known), le_rfl, by simp, asks_none⟩
  | ask id request =>
      rw [held] at condition
      rw [Delivery.step]
      cases known : system.clients[id]? with
      | none => exact ⟨state, exact⟩
      | some client =>
          dsimp only
          split
          · exact ⟨state, exact⟩
          · refine ⟨state, exact.setClient rfl id ?_⟩
            apply (exact.clients client (List.mem_of_getElem? known)).withAsking
            intro other phase asking
            obtain ⟨rfl, rfl⟩ := Prod.mk.inj (Option.some.inj asking)
            exact ⟨rfl, rfl, condition, rfl⟩
  | serve id now fresh wake =>
      rw [Delivery.step]
      cases known : system.clients[id]? with
      | none => exact ⟨state, exact⟩
      | some client =>
          dsimp only
          cases asking : client.asking with
          | none => exact ⟨state, exact⟩
          | some sent =>
              have follows := exact.clients client (List.mem_of_getElem? known)
              obtain ⟨kept, received, -⟩ := follows.serve exact.found exact.active
                exact.ordered asking backend now fresh wake
              rw [exact.log_eq]
              exact ⟨state, exact.setClient kept id received⟩
  | disconnect id =>
      rw [Delivery.step]
      cases known : system.clients[id]? with
      | none => exact ⟨state, exact⟩
      | some client =>
          refine ⟨state, exact.setClient rfl id ?_⟩
          exact (exact.clients client (List.mem_of_getElem? known)).withAsking asks_none

instance (backend : Backend) (handle : String) (system : Delivery σ) :
    (step : DeliveryStep σ) → Decidable (Admissible backend handle system step)
  | .refresh _ metadata _ | .refreshKeys _ _ metadata _ =>
      inferInstanceAs (Decidable (metadata.Later _ ∧ _))
  | .elsewhere manager =>
      have := decEq manager.byHandle[handle]? system.manager.byHandle[handle]?
      inferInstanceAs (Decidable (_ ∧ _))
  | .ask _ _ => inferInstanceAs (Decidable (sameShapeDefinition _ _ = true ∧ _))
  | .join _ | .serve _ _ _ _ | .disconnect _ => inferInstanceAs (Decidable (True ∧ _))

def start (manager : Manager σ) (handle : String) : Delivery σ where
  manager := manager
  marks := [((manager.stateAt handle).currentOffset,
    (manager.stateAt handle).changes.length)]

omit [Store σ] in
theorem Exact.start (found : manager.byHandle[handle]? = some state)
    (active : state.deleted = false)
    (ordered : state.LogOrdered) : Exact handle (start manager handle) state where
  found := found
  active := active
  ordered := ordered
  marks mark member := by
    rw [List.mem_singleton.mp member, Manager.stateAt_of_records found]
    exact ordered.marked
  clients client member := by cases member

end Delivery

/-- In every run of refreshes and of clients that poll, wait or stream, from a shape
that has just been snapshotted: each client holds exactly the messages logged between
its start and its last read, the offsets of the log grow, and no request fails. -/
theorem deliveries_are_exact [Digest] [Store σ] (backend : Backend) (handle : String)
    (manager : Manager σ) (state : State)
    (found : manager.byHandle[handle]? = some state) (active : state.deleted = false)
    (unchanged : state.changes = [])
    (offset : state.currentOffset = initialOffset ∨ state.currentOffset = nowOffset)
    (steps : List (DeliveryStep σ))
    (admissible : Along (Delivery.step backend handle) (Delivery.Admissible backend handle)
      (.start manager handle) steps) :
    let system := steps.foldl (Delivery.step backend handle) (.start manager handle)
    (∀ client ∈ system.clients,
      client.start ≤ client.upTo ∧ client.upTo ≤ (system.log handle).length ∧
        client.delivered = ((system.log handle).take client.upTo).drop client.start) ∧
      (system.log handle).Pairwise
        (fun left right => compareOffsets left.offset right.offset = .lt) ∧
      ∀ client ∈ system.clients, ∀ request phase, client.asking = some (request, phase) →
        ∀ now fresh wake, (stepContinuation backend request
          (shapeDefinitionFromRequest request) system.manager now fresh wake
          phase).1.fails = false := by
  intro system
  have started : ∃ next, (Delivery.start manager handle).Exact handle next :=
    ⟨state, .start found active (.snapshotted unchanged offset)⟩
  have preserved : ∀ (system : Delivery σ) (step : DeliveryStep σ),
      (∃ next, system.Exact handle next) → Delivery.Admissible backend handle system step →
        ∃ next, (system.step backend handle step).Exact handle next := by
    intro system step ⟨next, exact⟩ allowed
    exact exact.step backend step allowed
  obtain ⟨next, reached⟩ := Along.invariant preserved steps _ started admissible
  rw [reached.log_eq]
  refine ⟨fun client member => ?_, ?_, fun client member request phase asking => ?_⟩
  · have follows := reached.clients client member
    exact ⟨follows.started, follows.marked.splits.bound, follows.delivered⟩
  · refine reached.ordered.increasing.imp ?_
    intro left right below
    exact (compareOffsets_eq_lt _ _).mpr below
  · intro now fresh wake
    have follows := reached.clients client member
    exact (follows.serve reached.found reached.active reached.ordered asking backend now
      fresh wake).2.2

/-- Two commits, and a client that polls after the first and streams after that. -/
def pollThenStream : List (DeliveryStep MemoryStore) :=
  [.join 0,
    .refresh ⟨itemsSchema, [itemRow "1" "two"], none⟩ { commitLSN := 100 } 2000,
    .ask 0 (itemsRequest ""),
    .serve 0 3000 0 .notified,
    .ask 0 { itemsRequest "" with liveSSE := true },
    .serve 0 4000 0 .notified,
    .serve 0 4000 0 .notified,
    .refresh ⟨itemsSchema, [itemRow "2" "two"], none⟩ { commitLSN := 200 } 5000,
    .serve 0 6000 1 .notified]

def polledThenStreamed : Delivery MemoryStore :=
  letI := tabulatedDigest
  pollThenStream.foldl (Delivery.step (itemsBackend [itemRow "1" "one"]) "fa19db76c4-1")
    (.start itemsManager "fa19db76c4-1")

theorem deliveries_are_exact_pollThenStream :
    ∃ client ∈ polledThenStreamed.clients, client.delivered.length = 3 ∧
      client.delivered = ((polledThenStreamed.log "fa19db76c4-1").take
        client.upTo).drop client.start := by
  have found : ∃ state, itemsManager.byHandle["fa19db76c4-1"]? = some state ∧
      state.deleted = false ∧ state.changes = [] ∧ state.currentOffset = initialOffset := by
    have present : itemsManager.byHandle["fa19db76c4-1"]?.any (fun state =>
        state.deleted = false ∧ state.changes = [] ∧
          state.currentOffset = initialOffset) = true := by
      decide +kernel
    obtain ⟨state, held, facts⟩ := (Option.any_eq_true _ _).mp present
    exact ⟨state, held, by simpa using facts⟩
  obtain ⟨state, held, active, unchanged, offset⟩ := found
  have given : polledThenStreamed.clients.head?.map (·.delivered.length) = some 3 := by
    decide +kernel
  obtain ⟨client, first, count⟩ := Option.map_eq_some_iff.mp given
  have member := List.mem_of_head? first
  refine ⟨client, member, count, ?_⟩
  exact ((@deliveries_are_exact _ tabulatedDigest _ (itemsBackend [itemRow "1" "one"])
    "fa19db76c4-1" itemsManager state held active unchanged (.inl offset) pollThenStream
    (by decide +kernel)).1 client member).2.2

end PostgresSync.Protocol
