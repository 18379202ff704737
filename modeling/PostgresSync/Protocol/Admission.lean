import PostgresSync.Protocol.ETags
import PostgresSync.Protocol.HandleShape

namespace PostgresSync.Protocol

open PostgresSync.Shapes
open PostgresSync.Storage

/-! Admission: the slots that the requests in flight hold, in any order of their steps. -/

/-- A buffered `chan struct{}`: how many values it holds, and how many it has room for. -/
structure Channel where
  capacity : Nat
  queued : Nat
  fits : queued ≤ capacity

namespace Channel

def make (capacity : Nat) : Channel := ⟨capacity, 0, Nat.zero_le capacity⟩

/-- A send in a `select` with a `default`, which `none` is. -/
def trySend (channel : Channel) : Option Channel :=
  if room : channel.queued < channel.capacity then
    some ⟨channel.capacity, channel.queued + 1, room⟩
  else
    none

def receive (channel : Channel) : Option Channel :=
  match channel with
  | ⟨_, 0, _⟩ => none
  | ⟨capacity, queued + 1, fits⟩ => some ⟨capacity, queued, Nat.le_of_succ_le fits⟩

end Channel

structure AdmissionController where
  initial : Channel
  existing : Channel

def newAdmissionController (cfgLimits existingLimits : Nat) : AdmissionController where
  initial := .make cfgLimits
  existing := .make existingLimits

namespace AdmissionController

def target (admission : AdmissionController) : AdmissionKind → Channel
  | .initial => admission.initial
  | .existing => admission.existing

def withTarget (admission : AdmissionController) (channel : Channel) :
    AdmissionKind → AdmissionController
  | .initial => { admission with initial := channel }
  | .existing => { admission with existing := channel }

def acquire (admission : AdmissionController) (kind : AdmissionKind) :
    Option AdmissionController :=
  (admission.target kind).trySend.map (admission.withTarget · kind)

/-- The function that `acquire` returns. -/
def release (admission : AdmissionController) (kind : AdmissionKind) :
    Option AdmissionController :=
  (admission.target kind).receive.map (admission.withTarget · kind)

end AdmissionController

def ServiceConfig.limit (config : ServiceConfig) : AdmissionKind → Nat
  | .initial => config.maxInitial
  | .existing => config.maxExisting

inductive Stage where
  /-- Its kind is decided; before `acquire`. -/
  | deciding
  /-- It has been admitted, and has not run its deferred `release`. -/
  | serving (progress : Progress)

structure Handler where
  request : ParsedRequest
  kind : AdmissionKind
  stage : Stage

def Handler.holds (handler : Handler) (kind : AdmissionKind) : Bool :=
  match handler.stage with
  | .deciding => false
  | .serving _ => handler.kind = kind

@[simp] theorem Handler.holds_deciding (request : ParsedRequest) (own kind : AdmissionKind) :
    Handler.holds ⟨request, own, .deciding⟩ kind = false := rfl

@[simp] theorem Handler.holds_serving (request : ParsedRequest) (own : AdmissionKind)
    (progress : Progress) (kind : AdmissionKind) :
    (Handler.holds ⟨request, own, .serving progress⟩ kind).toNat =
      if kind = own then 1 else 0 := by
  cases own <;> cases kind <;> rfl

structure Service (σ : Type) where
  manager : Manager σ
  admission : AdmissionController
  handlers : List Handler := []

inductive ServiceAction (σ : Type) where
  | arrives (http : HttpRequest) (now : Time)
  | acquires (index : Nat) (now : Time)
  | steps (index : Nat) (now : Time) (fresh : Nat) (wake : Manager.Wake)
  /-- The handler returns, with its answer or because its client is gone. -/
  | returns (index : Nat)
  /-- What the rest of the program does to the shapes. -/
  | changes (manager : Manager σ)

namespace Service

def new (config : ServiceConfig) (manager : Manager σ) : Service σ where
  manager := manager
  admission := newAdmissionController config.maxInitial config.maxExisting

def holders (service : Service σ) (kind : AdmissionKind) : Nat :=
  service.handlers.countP (·.holds kind)

section

variable [Digest] [Store σ] (config : ServiceConfig) (backend : Backend)

/-- `HandleShape` until it acquires. -/
def arrives (service : Service σ) (http : HttpRequest) (now : Time) :
    Option Reply × Service σ :=
  if authorized config http = false then
    (some .unauthorized, service)
  else
    match http.parsed with
    | .error status => (some (.parseError status), service)
    | .ok request =>
        let definition := shapeDefinitionFromRequest request.toShapeRequest
        if http.method = "DELETE" then
          if !(validateDeleteRequest request).isEmpty then
            (some (.invalidRequest (validateDeleteRequest request)), service)
          else
            let answer := deleteShape config.allowShapeDeletion request.toShapeRequest
              definition service.manager now
            (some (.served (.answered answer.1)), { service with manager := answer.2 })
        else if !(validateShapeRequest request).isEmpty then
          (some (.invalidRequest (validateShapeRequest request)), service)
        else if !(validateSubsetRequest request).isEmpty then
          (some (.invalidSubset (validateSubsetRequest request)), service)
        else if !(validateFeatureFlags config request).isEmpty then
          (some (.invalidRequest (validateFeatureFlags config request)), service)
        else if request.subset.isSome then
          let progress := handleShape backend request.toShapeRequest service.manager now
          (some (.served progress.1), { service with manager := progress.2 })
        else
          let kind := admissionKind request.toShapeRequest definition service.manager
          (none, { service with handlers := service.handlers ++ [⟨request, kind, .deciding⟩] })

def acquires (service : Service σ) (index : Nat) (now : Time) : Option Reply × Service σ :=
  match service.handlers[index]? with
  | some ⟨request, kind, .deciding⟩ =>
      match service.admission.acquire kind with
      | none =>
          (some (.overloaded kind), { service with handlers := service.handlers.eraseIdx index })
      | some admission =>
          let progress := handleShape backend request.toShapeRequest service.manager now
          (some (.served progress.1),
            { manager := progress.2
              admission := admission
              handlers := service.handlers.set index ⟨request, kind, .serving progress.1⟩ })
  | _ => (none, service)

def steps (service : Service σ) (index : Nat) (now : Time) (fresh : Nat)
    (wake : Manager.Wake) : Service σ :=
  match service.handlers[index]? with
  | some ⟨request, kind, .serving progress⟩ =>
      match progress.phase? with
      | some phase =>
          let next := stepContinuation backend request.toShapeRequest
            (shapeDefinitionFromRequest request.toShapeRequest) service.manager now fresh wake
            phase
          { service with
            manager := next.2
            handlers := service.handlers.set index ⟨request, kind, .serving next.1⟩ }
      | none => service
  | _ => service

def returns (service : Service σ) (index : Nat) : Service σ :=
  match service.handlers[index]? with
  | some ⟨_, kind, .serving _⟩ =>
      match service.admission.release kind with
      | none => service
      | some admission =>
          { service with
            admission := admission
            handlers := service.handlers.eraseIdx index }
  | _ => service

def perform (service : Service σ) : ServiceAction σ → Service σ
  | .arrives http now => (service.arrives config backend http now).2
  | .acquires index now => (service.acquires backend index now).2
  | .steps index now fresh wake => service.steps backend index now fresh wake
  | .returns index => service.returns index
  | .changes manager => { service with manager := manager }

/-- A request whose `acquire` comes before any step of another one. -/
def handles (service : Service σ) (http : HttpRequest) (now : Time) : Option Reply × Service σ :=
  match service.arrives config backend http now with
  | (some reply, after) => (some reply, after)
  | (none, after) => after.acquires backend service.handlers.length now

end

end Service

/-! What one operation does to the slots. -/

namespace AdmissionController

variable {admission after : AdmissionController} {kind : AdmissionKind}

theorem target_withTarget (channel : Channel) (other : AdmissionKind) :
    (admission.withTarget channel kind).target other =
      if other = kind then channel else admission.target other := by
  cases kind <;> cases other <;> rfl

theorem acquire_isSome (admission : AdmissionController) (kind : AdmissionKind) :
    (admission.acquire kind).isSome =
      decide ((admission.target kind).queued < (admission.target kind).capacity) := by
  rw [acquire, Option.isSome_map, Channel.trySend]
  split
  next room => exact (decide_eq_true room).symm
  next full => exact (decide_eq_false full).symm

theorem acquire_eq_some (acquired : admission.acquire kind = some after) (other : AdmissionKind) :
    (after.target other).queued =
        (admission.target other).queued + (if other = kind then 1 else 0) ∧
      (after.target other).capacity = (admission.target other).capacity := by
  obtain ⟨channel, sent, rfl⟩ := Option.map_eq_some_iff.mp acquired
  rw [Channel.trySend] at sent
  split at sent
  · obtain rfl := Option.some.inj sent
    rw [target_withTarget]
    split
    next same =>
      subst same
      exact ⟨rfl, rfl⟩
    next => exact ⟨rfl, rfl⟩
  · cases sent

theorem release_of_queued (queued : 0 < (admission.target kind).queued) :
    ∃ after, admission.release kind = some after ∧ ∀ other,
      (admission.target other).queued =
          (after.target other).queued + (if other = kind then 1 else 0) ∧
        (after.target other).capacity = (admission.target other).capacity := by
  cases held : admission.target kind with
  | mk capacity count fits =>
      rw [held] at queued
      obtain ⟨rest, rfl⟩ := Nat.exists_eq_succ_of_ne_zero (Nat.ne_of_gt queued)
      refine ⟨_, by rw [release, held]; rfl, fun other => ?_⟩
      rw [target_withTarget]
      split
      next same =>
        rw [same, held]
        exact ⟨rfl, rfl⟩
      next => exact ⟨rfl, rfl⟩

end AdmissionController

theorem Channel.eq_make {channel : Channel} {capacity : Nat} (empty : channel.queued = 0)
    (room : channel.capacity = capacity) : channel = .make capacity := by
  obtain ⟨_, _, _⟩ := channel
  subst empty room
  rfl

namespace Service

section Counting

variable {service : Service σ} {index : Nat} {handler : Handler}

theorem holders_erased (found : service.handlers[index]? = some handler) (kind : AdmissionKind) :
    service.holders kind =
      (service.handlers.eraseIdx index).countP (·.holds kind) + (handler.holds kind).toNat := by
  obtain ⟨bound, same⟩ := List.getElem?_eq_some_iff.mp found
  have listed := (List.getElem_cons_eraseIdx_perm bound).countP_eq (·.holds kind)
  rw [same, List.countP_cons] at listed
  rw [holders, ← listed]
  cases handler.holds kind <;> rfl

theorem holders_set (found : service.handlers[index]? = some handler) (next : Handler)
    (kind : AdmissionKind) :
    (service.handlers.set index next).countP (·.holds kind) + (handler.holds kind).toNat =
      service.holders kind + (next.holds kind).toNat := by
  obtain ⟨bound, -⟩ := List.getElem?_eq_some_iff.mp found
  have listed := (List.set_perm_cons_eraseIdx bound next).countP_eq (·.holds kind)
  rw [List.countP_cons] at listed
  rw [holders_erased found, listed]
  cases next.holds kind with
  | false => rfl
  | true => exact Nat.add_right_comm _ _ _

theorem holders_admitted {request : ParsedRequest} {own : AdmissionKind}
    (found : service.handlers[index]? = some ⟨request, own, .deciding⟩) (progress : Progress)
    (kind : AdmissionKind) :
    (service.handlers.set index ⟨request, own, .serving progress⟩).countP (·.holds kind) =
      service.holders kind + (if kind = own then 1 else 0) := by
  have taken := holders_set found ⟨request, own, .serving progress⟩ kind
  rwa [Handler.holds_deciding, Handler.holds_serving] at taken

end Counting

/-- The channels count the handlers that hold a slot, and have room for the limits. -/
structure Counted (config : ServiceConfig) (service : Service σ) : Prop where
  queued : ∀ kind, (service.admission.target kind).queued = service.holders kind
  capacity : ∀ kind, (service.admission.target kind).capacity = config.limit kind

section Slots

variable {config : ServiceConfig} {service : Service σ}

theorem Counted.new (config : ServiceConfig) (manager : Manager σ) :
    (Service.new config manager).Counted config := by
  constructor <;> intro kind <;> cases kind <;> rfl

theorem Counted.of_holders (counted : service.Counted config) {after : Service σ}
    (admission : after.admission = service.admission)
    (holders : ∀ kind, after.holders kind = service.holders kind) : after.Counted config := by
  constructor
  · intro kind
    rw [admission, holders, counted.queued]
  · intro kind
    rw [admission, counted.capacity]

theorem Counted.returns_serving (counted : service.Counted config) {index : Nat}
    {request : ParsedRequest} {kind : AdmissionKind} {progress : Progress}
    (found : service.handlers[index]? = some ⟨request, kind, .serving progress⟩) :
    (service.returns index).handlers = service.handlers.eraseIdx index ∧
      (service.returns index).Counted config ∧
      ∀ other, service.holders other =
        (service.returns index).holders other + (if other = kind then 1 else 0) := by
  have fewer : ∀ other, service.holders other =
      (service.handlers.eraseIdx index).countP (·.holds other) +
        (if other = kind then 1 else 0) := by
    intro other
    rw [holders_erased found, Handler.holds_serving]
  have queued : 0 < (service.admission.target kind).queued := by
    rw [counted.queued, fewer, if_pos rfl]
    exact Nat.succ_pos _
  obtain ⟨admission, released, freed⟩ := AdmissionController.release_of_queued queued
  have after : service.returns index =
      { service with
        admission := admission
        handlers := service.handlers.eraseIdx index } := by
    simp only [Service.returns, found, released]
  rw [after]
  refine ⟨rfl, ⟨fun other => ?_, fun other => (freed other).2.trans (counted.capacity other)⟩,
    fewer⟩
  have before := (freed other).1
  rw [counted.queued, fewer] at before
  exact (Nat.add_right_cancel before).symm

theorem Counted.returns (counted : service.Counted config) (index : Nat) :
    (service.returns index).Counted config := by
  cases found : service.handlers[index]? with
  | none => simpa only [Service.returns, found] using counted
  | some handler =>
      obtain ⟨request, kind, deciding | progress⟩ := handler
      · simpa only [Service.returns, found] using counted
      · exact (counted.returns_serving found).2.1

theorem Counted.acquire_isSome (counted : service.Counted config) (kind : AdmissionKind) :
    (service.admission.acquire kind).isSome = config.admits service.holders kind := by
  rw [AdmissionController.acquire_isSome, counted.queued, counted.capacity]
  cases kind <;> rfl

theorem Counted.idle (counted : service.Counted config)
    (decided : ∀ handler ∈ service.handlers, handler.stage = .deciding) :
    service.admission = newAdmissionController config.maxInitial config.maxExisting := by
  have empty : ∀ kind, (service.admission.target kind).queued = 0 := by
    intro kind
    rw [counted.queued, holders, List.countP_eq_zero]
    intro handler member
    simp [Handler.holds, decided handler member]
  have initial := Channel.eq_make (empty .initial) (counted.capacity .initial)
  have existing := Channel.eq_make (empty .existing) (counted.capacity .existing)
  exact congrArg₂ AdmissionController.mk initial existing

end Slots

section Steps

variable [Digest] [Store σ] {config : ServiceConfig} {backend : Backend} {service : Service σ}

/-- Up to `acquire` a request takes no slot.  It is answered, as `handleShapeRequest` answers it
whatever is in flight, or its kind is decided. -/
theorem arrives_cases (service : Service σ) (http : HttpRequest) (now : Time) :
    (∃ reply manager, service.arrives config backend http now =
        (some reply, { service with manager := manager }) ∧
      ∀ inFlight, handleShapeRequest config backend inFlight http service.manager now =
        (reply, manager)) ∨
    ∃ request kind, service.arrives config backend http now =
        (none, { service with
          handlers := service.handlers ++ [⟨request, kind, .deciding⟩] }) ∧
      ∀ inFlight, handleShapeRequest config backend inFlight http service.manager now =
        if config.admits inFlight kind then
          (.served (handleShape backend request.toShapeRequest service.manager now).1,
            (handleShape backend request.toShapeRequest service.manager now).2)
        else
          (.overloaded kind, service.manager) := by
  unfold arrives handleShapeRequest
  by_cases known : authorized config http = false
  · simp only [if_pos known]
    exact .inl ⟨_, _, rfl, fun _ => rfl⟩
  simp only [if_neg known]
  cases parsed : http.parsed with
  | error status => exact .inl ⟨_, _, rfl, fun _ => rfl⟩
  | ok request =>
      dsimp only
      by_cases deletes : http.method = "DELETE"
      · simp only [if_pos deletes]
        cases (validateDeleteRequest request).isEmpty with
        | false => exact .inl ⟨_, _, rfl, fun _ => rfl⟩
        | true => exact .inl ⟨_, _, rfl, fun _ => rfl⟩
      simp only [if_neg deletes]
      cases (validateShapeRequest request).isEmpty with
      | false => exact .inl ⟨_, _, rfl, fun _ => rfl⟩
      | true =>
          cases (validateSubsetRequest request).isEmpty with
          | false => exact .inl ⟨_, _, rfl, fun _ => rfl⟩
          | true =>
              cases (validateFeatureFlags config request).isEmpty with
              | false => exact .inl ⟨_, _, rfl, fun _ => rfl⟩
              | true =>
                  cases subset : request.subset with
                  | some part => exact .inl ⟨_, _, rfl, fun _ => rfl⟩
                  | none =>
                      refine .inr ⟨request, _, rfl, fun inFlight => ?_⟩
                      cases config.admits inFlight (admissionKind request.toShapeRequest
                        (shapeDefinitionFromRequest request.toShapeRequest) service.manager) <;>
                      rfl

theorem Counted.acquires (counted : service.Counted config) (index : Nat) (now : Time) :
    (service.acquires backend index now).2.Counted config := by
  unfold Service.acquires
  split
  next request kind found =>
    split
    next refused =>
      refine counted.of_holders rfl fun other => ?_
      exact (holders_erased found other).symm
    next admission acquired =>
      constructor
      · intro other
        rw [(AdmissionController.acquire_eq_some acquired other).1, counted.queued]
        exact (holders_admitted found _ other).symm
      · intro other
        exact (AdmissionController.acquire_eq_some acquired other).2.trans
          (counted.capacity other)
  next => exact counted

theorem Counted.steps (counted : service.Counted config) (index : Nat) (now : Time) (fresh : Nat)
    (wake : Manager.Wake) : (service.steps backend index now fresh wake).Counted config := by
  unfold Service.steps
  split
  next request kind progress found =>
    split
    next phase _ =>
      refine counted.of_holders rfl fun other => ?_
      exact Nat.add_right_cancel (holders_set found ⟨request, kind, .serving _⟩ other)
    next => exact counted
  next => exact counted

theorem Counted.perform (counted : service.Counted config) (action : ServiceAction σ) :
    (service.perform config backend action).Counted config := by
  cases action with
  | arrives http now =>
      obtain ⟨reply, manager, answered, -⟩ | ⟨request, kind, decided, -⟩ :=
        service.arrives_cases http now
      · rw [Service.perform, answered]
        exact counted.of_holders rfl fun _ => rfl
      · rw [Service.perform, decided]
        exact counted.of_holders rfl fun _ => List.countP_append.trans rfl
  | acquires index now => exact counted.acquires index now
  | steps index now fresh wake => exact counted.steps index now fresh wake
  | returns index => exact counted.returns index
  | changes manager => exact counted.of_holders rfl fun _ => rfl

theorem Counted.run (actions : List (ServiceAction σ)) :
    ∀ {service : Service σ}, service.Counted config →
      (actions.foldl (Service.perform config backend) service).Counted config := by
  induction actions with
  | nil =>
      intro service counted
      exact counted
  | cons action rest hypothesis =>
      intro service counted
      exact hypothesis (counted.perform action)

/-- The channels refine the count: a request that nothing comes between is answered as by
`handleShapeRequest`, over the slots that the others hold. -/
theorem Counted.handles (counted : service.Counted config) (http : HttpRequest) (now : Time) :
    let answer := handleShapeRequest config backend service.holders http service.manager now
    (service.handles config backend http now).1 = some answer.1 ∧
      (service.handles config backend http now).2.manager = answer.2 := by
  intro answer
  obtain ⟨reply, manager, answered, same⟩ | ⟨request, kind, decided, same⟩ :=
    service.arrives_cases http now
  · rw [Service.handles, answered, show answer = (reply, manager) from same service.holders]
    exact ⟨rfl, rfl⟩
  · have last : (service.handlers ++ [⟨request, kind, .deciding⟩])[service.handlers.length]? =
        some ⟨request, kind, .deciding⟩ := by
      simp
    rw [Service.handles, decided, show answer = _ from same service.holders,
      ← counted.acquire_isSome]
    simp only [Service.acquires, last]
    cases service.admission.acquire kind with
    | none => exact ⟨rfl, rfl⟩
    | some admission => exact ⟨rfl, rfl⟩

end Steps

/-- What admission promises of a moment of the service. -/
structure Admits [Digest] [Store σ] (config : ServiceConfig) (backend : Backend)
    (service : Service σ) : Prop where
  bounded : ∀ kind, service.holders kind ≤ config.limit kind
  /-- A request is refused for want of slots of its own kind only, and then leaves no trace. -/
  refused : ∀ index request kind now,
    service.handlers[index]? = some ⟨request, kind, .deciding⟩ →
      (config.admits service.holders kind = false →
        service.acquires backend index now = (some (.overloaded kind),
          { service with handlers := service.handlers.eraseIdx index })) ∧
      (config.admits service.holders kind = true →
        (service.acquires backend index now).1 =
            some (.served (handleShape backend request.toShapeRequest service.manager now).1) ∧
          ∀ other, (service.acquires backend index now).2.holders other =
            service.holders other + (if other = kind then 1 else 0))
  returned : ∀ index request kind progress,
    service.handlers[index]? = some ⟨request, kind, .serving progress⟩ →
      (service.returns index).handlers = service.handlers.eraseIdx index ∧
      ∀ other, service.holders other =
        (service.returns index).holders other + (if other = kind then 1 else 0)
  answered : ∀ http now,
    let answer := handleShapeRequest config backend service.holders http service.manager now
    (service.handles config backend http now).1 = some answer.1 ∧
      (service.handles config backend http now).2.manager = answer.2
  idle : (∀ handler ∈ service.handlers, handler.stage = .deciding) →
    service.admission = newAdmissionController config.maxInitial config.maxExisting

end Service

/-- Whatever the requests, the rest of the program and the order of their steps. -/
theorem admission_over_runs [Digest] [Store σ] (config : ServiceConfig) (backend : Backend)
    (manager : Manager σ) (actions : List (ServiceAction σ)) :
    (actions.foldl (Service.perform config backend) (.new config manager)).Admits config
      backend := by
  have counted : (actions.foldl (Service.perform config backend) (.new config manager)).Counted
      config := Service.Counted.run actions (.new config manager)
  generalize actions.foldl (Service.perform config backend) (.new config manager) = service
    at counted
  refine ⟨fun kind => ?_, fun index request kind now found => ?_, ?_, counted.handles,
    counted.idle⟩
  · rw [← counted.queued, ← counted.capacity]
    exact (service.admission.target kind).fits
  · rw [← counted.acquire_isSome]
    cases acquired : service.admission.acquire kind with
    | none => simp [Service.acquires, found, acquired]
    | some admission =>
        simp only [Service.acquires, found, acquired, true_and]
        refine ⟨fun refused => ?_, fun _ => Service.holders_admitted found _⟩
        cases refused
  · intro index request kind progress found
    obtain ⟨left, -, freed⟩ := counted.returns_serving found
    exact ⟨left, freed⟩

end PostgresSync.Protocol
