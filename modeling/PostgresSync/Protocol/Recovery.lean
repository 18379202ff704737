import PostgresSync.Data.Run
import PostgresSync.Protocol.MustRefetch
import PostgresSync.Shapes.CatalogRuns

namespace PostgresSync.Protocol

open PostgresSync.Data
open PostgresSync.Shapes
open PostgresSync.Storage

/-! A continuation among calls that may delete its shape between any two of its reads. -/

structure Exchange (σ : Type) where
  manager : Manager σ
  progress : Progress

inductive Happening where
  /-- The request moves on. -/
  | turn (backend : Backend) (now : Time) (fresh : Nat) (wake : Manager.Wake)
  | call (call : Call)

/-- The turn of a request in this phase reads its shape.  A stream, which has sent its headers,
is not considered. -/
def Phase.Reads (manager : Manager σ) (wake : Manager.Wake) : Phase → Prop
  | .received | .longPoll .polling | .longPoll .registering | .expired => True
  | .longPoll (.waiting waiter) => wake = .notified ∧ waiter ∈ manager.closed
  | .streaming .. => False

def Tombstoned (manager : Manager σ) (handle : String) : Prop :=
  ∃ state, manager.byHandle[handle]? = some state ∧ state.deleted = true

instance (manager : Manager σ) (handle : String) : Decidable (Tombstoned manager handle) :=
  inferInstanceAs (Decidable (∃ state ∈ manager.byHandle[handle]?, state.deleted = true))

theorem read_of_tombstoned {manager : Manager σ} {handle : String}
    (tombstoned : Tombstoned manager handle) (offset : String) :
    manager.read handle offset = .error .shapeDeleted := by
  obtain ⟨state, found, deleted⟩ := tombstoned
  simp [Manager.read, Manager.readLocked, found, deleted]

section

variable [Digest] [Store σ] (request : ShapeRequest) (definition : Definition)

namespace Exchange

def step (exchange : Exchange σ) : Happening → Exchange σ
  | .turn backend now fresh wake =>
      match exchange.progress with
      | .pending phase =>
          let served := stepContinuation backend request definition exchange.manager now fresh
            wake phase
          ⟨served.2, served.1⟩
      | _ => exchange
  | .call call => { exchange with manager := exchange.manager.perform call }

/-- The validate-only snapshot and the store succeed. -/
def Provided (exchange : Exchange σ) : Happening → Prop
  | .turn backend now _ _ =>
      ∃ snapshot ∈ (backend.snapshot ⟨definition, .validateOnly, false⟩).toOption,
        (exchange.manager.upsertSnapshot definition snapshot now).1.isOk = true
  | .call _ => True

/-- A turn that finds a tombstone answers with must-refetch. -/
def Refetched (exchange : Exchange σ) : Happening → Prop
  | .turn backend now fresh wake =>
      ∀ phase, exchange.progress = .pending phase → phase.Reads exchange.manager wake →
        Tombstoned exchange.manager request.handle →
          ∃ handle etag, (exchange.step request definition
            (.turn backend now fresh wake)).progress = .answered (.mustRefetch handle etag)
  | .call _ => True

/-- The read after a timeout does not find a tombstone. -/
def InTime (exchange : Exchange σ) : Happening → Prop
  | .turn .. => exchange.progress = .pending .expired →
      ¬ Tombstoned exchange.manager request.handle
  | .call _ => True

instance (exchange : Exchange σ) :
    (happening : Happening) → Decidable (exchange.Provided definition happening)
  | .turn backend _ _ _ =>
      inferInstanceAs (Decidable
        (∃ snapshot ∈ (backend.snapshot ⟨definition, .validateOnly, false⟩).toOption, _))
  | .call _ => inferInstanceAs (Decidable True)

instance (exchange : Exchange σ) :
    (happening : Happening) → Decidable (exchange.InTime request happening)
  | .turn .. => inferInstanceAs (Decidable (_ → _))
  | .call _ => inferInstanceAs (Decidable True)

end Exchange

variable {request definition} {manager : Manager σ}

variable {backend : Backend} {now : Time}

theorem mustRefetch_of_provided {snapshot : SnapshotResult}
    (described : snapshot ∈ (backend.snapshot ⟨definition, .validateOnly, false⟩).toOption)
    (stored : (manager.upsertSnapshot definition snapshot now).1.isOk = true) :
    ∃ handle etag, (mustRefetch backend request definition manager now).1 =
      .mustRefetch handle etag := by
  unfold mustRefetch
  cases validated : backend.snapshot ⟨definition, .validateOnly, false⟩ with
  | error error =>
      rw [validated] at described
      cases described
  | ok read =>
      rw [validated] at described
      obtain rfl := Option.some.inj described
      match upserted : manager.upsertSnapshot definition read now with
      | (.error error, next) =>
          rw [upserted] at stored
          cases stored
      | (.ok state, next) =>
          dsimp only
          rw [upserted]
          exact ⟨_, _, rfl⟩

theorem stepContinuation_of_tombstoned {fresh : Nat} {wake : Manager.Wake} {phase : Phase}
    (reads : phase.Reads manager wake)
    (early : phase ≠ .expired) (tombstoned : Tombstoned manager request.handle) :
    (stepContinuation backend request definition manager now fresh wake phase).1 =
      .answered (mustRefetch backend request definition manager now).1 := by
  have gone := read_of_tombstoned tombstoned request.offset
  have locked : manager.readLocked request.handle request.offset = .error .shapeDeleted := gone
  cases phase with
  | received => simp [stepContinuation, serveContinuation, gone, answerReadError]
  | longPoll wait =>
      cases wait with
      | polling => simp [stepContinuation, Manager.waitForChange, gone, answerReadError]
      | registering => simp [stepContinuation, Manager.waitForChange, locked, answerReadError]
      | waiting waiter =>
          obtain ⟨rfl, closed⟩ := reads
          simp [stepContinuation, Manager.waitForChange, closed, gone, answerReadError]
  | expired => exact absurd rfl early
  | streaming => cases reads

theorem stepContinuation_expired {fresh : Nat} {wake : Manager.Wake}
    (tombstoned : Tombstoned manager request.handle) :
    (stepContinuation backend request definition manager now fresh wake .expired).1 =
      .answered (.unavailable "shape deleted") := by
  simp [stepContinuation, read_of_tombstoned tombstoned, errorText]

/-- Along every interleaving a tombstone is answered with must-refetch exactly when it is not the
read after a timeout that finds it. -/
theorem tombstones_refetched_iff (request : ShapeRequest) (definition : Definition)
    (manager : Manager σ) (happenings : List Happening)
    (provided : Along (Exchange.step request definition) (Exchange.Provided definition)
      ⟨manager, .pending .received⟩ happenings) :
    Along (Exchange.step request definition) (Exchange.Refetched request definition)
        ⟨manager, .pending .received⟩ happenings ↔
      Along (Exchange.step request definition) (Exchange.InTime request)
        ⟨manager, .pending .received⟩ happenings := by
  constructor
  · apply Along.of_invariant (fun _ => True) (fun _ _ _ _ => trivial) _ _ _ trivial
    rintro exchange (⟨backend, now, fresh, wake⟩ | call) - refetched
    · intro expired tombstoned
      obtain ⟨handle, etag, answered⟩ := refetched .expired expired trivial tombstoned
      rw [Exchange.step, expired] at answered
      dsimp only at answered
      rw [stepContinuation_expired tombstoned] at answered
      cases answered
    · trivial
  · intro inTime
    refine Along.of_invariant (fun _ => True) (fun _ _ _ _ => trivial) ?_ _ _ trivial
      (Along.and _ _ provided inTime)
    rintro exchange (⟨backend, now, fresh, wake⟩ | call) - ⟨succeeds, early⟩
    · intro phase pending reads tombstoned
      obtain ⟨snapshot, described, stored⟩ := succeeds
      obtain ⟨handle, etag, answer⟩ :=
        @mustRefetch_of_provided _ _ _ request _ _ _ _ _ described stored
      refine ⟨handle, etag, ?_⟩
      rw [Exchange.step, pending]
      dsimp only
      rw [stepContinuation_of_tombstoned reads _ tombstoned, answer]
      rintro rfl
      exact early pending tombstoned
    · trivial

end

def untilWaiting : List Happening :=
  [.turn (itemsBackend []) 2000 0 .notified, .turn (itemsBackend []) 2000 0 .notified,
    .turn (itemsBackend []) 2000 0 .notified]

def deletion : Happening := .call ⟨.delete "fa19db76c4-1", 3000⟩

def livePoll : ShapeRequest := { itemsRequest "fa19db76c4-1" with live := true }

theorem tombstones_refetched_woken :
    letI := tabulatedDigest
    Along (Exchange.step livePoll itemsDefinition) (Exchange.Refetched livePoll itemsDefinition)
      ⟨itemsManager, .pending .received⟩
      (untilWaiting ++ [deletion, .turn (itemsBackend []) 4000 1 .notified]) :=
  (@tombstones_refetched_iff _ tabulatedDigest _ livePoll itemsDefinition itemsManager
    (untilWaiting ++ [deletion, .turn (itemsBackend []) 4000 1 .notified])
    (by decide +kernel)).mpr (by decide +kernel)

/-- The deletion falls between the timeout and the last read. -/
theorem tombstone_after_timeout :
    letI := tabulatedDigest
    let happenings := untilWaiting ++ [.turn (itemsBackend []) 3000 0 .deadline, deletion,
      .turn (itemsBackend []) 4000 1 .notified]
    Along (Exchange.step livePoll itemsDefinition) (Exchange.Provided itemsDefinition)
        ⟨itemsManager, .pending .received⟩ happenings ∧
      (happenings.foldl (Exchange.step livePoll itemsDefinition)
        ⟨itemsManager, .pending .received⟩).progress =
          .answered (.unavailable "shape deleted") ∧
      ¬ Along (Exchange.step livePoll itemsDefinition)
        (Exchange.Refetched livePoll itemsDefinition) ⟨itemsManager, .pending .received⟩
        happenings := by
  intro happenings
  have answer : (happenings.foldl (@Exchange.step _ tabulatedDigest _ livePoll itemsDefinition)
      ⟨itemsManager, .pending .received⟩).progress =
        .answered (.unavailable "shape deleted") := by decide +kernel
  refine ⟨by decide +kernel, answer, fun along => ?_⟩
  obtain ⟨-, -, -, -, -, last, -⟩ := along
  obtain ⟨handle, etag, refetched⟩ := last .expired (by decide +kernel) trivial (by decide +kernel)
  cases refetched.symm.trans answer

end PostgresSync.Protocol
