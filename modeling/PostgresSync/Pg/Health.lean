import PostgresSync.Data.Run

namespace PostgresSync.Pg

open PostgresSync.Data

/-! The status that the health endpoint reports, and the replication connection.  A run
interleaves the critical sections of the goroutines that write one or the other. -/

inductive ServiceStatus where
  | starting
  | waiting
  | active
  | stopped
deriving DecidableEq, Repr

/-- The calls of `ensureReplication` that may fail before a connection is installed. -/
inductive Remote where
  | ensurePublication
  | connectConfig
  | identifySystem
  | prepareReplicationStart
  | startReplication
deriving DecidableEq, Repr

/-- Where an attempt to connect stands in `connectRuntime`. -/
inductive Phase where
  | ensurePool
  | openPool
  | checkConnection
  | lockStartup
  | recheckConnection
  | remote (call : Remote)
  | install
  | saveCheckpoint
  | setStatus (connected : Bool)
deriving DecidableEq, Repr

/-- What a goroutine of the runtime is doing.  An attempt is made by `Start` or by the
supervisor, and one by `Start` becomes a supervisor when it is over. -/
inductive Work where
  | connecting (phase : Phase) (supervised : Bool)
  | supervising
  | closing (awaitsRun : Bool)
  | over
deriving DecidableEq, Repr

structure Task where
  work : Work
  cancelled : Bool := false
deriving DecidableEq, Repr

/-- The fields of the runtime that decide its status, with the goroutines it has started.
`loops` are the connections whose replication loop still runs. -/
structure Lifecycle where
  status : ServiceStatus := .starting
  queryPoolConfig : Bool := false
  queryPool : Bool := false
  replicationConn : Option Nat := none
  runCtx : Bool := false
  startupMu : Bool := false
  nextConn : Nat := 0
  loops : List Nat := []
  tasks : List Task := []
deriving DecidableEq, Repr

/-- One critical section of a goroutine, the outcome of a call where it makes one, or an
event from outside. -/
inductive RuntimeAction where
  | start (parsed : Bool)
  | openPool
  | advance (task : Nat) (succeeds : Bool)
  | tick (task : Nat)
  | exit (task : Nat)
  | loopEnds (conn : Nat) (failed : Bool)
  | close
  | closed (task : Nat)
deriving DecidableEq, Repr

def Work.isConnecting : Work → Bool
  | .connecting _ _ => true
  | _ => false

def Work.inRun : Work → Bool
  | .connecting _ supervised => supervised
  | .supervising => true
  | _ => false

def nextRemote : Remote → Phase
  | .ensurePublication => .remote .connectConfig
  | .connectConfig => .remote .identifySystem
  | .identifySystem => .remote .prepareReplicationStart
  | .prepareReplicationStart => .remote .startReplication
  | .startReplication => .install

namespace Lifecycle

def setStatus (life : Lifecycle) (status : ServiceStatus) : Lifecycle :=
  if life.status = .stopped then life else { life with status := status }

def setTask (life : Lifecycle) (index : Nat) (task : Task) : Lifecycle :=
  { life with tasks := life.tasks.set index task }

/-- What an attempt does before it sets the status, and where it stands then.  The lock of
`ensureReplication` is released when that function returns. -/
def connect (life : Lifecycle) (succeeds : Bool) : Phase → Lifecycle × Phase
  | .ensurePool =>
      if life.queryPool then
        (life, .checkConnection)
      else if life.queryPoolConfig then
        (life, .openPool)
      else
        (life, .setStatus false)
  | .openPool =>
      if succeeds then
        ({ life with queryPool := true }, .checkConnection)
      else
        (life, .setStatus false)
  | .checkConnection =>
      (life, if life.replicationConn.isSome then .setStatus true else .lockStartup)
  | .lockStartup =>
      if life.startupMu then
        (life, .lockStartup)
      else
        ({ life with startupMu := true }, .recheckConnection)
  | .recheckConnection =>
      if life.replicationConn.isSome then
        ({ life with startupMu := false }, .setStatus true)
      else if life.queryPool then
        (life, .remote .ensurePublication)
      else
        ({ life with startupMu := false }, .setStatus false)
  | .remote call =>
      if succeeds then
        (life, nextRemote call)
      else
        ({ life with startupMu := false }, .setStatus false)
  | .install =>
      ({ life with
          replicationConn := some life.nextConn
          nextConn := life.nextConn + 1
          loops := life.nextConn :: life.loops
          status := .active }, .saveCheckpoint)
  | .saveCheckpoint => ({ life with startupMu := false }, .setStatus succeeds)
  | .setStatus connected => (life, .setStatus connected)

def advance (life : Lifecycle) (index : Nat) (succeeds : Bool) : Lifecycle :=
  match life.tasks[index]? with
  | some ⟨.connecting (.setStatus connected) _, cancelled⟩ =>
      (life.setStatus (if connected then .active else .waiting)).setTask index
        ⟨.supervising, cancelled⟩
  | some ⟨.connecting phase supervised, cancelled⟩ =>
      (life.connect succeeds phase).1.setTask index
        ⟨.connecting (life.connect succeeds phase).2 supervised, cancelled⟩
  | _ => life

/-- A configuration that does not parse changes nothing. -/
def start (life : Lifecycle) (parsed : Bool) : Lifecycle :=
  if parsed then
    { life with
      queryPoolConfig := true
      runCtx := true
      status := .starting
      tasks := life.tasks ++ [⟨.connecting .ensurePool false, false⟩] }
  else
    life

/-- The supervisor tries to connect when there is no connection. -/
def tick (life : Lifecycle) (index : Nat) : Lifecycle :=
  match life.tasks[index]? with
  | some ⟨.supervising, cancelled⟩ =>
      if life.replicationConn.isSome then
        life
      else
        life.setTask index ⟨.connecting .ensurePool true, cancelled⟩
  | _ => life

def exit (life : Lifecycle) (index : Nat) : Lifecycle :=
  match life.tasks[index]? with
  | some ⟨.supervising, true⟩ => life.setTask index ⟨.over, true⟩
  | _ => life

/-- A replication loop returns: through `handleReplicationError`, or without a word when
`Close` has cancelled it. -/
def loopEnds (life : Lifecycle) (conn : Nat) (failed : Bool) : Lifecycle :=
  if conn ∈ life.loops then
    let life' := { life with loops := life.loops.erase conn }
    if life.replicationConn = some conn then
      if failed then
        { life' with replicationConn := none }.setStatus .waiting
      else
        life
    else
      life'
  else
    life

def close (life : Lifecycle) : Lifecycle :=
  { life with
    replicationConn := none
    runCtx := false
    tasks := life.tasks.map (fun task => { task with cancelled := true }) ++
      [⟨.closing life.runCtx, false⟩] }

def closed (life : Lifecycle) (index : Nat) : Lifecycle :=
  match life.tasks[index]? with
  | some ⟨.closing awaitsRun, cancelled⟩ =>
      if life.loops.isEmpty && !(awaitsRun && life.tasks.any (·.work.inRun)) then
        { life with queryPool := false, status := .stopped }.setTask index ⟨.over, cancelled⟩
      else
        life
  | _ => life

def perform (life : Lifecycle) : RuntimeAction → Lifecycle
  | .start parsed => life.start parsed
  -- a request opens the pool
  | .openPool => if life.queryPoolConfig then { life with queryPool := true } else life
  | .advance index succeeds => life.advance index succeeds
  | .tick index => life.tick index
  | .exit index => life.exit index
  | .loopEnds conn failed => life.loopEnds conn failed
  | .close => life.close
  | .closed index => life.closed index

def Connecting (life : Lifecycle) : Prop :=
  ∃ task ∈ life.tasks, task.work.isConnecting = true

/-- Outside an attempt, and until it is stopped, the runtime is active exactly while it has
a connection. -/
def Reflects (life : Lifecycle) : Prop :=
  ¬life.Connecting → life.status ≠ .stopped →
    (life.status = .active ↔ life.replicationConn.isSome = true)

/-- No task but this one is connecting. -/
def OnlyConnecting (life : Lifecycle) (index : Nat) : Prop :=
  ∀ other task, life.tasks[other]? = some task → other ≠ index →
    task.work.isConnecting = false

/-- The last attempt in progress ends well exactly if a connection is installed, and the
runtime is closed only while there is none. -/
def Orderly (life : Lifecycle) : RuntimeAction → Prop
  | .advance index _ =>
      ∀ connected supervised cancelled,
        life.tasks[index]? = some ⟨.connecting (.setStatus connected) supervised, cancelled⟩ →
          life.OnlyConnecting index → life.status ≠ .stopped →
            (connected = true ↔ life.replicationConn.isSome = true)
  | .close => ¬life.Connecting → life.status ≠ .stopped → life.replicationConn = none
  | _ => True

section Steps

variable {life : Lifecycle} {index : Nat} {task : Task}

theorem connecting_of_getElem? (found : life.tasks[index]? = some task)
    (connecting : task.work.isConnecting = true) : life.Connecting :=
  ⟨task, List.mem_of_getElem? found, connecting⟩

theorem setTask_connecting (found : life.tasks[index]? = some task) (next : Task) :
    (life.setTask index next).Connecting ↔
      next.work.isConnecting = true ∨ ¬life.OnlyConnecting index := by
  have below : index < life.tasks.length := (List.getElem?_eq_some_iff.mp found).1
  have looked : ∀ other, (life.setTask index next).tasks[other]? =
      if index = other then some next else life.tasks[other]? := by
    intro other
    change (life.tasks.set index next)[other]? = _
    rw [List.getElem?_set]
    split <;> rfl
  constructor
  · intro ⟨member, listed, connecting⟩
    obtain ⟨other, place⟩ := List.getElem?_of_mem listed
    rw [looked] at place
    split at place
    · obtain rfl := Option.some.inj place
      exact .inl connecting
    · next different =>
        refine .inr fun alone => ?_
        rw [alone other member place fun same => different same.symm] at connecting
        cases connecting
  · intro either
    rcases either with connecting | crowded
    · exact connecting_of_getElem? (by rw [looked, if_pos rfl]) connecting
    · simp only [OnlyConnecting] at crowded
      push Not at crowded
      obtain ⟨other, member, place, different, connecting⟩ := crowded
      refine @connecting_of_getElem? _ other member ?_ (by simpa using connecting)
      rw [looked, if_neg fun same => different same.symm]
      exact place

theorem not_connecting_iff_onlyConnecting (found : life.tasks[index]? = some task)
    (idle : task.work.isConnecting = false) :
    ¬life.Connecting ↔ life.OnlyConnecting index := by
  constructor
  · intro none other member place _
    by_contra connecting
    exact none (connecting_of_getElem? place (by simpa using connecting))
  · intro alone ⟨member, listed, connecting⟩
    obtain ⟨other, place⟩ := List.getElem?_of_mem listed
    by_cases same : other = index
    · rw [same, found] at place
      rw [← Option.some.inj place, idle] at connecting
      cases connecting
    · rw [alone other member place same] at connecting
      cases connecting

theorem reflects_of_connecting (connecting : life.Connecting) : life.Reflects :=
  fun none => absurd connecting none

theorem setTask_reflects (found : life.tasks[index]? = some task)
    (idle : task.work.isConnecting = false) {next : Task} (reflects : life.Reflects) :
    (life.setTask index next).Reflects := by
  intro none
  rw [setTask_connecting found] at none
  push Not at none
  exact reflects ((not_connecting_iff_onlyConnecting found idle).mpr none.2)

theorem connect_tasks (succeeds : Bool) (phase : Phase) :
    (life.connect succeeds phase).1.tasks = life.tasks := by
  cases phase <;> simp only [connect] <;> split_ifs <;> rfl

@[simp] theorem setStatus_tasks (status : ServiceStatus) :
    (life.setStatus status).tasks = life.tasks := by
  unfold setStatus
  split <;> rfl

@[simp] theorem setStatus_replicationConn (status : ServiceStatus) :
    (life.setStatus status).replicationConn = life.replicationConn := by
  unfold setStatus
  split <;> rfl

theorem finish_reflects_iff {connected supervised cancelled : Bool}
    (found : life.tasks[index]? =
      some ⟨.connecting (.setStatus connected) supervised, cancelled⟩) :
    ((life.setStatus (if connected then .active else .waiting)).setTask index
        ⟨.supervising, cancelled⟩).Reflects ↔
      (life.OnlyConnecting index → life.status ≠ .stopped →
        (connected = true ↔ life.replicationConn.isSome = true)) := by
  have placed : (life.setStatus (if connected then .active else .waiting)).tasks[index]? =
      some ⟨.connecting (.setStatus connected) supervised, cancelled⟩ := by
    rw [setStatus_tasks]
    exact found
  have alone : (life.setStatus (if connected then .active else .waiting)).OnlyConnecting index ↔
      life.OnlyConnecting index := by
    rw [OnlyConnecting, OnlyConnecting, setStatus_tasks]
  rw [Reflects, setTask_connecting placed, alone]
  simp only [Work.isConnecting, Bool.false_eq_true, false_or, not_not]
  refine forall_congr' fun _ => ?_
  change (life.setStatus _).status ≠ .stopped → ((life.setStatus _).status = .active ↔
    (life.setStatus _).replicationConn.isSome = true) ↔ _
  rw [setStatus_replicationConn]
  by_cases stopped : life.status = .stopped
  · simp [setStatus, stopped]
  · cases connected <;> simp [setStatus, stopped]

theorem advance_of_other (other : ∀ phase supervised cancelled,
    life.tasks[index]? ≠ some ⟨.connecting phase supervised, cancelled⟩) (succeeds : Bool) :
    life.advance index succeeds = life := by
  unfold advance
  split
  · next found => exact absurd found (other _ _ _)
  · next found => exact absurd found (other _ _ _)
  · rfl

theorem advance_reflects_iff (reflects : life.Reflects) (succeeds : Bool) :
    (life.advance index succeeds).Reflects ↔ life.Orderly (.advance index succeeds) := by
  by_cases attempt : ∃ phase supervised cancelled,
      life.tasks[index]? = some ⟨.connecting phase supervised, cancelled⟩
  · obtain ⟨phase, supervised, cancelled, found⟩ := attempt
    by_cases ends : ∃ connected, phase = .setStatus connected
    · obtain ⟨connected, rfl⟩ := ends
      rw [advance, found]
      dsimp only
      rw [finish_reflects_iff found]
      constructor
      · intro exact result supervision cancellation same
        rw [found] at same
        obtain ⟨work, -⟩ := Task.mk.inj (Option.some.inj same)
        obtain ⟨phases, -⟩ := Work.connecting.inj work
        obtain rfl := Phase.setStatus.inj phases
        exact exact
      · intro orderly
        exact orderly connected supervised cancelled found
    · -- an attempt that goes on is in progress
      have going : life.advance index succeeds =
          (life.connect succeeds phase).1.setTask index
            ⟨.connecting (life.connect succeeds phase).2 supervised, cancelled⟩ := by
        rw [advance, found]
        cases phase with
        | setStatus connected => exact absurd ⟨connected, rfl⟩ ends
        | _ => rfl
      have placed : (life.connect succeeds phase).1.tasks[index]? =
          some ⟨.connecting phase supervised, cancelled⟩ := by
        rw [connect_tasks]
        exact found
      rw [going]
      refine iff_of_true (reflects_of_connecting ?_) ?_
      · rw [setTask_connecting placed]
        exact .inl rfl
      · intro connected _ _ same
        rw [found] at same
        obtain ⟨work, -⟩ := Task.mk.inj (Option.some.inj same)
        exact absurd ⟨connected, (Work.connecting.inj work).1⟩ ends
  · have other : ∀ phase supervised cancelled,
        life.tasks[index]? ≠ some ⟨.connecting phase supervised, cancelled⟩ :=
      fun phase supervised cancelled found => attempt ⟨phase, supervised, cancelled, found⟩
    rw [advance_of_other other]
    refine iff_of_true reflects ?_
    intro connected supervised cancelled found
    exact absurd found (other _ _ _)

theorem close_reflects_iff (reflects : life.Reflects) :
    life.close.Reflects ↔ life.Orderly .close := by
  have connecting : life.close.Connecting ↔ life.Connecting := by
    simp [Connecting, close, Work.isConnecting]
  rw [Reflects, connecting]
  refine forall_congr' fun none => forall_congr' fun running => ?_
  have before := reflects none running
  rw [← Option.not_isSome_iff_eq_none, ← before]
  simp [close]

theorem loopEnds_reflects (reflects : life.Reflects) (conn : Nat) (failed : Bool) :
    (life.loopEnds conn failed).Reflects := by
  unfold loopEnds
  split
  · dsimp only
    split
    · split
      · intro _ running
        rw [setStatus_replicationConn]
        by_cases stopped : life.status = .stopped
        · simp [setStatus, stopped] at running
        · simp [setStatus, stopped]
      · exact reflects
    · exact reflects
  · exact reflects

theorem start_reflects (reflects : life.Reflects) (parsed : Bool) :
    (life.start parsed).Reflects := by
  cases parsed with
  | false => exact reflects
  | true =>
      refine reflects_of_connecting ⟨⟨.connecting .ensurePool false, false⟩, ?_, rfl⟩
      exact List.mem_append_right _ (List.mem_singleton_self _)

theorem tick_reflects (reflects : life.Reflects) : (life.tick index).Reflects := by
  unfold tick
  split
  · next found =>
      split
      · exact reflects
      · exact setTask_reflects found rfl reflects
  · exact reflects

theorem exit_reflects (reflects : life.Reflects) : (life.exit index).Reflects := by
  unfold exit
  split
  · next found => exact setTask_reflects found rfl reflects
  · exact reflects

theorem closed_reflects (reflects : life.Reflects) : (life.closed index).Reflects := by
  unfold closed
  split
  · split
    · intro _ running
      exact absurd rfl running
    · exact reflects
  · exact reflects

theorem perform_reflects_iff (reflects : life.Reflects) (action : RuntimeAction) :
    (life.perform action).Reflects ↔ life.Orderly action := by
  cases action with
  | start parsed => exact iff_of_true (start_reflects reflects parsed) trivial
  | openPool =>
      refine iff_of_true ?_ trivial
      unfold perform
      dsimp only
      split <;> exact reflects
  | advance index succeeds => exact advance_reflects_iff reflects succeeds
  | tick index => exact iff_of_true (tick_reflects reflects) trivial
  | exit index => exact iff_of_true (exit_reflects reflects) trivial
  | loopEnds conn failed => exact iff_of_true (loopEnds_reflects reflects conn failed) trivial
  | close => exact close_reflects_iff reflects
  | closed index => exact iff_of_true (closed_reflects reflects) trivial

end Steps

/-- In a run of the runtime the status reflects the connection throughout exactly when every
step is orderly. -/
theorem status_reflects_iff (actions : List RuntimeAction) :
    (∀ part, part <+: actions → (part.foldl perform ({} : Lifecycle)).Reflects) ↔
      Along perform Orderly {} actions := by
  have exact : ∀ (life : Lifecycle) (action : RuntimeAction), True → life.Reflects →
      ((life.perform action).Reflects ↔ life.Orderly action) :=
    fun _ action _ reflects => perform_reflects_iff reflects action
  refine Along.throughout_iff (fun _ => True) (fun _ _ _ _ _ => trivial) exact actions {}
    trivial ?_
  intro _ _
  simp

/-- The runtime connects, but the checkpoint of the start cannot be saved. -/
def unsavedStart : List RuntimeAction :=
  .start true :: List.replicate 11 (.advance 0 true) ++ [.advance 0 false, .advance 0 true]

/-- After an attempt that has failed in its last step the runtime reports that it waits for
a connection that it has, and the ticks of the supervisor change nothing. -/
theorem unsavedStart_not_reflects :
    let reached := unsavedStart.foldl perform ({} : Lifecycle)
    reached.status = .waiting ∧ reached.replicationConn = some 0 ∧ reached.loops = [0] ∧
      reached.perform (.tick 0) = reached ∧ ¬reached.Reflects := by
  refine ⟨by decide, by decide, by decide, by decide, fun reflects => ?_⟩
  have idle : ¬(unsavedStart.foldl perform ({} : Lifecycle)).Connecting := by
    unfold Connecting
    decide
  exact absurd ((reflects idle (by decide)).mpr (by decide)) (by decide)

end Lifecycle

end PostgresSync.Pg
