import PostgresSync.Pg.Runtime
import PostgresSync.Shapes.Effects

namespace PostgresSync.Pg

open PostgresSync.Data
open PostgresSync.Shapes
open PostgresSync.Storage

/-! Where the stream starts after a connection has been made. -/

structure SlotCreation where
  consistentPoint : String := ""
  error : Option String := none
deriving DecidableEq, Repr

/-- What the server answers while a connection is prepared. -/
structure ReplicationServer where
  sysident : SystemIdentity
  slotExists : Except String Bool
  slot : SlotCreation
deriving DecidableEq

def checkpointCompatible (checkpoint : RuntimeCheckpoint) (slotName : String)
    (sysident : SystemIdentity) (dbName : String) : Bool :=
  checkpoint.slotName = slotName &&
    checkpoint.systemID = sysident.systemID &&
    checkpoint.timeline = sysident.timeline &&
    checkpoint.dbName = dbName &&
    !SqlInspect.isBlank checkpoint.lastConfirmedLSN

def SlotCreation.failure (slot : SlotCreation) : Option String :=
  slot.error.filter fun text => !containsText "already exists" (text.toList.map lowerChar)

section Start

variable [Store σ]

def invalidateShapes (manager : Manager σ) (now : Time) :
    Except RuntimeError Unit × Manager σ :=
  let invalidated := manager.invalidateAll now
  (invalidated.1.2.mapError .manager, invalidated.2)

/-- The checkpoint that the start may rely on.  A memory store has none, and a
checkpoint of another stream, or whose slot is gone, costs every shape. -/
def validCheckpoint (cfg : Config) (manager : Manager σ)
    (sysident : SystemIdentity) (slotName : String) (slotExists : Bool)
    (stored : Option RuntimeCheckpoint) (now : Time) :
    Except RuntimeError (Option RuntimeCheckpoint) × Manager σ :=
  match (if Store.kind manager.store = .memory then none else stored) with
  | none => (.ok none, manager)
  | some checkpoint =>
      if checkpointCompatible checkpoint slotName sysident cfg.databaseName &&
          slotExists then
        (.ok (some checkpoint), manager)
      else
        let invalidated := invalidateShapes manager now
        (invalidated.1.map fun _ => none, invalidated.2)

variable [LSNText]

/-- The position the server itself offers: the consistent point of a slot it has
just created, or the one of IDENTIFY_SYSTEM. -/
def serverPosition (server : ReplicationServer) (slotExists : Bool) : LSN :=
  if slotExists || server.slot.consistentPoint = "" then
    server.sysident.xLogPos
  else
    (LSNText.parse server.slot.consistentPoint).getD server.sysident.xLogPos

def startPosition (server : ReplicationServer) (slotExists : Bool)
    (valid : Option RuntimeCheckpoint) : Except RuntimeError LSN :=
  if !slotExists then
    match server.slot.failure with
    | some text => .error (.replication text)
    | none => .ok (serverPosition server slotExists)
  else
    match valid with
    | none => .ok (serverPosition server slotExists)
    | some checkpoint =>
        .ok ((LSNText.parse checkpoint.lastConfirmedLSN).getD
          (serverPosition server slotExists))

def prepareReplicationStart (cfg : Config) (manager : Manager σ)
    (server : ReplicationServer) (now : Time) :
    Except RuntimeError (String × LSN) × Manager σ :=
  let slotName := replicationSlotName cfg manager.store now
  match Store.loadRuntimeCheckpoint manager.store, server.slotExists with
  | .error error, _ => (.error (.store error), manager)
  | .ok _, .error text => (.error (.query text), manager)
  | .ok stored, .ok slotExists =>
      match validCheckpoint cfg manager server.sysident slotName slotExists stored now with
      | (.error error, manager) => (.error error, manager)
      | (.ok valid, manager) =>
          ((startPosition server slotExists valid).map fun start => (slotName, start),
            manager)

variable {cfg : Config} {manager after : Manager σ} {server : ReplicationServer}
  {slotName : String} {slotExists : Bool} {start lastApplied : LSN} {now : Time}

omit [LSNText] in
/-- What a start without error has found out about the checkpoint, and done to
the shapes. -/
theorem validCheckpoint_cases {stored valid : Option RuntimeCheckpoint}
    (succeeded : validCheckpoint cfg manager server.sysident slotName slotExists
      stored now = (.ok valid, after)) :
    (valid = none ∧ after = manager ∧
        (Store.kind manager.store = .disk → stored = none)) ∨
      ∃ checkpoint, Store.kind manager.store = .disk ∧ stored = some checkpoint ∧
        ((checkpointCompatible checkpoint slotName server.sysident
            cfg.databaseName = true ∧ slotExists = true ∧
            valid = some checkpoint ∧ after = manager) ∨
          ((checkpointCompatible checkpoint slotName server.sysident
              cfg.databaseName = false ∨ slotExists = false) ∧
            ∀ handle, after.active? handle = none)) := by
  unfold validCheckpoint at succeeded
  cases kind : Store.kind manager.store with
  | memory =>
      simp only [kind, if_true, Prod.mk.injEq, Except.ok.injEq] at succeeded
      exact .inl ⟨succeeded.1.symm, succeeded.2.symm, by simp⟩
  | disk =>
      simp only [kind, reduceCtorEq, if_false] at succeeded
      cases stored with
      | none =>
          simp only [Prod.mk.injEq, Except.ok.injEq] at succeeded
          exact .inl ⟨succeeded.1.symm, succeeded.2.symm, fun _ => rfl⟩
      | some checkpoint =>
          refine .inr ⟨checkpoint, rfl, rfl, ?_⟩
          simp only at succeeded
          split at succeeded
          · next usable =>
              simp only [Prod.mk.injEq, Except.ok.injEq] at succeeded
              rw [Bool.and_eq_true] at usable
              exact .inl ⟨usable.1, usable.2, succeeded.1.symm, succeeded.2.symm⟩
          · next unusable =>
              refine .inr ⟨by simpa [or_iff_not_imp_left] using unusable, ?_⟩
              cases invalidated : manager.invalidateAll now with
              | mk answer remaining =>
                  obtain ⟨handles, result⟩ := answer
                  cases result with
                  | error error =>
                      simp [invalidateShapes, invalidated, Except.mapError,
                        Except.map] at succeeded
                  | ok value =>
                      simp only [invalidateShapes, invalidated, Prod.mk.injEq]
                        at succeeded
                      rw [← succeeded.2]
                      exact Manager.active?_invalidateAll invalidated

theorem prepareReplicationStart_eq_ok
    (returned : prepareReplicationStart cfg manager server now =
      (.ok (slotName, start), after)) :
    ∃ stored slotExists valid,
      Store.loadRuntimeCheckpoint manager.store = .ok stored ∧
      server.slotExists = .ok slotExists ∧
      slotName = replicationSlotName cfg manager.store now ∧
      validCheckpoint cfg manager server.sysident slotName slotExists stored now =
        (.ok valid, after) ∧
      startPosition server slotExists valid = .ok start := by
  unfold prepareReplicationStart at returned
  cases loaded : Store.loadRuntimeCheckpoint manager.store with
  | error error => simp [loaded] at returned
  | ok stored =>
      cases listed : server.slotExists with
      | error text => simp [loaded, listed] at returned
      | ok slotExists =>
          simp only [loaded, listed] at returned
          split at returned
          · next error _ _ => cases returned
          · next valid remaining validated =>
              obtain ⟨started, rfl⟩ := Prod.mk.inj returned
              cases position : startPosition server slotExists valid with
              | error error => simp [position, Except.map] at started
              | ok chosen =>
                  simp only [position, Except.map, Except.ok.injEq, Prod.mk.injEq]
                    at started
                  obtain ⟨rfl, rfl⟩ := started
                  exact ⟨stored, slotExists, valid, rfl, rfl, rfl, validated, position⟩

theorem startPosition_none {start : LSN}
    (started : startPosition server slotExists none = .ok start) :
    start = serverPosition server slotExists := by
  unfold startPosition at started
  split at started
  · split at started
    · cases started
    · exact (Except.ok.inj started).symm
  · exact (Except.ok.inj started).symm

/-- While a shape is active, the stream starts no later than the last transaction
that the shapes contain. -/
def NoGap (manager : Manager σ) (start lastApplied : LSN) : Prop :=
  (∃ (handle : String) (state : State), manager.active? handle = some state) →
    start ≤ lastApplied

omit [LSNText] [Store σ] in
theorem noGap_iff :
    NoGap manager start lastApplied ↔
      (∀ handle, manager.active? handle = none) ∨ start ≤ lastApplied := by
  constructor
  · intro noGap
    refine Classical.or_iff_not_imp_left.mpr fun some_active => noGap ?_
    obtain ⟨handle, active⟩ := not_forall.mp some_active
    exact ⟨handle, Option.ne_none_iff_exists'.mp active⟩
  · rintro (inactive | covered) ⟨handle, state, found⟩
    · rw [inactive handle] at found
      cases found
    · exact covered

/-- The store is a disk store with a checkpoint that gives the position to resume
from or costs every shape. -/
def Resumable (cfg : Config) (manager : Manager σ) (server : ReplicationServer)
    (now : Time) : Prop :=
  Store.kind manager.store = .disk ∧
    ∃ checkpoint, Store.loadRuntimeCheckpoint manager.store = .ok (some checkpoint) ∧
      (checkpointCompatible checkpoint (replicationSlotName cfg manager.store now)
          server.sysident cfg.databaseName = false ∨
        server.slotExists = .ok false ∨
        (LSNText.parse checkpoint.lastConfirmedLSN).isSome)

/-- A start leaves no gap exactly when no shape was active, or the checkpoint
decides, or the server's own position is not ahead of the shapes. -/
theorem prepareReplicationStart_noGap_iff
    (returned : prepareReplicationStart cfg manager server now =
      (.ok (slotName, start), after))
    (recorded : ∀ checkpoint position,
      Store.loadRuntimeCheckpoint manager.store = .ok (some checkpoint) →
        LSNText.parse checkpoint.lastConfirmedLSN = some position →
          position = lastApplied) :
    NoGap after start lastApplied ↔
      (∀ handle, manager.active? handle = none) ∨
        Resumable cfg manager server now ∨
        ∀ slotExists, server.slotExists = .ok slotExists →
          serverPosition server slotExists ≤ lastApplied := by
  obtain ⟨stored, slotExists, valid, loaded, listed, rfl, validated, started⟩ :=
    prepareReplicationStart_eq_ok returned
  have offered : (∀ slotExists, server.slotExists = .ok slotExists →
      serverPosition server slotExists ≤ lastApplied) ↔
        serverPosition server slotExists ≤ lastApplied := by
    simp [listed]
  rw [offered, noGap_iff]
  -- without a usable checkpoint the server's position is taken as it is
  rcases validCheckpoint_cases validated with
    ⟨rfl, rfl, unrecorded⟩ | ⟨checkpoint, disk, rfl, usable | invalidated⟩
  · have unresumable : ¬Resumable cfg after server now := by
      rintro ⟨disk, checkpoint, found, -⟩
      rw [loaded, unrecorded disk] at found
      cases found
    rw [startPosition_none started]
    simp [unresumable]
  · obtain ⟨compatible, rfl, rfl, rfl⟩ := usable
    have chosen : start = (LSNText.parse checkpoint.lastConfirmedLSN).getD
        (serverPosition server true) := by
      simpa [startPosition, eq_comm] using started
    cases parsed : LSNText.parse checkpoint.lastConfirmedLSN with
    | some position =>
        have resumable : Resumable cfg after server now :=
          ⟨disk, checkpoint, loaded, .inr (.inr (by simp [parsed]))⟩
        have covered : start ≤ lastApplied := by
          rw [chosen, parsed, ← recorded checkpoint position loaded parsed]
          exact UInt64.le_refl _
        simp [resumable, covered]
    | none =>
        have unresumable : ¬Resumable cfg after server now := by
          rintro ⟨-, other, found, reason⟩
          rw [loaded] at found
          obtain rfl := Option.some.inj (Except.ok.inj found)
          simp [compatible, listed, parsed] at reason
        rw [chosen, parsed]
        simp [unresumable]
  · have resumable : Resumable cfg manager server now := by
      refine ⟨disk, checkpoint, loaded, ?_⟩
      rcases invalidated.1 with incompatible | missing
      · exact .inl incompatible
      · exact .inr (.inl (missing ▸ listed))
    simp [resumable, invalidated.2]

end Start

section Reconnect

abbrev tabulatedLSNText : LSNText where
  parse text :=
    if text = "0/64" then some 100 else if text = "0/C8" then some 200 else none
  format lsn := if lsn = 100 then "0/64" else if lsn = 200 then "0/C8" else "0/0"

def syncConfig : Config where
  replicationStreamID := "main"
  databaseName := "app"

def movedServer (slotExists : Bool) : ReplicationServer where
  sysident := ⟨"7001", 1, 200⟩
  slotExists := .ok slotExists
  slot := { consistentPoint := "0/C8" }

/-- A manager whose shape holds everything up to 100, as its checkpoint says. -/
def appliedManager [Store σ] (store : σ) : Manager σ :=
  letI := tabulatedLSNText
  (saveRuntimeCheckpoint syncConfig (itemsManagerOver store)
    "postgres_sync_go_main_slot" 100 (movedServer true).sysident).2

def appliedCheckpoint : RuntimeCheckpoint where
  slotName := "postgres_sync_go_main_slot"
  lastConfirmedLSN := "0/64"
  systemID := "7001"
  timeline := 1
  dbName := "app"

def diskManager : Manager RecordStore := appliedManager ⟨newMemoryStore⟩

theorem prepareReplicationStart_noGap_disk :
    letI := tabulatedLSNText
    let restarted := prepareReplicationStart syncConfig diskManager (movedServer true) 2000
    restarted.1 = .ok ("postgres_sync_go_main_slot", 100) ∧
      NoGap restarted.2 100 100 := by
  have loaded : Store.loadRuntimeCheckpoint diskManager.store =
      .ok (some appliedCheckpoint) := by
    decide +kernel
  refine ⟨by decide +kernel, ?_⟩
  refine (@prepareReplicationStart_noGap_iff _ _ tabulatedLSNText syncConfig diskManager
    _ (movedServer true) "postgres_sync_go_main_slot" 100 100 2000 (by decide +kernel)
    ?_).mpr (.inr (.inl ⟨rfl, appliedCheckpoint, loaded, .inr (.inr rfl)⟩))
  intro checkpoint position found parsed
  rw [loaded] at found
  obtain rfl := Option.some.inj (Except.ok.inj found)
  exact (Option.some.inj parsed).symm

/-- A memory store ignores its checkpoint when the connection is made again: the
stream resumes at the new slot's position, and the shape stays. -/
theorem reconnect_memory_gap :
    letI := tabulatedLSNText
    let manager := appliedManager newMemoryStore
    let reconnected := prepareReplicationStart syncConfig manager (movedServer false) 2000
    Store.loadRuntimeCheckpoint manager.store = .ok (some appliedCheckpoint) ∧
      LSNText.parse appliedCheckpoint.lastConfirmedLSN = some 100 ∧
      reconnected.1.map (·.2) = .ok 200 ∧
      ¬NoGap reconnected.2 200 100 := by
  refine ⟨by decide +kernel, by decide +kernel, by decide +kernel, fun noGap => ?_⟩
  have active : ((@prepareReplicationStart _ _ tabulatedLSNText syncConfig
      (appliedManager newMemoryStore) (movedServer false) 2000).2.active?
        "fa19db76c4-1").isSome = true := by
    decide +kernel
  obtain ⟨state, found⟩ := Option.isSome_iff_exists.mp active
  exact absurd (noGap ⟨_, state, found⟩) (by decide)

end Reconnect

end PostgresSync.Pg
