import PostgresSync.Shapes.Writes

namespace PostgresSync.Shapes

open PostgresSync.Data
open PostgresSync.Storage

/-! Waits for a change of a shape, interleaved with the operations of the manager. -/

namespace Manager

def registered (manager : Manager σ) (handle : String) : List Nat :=
  manager.waiters.getD handle []

/-- A reader at the offset has nothing to fetch. -/
def Settled (manager : Manager σ) (handle offset : String) : Prop :=
  ∃ state, manager.read handle offset = .ok (state, [])

end Manager

/-- What `read` looks at when a reader at the offset has nothing to fetch. -/
structure State.SettledAt (state : State) (offset : String) : Prop where
  active : state.deleted = false
  parsed : (parseOffset offset).isSome = true
  within : compareOffsets offset state.currentOffset ≠ .gt
  quiet : compareOffsets offset state.currentOffset = .lt →
    Manager.changesAfter state.changes offset = []

namespace Manager

variable {manager next : Manager σ} {handle : String}

theorem settled_iff {offset : String} :
    manager.Settled handle offset ↔
      ∃ state, manager.byHandle[handle]? = some state ∧ state.SettledAt offset := by
  unfold Settled read readLocked
  cases manager.byHandle[handle]? with
  | none => simp
  | some state =>
      constructor
      · intro ⟨read, answered⟩
        refine ⟨state, rfl, ?_⟩
        cases deleted : state.deleted with
        | true => simp [deleted] at answered
        | false =>
            cases parsed : parseOffset offset with
            | none => simp [deleted, parsed] at answered
            | some position =>
                cases order : compareOffsets offset state.currentOffset with
                | gt => simp [deleted, parsed, order] at answered
                | eq =>
                    exact ⟨deleted, by simp [parsed], by simp [order], by simp [order]⟩
                | lt =>
                    simp only [deleted, parsed, order] at answered
                    exact ⟨deleted, by simp [parsed], by simp [order],
                      fun _ => (Prod.mk.inj (Except.ok.inj answered)).2⟩
      · intro ⟨other, same, settled⟩
        obtain rfl := Option.some.inj same
        obtain ⟨position, parsed⟩ := Option.isSome_iff_exists.mp settled.parsed
        refine ⟨state, ?_⟩
        cases order : compareOffsets offset state.currentOffset with
        | gt => exact absurd order settled.within
        | eq => simp [settled.active, parsed, order]
        | lt => simp [settled.active, parsed, order, settled.quiet order]

/-- Every channel is registered once, and none of those has been closed. -/
structure Channels (manager : Manager σ) : Prop where
  once : ∀ handle, (manager.registered handle).Nodup
  apart : ∀ left right waiter, waiter ∈ manager.registered left →
    waiter ∈ manager.registered right → left = right
  opened : ∀ handle, ∀ waiter ∈ manager.registered handle, waiter ∉ manager.closed
  closedOnce : manager.closed.Nodup

theorem Channels.congr (channels : manager.Channels) (waiters : next.waiters = manager.waiters)
    (closed : next.closed = manager.closed) :
    next.Channels := by
  have same : next.registered = manager.registered := by
    funext handle
    rw [registered, registered, waiters]
  constructor
  · rw [same]
    exact channels.once
  · rw [same]
    exact channels.apart
  · rw [same, closed]
    exact channels.opened
  · rw [closed]
    exact channels.closedOnce

theorem mem_registered_erase (waiters : next.waiters = manager.waiters.erase handle)
    {other : String} {waiter : Nat} :
    waiter ∈ next.registered other ↔ handle ≠ other ∧ waiter ∈ manager.registered other := by
  rw [registered, waiters, Dict.getD_erase]
  split
  · next same => simp [same]
  · next different => simp [different, registered]

theorem Channels.notified (channels : manager.Channels)
    (waiters : next.waiters = manager.waiters.erase handle)
    (closed : next.closed = manager.registered handle ++ manager.closed) :
    next.Channels where
  once other := by
    rw [registered, waiters, Dict.getD_erase]
    split
    · exact .nil
    · exact channels.once other
  apart left right waiter inLeft inRight :=
    channels.apart left right waiter ((mem_registered_erase waiters).mp inLeft).2
      ((mem_registered_erase waiters).mp inRight).2
  opened other waiter member := by
    obtain ⟨different, member⟩ := (mem_registered_erase waiters).mp member
    rw [closed, List.mem_append]
    intro either
    cases either with
    | inl here => exact different (channels.apart handle other waiter here member)
    | inr already => exact channels.opened other waiter member already
  closedOnce := by
    rw [closed]
    exact (channels.once handle).append channels.closedOnce (channels.opened handle)

theorem Channels.install (channels : manager.Channels) (write : Write) :
    (manager.install write).Channels := by
  have waiters := manager.install_waiters write
  have closed := manager.install_closed write
  cases notifies : write.notifies with
  | false =>
      rw [notifies] at waiters closed
      exact channels.congr waiters closed
  | true =>
      rw [notifies] at waiters closed
      exact channels.notified waiters closed

theorem mem_registered_install {write : Write} {waiter : Nat} :
    waiter ∈ (manager.install write).registered handle ↔
      waiter ∈ manager.registered handle ∧ (write.notifies = true → write.handle ≠ handle) := by
  have waiters := manager.install_waiters write
  cases notifies : write.notifies with
  | false =>
      rw [notifies, if_neg Bool.false_ne_true] at waiters
      simp [registered, waiters]
  | true =>
      rw [notifies, if_pos rfl] at waiters
      rw [mem_registered_erase waiters]
      simp [and_comm]

def addWaiter (manager : Manager σ) (handle : String) (waiter : Nat) : Manager σ :=
  { manager with
    waiters := manager.waiters.insert handle (manager.registered handle ++ [waiter]) }

section Registration

variable (manager handle) (other : String) (waiter : Nat)

theorem addWaiter_registered : (manager.addWaiter handle waiter).registered other =
    if handle = other then manager.registered handle ++ [waiter]
    else manager.registered other :=
  Dict.getD_insert manager.waiters handle other _ _

theorem removeWaiter_registered : (manager.removeWaiter handle waiter).registered other =
    if handle = other then (manager.registered handle).erase waiter
    else manager.registered other := by
  unfold removeWaiter registered
  dsimp only
  split
  · next vacant =>
      rw [List.isEmpty_iff.mp vacant]
      exact Dict.getD_erase manager.waiters handle other _
  · exact Dict.getD_insert manager.waiters handle other _ _

variable {manager handle other waiter}

theorem mem_addWaiter {id : Nat} :
    id ∈ (manager.addWaiter handle waiter).registered other ↔
      id ∈ manager.registered other ∨ (handle = other ∧ id = waiter) := by
  rw [addWaiter_registered]
  split
  · next same =>
      subst same
      simp
  · next different => simp [different]

theorem Channels.mem_removeWaiter (channels : manager.Channels) {id : Nat} :
    id ∈ (manager.removeWaiter handle waiter).registered other ↔
      id ∈ manager.registered other ∧ ¬(handle = other ∧ id = waiter) := by
  rw [removeWaiter_registered]
  split
  · next same =>
      subst same
      rw [(channels.once handle).mem_erase_iff]
      simp [and_comm]
  · next different => simp [different]

theorem Channels.addWaiter (channels : manager.Channels)
    (free : ∀ handle, waiter ∉ manager.registered handle)
    (unclosed : waiter ∉ manager.closed) : (manager.addWaiter handle waiter).Channels where
  once other := by
    rw [addWaiter_registered]
    split
    · refine (channels.once handle).append (by simp) ?_
      simpa using free handle
    · exact channels.once other
  apart left right id inLeft inRight := by
    rw [mem_addWaiter] at inLeft inRight
    rcases inLeft with inLeft | ⟨rfl, rfl⟩
    · rcases inRight with inRight | ⟨-, rfl⟩
      · exact channels.apart left right id inLeft inRight
      · exact absurd inLeft (free left)
    · rcases inRight with inRight | ⟨rfl, -⟩
      · exact absurd inRight (free right)
      · rfl
  opened other id member := by
    rcases mem_addWaiter.mp member with member | ⟨-, rfl⟩
    · exact channels.opened other id member
    · exact unclosed
  closedOnce := channels.closedOnce

theorem Channels.removeWaiter (channels : manager.Channels) :
    (manager.removeWaiter handle waiter).Channels where
  once other := by
    rw [removeWaiter_registered]
    split
    · exact (channels.once handle).erase waiter
    · exact channels.once other
  apart left right id inLeft inRight :=
    channels.apart left right id (channels.mem_removeWaiter.mp inLeft).1
      (channels.mem_removeWaiter.mp inRight).1
  opened other id member := channels.opened other id (channels.mem_removeWaiter.mp member).1
  closedOnce := channels.closedOnce

end Registration

end Manager

/-! The calls of `WaitForChange`. -/

/-- A call that has not returned.  The channel it registers is its own number. -/
structure WaitCall where
  handle : String
  offset : String
  phase : Manager.WaitPhase
deriving DecidableEq

/-- The manager and the calls of `WaitForChange` that have been made on it, without
those that have returned. -/
structure Waiting (σ : Type) where
  manager : Manager σ
  calls : List (Option WaitCall) := []

inductive WaitStep where
  | operate (call : Call)
  | start (handle offset : String)
  | advance (id : Nat) (wake : Manager.Wake)

namespace Waiting

section Steps

variable [Store σ] [Digest]

def step (system : Waiting σ) : WaitStep → Waiting σ
  | .operate call => { system with manager := system.manager.perform call }
  | .start handle offset =>
      { system with calls := system.calls ++ [some ⟨handle, offset, .polling⟩] }
  | .advance id wake =>
      match system.calls[id]? with
      | some (some call) =>
          match system.manager.waitForChange call.handle call.offset id wake call.phase with
          | (.pending phase, manager) =>
              ⟨manager, system.calls.set id (some { call with phase := phase })⟩
          | (_, manager) => ⟨manager, system.calls.set id none⟩
      | _ => system

end Steps

def select (handle offset : String) (waiter : Nat) : WaitCall :=
  ⟨handle, offset, .waiting waiter⟩

/-- A registered waiter has nothing to fetch, so it has missed no notification, and
every channel is registered and closed at most once. -/
structure NoLostWakeup (system : Waiting σ) : Prop where
  settled : ∀ handle, ∀ waiter ∈ system.manager.registered handle, ∃ offset,
    system.calls[waiter]? = some (some (select handle offset waiter)) ∧
      system.manager.Settled handle offset
  channels : system.manager.Channels

structure Owned (system : Waiting σ) : Prop where
  own : ∀ (id : Nat) (call : WaitCall), system.calls[id]? = some (some call) →
    ∀ waiter, call.phase = .waiting waiter → waiter = id
  made : ∀ waiter ∈ system.manager.closed, ∃ held, system.calls[waiter]? = some held ∧
    ∀ call : WaitCall, held = some call → call.phase = .waiting waiter

theorem NoLostWakeup.call_eq {system : Waiting σ} (sound : system.NoLostWakeup)
    {handle : String} {id : Nat} (member : id ∈ system.manager.registered handle)
    {call : WaitCall} (found : system.calls[id]? = some (some call)) :
    call = select handle call.offset id ∧ system.manager.Settled handle call.offset := by
  obtain ⟨offset, same, settled⟩ := sound.settled handle id member
  obtain rfl := Option.some.inj (Option.some.inj (found.symm.trans same))
  exact ⟨rfl, settled⟩

/-! One step of a waiting call. -/

section Advancing

variable {system : Waiting σ} {id : Nat} {call : WaitCall}

theorem NoLostWakeup.set (sound : system.NoLostWakeup) (held : Option WaitCall)
    (free : ∀ handle, id ∉ system.manager.registered handle) :
    NoLostWakeup { system with calls := system.calls.set id held } where
  settled handle waiter member := by
    obtain ⟨offset, found, settled⟩ := sound.settled handle waiter member
    refine ⟨offset, ?_, settled⟩
    have different : id ≠ waiter := by
      intro same
      exact free handle (same ▸ member)
    rw [List.getElem?_set_ne different]
    exact found
  channels := sound.channels

theorem Owned.set (owned : system.Owned) (held : Option WaitCall)
    (own : ∀ call : WaitCall, held = some call → ∀ waiter, call.phase = .waiting waiter →
      waiter = id)
    (made : id ∈ system.manager.closed → ∀ call : WaitCall, held = some call →
      call.phase = .waiting id) :
    Owned { system with calls := system.calls.set id held } where
  own other call found := by
    rw [List.getElem?_set] at found
    split at found
    · next same =>
        subst same
        split at found
        · exact own call (Option.some.inj found)
        · cases found
    · exact owned.own other call found
  made waiter closed := by
    obtain ⟨old, found, phase⟩ := owned.made waiter closed
    by_cases same : id = waiter
    · subst same
      have bound := (List.getElem?_eq_some_iff.mp found).1
      exact ⟨held, by simp [bound], made closed⟩
    · exact ⟨old, by rw [List.getElem?_set_ne same]; exact found, phase⟩

theorem NoLostWakeup.free (sound : system.NoLostWakeup)
    (found : system.calls[id]? = some (some call))
    (early : ∀ waiter, call.phase ≠ .waiting waiter) (handle : String) :
    id ∉ system.manager.registered handle := by
  intro member
  apply early id
  rw [(sound.call_eq member found).1]
  rfl

theorem Owned.unclosed (owned : system.Owned)
    (found : system.calls[id]? = some (some call))
    (early : ∀ waiter, call.phase ≠ .waiting waiter) : id ∉ system.manager.closed := by
  intro closed
  obtain ⟨held, same, phase⟩ := owned.made id closed
  exact early id (phase call (Option.some.inj (same.symm.trans found)))

theorem NoLostWakeup.addWaiter (sound : system.NoLostWakeup) (owned : system.Owned)
    (found : system.calls[id]? = some (some call))
    (early : ∀ waiter, call.phase ≠ .waiting waiter)
    (settled : system.manager.Settled call.handle call.offset) :
    NoLostWakeup ⟨system.manager.addWaiter call.handle id,
      system.calls.set id (some (select call.handle call.offset id))⟩ where
  settled handle waiter member := by
    have bound := (List.getElem?_eq_some_iff.mp found).1
    rcases Manager.mem_addWaiter.mp member with member | ⟨rfl, rfl⟩
    · exact (sound.set _ (sound.free found early)).settled handle waiter member
    · exact ⟨call.offset, by simp [bound], settled⟩
  channels := sound.channels.addWaiter (sound.free found early) (owned.unclosed found early)

theorem NoLostWakeup.removeWaiter (sound : system.NoLostWakeup)
    (found : system.calls[id]? = some (some call)) :
    NoLostWakeup ⟨system.manager.removeWaiter call.handle id,
      system.calls.set id none⟩ where
  settled handle waiter member := by
    obtain ⟨member, other⟩ := sound.channels.mem_removeWaiter.mp member
    obtain ⟨offset, same, settled⟩ := sound.settled handle waiter member
    refine ⟨offset, ?_, settled⟩
    have different : id ≠ waiter := by
      rintro rfl
      have calls := (sound.call_eq member found).1
      exact other ⟨congrArg WaitCall.handle calls, rfl⟩
    rw [List.getElem?_set_ne different]
    exact same
  channels := sound.channels.removeWaiter

end Advancing

inductive Advance (system : Waiting σ) (id : Nat) : Waiting σ → Prop
  | idle : Advance system id system
  | move {call : WaitCall} (found : system.calls[id]? = some (some call))
      (early : ∀ waiter, call.phase ≠ .waiting waiter) {held : Option WaitCall}
      (still : ∀ call : WaitCall, held = some call → ∀ waiter, call.phase ≠ .waiting waiter) :
      Advance system id { system with calls := system.calls.set id held }
  | register {call : WaitCall} (found : system.calls[id]? = some (some call))
      (early : ∀ waiter, call.phase ≠ .waiting waiter)
      (settled : system.manager.Settled call.handle call.offset) :
      Advance system id ⟨system.manager.addWaiter call.handle id,
        system.calls.set id (some (select call.handle call.offset id))⟩
  | cancel {call : WaitCall} (found : system.calls[id]? = some (some call)) {waiter : Nat}
      (waits : call.phase = .waiting waiter) :
      Advance system id ⟨system.manager.removeWaiter call.handle waiter,
        system.calls.set id none⟩
  | wake {call : WaitCall} (found : system.calls[id]? = some (some call)) {waiter : Nat}
      (waits : call.phase = .waiting waiter) (closed : waiter ∈ system.manager.closed) :
      Advance system id { system with calls := system.calls.set id none }

theorem step_advance [Store σ] [Digest] (system : Waiting σ) (id : Nat)
    (wake : Manager.Wake) : Advance system id (system.step (.advance id wake)) := by
  rw [step]
  match found : system.calls[id]? with
  | none => exact .idle
  | some none => exact .idle
  | some (some ⟨handle, offset, .polling⟩) =>
      dsimp only [Manager.waitForChange]
      cases answer : system.manager.read handle offset with
      | error error => exact .move found nofun nofun
      | ok read =>
          obtain ⟨state, messages⟩ := read
          cases messages with
          | nil => exact .move found nofun (by simp)
          | cons message messages => exact .move found nofun nofun
  | some (some ⟨handle, offset, .registering⟩) =>
      dsimp only [Manager.waitForChange]
      cases answer : system.manager.readLocked handle offset with
      | error error => exact .move found nofun nofun
      | ok read =>
          obtain ⟨state, messages⟩ := read
          cases messages with
          | nil => exact .register found nofun ⟨state, answer⟩
          | cons message messages => exact .move found nofun nofun
  | some (some ⟨handle, offset, .waiting waiter⟩) =>
      dsimp only [Manager.waitForChange]
      cases wake with
      | deadline => exact .cancel found rfl
      | notified =>
          by_cases closed : waiter ∈ system.manager.closed
          · simp only [closed, if_true]
            exact .wake found rfl closed
          · have same : system.calls.set id (some ⟨handle, offset, .waiting waiter⟩) =
                system.calls := by
              obtain ⟨bound, held⟩ := List.getElem?_eq_some_iff.mp found
              rw [← held, List.set_getElem_self]
            simp only [closed, if_false, same]
            exact .idle

section Advances

variable {system : Waiting σ} {id : Nat}

theorem NoLostWakeup.advance {next : Waiting σ} (sound : system.NoLostWakeup)
    (owned : system.Owned) (advance : Advance system id next) : next.NoLostWakeup := by
  cases advance with
  | idle => exact sound
  | move found early still => exact sound.set _ (sound.free found early)
  | register found early settled => exact sound.addWaiter owned found early settled
  | cancel found waits =>
      obtain rfl := owned.own id _ found _ waits
      exact sound.removeWaiter found
  | wake found waits closed =>
      obtain rfl := owned.own id _ found _ waits
      apply sound.set
      intro handle member
      exact sound.channels.opened handle _ member closed

theorem Owned.advance {next : Waiting σ} (owned : system.Owned)
    (advance : Advance system id next) : next.Owned := by
  cases advance with
  | idle => exact owned
  | move found early still =>
      apply owned.set
      · intro call same waiter waits
        exact absurd waits (still call same waiter)
      · intro closed
        exact absurd closed (owned.unclosed found early)
  | @register call found early settled =>
      have moved : Owned { system with
          calls := system.calls.set id (some (select call.handle call.offset id)) } := by
        apply owned.set
        · intro call same waiter waits
          obtain rfl := Option.some.inj same
          exact (Manager.WaitPhase.waiting.inj waits).symm
        · intro closed
          exact absurd closed (owned.unclosed found early)
      exact ⟨moved.own, moved.made⟩
  | cancel found waits =>
      have moved : Owned { system with calls := system.calls.set id none } :=
        owned.set none nofun nofun
      exact ⟨moved.own, moved.made⟩
  | wake found waits closed => exact owned.set none nofun nofun

end Advances

end Waiting

/-! The other operations. -/

namespace Manager

section Operations

variable [Digest] {manager : Manager σ} {write : Write} {handle offset : String}

/-- A write that does not notify a shape leaves its settled readers settled, unless
it puts a new shape in its place. -/
theorem Settled.install (settled : manager.Settled handle offset)
    (legit : write.Legit manager) (unnotified : write.notifies = true → write.handle ≠ handle)
    (within : ∀ state, write = .create state → state.handle = handle →
      compareOffsets offset state.currentOffset ≠ .gt) :
    (manager.install write).Settled handle offset := by
  obtain ⟨old, found, settledAt⟩ := settled_iff.mp settled
  rw [settled_iff, install_byHandle]
  split
  · next same =>
      refine ⟨_, rfl, ?_⟩
      cases legit with
      | create unnamed named active unchanged =>
          exact ⟨active, settledAt.parsed, within _ rfl same, fun _ => by
            simp [Write.state, unchanged, changesAfter]⟩
      | resnapshot named => exact absurd same (unnotified rfl)
      | touch named =>
          obtain rfl : _ = handle := same
          have held := stateAt_of_records found
          exact ⟨held ▸ settledAt.active, settledAt.parsed, held ▸ settledAt.within,
            held ▸ settledAt.quiet⟩
      | change active shape quiet =>
          obtain rfl : _ = handle := same
          obtain rfl := Option.some.inj (found.symm.trans (active?_eq_some.mp active).1)
          have unsent := Bool.eq_false_iff.mpr fun notifies => unnotified notifies rfl
          obtain ⟨changes, current⟩ := quiet unsent
          refine ⟨shape.deleted.trans settledAt.active, settledAt.parsed, ?_, ?_⟩
          · exact current.symm ▸ settledAt.within
          · exact current.symm ▸ changes.symm ▸ settledAt.quiet
      | bury found => exact absurd same (unnotified rfl)
  · exact ⟨old, found, settledAt⟩

end Operations

end Manager

namespace Waiting

section Operations

variable {system : Waiting σ} {next : Manager σ} {write : Write}

theorem NoLostWakeup.replace (sound : system.NoLostWakeup) (channels : next.Channels)
    (kept : ∀ handle, ∀ waiter ∈ next.registered handle,
      waiter ∈ system.manager.registered handle ∧
        ∀ call : WaitCall, system.calls[waiter]? = some (some call) →
          system.manager.Settled handle call.offset → next.Settled handle call.offset) :
    NoLostWakeup { system with manager := next } := by
  refine ⟨?_, channels⟩
  intro handle waiter member
  obtain ⟨before, settles⟩ := kept handle waiter member
  obtain ⟨offset, found, settled⟩ := sound.settled handle waiter before
  exact ⟨offset, found, settles (select handle offset waiter) found settled⟩

theorem Owned.replace (owned : system.Owned) (sound : system.NoLostWakeup)
    (closed : ∀ waiter ∈ next.closed, waiter ∈ system.manager.closed ∨
      ∃ handle, waiter ∈ system.manager.registered handle) :
    Owned { system with manager := next } where
  own := owned.own
  made waiter member := by
    rcases closed waiter member with already | ⟨handle, waiting⟩
    · exact owned.made waiter already
    · obtain ⟨offset, found, -⟩ := sound.settled handle waiter waiting
      refine ⟨_, found, fun call same => ?_⟩
      obtain rfl := Option.some.inj same
      rfl

variable [Digest] [Store σ]

/-- A new shape takes no handle from under a waiter beyond its offset. -/
def CreatesBehindWaiters (system : Waiting σ) (state : State) : Prop :=
  ∀ waiter ∈ system.manager.registered state.handle, ∀ call : WaitCall,
    system.calls[waiter]? = some (some call) →
      compareOffsets call.offset state.currentOffset ≠ .gt

omit [Store σ] in
theorem NoLostWakeup.install_iff (sound : system.NoLostWakeup)
    (legit : write.Legit system.manager) :
    NoLostWakeup { system with manager := system.manager.install write } ↔
      ∀ state, write = .create state → system.CreatesBehindWaiters state := by
  constructor
  · intro after state creates waiter member call found
    subst creates
    have still : waiter ∈ (system.manager.install (.create state)).registered state.handle :=
      Manager.mem_registered_install.mpr ⟨member, nofun⟩
    have settled := (after.call_eq still found).2
    obtain ⟨installed, held, settledAt⟩ := Manager.settled_iff.mp settled
    rw [Manager.install_byHandle, if_pos (by rfl)] at held
    obtain rfl := Option.some.inj held
    exact settledAt.within
  · intro behind
    apply sound.replace (sound.channels.install write)
    intro handle waiter member
    obtain ⟨before, unnotified⟩ := Manager.mem_registered_install.mp member
    refine ⟨before, fun call found settled => settled.install legit unnotified ?_⟩
    intro state creates same
    subst same
    exact behind state creates waiter before call found

omit [Digest] in
theorem NoLostWakeup.offered (sound : system.NoLostWakeup) (state : State) :
    NoLostWakeup { system with manager := system.manager.offered state } :=
  ⟨sound.settled, sound.channels.congr rfl rfl⟩

theorem NoLostWakeup.attempt_iff (sound : system.NoLostWakeup)
    (legit : write.Legit system.manager) :
    NoLostWakeup { system with manager := system.manager.attempt write } ↔
      ∀ state, write = .create state → system.manager.Accepts state →
        system.CreatesBehindWaiters state := by
  unfold Manager.attempt
  split
  · next accepted =>
      apply (sound.offered write.state).install_iff (legit.offered _) |>.trans
      constructor
      · intro behind state creates _
        exact behind state creates
      · intro behind state creates
        subst creates
        exact behind state rfl accepted
  · next refused =>
      refine ⟨fun _ state creates accepted => ?_, fun _ => sound.offered write.state⟩
      subst creates
      exact absurd accepted refused

omit [Digest] in
theorem Owned.attempt (owned : system.Owned) (sound : system.NoLostWakeup) (write : Write) :
    Owned { system with manager := system.manager.attempt write } := by
  apply owned.replace sound
  intro waiter member
  unfold Manager.attempt at member
  split at member
  · rw [Manager.install_closed] at member
    split at member
    · rcases List.mem_append.mp member with waiting | already
      · exact .inr ⟨write.handle, waiting⟩
      · exact .inl already
    · exact .inl member
  · exact .inl member

theorem NoLostWakeup.buries {manager last : Manager σ} {calls : List (Option WaitCall)}
    (buries : manager.Buries last) :
    NoLostWakeup ⟨manager, calls⟩ → Owned ⟨manager, calls⟩ →
      NoLostWakeup ⟨last, calls⟩ ∧ Owned ⟨last, calls⟩ := by
  induction buries with
  | done manager =>
      intro sound owned
      exact ⟨sound, owned⟩
  | @next manager last handle state now active rest hypothesis =>
      intro sound owned
      apply hypothesis
      · apply (sound.attempt_iff (.bury (Manager.active?_eq_some.mp active).1)).mpr
        nofun
      · exact owned.attempt sound _

omit [Digest] [Store σ] in
theorem NoLostWakeup.installTombstones {calls : List (Option WaitCall)}
    (entries : List (String × State)) :
    ∀ manager : Manager σ, NoLostWakeup ⟨manager, calls⟩ → Owned ⟨manager, calls⟩ →
      NoLostWakeup ⟨entries.foldl Manager.installTombstone manager, calls⟩ ∧
        Owned ⟨entries.foldl Manager.installTombstone manager, calls⟩ := by
  induction entries with
  | nil =>
      intro manager sound owned
      exact ⟨sound, owned⟩
  | cons entry rest hypothesis =>
      intro manager sound owned
      apply hypothesis
      · apply sound.replace (sound.channels.notified rfl rfl)
        intro handle waiter member
        obtain ⟨different, before⟩ := (Manager.mem_registered_erase rfl).mp member
        refine ⟨before, fun call _ settled => ?_⟩
        rw [Manager.settled_iff] at settled ⊢
        rw [Manager.installTombstone, Manager.notifyLocked_byHandle,
          Manager.putState_byHandle, if_neg different]
        exact settled
      · apply owned.replace sound
        intro waiter member
        rcases List.mem_append.mp member with waiting | already
        · exact .inr ⟨entry.1, waiting⟩
        · exact .inl already

omit [Digest] in
theorem NoLostWakeup.invalidateByRelation (sound : system.NoLostWakeup)
    (owned : system.Owned) (relation : Relation) (now : Time) :
    let next := (system.manager.invalidateByRelation relation now).2
    NoLostWakeup { system with manager := next } ∧ Owned { system with manager := next } := by
  have stored : ∀ store, NoLostWakeup ⟨{ system.manager with store := store }, system.calls⟩ ∧
      Owned ⟨{ system.manager with store := store }, system.calls⟩ := fun store =>
    ⟨⟨sound.settled, sound.channels.congr rfl rfl⟩, owned.own, owned.made⟩
  dsimp only
  rcases system.manager.invalidateByRelation_cases relation now with
    ⟨-, nothing⟩ | ⟨store, ⟨error, -, failed⟩ | ⟨-, succeeded⟩⟩
  · rw [nothing]
    exact ⟨sound, owned⟩
  · rw [failed]
    exact stored store
  · obtain ⟨installed, made⟩ := NoLostWakeup.installTombstones
      (system.manager.tombstones now (system.manager.listedHandles relation)) _
      (stored store).1 (stored store).2
    rw [succeeded]
    exact ⟨⟨installed.settled, installed.channels.congr rfl rfl⟩, made.own, made.made⟩

/-- A step creates no shape under the handle of a waiter that is beyond it. -/
def SparesWaiters (system : Waiting σ) : WaitStep → Prop
  | .operate call => ∀ state, system.manager.creates call = some state →
      system.manager.Accepts state → system.CreatesBehindWaiters state
  | _ => True

theorem NoLostWakeup.operate (sound : system.NoLostWakeup) (owned : system.Owned)
    (call : Call) :
    ((system.step (.operate call)).NoLostWakeup ↔ system.SparesWaiters (.operate call)) ∧
      (system.step (.operate call)).Owned := by
  have nothing : ∀ {next : Manager σ}, system.manager.creates call = none →
      NoLostWakeup { system with manager := next } ∧ Owned { system with manager := next } →
      (NoLostWakeup { system with manager := next } ↔ system.SparesWaiters (.operate call)) ∧
        Owned { system with manager := next } := by
    intro next none kept
    refine ⟨⟨fun _ state creates => ?_, fun _ => kept.1⟩, kept.2⟩
    rw [none] at creates
    cases creates
  rw [step]
  rcases system.manager.perform_cases call with
    ⟨none, same⟩ | ⟨write, legit, creates, same⟩ | ⟨all, buries⟩ | ⟨relation, one, same⟩
  · rw [same]
    exact nothing none ⟨sound, owned⟩
  · rw [same]
    refine ⟨(sound.attempt_iff legit).trans ?_, owned.attempt sound write⟩
    simp only [SparesWaiters, creates]
  · apply nothing
    · rw [Manager.creates, all]
    · exact NoLostWakeup.buries buries sound owned
  · rw [same]
    apply nothing
    · rw [Manager.creates, one]
    · exact sound.invalidateByRelation owned relation call.now

theorem NoLostWakeup.start (sound : system.NoLostWakeup) (owned : system.Owned)
    (handle offset : String) :
    (system.step (.start handle offset)).NoLostWakeup ∧
      (system.step (.start handle offset)).Owned := by
  have kept : ∀ {id : Nat} {held : Option WaitCall}, system.calls[id]? = some held →
      (system.calls ++ [some ⟨handle, offset, .polling⟩])[id]? = some held := by
    intro id held found
    rw [List.getElem?_append_left (List.getElem?_eq_some_iff.mp found).1]
    exact found
  refine ⟨⟨fun other waiter member => ?_, sound.channels⟩, fun id call found => ?_,
    fun waiter closed => ?_⟩
  · obtain ⟨position, found, settled⟩ := sound.settled other waiter member
    exact ⟨position, kept found, settled⟩
  · rw [step, List.getElem?_append] at found
    split at found
    · exact owned.own id call found
    · have last := List.mem_of_getElem? found
      obtain rfl := Option.some.inj (List.mem_singleton.mp last)
      nofun
  · obtain ⟨held, found, phase⟩ := owned.made waiter closed
    exact ⟨held, kept found, phase⟩

theorem NoLostWakeup.step_iff (sound : system.NoLostWakeup) (owned : system.Owned)
    (action : WaitStep) :
    ((system.step action).NoLostWakeup ↔ system.SparesWaiters action) ∧
      (system.step action).Owned := by
  cases action with
  | operate call => exact sound.operate owned call
  | start handle offset =>
      obtain ⟨kept, made⟩ := sound.start owned handle offset
      exact ⟨⟨fun _ => trivial, fun _ => kept⟩, made⟩
  | advance id wake =>
      have advance := system.step_advance id wake
      exact ⟨⟨fun _ => trivial, fun _ => sound.advance owned advance⟩, owned.advance advance⟩

end Operations

end Waiting

/-! Whole runs, from a manager that has just been started. -/

theorem Manager.loadPersisted_waiters [Store σ] (shapes : List PersistedShape) :
    ∀ manager : Manager σ,
      (manager.loadPersisted shapes).2.waiters = manager.waiters ∧
        (manager.loadPersisted shapes).2.closed = manager.closed := by
  have loaded : ∀ (manager : Manager σ) (state : State),
      (manager.loadState state).waiters = manager.waiters ∧
        (manager.loadState state).closed = manager.closed := by
    intro manager state
    unfold Manager.loadState
    dsimp only
    split <;> exact ⟨rfl, rfl⟩
  induction shapes with
  | nil =>
      intro manager
      exact ⟨rfl, rfl⟩
  | cons persisted rest hypothesis =>
      intro manager
      rw [loadPersisted]
      cases unmarshalState persisted with
      | some state =>
          obtain ⟨waiters, closed⟩ := hypothesis (manager.loadState state)
          exact ⟨waiters.trans (loaded _ _).1, closed.trans (loaded _ _).2⟩
      | none =>
          let state := corruptState persisted
          rcases manager.persistThen_cases state fun next =>
              (next.loadState state).loadPersisted rest with saved | ⟨error, failed⟩
          · obtain ⟨waiters, closed⟩ :=
              hypothesis ((manager.offered state).loadState state)
            dsimp only
            rw [saved]
            exact ⟨waiters.trans (loaded _ _).1, closed.trans (loaded _ _).2⟩
          · dsimp only
            rw [failed]
            exact ⟨rfl, rfl⟩

theorem Manager.newManager_waiters [Store σ] (store : σ) :
    (newManager store).2.waiters = ∅ ∧ (newManager store).2.closed = [] := by
  unfold newManager
  dsimp only
  split
  · exact ⟨rfl, rfl⟩
  · next shapes _ => exact loadPersisted_waiters shapes _

/-- In a run of waits and operations on a new manager no wake-up is ever lost and no
channel closed twice, exactly when no shape is created under the handle of a waiter
that is beyond it. -/
theorem noLostWakeup_iff [Digest] [Store σ] (store : σ) (steps : List WaitStep) :
    (∀ part, part <+: steps →
        (part.foldl Waiting.step ⟨(Manager.newManager store).2, []⟩).NoLostWakeup) ↔
      Along Waiting.step Waiting.SparesWaiters ⟨(Manager.newManager store).2, []⟩
        steps := by
  obtain ⟨waiters, closed⟩ := Manager.newManager_waiters store
  have none : ∀ handle, (Manager.newManager store).2.registered handle = [] := by
    intro handle
    simp [Manager.registered, waiters]
  apply Along.throughout_iff Waiting.Owned
  · intro system action owned sound _
    exact (sound.step_iff owned action).2
  · intro system action owned sound
    exact (sound.step_iff owned action).1
  · refine ⟨by simp, fun waiter member => ?_⟩
    rw [closed] at member
    cases member
  · refine ⟨fun handle waiter member => ?_, ?_⟩
    · rw [none] at member
      cases member
    · constructor <;> simp [none, closed]

/-- The items shape is created, deleted and created anew as `fa19db76c4-2`.  The first
shape is then deleted once more, which takes the second one out of `byHash`.  A client
waits for the second shape at its last change, and another request creates the shape
again within the same microsecond. -/
def createUnderWaiter : List WaitStep :=
  let snapshot : SnapshotResult := ⟨itemsSchema, [itemRow "1" "one"], none⟩
  [.operate ⟨.upsertSnapshot itemsDefinition snapshot, 1000⟩,
    .operate ⟨.delete "fa19db76c4-1", 1500⟩,
    .operate ⟨.upsertSnapshot itemsDefinition snapshot, 2000⟩,
    .operate ⟨.delete "fa19db76c4-1", 2100⟩,
    .operate ⟨.refreshWithMetadata "fa19db76c4-2"
      ⟨itemsSchema, [itemRow "1" "two"], none⟩ { commitLSN := 100 }, 2200⟩,
    .start "fa19db76c4-2" "100_0",
    .advance 0 .deadline,
    .advance 0 .deadline,
    .operate ⟨.upsertSnapshot itemsDefinition snapshot, 2900⟩]

def strandedWaiter : Waiting MemoryStore :=
  letI := tabulatedDigest
  createUnderWaiter.foldl Waiting.step ⟨(Manager.newManager newMemoryStore).2, []⟩

/-- The client stays registered at an offset that is out of range by now. -/
theorem strandedWaiter_lost_wakeup :
    strandedWaiter.manager.registered "fa19db76c4-2" = [0] ∧
      strandedWaiter.calls = [some (Waiting.select "fa19db76c4-2" "100_0" 0)] ∧
      ¬strandedWaiter.manager.Settled "fa19db76c4-2" "100_0" ∧
      ¬strandedWaiter.NoLostWakeup := by
  obtain ⟨waiting, calls, current⟩ :
      strandedWaiter.manager.registered "fa19db76c4-2" = [0] ∧
        strandedWaiter.calls = [some (Waiting.select "fa19db76c4-2" "100_0" 0)] ∧
        (strandedWaiter.manager.byHandle["fa19db76c4-2"]?).map (·.currentOffset) =
          some "0_0" := by
    decide +kernel
  have unsettled : ¬strandedWaiter.manager.Settled "fa19db76c4-2" "100_0" := by
    intro settled
    obtain ⟨state, found, settledAt⟩ := Manager.settled_iff.mp settled
    rw [found, Option.map_some, Option.some.injEq] at current
    have within := settledAt.within
    rw [current] at within
    exact within (by decide +kernel)
  refine ⟨waiting, calls, unsettled, fun sound => unsettled ?_⟩
  have found : strandedWaiter.calls[0]? =
      some (some (Waiting.select "fa19db76c4-2" "100_0" 0)) := by
    rw [calls]
    rfl
  exact (sound.call_eq (by simp [waiting]) found).2

end PostgresSync.Shapes
