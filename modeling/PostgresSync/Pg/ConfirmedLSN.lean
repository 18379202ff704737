import PostgresSync.Pg.BatchKeys
import PostgresSync.Pg.Replication
import PostgresSync.Pg.ReplicationStart

namespace PostgresSync.Pg

open PostgresSync.Data
open PostgresSync.Shapes
open PostgresSync.Storage

/-! No position is reported before every transaction below it has been applied and
checkpointed. -/

/-- The commit, if the message is one: its position and the end of its transaction. -/
def Incoming.commit? : Incoming → Option (LSN × LSN)
  | .xLogData _ (.logical (.commit commitLSN transactionEndLSN)) _ =>
      some (commitLSN, transactionEndLSN)
  | _ => none

def Incoming.position? : Incoming → Option LSN
  | .keepalive serverWALEnd _ => some serverWALEnd
  | .xLogData walStart _ _ => some walStart
  | _ => none

def commitLSNs (messages : List Incoming) : List LSN :=
  messages.filterMap fun message => message.commit?.map (·.1)

/-- What the server keeps to between a message and a later one.  A position is that of
WAL it has sent, so no transaction that is still to come commits below it; commits
come in order, and none lies between another and the end of its transaction. -/
structure Incoming.Precedes (first second : Incoming) : Prop where
  position : ∀ position ∈ first.position?, ∀ later ∈ second.commit?, position ≤ later.1
  ordered : ∀ commit ∈ first.commit?, ∀ later ∈ second.commit?, commit.1 < later.1
  apart : ∀ commit ∈ first.commit?, ∀ later ∈ second.commit?,
    ¬ (commit.1 ≤ later.1 ∧ later.1 < commit.2)

structure StreamFrom (startLSN : LSN) (messages : List Incoming) : Prop where
  begins : ∀ commitLSN ∈ commitLSNs messages, startLSN ≤ commitLSN
  precedes : messages.Pairwise Incoming.Precedes

section Transactions

/-- The relation cache once a relation has been announced. -/
def announcedCache (db : Database) (cache : RelationCache) (relationID : RelationID)
    (relation : Relation) : RelationCache :=
  match db.describeRelation relation, db.lookupPartitionRoot relation with
  | .ok columns, .ok root => cache.insert relationID (metadataFor relation root columns)
  | _, _ => cache

/-- Where a stream stands: the relations that it has announced, and the changes of the
transaction that is open, each with the relations that were known when it came. -/
structure Opened where
  cache : RelationCache
  xid : UInt32 := 0
  changes : List (RelationCache × TupleMessage) := []

namespace Opened

def after (opened : Opened) : Incoming → Opened
  | .xLogData _ (.relation relationID relation) around =>
      { opened with cache := announcedCache around.db opened.cache relationID relation }
  | .xLogData _ (.logical (.begin xid)) _ => { opened with xid := xid, changes := [] }
  | .xLogData _ (.logical (.change message)) _ =>
      { opened with changes := opened.changes ++ [(opened.cache, message)] }
  | .xLogData _ (.logical (.commit _ _)) _ => { opened with xid := 0, changes := [] }
  | _ => opened

/-- The batch of the changes since the transaction has begun. -/
def batch (opened : Opened) : ChangeBatch :=
  opened.changes.foldl (fun batch change => recordChange change.1 batch change.2)
    (.reset opened.xid)

/-- The batch of the transaction that the message commits, if it does. -/
def committed (opened : Opened) (incoming : Incoming) : List ChangeBatch :=
  (incoming.commit?.map fun commit => { opened.batch with commitLSN := commit.1 }).toList

/-- The batches of the transactions of a stream. -/
def transactions (opened : Opened) : List Incoming → List ChangeBatch
  | [] => []
  | incoming :: rest => opened.committed incoming ++ (opened.after incoming).transactions rest

theorem transactions_append (opened : Opened) (first second : List Incoming) :
    opened.transactions (first ++ second) =
      opened.transactions first ++ (first.foldl after opened).transactions second := by
  induction first generalizing opened with
  | nil => rfl
  | cons incoming rest hypothesis =>
      rw [List.cons_append, transactions, transactions, hypothesis, List.append_assoc]
      rfl

theorem exists_commit_of_mem (opened : Opened) {messages : List Incoming} {batch : ChangeBatch}
    (member : batch ∈ opened.transactions messages) :
    ∃ message ∈ messages, ∃ commit ∈ message.commit?, commit.1 = batch.commitLSN := by
  induction messages generalizing opened with
  | nil => cases member
  | cons incoming rest hypothesis =>
      rcases List.mem_append.mp member with own | later
      · obtain ⟨commit, found, rfl⟩ :=
          Option.map_eq_some_iff.mp (Option.mem_toList.mp own)
        exact ⟨incoming, List.mem_cons_self, commit, found, rfl⟩
      · obtain ⟨message, listed, commit⟩ := hypothesis _ later
        exact ⟨message, List.mem_cons_of_mem _ listed, commit⟩

end Opened

/-- What a stream promises of one of its messages, against the transactions received
before it: nothing that is still to come lies below a position the message brings. -/
structure Timely (batches received own : List ChangeBatch) (incoming : Incoming) : Prop where
  position : ∀ position ∈ incoming.position?, ∀ batch ∈ batches, batch.commitLSN < position →
    batch ∈ received ++ own
  commit : ∀ commit ∈ incoming.commit?, ∀ batch ∈ batches, batch.commitLSN < commit.1 →
    batch ∈ received
  ended : ∀ commit ∈ incoming.commit?, ∀ batch ∈ batches, batch.commitLSN < commit.2 →
    batch ∈ received ++ own

/-- A message of the stream finds all that lies below it received. -/
theorem StreamFrom.timely {startLSN : LSN} {done todo : List Incoming} {incoming : Incoming}
    (stream : StreamFrom startLSN (done ++ incoming :: todo)) (opened : Opened) :
    Timely (opened.transactions (done ++ incoming :: todo)) (opened.transactions done)
      ((done.foldl Opened.after opened).committed incoming) incoming := by
  have later := (List.pairwise_cons.mp (List.pairwise_append.mp stream.precedes).2.1).1
  have split {batch : ChangeBatch}
      (member : batch ∈ opened.transactions (done ++ incoming :: todo)) :
      batch ∈ opened.transactions done ∨
        batch ∈ (done.foldl Opened.after opened).committed incoming ∨
        ∃ message ∈ todo, ∃ commit ∈ message.commit?, commit.1 = batch.commitLSN := by
    rw [Opened.transactions_append, List.mem_append, Opened.transactions, List.mem_append]
      at member
    exact member.imp id (Or.imp id (Opened.exists_commit_of_mem _))
  have own {commit : LSN × LSN} (found : commit ∈ incoming.commit?) {batch : ChangeBatch}
      (member : batch ∈ (done.foldl Opened.after opened).committed incoming) :
      batch.commitLSN = commit.1 := by
    rw [Opened.committed, Option.mem_def.mp found] at member
    rw [List.mem_singleton.mp member]
  constructor
  · intro position brought batch member below
    obtain early | here | ⟨message, rest, commit, found, same⟩ := split member
    · exact List.mem_append_left _ early
    · exact List.mem_append_right _ here
    · exact absurd (same ▸ below) (UInt64.not_lt.mpr
        ((later message rest).position position brought commit found))
  · intro commit found batch member below
    obtain early | here | ⟨message, rest, next, follows, same⟩ := split member
    · exact early
    · exact absurd below (own found here ▸ UInt64.lt_irrefl _)
    · exact absurd (same ▸ below)
        (UInt64.lt_asymm ((later message rest).ordered _ found _ follows))
  · intro commit found batch member below
    obtain early | here | ⟨message, rest, next, follows, same⟩ := split member
    · exact List.mem_append_left _ early
    · exact List.mem_append_right _ here
    · have ordered := (later message rest).ordered _ found _ follows
      exact absurd ⟨UInt64.le_of_lt ordered, same ▸ below⟩
        ((later message rest).apart _ found _ follows)

end Transactions

namespace Replica

variable {opened : Opened} {replica : Replica σ}

/-- The connection has the batch of the open transaction and the relations announced. -/
structure Follows (opened : Opened) (replica : Replica σ) : Prop where
  batch : replica.batch = opened.batch
  cache : replica.runtime.relationCache = opened.cache

theorem Follows.sendStandbyStatus (follows : Follows opened replica) (delivered : Bool)
    (lsn : LSN) : Follows opened (replica.sendStandbyStatus delivered lsn).2 := by
  cases delivered <;> exact ⟨follows.batch, follows.cache⟩

theorem sendKeepalives_relationCache (deliveries : List Bool) (replica : Replica σ) :
    (Replica.sendKeepalives deliveries replica).2.runtime.relationCache =
      replica.runtime.relationCache := by
  induction deliveries generalizing replica with
  | nil => rfl
  | cons delivered rest hypothesis =>
      refine (hypothesis _).trans ?_
      cases delivered <;> rfl

end Replica

section Observations

variable [Store σ] [Digest] [LSNText]

/-- The batch has been applied without an error, and the runtime that it has left has the
checkpoint of its commit in its store; 0 is not a position of the WAL and is not
checkpointed. -/
structure SecuredBy (batch : ChangeBatch) (runtime : Runtime σ) : Prop where
  applied : ∃ reads now before, applyChangeBatch reads batch now before = (.ok (), runtime)
  checkpointed : 0 < batch.commitLSN → ∃ slotName,
    Store.loadRuntimeCheckpoint runtime.shapes.store =
      .ok (some (checkpointFor runtime.cfg slotName batch.commitLSN runtime.systemIdentity))

def Secured (observed : List (Observation σ)) (batch : ChangeBatch) : Prop :=
  ∃ runtime, .applied batch runtime ∈ observed ∧ SecuredBy batch runtime

def Confirmable (batches : List ChangeBatch) (observed : List (Observation σ)) (lsn : LSN) :
    Prop :=
  ∀ batch ∈ batches, batch.commitLSN < lsn → Secured observed batch

def SentSafely (batches : List ChangeBatch) (observed : List (Observation σ)) : Prop :=
  ∀ earlier lsn later, observed = earlier ++ .sent lsn :: later →
    Confirmable batches earlier lsn

variable {batches : List ChangeBatch} {observed : List (Observation σ)} {batch : ChangeBatch}
  {lsn : LSN} {observation : Observation σ}

theorem Secured.snoc (secured : Secured observed batch) :
    Secured (observed ++ [observation]) batch := by
  obtain ⟨runtime, member, applied⟩ := secured
  exact ⟨runtime, List.mem_append_left _ member, applied⟩

theorem Confirmable.snoc (confirmable : Confirmable batches observed lsn) :
    Confirmable batches (observed ++ [observation]) lsn :=
  fun batch member below => (confirmable batch member below).snoc

theorem Confirmable.raise {other : LSN} (confirmable : Confirmable batches observed lsn)
    (raised : Confirmable batches observed other) :
    Confirmable batches observed (if lsn < other then other else lsn) := by
  split
  · exact raised
  · exact confirmable

theorem confirmable_zero : Confirmable batches observed 0 :=
  fun _ _ below => absurd below UInt64.not_lt_zero

theorem SentSafely.nil : SentSafely batches ([] : List (Observation σ)) := by
  intro earlier lsn later split
  cases earlier <;> cases split

theorem SentSafely.snoc (safely : SentSafely batches observed)
    (next : ∀ lsn, observation = .sent lsn → Confirmable batches observed lsn) :
    SentSafely batches (observed ++ [observation]) := by
  intro earlier lsn later split
  rcases List.eq_nil_or_concat later with rfl | ⟨front, last, rfl⟩
  · obtain ⟨same, last⟩ := List.append_inj' split rfl
    rw [← same]
    exact next lsn (List.cons.inj last).1
  · have shorter : observed = earlier ++ .sent lsn :: front := by
      rw [List.concat_eq_append, ← List.cons_append, ← List.append_assoc] at split
      exact (List.append_inj' split rfl).1
    exact safely earlier lsn front shorter

end Observations

theorem ok_of_mapError_eq_ok {α β : Type} {wrap : α → β} {outcome : Except α Unit}
    (ok : outcome.mapError wrap = .ok ()) : outcome = .ok () := by
  cases outcome with
  | error error => cases ok
  | ok _ => rfl

theorem cacheRelationMetadata_lastConfirmedLSN (db : Database) (now : Time)
    [Store σ] (runtime : Runtime σ) (relationID : RelationID) (relation : Relation) :
    (cacheRelationMetadata db now runtime relationID relation).2.lastConfirmedLSN =
      runtime.lastConfirmedLSN := by
  unfold cacheRelationMetadata
  split <;> rfl

section Loop

variable [Store σ] [Digest] [LSNText] {batches received : List ChangeBatch} {opened : Opened}

theorem applyChangeBatch_unmoved (reads : Reads) (batch : ChangeBatch) (now : Time)
    (runtime : Runtime σ) :
    (applyChangeBatch reads batch now runtime).2.lastConfirmedLSN =
        runtime.lastConfirmedLSN ∧
      (applyChangeBatch reads batch now runtime).2.relationCache = runtime.relationCache := by
  dsimp only [applyChangeBatch]
  cases (applyRelations reads batch now runtime.relationCache runtime.shapes).1 with
  | error error => exact ⟨rfl, rfl⟩
  | ok _ =>
      dsimp only
      split <;> exact ⟨rfl, rfl⟩

theorem applyChangeBatch_checkpoints [RetainsCheckpoint σ] {reads : Reads}
    {batch : ChangeBatch} {now : Time} {before runtime : Runtime σ}
    (applied : applyChangeBatch reads batch now before = (.ok (), runtime)) :
    SecuredBy batch runtime := by
  refine ⟨⟨reads, now, before, applied⟩, fun positive => ?_⟩
  dsimp only [applyChangeBatch] at applied
  cases relations : (applyRelations reads batch now before.relationCache before.shapes).1 with
  | error error =>
      rw [relations] at applied
      cases applied
  | ok _ =>
      rw [relations] at applied
      simp only [if_pos positive, Prod.mk.injEq] at applied
      obtain ⟨saved, rfl⟩ := applied
      refine ⟨_, RetainsCheckpoint.load_save _ _ ?_⟩
      exact ok_of_mapError_eq_ok saved

namespace Replica

/-- What the loop keeps to while it runs: all the transactions received so far are secured,
and both positions it may report are confirmable. -/
structure Safe (batches received : List ChangeBatch) (replica : Replica σ) : Prop where
  sent : SentSafely batches replica.observed
  secured : replica.running = true → ∀ batch ∈ received, Secured replica.observed batch
  position : replica.running = true → Confirmable batches replica.observed replica.clientXLogPos
  confirmed : replica.running = true →
    Confirmable batches replica.observed replica.runtime.lastConfirmedLSN

variable {replica : Replica σ}

theorem Safe.stop (sent : SentSafely batches replica.observed) :
    Safe batches received replica.stop :=
  ⟨sent, nofun, nofun, nofun⟩

theorem Safe.sendStandbyStatus (safe : Safe batches received replica)
    (running : replica.running = true) {lsn : LSN}
    (confirmable : Confirmable batches replica.observed lsn) (delivered : Bool) :
    Safe batches received (replica.sendStandbyStatus delivered lsn).2 ∧
      (replica.sendStandbyStatus delivered lsn).2.running = true := by
  have observed : (replica.sendStandbyStatus delivered lsn).2.observed =
      replica.observed ++ [.sent lsn] := by
    cases delivered <;> rfl
  have position : (replica.sendStandbyStatus delivered lsn).2.clientXLogPos =
      replica.clientXLogPos := by
    cases delivered <;> rfl
  constructor
  · constructor
    · rw [observed]
      apply safe.sent.snoc
      intro other same
      cases same
      exact confirmable
    · intro _ batch member
      rw [observed]
      exact (safe.secured running batch member).snoc
    · intro _
      rw [observed, position]
      exact (safe.position running).snoc
    · intro _
      rw [observed]
      cases delivered with
      | false => exact (safe.confirmed running).snoc
      | true => exact ((safe.confirmed running).snoc).raise confirmable.snoc
  · cases delivered <;> exact running

theorem Safe.sendKeepalives (deliveries : List Bool) (safe : Safe batches received replica)
    (running : replica.running = true) :
    Safe batches received (Replica.sendKeepalives deliveries replica).2 ∧
      (Replica.sendKeepalives deliveries replica).2.running = true := by
  induction deliveries generalizing replica with
  | nil => exact ⟨safe, running⟩
  | cons delivered rest hypothesis =>
      obtain ⟨next, still⟩ :=
        safe.sendStandbyStatus running (safe.confirmed running) delivered
      exact hypothesis next still

theorem Safe.of_eq {next : Replica σ} (safe : Safe batches received replica)
    (running : replica.running = true) (observed : next.observed = replica.observed)
    (position : next.clientXLogPos = replica.clientXLogPos)
    (confirmed : next.runtime.lastConfirmedLSN = replica.runtime.lastConfirmedLSN) :
    Safe batches received next := by
  constructor
  · exact observed ▸ safe.sent
  · intro _
    exact observed ▸ safe.secured running
  · intro _
    exact observed ▸ position ▸ safe.position running
  · intro _
    exact observed ▸ confirmed ▸ safe.confirmed running

theorem Safe.observe_applied (safe : Safe batches received replica)
    (running : replica.running = true) (batch : ChangeBatch) (runtime : Runtime σ) :
    Safe batches received (replica.observe (.applied batch runtime)) := by
  refine ⟨safe.sent.snoc nofun, ?_, ?_, ?_⟩
  · intro _ other member
    exact (safe.secured running other member).snoc
  · intro _
    exact (safe.position running).snoc
  · intro _
    exact (safe.confirmed running).snoc

theorem Safe.applyChangeBatchWithKeepalive [RetainsCheckpoint σ]
    (safe : Safe batches received replica) (running : replica.running = true)
    (around : Surroundings) (batch : ChangeBatch) :
    Safe batches received (replica.applyChangeBatchWithKeepalive around batch).2 ∧
      (replica.applyChangeBatchWithKeepalive around batch).2.running = true ∧
      ((replica.applyChangeBatchWithKeepalive around batch).1 = .ok () →
        Secured (replica.applyChangeBatchWithKeepalive around batch).2.observed batch) := by
  obtain ⟨kept, still⟩ :=
    safe.sendKeepalives (around.firstDelivered :: around.tickDelivered) running
  dsimp only [Replica.applyChangeBatchWithKeepalive]
  generalize Replica.sendKeepalives (around.firstDelivered :: around.tickDelivered) replica =
    sent at kept still ⊢
  have same := (applyChangeBatch_unmoved around.reads batch around.now sent.2.runtime).1
  cases outcome : applyChangeBatch around.reads batch around.now sent.2.runtime with
  | mk result runtime =>
      rw [outcome] at same
      dsimp only
      have applied : Safe batches received { sent.2 with runtime := runtime } :=
        kept.of_eq still rfl rfl same
      cases around.cancelled with
      | true => exact ⟨applied, still, nofun⟩
      | false =>
          cases result with
          | error error => exact ⟨applied, still, nofun⟩
          | ok _ =>
              refine ⟨applied.observe_applied still batch runtime, still, fun _ => ?_⟩
              exact ⟨runtime, List.mem_append_right _ List.mem_cons_self,
                applyChangeBatch_checkpoints outcome⟩

theorem Safe.receives {own : List ChangeBatch} (safe : Safe batches received replica)
    (secured : replica.running = true → ∀ batch ∈ own, Secured replica.observed batch) :
    Safe batches (received ++ own) replica := by
  refine ⟨safe.sent, ?_, safe.position, safe.confirmed⟩
  intro running batch member
  exact (List.mem_append.mp member).elim (safe.secured running batch) (secured running batch)

theorem Safe.raise (safe : Safe batches received replica) {lsn : LSN}
    (confirmable : replica.running = true → Confirmable batches replica.observed lsn) :
    Safe batches received (replica.raise lsn) :=
  ⟨safe.sent, safe.secured,
    fun running => (safe.position running).raise (confirmable running), safe.confirmed⟩

/-- A commit that is handled without an error is secured. -/
theorem Safe.commit [RetainsCheckpoint σ] (safe : Safe batches received replica)
    (running : replica.running = true) (around : Surroundings)
    {commitLSN transactionEndLSN : LSN}
    (below : ∀ batch ∈ batches, batch.commitLSN < commitLSN → batch ∈ received) :
    SentSafely batches (replica.handleLogicalMessage around
        (.logical (.commit commitLSN transactionEndLSN))).2.observed ∧
      ∀ lsn, (replica.handleLogicalMessage around
          (.logical (.commit commitLSN transactionEndLSN))).1 = .ok lsn →
        lsn = transactionEndLSN ∧
        Safe batches (received ++ [{ replica.batch with commitLSN := commitLSN }])
          (replica.handleLogicalMessage around
            (.logical (.commit commitLSN transactionEndLSN))).2 ∧
        (replica.handleLogicalMessage around
          (.logical (.commit commitLSN transactionEndLSN))).2.running = true := by
  have begun : Safe batches received
      { replica with batch := { replica.batch with commitLSN := commitLSN } } :=
    safe.of_eq running rfl rfl rfl
  obtain ⟨applied, still, secured⟩ := begun.applyChangeBatchWithKeepalive running around
    { replica.batch with commitLSN := commitLSN }
  dsimp only [Replica.handleLogicalMessage]
  generalize Replica.applyChangeBatchWithKeepalive around
    { replica.batch with commitLSN := commitLSN }
    { replica with batch := { replica.batch with commitLSN := commitLSN } } = outcome
    at applied still secured ⊢
  obtain ⟨result, next⟩ := outcome
  cases result with
  | error error => exact ⟨applied.sent, nofun⟩
  | ok _ =>
      have confirmable : Confirmable batches next.observed commitLSN :=
        fun other member smaller => applied.secured still other (below other member smaller)
      have own : Safe batches (received ++ [{ replica.batch with commitLSN := commitLSN }])
          next := by
        apply applied.receives
        intro _ other member
        rw [List.mem_singleton.mp member]
        exact secured rfl
      obtain ⟨sent, running⟩ :=
        own.sendStandbyStatus still confirmable around.commitDelivered
      dsimp only
      generalize Replica.sendStandbyStatus around.commitDelivered commitLSN next = update
        at sent running ⊢
      obtain ⟨result, last⟩ := update
      cases result with
      | error error => exact ⟨sent.sent, nofun⟩
      | ok _ =>
          refine ⟨sent.sent, ?_⟩
          rintro lsn same
          cases same
          exact ⟨rfl, sent.of_eq running rfl rfl rfl, running⟩

theorem applyChangeBatchWithKeepalive_relationCache (around : Surroundings)
    (batch : ChangeBatch) (replica : Replica σ) :
    (replica.applyChangeBatchWithKeepalive around batch).2.runtime.relationCache =
      replica.runtime.relationCache := by
  have kept := sendKeepalives_relationCache (around.firstDelivered :: around.tickDelivered)
    replica
  have applied := (applyChangeBatch_unmoved around.reads batch around.now
    (Replica.sendKeepalives (around.firstDelivered :: around.tickDelivered)
      replica).2.runtime).2
  dsimp only [Replica.applyChangeBatchWithKeepalive]
  split
  · exact applied.trans kept
  · split <;> exact applied.trans kept

theorem Follows.commit (follows : Follows opened replica) {around : Surroundings}
    {commitLSN transactionEndLSN lsn : LSN}
    (handled : (replica.handleLogicalMessage around
      (.logical (.commit commitLSN transactionEndLSN))).1 = .ok lsn) :
    Follows { opened with xid := 0, changes := [] } (replica.handleLogicalMessage around
      (.logical (.commit commitLSN transactionEndLSN))).2 := by
  have applied := applyChangeBatchWithKeepalive_relationCache around
    { replica.batch with commitLSN := commitLSN }
    { replica with batch := { replica.batch with commitLSN := commitLSN } }
  dsimp only [Replica.handleLogicalMessage] at handled ⊢
  generalize Replica.applyChangeBatchWithKeepalive around
    { replica.batch with commitLSN := commitLSN }
    { replica with batch := { replica.batch with commitLSN := commitLSN } } = outcome
    at applied handled ⊢
  obtain ⟨result, next⟩ := outcome
  cases result with
  | error error => cases handled
  | ok _ =>
      dsimp only at handled ⊢
      cases delivered : around.commitDelivered with
      | false =>
          rw [delivered] at handled
          cases handled
      | true => exact ⟨rfl, applied.trans follows.cache⟩

/-- Nothing is sent and neither position moves. -/
structure Unmoved (replica next : Replica σ) : Prop where
  observed : next.observed = replica.observed
  position : next.clientXLogPos = replica.clientXLogPos
  running : next.running = replica.running
  confirmed : next.runtime.lastConfirmedLSN = replica.runtime.lastConfirmedLSN

theorem unmoved_handleLogicalMessage (replica : Replica σ) (around : Surroundings)
    {message : WalMessage}
    (other : ∀ commitLSN transactionEndLSN,
      message ≠ .logical (.commit commitLSN transactionEndLSN)) :
    Unmoved replica (replica.handleLogicalMessage around message).2 ∧
      ∀ lsn, (replica.handleLogicalMessage around message).1 = .ok lsn → lsn = 0 := by
  have zero {outcome : Except RuntimeError Unit} {lsn : LSN}
      (same : outcome.map (fun _ => (0 : LSN)) = .ok lsn) : lsn = 0 := by
    cases outcome <;> cases same
    rfl
  cases message with
  | malformed => exact ⟨⟨rfl, rfl, rfl, rfl⟩, nofun⟩
  | other => exact ⟨⟨rfl, rfl, rfl, rfl⟩, fun lsn same => (Except.ok.inj same).symm⟩
  | relation relationID relation =>
      exact ⟨⟨rfl, rfl, rfl, cacheRelationMetadata_lastConfirmedLSN ..⟩, fun _ => zero⟩
  | truncate relationIDs => exact ⟨⟨rfl, rfl, rfl, rfl⟩, fun _ => zero⟩
  | logical message =>
      cases message with
      | begin xid => exact ⟨⟨rfl, rfl, rfl, rfl⟩, fun lsn same => (Except.ok.inj same).symm⟩
      | change message =>
          exact ⟨⟨rfl, rfl, rfl, rfl⟩, fun lsn same => (Except.ok.inj same).symm⟩
      | commit commitLSN transactionEndLSN => exact absurd rfl (other _ _)

theorem Follows.handleLogicalMessage (follows : Follows opened replica) (walStart : LSN)
    {around : Surroundings} {message : WalMessage} {lsn : LSN}
    (handled : (replica.handleLogicalMessage around message).1 = .ok lsn) :
    Follows (opened.after (.xLogData walStart message around))
      (replica.handleLogicalMessage around message).2 := by
  cases message with
  | malformed => cases handled
  | other => exact follows
  | truncate relationIDs => exact ⟨follows.batch, follows.cache⟩
  | relation relationID relation =>
      have cached : (cacheRelationMetadata around.db around.now replica.runtime relationID
          relation).1 = .ok () := by
        dsimp only [Replica.handleLogicalMessage] at handled
        cases outcome : (cacheRelationMetadata around.db around.now replica.runtime
            relationID relation).1 with
        | error error =>
            rw [outcome] at handled
            cases handled
        | ok _ => rfl
      obtain ⟨columns, root, described, rooted, inserted⟩ := cacheRelationMetadata_cached cached
      refine ⟨follows.batch, inserted.trans ?_⟩
      rw [follows.cache]
      simp only [Opened.after, announcedCache, described, rooted]
  | logical message =>
      cases message with
      | begin xid => exact ⟨rfl, follows.cache⟩
      | commit commitLSN transactionEndLSN => exact follows.commit handled
      | change message =>
          refine ⟨?_, follows.cache⟩
          show recordChange replica.runtime.relationCache replica.batch message = _
          rw [follows.cache, follows.batch, Opened.after, Opened.batch, Opened.batch,
            List.foldl_concat]

theorem Follows.receive (follows : Follows opened replica) {incoming : Incoming}
    (running : (replica.receive incoming).running = true) :
    Follows (opened.after incoming) (replica.receive incoming) := by
  cases incoming with
  | timeout | unrecognised => exact follows
  | cancelled | failed => cases running
  | keepalive serverWALEnd replyRequested => exact ⟨follows.batch, follows.cache⟩
  | xLogData walStart message around =>
      have handled := fun lsn => @Follows.handleLogicalMessage _ _ _ _ _ _ follows walStart
        around message lsn
      dsimp only [Replica.receive] at running ⊢
      generalize Replica.handleLogicalMessage around message replica = outcome
        at running handled ⊢
      obtain ⟨result, next⟩ := outcome
      cases result with
      | error error => cases running
      | ok lsn =>
          obtain ⟨batch, cache⟩ := handled lsn rfl
          exact ⟨batch, cache⟩

theorem Follows.turn (follows : replica.running = true → Follows opened replica) {turn : Turn}
    (running : (replica.turn turn).running = true) :
    Follows (opened.after turn.incoming) (replica.turn turn) := by
  unfold Replica.turn at running ⊢
  split at running
  case isTrue stopped => exact absurd (stopped.symm.trans running) (by decide)
  case isFalse begun =>
    rw [Bool.not_eq_false] at begun
    rw [if_neg (by rw [begun]; decide)]
    split at running
    case isTrue due =>
      rw [if_pos due]
      have kept := (follows begun).sendStandbyStatus turn.delivered replica.clientXLogPos
      generalize Replica.sendStandbyStatus turn.delivered replica.clientXLogPos replica = update
        at running kept ⊢
      obtain ⟨result, next⟩ := update
      cases result with
      | error error => cases running
      | ok _ => exact kept.receive running
    case isFalse undue =>
      rw [if_neg undue]
      exact (follows begun).receive running

theorem Safe.receive [RetainsCheckpoint σ] (safe : Safe batches received replica)
    (running : replica.running = true) (follows : Follows opened replica) {incoming : Incoming}
    (timely : Timely batches received (opened.committed incoming) incoming) :
    Safe batches (received ++ opened.committed incoming) (replica.receive incoming) := by
  have brings {next : Replica σ} {position : LSN}
      (reached : Safe batches (received ++ opened.committed incoming) next)
      (still : next.running = true) (brought : position ∈ incoming.position?) :
      Confirmable batches next.observed position := by
    intro batch member below
    exact reached.secured still batch (timely.position position brought batch member below)
  have quiet {next : Replica σ} (other : incoming.commit? = none)
      (reached : Safe batches received next) :
      Safe batches (received ++ opened.committed incoming) next := by
    simpa [Opened.committed, other] using reached
  cases incoming with
  | timeout | unrecognised => exact quiet rfl safe
  | cancelled | failed => exact Safe.stop safe.sent
  | keepalive serverWALEnd replyRequested =>
      have same := quiet rfl safe
      exact (same.raise fun _ => brings same running rfl).of_eq running rfl rfl rfl
  | xLogData walStart message around =>
      by_cases committed : ∃ commitLSN transactionEndLSN,
          message = .logical (.commit commitLSN transactionEndLSN)
      · obtain ⟨commitLSN, transactionEndLSN, rfl⟩ := committed
        obtain ⟨sent, handled⟩ := safe.commit running around (timely.commit _ rfl)
        rw [follows.batch] at handled
        dsimp only [Replica.receive]
        generalize Replica.handleLogicalMessage around
          (.logical (.commit commitLSN transactionEndLSN)) replica = outcome at sent handled ⊢
        obtain ⟨result, next⟩ := outcome
        cases result with
        | error error => exact Safe.stop sent
        | ok lsn =>
            obtain ⟨rfl, reached, still⟩ := handled lsn rfl
            have raised := reached.raise fun _ other member below =>
              reached.secured still other (timely.ended _ rfl other member below)
            exact raised.raise fun _ => brings raised still rfl
      · have other (commitLSN transactionEndLSN : LSN) :
            message ≠ .logical (.commit commitLSN transactionEndLSN) :=
          fun same => committed ⟨_, _, same⟩
        have none : Incoming.commit? (.xLogData walStart message around) = none := by
          unfold Incoming.commit?
          split
          next same => exact absurd (Incoming.xLogData.inj same).2.1 (other _ _)
          next => rfl
        obtain ⟨unmoved, zero⟩ := unmoved_handleLogicalMessage replica around other
        dsimp only [Replica.receive]
        generalize Replica.handleLogicalMessage around message replica = outcome
          at unmoved zero ⊢
        obtain ⟨result, next⟩ := outcome
        cases result with
        | error error => exact Safe.stop (unmoved.observed ▸ safe.sent)
        | ok lsn =>
            obtain rfl := zero lsn rfl
            have still : next.running = true := unmoved.running.trans running
            have reached := quiet none
              (safe.of_eq running unmoved.observed unmoved.position unmoved.confirmed)
            have raised := reached.raise fun _ => confirmable_zero
            exact raised.raise fun _ => brings raised still rfl

theorem Safe.turn [RetainsCheckpoint σ] (safe : Safe batches received replica)
    (follows : replica.running = true → Follows opened replica) {turn : Turn}
    (timely : Timely batches received (opened.committed turn.incoming) turn.incoming) :
    Safe batches (received ++ opened.committed turn.incoming) (replica.turn turn) := by
  unfold Replica.turn
  split
  case isTrue stopped =>
    apply safe.receives
    intro running
    exact absurd (stopped.symm.trans running) (by decide)
  case isFalse running =>
    rw [Bool.not_eq_false] at running
    split
    · obtain ⟨sent, still⟩ :=
        safe.sendStandbyStatus running (safe.position running) turn.delivered
      have kept := (follows running).sendStandbyStatus turn.delivered replica.clientXLogPos
      generalize Replica.sendStandbyStatus turn.delivered replica.clientXLogPos replica = update
        at sent still kept ⊢
      obtain ⟨result, next⟩ := update
      cases result with
      | error error => exact Safe.stop sent.sent
      | ok _ => exact sent.receive still kept timely
    · exact safe.receive running (follows running) timely

end Replica

theorem Replica.safe_foldl_turn [RetainsCheckpoint σ] {startLSN : LSN} (turns : List Turn)
    (done : List Incoming) {replica : Replica σ}
    (stream : StreamFrom startLSN (done ++ turns.map (·.incoming)))
    (follows : replica.running = true →
      Replica.Follows (done.foldl Opened.after opened) replica)
    (safe : Replica.Safe (opened.transactions (done ++ turns.map (·.incoming)))
      (opened.transactions done) replica) :
    SentSafely (opened.transactions (done ++ turns.map (·.incoming)))
      (turns.foldl Replica.turn replica).observed := by
  induction turns generalizing done replica with
  | nil => exact safe.sent
  | cons turn turns hypothesis =>
      have regroup : done ++ (turn :: turns).map (·.incoming) =
          (done ++ [turn.incoming]) ++ turns.map (·.incoming) := by
        simp
      have next := safe.turn follows (stream.timely opened)
      rw [regroup] at stream next ⊢
      apply hypothesis _ stream
      · intro running
        rw [List.foldl_concat]
        exact Replica.Follows.turn follows running
      · have received : opened.transactions (done ++ [turn.incoming]) =
            opened.transactions done ++
              (done.foldl Opened.after opened).committed turn.incoming := by
          rw [Opened.transactions_append]
          simp [Opened.transactions]
        rw [received]
        exact next

/-- Whatever the timing of the deadlines and whichever steps fail: at every status update
all the transactions of the stream below its position are secured. -/
theorem confirmedLSN_secured [RetainsCheckpoint σ] (runtime : Runtime σ) (startLSN : LSN)
    (turns : List Turn) (stream : StreamFrom startLSN (turns.map (·.incoming))) :
    ∀ earlier lsn later,
      (Replica.replicationLoop runtime startLSN turns).observed =
        earlier ++ .sent lsn :: later →
      ∀ batch ∈ Opened.transactions ⟨runtime.relationCache, 0, []⟩ (turns.map (·.incoming)),
        batch.commitLSN < lsn → Secured earlier batch := by
  have started : Confirmable
      (Opened.transactions ⟨runtime.relationCache, 0, []⟩ (turns.map (·.incoming)))
      ([] : List (Observation σ)) startLSN := by
    intro batch member below
    obtain ⟨message, listed, commit, found, same⟩ := Opened.exists_commit_of_mem _ member
    refine absurd (same ▸ below) (UInt64.not_lt.mpr (stream.begins commit.1 ?_))
    exact List.mem_filterMap.mpr ⟨message, listed, Option.map_eq_some_iff.mpr ⟨commit, found, rfl⟩⟩
  exact Replica.safe_foldl_turn turns [] stream (fun _ => ⟨rfl, rfl⟩)
    ⟨SentSafely.nil, fun _ => nofun, fun _ => started, fun _ => started⟩

end Loop

def emptyDatabase : Database := ⟨fun _ => .ok [], .ok, fun _ _ => .ok []⟩

/-- An item is inserted, and then a keepalive asks for a reply. -/
def insertionTurns : List Turn :=
  let around : Surroundings :=
    { db := emptyDatabase, reads := fun _ _ => emptyDatabase, now := 1000 }
  [ ⟨false, true, .xLogData 95 (.logical (.begin 7)) around⟩,
    ⟨false, true, .xLogData 96 (.logical (.change (.insert 7 [⟨'t', "1"⟩, ⟨'t', "one"⟩]))) around⟩,
    ⟨true, true, .xLogData 110 (.logical (.commit 100 110)) around⟩,
    ⟨false, true, .keepalive 200 true⟩,
    ⟨false, true, .timeout⟩ ]

def insertionRuntime : Runtime MemoryStore where
  cfg := syncConfig
  shapes := { store := newMemoryStore }
  relationCache := itemsCache keyFirst
  systemIdentity := ⟨"7001", 1, 200⟩
  replicationSlot := "postgres_sync_go_main_slot"

theorem insertionTurns_streamFrom : StreamFrom 90 (insertionTurns.map (·.incoming)) := by
  constructor
  · simp [insertionTurns, commitLSNs, Incoming.commit?]
  · have quiet {first second : Incoming} (none : second.commit? = none) :
        first.Precedes second :=
      ⟨by simp [none], by simp [none], by simp [none]⟩
    refine .cons ?_ (.cons ?_ (.cons ?_ (.cons ?_ (.cons nofun .nil))))
    · rintro second (_ | ⟨_, _ | ⟨_, _ | ⟨_, _ | ⟨_, ⟨⟩⟩⟩⟩⟩)
      · exact quiet rfl
      · constructor <;> simp [Incoming.position?, Incoming.commit?]
      · exact quiet rfl
      · exact quiet rfl
    · rintro second (_ | ⟨_, _ | ⟨_, _ | ⟨_, ⟨⟩⟩⟩⟩)
      · constructor <;> simp [Incoming.position?, Incoming.commit?]
      · exact quiet rfl
      · exact quiet rfl
    · rintro second (_ | ⟨_, _ | ⟨_, ⟨⟩⟩⟩) <;> exact quiet rfl
    · rintro second (_ | ⟨_, ⟨⟩⟩)
      exact quiet rfl

theorem confirmedLSN_secured_insertion :
    letI := tabulatedDigest
    letI := tabulatedLSNText
    ∃ earlier later,
      (Replica.replicationLoop insertionRuntime 90 insertionTurns).observed =
        earlier ++ .sent 200 :: later ∧
      Secured earlier
        { recordChange (itemsCache keyFirst) (.reset 7)
            (.insert 7 [⟨'t', "1"⟩, ⟨'t', "one"⟩]) with commitLSN := 100 } := by
  let _ := tabulatedDigest
  let _ := tabulatedLSNText
  have sent : ∃ runtime, (Replica.replicationLoop insertionRuntime 90 insertionTurns).observed =
      [.sent 96, .sent 96, .applied
        { recordChange (itemsCache keyFirst) (.reset 7)
            (.insert 7 [⟨'t', "1"⟩, ⟨'t', "one"⟩]) with commitLSN := 100 } runtime,
        .sent 100] ++ .sent 200 :: [] :=
    ⟨_, rfl⟩
  obtain ⟨runtime, sent⟩ := sent
  exact ⟨_, _, sent, confirmedLSN_secured insertionRuntime 90 insertionTurns
    insertionTurns_streamFrom _ _ _ sent _ List.mem_cons_self (by decide)⟩

end PostgresSync.Pg
