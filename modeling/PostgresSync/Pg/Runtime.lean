import PostgresSync.Data.ByteRunes
import PostgresSync.Pg.Columns
import PostgresSync.Shapes.Manager

namespace PostgresSync.Pg

open PostgresSync.Data
open PostgresSync.Shapes
open PostgresSync.Storage

/-- The text form of a WAL position, which the replication library reads and
writes. -/
class LSNText where
  parse : String → Option LSN
  format : LSN → String

structure SystemIdentity where
  systemID : String
  timeline : Int
  xLogPos : LSN
deriving DecidableEq, Repr

/-- The settings the runtime reads.  `databaseName` is the path of the database
URL. -/
structure Config where
  replicationStreamID : String
  databaseName : String
deriving DecidableEq, Repr

inductive RuntimeError where
  | store (error : StoreError)
  | manager (error : ManagerError)
  | query (text : String)
  | relationNotFound (relation : Relation)
  | parse
  | replication (text : String)
  | cancelled
deriving DecidableEq, Repr

/-- The predicate of a targeted read: the columns that are compared, and the keys. -/
structure KeyQuery where
  pkColumns : List DescribedColumn
  keyRows : List Row
deriving DecidableEq

/-- A state that a refresh has installed, and what it was read for; `none` is a read of
the whole definition. -/
structure Installed where
  state : State
  query : Option KeyQuery
deriving DecidableEq

/-- The fields of the runtime that decide what it does.  `installed` is not in the
source: it records what the refreshes have installed, oldest first. -/
structure Runtime (σ : Type) where
  cfg : Config
  shapes : Manager σ
  systemIdentity : SystemIdentity
  replicationSlot : String := ""
  relationCache : RelationCache := ∅
  lastConfirmedLSN : LSN := 0
  installed : List Installed := []

/-! Names. -/

def identifierChar (char : Char) : Char :=
  if ('a' ≤ char ∧ char ≤ 'z') ∨ ('0' ≤ char ∧ char ≤ '9') then char else '_'

def compactIdentifier (value : String) (maxLen : Nat) : String :=
  let compact := value.toList.map fun char => identifierChar (lowerChar char)
  let trimmed := (compact.rdropWhile (· = '_')).dropWhile (· = '_')
  let compact := if trimmed.isEmpty then "postgres_sync_go".toList else trimmed
  String.ofList (compact.take maxLen)

def containsText (needle : String) (text : List Char) : Bool :=
  text.tails.any fun rest => needle.toList.isPrefixOf rest

variable [Store σ]

/-- The slot of a disk store has a fixed name; any other is named after the
moment. -/
def replicationSlotName (cfg : Config) (store : σ) (now : Time) : String :=
  let base := "postgres_sync_go_" ++ cfg.replicationStreamID ++ "_slot"
  if Store.kind store = .disk then
    compactIdentifier base 63
  else
    compactIdentifier
      (compactIdentifier base 48 ++ "_" ++ String.ofList (Nat.toDigits 16 now)) 63

def checkpointFor [LSNText] (cfg : Config) (slotName : String) (lsn : LSN)
    (sysident : SystemIdentity) : RuntimeCheckpoint where
  slotName := slotName
  lastConfirmedLSN := LSNText.format lsn
  systemID := sysident.systemID
  timeline := sysident.timeline
  dbName := cfg.databaseName

def saveRuntimeCheckpoint [LSNText] (cfg : Config) (manager : Manager σ)
    (slotName : String) (lsn : LSN) (sysident : SystemIdentity) :
    Except RuntimeError Unit × Manager σ :=
  let saved := Store.saveRuntimeCheckpoint manager.store
    (checkpointFor cfg slotName lsn sysident)
  (saved.1.mapError .store, { manager with store := saved.2 })

end PostgresSync.Pg
