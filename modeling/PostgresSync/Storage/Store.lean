import PostgresSync.Shapes.State

namespace PostgresSync.Storage

open PostgresSync.Data
open PostgresSync.Shapes

/-- A `json.RawMessage` that should hold a value of one type: nothing, the
encoding of a value, or bytes that do not decode. -/
inductive RawMessage (α : Type) where
  | absent
  | encoded (value : α)
  | malformed
deriving DecidableEq

/-- A message as JSON carries it: `Offset` and `InternalKey` are not written. -/
structure WireMessage where
  headers : Dict WireValue
  key : String
  value : Row
  oldValue : Row
deriving DecidableEq

structure PersistedMessage extends WireMessage where
  offset : String
deriving DecidableEq

structure PersistedShape where
  handle : String
  hash : String
  definition : RawMessage Definition
  schema : RawMessage Schema
  snapshot : RawMessage (List WireMessage)
  materialized : RawMessage (Dict Row)
  currentOffset : String
  lastAccess : Time
  generation : Nat
  deleted : Bool
  changes : List (RawMessage PersistedMessage)
deriving DecidableEq

structure RuntimeCheckpoint where
  slotName : String
  lastConfirmedLSN : String
  systemID : String
  timeline : Int
  dbName : String
deriving DecidableEq, Repr

inductive StoreKind where
  | memory
  | disk
deriving DecidableEq, Repr

abbrev StoreError := String

/-- The `Store` interface.  Every write returns the store it leaves behind, so
an implementation may fail on any call and succeed on the next. -/
class Store (σ : Type) where
  kind : σ → StoreKind
  loadShapes : σ → Except StoreError (List PersistedShape)
  saveShape : σ → PersistedShape → Except StoreError Unit × σ
  loadRuntimeCheckpoint : σ → Except StoreError (Option RuntimeCheckpoint)
  saveRuntimeCheckpoint : σ → RuntimeCheckpoint → Except StoreError Unit × σ

structure MemoryStore where
  shapes : Dict PersistedShape
  checkpoint : Option RuntimeCheckpoint
deriving DecidableEq

def newMemoryStore : MemoryStore where
  shapes := ∅
  checkpoint := none

instance : Store MemoryStore where
  kind _ := .memory
  loadShapes store := .ok store.shapes.values
  saveShape store shape :=
    (.ok (), { store with shapes := store.shapes.insert shape.handle shape })
  loadRuntimeCheckpoint store := .ok store.checkpoint
  saveRuntimeCheckpoint store checkpoint :=
    (.ok (), { store with checkpoint := some checkpoint })

/-- The checkpoint that is loaded is the one that was saved last. -/
class RetainsCheckpoint (σ : Type) [Store σ] : Prop where
  load_save : ∀ (store : σ) (checkpoint : RuntimeCheckpoint),
    (Store.saveRuntimeCheckpoint store checkpoint).1 = .ok () →
      Store.loadRuntimeCheckpoint (Store.saveRuntimeCheckpoint store checkpoint).2 =
        .ok (some checkpoint)

instance memoryStore_retainsCheckpoint : RetainsCheckpoint MemoryStore :=
  ⟨fun _ _ _ => rfl⟩

/-- A disk store as its callers see it while no write fails: the last record of
each handle and the last checkpoint. -/
structure RecordStore extends MemoryStore
deriving DecidableEq

instance : Store RecordStore where
  kind _ := .disk
  loadShapes store := .ok store.shapes.values
  saveShape store shape :=
    (.ok (), { store with shapes := store.shapes.insert shape.handle shape })
  loadRuntimeCheckpoint store := .ok store.checkpoint
  saveRuntimeCheckpoint store checkpoint :=
    (.ok (), { store with checkpoint := some checkpoint })

/-- A store that may refuse any save and then keeps what it has: `refusals n` says
whether it refuses the save that comes after `n` others. -/
structure UnreliableStore where
  shapes : Dict PersistedShape := ∅
  refusals : Nat → Bool
  checkpoint : Option RuntimeCheckpoint := none

instance : Store UnreliableStore where
  kind _ := .disk
  loadShapes store := .ok store.shapes.values
  saveShape store shape :=
    let later := { store with refusals := fun n => store.refusals (n + 1) }
    if store.refusals 0 then
      (.error "save refused", later)
    else
      (.ok (), { later with shapes := store.shapes.insert shape.handle shape })
  loadRuntimeCheckpoint store := .ok store.checkpoint
  saveRuntimeCheckpoint store checkpoint :=
    (.ok (), { store with checkpoint := some checkpoint })

end PostgresSync.Storage
