import PostgresSync.Data.Padded
import PostgresSync.Storage.Store

namespace PostgresSync.Storage

open PostgresSync.Data
open PostgresSync.Shapes

/-! The disk store: two SQL tables, and a file for every chunk of a change log. -/

structure ShapeRow where
  hash : String
  definition : RawMessage Definition
  schema : RawMessage Schema
  snapshot : RawMessage (List WireMessage)
  materialized : RawMessage (Dict Row)
  currentOffset : String
  lastAccessUnix : Nat
  generation : Nat
  deleted : Bool
  changeCount : Nat
deriving DecidableEq

structure ChunkRow where
  handle : String
  seq : Nat
  path : String
  messageCount : Nat
deriving DecidableEq

structure Tables where
  shapes : Dict ShapeRow := ∅
  chunks : List ChunkRow := []
  checkpoint : Option RuntimeCheckpoint := none
deriving DecidableEq

/-- The bytes of a chunk file; `none` are bytes that do not decode. -/
abbrev ChunkFile := Option (List PersistedMessage)

structure Session where
  tables : Tables
  files : Dict ChunkFile
deriving DecidableEq

structure DiskStore extends Session where
  chunkDir : String
deriving DecidableEq

def newDiskStore (chunkDir : String) : DiskStore where
  tables := {}
  files := ∅
  chunkDir := chunkDir

def sanitizePath (value : String) : String :=
  let kept := value.toList.map fun c => if c.isAlphanum then c else '_'
  let trimmed := ((kept.dropWhile (· = '_')).reverse.dropWhile (· = '_')).reverse
  if trimmed.isEmpty then "shape" else String.ofList trimmed

def chunkPath (chunkDir handle : String) (seq : Nat) : String :=
  chunkDir ++ "/" ++ sanitizePath handle ++ "/" ++
    String.ofList (zeroPadded 6 seq) ++ ".json"

/-! The queries. -/

/-- `SELECT ... FROM chunks WHERE handle = ? ORDER BY seq`. -/
def Tables.chunkRows (tables : Tables) (handle : String) : List ChunkRow :=
  (tables.chunks.filter fun row => row.handle = handle).insertionSort
    fun left right => left.seq ≤ right.seq

structure ChunkMetadata where
  count : Nat
  nextSeq : Nat
  paths : List String

def loadChunkMetadata (tables : Tables) (handle : String) : ChunkMetadata where
  count := (tables.shapes[handle]?.map (·.changeCount)).getD 0
  nextSeq := (tables.chunkRows handle).foldl
    (fun nextSeq row => if nextSeq ≤ row.seq then row.seq + 1 else nextSeq) 0
  paths := (tables.chunkRows handle).map (·.path)

/-! `SaveShape`.  It decides what to do from the tables and the shape alone, so it
is a list of effects on the files and on the tables of its transaction. -/

inductive Effect where
  | removeFile (path : String)
  | writeFile (path : String) (chunk : List PersistedMessage)
  | renameFile (source target : String)
  /-- `DELETE FROM chunks WHERE handle = ?`. -/
  | deleteChunks (handle : String)
  /-- `INSERT INTO shapes ... ON CONFLICT(handle) DO UPDATE`. -/
  | upsertShape (handle : String) (row : ShapeRow)
  /-- `INSERT INTO chunks`. -/
  | insertChunk (row : ChunkRow)

def Session.run (session : Session) : Effect → Session
  | .removeFile path => { session with files := session.files.erase path }
  | .writeFile path chunk => { session with files := session.files.insert path (some chunk) }
  | .renameFile source target =>
      match session.files[source]? with
      | none => session
      | some file => { session with files := (session.files.erase source).insert target file }
  | .deleteChunks handle =>
      { session with
        tables := { session.tables with
          chunks := session.tables.chunks.filter fun row => row.handle ≠ handle } }
  | .upsertShape handle row =>
      { session with
        tables := { session.tables with
          shapes := session.tables.shapes.insert handle row } }
  | .insertChunk row =>
      { session with
        tables := { session.tables with chunks := session.tables.chunks ++ [row] } }

def shapeRow (shape : PersistedShape) (changeCount : Nat) : ShapeRow where
  hash := shape.hash
  definition := shape.definition
  schema := shape.schema
  snapshot := shape.snapshot
  materialized := shape.materialized
  currentOffset := shape.currentOffset
  lastAccessUnix := shape.lastAccess / 10 ^ 9
  generation := shape.generation
  deleted := shape.deleted
  changeCount := changeCount

/-- What keeps the row of a shape out of the table: a column that may not be null, or
a generation beyond the integers of the driver. -/
def rowError (shape : PersistedShape) : Option StoreError :=
  if shape.definition = .absent ∨ shape.schema = .absent ∨ shape.snapshot = .absent ∨
      shape.materialized = .absent then
    some "NOT NULL constraint failed"
  else if 2 ^ 63 ≤ shape.generation then
    some "uint64 values with high bit set are not supported"
  else
    none

/-- `json.Marshal` of one change.  Nothing is written as `null`, which is read as the
zero message. -/
def encodeChange : RawMessage PersistedMessage → Option PersistedMessage
  | .absent => some { headers := ∅, key := "", value := ∅, oldValue := ∅, offset := "" }
  | .encoded message => some message
  | .malformed => none

/-- The removal of the chunks of a shape, in `SaveShape`. -/
def clearChunks (handle : String) (paths : List String) : List Effect :=
  paths.map .removeFile ++ [.deleteChunks handle]

def appendChunk (chunkDir handle : String) (seq messageCount : Nat)
    (chunk : List PersistedMessage) : List Effect :=
  let path := chunkPath chunkDir handle seq
  let tempPath := path ++ ".tmp"
  [.writeFile tempPath chunk, .renameFile tempPath path,
    .insertChunk ⟨handle, seq, path, messageCount⟩]

/-- The effects of a save, and the error that it stops with when it does not come to
its commit. -/
structure SaveScript where
  effects : List Effect
  failure : Option StoreError := none

namespace DiskStore

def saveScript (disk : DiskStore) (shape : PersistedShape) : SaveScript :=
  let metadata := loadChunkMetadata disk.tables shape.handle
  let clear := clearChunks shape.handle metadata.paths
  let (cleared, existingCount, nextSeq, changes) :=
    if shape.deleted then
      (clear, 0, 0, [])
    else
      ([], metadata.count, metadata.nextSeq, shape.changes)
  let (cleared, existingCount, nextSeq) :=
    if changes.length < existingCount then
      (cleared ++ clear, 0, 0)
    else
      (cleared, existingCount, nextSeq)
  match rowError shape with
  | some error => { effects := cleared, failure := some error }
  | none =>
      let upserted := cleared ++
        [.upsertShape shape.handle (shapeRow shape changes.length)]
      if existingCount < changes.length then
        match (changes.drop existingCount).mapM encodeChange with
        | none =>
            { effects := upserted
              failure := some "json: error calling MarshalJSON for type json.RawMessage" }
        | some chunk =>
            { effects := upserted ++ appendChunk disk.chunkDir shape.handle nextSeq
                (changes.length - existingCount) chunk }
      else
        { effects := upserted }

def rolledBack (disk : DiskStore) (session : Session) : DiskStore :=
  { disk with files := session.files }

def saveShape (disk : DiskStore) (shape : PersistedShape) :
    Except StoreError Unit × DiskStore :=
  let script := disk.saveScript shape
  let session := script.effects.foldl Session.run disk.toSession
  match script.failure with
  | some error => (.error error, disk.rolledBack session)
  | none => (.ok (), { disk with toSession := session })

/-! Loading. -/

def loadShapeChanges (disk : DiskStore) (handle : String) :
    Option (List (RawMessage PersistedMessage)) :=
  let paths := ((disk.tables.chunkRows handle).map (·.path)).insertionSort (· ≤ ·)
  (paths.mapM fun path => disk.files[path]?.join).map fun chunks =>
    chunks.flatten.map .encoded

def loadShape (disk : DiskStore) (handle : String) (row : ShapeRow) : PersistedShape where
  handle := handle
  hash := row.hash
  definition := row.definition
  schema := row.schema
  snapshot := row.snapshot
  materialized := row.materialized
  currentOffset := row.currentOffset
  lastAccess := row.lastAccessUnix * 10 ^ 9
  generation := row.generation
  deleted := row.deleted
  changes := (disk.loadShapeChanges handle).getD [.malformed]

def loadShapes (disk : DiskStore) : List PersistedShape :=
  disk.tables.shapes.toList.map fun entry => disk.loadShape entry.1 entry.2

theorem mem_loadShapes {disk : DiskStore} {shape : PersistedShape} :
    shape ∈ disk.loadShapes ↔ ∃ (handle : String) (row : ShapeRow),
      disk.tables.shapes[handle]? = some row ∧ disk.loadShape handle row = shape := by
  rw [loadShapes, List.mem_map]
  constructor
  · intro ⟨entry, member, made⟩
    exact ⟨entry.1, entry.2, Std.ExtTreeMap.mem_toList_iff_getElem?_eq_some.mp member, made⟩
  · intro ⟨handle, row, found, made⟩
    exact ⟨(handle, row), Std.ExtTreeMap.mem_toList_iff_getElem?_eq_some.mpr found, made⟩

end DiskStore

instance : Store DiskStore where
  kind _ := .disk
  loadShapes disk := .ok disk.loadShapes
  saveShape disk shape := disk.saveShape shape
  loadRuntimeCheckpoint disk := .ok disk.tables.checkpoint
  saveRuntimeCheckpoint disk checkpoint :=
    (.ok (), { disk with tables := { disk.tables with checkpoint := some checkpoint } })

instance diskStore_retainsCheckpoint : RetainsCheckpoint DiskStore :=
  ⟨fun _ _ _ => rfl⟩

/-! The tables. -/

section Queries

variable (session : Session) (handle : String)

def Tables.rowsOf (tables : Tables) (handle : String) : List ChunkRow :=
  tables.chunks.filter fun row => row.handle = handle

@[simp] theorem rowsOf_deleteChunks (other : String) :
    (session.run (.deleteChunks other)).tables.rowsOf handle =
      if other = handle then [] else session.tables.rowsOf handle := by
  simp only [Session.run, Tables.rowsOf, List.filter_filter]
  split
  · next same =>
      subst same
      apply List.filter_eq_nil_iff.mpr
      simp
  · next different =>
      apply List.filter_congr
      intro row _
      by_cases own : row.handle = handle
      · simp [own, Ne.symm different]
      · simp [own]

@[simp] theorem rowsOf_insertChunk (row : ChunkRow) :
    (session.run (.insertChunk row)).tables.rowsOf handle =
      session.tables.rowsOf handle ++ if row.handle = handle then [row] else [] := by
  simp only [Session.run, Tables.rowsOf, List.filter_append]
  by_cases own : row.handle = handle <;> simp [own]

@[simp] theorem rowsOf_upsertShape (other : String) (row : ShapeRow) :
    (session.run (.upsertShape other row)).tables.rowsOf handle =
      session.tables.rowsOf handle := rfl

end Queries

/-! The paths of the chunk files. -/

section Paths

variable {chunkDir handle other : String} {seq position : Nat}

theorem chunkPath_toList (chunkDir handle : String) (seq : Nat) :
    (chunkPath chunkDir handle seq).toList =
      (chunkDir.toList ++ '/' :: (sanitizePath handle).toList) ++
        '/' :: (zeroPadded 6 seq ++ ".json".toList) := by
  simp [chunkPath]

theorem slash_not_mem (seq : Nat) : '/' ∉ zeroPadded 6 seq ++ ".json".toList := by
  intro member
  rcases List.mem_append.mp member with digit | suffix
  · exact absurd (zeroPadded_isDigit digit) (by decide)
  · exact absurd suffix (by decide)

theorem chunkPath_inj
    (same : chunkPath chunkDir handle seq = chunkPath chunkDir other position) :
    sanitizePath handle = sanitizePath other ∧ seq = position := by
  have lists := congrArg String.toList same
  rw [chunkPath_toList, chunkPath_toList] at lists
  obtain ⟨front, back⟩ := append_separator_inj (slash_not_mem seq) (slash_not_mem position) lists
  have names := (List.cons.inj (List.append_cancel_left front)).2
  have digits := List.append_cancel_right back
  refine ⟨String.toList_inj.mp names, ?_⟩
  rw [← ofDigitChars_zeroPadded 6 seq, digits, ofDigitChars_zeroPadded]

theorem chunkPath_ne_temp :
    chunkPath chunkDir handle seq ≠ chunkPath chunkDir other position ++ ".tmp" := by
  intro same
  have ends := congrArg (fun text : String => text.toList.reverse.head?) same
  simp [chunkPath_toList] at ends

theorem chunkPath_lt (below : seq < position) (bound : position < 10 ^ 6) :
    chunkPath chunkDir handle seq < chunkPath chunkDir handle position := by
  rw [String.lt_iff_toList_lt, chunkPath_toList, chunkPath_toList]
  apply append_left_lt
  rw [List.cons_lt_cons_iff]
  exact .inr ⟨rfl, zeroPadded_lt below bound _ _⟩

/-- A chunk with seven digits comes before the last one with six. -/
theorem chunkPath_million_lt :
    chunkPath chunkDir handle 1000000 < chunkPath chunkDir handle 999999 := by
  rw [String.lt_iff_toList_lt, chunkPath_toList, chunkPath_toList]
  apply append_left_lt
  rw [List.cons_lt_cons_iff]
  exact .inr ⟨rfl, by decide⟩

end Paths

end PostgresSync.Storage
