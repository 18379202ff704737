import PostgresSync.Data.Path
import PostgresSync.SqlInspect.Inspect
import PostgresSync.Storage.LastWrite

namespace PostgresSync.Storage

open PostgresSync.Data
open PostgresSync.Shapes

/-! Compaction, and openings of one store directory under several spellings of its path.

The files are those beneath the chunk directory, by their paths from there.  `locate`
is the file that a path names, which the working directory and the links of the file
system decide. -/

/-- The chunk directory of `NewDiskStore`. -/
def chunkDirOf (dir : String) : String :=
  joinPath (if SqlInspect.isBlank dir then ".postgres-sync-go" else dir) "chunks"

/-- The spelling names the store directory: what lies beneath its chunk directory is
what the file system has there. -/
def Spells (locate : String → String) (dir : String) : Prop :=
  ∀ name : String, PlainPath name.toList → locate (chunkDirOf dir ++ "/" ++ name) = name

/-- The file operations, on the files that their paths name. -/
def Effect.located (locate : String → String) : Effect → Effect
  | .removeFile path => .removeFile (locate path)
  | .writeFile path chunk => .writeFile (locate path) chunk
  | .renameFile source target => .renameFile (locate source) (locate target)
  | effect => effect

structure CompactionResult where
  removedChunks : Nat
deriving DecidableEq

attribute [ext] Tables

/-- The chunk rows that `Compact` deletes: `handle NOT IN (SELECT handle FROM shapes) OR
handle IN (SELECT handle FROM shapes WHERE deleted = 1)`. -/
def Tables.unreferenced (tables : Tables) (row : ChunkRow) : Bool :=
  match tables.shapes[row.handle]? with
  | none => true
  | some shape => shape.deleted

def Tables.compacted (tables : Tables) : Tables :=
  { tables with
    chunks := tables.chunks.filter fun row => !tables.unreferenced row
    shapes := Std.ExtTreeMap.map
      (fun _ shape => if shape.deleted then { shape with changeCount := 0 } else shape)
      tables.shapes }

def liveChunkPaths (tables : Tables) : List String :=
  tables.chunks.map fun row => cleanPath row.path

namespace DiskStore

section

variable (locate : String → String)

def saveShapeAt (disk : DiskStore) (shape : PersistedShape) :
    Except StoreError Unit × DiskStore :=
  let script := disk.saveScript shape
  let session := (script.effects.map (Effect.located locate)).foldl Session.run disk.toSession
  match script.failure with
  | some error => (.error error, disk.rolledBack session)
  | none => (.ok (), { disk with toSession := session })

def loadShapeChangesAt (disk : DiskStore) (handle : String) :
    Option (List (RawMessage PersistedMessage)) :=
  let paths := ((disk.tables.chunkRows handle).map (·.path)).insertionSort (· ≤ ·)
  (paths.mapM fun path => disk.files[locate path]?.join).map fun chunks =>
    chunks.flatten.map .encoded

def loadShapesAt (disk : DiskStore) : List PersistedShape :=
  disk.tables.shapes.toList.map fun entry =>
    { disk.loadShape entry.1 entry.2 with
      changes := (disk.loadShapeChangesAt locate entry.1).getD [.malformed] }

/-- The walk over the chunk directory, at one of its files. -/
def removeUnreferenced (chunkDir : String) (livePaths : List String)
    (walk : CompactionResult × Dict ChunkFile) (name : String) :
    CompactionResult × Dict ChunkFile :=
  let path := cleanPath (chunkDir ++ "/" ++ name)
  if path ∈ livePaths then
    walk
  else
    ({ removedChunks := walk.1.removedChunks + 1 }, walk.2.erase (locate path))

def removeUnreferencedChunkFiles (disk : DiskStore) (livePaths : List String) :
    CompactionResult × DiskStore :=
  let (result, files) := disk.files.keys.foldl
    (removeUnreferenced locate disk.chunkDir livePaths) ({ removedChunks := 0 }, disk.files)
  (result, { disk with files := files })

def compact (disk : DiskStore) : CompactionResult × DiskStore :=
  let disk := { disk with tables := disk.tables.compacted }
  disk.removeUnreferencedChunkFiles locate (liveChunkPaths disk.tables)

end

end DiskStore

/-! What happens to a store directory. -/

inductive Deed where
  | reopen (dir : String)
  | save (shape : PersistedShape)
  | compact
  /-- A file that no save has to do with. -/
  | leave (name : String) (file : ChunkFile)

section

variable (locate : String → String)

def DiskStore.step (disk : DiskStore) : Deed → DiskStore
  | .reopen dir => { disk with chunkDir := chunkDirOf dir }
  | .save shape => (disk.saveShapeAt locate shape).2
  | .compact => (disk.compact locate).2
  | .leave name file => { disk with files := disk.files.insert name file }

/-- The store is opened under spellings of its own directory only, and files lie beneath
the chunk directory. -/
def Deed.Sound : Deed → Prop
  | .reopen dir => Spells locate dir
  | .leave name _ => PlainPath name.toList
  | _ => True

/-- A chunk file of a shape that is not deleted. -/
def DiskStore.Referenced (disk : DiskStore) (name : String) : Prop :=
  ∃ row ∈ disk.tables.chunks, disk.tables.unreferenced row = false ∧ locate row.path = name

/-- The shape as it is loaded once the store is compacted. -/
def PersistedShape.compacted (shape : PersistedShape) : PersistedShape :=
  if shape.deleted then { shape with changes := [] } else shape

/-- A compaction at this point removes garbage and nothing else. -/
structure DiskStore.RemovesGarbage (disk : DiskStore) : Prop where
  loaded : (disk.compact locate).2.loadShapesAt locate =
    (disk.loadShapesAt locate).map PersistedShape.compacted
  removed : ∀ name : String, ¬disk.Referenced locate name →
    (disk.compact locate).2.files[name]? = none
  settled : (disk.compact locate).2.compact locate =
    ({ removedChunks := 0 }, (disk.compact locate).2)

/-- Every chunk file of a shape that is not deleted, and whose changes can be read, is in
the table under the spelling of this opening. -/
def DiskStore.SpelledAlike (disk : DiskStore) : Prop :=
  ∀ handle shape, disk.tables.shapes[handle]? = some shape → shape.deleted = false →
    (disk.loadShapeChangesAt locate handle).isSome →
      ∀ row ∈ disk.tables.chunks, row.handle = handle →
        ∃ other ∈ disk.tables.chunks, disk.tables.unreferenced other = false ∧
          other.path = disk.chunkDir ++ "/" ++ locate row.path

end

/-! The names of the chunk files. -/

theorem mem_sanitizePath {handle : String} {char : Char}
    (member : char ∈ (sanitizePath handle).toList) : char.isAlphanum = true ∨ char = '_' := by
  have kept : ∀ c ∈ handle.toList.map fun c => if c.isAlphanum then c else '_',
      c.isAlphanum = true ∨ c = '_' := by
    intro c listed
    obtain ⟨origin, _, rfl⟩ := List.mem_map.mp listed
    split
    next alphanumeric => exact .inl alphanumeric
    next => exact .inr rfl
  unfold sanitizePath at member
  dsimp only at member
  split at member
  next =>
    have letters : "shape".toList.all Char.isAlphanum = true := by decide
    exact .inl (List.all_eq_true.mp letters char member)
  next =>
    rw [String.toList_ofList, List.mem_reverse] at member
    have trimmed := (List.dropWhile_sublist _).subset member
    rw [List.mem_reverse] at trimmed
    exact kept char ((List.dropWhile_sublist _).subset trimmed)

theorem plainName_sanitizePath (handle : String) : PlainName (sanitizePath handle).toList := by
  have nonempty : (sanitizePath handle).toList ≠ [] := by
    unfold sanitizePath
    dsimp only
    split
    next => decide
    next some => simpa using some
  have absent : ∀ char : Char, char.isAlphanum = false → char ≠ '_' →
      char ∉ (sanitizePath handle).toList := by
    intro char other different member
    rcases mem_sanitizePath member with alphanumeric | same
    · rw [other] at alphanumeric
      cases alphanumeric
    · exact different same
  have dots := absent '.' (by decide) (by decide)
  refine ⟨nonempty, ?_, ?_, absent '/' (by decide) (by decide)⟩
  · intro same
    exact dots (same ▸ List.mem_cons_self)
  · intro same
    exact dots (same ▸ List.mem_cons_self)

def chunkName (handle : String) (seq : Nat) : String :=
  sanitizePath handle ++ "/" ++ String.ofList (zeroPadded 6 seq) ++ ".json"

theorem chunkPath_eq (chunkDir handle : String) (seq : Nat) :
    chunkPath chunkDir handle seq = chunkDir ++ "/" ++ chunkName handle seq := by
  simp [chunkPath, chunkName, String.append_assoc]

theorem plainPath_chunkName (handle : String) (seq : Nat) (ending : String)
    (plain : '/' ∉ ending.toList) : PlainPath (chunkName handle seq ++ ending).toList := by
  have text : (chunkName handle seq ++ ending).toList = (sanitizePath handle).toList ++
      '/' :: (zeroPadded 6 seq ++ ".json".toList ++ ending.toList) := by
    simp [chunkName]
  have file : '/' ∉ zeroPadded 6 seq ++ ".json".toList ++ ending.toList := by
    rw [List.mem_append, not_or]
    exact ⟨slash_not_mem seq, plain⟩
  have long : 5 ≤ (zeroPadded 6 seq ++ ".json".toList ++ ending.toList).length := by
    simp only [List.length_append, show ".json".toList.length = 5 from rfl]
    omega
  rw [PlainPath, text, splitOn_slash,
    List.splitOn_eq_singleton (plainName_sanitizePath handle).2.2.2,
    List.splitOn_eq_singleton file]
  intro name member
  rcases List.mem_cons.mp member with rfl | last
  · exact plainName_sanitizePath handle
  · obtain rfl := List.mem_singleton.mp last
    refine ⟨?_, ?_, ?_, file⟩
    all_goals
      intro same
      rw [same] at long
      exact absurd long (by decide)

/-! Stores whose rows and files lie in the directory of the store. -/

section Soundness

variable (locate : String → String)

def ChunkRow.Sound (row : ChunkRow) : Prop :=
  ∃ dir name, Spells locate dir ∧ PlainPath name.toList ∧
    row.path = chunkDirOf dir ++ "/" ++ name

structure Session.Sound (session : Session) : Prop where
  rows : ∀ row ∈ session.tables.chunks, row.Sound locate
  files : ∀ name ∈ session.files, PlainPath name.toList

structure DiskStore.Sound (disk : DiskStore) : Prop where
  session : disk.toSession.Sound locate
  opened : ∃ dir, disk.chunkDir = chunkDirOf dir ∧ Spells locate dir

def Effect.Sound : Effect → Prop
  | .writeFile path _ => PlainPath (locate path).toList
  | .renameFile _ target => PlainPath (locate target).toList
  | .insertChunk row => row.Sound locate
  | _ => True

end Soundness

section Preservation

variable {locate : String → String} {session : Session} {disk : DiskStore}

theorem ChunkRow.Sound.clean {row : ChunkRow} (sound : row.Sound locate) :
    cleanPath row.path = row.path := by
  obtain ⟨dir, name, _, plain, path⟩ := sound
  rw [path]
  exact cleanPath_beneath (by decide) plain

theorem Session.Sound.run {effect : Effect} (sound : session.Sound locate)
    (valid : effect.Sound locate) : (session.run (effect.located locate)).Sound locate := by
  cases effect with
  | removeFile path =>
      refine ⟨sound.rows, fun name member => ?_⟩
      exact sound.files name (Std.ExtTreeMap.mem_of_mem_erase member)
  | writeFile path chunk =>
      refine ⟨sound.rows, fun name member => ?_⟩
      rcases Std.ExtTreeMap.mem_insert.mp member with same | old
      · rw [← compare_eq_iff_eq.mp same]
        exact valid
      · exact sound.files name old
  | renameFile source target =>
      dsimp only [Effect.located, Session.run]
      split
      next => exact sound
      next file found =>
        refine ⟨sound.rows, fun name member => ?_⟩
        rcases Std.ExtTreeMap.mem_insert.mp member with same | old
        · rw [← compare_eq_iff_eq.mp same]
          exact valid
        · exact sound.files name (Std.ExtTreeMap.mem_of_mem_erase old)
  | deleteChunks handle =>
      exact ⟨fun row member => sound.rows row (List.mem_of_mem_filter member), sound.files⟩
  | upsertShape handle row => exact ⟨sound.rows, sound.files⟩
  | insertChunk row =>
      refine ⟨fun other member => ?_, sound.files⟩
      rcases List.mem_append.mp member with old | new
      · exact sound.rows other old
      · rw [List.mem_singleton.mp new]
        exact valid

theorem Session.Sound.foldl {effects : List Effect} (sound : session.Sound locate)
    (valid : ∀ effect ∈ effects, effect.Sound locate) :
    ((effects.map (Effect.located locate)).foldl Session.run session).Sound locate := by
  induction effects generalizing session with
  | nil => exact sound
  | cons first rest hypothesis =>
      apply hypothesis (sound.run (valid first List.mem_cons_self))
      exact fun effect member => valid effect (List.mem_cons_of_mem first member)

theorem mem_saveScript {shape : PersistedShape} {effect : Effect}
    (member : effect ∈ (disk.saveScript shape).effects) :
    effect ∈ clearChunks shape.handle (loadChunkMetadata disk.tables shape.handle).paths ∨
      (∃ row, effect = .upsertShape shape.handle row) ∨
      ∃ seq count chunk, effect ∈ appendChunk disk.chunkDir shape.handle seq count chunk := by
  unfold DiskStore.saveScript at member
  dsimp only at member
  grind

theorem DiskStore.Sound.saveScript (sound : disk.Sound locate) (shape : PersistedShape) :
    ∀ effect ∈ (disk.saveScript shape).effects, effect.Sound locate := by
  intro effect member
  obtain ⟨dir, spelling, spells⟩ := sound.opened
  rcases mem_saveScript member with clear | ⟨row, rfl⟩ | ⟨seq, count, chunk, append⟩
  · rcases List.mem_append.mp clear with removal | deletion
    · obtain ⟨path, _, rfl⟩ := List.mem_map.mp removal
      trivial
    · obtain rfl := List.mem_singleton.mp deletion
      trivial
  · trivial
  · rw [appendChunk, chunkPath_eq, spelling] at append
    have plain := plainPath_chunkName shape.handle seq "" (by decide)
    rw [String.append_empty] at plain
    have temporary := plainPath_chunkName shape.handle seq ".tmp" (by decide)
    simp only [List.mem_cons, List.not_mem_nil, or_false] at append
    rcases append with rfl | rfl | rfl
    · rw [Effect.Sound, String.append_assoc, spells _ temporary]
      exact temporary
    · rw [Effect.Sound, spells _ plain]
      exact plain
    · exact ⟨dir, chunkName shape.handle seq, spells, plain, rfl⟩

theorem DiskStore.Sound.saveShapeAt (sound : disk.Sound locate) (shape : PersistedShape) :
    (disk.saveShapeAt locate shape).2.Sound locate := by
  have after := sound.session.foldl (sound.saveScript shape)
  unfold DiskStore.saveShapeAt
  dsimp only
  split
  next => exact ⟨⟨sound.session.rows, after.files⟩, sound.opened⟩
  next => exact ⟨after, sound.opened⟩

end Preservation

/-! What a compaction leaves. -/

section Compaction

variable {locate : String → String} {disk : DiskStore}

/-- A row of a shape that is not deleted has the file under the spelling of this
opening. -/
def DiskStore.Spelled (disk : DiskStore) (name : String) : Prop :=
  ∃ row ∈ disk.tables.chunks, disk.tables.unreferenced row = false ∧
    row.path = disk.chunkDir ++ "/" ++ name

instance (disk : DiskStore) (name : String) : Decidable (disk.Spelled name) :=
  inferInstanceAs (Decidable (∃ row ∈ disk.tables.chunks,
    disk.tables.unreferenced row = false ∧ row.path = disk.chunkDir ++ "/" ++ name))

variable {name handle : String} {shape : ShapeRow}

theorem DiskStore.Sound.cleanPath_walk (sound : disk.Sound locate)
    (plain : PlainPath name.toList) :
    cleanPath (disk.chunkDir ++ "/" ++ name) = disk.chunkDir ++ "/" ++ name := by
  obtain ⟨dir, spelling, _⟩ := sound.opened
  rw [spelling]
  exact cleanPath_beneath (by decide) plain

theorem DiskStore.Sound.locate_walk (sound : disk.Sound locate) (plain : PlainPath name.toList) :
    locate (disk.chunkDir ++ "/" ++ name) = name := by
  obtain ⟨dir, spelling, spells⟩ := sound.opened
  rw [spelling]
  exact spells name plain

theorem DiskStore.Sound.mem_liveChunkPaths (sound : disk.Sound locate)
    (plain : PlainPath name.toList) :
    cleanPath (disk.chunkDir ++ "/" ++ name) ∈ liveChunkPaths disk.tables.compacted ↔
      disk.Spelled name := by
  rw [sound.cleanPath_walk plain, liveChunkPaths, List.mem_map]
  constructor
  · rintro ⟨row, kept, same⟩
    obtain ⟨member, live⟩ := List.mem_filter.mp kept
    rw [(sound.session.rows row member).clean] at same
    exact ⟨row, member, by simpa using live, same⟩
  · rintro ⟨row, member, live, same⟩
    refine ⟨row, List.mem_filter.mpr ⟨member, by simp [live]⟩, ?_⟩
    rw [(sound.session.rows row member).clean, same]

theorem DiskStore.Sound.removeUnreferenced_eq (sound : disk.Sound locate)
    (plain : PlainPath name.toList) (walk : CompactionResult × Dict ChunkFile) :
    removeUnreferenced locate disk.chunkDir (liveChunkPaths disk.tables.compacted) walk name =
      if disk.Spelled name then walk
      else ({ removedChunks := walk.1.removedChunks + 1 }, walk.2.erase name) := by
  have live := sound.mem_liveChunkPaths plain
  unfold removeUnreferenced
  rw [sound.cleanPath_walk plain] at live ⊢
  simp only [live, sound.locate_walk plain]

theorem DiskStore.Sound.walk_files (sound : disk.Sound locate) {names : List String}
    (plain : ∀ name ∈ names, PlainPath name.toList) (walk : CompactionResult × Dict ChunkFile)
    (name : String) :
    (names.foldl (removeUnreferenced locate disk.chunkDir
      (liveChunkPaths disk.tables.compacted)) walk).2[name]? =
        if name ∈ names ∧ ¬disk.Spelled name then none else walk.2[name]? := by
  induction names generalizing walk with
  | nil => simp
  | cons first rest hypothesis =>
      have own := plain first List.mem_cons_self
      rw [List.foldl_cons, hypothesis fun name member =>
        plain name (List.mem_cons_of_mem first member), sound.removeUnreferenced_eq own]
      by_cases spelled : disk.Spelled first
      · rw [if_pos spelled]
        by_cases same : name = first
        · simp [same, spelled]
        · simp [same]
      · rw [if_neg spelled, Dict.getElem?_erase]
        by_cases same : name = first
        · simp [same, spelled]
        · simp [same, Ne.symm same]

theorem DiskStore.Sound.walk_spelled (sound : disk.Sound locate) {names : List String}
    (plain : ∀ name ∈ names, PlainPath name.toList)
    (spelled : ∀ name ∈ names, disk.Spelled name) (walk : CompactionResult × Dict ChunkFile) :
    names.foldl (removeUnreferenced locate disk.chunkDir
      (liveChunkPaths disk.tables.compacted)) walk = walk := by
  induction names generalizing walk with
  | nil => rfl
  | cons first rest hypothesis =>
      rw [List.foldl_cons, sound.removeUnreferenced_eq (plain first List.mem_cons_self),
        if_pos (spelled first List.mem_cons_self)]
      apply hypothesis
      · exact fun name member => plain name (List.mem_cons_of_mem first member)
      · exact fun name member => spelled name (List.mem_cons_of_mem first member)

theorem DiskStore.compact_tables (disk : DiskStore) :
    (disk.compact locate).2.tables = disk.tables.compacted := rfl

theorem DiskStore.compact_chunkDir (disk : DiskStore) :
    (disk.compact locate).2.chunkDir = disk.chunkDir := rfl

theorem DiskStore.Sound.plain_keys (sound : disk.Sound locate) :
    ∀ name ∈ disk.files.keys, PlainPath name.toList := fun name member =>
  sound.session.files name (Std.ExtTreeMap.mem_keys.mp member)

theorem DiskStore.Sound.compact_files (sound : disk.Sound locate) (name : String) :
    (disk.compact locate).2.files[name]? =
      if disk.Spelled name then disk.files[name]? else none := by
  have walked := sound.walk_files sound.plain_keys ({ removedChunks := 0 }, disk.files) name
  refine Eq.trans walked ?_
  simp only [Std.ExtTreeMap.mem_keys]
  by_cases spelled : disk.Spelled name
  · simp [spelled]
  · by_cases present : name ∈ disk.files
    · simp [spelled, present]
    · have missing : disk.files[name]? = none := by simpa using present
      simp [spelled, missing]

theorem Tables.unreferenced_compacted (tables : Tables) (row : ChunkRow) :
    tables.compacted.unreferenced row = tables.unreferenced row := by
  unfold Tables.unreferenced Tables.compacted
  dsimp only
  rw [Std.ExtTreeMap.getElem?_map]
  cases tables.shapes[row.handle]? with
  | none => rfl
  | some shape =>
      dsimp only [Option.map_some]
      split
      next deleted => rfl
      next => rfl

theorem Tables.compacted_idempotent (tables : Tables) :
    tables.compacted.compacted = tables.compacted := by
  have chunks : tables.compacted.compacted.chunks = tables.compacted.chunks := by
    show tables.compacted.chunks.filter _ = tables.compacted.chunks
    apply List.filter_eq_self.mpr
    intro row member
    rw [Tables.unreferenced_compacted]
    exact (List.mem_filter.mp member).2
  have shapes : tables.compacted.compacted.shapes = tables.compacted.shapes := by
    apply Std.ExtTreeMap.ext_getElem?
    intro handle
    simp only [Tables.compacted, Std.ExtTreeMap.getElem?_map, Option.map_map]
    apply Option.map_congr
    intro shape _
    cases deleted : shape.deleted with
    | true => simp [deleted]
    | false => simp [deleted]
  exact Tables.ext shapes chunks rfl

theorem DiskStore.compact_spelled (disk : DiskStore) (name : String) :
    (disk.compact locate).2.Spelled name ↔ disk.Spelled name := by
  unfold DiskStore.Spelled
  rw [disk.compact_tables, disk.compact_chunkDir]
  constructor
  · rintro ⟨row, member, live, path⟩
    rw [Tables.unreferenced_compacted] at live
    exact ⟨row, List.mem_of_mem_filter member, live, path⟩
  · rintro ⟨row, member, live, path⟩
    refine ⟨row, List.mem_filter.mpr ⟨member, by simp [live]⟩, ?_, path⟩
    rw [Tables.unreferenced_compacted, live]

theorem DiskStore.Sound.compact (sound : disk.Sound locate) :
    (disk.compact locate).2.Sound locate := by
  refine ⟨⟨fun row member => ?_, fun name member => ?_⟩, sound.opened⟩
  · exact sound.session.rows row (List.mem_of_mem_filter member)
  · obtain ⟨file, found⟩ := Dict.mem_iff_exists.mp member
    rw [sound.compact_files] at found
    split at found
    next => exact sound.session.files name (Dict.mem_iff_exists.mpr ⟨file, found⟩)
    next => cases found

theorem DiskStore.Sound.compact_settled (sound : disk.Sound locate) :
    (disk.compact locate).2.compact locate =
      ({ removedChunks := 0 }, (disk.compact locate).2) := by
  have spelled : ∀ name ∈ (disk.compact locate).2.files.keys,
      (disk.compact locate).2.Spelled name := by
    intro name member
    obtain ⟨file, found⟩ := Dict.mem_iff_exists.mp (Std.ExtTreeMap.mem_keys.mp member)
    rw [disk.compact_spelled]
    rw [sound.compact_files] at found
    split at found
    next spelled => exact spelled
    next => cases found
  have nothing := sound.compact.walk_spelled sound.compact.plain_keys spelled
    ({ removedChunks := 0 }, (disk.compact locate).2.files)
  rw [DiskStore.compact, DiskStore.removeUnreferencedChunkFiles]
  dsimp only
  rw [disk.compact_tables, Tables.compacted_idempotent]
  rw [disk.compact_tables, Tables.compacted_idempotent] at nothing
  rw [nothing]
  rfl

theorem DiskStore.Sound.compact_removed (sound : disk.Sound locate)
    (garbage : ¬disk.Referenced locate name) :
    (disk.compact locate).2.files[name]? = none := by
  rw [sound.compact_files]
  split
  next spelled =>
    cases found : disk.files[name]? with
    | none => rfl
    | some file =>
        obtain ⟨row, member, live, path⟩ := spelled
        have plain := sound.session.files name (Dict.mem_iff_exists.mpr ⟨file, found⟩)
        refine absurd ⟨row, member, live, ?_⟩ garbage
        rw [path, sound.locate_walk plain]
  next => rfl

/-! What is loaded after a compaction. -/

theorem Tables.chunkRows_compacted {tables : Tables}
    (stored : tables.shapes[handle]? = some shape) :
    tables.compacted.chunkRows handle =
      if shape.deleted then [] else tables.chunkRows handle := by
  have rows : tables.compacted.chunks.filter (fun row => decide (row.handle = handle)) =
      if shape.deleted then [] else
        tables.chunks.filter fun row => decide (row.handle = handle) := by
    have own : ∀ row : ChunkRow, row.handle = handle → tables.unreferenced row = shape.deleted := by
      intro row same
      rw [Tables.unreferenced, same, stored]
    simp only [Tables.compacted, List.filter_filter]
    split
    next deleted =>
      apply List.filter_eq_nil_iff.mpr
      intro row _ both
      rw [Bool.and_eq_true, decide_eq_true_iff] at both
      simp [own row both.1, deleted] at both
    next active =>
      apply List.filter_congr
      intro row _
      cases same : decide (row.handle = handle) with
      | false => rfl
      | true => simp [own row (of_decide_eq_true same), active]
  rw [Tables.chunkRows, rows]
  split
  next => rfl
  next => rfl

theorem DiskStore.compact_changes_deleted (stored : disk.tables.shapes[handle]? = some shape)
    (deleted : shape.deleted = true) :
    (disk.compact locate).2.loadShapeChangesAt locate handle = some [] := by
  rw [DiskStore.loadShapeChangesAt, disk.compact_tables, Tables.chunkRows_compacted stored,
    if_pos deleted]
  rfl

theorem mem_chunkPaths {tables : Tables} {path : String} :
    path ∈ ((tables.chunkRows handle).map (·.path)).insertionSort (· ≤ ·) ↔
      ∃ row ∈ tables.chunks, row.handle = handle ∧ row.path = path := by
  rw [List.mem_insertionSort, List.mem_map]
  simp only [Tables.chunkRows, List.mem_insertionSort, List.mem_filter, decide_eq_true_iff,
    and_assoc]

theorem mapM_restricted (items : List α) (kept : α → Prop) [DecidablePred kept]
    (read : α → Option β) :
    (items.mapM fun item => if kept item then read item else none) =
      if ∀ item ∈ items, kept item then items.mapM read else none := by
  split
  next every =>
    apply mapM_congr
    intro item member
    rw [if_pos (every item member)]
  next some =>
    push Not at some
    obtain ⟨item, member, dropped⟩ := some
    exact mapM_eq_none_iff.mpr ⟨item, member, if_neg dropped⟩

theorem DiskStore.Sound.compact_changes_iff (sound : disk.Sound locate)
    (stored : disk.tables.shapes[handle]? = some shape)
    (active : shape.deleted = false) :
    ((disk.compact locate).2.loadShapeChangesAt locate handle).getD [.malformed] =
        (disk.loadShapeChangesAt locate handle).getD [.malformed] ↔
      ((disk.loadShapeChangesAt locate handle).isSome →
        ∀ row ∈ disk.tables.chunks, row.handle = handle → disk.Spelled (locate row.path)) := by
  have rows := Tables.chunkRows_compacted stored
  rw [if_neg (by simp [active])] at rows
  have every : (∀ row ∈ disk.tables.chunks, row.handle = handle →
        disk.Spelled (locate row.path)) ↔
      ∀ path ∈ ((disk.tables.chunkRows handle).map (·.path)).insertionSort (· ≤ ·),
        disk.Spelled (locate path) := by
    simp only [mem_chunkPaths]
    constructor
    · rintro all path ⟨row, member, own, rfl⟩
      exact all row member own
    · intro all row member own
      exact all row.path ⟨row, member, own, rfl⟩
  have joined : ∀ path, ((disk.compact locate).2.files[locate path]?).join =
      if disk.Spelled (locate path) then disk.files[locate path]?.join else none := by
    intro path
    rw [sound.compact_files]
    split
    next => rfl
    next => rfl
  unfold DiskStore.loadShapeChangesAt
  simp only [disk.compact_tables, rows, joined, mapM_restricted, every]
  generalize ((disk.tables.chunkRows handle).map (·.path)).insertionSort (· ≤ ·) = paths
  cases paths.mapM fun path => disk.files[locate path]?.join with
  | none => simp
  | some chunks =>
      constructor
      · intro same _
        by_contra unspelled
        rw [if_neg unspelled] at same
        have texts : [RawMessage.malformed] = chunks.flatten.map RawMessage.encoded := same
        have marker : RawMessage.malformed ∈ chunks.flatten.map RawMessage.encoded :=
          texts ▸ List.mem_singleton_self _
        obtain ⟨message, _, wrong⟩ := List.mem_map.mp marker
        cases wrong
      · intro spelled
        rw [if_pos (spelled rfl)]

theorem DiskStore.Sound.compact_loaded_iff (sound : disk.Sound locate) :
    (disk.compact locate).2.loadShapesAt locate =
        (disk.loadShapesAt locate).map PersistedShape.compacted ↔
      disk.SpelledAlike locate := by
  have entry : ∀ handle shape, disk.tables.shapes[handle]? = some shape →
      (({ (disk.compact locate).2.loadShape handle
            (if shape.deleted then { shape with changeCount := 0 } else shape) with
          changes := ((disk.compact locate).2.loadShapeChangesAt locate handle).getD
            [.malformed] } : PersistedShape) =
        PersistedShape.compacted { disk.loadShape handle shape with
          changes := (disk.loadShapeChangesAt locate handle).getD [.malformed] } ↔
      (shape.deleted = false → (disk.loadShapeChangesAt locate handle).isSome →
        ∀ row ∈ disk.tables.chunks, row.handle = handle → disk.Spelled (locate row.path))) := by
    intro handle shape stored
    cases deleted : shape.deleted with
    | true =>
        simp [PersistedShape.compacted, DiskStore.loadShape, deleted,
          DiskStore.compact_changes_deleted stored deleted]
    | false =>
        rw [forall_prop_of_true rfl, ← sound.compact_changes_iff stored deleted]
        simp [PersistedShape.compacted, DiskStore.loadShape, deleted]
  unfold DiskStore.loadShapesAt
  rw [disk.compact_tables, Tables.compacted, Std.ExtTreeMap.toList_map, List.map_map, List.map_map,
    List.map_inj_left]
  constructor
  · intro all handle shape stored
    exact (entry handle shape stored).mp
      (all (handle, shape) (Std.ExtTreeMap.mem_toList_iff_getElem?_eq_some.mpr stored))
  · intro alike pair member
    have stored := Std.ExtTreeMap.mem_toList_iff_getElem?_eq_some.mp member
    exact (entry pair.1 pair.2 stored).mpr (alike pair.1 pair.2 stored)

end Compaction

section Runs

variable {locate : String → String} {disk : DiskStore}

theorem DiskStore.Sound.step (sound : disk.Sound locate) {deed : Deed}
    (valid : deed.Sound locate) : (disk.step locate deed).Sound locate := by
  cases deed with
  | reopen dir => exact ⟨sound.session, dir, rfl, valid⟩
  | save shape => exact sound.saveShapeAt shape
  | compact => exact sound.compact
  | leave name file =>
      refine ⟨⟨sound.session.rows, fun other member => ?_⟩, sound.opened⟩
      rcases Std.ExtTreeMap.mem_insert.mp member with same | old
      · rw [← compare_eq_iff_eq.mp same]
        exact valid
      · exact sound.session.files other old

theorem DiskStore.Sound.run {deeds : List Deed} (sound : disk.Sound locate)
    (valid : ∀ deed ∈ deeds, deed.Sound locate) :
    (deeds.foldl (DiskStore.step locate) disk).Sound locate := by
  induction deeds generalizing disk with
  | nil => exact sound
  | cons first rest hypothesis =>
      apply hypothesis (sound.step (valid first List.mem_cons_self))
      exact fun deed member => valid deed (List.mem_cons_of_mem first member)

theorem DiskStore.Sound.new {dir : String} (spells : Spells locate dir) :
    (newDiskStore (chunkDirOf dir)).Sound locate := by
  refine ⟨⟨fun row member => ?_, fun name member => ?_⟩, dir, rfl, spells⟩
  · cases member
  · simp [newDiskStore] at member

end Runs

/-- Whatever has happened to a store directory, a compaction removes garbage only, and all
of it, exactly when the table has the live chunk files under the spelling of the opening
that compacts. -/
theorem compact_removes_garbage_iff (locate : String → String) (dir : String)
    (deeds : List Deed) (spells : Spells locate dir)
    (valid : ∀ deed ∈ deeds, deed.Sound locate) :
    let disk := deeds.foldl (DiskStore.step locate) (newDiskStore (chunkDirOf dir))
    disk.RemovesGarbage locate ↔ disk.SpelledAlike locate := by
  intro disk
  have sound : disk.Sound locate := (DiskStore.Sound.new spells).run valid
  constructor
  · intro garbage
    exact sound.compact_loaded_iff.mp garbage.loaded
  · intro alike
    exact ⟨sound.compact_loaded_iff.mpr alike, fun _ => sound.compact_removed,
      sound.compact_settled⟩

/-! The directory `/srv/data`, from the working directory `/srv`. -/

def locateInData (path : String) : String :=
  if "data/chunks/".toList.isPrefixOf path.toList then
    String.ofList (path.toList.drop 12)
  else
    String.ofList (path.toList.drop 17)

theorem spells_relative : Spells locateInData "data" := by
  intro name _
  have dir : chunkDirOf "data" = "data/chunks" := by decide +kernel
  simp [dir, locateInData]

theorem spells_absolute : Spells locateInData "/srv/data" := by
  intro name _
  have dir : chunkDirOf "/srv/data" = "/srv/data/chunks" := by decide +kernel
  simp [dir, locateInData]

instance (locate : String → String) (disk : DiskStore) : Decidable (disk.SpelledAlike locate) :=
  inferInstanceAs (Decidable (∀ handle shape, disk.tables.shapes[handle]? = some shape →
    shape.deleted = false → (disk.loadShapeChangesAt locate handle).isSome →
      ∀ row ∈ disk.tables.chunks, row.handle = handle →
        ∃ other ∈ disk.tables.chunks, disk.tables.unreferenced other = false ∧
          other.path = disk.chunkDir ++ "/" ++ locate row.path))

def savedInData : List Deed :=
  let other := { numberedShape 2 with handle := "6dc4c190f9-2" }
  [.save (numberedShape 1), .save other, .save { other with deleted := true },
    .leave "6dc4c190f9_2/000000.json.tmp" none, .reopen "data"]

theorem savedInData_sound : ∀ deed ∈ savedInData, deed.Sound locateInData := by
  intro deed member
  simp only [savedInData, List.mem_cons, List.not_mem_nil, or_false] at member
  rcases member with rfl | rfl | rfl | rfl | rfl
  · trivial
  · trivial
  · trivial
  · exact (by decide +kernel : PlainPath "6dc4c190f9_2/000000.json.tmp".toList)
  · exact spells_relative

theorem compact_removes_garbage_reopened :
    let disk := savedInData.foldl (DiskStore.step locateInData)
      (newDiskStore (chunkDirOf "data"))
    disk.files.keys = ["6dc4c190f9_2/000000.json.tmp", "fa19db76c4_1/000000.json"] ∧
      disk.RemovesGarbage locateInData :=
  ⟨by decide +kernel,
    (compact_removes_garbage_iff locateInData "data" savedInData spells_relative
      savedInData_sound).mpr (by decide +kernel)⟩

/-- Saved under the relative spelling and compacted under the absolute one, a shape loses
its changes. -/
theorem compact_removes_live_chunk :
    let disk := [Deed.save (numberedShape 1), .reopen "/srv/data"].foldl
      (DiskStore.step locateInData) (newDiskStore (chunkDirOf "data"))
    Spells locateInData "data" ∧ Spells locateInData "/srv/data" ∧
      ((newDiskStore (chunkDirOf "data")).saveShapeAt locateInData (numberedShape 1)).1 = .ok () ∧
      (disk.loadShapesAt locateInData).map (·.changes) =
        [[.encoded (numberedChange 0)]] ∧
      ((disk.compact locateInData).2.loadShapesAt locateInData).map (·.changes) =
        [[.malformed]] ∧
      ¬disk.RemovesGarbage locateInData := by
  refine ⟨spells_relative, spells_absolute, by decide +kernel, by decide +kernel,
    by decide +kernel, fun garbage => absurd garbage.loaded (by decide +kernel)⟩

end PostgresSync.Storage
