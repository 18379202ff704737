import PostgresSync.Storage.LastWrite

namespace PostgresSync.Storage

open PostgresSync.Data
open PostgresSync.Shapes

/-! Saves that do not come to their commit. -/

/-! Handles as the manager makes them, and the directories of their chunks. -/

/-- Letters and digits of a hash, a dash and a number. -/
def ManagerHandle (handle : String) : Prop :=
  ∃ (front : List Char) (number : Nat), front ≠ [] ∧ (∀ c ∈ front, c.isAlphanum = true) ∧
    handle.toList = front ++ '-' :: Nat.toDigits 10 number

theorem dropWhile_of_head {items : List Char} (first : ∀ c ∈ items.head?, c ≠ '_') :
    items.dropWhile (· = '_') = items := by
  cases items with
  | nil => rfl
  | cons head tail =>
      have different := first head rfl
      simp [different]

theorem sanitizePath_toList {handle : String} {front : List Char} {number : Nat}
    (nonempty : front ≠ []) (plain : ∀ c ∈ front, c.isAlphanum = true)
    (text : handle.toList = front ++ '-' :: Nat.toDigits 10 number) :
    (sanitizePath handle).toList = front ++ '_' :: Nat.toDigits 10 number := by
  have digits : ∀ c ∈ Nat.toDigits 10 number, c.isDigit = true :=
    List.all_eq_true.mp (toDigits_all_isDigit number)
  have unchanged : ∀ items : List Char, (∀ c ∈ items, c.isAlphanum = true) →
      items.map (fun c => if c.isAlphanum then c else '_') = items := by
    intro items alphanumeric
    conv_rhs => rw [← List.map_id items]
    apply List.map_congr_left
    intro c member
    rw [if_pos (alphanumeric c member)]
    rfl
  have kept : handle.toList.map (fun c => if c.isAlphanum then c else '_') =
      front ++ '_' :: Nat.toDigits 10 number := by
    rw [text, List.map_append, List.map_cons, unchanged front plain,
      unchanged _ fun c member => by simp [Char.isAlphanum, digits c member]]
    rfl
  have starts : (front ++ '_' :: Nat.toDigits 10 number).dropWhile (· = '_') =
      front ++ '_' :: Nat.toDigits 10 number := by
    apply dropWhile_of_head
    obtain ⟨head, tail, rfl⟩ := List.exists_cons_of_ne_nil nonempty
    intro c same equal
    obtain rfl := Option.some.inj same
    have alphanumeric := plain head List.mem_cons_self
    rw [equal] at alphanumeric
    exact absurd alphanumeric (by decide)
  have ends : (front ++ '_' :: Nat.toDigits 10 number).reverse.dropWhile (· = '_') =
      (front ++ '_' :: Nat.toDigits 10 number).reverse := by
    apply dropWhile_of_head
    intro c last equal
    have some : (Nat.toDigits 10 number).reverse ≠ [] := by simp [Nat.toDigits_ne_nil]
    rw [List.reverse_append, List.reverse_cons, List.append_assoc,
      List.head?_append_of_ne_nil _ some] at last
    have digit := digits c (List.mem_reverse.mp (List.mem_of_mem_head? last))
    rw [equal] at digit
    exact absurd digit (by decide)
  unfold sanitizePath
  simp only [kept, starts, ends, List.reverse_reverse]
  simp

theorem sanitizePath_injective {left right : String} (first : ManagerHandle left)
    (second : ManagerHandle right) (same : sanitizePath left = sanitizePath right) :
    left = right := by
  obtain ⟨front, number, nonempty, plain, text⟩ := first
  obtain ⟨other, position, otherNonempty, otherPlain, otherText⟩ := second
  have absent : ∀ n, '_' ∉ Nat.toDigits 10 n := by
    intro n member
    exact absurd (List.all_eq_true.mp (toDigits_all_isDigit n) _ member) (by decide)
  have lists := congrArg String.toList same
  rw [sanitizePath_toList nonempty plain text,
    sanitizePath_toList otherNonempty otherPlain otherText] at lists
  obtain ⟨rfl, digits⟩ := append_separator_inj (absent _) (absent _) lists
  rw [← String.toList_inj, text, otherText, digits]

namespace DiskStore

/-- The disk when a save has stopped after some of its effects, by an error or with the
process.  `torn` is what a file holds that was being written. -/
def stopped (disk : DiskStore) (shape : PersistedShape) (done : Nat)
    (torn : Option ChunkFile) : DiskStore :=
  let effects := (disk.saveScript shape).effects
  let session := (effects.take done).foldl Session.run disk.toSession
  disk.rolledBack
    (match effects[done]?, torn with
      | some (.writeFile path _), some file =>
          { session with files := session.files.insert path file }
      | _, _ => session)

/-- However the save fails, what is loaded is what was loaded before. -/
def SaveAtomic (disk : DiskStore) (shape : PersistedShape) : Prop :=
  (∀ done torn, (disk.stopped shape done torn).loadShapes = disk.loadShapes) ∧
    ∀ error, (disk.saveShape shape).1 = .error error →
      (disk.saveShape shape).2.loadShapes = disk.loadShapes

/-- The changes extend the stored ones, or there are none, or the shape is deleted. -/
def AsManager (disk : DiskStore) (shape : PersistedShape) : Prop :=
  ManagerHandle shape.handle ∧ (shape.deleted = true ∨ shape.changes = [] ∨
    disk.storedCount shape.handle ≤ shape.changes.length)

/-- The disks that saves lead to, whether or not they come to their commit. -/
inductive Reachable (chunkDir : String) : DiskStore → Prop
  | new : Reachable chunkDir (newDiskStore chunkDir)
  | saved {disk : DiskStore} {shape : PersistedShape} (before : Reachable chunkDir disk)
      (asManager : disk.AsManager shape) : Reachable chunkDir (disk.saveShape shape).2
  | stopped {disk : DiskStore} {shape : PersistedShape} {done : Nat}
      {torn : Option ChunkFile} (before : Reachable chunkDir disk)
      (asManager : disk.AsManager shape) : Reachable chunkDir (disk.stopped shape done torn)

def Clears (disk : DiskStore) (shape : PersistedShape) : Prop :=
  shape.deleted = true ∨ (shape.changes = [] ∧ 0 < disk.storedCount shape.handle)

theorem AsManager.kept {disk : DiskStore} {shape : PersistedShape}
    (asManager : disk.AsManager shape) (keeps : ¬disk.Clears shape) :
    shape.deleted = false ∧ disk.storedCount shape.handle ≤ shape.changes.length := by
  unfold Clears at keeps
  cases deleted : shape.deleted with
  | true => exact absurd (.inl deleted) keeps
  | false =>
      refine ⟨rfl, ?_⟩
      rcases asManager.2 with gone | empty | enough
      · rw [deleted] at gone
        cases gone
      · by_contra short
        exact keeps (.inr ⟨empty, by omega⟩)
      · exact enough

/-- The chunks of every shape are numbered, and every chunk belongs to a shape with a
handle of the manager. -/
structure Tidy (chunkDir : String) (disk : DiskStore) : Prop where
  directory : disk.chunkDir = chunkDir
  numbered : ∀ handle, ∃ n, disk.tables.Numbered chunkDir handle n
  owned : ∀ handle, disk.tables.rowsOf handle ≠ [] → handle ∈ disk.tables.shapes
  handles : ∀ handle ∈ disk.tables.shapes, ManagerHandle handle

variable {chunkDir : String} {disk after : DiskStore} {shape : PersistedShape}

theorem Tidy.of_tables (tidy : disk.Tidy chunkDir) (same : after.chunkDir = disk.chunkDir)
    (tables : after.tables = disk.tables) : after.Tidy chunkDir := by
  refine ⟨same.trans tidy.directory, ?_, ?_, ?_⟩
  · rw [tables]
    exact tidy.numbered
  · rw [tables]
    exact tidy.owned
  · rw [tables]
    exact tidy.handles

theorem Tidy.upserted (tidy : disk.Tidy chunkDir) {handle : String} {row : ShapeRow}
    (named : ManagerHandle handle) (upserted : Upserted disk after handle row)
    (own : ∃ n, after.tables.Numbered chunkDir handle n)
    (others : ∀ other, handle ≠ other →
      after.tables.rowsOf other = disk.tables.rowsOf other) : after.Tidy chunkDir where
  directory := upserted.chunkDir.trans tidy.directory
  numbered other := by
    by_cases same : handle = other
    · exact same ▸ own
    · obtain ⟨n, numbered⟩ := tidy.numbered other
      exact ⟨n, numbered.of_rows (others other same)⟩
  owned other some := by
    rw [upserted.shapes, Std.ExtTreeMap.mem_insert]
    by_cases same : handle = other
    · exact .inl (by simp [same])
    · rw [others other same] at some
      exact .inr (tidy.owned other some)
  handles other member := by
    rw [upserted.shapes, Std.ExtTreeMap.mem_insert] at member
    rcases member with same | old
    · have equal : handle = other := by simpa using same
      exact equal ▸ named
    · exact tidy.handles other old

theorem saveShape_of_failure {error : StoreError}
    (failed : (disk.saveScript shape).failure = some error) :
    (disk.saveShape shape).2.tables = disk.tables ∧
      (disk.saveShape shape).2.chunkDir = disk.chunkDir := by
  simp [saveShape, failed, rolledBack]

theorem Tidy.saved (tidy : disk.Tidy chunkDir) (asManager : disk.AsManager shape) :
    (disk.saveShape shape).2.Tidy chunkDir := by
  cases failed : (disk.saveScript shape).failure with
  | some error =>
      obtain ⟨tables, same⟩ := saveShape_of_failure failed
      exact tidy.of_tables same tables
  | none =>
      obtain ⟨n, numbered⟩ := tidy.numbered shape.handle
      rw [← tidy.directory] at numbered
      by_cases clears : disk.Clears shape
      · have valid : rowError shape = none := by
          rw [saveScript_cleared clears] at failed
          cases invalid : rowError shape with
          | none => rfl
          | some error => simp [invalid] at failed
        obtain ⟨upserted, rows, -⟩ := saveShape_cleared numbered clears valid
        refine tidy.upserted asManager.1 upserted ⟨0, .empty ?_⟩ fun other different => ?_
        · exact (rows _).trans (if_pos rfl)
        · exact (rows other).trans (if_neg different)
      · obtain ⟨active, enough⟩ := asManager.kept clears
        have script := saveScript_kept active enough
        have valid : rowError shape = none := by
          cases invalid : rowError shape with
          | none => rfl
          | some error => simp [script, invalid] at failed
        rcases enough.lt_or_eq with more | equal
        · cases encoded : (shape.changes.drop (disk.storedCount shape.handle)).mapM
              encodeChange with
          | none => simp [script, valid, more, encoded] at failed
          | some chunk =>
              obtain ⟨upserted, rows, -⟩ :=
                saveShape_appended numbered active more valid encoded
              refine tidy.upserted asManager.1 upserted ⟨n + 1, ?_⟩ fun other different => ?_
              · rw [← tidy.directory]
                exact numbered.append ((rows _).trans (by rw [if_pos rfl]))
              · rw [rows, if_neg different, List.append_nil]
        · obtain ⟨upserted, rows, -⟩ := saveShape_touched active equal valid
          refine tidy.upserted asManager.1 upserted ⟨n, ?_⟩ fun other _ => rows other
          rw [← tidy.directory]
          exact numbered.of_rows (rows _)

theorem Reachable.tidy (reachable : Reachable chunkDir disk) : disk.Tidy chunkDir := by
  induction reachable with
  | new => exact ⟨rfl, fun _ => ⟨0, rfl⟩, by simp [newDiskStore, Tables.rowsOf],
      by simp [newDiskStore]⟩
  | saved before asManager hypothesis => exact hypothesis.saved asManager
  | stopped before asManager hypothesis => exact hypothesis.of_tables rfl rfl

/-! What is loaded depends on the files of the rows. -/

theorem loadShapeChanges_congr {handle : String} (tables : after.tables = disk.tables)
    (files : ∀ path ∈ (disk.tables.chunkRows handle).map (·.path),
      after.files[path]? = disk.files[path]?) :
    after.loadShapeChanges handle = disk.loadShapeChanges handle := by
  unfold loadShapeChanges
  rw [tables]
  dsimp only
  congr 1
  apply mapM_congr
  intro path member
  rw [files path ((List.perm_insertionSort _ _).mem_iff.mp member)]

theorem loadShapes_eq_iff (tables : after.tables = disk.tables) :
    after.loadShapes = disk.loadShapes ↔
      ∀ handle ∈ disk.tables.shapes,
        (after.loadShapeChanges handle).getD [.malformed] =
          (disk.loadShapeChanges handle).getD [.malformed] := by
  unfold loadShapes
  rw [tables, List.map_inj_left]
  constructor
  · intro same handle member
    obtain ⟨row, found⟩ := Option.isSome_iff_exists.mp
      (Std.ExtTreeMap.mem_iff_isSome_getElem?.mp member)
    have loaded := same (handle, row)
      (Std.ExtTreeMap.mem_toList_iff_getElem?_eq_some.mpr found)
    exact congrArg PersistedShape.changes loaded
  · intro same entry member
    have found := Std.ExtTreeMap.mem_toList_iff_getElem?_eq_some.mp member
    have changes := same entry.1 (Std.ExtTreeMap.mem_iff_isSome_getElem?.mpr (by simp [found]))
    simp only [loadShape, changes]

theorem Tidy.path_of_other (tidy : disk.Tidy chunkDir) {handle other path : String}
    (named : ManagerHandle handle) (different : handle ≠ other)
    (member : path ∈ (disk.tables.chunkRows other).map (·.path)) :
    ∀ seq, path ≠ chunkPath chunkDir handle seq := by
  intro seq same
  obtain ⟨n, numbered⟩ := tidy.numbered other
  have owned : other ∈ disk.tables.shapes := by
    apply tidy.owned
    intro none
    rw [numbered.chunkRows, none] at member
    cases member
  rw [numbered.paths] at member
  obtain ⟨position, -, rfl⟩ := List.mem_map.mp member
  exact different (sanitizePath_injective named (tidy.handles other owned)
    (chunkPath_inj same).1.symm)

end DiskStore

/-! The files that an effect touches. -/

def Effect.touches : Effect → List String
  | .removeFile path => [path]
  | .writeFile path _ => [path]
  | .renameFile source target => [source, target]
  | .deleteChunks _ => []
  | .upsertShape _ _ => []
  | .insertChunk _ => []

theorem run_untouched (session : Session) (effect : Effect) {path : String}
    (untouched : path ∉ effect.touches) : (session.run effect).files[path]? =
      session.files[path]? := by
  cases effect with
  | removeFile removed =>
      have different : removed ≠ path := fun same => untouched (by simp [Effect.touches, same])
      simp [Session.run, different]
  | writeFile written chunk =>
      have different : written ≠ path := fun same => untouched (by simp [Effect.touches, same])
      simp [Session.run, different]
  | renameFile source target =>
      have first : source ≠ path := fun same => untouched (by simp [Effect.touches, same])
      have second : target ≠ path := fun same => untouched (by simp [Effect.touches, same])
      dsimp only [Session.run]
      split
      · rfl
      · simp [first, second]
  | deleteChunks handle => rfl
  | upsertShape handle row => rfl
  | insertChunk row => rfl

theorem foldl_run_untouched {effects : List Effect} {path : String} (session : Session)
    (untouched : ∀ effect ∈ effects, path ∉ effect.touches) :
    (effects.foldl Session.run session).files[path]? = session.files[path]? := by
  induction effects generalizing session with
  | nil => rfl
  | cons effect rest hypothesis =>
      rw [List.foldl_cons, hypothesis _ fun other member =>
        untouched other (List.mem_cons_of_mem _ member)]
      exact run_untouched session effect (untouched effect List.mem_cons_self)

def Effect.Removes : Effect → Prop
  | .writeFile _ _ => False
  | .renameFile _ _ => False
  | _ => True

theorem foldl_run_removes {effects : List Effect} (session : Session)
    (removes : ∀ effect ∈ effects, effect.Removes) (path : String) :
    (effects.foldl Session.run session).files[path]? = session.files[path]? ∨
      (effects.foldl Session.run session).files[path]? = none := by
  induction effects generalizing session with
  | nil => exact .inl rfl
  | cons effect rest hypothesis =>
      have first := removes effect List.mem_cons_self
      have later := hypothesis (session.run effect) fun other member =>
        removes other (List.mem_cons_of_mem _ member)
      rw [List.foldl_cons]
      cases effect with
      | writeFile written chunk => cases first
      | renameFile source target => cases first
      | deleteChunks handle => exact later
      | upsertShape handle row => exact later
      | insertChunk row => exact later
      | removeFile removed =>
          by_cases same : removed = path
          · refine .inr ?_
            rcases later with kept | gone
            · rw [kept]
              simp [Session.run, same]
            · exact gone
          · simpa [Session.run, same] using later

namespace DiskStore

variable {chunkDir : String} {disk : DiskStore} {shape : PersistedShape} {done : Nat}
  {torn : Option ChunkFile}

theorem stopped_untouched {path : String}
    (untouched : ∀ effect ∈ (disk.saveScript shape).effects, path ∉ effect.touches) :
    (disk.stopped shape done torn).files[path]? = disk.files[path]? := by
  have run := foldl_run_untouched disk.toSession fun effect member =>
    untouched effect (List.mem_of_mem_take (i := done) member)
  dsimp only [stopped, rolledBack]
  split
  · next written chunk file interrupted =>
      have different : written ≠ path := by
        intro same
        exact untouched _ (List.mem_of_getElem? interrupted) (by simp [Effect.touches, same])
      simpa [different] using run
  · exact run

/-! Saves that keep the chunks. -/

theorem touches_of_kept (active : shape.deleted = false)
    (enough : disk.storedCount shape.handle ≤ shape.changes.length) {path : String}
    (different : path ≠ chunkPath disk.chunkDir shape.handle
      (loadChunkMetadata disk.tables shape.handle).nextSeq)
    (final : path ≠ chunkPath disk.chunkDir shape.handle
      (loadChunkMetadata disk.tables shape.handle).nextSeq ++ ".tmp") :
    ∀ effect ∈ (disk.saveScript shape).effects, path ∉ effect.touches := by
  rw [saveScript_kept active enough]
  dsimp only
  intro effect member
  split at member
  · cases member
  · split at member
    · split at member
      · rw [List.mem_singleton.mp member]
        simp [Effect.touches]
      · rcases List.mem_cons.mp member with rfl | appended
        · simp [Effect.touches]
        · simp only [appendChunk, List.mem_cons, List.not_mem_nil, or_false] at appended
          rcases appended with rfl | rfl | rfl
          · simpa [Effect.touches] using final
          · simpa [Effect.touches] using ⟨final, different⟩
          · simp [Effect.touches]
    · rw [List.mem_singleton.mp member]
      simp [Effect.touches]

theorem loadShapeChanges_of_kept (tidy : disk.Tidy chunkDir) (named : ManagerHandle shape.handle)
    (active : shape.deleted = false)
    (enough : disk.storedCount shape.handle ≤ shape.changes.length) (handle : String) :
    (disk.stopped shape done torn).loadShapeChanges handle =
      disk.loadShapeChanges handle := by
  refine loadShapeChanges_congr (by rfl) ?_
  intro path member
  obtain ⟨n, numbered⟩ := tidy.numbered handle
  have listed := member
  rw [numbered.paths] at listed
  obtain ⟨seq, below, rfl⟩ := List.mem_map.mp listed
  apply stopped_untouched
  apply touches_of_kept active enough
  · rw [tidy.directory]
    by_cases own : shape.handle = handle
    · -- the new chunk has the number after the last
      subst own
      rw [numbered.nextSeq]
      intro same
      have equal := (chunkPath_inj same).2
      have bound := List.mem_range.mp below
      omega
    · exact tidy.path_of_other named own member _
  · rw [tidy.directory]
    exact chunkPath_ne_temp

/-! Saves that remove the chunks. -/

theorem effects_of_clears (clears : disk.Clears shape) :
    ∃ rest, (disk.saveScript shape).effects =
        (loadChunkMetadata disk.tables shape.handle).paths.map .removeFile ++ rest ∧
      ∀ effect ∈ rest, effect.touches = [] ∧ effect.Removes := by
  rw [saveScript_cleared clears]
  dsimp only
  cases rowError shape with
  | some error =>
      refine ⟨[.deleteChunks shape.handle], rfl, ?_⟩
      intro effect member
      rw [List.mem_singleton.mp member]
      exact ⟨rfl, trivial⟩
  | none =>
      refine ⟨[.deleteChunks shape.handle, .upsertShape shape.handle (shapeRow shape 0)],
        by simp [clearChunks], ?_⟩
      intro effect member
      simp only [List.mem_cons, List.not_mem_nil, or_false] at member
      rcases member with rfl | rfl <;> exact ⟨rfl, trivial⟩

theorem touches_of_clears (clears : disk.Clears shape) {path : String}
    (other : path ∉ (loadChunkMetadata disk.tables shape.handle).paths) :
    ∀ effect ∈ (disk.saveScript shape).effects, path ∉ effect.touches := by
  obtain ⟨rest, effects, plain⟩ := effects_of_clears clears
  rw [effects]
  intro effect member
  rcases List.mem_append.mp member with removal | later
  · obtain ⟨removed, listed, rfl⟩ := List.mem_map.mp removal
    intro touched
    rw [List.mem_singleton.mp touched] at other
    exact other listed
  · rw [(plain effect later).1]
    exact List.not_mem_nil

theorem stopped_of_clears (clears : disk.Clears shape) (path : String) :
    (disk.stopped shape done torn).files[path]? = disk.files[path]? ∨
      (disk.stopped shape done torn).files[path]? = none := by
  obtain ⟨rest, effects, plain⟩ := effects_of_clears clears
  have removes : ∀ effect ∈ (disk.saveScript shape).effects, effect.Removes := by
    rw [effects]
    intro effect member
    rcases List.mem_append.mp member with removal | later
    · obtain ⟨removed, -, rfl⟩ := List.mem_map.mp removal
      trivial
    · exact (plain effect later).2
  dsimp only [stopped, rolledBack]
  split
  · next written chunk file interrupted =>
      exact (removes _ (List.mem_of_getElem? interrupted)).elim
  · exact foldl_run_removes disk.toSession
      (fun effect member => removes effect (List.mem_of_mem_take member)) path

theorem loadShapeChanges_of_clears (tidy : disk.Tidy chunkDir)
    (named : ManagerHandle shape.handle) (clears : disk.Clears shape) {handle : String}
    (other : shape.handle ≠ handle) :
    (disk.stopped shape done torn).loadShapeChanges handle =
      disk.loadShapeChanges handle := by
  refine loadShapeChanges_congr (by rfl) ?_
  intro path member
  apply stopped_untouched
  apply touches_of_clears clears
  intro own
  obtain ⟨n, numbered⟩ := tidy.numbered shape.handle
  have paths : (loadChunkMetadata disk.tables shape.handle).paths =
      (List.range n).map (chunkPath chunkDir shape.handle) := numbered.paths
  rw [paths] at own
  obtain ⟨seq, -, rfl⟩ := List.mem_map.mp own
  exact tidy.path_of_other named other member seq rfl

theorem loadShapeChanges_eq_none {handle : String} : disk.loadShapeChanges handle = none ↔
    ∃ path ∈ (disk.tables.chunkRows handle).map (·.path), disk.files[path]?.join = none := by
  unfold loadShapeChanges
  rw [Option.map_eq_none_iff, mapM_eq_none_iff]
  constructor
  · intro ⟨path, member, missing⟩
    exact ⟨path, (List.perm_insertionSort _ _).mem_iff.mp member, missing⟩
  · intro ⟨path, member, missing⟩
    exact ⟨path, (List.perm_insertionSort _ _).mem_iff.mpr member, missing⟩

theorem unreadable_of_clears (clears : disk.Clears shape)
    (unreadable : disk.loadShapeChanges shape.handle = none) :
    (disk.stopped shape done torn).loadShapeChanges shape.handle = none := by
  obtain ⟨path, member, missing⟩ := loadShapeChanges_eq_none.mp unreadable
  refine loadShapeChanges_eq_none.mpr ⟨path, member, ?_⟩
  rcases stopped_of_clears clears path with kept | gone
  · rw [kept]
    exact missing
  · rw [gone]
    rfl

theorem unreadable_after_removal (clears : disk.Clears shape)
    (some : disk.tables.chunkRows shape.handle ≠ []) :
    (disk.stopped shape 1 none).loadShapeChanges shape.handle = none := by
  obtain ⟨first, others, rows⟩ := List.exists_cons_of_ne_nil some
  obtain ⟨rest, effects, -⟩ := effects_of_clears clears
  have script : (disk.saveScript shape).effects.take 1 = [.removeFile first.path] := by
    rw [effects]
    simp [loadChunkMetadata, rows]
  refine loadShapeChanges_eq_none.mpr ⟨first.path, ?_, ?_⟩
  · show first.path ∈ (disk.tables.chunkRows shape.handle).map (·.path)
    rw [rows]
    exact List.mem_cons_self
  · have files : (disk.stopped shape 1 none).files = disk.files.erase first.path := by
      simp [stopped, rolledBack, script, Session.run]
    rw [files, Dict.getElem?_erase, if_pos rfl]
    rfl

theorem rowsOf_eq_nil_iff (tidy : disk.Tidy chunkDir) (handle : String) :
    disk.tables.chunkRows handle = [] ↔ disk.tables.rowsOf handle = [] := by
  obtain ⟨n, numbered⟩ := tidy.numbered handle
  rw [numbered.chunkRows]

/-- A save is undone by any failure exactly when it keeps the chunks of its shape, or
there are none, or they cannot be read anyway. -/
theorem stopped_loadShapes_iff (tidy : disk.Tidy chunkDir) (asManager : disk.AsManager shape) :
    (∀ done torn, (disk.stopped shape done torn).loadShapes = disk.loadShapes) ↔
      ¬disk.Clears shape ∨ disk.tables.chunkRows shape.handle = [] ∨
        disk.loadShapeChanges shape.handle = none := by
  have named := asManager.1
  constructor
  · intro undone
    by_contra condition
    obtain ⟨clears, some, readable⟩ : disk.Clears shape ∧
        disk.tables.chunkRows shape.handle ≠ [] ∧
          disk.loadShapeChanges shape.handle ≠ none := by
      simpa using condition
    have owned : shape.handle ∈ disk.tables.shapes :=
      tidy.owned _ fun none => some ((rowsOf_eq_nil_iff tidy _).mpr none)
    have same := (loadShapes_eq_iff (by rfl)).mp (undone 1 none) shape.handle owned
    rw [unreadable_after_removal clears some, Option.getD_none] at same
    cases loaded : disk.loadShapeChanges shape.handle with
    | none => exact readable loaded
    | some changes =>
        rw [loaded, Option.getD_some] at same
        obtain ⟨chunks, -, rfl⟩ := Option.map_eq_some_iff.mp loaded
        have malformed : RawMessage.malformed ∈ chunks.flatten.map RawMessage.encoded := by
          rw [← same]
          exact List.mem_singleton_self _
        obtain ⟨message, -, impossible⟩ := List.mem_map.mp malformed
        cases impossible
  · intro condition done torn
    refine (loadShapes_eq_iff (by rfl)).mpr ?_
    intro handle _
    by_cases clears : disk.Clears shape
    · by_cases own : shape.handle = handle
      · subst own
        rcases condition.resolve_left (not_not.mpr clears) with none | unreadable
        · have same : (disk.stopped shape done torn).loadShapeChanges shape.handle =
              disk.loadShapeChanges shape.handle :=
            loadShapeChanges_congr (by rfl) (by simp [none])
          rw [same]
        · rw [unreadable_of_clears clears unreadable, unreadable]
      · rw [loadShapeChanges_of_clears tidy named clears own]
    · obtain ⟨active, enough⟩ := asManager.kept clears
      rw [loadShapeChanges_of_kept tidy named active enough]

theorem saveShape_eq_stopped {error : StoreError}
    (failed : (disk.saveShape shape).1 = .error error) :
    (disk.saveShape shape).2 =
      disk.stopped shape (disk.saveScript shape).effects.length none := by
  unfold saveShape at failed ⊢
  cases failure : (disk.saveScript shape).failure with
  | none => simp [failure] at failed
  | some error => simp [stopped, failure]

end DiskStore

/-- In every disk store that saves lead to, a save of the manager that fails leaves what
is loaded as it was, wherever it fails, exactly when it keeps the chunks of its shape, or
the shape has none, or they cannot be read anyway. -/
theorem saveShape_atomic_iff {chunkDir : String} {disk : DiskStore}
    (reachable : disk.Reachable chunkDir) (shape : PersistedShape)
    (asManager : disk.AsManager shape) :
    disk.SaveAtomic shape ↔
      ¬disk.Clears shape ∨ disk.tables.chunkRows shape.handle = [] ∨
        disk.loadShapeChanges shape.handle = none := by
  have iff := DiskStore.stopped_loadShapes_iff reachable.tidy asManager
  constructor
  · intro atomic
    exact iff.mp atomic.1
  · intro condition
    have undone := iff.mpr condition
    refine ⟨undone, fun error failed => ?_⟩
    rw [DiskStore.saveShape_eq_stopped failed]
    exact undone _ none

def oneChangeDisk : DiskStore :=
  ((newDiskStore "chunks").saveShape (numberedShape 1)).2

theorem managerHandle_numberedShape : ManagerHandle "fa19db76c4-1" :=
  ⟨['f', 'a', '1', '9', 'd', 'b', '7', '6', 'c', '4'], 1, by simp,
    List.all_eq_true.mp (by decide), by decide⟩

theorem oneChangeDisk_reachable : oneChangeDisk.Reachable "chunks" :=
  .saved .new ⟨managerHandle_numberedShape, .inr (.inr (by
    simp [DiskStore.storedCount, loadChunkMetadata, newDiskStore]))⟩

theorem saveShape_atomic_secondChange : oneChangeDisk.SaveAtomic (numberedShape 2) :=
  (saveShape_atomic_iff oneChangeDisk_reachable (numberedShape 2)
    ⟨managerHandle_numberedShape, .inr (.inr (by decide +kernel))⟩).mpr
    (.inl fun clears => by
      rcases clears with deleted | ⟨empty, -⟩
      · cases deleted
      · exact absurd empty (by decide +kernel))

/-- A deletion that stops after it has removed a file leaves a log that cannot be read. -/
theorem saveShape_not_atomic_deletion :
    oneChangeDisk.Reachable "chunks" ∧
      oneChangeDisk.AsManager { numberedShape 1 with deleted := true } ∧
      ¬oneChangeDisk.SaveAtomic { numberedShape 1 with deleted := true } := by
  refine ⟨oneChangeDisk_reachable, ⟨managerHandle_numberedShape, .inl rfl⟩, ?_⟩
  intro atomic
  have stopped : (oneChangeDisk.stopped { numberedShape 1 with deleted := true } 1
      none).loadShapes ≠ oneChangeDisk.loadShapes := by
    decide +kernel
  exact stopped (atomic.1 1 none)

end PostgresSync.Storage
