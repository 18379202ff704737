import PostgresSync.Data.Run
import PostgresSync.Storage.Chunks

namespace PostgresSync.Storage

open PostgresSync.Data
open PostgresSync.Shapes

/-! The disk store as a map from handles to the shapes that were saved last. -/

def PersistedShape.kept (shape : PersistedShape) : List (RawMessage PersistedMessage) :=
  if shape.deleted then [] else shape.changes

/-- A saved shape as it comes back: the last access in whole seconds, and no changes of
a deleted shape. -/
def PersistedShape.asLoaded (shape : PersistedShape) : PersistedShape :=
  { shape with
    lastAccess := shape.lastAccess / 10 ^ 9 * 10 ^ 9
    changes := shape.kept }

/-! What a successful save leaves on disk. -/

structure Upserted (disk after : DiskStore) (handle : String) (row : ShapeRow) : Prop where
  chunkDir : after.chunkDir = disk.chunkDir
  shapes : after.tables.shapes = disk.tables.shapes.insert handle row

section Saves

variable {disk : DiskStore} {shape : PersistedShape} {n : Nat}

theorem saveShape_cleared (numbered : disk.tables.Numbered disk.chunkDir shape.handle n)
    (clears : shape.deleted = true ∨
      (shape.changes = [] ∧ 0 < disk.storedCount shape.handle))
    (valid : rowError shape = none) :
    let after := (disk.saveShape shape).2
    Upserted disk after shape.handle (shapeRow shape 0) ∧
      (∀ other, after.tables.rowsOf other =
        if shape.handle = other then [] else disk.tables.rowsOf other) ∧
      ∀ path : String, after.files[path]? =
        if path ∈ (List.range n).map (chunkPath disk.chunkDir shape.handle) then none
        else disk.files[path]? := by
  have script := saveScript_cleared clears
  simp only [valid] at script
  have paths : (loadChunkMetadata disk.tables shape.handle).paths =
      (List.range n).map (chunkPath disk.chunkDir shape.handle) := numbered.paths
  rw [paths] at script
  obtain ⟨tables, files⟩ := run_clearChunks disk.toSession
    ((List.range n).map (chunkPath disk.chunkDir shape.handle)) shape.handle
  simp only [DiskStore.saveShape, script, List.foldl_append, List.foldl_cons, List.foldl_nil]
  refine ⟨⟨rfl, ?_⟩, fun other => ?_, files⟩
  · dsimp only [Session.run]
    rw [tables]
    rfl
  · rw [rowsOf_upsertShape, tables]
    exact rowsOf_deleteChunks disk.toSession other shape.handle

theorem saveShape_touched (active : shape.deleted = false)
    (same : disk.storedCount shape.handle = shape.changes.length)
    (valid : rowError shape = none) :
    let after := (disk.saveShape shape).2
    Upserted disk after shape.handle (shapeRow shape shape.changes.length) ∧
      (∀ other, after.tables.rowsOf other = disk.tables.rowsOf other) ∧
      after.files = disk.files := by
  have script := saveScript_kept active same.le
  simp only [valid, same, Nat.lt_irrefl, if_false] at script
  simp only [DiskStore.saveShape, script, List.foldl_cons, List.foldl_nil]
  exact ⟨⟨rfl, rfl⟩, fun _ => rfl, rfl⟩

theorem saveShape_appended (numbered : disk.tables.Numbered disk.chunkDir shape.handle n)
    (active : shape.deleted = false)
    (more : disk.storedCount shape.handle < shape.changes.length)
    (valid : rowError shape = none) {chunk : List PersistedMessage}
    (encodes : (shape.changes.drop (disk.storedCount shape.handle)).mapM encodeChange =
      some chunk) :
    let after := (disk.saveShape shape).2
    let path := chunkPath disk.chunkDir shape.handle n
    Upserted disk after shape.handle (shapeRow shape shape.changes.length) ∧
      (∀ other, after.tables.rowsOf other = disk.tables.rowsOf other ++
        if shape.handle = other then
          [⟨shape.handle, n, path, shape.changes.length - disk.storedCount shape.handle⟩]
        else []) ∧
      ∀ other : String, after.files[other]? =
        if path = other then some (some chunk) else
          if path ++ ".tmp" = other then none else disk.files[other]? := by
  have script := saveScript_kept active more.le
  simp only [valid, more, if_true, encodes, numbered.nextSeq, appendChunk] at script
  simp only [DiskStore.saveShape, script, List.foldl_cons, List.foldl_nil]
  refine ⟨⟨rfl, ?_⟩, fun other => ?_, fun other => ?_⟩
  · simp only [Session.run, Dict.getElem?_insert, if_true]
  · rw [rowsOf_insertChunk, run_renameFile_tables]
    rfl
  · exact run_writeChunk _ _ chunk other

end Saves

/-! The chunks of one shape. -/

/-- The log of the shape is stored in these chunks. -/
structure Chunked (disk : DiskStore) (handle : String) (chunks : List (List PersistedMessage)) :
    Prop where
  numbered : disk.tables.Numbered disk.chunkDir handle chunks.length
  files : ∀ (seq : Nat) (chunk : List PersistedMessage), chunks[seq]? = some chunk →
    disk.files[chunkPath disk.chunkDir handle seq]? = some (some chunk)
  nonempty : ∀ chunk ∈ chunks, chunk ≠ []

section Chunked

variable {disk after : DiskStore} {handle : String} {chunks : List (List PersistedMessage)}

theorem Chunked.frame (chunked : Chunked disk handle chunks)
    (chunkDir : after.chunkDir = disk.chunkDir)
    (rows : after.tables.rowsOf handle = disk.tables.rowsOf handle)
    (files : ∀ seq, after.files[chunkPath disk.chunkDir handle seq]? =
      disk.files[chunkPath disk.chunkDir handle seq]?) : Chunked after handle chunks where
  numbered := by
    rw [chunkDir]
    exact chunked.numbered.of_rows rows
  files seq chunk found := by
    rw [chunkDir, files]
    exact chunked.files seq chunk found
  nonempty := chunked.nonempty

theorem Chunked.none (rows : disk.tables.rowsOf handle = []) : Chunked disk handle [] where
  numbered := .empty rows
  files seq chunk found := by simp at found
  nonempty chunk member := by cases member

theorem Chunked.append (chunked : Chunked disk handle chunks) {chunk : List PersistedMessage}
    {messageCount : Nat} (some : chunk ≠ []) (chunkDir : after.chunkDir = disk.chunkDir)
    (rows : after.tables.rowsOf handle = disk.tables.rowsOf handle ++
      [⟨handle, chunks.length, chunkPath disk.chunkDir handle chunks.length, messageCount⟩])
    (files : ∀ other : String, after.files[other]? =
      if chunkPath disk.chunkDir handle chunks.length = other then .some (.some chunk) else
        if chunkPath disk.chunkDir handle chunks.length ++ ".tmp" = other then .none
        else disk.files[other]?) : Chunked after handle (chunks ++ [chunk]) where
  numbered := by
    rw [chunkDir, List.length_append]
    exact chunked.numbered.append rows
  files seq other found := by
    rw [chunkDir, files]
    by_cases last : chunks.length = seq
    · subst last
      rw [if_pos rfl]
      simp only [List.getElem?_concat_length, Option.some.injEq] at found
      rw [found]
    · have different : chunkPath disk.chunkDir handle chunks.length ≠
          chunkPath disk.chunkDir handle seq := fun same => last (chunkPath_inj same).2
      rw [if_neg different, if_neg chunkPath_ne_temp.symm]
      apply chunked.files
      have bound := (List.getElem?_eq_some_iff.mp found).1
      rw [List.length_append, List.length_singleton] at bound
      rwa [List.getElem?_append_left (by omega)] at found
  nonempty other member := by
    rcases List.mem_append.mp member with old | new
    · exact chunked.nonempty other old
    · rw [List.mem_singleton.mp new]
      exact some

theorem Chunked.mapM_files (chunked : Chunked disk handle chunks) :
    ((List.range chunks.length).map (chunkPath disk.chunkDir handle)).mapM
      (fun path => disk.files[path]?.join) = some chunks := by
  have contents : (List.range chunks.length).map (fun seq => chunks[seq]?.getD []) = chunks := by
    apply List.ext_getElem
    · simp
    · intro seq first second
      simp [second]
  rw [List.mapM_map]
  conv_rhs => rw [← contents]
  apply mapM_eq_some_map
  intro seq member
  have bound := List.mem_range.mp member
  have found := chunked.files seq _ (List.getElem?_eq_getElem bound)
  simp [found, bound]

theorem Chunked.loadShapeChanges (chunked : Chunked disk handle chunks)
    (few : chunks.length ≤ 10 ^ 6) :
    disk.loadShapeChanges handle = some (chunks.flatten.map .encoded) := by
  have ordered : ((List.range chunks.length).map (chunkPath disk.chunkDir handle)).Pairwise
      (· ≤ ·) := by
    rw [List.pairwise_map]
    refine List.Pairwise.imp_of_mem ?_ List.pairwise_lt_range
    intro left right _ member below
    have bound := (List.mem_range.mp member).trans_le few
    exact (chunkPath_lt below bound).le
  unfold DiskStore.loadShapeChanges
  rw [chunked.numbered.paths, ordered.insertionSort_eq]
  dsimp only
  rw [chunked.mapM_files]
  rfl

end Chunked

theorem map_encoded_of_mapM {changes : List (RawMessage PersistedMessage)}
    {chunk : List PersistedMessage} (written : ∀ change ∈ changes, change ≠ .absent)
    (encodes : changes.mapM encodeChange = some chunk) : chunk.map .encoded = changes := by
  induction changes generalizing chunk with
  | nil =>
      cases encodes
      rfl
  | cons change rest hypothesis =>
      rw [List.mapM_cons] at encodes
      cases change with
      | absent => exact absurd rfl (written _ List.mem_cons_self)
      | malformed => cases encodes
      | encoded message =>
          cases later : rest.mapM encodeChange with
          | none =>
              rw [later] at encodes
              cases encodes
          | some messages =>
              rw [later] at encodes
              cases encodes
              rw [List.map_cons, hypothesis
                (fun other member => written other (List.mem_cons_of_mem _ member)) later]

/-! Runs of saves. -/

/-- A disk store, with the shape that was saved last under each handle. -/
structure Saving where
  disk : DiskStore
  last : Dict PersistedShape := ∅

namespace Saving

def step (saving : Saving) (shape : PersistedShape) : Saving where
  disk := (saving.disk.saveShape shape).2
  last := saving.last.insert shape.handle shape

def changes (saving : Saving) (handle : String) : List (RawMessage PersistedMessage) :=
  (saving.last[handle]?.map (·.changes)).getD []

/-- The save succeeds and is one that the manager makes: its changes are encoded
messages, and they extend the list saved before, or there are none, or the shape is
deleted. -/
structure AsManager (saving : Saving) (shape : PersistedShape) : Prop where
  succeeds : (saving.disk.saveShape shape).1 = .ok ()
  written : ∀ change ∈ shape.changes, change ≠ .absent
  continues : shape.deleted = true ∨ shape.changes = [] ∨
    saving.changes shape.handle <+: shape.changes

instance (saving : Saving) (shape : PersistedShape) : Decidable (saving.AsManager shape) :=
  decidable_of_iff ((saving.disk.saveShape shape).1 = .ok () ∧
      (∀ change ∈ shape.changes, change ≠ .absent) ∧
      (shape.deleted = true ∨ shape.changes = [] ∨
        saving.changes shape.handle <+: shape.changes))
    ⟨fun ⟨succeeds, written, continues⟩ => ⟨succeeds, written, continues⟩,
      fun asManager => ⟨asManager.succeeds, asManager.written, asManager.continues⟩⟩

/-- A save that adds changes finds fewer than a million chunks of its shape. -/
def HasRoom (saving : Saving) (shape : PersistedShape) : Prop :=
  shape.deleted = false →
    saving.disk.storedCount shape.handle < shape.changes.length →
      (saving.disk.tables.chunkRows shape.handle).length < 10 ^ 6

instance (saving : Saving) (shape : PersistedShape) : Decidable (saving.HasRoom shape) :=
  inferInstanceAs (Decidable (_ → _ → _))

def kept (saving : Saving) (handle : String) : List (RawMessage PersistedMessage) :=
  (saving.last[handle]?.map (·.kept)).getD []

/-- The tables and the files hold the last shape of every handle. -/
structure Mirrors (handles : List String) (saving : Saving) : Prop where
  known : ∀ (handle : String) (shape : PersistedShape), saving.last[handle]? = some shape →
    shape.handle = handle ∧ handle ∈ handles
  rows : ∀ handle : String, saving.disk.tables.shapes[handle]? =
    saving.last[handle]?.map fun shape => shapeRow shape shape.kept.length
  logs : ∀ handle ∈ handles, ∃ chunks, Chunked saving.disk handle chunks ∧
    chunks.flatten.map .encoded = saving.kept handle

variable {handles : List String} {saving : Saving} {shape : PersistedShape}

theorem Mirrors.storedCount (mirrors : saving.Mirrors handles) (handle : String) :
    saving.disk.storedCount handle = (saving.kept handle).length := by
  unfold DiskStore.storedCount loadChunkMetadata kept
  dsimp only
  rw [mirrors.rows handle]
  cases saving.last[handle]? <;> rfl

theorem step_kept (handle : String) : (saving.step shape).kept handle =
    if shape.handle = handle then shape.kept else saving.kept handle := by
  unfold kept step
  rw [Dict.getElem?_insert]
  split <;> rfl

theorem AsManager.valid (asManager : saving.AsManager shape) : rowError shape = none := by
  have succeeds := asManager.succeeds
  cases failed : rowError shape with
  | none => rfl
  | some error =>
      unfold DiskStore.saveShape DiskStore.saveScript at succeeds
      simp [failed] at succeeds

theorem AsManager.encodes (asManager : saving.AsManager shape) (active : shape.deleted = false)
    (more : saving.disk.storedCount shape.handle < shape.changes.length) :
    ∃ chunk, (shape.changes.drop (saving.disk.storedCount shape.handle)).mapM encodeChange =
      some chunk := by
  have succeeds := asManager.succeeds
  cases encoded : (shape.changes.drop (saving.disk.storedCount shape.handle)).mapM
      encodeChange with
  | some chunk => exact ⟨chunk, rfl⟩
  | none =>
      have script := saveScript_kept active more.le
      simp only [asManager.valid, more, if_true, encoded] at script
      simp [DiskStore.saveShape, script] at succeeds

theorem AsManager.kept_isPrefix (asManager : saving.AsManager shape)
    (active : shape.deleted = false) (enough : shape.changes ≠ []) :
    saving.kept shape.handle <+: shape.changes := by
  have extends_ := (asManager.continues.resolve_left (by simp [active])).resolve_left enough
  unfold Saving.changes at extends_
  unfold kept
  cases found : saving.last[shape.handle]? with
  | none => exact List.nil_prefix
  | some last =>
      rw [found] at extends_
      unfold PersistedShape.kept
      dsimp only [Option.map_some, Option.getD_some] at extends_ ⊢
      split
      · exact List.nil_prefix
      · exact extends_

/-- What has to be shown of a save: the row of the shape, its chunks, and that the chunks
of other shapes are left alone. -/
theorem Mirrors.of_upserted (mirrors : saving.Mirrors handles)
    (separate : ∀ left ∈ handles, ∀ right ∈ handles,
      sanitizePath left = sanitizePath right → left = right)
    (listed : shape.handle ∈ handles)
    (upserted : Upserted saving.disk (saving.disk.saveShape shape).2 shape.handle
      (shapeRow shape shape.kept.length))
    (others : ∀ other, other ≠ shape.handle →
      (saving.disk.saveShape shape).2.tables.rowsOf other = saving.disk.tables.rowsOf other)
    (files : ∀ path, (∀ seq, path ≠ chunkPath saving.disk.chunkDir shape.handle seq ∧
        path ≠ chunkPath saving.disk.chunkDir shape.handle seq ++ ".tmp") →
      (saving.disk.saveShape shape).2.files[path]? = saving.disk.files[path]?)
    (log : ∃ chunks, Chunked (saving.disk.saveShape shape).2 shape.handle chunks ∧
      chunks.flatten.map .encoded = shape.kept) :
    (saving.step shape).Mirrors handles where
  known handle found := by
    intro held
    dsimp only [step] at held
    rw [Dict.getElem?_insert] at held
    split at held
    · next same =>
        obtain rfl := Option.some.inj held
        exact ⟨same, same ▸ listed⟩
    · exact mirrors.known handle found held
  rows handle := by
    dsimp only [step]
    rw [upserted.shapes, Dict.getElem?_insert, Dict.getElem?_insert]
    split
    · rfl
    · exact mirrors.rows handle
  logs handle member := by
    rw [step_kept]
    by_cases same : shape.handle = handle
    · subst same
      rw [if_pos rfl]
      exact log
    · obtain ⟨chunks, chunked, stored⟩ := mirrors.logs handle member
      rw [if_neg same]
      refine ⟨chunks, chunked.frame upserted.chunkDir (others handle (Ne.symm same)) ?_, stored⟩
      intro seq
      apply files
      intro position
      refine ⟨fun equal => ?_, chunkPath_ne_temp⟩
      exact same (separate _ listed _ member (chunkPath_inj equal).1.symm)

/-- The three kinds of saves that the manager makes. -/
theorem Mirrors.save_cases (mirrors : saving.Mirrors handles)
    (asManager : saving.AsManager shape) :
    (shape.deleted = true ∨
        (shape.changes = [] ∧ 0 < saving.disk.storedCount shape.handle)) ∨
      (shape.deleted = false ∧ ∃ added, saving.kept shape.handle ++ added = shape.changes) := by
  cases active : shape.deleted with
  | true => exact .inl (.inl rfl)
  | false =>
      by_cases empty : shape.changes = []
      · by_cases stored : 0 < saving.disk.storedCount shape.handle
        · exact .inl (.inr ⟨empty, stored⟩)
        · rw [mirrors.storedCount] at stored
          have nothing : saving.kept shape.handle = [] :=
            List.eq_nil_of_length_eq_zero (by omega)
          exact .inr ⟨rfl, [], by rw [nothing, empty]; rfl⟩
      · exact .inr ⟨rfl, asManager.kept_isPrefix active empty⟩

section Step

variable (mirrors : saving.Mirrors handles)
  (separate : ∀ left ∈ handles, ∀ right ∈ handles,
    sanitizePath left = sanitizePath right → left = right)
  (listed : shape.handle ∈ handles) (asManager : saving.AsManager shape)

include mirrors separate listed asManager

theorem Mirrors.cleared (clears : shape.deleted = true ∨
      (shape.changes = [] ∧ 0 < saving.disk.storedCount shape.handle)) :
    (saving.step shape).Mirrors handles := by
  obtain ⟨chunks, chunked, -⟩ := mirrors.logs shape.handle listed
  have nothing : shape.kept = [] := by
    unfold PersistedShape.kept
    split
    · rfl
    · next active => exact (clears.resolve_left active).1
  obtain ⟨upserted, rows, files⟩ :=
    saveShape_cleared chunked.numbered clears asManager.valid
  refine mirrors.of_upserted separate listed ?_ ?_ ?_ ?_
  · rw [nothing]
    exact upserted
  · intro other different
    exact (rows other).trans (if_neg (Ne.symm different))
  · intro path elsewhere
    rw [files, if_neg]
    intro member
    obtain ⟨seq, -, rfl⟩ := List.mem_map.mp member
    exact (elsewhere seq).1 rfl
  · refine ⟨[], .none ((rows _).trans (if_pos rfl)), ?_⟩
    rw [nothing]
    rfl

theorem Mirrors.touched (active : shape.deleted = false)
    (same : saving.kept shape.handle = shape.changes) :
    (saving.step shape).Mirrors handles := by
  obtain ⟨chunks, chunked, stored⟩ := mirrors.logs shape.handle listed
  have whole : shape.kept = shape.changes := by simp [PersistedShape.kept, active]
  have count : saving.disk.storedCount shape.handle = shape.changes.length := by
    rw [mirrors.storedCount, same]
  obtain ⟨upserted, rows, files⟩ := saveShape_touched active count asManager.valid
  refine mirrors.of_upserted separate listed ?_ ?_ ?_ ?_
  · rw [whole]
    exact upserted
  · intro other _
    exact rows other
  · intro path _
    rw [files]
  · refine ⟨chunks, chunked.frame upserted.chunkDir (rows _) ?_, ?_⟩
    · intro seq
      rw [files]
    · rw [whole, stored, same]

theorem Mirrors.appended (active : shape.deleted = false)
    {added : List (RawMessage PersistedMessage)} (some : added ≠ [])
    (extended : saving.kept shape.handle ++ added = shape.changes) :
    (saving.step shape).Mirrors handles := by
  obtain ⟨chunks, chunked, stored⟩ := mirrors.logs shape.handle listed
  have whole : shape.kept = shape.changes := by simp [PersistedShape.kept, active]
  have count := mirrors.storedCount shape.handle
  have more : saving.disk.storedCount shape.handle < shape.changes.length := by
    rw [count, ← extended, List.length_append]
    exact Nat.lt_add_of_pos_right (List.length_pos_of_ne_nil some)
  obtain ⟨chunk, encodes⟩ := asManager.encodes active more
  obtain ⟨upserted, rows, files⟩ :=
    saveShape_appended chunked.numbered active more asManager.valid encodes
  have own := (rows shape.handle).trans (by rw [if_pos rfl])
  have same : chunk.map .encoded = added := by
    rw [count, ← extended, List.drop_left] at encodes
    apply map_encoded_of_mapM _ encodes
    intro change member
    apply asManager.written
    rw [← extended]
    exact List.mem_append_right _ member
  have filled : chunk ≠ [] := by
    intro empty
    rw [empty] at same
    exact some same.symm
  refine mirrors.of_upserted separate listed ?_ ?_ ?_ ?_
  · rw [whole]
    exact upserted
  · intro other different
    rw [rows, if_neg (Ne.symm different), List.append_nil]
  · intro path elsewhere
    rw [files, if_neg (elsewhere _).1.symm, if_neg (elsewhere _).2.symm]
  · refine ⟨chunks ++ [chunk], chunked.append filled upserted.chunkDir own files, ?_⟩
    rw [whole, ← extended, ← stored, ← same]
    simp

theorem Mirrors.step : (saving.step shape).Mirrors handles := by
  rcases mirrors.save_cases asManager with clears | ⟨active, added, extended⟩
  · exact mirrors.cleared separate listed asManager clears
  · cases added with
    | nil =>
        rw [List.append_nil] at extended
        exact mirrors.touched separate listed asManager active extended
    | cons change rest =>
        exact mirrors.appended separate listed asManager active (by simp) extended

end Step

def Few (saving : Saving) : Prop :=
  ∀ handle, (saving.disk.tables.rowsOf handle).length ≤ 10 ^ 6

theorem Mirrors.few_step (mirrors : saving.Mirrors handles) (listed : shape.handle ∈ handles)
    (asManager : saving.AsManager shape) (few : saving.Few) (room : saving.HasRoom shape) :
    (saving.step shape).Few := by
  intro handle
  obtain ⟨chunks, chunked, -⟩ := mirrors.logs shape.handle listed
  have bound := few handle
  dsimp only [Saving.step]
  rcases mirrors.save_cases asManager with clears | ⟨active, added, extended⟩
  · rw [(saveShape_cleared chunked.numbered clears asManager.valid).2.1 handle]
    split
    · exact Nat.zero_le _
    · exact bound
  · have count := mirrors.storedCount shape.handle
    cases added with
    | nil =>
        rw [List.append_nil] at extended
        rw [extended] at count
        rw [(saveShape_touched active count asManager.valid).2.1 handle]
        exact bound
    | cons change rest =>
        have more : saving.disk.storedCount shape.handle < shape.changes.length := by
          rw [count, ← extended]
          simp
        obtain ⟨chunk, encodes⟩ := asManager.encodes active more
        rw [(saveShape_appended chunked.numbered active more asManager.valid encodes).2.1 handle]
        split
        · next same =>
            have below := room active more
            rw [chunked.numbered.chunkRows, same] at below
            rw [List.length_append]
            exact below
        · rw [List.append_nil]
          exact bound

theorem Mirrors.loadShapes (mirrors : saving.Mirrors handles) (few : saving.Few) :
    saving.disk.loadShapes = saving.last.values.map PersistedShape.asLoaded := by
  have shapes : saving.disk.tables.shapes =
      saving.last.map fun _ shape => shapeRow shape shape.kept.length := by
    apply Std.ExtTreeMap.ext_getElem?
    intro handle
    rw [mirrors.rows handle, Std.ExtTreeMap.getElem?_map]
  unfold DiskStore.loadShapes
  rw [shapes, Std.ExtTreeMap.toList_map, Dict.values_eq, List.map_map, List.map_map]
  apply List.map_congr_left
  intro entry member
  obtain ⟨handle, shape⟩ := entry
  have found : saving.last[handle]? = some shape :=
    Std.ExtTreeMap.mem_toList_iff_getElem?_eq_some.mp member
  obtain ⟨own, listed⟩ := mirrors.known handle shape found
  obtain ⟨chunks, chunked, stored⟩ := mirrors.logs handle listed
  have bound := few handle
  rw [chunked.numbered.length] at bound
  have changes : (saving.disk.loadShapeChanges handle).getD [.malformed] = shape.kept := by
    rw [chunked.loadShapeChanges bound, Option.getD_some, stored, Saving.kept, found]
    rfl
  simp only [Function.comp_apply, DiskStore.loadShape, changes, PersistedShape.asLoaded,
    shapeRow, own]

theorem Mirrors.start (handles : List String) (chunkDir : String) :
    Mirrors handles ⟨newDiskStore chunkDir, ∅⟩ where
  known handle shape found := by simp at found
  rows handle := by simp [newDiskStore]
  logs handle _ := ⟨[], .none rfl, by simp [Saving.kept]⟩

end Saving

/-- In every sequence of saves that the manager makes, none of which adds a chunk to a
shape that has a million of them, the disk store loads for every handle the shape that
was saved last. -/
theorem diskStore_loads_last_save (chunkDir : String) (shapes : List PersistedShape)
    (separate : ∀ left ∈ shapes, ∀ right ∈ shapes,
      sanitizePath left.handle = sanitizePath right.handle → left.handle = right.handle)
    (asManager : Along Saving.step Saving.AsManager ⟨newDiskStore chunkDir, ∅⟩ shapes)
    (room : Along Saving.step Saving.HasRoom ⟨newDiskStore chunkDir, ∅⟩ shapes) :
    let saving := shapes.foldl Saving.step ⟨newDiskStore chunkDir, ∅⟩
    saving.disk.loadShapes = saving.last.values.map PersistedShape.asLoaded := by
  intro saving
  have apart : ∀ left ∈ shapes.map (·.handle), ∀ right ∈ shapes.map (·.handle),
      sanitizePath left = sanitizePath right → left = right := by
    intro left leftMember right rightMember same
    obtain ⟨first, firstMember, rfl⟩ := List.mem_map.mp leftMember
    obtain ⟨second, secondMember, rfl⟩ := List.mem_map.mp rightMember
    exact separate first firstMember second secondMember same
  have listed : Along Saving.step (fun _ shape => shape.handle ∈ shapes.map (·.handle))
      ⟨newDiskStore chunkDir, ∅⟩ shapes :=
    .of_forall shapes _ fun _ shape member => List.mem_map_of_mem member
  have preserved : ∀ (saving : Saving) (shape : PersistedShape),
      saving.Mirrors (shapes.map (·.handle)) ∧ saving.Few →
        (saving.AsManager shape ∧ saving.HasRoom shape) ∧
            shape.handle ∈ shapes.map (·.handle) →
          (saving.step shape).Mirrors (shapes.map (·.handle)) ∧ (saving.step shape).Few := by
    intro saving shape ⟨mirrors, few⟩ ⟨⟨made, fits⟩, own⟩
    exact ⟨mirrors.step apart own made, mirrors.few_step own made few fits⟩
  obtain ⟨mirrors, few⟩ := Along.invariant preserved shapes _
    ⟨.start _ chunkDir, by simp [Saving.Few, newDiskStore, Tables.rowsOf]⟩
    (.and shapes _ (.and shapes _ asManager room) listed)
  exact mirrors.loadShapes few

def numberedChange (number : Nat) : PersistedMessage where
  headers := ∅
  key := toString number
  value := ∅
  oldValue := ∅
  offset := ""

def numberedShape (count : Nat) : PersistedShape where
  handle := "fa19db76c4-1"
  hash := "fa19db76c4"
  definition := .encoded itemsDefinition
  schema := .encoded itemsSchema
  snapshot := .encoded []
  materialized := .encoded ∅
  currentOffset := "0_0"
  lastAccess := 1000
  generation := 1
  deleted := false
  changes := (List.range count).map fun number => .encoded (numberedChange number)

def savedTwoShapes : List PersistedShape :=
  let other := { numberedShape 2 with handle := "6dc4c190f9-2" }
  [numberedShape 1, other, numberedShape 3, { other with deleted := true }]

theorem diskStore_loads_last_save_twoShapes :
    let saving := savedTwoShapes.foldl Saving.step ⟨newDiskStore "chunks", ∅⟩
    saving.disk.loadShapes.map (fun shape => (shape.handle, shape.changes.length)) =
        [("6dc4c190f9-2", 0), ("fa19db76c4-1", 3)] ∧
      saving.disk.loadShapes = saving.last.values.map PersistedShape.asLoaded :=
  ⟨by decide +kernel,
    diskStore_loads_last_save "chunks" savedTwoShapes (by decide +kernel)
      (by decide +kernel) (by decide +kernel)⟩

/-! More than a million chunks. -/

theorem eq_of_flatten_singles {left right : List (List α)}
    (first : ∀ part ∈ left, part.length = 1) (second : ∀ part ∈ right, part.length = 1)
    (same : left.flatten = right.flatten) : left = right := by
  induction left generalizing right with
  | nil =>
      cases right with
      | nil => rfl
      | cons part rest =>
          obtain ⟨value, rfl⟩ := List.length_eq_one_iff.mp (second part List.mem_cons_self)
          cases same
  | cons part rest hypothesis =>
      obtain ⟨value, rfl⟩ := List.length_eq_one_iff.mp (first part List.mem_cons_self)
      cases right with
      | nil => cases same
      | cons other others =>
          obtain ⟨held, rfl⟩ := List.length_eq_one_iff.mp (second other List.mem_cons_self)
          obtain ⟨rfl, later⟩ := List.cons.inj same
          rw [hypothesis (fun part member => first part (List.mem_cons_of_mem _ member))
            (fun part member => second part (List.mem_cons_of_mem _ member)) later]

theorem Chunked.disordered {disk : DiskStore} {handle : String}
    {chunks : List (List PersistedMessage)} (chunked : Chunked disk handle chunks)
    (many : 1000000 < chunks.length) (single : ∀ chunk ∈ chunks, chunk.length = 1)
    (distinct : chunks.Nodup) :
    disk.loadShapeChanges handle ≠ some (chunks.flatten.map .encoded) := by
  intro loaded
  let paths := (List.range chunks.length).map (chunkPath disk.chunkDir handle)
  let sorted := paths.insertionSort (· ≤ ·)
  let read (path : String) : Option (List PersistedMessage) := disk.files[path]?.join
  let value (path : String) : List PersistedMessage := (read path).getD []
  have readable : ∀ path ∈ paths, read path = some (value path) := by
    intro path member
    obtain ⟨seq, bound, rfl⟩ := List.mem_map.mp member
    have found := chunked.files seq _ (List.getElem?_eq_getElem (List.mem_range.mp bound))
    simp [read, value, found]
  have members : ∀ path ∈ sorted, path ∈ paths := fun path member =>
    (List.perm_insertionSort (· ≤ ·) paths).mem_iff.mp member
  have inOrder : paths.map value = chunks :=
    Option.some.inj ((mapM_eq_some_map readable).symm.trans chunked.mapM_files)
  have asRead : sorted.mapM read = some (sorted.map value) :=
    mapM_eq_some_map fun path member => readable path (members path member)
  have same : sorted.map value = paths.map value := by
    rw [inOrder]
    apply eq_of_flatten_singles
    · intro part member
      obtain ⟨path, held, rfl⟩ := List.mem_map.mp member
      apply single
      rw [← inOrder]
      exact List.mem_map_of_mem (members path held)
    · exact single
    · unfold DiskStore.loadShapeChanges at loaded
      rw [chunked.numbered.paths] at loaded
      have lists := Option.some.inj ((congrArg (Option.map _) asRead).symm.trans loaded)
      exact List.map_injective_iff.mpr (fun left right equal => RawMessage.encoded.inj equal)
        lists
  -- the messages tell the files apart, so the sorted list is the list itself
  have unmoved : sorted = paths := by
    rw [← inOrder] at distinct
    have apart := List.inj_on_of_nodup_map distinct
    apply List.ext_getElem
    · exact (List.perm_insertionSort (· ≤ ·) paths).length_eq
    · intro index first second
      apply apart (members _ (List.getElem_mem first)) (List.getElem_mem second)
      have values := congrArg (fun list => list[index]?) same
      simpa [first, second] using values
  have increasing : paths.Pairwise (· ≤ ·) := by
    rw [← unmoved]
    exact List.pairwise_insertionSort (· ≤ ·) paths
  rw [List.pairwise_map, List.pairwise_iff_getElem] at increasing
  have late := increasing 999999 1000000 (by simp; omega) (by simp; omega) (by omega)
  rw [List.getElem_range, List.getElem_range] at late
  exact absurd chunkPath_million_lt late.not_gt

structure Saving.Grown (count : Nat) (saving : Saving) : Prop where
  mirrors : saving.Mirrors ["fa19db76c4-1"]
  rows : (saving.disk.tables.rowsOf "fa19db76c4-1").length = count
  kept : saving.kept "fa19db76c4-1" = (numberedShape count).changes
  changes : saving.changes "fa19db76c4-1" = (numberedShape count).changes

theorem numberedShape_changes (count : Nat) : (numberedShape (count + 1)).changes =
    (numberedShape count).changes ++ [.encoded (numberedChange count)] := by
  simp [numberedShape, List.range_succ]

section Grown

variable {count : Nat} {saving : Saving}

theorem Saving.Grown.encodes (grown : saving.Grown count) :
    saving.disk.storedCount "fa19db76c4-1" < (numberedShape (count + 1)).changes.length ∧
      ((numberedShape (count + 1)).changes.drop
        (saving.disk.storedCount "fa19db76c4-1")).mapM encodeChange =
          some [numberedChange count] := by
  rw [grown.mirrors.storedCount, grown.kept, numberedShape_changes, List.drop_left]
  exact ⟨by simp, rfl⟩

theorem Saving.Grown.asManager (grown : saving.Grown count) :
    saving.AsManager (numberedShape (count + 1)) where
  succeeds := by
    obtain ⟨more, encodes⟩ := grown.encodes
    have script := @saveScript_kept saving.disk (numberedShape (count + 1)) rfl more.le
    have valid : rowError (numberedShape (count + 1)) = none := rfl
    have handle : (numberedShape (count + 1)).handle = "fa19db76c4-1" := rfl
    simp only [valid, handle, more, if_true, encodes] at script
    rw [DiskStore.saveShape, script]
  written change member := by
    obtain ⟨number, -, rfl⟩ := List.mem_map.mp member
    simp
  continues := by
    refine .inr (.inr ?_)
    have handle : (numberedShape (count + 1)).handle = "fa19db76c4-1" := rfl
    rw [handle, grown.changes, numberedShape_changes]
    exact List.prefix_append _ _

theorem Saving.Grown.step (grown : saving.Grown count) :
    (saving.step (numberedShape (count + 1))).Grown (count + 1) where
  mirrors := grown.mirrors.step
    (fun left first right second _ => by
      rw [List.mem_singleton.mp first, List.mem_singleton.mp second])
    (List.mem_singleton_self _) grown.asManager
  rows := by
    obtain ⟨chunks, chunked, -⟩ := grown.mirrors.logs _ (List.mem_singleton_self _)
    obtain ⟨more, encodes⟩ := grown.encodes
    obtain ⟨-, rows, -⟩ := @saveShape_appended saving.disk (numberedShape (count + 1)) _
      chunked.numbered rfl more rfl _ encodes
    dsimp only [Saving.step]
    rw [rows, List.length_append, grown.rows]
    rfl
  kept := by
    rw [Saving.step_kept]
    rfl
  changes := by
    simp [Saving.changes, Saving.step, numberedShape]

theorem Saving.Grown.run (more : Nat) :
    ∀ (count : Nat) (saving : Saving), saving.Grown count →
      let shapes := (List.range' count more).map fun count => numberedShape (count + 1)
      Along Saving.step Saving.AsManager saving shapes ∧
        (shapes.foldl Saving.step saving).Grown (count + more) := by
  induction more with
  | zero =>
      intro count saving grown
      exact ⟨trivial, grown⟩
  | succ more hypothesis =>
      intro count saving grown
      obtain ⟨later, reached⟩ := hypothesis (count + 1) _ grown.step
      refine ⟨⟨grown.asManager, later⟩, ?_⟩
      rw [Nat.add_right_comm] at reached
      exact reached

end Grown

theorem length_le_flatten {parts : List (List α)} (nonempty : ∀ part ∈ parts, part ≠ []) :
    parts.length ≤ parts.flatten.length := by
  induction parts with
  | nil => exact Nat.le_refl 0
  | cons part rest hypothesis =>
      have first := List.length_pos_of_ne_nil (nonempty part List.mem_cons_self)
      have later := hypothesis fun other member => nonempty other (List.mem_cons_of_mem _ member)
      simp only [List.length_cons, List.flatten_cons, List.length_append]
      omega

theorem single_of_length_flatten {parts : List (List α)} (nonempty : ∀ part ∈ parts, part ≠ [])
    (length : parts.flatten.length = parts.length) : ∀ part ∈ parts, part.length = 1 := by
  induction parts with
  | nil =>
      intro part member
      cases member
  | cons first rest hypothesis =>
      have others : ∀ part ∈ rest, part ≠ [] := fun other member =>
        nonempty other (List.mem_cons_of_mem _ member)
      have some := List.length_pos_of_ne_nil (nonempty first List.mem_cons_self)
      have bound := length_le_flatten others
      simp only [List.length_cons, List.flatten_cons, List.length_append] at length
      intro part member
      rcases List.mem_cons.mp member with rfl | later
      · omega
      · exact hypothesis others (by omega) part later

theorem numberedChange_injective : Function.Injective numberedChange := by
  intro left right same
  have keys := congrArg (fun change : PersistedMessage => change.key.toList) same
  have digits : Nat.toDigits 10 left = Nat.toDigits 10 right := by
    simpa [numberedChange, toString, Nat.repr] using keys
  have numbers := congrArg parseDigits digits
  rw [parseDigits_toDigits, parseDigits_toDigits] at numbers
  exact Option.some.inj numbers

theorem Saving.Mirrors.loadShapeChanges_eq {handles : List String} {saving : Saving}
    (mirrors : saving.Mirrors handles)
    (equal : saving.disk.loadShapes = saving.last.values.map PersistedShape.asLoaded)
    {handle : String} {shape : PersistedShape} (found : saving.last[handle]? = some shape) :
    (saving.disk.loadShapeChanges handle).getD [.malformed] = shape.kept := by
  have row := mirrors.rows handle
  rw [found] at row
  have loaded : saving.disk.loadShape handle (shapeRow shape shape.kept.length) ∈
      saving.disk.loadShapes :=
    List.mem_map.mpr ⟨(handle, _),
      Std.ExtTreeMap.mem_toList_iff_getElem?_eq_some.mpr row, rfl⟩
  rw [equal] at loaded
  obtain ⟨other, member, same⟩ := List.mem_map.mp loaded
  obtain ⟨key, held⟩ := Dict.mem_values.mp member
  have own : other.handle = handle := congrArg PersistedShape.handle same
  have keyed := (mirrors.known key other held).1
  rw [← keyed, own, found] at held
  rw [← Option.some.inj held] at same
  exact (congrArg PersistedShape.changes same).symm

theorem Saving.Grown.not_loaded {count : Nat} {saving : Saving} (grown : saving.Grown count)
    (many : 1000000 < count) :
    saving.disk.loadShapes ≠ saving.last.values.map PersistedShape.asLoaded := by
  intro equal
  obtain ⟨chunks, chunked, stored⟩ := grown.mirrors.logs _ (List.mem_singleton_self _)
  have length : chunks.length = count := chunked.numbered.length.symm.trans grown.rows
  have messages : chunks.flatten = (List.range count).map numberedChange := by
    apply List.map_injective_iff.mpr
      (fun left right equal => RawMessage.encoded.inj equal : Function.Injective
        (RawMessage.encoded : PersistedMessage → RawMessage PersistedMessage))
    rw [stored, grown.kept, List.map_map]
    rfl
  have single := single_of_length_flatten chunked.nonempty (by simp [messages, length])
  have distinct : chunks.Nodup := by
    have parts : chunks = (List.range count).map fun number => [numberedChange number] := by
      apply eq_of_flatten_singles single
      · intro part member
        obtain ⟨number, -, rfl⟩ := List.mem_map.mp member
        rfl
      · rw [messages, ← List.flatMap_def]
        exact List.map_eq_flatMap
    rw [parts]
    apply List.nodup_range.map
    intro left right same
    exact numberedChange_injective (List.cons.inj same).1
  have disordered := chunked.disordered (length ▸ many) single distinct
  cases found : saving.last["fa19db76c4-1"]? with
  | none =>
      have nothing := grown.kept
      rw [Saving.kept, found] at nothing
      have zero := congrArg List.length nothing
      simp only [numberedShape, Option.map_none, Option.getD_none, List.length_nil,
        List.length_map, List.length_range] at zero
      omega
  | some shape =>
      have changes := grown.mirrors.loadShapeChanges_eq equal found
      have kept : shape.kept = chunks.flatten.map .encoded := by
        rw [stored, Saving.kept, found]
        rfl
      rw [kept] at changes
      cases loaded : saving.disk.loadShapeChanges "fa19db76c4-1" with
      | some list =>
          rw [loaded] at changes
          exact disordered (loaded.trans (congrArg some changes))
      | none =>
          rw [loaded] at changes
          have malformed : RawMessage.malformed ∈ chunks.flatten.map RawMessage.encoded := by
            rw [← changes]
            exact List.mem_singleton_self _
          obtain ⟨message, -, impossible⟩ := List.mem_map.mp malformed
          cases impossible

def savedOneByOne : List PersistedShape :=
  (List.range' 0 1000001).map fun count => numberedShape (count + 1)

/-- The changes come back in another order. -/
theorem savedOneByOne_disordered :
    (∀ shape ∈ savedOneByOne, shape.handle = "fa19db76c4-1") ∧
      Along Saving.step Saving.AsManager ⟨newDiskStore "chunks", ∅⟩ savedOneByOne ∧
      let saving := savedOneByOne.foldl Saving.step ⟨newDiskStore "chunks", ∅⟩
      saving.disk.loadShapes ≠ saving.last.values.map PersistedShape.asLoaded := by
  have started : Saving.Grown 0 ⟨newDiskStore "chunks", ∅⟩ :=
    ⟨.start _ _, rfl, by simp [Saving.kept, numberedShape],
      by simp [Saving.changes, numberedShape]⟩
  obtain ⟨asManager, grown⟩ := Saving.Grown.run 1000001 0 _ started
  refine ⟨?_, asManager, grown.not_loaded (by omega)⟩
  intro shape member
  obtain ⟨count, -, rfl⟩ := List.mem_map.mp member
  rfl

end PostgresSync.Storage
