import PostgresSync.Data.Loop
import PostgresSync.Storage.Disk

namespace PostgresSync.Storage

open PostgresSync.Data

/-! The chunks of a shape are numbered from zero, and their files are named by the
numbers. -/

def Tables.Numbered (chunkDir : String) (tables : Tables) (handle : String) (n : Nat) :
    Prop :=
  (tables.rowsOf handle).map (fun row => (row.seq, row.path)) =
    (List.range n).map fun seq => (seq, chunkPath chunkDir handle seq)

section Numbered

variable {chunkDir : String} {tables : Tables} {handle : String} {n : Nat}

theorem Tables.Numbered.seqs (numbered : tables.Numbered chunkDir handle n) :
    (tables.rowsOf handle).map (·.seq) = List.range n := by
  have firsts := congrArg (List.map Prod.fst) numbered
  simpa [Function.comp_def] using firsts

theorem Tables.Numbered.length (numbered : tables.Numbered chunkDir handle n) :
    (tables.rowsOf handle).length = n := by
  have lengths := congrArg List.length numbered
  simpa using lengths

theorem Tables.Numbered.chunkRows (numbered : tables.Numbered chunkDir handle n) :
    tables.chunkRows handle = tables.rowsOf handle := by
  have increasing : ((tables.rowsOf handle).map (·.seq)).Pairwise (· < ·) := by
    rw [numbered.seqs]
    exact List.pairwise_lt_range
  rw [List.pairwise_map] at increasing
  exact (increasing.imp fun below => below.le).insertionSort_eq

theorem Tables.Numbered.paths (numbered : tables.Numbered chunkDir handle n) :
    (tables.chunkRows handle).map (·.path) = (List.range n).map (chunkPath chunkDir handle) := by
  have seconds := congrArg (List.map Prod.snd) numbered
  rw [numbered.chunkRows]
  simpa [Function.comp_def] using seconds

theorem Tables.Numbered.nextSeq (numbered : tables.Numbered chunkDir handle n) :
    (loadChunkMetadata tables handle).nextSeq = n := by
  have counted : ∀ m, (List.range m).foldl
      (fun nextSeq seq => if nextSeq ≤ seq then seq + 1 else nextSeq) 0 = m := by
    intro m
    induction m with
    | zero => rfl
    | succ m hypothesis => simp [List.range_succ, hypothesis]
  unfold loadChunkMetadata
  rw [numbered.chunkRows]
  conv_rhs => rw [← counted n, ← numbered.seqs, List.foldl_map]

theorem Tables.Numbered.of_rows {after : Tables} (numbered : tables.Numbered chunkDir handle n)
    (same : after.rowsOf handle = tables.rowsOf handle) : after.Numbered chunkDir handle n := by
  unfold Tables.Numbered
  rw [same]
  exact numbered

theorem Tables.Numbered.empty (none : tables.rowsOf handle = []) :
    tables.Numbered chunkDir handle 0 := by
  simp [Tables.Numbered, none]

theorem Tables.Numbered.append {after : Tables} {messageCount : Nat}
    (numbered : tables.Numbered chunkDir handle n)
    (rows : after.rowsOf handle =
      tables.rowsOf handle ++ [⟨handle, n, chunkPath chunkDir handle n, messageCount⟩]) :
    after.Numbered chunkDir handle (n + 1) := by
  unfold Tables.Numbered at numbered ⊢
  rw [rows, List.map_append, numbered, List.range_succ, List.map_append]
  rfl

end Numbered

/-! What the parts of a save do. -/

section Effects

theorem run_removeFiles (session : Session) (paths : List String) :
    ((paths.map Effect.removeFile).foldl Session.run session).tables = session.tables ∧
      ∀ path : String, ((paths.map Effect.removeFile).foldl Session.run session).files[path]? =
        if path ∈ paths then none else session.files[path]? := by
  induction paths generalizing session with
  | nil => simp
  | cons first rest hypothesis =>
      obtain ⟨tables, files⟩ := hypothesis (session.run (.removeFile first))
      refine ⟨tables, fun path => ?_⟩
      rw [List.map_cons, List.foldl_cons, files path]
      by_cases later : path ∈ rest
      · simp [later]
      · by_cases same : first = path
        · simp [Session.run, same]
        · simp [Session.run, same, later, Ne.symm same]

theorem run_clearChunks (session : Session) (paths : List String) (handle : String) :
    ((clearChunks handle paths).foldl Session.run session).tables =
        (session.run (.deleteChunks handle)).tables ∧
      ∀ path : String, ((clearChunks handle paths).foldl Session.run session).files[path]? =
        if path ∈ paths then none else session.files[path]? := by
  obtain ⟨tables, files⟩ := run_removeFiles session paths
  rw [clearChunks, List.foldl_append]
  refine ⟨?_, fun path => files path⟩
  simp only [List.foldl_cons, List.foldl_nil, Session.run, tables]

theorem run_writeChunk {session : Session} (temp path : String)
    (chunk : List PersistedMessage) (other : String) :
    ((session.run (.writeFile temp chunk)).run (.renameFile temp path)).files[other]? =
      if path = other then some (some chunk) else
        if temp = other then none else session.files[other]? := by
  simp only [Session.run, Dict.getElem?_insert, if_true, Dict.getElem?_erase]
  by_cases own : path = other
  · simp [own]
  · by_cases temporary : temp = other <;> simp [own, temporary]

@[simp] theorem run_renameFile_tables (session : Session) (source target : String) :
    (session.run (.renameFile source target)).tables = session.tables := by
  unfold Session.run
  dsimp only
  split <;> rfl

end Effects

/-! The script of a save. -/

section Scripts

variable {disk : DiskStore} {shape : PersistedShape}

def DiskStore.storedCount (disk : DiskStore) (handle : String) : Nat :=
  (loadChunkMetadata disk.tables handle).count

theorem saveScript_cleared (clears : shape.deleted = true ∨
      (shape.changes = [] ∧ 0 < disk.storedCount shape.handle)) :
    disk.saveScript shape =
      let clear := clearChunks shape.handle (loadChunkMetadata disk.tables shape.handle).paths
      match rowError shape with
      | some error => ⟨clear, some error⟩
      | none => ⟨clear ++ [.upsertShape shape.handle (shapeRow shape 0)], none⟩ := by
  unfold DiskStore.saveScript DiskStore.storedCount at *
  cases deleted : shape.deleted with
  | true => cases rowError shape <;> simp
  | false =>
      obtain ⟨empty, stored⟩ := clears.resolve_left (by simp [deleted])
      cases rowError shape <;> simp [empty, stored]

theorem saveScript_kept (active : shape.deleted = false)
    (enough : disk.storedCount shape.handle ≤ shape.changes.length) :
    disk.saveScript shape =
      let upsert := Effect.upsertShape shape.handle (shapeRow shape shape.changes.length)
      let count := disk.storedCount shape.handle
      match rowError shape with
      | some error => ⟨[], some error⟩
      | none =>
          if count < shape.changes.length then
            match (shape.changes.drop count).mapM encodeChange with
            | none =>
                ⟨[upsert], some "json: error calling MarshalJSON for type json.RawMessage"⟩
            | some chunk =>
                ⟨upsert :: appendChunk disk.chunkDir shape.handle
                  (loadChunkMetadata disk.tables shape.handle).nextSeq
                  (shape.changes.length - count) chunk, none⟩
          else
            ⟨[upsert], none⟩ := by
  unfold DiskStore.saveScript DiskStore.storedCount at *
  simp only [active, Bool.false_eq_true, if_false, Nat.not_lt.mpr enough]
  cases rowError shape with
  | some error => rfl
  | none =>
      dsimp only
      cases (shape.changes.drop (loadChunkMetadata disk.tables shape.handle).count).mapM
        encodeChange <;> simp

end Scripts

end PostgresSync.Storage
