import PostgresSync.Shapes.Hydration

namespace PostgresSync.Storage

open PostgresSync.Data
open PostgresSync.Shapes

/-! Damage to what a disk holds: its rows and files are where they were, with other texts. -/

inductive Damage where
  /-- To the texts of a row. -/
  | row (handle : String) (definition : RawMessage Definition) (schema : RawMessage Schema)
      (snapshot : RawMessage (List WireMessage)) (materialized : RawMessage (Dict Row))
  /-- To a file, which may be gone. -/
  | file (path : String) (file : Option ChunkFile)

namespace DiskStore

def damaged (disk : DiskStore) : Damage → DiskStore
  | .row handle definition schema snapshot materialized =>
      { disk with
        tables := { disk.tables with
          shapes := disk.tables.shapes.modify handle fun row =>
            { row with
              definition := definition
              schema := schema
              snapshot := snapshot
              materialized := materialized } } }
  | .file path file => { disk with files := disk.files.alter path fun _ => file }

def Spared (disk : DiskStore) (handle : String) : Damage → Prop
  | .row other _ _ _ _ => other ≠ handle
  | .file path _ => ∀ row ∈ disk.tables.rowsOf handle, row.path ≠ path

/-- No row has a generation that the driver refuses. -/
def Small (disk : DiskStore) : Prop :=
  ∀ (handle : String) (row : ShapeRow), disk.tables.shapes[handle]? = some row →
    row.generation < 2 ^ 63

variable {chunkDir : String} {disk : DiskStore}

theorem generation_of_saveScript {shape : PersistedShape} {handle : String} {row : ShapeRow}
    (member : .upsertShape handle row ∈ (disk.saveScript shape).effects) :
    row.generation < 2 ^ 63 := by
  have accepted : rowError shape = none → shape.generation < 2 ^ 63 := by
    unfold rowError
    split
    · simp
    · split
      · simp
      · intro _
        omega
  unfold saveScript at member
  cases valid : rowError shape with
  | some error =>
      simp only [valid] at member
      repeat' split at member
      all_goals simp [clearChunks] at member
  | none =>
      have same : row.generation = shape.generation := by
        simp only [valid] at member
        repeat' split at member
        all_goals
          simp [clearChunks, appendChunk] at member
        all_goals
          rw [member.2]
          rfl
      exact same ▸ accepted valid

theorem Small.run (effects : List Effect)
    (valid : ∀ handle row, Effect.upsertShape handle row ∈ effects → row.generation < 2 ^ 63) :
    ∀ disk : DiskStore, disk.Small →
      Small { disk with toSession := effects.foldl Session.run disk.toSession } := by
  induction effects with
  | nil =>
      intro disk small
      exact small
  | cons effect rest hypothesis =>
      intro disk small
      apply hypothesis (fun handle row later => valid handle row (List.mem_cons_of_mem _ later))
        { disk with toSession := disk.toSession.run effect }
      cases effect with
      | upsertShape handle row =>
          intro other stored found
          simp only [Session.run, Dict.getElem?_insert] at found
          split at found
          · exact Option.some.inj found ▸ valid handle row List.mem_cons_self
          · exact small other stored found
      | renameFile source target =>
          simp only [Session.run]
          split
          · exact small
          · exact small
      | removeFile | writeFile | deleteChunks | insertChunk => exact small

theorem Small.saved (small : disk.Small) (shape : PersistedShape) :
    (disk.saveShape shape).2.Small := by
  unfold saveShape
  dsimp only
  split
  · exact small
  · exact Small.run _ (fun _ _ => generation_of_saveScript) disk small

theorem Reachable.small (reachable : disk.Reachable chunkDir) : disk.Small := by
  induction reachable with
  | new =>
      intro handle row found
      simp [newDiskStore] at found
  | saved _ _ hypothesis => exact hypothesis.saved _
  | stopped _ _ hypothesis => exact hypothesis

theorem Tidy.damaged (tidy : disk.Tidy chunkDir) (damage : Damage) :
    (disk.damaged damage).Tidy chunkDir := by
  cases damage with
  | row handle definition schema snapshot materialized =>
      refine ⟨tidy.directory, tidy.numbered, ?_, ?_⟩
      · intro other rows
        exact Std.ExtTreeMap.mem_modify.mpr (tidy.owned other rows)
      · intro other member
        exact tidy.handles other (Std.ExtTreeMap.mem_modify.mp member)
  | file path file => exact tidy.of_tables rfl rfl

theorem Small.damaged (small : disk.Small) (damage : Damage) : (disk.damaged damage).Small := by
  cases damage with
  | row handle definition schema snapshot materialized =>
      intro other row found
      simp only [DiskStore.damaged, Std.ExtTreeMap.getElem?_modify] at found
      split at found
      · obtain ⟨old, known, rfl⟩ := Option.map_eq_some_iff.mp found
        exact small handle old known
      · exact small other row found
  | file path file => exact small

theorem loadShapes_spared {shape : PersistedShape} (loaded : shape ∈ disk.loadShapes)
    {damage : Damage} (spared : disk.Spared shape.handle damage) :
    shape ∈ (disk.damaged damage).loadShapes := by
  obtain ⟨handle, row, found, rfl⟩ := DiskStore.mem_loadShapes.mp loaded
  have changes : (disk.damaged damage).loadShapeChanges handle = disk.loadShapeChanges handle := by
    apply loadShapeChanges_of_frame
    · cases damage <;> rfl
    · intro row listed
      cases damage with
      | row => rfl
      | file path file =>
          rw [damaged, Std.ExtTreeMap.getElem?_alter, if_neg]
          exact fun same => spared row listed (compare_eq_iff_eq.mp same).symm
  have kept : (disk.damaged damage).tables.shapes[handle]? = some row := by
    cases damage with
    | row other =>
        rw [damaged, Std.ExtTreeMap.getElem?_modify, if_neg]
        · exact found
        · exact fun same => spared (compare_eq_iff_eq.mp same)
    | file path file => exact found
  refine DiskStore.mem_loadShapes.mpr ⟨handle, row, kept, ?_⟩
  simp only [loadShape, changes]

theorem damaged_run (damages : List Damage) :
    ∀ disk : DiskStore, disk.Tidy chunkDir → disk.Small →
      let damaged := damages.foldl DiskStore.damaged disk
      damaged.Tidy chunkDir ∧ damaged.Small ∧ ∀ shape ∈ disk.loadShapes,
        (∀ damage ∈ damages, disk.Spared shape.handle damage) → shape ∈ damaged.loadShapes := by
  induction damages with
  | nil =>
      intro disk tidy small
      exact ⟨tidy, small, fun _ loaded _ => loaded⟩
  | cons damage rest hypothesis =>
      intro disk tidy small
      obtain ⟨tidyAfter, smallAfter, kept⟩ :=
        hypothesis _ (tidy.damaged damage) (small.damaged damage)
      refine ⟨tidyAfter, smallAfter, fun shape loaded spared => ?_⟩
      apply kept shape (loadShapes_spared loaded (spared damage List.mem_cons_self))
      intro later member
      have same := spared later (List.mem_cons_of_mem damage member)
      cases later with
      | row => exact same
      | file path file =>
          -- damage leaves the rows of the chunks as they are
          cases damage <;> exact same

end DiskStore

/-- Whatever saves have led to a disk, interrupted ones included, and whatever has befallen the
texts on it since, the manager starts from it.  The shapes that were spared are there, and
another start finds what this one leaves. -/
theorem damaged_disk_restarts [Digest] {chunkDir : String} {disk : DiskStore}
    (reachable : disk.Reachable chunkDir) (damages : List Damage) :
    let damaged := damages.foldl DiskStore.damaged disk
    ∃ manager : Manager DiskStore, Manager.newManager damaged = (.ok (), manager) ∧
      Hydrated damaged.loadShapes manager ∧
      (∀ shape ∈ disk.loadShapes, (∀ damage ∈ damages, disk.Spared shape.handle damage) →
        ∀ state, unmarshalState shape = some state →
          manager.byHandle[shape.handle]? = some state) ∧
      Manager.newManager manager.store = (.ok (), manager) := by
  intro damaged
  obtain ⟨tidy, small, kept⟩ :=
    DiskStore.damaged_run damages disk reachable.tidy reachable.small
  have held : Shapes.DiskHoldsRecords damaged damaged.loadShapes := .of_tidy tidy small
  obtain ⟨after, stored, loaded⟩ := newManager_hydrates diskStore_keeps held
  have left : ((damaged.loadShapes.map loadedState).foldl Manager.loadState
      { store := after }).store = after :=
    congrArg Manager.store (Manager.foldl_loadState_withStore _ { store := after } after)
  have hydrated := (Loaded.of_newManager diskStore_keeps stored).hydrated
  refine ⟨_, loaded, hydrated, fun shape known spared => ?_, ?_⟩
  · exact hydrated.decoded shape (kept shape known spared)
  · rw [left]
    exact newManager_hydrated diskStore_keeps stored

theorem oneChangeDisk_restarts :
    let path := "chunks/fa19db76c4_1/000000.json"
    (oneChangeDisk.files[path]?).isSome = true ∧
      ∃ manager : Manager DiskStore,
        Manager.newManager (oneChangeDisk.damaged (.file path none)) = (.ok (), manager) ∧
        Manager.newManager manager.store = (.ok (), manager) := by
  obtain ⟨manager, started, -, -, again⟩ := @damaged_disk_restarts tabulatedDigest _ _
    oneChangeDisk_reachable [.file "chunks/fa19db76c4_1/000000.json" none]
  exact ⟨by decide +kernel, manager, started, again⟩

end PostgresSync.Storage
