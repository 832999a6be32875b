/-
# Config.SideFile — loading and persisting the read-only storage side file

`LoadReadOnlyStorageConfig` reads the side file into the process-wide Config
State through its `ReadOnlyStorageSetter`; `PersistReadOnlyState` and the
handler's `persistBothToJSONAfterUnlock` read the file, overwrite both fields
and write it back with `MarshalIndent`. The two writers differ in one branch:
on a read error other than not-exist the handler logs it and writes over the
file, while `PersistReadOnlyState` returns the error. The handler's writer
returns nothing; its model returns the lines it logs and the disk it wrote.

`load_after_persist` is the round trip: whatever the file held before, a
successful persist followed by a load sets the read-only flag to the persisted
one, and the interval to the persisted one exactly when it is positive, the
omitted zero and the loader's `> 0` filter agreeing.
-/
import ReadOnlyStorage.Config.Json

namespace ReadOnlyStorage.Config

set_option autoImplicit false

/-! ## Config State and the disk -/

/-- The two atomics of `config.Config` behind `IsReadOnlyStorage` /
`SetReadOnlyStorage` and `SyncIntervalMinutes` / `SetSyncIntervalMinutes`. -/
structure ConfigState where
  readOnly : Bool
  syncIntervalMinutes : BitVec 64
  deriving DecidableEq, Repr

/-- What `os.ReadFile` finds at the side file's path. -/
inductive SideFile where
  | absent
  /-- present, but reading it fails with an error other than not-exist -/
  | unreadable (err : String)
  | contents (data : List Char)
  deriving DecidableEq, Repr

/-- The side file, and the error `os.WriteFile` would fail with, if any. -/
structure Disk where
  file : SideFile
  writeError : Option String
  deriving DecidableEq, Repr

/-- `os.WriteFile`: truncate, then write the whole document. -/
def Disk.write (disk : Disk) (data : List Char) : Except String Disk :=
  match disk.writeError with
  | some err => .error err
  | none => .ok { disk with file := .contents data }

/-- The document both writers start from when the file does not exist. -/
def defaultDocument : List Char := "\x7b\"read_only\": false\x7d".data

/-! ## `LoadReadOnlyStorageConfig` -/

/-- `LoadReadOnlyStorageConfig(setter, path)`: the setter's new state and the
returned error (`none` for nil). An unparsable file sets read-only to false. -/
def loadReadOnlyStorageConfig (setter : ConfigState) (disk : Disk) : ConfigState × Option String :=
  match disk.file with
  | .absent => ({ setter with readOnly := false }, none)
  | .unreadable err => (setter, some ("failed to read read-only storage config file: " ++ err))
  | .contents data =>
      match unmarshalConfig data with
      | .error e =>
          ({ setter with readOnly := false },
            some ("failed to parse read-only storage config: " ++ e.message))
      | .ok c =>
          ({ readOnly := c.readOnly
             syncIntervalMinutes :=
              if 0 < c.syncIntervalMinutes.toInt then c.syncIntervalMinutes
              else setter.syncIntervalMinutes }, none)

/-- A load of a document that decodes sets both settings from it, the interval
only when positive. -/
theorem loadReadOnlyStorageConfig_of_decoded (setter : ConfigState) (disk : Disk)
    (data : List Char) (c : ReadOnlyStorageConfig) (file : disk.file = .contents data)
    (decoded : unmarshalConfig data = .ok c) :
    loadReadOnlyStorageConfig setter disk =
      (⟨c.readOnly, if 0 < c.syncIntervalMinutes.toInt then c.syncIntervalMinutes
        else setter.syncIntervalMinutes⟩, none) := by
  simp [loadReadOnlyStorageConfig, file, decoded]

/-- A load of a file that does not decode turns read-only off. -/
theorem loadReadOnlyStorageConfig_of_invalid (setter : ConfigState) (disk : Disk)
    (data : List Char) (e : JsonError) (file : disk.file = .contents data)
    (invalid : unmarshalConfig data = .error e) :
    (loadReadOnlyStorageConfig setter disk).1 = { setter with readOnly := false } := by
  simp [loadReadOnlyStorageConfig, file, invalid]

/-- Reloading the file just loaded changes nothing. -/
theorem loadReadOnlyStorageConfig_twice (setter : ConfigState) (disk : Disk) :
    (loadReadOnlyStorageConfig (loadReadOnlyStorageConfig setter disk).1 disk).1 =
      (loadReadOnlyStorageConfig setter disk).1 := by
  rcases disk with ⟨_ | _ | data, _⟩
  case contents =>
    cases decoded : unmarshalConfig data <;> simp +contextual [loadReadOnlyStorageConfig, decoded]
  all_goals rfl

/-- The read at the top of `PersistReadOnlyState`: a missing file reads as the
default document, any other read error is returned. -/
def readForPersist (disk : Disk) : Except String (List Char) :=
  match disk.file with
  | .absent => .ok defaultDocument
  | .unreadable err => .error ("failed to read read-only storage config file: " ++ err)
  | .contents data => .ok data

/-- `PersistReadOnlyState(readOnly, syncIntervalMinutes, path)`. The
`MarshalIndent` error branch is dead: the struct always encodes. -/
def persistReadOnlyState (readOnly : Bool) (syncIntervalMinutes : BitVec 64) (disk : Disk) :
    Except String Disk := do
  let data ← readForPersist disk
  let _ ← (unmarshalConfig data).mapError
    fun e => "failed to parse read-only storage config: " ++ e.message
  (disk.write (marshalIndent ⟨readOnly, syncIntervalMinutes⟩)).mapError
    fun err => "failed to write updated read-only storage config: " ++ err

/-- The path the handler reads and writes. -/
def sideFilePath : List Char := "data/read_only_storage.json".data

/-- The handler's `persistBothToJSONAfterUnlock(readOnly, syncIntervalMinutes)`
on `sideFilePath`. It returns nothing: the model returns the lines it logs,
and the disk once it has written (`none` when it gives up first). A read
error other than not-exist is logged, and the default document read in the
file's place, as for a missing file. -/
def persistBothToJSONAfterUnlock (readOnly : Bool) (syncIntervalMinutes : BitVec 64)
    (disk : Disk) : List String × Option Disk :=
  let (readLog, data) := match disk.file with
    | .contents data => ([], data)
    | .absent => ([], defaultDocument)
    | .unreadable err => (["Failed to read read_only_storage.json: " ++ err], defaultDocument)
  match unmarshalConfig data with
  | .error e => (readLog ++ ["Failed to parse read_only_storage.json: " ++ e.message], none)
  | .ok _ =>
    match disk.write (marshalIndent ⟨readOnly, syncIntervalMinutes⟩) with
    | .error err => (readLog ++ ["Failed to write updated read-only storage config: " ++ err], none)
    | .ok disk => (readLog, some disk)

theorem defaultDocument_decodes : unmarshalConfig defaultDocument = .ok .zero := rfl

theorem Disk.write_eq_ok {disk disk' : Disk} {data : List Char} (written : disk.write data = .ok disk') :
    disk' = { disk with file := .contents data } := by
  unfold Disk.write at written
  split at written <;> cases written
  rfl

/-- A successful `PersistReadOnlyState` leaves exactly the marshalled pair in
the file. -/
theorem persistReadOnlyState_ok {readOnly : Bool} {m : BitVec 64} {disk disk' : Disk}
    (persisted : persistReadOnlyState readOnly m disk = .ok disk') :
    disk' = { disk with file := .contents (marshalIndent ⟨readOnly, m⟩) } := by
  unfold persistReadOnlyState at persisted
  obtain ⟨_, -, persisted⟩ := except_bind_eq_ok persisted
  obtain ⟨_, -, written⟩ := except_bind_eq_ok persisted
  exact Disk.write_eq_ok (except_mapError_eq_ok written)

theorem persistBothToJSONAfterUnlock_ok {readOnly : Bool} {m : BitVec 64} {disk disk' : Disk}
    (persisted : (persistBothToJSONAfterUnlock readOnly m disk).2 = some disk') :
    disk' = { disk with file := .contents (marshalIndent ⟨readOnly, m⟩) } := by
  unfold persistBothToJSONAfterUnlock at persisted
  -- the three reads, then the parse and the write
  split at persisted
  all_goals
    split at persisted
    · cases persisted
    · split at persisted
      · cases persisted
      · exact Disk.write_eq_ok ((Option.some.inj persisted) ▸ ‹_›)

/-! ## The round trip -/

/-- **Persist, then load**: for every flag, every 64-bit interval and every
prior file, once `PersistReadOnlyState` (or the handler's
`persistBothToJSONAfterUnlock`) has written, `LoadReadOnlyStorageConfig`
returns nil, sets read-only to the persisted flag, and sets the interval to the
persisted one when it is positive and leaves it alone otherwise. -/
theorem load_after_persist (readOnly : Bool) (m : BitVec 64) (disk : Disk) (setter : ConfigState) :
    (∀ disk', persistReadOnlyState readOnly m disk = .ok disk' →
      loadReadOnlyStorageConfig setter disk' =
        (⟨readOnly, if 0 < m.toInt then m else setter.syncIntervalMinutes⟩, none)) ∧
    (∀ disk', (persistBothToJSONAfterUnlock readOnly m disk).2 = some disk' →
      loadReadOnlyStorageConfig setter disk' =
        (⟨readOnly, if 0 < m.toInt then m else setter.syncIntervalMinutes⟩, none)) := by
  have load (disk' : Disk) (written : disk' = { disk with file := .contents (marshalIndent ⟨readOnly, m⟩) }) :=
    loadReadOnlyStorageConfig_of_decoded setter disk' _ ⟨readOnly, m⟩ (by rw [written])
      (unmarshalConfig_marshalIndent _)
  exact ⟨fun disk' persisted => load disk' (persistReadOnlyState_ok persisted),
    fun disk' persisted => load disk' (persistBothToJSONAfterUnlock_ok persisted)⟩

/-- `PersistReadOnlyState` over a missing file, and the handler's writer over
one it cannot read, which it logs and writes over. -/
theorem load_after_persist_absent_and_unreadable :
    persistReadOnlyState true 30 ⟨.absent, none⟩ = .ok ⟨.contents (marshalIndent ⟨true, 30⟩), none⟩ ∧
      loadReadOnlyStorageConfig ⟨false, 5⟩ ⟨.contents (marshalIndent ⟨true, 30⟩), none⟩ =
        (⟨true, if 0 < (30 : BitVec 64).toInt then 30 else 5⟩, none) ∧
      persistBothToJSONAfterUnlock false 10 ⟨.unreadable "permission denied", none⟩ =
        (["Failed to read read_only_storage.json: " ++ "permission denied"],
          some ⟨.contents (marshalIndent ⟨false, 10⟩), none⟩) ∧
      loadReadOnlyStorageConfig ⟨true, 5⟩ ⟨.contents (marshalIndent ⟨false, 10⟩), none⟩ =
        (⟨false, if 0 < (10 : BitVec 64).toInt then 10 else 5⟩, none) :=
  ⟨rfl, (load_after_persist true 30 ⟨.absent, none⟩ ⟨false, 5⟩).1 _ rfl, rfl,
    (load_after_persist false 10 ⟨.unreadable "permission denied", none⟩ ⟨true, 5⟩).2 _ rfl⟩

end ReadOnlyStorage.Config
