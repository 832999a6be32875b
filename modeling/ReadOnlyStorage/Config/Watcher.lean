/-
# Config.Watcher — the side file between its writers and the watcher

`os.WriteFile` opens the file with `O_TRUNC` and then writes the document at
offset 0: two steps, each a Write event for fsnotify when it changes the file.
The write lands over what the file holds, so when two writers both truncate
before either writes, a shorter document written last keeps the tail of the
longer one behind it. The watcher goroutine takes one event at a time, and
when the event's name is the path it was started with, runs
`LoadReadOnlyStorageConfig`, which reads the file whole and then calls the
setters: two steps again. fsnotify names an event by the cleaned directory and
the entry's name (`eventName`).

`Shared` is what these goroutines share, and its operations are used by the
control-plane model as well. `Files` runs writers with given documents against
the watcher started on a path:

* `reload_mid_write_turns_read_only_off`: a reload that reads the file between
  a truncation and its write sees `""`, which does not parse, and turns
  read-only off.
* `read_only_once_reloads_settle`: when every document has read-only on and
  each writer starts once the previous one has returned, read-only is off only
  while a reload is still to come (`ReadOnlyInv`). Writers that overlap can
  leave a file that does not decode, and read-only off in a settled state.
* `unwatched_path_never_reloads`: when the path has no directory part, or one
  that `Clean` changes, no event carries its name, and the atomics keep their
  values in every run.
* For a watched path `WatchInv` holds whatever the writers write: every change
  to the file but the truncation of an empty one raises an event, so a watcher
  that is idle with no event left has applied the file as it is
  (`caught_up_watcher_agrees`), and once the writers stop the watcher's own
  steps get it there (`watcher_catches_up`).
-/
import ReadOnlyStorage.Config.SideFile
import ReadOnlyStorage.Config.WatchedDir

namespace ReadOnlyStorage.Config

set_option autoImplicit false

/-! ## The shared state -/

/-- The watcher goroutine: waiting for an event, or inside
`LoadReadOnlyStorageConfig` with the file as it read it. -/
inductive Watcher where
  | idle
  | loaded (data : List Char)
  deriving DecidableEq, Repr

/-- The Config atomics, the side file, the Write events queued for its
directory's entry, and the watcher. -/
structure Shared where
  config : ConfigState
  file : List Char
  events : Nat
  watcher : Watcher
  deriving DecidableEq, Repr

/-- The `O_TRUNC` of `os.WriteFile`: an event when the file had contents. -/
def Shared.truncate (s : Shared) : Shared :=
  { s with file := [], events := s.events + if s.file = [] then 0 else 1 }

/-- The write of `os.WriteFile`, at offset 0 over what the file holds. -/
def Shared.write (s : Shared) (data : List Char) : Shared :=
  { s with file := data ++ s.file.drop data.length, events := s.events + 1 }

/-- The watcher takes the next event. It runs `LoadReadOnlyStorageConfig`,
whose first step reads the file, only when the event's name is the path it was
started with, and drops the event otherwise. -/
def Shared.take (s : Shared) (path : List Char) : Option Shared :=
  if s.watcher = .idle ∧ 0 < s.events then
    some { s with events := s.events - 1,
                  watcher := if eventName path = path then .loaded s.file else .idle }
  else none

/-- The setter calls that end `LoadReadOnlyStorageConfig`. -/
def Shared.apply (s : Shared) : Option Shared :=
  match s.watcher with
  | .loaded data =>
      some { s with config := (loadReadOnlyStorageConfig s.config ⟨.contents data, none⟩).1,
                    watcher := .idle }
  | .idle => none

section Shared

variable (s : Shared) (data : List Char)

@[simp] theorem Shared.truncate_file : s.truncate.file = [] := rfl
@[simp] theorem Shared.truncate_config : s.truncate.config = s.config := rfl
@[simp] theorem Shared.truncate_watcher : s.truncate.watcher = s.watcher := rfl
@[simp] theorem Shared.write_file : (s.write data).file = data ++ s.file.drop data.length := rfl
@[simp] theorem Shared.write_events : (s.write data).events = s.events + 1 := rfl
@[simp] theorem Shared.write_config : (s.write data).config = s.config := rfl
@[simp] theorem Shared.write_watcher : (s.write data).watcher = s.watcher := rfl

end Shared

/-- The handler's path is one the watcher sees. -/
theorem sideFilePath_watched : eventName sideFilePath = sideFilePath := by decide

/-- A take, by its guard. -/
theorem take_eq_some {s sh : Shared} {path : List Char} (taken : s.take path = some sh) :
    s.watcher = .idle ∧ 0 < s.events ∧
      sh = { s with events := s.events - 1,
                    watcher := if eventName path = path then .loaded s.file else .idle } := by
  unfold Shared.take at taken
  split at taken
  · next ready => exact ⟨ready.1, ready.2, (Option.some.inj taken).symm⟩
  · cases taken

theorem unmarshalConfig_ne_nil {data : List Char} {c : ReadOnlyStorageConfig}
    (decoded : unmarshalConfig data = .ok c) : data ≠ [] := by
  rintro rfl
  cases decoded

theorem marshalIndent_ne_nil (c : ReadOnlyStorageConfig) : marshalIndent c ≠ [] := by
  simp [marshalIndent]

/-- A reload of a decoded document sets the flag from it; a reload of `""`
turns it off and leaves the interval. -/
theorem apply_loaded {s s' : Shared} (applied : s.apply = some s') :
    s'.watcher = .idle ∧ s'.events = s.events ∧ s'.file = s.file ∧
    ∃ data, s.watcher = .loaded data ∧
      s'.config = (loadReadOnlyStorageConfig s.config ⟨.contents data, none⟩).1 := by
  unfold Shared.apply at applied
  split at applied
  · cases applied
    exact ⟨rfl, rfl, rfl, _, ‹_›, rfl⟩
  · cases applied

theorem load_empty (setter : ConfigState) :
    (loadReadOnlyStorageConfig setter ⟨.contents [], none⟩).1 = { setter with readOnly := false } :=
  loadReadOnlyStorageConfig_of_invalid setter _ [] unexpectedEnd rfl rfl

/-! ## Writers -/

/-- Where a call of `persistBothToJSONAfterUnlock` or `PersistReadOnlyState`
on the existing side file is. -/
inductive WriterPhase where
  /-- about to read and parse the file -/
  | reading
  | truncating
  | writing
  | done
  deriving DecidableEq, Repr

/-- A writer and the document it writes. -/
structure Writer where
  doc : ReadOnlyStorageConfig
  phase : WriterPhase
  deriving DecidableEq, Repr

/-- Where a writer goes once it has read the file: on when it parses, and
nowhere otherwise. -/
def afterRead (data : List Char) : WriterPhase :=
  match unmarshalConfig data with
  | .ok _ => .truncating
  | .error _ => .done

theorem afterRead_ne_writing (data : List Char) : afterRead data ≠ .writing := by
  unfold afterRead
  split <;> decide

/-- A writer's next step. -/
def writerStep (s : Shared) (w : Writer) : Option (Shared × WriterPhase) :=
  match w.phase with
  | .reading => some (s, afterRead s.file)
  | .truncating => some (s.truncate, .writing)
  | .writing => some (s.write (marshalIndent w.doc), .done)
  | .done => none

/-- A writer touches the file and the events only. -/
theorem writerStep_config_watcher {s sh : Shared} {w : Writer} {p : WriterPhase}
    (stepped : writerStep s w = some (sh, p)) : sh.config = s.config ∧ sh.watcher = s.watcher := by
  unfold writerStep at stepped
  split at stepped <;> cases stepped <;> exact ⟨rfl, rfl⟩

/-! ## Writers against the watcher -/

/-- The shared state and every writer started so far. -/
structure Files where
  shared : Shared
  writers : List Writer
  deriving DecidableEq, Repr

inductive Files.Label where
  /-- a writer starts with its document -/
  | spawn (doc : ReadOnlyStorageConfig)
  | writer (i : Nat)
  | take
  | apply
  deriving DecidableEq, Repr

/-- Every writer started so far has returned. -/
def Files.quiet (s : Files) : Bool := s.writers.all fun w => w.phase == .done

/-- One step of the writers and of the watcher started on `path`. `writes`
says which documents writers may write; with `serial`, a writer starts only
once every earlier one has returned. -/
def Files.next (path : List Char) (writes : ReadOnlyStorageConfig → Bool) (serial : Bool)
    (s : Files) : Files.Label → Option Files
  | .spawn doc =>
    if writes doc && (!serial || s.quiet) then some { s with writers := s.writers ++ [⟨doc, .reading⟩] }
    else none
  | .writer i => match s.writers[i]? with
    | some w => (writerStep s.shared w).map fun (sh, p) =>
        { shared := sh, writers := s.writers.set i { w with phase := p } }
    | none => none
  | .take => (s.shared.take path).map fun sh => { s with shared := sh }
  | .apply => s.shared.apply.map fun sh => { s with shared := sh }

inductive Files.Reachable (path : List Char) (writes : ReadOnlyStorageConfig → Bool) (serial : Bool)
    (init : Files) : Files → Prop where
  | init : Files.Reachable path writes serial init init
  | step {s s' : Files} (label : Files.Label) :
      Files.Reachable path writes serial init s → Files.next path writes serial s label = some s' →
      Files.Reachable path writes serial init s'

def Files.exec (path : List Char) (writes : ReadOnlyStorageConfig → Bool) (serial : Bool) :
    Files → List Files.Label → Option Files
  | s, [] => some s
  | s, label :: rest =>
    (Files.next path writes serial s label).bind fun s' => Files.exec path writes serial s' rest

/-- The side file and the atomics before any writer starts. -/
def Files.start (config : ConfigState) (file : List Char) : Files := ⟨⟨config, file, 0, .idle⟩, []⟩

/-- The writers between their truncation and their write. -/
def Files.midWrite (s : Files) : Nat := s.writers.countP fun w => w.phase == .writing

/-- The writers that have started and not returned. -/
def Files.active (s : Files) : Nat := s.writers.countP fun w => w.phase != .done

section Run

variable {path : List Char} {writes : ReadOnlyStorageConfig → Bool} {serial : Bool}

theorem Files.reachable_of_exec {init : Files} :
    ∀ {s s' : Files} (labels : List Files.Label),
      Files.Reachable path writes serial init s → Files.exec path writes serial s labels = some s' →
      Files.Reachable path writes serial init s'
  | _, _, [], reach, ran => by cases ran; exact reach
  | s, _, label :: rest, reach, ran => by
    simp only [Files.exec, Option.bind_eq_some] at ran
    obtain ⟨s₁, stepped, ran⟩ := ran
    exact Files.reachable_of_exec rest (.step label reach stepped) ran

/-- Every step, by its label. -/
theorem Files.next_cases {s s' : Files} {label : Files.Label}
    (stepped : Files.next path writes serial s label = some s') :
    (∃ doc, writes doc = true ∧ (serial = true → s.quiet = true) ∧
      s' = { s with writers := s.writers ++ [⟨doc, .reading⟩] }) ∨
    (∃ i w sh p, s.writers[i]? = some w ∧ writerStep s.shared w = some (sh, p) ∧
      s' = { shared := sh, writers := s.writers.set i { w with phase := p } }) ∨
    (∃ sh, s.shared.take path = some sh ∧ s' = { s with shared := sh }) ∨
    (∃ sh, s.shared.apply = some sh ∧ s' = { s with shared := sh }) := by
  cases label with
  | spawn doc =>
    simp only [Files.next] at stepped
    split at stepped
    · next allowed =>
      simp only [Bool.and_eq_true, Bool.or_eq_true, Bool.not_eq_true'] at allowed
      exact .inl ⟨doc, allowed.1, fun ser => allowed.2.resolve_left (by simp [ser]),
        (Option.some.inj stepped).symm⟩
    · cases stepped
  | writer i =>
    simp only [Files.next] at stepped
    split at stepped
    · next w found =>
      obtain ⟨⟨sh, p⟩, moved, rfl⟩ := Option.map_eq_some'.mp stepped
      exact .inr (.inl ⟨i, w, sh, p, found, moved, rfl⟩)
    · cases stepped
  | take =>
    obtain ⟨sh, taken, rfl⟩ := Option.map_eq_some'.mp stepped
    exact .inr (.inr (.inl ⟨sh, taken, rfl⟩))
  | apply =>
    obtain ⟨sh, applied, rfl⟩ := Option.map_eq_some'.mp stepped
    exact .inr (.inr (.inr ⟨sh, applied, rfl⟩))

end Run

/-! ## Counting writers -/

section Count

variable (s : Files) {i : Nat} {w : Writer} (found : s.writers[i]? = some w) (sh : Shared)
  (p : WriterPhase)
include found

/-- A writer's step moves the count of writers mid-write by its phases. -/
theorem midWrite_set :
    ({ shared := sh, writers := s.writers.set i { w with phase := p } } : Files).midWrite =
      s.midWrite - (if w.phase = .writing then 1 else 0) + (if p = .writing then 1 else 0) := by
  obtain ⟨lt, rfl⟩ := List.getElem?_eq_some_iff.mp found
  simp [Files.midWrite, List.countP_set _ _ _ _ lt]

/-- A writer's step moves the count of active writers by its phases. -/
theorem active_set :
    ({ shared := sh, writers := s.writers.set i { w with phase := p } } : Files).active =
      s.active - (if w.phase = .done then 0 else 1) + (if p = .done then 0 else 1) := by
  obtain ⟨lt, rfl⟩ := List.getElem?_eq_some_iff.mp found
  simp only [Files.active, List.countP_set _ _ _ _ lt, bne_iff_ne, ne_eq, decide_eq_true_eq,
    ite_not]

theorem midWrite_keep {p : WriterPhase} (before : w.phase ≠ .writing) (after : p ≠ .writing) :
    ({ shared := sh, writers := s.writers.set i { w with phase := p } } : Files).midWrite = s.midWrite := by
  rw [midWrite_set s found sh p, if_neg before, if_neg after]
  rfl

theorem midWrite_pos (writing : w.phase = .writing) : 0 < s.midWrite := by
  obtain ⟨lt, rfl⟩ := List.getElem?_eq_some_iff.mp found
  have := List.boole_getElem_le_countP (fun w : Writer => w.phase == .writing) s.writers i lt
  simp only [writing, beq_self_eq_true, if_true] at this
  exact this

end Count

theorem Files.midWrite_le_active (s : Files) : s.midWrite ≤ s.active :=
  List.countP_mono_left fun w _ writing => by simp_all

/-! ## Read-only documents, one writer at a time -/

/-- A document that decodes with read-only on. -/
def ReadOnlyDoc (data : List Char) : Prop :=
  ∃ c, unmarshalConfig data = .ok c ∧ c.readOnly = true

/-- What holds while every writer writes a read-only document and starts only
once the previous one has returned: the file is empty exactly while the one
active writer is between its truncation and its write. -/
structure ReadOnlyInv (s : Files) : Prop where
  docs : ∀ w ∈ s.writers, w.doc.readOnly = true
  active : s.active ≤ 1
  file : s.shared.file = [] ∨ ReadOnlyDoc s.shared.file
  emptied : s.shared.file = [] ↔ 0 < s.midWrite
  loadedEmpty : s.shared.watcher = .loaded [] → 0 < s.midWrite ∨ 0 < s.shared.events
  loadedDoc : ∀ data, s.shared.watcher = .loaded data → data = [] ∨ ReadOnlyDoc data
  readOnly : s.shared.config.readOnly = true ∨ 0 < s.midWrite ∨ 0 < s.shared.events ∨
    ∃ data, s.shared.watcher = .loaded data ∧ data ≠ []

theorem readOnlyDoc_marshalIndent {c : ReadOnlyStorageConfig} (enabled : c.readOnly = true) :
    ReadOnlyDoc (marshalIndent c) :=
  ⟨c, unmarshalConfig_marshalIndent c, enabled⟩

section Steps

variable {path : List Char} {s : Files}

theorem readOnlyInv_writer {i : Nat} {w : Writer} {sh : Shared} {p : WriterPhase} (inv : ReadOnlyInv s)
    (found : s.writers[i]? = some w) (stepped : writerStep s.shared w = some (sh, p)) :
    ReadOnlyInv { shared := sh, writers := s.writers.set i { w with phase := p } } := by
  have counted := midWrite_set s found sh p
  have active : ({ shared := sh, writers := s.writers.set i { w with phase := p } } : Files).active ≤ 1 := by
    -- the writer that steps was active, so the count cannot grow
    have returned : w.phase ≠ .done := fun done => by simp [writerStep, done] at stepped
    have := inv.active
    rw [active_set s found sh p, if_neg returned]
    split <;> omega
  have docs : ∀ w' ∈ s.writers.set i { w with phase := p }, w'.doc.readOnly = true := fun w' member => by
    rcases List.mem_or_eq_of_mem_set member with member | rfl
    · exact inv.docs w' member
    · exact inv.docs w (List.getElem?_mem found)
  unfold writerStep at stepped
  split at stepped
  · -- reading: the shared state is untouched, and no one is mid-write anew
    next reading =>
    obtain ⟨rfl, rfl⟩ := Prod.mk.inj (Option.some.inj stepped)
    have same := midWrite_keep s found s.shared (by rw [reading]; decide) (afterRead_ne_writing s.shared.file)
    exact ⟨docs, active, inv.file, same ▸ inv.emptied, same ▸ inv.loadedEmpty, inv.loadedDoc,
      same ▸ inv.readOnly⟩
  · -- truncating: the file is emptied and the writer is mid-write
    next truncating =>
    obtain ⟨rfl, rfl⟩ := Prod.mk.inj (Option.some.inj stepped)
    have more : 0 < ({ shared := s.shared.truncate, writers := s.writers.set i { w with phase := .writing } } : Files).midWrite := by
      rw [counted, truncating]; simp
    exact ⟨docs, active, .inl rfl, iff_of_true rfl more, fun _ => .inl more, inv.loadedDoc, .inr (.inl more)⟩
  · -- writing: the file is empty, so the document lands whole, and no writer
    -- is left mid-write
    next writing =>
    obtain ⟨rfl, rfl⟩ := Prod.mk.inj (Option.some.inj stepped)
    have mid := midWrite_pos s found writing
    have empty : s.shared.file = [] := inv.emptied.2 mid
    have one : s.midWrite = 1 := le_antisymm (s.midWrite_le_active.trans inv.active) mid
    have landed : (s.shared.write (marshalIndent w.doc)).file = marshalIndent w.doc := by
      rw [Shared.write_file, empty, List.drop_nil, List.append_nil]
    have event : 0 < (s.shared.write (marshalIndent w.doc)).events := Nat.succ_pos _
    refine ⟨docs, active, .inr ?_, ?_, fun _ => .inr event, inv.loadedDoc, .inr (.inr (.inl event))⟩
    · rw [landed]
      exact readOnlyDoc_marshalIndent (inv.docs w (List.getElem?_mem found))
    · rw [landed, counted, writing, one]
      exact iff_of_false (marshalIndent_ne_nil _) (Nat.lt_irrefl 0)
  · cases stepped

theorem readOnlyInv_take {sh : Shared} (watched : eventName path = path) (inv : ReadOnlyInv s)
    (taken : s.shared.take path = some sh) : ReadOnlyInv { s with shared := sh } := by
  obtain ⟨-, -, rfl⟩ := take_eq_some taken
  rw [if_pos watched]
  refine ⟨inv.docs, inv.active, inv.file, inv.emptied, fun loaded => ?_, fun data loaded => ?_, ?_⟩
  · exact .inl (inv.emptied.1 (Watcher.loaded.inj loaded))
  · cases loaded
    exact inv.file
  · by_cases empty : s.shared.file = []
    · exact .inr (.inl (inv.emptied.1 empty))
    · exact .inr (.inr (.inr ⟨_, rfl, empty⟩))

theorem readOnlyInv_apply {sh : Shared} (inv : ReadOnlyInv s) (applied : s.shared.apply = some sh) :
    ReadOnlyInv { s with shared := sh } := by
  obtain ⟨idle, events, file, data, loaded, config⟩ := apply_loaded applied
  refine ⟨inv.docs, inv.active, file ▸ inv.file, file ▸ inv.emptied,
    fun stuck => (by rw [idle] at stuck; cases stuck), fun _ stuck => (by rw [idle] at stuck; cases stuck), ?_⟩
  show sh.config.readOnly = true ∨ 0 < s.midWrite ∨ 0 < sh.events ∨ _
  rw [events, config]
  rcases inv.loadedDoc data loaded with rfl | ⟨c, decoded, enabled⟩
  · rcases inv.loadedEmpty loaded with writing | event
    · exact .inr (.inl writing)
    · exact .inr (.inr (.inl event))
  · exact .inl (by
      simp [loadReadOnlyStorageConfig_of_decoded s.shared.config ⟨.contents data, none⟩ data c rfl decoded,
        enabled])

theorem readOnlyInv_spawn {doc : ReadOnlyStorageConfig} (inv : ReadOnlyInv s) (enabled : doc.readOnly = true)
    (quiet : s.quiet = true) : ReadOnlyInv { s with writers := s.writers ++ [⟨doc, .reading⟩] } := by
  have same : ({ s with writers := s.writers ++ [⟨doc, .reading⟩] } : Files).midWrite = s.midWrite := by
    simp [Files.midWrite, List.countP_append]
  have idle : s.active = 0 := List.countP_eq_zero.2 fun w member busy => by
    have := List.all_eq_true.1 quiet w member
    simp_all
  refine ⟨fun w member => ?_, ?_, inv.file, same ▸ inv.emptied, same ▸ inv.loadedEmpty, inv.loadedDoc,
    same ▸ inv.readOnly⟩
  · rcases List.mem_append.mp member with member | member
    · exact inv.docs w member
    · simp only [List.mem_singleton] at member; subst member; exact enabled
  · show (s.writers ++ [({ doc := doc, phase := .reading } : Writer)]).countP _ ≤ 1
    rw [List.countP_append]
    exact Nat.add_le_add (Nat.le_of_eq idle) (List.countP_le_length _)

end Steps

theorem readOnlyInv_step {path : List Char} {s s' : Files} {label : Files.Label}
    (watched : eventName path = path) (inv : ReadOnlyInv s)
    (stepped : Files.next path (fun doc => doc.readOnly) true s label = some s') : ReadOnlyInv s' := by
  obtain ⟨doc, enabled, quiet, rfl⟩ | ⟨i, w, sh, p, found, moved, rfl⟩ | ⟨sh, taken, rfl⟩ | ⟨sh, applied, rfl⟩ :=
    Files.next_cases stepped
  · exact readOnlyInv_spawn inv enabled (quiet rfl)
  · exact readOnlyInv_writer inv found moved
  · exact readOnlyInv_take watched inv taken
  · exact readOnlyInv_apply inv applied

theorem readOnlyInv_reachable {path : List Char} (watched : eventName path = path) {config : ConfigState}
    {file : List Char} (enabled : config.readOnly = true) (onFile : ReadOnlyDoc file) {s : Files}
    (reach : Files.Reachable path (fun doc => doc.readOnly) true (Files.start config file) s) :
    ReadOnlyInv s := by
  induction reach with
  | init =>
    have present : file ≠ [] := by obtain ⟨c, decoded, -⟩ := onFile; exact unmarshalConfig_ne_nil decoded
    exact ⟨fun _ member => (nomatch member), Nat.zero_le 1, .inr onFile, iff_of_false present (Nat.lt_irrefl 0),
      fun stuck => (nomatch stuck), fun _ stuck => (nomatch stuck), .inl enabled⟩
  | step _ _ stepped inv => exact readOnlyInv_step watched inv stepped

/-! ## A path the watcher never sees -/

/-- While no event carries the path's name, the watcher stays idle and the
atomics keep their values. -/
theorem unwatched_reachable {path : List Char} {writes : ReadOnlyStorageConfig → Bool} {serial : Bool}
    (unwatched : eventName path ≠ path) {config : ConfigState} {file : List Char} {s : Files}
    (reach : Files.Reachable path writes serial (Files.start config file) s) :
    s.shared.config = config ∧ s.shared.watcher = .idle := by
  induction reach with
  | init => exact ⟨rfl, rfl⟩
  | step _ _ stepped kept =>
    obtain ⟨_, _, _, rfl⟩ | ⟨_, _, _, _, _, moved, rfl⟩ | ⟨_, taken, rfl⟩ | ⟨_, applied, rfl⟩ :=
      Files.next_cases stepped
    · exact kept
    · obtain ⟨config, watcher⟩ := writerStep_config_watcher moved
      exact ⟨config.trans kept.1, watcher.trans kept.2⟩
    · obtain ⟨-, -, rfl⟩ := take_eq_some taken
      exact ⟨kept.1, if_neg unwatched⟩
    · obtain ⟨-, -, -, data, loaded, -⟩ := apply_loaded applied
      rw [kept.2] at loaded
      cases loaded

/-- **The watcher misses every change to a path it does not name.** When the
path has no separator, or its directory part is not what `Clean` makes of it
(a file directly under the root, `./data/x`, `data//x`), no event carries the
path's name. Then for writers with any documents, overlapping or not,
`IsReadOnlyStorage()` and `SyncIntervalMinutes()` keep their values in every
reachable state, whatever the side file comes to hold. -/
theorem unwatched_path_never_reloads (path : List Char)
    (unwatched : '/' ∉ path ∨ clean (getDirFromPath path) ≠ getDirFromPath path)
    (writes : ReadOnlyStorageConfig → Bool) (serial : Bool) (config : ConfigState) (file : List Char)
    (s : Files) (reach : Files.Reachable path writes serial (Files.start config file) s) :
    s.shared.config = config :=
  (unwatched_reachable (fun named => by
    rcases unwatched with noSep | changed
    exacts [noSep ((eventName_eq_iff path).1 named).1, changed ((eventName_eq_iff path).1 named).2]) reach).1

/-- The document `PersistReadOnlyState(true, 30, path)` writes. -/
def readOnlyDocument : List Char := marshalIndent ⟨true, 30⟩

/-- The same write, its two events taken and dropped. -/
def writeThenTakes : List Files.Label := [.spawn ⟨false, 10⟩, .writer 0, .writer 0, .writer 0, .take, .take]

theorem unwatched_path_never_reloads_bare_name :
    ('/' ∉ "read_only_storage.json".data ∨
        clean (getDirFromPath "read_only_storage.json".data) ≠ getDirFromPath "read_only_storage.json".data) ∧
      ∃ s, Files.exec "read_only_storage.json".data (fun _ => true) false
          (Files.start ⟨true, 30⟩ readOnlyDocument) writeThenTakes = some s ∧
        s.shared.file = marshalIndent ⟨false, 10⟩ ∧ s.shared.events = 0 ∧ s.shared.config = ⟨true, 30⟩ :=
  ⟨.inl (by decide), _, rfl, rfl, rfl, unwatched_path_never_reloads "read_only_storage.json".data
    (.inl (by decide)) (fun _ => true) false ⟨true, 30⟩ readOnlyDocument _
    (Files.reachable_of_exec writeThenTakes .init rfl)⟩

/-! ## Read-only holds once the reloads settle -/

/-- **Read-only holds once the reloads settle.** Start from a side file that
decodes with read-only on and the flag on, and let writers write only
documents with read-only on, each starting once the previous one has
returned, interleaved in any way with the watcher started on any path. In
every reachable state where no writer is between its truncation and its
write, no event is queued and the watcher is idle, `IsReadOnlyStorage()` is
true. -/
theorem read_only_once_reloads_settle (path : List Char) (config : ConfigState) (file : List Char)
    (enabled : config.readOnly = true) (onFile : ReadOnlyDoc file) (s : Files)
    (reach : Files.Reachable path (fun doc => doc.readOnly) true (Files.start config file) s)
    (noneMidWrite : ∀ w ∈ s.writers, w.phase ≠ .writing) (noEvents : s.shared.events = 0)
    (idle : s.shared.watcher = .idle) :
    s.shared.config.readOnly = true := by
  by_cases watched : eventName path = path
  · have none_mid : s.midWrite = 0 :=
      List.countP_eq_zero.mpr fun w member writing => noneMidWrite w member (by simpa using writing)
    rcases (readOnlyInv_reachable watched enabled onFile reach).readOnly with still | mid | event | ⟨data, loaded, -⟩
    · exact still
    · omega
    · omega
    · rw [idle] at loaded; cases loaded
  · rw [(unwatched_reachable watched reach).1]
    exact enabled

/-- One writer truncates; the watcher takes the event and reloads before the
write. -/
def midWriteReload : List Files.Label := [.spawn ⟨true, 30⟩, .writer 0, .writer 0, .take, .apply]

theorem reload_mid_write_turns_read_only_off :
    ∃ s, Files.exec sideFilePath (fun doc => doc.readOnly) true (Files.start ⟨true, 30⟩ readOnlyDocument)
        midWriteReload = some s ∧ s.shared.config.readOnly = false :=
  ⟨_, rfl, rfl⟩

/-- The write lands and its event is reloaded. -/
def writeThenReload : List Files.Label := midWriteReload ++ [.writer 0, .take, .apply]

theorem read_only_once_reloads_settle_after_write :
    ∃ s, Files.exec sideFilePath (fun doc => doc.readOnly) true (Files.start ⟨true, 30⟩ readOnlyDocument)
        writeThenReload = some s ∧ s.shared.config.readOnly = true :=
  ⟨_, rfl, read_only_once_reloads_settle sideFilePath ⟨true, 30⟩ readOnlyDocument rfl
    (readOnlyDoc_marshalIndent rfl) _ (Files.reachable_of_exec writeThenReload .init rfl)
    (by decide) rfl rfl⟩

/-- Two writers that overlap: both truncate, then `(true, 30)` lands and
`(true, 5)`, one byte shorter, lands over it. The file keeps the longer
document's last brace, does not decode, and its reload turns read-only off
with every writer returned and nothing left to reload. -/
def overlappingWrites : List Files.Label :=
  [.spawn ⟨true, 30⟩, .spawn ⟨true, 5⟩, .writer 0, .writer 1, .writer 0, .writer 1, .writer 0, .writer 1,
    .take, .apply, .take, .apply, .take, .apply]

example : ∃ s, Files.exec sideFilePath (fun doc => doc.readOnly) false
      (Files.start ⟨true, 30⟩ readOnlyDocument) overlappingWrites = some s ∧
    s.shared.file = marshalIndent ⟨true, 5⟩ ++ ['}'] ∧ s.quiet ∧ s.shared.events = 0 ∧
    s.shared.watcher = .idle ∧ s.shared.config.readOnly = false :=
  ⟨_, rfl, rfl, rfl, rfl, rfl, rfl⟩

/-! ## A caught-up watcher agrees with the file -/

/-- What holds whatever the writers write: a watcher with no event left to
take has applied the file as it is, and a read taken after the last change is
of the file as it is. -/
structure WatchInv (s : Shared) : Prop where
  agrees : s.watcher = .idle → s.events = 0 →
    (loadReadOnlyStorageConfig s.config ⟨.contents s.file, none⟩).1 = s.config
  current : ∀ data, s.watcher = .loaded data → s.events = 0 → data = s.file

section Watch

variable {path : List Char} {s : Shared}

/-- With an event queued there is nothing to agree on yet. -/
theorem WatchInv.of_pending (pending : 0 < s.events) : WatchInv s :=
  ⟨fun _ drained => absurd drained (by omega), fun _ _ drained => absurd drained (by omega)⟩

theorem watchInv_truncate (inv : WatchInv s) : WatchInv s.truncate := by
  by_cases empty : s.file = []
  · -- truncating an empty file changes nothing, and fsnotify sees no event
    have same : s.truncate = s := by cases s; simp_all [Shared.truncate]
    exact same ▸ inv
  · exact .of_pending (by simp [Shared.truncate, empty])

theorem watchInv_take {sh : Shared} (watched : eventName path = path) (taken : s.take path = some sh) :
    WatchInv sh := by
  obtain ⟨-, -, rfl⟩ := take_eq_some taken
  rw [if_pos watched]
  exact ⟨fun idle => (nomatch idle), fun _ loaded _ => (Watcher.loaded.inj loaded).symm⟩

theorem watchInv_apply {sh : Shared} (inv : WatchInv s) (applied : s.apply = some sh) :
    WatchInv sh := by
  obtain ⟨idle, events, file, data, loaded, config⟩ := apply_loaded applied
  refine ⟨fun _ drained => ?_, fun _ stuck => by rw [idle] at stuck; cases stuck⟩
  have current : data = s.file := inv.current data loaded (events ▸ drained)
  rw [file, config, current, loadReadOnlyStorageConfig_twice]

theorem watchInv_writerStep {w : Writer} {sh : Shared} {p : WriterPhase} (inv : WatchInv s)
    (stepped : writerStep s w = some (sh, p)) : WatchInv sh := by
  unfold writerStep at stepped
  split at stepped <;> cases stepped
  · exact inv
  · exact watchInv_truncate inv
  · exact .of_pending (by simp)

end Watch

section WatchRun

variable {path : List Char} {writes : ReadOnlyStorageConfig → Bool} {serial : Bool}

theorem watchInv_step {s s' : Files} {label : Files.Label} (watched : eventName path = path)
    (inv : WatchInv s.shared) (stepped : Files.next path writes serial s label = some s') :
    WatchInv s'.shared := by
  obtain ⟨_, _, _, rfl⟩ | ⟨_, _, _, _, _, moved, rfl⟩ | ⟨_, taken, rfl⟩ | ⟨_, applied, rfl⟩ :=
    Files.next_cases stepped
  · exact inv
  · exact watchInv_writerStep inv moved
  · exact watchInv_take watched taken
  · exact watchInv_apply inv applied

theorem watchInv_reachable (watched : eventName path = path) {config : ConfigState} {file : List Char}
    (loaded : (loadReadOnlyStorageConfig config ⟨.contents file, none⟩).1 = config) {s : Files}
    (reach : Files.Reachable path writes serial (Files.start config file) s) : WatchInv s.shared := by
  induction reach with
  | init => exact ⟨fun _ _ => loaded, fun _ stuck => nomatch stuck⟩
  | step _ _ stepped inv => exact watchInv_step watched inv stepped

end WatchRun

/-- A state the loader leaves as it is holds the file's flag, off when the file
does not decode, and the file's interval when that is positive. -/
theorem load_fixed {config : ConfigState} {data : List Char}
    (fixed : (loadReadOnlyStorageConfig config ⟨.contents data, none⟩).1 = config) :
    (∀ c, unmarshalConfig data = .ok c → config.readOnly = c.readOnly ∧
      (0 < c.syncIntervalMinutes.toInt → config.syncIntervalMinutes = c.syncIntervalMinutes)) ∧
    (∀ e, unmarshalConfig data = .error e → config.readOnly = false) := by
  refine ⟨fun c decoded => ?_, fun e invalid => ?_⟩
  · rw [loadReadOnlyStorageConfig_of_decoded config _ data c rfl decoded] at fixed
    rw [← fixed]
    exact ⟨rfl, fun pos => if_pos pos⟩
  · rw [loadReadOnlyStorageConfig_of_invalid config _ data e rfl invalid] at fixed
    rw [← fixed]

/-- **A caught-up watcher agrees with the side file.** Start the watcher on a
path whose events carry its name, from atomics that a load of the file leaves
as they are, and let writers write any documents, overlapping or not,
interleaved in any way with the watcher. In every reachable state where the
watcher is idle with no event left to take, `IsReadOnlyStorage()` is the
file's flag, false when the file does not decode, and `SyncIntervalMinutes()`
is the file's interval whenever that is positive: no change to the file is
missed, since every change but truncating an empty file raises an event. -/
theorem caught_up_watcher_agrees (path : List Char) (watched : eventName path = path)
    (writes : ReadOnlyStorageConfig → Bool) (serial : Bool) (config : ConfigState)
    (file : List Char) (loaded : (loadReadOnlyStorageConfig config ⟨.contents file, none⟩).1 = config)
    (s : Files) (reach : Files.Reachable path writes serial (Files.start config file) s)
    (idle : s.shared.watcher = .idle) (drained : s.shared.events = 0) :
    (∀ c, unmarshalConfig s.shared.file = .ok c → s.shared.config.readOnly = c.readOnly ∧
      (0 < c.syncIntervalMinutes.toInt →
        s.shared.config.syncIntervalMinutes = c.syncIntervalMinutes)) ∧
    (∀ e, unmarshalConfig s.shared.file = .error e → s.shared.config.readOnly = false) :=
  load_fixed ((watchInv_reachable watched loaded reach).agrees idle drained)

/-- A writer replaces the document `(true, 30)` with `(false, 10)`; the
watcher takes the truncation's event and then the write's. -/
def writeOverDocument : List Files.Label :=
  [.spawn ⟨false, 10⟩, .writer 0, .writer 0, .writer 0, .take, .apply, .take, .apply]

theorem caught_up_watcher_agrees_after_write :
    eventName sideFilePath = sideFilePath ∧
      Files.exec sideFilePath (fun _ => true) false (Files.start ⟨true, 30⟩ readOnlyDocument)
          writeOverDocument = some ⟨⟨⟨false, 10⟩, marshalIndent ⟨false, 10⟩, 0, .idle⟩, [⟨⟨false, 10⟩, .done⟩]⟩ ∧
      (∀ c, unmarshalConfig (marshalIndent ⟨false, 10⟩) = .ok c → false = c.readOnly ∧
        (0 < c.syncIntervalMinutes.toInt → (10 : BitVec 64) = c.syncIntervalMinutes)) ∧
      (∀ e, unmarshalConfig (marshalIndent ⟨false, 10⟩) = .error e → false = false) :=
  ⟨sideFilePath_watched, rfl, caught_up_watcher_agrees sideFilePath sideFilePath_watched (fun _ => true)
    false ⟨true, 30⟩ readOnlyDocument rfl _ (Files.reachable_of_exec writeOverDocument .init rfl) rfl rfl⟩

/-! ## Once the writers stop, the watcher catches up -/

section Drain

variable {path : List Char} {writes : ReadOnlyStorageConfig → Bool} {serial : Bool}

/-- An idle watcher takes and reloads every queued event, the file staying as
it is. -/
theorem drain_idle (watched : eventName path = path) (n : Nat) : ∀ (s : Files),
    s.shared.watcher = .idle → s.shared.events = n →
    ∃ labels s', (∀ label ∈ labels, label = .take ∨ label = .apply) ∧
      Files.exec path writes serial s labels = some s' ∧ s'.shared.watcher = .idle ∧
      s'.shared.events = 0 ∧ s'.shared.file = s.shared.file := by
  induction n with
  | zero => exact fun s idle noneLeft => ⟨[], s, fun _ member => (nomatch member), rfl, idle, noneLeft, rfl⟩
  | succ n ih =>
    intro s idle queued
    -- one take and its reload, then the rest
    obtain ⟨labels, s', own, ran, rest⟩ := ih
      { s with shared := { s.shared with
          events := n, watcher := .idle,
          config := (loadReadOnlyStorageConfig s.shared.config ⟨.contents s.shared.file, none⟩).1 } }
      rfl rfl
    have took : Files.next path writes serial s .take =
        some { s with shared := { s.shared with events := n, watcher := .loaded s.shared.file } } := by
      simp [Files.next, Shared.take, idle, queued, watched]
    refine ⟨.take :: .apply :: labels, s', fun label member => ?_, ?_, rest⟩
    · rcases List.mem_cons.mp member with rfl | member
      · exact .inl rfl
      rcases List.mem_cons.mp member with rfl | member
      · exact .inr rfl
      · exact own label member
    · rw [Files.exec, took, Option.some_bind]
      exact ran

/-- Whatever the watcher is doing, its own steps drain every queued event. -/
theorem drain (watched : eventName path = path) (s : Files) :
    ∃ labels s', (∀ label ∈ labels, label = .take ∨ label = .apply) ∧
      Files.exec path writes serial s labels = some s' ∧ s'.shared.watcher = .idle ∧
      s'.shared.events = 0 ∧ s'.shared.file = s.shared.file := by
  cases watching : s.shared.watcher with
  | idle => exact drain_idle watched _ s watching rfl
  | loaded data =>
    -- finish the reload under way first
    obtain ⟨labels, s', own, ran, idle, noneLeft, file⟩ := @drain_idle _ writes serial
      watched _
      { s with shared := { s.shared with
          watcher := .idle,
          config := (loadReadOnlyStorageConfig s.shared.config ⟨.contents data, none⟩).1 } } rfl rfl
    refine ⟨.apply :: labels, s', fun label member => ?_, ?_, idle, noneLeft, file⟩
    · rcases List.mem_cons.mp member with rfl | member
      · exact .inr rfl
      · exact own label member
    · simp only [Files.exec, Files.next, Shared.apply, watching, Option.map_some', Option.some_bind]
      exact ran

end Drain

/-- **Once the writers stop, the watcher catches up.** Start the watcher on a
path whose events carry its name, from atomics that a load of the side file
leaves as they are, and let writers with any documents run, overlapping or
not, interleaved in any way with the watcher. From every reachable state, the
watcher's own steps alone, each a take of a queued event or a reload, reach a
state with the same side file in which `IsReadOnlyStorage()` is the file's
flag, false when the file does not decode, and `SyncIntervalMinutes()` is the
file's interval whenever that is positive. -/
theorem watcher_catches_up (path : List Char) (watched : eventName path = path)
    (writes : ReadOnlyStorageConfig → Bool) (serial : Bool) (config : ConfigState)
    (file : List Char) (loaded : (loadReadOnlyStorageConfig config ⟨.contents file, none⟩).1 = config)
    (s : Files) (reach : Files.Reachable path writes serial (Files.start config file) s) :
    ∃ labels s', (∀ label ∈ labels, label = .take ∨ label = .apply) ∧
      Files.exec path writes serial s labels = some s' ∧ s'.shared.file = s.shared.file ∧
      (∀ c, unmarshalConfig s'.shared.file = .ok c → s'.shared.config.readOnly = c.readOnly ∧
        (0 < c.syncIntervalMinutes.toInt →
          s'.shared.config.syncIntervalMinutes = c.syncIntervalMinutes)) ∧
      (∀ e, unmarshalConfig s'.shared.file = .error e → s'.shared.config.readOnly = false) := by
  obtain ⟨labels, s', own, ran, idle, noneLeft, sameFile⟩ := @drain _ writes serial watched s
  have caughtUp := watchInv_reachable watched loaded (Files.reachable_of_exec labels reach ran)
  exact ⟨labels, s', own, ran, sameFile, load_fixed (caughtUp.agrees idle noneLeft)⟩

/-- Mid-write: the reload of the truncation has turned read-only off, and the
write's event is queued. The watcher alone brings the flag back. -/
def midWriteThenWrite : List Files.Label := midWriteReload ++ [.writer 0]

theorem watcher_catches_up_after_mid_write_reload :
    eventName sideFilePath = sideFilePath ∧
      ∃ s, Files.exec sideFilePath (fun _ => true) false (Files.start ⟨true, 30⟩ readOnlyDocument)
          midWriteThenWrite = some s ∧
        s.shared.config.readOnly = false ∧ s.shared.events = 1 ∧
        ∃ labels s', (∀ label ∈ labels, label = .take ∨ label = .apply) ∧
          Files.exec sideFilePath (fun _ => true) false s labels = some s' ∧ s'.shared.file = s.shared.file ∧
          (∀ c, unmarshalConfig s'.shared.file = .ok c → s'.shared.config.readOnly = c.readOnly ∧
            (0 < c.syncIntervalMinutes.toInt →
              s'.shared.config.syncIntervalMinutes = c.syncIntervalMinutes)) ∧
          (∀ e, unmarshalConfig s'.shared.file = .error e → s'.shared.config.readOnly = false) :=
  ⟨sideFilePath_watched, _, rfl, rfl, rfl, watcher_catches_up sideFilePath sideFilePath_watched
    (fun _ => true) false ⟨true, 30⟩ readOnlyDocument rfl _ (Files.reachable_of_exec midWriteThenWrite .init rfl)⟩

end ReadOnlyStorage.Config
