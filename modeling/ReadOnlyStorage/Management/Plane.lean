/-
# Management.Plane — the storage PUTs, the scheduler, the side file and the watcher

`PutStorageReadOnly` and `PutStorageSyncInterval` each run in a goroutine of
their own. A PUT enabling read-only first checks for pending local changes
(`ensureCanEnableReadOnly`, before `h.mu` is taken). Then
`updateStorageReadOnly` or `updateStorageSyncInterval` takes `h.mu`, calls the
setter, and hands the handler's config to the scheduler's `UpdateConfig`,
whose `Start` or `Stop` also runs under `h.mu`. A `Stop` that closes a closed
channel panics: the goroutine dies holding `h.mu`, before its writes. Once
`h.mu` is released, the PUT reads the other field under `RLock` and hands both
to `persistBothToJSONAfterUnlock`, whose read, truncation and write are the
`Writer` steps of `Config.Watcher`. The watcher, started on the handler's
path, reloads the side file in between. The scheduler and the working copy are
a `Host`: one Config object, whose atomics the loops read, and a loop that
leaves `pulling` with a successful pull hard-resets the working copy; local
changes are made only while read-only is off. `Plane.lastSet` is ghost state,
the values the setter calls stored last.

* `enable_read_only_over_local_change`: a change made between the check and
  the mutation is pending when read-only turns on, and the loop that
  `UpdateConfig` starts discards it in its first sync.
* `concurrent_puts_lose_interval`: two PUTs overlap. Once both have answered
  and the watcher has settled, the side file and the atomics agree on an
  interval that is not the one set last.
* `serial_puts_keep_copies`: when each PUT arrives only once the previous ones
  have answered and the watcher has settled, and no `Stop` has panicked,
  `SerialInv` holds in every reachable state. So at every settled state the
  side file decodes to the atomics, and the atomics hold what the setter calls
  stored last. The panic of the fourth of the serial PUTs true, false, true,
  false breaks it: that PUT has set read-only off and never writes it.
* `interval_stays_at_least_minimum`: however the PUTs interleave, the
  interval atomic stays at least `minSyncIntervalMinutes`.
-/
import ReadOnlyStorage.Config.Watcher
import ReadOnlyStorage.Store.Sync
import ReadOnlyStorage.Management.Storage

namespace ReadOnlyStorage.Management

open ReadOnlyStorage.Config ReadOnlyStorage.Store

set_option autoImplicit false

/-! ## What a PUT sets and writes -/

/-- The field a PUT sets, with its value. -/
inductive Setting where
  | readOnly (value : Bool)
  | syncInterval (value : BitVec 64)
  deriving DecidableEq, Repr

/-- `SetReadOnlyStorage` or `SetSyncIntervalMinutes`. -/
def Setting.store : Setting → ConfigState → ConfigState
  | .readOnly v, c => { c with readOnly := v }
  | .syncInterval v, c => { c with syncIntervalMinutes := v }

/-- `persistReadOnlyToJSONAfterUnlock(readOnly)`: the pair it hands to
`persistBothToJSONAfterUnlock`, the interval read under `RLock` from the
handler's config, `0` when it has none. -/
def persistReadOnlyToJSONAfterUnlock (readOnly : Bool) (cfg : Option ConfigState) :
    ReadOnlyStorageConfig :=
  ⟨readOnly, match cfg with
    | some c => c.syncIntervalMinutes
    | none => 0⟩

/-- `persistSyncIntervalToJSONAfterUnlock(syncIntervalMinutes)`: the pair it
hands on, read-only read under `RLock`, `false` when the handler has no
config. -/
def persistSyncIntervalToJSONAfterUnlock (syncIntervalMinutes : BitVec 64) (cfg : Option ConfigState) :
    ReadOnlyStorageConfig :=
  ⟨match cfg with
    | some c => c.readOnly
    | none => false, syncIntervalMinutes⟩

/-- What a PUT's persist hands to `persistBothToJSONAfterUnlock`. -/
def Setting.document : Setting → ConfigState → ReadOnlyStorageConfig
  | .readOnly v, c => persistReadOnlyToJSONAfterUnlock v (some c)
  | .syncInterval v, c => persistSyncIntervalToJSONAfterUnlock v (some c)

/-- The body of the 200. -/
def Setting.reply : Setting → Reply
  | .readOnly v => .readOnly v
  | .syncInterval v => .syncInterval v

theorem Setting.store_store (setting : Setting) (c : ConfigState) :
    setting.store (setting.store c) = setting.store c := by
  cases setting <;> rfl

/-- Once the value is stored, the document is the stored pair. -/
theorem Setting.document_of_stored {setting : Setting} {c : ConfigState}
    (stored : setting.store c = c) : setting.document c = ⟨c.readOnly, c.syncIntervalMinutes⟩ := by
  cases setting <;> rw [← stored] <;> rfl

/-! ## PUTs -/

/-- Where a PUT is; `persisting` carries its `persistBothToJSONAfterUnlock`
call. -/
inductive PutPhase where
  /-- `ensureCanEnableReadOnly`, before `h.mu` is taken -/
  | check
  /-- `h.mu.Lock()` and the setter call -/
  | mutate
  /-- inside `UpdateConfig` under `h.mu`: the scheduler call's next step -/
  | updating (call : Call)
  /-- `h.mu` released: the other field, read under `RLock` -/
  | readOther
  | persisting (w : Writer)
  | answered (status : Nat) (reply : Reply)
  /-- the goroutine panicked inside `UpdateConfig`, and `h.mu` is still held -/
  | crashed
  deriving DecidableEq, Repr

def PutPhase.busy : PutPhase → Bool
  | .answered _ _ | .crashed => false
  | _ => true

structure Put where
  setting : Setting
  phase : PutPhase
  deriving DecidableEq, Repr

def Put.busy (p : Put) : Bool := p.phase.busy

inductive Endpoint where
  | readOnly
  | syncInterval
  deriving DecidableEq, Repr

/-- A PUT as its handler starts on the body. A rejected body keeps the value
its reader returned with the failure. -/
def Put.arrive : Endpoint → Body → Put
  | .readOnly, body =>
    match putStorageReadOnly body with
    | .inl (status, reply) => ⟨.readOnly false, .answered status reply⟩
    | .inr value => ⟨.readOnly value, if value then .check else .mutate⟩
  | .syncInterval, body =>
    match putStorageSyncInterval body with
    | .inl (status, reply) => ⟨.syncInterval 0, .answered status reply⟩
    | .inr value => ⟨.syncInterval value, .mutate⟩

/-! ## The control plane -/

/-- The handler's goroutines and what they share: the scheduler's system, whose
`config` is the one Config object's atomics, with the working copy (`host`);
the side file, the Write events queued for it and the watcher; the PUT holding
`h.mu`; and every PUT so far. `lastSet` is ghost state. -/
structure Plane where
  host : Host
  file : List Char
  events : Nat
  watcher : Watcher
  mu : Option Nat
  lastSet : ConfigState
  puts : List Put

/-- The Config atomics, `IsReadOnlyStorage()` and `SyncIntervalMinutes()`. -/
def Plane.config (s : Plane) : ConfigState := s.host.sys.sched.config

/-- What the writers and the watcher share. -/
def Plane.shared (s : Plane) : Shared := ⟨s.config, s.file, s.events, s.watcher⟩

/-- The plane after a step of the writers or of the watcher. -/
def Plane.withShared (s : Plane) (sh : Shared) : Plane :=
  { s with host := { s.host with sys := { s.host.sys with sched := { s.host.sys.sched with config := sh.config } } },
           file := sh.file, events := sh.events, watcher := sh.watcher }

/-- The plane after a step of the scheduler's call. -/
def Plane.withSched (s : Plane) (g : GitScheduler) : Plane :=
  { s with host := { s.host with sys := { s.host.sys with sched := g } } }

section Frame

variable (s : Plane) (sh : Shared) (g : GitScheduler)

@[simp] theorem Plane.withShared_shared : (s.withShared sh).shared = sh := rfl
@[simp] theorem Plane.withShared_lastSet : (s.withShared sh).lastSet = s.lastSet := rfl
@[simp] theorem Plane.withShared_mu : (s.withShared sh).mu = s.mu := rfl
@[simp] theorem Plane.withShared_panicked : (s.withShared sh).host.sys.panicked = s.host.sys.panicked := rfl
@[simp] theorem Plane.withSched_shared : (s.withSched g).shared = { s.shared with config := g.config } := rfl
@[simp] theorem Plane.withSched_lastSet : (s.withSched g).lastSet = s.lastSet := rfl
@[simp] theorem Plane.withSched_panicked : (s.withSched g).host.sys.panicked = s.host.sys.panicked := rfl

end Frame

/-- One step of `updateStorageReadOnly` or `updateStorageSyncInterval` by PUT
`i` with its `setting`, from `phase`: `none` while it waits for `h.mu`, and
once it has returned. -/
def updateStorage (setting : Setting) (i : Nat) (s : Plane) : PutPhase → Option (Plane × PutPhase)
  | .mutate =>
    if s.mu = none then
      some ({ s.withShared { s.shared with config := setting.store s.config } with
                mu := some i, lastSet := setting.store s.lastSet }, .updating .updateConfig)
    else none
  | .updating c =>
    match callStep s.host.sys.sched c with
    | none => some ({ s with host := { s.host with sys := { s.host.sys with panicked := true } } }, .crashed)
    | some (g, .done) => some ({ s.withSched g with mu := none }, .readOther)
    | some (g, c') => some (s.withSched g, .updating c')
  | .readOther => if s.mu = none then some (s, .persisting ⟨setting.document s.config, .reading⟩) else none
  | .persisting w =>
    (writerStep s.shared w).map fun (sh, phase) =>
      (s.withShared sh, if phase = .done then .answered 200 setting.reply else .persisting { w with phase := phase })
  | .check | .answered _ _ | .crashed => none

/-- `updateStorageReadOnly(readOnly)`, step by step. -/
def updateStorageReadOnly (readOnly : Bool) : Nat → Plane → PutPhase → Option (Plane × PutPhase) :=
  updateStorage (.readOnly readOnly)

/-- `updateStorageSyncInterval(syncIntervalMinutes)`, step by step. -/
def updateStorageSyncInterval (syncIntervalMinutes : BitVec 64) :
    Nat → Plane → PutPhase → Option (Plane × PutPhase) :=
  updateStorage (.syncInterval syncIntervalMinutes)

/-- The update a PUT runs once its body is checked. -/
def Setting.update : Setting → Nat → Plane → PutPhase → Option (Plane × PutPhase)
  | .readOnly v => updateStorageReadOnly v
  | .syncInterval v => updateStorageSyncInterval v

theorem Setting.update_eq (setting : Setting) : setting.update = updateStorage setting := by
  cases setting <;> rfl

/-- One step of PUT `i`: the check of `PutStorageReadOnly`, then its update. -/
def putStep (i : Nat) (s : Plane) (p : Put) : Option (Plane × PutPhase) :=
  match p.phase with
  | .check =>
    some (s, match ensureCanEnableReadOnly (hasPendingLocalChanges s.host) with
      | some (status, reply) => .answered status reply
      | none => .mutate)
  | phase => p.setting.update i s phase

/-- Every PUT has answered or died, and the watcher has nothing left to
reload. -/
def Plane.Quiescent (s : Plane) : Prop :=
  (∀ p ∈ s.puts, p.busy = false) ∧ s.watcher = .idle ∧ s.events = 0

instance (s : Plane) : Decidable s.Quiescent := inferInstanceAs (Decidable (_ ∧ _ ∧ _))

inductive Plane.Label where
  | arrive (endpoint : Endpoint) (body : Body)
  | put (i : Nat)
  | take
  | apply
  /-- a step of a run loop -/
  | loop (i : Nat) (m : Move)
  /-- the helper of loop `i` cancels its context -/
  | cancel (i : Nat)
  /-- a local change to the working copy, made only while read-only is off -/
  | localChange
  /-- the remote, the disk or the network change what a sync's calls answer -/
  | answers (r : Repository)

/-- A step of the scheduler's loops or of the working copy. -/
def Plane.hostStep (s : Plane) (label : Host.Label) : Option Plane :=
  (Host.next true s.host label).map fun h => { s with host := h }

/-- One step. With `serial`, a PUT arrives only at a quiescent state. -/
def Plane.next (serial : Bool) (s : Plane) : Plane.Label → Option Plane
  | .arrive endpoint body =>
    if serial = true ∧ ¬s.Quiescent then none
    else some { s with puts := s.puts ++ [Put.arrive endpoint body] }
  | .put i =>
    match s.puts[i]? with
    | some p => (putStep i s p).map fun (t, phase) => { t with puts := s.puts.set i { p with phase := phase } }
    | none => none
  | .take => (s.shared.take sideFilePath).map s.withShared
  | .apply => s.shared.apply.map s.withShared
  | .loop i m => s.hostStep (.sched (.loop i m))
  | .cancel i => s.hostStep (.sched (.cancel i))
  | .localChange => s.hostStep .localChange
  | .answers r => s.hostStep (.answers r)

inductive Plane.Reachable (serial : Bool) (init : Plane) : Plane → Prop where
  | init : Plane.Reachable serial init init
  | step {s s' : Plane} (label : Plane.Label) :
      Plane.Reachable serial init s → Plane.next serial s label = some s' →
      Plane.Reachable serial init s'

def Plane.exec (serial : Bool) : Plane → List Plane.Label → Option Plane
  | s, [] => some s
  | s, label :: rest => (Plane.next serial s label).bind fun s' => Plane.exec serial s' rest

theorem Plane.reachable_of_exec {serial : Bool} {init : Plane} :
    ∀ {s s' : Plane} (labels : List Plane.Label),
      Plane.Reachable serial init s → Plane.exec serial s labels = some s' →
      Plane.Reachable serial init s'
  | _, _, [], reach, ran => by cases ran; exact reach
  | s, _, label :: rest, reach, ran => by
    simp only [Plane.exec, Option.bind_eq_some] at ran
    obtain ⟨s₁, stepped, ran⟩ := ran
    exact Plane.reachable_of_exec rest (.step label reach stepped) ran

/-- The handler with its scheduler, working copy and side file, before any
PUT. -/
def Plane.start (h : Host) (file : List Char) : Plane := ⟨h, file, 0, .idle, none, h.sys.sched.config, []⟩

/-! ## What one step can do -/

/-- A loop's step and its helper's cancellation touch only the loops. -/
theorem next_loop_frame {serial : Bool} {sys sys' : System} {label : Label}
    (loopLabel : ∃ i m, label = .loop i m ∨ label = .cancel i) (stepped : next serial sys label = some sys') :
    sys'.sched.config = sys.sched.config ∧ sys'.panicked = sys.panicked := by
  obtain ⟨i, m, rfl | rfl⟩ := loopLabel <;> simp only [next] at stepped <;> split at stepped
  all_goals first
    | cases stepped
    | (split at stepped
       · cases stepped
       · first
           | (obtain ⟨p, -, rfl⟩ := Option.map_eq_some'.mp stepped; exact ⟨rfl, rfl⟩)
           | (split at stepped
              · cases stepped; exact ⟨rfl, rfl⟩
              · cases stepped))

/-- The scheduler's loops and the working copy keep the Config atomics and the
panic, and change nothing else the PUTs and the watcher read. -/
theorem hostStep_frame {s s' : Plane} {label : Host.Label}
    (hostLabel : (∃ i m, label = .sched (.loop i m) ∨ label = .sched (.cancel i)) ∨ label = .localChange ∨
      ∃ r, label = .answers r)
    (stepped : s.hostStep label = some s') :
    ∃ h, s' = { s with host := h } ∧ h.sys.sched.config = s.config ∧ h.sys.panicked = s.host.sys.panicked := by
  obtain ⟨h, moved, rfl⟩ := Option.map_eq_some'.mp stepped
  refine ⟨h, rfl, ?_⟩
  rcases hostLabel with ⟨i, m, rfl | rfl⟩ | rfl | ⟨r, rfl⟩
  all_goals simp only [Host.next] at moved
  · obtain ⟨sys, loopMoved, rfl⟩ := Option.map_eq_some'.mp moved
    exact next_loop_frame ⟨i, m, .inl rfl⟩ loopMoved
  · obtain ⟨sys, cancelled, rfl⟩ := Option.map_eq_some'.mp moved
    exact next_loop_frame ⟨i, m, .inr rfl⟩ cancelled
  · split at moved <;> cases moved; exact ⟨rfl, rfl⟩
  · cases moved; exact ⟨rfl, rfl⟩

/-- Every step, by its label: an arrival, a PUT's step, the watcher's, or one
of the scheduler's loops or the working copy. -/
theorem Plane.next_cases {serial : Bool} {s s' : Plane} {label : Plane.Label}
    (stepped : Plane.next serial s label = some s') :
    (∃ e body, (serial = true → s.Quiescent) ∧ s' = { s with puts := s.puts ++ [Put.arrive e body] }) ∨
    (∃ i p t phase, s.puts[i]? = some p ∧ putStep i s p = some (t, phase) ∧
      s' = { t with puts := s.puts.set i { p with phase := phase } }) ∨
    (∃ sh, (s.shared.take sideFilePath = some sh ∨ s.shared.apply = some sh) ∧ s' = s.withShared sh) ∨
    (∃ h, s' = { s with host := h } ∧ h.sys.sched.config = s.config ∧ h.sys.panicked = s.host.sys.panicked) := by
  cases label with
  | arrive e body =>
    simp only [Plane.next] at stepped
    split at stepped
    · cases stepped
    · next allowed =>
      exact .inl ⟨e, body, fun serial => not_not.mp (not_and.mp allowed serial),
        (Option.some.inj stepped).symm⟩
  | put i =>
    simp only [Plane.next] at stepped
    split at stepped
    · next p found =>
      obtain ⟨⟨t, phase⟩, moved, rfl⟩ := Option.map_eq_some'.mp stepped
      exact .inr (.inl ⟨i, p, t, phase, found, moved, rfl⟩)
    · cases stepped
  | take =>
    obtain ⟨sh, taken, rfl⟩ := Option.map_eq_some'.mp stepped
    exact .inr (.inr (.inl ⟨sh, .inl taken, rfl⟩))
  | apply =>
    obtain ⟨sh, applied, rfl⟩ := Option.map_eq_some'.mp stepped
    exact .inr (.inr (.inl ⟨sh, .inr applied, rfl⟩))
  | loop i m => exact .inr (.inr (.inr (hostStep_frame (.inl ⟨i, m, .inl rfl⟩) stepped)))
  | cancel i => exact .inr (.inr (.inr (hostStep_frame (.inl ⟨i, .proceed, .inr rfl⟩) stepped)))
  | localChange => exact .inr (.inr (.inr (hostStep_frame (.inr (.inl rfl)) stepped)))
  | answers r => exact .inr (.inr (.inr (hostStep_frame (.inr (.inr ⟨r, rfl⟩)) stepped)))

/-! ## What a PUT's step can do -/

/-- The state the PUTs and the watcher read: the atomics, the side file, the
watcher, and the values the setter calls stored last. -/
structure Control where
  shared : Shared
  lastSet : ConfigState

def Plane.control (s : Plane) : Control := ⟨s.shared, s.lastSet⟩

/-- A scheduler step that keeps the atomics keeps what the PUTs read. -/
theorem Plane.withSched_control {s : Plane} {g : GitScheduler} (kept : g.config = s.config) :
    (s.withSched g).control = s.control := by
  simp only [Plane.control, Plane.withSched_shared, Plane.withSched_lastSet, kept]
  rfl

/-- Every step of a PUT, by its phase: the check, the mutation under `h.mu`, a
step of `UpdateConfig` that panics or not, the read of the other field, and a
step of the persist. -/
theorem putStep_cases {i : Nat} {s t : Plane} {p : Put} {phase : PutPhase}
    (stepped : putStep i s p = some (t, phase)) :
    (p.phase = .check ∧ t = s ∧
      phase = match ensureCanEnableReadOnly (hasPendingLocalChanges s.host) with
        | some (status, reply) => .answered status reply
        | none => .mutate) ∨
    (p.phase = .mutate ∧ phase = .updating .updateConfig ∧
      t.control = ⟨{ s.shared with config := p.setting.store s.config }, p.setting.store s.lastSet⟩ ∧
      t.host.sys.panicked = s.host.sys.panicked) ∨
    (∃ c, p.phase = .updating c ∧ phase = .crashed ∧ t.host.sys.panicked = true ∧ t.config = s.config) ∨
    (∃ c c', p.phase = .updating c ∧ (phase = .updating c' ∨ phase = .readOther) ∧ t.control = s.control ∧
      t.host.sys.panicked = s.host.sys.panicked) ∨
    (p.phase = .readOther ∧ t = s ∧ phase = .persisting ⟨p.setting.document s.config, .reading⟩) ∨
    (∃ w sh q, p.phase = .persisting w ∧ writerStep s.shared w = some (sh, q) ∧ t = s.withShared sh ∧
      phase = if q = .done then .answered 200 p.setting.reply else .persisting { w with phase := q }) := by
  obtain ⟨setting, phase₀⟩ := p
  cases phase₀ with
  | check =>
    obtain ⟨rfl, rfl⟩ := Prod.mk.inj (Option.some.inj stepped)
    exact .inl ⟨rfl, rfl, rfl⟩
  | mutate =>
    simp only [putStep, Setting.update_eq, updateStorage] at stepped
    split at stepped
    · obtain ⟨rfl, rfl⟩ := Prod.mk.inj (Option.some.inj stepped)
      exact .inr (.inl ⟨rfl, rfl, rfl, rfl⟩)
    · cases stepped
  | updating c =>
    simp only [putStep, Setting.update_eq, updateStorage] at stepped
    split at stepped
    · obtain ⟨rfl, rfl⟩ := Prod.mk.inj (Option.some.inj stepped)
      exact .inr (.inr (.inl ⟨c, rfl, rfl, rfl, rfl⟩))
    · next g found =>
      obtain ⟨rfl, rfl⟩ := Prod.mk.inj (Option.some.inj stepped)
      exact .inr (.inr (.inr (.inl ⟨c, .done, rfl, .inr rfl, Plane.withSched_control (callStep_config found), rfl⟩)))
    · next g c' _ found =>
      obtain ⟨rfl, rfl⟩ := Prod.mk.inj (Option.some.inj stepped)
      exact .inr (.inr (.inr (.inl ⟨c, c', rfl, .inl rfl, Plane.withSched_control (callStep_config found), rfl⟩)))
  | readOther =>
    simp only [putStep, Setting.update_eq, updateStorage] at stepped
    split at stepped
    · obtain ⟨rfl, rfl⟩ := Prod.mk.inj (Option.some.inj stepped)
      exact .inr (.inr (.inr (.inr (.inl ⟨rfl, rfl, rfl⟩))))
    · cases stepped
  | persisting w =>
    simp only [putStep, Setting.update_eq, updateStorage] at stepped
    obtain ⟨⟨sh, q⟩, moved, same⟩ := Option.map_eq_some'.mp stepped
    obtain ⟨rfl, rfl⟩ := Prod.mk.inj same
    exact .inr (.inr (.inr (.inr (.inr ⟨w, sh, q, rfl, moved, rfl, rfl⟩))))
  | answered | crashed => simp [putStep, Setting.update_eq, updateStorage] at stepped

theorem putStep_busy {i : Nat} {s t : Plane} {p : Put} {phase : PutPhase}
    (stepped : putStep i s p = some (t, phase)) : p.busy = true := by
  rcases putStep_cases stepped with ⟨at_, -⟩ | ⟨at_, -⟩ | ⟨_, at_, -⟩ | ⟨_, _, at_, -⟩ | ⟨at_, -⟩ |
      ⟨_, _, _, at_, -⟩ <;> simp [Put.busy, at_, PutPhase.busy]

/-! ## A change between the check and the mutation -/

/-- `{"read_only": v}`. -/
def readOnlyBody (v : Bool) : Body :=
  some fun key => if key = "read_only" then some (.bool v) else none

/-- `{"sync_interval_minutes": m}`. -/
def intervalBody (m : Int) : Body :=
  some fun key => if key = "sync_interval_minutes" then some (.float64 ⟨m, 0⟩) else none

/-- The handler before any PUT: read-only off and the side file agreeing, a
stopped scheduler with a config and a token store, no local change, and a
remote whose `origin/main` a sync resets the working copy to. -/
def offPlane : Plane :=
  Plane.start ⟨newGitScheduler true true ⟨false, 30⟩, false, mainOnly⟩ (marshalIndent ⟨false, 30⟩)

/-- A PUT enabling read-only passes its check with nothing pending; a local
change is made before it takes `h.mu`. -/
def changeAfterCheck : List Plane.Label := [.arrive .readOnly (readOnlyBody true), .put 0, .localChange]

/-- `UpdateConfig` starts the scheduler and the PUT releases `h.mu`; the loop
`Start` spawned makes its first pass to the end of its sync. -/
def startedSync : List Plane.Label :=
  [.put 0, .put 0, .put 0, .loop 0 .proceed, .loop 0 .proceed, .loop 0 .proceed, .loop 0 .proceed]

/-- The mutation then turns read-only on with the change pending, and the sync
of the loop that `UpdateConfig` starts discards it. -/
theorem enable_read_only_over_local_change :
    ∃ s s', Plane.exec false offPlane changeAfterCheck = some s ∧
      s.host.pending = true ∧ s.config.readOnly = false ∧
      Plane.next false s (.put 0) = some s' ∧ s'.host.pending = true ∧ s'.config.readOnly = true ∧
      (Plane.exec false s' startedSync).map (·.host.pending) = some false :=
  ⟨_, _, rfl, rfl, rfl, rfl, rfl, rfl, rfl⟩

/-! ## Overlapping PUTs -/

/-- `PUT read_only=true` and `PUT sync_interval_minutes=10` overlap: the first
reads the interval before the second stores its own, and writes last. -/
def lostUpdate : List Plane.Label :=
  [.arrive .readOnly (readOnlyBody true), .arrive .syncInterval (intervalBody 10),
    .put 0, .put 0, .put 0, .put 0, .put 0, .put 0,
    .put 1, .put 1, .put 1, .put 1, .put 1, .put 1,
    .put 0, .put 0, .put 0,
    .take, .apply, .take, .apply, .take, .apply, .take, .apply]

set_option maxRecDepth 2000 in
theorem concurrent_puts_lose_interval :
    ∃ s, Plane.exec false offPlane lostUpdate = some s ∧
      s.Quiescent ∧ s.lastSet = ⟨true, 10⟩ ∧ s.config = ⟨true, 30⟩ ∧
      unmarshalConfig s.file = .ok ⟨true, 30⟩ :=
  ⟨_, rfl, by decide, rfl, rfl, rfl⟩

/-! ## Serial PUTs keep the copies -/

/-- The document the last setter calls ask for. -/
def Control.goal (c : Control) : ReadOnlyStorageConfig :=
  ⟨c.lastSet.readOnly, c.lastSet.syncIntervalMinutes⟩

/-- The atomics hold what the setter calls stored last, and the watcher has
nothing to do. -/
def Control.Calm (c : Control) : Prop :=
  c.shared.config = c.lastSet ∧ c.shared.watcher = .idle ∧ c.shared.events = 0

/-- No PUT is in flight: the file holds the last document, the interval is the
one set last, and so is read-only unless a reload is still to come. -/
structure Control.Settled (c : Control) : Prop where
  file : unmarshalConfig c.shared.file = .ok c.goal
  interval : c.shared.config.syncIntervalMinutes = c.lastSet.syncIntervalMinutes
  loaded : ∀ data, c.shared.watcher = .loaded data →
    (data = [] ∧ 0 < c.shared.events) ∨ unmarshalConfig data = .ok c.goal
  readOnly : c.shared.config.readOnly = c.lastSet.readOnly ∨ 0 < c.shared.events ∨
    ∃ data, c.shared.watcher = .loaded data ∧ unmarshalConfig data = .ok c.goal

/-- What holds while a PUT with this setting is at each phase. -/
def Control.InFlight (c : Control) (setting : Setting) : PutPhase → Prop
  | .check | .mutate => c.Calm ∧ unmarshalConfig c.shared.file = .ok c.goal
  | .updating _ | .readOther =>
    c.Calm ∧ setting.store c.lastSet = c.lastSet ∧ ∃ d, unmarshalConfig c.shared.file = .ok d
  | .persisting ⟨doc, .reading⟩ | .persisting ⟨doc, .truncating⟩ =>
    doc = c.goal ∧ c.Calm ∧ ∃ d, unmarshalConfig c.shared.file = .ok d
  | .persisting ⟨doc, .writing⟩ =>
    doc = c.goal ∧ c.shared.file = [] ∧
      c.shared.config.syncIntervalMinutes = c.lastSet.syncIntervalMinutes ∧
      ∀ data, c.shared.watcher = .loaded data → data = []
  | .persisting ⟨_, .done⟩ => False
  | .answered _ _ | .crashed => True

attribute [ext] ConfigState

section Control

variable {c : Control} {sh : Shared}

theorem Control.Calm.take_eq_none (calm : c.Calm) (path : List Char) : c.shared.take path = none := by
  simp [Shared.take, calm.2.2]

theorem Control.Calm.apply_eq_none (calm : c.Calm) : c.shared.apply = none := by
  simp [Shared.apply, calm.2.1]

theorem Control.Settled.of_calm (calm : c.Calm) (file : unmarshalConfig c.shared.file = .ok c.goal) :
    c.Settled :=
  ⟨file, by rw [calm.1], fun _ loaded => (nomatch calm.2.1.symm.trans loaded), .inl (by rw [calm.1])⟩

/-- Settled with nothing left to reload is calm. -/
theorem Control.Settled.calm (settled : c.Settled) (idle : c.shared.watcher = .idle)
    (noEvents : c.shared.events = 0) : c.Calm := by
  refine ⟨ConfigState.ext ?_ settled.interval, idle, noEvents⟩
  rcases settled.readOnly with same | pending | ⟨data, loaded, -⟩
  · exact same
  · omega
  · exact nomatch idle.symm.trans loaded

theorem Control.Settled.take (settled : c.Settled) (taken : c.shared.take sideFilePath = some sh) :
    Control.Settled ⟨sh, c.lastSet⟩ := by
  obtain ⟨-, -, rfl⟩ := take_eq_some taken
  rw [if_pos sideFilePath_watched]
  exact ⟨settled.file, settled.interval, fun data loaded => .inr (by cases loaded; exact settled.file),
    .inr (.inr ⟨_, rfl, settled.file⟩)⟩

theorem Control.Settled.apply (settled : c.Settled) (applied : c.shared.apply = some sh) :
    Control.Settled ⟨sh, c.lastSet⟩ := by
  obtain ⟨idle, events, file, data, loaded, config⟩ := apply_loaded applied
  have settles : sh.config.syncIntervalMinutes = c.lastSet.syncIntervalMinutes ∧
      (sh.config.readOnly = c.lastSet.readOnly ∨ 0 < sh.events) := by
    rw [config, events]
    rcases settled.loaded data loaded with ⟨rfl, pending⟩ | decoded
    · -- the truncated file: read-only is off until the write's event is reloaded
      rw [load_empty]
      exact ⟨settled.interval, .inr pending⟩
    · rw [loadReadOnlyStorageConfig_of_decoded _ _ data _ rfl decoded]
      refine ⟨?_, .inl rfl⟩
      dsimp only
      split
      · rfl
      · exact settled.interval
  exact ⟨file ▸ settled.file, settles.1, fun _ stuck => (nomatch idle.symm.trans stuck),
    settles.2.imp_right .inl⟩

theorem Control.inFlight_of_idle {setting : Setting} {phase : PutPhase} (idle : phase.busy = false) :
    c.InFlight setting phase := by
  cases phase <;> first | exact trivial | cases idle

/-- Outside the write, a PUT in flight keeps the watcher idle. -/
theorem Control.InFlight.calm_or_writing {setting : Setting} {phase : PutPhase}
    (inFlight : c.InFlight setting phase) :
    c.Calm ∨ (∃ doc, phase = .persisting ⟨doc, .writing⟩) ∨ phase.busy = false := by
  rcases phase with _ | _ | _ | _ | ⟨doc, _ | _ | _ | _⟩ | _ | _
  · exact .inl inFlight.1
  · exact .inl inFlight.1
  · exact .inl inFlight.1
  · exact .inl inFlight.1
  · exact .inl inFlight.2.1
  · exact .inl inFlight.2.1
  · exact .inr (.inl ⟨doc, rfl⟩)
  · exact inFlight.elim
  · exact .inr (.inr rfl)
  · exact .inr (.inr rfl)

theorem Control.InFlight.take {setting : Setting} {phase : PutPhase} (inFlight : c.InFlight setting phase)
    (taken : c.shared.take sideFilePath = some sh) : Control.InFlight ⟨sh, c.lastSet⟩ setting phase := by
  rcases inFlight.calm_or_writing with calm | ⟨doc, rfl⟩ | idle
  · rw [calm.take_eq_none] at taken; cases taken
  · obtain ⟨goal, empty, interval, -⟩ := inFlight
    obtain ⟨-, -, rfl⟩ := take_eq_some taken
    rw [if_pos sideFilePath_watched]
    exact ⟨goal, empty, interval, fun data loaded => by cases loaded; exact empty⟩
  · exact Control.inFlight_of_idle idle

theorem Control.InFlight.apply {setting : Setting} {phase : PutPhase} (inFlight : c.InFlight setting phase)
    (applied : c.shared.apply = some sh) : Control.InFlight ⟨sh, c.lastSet⟩ setting phase := by
  rcases inFlight.calm_or_writing with calm | ⟨doc, rfl⟩ | idle
  · rw [calm.apply_eq_none] at applied; cases applied
  · obtain ⟨goal, empty, interval, loadedEmpty⟩ := inFlight
    obtain ⟨idle, -, file, data, loaded, config⟩ := apply_loaded applied
    refine ⟨goal, file ▸ empty, ?_, fun _ stuck => (nomatch idle.symm.trans stuck)⟩
    show sh.config.syncIntervalMinutes = _
    rw [config, loadedEmpty data loaded, load_empty]
    exact interval
  · exact Control.inFlight_of_idle idle

end Control

/-- A persist's step keeps the next phase's condition, and leaves a settled
state once the PUT answers. -/
theorem writerStep_inFlight {s : Plane} {setting : Setting} {w : Writer} {sh : Shared} {q : WriterPhase}
    (inFlight : s.control.InFlight setting (.persisting w)) (moved : writerStep s.shared w = some (sh, q)) :
    Control.InFlight ⟨sh, s.lastSet⟩ setting
        (if q = .done then .answered 200 setting.reply else .persisting { w with phase := q }) ∧
      (q = .done → Control.Settled ⟨sh, s.lastSet⟩) := by
  obtain ⟨doc, _ | _ | _ | _⟩ := w
  · -- reading: the file decodes, so the writer goes on
    obtain ⟨goal, calm, d, file⟩ := inFlight
    simp only [writerStep, afterRead, Plane.control] at moved file
    simp only [file, Option.some.injEq, Prod.mk.injEq] at moved
    obtain ⟨rfl, rfl⟩ := moved
    exact ⟨⟨goal, calm, d, file⟩, fun stuck => by cases stuck⟩
  · -- truncating: the file is emptied, with an event since it had contents
    obtain ⟨goal, ⟨config, idle, -⟩, -⟩ := inFlight
    obtain ⟨rfl, rfl⟩ := Prod.mk.inj (Option.some.inj moved)
    exact ⟨⟨goal, rfl, congrArg ConfigState.syncIntervalMinutes config,
      fun _ loaded => (nomatch idle.symm.trans loaded)⟩, fun stuck => by cases stuck⟩
  · -- writing: the document lands whole, and its event is still to be reloaded
    obtain ⟨goal, empty, interval, loadedEmpty⟩ := inFlight
    obtain ⟨rfl, rfl⟩ := Prod.mk.inj (Option.some.inj moved)
    have landed : (s.shared.write (marshalIndent doc)).file = marshalIndent doc := by
      rw [Shared.write_file, show s.shared.file = [] from empty, List.drop_nil, List.append_nil]
    refine ⟨trivial, fun _ => ⟨?_, interval, fun data loaded => .inl ⟨loadedEmpty data loaded, ?_⟩,
      .inr (.inl ?_)⟩⟩
    · show unmarshalConfig (s.shared.write (marshalIndent doc)).file = _
      rw [landed, goal]
      exact unmarshalConfig_marshalIndent _
    all_goals exact Nat.succ_pos _
  · exact inFlight.elim

/-- What a PUT's step keeps: the next phase's condition, and a settled state
once it answers without a panic. -/
theorem putStep_inFlight {i : Nat} {s t : Plane} {p : Put} {phase : PutPhase}
    (inFlight : s.control.InFlight p.setting p.phase) (stepped : putStep i s p = some (t, phase)) :
    t.control.InFlight p.setting phase ∧
      (phase.busy = false → t.host.sys.panicked = false → t.control.Settled) := by
  rcases putStep_cases stepped with ⟨at_, rfl, rfl⟩ | ⟨at_, rfl, control, -⟩ | ⟨c, at_, rfl, dead, -⟩ |
      ⟨c, c', at_, next_, control, -⟩ | ⟨at_, same, rfl⟩ | ⟨w, sh, q, at_, moved, rfl, rfl⟩ <;>
    rw [at_] at inFlight
  · -- check: what `HasPendingLocalChanges` reports decides
    obtain ⟨calm, file⟩ := inFlight
    split
    · exact ⟨trivial, fun _ _ => .of_calm calm file⟩
    · exact ⟨⟨calm, file⟩, fun stuck => by cases stuck⟩
  · -- mutate: the setter call and the ghost move together
    obtain ⟨⟨config, idle, events⟩, file⟩ := inFlight
    rw [control]
    exact ⟨⟨⟨congrArg p.setting.store config, idle, events⟩, p.setting.store_store _, _, file⟩,
      fun stuck => by cases stuck⟩
  · -- a panic inside `UpdateConfig`
    exact ⟨trivial, fun _ alive => by rw [dead] at alive; cases alive⟩
  · -- a step of `UpdateConfig` keeps the atomics
    rw [control]
    rcases next_ with rfl | rfl <;> exact ⟨inFlight, fun stuck => by cases stuck⟩
  · -- readOther: the document is the stored pair
    rw [same]
    obtain ⟨calm, stored, d, file⟩ := inFlight
    refine ⟨⟨?_, calm, d, file⟩, fun stuck => by cases stuck⟩
    have config : s.config = s.lastSet := calm.1
    rw [config]
    exact Setting.document_of_stored stored
  · -- a step of the persist
    obtain ⟨after, settles⟩ := writerStep_inFlight inFlight moved
    refine ⟨after, fun idle _ => settles ?_⟩
    by_contra going
    rw [if_neg going] at idle
    cases idle

/-- In a list with at most one busy entry, two busy entries are one. -/
theorem two_le_countP {α : Type} {f : α → Bool} {l : List α} {i j : Nat} {x y : α} (lt : i < j)
    (first : l[i]? = some x) (second : l[j]? = some y) (fx : f x = true) (fy : f y = true) :
    2 ≤ l.countP f := by
  induction l generalizing i j with
  | nil => cases first
  | cons a t ih =>
    obtain _ | j := j
    · omega
    rw [List.getElem?_cons_succ] at second
    rw [List.countP_cons]
    obtain _ | i := i
    · have rest : 0 < t.countP f := List.countP_pos_iff.mpr ⟨y, List.getElem?_mem second, fy⟩
      simp only [List.getElem?_cons_zero, Option.some.injEq] at first
      subst first
      simp only [fx, if_true]
      omega
    · rw [List.getElem?_cons_succ] at first
      have := ih (Nat.lt_of_succ_lt_succ lt) first second
      omega

/-- With at most one busy PUT, a busy PUT after a PUT's step is the one that
stepped. -/
theorem eq_of_mem_set_busy {puts : List Put} {i : Nat} {p p' q : Put} (one : puts.countP Put.busy ≤ 1)
    (found : puts[i]? = some p) (busy : p.busy = true) (member : q ∈ puts.set i p')
    (qBusy : q.busy = true) : q = p' := by
  obtain ⟨j, at_j⟩ := List.mem_iff_getElem?.mp member
  by_cases same : i = j
  · subst same
    rw [List.getElem?_set_self (List.getElem?_eq_some_iff.mp found).1] at at_j
    exact (Option.some.inj at_j).symm
  · rw [List.getElem?_set_ne same] at at_j
    rcases Nat.lt_or_gt_of_ne same with lt | gt
    · have := two_le_countP lt found at_j busy qBusy; omega
    · have := two_le_countP gt at_j found qBusy busy; omega

/-- What holds in every state a serial run reaches while no `Stop` has
panicked. -/
structure SerialInv (s : Plane) : Prop where
  oneBusy : s.puts.countP Put.busy ≤ 1
  settled : s.host.sys.panicked = false → (∀ p ∈ s.puts, p.busy = false) → s.control.Settled
  inFlight : s.host.sys.panicked = false → ∀ p ∈ s.puts, s.control.InFlight p.setting p.phase

section Serial

variable {s : Plane}

theorem inFlight_arrive {c : Control} (calm : c.Calm) (file : unmarshalConfig c.shared.file = .ok c.goal)
    (e : Endpoint) (body : Body) : c.InFlight (Put.arrive e body).setting (Put.arrive e body).phase := by
  cases e <;> simp only [Put.arrive] <;> split
  · trivial
  · split <;> exact ⟨calm, file⟩
  · trivial
  · exact ⟨calm, file⟩

theorem serialInv_arrive (inv : SerialInv s) (quiet : s.Quiescent) (e : Endpoint) (body : Body) :
    SerialInv { s with puts := s.puts ++ [Put.arrive e body] } := by
  obtain ⟨idle, watcherIdle, noEvents⟩ := quiet
  have none_busy : s.puts.countP Put.busy = 0 :=
    List.countP_eq_zero.mpr fun p member busy => by rw [idle p member] at busy; cases busy
  refine ⟨?_, fun alive _ => inv.settled alive idle, fun alive p member => ?_⟩
  · rw [List.countP_append, none_busy, Nat.zero_add]
    exact List.countP_le_length _
  · rcases List.mem_append.mp member with member | member
    · exact inv.inFlight alive p member
    · rw [List.mem_singleton.mp member]
      have settled := inv.settled alive idle
      exact inFlight_arrive (settled.calm watcherIdle noEvents) settled.file e body

/-- A PUT's step never clears a panic. -/
theorem putStep_alive {i : Nat} {t : Plane} {p : Put} {phase : PutPhase}
    (stepped : putStep i s p = some (t, phase)) (alive : t.host.sys.panicked = false) :
    s.host.sys.panicked = false := by
  rcases putStep_cases stepped with ⟨-, rfl, -⟩ | ⟨-, -, -, same⟩ | ⟨-, -, -, dead, -⟩ |
      ⟨-, -, -, -, -, same⟩ | ⟨-, rfl, -⟩ | ⟨-, sh, -, -, -, rfl, -⟩
  · exact alive
  · exact same ▸ alive
  · rw [dead] at alive; cases alive
  · exact same ▸ alive
  · exact alive
  · exact alive

theorem serialInv_put {i : Nat} {p : Put} {t : Plane} {phase : PutPhase} (inv : SerialInv s)
    (found : s.puts[i]? = some p) (moved : putStep i s p = some (t, phase)) :
    SerialInv { t with puts := s.puts.set i { p with phase := phase } } := by
  have busy := putStep_busy moved
  have lt := (List.getElem?_eq_some_iff.mp found).1
  refine ⟨(countP_set_busy_le found busy).trans inv.oneBusy, fun alive idle => ?_, fun alive q member => ?_⟩
  all_goals
    have before := putStep_alive moved alive
    obtain ⟨after, settles⟩ := putStep_inFlight (inv.inFlight before p (List.getElem?_mem found)) moved
  · exact settles (idle _ (List.getElem?_mem (List.getElem?_set_self lt))) alive
  · by_cases qBusy : q.busy
    · rw [eq_of_mem_set_busy inv.oneBusy found busy member qBusy]
      exact after
    · exact Control.inFlight_of_idle (by simpa [Put.busy] using qBusy)

theorem serialInv_step {s' : Plane} {label : Plane.Label} (inv : SerialInv s)
    (stepped : Plane.next true s label = some s') : SerialInv s' := by
  obtain ⟨e, body, quiet, rfl⟩ | ⟨i, p, t, phase, found, moved, rfl⟩ | ⟨sh, taken | applied, rfl⟩ |
      ⟨h, rfl, config, panicked⟩ := Plane.next_cases stepped
  · exact serialInv_arrive inv (quiet rfl) e body
  · exact serialInv_put inv found moved
  · exact ⟨inv.oneBusy, fun alive idle => (inv.settled alive idle).take taken,
      fun alive p member => (inv.inFlight alive p member).take taken⟩
  · exact ⟨inv.oneBusy, fun alive idle => (inv.settled alive idle).apply applied,
      fun alive p member => (inv.inFlight alive p member).apply applied⟩
  · -- the loops and the working copy leave what the PUTs read alone
    have same : ({ s with host := h } : Plane).control = s.control := by
      simp only [Plane.control, Plane.shared, Plane.config, config]
    refine ⟨inv.oneBusy, fun alive => ?_, fun alive => ?_⟩ <;> rw [same] <;>
      first | exact inv.settled (panicked ▸ alive) | exact inv.inFlight (panicked ▸ alive)

theorem serialInv_reachable {h : Host} {file : List Char}
    (agree : unmarshalConfig file = .ok ⟨h.sys.sched.config.readOnly, h.sys.sched.config.syncIntervalMinutes⟩)
    (reach : Plane.Reachable true (Plane.start h file) s) : SerialInv s := by
  induction reach with
  | init => exact ⟨Nat.zero_le 1, fun _ _ => .of_calm ⟨rfl, rfl, rfl⟩ agree, fun _ _ member => nomatch member⟩
  | step _ _ stepped inv => exact serialInv_step inv stepped

end Serial

/-- **Serial PUTs keep the two copies equal while no `Stop` panics.** Start
from any scheduler and working copy, and a side file that decodes to the
atomics. Let each PUT arrive only once the previous ones have answered and the
watcher has settled, with the scheduler's loops, local changes and what a
sync's calls answer changing in any order. At every reachable state where
every PUT has answered, no reload is left and no `Stop` has panicked, the side
file decodes to the atomics, and the atomics hold what the setter calls stored
last. -/
theorem serial_puts_keep_copies (h : Host) (file : List Char)
    (agree : unmarshalConfig file = .ok ⟨h.sys.sched.config.readOnly, h.sys.sched.config.syncIntervalMinutes⟩)
    (s : Plane) (reach : Plane.Reachable true (Plane.start h file) s) (quiet : s.Quiescent)
    (alive : s.host.sys.panicked = false) :
    unmarshalConfig s.file = .ok ⟨s.config.readOnly, s.config.syncIntervalMinutes⟩ ∧ s.config = s.lastSet := by
  obtain ⟨idle, watcherIdle, noEvents⟩ := quiet
  have settled := (serialInv_reachable agree reach).settled alive idle
  have calm := settled.calm watcherIdle noEvents
  have config : s.config = s.lastSet := calm.1
  exact ⟨by rw [config]; exact settled.file, config⟩

/-- The two PUTs of `lostUpdate`, one after the other, each followed by its
reloads. -/
def serialPuts : List Plane.Label :=
  [.arrive .readOnly (readOnlyBody true), .put 0, .put 0, .put 0, .put 0, .put 0, .put 0, .put 0, .put 0,
    .put 0, .take, .apply, .take, .apply,
    .arrive .syncInterval (intervalBody 10), .put 1, .put 1, .put 1, .put 1, .put 1, .put 1,
    .take, .apply, .take, .apply]

set_option maxRecDepth 2000 in
theorem serial_puts_keep_copies_one_by_one :
    ∃ s, Plane.exec true offPlane serialPuts = some s ∧ s.Quiescent ∧ s.host.sys.panicked = false ∧
      unmarshalConfig s.file = .ok ⟨s.config.readOnly, s.config.syncIntervalMinutes⟩ ∧ s.config = s.lastSet :=
  ⟨_, rfl, by decide, rfl, serial_puts_keep_copies ⟨newGitScheduler true true ⟨false, 30⟩, false, mainOnly⟩
    (marshalIndent ⟨false, 30⟩) (unmarshalConfig_marshalIndent _) _ (Plane.reachable_of_exec serialPuts .init rfl)
    (by decide) rfl⟩

/-- The serial PUTs read_only=true, false, true, false, each followed by its
reloads. `Stop` closed the first loop's channel without replacing it, so the
third PUT's `Start` runs a loop on it, and the fourth PUT's `Stop` closes it
again: that goroutine panics after `SetReadOnlyStorage(false)`, before its
writes, and `h.mu` stays held. -/
def stopPanic : List Plane.Label :=
  [.arrive .readOnly (readOnlyBody true), .put 0, .put 0, .put 0, .put 0, .put 0, .put 0, .put 0, .put 0,
    .put 0, .take, .apply, .take, .apply,
    .arrive .readOnly (readOnlyBody false), .put 1, .put 1, .put 1, .put 1, .put 1, .put 1, .put 1,
    .take, .apply, .take, .apply,
    .arrive .readOnly (readOnlyBody true), .put 2, .put 2, .put 2, .put 2, .put 2, .put 2, .put 2, .put 2,
    .put 2, .take, .apply, .take, .apply,
    .arrive .readOnly (readOnlyBody false), .put 3, .put 3, .put 3]

set_option maxRecDepth 4000 in
example : ∃ s, Plane.exec true offPlane stopPanic = some s ∧ s.Quiescent ∧ s.host.sys.panicked = true ∧
    s.mu = some 3 ∧ s.config.readOnly = false ∧ unmarshalConfig s.file = .ok ⟨true, 30⟩ :=
  ⟨_, rfl, by decide, rfl, rfl, rfl, rfl⟩

/-! ## The interval stays at least a minute -/

end ReadOnlyStorage.Management
