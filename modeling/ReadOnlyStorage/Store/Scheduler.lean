/-
# Store.Scheduler — the GitScheduler, its run loops, and their interleavings

`GitScheduler` keeps `config`, `tokenStore`, `stopCh` and `running` under one
mutex. `Start`, `Stop` and `UpdateConfig` run on their callers' goroutines;
each critical section under `s.mu` is one atomic step (`startLocked`,
`stopLocked`, `updateConfigLocked`), and the read of `s.stopCh` in
`go s.run(s.stopCh)` is a step of its own, taken after `Start` has released
the lock. Every `run` instance is a `Loop`: it reads `config` and `running`
under the lock, checks the read-only atomic, runs `sync` (which checks it once
more before `EnsureRepository`, fetch and hard reset), arms its timer from the
interval atomic, and waits on the timer (or a one-second poll) against
`ctx.Done()`, which its helper goroutine closes once it sees the stop channel
closed.

The handler hands the scheduler its own `*config.Config`, so there is one
Config object: `GitScheduler.config` is its two atomics, which other
goroutines set at any time (`setConfig`). Channels are named by the order
`make(chan struct{})` created them; closing a closed one is the runtime panic,
after which nothing steps (`panicked`). A `System` is the scheduler with the
goroutines of the calls made on it; a critical section sees only the
scheduler.

`next serial s label` is one step of the whole system. With `serial` set, a
lifecycle call begins only once every earlier one has returned, which is how
the management handler calls them under `h.mu`. `next_cases` says once what a
step can do; the invariants in `Store.Lifecycle` are derived from it.
-/
import ReadOnlyStorage.Config.SideFile

namespace ReadOnlyStorage.Store

open ReadOnlyStorage.Config

set_option autoImplicit false

/-! ## The sync interval -/

/-- `time.Minute`, in nanoseconds. -/
def minute : BitVec 64 := 60000000000

/-- The timer `run` arms after a sync: `time.Duration(m) * time.Minute` in
64-bit arithmetic, replaced by `60 * time.Minute` when not positive. -/
def syncInterval (m : BitVec 64) : BitVec 64 :=
  let interval := m * minute
  if interval.toInt ≤ 0 then 60 * minute else interval

/-! ## State -/

/-- Where one `run(stopCh)` instance is. -/
inductive LoopPhase where
  /-- about to read `s.config` and `s.running` under `s.mu` -/
  | top
  /-- `running` and a config were read: about to read `cfg.IsReadOnlyStorage()` -/
  | checking
  /-- inside `s.sync()`, about to read `s.config.IsReadOnlyStorage()` -/
  | syncing
  /-- inside `s.sync()`: `EnsureRepository`, then fetch and hard reset -/
  | pulling
  /-- in the `select` on the armed timer and `ctx.Done()` -/
  | waiting (interval : BitVec 64)
  /-- read-only is off: in the `select` on `ctx.Done()` and the one-second poll -/
  | idle
  | exited
  deriving DecidableEq, Repr

/-- A run-loop instance, and whether its helper goroutine has cancelled its
context. -/
structure Loop where
  stopCh : Nat
  phase : LoopPhase
  cancelled : Bool
  deriving DecidableEq, Repr

/-- What a loop does next: the next statement, or one case of its `select`. -/
inductive Move where
  | proceed
  /-- the timer (or the one-second poll) fires -/
  | tick
  /-- `ctx.Done()` is ready -/
  | done
  deriving DecidableEq, Repr

/-- A lifecycle call as its caller makes it. `UpdateConfig` is handed the one
Config object, never nil. -/
inductive Entry where
  | start
  | stop
  | updateConfig
  deriving DecidableEq, Repr

/-- A lifecycle call's goroutine, by the step it takes next. -/
inductive Call where
  | start
  /-- `Start` released `s.mu`; `go s.run(s.stopCh)` has yet to read `s.stopCh` -/
  | spawn
  | stop
  | updateConfig
  | done
  deriving DecidableEq, Repr

def Entry.toCall : Entry → Call
  | .start => .start
  | .stop => .stop
  | .updateConfig => .updateConfig

/-- `GitScheduler`, its two pointers by whether they are nil, with what lives
around it: the atomics of the one Config object, the channels `make` has
created (numbered from `0`, `made` the next) and which of them are closed, and
the `run` instances. -/
structure GitScheduler where
  hasConfig : Bool
  hasTokenStore : Bool
  stopCh : Nat
  running : Bool
  config : ConfigState
  made : Nat
  closed : List Nat
  loops : List Loop
  deriving DecidableEq, Repr

/-- The scheduler, the goroutines of the lifecycle calls made on it, and
whether one of them has panicked. -/
structure System where
  sched : GitScheduler
  calls : List Call
  panicked : Bool
  deriving DecidableEq, Repr

/-- `NewGitScheduler(cfg, store)`: stopped, with one fresh channel. -/
def newGitScheduler (hasConfig hasTokenStore : Bool) (config : ConfigState) : System where
  sched := ⟨hasConfig, hasTokenStore, 0, false, config, 1, [], []⟩
  calls := []
  panicked := false

/-! ## The critical sections -/

/-- `close(s.stopCh)`: `none` is the panic of closing a closed channel. -/
def GitScheduler.closeStopCh (s : GitScheduler) : Option GitScheduler :=
  if s.stopCh ∈ s.closed then none
  else some { s with closed := s.stopCh :: s.closed }

/-- The first branch of `Start`: a running scheduler is stopped and its
channel replaced by a fresh one. -/
def GitScheduler.stopExisting (s : GitScheduler) : Option GitScheduler :=
  if s.running then
    (s.closeStopCh).map fun s => { s with running := false, stopCh := s.made, made := s.made + 1 }
  else some s

/-- The rest of `Start` under `s.mu`: with a config and a token store,
`running` is set and a loop is to be spawned; otherwise `Start` returns its
error. -/
def GitScheduler.markRunning (s : GitScheduler) : GitScheduler × Option String :=
  if !s.hasConfig then (s, some "configuration is nil")
  else if !s.hasTokenStore then (s, some "token store is nil")
  else ({ s with running := true }, none)

/-- `Start` under `s.mu`: the state after it, and the error `Start` returns,
`none` when it goes on to spawn a loop. -/
def startLocked (s : GitScheduler) : Option (GitScheduler × Option String) :=
  s.stopExisting.map GitScheduler.markRunning

/-- `Stop` under `s.mu`. -/
def stopLocked (s : GitScheduler) : Option GitScheduler :=
  if s.running then (s.closeStopCh).map fun s => { s with running := false }
  else some s

/-- `UpdateConfig(cfg)` under `s.mu`, and the call it makes after releasing
it: `Start` when read-only is on and the scheduler is not running, `Stop` in
the opposite case. -/
def updateConfigLocked (s : GitScheduler) : GitScheduler × Call :=
  ({ s with hasConfig := true },
    if s.config.readOnly && !s.running then .start
    else if !s.config.readOnly && s.running then .stop else .done)

/-- `go s.run(s.stopCh)`, with `s.stopCh` read now. -/
def GitScheduler.spawn (s : GitScheduler) : GitScheduler :=
  { s with loops := s.loops ++ [⟨s.stopCh, .top, false⟩] }

/-- The next step of a call: the scheduler after it and what the call does
next; `none` when it panics. -/
def callStep (s : GitScheduler) : Call → Option (GitScheduler × Call)
  | .start => (startLocked s).map fun (s, err) => (s, if err.isNone then .spawn else .done)
  | .spawn => some (s.spawn, .done)
  | .stop => (stopLocked s).map fun s => (s, .done)
  | .updateConfig => some (updateConfigLocked s)
  | .done => some (s, .done)

/-- A lifecycle call leaves the Config atomics alone. -/
theorem callStep_config {s s' : GitScheduler} {c c' : Call} (stepped : callStep s c = some (s', c')) :
    s'.config = s.config := by
  cases c <;> simp only [callStep, Option.map_eq_some', Option.some.injEq, Prod.mk.injEq] at stepped
  case start =>
    obtain ⟨⟨g, _⟩, started, rfl, -⟩ := stepped
    obtain ⟨g₀, stopped, marked⟩ := Option.map_eq_some'.mp started
    have kept : g₀.config = s.config := by
      unfold GitScheduler.stopExisting GitScheduler.closeStopCh at stopped
      split at stopped
      · split at stopped <;> cases stopped; rfl
      · cases stopped; rfl
    unfold GitScheduler.markRunning at marked
    split at marked
    · cases marked; exact kept
    · split at marked <;> cases marked <;> exact kept
  case stop =>
    obtain ⟨g, stopped, rfl, -⟩ := stepped
    unfold stopLocked GitScheduler.closeStopCh at stopped
    split at stopped
    · split at stopped <;> cases stopped; rfl
    · cases stopped; rfl
  all_goals obtain ⟨rfl, -⟩ := stepped; rfl

/-! ## The run loop -/

/-- The phase a loop moves to, or `none` when the move is not enabled. -/
def loopNext (s : GitScheduler) (l : Loop) : Move → Option LoopPhase
  | .proceed => match l.phase with
    | .top => some (if !s.running then .exited
        else if s.hasConfig then .checking else .idle)
    | .checking => some (if s.config.readOnly then .syncing else .idle)
    | .syncing => some (if s.config.readOnly then .pulling
        else .waiting (syncInterval s.config.syncIntervalMinutes))
    | .pulling => some (.waiting (syncInterval s.config.syncIntervalMinutes))
    | _ => none
  | .tick => match l.phase with
    | .waiting _ | .idle => some .top
    | _ => none
  | .done => match l.phase with
    | .waiting _ | .idle => if l.cancelled then some .exited else none
    | _ => none

/-- A loop that has exited takes no step. -/
theorem loopNext_exited (s : GitScheduler) (l : Loop) (m : Move) (gone : l.phase = .exited) :
    loopNext s l m = none := by
  cases m <;> simp [loopNext, gone]

/-! ## Interleavings -/

inductive Label where
  /-- a caller enters `Start`, `Stop` or `UpdateConfig` -/
  | begin (e : Entry)
  /-- the `i`-th call takes its next step -/
  | call (i : Nat)
  | loop (i : Nat) (m : Move)
  /-- the helper of loop `i` sees its stop channel closed and calls `cancel()` -/
  | cancel (i : Nat)
  /-- another goroutine calls `SetReadOnlyStorage` / `SetSyncIntervalMinutes` -/
  | setConfig (c : ConfigState)
  deriving DecidableEq, Repr

/-- One step of the system; `none` when the label is not enabled. -/
def next (serial : Bool) (s : System) (label : Label) : Option System :=
  if s.panicked then none else
  match label with
  | .begin e =>
      if serial && s.calls.any (· != .done) then none
      else some { s with calls := s.calls ++ [e.toCall] }
  | .call i => match s.calls[i]? with
    | none | some .done => none
    | some c => some (match callStep s.sched c with
      | none => { s with panicked := true }
      | some (g, c') => { s with sched := g, calls := s.calls.set i c' })
  | .loop i m => match s.sched.loops[i]? with
    | none => none
    | some l => (loopNext s.sched l m).map fun p =>
        { s with sched := { s.sched with loops := s.sched.loops.set i { l with phase := p } } }
  | .cancel i => match s.sched.loops[i]? with
    | none => none
    | some l => if l.stopCh ∈ s.sched.closed && !l.cancelled then
        some { s with sched := { s.sched with loops := s.sched.loops.set i { l with cancelled := true } } }
      else none
  | .setConfig c => some { s with sched := { s.sched with config := c } }

/-- The states a run from `init` reaches. -/
inductive Reachable (serial : Bool) (init : System) : System → Prop where
  | init : Reachable serial init init
  | step {s s' : System} (label : Label) :
      Reachable serial init s → next serial s label = some s' → Reachable serial init s'

/-- A run, replayed label by label. -/
def exec (serial : Bool) : System → List Label → Option System
  | s, [] => some s
  | s, label :: rest => (next serial s label).bind fun s' => exec serial s' rest

theorem reachable_of_exec {serial : Bool} {init : System} :
    ∀ {s s' : System} (labels : List Label),
      Reachable serial init s → exec serial s labels = some s' → Reachable serial init s'
  | _, _, [], reach, ran => by cases ran; exact reach
  | s, _, label :: rest, reach, ran => by
    simp only [exec, Option.bind_eq_some] at ran
    obtain ⟨s₁, stepped, ran⟩ := ran
    exact reachable_of_exec rest (.step label reach stepped) ran

/-! ## What one step can do -/

/-- Every step, by its label: a call begins (serially, only when every call has
returned), a call steps or panics, a loop moves, a helper cancels, or the
atomics change. -/
theorem next_cases {serial : Bool} {s s' : System} {label : Label}
    (stepped : next serial s label = some s') :
    s.panicked = false ∧
    ((∃ e : Entry, (serial = true → ∀ c ∈ s.calls, c = .done) ∧
        s' = { s with calls := s.calls ++ [e.toCall] }) ∨
     (∃ i c, s.calls[i]? = some c ∧ c ≠ .done ∧
        ((callStep s.sched c = none ∧ s' = { s with panicked := true }) ∨
         ∃ g c', callStep s.sched c = some (g, c') ∧
          s' = { s with sched := g, calls := s.calls.set i c' })) ∨
     (∃ i l m p, s.sched.loops[i]? = some l ∧ loopNext s.sched l m = some p ∧
        s' = { s with sched := { s.sched with loops := s.sched.loops.set i { l with phase := p } } }) ∨
     (∃ i l, s.sched.loops[i]? = some l ∧ l.stopCh ∈ s.sched.closed ∧
        s' = { s with sched := { s.sched with loops := s.sched.loops.set i { l with cancelled := true } } }) ∨
     (∃ c, s' = { s with sched := { s.sched with config := c } })) := by
  cases alive : s.panicked
  case true => simp [next, alive] at stepped
  refine ⟨rfl, ?_⟩
  cases label with
  | begin e =>
    simp only [next, alive, Bool.false_eq_true, if_false] at stepped
    split at stepped
    · cases stepped
    · case _ idle =>
      refine .inl ⟨e, fun ser c member => ?_, (Option.some.inj stepped).symm⟩
      simp only [ser, Bool.true_and, List.any_eq_true, bne_iff_ne, ne_eq] at idle
      exact Classical.not_not.mp fun busy => idle ⟨c, member, busy⟩
  | call i =>
    simp only [next, alive, Bool.false_eq_true, if_false] at stepped
    split at stepped
    · cases stepped
    · cases stepped
    · case _ c notDone found =>
      cases stepped
      refine .inr (.inl ⟨i, c, found, fun done => notDone done, ?_⟩)
      split
      · exact .inl ⟨‹_›, rfl⟩
      · exact .inr ⟨_, _, ‹_›, rfl⟩
  | loop i m =>
    simp only [next, alive, Bool.false_eq_true, if_false] at stepped
    split at stepped
    · cases stepped
    · case _ l found =>
      obtain ⟨p, moved, rfl⟩ := Option.map_eq_some'.mp stepped
      exact .inr (.inr (.inl ⟨i, l, m, p, found, moved, rfl⟩))
  | cancel i =>
    simp only [next, alive, Bool.false_eq_true, if_false] at stepped
    split at stepped
    · cases stepped
    · case _ l found =>
      split at stepped
      · case _ closed =>
        cases stepped
        exact .inr (.inr (.inr (.inl ⟨i, l, found, by simp_all, rfl⟩)))
      · cases stepped
  | setConfig c =>
    simp only [next, alive, Bool.false_eq_true, if_false, Option.some.injEq] at stepped
    exact .inr (.inr (.inr (.inr ⟨c, stepped.symm⟩)))

end ReadOnlyStorage.Store
