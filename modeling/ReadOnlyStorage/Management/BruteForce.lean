/-
# Management.BruteForce — how many wrong keys one client gets per ban window

The requests of one remote client, each a goroutine running `Middleware`'s
phases as separate steps: the ban check under `attemptsMu` (`check`), then the
key check and `fail()` or the reset under `attemptsMu` again (`settle`). The
clock moves forward between any two steps (`tick`). The `log` keeps every
response with the time it was sent.

* `serial_rejections_per_window`: when the client's requests are handled one
  after another, every window of `banDuration` in which none of them got
  through holds at most `maxFailures` 401s. The fifth failure sets a ban that
  outlasts the window, and a ban can only expire after its window has closed.
* `concurrent_guesses_exceed_limit`: six guesses that all pass the ban check
  before the first `fail()` all get their key checked: six 401s at one instant.
* `ban_within_duration`: in any interleaving, a failure renews the ban from
  the current time, so the ban check refuses with at most `banDuration` left,
  and the record counts fewer than `maxFailures` failures.
-/
import ReadOnlyStorage.Management.Middleware

namespace ReadOnlyStorage.Management

set_option autoImplicit false

/-! ## One client's requests -/

/-- Where one request is: waiting for the ban check, past it and waiting for
the key check and its effect, or answered. -/
inductive Stage where
  | arrived (req : Request)
  | checked (req : Request)
  | answered
  deriving DecidableEq, Repr

def Stage.busy : Stage → Bool
  | .answered => false
  | _ => true

/-- The clock, the client's attempt record, its requests, and the responses
sent, with their times. -/
structure Traffic where
  now : Nat
  record : Option AttemptInfo
  stages : List Stage
  log : List (Nat × Outcome)
  deriving DecidableEq, Repr

/-- The record as `Middleware` reads it: no record counts as a zero one. -/
def Traffic.info (s : Traffic) : AttemptInfo := s.record.getD ⟨0, none⟩

def Traffic.start (now : Nat) (record : Option AttemptInfo) : Traffic := ⟨now, record, [], []⟩

inductive Traffic.Label where
  | arrive (req : Request)
  | check (i : Nat)
  | settle (i : Nat)
  | tick (t : Nat)
  deriving DecidableEq, Repr

section Steps

variable (bcrypt : String → String → Bool) (h : Handler)

/-- One step; with `serial` set a request arrives only once every earlier one
has been answered. -/
def Traffic.next (serial : Bool) (s : Traffic) : Traffic.Label → Option Traffic
  | .arrive req =>
      if serial && s.stages.any Stage.busy then none
      else some { s with stages := s.stages ++ [.arrived req] }
  | .check i => match s.stages[i]? with
    | some (.arrived req) => some (match banCheck s.record s.now with
      | .banned remaining =>
          { s with stages := s.stages.set i .answered,
                   log := s.log ++ [(s.now, .abort 403 (bannedMessage remaining))] }
      | .clear record => { s with record := record, stages := s.stages.set i (.checked req) })
    | _ => none
  | .settle i => match s.stages[i]? with
    | some (.checked req) =>
        let (outcome, effect) := checkKey bcrypt h false req
        some { s with record := effect.apply s.record s.now, stages := s.stages.set i .answered,
                      log := s.log ++ [(s.now, outcome)] }
    | _ => none
  | .tick t => if s.now ≤ t then some { s with now := t } else none

inductive Traffic.Reachable (serial : Bool) (init : Traffic) : Traffic → Prop where
  | init : Traffic.Reachable serial init init
  | step {s s' : Traffic} (label : Traffic.Label) :
      Traffic.Reachable serial init s → Traffic.next bcrypt h serial s label = some s' →
      Traffic.Reachable serial init s'

def Traffic.exec (serial : Bool) : Traffic → List Traffic.Label → Option Traffic
  | s, [] => some s
  | s, label :: rest =>
      (Traffic.next bcrypt h serial s label).bind fun s' => Traffic.exec serial s' rest

theorem Traffic.reachable_of_exec {serial : Bool} {init : Traffic} :
    ∀ {s s' : Traffic} (labels : List Traffic.Label),
      Traffic.Reachable bcrypt h serial init s → Traffic.exec bcrypt h serial s labels = some s' →
      Traffic.Reachable bcrypt h serial init s'
  | _, _, [], reach, ran => by cases ran; exact reach
  | s, _, label :: rest, reach, ran => by
    simp only [Traffic.exec, Option.bind_eq_some] at ran
    obtain ⟨s₁, stepped, ran⟩ := ran
    exact Traffic.reachable_of_exec rest (.step label reach stepped) ran

/-- Every step, by its label. -/
theorem Traffic.next_cases {serial : Bool} {s s' : Traffic} {label : Traffic.Label}
    (stepped : Traffic.next bcrypt h serial s label = some s') :
    (∃ req, (serial = true → ∀ st ∈ s.stages, st.busy = false) ∧
        s' = { s with stages := s.stages ++ [.arrived req] }) ∨
    (∃ i req remaining, s.stages[i]? = some (.arrived req) ∧
        banCheck s.record s.now = .banned remaining ∧
        s' = { s with stages := s.stages.set i .answered,
                      log := s.log ++ [(s.now, .abort 403 (bannedMessage remaining))] }) ∨
    (∃ i req record, s.stages[i]? = some (.arrived req) ∧ banCheck s.record s.now = .clear record ∧
        s' = { s with record := record, stages := s.stages.set i (.checked req) }) ∨
    (∃ i req, s.stages[i]? = some (.checked req) ∧
        s' = { s with record := (checkKey bcrypt h false req).2.apply s.record s.now,
                      stages := s.stages.set i .answered,
                      log := s.log ++ [(s.now, (checkKey bcrypt h false req).1)] }) ∨
    (∃ t, s.now ≤ t ∧ s' = { s with now := t }) := by
  cases label with
  | arrive req =>
    simp only [Traffic.next] at stepped
    split at stepped
    · cases stepped
    · next idle =>
      refine .inl ⟨req, fun ser st member => ?_, (Option.some.inj stepped).symm⟩
      simp only [ser, Bool.true_and, List.any_eq_true, not_exists, not_and] at idle
      simpa using idle st member
  | check i =>
    simp only [Traffic.next] at stepped
    split at stepped
    · next req found =>
      cases stepped
      split
      · exact .inr (.inl ⟨i, req, _, found, ‹_›, rfl⟩)
      · exact .inr (.inr (.inl ⟨i, req, _, found, ‹_›, rfl⟩))
    · cases stepped
  | settle i =>
    simp only [Traffic.next] at stepped
    split at stepped
    · next req found =>
      cases stepped
      exact .inr (.inr (.inr (.inl ⟨i, req, found, rfl⟩)))
    · cases stepped
  | tick t =>
    simp only [Traffic.next] at stepped
    split at stepped
    · cases stepped
      exact .inr (.inr (.inr (.inr ⟨t, ‹_›, rfl⟩)))
    · cases stepped

end Steps

/-! ## Counting 401s in a window -/

def Outcome.unauthorized : Outcome → Bool
  | .abort 401 _ => true
  | _ => false

/-- The 401s sent in `[a, a + banDuration)`. -/
def Traffic.rejectedIn (s : Traffic) (a : Nat) : Nat :=
  s.log.countP fun e => a ≤ e.1 && e.1 < a + banDuration && e.2.unauthorized

/-- No request got through in `[a, a + banDuration)`. -/
def Traffic.Quiet (s : Traffic) (a : Nat) : Prop :=
  ∀ e ∈ s.log, a ≤ e.1 → e.1 < a + banDuration → e.2 ≠ .next

instance (s : Traffic) (a : Nat) : Decidable (s.Quiet a) :=
  inferInstanceAs (Decidable (∀ e ∈ s.log, _))

/-- For a remote client the key check pairs `fail()` with a 401, the reset
with `c.Next()`, and leaves the record alone on a 403. -/
theorem checkKey_remote (bcrypt : String → String → Bool) (h : Handler) (req : Request) :
    ((checkKey bcrypt h false req).2 = .fail ∧ (checkKey bcrypt h false req).1.unauthorized = true) ∨
    ((checkKey bcrypt h false req).2 = .reset ∧ (checkKey bcrypt h false req).1 = .next) ∨
    ((checkKey bcrypt h false req).2 = .keep ∧
      (checkKey bcrypt h false req).1.unauthorized = false ∧ (checkKey bcrypt h false req).1 ≠ .next) := by
  simp only [checkKey, Bool.false_eq_true, if_false, Bool.not_false, Bool.true_and,
    Bool.false_and]
  repeat' split
  all_goals simp [Outcome.unauthorized]

/-- What a ban check clears: a record with no ban, untouched, or an expired
ban, reset. -/
theorem banCheck_clear_cases {record cleared : Option AttemptInfo} {now : Nat}
    (clear : banCheck record now = .clear cleared) :
    (cleared = record ∧ (record.getD ⟨0, none⟩).blockedUntil = none) ∨
    (∃ u, (record.getD ⟨0, none⟩).blockedUntil = some u ∧ u ≤ now ∧ cleared = some ⟨0, none⟩) := by
  unfold banCheck at clear
  split at clear
  · next blocked =>
    split at clear
    · cases clear
    · cases clear
      exact .inr ⟨blocked, rfl, by omega, rfl⟩
  · next unblocked =>
    cases clear
    refine .inl ⟨rfl, ?_⟩
    rcases record with _ | ⟨count, _ | u⟩
    · rfl
    · rfl
    · exact absurd rfl (unblocked count u)

/-- How the record stands towards the window `[a, a + banDuration)` while it
is open: no 401 in it yet, or no more 401s than failures counted and no ban, or
a ban lasting past its end. -/
def WindowOpen (a n : Nat) (info : AttemptInfo) : Prop :=
  n = 0 ∨ (info.blockedUntil = none ∧ n ≤ info.count) ∨
    ∃ u, info.blockedUntil = some u ∧ a + banDuration ≤ u

/-- A `fail()` inside the window, on a record with no ban. -/
theorem fail_windowOpen {a n now : Nat} {record : Option AttemptInfo}
    (unblocked : (record.getD ⟨0, none⟩).blockedUntil = none)
    (below : (record.getD ⟨0, none⟩).count < maxFailures)
    (counted : n ≤ (record.getD ⟨0, none⟩).count) (after : a ≤ now) :
    WindowOpen a (n + 1) (fail record now) ∧ n + 1 ≤ maxFailures := by
  refine ⟨?_, by omega⟩
  simp only [fail]
  split
  · exact .inr (.inr ⟨_, rfl, by omega⟩)
  · exact .inr (.inl ⟨unblocked, by simp only; omega⟩)

/-! ## Requests one after another -/

/-- What holds of a serial run, for the window starting at `a`. -/
structure WindowInv (a : Nat) (s : Traffic) : Prop where
  below : s.info.count < maxFailures
  past : ∀ e ∈ s.log, e.1 ≤ s.now
  oneRequest : s.stages.countP Stage.busy ≤ 1
  checkedClear : ∀ req, Stage.checked req ∈ s.stages → s.info.blockedUntil = none
  bound : s.Quiet a → s.rejectedIn a ≤ maxFailures
  window : s.Quiet a → s.now < a + banDuration → WindowOpen a (s.rejectedIn a) s.info

section Serial

variable {a : Nat} {s : Traffic}

theorem Traffic.quiet_of_append {t : Traffic} {e : Nat × Outcome} (logged : t.log = s.log ++ [e])
    (quiet : t.Quiet a) : s.Quiet a :=
  fun e' member => quiet e' (logged ▸ List.mem_append_left _ member)

theorem Traffic.rejectedIn_append {t : Traffic} (e : Nat × Outcome) (logged : t.log = s.log ++ [e]) :
    t.rejectedIn a =
      s.rejectedIn a + if (a ≤ e.1 && e.1 < a + banDuration && e.2.unauthorized) = true then 1 else 0 := by
  simp only [Traffic.rejectedIn, logged, List.countP_append, List.countP_cons, List.countP_nil,
    Nat.zero_add]

/-- Before the window opens, nothing in the log lies in it. -/
theorem Traffic.rejectedIn_eq_zero (past : ∀ e ∈ s.log, e.1 ≤ s.now) (early : s.now < a) :
    s.rejectedIn a = 0 :=
  List.countP_eq_zero.mpr fun e member inWindow => by
    simp only [Bool.and_eq_true, decide_eq_true_eq] at inWindow
    have := past e member
    omega

theorem Effect.apply_below {record : Option AttemptInfo} {now : Nat} (effect : Effect)
    (below : (record.getD ⟨0, none⟩).count < maxFailures) :
    ((effect.apply record now).getD ⟨0, none⟩).count < maxFailures := by
  cases effect with
  | keep => exact below
  | fail =>
    simp only [Effect.apply, Option.getD_some, Management.fail]
    split
    · show 0 < maxFailures; decide
    · simp only at *; omega
  | reset => cases record <;> simp [Effect.apply, maxFailures]

theorem busy_set_answered {stages : List Stage} {i : Nat} {st : Stage}
    (one : stages.countP Stage.busy ≤ 1) (found : stages[i]? = some st) (busy : st.busy = true) :
    ∀ st' ∈ stages.set i .answered, st'.busy = false := by
  obtain ⟨lt, rfl⟩ := List.getElem?_eq_some_iff.mp found
  have atLeast := List.boole_getElem_le_countP Stage.busy stages i lt
  rw [if_pos busy] at atLeast
  have none_busy : (stages.set i .answered).countP Stage.busy = 0 := by
    rw [List.countP_set _ _ _ _ lt, if_pos busy]
    simp only [Stage.busy, Bool.false_eq_true, if_false]
    omega
  intro st' member
  simpa using List.countP_eq_zero.mp none_busy st' member

/-- Replacing a busy entry never adds to the busy count. -/
theorem countP_set_busy_le {α : Type} {f : α → Bool} {stages : List α} {i : Nat} {st st' : α}
    (found : stages[i]? = some st) (busy : f st = true) :
    (stages.set i st').countP f ≤ stages.countP f := by
  obtain ⟨lt, rfl⟩ := List.getElem?_eq_some_iff.mp found
  have atLeast := List.boole_getElem_le_countP f stages i lt
  rw [if_pos busy] at atLeast
  rw [List.countP_set _ _ _ _ lt, if_pos busy]
  split <;> omega

theorem windowInv_start (now : Nat) (record : Option AttemptInfo)
    (fresh : (record.getD ⟨0, none⟩).count < maxFailures) :
    WindowInv a (Traffic.start now record) :=
  ⟨fresh, fun _ member => (nomatch member), Nat.zero_le 1, fun _ member => (nomatch member),
    fun _ => Nat.zero_le _, fun _ _ => .inl rfl⟩

/-- Logging an answer at the current time keeps every logged time in the past. -/
theorem WindowInv.past_append (inv : WindowInv a s) (o : Outcome) :
    ∀ e ∈ s.log ++ [(s.now, o)], e.1 ≤ s.now := fun e member => by
  rcases List.mem_append.mp member with member | member
  · exact inv.past e member
  · simp only [List.mem_singleton] at member; subst member; exact Nat.le_refl _

/-- A request arrives while none is under way. -/
theorem windowInv_arrive {req : Request} (inv : WindowInv a s) (idle : ∀ st ∈ s.stages, st.busy = false) :
    WindowInv a { s with stages := s.stages ++ [.arrived req] } := by
  refine ⟨inv.below, inv.past, ?_, fun r member => ?_, inv.bound, inv.window⟩
  · have none_busy : s.stages.countP Stage.busy = 0 :=
      List.countP_eq_zero.mpr fun st member => by simp [idle st member]
    simp [List.countP_append, none_busy, Stage.busy]
  · simp only [List.mem_append, List.mem_singleton, reduceCtorEq, or_false] at member
    exact inv.checkedClear r member

/-- A banned request answers 403 and leaves the record alone. -/
theorem windowInv_ban {i remaining : Nat} {req : Request} (inv : WindowInv a s)
    (found : s.stages[i]? = some (.arrived req)) :
    WindowInv a { s with stages := s.stages.set i .answered,
                         log := s.log ++ [(s.now, .abort 403 (bannedMessage remaining))] } := by
  have rejected := Traffic.rejectedIn_append (s := s) (a := a)
    (t := { s with stages := s.stages.set i .answered,
                    log := s.log ++ [(s.now, .abort 403 (bannedMessage remaining))] }) _ rfl
  simp only [Outcome.unauthorized, Bool.and_false, Bool.false_eq_true, if_false, Nat.add_zero]
    at rejected
  refine ⟨inv.below, inv.past_append _, Nat.le_trans (countP_set_busy_le found rfl) inv.oneRequest,
    fun r member => ?_, fun quiet => ?_, fun quiet => ?_⟩
  · rcases List.mem_or_eq_of_mem_set member with member | contra
    · exact inv.checkedClear r member
    · cases contra
  · rw [rejected]; exact inv.bound (Traffic.quiet_of_append rfl quiet)
  · rw [rejected]; exact inv.window (Traffic.quiet_of_append rfl quiet)

/-- A cleared request goes on to its key check; an expired ban is reset. -/
theorem windowInv_clear {i : Nat} {req : Request} {record : Option AttemptInfo} (inv : WindowInv a s)
    (found : s.stages[i]? = some (.arrived req)) (clear : banCheck s.record s.now = .clear record) :
    WindowInv a { s with record := record, stages := s.stages.set i (.checked req) } := by
  refine ⟨?_, inv.past, Nat.le_trans (countP_set_busy_le found rfl) inv.oneRequest,
    fun r _ => ?_, inv.bound, fun quiet open_ => ?_⟩
  · rcases banCheck_clear_cases clear with ⟨rfl, -⟩ | ⟨u, -, -, rfl⟩
    · exact inv.below
    · show 0 < maxFailures; decide
  · rcases banCheck_clear_cases clear with ⟨rfl, unblocked⟩ | ⟨u, -, -, rfl⟩
    · exact unblocked
    · rfl
  · dsimp only at open_
    rcases banCheck_clear_cases clear with ⟨rfl, -⟩ | ⟨u, blocked, expired, rfl⟩
    · exact inv.window quiet open_
    · rcases inv.window quiet open_ with none | ⟨unblocked, -⟩ | ⟨u', blocked', outlasts⟩
      · exact .inl none
      · rw [Traffic.info, blocked] at unblocked; cases unblocked
      · rw [Traffic.info, blocked] at blocked'
        cases blocked'
        omega

theorem windowInv_tick {t : Nat} (inv : WindowInv a s) (later : s.now ≤ t) :
    WindowInv a { s with now := t } :=
  ⟨inv.below, fun e member => Nat.le_trans (inv.past e member) later, inv.oneRequest,
    inv.checkedClear, inv.bound, fun quiet open_ => inv.window quiet (by simp only at open_; omega)⟩

/-- The request past its ban check runs `fail()` or the reset and answers. -/
theorem windowInv_settle (bcrypt : String → String → Bool) (h : Handler) {i : Nat} {req : Request}
    (inv : WindowInv a s) (found : s.stages[i]? = some (.checked req)) :
    WindowInv a { s with record := (checkKey bcrypt h false req).2.apply s.record s.now,
                         stages := s.stages.set i .answered,
                         log := s.log ++ [(s.now, (checkKey bcrypt h false req).1)] } := by
  have unblocked := inv.checkedClear req (List.getElem?_mem found)
  have idle := busy_set_answered inv.oneRequest found rfl
  have rejected := Traffic.rejectedIn_append (s := s) (a := a)
    (t := { s with record := (checkKey bcrypt h false req).2.apply s.record s.now,
                    stages := s.stages.set i .answered,
                    log := s.log ++ [(s.now, (checkKey bcrypt h false req).1)] }) _ rfl
  -- while the window is open, its 401s so far are among the failures counted
  have counted : s.Quiet a → s.now < a + banDuration → s.rejectedIn a ≤ s.info.count :=
    fun quiet open_ => by
      rcases inv.window quiet open_ with zero | ⟨-, le⟩ | ⟨u, blocked, -⟩
      · omega
      · exact le
      · rw [unblocked] at blocked; cases blocked
  refine ⟨Effect.apply_below _ inv.below, inv.past_append _,
    Nat.le_trans (countP_set_busy_le found rfl) inv.oneRequest,
    fun r member => absurd (idle _ member) (by simp [Stage.busy]), fun quiet => ?_,
    fun quiet open_ => ?_⟩
  · have quiet₀ := Traffic.quiet_of_append rfl quiet
    rw [rejected]
    split
    · next inWindow =>
      simp only [Bool.and_eq_true, decide_eq_true_eq] at inWindow
      have := counted quiet₀ inWindow.1.2
      have := inv.below
      omega
    · simpa using inv.bound quiet₀
  · have quiet₀ := Traffic.quiet_of_append rfl quiet
    simp only at open_
    rw [rejected]
    by_cases early : s.now < a
    · have zero := Traffic.rejectedIn_eq_zero inv.past early
      have outside : ¬ a ≤ s.now := by omega
      simp only [zero, outside, decide_False, Bool.false_and, Bool.false_eq_true, if_false]
      exact .inl rfl
    · rcases checkKey_remote bcrypt h req with ⟨fails, unauth⟩ | ⟨-, passes⟩ | ⟨keeps, notUnauth, -⟩
      · have opened := (fail_windowOpen (n := s.rejectedIn a) unblocked inv.below
          (counted quiet₀ open_) (Nat.le_of_not_lt early)).1
        simp only [fails, unauth, Effect.apply, Option.getD_some, Bool.and_true]
        rw [if_pos (by simp only [Bool.and_eq_true, decide_eq_true_eq]; omega)]
        exact opened
      · exact absurd passes (quiet _ (List.mem_append_right _ (List.mem_singleton_self _))
          (Nat.le_of_not_lt early) open_)
      · simp only [keeps, notUnauth, Effect.apply, Bool.and_false, Bool.false_eq_true, if_false,
          Nat.add_zero]
        exact inv.window quiet₀ open_

theorem windowInv_step (bcrypt : String → String → Bool) (h : Handler) {s' : Traffic}
    {label : Traffic.Label} (inv : WindowInv a s)
    (stepped : Traffic.next bcrypt h true s label = some s') : WindowInv a s' := by
  obtain ⟨req, idle, rfl⟩ | ⟨i, req, remaining, found, -, rfl⟩ |
      ⟨i, req, record, found, clear, rfl⟩ | ⟨i, req, found, rfl⟩ | ⟨t, later, rfl⟩ :=
    Traffic.next_cases bcrypt h stepped
  · exact windowInv_arrive inv (idle rfl)
  · exact windowInv_ban inv found
  · exact windowInv_clear inv found clear
  · exact windowInv_settle bcrypt h inv found
  · exact windowInv_tick inv later

theorem windowInv_reachable (bcrypt : String → String → Bool) (h : Handler) {now : Nat}
    {record : Option AttemptInfo} (fresh : (record.getD ⟨0, none⟩).count < maxFailures)
    (reach : Traffic.Reachable bcrypt h true (Traffic.start now record) s) : WindowInv a s := by
  induction reach with
  | init => exact windowInv_start now record fresh
  | step _ _ stepped inv => exact windowInv_step bcrypt h inv stepped

end Serial

/-- **At most five 401s per quiet window.** For every handler and bcrypt, every
starting time and record (its count below `maxFailures`, as every record's is),
and every run in which the client's requests are handled one after another at
non-decreasing times: every window `[a, a + banDuration)` in which no request
got through holds at most `maxFailures` 401s. -/
theorem serial_rejections_per_window (bcrypt : String → String → Bool) (h : Handler) (now : Nat)
    (record : Option AttemptInfo) (fresh : (record.getD ⟨0, none⟩).count < maxFailures)
    (s : Traffic) (reach : Traffic.Reachable bcrypt h true (Traffic.start now record) s)
    (a : Nat) (quiet : s.Quiet a) : s.rejectedIn a ≤ maxFailures :=
  (windowInv_reachable bcrypt h fresh reach (a := a)).bound quiet

/-! ## Guessing in parallel -/

/-- A handler with `MANAGEMENT_PASSWORD` set, so remote management is on. -/
def guardedHandler : Handler := newHandler none (some "s3cret")

/-- A wrong guess from a remote client. -/
def guess : Request := ⟨"203.0.113.7", "Bearer guess", ""⟩

/-- Six guesses, each answered before the next arrives: five 401s, then the ban
check refuses the sixth. -/
def serialGuesses : List Traffic.Label :=
  (List.range 5).flatMap (fun i => [.arrive guess, .check i, .settle i]) ++ [.arrive guess, .check 5]

theorem serial_rejections_per_window_guesses :
    ∃ s, Traffic.exec (fun _ _ => false) guardedHandler true (Traffic.start 0 none) serialGuesses =
        some s ∧ s.Quiet 0 ∧ s.rejectedIn 0 ≤ maxFailures :=
  ⟨_, rfl, by decide, serial_rejections_per_window (fun _ _ => false) guardedHandler 0 none
    (by decide) _ (Traffic.reachable_of_exec _ _ serialGuesses .init rfl) 0 (by decide)⟩

/-- Six guesses that all pass the ban check before any `fail()` runs. -/
def parallelGuesses : List Traffic.Label :=
  (List.range 6).map (fun _ => .arrive guess) ++ (List.range 6).map .check ++
    (List.range 6).map .settle

/-- Six 401s at one instant, and no success: the window from that instant
holds more than `maxFailures`. -/
theorem concurrent_guesses_exceed_limit :
    ∃ s, Traffic.exec (fun _ _ => false) guardedHandler false (Traffic.start 0 none) parallelGuesses =
        some s ∧ s.Quiet 0 ∧ s.rejectedIn 0 = 6 :=
  ⟨_, rfl, by decide, by decide⟩



/-! ## Any interleaving: a ban ends within half an hour -/

/-- What every run keeps, serial or not: fewer than `maxFailures` failures
counted, and a ban that ends at most `banDuration` after the clock. -/
structure BanInv (s : Traffic) : Prop where
  below : s.info.count < maxFailures
  banEnds : ∀ u, s.info.blockedUntil = some u → u ≤ s.now + banDuration

/-- A ban check refuses only before the ban ends, with the time left to it. -/
theorem banCheck_banned {record : Option AttemptInfo} {now remaining : Nat}
    (banned : banCheck record now = .banned remaining) :
    ∃ u, (record.getD ⟨0, none⟩).blockedUntil = some u ∧ now < u ∧ remaining = u - now := by
  unfold banCheck at banned
  split at banned
  · split at banned
    · cases banned
      exact ⟨_, rfl, ‹_›, rfl⟩
    · cases banned
  · cases banned

/-- `fail()` bans from the current time; the other effects keep or clear the ban. -/
theorem Effect.apply_banEnds {record : Option AttemptInfo} {now : Nat} (effect : Effect)
    (bounded : ∀ u, (record.getD ⟨0, none⟩).blockedUntil = some u → u ≤ now + banDuration) :
    ∀ u, ((effect.apply record now).getD ⟨0, none⟩).blockedUntil = some u → u ≤ now + banDuration := by
  cases effect with
  | keep => exact bounded
  | fail =>
    simp only [Effect.apply, Option.getD_some, Management.fail]
    split
    · intro u banned; cases banned; exact le_refl _
    · exact bounded
  | reset => cases record <;> simp [Effect.apply]

theorem banInv_step (bcrypt : String → String → Bool) (h : Handler) {serial : Bool} {s s' : Traffic}
    {label : Traffic.Label} (inv : BanInv s) (stepped : Traffic.next bcrypt h serial s label = some s') :
    BanInv s' := by
  obtain ⟨_, _, rfl⟩ | ⟨_, _, _, _, _, rfl⟩ | ⟨_, _, record, _, clear, rfl⟩ | ⟨_, req, _, rfl⟩ |
      ⟨t, later, rfl⟩ := Traffic.next_cases bcrypt h stepped
  · exact ⟨inv.below, inv.banEnds⟩
  · exact ⟨inv.below, inv.banEnds⟩
  · -- a ban check: the record as it was, or an expired ban cleared
    rcases banCheck_clear_cases clear with ⟨rfl, -⟩ | ⟨_, -, -, rfl⟩
    · exact ⟨inv.below, inv.banEnds⟩
    · exact ⟨show 0 < maxFailures by decide, fun _ cleared => nomatch cleared⟩
  · -- the key check's effect, at the current time
    exact ⟨Effect.apply_below _ inv.below, Effect.apply_banEnds _ inv.banEnds⟩
  · exact ⟨inv.below, fun u banned => (inv.banEnds u banned).trans (by simp only; omega)⟩

/-- **A ban ends within half an hour.** For every handler and bcrypt, and
however one client's requests interleave, from a record with fewer than
`maxFailures` failures and no ban ending more than `banDuration` ahead: in
every reachable state the record counts fewer than `maxFailures` failures, and
a ban check that refuses a request has more than nothing and at most
`banDuration` left, however many concurrent failures renewed the ban. -/
theorem ban_within_duration (bcrypt : String → String → Bool) (h : Handler) (serial : Bool)
    (now : Nat) (record : Option AttemptInfo) (below : (record.getD ⟨0, none⟩).count < maxFailures)
    (bounded : ∀ u, (record.getD ⟨0, none⟩).blockedUntil = some u → u ≤ now + banDuration)
    (s : Traffic) (reach : Traffic.Reachable bcrypt h serial (Traffic.start now record) s) :
    s.info.count < maxFailures ∧
      ∀ remaining, banCheck s.record s.now = .banned remaining → 0 < remaining ∧ remaining ≤ banDuration := by
  have inv : BanInv s := by
    induction reach with
    | init => exact ⟨below, bounded⟩
    | step _ _ stepped inv => exact banInv_step bcrypt h inv stepped
  refine ⟨inv.below, fun remaining banned => ?_⟩
  obtain ⟨u, blocked, active, rfl⟩ := banCheck_banned banned
  have ends := inv.banEnds u blocked
  omega

/-- After the six parallel guesses the client is banned for exactly
`banDuration`, its sixth failure counted on the banned record. -/
theorem ban_within_duration_after_parallel_guesses :
    ∃ s, Traffic.exec (fun _ _ => false) guardedHandler false (Traffic.start 0 none) parallelGuesses =
        some s ∧ s.info.count = 1 ∧ banCheck s.record s.now = .banned banDuration ∧
      s.info.count < maxFailures ∧
        ∀ remaining, banCheck s.record s.now = .banned remaining → 0 < remaining ∧ remaining ≤ banDuration :=
  ⟨_, rfl, rfl, rfl, ban_within_duration (fun _ _ => false) guardedHandler false 0 none (by decide)
    (fun _ blocked => nomatch blocked) _ (Traffic.reachable_of_exec _ _ parallelGuesses .init rfl)⟩

end ReadOnlyStorage.Management
