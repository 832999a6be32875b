/-
# Store.Sync — one sync, and the working copy it resets

`sync` reads the read-only atomic, has the token store ensure its repository,
and calls `pullChanges`: open the repository, fetch from `origin` (a remote
already up to date is no error), find the remote branch (`origin/HEAD`, else
`origin/main`, else `origin/master`) and hard-reset the worktree to its
commit. go-git and `GitTokenStore` are not among the sources: a `Repository`
is what each of their calls answers, and every theorem holds for all answers.

With read-only on, `sync` is `syncPull` (`sync_of_readOnly`). The nested
lookups pick the first of `remoteBranches` that resolves
(`remoteRef_toOption`); `pullChanges_ok_iff` says when a pull succeeds and
where it leaves the worktree, and every error names the call that failed
(`pullChanges_error_names_call`).

`Host` adds the working copy to the scheduler's `System`: whether it has local
changes, which are made only while read-only is off, and what a sync would be
answered now. A loop's step out of `pulling` is the rest of `sync`, whose
hard reset discards the local changes when the pull succeeds. The loop read
read-only one step earlier, so a sync past that check resets the working copy
whatever read-only has become since. `Management.Plane` runs the handler's
PUTs against a `Host`.
-/
import ReadOnlyStorage.Store.Lifecycle

namespace ReadOnlyStorage.Store

open ReadOnlyStorage.Config

set_option autoImplicit false

/-! ## `pullChanges` -/

/-- What `repo.Fetch` returns. -/
inductive FetchResult where
  | fetched
  /-- `git.NoErrAlreadyUpToDate` -/
  | alreadyUpToDate
  | failed (err : String)
  deriving DecidableEq, Repr

/-- The answers of the token store and of go-git to the calls a sync makes. A
commit is its hash, an error its text. -/
structure Repository where
  /-- the error of `EnsureRepository()` -/
  ensureRepository : Option String
  /-- `repoDirSnapshot()` -/
  repoDir : String
  /-- the error of `git.PlainOpen(repoDir)` -/
  plainOpen : Option String
  fetch : FetchResult
  /-- `repo.Reference(name, true)`: the commit, or the error -/
  reference : String → Except String String
  /-- the error of `repo.Worktree()` -/
  worktree : Option String
  /-- the error of `worktree.Reset` to a commit with `git.HardReset` -/
  reset : String → Option String

/-- The remote branches `pullChanges` tries, in order. -/
def remoteBranches : List String :=
  ["refs/remotes/origin/HEAD", "refs/remotes/origin/main", "refs/remotes/origin/master"]

/-- The first of `remoteBranches` that resolves, and its commit. -/
def firstResolved (r : Repository) : Option String :=
  remoteBranches.findSome? fun name => (r.reference name).toOption

/-- The lookups of `pullChanges`: `origin/HEAD`, falling back to
`origin/main`, then to `origin/master`, whose error is returned. -/
def remoteRef (r : Repository) : Except String String :=
  match r.reference "refs/remotes/origin/HEAD" with
  | .ok commit => .ok commit
  | .error _ =>
    match r.reference "refs/remotes/origin/main" with
    | .ok commit => .ok commit
    | .error _ =>
      match r.reference "refs/remotes/origin/master" with
      | .ok commit => .ok commit
      | .error err => .error ("failed to find remote branch reference: " ++ err)

/-- `pullChanges()`: the commit the worktree was reset to, or the error. -/
def pullChanges (r : Repository) : Except String String :=
  if r.repoDir = "" then .error "repository directory not configured" else
  match r.plainOpen with
  | some err => .error ("failed to open repository: " ++ err)
  | none =>
    match r.fetch with
    | .failed err => .error ("failed to fetch changes: " ++ err)
    | _ =>
      match remoteRef r with
      | .error err => .error err
      | .ok commit =>
        match r.worktree with
        | some err => .error ("failed to get worktree: " ++ err)
        | none =>
          match r.reset commit with
          | some err => .error ("failed to reset to remote: " ++ err)
          | none => .ok commit

/-- The body of `sync()` once it has read read-only on. -/
def syncPull (r : Repository) : Except String String :=
  match r.ensureRepository with
  | some err => .error ("failed to ensure repository: " ++ err)
  | none => (pullChanges r).mapError fun err => "failed to pull changes: " ++ err

/-- `sync()`, given the flag it reads and whether `onSyncComplete` is set: the
commit the worktree was reset to (`none` when read-only is off) or the error,
and whether the callback ran. -/
def sync (readOnly onSyncComplete : Bool) (r : Repository) : Except String (Option String) × Bool :=
  if readOnly then
    match syncPull r with
    | .ok commit => (.ok (some commit), onSyncComplete)
    | .error err => (.error err, false)
  else (.ok none, false)

/-- With read-only on, `sync` is `syncPull`, the step the run loop takes out
of `pulling`; its callback runs only after a reset. -/
theorem sync_of_readOnly (onSyncComplete : Bool) (r : Repository) :
    sync true onSyncComplete r =
      ((syncPull r).map some, onSyncComplete && (syncPull r).isOk) := by
  unfold sync
  cases syncPull r <;> simp [Except.map, Except.isOk, Except.toBool]

/-- The nested lookups are the first of `remoteBranches` that resolves. -/
theorem remoteRef_toOption (r : Repository) : (remoteRef r).toOption = firstResolved r := by
  simp only [remoteRef, firstResolved, remoteBranches, List.findSome?]
  cases r.reference "refs/remotes/origin/HEAD" <;>
    cases r.reference "refs/remotes/origin/main" <;>
    cases r.reference "refs/remotes/origin/master" <;> rfl

theorem remoteRef_ok_iff (r : Repository) (commit : String) :
    remoteRef r = .ok commit ↔ firstResolved r = some commit := by
  rw [← remoteRef_toOption]
  cases remoteRef r <;> simp [Except.toOption]

/-- A pull succeeds exactly when every call it makes does, the fetch being
allowed to find the remote up to date; the worktree is then at the commit of
the first remote branch that resolves. -/
theorem pullChanges_ok_iff (r : Repository) (commit : String) :
    pullChanges r = .ok commit ↔
      r.repoDir ≠ "" ∧ r.plainOpen = none ∧ (∀ err, r.fetch ≠ .failed err) ∧
        firstResolved r = some commit ∧ r.worktree = none ∧ r.reset commit = none := by
  rw [← remoteRef_ok_iff]
  -- one case for each call `pullChanges` makes; the two at the reset are left
  -- with the commit found by the lookups
  unfold pullChanges
  repeat' split
  all_goals simp_all
  all_goals rintro rfl; simp_all

/-- The calls `pullChanges` names in its errors. -/
def pullChangesCalls : List String :=
  ["failed to open repository: ", "failed to fetch changes: ",
    "failed to find remote branch reference: ", "failed to get worktree: ",
    "failed to reset to remote: "]

theorem remoteRef_error {r : Repository} {e : String} (failed : remoteRef r = .error e) :
    ∃ err, e = "failed to find remote branch reference: " ++ err := by
  unfold remoteRef at failed
  repeat' split at failed
  all_goals cases failed
  exact ⟨_, rfl⟩

/-- Every error of `pullChanges` names the call that failed, followed by that
call's error. -/
theorem pullChanges_error_names_call {r : Repository} {e : String} (failed : pullChanges r = .error e) :
    e = "repository directory not configured" ∨ ∃ call ∈ pullChangesCalls, ∃ err, e = call ++ err := by
  unfold pullChanges at failed
  repeat' split at failed
  all_goals cases failed
  all_goals first
    | exact .inl rfl
    | exact .inr ⟨_, by simp [pullChangesCalls], remoteRef_error ‹_›⟩
    | exact .inr ⟨_, by simp [pullChangesCalls], _, rfl⟩

/-! ## The working copy -/

/-- The scheduler's system, whether the working copy has local changes (what
`HasPendingLocalChanges` reports), and what a sync would be answered now. -/
structure Host where
  sys : System
  pending : Bool
  repo : Repository

inductive Host.Label where
  /-- a step of the system; a loop leaving `pulling` finishes its sync -/
  | sched (label : Store.Label)
  /-- a local change to the working copy, made only while read-only is off -/
  | localChange
  /-- the remote, the disk or the network change what the calls answer -/
  | answers (r : Repository)

/-- `GitScheduler.HasPendingLocalChanges()`: the token store's answer, whether
the working copy has local changes, or the error of a scheduler without one. -/
def hasPendingLocalChanges (h : Host) : Except String Bool :=
  if h.sys.sched.hasTokenStore then .ok h.pending else .error "token store is nil"

/-- Whether `label` is a loop finishing its sync with the hard reset. -/
def resets (s : System) (r : Repository) : Label → Bool
  | .loop i .proceed =>
    match s.sched.loops[i]? with
    | some l => l.phase == .pulling && (syncPull r).isOk
    | none => false
  | _ => false

/-- One step. -/
def Host.next (serial : Bool) (h : Host) : Host.Label → Option Host
  | .sched label => (Store.next serial h.sys label).map fun sys =>
      { h with sys := sys, pending := h.pending && !resets h.sys h.repo label }
  | .localChange => if h.sys.sched.config.readOnly then none else some { h with pending := true }
  | .answers r => some { h with repo := r }

/-- A repository whose `origin/HEAD` is missing and whose `origin/main`
resolves. -/
def mainOnly : Repository where
  ensureRepository := none
  repoDir := "auths"
  plainOpen := none
  fetch := .alreadyUpToDate
  reference := fun name =>
    if name = "refs/remotes/origin/main" then .ok "4b825dc6" else .error "reference not found"
  worktree := none
  reset := fun _ => none

end ReadOnlyStorage.Store
