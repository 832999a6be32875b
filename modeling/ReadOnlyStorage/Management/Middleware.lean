/-
# Management.Middleware — who gets past the management API's access control

`Handler.Middleware` runs in three phases, and the model keeps them apart so
that `Management.BruteForce` can interleave them:

* **Ban check** (`banCheck`, under `attemptsMu`, remote clients only): a
  record whose `blockedUntil` is still ahead refuses the request with the
  remaining time; an expired ban resets the record.
* **Key check** (`checkKey`, no shared state): remote access must be allowed,
  some secret must be set, a key must be presented, and it must match the local
  password (local clients), the env secret, or the bcrypt hash of the
  configured secret, in that order.
* **Effect** (`Effect.apply`, under `attemptsMu`): `fail()` before each 401 to
  a remote client, a reset of its record before it is let through.

`middleware` is the three run back to back, as one request sees them when no
other request from its IP interleaves. bcrypt is a parameter: every theorem
holds for every comparison function. `Handler` carries what `NewHandler`
establishes, `allowRemoteOverride` exactly when the trimmed env secret is
non-empty.

`middleware_next_sound` is the access-control guarantee: a request passed on
comes from a loopback address or from a remote client that remote management
admits and that its record does not ban, and it presented a non-empty key that
one of the three credentials accepts.
-/
import ReadOnlyStorage.Store.Lifecycle

namespace ReadOnlyStorage.Management

set_option autoImplicit false

/-! ## Requests and the handler -/

/-- What `Middleware` reads of a request: `c.ClientIP()`, and the two headers
as `c.GetHeader` returns them (`""` when absent). -/
structure Request where
  clientIP : String
  authorization : String
  managementKey : String
  deriving DecidableEq, Repr

/-- `cfg.RemoteManagement`: `allow-remote` and the configured secret's hash. -/
structure RemoteManagement where
  allowRemote : Bool
  secretKey : String
  deriving DecidableEq, Repr

/-- `unicode.IsSpace`: the Latin-1 spaces, and the other `White_Space` code
points. -/
def unicodeIsSpace (c : Char) : Bool :=
  match c.toNat with
  | 0x09 | 0x0a | 0x0b | 0x0c | 0x0d | 0x20 | 0x85 | 0xa0 => true
  | 0x1680 | 0x2028 | 0x2029 | 0x202f | 0x205f | 0x3000 => true
  | n => 0x2000 ≤ n && n ≤ 0x200a

/-- `strings.TrimSpace`. -/
def trimSpace (s : String) : String :=
  ⟨((s.data.dropWhile unicodeIsSpace).reverse.dropWhile unicodeIsSpace).reverse⟩

/-- The fields of `Handler` that `Middleware` reads, with the fact `NewHandler`
establishes about two of them. -/
structure Handler where
  cfg : Option RemoteManagement
  localPassword : String
  allowRemoteOverride : Bool
  envSecret : String
  override_iff : allowRemoteOverride = true ↔ envSecret ≠ ""

/-- `NewHandler(cfg, ...)` with `MANAGEMENT_PASSWORD` unset (`none`) or set. -/
def newHandler (cfg : Option RemoteManagement) (managementPassword : Option String) : Handler where
  cfg := cfg
  localPassword := ""
  allowRemoteOverride := trimSpace (managementPassword.getD "") != ""
  envSecret := trimSpace (managementPassword.getD "")
  override_iff := by simp

/-- `SetLocalPassword`. -/
def Handler.setLocalPassword (h : Handler) (password : String) : Handler :=
  { h with localPassword := password }

/-- `allowRemote` as `Middleware` computes it. -/
def Handler.allowRemote (h : Handler) : Bool :=
  (h.cfg.map RemoteManagement.allowRemote).getD false || h.allowRemoteOverride

/-- `secretHash`: the configured secret, `""` without a config. -/
def Handler.secretHash (h : Handler) : String :=
  (h.cfg.map RemoteManagement.secretKey).getD ""

/-- Remote management is allowed exactly when the config allows it or the env
secret is set. -/
theorem Handler.allowRemote_iff (h : Handler) :
    h.allowRemote = true ↔ (h.cfg.map RemoteManagement.allowRemote).getD false = true ∨
      h.envSecret ≠ "" := by
  rw [Handler.allowRemote, Bool.or_eq_true, h.override_iff]

/-! ## Attempt records -/

/-- `attemptInfo`; `blockedUntil = none` is the zero `time.Time`. Times are
nanoseconds on one clock. -/
structure AttemptInfo where
  count : Nat
  blockedUntil : Option Nat
  deriving DecidableEq, Repr

def maxFailures : Nat := 5

/-- `30 * time.Minute`. -/
def banDuration : Nat := 30 * 60 * 1000000000

/-- `h.failedAttempts[ip] = r`. -/
def setRecord (attempts : String → Option AttemptInfo) (ip : String) (r : Option AttemptInfo) :
    String → Option AttemptInfo :=
  fun ip' => if ip' = ip then r else attempts ip'

/-- What the ban check finds. -/
inductive BanCheck where
  /-- banned, with the time left -/
  | banned (remaining : Nat)
  /-- not banned, with the record after an expired ban is cleared -/
  | clear (record : Option AttemptInfo)
  deriving DecidableEq, Repr

/-- The ban check under `attemptsMu`, at time `now`. -/
def banCheck (record : Option AttemptInfo) (now : Nat) : BanCheck :=
  match record with
  | some ⟨_, some blockedUntil⟩ =>
      if now < blockedUntil then .banned (blockedUntil - now) else .clear (some ⟨0, none⟩)
  | _ => .clear record

/-- `fail()`: count the failure, and ban for `banDuration` at the fifth. -/
def fail (record : Option AttemptInfo) (now : Nat) : AttemptInfo :=
  let ai := record.getD ⟨0, none⟩
  if maxFailures ≤ ai.count + 1 then ⟨0, some (now + banDuration)⟩
  else { ai with count := ai.count + 1 }

/-- What a request does to its client's record after the key check. -/
inductive Effect where
  | keep
  | fail
  | reset
  deriving DecidableEq, Repr

def Effect.apply (record : Option AttemptInfo) (now : Nat) : Effect → Option AttemptInfo
  | .keep => record
  | .fail => some (ReadOnlyStorage.Management.fail record now)
  | .reset => record.map fun _ => ⟨0, none⟩

/-! ## The ban message -/

/-- `Duration.Round(time.Second)`, halves away from zero. -/
def roundSecond (d : Nat) : Nat :=
  let r := d % 1000000000
  if r + r < 1000000000 then d - r else d + (1000000000 - r)

/-- `Duration.String` of a whole number of seconds. -/
def secondsString (secs : Nat) : String :=
  if 0 < secs / 3600 then
    toString (secs / 3600) ++ "h" ++ toString (secs / 60 % 60) ++ "m" ++ toString (secs % 60) ++ "s"
  else if 0 < secs / 60 then toString (secs / 60) ++ "m" ++ toString (secs % 60) ++ "s"
  else toString secs ++ "s"

def bannedMessage (remaining : Nat) : String :=
  "IP banned due to too many failed attempts. Try again in " ++
    secondsString (roundSecond remaining / 1000000000)

example : bannedMessage (banDuration - 400000000) =
    "IP banned due to too many failed attempts. Try again in 30m0s" := by decide

/-! ## The key check -/

/-- How `Middleware` ends: `c.Next()`, or `c.AbortWithStatusJSON` with the
status and the `error` text. -/
inductive Outcome where
  | next
  | abort (status : Nat) (error : String)
  deriving DecidableEq, Repr

/-- `c.ClientIP()` is a loopback address. -/
def isLocal (ip : String) : Bool := ip == "127.0.0.1" || ip == "::1"

/-- `strings.SplitN(s, " ", 2)` when it splits: the text before the first
space, and the rest. -/
def splitOnce : List Char → Option (List Char × List Char)
  | [] => none
  | ' ' :: rest => some ([], rest)
  | c :: rest => (splitOnce rest).map fun (before, after) => (c :: before, after)

/-- ASCII lower case. Against `"bearer"` it decides as `strings.ToLower` does:
no other letter lower-cases to `b`, `e`, `a` or `r`. -/
def asciiLower (c : Char) : Char :=
  if 'A' ≤ c && c ≤ 'Z' then Char.ofNat (c.toNat + 32) else c

/-- The key a request presents: the token of `Authorization: Bearer <key>`,
otherwise the whole `Authorization` header, otherwise `X-Management-Key`. -/
def providedKey (req : Request) : String :=
  let provided := match splitOnce req.authorization.data with
    | some (scheme, key) => if scheme.map asciiLower = "bearer".data then ⟨key⟩ else req.authorization
    | none => req.authorization
  if provided = "" then req.managementKey else provided

/-- `Middleware` after the ban check: the outcome, and the effect on the
client's record (`fail()` is a no-op, and the reset skipped, for a local
client). -/
def checkKey (bcrypt : String → String → Bool) (h : Handler) (localClient : Bool) (req : Request) :
    Outcome × Effect :=
  let onFail := if localClient then Effect.keep else .fail
  let onPass := if localClient then Effect.keep else .reset
  let provided := providedKey req
  if !localClient && !h.allowRemote then (.abort 403 "remote management disabled", .keep)
  else if h.secretHash = "" && h.envSecret = "" then
    (.abort 403 "remote management key not set", .keep)
  else if provided = "" then (.abort 401 "missing management key", onFail)
  else if localClient && h.localPassword != "" && provided == h.localPassword then (.next, .keep)
  else if h.envSecret != "" && provided == h.envSecret then (.next, onPass)
  else if h.secretHash = "" || !bcrypt h.secretHash provided then
    (.abort 401 "invalid management key", onFail)
  else (.next, onPass)

/-- One request, its phases back to back at time `now`: the attempt records
after it, and how it ends. -/
def middleware (bcrypt : String → String → Bool) (h : Handler)
    (attempts : String → Option AttemptInfo) (req : Request) (now : Nat) :
    (String → Option AttemptInfo) × Outcome :=
  if isLocal req.clientIP then (attempts, (checkKey bcrypt h true req).1)
  else match banCheck (attempts req.clientIP) now with
    | .banned remaining => (attempts, .abort 403 (bannedMessage remaining))
    | .clear record =>
        let (outcome, effect) := checkKey bcrypt h false req
        (setRecord attempts req.clientIP (effect.apply record now), outcome)

/-! ## What passing means -/

/-- A request is only cleared when its record bans it no longer. -/
theorem banCheck_clear {record : Option AttemptInfo} {now : Nat} {cleared : Option AttemptInfo}
    (clear : banCheck record now = .clear cleared) :
    ∀ ai, record = some ai → ∀ u, ai.blockedUntil = some u → ¬ now < u := by
  rintro ⟨count, _⟩ rfl u rfl
  simp only [banCheck] at clear
  split at clear
  · cases clear
  · assumption

/-- The key the check accepted, by the credential that accepted it. -/
def KeyAccepted (bcrypt : String → String → Bool) (h : Handler) (localClient : Bool)
    (k : String) : Prop :=
  k ≠ "" ∧ ((h.envSecret ≠ "" ∧ k = h.envSecret) ∨
    (h.secretHash ≠ "" ∧ bcrypt h.secretHash k = true) ∨
    (localClient = true ∧ h.localPassword ≠ "" ∧ k = h.localPassword))

/-- The key check lets a request through only when remote management admits
it (or it is local) and a credential accepts its key. -/
theorem checkKey_next {bcrypt : String → String → Bool} {h : Handler} {localClient : Bool}
    {req : Request} (passed : (checkKey bcrypt h localClient req).1 = .next) :
    (localClient = true ∨ h.allowRemote = true) ∧
      KeyAccepted bcrypt h localClient (providedKey req) := by
  unfold checkKey at passed
  generalize providedKey req = k at passed ⊢
  -- the refusals come first, each ending in an abort
  by_cases refused : (!localClient && !h.allowRemote) = true
  · rw [if_pos refused] at passed; cases passed
  rw [if_neg refused] at passed
  have admitted : localClient = true ∨ h.allowRemote = true := by
    revert refused; cases localClient <;> cases h.allowRemote <;> decide
  refine ⟨admitted, ?_⟩
  by_cases unset : (h.secretHash = "" && h.envSecret = "") = true
  · rw [if_pos unset] at passed; cases passed
  rw [if_neg unset] at passed
  by_cases missing : k = ""
  · rw [if_pos missing] at passed; cases passed
  rw [if_neg missing] at passed
  refine ⟨missing, ?_⟩
  -- then the three credentials, in the order the code tries them
  by_cases byLocal : (localClient && h.localPassword != "" && k == h.localPassword) = true
  · simp only [Bool.and_eq_true, bne_iff_ne, ne_eq, beq_iff_eq] at byLocal
    exact .inr (.inr ⟨byLocal.1.1, byLocal.1.2, byLocal.2⟩)
  rw [if_neg byLocal] at passed
  by_cases byEnv : (h.envSecret != "" && k == h.envSecret) = true
  · simp only [Bool.and_eq_true, bne_iff_ne, ne_eq, beq_iff_eq] at byEnv
    exact .inl byEnv
  rw [if_neg byEnv] at passed
  by_cases byHash : (h.secretHash = "" || !bcrypt h.secretHash k) = true
  · rw [if_pos byHash] at passed; cases passed
  simp only [Bool.or_eq_true, decide_eq_true_eq, Bool.not_eq_true', not_or, Bool.not_eq_false] at byHash
  exact .inr (.inl byHash)

/-- **Only admitted callers with an accepted key get through.** For every
handler, attempt records, request, bcrypt and time: if `Middleware` calls
`c.Next()`, the client is local, or remote management is allowed (by the config
or a non-empty env secret) and its record holds no ban still ahead; and the
key it presented is non-empty and equals the env secret, or passes bcrypt
against the configured hash, or (locally) equals the local password, the
credential matched being non-empty. -/
theorem middleware_next_sound (bcrypt : String → String → Bool) (h : Handler)
    (attempts : String → Option AttemptInfo) (req : Request) (now : Nat)
    (passed : (middleware bcrypt h attempts req now).2 = .next) :
    (isLocal req.clientIP = true ∨
      (((h.cfg.map RemoteManagement.allowRemote).getD false = true ∨ h.envSecret ≠ "") ∧
        ∀ ai, attempts req.clientIP = some ai → ∀ u, ai.blockedUntil = some u → ¬ now < u)) ∧
    KeyAccepted bcrypt h (isLocal req.clientIP) (providedKey req) := by
  unfold middleware at passed
  split at passed
  next localClient =>
    rw [localClient]
    exact ⟨.inl rfl, (checkKey_next passed).2⟩
  next remote =>
    rw [Bool.not_eq_true] at remote
    split at passed
    · cases passed
    next cleared clear =>
      obtain ⟨admitted, accepted⟩ := @checkKey_next bcrypt h false req passed
      rw [remote]
      refine ⟨.inr ⟨(Handler.allowRemote_iff h).mp ?_, banCheck_clear clear⟩, accepted⟩
      simpa using admitted

/-- A handler with an env secret and a local password. -/
def localPasswordHandler : Handler := (newHandler none (some " s3cret\n")).setLocalPassword "pw"

/-- A remote address whose ban expired at 50, asking at 100. -/
def expiredBan : String → Option AttemptInfo := fun _ => some ⟨5, some 50⟩

/-- A local request with the local password, and a remote one with the env
secret past an expired ban. -/
theorem middleware_next_sound_local_and_remote :
    ((middleware (fun _ _ => false) localPasswordHandler (fun _ => none)
        ⟨"127.0.0.1", "Bearer pw", ""⟩ 0).2 = .next ∧
      KeyAccepted (fun _ _ => false) localPasswordHandler true "pw") ∧
    ((middleware (fun _ _ => false) localPasswordHandler expiredBan ⟨"203.0.113.7", "Bearer s3cret", ""⟩ 100).2 =
        .next ∧
      (isLocal "203.0.113.7" = true ∨
        (((localPasswordHandler.cfg.map RemoteManagement.allowRemote).getD false = true ∨
            localPasswordHandler.envSecret ≠ "") ∧
          ∀ ai, expiredBan "203.0.113.7" = some ai → ∀ u, ai.blockedUntil = some u → ¬ 100 < u)) ∧
      KeyAccepted (fun _ _ => false) localPasswordHandler false "s3cret") :=
  ⟨⟨by decide, (middleware_next_sound (fun _ _ => false) localPasswordHandler (fun _ => none)
      ⟨"127.0.0.1", "Bearer pw", ""⟩ 0 (by decide)).2⟩,
    by decide, middleware_next_sound (fun _ _ => false) localPasswordHandler expiredBan
      ⟨"203.0.113.7", "Bearer s3cret", ""⟩ 100 (by decide)⟩

end ReadOnlyStorage.Management
