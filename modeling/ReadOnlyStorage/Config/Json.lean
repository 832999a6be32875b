/-
# Config.Json — the side file's JSON, as encoding/json reads and writes it

`data/read_only_storage.json` holds one `ReadOnlyStorageConfig`
(`read_only` bool, `sync_interval_minutes` int with omitempty). Both ends of
the file go through `encoding/json`:

* `checkValid` is the scanner that `json.Unmarshal` runs over the whole input
  before decoding: one value, surrounded by whitespace only, at most
  `maxNestingDepth` containers deep. Its errors carry the scanner's own
  contexts ("looking for beginning of value", "after object key", ...).
* `decodeConfig` stores the members of the top-level object into a zero
  `ReadOnlyStorageConfig`. Keys match a field exactly or under Go's case fold
  (`foldName`); a literal of the wrong kind is an `UnmarshalTypeError`; an int
  field takes a number only through `strconv.ParseInt(s, 10, 64)`.
* `marshalIndent` is `json.MarshalIndent(c, "", "  ")`.

The file's bytes are modelled as a list of characters, so invalid UTF-8 is
out of reach; a `\u` escape decodes to one character, with surrogates mapped
to U+FFFD and never paired.
-/
import Mathlib

namespace ReadOnlyStorage.Config

set_option autoImplicit false

/-! ## `Except`, evaluated

The model's fallible functions return `Except`; these let `simp` run them. -/

section ExceptEval

variable {ε α β : Type}

@[simp] theorem except_ok_bind (a : α) (f : α → Except ε β) : (Except.ok a >>= f) = f a := rfl

@[simp] theorem except_error_bind (e : ε) (f : α → Except ε β) :
    (Except.error e >>= f) = Except.error e := rfl

@[simp] theorem except_map_ok (f : α → β) (a : α) :
    f <$> (Except.ok a : Except ε α) = Except.ok (f a) := rfl

@[simp] theorem except_map_error (f : α → β) (e : ε) :
    f <$> (Except.error e : Except ε α) = Except.error e := rfl

/-- A bind that succeeded ran both halves successfully. -/
theorem except_bind_eq_ok {x : Except ε α} {f : α → Except ε β} {b : β}
    (ran : (x >>= f) = .ok b) : ∃ a, x = .ok a ∧ f a = .ok b := by
  cases x with
  | error e => cases ran
  | ok a => exact ⟨a, rfl, ran⟩

theorem except_mapError_eq_ok {ε' : Type} {x : Except ε α} {g : ε → ε'} {a : α}
    (ran : x.mapError g = .ok a) : x = .ok a := by
  cases x with
  | error e => cases ran
  | ok a => cases ran; rfl

end ExceptEval

/-! ## Values and errors -/

/-- A JSON value as the decoder walks it. A number keeps its literal: the
decoder converts it only once it knows the destination type. -/
inductive JsonValue where
  | null
  | bool (b : Bool)
  | number (literal : List Char)
  | string (s : List Char)
  | array (items : List JsonValue)
  | object (members : List (List Char × JsonValue))

/-- The errors of `json.Unmarshal` into a `ReadOnlyStorageConfig`. -/
inductive JsonError where
  /-- a `*json.SyntaxError`, from the scanner -/
  | syntaxError (msg : String)
  /-- an `*UnmarshalTypeError` at a struct field -/
  | fieldType (value field type : String)
  /-- an `*UnmarshalTypeError` for the whole value -/
  | valueType (value : String)
  deriving DecidableEq, Repr

/-- The text `err.Error()` gives. -/
def JsonError.message : JsonError → String
  | .syntaxError msg => msg
  | .fieldType value field type =>
      "json: cannot unmarshal " ++ value ++ " into Go struct field ReadOnlyStorageConfig." ++
        field ++ " of type " ++ type
  | .valueType value =>
      "json: cannot unmarshal " ++ value ++ " into Go value of type config.ReadOnlyStorageConfig"

def unexpectedEnd : JsonError := .syntaxError "unexpected end of JSON input"

/-- `quoteChar`: how the scanner names the character it stopped at. -/
def quoteChar (c : Char) : String :=
  if c = '\x27' then "\x27\\\x27\x27" else if c = '\x22' then "\x27\x22\x27" else
    "\x27" ++ c.toString ++ "\x27"

def invalidCharacter (c : Char) (context : String) : JsonError :=
  .syntaxError ("invalid character " ++ quoteChar c ++ " " ++ context)

/-! ## The scanner -/

def isSpace (c : Char) : Bool := c = ' ' || c = '\t' || c = '\n' || c = '\r'

def skipSpace : List Char → List Char
  | c :: cs => if isSpace c then skipSpace cs else c :: cs
  | [] => []

def maxNestingDepth : Nat := 10000

/-- The rest of a literal (`rue`, `alse`, `ull`) after its first letter. -/
def expectWord (name : String) : List Char → List Char → Except JsonError (List Char)
  | [], cs => .ok cs
  | w :: ws, c :: cs =>
      if c = w then expectWord name ws cs
      else .error (invalidCharacter c ("in literal " ++ name ++ " (expecting " ++ quoteChar w ++ ")"))
  | _ :: _, [] => .error unexpectedEnd

def isHex (c : Char) : Bool := c.isDigit || ('a' ≤ c && c ≤ 'f') || ('A' ≤ c && c ≤ 'F')

def hexValue (c : Char) : Nat :=
  if c.isDigit then c.toNat - '0'.toNat
  else if 'a' ≤ c && c ≤ 'f' then c.toNat - 'a'.toNat + 10 else c.toNat - 'A'.toNat + 10

/-- The character a `\uXXXX` escape stands for; a surrogate half reads as U+FFFD. -/
def escapeU (a b c d : Char) : Char :=
  let n := ((hexValue a * 16 + hexValue b) * 16 + hexValue c) * 16 + hexValue d
  if 0xD800 ≤ n ∧ n < 0xE000 then '�' else Char.ofNat n

def simpleEscape : Char → Option Char
  | '\x22' => some '\x22'
  | '\x5c' => some '\x5c'
  | '/' => some '/'
  | 'b' => some '\x08'
  | 'f' => some '\x0c'
  | 'n' => some '\n'
  | 'r' => some '\r'
  | 't' => some '\t'
  | _ => none

/-- The body of a string literal after its opening quote: the decoded
characters and the input after the closing quote. -/
def parseString : List Char → Except JsonError (List Char × List Char)
  | [] => .error unexpectedEnd
  | '\x22' :: rest => .ok ([], rest)
  | '\x5c' :: 'u' :: a :: b :: c :: d :: rest =>
      match [a, b, c, d].find? (fun x => !isHex x) with
      | some x => .error (invalidCharacter x "in \\u hexadecimal character escape")
      | none => (fun r => (escapeU a b c d :: r.1, r.2)) <$> parseString rest
  | '\x5c' :: 'u' :: tail =>
      match tail.find? (fun x => !isHex x) with
      | some x => .error (invalidCharacter x "in \\u hexadecimal character escape")
      | none => .error unexpectedEnd
  | '\x5c' :: e :: rest =>
      match simpleEscape e with
      | some x => (fun r => (x :: r.1, r.2)) <$> parseString rest
      | none => .error (invalidCharacter e "in string escape code")
  | ['\x5c'] => .error unexpectedEnd
  | c :: rest =>
      if c.toNat < 0x20 then .error (invalidCharacter c "in string literal")
      else (fun r => (c :: r.1, r.2)) <$> parseString rest

/-- The exponent of a number literal, after `e` or `E`. -/
def parseExponent (lit : List Char) (cs : List Char) : Except JsonError (List Char × List Char) :=
  let (sign, cs) := match cs with
    | '+' :: r => (['+'], r)
    | '-' :: r => (['-'], r)
    | r => ([], r)
  match cs with
  | c :: r =>
      if c.isDigit then
        let (ds, r) := r.span Char.isDigit
        .ok (lit ++ sign ++ c :: ds, r)
      else .error (invalidCharacter c "in exponent of numeric literal")
  | [] => .error unexpectedEnd

/-- A number literal after its integer part: an optional fraction, then an
optional exponent. -/
def parseFraction (lit : List Char) : List Char → Except JsonError (List Char × List Char)
  | '.' :: c :: r =>
      if c.isDigit then
        let (ds, r) := r.span Char.isDigit
        match r with
        | e :: r' => if e = 'e' || e = 'E' then parseExponent (lit ++ '.' :: c :: ds ++ [e]) r'
                     else .ok (lit ++ '.' :: c :: ds, e :: r')
        | [] => .ok (lit ++ '.' :: c :: ds, [])
      else .error (invalidCharacter c "after decimal point in numeric literal")
  | ['.'] => .error unexpectedEnd
  | e :: r => if e = 'e' || e = 'E' then parseExponent (lit ++ [e]) r else .ok (lit, e :: r)
  | [] => .ok (lit, [])

/-- A number literal, from its first character (`-` or a digit). -/
def parseNumber : List Char → Except JsonError (List Char × List Char)
  | '-' :: '0' :: r => parseFraction ['-', '0'] r
  | '0' :: r => parseFraction ['0'] r
  | '-' :: c :: r =>
      if c.isDigit then let (ds, r) := r.span Char.isDigit; parseFraction ('-' :: c :: ds) r
      else .error (invalidCharacter c "in numeric literal")
  | ['-'] => .error unexpectedEnd
  | c :: r => let (ds, r) := r.span Char.isDigit; parseFraction (c :: ds) r
  | [] => .error unexpectedEnd

/-- Array elements after `[` (and after the first non-space, which is not `]`). -/
def parseElements (item : List Char → Except JsonError (JsonValue × List Char)) :
    Nat → List JsonValue → List Char → Except JsonError (List JsonValue × List Char)
  | 0, _, _ => .error unexpectedEnd
  | fuel + 1, acc, cs => do
      let (v, rest) ← item cs
      match skipSpace rest with
      | ',' :: rest => parseElements item fuel (acc ++ [v]) rest
      | ']' :: rest => .ok (acc ++ [v], rest)
      | c :: _ => .error (invalidCharacter c "after array element")
      | [] => .error unexpectedEnd

/-- Object members after `\x7b` (and after the first non-space, which is not `\x7d`). -/
def parseMembers (item : List Char → Except JsonError (JsonValue × List Char)) :
    Nat → List (List Char × JsonValue) → List Char →
      Except JsonError (List (List Char × JsonValue) × List Char)
  | 0, _, _ => .error unexpectedEnd
  | fuel + 1, acc, cs =>
      match skipSpace cs with
      | '\x22' :: rest => do
          let (key, rest) ← parseString rest
          match skipSpace rest with
          | ':' :: rest => do
              let (v, rest) ← item rest
              match skipSpace rest with
              | ',' :: rest => parseMembers item fuel (acc ++ [(key, v)]) rest
              | '\x7d' :: rest => .ok (acc ++ [(key, v)], rest)
              | c :: _ => .error (invalidCharacter c "after object key:value pair")
              | [] => .error unexpectedEnd
          | c :: _ => .error (invalidCharacter c "after object key")
          | [] => .error unexpectedEnd
      | c :: _ => .error (invalidCharacter c "looking for beginning of object key string")
      | [] => .error unexpectedEnd

/-- One value, after leading whitespace; `depth` containers are open around it.
Every call consumes a character, so `fuel` one above the input's length never
runs out. -/
def parseValue : Nat → Nat → List Char → Except JsonError (JsonValue × List Char)
  | 0, _, _ => .error unexpectedEnd
  | fuel + 1, depth, cs =>
      match skipSpace cs with
      | [] => .error unexpectedEnd
      | c :: rest =>
          if c = '\x7b' then
            if maxNestingDepth < depth + 1 then .error (invalidCharacter c "exceeded max depth")
            else match skipSpace rest with
              | '\x7d' :: rest => .ok (.object [], rest)
              | _ => (fun r => (.object r.1, r.2)) <$>
                  parseMembers (fun cs => parseValue fuel (depth + 1) cs) fuel [] rest
          else if c = '[' then
            if maxNestingDepth < depth + 1 then .error (invalidCharacter c "exceeded max depth")
            else match skipSpace rest with
              | ']' :: rest => .ok (.array [], rest)
              | _ => (fun r => (.array r.1, r.2)) <$>
                  parseElements (fun cs => parseValue fuel (depth + 1) cs) fuel [] rest
          else if c = '\x22' then (fun r => (.string r.1, r.2)) <$> parseString rest
          else if c = '-' || c.isDigit then (fun r => (.number r.1, r.2)) <$> parseNumber (c :: rest)
          else if c = 't' then (fun r => (.bool true, r)) <$> expectWord "true" ['r', 'u', 'e'] rest
          else if c = 'f' then
            (fun r => (.bool false, r)) <$> expectWord "false" ['a', 'l', 's', 'e'] rest
          else if c = 'n' then (fun r => (.null, r)) <$> expectWord "null" ['u', 'l', 'l'] rest
          else .error (invalidCharacter c "looking for beginning of value")

/-- `checkValid`: the whole input is one value and whitespace. -/
def checkValid (data : List Char) : Except JsonError JsonValue := do
  let (v, rest) ← parseValue (data.length + 1) 0 data
  match skipSpace rest with
  | [] => pure v
  | c :: _ => .error (invalidCharacter c "after top-level value")

/-! ## Decoding into `ReadOnlyStorageConfig` -/

/-- `config.ReadOnlyStorageConfig`; Go's `int` is 64 bits wide. -/
structure ReadOnlyStorageConfig where
  readOnly : Bool
  syncIntervalMinutes : BitVec 64
  deriving DecidableEq, Repr

/-- The zero value the decoder starts from. -/
def ReadOnlyStorageConfig.zero : ReadOnlyStorageConfig := ⟨false, 0⟩

inductive Field where
  | readOnly
  | syncIntervalMinutes
  deriving DecidableEq, Repr

def Field.name : Field → String
  | .readOnly => "read_only"
  | .syncIntervalMinutes => "sync_interval_minutes"

/-- `foldRune` on the characters a field name can fold to: ASCII letters go to
upper case, and the long s and the Kelvin sign to the ASCII letter of their
fold set. Any other character folds to one outside ASCII, so it is kept, which
decides the same matches against the two ASCII field names. -/
def foldChar (c : Char) : Char :=
  if 'a' ≤ c && c ≤ 'z' then Char.ofNat (c.toNat - 32)
  else if c = 'ſ' then 'S' else if c = 'K' then 'K' else c

def foldName (s : List Char) : List Char := s.map foldChar

/-- The field a key selects: the exact name first, then the folded one. -/
def fieldOf (key : List Char) : Option Field :=
  if key = Field.readOnly.name.data then some .readOnly
  else if key = Field.syncIntervalMinutes.name.data then some .syncIntervalMinutes
  else if foldName key = foldName Field.readOnly.name.data then some .readOnly
  else if foldName key = foldName Field.syncIntervalMinutes.name.data then some .syncIntervalMinutes
  else none

/-- The kind an `UnmarshalTypeError` reports for a value. -/
def JsonValue.kind : JsonValue → String
  | .null => "null"
  | .bool _ => "bool"
  | .number _ => "number"
  | .string _ => "string"
  | .array _ => "array"
  | .object _ => "object"

def digitsValue (ds : List Char) : Nat :=
  ds.foldl (fun n d => 10 * n + (d.toNat - '0'.toNat)) 0

/-- `strconv.ParseUint(s, 10, 64)` as `ParseInt` uses it: one or more digits.
Its own overflow check is subsumed by `ParseInt`'s cutoff. -/
def parseDigits (ds : List Char) : Option Nat :=
  if ds ≠ [] ∧ ds.all Char.isDigit then some (digitsValue ds) else none

/-- The sign `strconv.ParseInt` picks off, and the digits after it. -/
def splitSign : List Char → Bool × List Char
  | c :: rest => if c = '+' then (false, rest) else if c = '-' then (true, rest) else (false, c :: rest)
  | [] => (false, [])

/-- `strconv.ParseInt(s, 10, 64)`. -/
def parseInt64 (lit : List Char) : Option Int :=
  let (neg, ds) := splitSign lit
  (parseDigits ds).bind fun un =>
    if neg then (if un ≤ 2 ^ 63 then some (-(un : Int)) else none)
    else (if un < 2 ^ 63 then some (un : Int) else none)

/-- `literalStore`/`object` for one member whose key selected `f`. -/
def storeField (c : ReadOnlyStorageConfig) : Field → JsonValue →
    Except JsonError ReadOnlyStorageConfig
  | .readOnly, .bool b => .ok { c with readOnly := b }
  | .syncIntervalMinutes, .number lit =>
      match parseInt64 lit with
      | some n => .ok { c with syncIntervalMinutes := BitVec.ofInt 64 n }
      | none => .error (.fieldType ("number " ++ String.mk lit) Field.syncIntervalMinutes.name "int")
  | _, .null => .ok c
  | .readOnly, v => .error (.fieldType v.kind Field.readOnly.name "bool")
  | .syncIntervalMinutes, v => .error (.fieldType v.kind Field.syncIntervalMinutes.name "int")

/-- The members in order; unknown keys are skipped, a later key overwrites an
earlier one, and the first type error is the one returned. -/
def decodeMembers : ReadOnlyStorageConfig → List (List Char × JsonValue) →
    Except JsonError ReadOnlyStorageConfig
  | c, [] => .ok c
  | c, (key, v) :: ms =>
      match fieldOf key with
      | some f => storeField c f v >>= (decodeMembers · ms)
      | none => decodeMembers c ms

def decodeConfig : JsonValue → Except JsonError ReadOnlyStorageConfig
  | .object ms => decodeMembers .zero ms
  | .null => .ok .zero
  | v => .error (.valueType v.kind)

/-- `json.Unmarshal(data, &readOnlyConfig)` into a fresh `ReadOnlyStorageConfig`. -/
def unmarshalConfig (data : List Char) : Except JsonError ReadOnlyStorageConfig :=
  checkValid data >>= decodeConfig

/-! ## Encoding -/

/-- `strconv.AppendInt(b, m, 10)`. -/
def formatInt (m : BitVec 64) : List Char :=
  (if m.toInt < 0 then ['-'] else []) ++ Nat.toDigits 10 m.toInt.natAbs

def boolText (b : Bool) : List Char := if b then "true".data else "false".data

/-- One member on a line of its own, as `json.Indent` lays out an object at
depth one: a newline, two spaces, the quoted key, a colon and a space. -/
def indentedMember (key : String) (value : List Char) : List Char :=
  '\n' :: ' ' :: ' ' :: '\x22' :: (key.data ++ '\x22' :: ':' :: ' ' :: value)

/-- `json.MarshalIndent(c, "", "  ")`; `sync_interval_minutes` is omitted when zero. -/
def marshalIndent (c : ReadOnlyStorageConfig) : List Char :=
  '\x7b' :: (indentedMember Field.readOnly.name (boolText c.readOnly) ++
    (if c.syncIntervalMinutes = 0 then []
     else ',' :: indentedMember Field.syncIntervalMinutes.name (formatInt c.syncIntervalMinutes)) ++
    ['\n', '\x7d'])

/-! ## Round trip

`unmarshalConfig_marshalIndent`: decoding what `marshalIndent` wrote gives the
config back, for every flag and every 64-bit interval. The omitted zero
interval and the decoder's zero start agree; a nonzero interval goes out
through `strconv.AppendInt` and back through `strconv.ParseInt`. -/

section Digits

theorem digitChar_digit : ∀ d, d < 10 → (Nat.digitChar d).isDigit = true ∧
    (Nat.digitChar d).toNat - '0'.toNat = d ∧ (Nat.digitChar d = '0' → d = 0) := by
  decide

theorem digitsValue_append_single (pre : List Char) (d : Char) :
    digitsValue (pre ++ [d]) = 10 * digitsValue pre + (d.toNat - '0'.toNat) := by
  simp [digitsValue, List.foldl_append]

/-- `Nat.toDigitsCore` prepends the decimal digits of `n`, with no leading zero. -/
theorem toDigitsCore_spec : ∀ (fuel n : Nat) (ds : List Char), n < fuel →
    ∃ d pre, Nat.toDigitsCore 10 fuel n ds = d :: pre ++ ds ∧ (∀ x ∈ d :: pre, x.isDigit) ∧
      digitsValue (d :: pre) = n ∧ (d = '0' → n = 0)
  | 0, n, _, enough => absurd enough (Nat.not_lt_zero n)
  | fuel + 1, n, ds, enough => by
      obtain ⟨isDigit, value, zero⟩ := digitChar_digit (n % 10) (Nat.mod_lt n (by decide))
      simp only [Nat.toDigitsCore]
      split
      · rename_i top
        refine ⟨_, [], rfl, by simpa using isDigit, ?_, fun h => by have := zero h; omega⟩
        have single := digitsValue_append_single [] (Nat.digitChar (n % 10))
        simp only [List.nil_append] at single
        rw [single, value]
        simp [digitsValue]
        omega
      · rename_i top
        obtain ⟨d, pre, eq, digits, value', lead⟩ :=
          toDigitsCore_spec fuel (n / 10) (Nat.digitChar (n % 10) :: ds) (by omega)
        refine ⟨d, pre ++ [Nat.digitChar (n % 10)], by simp [eq], ?_, ?_,
          fun h => absurd (lead h) top⟩
        · intro x hx
          simp only [List.mem_cons, List.mem_append, List.not_mem_nil, or_false] at hx
          rcases hx with rfl | hx | rfl
          · exact digits _ (List.mem_cons_self _ _)
          · exact digits _ (List.mem_cons_of_mem _ hx)
          · exact isDigit
        · rw [← List.cons_append, digitsValue_append_single, value', value]
          omega

theorem isDigit_iff (c : Char) : c.isDigit = true ↔ 48 ≤ c.toNat ∧ c.toNat ≤ 57 := by
  simp only [Char.isDigit, Char.le_def, UInt32.le_def, Bool.and_eq_true, decide_eq_true_eq]
  rfl

theorem ne_of_toNat {c d : Char} (h : c.toNat ≠ d.toNat) : c ≠ d := fun e => h (e ▸ rfl)

/-- Go's `int` is the signed reading of 64 bits. -/
theorem toInt_range (m : BitVec 64) : -2 ^ 63 ≤ m.toInt ∧ m.toInt < 2 ^ 63 := by
  rw [BitVec.toInt_eq_toNat_bmod]
  have lo := Int.le_bmod (x := m.toNat) (m := 2 ^ 64) (by decide)
  have hi := Int.bmod_lt (x := m.toNat) (m := 2 ^ 64) (by decide)
  have e64 : ((2 ^ 64 : Nat) : Int) = 18446744073709551616 := rfl
  have e63 : (2 : Int) ^ 63 = 9223372036854775808 := rfl
  rw [e64] at lo hi
  rw [e63]
  omega

theorem ofInt_toInt (m : BitVec 64) : BitVec.ofInt 64 m.toInt = m :=
  BitVec.eq_of_toInt_eq (by rw [BitVec.toInt_ofInt, BitVec.toInt_eq_toNat_bmod, Int.bmod_bmod])

/-- The characters `formatInt` writes: a sign, then the digits of `|m|`. -/
theorem formatInt_spec (m : BitVec 64) (nonzero : m ≠ 0) :
    ∃ d pre, formatInt m = (if m.toInt < 0 then ['-'] else []) ++ d :: pre ∧ d.isDigit ∧
      d ≠ '0' ∧ (∀ x ∈ pre, x.isDigit) ∧ digitsValue (d :: pre) = m.toInt.natAbs := by
  have pos : m.toInt.natAbs ≠ 0 := by
    intro h; apply nonzero; apply BitVec.eq_of_toInt_eq; simpa using h
  obtain ⟨d, pre, eq, digits, value, lead⟩ :=
    toDigitsCore_spec (m.toInt.natAbs + 1) m.toInt.natAbs [] (by omega)
  refine ⟨d, pre, ?_, digits d (List.mem_cons_self _ _), fun h => pos (lead h),
    fun x hx => digits x (List.mem_cons_of_mem _ hx), value⟩
  simp only [formatInt, Nat.toDigits, eq, List.append_nil]

theorem parseNumber_formatInt (m : BitVec 64) (nonzero : m ≠ 0) (rest : List Char) :
    parseNumber (formatInt m ++ '\n' :: rest) = .ok (formatInt m, '\n' :: rest) := by
  obtain ⟨d, pre, eq, dig, nz, digits, -⟩ := formatInt_spec m nonzero
  have minus : d ≠ '-' := by rintro rfl; simp at dig
  rw [eq]
  split <;> simp [parseNumber, nz, dig, minus, List.takeWhile_append_of_pos digits,
    List.dropWhile_append_of_pos digits, parseFraction]

theorem parseInt64_formatInt (m : BitVec 64) (nonzero : m ≠ 0) :
    parseInt64 (formatInt m) = some m.toInt := by
  obtain ⟨d, pre, eq, dig, -, digits, value⟩ := formatInt_spec m nonzero
  have minus : d ≠ '-' := by rintro rfl; simp at dig
  have plus : d ≠ '+' := by rintro rfl; simp at dig
  have range : -9223372036854775808 ≤ m.toInt ∧ m.toInt < 9223372036854775808 := toInt_range m
  have unsigned : parseDigits (d :: pre) = some m.toInt.natAbs := by
    rw [parseDigits, if_pos ⟨List.cons_ne_nil _ _, by simpa [dig] using digits⟩, value]
  have unsplit : splitSign (d :: pre) = (false, d :: pre) := by simp [splitSign, plus, minus]
  rw [eq]
  split
  · have negative : splitSign ('-' :: d :: pre) = (true, d :: pre) := rfl
    simp only [parseInt64, List.singleton_append, negative, unsigned, Option.some_bind, if_true]
    rw [if_pos (by omega)]
    congr 1
    omega
  · simp only [parseInt64, List.nil_append, unsplit, unsigned, Option.some_bind]
    rw [if_neg Bool.false_ne_true, if_pos (by omega)]
    congr 1
    omega

end Digits

section Parse

theorem parseValue_space (fuel depth : Nat) (c : Char) (cs : List Char) (space : isSpace c = true) :
    parseValue (fuel + 1) depth (c :: cs) = parseValue (fuel + 1) depth cs := by
  rw [parseValue.eq_2, parseValue.eq_2]
  simp only [skipSpace, space, if_true]

theorem parseValue_bool (fuel depth : Nat) (b : Bool) (rest : List Char) :
    parseValue (fuel + 1) depth (boolText b ++ rest) = .ok (.bool b, rest) := by
  cases b <;> rfl

/-- A value starting with `-` or a digit is a number. -/
theorem parseValue_number (fuel depth : Nat) (c : Char) (r : List Char)
    (start : c = '-' ∨ c.isDigit) :
    parseValue (fuel + 1) depth (c :: r) =
      (fun r => (.number r.1, r.2)) <$> parseNumber (c :: r) := by
  have facts : isSpace c = false ∧ c ≠ '\x7b' ∧ c ≠ '[' ∧ c ≠ '\x22' := by
    rcases start with rfl | dig
    · decide
    · rw [isDigit_iff] at dig
      refine ⟨?_, ne_of_toNat (by simp; omega), ne_of_toNat (by simp; omega),
        ne_of_toNat (by simp; omega)⟩
      simp only [isSpace, Bool.or_eq_false_iff, decide_eq_false_iff_not]
      exact ⟨⟨⟨ne_of_toNat (by simp; omega), ne_of_toNat (by simp; omega)⟩,
        ne_of_toNat (by simp; omega)⟩, ne_of_toNat (by simp; omega)⟩
  obtain ⟨space, brace, bracket, quote⟩ := facts
  have number : (c = '-' || c.isDigit) = true := by rcases start with rfl | dig <;> simp [*]
  simp [parseValue, skipSpace, space, brace, bracket, quote, number]

theorem parseValue_formatInt (fuel depth : Nat) (m : BitVec 64) (nonzero : m ≠ 0)
    (rest : List Char) :
    parseValue (fuel + 1) depth (formatInt m ++ '\n' :: rest) =
      .ok (.number (formatInt m), '\n' :: rest) := by
  obtain ⟨d, pre, eq, dig, -⟩ := formatInt_spec m nonzero
  obtain ⟨c, cs, head, start⟩ : ∃ c cs, formatInt m = c :: cs ∧ (c = '-' ∨ c.isDigit) := by
    split at eq <;> exact ⟨_, _, eq, by simp [dig]⟩
  have parsed := parseNumber_formatInt m nonzero rest
  rw [head] at parsed ⊢
  rw [List.cons_append, parseValue_number _ _ _ _ start, ← List.cons_append, parsed]
  rfl

/-- A key with no quote, backslash or control character reads back as itself. -/
theorem parseString_plain (rest : List Char) : ∀ s : List Char,
    (∀ c ∈ s, c ≠ '\x22' ∧ c ≠ '\x5c' ∧ 0x20 ≤ c.toNat) →
      parseString (s ++ '\x22' :: rest) = .ok (s, rest)
  | [], _ => rfl
  | c :: s, plain => by
      obtain ⟨quote, backslash, printable⟩ := plain c (List.mem_cons_self _ _)
      have ih := parseString_plain rest s (fun x hx => plain x (List.mem_cons_of_mem _ hx))
      rw [List.cons_append]
      unfold parseString
      split <;> rename_i heq
      · exact absurd heq (List.cons_ne_nil _ _)
      · exact absurd (List.cons.inj heq).1 quote
      -- the four escape branches start with a backslash
      iterate 4 exact absurd (List.cons.inj heq).1 backslash
      · obtain ⟨rfl, rfl⟩ := List.cons.inj heq
        rw [if_neg (Nat.not_lt.2 printable), ih]
        rfl

variable (item : List Char → Except JsonError (JsonValue × List Char))

/-- One indented member, read by `parseMembers`: what follows it decides
whether another member or the closing brace comes next. -/
theorem parseMembers_member (fuel : Nat) (acc : List (List Char × JsonValue)) (key : String)
    (plain : ∀ c ∈ key.data, c ≠ '\x22' ∧ c ≠ '\x5c' ∧ 0x20 ≤ c.toNat)
    (value rest after : List Char) (v : JsonValue)
    (parsed : item (' ' :: (value ++ rest)) = .ok (v, after)) :
    parseMembers item (fuel + 1) acc (indentedMember key value ++ rest) =
      match skipSpace after with
      | ',' :: more => parseMembers item fuel (acc ++ [(key.data, v)]) more
      | '\x7d' :: more => .ok (acc ++ [(key.data, v)], more)
      | c :: _ => .error (invalidCharacter c "after object key:value pair")
      | [] => .error unexpectedEnd := by
  simp only [indentedMember, List.cons_append, List.append_assoc]
  rw [parseMembers.eq_2]
  simp [skipSpace, isSpace, parseString_plain _ _ plain, parsed]

/-- An object whose first member is indented on its own line. -/
theorem parseValue_object (fuel depth : Nat) (shallow : depth < maxNestingDepth) (key : String)
    (value rest : List Char) :
    parseValue (fuel + 1) depth ('\x7b' :: (indentedMember key value ++ rest)) =
      (fun r => (.object r.1, r.2)) <$>
        parseMembers (fun cs => parseValue fuel (depth + 1) cs) fuel [] (indentedMember key value ++ rest) := by
  have deep : ¬ maxNestingDepth < depth + 1 := by omega
  rw [parseValue.eq_2]
  simp [indentedMember, skipSpace, isSpace, deep]

theorem field_name_plain (f : Field) :
    ∀ c ∈ f.name.data, c ≠ '\x22' ∧ c ≠ '\x5c' ∧ 0x20 ≤ c.toNat := by
  cases f <;> decide

/-- The members `marshalIndent c` writes, in order. -/
def configMembers (c : ReadOnlyStorageConfig) : List (List Char × JsonValue) :=
  (Field.readOnly.name.data, .bool c.readOnly) ::
    if c.syncIntervalMinutes = 0 then []
    else [(Field.syncIntervalMinutes.name.data, .number (formatInt c.syncIntervalMinutes))]

theorem parseValue_marshalIndent (c : ReadOnlyStorageConfig) (fuel depth : Nat)
    (shallow : depth < maxNestingDepth) :
    parseValue (fuel + 3) depth (marshalIndent c) = .ok (.object (configMembers c), []) := by
  obtain ⟨r, m⟩ := c
  let item := fun cs => parseValue (fuel + 2) (depth + 1) cs
  have flag (tail : List Char) : item (' ' :: (boolText r ++ tail)) = .ok (.bool r, tail) := by
    simp only [item]; rw [parseValue_space _ _ _ _ (by decide), parseValue_bool]
  simp only [marshalIndent, List.append_assoc]
  rw [parseValue_object _ _ shallow, parseMembers_member item _ _ _ (field_name_plain _) _ _ _ _ (flag _)]
  by_cases zero : m = 0
  · simp [zero, skipSpace, isSpace, configMembers]
  · have interval : item (' ' :: (formatInt m ++ ['\n', '\x7d'])) =
        .ok (.number (formatInt m), ['\n', '\x7d']) := by
      simp only [item]; rw [parseValue_space _ _ _ _ (by decide), parseValue_formatInt _ _ _ zero]
    have comma (more : List Char) : skipSpace (',' :: more) = ',' :: more := rfl
    simp only [zero, if_false, List.cons_append, comma]
    rw [parseMembers_member item _ _ _ (field_name_plain _) _ _ _ _ interval]
    simp only [skipSpace, isSpace, configMembers]
    simp
    exact (if_neg zero).symm

theorem checkValid_marshalIndent (c : ReadOnlyStorageConfig) :
    checkValid (marshalIndent c) = .ok (.object (configMembers c)) := by
  obtain ⟨fuel, enough⟩ : ∃ fuel, (marshalIndent c).length + 1 = fuel + 3 :=
    ⟨(marshalIndent c).length - 2, by simp [marshalIndent, indentedMember]⟩
  simp only [checkValid, enough, parseValue_marshalIndent c fuel 0 (by decide)]
  rfl

theorem decodeConfig_configMembers (c : ReadOnlyStorageConfig) :
    decodeConfig (.object (configMembers c)) = .ok c := by
  obtain ⟨r, m⟩ := c
  by_cases zero : m = 0
  · subst zero; cases r <;> rfl
  · have key : fieldOf Field.syncIntervalMinutes.name.data = some .syncIntervalMinutes := rfl
    simp only [configMembers, zero, if_false, decodeConfig, decodeMembers, storeField,
      parseInt64_formatInt m zero, ofInt_toInt, key]
    cases r <;> rfl

/-- **Decoding what `marshalIndent` wrote gives the config back**, for every
flag and every 64-bit interval. -/
theorem unmarshalConfig_marshalIndent (c : ReadOnlyStorageConfig) :
    unmarshalConfig (marshalIndent c) = .ok c := by
  rw [unmarshalConfig, checkValid_marshalIndent]
  exact decodeConfig_configMembers c

example : unmarshalConfig (marshalIndent ⟨true, 30⟩) = .ok ⟨true, 30⟩ := by rfl

/-- An empty file (one truncated and not yet written) is not a document. -/
theorem unmarshalConfig_nil : unmarshalConfig [] = .error unexpectedEnd := rfl

end Parse

end ReadOnlyStorage.Config
