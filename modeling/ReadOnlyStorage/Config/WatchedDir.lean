/-
# Config.WatchedDir — the directory the side-file watcher adds

`StartReadOnlyStorageWatcher` watches the side file's directory rather than the
file, so that a file replaced by delete and create is still seen. It computes
that directory with its own `getDirFromPath`, which cuts the path at its last
separator, and hands it to `watcher.Add`. The standard library's answer is
`filepath.Dir`: `Clean` of the path up to and including its last separator.

`clean` follows Go's lexical loop on Unix byte for byte (`cleanLoop`, with the
back-tracking of a `..` element in `dotDot`) and reproduces Go's own examples.
A trailing separator never changes what it returns (`clean_append_sep`), so the
two answers agree on every path but one family
(`clean_getDirFromPath_eq_dir_iff`): a file directly under the root, `/name`,
is cut at index 0. `getDirFromPath` returns `""`, which `Clean` reads as the
working directory `.`, while the file's directory is `/`
(`root_file_watches_working_directory`).
-/
import Mathlib

namespace ReadOnlyStorage.Config

set_option autoImplicit false

/-! ## Separators -/

/-- `os.PathSeparator` on Unix. -/
def pathSeparator : Char := '/'

/-- `os.IsPathSeparator` on Unix. -/
def isPathSeparator (c : Char) : Bool := c == pathSeparator

@[simp] theorem pathSeparator_eq : pathSeparator = '/' := rfl

@[simp] theorem isPathSeparator_eq (c : Char) : isPathSeparator c = (c == '/') := rfl

/-! ## `filepath.Clean` -/

/-- The back-tracking loop of a `..` element after its first `out.w--`:
`for out.w > dotdot && !os.IsPathSeparator(out.index(out.w)) { out.w-- }`.
The buffer is reversed, its last byte first, and `dropped` is the byte at
`out.index(out.w)`, the one removed last. -/
def backtrackFrom (dotdot : Nat) (dropped : Char) : List Char → List Char
  | [] => []
  | c :: rest =>
    if dotdot < (c :: rest).length ∧ !isPathSeparator dropped then backtrackFrom dotdot c rest
    else c :: rest

/-- `out.w--` and the loop of `backtrackFrom`: remove the last element and the
separator before it, never below `dotdot`. -/
def backtrack (dotdot : Nat) : List Char → List Char
  | [] => []
  | c :: rest => backtrackFrom dotdot c rest

/-- A `..` element. Back up over the last element when the buffer reaches past
`dotdot`; in a relative path that cannot back up, append `..` and move `dotdot`
past it; in a rooted one, drop it. Returns the new `dotdot` and buffer. -/
def dotDot (rooted : Bool) (dotdot : Nat) (out : List Char) : Nat × List Char :=
  if dotdot < out.length then (dotdot, backtrack dotdot out)
  else if !rooted then
    let out := '.' :: '.' :: (if 0 < out.length then pathSeparator :: out else out)
    (out.length, out)
  else (dotdot, out)

/-- The loop `for r < n` of `Clean` over the bytes still to read, `path[r:]`,
with the buffer `out` reversed. `copying` is the inner loop that copies a real
element up to its separator. A `.` or `..` element also takes the separator
after it, which the next round would skip as an empty element. -/
def cleanLoop (rooted : Bool) : Bool → Nat → List Char → List Char → List Char
  | _, _, out, [] => out
  | _, dotdot, out, '/' :: rest => cleanLoop rooted false dotdot out rest
  | true, dotdot, out, c :: rest => cleanLoop rooted true dotdot (c :: out) rest
  | false, _, out, ['.'] => out
  | false, dotdot, out, '.' :: '/' :: rest => cleanLoop rooted false dotdot out rest
  | false, dotdot, out, ['.', '.'] => (dotDot rooted dotdot out).2
  | false, dotdot, out, '.' :: '.' :: '/' :: rest =>
    let (dotdot, out) := dotDot rooted dotdot out
    cleanLoop rooted false dotdot out rest
  | false, dotdot, out, c :: rest =>
    let out := if rooted && out.length != 1 || !rooted && out.length != 0 then
      pathSeparator :: out else out
    cleanLoop rooted true dotdot (c :: out) rest

/-- `filepath.Clean` on Unix, where the volume name is empty: the shortest path
naming the same file by lexical processing alone. -/
def clean : List Char → List Char
  | [] => ['.']
  | first :: rest =>
    let rooted := isPathSeparator first
    let out := if rooted then cleanLoop rooted false 1 [pathSeparator] rest
      else cleanLoop rooted false 0 [] (first :: rest)
    if out.length = 0 then ['.'] else out.reverse

example : clean "abc/def/../ghi/./jkl/".data = "abc/ghi/jkl".data := by decide
example : clean "/../abc//def/..".data = "/abc".data := by decide
example : clean "../../abc/..".data = "../..".data := by decide
example : clean "abc/..".data = ".".data := by decide

/-- `filepath.Dir`: `Clean` of the path up to and including its last
separator, of the empty prefix when it has none. -/
def dir (path : List Char) : List Char :=
  clean (path.reverse.dropWhile fun c => !isPathSeparator c).reverse

/-- `getDirFromPath` of the watcher: the path before its last separator, or
`.` when it has none. -/
def getDirFromPath (path : List Char) : List Char :=
  match path.reverse.dropWhile fun c => !(c == '/' || c == pathSeparator) with
  | [] => ['.']
  | _ :: before => before.reverse

/-! ## A trailing separator -/

theorem sep_append_ne_nil (rest : List Char) : rest ++ ['/'] ≠ [] :=
  List.append_ne_nil_of_right_ne_nil rest (List.cons_ne_nil _ _)

/-- The guards of a real element that begins with `.`, on the bytes after it:
neither `.` nor `..` ends there or at a separator. A separator appended at the
end keeps them. -/
theorem realElement_append_sep {rest : List Char} (notDot : rest ≠ [])
    (notDotSep : ∀ r, rest ≠ '/' :: r) (notDotDot : rest ≠ ['.'])
    (notDotDotSep : ∀ r, rest ≠ '.' :: '/' :: r) :
    (∀ r, rest ++ ['/'] ≠ '/' :: r) ∧ rest ++ ['/'] ≠ ['.'] ∧
      ∀ r, rest ++ ['/'] ≠ '.' :: '/' :: r := by
  obtain ⟨x, more, rfl⟩ := List.exists_cons_of_ne_nil notDot
  refine ⟨fun r eq => ?_, fun eq => ?_, fun r eq => ?_⟩ <;>
    simp only [List.cons_append, List.cons.injEq] at eq
  · exact notDotSep more (by rw [eq.1])
  · exact sep_append_ne_nil more eq.2
  · obtain ⟨rfl, eq⟩ := eq
    cases more with
    | nil => exact notDotDot rfl
    | cons y more =>
      simp only [List.cons_append, List.cons.injEq] at eq
      exact notDotDotSep more (by rw [eq.1])

/-- A separator after the last byte is an empty element, which `Clean` skips. -/
theorem cleanLoop_append_sep (rooted copying : Bool) (dotdot : Nat) (out path : List Char) :
    cleanLoop rooted copying dotdot out (path ++ ['/']) = cleanLoop rooted copying dotdot out path := by
  induction copying, dotdot, out, path using cleanLoop.induct rooted with
  | case1 => simp only [List.nil_append, cleanLoop.eq_1, cleanLoop.eq_2]
  | case2 _ _ _ _ ih => simp only [List.cons_append, cleanLoop.eq_2, ih]
  | case3 _ _ c _ notSep ih => simp only [List.cons_append, cleanLoop.eq_3 _ _ _ _ _ notSep, ih]
  | case4 =>
    simp only [List.cons_append, List.nil_append, cleanLoop.eq_1, cleanLoop.eq_4, cleanLoop.eq_5]
  | case5 _ _ _ ih => simp only [List.cons_append, cleanLoop.eq_5, ih]
  | case6 =>
    simp only [List.cons_append, List.nil_append, cleanLoop.eq_6, cleanLoop.eq_7, cleanLoop.eq_1]
  | case7 _ _ _ _ _ backedUp ih => simp only [List.cons_append, cleanLoop.eq_7, backedUp, ih]
  | case8 _ _ c rest notSep notDot notDotSep notDotDot notDotDotSep _ ih =>
    have real := fun dot : c = '.' => realElement_append_sep (notDot dot) (notDotSep · dot)
      (notDotDot dot) (notDotDotSep · dot)
    rw [cleanLoop.eq_8 _ _ _ _ _ notSep notDot notDotSep notDotDot notDotDotSep, ← ih,
      List.cons_append]
    exact cleanLoop.eq_8 _ _ _ _ _ notSep (fun _ => sep_append_ne_nil rest)
      (fun r dot => (real dot).1 r) (fun dot => (real dot).2.1) (fun r dot => (real dot).2.2 r)

theorem clean_append_sep {path : List Char} (nonempty : path ≠ []) :
    clean (path ++ ['/']) = clean path := by
  obtain ⟨first, rest, rfl⟩ := List.exists_cons_of_ne_nil nonempty
  have unrooted := cleanLoop_append_sep (isPathSeparator first) false 0 [] (first :: rest)
  simp only [List.cons_append] at unrooted
  simp only [clean, List.cons_append, cleanLoop_append_sep, unrooted]

/-! ## The last separator -/

/-- Scanning back from the end stops at the last separator. -/
theorem dropWhile_reverse_append {p : Char → Bool} (stop : p '/' = false) (dirPart : List Char)
    {name : List Char} (skip : ∀ c ∈ name, p c = true) :
    (dirPart ++ '/' :: name).reverse.dropWhile p = '/' :: dirPart.reverse := by
  rw [List.reverse_append, List.reverse_cons, List.append_assoc, List.singleton_append,
    List.dropWhile_append_of_pos fun c mem => skip c (List.mem_reverse.1 mem)]
  simp [List.dropWhile_cons, stop]

theorem dropWhile_reverse_of_forall {p : Char → Bool} {path : List Char}
    (skip : ∀ c ∈ path, p c = true) : path.reverse.dropWhile p = [] :=
  List.dropWhile_eq_nil_iff.2 fun c mem => skip c (List.mem_reverse.1 mem)

/-- A path is a name without separator, or a directory part, a separator and
such a name. -/
theorem not_mem_or_eq_append_sep (path : List Char) :
    '/' ∉ path ∨ ∃ dirPart name, '/' ∉ name ∧ path = dirPart ++ '/' :: name := by
  induction path with
  | nil => exact .inl (List.not_mem_nil _)
  | cons c rest ih =>
    rcases ih with noSep | ⟨dirPart, name, noSep, rfl⟩
    · by_cases sep : c = '/'
      · exact .inr ⟨[], rest, noSep, by rw [sep, List.nil_append]⟩
      · exact .inl (List.not_mem_cons_of_ne_of_not_mem (Ne.symm sep) noSep)
    · exact .inr ⟨c :: dirPart, name, noSep, rfl⟩

theorem getDirFromPath_of_not_mem {path : List Char} (noSep : '/' ∉ path) :
    getDirFromPath path = ['.'] := by
  rw [getDirFromPath, dropWhile_reverse_of_forall fun c mem => by
    simp [ne_of_mem_of_not_mem mem noSep]]

theorem getDirFromPath_append (dirPart : List Char) {name : List Char} (noSep : '/' ∉ name) :
    getDirFromPath (dirPart ++ '/' :: name) = dirPart := by
  rw [getDirFromPath, dropWhile_reverse_append (by decide) dirPart fun c mem => by
    simp [ne_of_mem_of_not_mem mem noSep]]
  exact List.reverse_reverse dirPart

theorem dir_of_not_mem {path : List Char} (noSep : '/' ∉ path) : dir path = ['.'] := by
  rw [dir, dropWhile_reverse_of_forall fun c mem => by simp [ne_of_mem_of_not_mem mem noSep]]
  rfl

theorem dir_append (dirPart : List Char) {name : List Char} (noSep : '/' ∉ name) :
    dir (dirPart ++ '/' :: name) = clean (dirPart ++ ['/']) := by
  rw [dir, dropWhile_reverse_append (by decide) dirPart fun c mem => by
    simp [ne_of_mem_of_not_mem mem noSep], List.reverse_cons, List.reverse_reverse]

/-! ## The watched directory -/

/-- A file directly under the root is cut at index 0: the watcher is handed
`""`, which `Clean` reads as the working directory, while its directory is the
root. -/
theorem root_file_watches_working_directory {name : List Char} (noSep : '/' ∉ name) :
    getDirFromPath ('/' :: name) = [] ∧ clean (getDirFromPath ('/' :: name)) = ['.'] ∧
      dir ('/' :: name) = ['/'] := by
  have cut : getDirFromPath ('/' :: name) = [] := getDirFromPath_append [] noSep
  refine ⟨cut, by rw [cut]; rfl, ?_⟩
  rw [← List.nil_append ('/' :: name), dir_append [] noSep]
  rfl

theorem root_side_file_watches_working_directory :
    '/' ∉ "read_only_storage.json".data ∧
      (getDirFromPath ('/' :: "read_only_storage.json".data) = [] ∧
        clean (getDirFromPath ('/' :: "read_only_storage.json".data)) = ['.'] ∧
        dir ('/' :: "read_only_storage.json".data) = ['/']) :=
  ⟨by decide, root_file_watches_working_directory (by decide)⟩

/-- The watched directory is the file's directory exactly when the file is not
directly under the root. -/
theorem clean_getDirFromPath_eq_dir_iff (path : List Char) :
    clean (getDirFromPath path) = dir path ↔ ∀ name, path = '/' :: name → '/' ∈ name := by
  rcases not_mem_or_eq_append_sep path with noSep | ⟨dirPart, name, noSep, rfl⟩
  · rw [getDirFromPath_of_not_mem noSep, dir_of_not_mem noSep]
    exact iff_of_true rfl fun name root => absurd (root ▸ List.mem_cons_self _ _) noSep
  · rw [getDirFromPath_append dirPart noSep, dir_append dirPart noSep]
    cases dirPart with
    | nil => exact iff_of_false (by decide) fun notRoot => noSep (notRoot name rfl)
    | cons c rest =>
      refine iff_of_true (clean_append_sep (List.cons_ne_nil c rest)).symm fun name' root => ?_
      obtain ⟨-, rfl⟩ := List.cons.inj root
      exact List.mem_append_right _ (List.mem_cons_self _ _)

example : clean (getDirFromPath "data/read_only_storage.json".data) =
    dir "data/read_only_storage.json".data := by decide

/-! ## The name of the side file's events -/

/-- The entry a path names in its directory: the bytes after its last
separator, the whole path when it has none. -/
def baseName (path : List Char) : List Char :=
  (path.reverse.takeWhile fun c => !isPathSeparator c).reverse

/-- `event.Name` of the events fsnotify sends for the side file:
`watcher.Add` cleans the directory it is handed, and an event for an entry of
it joins that directory and the entry's name with a separator. -/
def eventName (path : List Char) : List Char :=
  clean (getDirFromPath path) ++ '/' :: baseName path

theorem baseName_of_not_mem {path : List Char} (noSep : '/' ∉ path) : baseName path = path := by
  rw [baseName, List.takeWhile_eq_self_iff.2 fun c mem => by
    simp [ne_of_mem_of_not_mem (List.mem_reverse.1 mem) noSep], List.reverse_reverse]

theorem baseName_append (dirPart : List Char) {name : List Char} (noSep : '/' ∉ name) :
    baseName (dirPart ++ '/' :: name) = name := by
  have skip : ∀ c ∈ name.reverse, (!isPathSeparator c) = true := fun c mem => by
    simp [ne_of_mem_of_not_mem (List.mem_reverse.1 mem) noSep]
  rw [baseName, List.reverse_append, List.reverse_cons, List.append_assoc, List.singleton_append,
    List.takeWhile_append_of_pos skip]
  simp

/-- **The watcher sees the path's events exactly when the path has a
directory part that `Clean` leaves as it is.** A name with no separator is
watched in `.` and its events are named `./name`; a file directly under the
root is watched in `.` as well; `./data/x` or `data//x` are named `data/x`. -/
theorem eventName_eq_iff (path : List Char) :
    eventName path = path ↔ '/' ∈ path ∧ clean (getDirFromPath path) = getDirFromPath path := by
  rcases not_mem_or_eq_append_sep path with noSep | ⟨dirPart, name, noSep, rfl⟩
  · refine iff_of_false (fun named => ?_) fun ⟨sep, _⟩ => noSep sep
    have lengths := congrArg List.length named
    rw [eventName, getDirFromPath_of_not_mem noSep, baseName_of_not_mem noSep] at lengths
    simp [clean, cleanLoop] at lengths
    omega
  · rw [eventName, getDirFromPath_append dirPart noSep, baseName_append dirPart noSep,
      List.append_left_inj]
    exact ⟨fun cleaned => ⟨List.mem_append_right _ (List.mem_cons_self _ _), cleaned⟩, And.right⟩

example : eventName "data/read_only_storage.json".data = "data/read_only_storage.json".data := by
  decide

end ReadOnlyStorage.Config
