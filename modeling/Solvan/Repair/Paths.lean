import Mathlib.Data.List.DropRight
import Solvan.Domain.Actions

/-! Repository paths: what a selector matches, and which paths and hashes are
well formed. -/
namespace Solvan.Repair

/-- The Unicode tables and the hash that the code calls. -/
structure Library where
  nfc : String → String
  casefold : String → String
  sha256 : ByteArray → String

/-- `sha256_bytes` -/
def Library.sha256Bytes (lib : Library) (value : ByteArray) : String := "sha256:" ++ lib.sha256 value

/-- `canonical_sha256` -/
def Library.canonicalSha256 (lib : Library) (value : Json) : String :=
  Domain.canonicalJsonHash lib.sha256 value

/-- `if not condition: raise ValueError(message)` -/
def require (condition : Bool) (message : String) : Except String Unit :=
  if condition then .ok () else .error message

theorem require_ok {condition : Bool} {message : String} :
    require condition message = .ok () ↔ condition = true := by
  cases condition <;> simp [require]

theorem bind_ok {α β : Type} {x : Except String α} {f : α → Except String β} {b : β} :
    x >>= f = .ok b ↔ ∃ a, x = .ok a ∧ f a = .ok b := by
  constructor
  · intro h
    cases x with
    | ok a => exact ⟨a, rfl, h⟩
    | error message => cases h
  · rintro ⟨a, rfl, h⟩
    exact h

/-- A piece of a `fnmatch` pattern. A set is what its chunks hold and the range
from the end of each to the start of the next. -/
inductive Glob where
  | star
  | any
  | set (negated : Bool) (chunks : List (List Char))
  | char (c : Char)

/-- What stands between brackets, and what comes after. -/
def bracketed (cs : List Char) : Option (List Char × List Char) :=
  let opening := match cs with
    | '!' :: ']' :: _ => 2
    | '!' :: _ => 1
    | ']' :: _ => 1
    | _ => 0
  let stuff := cs.take opening ++ (cs.drop opening).takeWhile (· != ']')
  match cs.drop stuff.length with
  | [] => none
  | _ :: after => some (stuff, after)

/-- The chunks between the hyphens that make ranges: none of the first `skip`
characters does, and none of the two after one that did. -/
def hyphenChunks : Nat → List Char → List Char → List (List Char)
  | _, chunk, [] => [chunk]
  | 0, chunk, c :: cs =>
    if c == '-' then
      match cs with
      | [] => [chunk ++ ['-']]
      | _ => chunk :: hyphenChunks 2 [] cs
    else hyphenChunks 0 (chunk ++ [c]) cs
  | skip + 1, chunk, c :: cs => hyphenChunks skip (chunk ++ [c]) cs

/-- Ranges that go down are dropped with their ends. -/
def dropEmptyRanges : List (List Char) → List (List Char)
  | [] => []
  | chunk :: chunks =>
    match dropEmptyRanges chunks with
    | [] => [chunk]
    | next :: rest =>
      if next.headD '-' < chunk.getLastD '-' then (chunk.dropLast ++ next.tail) :: rest
      else chunk :: next :: rest

def setOf (stuff : List Char) : Glob :=
  let skip := if stuff.head? == some '!' then 2 else 1
  match dropEmptyRanges (hyphenChunks skip [] stuff) with
  | ('!' :: chunk) :: chunks => .set true (chunk :: chunks)
  | chunks => .set false chunks

/-- `fnmatch.translate`, for patterns of at most so many characters. -/
def translate : Nat → List Char → List Glob
  | 0, _ => []
  | _, [] => []
  | fuel + 1, c :: cs =>
    if c == '*' then .star :: translate fuel cs
    else if c == '?' then .any :: translate fuel cs
    else if c == '[' then
      match bracketed cs with
      | none => .char '[' :: translate fuel cs
      | some (stuff, after) => setOf stuff :: translate fuel after
    else .char c :: translate fuel cs

def inChunks (c : Char) : List (List Char) → Bool
  | [] => false
  | [chunk] => chunk.contains c
  | chunk :: next :: rest =>
    chunk.contains c || (decide (chunk.getLastD '-' ≤ c) && decide (c ≤ next.headD '-')) ||
      inChunks c (next :: rest)

def Glob.accepts (c : Char) : Glob → Bool
  | .star => false
  | .any => true
  | .set negated chunks => inChunks c chunks != negated
  | .char d => c == d

def matches_ : List Glob → List Char → Bool
  | [], cs => cs.isEmpty
  | .star :: globs, cs => cs.tails.any (matches_ globs)
  | glob :: globs, c :: cs => glob.accepts c && matches_ globs cs
  | _ :: _, [] => false

/-- `fnmatch.fnmatchcase` -/
def fnmatchcase (name pat : String) : Bool :=
  matches_ (translate pat.length pat.toList) name.toList

def startsWith (s start : String) : Bool := start.toList.isPrefixOf s.toList

def endsWith (s ending : String) : Bool := ending.toList.isSuffixOf s.toList

/-- `PurePosixPath(path).parts` -/
def pathParts (path : String) : List String :=
  let root := if startsWith path "//" && !startsWith path "///" then ["//"]
    else if startsWith path "/" then ["/"] else []
  root ++ ((path.toList.splitOn '/').map String.ofList).filter (fun part => part != "" && part != ".")

/-- `_FORBIDDEN_PREFIXES` -/
def forbiddenPrefixes : List String := [".git/", ".github/", "infra/", "deploy/", "iam/", "policy/"]

/-- A path under a forbidden one, or that one itself. -/
def reserved (path : String) : Bool :=
  forbiddenPrefixes.any (fun start =>
    path == String.ofList (start.toList.rdropWhile (· == '/')) || startsWith path start)

/-- `_validate_path` of the transform -/
def validatePath (lib : Library) (path : String) (enforceRepairBoundary : Bool) : Except String Unit :=
  require
    (!(path == "" || lib.nfc path != path || startsWith path "/" || startsWith path "~" ||
      path.toList.contains '\\' || path.toList.contains '\x00' ||
      (pathParts path).any (fun part => part == "" || part == "." || part == "..") || path == ".git" ||
      (enforceRepairBoundary &&
        (path == ".gitattributes" || endsWith path "/.gitattributes" || reserved path))))
    "repository path is unsafe or reserved"

/-- `_safe_relative_path` of the candidate tree, where the root is not allowed -/
def safeRelativePath (lib : Library) (path : String) : Except String Unit := do
  require (lib.nfc path == path) "candidate path must be NFC-normalized"
  require
    (!(path == "" || startsWith path "/" || path.toList.contains '\\' ||
      (pathParts path).contains ".." || path == "." || reserved path))
    "candidate path is unsafe or reserved"

def hexadecimal (cs : List Char) : Bool := cs.all (fun c => "0123456789abcdef".toList.contains c)

/-- `_validate_hash` -/
def validateHash (value : String) : Except String Unit :=
  require (value.length == 71 && startsWith value "sha256:" && hexadecimal (value.toList.drop 7))
    "content hash is not canonical SHA-256"

end Solvan.Repair
