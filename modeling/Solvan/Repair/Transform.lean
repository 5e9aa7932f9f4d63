import Solvan.Base.Base64
import Solvan.Repair.Candidate

/-! The canonical transform of a repository tree: derived from a candidate, and
applied to a tree. -/
namespace Solvan.Repair
open Solvan.Base

/-- A value that its class's checks let through. -/
def construct {α : Type} (check : α → Except String Unit) (a : α) :
    Except String {a : α // check a = .ok ()} :=
  match h : check a with
  | .ok () => .ok ⟨a, h⟩
  | .error message => .error message

theorem construct_ok {α : Type} {check : α → Except String Unit} {a : α}
    {b : {a : α // check a = .ok ()}} (h : construct check a = .ok b) : b.val = a := by
  unfold construct at h
  split at h
  · exact (Except.ok.inj h) ▸ rfl
  · cases h

theorem construct_self {α : Type} {check : α → Except String Unit} (a : {a : α // check a = .ok ()}) :
    construct check a.val = .ok a := by
  unfold construct
  split
  · rfl
  · rename_i message hfailed
    rw [a.property] at hfailed
    cases hfailed

/-- `_REGULAR_MODES` -/
def regularModes : List String := ["100644", "100755"]

structure TreeEntry where
  path : String
  mode : String
  contentHash : String
deriving DecidableEq

def TreeEntry.postInit (lib : Library) (entry : TreeEntry) : Except String Unit := do
  validatePath lib entry.path false
  require (regularModes.contains entry.mode)
    "repository tree contains a non-regular or unsupported mode"
  validateHash entry.contentHash

abbrev RepositoryTreeEntry (lib : Library) :=
  {entry : TreeEntry // entry.postInit lib = .ok ()}

inductive OperationKind where
  | create | replace | delete
deriving DecidableEq, Repr

structure OperationFields where
  kind : OperationKind
  path : String
  expectedBaseHash : Option String
  expectedBaseMode : Option String
  resultHash : Option String
  resultMode : Option String
  contentBase64 : Option String
deriving DecidableEq

def OperationFields.validateBase (op : OperationFields) : Except String Unit := do
  require (op.expectedBaseHash.isSome && op.expectedBaseMode.any regularModes.contains)
    "transform lacks an exact regular-file base precondition"
  validateHash (op.expectedBaseHash.getD "")

def OperationFields.validateResult (lib : Library) (op : OperationFields) (defaultModeOnly : Bool) :
    Except String Unit := do
  require (op.resultHash.isSome && op.resultMode.any regularModes.contains)
    "transform lacks an exact regular-file result"
  require (!defaultModeOnly || op.resultMode == some "100644")
    "new transform files must use the non-executable regular mode"
  validateHash (op.resultHash.getD "")
  require op.contentBase64.isSome "transform result content is required"
  match (base64Decode (op.contentBase64.getD "").toList).map List.toByteArray with
  | none => .error "transform result must be canonical UTF-8 content"
  | some content => do
    require content.validateUTF8 "transform result must be canonical UTF-8 content"
    require (some (lib.sha256Bytes content) == op.resultHash)
      "transform result hash differs from its content"

def OperationFields.postInit (lib : Library) (op : OperationFields) : Except String Unit := do
  validatePath lib op.path true
  match op.kind with
  | .create => do
    require (op.expectedBaseHash.isNone && op.expectedBaseMode.isNone)
      "create transform cannot have a base precondition"
    op.validateResult lib true
  | .replace => do
    op.validateBase
    op.validateResult lib false
    require (op.resultMode == op.expectedBaseMode) "transform cannot change a file mode"
  | .delete => do
    op.validateBase
    require (op.resultHash.isNone && op.resultMode.isNone && op.contentBase64.isNone)
      "delete transform cannot carry replacement content"

abbrev TransformOperation (lib : Library) :=
  {op : OperationFields // op.postInit lib = .ok ()}

/-- `TRANSFORM_VERSION` -/
def transformVersion : String := "solvan-regular-tree-transform/v1"

/-- What `sorted` makes of strings. -/
def sortedPaths (paths : List String) : List String := paths.insertionSort (fun a b => a ≤ b)

structure TransformFields (lib : Library) where
  version : String
  baseCommitSha : String
  baseTreeHash : String
  proposedTreeHash : String
  operations : List (TransformOperation lib)

def TransformFields.postInit (lib : Library) (transform : TransformFields lib) : Except String Unit := do
  require (transform.version == transformVersion) "patch transform version is unsupported"
  require (transform.baseCommitSha.length == 40 && hexadecimal transform.baseCommitSha.toList)
    "patch transform base commit is invalid"
  validateHash transform.baseTreeHash
  validateHash transform.proposedTreeHash
  require (1 ≤ transform.operations.length && transform.operations.length ≤ 32)
    "patch transform operation count is outside policy"
  let paths := transform.operations.map (fun op => op.val.path)
  require (paths == sortedPaths paths && decide paths.Nodup)
    "patch transform operations must have unique sorted paths"

abbrev CanonicalPatchTransform (lib : Library) :=
  {transform : TransformFields lib // transform.postInit lib = .ok ()}

def entryPath {lib : Library} (entry : RepositoryTreeEntry lib) : String := entry.val.path

/-- A complete repository tree. -/
abbrev RepositoryTree (lib : Library) := List (RepositoryTreeEntry lib)

variable {lib : Library}

def observed (tree : RepositoryTree lib) (path : String) : Option (RepositoryTreeEntry lib) :=
  Keyed.get entryPath tree path

/-- `_validate_tree` -/
def validateTree (lib : Library) (entries : RepositoryTree lib) : Except String Unit := do
  let paths := entries.map entryPath
  require (!entries.isEmpty && paths == sortedPaths paths && decide paths.Nodup)
    "repository tree entries must be non-empty, unique, and sorted"
  let folded := paths.map (fun path => lib.casefold (lib.nfc path))
  require (decide folded.Nodup) "repository tree contains a case-folding path collision"

/-- `repository_tree_hash` -/
def repositoryTreeHash (lib : Library) (entries : RepositoryTree lib) : Except String String := do
  validateTree lib entries
  return lib.canonicalSha256 (.obj [("entries", .arr (entries.map (fun entry =>
    .obj [("path", .str entry.val.path), ("mode", .str entry.val.mode),
      ("content_hash", .str entry.val.contentHash)])))])

/-- `tuple(sorted(…, key=lambda item: item.path))` -/
def sortedEntries (entries : RepositoryTree lib) : RepositoryTree lib :=
  entries.insertionSort (fun a b => entryPath a ≤ entryPath b)

/-- What a derivation reads besides the tree. -/
structure RepairMaterial (lib : Library) where
  repairBase : CandidateTree lib
  candidate : CandidateTree lib
  baseModes : List (String × String)
  allowedPaths : List String

def RepairMaterial.before (material : RepairMaterial lib) (path : String) : Option CandidateFile :=
  Keyed.get CandidateFile.path material.repairBase.files path

def RepairMaterial.after (material : RepairMaterial lib) (path : String) : Option CandidateFile :=
  Keyed.get CandidateFile.path material.candidate.files path

def contentBase64 (file : CandidateFile) : String :=
  String.ofList (base64Encode file.content.toUTF8.data.toList)

/-- The loop body of `derive_patch_transform`: the tree after a path, and its operation if
the path has one. -/
def derivePath (material : RepairMaterial lib) (full : RepositoryTree lib) (path : String) :
    Except String (RepositoryTree lib × Option (TransformOperation lib)) :=
  match material.before path, material.after path with
  | none, none => do
    require (material.allowedPaths.any (fnmatchcase path))
      "candidate change is outside the delivery profile"
    throw "candidate create conflicts with the qualified repository tree"
  | none, some new => do
    require (material.allowedPaths.any (fnmatchcase path))
      "candidate change is outside the delivery profile"
    require (observed full path).isNone
      "candidate create conflicts with the qualified repository tree"
    let operation ← construct (OperationFields.postInit lib)
      ⟨.create, path, none, none, some (new.contentHash lib), some "100644", some (contentBase64 new)⟩
    let entry ← construct (TreeEntry.postInit lib) ⟨path, "100644", new.contentHash lib⟩
    return (Keyed.put entryPath full entry, some operation)
  | some old, new => do
    if new.any (fun new => old.contentHash lib == new.contentHash lib) then return (full, none)
    else
      require (material.allowedPaths.any (fnmatchcase path))
        "candidate change is outside the delivery profile"
      -- The modes cover the curated base, as was checked before the loop.
      let mode := (material.baseModes.lookup path).getD ""
      require ((observed full path).any (fun entry =>
          entry.val.contentHash == old.contentHash lib && entry.val.mode == mode))
        "curated repair base differs from the qualified repository tree"
      match new with
      | none => do
        let operation ← construct (OperationFields.postInit lib)
          ⟨.delete, path, some (old.contentHash lib), some mode, none, none, none⟩
        return (Keyed.del entryPath full path, some operation)
      | some new => do
        let operation ← construct (OperationFields.postInit lib)
          ⟨.replace, path, some (old.contentHash lib), some mode, some (new.contentHash lib), some mode,
            some (contentBase64 new)⟩
        let entry ← construct (TreeEntry.postInit lib) ⟨path, mode, new.contentHash lib⟩
        return (Keyed.put entryPath full entry, some operation)

/-- The loop of `derive_patch_transform`. -/
def derivePaths (material : RepairMaterial lib) :
    RepositoryTree lib → List String → Except String (RepositoryTree lib × List (TransformOperation lib))
  | full, [] => .ok (full, [])
  | full, path :: paths => do
    let (full, operation) ← derivePath material full path
    let (full, operations) ← derivePaths material full paths
    return (full, operation.toList ++ operations)

/-- `sorted(set(before) | set(after))` -/
def RepairMaterial.paths (material : RepairMaterial lib) : List String :=
  sortedPaths ((material.repairBase.files.map CandidateFile.path ++
    material.candidate.files.map CandidateFile.path).dedup)

/-- `derive_patch_transform` -/
def derivePatchTransform (baseCommitSha : String) (qualifiedBaseTree : RepositoryTree lib)
    (material : RepairMaterial lib) : Except String (CanonicalPatchTransform lib) := do
  require (!material.allowedPaths.isEmpty && decide material.allowedPaths.Nodup)
    "code delivery allowed paths are malformed"
  validateTree lib qualifiedBaseTree
  let modes := material.baseModes.map Prod.fst
  let before := material.repairBase.files.map CandidateFile.path
  require (modes.all before.contains && before.all modes.contains)
    "repair base modes do not cover the exact curated base"
  let (full, operations) ← derivePaths material (Keyed.dict entryPath qualifiedBaseTree) material.paths
  require (!operations.isEmpty) "candidate tree does not differ from its qualified base"
  let baseTreeHash ← repositoryTreeHash lib qualifiedBaseTree
  let proposedTreeHash ← repositoryTreeHash lib (sortedEntries full)
  construct (TransformFields.postInit lib)
    ⟨transformVersion, baseCommitSha, baseTreeHash, proposedTreeHash, operations⟩

/-- `_assert_precondition` -/
def assertPrecondition (entry : Option (RepositoryTreeEntry lib)) (op : OperationFields) :
    Except String Unit :=
  require (entry.any (fun entry => some entry.val.contentHash == op.expectedBaseHash &&
      some entry.val.mode == op.expectedBaseMode))
    "patch transform path precondition is stale"

/-- What an operation leaves at its path. -/
def resultEntry (lib : Library) (op : OperationFields) : Except String (RepositoryTreeEntry lib) := do
  require (op.resultHash.isSome && op.resultMode.isSome) "AssertionError"
  construct (TreeEntry.postInit lib) ⟨op.path, op.resultMode.getD "", op.resultHash.getD ""⟩

/-- The loop body of `apply_patch_transform`. -/
def applyOperation (current : RepositoryTree lib) (op : TransformOperation lib) :
    Except String (RepositoryTree lib) :=
  match op.val.kind with
  | .create => do
    require (observed current op.val.path).isNone "patch transform create path already exists"
    let entry ← resultEntry lib op.val
    return Keyed.put entryPath current entry
  | .delete => do
    assertPrecondition (observed current op.val.path) op.val
    return Keyed.del entryPath current op.val.path
  | .replace => do
    assertPrecondition (observed current op.val.path) op.val
    let entry ← resultEntry lib op.val
    return Keyed.put entryPath current entry

/-- `apply_patch_transform` -/
def applyPatchTransform (baseTree : RepositoryTree lib) (transform : CanonicalPatchTransform lib) :
    Except String (RepositoryTree lib) := do
  let baseTreeHash ← repositoryTreeHash lib baseTree
  require (baseTreeHash == transform.val.baseTreeHash) "patch transform base tree is stale"
  let current ← transform.val.operations.foldlM applyOperation (Keyed.dict entryPath baseTree)
  let result := sortedEntries current
  let proposedTreeHash ← repositoryTreeHash lib result
  require (proposedTreeHash == transform.val.proposedTreeHash)
    "patch transform result differs from its frozen proposed tree"
  return result

end Solvan.Repair
