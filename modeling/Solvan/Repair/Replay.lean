import Mathlib
import Solvan.Repair.Transform

/-! A derived transform applied to the tree it was derived from. -/
namespace Solvan.Repair
open Solvan.Base

variable {lib : Library} {material : RepairMaterial lib} {full full' : RepositoryTree lib}
  {path : String} {op : TransformOperation lib} {operations : List (TransformOperation lib)}

def opPath (op : TransformOperation lib) : String := op.val.path

/-- What a path should hold after the repair of a tree. -/
def Repaired (material : RepairMaterial lib) (tree repaired : RepositoryTree lib) (path : String) : Prop :=
  (observed repaired path).map Subtype.val =
    (material.after path).map (fun file =>
      ⟨path, ((observed tree path).map (fun entry => entry.val.mode)).getD "100644", file.contentHash lib⟩)

/-- What an operation does to a tree: its own path is repaired, all others stand. -/
structure Replays (material : RepairMaterial lib) (op : TransformOperation lib)
    (full full' : RepositoryTree lib) : Prop where
  applied : applyOperation full op = .ok full'
  others : ∀ path, path ≠ opPath op → observed full' path = observed full path
  repaired : Repaired material full full' (opPath op)

theorem observed_put_self (entry : RepositoryTreeEntry lib) :
    observed (Keyed.put entryPath full entry) entry.val.path = some entry := Keyed.get_put_self

theorem observed_put_other {entry : RepositoryTreeEntry lib} (hpath : path ≠ entry.val.path) :
    observed (Keyed.put entryPath full entry) path = observed full path := Keyed.get_put_ne hpath

theorem applied_create {entry : RepositoryTreeEntry lib} {hash mode : String} {content : Option String}
    (hop : op.val = ⟨.create, path, none, none, some hash, some mode, content⟩)
    (hentry : entry.val = ⟨path, mode, hash⟩) (hnone : (observed full path).isNone = true) :
    applyOperation full op = .ok (Keyed.put entryPath full entry) := by
  unfold applyOperation
  rw [hop]
  refine bind_ok.mpr ⟨(), require_ok.mpr hnone, bind_ok.mpr ⟨entry, ?_, rfl⟩⟩
  refine bind_ok.mpr ⟨(), rfl, ?_⟩
  simp only [Option.getD_some, ← hentry]
  exact construct_self entry

/-- A file in its place is a repaired path. -/
theorem repaired_put {entry : RepositoryTreeEntry lib} {file : CandidateFile}
    (hafter : material.after path = some file)
    (hentry : entry.val = ⟨path, ((observed full path).map (fun entry => entry.val.mode)).getD "100644",
      file.contentHash lib⟩) : Repaired material full (Keyed.put entryPath full entry) path := by
  have hpath : entry.val.path = path := congrArg TreeEntry.path hentry
  have hself : observed (Keyed.put entryPath full entry) path = some entry :=
    hpath ▸ observed_put_self entry
  unfold Repaired
  rw [hself, hafter, Option.map_some, Option.map_some, hentry]

/-- The derivation of a created file is its creation. -/
theorem derive_create {new : CandidateFile} {operation : Option (TransformOperation lib)}
    (hbefore : material.before path = none) (hafter : material.after path = some new)
    (h : derivePath material full path = .ok (full', operation)) :
    ∃ op, operation = some op ∧ opPath op = path ∧ Replays material op full full' := by
  unfold derivePath at h
  rw [hbefore, hafter] at h
  obtain ⟨_, _, h⟩ := bind_ok.mp h
  obtain ⟨_, hnone, h⟩ := bind_ok.mp h
  obtain ⟨op, hop, h⟩ := bind_ok.mp h
  obtain ⟨entry, hentry, h⟩ := bind_ok.mp h
  obtain ⟨rfl, rfl⟩ := Prod.mk.inj (Except.ok.inj h)
  have hnone := require_ok.mp hnone
  have hpath : opPath op = path := congrArg OperationFields.path (construct_ok hop)
  have hentrypath : entry.val.path = path := congrArg TreeEntry.path (construct_ok hentry)
  refine ⟨op, rfl, hpath, applied_create (construct_ok hop) (construct_ok hentry) hnone,
    fun other hother => observed_put_other (hentrypath ▸ hpath ▸ hother), ?_⟩
  rw [hpath]
  refine repaired_put hafter ?_
  rw [Option.isNone_iff_eq_none.mp hnone]
  exact construct_ok hentry

/-- The derivation of a changed or deleted file is its replacement or deletion. -/
theorem derive_change {old : CandidateFile} {operation : Option (TransformOperation lib)}
    (hbefore : material.before path = some old)
    (h : derivePath material full path = .ok (full', operation)) :
    (operation = none ∧ full' = full) ∨
      ∃ op, operation = some op ∧ opPath op = path ∧ Replays material op full full' := by
  unfold derivePath at h
  rw [hbefore] at h
  simp only at h
  split at h
  · obtain ⟨rfl, rfl⟩ := Prod.mk.inj (Except.ok.inj h)
    exact .inl ⟨rfl, rfl⟩
  · right
    obtain ⟨_, _, h⟩ := bind_ok.mp h
    obtain ⟨_, hobserved, h⟩ := bind_ok.mp h
    obtain ⟨entry, hentry, hsame⟩ := (Option.any_eq_true _ _).mp (require_ok.mp hobserved)
    rw [Bool.and_eq_true, beq_iff_eq, beq_iff_eq] at hsame
    obtain ⟨hhash, hmode⟩ := hsame
    cases hafter : material.after path with
    | none =>
      rw [hafter] at h
      obtain ⟨op, hop, h⟩ := bind_ok.mp h
      obtain ⟨rfl, rfl⟩ := Prod.mk.inj (Except.ok.inj h)
      have hfields := construct_ok hop
      have hpath : opPath op = path := congrArg OperationFields.path hfields
      refine ⟨op, rfl, hpath, ?_, fun other hother => Keyed.get_del_ne (hpath ▸ hother), ?_⟩
      · unfold applyOperation
        rw [hfields]
        refine bind_ok.mpr ⟨(), require_ok.mpr ?_, rfl⟩
        simp [hentry, hhash, hmode]
      · unfold Repaired
        rw [hpath, hafter]
        exact congrArg (Option.map Subtype.val) Keyed.get_del_self
    | some new =>
      rw [hafter] at h
      obtain ⟨op, hop, h⟩ := bind_ok.mp h
      obtain ⟨repaired, hrepaired, h⟩ := bind_ok.mp h
      obtain ⟨rfl, rfl⟩ := Prod.mk.inj (Except.ok.inj h)
      have hfields := construct_ok hop
      have hvalue := construct_ok hrepaired
      have hpath : opPath op = path := congrArg OperationFields.path hfields
      have hentrypath : repaired.val.path = path := congrArg TreeEntry.path hvalue
      refine ⟨op, rfl, hpath, ?_, fun other hother => observed_put_other (hentrypath ▸ hpath ▸ hother), ?_⟩
      · unfold applyOperation
        rw [hfields]
        refine bind_ok.mpr ⟨(), require_ok.mpr ?_, bind_ok.mpr ⟨repaired, ?_, rfl⟩⟩
        · simp [hentry, hhash, hmode]
        · refine bind_ok.mpr ⟨(), rfl, ?_⟩
          simp only [Option.getD_some, ← hvalue]
          exact construct_self repaired
      · rw [hpath]
        refine repaired_put hafter ?_
        rw [hvalue, hentry, Option.map_some, Option.getD_some, hmode]

theorem derive_path {operation : Option (TransformOperation lib)}
    (h : derivePath material full path = .ok (full', operation)) :
    (operation = none ∧ full' = full) ∨
      ∃ op, operation = some op ∧ opPath op = path ∧ Replays material op full full' := by
  cases hbefore : material.before path with
  | some old => exact derive_change hbefore h
  | none =>
    cases hafter : material.after path with
    | some new => exact .inr (derive_create hbefore hafter h)
    | none =>
      unfold derivePath at h
      rw [hbefore, hafter] at h
      obtain ⟨_, _, h⟩ := bind_ok.mp h
      cases h

/-- The operations of a loop, replayed in order from the same tree. -/
theorem derive_paths {paths : List String} (hnodup : paths.Nodup)
    (h : derivePaths material full paths = .ok (full', operations)) :
    operations.foldlM applyOperation full = .ok full' ∧
      (∀ op ∈ operations, opPath op ∈ paths) ∧
      (∀ path, path ∉ operations.map opPath → observed full' path = observed full path) ∧
      ∀ op ∈ operations, Repaired material full full' (opPath op) := by
  induction paths generalizing full operations with
  | nil =>
    obtain ⟨rfl, rfl⟩ := Prod.mk.inj (Except.ok.inj h)
    exact ⟨rfl, (fun _ hop => nomatch hop), (fun _ _ => rfl), (fun _ hop => nomatch hop)⟩
  | cons path paths ih =>
    obtain ⟨hnew, hrest⟩ := List.nodup_cons.mp hnodup
    obtain ⟨⟨middle, operation⟩, hfirst, h⟩ := bind_ok.mp h
    obtain ⟨⟨last, later⟩, hlater, h⟩ := bind_ok.mp h
    obtain ⟨rfl, rfl⟩ := Prod.mk.inj (Except.ok.inj h)
    obtain ⟨happlied, hpaths, hothers, hrepaired⟩ := ih hrest hlater
    rcases derive_path hfirst with ⟨rfl, rfl⟩ | ⟨op, rfl, hpath, hreplays⟩
    · exact ⟨happlied, fun op hop => List.mem_cons_of_mem _ (hpaths op hop), hothers, hrepaired⟩
    · -- The first path is no later one, so neither touches what the other leaves.
      have hfresh : opPath op ∉ later.map opPath := by
        intro hmem
        obtain ⟨other, hother, heq⟩ := List.mem_map.mp hmem
        exact hnew (hpath ▸ heq ▸ hpaths other hother)
      refine ⟨?_, ?_, ?_, ?_⟩
      · rw [Option.toList_some, List.singleton_append, List.foldlM_cons]
        exact bind_ok.mpr ⟨middle, hreplays.applied, happlied⟩
      · intro other hother
        rcases List.mem_cons.mp hother with rfl | hmem
        · exact hpath ▸ List.mem_cons_self
        · exact List.mem_cons_of_mem _ (hpaths other hmem)
      · intro other hother
        rw [Option.toList_some, List.singleton_append, List.map_cons, List.mem_cons, not_or] at hother
        rw [hothers other hother.2, hreplays.others other hother.1]
      · intro other hother
        rcases List.mem_cons.mp hother with rfl | hmem
        · have hkept := hreplays.repaired
          unfold Repaired at hkept ⊢
          rw [hothers _ hfresh]
          exact hkept
        · have hne : opPath other ≠ opPath op := fun heq =>
            hfresh (heq ▸ List.mem_map_of_mem hmem)
          have hkept := hrepaired other hmem
          unfold Repaired at hkept ⊢
          rw [hreplays.others _ hne] at hkept
          exact hkept

theorem sortedEntries_perm (entries : RepositoryTree lib) : (sortedEntries entries).Perm entries :=
  List.perm_insertionSort _ _

/-- A hashed tree holds each path once. -/
theorem paths_of_hash {entries : RepositoryTree lib} {hash : String}
    (h : repositoryTreeHash lib entries = .ok hash) : (entries.map entryPath).Nodup := by
  obtain ⟨_, hvalid, _⟩ := bind_ok.mp h
  obtain ⟨_, hpaths, _⟩ := bind_ok.mp hvalid
  have hall := require_ok.mp hpaths
  rw [Bool.and_eq_true, decide_eq_true_eq] at hall
  exact hall.2

theorem observed_sorted (hnodup : ((sortedEntries full).map entryPath).Nodup) (path : String) :
    observed (sortedEntries full) path = observed full path :=
  (Keyed.get_perm hnodup (sortedEntries_perm full)).symm

/-- A transform derived from a tree reproduces the repair of that tree, and from no tree
makes anything but what it was frozen with. -/
theorem transform_reproduced {baseCommitSha : String} {tree : RepositoryTree lib}
    {transform : CanonicalPatchTransform lib}
    (h : derivePatchTransform baseCommitSha tree material = .ok transform) :
    (∃ result, applyPatchTransform tree transform = .ok result ∧
      (∀ path, path ∉ transform.val.operations.map opPath → observed result path = observed tree path) ∧
      ∀ path ∈ transform.val.operations.map opPath, Repaired material tree result path) ∧
    ∀ other result, applyPatchTransform other transform = .ok result →
      repositoryTreeHash lib result = .ok transform.val.proposedTreeHash := by
  refine ⟨?_, ?_⟩
  · unfold derivePatchTransform at h
    obtain ⟨_, _, h⟩ := bind_ok.mp h
    obtain ⟨_, _, h⟩ := bind_ok.mp h
    obtain ⟨_, _, h⟩ := bind_ok.mp h
    obtain ⟨⟨full, operations⟩, hloop, h⟩ := bind_ok.mp h
    obtain ⟨_, _, h⟩ := bind_ok.mp h
    obtain ⟨baseTreeHash, hbase, h⟩ := bind_ok.mp h
    obtain ⟨proposedTreeHash, hproposed, h⟩ := bind_ok.mp h
    have htransform := construct_ok h
    have hdict : Keyed.dict entryPath tree = tree := Keyed.dict_eq (paths_of_hash hbase)
    have hpaths : material.paths.Nodup :=
      (List.perm_insertionSort _ _).nodup_iff.mpr (List.nodup_dedup _)
    rw [hdict] at hloop
    obtain ⟨happlied, _, hothers, hrepaired⟩ := derive_paths hpaths hloop
    have hsorted := observed_sorted (paths_of_hash hproposed)
    rw [htransform]
    refine ⟨sortedEntries full, ?_, fun path hpath => ?_, fun path hpath => ?_⟩
    · unfold applyPatchTransform
      rw [htransform, hdict]
      refine bind_ok.mpr ⟨baseTreeHash, hbase, bind_ok.mpr ⟨(), require_ok.mpr (beq_self_eq_true _), ?_⟩⟩
      refine bind_ok.mpr ⟨full, happlied, bind_ok.mpr ⟨proposedTreeHash, hproposed, ?_⟩⟩
      exact bind_ok.mpr ⟨(), require_ok.mpr (beq_self_eq_true _), rfl⟩
    · rw [hsorted]
      exact hothers path hpath
    · obtain ⟨op, hop, rfl⟩ := List.mem_map.mp hpath
      have hkept := hrepaired op hop
      unfold Repaired at hkept ⊢
      rw [hsorted]
      exact hkept
  · intro other result happly
    obtain ⟨_, _, happly⟩ := bind_ok.mp happly
    obtain ⟨_, _, happly⟩ := bind_ok.mp happly
    obtain ⟨current, _, happly⟩ := bind_ok.mp happly
    obtain ⟨proposedTreeHash, hproposed, happly⟩ := bind_ok.mp happly
    obtain ⟨_, hfrozen, happly⟩ := bind_ok.mp happly
    have heq := beq_iff_eq.mp (require_ok.mp hfrozen)
    obtain rfl := Except.ok.inj happly
    rw [← heq]
    exact hproposed

section Example

def oldHash : String := "01d09d19c2139a46aebfb577780d123d7396e97201bc7ead210a2ebff8239dee"
def newHash : String := "7aa7a5359173d05b63cfd682e3c38487f3cb4f7f1d60659fe59fab1505977d4c"
def moreHash : String := "2396099c6c084fa4b9beac9f0d52cf3be9cf8d47040ef127883d532b5790cd74"
def testHash : String := "f2ca1bb6c7e907d06dafe4687e579fce76b37e4e93b7605022da52e6ccc26fd2"
def baseHash : String := "5bb336c951b3b272fa8fb1d06922bde151c8bdd9a6365dfa7bdb32376b28a7ad"
def proposedHash : String := "82434f40785f7174d06e701c3058a6838b57b5a7699f33151692b1f4e03855ec"

def treeText (entries : List TreeEntry) : ByteArray :=
  Domain.canonicalJson (.obj [("entries", .arr (entries.map (fun entry =>
    .obj [("path", .str entry.path), ("mode", .str entry.mode),
      ("content_hash", .str entry.contentHash)])))])

def curatedEntries : List TreeEntry :=
  [⟨"src/app.py", "100755", "sha256:" ++ oldHash⟩, ⟨"tests/test_app.py", "100644", "sha256:" ++ testHash⟩]

def repairedEntries : List TreeEntry :=
  [⟨"src/app.py", "100755", "sha256:" ++ newHash⟩, ⟨"src/more.py", "100644", "sha256:" ++ moreHash⟩,
    ⟨"tests/test_app.py", "100644", "sha256:" ++ testHash⟩]

/-- The library on what the repair below asks of it. -/
def asciiLibrary : Library where
  nfc := id
  casefold := fun s => String.ofList (s.toList.map Char.toLower)
  sha256 := fun value =>
    if value = "old\n".toUTF8 then oldHash
    else if value = "new\n".toUTF8 then newHash
    else if value = "more\n".toUTF8 then moreHash
    else if value = treeText curatedEntries then baseHash
    else if value = treeText repairedEntries then proposedHash
    else ""

def curated : RepositoryTree asciiLibrary :=
  [⟨⟨"src/app.py", "100755", "sha256:" ++ oldHash⟩, by decide +kernel⟩,
    ⟨⟨"tests/test_app.py", "100644", "sha256:" ++ testHash⟩, by decide +kernel⟩]

def repair : RepairMaterial asciiLibrary where
  repairBase := ⟨[⟨"src/app.py", "old\n"⟩], ["src/**"], by decide +kernel⟩
  candidate := ⟨[⟨"src/app.py", "new\n"⟩, ⟨"src/more.py", "more\n"⟩], ["src/**"], by decide +kernel⟩
  baseModes := [("src/app.py", "100755")]
  allowedPaths := ["src/**"]

/-- The text of a tree is an object. -/
theorem treeText_ne (entries : List TreeEntry) {s : String} (hs : s.toList.head? ≠ some '\x7b') :
    treeText entries ≠ s.toUTF8 := by
  intro h
  simp only [treeText, Domain.canonicalJson, String.toUTF8_eq_toByteArray, String.toByteArray_inj] at h
  refine hs ?_
  rw [← h, Json.dumps, String.toList_ofList]
  rfl

theorem hash_treeText {lib : Library} {tree : RepositoryTree lib} {entries : List TreeEntry}
    (htree : tree.map Subtype.val = entries) (hvalid : validateTree lib tree = .ok ()) :
    repositoryTreeHash lib tree = .ok (lib.sha256Bytes (treeText entries)) := by
  refine bind_ok.mpr ⟨(), hvalid, congrArg Except.ok ?_⟩
  have htext : Domain.canonicalJson (.obj [("entries", .arr (tree.map (fun entry =>
      .obj [("path", .str entry.val.path), ("mode", .str entry.val.mode),
        ("content_hash", .str entry.val.contentHash)])))]) = treeText entries := by
    rw [← htree, treeText, List.map_map]
    rfl
  unfold Library.canonicalSha256 Domain.canonicalJsonHash
  rw [htext]
  rfl

theorem treeHash {entries : List TreeEntry} {hash : String}
    (hhash : (if treeText entries = treeText curatedEntries then baseHash
      else if treeText entries = treeText repairedEntries then proposedHash else "") = hash)
    {tree : RepositoryTree asciiLibrary} (htree : tree.map Subtype.val = entries)
    (hvalid : validateTree asciiLibrary tree = .ok ()) :
    repositoryTreeHash asciiLibrary tree = .ok ("sha256:" ++ hash) := by
  rw [hash_treeText htree hvalid, ← hhash]
  unfold Library.sha256Bytes asciiLibrary
  simp only [treeText_ne entries (by decide : ("old\n".toList.head? ≠ some '\x7b')),
    treeText_ne entries (by decide : ("new\n".toList.head? ≠ some '\x7b')),
    treeText_ne entries (by decide : ("more\n".toList.head? ≠ some '\x7b')), if_false]

theorem treeText_repaired : treeText repairedEntries ≠ treeText curatedEntries := by
  intro h
  simp only [treeText, Domain.canonicalJson, String.toUTF8_eq_toByteArray, String.toByteArray_inj,
    Json.dumps_eq_iff] at h
  simp [Json.Same, Json.sorted, Json.sortedFields, Json.sortedField, Json.sortedItems, curatedEntries,
    repairedEntries] at h

def baseCommit : String := "aaaaaaaaaaaaaaaaaaaaaaaaaaaaaaaaaaaaaaaa"

theorem frozen_valid {lib : Library} {base proposed : String} {paths : List String}
    {operations : List (TransformOperation lib)} (hbase : validateHash base = .ok ())
    (hproposed : validateHash proposed = .ok ()) (hpaths : operations.map opPath = paths)
    (hlength : 1 ≤ paths.length ∧ paths.length ≤ 32) (hsorted : paths = sortedPaths paths ∧ paths.Nodup) :
    TransformFields.postInit lib ⟨transformVersion, baseCommit, base, proposed, operations⟩ = .ok () := by
  have hcount : operations.length = paths.length := by rw [← hpaths, List.length_map]
  have hcommit : (baseCommit.length == 40 && hexadecimal baseCommit.toList) = true := by decide +kernel
  refine bind_ok.mpr ⟨(), require_ok.mpr (beq_self_eq_true _), bind_ok.mpr ⟨(), require_ok.mpr hcommit, ?_⟩⟩
  refine bind_ok.mpr ⟨(), hbase, bind_ok.mpr ⟨(), hproposed, ?_⟩⟩
  refine bind_ok.mpr ⟨(), require_ok.mpr (by simpa [hcount] using hlength), require_ok.mpr ?_⟩
  have hmap : operations.map (fun op => op.val.path) = paths := hpaths
  rw [hmap, Bool.and_eq_true, beq_iff_eq, decide_eq_true_eq]
  exact hsorted

/-- A derivation whose loop ends, between trees that can be hashed and a transform that can
be frozen. -/
theorem derived_of_loop {lib : Library} {tree full : RepositoryTree lib} {material : RepairMaterial lib}
    {operations : List (TransformOperation lib)} {base proposed : String}
    (hallowed : (!material.allowedPaths.isEmpty && decide material.allowedPaths.Nodup) = true)
    (hmodes : ((material.baseModes.map Prod.fst).all (material.repairBase.files.map CandidateFile.path).contains &&
      (material.repairBase.files.map CandidateFile.path).all (material.baseModes.map Prod.fst).contains) = true)
    (hloop : derivePaths material tree material.paths = .ok (full, operations))
    (hoperations : operations.isEmpty = false) (hbase : repositoryTreeHash lib tree = .ok base)
    (hproposed : repositoryTreeHash lib (sortedEntries full) = .ok proposed)
    (hfrozen : TransformFields.postInit lib ⟨transformVersion, baseCommit, base, proposed, operations⟩ = .ok ()) :
    derivePatchTransform baseCommit tree material = .ok ⟨_, hfrozen⟩ := by
  have hdict : Keyed.dict entryPath tree = tree := Keyed.dict_eq (paths_of_hash hbase)
  obtain ⟨_, hvalid, _⟩ := bind_ok.mp hbase
  unfold derivePatchTransform
  refine bind_ok.mpr ⟨(), require_ok.mpr hallowed, bind_ok.mpr ⟨(), hvalid, ?_⟩⟩
  refine bind_ok.mpr ⟨(), require_ok.mpr hmodes, bind_ok.mpr ⟨(full, operations), by rw [hdict]; exact hloop, ?_⟩⟩
  refine bind_ok.mpr ⟨(), require_ok.mpr (by rw [hoperations]; rfl), ?_⟩
  exact bind_ok.mpr ⟨base, hbase, bind_ok.mpr ⟨proposed, hproposed, construct_self ⟨_, hfrozen⟩⟩⟩

/-- A derivation from the curated tree whose loop ends with the repaired one succeeds. -/
theorem curated_derived {material : RepairMaterial asciiLibrary}
    (hallowed : (!material.allowedPaths.isEmpty && decide material.allowedPaths.Nodup) = true)
    (hmodes : ((material.baseModes.map Prod.fst).all (material.repairBase.files.map CandidateFile.path).contains &&
      (material.repairBase.files.map CandidateFile.path).all (material.baseModes.map Prod.fst).contains) = true)
    (hloop : ((derivePaths material curated material.paths).toOption.map (fun derived =>
      ((sortedEntries derived.1).map Subtype.val, derived.2.map opPath))) =
        some (repairedEntries, ["src/app.py", "src/more.py"])) :
    ∃ transform, derivePatchTransform baseCommit curated material = .ok transform ∧
      transform.val.operations.map opPath = ["src/app.py", "src/more.py"] := by
  cases hderived : derivePaths material curated material.paths with
  | error message =>
    rw [hderived] at hloop
    cases hloop
  | ok derived =>
    obtain ⟨full, operations⟩ := derived
    rw [hderived] at hloop
    obtain ⟨hentries, hpaths⟩ := Prod.mk.inj (Option.some.inj hloop)
    simp only at hentries hpaths
    have hvalid : validateTree asciiLibrary (sortedEntries full) = .ok () := by
      have hmap : (sortedEntries full).map entryPath = repairedEntries.map TreeEntry.path := by
        rw [← hentries, List.map_map]
        rfl
      have hnonempty : (sortedEntries full).isEmpty = false := by
        cases hsorted : sortedEntries full with
        | nil =>
          rw [hsorted] at hentries
          cases hentries
        | cons entry entries => rfl
      unfold validateTree
      rw [hmap, hnonempty]
      decide +kernel
    have hbase : repositoryTreeHash asciiLibrary curated = .ok ("sha256:" ++ baseHash) :=
      treeHash (if_pos rfl) rfl (by decide +kernel)
    have hproposed := treeHash ((if_neg treeText_repaired).trans (if_pos rfl)) hentries hvalid
    have hfrozen : TransformFields.postInit asciiLibrary ⟨transformVersion, baseCommit, "sha256:" ++ baseHash,
        "sha256:" ++ proposedHash, operations⟩ = .ok () :=
      frozen_valid (by decide +kernel) (by decide +kernel) hpaths (by decide) (by decide +kernel)
    have hoperations : operations.isEmpty = false := by
      cases operations with
      | nil => cases hpaths
      | cons op operations => rfl
    exact ⟨_, derived_of_loop hallowed hmodes hderived hoperations hbase hproposed hfrozen, hpaths⟩

/-- The derivation succeeds. -/
theorem repair_derived : ∃ transform, derivePatchTransform baseCommit curated repair = .ok transform ∧
    transform.val.operations.map opPath = ["src/app.py", "src/more.py"] :=
  curated_derived (by decide +kernel) (by decide +kernel) (by decide +kernel)

/-- Its replay reproduces the repair. -/
theorem transform_reproduced_repair :
    ∃ transform, derivePatchTransform baseCommit curated repair = .ok transform ∧
      ∃ result, applyPatchTransform curated transform = .ok result ∧
        observed result "tests/test_app.py" = observed curated "tests/test_app.py" ∧
        Repaired repair curated result "src/app.py" ∧ Repaired repair curated result "src/more.py" := by
  obtain ⟨transform, hderived, hpaths⟩ := repair_derived
  obtain ⟨result, happlied, hothers, hrepaired⟩ := (transform_reproduced hderived).1
  rw [hpaths] at hothers hrepaired
  exact ⟨transform, hderived, result, happlied, hothers _ (by decide), hrepaired _ (by decide),
    hrepaired _ (by decide)⟩

end Example

end Solvan.Repair
