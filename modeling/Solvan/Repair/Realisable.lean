import Solvan.Repair.Replay

/-! Which transforms keep a tree one that a repository can hold. -/
namespace Solvan.Repair
open Solvan.Base

variable {lib : Library} {material : RepairMaterial lib} {full full' tree result : RepositoryTree lib}
  {path : String} {operations : List (TransformOperation lib)} {op : TransformOperation lib}

/-- `ancestor` would have to be a directory for `path` to be a file. -/
def Below (path ancestor : String) : Prop := startsWith path (ancestor ++ "/") = true

instance (path ancestor : String) : Decidable (Below path ancestor) :=
  inferInstanceAs (Decidable (startsWith path (ancestor ++ "/") = true))

/-- No file is where another needs a directory. -/
def PrefixFree (tree : RepositoryTree lib) : Prop :=
  ∀ a ∈ tree.map entryPath, ∀ b ∈ tree.map entryPath, ¬Below b a

instance (tree : RepositoryTree lib) : Decidable (PrefixFree tree) :=
  inferInstanceAs (Decidable (∀ a ∈ tree.map entryPath, ∀ b ∈ tree.map entryPath, ¬Below b a))

/-- A tree that a repository can hold. -/
structure Realisable (tree : RepositoryTree lib) : Prop where
  sorted : tree.map entryPath = sortedPaths (tree.map entryPath)
  distinct : (tree.map entryPath).Nodup
  folded : ((tree.map entryPath).map (fun path => lib.casefold (lib.nfc path))).Nodup
  prefixFree : PrefixFree tree

/-- No new path is below one of the paths, or above. -/
def Apart (created : String → Prop) (kept : String → Prop) : Prop :=
  ∀ new, created new → ∀ path, (created path ∨ kept path) → ¬Below path new ∧ ¬Below new path

def Created (transform : CanonicalPatchTransform lib) (path : String) : Prop :=
  ∃ op ∈ transform.val.operations, opPath op = path ∧ op.val.kind = .create

def Deleted (transform : CanonicalPatchTransform lib) (path : String) : Prop :=
  ∃ op ∈ transform.val.operations, opPath op = path ∧ op.val.kind = .delete

/-- The paths of a tree that a transform leaves in it. -/
def Kept (tree : RepositoryTree lib) (transform : CanonicalPatchTransform lib) (path : String) : Prop :=
  path ∈ tree.map entryPath ∧ ¬Deleted transform path

theorem observed_some : path ∈ tree.map entryPath ↔ ∃ entry, observed tree path = some entry := by
  unfold observed
  cases hget : Keyed.get entryPath tree path with
  | none => simpa using Keyed.get_none.mp hget
  | some entry =>
    obtain ⟨hmem, rfl⟩ := Keyed.get_some hget
    exact ⟨fun _ => ⟨entry, rfl⟩, fun _ => List.mem_map_of_mem hmem⟩

/-- What an operation does to the paths of a tree. -/
theorem applyOperation_paths (h : applyOperation full op = .ok full') :
    (∀ path, path ≠ opPath op → observed full' path = observed full path) ∧
    (opPath op ∈ full'.map entryPath ↔ op.val.kind ≠ .delete) ∧
    (opPath op ∈ full.map entryPath ↔ op.val.kind ≠ .create) := by
  have hentry : ∀ entry : RepositoryTreeEntry lib, resultEntry lib op.val = .ok entry →
      entry.val.path = opPath op := by
    intro entry hresult
    obtain ⟨_, _, hresult⟩ := bind_ok.mp hresult
    exact congrArg TreeEntry.path (construct_ok hresult)
  have hput : ∀ entry : RepositoryTreeEntry lib, entry.val.path = opPath op →
      (∀ path, path ≠ opPath op → observed (Keyed.put entryPath full entry) path = observed full path) ∧
        opPath op ∈ (Keyed.put entryPath full entry).map entryPath := by
    intro entry hpath
    refine ⟨fun path hne => observed_put_other (hpath ▸ hne), observed_some.mpr ⟨entry, ?_⟩⟩
    exact hpath ▸ observed_put_self entry
  unfold applyOperation at h
  cases hkind : op.val.kind with
  | create =>
    rw [hkind] at h
    obtain ⟨_, hnone, h⟩ := bind_ok.mp h
    obtain ⟨entry, hresult, h⟩ := bind_ok.mp h
    obtain rfl := Except.ok.inj h
    obtain ⟨hothers, hmem⟩ := hput entry (hentry entry hresult)
    refine ⟨hothers, by simpa using hmem, iff_of_false (fun hold => ?_) (fun hne => hne rfl)⟩
    obtain ⟨old, hold⟩ := observed_some.mp hold
    rw [require_ok, show op.val.path = opPath op from rfl, hold] at hnone
    cases hnone
  | delete =>
    rw [hkind] at h
    obtain ⟨_, hthere, h⟩ := bind_ok.mp h
    obtain rfl := Except.ok.inj h
    obtain ⟨entry, hold, -⟩ := (Option.any_eq_true _ _).mp (require_ok.mp hthere)
    refine ⟨fun path hne => Keyed.get_del_ne hne, iff_of_false (fun hmem => ?_) (fun hne => hne rfl),
      iff_of_true (observed_some.mpr ⟨entry, hold⟩) (fun heq => by cases heq)⟩
    obtain ⟨entry, hentry⟩ := observed_some.mp hmem
    cases hentry.symm.trans Keyed.get_del_self
  | replace =>
    rw [hkind] at h
    obtain ⟨_, hthere, h⟩ := bind_ok.mp h
    obtain ⟨entry, hresult, h⟩ := bind_ok.mp h
    obtain rfl := Except.ok.inj h
    obtain ⟨hothers, hmem⟩ := hput entry (hentry entry hresult)
    obtain ⟨old, hold, -⟩ := (Option.any_eq_true _ _).mp (require_ok.mp hthere)
    exact ⟨hothers, iff_of_true hmem (fun heq => by cases heq),
      iff_of_true (observed_some.mpr ⟨old, hold⟩) (fun heq => by cases heq)⟩

/-- The paths of a tree after operations on distinct paths. -/
theorem applied_paths (hnodup : (operations.map opPath).Nodup)
    (h : operations.foldlM applyOperation full = .ok full') (path : String) :
    path ∈ full'.map entryPath ↔ (∃ op ∈ operations, opPath op = path ∧ op.val.kind = .create) ∨
      (path ∈ full.map entryPath ∧ ¬∃ op ∈ operations, opPath op = path ∧ op.val.kind = .delete) := by
  induction operations generalizing full with
  | nil =>
    obtain rfl := Except.ok.inj h
    simp
  | cons op operations ih =>
    obtain ⟨hnew, hrest⟩ := List.nodup_cons.mp hnodup
    rw [List.foldlM_cons] at h
    obtain ⟨middle, hfirst, h⟩ := bind_ok.mp h
    obtain ⟨hothers, hafter, hbefore⟩ := applyOperation_paths hfirst
    rw [ih hrest h]
    simp only [List.exists_mem_cons_iff]
    by_cases hpath : path = opPath op
    · subst hpath
      have hlater : ∀ kind, ¬∃ other ∈ operations, opPath other = opPath op ∧ other.val.kind = kind := by
        rintro kind ⟨other, hother, heq, -⟩
        exact hnew (heq ▸ List.mem_map_of_mem hother)
      simp only [hlater, or_false, not_false_eq_true, and_true, false_or, true_and, hafter, hbefore]
      cases op.val.kind <;> simp
    · have hne : opPath op ≠ path := fun heq => hpath heq.symm
      have hstands : path ∈ middle.map entryPath ↔ path ∈ full.map entryPath := by
        rw [observed_some, observed_some, hothers path hpath]
      simp only [hne, false_and, false_or, hstands]

theorem operations_nodup (transform : CanonicalPatchTransform lib) :
    (transform.val.operations.map opPath).Nodup := by
  obtain ⟨_, _, h⟩ := bind_ok.mp transform.property
  obtain ⟨_, _, h⟩ := bind_ok.mp h
  obtain ⟨_, _, h⟩ := bind_ok.mp h
  obtain ⟨_, _, h⟩ := bind_ok.mp h
  obtain ⟨_, _, h⟩ := bind_ok.mp h
  have hpaths := require_ok.mp h
  rw [Bool.and_eq_true, decide_eq_true_eq] at hpaths
  exact hpaths.2

/-- What a transform makes of a tree is checked for order, doubles and case, and can be
held where its new paths stand apart from each other and from what is left. -/
theorem applied_realisable_iff {transform : CanonicalPatchTransform lib} (hfree : PrefixFree tree)
    (h : applyPatchTransform tree transform = .ok result) :
    Realisable result ↔ Apart (Created transform) (Kept tree transform) := by
  obtain ⟨baseTreeHash, hbase, h⟩ := bind_ok.mp h
  obtain ⟨_, _, h⟩ := bind_ok.mp h
  obtain ⟨current, hfold, h⟩ := bind_ok.mp h
  obtain ⟨proposedTreeHash, hproposed, h⟩ := bind_ok.mp h
  obtain ⟨_, _, h⟩ := bind_ok.mp h
  obtain rfl := Except.ok.inj h
  rw [Keyed.dict_eq (paths_of_hash hbase)] at hfold
  have hpaths : ∀ path, path ∈ (sortedEntries current).map entryPath ↔
      Created transform path ∨ Kept tree transform path := fun path =>
    ((sortedEntries_perm current).map entryPath).mem_iff.trans
      (applied_paths (operations_nodup transform) hfold path)
  constructor
  · intro hresult new hnew path hpath
    have hin := (hpaths new).mpr (.inl hnew)
    have hpath := (hpaths path).mpr hpath
    exact ⟨hresult.prefixFree new hin path hpath, hresult.prefixFree path hpath new hin⟩
  · intro hapart
    obtain ⟨_, hvalid, _⟩ := bind_ok.mp hproposed
    obtain ⟨_, hordered, hfolded⟩ := bind_ok.mp hvalid
    have hordered := require_ok.mp hordered
    simp only [Bool.and_eq_true, beq_iff_eq, decide_eq_true_eq] at hordered
    have hfolded := of_decide_eq_true (require_ok.mp hfolded)
    refine ⟨hordered.1.2, hordered.2, hfolded, fun a ha b hb => ?_⟩
    rcases (hpaths a).mp ha with hcreated | hkept
    · exact (hapart a hcreated b ((hpaths b).mp hb)).1
    · rcases (hpaths b).mp hb with hcreated' | hkept'
      · exact (hapart b hcreated' a (.inr hkept)).2
      · exact hfree a hkept.1 b hkept'.1

/-- What a derivation makes of a path. -/
def RepairMaterial.kind (material : RepairMaterial lib) (path : String) : Option OperationKind :=
  match material.before path, material.after path with
  | none, none => none
  | none, some _ => some .create
  | some _, none => some .delete
  | some old, some new => if old.contentHash lib == new.contentHash lib then none else some .replace

def Added (material : RepairMaterial lib) (path : String) : Prop :=
  material.before path = none ∧ (material.after path).isSome

def Dropped (material : RepairMaterial lib) (path : String) : Prop :=
  (material.before path).isSome ∧ material.after path = none

theorem kind_create : material.kind path = some .create ↔ Added material path := by
  unfold RepairMaterial.kind Added
  cases material.before path <;> cases material.after path <;> simp

theorem kind_delete : material.kind path = some .delete ↔ Dropped material path := by
  unfold RepairMaterial.kind Dropped
  cases material.before path <;> cases material.after path <;> simp

theorem derivePath_kind {operation : Option (TransformOperation lib)}
    (h : derivePath material full path = .ok (full', operation)) :
    operation.map (fun op => (opPath op, op.val.kind)) = (material.kind path).map (Prod.mk path) := by
  have hfields : ∀ {op : TransformOperation lib} {fields : OperationFields},
      construct (OperationFields.postInit lib) fields = .ok op → fields.path = path →
        (opPath op, op.val.kind) = (path, fields.kind) := by
    intro op fields hop hpath
    rw [opPath, construct_ok hop, hpath]
  unfold derivePath at h
  unfold RepairMaterial.kind
  cases hbefore : material.before path with
  | none =>
    rw [hbefore] at h
    cases hafter : material.after path with
    | none =>
      rw [hafter] at h
      obtain ⟨_, _, h⟩ := bind_ok.mp h
      cases h
    | some new =>
      rw [hafter] at h
      obtain ⟨_, _, h⟩ := bind_ok.mp h
      obtain ⟨_, _, h⟩ := bind_ok.mp h
      obtain ⟨op, hop, h⟩ := bind_ok.mp h
      obtain ⟨entry, _, h⟩ := bind_ok.mp h
      obtain ⟨_, rfl⟩ := Prod.mk.inj (Except.ok.inj h)
      exact congrArg some (hfields hop rfl)
  | some old =>
    rw [hbefore] at h
    cases hafter : material.after path with
    | none =>
      rw [hafter] at h
      obtain ⟨_, _, h⟩ := bind_ok.mp h
      obtain ⟨_, _, h⟩ := bind_ok.mp h
      obtain ⟨op, hop, h⟩ := bind_ok.mp h
      obtain ⟨_, rfl⟩ := Prod.mk.inj (Except.ok.inj h)
      exact congrArg some (hfields hop rfl)
    | some new =>
      rw [hafter] at h
      simp only [Option.any_some] at h ⊢
      split at h
      · rename_i hsame
        obtain ⟨_, rfl⟩ := Prod.mk.inj (Except.ok.inj h)
        rw [if_pos hsame]
        rfl
      · rename_i hchanged
        rw [if_neg hchanged]
        obtain ⟨_, _, h⟩ := bind_ok.mp h
        obtain ⟨_, _, h⟩ := bind_ok.mp h
        obtain ⟨op, hop, h⟩ := bind_ok.mp h
        obtain ⟨entry, _, h⟩ := bind_ok.mp h
        obtain ⟨_, rfl⟩ := Prod.mk.inj (Except.ok.inj h)
        exact congrArg some (hfields hop rfl)

/-- A loop has the operations its paths ask for. -/
theorem derivePaths_kinds {paths : List String}
    (h : derivePaths material full paths = .ok (full', operations)) :
    operations.map (fun op => (opPath op, op.val.kind)) =
      paths.filterMap (fun path => (material.kind path).map (Prod.mk path)) := by
  induction paths generalizing full operations with
  | nil =>
    obtain ⟨_, rfl⟩ := Prod.mk.inj (Except.ok.inj h)
    rfl
  | cons path paths ih =>
    obtain ⟨⟨middle, operation⟩, hfirst, h⟩ := bind_ok.mp h
    obtain ⟨⟨last, later⟩, hlater, h⟩ := bind_ok.mp h
    obtain ⟨rfl, rfl⟩ := Prod.mk.inj (Except.ok.inj h)
    have hrest := ih hlater
    rw [List.filterMap_cons, ← derivePath_kind hfirst, List.map_append, hrest]
    cases operation <;> rfl

theorem path_there {files : List CandidateFile} (h : (Keyed.get CandidateFile.path files path).isSome) :
    path ∈ files.map CandidateFile.path := by
  obtain ⟨file, hfile⟩ := Option.isSome_iff_exists.mp h
  obtain ⟨hmem, hpath⟩ := Keyed.get_some hfile
  exact hpath ▸ List.mem_map_of_mem hmem

/-- The paths that a derived transform works on, and how. -/
theorem derived_kind {baseCommitSha : String} {transform : CanonicalPatchTransform lib}
    (h : derivePatchTransform baseCommitSha tree material = .ok transform) (kind : OperationKind) :
    (∃ op ∈ transform.val.operations, opPath op = path ∧ op.val.kind = kind) ↔
      material.kind path = some kind := by
  unfold derivePatchTransform at h
  obtain ⟨_, _, h⟩ := bind_ok.mp h
  obtain ⟨_, _, h⟩ := bind_ok.mp h
  obtain ⟨_, _, h⟩ := bind_ok.mp h
  obtain ⟨⟨full, operations⟩, hloop, h⟩ := bind_ok.mp h
  obtain ⟨_, _, h⟩ := bind_ok.mp h
  obtain ⟨_, _, h⟩ := bind_ok.mp h
  obtain ⟨_, _, h⟩ := bind_ok.mp h
  rw [construct_ok h]
  have hmem : (∃ op ∈ operations, opPath op = path ∧ op.val.kind = kind) ↔
      (path, kind) ∈ operations.map (fun op => (opPath op, op.val.kind)) := by
    simp only [List.mem_map, Prod.mk.injEq]
  rw [hmem, derivePaths_kinds hloop, List.mem_filterMap]
  constructor
  · rintro ⟨other, _, hother⟩
    obtain ⟨found, hfound, heq⟩ := Option.map_eq_some_iff.mp hother
    obtain ⟨rfl, rfl⟩ := Prod.mk.inj heq
    exact hfound
  · intro hkind
    refine ⟨path, (List.perm_insertionSort _ _).mem_iff.mpr (List.mem_dedup.mpr ?_), by rw [hkind]; rfl⟩
    have hsides : (material.before path).isSome ∨ (material.after path).isSome := by
      unfold RepairMaterial.kind at hkind
      cases hbefore : material.before path with
      | some old => exact .inl rfl
      | none =>
        cases hafter : material.after path with
        | some new => exact .inr rfl
        | none =>
          rw [hbefore, hafter] at hkind
          cases hkind
    exact hsides.elim (fun hold => List.mem_append_left _ (path_there hold))
      (fun hnew => List.mem_append_right _ (path_there hnew))

/-- Trees are checked for order, doubles and case. Whether a repository can hold them is
whether no new path is below another one, or above. -/
theorem trees_realisable_iff (hfree : PrefixFree tree) :
    (∀ (transform : CanonicalPatchTransform lib) (result : RepositoryTree lib),
      applyPatchTransform tree transform = .ok result →
        (Realisable result ↔ Apart (Created transform) (Kept tree transform))) ∧
    ∀ (baseCommitSha : String) (material : RepairMaterial lib) (transform : CanonicalPatchTransform lib),
      derivePatchTransform baseCommitSha tree material = .ok transform →
        ∃ result, applyPatchTransform tree transform = .ok result ∧
          (Realisable result ↔
            Apart (Added material) (fun path => path ∈ tree.map entryPath ∧ ¬Dropped material path)) := by
  refine ⟨fun transform result happly => applied_realisable_iff hfree happly, ?_⟩
  intro baseCommitSha material transform hderive
  obtain ⟨result, happly, -⟩ := (transform_reproduced hderive).1
  refine ⟨result, happly, ?_⟩
  have hcreated : Created transform = Added material :=
    funext fun path => propext ((derived_kind hderive .create).trans kind_create)
  have hdeleted : ∀ path, Deleted transform path ↔ Dropped material path := fun path =>
    (derived_kind hderive .delete).trans kind_delete
  have hkept : Kept tree transform = fun path => path ∈ tree.map entryPath ∧ ¬Dropped material path :=
    funext fun path => propext (and_congr_right fun _ => not_congr (hdeleted path))
  rw [applied_realisable_iff hfree happly, hcreated, hkept]

section Example

/-- The repair makes a file beside the one it changes. -/
theorem repair_realisable : ∃ transform, derivePatchTransform baseCommit curated repair = .ok transform ∧
    ∃ result, applyPatchTransform curated transform = .ok result ∧ Realisable result := by
  obtain ⟨transform, hderived, -⟩ := repair_derived
  have hfree : PrefixFree curated := by decide +kernel
  obtain ⟨result, happlied, hiff⟩ := (trees_realisable_iff hfree).2 _ _ _ hderived
  refine ⟨transform, hderived, result, happlied, hiff.mpr (fun new hnew path hpath => ?_)⟩
  have hpaths : ∀ new ∈ repair.candidate.files.map CandidateFile.path,
      ∀ path ∈ repair.candidate.files.map CandidateFile.path ++ curated.map entryPath,
        ¬Below path new ∧ ¬Below new path := by decide +kernel
  exact hpaths new (path_there hnew.2) path
    (hpath.elim (fun h => List.mem_append_left _ (path_there h.2)) (fun h => List.mem_append_right _ h.1))

def nestedHash : String := "2334b2636fa5242459e7879f6699d097e5b438ac6b2ff515b7efbdf8fbedd0bd"

def nestedEntries : List TreeEntry :=
  [⟨"src/app.py", "100755", "sha256:" ++ oldHash⟩, ⟨"src/app.py/more.py", "100644", "sha256:" ++ moreHash⟩,
    ⟨"tests/test_app.py", "100644", "sha256:" ++ testHash⟩]

/-- The library on what the repair below asks of it. -/
def nestedLibrary : Library where
  nfc := id
  casefold := fun s => String.ofList (s.toList.map Char.toLower)
  sha256 := fun value =>
    if value = "old\n".toUTF8 then oldHash
    else if value = "more\n".toUTF8 then moreHash
    else if value = treeText curatedEntries then baseHash
    else if value = treeText nestedEntries then nestedHash
    else ""

def flat : RepositoryTree nestedLibrary :=
  [⟨⟨"src/app.py", "100755", "sha256:" ++ oldHash⟩, by decide +kernel⟩,
    ⟨⟨"tests/test_app.py", "100644", "sha256:" ++ testHash⟩, by decide +kernel⟩]

/-- A repair that makes a file below one that stays. -/
def nested : RepairMaterial nestedLibrary where
  repairBase := ⟨[⟨"src/app.py", "old\n"⟩], ["src/**"], by decide +kernel⟩
  candidate := ⟨[⟨"src/app.py", "old\n"⟩, ⟨"src/app.py/more.py", "more\n"⟩], ["src/**"], by decide +kernel⟩
  baseModes := [("src/app.py", "100755")]
  allowedPaths := ["src/**"]

theorem flat_hash : repositoryTreeHash nestedLibrary flat = .ok ("sha256:" ++ baseHash) := by
  have hflat : flat.map Subtype.val = curatedEntries := rfl
  rw [hash_treeText hflat (by decide +kernel)]
  unfold Library.sha256Bytes nestedLibrary
  simp only [treeText_ne curatedEntries (by decide : ("old\n".toList.head? ≠ some '\x7b')),
    treeText_ne curatedEntries (by decide : ("more\n".toList.head? ≠ some '\x7b')), if_false, if_true]

theorem treeText_nested : treeText nestedEntries ≠ treeText curatedEntries := by
  intro h
  simp only [treeText, Domain.canonicalJson, String.toUTF8_eq_toByteArray, String.toByteArray_inj,
    Json.dumps_eq_iff] at h
  simp [Json.Same, Json.sorted, Json.sortedFields, Json.sortedField, Json.sortedItems, curatedEntries,
    nestedEntries] at h

def nestedTree : RepositoryTree nestedLibrary :=
  [⟨⟨"src/app.py", "100755", "sha256:" ++ oldHash⟩, by decide +kernel⟩,
    ⟨⟨"src/app.py/more.py", "100644", "sha256:" ++ moreHash⟩, by decide +kernel⟩,
    ⟨⟨"tests/test_app.py", "100644", "sha256:" ++ testHash⟩, by decide +kernel⟩]

theorem nested_hash : repositoryTreeHash nestedLibrary nestedTree = .ok ("sha256:" ++ nestedHash) := by
  have hnested : nestedTree.map Subtype.val = nestedEntries := rfl
  rw [hash_treeText hnested (by decide +kernel)]
  unfold Library.sha256Bytes nestedLibrary
  simp only [treeText_ne nestedEntries (by decide : ("old\n".toList.head? ≠ some '\x7b')),
    treeText_ne nestedEntries (by decide : ("more\n".toList.head? ≠ some '\x7b')), treeText_nested,
    if_false, if_true]

theorem nested_derived : ∃ transform, derivePatchTransform baseCommit flat nested = .ok transform ∧
    transform.val.operations.map opPath = ["src/app.py/more.py"] := by
  have hloop : ((derivePaths nested flat nested.paths).toOption.map (fun derived =>
      ((sortedEntries derived.1).map Subtype.val, derived.2.map opPath))) =
        some (nestedEntries, ["src/app.py/more.py"]) := by decide +kernel
  cases hderived : derivePaths nested flat nested.paths with
  | error message =>
    rw [hderived] at hloop
    cases hloop
  | ok derived =>
    obtain ⟨full, operations⟩ := derived
    rw [hderived] at hloop
    obtain ⟨hentries, hpaths⟩ := Prod.mk.inj (Option.some.inj hloop)
    have hpaths : operations.map opPath = ["src/app.py/more.py"] := hpaths
    have hsorted : sortedEntries full = nestedTree := List.map_injective_iff.mpr Subtype.val_injective hentries
    have hfrozen : TransformFields.postInit nestedLibrary ⟨transformVersion, baseCommit, "sha256:" ++ baseHash,
        "sha256:" ++ nestedHash, operations⟩ = .ok () :=
      frozen_valid (by decide +kernel) (by decide +kernel) hpaths (by decide) (by decide +kernel)
    have hoperations : operations.isEmpty = false := by
      cases operations with
      | nil => cases hpaths
      | cons op operations => rfl
    exact ⟨_, derived_of_loop (by decide +kernel) (by decide +kernel) hderived hoperations flat_hash
      (hsorted ▸ nested_hash) hfrozen, hpaths⟩

/-- A repository cannot hold what the repair makes of a tree that it can hold. -/
theorem nested_unrealisable : PrefixFree flat ∧
    ∃ transform, derivePatchTransform baseCommit flat nested = .ok transform ∧
      ∃ result, applyPatchTransform flat transform = .ok result ∧ ¬Realisable result := by
  have hfree : PrefixFree flat := by decide +kernel
  obtain ⟨transform, hderived, hpaths⟩ := nested_derived
  obtain ⟨result, happlied, hothers, hrepaired⟩ := (transform_reproduced hderived).1
  rw [hpaths] at hothers hrepaired
  refine ⟨hfree, transform, hderived, result, happlied, fun hresult => ?_⟩
  have hkept : "src/app.py" ∈ result.map entryPath := by
    obtain ⟨entry, hentry⟩ := observed_some.mp (by decide +kernel : "src/app.py" ∈ flat.map entryPath)
    exact observed_some.mpr ⟨entry, (hothers _ (by decide)).trans hentry⟩
  have hmade : "src/app.py/more.py" ∈ result.map entryPath := by
    have hfile := hrepaired _ (List.mem_singleton_self _)
    have hafter : nested.after "src/app.py/more.py" = some ⟨"src/app.py/more.py", "more\n"⟩ := by decide +kernel
    unfold Repaired at hfile
    rw [hafter, Option.map_some] at hfile
    obtain ⟨entry, hentry, -⟩ := Option.map_eq_some_iff.mp hfile
    exact observed_some.mpr ⟨entry, hentry⟩
  exact hresult.prefixFree _ hkept _ hmade (by decide +kernel)

end Example

end Solvan.Repair
