import Solvan.Repair.Replay

/-! Whether the base a repair worked on is the repository it is delivered to. -/
namespace Solvan.Repair
open Solvan.Base

variable {lib : Library} {material : RepairMaterial lib} {full full' tree : RepositoryTree lib}
  {path : String} {operations : List (TransformOperation lib)} {file : CandidateFile}

/-- The tree has the file, under the mode the material gives it. -/
def Grounded (material : RepairMaterial lib) (tree : RepositoryTree lib) (file : CandidateFile) : Prop :=
  ∃ entry, observed tree file.path = some entry ∧ entry.val.contentHash = file.contentHash lib ∧
    material.baseModes.lookup file.path = some entry.val.mode

/-- The candidate has the file as it was. -/
def Unchanged (material : RepairMaterial lib) (file : CandidateFile) : Prop :=
  ∃ new, material.after file.path = some new ∧ new.contentHash lib = file.contentHash lib

theorem derivePath_base {operation : Option (TransformOperation lib)}
    (hbefore : material.before path = some file)
    (hchanged : ∀ new, material.after path = some new → new.contentHash lib ≠ file.contentHash lib)
    (h : derivePath material full path = .ok (full', operation)) :
    ∃ entry, observed full path = some entry ∧ entry.val.contentHash = file.contentHash lib ∧
      entry.val.mode = (material.baseModes.lookup path).getD "" := by
  unfold derivePath at h
  rw [hbefore] at h
  have hnew : (material.after path).any (fun new => file.contentHash lib == new.contentHash lib) = false := by
    cases hafter : material.after path with
    | none => rfl
    | some new => exact beq_eq_false_iff_ne.mpr (hchanged new hafter).symm
  simp only [hnew, Bool.false_eq_true, if_false] at h
  obtain ⟨_, _, h⟩ := bind_ok.mp h
  obtain ⟨_, hobserved, _⟩ := bind_ok.mp h
  obtain ⟨entry, hentry, hsame⟩ := (Option.any_eq_true _ _).mp (require_ok.mp hobserved)
  rw [Bool.and_eq_true, beq_iff_eq, beq_iff_eq] at hsame
  exact ⟨entry, hentry, hsame⟩

/-- A loop that ends has found each changed file of the base in the tree it started from. -/
theorem derivePaths_base {paths : List String} (hnodup : paths.Nodup) (hpath : path ∈ paths)
    (hbefore : material.before path = some file)
    (hchanged : ∀ new, material.after path = some new → new.contentHash lib ≠ file.contentHash lib)
    (h : derivePaths material full paths = .ok (full', operations)) :
    ∃ entry, observed full path = some entry ∧ entry.val.contentHash = file.contentHash lib ∧
      entry.val.mode = (material.baseModes.lookup path).getD "" := by
  induction paths generalizing full operations with
  | nil => cases hpath
  | cons first paths ih =>
    obtain ⟨hnew, hrest⟩ := List.nodup_cons.mp hnodup
    obtain ⟨⟨middle, operation⟩, hfirst, h⟩ := bind_ok.mp h
    obtain ⟨⟨last, later⟩, hlater, h⟩ := bind_ok.mp h
    obtain ⟨rfl, rfl⟩ := Prod.mk.inj (Except.ok.inj h)
    rcases List.mem_cons.mp hpath with rfl | hmem
    · exact derivePath_base hbefore hchanged hfirst
    · have hstands : observed middle path = observed full path := by
        rcases derive_path hfirst with ⟨-, rfl⟩ | ⟨op, -, hop, hreplays⟩
        · rfl
        · exact hreplays.others path (fun heq => hnew (hop ▸ heq ▸ hmem))
      rw [← hstands]
      exact ih hrest hmem hlater

/-- Modes that cover the curated base have one for each of its files. -/
theorem lookup_covered {modes : List (String × String)} (h : path ∈ modes.map Prod.fst) :
    ∃ mode, modes.lookup path = some mode := by
  induction modes with
  | nil => cases h
  | cons first modes ih =>
    rw [List.lookup_cons]
    by_cases heq : path = first.1
    · rw [heq, beq_self_eq_true]
      exact ⟨_, rfl⟩
    · rw [beq_eq_false_iff_ne.mpr heq]
      exact ih ((List.mem_cons.mp h).resolve_left heq)

/-- A transform is derived from a base that is the repository exactly where the files
the candidate left alone are in it. -/
theorem base_grounded_iff {baseCommitSha : String} {transform : CanonicalPatchTransform lib}
    (h : derivePatchTransform baseCommitSha tree material = .ok transform) :
    (∀ file ∈ material.repairBase.files, Grounded material tree file) ↔
      ∀ file ∈ material.repairBase.files, Unchanged material file → Grounded material tree file := by
  refine ⟨fun hall file hfile _ => hall file hfile, fun hunchanged file hfile => ?_⟩
  by_cases hsame : Unchanged material file
  · exact hunchanged file hfile hsame
  · unfold derivePatchTransform at h
    obtain ⟨_, _, h⟩ := bind_ok.mp h
    obtain ⟨_, _, h⟩ := bind_ok.mp h
    obtain ⟨_, hmodes, h⟩ := bind_ok.mp h
    obtain ⟨⟨full, operations⟩, hloop, h⟩ := bind_ok.mp h
    obtain ⟨_, _, h⟩ := bind_ok.mp h
    obtain ⟨baseTreeHash, hbase, _⟩ := bind_ok.mp h
    rw [Keyed.dict_eq (paths_of_hash hbase)] at hloop
    have hcovered := (Bool.and_eq_true _ _ ▸ require_ok.mp hmodes).2
    have hmode := List.all_eq_true.mp hcovered _ (List.mem_map_of_mem hfile)
    obtain ⟨mode, hlookup⟩ := lookup_covered (List.contains_iff_mem.mp hmode)
    have hpaths : material.paths.Nodup := (List.perm_insertionSort _ _).nodup_iff.mpr (List.nodup_dedup _)
    have hpath : file.path ∈ material.paths := (List.perm_insertionSort _ _).mem_iff.mpr
      (List.mem_dedup.mpr (List.mem_append_left _ (List.mem_map_of_mem hfile)))
    have hbefore : material.before file.path = some file := Keyed.get_of_mem material.repairBase.paths_nodup hfile
    obtain ⟨entry, hentry, hhash, hentrymode⟩ := derivePaths_base hpaths hpath hbefore
      (fun new hafter heq => hsame ⟨new, hafter, heq⟩) hloop
    rw [hlookup, Option.getD_some] at hentrymode
    exact ⟨entry, hentry, hhash, by rw [hlookup, hentrymode]⟩

section Example

/-- A repair whose base holds a file that the curated tree has not, which the candidate leaves alone. -/
def copied : RepairMaterial asciiLibrary where
  repairBase := ⟨[⟨"src/app.py", "old\n"⟩, ⟨"src/copy.py", "old\n"⟩], ["src/**"], by decide +kernel⟩
  candidate := ⟨[⟨"src/app.py", "new\n"⟩, ⟨"src/copy.py", "old\n"⟩, ⟨"src/more.py", "more\n"⟩], ["src/**"],
    by decide +kernel⟩
  baseModes := [("src/app.py", "100755"), ("src/copy.py", "100644")]
  allowedPaths := ["src/**"]

theorem copied_derived : ∃ transform, derivePatchTransform baseCommit curated copied = .ok transform ∧
    transform.val.operations.map opPath = ["src/app.py", "src/more.py"] :=
  curated_derived (by decide +kernel) (by decide +kernel) (by decide +kernel)

/-- Where the base has no file but the one that changes, it is the repository. -/
theorem repair_grounded : ∃ transform, derivePatchTransform baseCommit curated repair = .ok transform ∧
    ∀ file ∈ repair.repairBase.files, Grounded repair curated file := by
  obtain ⟨transform, hderived, -⟩ := repair_derived
  refine ⟨transform, hderived, (base_grounded_iff hderived).mpr (fun file hfile hunchanged => ?_)⟩
  obtain rfl := List.mem_singleton.mp hfile
  obtain ⟨new, hafter, hhash⟩ := hunchanged
  have hnew : repair.after "src/app.py" = some ⟨"src/app.py", "new\n"⟩ := by decide +kernel
  obtain rfl := Option.some.inj (hnew.symm.trans hafter)
  exact absurd hhash (by decide +kernel)

/-- A base file that no commit has passes for one of the repository. -/
theorem copied_ungrounded : ∃ transform, derivePatchTransform baseCommit curated copied = .ok transform ∧
    ¬∀ file ∈ copied.repairBase.files, Grounded copied curated file := by
  obtain ⟨transform, hderived, -⟩ := copied_derived
  refine ⟨transform, hderived, fun hall => ?_⟩
  obtain ⟨entry, hentry, -⟩ := hall ⟨"src/copy.py", "old\n"⟩ (List.mem_cons_of_mem _ (List.mem_singleton_self _))
  have hnone : (observed curated "src/copy.py").isNone = true := by decide +kernel
  rw [hentry] at hnone
  cases hnone

end Example

end Solvan.Repair
