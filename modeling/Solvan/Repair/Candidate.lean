import Solvan.Base.Keyed
import Solvan.Repair.Paths

/-! Candidate trees: the bounded regular files that a repair works on. -/
namespace Solvan.Repair
open Solvan.Base

structure CandidateFile where
  path : String
  content : String
deriving DecidableEq

def CandidateFile.contentHash (lib : Library) (file : CandidateFile) : String :=
  lib.sha256Bytes file.content.toUTF8

/-- The checks of `CandidateTree` on one file. -/
def CandidateFile.check (lib : Library) (allowedFileGlobs : List String) (file : CandidateFile) :
    Except String Unit := do
  safeRelativePath lib file.path
  require (allowedFileGlobs.any (fnmatchcase file.path)) "candidate path is outside its frozen allowlist"
  require (file.content.toUTF8.size ≤ 65280) "candidate file exceeds its byte ceiling"

def checkFiles (lib : Library) (files : List CandidateFile) (allowedFileGlobs : List String) :
    Except String Unit := do
  require (decide (files.map CandidateFile.path).Nodup && files.length ≤ 128)
    "candidate tree file count is invalid"
  files.forM (CandidateFile.check lib allowedFileGlobs)
  require ((files.map (fun file => file.content.toUTF8.size)).sum ≤ 1048576)
    "candidate tree exceeds its aggregate byte ceiling"

structure CandidateTree (lib : Library) where
  files : List CandidateFile
  allowedFileGlobs : List String
  valid : checkFiles lib files allowedFileGlobs = .ok ()

variable {lib : Library}

/-- The paths of a candidate tree are distinct. -/
theorem CandidateTree.paths_nodup (tree : CandidateTree lib) :
    (tree.files.map CandidateFile.path).Nodup := by
  obtain ⟨_, hnames, _⟩ := bind_ok.mp tree.valid
  have hboth := require_ok.mp hnames
  rw [Bool.and_eq_true, decide_eq_true_eq] at hboth
  exact hboth.1

end Solvan.Repair
