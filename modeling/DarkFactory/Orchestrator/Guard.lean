import Mathlib.Data.List.Dedup
import Mathlib.Data.String.Basic
import DarkFactory.Lib.Fields
import DarkFactory.Python.Sort
import DarkFactory.Python.Text

/-!
# DarkFactory.Orchestrator.Guard

The protected-path guard of `core/orchestrator/guard.py`: what git says changed, and which of it is
protected. `fnmatch` and `basename` are those of a POSIX host.

* `Git` answers a command line: with what the process left behind, or with the text of an `OSError`.
* Output is read as text, so every line ending of it arrives as `\n`.
-/

namespace DarkFactory
namespace Orchestrator

def PROTECTED_PATTERNS : List String :=
  ["AGENTS.md", "MISSION.md", "FACTORY_RULES.md", "core/orchestrator/guard.py", "core/governance/*",
    ".factory/governance/owner_pubkey", ".github/workflows/*"]

structure GitQueryError where
  message : String
  command : List String
  returncode : Option Int
  stderr : String
deriving DecidableEq

def GitQueryError.init (message : String) (command : List String) (returncode : Option Int)
    (stderr : String) : GitQueryError :=
  let stderr := Text.strip stderr
  let detail :=
    match returncode with
    | none => message
    | some code => message ++ " (exit=" ++ toString code ++ ")"
  ⟨if stderr = "" then detail else detail ++ ": " ++ stderr, command, returncode, stderr⟩

structure CompletedProcess where
  returncode : Int
  stdout : String
  stderr : String
deriving DecidableEq

abbrev Git := List String → Except String CompletedProcess

def runGit (git : Git) (arguments : List String) : Except GitQueryError CompletedProcess :=
  let command := "git" :: arguments
  match git command with
  | .error exc => .error (GitQueryError.init "git is unavailable" command none exc)
  | .ok result =>
    let result : CompletedProcess :=
      { result with
        stdout := Text.universalNewlines result.stdout
        stderr := Text.universalNewlines result.stderr }
    if result.returncode ≠ 0 then
      .error (GitQueryError.init "git command failed" command (some result.returncode) result.stderr)
    else .ok result

def nulFields (output : String) : List String :=
  (Fields.fields '\x00' output.toList).map String.ofList

def malformed : GitQueryError :=
  GitQueryError.init "malformed git diff output" ["git", "diff", "--name-status"] none ""

/-- `status.startswith(("R", "C"))`. -/
def hasTwoPaths (status : String) : Bool := Text.startsWith status "R" || Text.startsWith status "C"

/-- The loop of `_parse_name_status`. -/
def parseFields : List String → Except GitQueryError (List String)
  | [] => .ok []
  | status :: rest =>
    let pathCount := if hasTwoPaths status then 2 else 1
    if rest.length < pathCount then .error malformed
    else (parseFields (rest.drop pathCount)).map fun paths => rest.take pathCount ++ paths
termination_by fs => fs.length
decreasing_by
  simp only [List.length_drop, List.length_cons]
  omega

def parseNameStatus (output : String) : Except GitQueryError (List String) :=
  parseFields (nulFields output)

def verifyArguments (baseRef : String) : List String :=
  ["rev-parse", "--verify", "--quiet", baseRef ++ "^\x7bcommit\x7d"]

/-- The resolved base, or why there is none. -/
def resolveBase (git : Git) (baseRef : String) : Except GitQueryError String :=
  match runGit git (verifyArguments baseRef) with
  | .error exc =>
    match exc.returncode with
    | some code =>
      .error (GitQueryError.init ("invalid base ref: " ++ baseRef) exc.command (some code) exc.stderr)
    | none => .error exc
  | .ok result =>
    let baseSha := Text.strip result.stdout
    if baseSha = "" then
      .error (GitQueryError.init "invalid base ref: empty object id" (verifyArguments baseRef) none "")
    else .ok baseSha

def diffArguments (baseSha : String) : List String :=
  ["diff", "--name-status", "-z", "--find-renames", baseSha, "--"]

def untrackedArguments : List String := ["ls-files", "--others", "--exclude-standard", "-z", "--"]

/-- `sorted(set(paths))`. -/
def sortedSet (paths : List String) : List String := sortAsc id paths.dedup

def getModifiedFiles (git : Git) (baseRef : String) : Except GitQueryError (List String) := do
  let baseSha ← resolveBase git baseRef
  let diff ← runGit git (diffArguments baseSha)
  let untracked ← runGit git untrackedArguments
  let paths ← parseNameStatus diff.stdout
  return sortedSet (paths ++ nulFields untracked.stdout)

/-- `s.replace("\\", "/")`, on characters. -/
def forwardSlashes (cs : List Char) : List Char := cs.map fun c => if c = '\\' then '/' else c

/-- `os.path.basename`: what follows the last slash. -/
def basename (cs : List Char) : List Char := cs.rtakeWhile fun c => decide (c ≠ '/')

def isProtected (filepath : String) : Bool :=
  let normPath := forwardSlashes filepath.toList
  PROTECTED_PATTERNS.any fun pattern =>
    Text.fnmatch pattern.toList normPath || Text.fnmatch pattern.toList (basename normPath)

def auditPaths (fileList : List String) : List String := fileList.filter isProtected

end Orchestrator
end DarkFactory
