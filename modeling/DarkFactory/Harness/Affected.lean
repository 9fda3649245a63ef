import DarkFactory.Lib.Closure
import DarkFactory.Python.Text
import DarkFactory.Python.Sort
import Mathlib.Data.String.Basic

/-!
# DarkFactory.Harness.Affected

`select_affected` of `core/harness/affected.py`, after the base is resolved.

* A file of the repository has its path, its text and what `ast.parse` makes of it. Of a tree there are
  the nodes that `_extract_raw_imports` looks at, and whether the guard marker is in it.
* Sets and dictionaries are lists, in the order in which the source fills them.
* What git prints comes as lines. A reason or an escalation keeps its parts beside its text.
-/

namespace DarkFactory
namespace Harness
namespace Affected

inductive Node where
  /-- `import a.b, c`. -/
  | imports (names : List String)
  /-- `from ..module import names`. -/
  | importFrom (module : Option String) (level : Nat) (names : List String)
  /-- A call of `import_module` with a literal, and the package that it is given. -/
  | importModule (literal : String) (package : Option String)

structure Tree where
  nodes : List Node
  /-- `_has_repository_guard_marker`. -/
  guard : Bool := false

structure SourceFile where
  path : String
  source : String
  /-- None for a `SyntaxError`. -/
  tree : Option Tree

def scanRootDirs : List String := ["core", "hub", "scripts", "tests"]

def scanRootFiles : List String := ["run_hub.py"]

def skipDirNames : List String :=
  [".git", "__pycache__", "_reference_skills", "spikes", "audio_bench", ".venv", "venv", "env", "node_modules",
    ".mypy_cache", ".pytest_cache", ".ruff_cache", ".tox"]

def skipPathMarkers : List String := [".claude/worktrees", ".worktrees", ".codex/worktrees"]

def excludedTestFiles : List String := ["tests/test_canaletto.py"]

def emptyDiffRepositoryGuards : List String :=
  ["tests/test_clock_bomb_guard.py", "tests/test_model_id_ratchet_usr185.py",
    "tests/test_serial_marker_guard.py", "tests/test_skills_drift.py", "tests/test_tree_hygiene_guard.py"]

def fullEscalationExactFiles : List String :=
  ["pytest.ini", "tests/conftest.py", "harness.config.json", "pyproject.toml", "setup.py", "setup.cfg"]

def genericBasenames : List String :=
  ["index.html", "readme.md", "config.json", "__init__.py", "settings.json", "package.json"]

def genericBasenameMinLen : Nat := 6

def workflowDirPrefix : String := ".github/workflows/"

def ciPolicyTest : String := "tests/test_ci_policy.py"

def nonPythonMatchableRoots : List String := ["core/", "hub/"]

def coverageTrackedPrefixes : List String := ["core/", "hub/", "scripts/"]

def isSkippedDir (name : String) : Bool := decide (name ∈ skipDirNames) || Text.startsWith name "."

/-- The part of a path before the first `/`. -/
def topOf (path : String) : String := Text.before path "/"

/-- `_iter_scan_files` yields the file. -/
def isScanned (path : String) : Bool :=
  (decide (topOf path ∈ scanRootDirs) && decide (topOf path ≠ path) && Text.endsWith path ".py" &&
    !((Text.split '/' path).dropLast.drop 1).any isSkippedDir &&
    !skipPathMarkers.any (Text.contains · path) && !decide (path ∈ excludedTestFiles)) ||
  decide (path ∈ scanRootFiles)

/-- `path_to_dotted`: the module name, and whether it is the name of a package. -/
def pathToDotted (path : String) : String × Bool :=
  let parts := Text.split '/' (if Text.endsWith path ".py" then Text.dropEnd 3 path else path)
  if parts.getLast? = some "__init__" then (Text.join '.' parts.dropLast, true) else (Text.join '.' parts, false)

def SourceFile.dotted (f : SourceFile) : String := (pathToDotted f.path).1

def packageOf (dotted : String) (isInit : Bool) : String :=
  if isInit then dotted else Text.join '.' (Text.split '.' dotted).dropLast

def resolveRelativeBase (package : String) (level : Nat) : Option String :=
  if level = 0 then some package
  else
    let components := if package = "" then [] else Text.split '.' package
    if components.length < level - 1 then none
    else some (Text.join '.' (components.take (components.length - (level - 1))))

/-- `f"{base}.{name}" if base else name`. -/
def under (base name : String) : String := if base = "" then name else base ++ "." ++ name

/-- The module that a `from` statement imports from, or none where the loop goes on without it. -/
def fromBase (package : String) (module : Option String) (level : Nat) : Option String :=
  if 0 < level then
    (resolveRelativeBase package level).map fun base =>
      if module.getD "" = "" then base else under base (module.getD "")
  else some (module.getD "")

/-- The names that `_extract_raw_imports` finds in a node. -/
def rawOf (package : String) : Node → List String
  | .imports names => names.flatMap fun name => name :: Text.properPrefixes '.' name
  | .importFrom module level names =>
    match fromBase package module level with
    | none => []
    | some base =>
      (if base = "" then [] else [base]) ++ (names.filter fun name => decide (name ≠ "*")).map (under base)
  | .importModule literal _ => [literal]

def SourceFile.package (f : SourceFile) : String := packageOf f.dotted (pathToDotted f.path).2

/-- `raw_imports`, which stay empty for a file that cannot be parsed. -/
def SourceFile.rawImports (f : SourceFile) : List String :=
  match f.tree with
  | none => []
  | some tree => tree.nodes.flatMap (rawOf f.package)

abbrev Graph := List SourceFile

namespace Graph

def paths (g : Graph) : List String := g.map SourceFile.path

def info (g : Graph) (path : String) : Option SourceFile := g.find? fun f => decide (f.path = path)

/-- `dotted_to_path`: the first file of a name. -/
def dottedToPath (g : Graph) (name : String) : Option String :=
  (g.find? fun f => decide (f.dotted = name ∧ f.dotted ≠ "")).map SourceFile.path

def ancestorInitPaths (g : Graph) (dotted : String) : List String :=
  (Text.properPrefixes '.' dotted).filterMap fun ancestor =>
    (g.dottedToPath ancestor).filter fun path => decide (Text.baseName path = "__init__.py")

def edgesOf (g : Graph) (f : SourceFile) (candidate : String) : List String :=
  match g.dottedToPath candidate with
  | none => []
  | some target =>
    if target = f.path then []
    else target :: (g.ancestorInitPaths candidate).filter fun path => decide (path ≠ f.path)

def edges (g : Graph) (path : String) : List String :=
  match g.info path with
  | none => []
  | some f => f.rawImports.flatMap (g.edgesOf f)

def isTestPath (path : String) : Bool :=
  Text.startsWith path "tests/" && Text.startsWith (Text.baseName path) "test_"

def testPaths (g : Graph) : List String :=
  sortAsc id (g.paths.filter fun path => isTestPath path && !decide (path ∈ excludedTestFiles))

def transitiveClosure (g : Graph) (start : String) : List String :=
  Closure.closure g.edges (g.length + 1) start

/-- `_compute_hot_modules` has the path: more than half of the tests reach it. -/
def isHot (g : Graph) (path : String) : Bool :=
  let count := (g.testPaths.filter fun t => decide (path ∈ g.transitiveClosure t)).length
  decide (g.testPaths.length < 2 * count)

end Graph

/-- `get_changed_files`, from the lines of `git diff --name-only` and of `git ls-files`. -/
def getChangedFiles (diff untracked : List String) : List String :=
  let lines := ((diff ++ untracked).map Text.strip).filter fun line => decide (line ≠ "")
  sortAsc id (lines.dedup.map fun line => Text.replaceChar line '\\' '/')

def changedModuleIdentity (path : String) : Option String :=
  if Text.endsWith path ".py" && (decide (path ∈ scanRootFiles) || decide (topOf path ∈ scanRootDirs)) then
    some (pathToDotted path).1
  else none

def textReferenceHit (source path : String) (dotted : Option String) : Bool :=
  Text.contains path source || Text.contains (Text.replaceChar path '/' '\\') source ||
    dotted.any fun name => decide (name ≠ "") && Text.contains name source

def isConftestOrTestHelper (path : String) : Bool :=
  Text.startsWith path "tests/" && !Text.startsWith (Text.baseName path) "test_" && Text.endsWith path ".py"

/-- `_governance_escalation` hits. -/
def isGovernance (path : String) : Bool :=
  decide (path ∈ fullEscalationExactFiles) ||
    Text.startsWith (Text.baseName path) "requirements" && Text.endsWith (Text.baseName path) ".txt"

inductive Reason where
  | repositoryGuard
  | changedTestFile
  | testHelperDirectory (path : String)
  | importsPath (path : String)
  | importsUnresolved (dotted via : String)
  | textReference (path : String)
  | ciWorkflowChange (path : String)
deriving DecidableEq

def Reason.text : Reason → String
  | .repositoryGuard => "repository_guard"
  | .changedTestFile => "changed_test_file"
  | .testHelperDirectory path => "test_helper_directory: " ++ path
  | .importsPath path => "imports " ++ path
  | .importsUnresolved dotted via => "imports (unresolved) " ++ dotted ++ " via " ++ via
  | .textReference path => "text_reference: " ++ path
  | .ciWorkflowChange path => "ci_workflow_change: " ++ path

inductive Escalation where
  | graphBuildFailed (exc : String)
  | repositoryGuardScanFailed (exc : String)
  | governanceFile (path : String)
  | hotModule (path : String)
  | unmatchedAsset (path : String)
deriving DecidableEq

def Escalation.text : Escalation → String
  | .graphBuildFailed exc => "graph_build_failed: " ++ exc
  | .repositoryGuardScanFailed exc => "repository_guard_scan_failed: " ++ exc
  | .governanceFile path => "governance_file: " ++ path
  | .hotModule path => "hot_module: " ++ path ++ " (imported by >50% of tests)"
  | .unmatchedAsset path => "unmatched_asset: " ++ path

inductive Mode where
  | none
  | subset
  | full
deriving DecidableEq

structure Selection where
  mode : Mode
  tests : List String
  /-- Each test with one of its reasons. -/
  reasons : List (String × Reason)
  escalations : List Escalation
  changedFiles : List String
  uncovered : List String
deriving DecidableEq

structure Found where
  reasons : List (String × Reason) := []
  escalations : List Escalation := []
  uncovered : List String := []

section

variable (g : Graph)

def unresolvedVia (dotted test : String) : Option String :=
  (sortAsc id (g.transitiveClosure test)).find? fun member =>
    (g.info member).any fun f => decide (dotted ∈ f.rawImports)

def whyImports (path name test : String) : List Reason :=
  if name = "" then []
  else if path ∈ g.transitiveClosure test then [.importsPath path]
  else (unresolvedVia g name test).toList.map (.importsUnresolved name)

/-- The reasons of one test in the loop of `_select_tests_for_python_change`. -/
def whyPython (path : String) (dotted : Option String) (test : String) : List Reason :=
  dotted.elim [] (fun name => whyImports g path name test) ++
    if (g.info test).any (fun f => textReferenceHit f.source path dotted) then [.textReference path] else []

def besideOrBelow (path test : String) : Bool :=
  Text.startsWith test (Text.dirName path ++ "/") || decide (Text.dirName test = Text.dirName path)

def selectTestsForPythonChange (path : String) (dotted : Option String) : List (String × Reason) :=
  (if Graph.isTestPath path && decide (path ∈ g.paths) then [(path, .changedTestFile)] else []) ++
    (if isConftestOrTestHelper path then
      (g.testPaths.filter (besideOrBelow path)).map fun test => (test, .testHelperDirectory path)
    else []) ++
    g.testPaths.flatMap fun test => (whyPython g path dotted test).map fun why => (test, why)

def testsWith (texts : List String) : List String :=
  g.testPaths.filter fun test => (g.info test).any fun f => texts.any (Text.contains · f.source)

def referencesTo (path : String) : List String :=
  let name := Text.baseName path
  let generic := decide (Text.asciiLower name ∈ genericBasenames) || decide (name.length < genericBasenameMinLen)
  [path, Text.replaceChar path '/' '\\'] ++ if generic then [] else [name]

def selectTestsForNonPythonChange (path : String) : Found :=
  if Text.startsWith path workflowDirPrefix then
    { reasons :=
        (if ciPolicyTest ∈ g.paths then [(ciPolicyTest, .ciWorkflowChange path)] else []) ++
          ((testsWith g [path]).filter fun test => decide (test ≠ ciPolicyTest)).map fun test =>
            (test, .textReference path) }
  else if Text.startsWith path "docs/" then {}
  else
    let found := (testsWith g (referencesTo path)).map fun test => (test, Reason.textReference path)
    { reasons := found
      escalations :=
        if nonPythonMatchableRoots.any (Text.startsWith path) && found.isEmpty then [.unmatchedAsset path] else [] }

/-- The loop of `select_affected` on one changed file. -/
def selectChange (path : String) : Found :=
  if isGovernance path then { escalations := [.governanceFile path] }
  else if Text.endsWith path ".py" then
    if g.isHot path then { escalations := [.hotModule path] }
    else
      match changedModuleIdentity path with
      | none =>
        { reasons :=
            (g.testPaths.filter fun test =>
              (g.info test).any fun f => textReferenceHit f.source path none).map fun test =>
                (test, .textReference path) }
      | some dotted =>
        let found := selectTestsForPythonChange g path (some dotted)
        { reasons := found
          uncovered :=
            if found.isEmpty && coverageTrackedPrefixes.any (Text.startsWith path) then [path] else [] }
  else selectTestsForNonPythonChange g path

/-- The guards that `select_affected` selects whatever has changed. -/
def guardReasons : List (String × Reason) :=
  (g.testPaths.filter fun test => (g.info test).any fun f => f.tree.any Tree.guard).map fun test =>
    (test, .repositoryGuard)

end

structure Input where
  /-- The base is `HEAD`, and `git status` prints nothing. -/
  cleanHead : Bool := false
  diff : List String
  untracked : List String := []
  /-- The files of the repository, in the order of the walk. -/
  repository : List SourceFile
  /-- What `build_import_graph` raises. -/
  buildFails : Option String := none
  /-- What reading the registered guards raises. -/
  guardScanFails : Option String := none

namespace Input

def graph (i : Input) : Graph := i.repository.filter fun f => isScanned f.path

def listed (i : Input) : List String :=
  if i.cleanHead then []
  else (getChangedFiles i.diff i.untracked).filter fun path => decide (path ∉ excludedTestFiles)

end Input

def selectRepositoryGuardsWithoutGraph (i : Input) : Selection :=
  match i.guardScanFails with
  | some exc => ⟨.full, [], [], [.repositoryGuardScanFailed exc], [], []⟩
  | none =>
    let selected := emptyDiffRepositoryGuards.filter fun path =>
      (Graph.info i.repository path).any fun f => f.tree.any Tree.guard
    ⟨if selected = [] then .none else .subset, sortAsc id selected,
      selected.map fun path => (path, .repositoryGuard), [], [], []⟩

def gather (i : Input) : Found where
  reasons := guardReasons i.graph ++ i.listed.flatMap fun path => (selectChange i.graph path).reasons
  escalations := i.listed.flatMap fun path => (selectChange i.graph path).escalations
  uncovered := i.listed.flatMap fun path => (selectChange i.graph path).uncovered

def selectAffected (i : Input) : Selection :=
  if i.listed = [] then selectRepositoryGuardsWithoutGraph i
  else
    match i.buildFails with
    | some exc => ⟨.full, [], [], [.graphBuildFailed exc], i.listed, []⟩
    | none =>
      let found := gather i
      let uncovered := sortAsc id found.uncovered.dedup
      if found.escalations ≠ [] then
        ⟨.full, i.graph.testPaths, [], sortAsc Escalation.text found.escalations.dedup, i.listed, uncovered⟩
      else
        let selected := (found.reasons.map Prod.fst).dedup
        ⟨if selected = [] then .none else .subset, sortAsc id selected, found.reasons.dedup, [], i.listed, uncovered⟩

end Affected
end Harness
end DarkFactory
