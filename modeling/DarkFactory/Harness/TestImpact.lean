import DarkFactory.Harness.Affected

/-!
# DarkFactory.Harness.TestImpact

When the tests that are selected are all those that a change concerns.

* `Loads` — what the execution of a test can load, by the rules of Python and of pytest.
* `Safe` — all tests are run, or each one that has changed or that loads a changed module is selected.
* `Picked` — the reasons for which a test is selected.
-/

namespace DarkFactory
namespace Harness
namespace Affected

/-- The base of a relative name, or none for an `ImportError`. -/
def relativeBase (package : String) (level : Nat) : Option String :=
  let components := Text.split '.' package
  if package = "" ∨ components.length < level then none
  else some (Text.join '.' (components.take (components.length - (level - 1))))

def askedBy (package : String) : Node → List String
  | .imports names => names
  | .importFrom module level names =>
    match if 0 < level then relativeBase package level else some "" with
    | none => []
    | some base =>
      let origin := if module.getD "" = "" then base else under base (module.getD "")
      origin :: (names.filter fun name => decide (name ≠ "*")).map (under origin)
  | .importModule literal given =>
    if Text.startsWith literal "." then
      let level := (literal.toList.takeWhile (· == '.')).length
      let name := String.ofList (literal.toList.drop level)
      match relativeBase (given.getD "") level with
      | none => []
      | some base => [if name = "" then base else under base name]
    else [literal]

def SourceFile.asks (f : SourceFile) : List String :=
  (f.tree.elim [] Tree.nodes).flatMap fun node =>
    (askedBy f.package node).flatMap fun name => name :: Text.properPrefixes '.' name

def packageFile (name : String) : String := Text.replaceChar name '.' '/' ++ "/__init__.py"

def moduleFile (name : String) : String := Text.replaceChar name '.' '/' ++ ".py"

def Finds (g : Graph) (name path : String) : Prop :=
  path = packageFile name ∨ path = moduleFile name ∧ (path ∈ g.paths → packageFile name ∉ g.paths)

def conftestsAbove (path : String) : List String :=
  "conftest.py" :: (Text.dirsAbove path).map fun dir => dir ++ "/conftest.py"

def packagesAbove (path : String) : List String :=
  (Text.dirsAbove path).map fun dir => dir ++ "/__init__.py"

inductive Loads (g : Graph) (test : String) : String → Prop where
  | self : Loads g test test
  | conftest {path : String} : path ∈ conftestsAbove test → Loads g test path
  | imports {f : SourceFile} {name path : String} : f ∈ g → Loads g test f.path → name ∈ f.asks →
      Finds g name path → Loads g test path
  | package {f : SourceFile} {path : String} : f ∈ g → Loads g test f.path → path ∈ packagesAbove f.path →
      Loads g test path
  /-- A file that cannot be parsed may load anything. -/
  | unparsable {f : SourceFile} {path : String} : f ∈ g → Loads g test f.path → f.tree = none → Loads g test path

def Concerned (g : Graph) (changed : List String) (test : String) : Prop :=
  test ∈ changed ∨ ∃ path ∈ changed, (changedModuleIdentity path).isSome = true ∧ Loads g test path

def Safe (i : Input) (changed : List String) : Prop :=
  (selectAffected i).mode = .full ∨
    ∀ test ∈ i.graph.testPaths, Concerned i.graph changed test → test ∈ (selectAffected i).tests

/-- The test reaches the file over the edges, or reaches a file that names its module. -/
def Sees (g : Graph) (test path : String) : Prop :=
  ∃ name, changedModuleIdentity path = some name ∧ name ≠ "" ∧
    (Closure.Reaches g.edges test path ∨
      ∃ f, Closure.Reaches g.edges test f.path ∧ g.info f.path = some f ∧ name ∈ f.rawImports)

/-- The texts by which the source of a test refers to a changed file. -/
def textsOf (path : String) : List String :=
  if Text.endsWith path ".py" then
    [path, Text.replaceChar path '/' '\\'] ++
      (changedModuleIdentity path).toList.filter fun name => decide (name ≠ "")
  else if Text.startsWith path workflowDirPrefix then [path]
  else if Text.startsWith path "docs/" then []
  else referencesTo path

def Mentions (g : Graph) (test path : String) : Prop :=
  ∃ f, g.info test = some f ∧ ∃ text ∈ textsOf path, Text.contains text f.source = true

def isWorkflow (path : String) : Bool := !Text.endsWith path ".py" && Text.startsWith path workflowDirPrefix

def IsGuard (g : Graph) (test : String) : Prop := ∃ f, g.info test = some f ∧ f.tree.any Tree.guard = true

inductive Picked (i : Input) (test : String) : Prop where
  | guard : i.listed ≠ [] → IsGuard i.graph test → Picked i test
  | registered : i.listed = [] → test ∈ emptyDiffRepositoryGuards → IsGuard i.repository test → Picked i test
  | listed : test ∈ i.listed → Picked i test
  | helper (path : String) : path ∈ i.listed → isConftestOrTestHelper path = true →
      besideOrBelow path test = true → Picked i test
  | sees (path : String) : path ∈ i.listed → Sees i.graph test path → Picked i test
  | mentions (path : String) : path ∈ i.listed → Mentions i.graph test path → Picked i test
  | policy (path : String) : path ∈ i.listed → isWorkflow path = true → test = ciPolicyTest → Picked i test

structure UnmatchedAsset (g : Graph) (path : String) : Prop where
  asset : nonPythonMatchableRoots.any (Text.startsWith path) = true
  notPython : Text.endsWith path ".py" = false
  unmatched : ∀ test ∈ g.testPaths, ¬ Mentions g test path

def Escalates (g : Graph) (path : String) : Prop :=
  isGovernance path = true ∨ Text.endsWith path ".py" = true ∧ g.isHot path = true ∨ UnmatchedAsset g path

def RunsAll (i : Input) : Prop :=
  i.listed = [] ∧ i.guardScanFails.isSome = true ∨
    i.listed ≠ [] ∧ (i.buildFails.isSome = true ∨ ∃ path ∈ i.listed, Escalates i.graph path)

section

variable {g : Graph}

variable {path name test : String}

theorem mem_paths : path ∈ g.paths ↔ ∃ f ∈ g, f.path = path := List.mem_map

theorem info_some {f : SourceFile} (h : g.info path = some f) : f ∈ g ∧ f.path = path := by
  have hpath := List.find?_some h
  exact ⟨List.mem_of_find?_eq_some h, of_decide_eq_true hpath⟩

theorem dottedToPath_mem (h : g.dottedToPath name = some path) : path ∈ g.paths := by
  obtain ⟨f, hf, rfl⟩ := Option.map_eq_some_iff.mp h
  exact mem_paths.mpr ⟨f, List.mem_of_find?_eq_some hf, rfl⟩

theorem edgesOf_mem {f : SourceFile} {candidate : String} (h : path ∈ g.edgesOf f candidate) : path ∈ g.paths := by
  unfold Graph.edgesOf at h
  split at h
  · cases h
  · rename_i target htarget
    split at h
    · cases h
    · rcases List.mem_cons.mp h with rfl | h
      · exact dottedToPath_mem htarget
      · obtain ⟨ancestor, -, hancestor⟩ := List.mem_filterMap.mp (List.mem_of_mem_filter h)
        exact dottedToPath_mem (Option.filter_eq_some_iff.mp hancestor).1

theorem edges_mem {path' : String} (h : path' ∈ g.edges path) : path' ∈ g.paths := by
  unfold Graph.edges at h
  split at h
  · cases h
  · obtain ⟨candidate, -, h⟩ := List.mem_flatMap.mp h
    exact edgesOf_mem h

theorem mem_transitiveClosure {start : String} :
    path ∈ g.transitiveClosure start ↔ Closure.Reaches g.edges start path := by
  have hnext : ∀ a, ∀ b ∈ g.edges a, b ∈ g.paths := fun _ _ h => edges_mem h
  refine Closure.mem_closure_iff hnext ?_
  rw [Graph.paths, List.length_map]
  exact Nat.lt_succ_self _

theorem mem_testPaths :
    path ∈ g.testPaths ↔ path ∈ g.paths ∧ Graph.isTestPath path = true ∧ path ∉ excludedTestFiles := by
  rw [Graph.testPaths, (sortAsc_perm _ _).mem_iff, List.mem_filter, Bool.and_eq_true, Bool.not_eq_true',
    decide_eq_false_iff_not]

theorem unresolvedVia_isSome :
    (unresolvedVia g name test).isSome = true ↔
      ∃ f, Closure.Reaches g.edges test f.path ∧ g.info f.path = some f ∧ name ∈ f.rawImports := by
  rw [unresolvedVia, List.find?_isSome]
  constructor
  · rintro ⟨member, hmember, hany⟩
    obtain ⟨f, hf, hraw⟩ := (Option.any_eq_true _ _).mp hany
    obtain ⟨-, rfl⟩ := info_some hf
    exact ⟨f, mem_transitiveClosure.mp ((sortAsc_perm _ _).mem_iff.mp hmember), hf, of_decide_eq_true hraw⟩
  · rintro ⟨f, hreach, hf, hraw⟩
    refine ⟨f.path, (sortAsc_perm _ _).mem_iff.mpr (mem_transitiveClosure.mpr hreach), ?_⟩
    rw [hf]
    exact decide_eq_true hraw

theorem any_textReferenceHit (hpy : Text.endsWith path ".py" = true) :
    (g.info test).any (fun f => textReferenceHit f.source path (changedModuleIdentity path)) = true ↔
      Mentions g test path := by
  rw [Option.any_eq_true, Mentions, textsOf, if_pos hpy]
  refine exists_congr fun f => and_congr_right fun _ => ?_
  cases changedModuleIdentity path with
  | none => simp [textReferenceHit]
  | some name =>
    by_cases hname : name = ""
    · simp [textReferenceHit, hname]
    · simp [textReferenceHit, hname, or_assoc]

theorem mem_testsWith {texts : List String} :
    test ∈ testsWith g texts ↔ test ∈ g.testPaths ∧
      ∃ f, g.info test = some f ∧ ∃ text ∈ texts, Text.contains text f.source = true := by
  rw [testsWith, List.mem_filter, Option.any_eq_true]
  simp only [List.any_eq_true]

theorem whyPython_ne_nil (hpy : Text.endsWith path ".py" = true) (hname : changedModuleIdentity path = some name) :
    whyPython g path (some name) test ≠ [] ↔ Sees g test path ∨ Mentions g test path := by
  have hsees : Sees g test path ↔ name ≠ "" ∧
      (path ∈ g.transitiveClosure test ∨ (unresolvedVia g name test).isSome = true) := by
    rw [mem_transitiveClosure, unresolvedVia_isSome]
    constructor
    · rintro ⟨name', hname', hne, hreach⟩
      rw [hname] at hname'
      cases hname'
      exact ⟨hne, hreach⟩
    · rintro ⟨hne, hreach⟩
      exact ⟨name, hname, hne, hreach⟩
  have himports : whyImports g path name test ≠ [] ↔ name ≠ "" ∧
      (path ∈ g.transitiveClosure test ∨ (unresolvedVia g name test).isSome = true) := by
    unfold whyImports
    by_cases hne : name = ""
    · simp [hne]
    · by_cases hreach : path ∈ g.transitiveClosure test
      · simp [hne, hreach]
      · cases unresolvedVia g name test <;> simp [hne, hreach]
  rw [hsees, ← himports, ← any_textReferenceHit hpy, hname, whyPython, Option.elim_some, ne_eq,
    List.append_eq_nil_iff, not_and_or]
  exact or_congr_right (by split <;> simp [*])

theorem mem_fst_map {γ : Type} {tests : List String} {reason : String → γ} :
    test ∈ (tests.map fun t => (t, reason t)).map Prod.fst ↔ test ∈ tests := by
  simp

theorem mem_pythonChange (hpy : Text.endsWith path ".py" = true)
    (hname : changedModuleIdentity path = some name) (htest : test ∈ g.testPaths) :
    test ∈ (selectTestsForPythonChange g path (some name)).map Prod.fst ↔
      test = path ∨ isConftestOrTestHelper path = true ∧ besideOrBelow path test = true ∨
        Sees g test path ∨ Mentions g test path := by
  obtain ⟨hpaths, hisTest, -⟩ := mem_testPaths.mp htest
  have hself : test ∈ (if Graph.isTestPath path && decide (path ∈ g.paths) then
      [(path, Reason.changedTestFile)] else []).map Prod.fst ↔ test = path := by
    split
    · simp
    · rename_i hnot
      refine ⟨nofun, fun h => absurd ?_ hnot⟩
      rw [← h, hisTest, decide_eq_true hpaths]
      rfl
  have hhelper : test ∈ (if isConftestOrTestHelper path then
      (g.testPaths.filter (besideOrBelow path)).map fun t => (t, Reason.testHelperDirectory path)
      else []).map Prod.fst ↔ isConftestOrTestHelper path = true ∧ besideOrBelow path test = true := by
    split
    · rename_i hhelps
      rw [mem_fst_map, List.mem_filter]
      simp [htest, hhelps]
    · rename_i hnot
      simp [hnot]
  have hloop : test ∈ (g.testPaths.flatMap fun t => (whyPython g path (some name) t).map fun why =>
      (t, why)).map Prod.fst ↔ Sees g test path ∨ Mentions g test path := by
    rw [← whyPython_ne_nil hpy hname]
    constructor
    · intro h
      obtain ⟨⟨t, why⟩, hmem, hfst⟩ := List.mem_map.mp h
      obtain ⟨t', -, hwhy⟩ := List.mem_flatMap.mp hmem
      obtain ⟨why', hwhy', heq⟩ := List.mem_map.mp hwhy
      cases heq
      subst hfst
      exact List.ne_nil_of_mem hwhy'
    · intro h
      obtain ⟨why, hwhy⟩ := List.exists_mem_of_ne_nil _ h
      exact List.mem_map.mpr ⟨(test, why), List.mem_flatMap.mpr ⟨test, htest, List.mem_map.mpr ⟨why, hwhy, rfl⟩⟩,
        rfl⟩
  rw [selectTestsForPythonChange, List.map_append, List.map_append, List.mem_append, List.mem_append, hself,
    hhelper, hloop, or_assoc]

inductive Affects (g : Graph) (path test : String) : Prop where
  | self : test = path → Affects g path test
  | helper : isConftestOrTestHelper path = true → besideOrBelow path test = true → Affects g path test
  | sees : Sees g test path → Affects g path test
  | mentions : Mentions g test path → Affects g path test
  | policy : isWorkflow path = true → test = ciPolicyTest → Affects g path test

theorem mem_nonPythonChange (hpy : Text.endsWith path ".py" = false) (htest : test ∈ g.testPaths) :
    test ∈ (selectTestsForNonPythonChange g path).reasons.map Prod.fst ↔
      Mentions g test path ∨ isWorkflow path = true ∧ test = ciPolicyTest := by
  have hpaths := (mem_testPaths.mp htest).1
  have hnot : ¬ Text.endsWith path ".py" = true := by rw [hpy]; nofun
  unfold selectTestsForNonPythonChange
  split
  · rename_i hworkflow
    have hmentions : test ∈ testsWith g [path] ↔ Mentions g test path := by
      rw [mem_testsWith, Mentions, textsOf, if_neg hnot, if_pos hworkflow]
      exact and_iff_right htest
    have hpolicy : test ∈ (if ciPolicyTest ∈ g.paths then [(ciPolicyTest, Reason.ciWorkflowChange path)]
        else []).map Prod.fst ↔ test = ciPolicyTest := by
      split
      · simp
      · rename_i hmissing
        exact ⟨nofun, fun h => absurd (h ▸ hpaths) hmissing⟩
    rw [List.map_append, List.mem_append, hpolicy, mem_fst_map, List.mem_filter, decide_eq_true_eq, hmentions]
    simp only [isWorkflow, hpy, hworkflow, Bool.not_false, Bool.and_true, true_and]
    constructor
    · rintro (h | ⟨h, -⟩)
      · exact .inr h
      · exact .inl h
    · rintro (h | h)
      · by_cases hci : test = ciPolicyTest
        · exact .inl hci
        · exact .inr ⟨h, hci⟩
      · exact .inl h
  · rename_i hworkflow
    have hnever : ¬ isWorkflow path = true := by simp [isWorkflow, hpy, hworkflow]
    split
    · rename_i hdocs
      have hnone : ¬ Mentions g test path := by
        rintro ⟨f, -, text, htext, -⟩
        rw [textsOf, if_neg hnot, if_neg hworkflow, if_pos hdocs] at htext
        cases htext
      simp [hnone, hnever]
    · rename_i hdocs
      rw [mem_fst_map, mem_testsWith, Mentions, textsOf, if_neg hnot, if_neg hworkflow, if_neg hdocs]
      simp [htest, hnever]

theorem startsWith_ne {p q : String} (h : Text.startsWith path p = true)
    (hne : (p.toList.isPrefixOf q.toList || q.toList.isPrefixOf p.toList) = false) :
    ¬ Text.startsWith path q = true := by
  intro h'
  have hp : p.toList <+: path.toList := List.isPrefixOf_iff_prefix.mp h
  have hq : q.toList <+: path.toList := List.isPrefixOf_iff_prefix.mp h'
  rw [Bool.or_eq_false_iff] at hne
  rcases List.prefix_or_prefix_of_prefix hp hq with hpq | hqp
  · rw [List.isPrefixOf_iff_prefix.mpr hpq] at hne
    cases hne.1
  · rw [List.isPrefixOf_iff_prefix.mpr hqp] at hne
    cases hne.2

theorem endsWith_of_scanned (h : isScanned path = true) (htest : Graph.isTestPath path = true) :
    Text.endsWith path ".py" = true ∧ topOf path ∈ scanRootDirs := by
  rw [isScanned, Bool.or_eq_true, decide_eq_true_eq] at h
  rcases h with h | h
  · simp only [Bool.and_eq_true, decide_eq_true_eq] at h
    exact ⟨h.1.1.1.2, h.1.1.1.1.1⟩
  · rw [List.mem_singleton.mp h] at htest
    exact absurd htest (by decide)

theorem topOf_tests (h : Text.startsWith path "tests/" = true) : topOf path ∈ scanRootDirs := by
  obtain ⟨rest, hrest⟩ := List.isPrefixOf_iff_prefix.mp h
  have htop : topOf path = "tests" := by
    rw [topOf, Text.before, ← hrest]
    rfl
  rw [htop]
  decide

theorem mem_selectChange (hcalm : ¬ Escalates g path) (htest : test ∈ g.testPaths)
    (hscanned : ∀ f ∈ g, isScanned f.path = true) :
    test ∈ (selectChange g path).reasons.map Prod.fst ↔ Affects g path test := by
  have hgovernance : ¬ isGovernance path = true := fun h => hcalm (.inl h)
  unfold selectChange
  rw [if_neg hgovernance]
  by_cases hpy : Text.endsWith path ".py" = true
  · have hhot : ¬ g.isHot path = true := fun h => hcalm (.inr (.inl ⟨hpy, h⟩))
    have hworkflow : ¬ isWorkflow path = true := by simp [isWorkflow, hpy]
    rw [if_pos hpy, if_neg hhot]
    split
    · rename_i hname
      rw [mem_fst_map, List.mem_filter, ← hname, any_textReferenceHit hpy]
      constructor
      · intro h
        exact .mentions h.2
      · intro h
        cases h with
        | self heq =>
          obtain ⟨hpaths, hisTest, -⟩ := mem_testPaths.mp htest
          obtain ⟨f, hf, hpath⟩ := mem_paths.mp hpaths
          have htop := endsWith_of_scanned (hpath ▸ hscanned f hf) hisTest
          rw [heq] at htop
          simp [changedModuleIdentity, htop.1, htop.2] at hname
        | helper hhelps =>
          simp only [isConftestOrTestHelper, Bool.and_eq_true] at hhelps
          have htop : topOf path ∈ scanRootDirs := topOf_tests hhelps.1.1
          simp [changedModuleIdentity, hpy, htop] at hname
        | sees h =>
          obtain ⟨name, hsome, -⟩ := h
          rw [hname] at hsome
          cases hsome
        | mentions h => exact ⟨htest, h⟩
        | policy h => exact absurd h hworkflow
    · rename_i name hname
      rw [mem_pythonChange hpy hname htest]
      constructor
      · rintro (h | ⟨hhelps, hbeside⟩ | h | h)
        · exact .self h
        · exact .helper hhelps hbeside
        · exact .sees h
        · exact .mentions h
      · intro h
        cases h with
        | self heq => exact .inl heq
        | helper hhelps hbeside => exact .inr (.inl ⟨hhelps, hbeside⟩)
        | sees h => exact .inr (.inr (.inl h))
        | mentions h => exact .inr (.inr (.inr h))
        | policy h => exact absurd h hworkflow
  · have hpy' : Text.endsWith path ".py" = false := Bool.not_eq_true _ ▸ hpy
    rw [if_neg hpy, mem_nonPythonChange hpy' htest]
    constructor
    · rintro (h | ⟨hworkflow, hci⟩)
      · exact .mentions h
      · exact .policy hworkflow hci
    · intro h
      cases h with
      | self heq =>
        obtain ⟨hpaths, hisTest, -⟩ := mem_testPaths.mp htest
        obtain ⟨f, hf, hpath⟩ := mem_paths.mp hpaths
        have htop := endsWith_of_scanned (hpath ▸ hscanned f hf) hisTest
        exact absurd (heq ▸ htop.1) hpy
      | helper hhelps =>
        simp only [isConftestOrTestHelper, Bool.and_eq_true] at hhelps
        exact absurd hhelps.2 hpy
      | sees h =>
        obtain ⟨name, hsome, -⟩ := h
        simp [changedModuleIdentity, hpy] at hsome
      | mentions h => exact .inl h
      | policy hworkflow hci => exact .inr ⟨hworkflow, hci⟩

theorem escalates_iff : (selectChange g path).escalations ≠ [] ↔ Escalates g path := by
  unfold selectChange
  by_cases hgovernance : isGovernance path = true
  · rw [if_pos hgovernance]
    exact ⟨fun _ => .inl hgovernance, fun _ => List.cons_ne_nil _ _⟩
  rw [if_neg hgovernance]
  by_cases hpy : Text.endsWith path ".py" = true
  · rw [if_pos hpy]
    by_cases hhot : g.isHot path = true
    · rw [if_pos hhot]
      exact ⟨fun _ => .inr (.inl ⟨hpy, hhot⟩), fun _ => List.cons_ne_nil _ _⟩
    · have hcalm : ¬ Escalates g path := by
        rintro (h | ⟨-, h⟩ | h)
        · exact hgovernance h
        · exact hhot h
        · rw [h.notPython] at hpy
          cases hpy
      rw [if_neg hhot]
      split <;> exact ⟨fun h => absurd rfl h, fun h => absurd h hcalm⟩
  · have hpy' : Text.endsWith path ".py" = false := Bool.not_eq_true _ ▸ hpy
    have hasset : Escalates g path ↔ UnmatchedAsset g path :=
      ⟨fun h => (h.resolve_left hgovernance).resolve_left fun hhot => hpy hhot.1, fun h => .inr (.inr h)⟩
    rw [if_neg hpy, hasset]
    have hroots : nonPythonMatchableRoots.any (Text.startsWith path) = true →
        ¬ Text.startsWith path workflowDirPrefix = true ∧ ¬ Text.startsWith path "docs/" = true := by
      intro h
      simp only [nonPythonMatchableRoots, List.any_cons, List.any_nil, Bool.or_false, Bool.or_eq_true] at h
      rcases h with h | h
      · exact ⟨startsWith_ne h (by decide), startsWith_ne h (by decide)⟩
      · exact ⟨startsWith_ne h (by decide), startsWith_ne h (by decide)⟩
    unfold selectTestsForNonPythonChange
    split
    · rename_i hworkflow
      exact ⟨fun h => absurd rfl h, fun h => absurd hworkflow (hroots h.asset).1⟩
    · rename_i hworkflow
      split
      · rename_i hdocs
        exact ⟨fun h => absurd rfl h, fun h => absurd hdocs (hroots h.asset).2⟩
      · rename_i hdocs
        have hnone : ((testsWith g (referencesTo path)).map fun test =>
            (test, Reason.textReference path)).isEmpty = true ↔ ∀ test ∈ g.testPaths, ¬ Mentions g test path := by
          rw [List.isEmpty_iff, List.map_eq_nil_iff, List.eq_nil_iff_forall_not_mem]
          refine forall_congr' fun test => ?_
          rw [mem_testsWith, Mentions, textsOf, if_neg hpy, if_neg hworkflow, if_neg hdocs, not_and]
        dsimp only
        constructor
        · intro h
          split at h
          · rename_i hboth
            rw [Bool.and_eq_true] at hboth
            exact ⟨hboth.1, hpy', hnone.mp hboth.2⟩
          · exact absurd rfl h
        · intro h
          rw [if_pos (by rw [h.asset, hnone.mpr h.unmatched]; rfl)]
          exact List.cons_ne_nil _ _

end

variable {i : Input}

theorem mem_listed_scanned : ∀ f ∈ i.graph, isScanned f.path = true :=
  fun _ hf => (List.mem_filter.mp hf).2

theorem any_guard {g : Graph} {test : String} :
    (g.info test).any (fun f => f.tree.any Tree.guard) = true ↔ IsGuard g test := Option.any_eq_true _ _

theorem mem_guardReasons {g : Graph} {test : String} (htest : test ∈ g.testPaths) :
    test ∈ (guardReasons g).map Prod.fst ↔ IsGuard g test := by
  rw [guardReasons, mem_fst_map, List.mem_filter, any_guard]
  exact and_iff_right htest

theorem mode_full_iff (i : Input) : (selectAffected i).mode = .full ↔ RunsAll i := by
  unfold selectAffected RunsAll
  by_cases hlisted : i.listed = []
  · rw [if_pos hlisted]
    unfold selectRepositoryGuardsWithoutGraph
    cases i.guardScanFails with
    | some exc => simp [hlisted]
    | none =>
      simp only [hlisted, Option.isSome_none, ne_eq, not_true_eq_false, Bool.false_eq_true, and_false, false_and,
        or_self, iff_false]
      split <;> nofun
  · rw [if_neg hlisted]
    cases i.buildFails with
    | some exc => simp [hlisted]
    | none =>
      have hescalations : (gather i).escalations ≠ [] ↔ ∃ path ∈ i.listed, Escalates i.graph path := by
        simp only [gather, ne_eq, List.flatMap_eq_nil_iff, not_forall, exists_prop, ← escalates_iff]
      simp only [hlisted, Option.isSome_none, ne_eq, not_false_eq_true, Bool.false_eq_true, false_and, true_and,
        false_or]
      rw [← hescalations]
      by_cases hnil : (gather i).escalations = []
      · simp only [hnil, ne_eq, not_true_eq_false, if_false, iff_false]
        split <;> nofun
      · simp only [hnil, ne_eq, not_false_eq_true, if_true]

theorem mem_tests_iff (hall : ¬ RunsAll i) {test : String} (htest : test ∈ i.graph.testPaths) :
    test ∈ (selectAffected i).tests ↔ Picked i test := by
  unfold selectAffected
  by_cases hlisted : i.listed = []
  · have hscan : i.guardScanFails = none := by
      cases hscan : i.guardScanFails with
      | none => rfl
      | some exc => exact absurd (.inl ⟨hlisted, by rw [hscan]; rfl⟩) hall
    have hempty : ∀ path, path ∉ i.listed := by
      intro path hpath
      rw [hlisted] at hpath
      cases hpath
    rw [if_pos hlisted, selectRepositoryGuardsWithoutGraph, hscan]
    simp only [(sortAsc_perm _ _).mem_iff, List.mem_filter, any_guard]
    constructor
    · rintro ⟨hregistered, hguard⟩
      exact .registered hlisted hregistered hguard
    · intro h
      cases h with
      | guard hne => exact absurd hlisted hne
      | registered _ hregistered hguard => exact ⟨hregistered, hguard⟩
      | listed hmem => exact absurd hmem (hempty _)
      | helper path hmem => exact absurd hmem (hempty path)
      | sees path hmem => exact absurd hmem (hempty path)
      | mentions path hmem => exact absurd hmem (hempty path)
      | policy path hmem => exact absurd hmem (hempty path)
  · have hbuild : i.buildFails = none := by
      cases hbuild : i.buildFails with
      | none => rfl
      | some exc => exact absurd (.inr ⟨hlisted, .inl (by rw [hbuild]; rfl)⟩) hall
    have hcalm : ∀ path ∈ i.listed, ¬ Escalates i.graph path :=
      fun path hpath h => hall (.inr ⟨hlisted, .inr ⟨path, hpath, h⟩⟩)
    have hnil : (gather i).escalations = [] := by
      rw [gather, List.flatMap_eq_nil_iff]
      intro path hpath
      by_contra hne
      exact hcalm path hpath (escalates_iff.mp hne)
    have hchanges : test ∈ (i.listed.flatMap fun path => (selectChange i.graph path).reasons).map Prod.fst ↔
        ∃ path ∈ i.listed, Affects i.graph path test := by
      rw [List.map_flatMap, List.mem_flatMap]
      refine exists_congr fun path => and_congr_right fun hpath => ?_
      exact mem_selectChange (hcalm path hpath) htest mem_listed_scanned
    rw [if_neg hlisted, hbuild]
    simp only [hnil, ne_eq, not_true_eq_false, if_false]
    rw [(sortAsc_perm _ _).mem_iff, List.mem_dedup, gather, List.map_append, List.mem_append,
      mem_guardReasons htest, hchanges]
    constructor
    · rintro (h | ⟨path, hpath, h⟩)
      · exact .guard hlisted h
      · cases h with
        | self heq => exact .listed (heq ▸ hpath)
        | helper hhelps hbeside => exact .helper path hpath hhelps hbeside
        | sees h => exact .sees path hpath h
        | mentions h => exact .mentions path hpath h
        | policy hworkflow hci => exact .policy path hpath hworkflow hci
    · intro h
      cases h with
      | guard _ h => exact .inl h
      | registered hnone => exact absurd hnone hlisted
      | listed hmem => exact .inr ⟨test, hmem, .self rfl⟩
      | helper path hmem hhelps hbeside => exact .inr ⟨path, hmem, .helper hhelps hbeside⟩
      | sees path hmem h => exact .inr ⟨path, hmem, .sees h⟩
      | mentions path hmem h => exact .inr ⟨path, hmem, .mentions h⟩
      | policy path hmem hworkflow hci => exact .inr ⟨path, hmem, .policy hworkflow hci⟩

def parsed (path : String) (nodes : List Node) : SourceFile := ⟨path, "", some { nodes := nodes }⟩

def conftestImports : Input where
  diff := ["core/line/gate.py"]
  repository := [parsed "core/line/gate.py" [], parsed "tests/conftest.py" [.imports ["core.line.gate"]],
    parsed "tests/test_a.py" []]

def relativeLiteral : Input where
  diff := ["core/plugin.py"]
  repository := [parsed "core/loader.py" [.importModule ".plugin" (some "core")], parsed "core/plugin.py" [],
    parsed "tests/test_a.py" [.imports ["core.loader"]]]

def unparsableImport : Input where
  diff := ["core/plugin.py"]
  repository := [⟨"core/loader.py", "", none⟩, parsed "core/plugin.py" [],
    parsed "tests/test_a.py" [.imports ["core.loader"]]]

def renamedModule : Input where
  diff := ["core/new.py"]
  repository := [parsed "core/new.py" [], parsed "tests/test_a.py" [.imports ["core.old"]]]

theorem not_safe_of_missed {changed : List String} (test path : String)
    (hfull : (selectAffected i).mode ≠ .full) (htest : test ∈ i.graph.testPaths)
    (hmissed : test ∉ (selectAffected i).tests) (hchanged : path ∈ changed)
    (hmodule : (changedModuleIdentity path).isSome = true) (hloads : Loads i.graph test path) :
    ¬ Safe i changed := by
  rintro (h | h)
  · exact hfull h
  · exact hmissed (h test htest (.inr ⟨path, hchanged, hmodule, hloads⟩))

theorem loads_module {test : String} (f : SourceFile) (name : String) (hf : f ∈ i.repository)
    (hscanned : isScanned f.path = true) (hloads : Loads i.graph test f.path) (hname : name ∈ f.asks)
    (hpackage : packageFile name ∉ i.graph.paths) : Loads i.graph test (moduleFile name) :=
  .imports (List.mem_filter.mpr ⟨hf, hscanned⟩) hloads hname (.inr ⟨rfl, fun _ => hpackage⟩)

end Affected
end Harness
end DarkFactory
