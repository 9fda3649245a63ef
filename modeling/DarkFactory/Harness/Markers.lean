import DarkFactory.Python.Text

/-!
# DarkFactory.Harness.Markers

`core/harness/markers.py`: the supervisor's markers, their removal from child output, and the parser that
binds them to the structured result.

* `Decoders` stands for what is read of a marker's value elsewhere: pydantic's validation of the result,
  and the digits of Unicode.
-/

namespace DarkFactory
namespace Harness

def MARKER_STEP_START : String := "[STEP_START]"
def MARKER_STEP_PASS : String := "[STEP_PASS]"
def MARKER_STEP_FAIL : String := "[STEP_FAIL]"
def MARKER_STEP_TIME : String := "[STEP_TIME]"
def MARKER_HARNESS_PASS : String := "[HARNESS_PASS]"
def MARKER_HARNESS_FAIL : String := "[HARNESS_FAIL]"
def MARKER_TEST_COUNT : String := "[TEST_COUNT]"
def MARKER_HARNESS_RESULT : String := "[HARNESS_RESULT]"

def SUPERVISOR_MARKERS : List String :=
  [MARKER_STEP_START, MARKER_STEP_PASS, MARKER_STEP_FAIL, MARKER_STEP_TIME, MARKER_HARNESS_PASS,
    MARKER_HARNESS_FAIL, MARKER_TEST_COUNT, MARKER_HARNESS_RESULT]

def childMarker (marker : String) : String := Text.replaceOnce marker "[" "[CHILD_"

def sanitizeChildOutput (output : String) : String :=
  SUPERVISOR_MARKERS.foldl (fun sanitized marker => Text.replace sanitized marker (childMarker marker))
    output

/-- The fields of `HarnessResult` that the parser reads. -/
structure HarnessResult where
  candidateSha : String
  configHash : String
  requiredSteps : List String
  startedSteps : List String
  passedSteps : List String
  failedSteps : List String
  discoveredCount : Nat
  passedCount : Nat
  skippedCount : Nat
  exitCodes : List (String × Int)
deriving DecidableEq

structure Decoders where
  /-- `HarnessResult.model_validate_json`, or the text of its error. -/
  modelValidateJson : String → Except String HarnessResult
  isdigit : String → Bool
  /-- `int(s)` of digits, or none where it raises `ValueError`. -/
  int : String → Option Nat

def payload (line marker : String) : Option String :=
  if Text.startsWith line (marker ++ " ") then
    some (Text.strip (String.ofList (line.toList.drop (marker.length + 1))))
  else none

/-- What the loop of `parse_harness_output` has gathered. -/
structure Gathered where
  started : List String := []
  passed : List String := []
  failed : List String := []
  counts : List Nat := []
  verdicts : List Bool := []
  results : List HarnessResult := []
  parseErrors : List String := []
deriving DecidableEq

def Gathered.readCount (d : Decoders) (g : Gathered) (value : String) : Option Gathered :=
  let digits := String.ofList (value.toList.drop 6)
  if Text.startsWith value "count=" && d.isdigit digits then
    (d.int digits).map fun n => { g with counts := g.counts ++ [n] }
  else some { g with parseErrors := g.parseErrors ++ ["Malformed TEST_COUNT marker"] }

def Gathered.readResult (d : Decoders) (g : Gathered) (value : String) : Gathered :=
  match d.modelValidateJson value with
  | .ok result => { g with results := g.results ++ [result] }
  | .error exc => { g with parseErrors := g.parseErrors ++ ["Invalid structured result: " ++ exc] }

/-- The body of the loop; none when it raises. -/
def readLine (d : Decoders) (g : Gathered) (rawLine : String) : Option Gathered :=
  let line := Text.strip rawLine
  match payload line MARKER_STEP_START with
  | some value => some { g with started := g.started ++ [value] }
  | none =>
  match payload line MARKER_STEP_PASS with
  | some value => some { g with passed := g.passed ++ [value] }
  | none =>
  match payload line MARKER_STEP_FAIL with
  | some value => some { g with failed := g.failed ++ [Text.before value " ("] }
  | none =>
  match payload line MARKER_TEST_COUNT with
  | some value => g.readCount d value
  | none =>
  match payload line MARKER_HARNESS_RESULT with
  | some value => some (g.readResult d value)
  | none =>
  if line = MARKER_HARNESS_PASS then some { g with verdicts := g.verdicts ++ [true] }
  else if line = MARKER_HARNESS_FAIL then some { g with verdicts := g.verdicts ++ [false] }
  else some g

structure Details where
  harnessVerdict : Option Bool
  isEmpty : Bool
  stepsStarted : List String
  stepsPassed : List String
  stepsFailed : List String
  totalTestsRun : Nat
  candidateSha : Option String
  configHash : Option String
deriving DecidableEq

structure ParsedOutput where
  valid : Bool
  reason : String
  details : Details
deriving DecidableEq

/-- `l[0] if len(l) == 1 else None`. -/
def only {α : Type} : List α → Option α
  | [a] => some a
  | _ => none

def Gathered.details (g : Gathered) : Details where
  harnessVerdict := only g.verdicts
  isEmpty := g.passed.isEmpty && g.failed.isEmpty
  stepsStarted := g.started
  stepsPassed := g.passed
  stepsFailed := g.failed
  totalTestsRun := (only g.counts).getD 0
  candidateSha := (only g.results).map HarnessResult.candidateSha
  configHash := (only g.results).map HarnessResult.configHash

/-- `set(a) == set(b)`. -/
def sameSet (a b : List String) : Bool := a.all (b.contains ·) && b.all (a.contains ·)

def Gathered.structuredMatches (g : Gathered) (result : HarnessResult) (count : Nat) : Bool :=
  decide (result.requiredSteps = g.started) && decide (result.startedSteps = g.started) &&
    decide (result.passedSteps = g.passed) && decide (result.failedSteps = g.failed) &&
    decide (result.discoveredCount = count) && sameSet (result.exitCodes.map Prod.fst) g.started &&
    g.passed.all (fun step => decide (result.exitCodes.lookup step = some 0)) &&
    decide (0 < result.passedCount) && decide (result.passedCount ≤ result.discoveredCount) &&
    decide (result.skippedCount ≤ result.discoveredCount)

/-- The checks of `parse_harness_output` in order: the reason of the first that fails. -/
def Gathered.invalidReason (g : Gathered) : Option String :=
  let completed := g.passed ++ g.failed
  match g.parseErrors with
  | error :: _ => some error
  | [] =>
  match only g.results with
  | none => some "Missing or duplicate structured HARNESS_RESULT evidence"
  | some result =>
  match (only g.counts).filter fun n => decide (0 < n) with
  | none => some "Test count must be positive and emitted exactly once"
  | some count =>
  if only g.verdicts ≠ some true then some "Missing or conflicting HARNESS_PASS marker"
  else if ¬ g.started.Nodup ∨ ¬ completed.Nodup then some "Step markers must be unique"
  else if completed.any fun step => !g.started.contains step then
    some "Every completed step must have been started"
  else if !sameSet g.started completed || !g.failed.isEmpty then
    some "Started steps must terminate successfully"
  else if !g.structuredMatches result count then
    some "Structured result does not match supervisor markers"
  else none

def Gathered.parsed (g : Gathered) : ParsedOutput where
  valid := g.invalidReason.isNone
  reason := g.invalidReason.getD "OK"
  details := g.details

/-- `parse_harness_output`; none when it raises. -/
def parseHarnessOutput (d : Decoders) (outputLines : List String) : Option ParsedOutput :=
  (outputLines.foldlM (readLine d) {}).map Gathered.parsed

theorem marker_shape : ∀ marker ∈ SUPERVISOR_MARKERS,
    ∃ c rest, marker.toList = '[' :: c :: rest ∧ c ≠ 'C' ∧ '[' ∉ c :: rest := by
  simp only [SUPERVISOR_MARKERS, List.forall_mem_cons, MARKER_STEP_START, MARKER_STEP_PASS, MARKER_STEP_FAIL,
    MARKER_STEP_TIME, MARKER_HARNESS_PASS, MARKER_HARNESS_FAIL, MARKER_TEST_COUNT, MARKER_HARNESS_RESULT]
  repeat rw [String.toList_ofList]
  refine ⟨?_, ?_, ?_, ?_, ?_, ?_, ?_, ?_, nofun⟩
  all_goals exact ⟨_, _, rfl, by decide, by decide⟩

theorem childMarker_toList {marker : String} {cs : List Char} (h : marker.toList = '[' :: cs) :
    (childMarker marker).toList = ['[', 'C', 'H', 'I', 'L', 'D', '_'] ++ cs := by
  unfold childMarker Text.replaceOnce
  repeat rw [String.toList_ofList]
  rw [h]
  rfl

theorem markers_open : ∀ marker ∈ SUPERVISOR_MARKERS,
    Escape.Opens '[' marker.toList ∧ Escape.Opens '[' (childMarker marker).toList := by
  intro marker hmarker
  obtain ⟨c, rest, hshape, -, hbracket⟩ := marker_shape marker hmarker
  rw [childMarker_toList hshape, hshape]
  refine ⟨⟨rfl, hbracket⟩, rfl, ?_⟩
  intro hmem
  rcases List.mem_append.mp (show '[' ∈ ['C', 'H', 'I', 'L', 'D', '_'] ++ c :: rest from hmem) with hchild | hrest
  · exact absurd hchild (by decide)
  · exact hbracket hrest

theorem markers_apart : ∀ marker ∈ SUPERVISOR_MARKERS, ∀ marker' ∈ SUPERVISOR_MARKERS,
    Escape.Apart marker.toList (childMarker marker').toList := by
  intro marker hmarker marker' hmarker'
  obtain ⟨c, rest, hshape, hc, -⟩ := marker_shape marker hmarker
  obtain ⟨c', rest', hshape', -, -⟩ := marker_shape marker' hmarker'
  rw [childMarker_toList hshape', hshape]
  constructor
  · intro hprefix
    exact hc (List.cons_prefix_cons.mp (List.cons_prefix_cons.mp hprefix).2).1
  · intro hprefix
    exact hc (List.cons_prefix_cons.mp (List.cons_prefix_cons.mp hprefix).2).1.symm

def markerRule (marker : {m // m ∈ SUPERVISOR_MARKERS}) : Escape.Rule '[' where
  old := marker.1.toList
  new := (childMarker marker.1).toList
  oldOpens := (markers_open marker.1 marker.2).1
  newOpens := (markers_open marker.1 marker.2).2

theorem markerRule_old (marker : {m // m ∈ SUPERVISOR_MARKERS}) : (markerRule marker).old = marker.1.toList := by
  simp only [markerRule]

theorem markerRule_new (marker : {m // m ∈ SUPERVISOR_MARKERS}) :
    (markerRule marker).new = (childMarker marker.1).toList := by
  simp only [markerRule]

def markerRules : List (Escape.Rule '[') := SUPERVISOR_MARKERS.attach.map markerRule

theorem rules_apart : ∀ r ∈ markerRules, ∀ r' ∈ markerRules, Escape.Apart r.old r'.new := by
  intro r hr r' hr'
  unfold markerRules at hr hr'
  obtain ⟨marker, -, rfl⟩ := List.mem_map.mp hr
  obtain ⟨marker', -, rfl⟩ := List.mem_map.mp hr'
  rw [markerRule_old, markerRule_new]
  exact markers_apart marker.1 marker.2 marker'.1 marker'.2

theorem foldl_replace_toList (markers : List String) (s : String) :
    (markers.foldl (fun t m => Text.replace t m (childMarker m)) s).toList =
      markers.foldl (fun t m => Escape.replace m.toList (childMarker m).toList t) s.toList := by
  induction markers generalizing s with
  | nil => rfl
  | cons m markers ih => rw [List.foldl_cons, List.foldl_cons, ih, Text.replace_toList]

theorem sanitize_toList (s : String) : (sanitizeChildOutput s).toList = Escape.replaceAll markerRules s.toList := by
  rw [sanitizeChildOutput, foldl_replace_toList, markerRules, Escape.replaceAll, List.foldl_map]
  simp only [markerRule_old, markerRule_new]
  exact (List.foldl_attach (f := fun t m => Escape.replace m.toList (childMarker m).toList t)).symm

theorem not_marker_of_sanitized {marker : String} (hm : marker ∈ SUPERVISOR_MARKERS) (s : String) :
    ¬ marker.toList <:+: (sanitizeChildOutput s).toList := by
  rw [sanitize_toList]
  exact Escape.not_infix_replaceAll rules_apart s.toList (markerRule ⟨marker, hm⟩)
    (List.mem_map.mpr ⟨_, List.mem_attach _ _, rfl⟩)

theorem sanitize_idem (s : String) : sanitizeChildOutput (sanitizeChildOutput s) = sanitizeChildOutput s := by
  rw [← String.toList_inj, sanitize_toList, sanitize_toList, Escape.replaceAll_idem rules_apart]

def ChildLine (line : String) : Prop := ∃ output, line.toList <:+: (sanitizeChildOutput output).toList

theorem childLine_of_splitlines {output line : String}
    (h : line ∈ Text.splitlines (sanitizeChildOutput output)) : ChildLine line :=
  ⟨output, Text.splitlines_infix h⟩

theorem not_marker_in_strip {line marker : String} (h : ChildLine line) (hm : marker ∈ SUPERVISOR_MARKERS) :
    ¬ marker.toList <:+: (Text.strip line).toList := by
  obtain ⟨output, hline⟩ := h
  intro hin
  rw [Text.strip_toList] at hin
  exact not_marker_of_sanitized hm output (hin.trans ((Text.stripList_infix _).trans hline))

theorem payload_child {line : String} (h : ChildLine line) (marker : String)
    (hm : marker ∈ SUPERVISOR_MARKERS) :
    payload (Text.strip line) marker = none := by
  refine if_neg fun hstart => not_marker_in_strip h hm ?_
  rw [Text.startsWith, List.isPrefixOf_iff_prefix, String.toList_append] at hstart
  exact List.IsInfix.trans (List.IsPrefix.isInfix (List.prefix_append _ _)) (List.IsPrefix.isInfix hstart)

theorem readLine_child {line : String} (h : ChildLine line) (d : Decoders) (g : Gathered) :
    readLine d g line = some g := by
  have hverdict : ∀ marker ∈ SUPERVISOR_MARKERS, Text.strip line ≠ marker := by
    rintro marker hm heq
    exact not_marker_in_strip h hm (heq ▸ List.infix_refl _)
  unfold readLine
  simp only [payload_child h MARKER_STEP_START (by simp [SUPERVISOR_MARKERS]),
    payload_child h MARKER_STEP_PASS (by simp [SUPERVISOR_MARKERS]),
    payload_child h MARKER_STEP_FAIL (by simp [SUPERVISOR_MARKERS]),
    payload_child h MARKER_TEST_COUNT (by simp [SUPERVISOR_MARKERS]),
    payload_child h MARKER_HARNESS_RESULT (by simp [SUPERVISOR_MARKERS]),
    if_neg (hverdict MARKER_HARNESS_PASS (by simp [SUPERVISOR_MARKERS])),
    if_neg (hverdict MARKER_HARNESS_FAIL (by simp [SUPERVISOR_MARKERS]))]

theorem foldlM_merged (d : Decoders) (g : Gathered) (merged : List (String ⊕ String))
    (hchild : ∀ line, Sum.inr line ∈ merged → ChildLine line) :
    (merged.map (Sum.elim id id)).foldlM (readLine d) g =
      (merged.filterMap Sum.getLeft?).foldlM (readLine d) g := by
  induction merged generalizing g with
  | nil => rfl
  | cons l merged ih =>
    have hrest := fun line hl => hchild line (List.mem_cons_of_mem _ hl)
    cases l with
    | inl line =>
      rw [List.map_cons, List.filterMap_cons_some (Sum.getLeft?_inl), List.foldlM_cons, List.foldlM_cons]
      exact bind_congr fun g' => ih g' hrest
    | inr line =>
      rw [List.map_cons, List.filterMap_cons_none (Sum.getLeft?_inr), List.foldlM_cons, Sum.elim_inr,
        id, readLine_child (hchild line List.mem_cons_self)]
      exact ih g hrest

/-- No sanitized text holds a marker, sanitizing it again leaves it as it is, and lines of such texts,
`inr` in `merged`, change nothing of what the parser makes of the supervisor's, `inl`. -/
theorem child_output_cannot_forge (d : Decoders) :
    (∀ s, ∀ marker ∈ SUPERVISOR_MARKERS, Text.contains marker (sanitizeChildOutput s) = false) ∧
    (∀ s, sanitizeChildOutput (sanitizeChildOutput s) = sanitizeChildOutput s) ∧
    ∀ merged : List (String ⊕ String), (∀ line, Sum.inr line ∈ merged → ChildLine line) →
      parseHarnessOutput d (merged.map (Sum.elim id id)) =
        parseHarnessOutput d (merged.filterMap Sum.getLeft?) := by
  refine ⟨fun s marker hm => Text.contains_eq_false.mpr (not_marker_of_sanitized hm s), sanitize_idem,
    fun merged hchild => ?_⟩
  rw [parseHarnessOutput, foldlM_merged d _ merged hchild]
  rfl

end Harness
end DarkFactory
