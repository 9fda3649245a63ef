import DarkFactory.Python.Digits
import DarkFactory.Python.Text
import DarkFactory.Roadmap.Checker

/-!
# DarkFactory.Roadmap.Sources

The adapters of `core/roadmap/sources.py`, and the development plan among them.

* `Files` — what the adapters read: the texts of documents, and the files of the evidence directories.
* `RoadmapSource` — an adapter, with what its records are made from beside the content it hashes. Every adapter is
  one (at worst all it reads is beside), and the smaller that part, the more a cache may rely on its hash.
* `parseRows`, `parseDependencies` — the table of the development plan. `\d` matches the decimal digits of Unicode.
* `MarkdownDevelopmentPlanSource.toRoadmapSource` — its hash covers the document, not the reports it looks up.
-/

namespace DarkFactory
namespace Roadmap

/-- What `read_text` of a path gives. -/
inductive Document where
  | missing
  | unreadable (text : String)
  | text (content : String)
deriving DecidableEq

structure Files where
  document : String → Document
  /-- the names and bytes of the regular files of a directory; none when it does not exist -/
  directory : String → Option (List (String × String))

structure RoadmapSourceResult where
  state : RoadmapSourceState
  records : List RoadmapCandidate

def RoadmapSourceState.entry (state : RoadmapSourceState) : FingerprintEntry where
  sourceId := state.sourceId
  status := state.status
  revision := state.revision
  contentHash := state.contentHash
  error := state.error

structure RoadmapSource where
  sourceId : String
  priority : Int
  read : Files → String → RoadmapSourceResult
  /-- what is looked up for the records of a project and not hashed -/
  beside : Files → String → List (List RoadmapEvidenceRef)
  named : ∀ files project, (read files project).state.sourceId = sourceId
  determined : ∀ files files' project, (read files project).state.status = .available →
    (read files project).state.entry = (read files' project).state.entry →
    beside files project = beside files' project → (read files project).records = (read files' project).records

structure Adapter where
  path : String
  evidenceDir : Option String := none
  sourceId : String
  label : String
  priority : Int

def Adapter.state (a : Adapter) (status : SourceStatus) (hash : Option Revision) (error : Option SourceError) :
    RoadmapSourceState where
  sourceId := a.sourceId
  label := a.label
  sourceKind := "document"
  locator := a.path
  status := status
  revision := hash
  contentHash := hash
  error := error

def Adapter.unavailable (a : Adapter) (error : SourceError) : RoadmapSourceResult :=
  ⟨a.state .unavailable none (some error), []⟩

def Adapter.result (a : Adapter) (hash : Revision) (records : Except SourceError (List RoadmapCandidate)) :
    RoadmapSourceResult :=
  match records with
  | .ok records => ⟨a.state .available (some hash) none, records⟩
  | .error error => a.unavailable error

def Adapter.sourceRef (a : Adapter) (itemId : String) (hash : Revision) (producedBy : String) : RoadmapSourceRef where
  sourceId := a.sourceId
  sourceKind := "document"
  label := s!"{a.label} — {itemId}"
  locator := s!"{a.path}#{itemId}"
  revision := some hash
  producedBy := some producedBy

@[simp] theorem Adapter.result_sourceId (a : Adapter) (hash : Revision)
    (records : Except SourceError (List RoadmapCandidate)) : (a.result hash records).state.sourceId = a.sourceId := by
  cases records <;> rfl

theorem Adapter.result_available {a : Adapter} {hash : Revision} {records : Except SourceError (List RoadmapCandidate)}
    (h : (a.result hash records).state.status = .available) :
    (a.result hash records).state.contentHash = some hash ∧ records = .ok (a.result hash records).records := by
  cases records with
  | ok records => exact ⟨rfl, rfl⟩
  | error error => cases h

def reportRef (directory itemId name : String) : RoadmapEvidenceRef where
  evidenceId := s!"report:{itemId}:{name}"
  evidenceKind := "implementation_report"
  label := s!"Relatório de implementação {itemId}"
  locator := s!"{directory}/{name}"

/-- `sorted(directory.glob(pattern))`, for a pattern of literals and `*`. -/
def glob (files : Files) (directory pattern : String) : List String :=
  let names := ((files.directory directory).getD []).map Prod.fst
  sortAsc id (names.filter fun name => Text.fnmatch pattern.toList name.toList)

def isDigit (c : Char) : Bool := (Text.digitValue c).isSome

/-- `re.fullmatch(r"DF-\d{2}", text)`. -/
def isDfId (text : String) : Bool :=
  match text.toList with
  | ['D', 'F', '-', c, d] => isDigit c && isDigit d
  | _ => false

def stripChars (p : Char → Bool) (text : String) : String :=
  String.ofList (((text.toList.dropWhile p).reverse.dropWhile p).reverse)

def rstripChars (p : Char → Bool) (text : String) : String :=
  String.ofList ((text.toList.reverse.dropWhile p).reverse)

structure PlanRow where
  itemId : String
  scope : String
  dependenciesText : String
  acceptance : String
deriving DecidableEq

def parseRow (line : String) : Option PlanRow :=
  let line := Text.strip line
  if Text.startsWith line "|" then
    match (Text.split '|' (stripChars (· = '|') line)).map Text.strip with
    | [itemId, scope, dependencies, acceptance] =>
      if isDfId itemId then some ⟨itemId, scope, dependencies, acceptance⟩ else none
    | _ => none
  else none

def parseRows (content : String) : List PlanRow := (Text.splitlines content).filterMap parseRow

/-- `\d{1,2}` at the start of a run of digits that is no longer. -/
def shortNumber (cs : List Char) : Option (Nat × List Char) :=
  let digits := cs.takeWhile isDigit
  if digits.length ≤ 2 then (Text.parseDigits digits).map fun n => (n, cs.dropWhile isDigit) else none

def isDash (c : Char) : Bool := c = '–' || c = '-'

/-- `\d{1,2}\s*[–-]\s*\d{1,2}(?!\d)` at the start of a text. -/
def dashRange (cs : List Char) : Option ((Nat × Nat) × List Char) :=
  match shortNumber cs with
  | none => none
  | some (first, rest) =>
    match rest.dropWhile Text.isSpace with
    | [] => none
    | c :: rest =>
      if isDash c then (shortNumber (rest.dropWhile Text.isSpace)).map fun last => ((first, last.1), last.2) else none

/-- The ranges of a text and what is left without them; `inRun` when a digit comes before. -/
def splitRanges : Nat → Bool → List Char → List (Nat × Nat) × List Char
  | 0, _, cs => ([], cs)
  | _ + 1, _, [] => ([], [])
  | fuel + 1, inRun, c :: cs =>
    match if inRun then none else dashRange (c :: cs) with
    | some (range, rest) =>
      let (ranges, left) := splitRanges fuel true rest
      (range :: ranges, left)
    | none =>
      let (ranges, left) := splitRanges fuel (isDigit c) cs
      (ranges, c :: left)

/-- The runs of digits of a text of which `run` has been read. -/
def digitRuns : List Char → List Char → List (List Char)
  | run, [] => [run]
  | run, c :: cs => if isDigit c then digitRuns (run ++ [c]) cs else run :: digitRuns [] cs

/-- `re.findall(r"(?<!\d)\d{1,2}(?!\d)", text)`, as numbers. -/
def shortNumbers (cs : List Char) : List Nat :=
  ((digitRuns [] cs).filter fun run => run.length ≤ 2).filterMap Text.parseDigits

def dependencyNumbers (text : String) : List Nat :=
  let (ranges, left) := splitRanges text.toList.length false text.toList
  ranges.flatMap (fun range => List.range' range.1 (range.2 + 1 - range.1)) ++ shortNumbers left

def parseDependencies (value : String) : List RoadmapDependency :=
  let text := Text.strip value
  if text = "" ∨ text = "—" ∨ text = "-" then []
  else (sortAsc id (dependencyNumbers text).dedup).map fun number =>
    { itemId := "DF-" ++ Text.decimal 2 number
      type := .requires
      label := some "Dependência declarada no plano de desenvolvimento" }

structure MarkdownDevelopmentPlanSource where
  path : String
  evidenceDir : Option String := none
  sourceId : String := "development-plan"
  label : String := "Plano de desenvolvimento DF"
  priority : Int := 20

namespace MarkdownDevelopmentPlanSource

variable (s : MarkdownDevelopmentPlanSource)

def adapter : Adapter := ⟨s.path, s.evidenceDir, s.sourceId, s.label, s.priority⟩

def evidenceRefs (files : Files) (itemId : String) : List RoadmapEvidenceRef :=
  match s.evidenceDir with
  | none => []
  | some directory =>
    let ticketNumber := if Text.startsWith itemId "DF-" then String.ofList (itemId.toList.drop 3) else itemId
    (glob files directory s!"df-{ticketNumber}-*-report.md").map (reportRef directory itemId)

def toCandidate (project : String) (row : PlanRow) (hash : Revision) (evidence : List RoadmapEvidenceRef) :
    RoadmapCandidate :=
  let criterion := Text.strip row.acceptance
  let title := rstripChars (fun c => c = '.' || c = ' ') (Text.before criterion " python ")
  { id := row.itemId
    projectId := project
    title := row.itemId ++ " — " ++ (if title = "" then row.scope else title)
    description := s!"Escopo: {row.scope}\nCritério e validação propostos: {criterion}"
    stateRationale :=
      if evidence = [] then "O plano registra o ticket, mas não há relatório de implementação vinculado."
      else "Relatório de implementação vinculado ao ticket e usado como evidência de conclusão."
    itemType := .feature
    lifecycleStage := .execution
    deliveryStatus := if evidence = [] then .planned else .completed
    horizon := .now
    confidence := .unknown
    dependencies := parseDependencies row.dependenciesText
    tags := ["df-ticket", "development-plan"]
    completionCriteria := [criterion]
    sourceRefs := [s.adapter.sourceRef row.itemId hash "project-owner"]
    evidenceRefs := evidence
    sourceRevision := hash
    sourceId := s.sourceId
    sourcePriority := s.priority }

def records (files : Files) (project content : String) : Except SourceError (List RoadmapCandidate) :=
  match parseRows content with
  | [] => .error (.raised "development plan contains no DF ticket rows")
  | row :: rows =>
    if project = "" then .error (.invalid "RoadmapCandidate" row.itemId)
    else .ok ((row :: rows).map fun row =>
      s.toCandidate project row (.document content) (s.evidenceRefs files row.itemId))

def read (files : Files) (project : String) : RoadmapSourceResult :=
  match files.document s.path with
  | .missing => s.adapter.unavailable (.notFound s.path)
  | .unreadable text => s.adapter.unavailable (.raised text)
  | .text content => s.adapter.result (.document content) (s.records files project content)

def beside (files : Files) : List (List RoadmapEvidenceRef) :=
  match files.document s.path with
  | .text content => (parseRows content).map fun row => s.evidenceRefs files row.itemId
  | _ => []

theorem records_congr {files files' : Files} {project content : String}
    (h : ∀ row ∈ parseRows content, s.evidenceRefs files row.itemId = s.evidenceRefs files' row.itemId) :
    s.records files project content = s.records files' project content := by
  unfold records
  split
  · rfl
  · rename_i row rows hrows
    rw [hrows] at h
    split
    · rfl
    · refine congrArg Except.ok (List.map_congr_left fun row hrow => ?_)
      rw [h row hrow]

theorem read_available {s : MarkdownDevelopmentPlanSource} {files : Files} {project : String}
    (h : (s.read files project).state.status = .available) :
    ∃ content, files.document s.path = .text content ∧
      (s.read files project).state.contentHash = some (.document content) ∧
      s.records files project content = .ok (s.read files project).records := by
  unfold read at h ⊢
  split at h
  · cases h
  · cases h
  · rename_i content hcontent
    simp only [hcontent]
    exact ⟨content, rfl, Adapter.result_available h⟩

def toRoadmapSource : RoadmapSource where
  sourceId := s.sourceId
  priority := s.priority
  read := s.read
  beside := fun files _ => s.beside files
  named := by
    intro files project
    unfold read
    split
    · rfl
    · rfl
    · exact Adapter.result_sourceId ..
  determined := by
    intro files files' project havailable hentry hbeside
    have havailable' : (s.read files' project).state.status = .available :=
      (congrArg FingerprintEntry.status hentry).symm.trans havailable
    have hhash : (s.read files project).state.contentHash = (s.read files' project).state.contentHash :=
      congrArg FingerprintEntry.contentHash hentry
    obtain ⟨content, hcontent, hhash₁, hrecords⟩ := read_available havailable
    obtain ⟨content', hcontent', hhash₂, hrecords'⟩ := read_available havailable'
    rw [hhash₁, hhash₂] at hhash
    cases hhash
    simp only [beside, hcontent, hcontent'] at hbeside
    rw [s.records_congr (List.map_inj_left.mp hbeside), hrecords'] at hrecords
    exact (Except.ok.inj hrecords).symm

end MarkdownDevelopmentPlanSource

end Roadmap
end DarkFactory
