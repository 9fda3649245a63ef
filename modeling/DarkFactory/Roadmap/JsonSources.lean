import DarkFactory.Roadmap.Sources

/-!
# DarkFactory.Roadmap.JsonSources

The adapters of `core/roadmap/sources.py` for JSON documents: the demands of users and the approved manifest.

* `Python` — what they call: the JSON reader, `repr`, `lower`, the globs of arbitrary ids and the validation of what a
  manifest holds. Nothing is assumed of any of it.
* `UserDemandsRoadmapSource.toRoadmapSource` — its hash covers the document, not the reports it looks up.
* `JsonRoadmapSource.toRoadmapSource` — its hash covers the manifest, the plan and the reports: nothing is beside it.
-/

namespace DarkFactory
namespace Roadmap

/-- A number is kept as `str` prints it. -/
inductive Value where
  | null
  | bool (b : Bool)
  | number (text : String)
  | string (text : String)
  | list (values : List Value)
  | object (members : List (String × Value))

def Value.typeName : Value → String
  | .null => "NoneType"
  | .bool _ => "bool"
  | .number _ => "int"
  | .string _ => "str"
  | .list _ => "list"
  | .object _ => "dict"

def Value.text? : Value → Option String
  | .string text => some text
  | _ => none

def Value.members? : Value → Option (List (String × Value))
  | .object members => some members
  | _ => none

/-- `bool(value)`. -/
def Value.truthy : Value → Bool
  | .null => false
  | .bool b => b
  | .number text => text ≠ "0" && text ≠ "0.0" && text ≠ "-0.0"
  | .string text => text ≠ ""
  | .list values => !values.isEmpty
  | .object members => !members.isEmpty

def get (raw : List (String × Value)) (key : String) (default : Value) : Value :=
  ((raw.find? fun m => m.1 = key).map Prod.snd).getD default

/-- What `for x in value` goes through. -/
def Value.iterate : Value → Except SourceError (List Value)
  | .list values => .ok values
  | .object members => .ok (members.map fun m => .string m.1)
  | .string text => .ok (text.toList.map fun ch => .string ch.toString)
  | value => .error (.raised s!"'{value.typeName}' object is not iterable")

/-- A manifest item after `normalized_raw.update`: `raw`, and what takes the place of its members. -/
structure Normalized where
  raw : List (String × Value)
  planningStatus : Option String
  implementationStatus : Option String
  operationalStatus : Option String
  evidenceRefs : Option (List RoadmapEvidenceRef)
  /-- the item is planned and has verified evidence -/
  completed : Bool
  /-- none when the item brings its own -/
  sourceRef : Option RoadmapSourceRef
  sourceRevision : Option Revision
  sourceId : String
  sourcePriority : Int

structure Python where
  loads : String → Except String Value
  repr : Value → String
  lower : String → String
  /-- the text of what `glob` raises on a pattern -/
  globRefuses : String → Option String
  /-- those of the names of a directory that a pattern matches, sorted -/
  glob : List String → String → List String
  validateRef : Value → Option RoadmapEvidenceRef
  validateCandidate : Normalized → Option RoadmapCandidate

def Python.str (python : Python) : Value → String
  | .string text => text
  | value => python.repr value

theorem mapM_congr {α β ε : Type} {f g : α → Except ε β} {l : List α} (h : ∀ a ∈ l, f a = g a) :
    l.mapM f = l.mapM g := by
  induction l with
  | nil => rfl
  | cons a l ih =>
    rw [List.mapM_cons, List.mapM_cons, h a List.mem_cons_self, ih fun b hb => h b (List.mem_cons_of_mem _ hb)]

structure UserDemandsRoadmapSource where
  path : String
  evidenceDir : Option String := none
  sourceId : String := "user-demands"
  label : String := "Demandas de Usuários"
  priority : Int := 15

/-- `" -> ".join(values)`. -/
def joinTexts (separator : String) (values : List Value) : Except SourceError String :=
  match values.findIdx? fun value => value.text?.isNone with
  | some i =>
    .error (.raised s!"sequence item {i}: expected str instance, {(values.getD i .null).typeName} found")
  | none => .ok (separator.intercalate (values.filterMap Value.text?))

def named {α : Type} (value : α → String) (all : List α) (default : α) (raw : Value) : α :=
  (raw.text?.bind (member value all)).getD default

def allStatuses : List DeliveryStatus :=
  [.discovered, .accepted, .planned, .implementing, .validating, .completed, .cancelled, .waitingHuman]

def allItemTypes : List RoadmapItemType :=
  [.epic, .feature, .infrastructure, .research, .quality, .security, .documentation, .operations]

def allStages : List LifecycleStage := [.foundations, .execution, .nextSteps, .future]

def allHorizons : List PlanningHorizon := [.now, .next, .later, .exploratory, .unscheduled]

def textsOf (values : List Value) : Option (List String) :=
  if values.all fun value => value.text?.isSome then some (values.filterMap Value.text?) else none

def Value.items (value : Value) : List Value :=
  match value with
  | .list values => values
  | _ => []

namespace UserDemandsRoadmapSource

variable (s : UserDemandsRoadmapSource) (python : Python)

def adapter : Adapter := ⟨s.path, s.evidenceDir, s.sourceId, s.label, s.priority⟩

def pattern (itemId : String) : String := s!"{python.lower itemId}-*-report.md"

def evidenceRefs (files : Files) (itemId : String) : List RoadmapEvidenceRef :=
  match s.evidenceDir with
  | none => []
  | some directory =>
    (python.glob (((files.directory directory).getD []).map Prod.fst) (pattern python itemId)).map
      (reportRef directory itemId)

/-- What looking for the reports of an id raises. -/
def evidenceError (itemId : Value) : Option SourceError :=
  match s.evidenceDir, itemId with
  | none, _ => none
  | some _, .string itemId => (python.globRefuses (pattern python itemId)).map SourceError.raised
  | some _, value => some (.raised s!"'{value.typeName}' object has no attribute 'lower'")

def description (raw : List (String × Value)) : Except SourceError String :=
  let problem := python.str (get raw "problem_statement" (.string ""))
  let journey := get raw "core_journey" (.list [])
  let nonGoals := get raw "non_goals" (.list [])
  let nonGoalsStr :=
    match nonGoals with
    | .list values => "\n".intercalate (values.map fun value => "- " ++ python.str value)
    | value => python.str value
  let journeyStr :=
    match journey with
    | .list values => joinTexts " -> " values
    | value => .ok (python.str value)
  journeyStr.map fun journeyStr => Text.strip
    s!"Problema: {problem}\n\nJornada Principal: {journeyStr}\n\nNon-Goals:\n{nonGoalsStr}"

def dependencies (raw : List (String × Value)) : Except SourceError (List RoadmapDependency) :=
  (get raw "dependencies" (.list [])).iterate.map fun values =>
    (values.filterMap Value.text?).filterMap fun itemId =>
      if Text.strip itemId = "" then none
      else some { itemId := itemId, type := .requires, label := some "Dependência da demanda" }

def tags (raw : List (String × Value)) : List Value :=
  let tags := (get raw "tags" (.list [])).items
  if tags.any fun tag => tag.text? = some "user-demand" then tags else .string "user-demand" :: tags

def toCandidate (project : String) (hash : Revision) (evidenceOf : String → List RoadmapEvidenceRef)
    (raw : List (String × Value)) : Except SourceError RoadmapCandidate := do
  let rawId := get raw "id" (.string "")
  let shown := python.str rawId
  let evidence := (rawId.text?.map evidenceOf).getD []
  let description ← description python raw
  let dependencies ← dependencies raw
  let invalid : Except SourceError RoadmapCandidate := .error (.invalid "RoadmapCandidate" shown)
  match s.evidenceError python rawId with
  | some error => .error error
  | none =>
    match rawId.text?, textsOf (tags raw), textsOf (get raw "acceptance_criteria" (.list [])).items with
    | some itemId, some tags, some criteria =>
      if project = "" then invalid
      else
        let status := named DeliveryStatus.value allStatuses .planned (get raw "status" (.string "planned"))
        let status := if evidence ≠ [] ∧ status = .planned then .completed else status
        .ok
          { id := itemId
            projectId := project
            title := itemId ++ " — " ++ python.str (get raw "title" (.string ""))
            description := description
            stateRationale := s!"Demanda de usuário registrada no backlog com status {status.value}."
            itemType := named RoadmapItemType.value allItemTypes .feature (get raw "item_type" (.string "feature"))
            lifecycleStage :=
              named LifecycleStage.value allStages .execution (get raw "lifecycle_stage" (.string "execution"))
            deliveryStatus := status
            horizon := named PlanningHorizon.value allHorizons .now (get raw "horizon" (.string "now"))
            confidence := .high
            dependencies := dependencies
            tags := tags
            completionCriteria := criteria
            sourceRefs := [s.adapter.sourceRef itemId hash "user"]
            evidenceRefs := evidence
            sourceRevision := hash
            sourceId := s.sourceId
            sourcePriority := s.priority }
    | _, _, _ => invalid

def ofProject (project : String) (raw : Value) : Option (List (String × Value)) :=
  raw.members?.bind fun members =>
    if (get members "project_id" (.string "darkfac")).text? = some project then some members else none

def demands (project content : String) : Except SourceError (List (List (String × Value))) := do
  let rawData ← if Text.strip content = "" then .ok (.list []) else (python.loads content).mapError SourceError.raised
  let itemsList ←
    match rawData with
    | .list values => .ok (.list values)
    | .object members => .ok (get members "demands" (.list []))
    | value => .error (.raised s!"'{value.typeName}' object has no attribute 'get'")
  let raws ← itemsList.iterate
  .ok (raws.filterMap (ofProject project))

def records (files : Files) (project content : String) : Except SourceError (List RoadmapCandidate) :=
  match demands python project content with
  | .error error => .error error
  | .ok raws => raws.mapM (s.toCandidate python project (.document content) (s.evidenceRefs python files))

def read (files : Files) (project : String) : RoadmapSourceResult :=
  match files.document s.path with
  | .missing => ⟨s.adapter.state .available (some (.given "")) none, []⟩
  | .unreadable text => s.adapter.unavailable (.raised text)
  | .text content => s.adapter.result (.document content) (s.records python files project content)

def ticketId (raw : List (String × Value)) : Option String := (get raw "id" (.string "")).text?

def beside (files : Files) (project : String) : List (List RoadmapEvidenceRef) :=
  match files.document s.path with
  | .text content =>
    match demands python project content with
    | .ok raws => (raws.filterMap ticketId).map (s.evidenceRefs python files)
    | .error _ => []
  | _ => []

theorem toCandidate_congr {project : String} {hash : Revision} {f g : String → List RoadmapEvidenceRef}
    {raw : List (String × Value)} (h : ∀ itemId, ticketId raw = some itemId → f itemId = g itemId) :
    s.toCandidate python project hash f raw = s.toCandidate python project hash g raw := by
  have hrefs : (get raw "id" (.string "")).text?.map f = (get raw "id" (.string "")).text?.map g := by
    cases hid : (get raw "id" (.string "")).text? with
    | none => rfl
    | some itemId => exact congrArg some (h itemId hid)
  unfold toCandidate
  simp only [hrefs]

theorem records_congr {files files' : Files} {project content : String}
    (h : ∀ raws, demands python project content = .ok raws → (raws.filterMap ticketId).map (s.evidenceRefs python files) =
      (raws.filterMap ticketId).map (s.evidenceRefs python files')) :
    s.records python files project content = s.records python files' project content := by
  unfold records
  cases hraws : demands python project content with
  | error error => rfl
  | ok raws =>
    have hrefs := List.map_inj_left.mp (h raws hraws)
    refine mapM_congr fun raw hraw => s.toCandidate_congr python fun itemId hid => ?_
    exact hrefs itemId (List.mem_filterMap.mpr ⟨raw, hraw, hid⟩)

theorem read_available {s : UserDemandsRoadmapSource} {python : Python} {files : Files} {project : String}
    (h : (s.read python files project).state.status = .available) :
    (files.document s.path = .missing ∧ (s.read python files project).state.contentHash = some (.given "") ∧
        (s.read python files project).records = []) ∨
      ∃ content, files.document s.path = .text content ∧
        (s.read python files project).state.contentHash = some (.document content) ∧
        s.records python files project content = .ok (s.read python files project).records := by
  unfold read at h ⊢
  split at h
  · rename_i hdocument
    rw [hdocument]
    exact Or.inl ⟨rfl, rfl, rfl⟩
  · cases h
  · rename_i content hcontent
    simp only [hcontent]
    exact Or.inr ⟨content, rfl, Adapter.result_available h⟩

def toRoadmapSource : RoadmapSource where
  sourceId := s.sourceId
  priority := s.priority
  read := s.read python
  beside := s.beside python
  named := by
    intro files project
    unfold read
    split
    · rfl
    · rfl
    · exact Adapter.result_sourceId ..
  determined := by
    intro files files' project havailable hentry hbeside
    have havailable' : (s.read python files' project).state.status = .available :=
      (congrArg FingerprintEntry.status hentry).symm.trans havailable
    have hhash : (s.read python files project).state.contentHash = (s.read python files' project).state.contentHash :=
      congrArg FingerprintEntry.contentHash hentry
    rcases read_available havailable with ⟨-, hhash₁, hrecords⟩ | ⟨content, hcontent, hhash₁, hrecords⟩
    · rcases read_available havailable' with ⟨-, -, hrecords'⟩ | ⟨content', -, hhash₂, -⟩
      · exact hrecords.trans hrecords'.symm
      · rw [hhash₁, hhash₂] at hhash
        cases hhash
    · rcases read_available havailable' with ⟨-, hhash₂, -⟩ | ⟨content', hcontent', hhash₂, hrecords'⟩
      · rw [hhash₁, hhash₂] at hhash
        cases hhash
      · rw [hhash₁, hhash₂] at hhash
        cases hhash
        simp only [beside, hcontent, hcontent'] at hbeside
        have hcongr : s.records python files project content = s.records python files' project content := by
          refine s.records_congr python fun raws hraws => ?_
          simpa only [hraws] using hbeside
        rw [hcongr, hrecords'] at hrecords
        exact (Except.ok.inj hrecords).symm

end UserDemandsRoadmapSource

structure Receipt where
  subject : String
  receiptId : Option String := none
  passed : Bool
  verified : Bool := true
  locator : Option String := none
  observedAt : Option String := none

structure JsonRoadmapSource where
  path : String
  evidenceDir : Option String := none
  planPath : Option String := none
  receipts : List Receipt := []
  sourceId : String := "approved-roadmap"
  label : String := "Roadmap operacional aprovado"
  priority : Int := 10

/-- `re.match(r"^\d{1,3}(?:-|_|\.|$)", text)`. -/
def startsWithTicketNumber (cs : List Char) : Bool :=
  let digits := cs.takeWhile isDigit
  0 < digits.length && digits.length ≤ 3 &&
    match (cs.dropWhile isDigit).head? with
    | none => true
    | some ch => ch = '-' || ch = '_' || ch = '.'

def isReportForTicket (python : Python) (reportName ticketId : String) : Bool :=
  let slug := Text.strip (python.lower ticketId)
  let name := Text.strip (python.lower reportName)
  if !(Text.endsWith name "-report.md" || Text.endsWith name ".md") then false
  else if name = s!"{slug}-report.md" then true
  else if !Text.startsWith name s!"{slug}-" then false
  else !startsWithTicketNumber (name.toList.drop (slug.toList.length + 1))

def operationalReport : String := "roadmap-operacional-report.md"

namespace JsonRoadmapSource

variable (s : JsonRoadmapSource) (python : Python)

def adapter : Adapter := ⟨s.path, s.evidenceDir, s.sourceId, s.label, s.priority⟩

/-- `_evidence_files`, with their bytes. -/
def evidenceFiles (files : Files) : List (String × String) :=
  match s.evidenceDir with
  | none => []
  | some directory =>
    sortAsc Prod.fst (((files.directory directory).getD []).filter fun file =>
      Text.fnmatch "*-report.md".toList file.1.toList)

def planContent (files : Files) : Option String :=
  match s.planPath.map files.document with
  | some (.text content) => some content
  | _ => none

/-- `plan_units`: of two units of one ticket the last counts. -/
def planUnit (plan : Option String) (itemId : String) : Option (List (String × Value)) :=
  match plan.map python.loads with
  | some (.ok (.object planData)) =>
    match (get planData "units" (.list [])).iterate with
    | .ok units => (units.filterMap Value.members?).reverse.find? fun u =>
        (u.find? fun m => m.1 = "ticket_id").any fun m => Text.strip (python.str m.2) = itemId
    | .error _ => none
  | _ => none

def receiptRef (itemId : String) (r : Receipt) : RoadmapEvidenceRef :=
  let receiptId := r.receiptId.getD s!"receipt-{itemId}"
  { evidenceId := s!"receipt:{itemId}:{receiptId}"
    evidenceKind := "verified_receipt"
    label := s!"Recibo verificado {itemId}"
    locator := r.locator.getD s!"receipt://{receiptId}"
    observedAt := r.observedAt
    verified := r.verified && r.passed }

def documentRef (directory itemId name : String) : RoadmapEvidenceRef where
  evidenceId := s!"doc:{itemId}:{name}"
  evidenceKind := "documentary_unverified"
  label := s!"Relatório documental não verificado {itemId}"
  locator := s!"{directory}/{name}"
  verified := false

/-- `_evidence_refs`, for the names of the evidence files. The operational report is one of these when it exists. -/
def evidenceRefs (reports : List String) (itemId : String) : List RoadmapEvidenceRef :=
  if itemId = "" then []
  else
    let receipts := (s.receipts.filter fun r => r.subject = itemId).map (receiptRef itemId)
    match s.evidenceDir with
    | none => receipts
    | some directory =>
      let matching := reports.filter fun name => isReportForTicket python name itemId
      let isRm := itemId ∈ (List.range' 1 7).map fun number => "RM-" ++ Text.decimal 2 number
      let matching :=
        if isRm ∧ operationalReport ∈ reports ∧ operationalReport ∉ matching then matching ++ [operationalReport]
        else matching
      receipts ++ (sortAsc id matching).map fun name =>
        if Text.startsWith itemId "HF-" then documentRef directory itemId name else reportRef directory itemId name

/-- `raw.get("evidence_refs") or []`, each one validated. -/
def ownRefs (raw : List (String × Value)) (itemId : String) : Except SourceError (List RoadmapEvidenceRef) := do
  let value := get raw "evidence_refs" .null
  let values ← if value.truthy then value.iterate else .ok []
  values.mapM fun ref =>
    match python.validateRef ref with
    | some ref => .ok ref
    | none => .error (.invalid "RoadmapEvidenceRef" itemId)

def toCandidate (hash : Revision) (plan : Option String) (reports : List String) (value : Value) :
    Except SourceError RoadmapCandidate :=
  match value.members? with
  | none => .error (.raised "every roadmap item must be an object")
  | some raw => do
    let itemId := Text.strip (python.str (get raw "id" (.string "")))
    let unit := (planUnit python plan itemId).getD []
    let status (key : String) : Option String :=
      if (get unit key .null).truthy then some (python.str (get unit key .null)) else none
    let own ← ownRefs python raw itemId
    let evidence := own ++ s.evidenceRefs python reports itemId
    let normalized : Normalized :=
      { raw := raw
        planningStatus := status "planning_status"
        implementationStatus := status "implementation_status"
        operationalStatus := status "operational_status"
        evidenceRefs := if evidence = [] then none else some evidence
        completed := (get raw "delivery_status" .null).text? = some DeliveryStatus.planned.value &&
          evidence.any fun ref => ref.verified
        sourceRef :=
          if (get raw "source_refs" .null).truthy then none
          else some { sourceId := s.sourceId, sourceKind := "document", label := s.label, locator := s.path,
                      revision := some hash, producedBy := some "roadmap-manifest" }
        sourceRevision := if (get raw "source_revision" .null).truthy then none else some hash
        sourceId := s.sourceId
        sourcePriority := s.priority }
    match python.validateCandidate normalized with
    | some candidate => .ok candidate
    | none => .error (.invalid "RoadmapCandidate" itemId)

def records (project content : String) (plan : Option String) (evidence : List (String × String)) :
    Except SourceError (List RoadmapCandidate) :=
  match python.loads content with
  | .error text => .error (.raised text)
  | .ok (.object payload) =>
    let manifestProject := get payload "project_id" .null
    if manifestProject.text? ≠ some project then
      .error (.raised s!"source project mismatch: expected {project}, got {python.str manifestProject}")
    else
      match get payload "items" (.list []) with
      | .list rawItems =>
        rawItems.mapM (s.toCandidate python (.manifest content plan evidence) plan (evidence.map Prod.fst))
      | _ => .error (.raised "manifest items must be a list")
  | .ok _ => .error (.raised "manifest must be a JSON object")

def read (files : Files) (project : String) : RoadmapSourceResult :=
  match files.document s.path with
  | .missing => s.adapter.unavailable (.notFound s.path)
  | .unreadable text => s.adapter.unavailable (.raised text)
  | .text content =>
    let plan := s.planContent files
    let evidence := s.evidenceFiles files
    s.adapter.result (.manifest content plan evidence) (s.records python project content plan evidence)

theorem read_available {s : JsonRoadmapSource} {python : Python} {files : Files} {project : String}
    (h : (s.read python files project).state.status = .available) :
    ∃ content plan evidence,
      (s.read python files project).state.contentHash = some (.manifest content plan evidence) ∧
      s.records python project content plan evidence = .ok (s.read python files project).records := by
  unfold read at h ⊢
  split at h
  · cases h
  · cases h
  · rename_i content _
    exact ⟨content, _, _, Adapter.result_available h⟩

def toRoadmapSource : RoadmapSource where
  sourceId := s.sourceId
  priority := s.priority
  read := s.read python
  beside := fun _ _ => []
  named := by
    intro files project
    unfold read
    split
    · rfl
    · rfl
    · exact Adapter.result_sourceId ..
  determined := by
    intro files files' project havailable hentry _
    have havailable' : (s.read python files' project).state.status = .available :=
      (congrArg FingerprintEntry.status hentry).symm.trans havailable
    have hhash : (s.read python files project).state.contentHash = (s.read python files' project).state.contentHash :=
      congrArg FingerprintEntry.contentHash hentry
    obtain ⟨content, plan, evidence, hhash₁, hrecords⟩ := read_available havailable
    obtain ⟨content', plan', evidence', hhash₂, hrecords'⟩ := read_available havailable'
    rw [hhash₁, hhash₂] at hhash
    cases hhash
    exact Except.ok.inj (hrecords.symm.trans hrecords')

end JsonRoadmapSource

end Roadmap
end DarkFactory
