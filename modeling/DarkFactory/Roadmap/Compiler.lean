import DarkFactory.Roadmap.Sources

/-!
# DarkFactory.Roadmap.Compiler

`core/roadmap/compiler.py`: the snapshot of a project from what its sources record.

* `sourceFingerprint` — the payload that is hashed.
* `derive` — items and issues, which depend on the records alone. `derive_merges`: one item an identity, from all its
  records.
* `compile` — the previous snapshot when its fingerprint is the one of the sources now, else a new one.
* `derive_congr` — under equal fingerprints the items and issues differ at most by what the sources look up beside the
  content they hash.
-/

namespace DarkFactory
namespace Roadmap

structure RoadmapCompiler where
  sources : List RoadmapSource

/-- `RoadmapCompiler(sources)`. -/
def RoadmapCompiler.new (sources : List RoadmapSource) : RoadmapCompiler :=
  ⟨sortAsc (fun source => toLex (source.priority, source.sourceId)) sources⟩

namespace RoadmapCompiler

variable (c : RoadmapCompiler)

def sourceStates (files : Files) (project : String) : List RoadmapSourceState :=
  c.sources.map fun source => (source.read files project).state

def sourceRecords (files : Files) (project : String) : List RoadmapCandidate :=
  c.sources.flatMap fun source => (source.read files project).records.filter fun record => record.projectId = project

end RoadmapCompiler

def sourceFingerprint (states : List RoadmapSourceState) : List FingerprintEntry :=
  (sortAsc RoadmapSourceState.sourceId states).map RoadmapSourceState.entry

def sourcesUnavailable (states : List RoadmapSourceState) : List String :=
  sortAsc id ((states.filter fun state => state.status = .unavailable).map RoadmapSourceState.sourceId)

theorem sourcesUnavailable_eq_nil {states : List RoadmapSourceState} :
    sourcesUnavailable states = [] ↔ ∀ state ∈ states, state.status ≠ .unavailable := by
  rw [sourcesUnavailable, ← List.length_eq_zero_iff, (sortAsc_perm id _).length_eq, List.length_map,
    List.length_eq_zero_iff, List.filter_eq_nil_iff]
  simp

/-- The ASCII that `str.lower` makes of one character, or the character. -/
def lowerChar (ch : Char) : List Char :=
  match ch.toNat with
  | 0x212a => ['k']
  | 0x130 => ['i', Char.ofNat 0x307]
  | _ => [ch.toLower]

/-- `re.sub(r"[^a-z0-9]+", "-", title.lower())`; `gap` when the text so far ends in a replaced run. -/
def slugFrom : Bool → List Char → List Char
  | _, [] => []
  | gap, ch :: cs =>
    if ('a' ≤ ch ∧ ch ≤ 'z') ∨ ('0' ≤ ch ∧ ch ≤ '9') then ch :: slugFrom false cs
    else if gap then slugFrom true cs
    else '-' :: slugFrom true cs

def resolveIdentity (record : RoadmapCandidate) : String :=
  let id := Text.strip record.id
  if id ≠ "" then id
  else
    let slug := stripChars (· = '-') (String.ofList (slugFrom false (record.title.toList.flatMap lowerChar)))
    s!"{record.projectId}:" ++ if slug = "" then "item" else slug

def dedupeModels {α : Type} [DecidableEq α] (values : List α) : List α :=
  values.foldl (fun result value => if value ∈ result then result else result ++ [value]) []

theorem dedupeModels_perm {α : Type} [DecidableEq α] (values : List α) : (dedupeModels values).Perm values.dedup := by
  have h : (dedupeModels values).Nodup ∧ ∀ value, value ∈ dedupeModels values ↔ value ∈ values := by
    induction values using List.reverseRecOn with
    | nil => simp [dedupeModels]
    | append_singleton values last ih =>
      have hlast : dedupeModels (values ++ [last]) =
          if last ∈ dedupeModels values then dedupeModels values else dedupeModels values ++ [last] := by
        rw [dedupeModels, List.foldl_append]
        rfl
      rw [hlast]
      split <;> grind
  exact (List.perm_ext_iff_of_nodup h.1 values.nodup_dedup).mpr fun value => (h.2 value).trans List.mem_dedup.symm

def recordsAgree (first record : RoadmapCandidate) : Prop :=
  first.title = record.title ∧ first.description = record.description ∧
    first.stateRationale = record.stateRationale ∧ first.itemType = record.itemType ∧
    first.lifecycleStage = record.lifecycleStage ∧ first.deliveryStatus = record.deliveryStatus ∧
    first.horizon = record.horizon ∧ first.confidence = record.confidence ∧ first.parentId = record.parentId ∧
    first.plannedStart = record.plannedStart ∧ first.targetDate = record.targetDate ∧
    first.dependencies = record.dependencies ∧ first.completionCriteria = record.completionCriteria

instance (first record : RoadmapCandidate) : Decidable (recordsAgree first record) := by
  unfold recordsAgree
  infer_instance

def recordsConflict : List RoadmapCandidate → Bool
  | [] => false
  | first :: records => records.any fun record => ¬ recordsAgree first record

theorem recordsConflict_iff {records : List RoadmapCandidate} :
    recordsConflict records = true ↔ ∃ record ∈ records, ∃ record' ∈ records, ¬ recordsAgree record record' := by
  cases records with
  | nil => simp [recordsConflict]
  | cons first rest =>
    constructor
    · intro h
      obtain ⟨record, hrecord, hdiffer⟩ := List.any_eq_true.mp h
      exact ⟨first, List.mem_cons_self, record, List.mem_cons_of_mem _ hrecord, by simpa using hdiffer⟩
    · rintro ⟨record, hrecord, record', hrecord', hdiffer⟩
      by_contra hnone
      have hfirst : ∀ r ∈ first :: rest, recordsAgree first r := by
        simpa [recordsConflict, recordsAgree] using hnone
      have h := hfirst record hrecord
      have h' := hfirst record' hrecord'
      unfold recordsAgree at *
      grind

def mergeRecords (itemId : String) (selected : RoadmapCandidate) (records : List RoadmapCandidate) : RoadmapItem :=
  { selected.toRoadmapItem with
    id := itemId
    sourceRefs := dedupeModels (records.flatMap fun record => record.sourceRefs)
    evidenceRefs := dedupeModels (records.flatMap fun record => record.evidenceRefs) }

def recordsOf (records : List RoadmapCandidate) (itemId : String) : List RoadmapCandidate :=
  sortAsc (fun record => toLex (record.sourcePriority, record.sourceId))
    (records.filter fun record => resolveIdentity record = itemId)

def mergedItem (records : List RoadmapCandidate) (itemId : String) : Option RoadmapItem :=
  (recordsOf records itemId).head?.map fun selected => mergeRecords itemId selected (recordsOf records itemId)

theorem mergedItem_eq {records : List RoadmapCandidate} {itemId : String} (h : itemId ∈ records.map resolveIdentity) :
    ∃ selected ∈ recordsOf records itemId, (∀ record ∈ recordsOf records itemId,
      toLex (selected.sourcePriority, selected.sourceId) ≤ toLex (record.sourcePriority, record.sourceId)) ∧
      mergedItem records itemId = some (mergeRecords itemId selected (recordsOf records itemId)) := by
  obtain ⟨record, hrecord, hid⟩ := List.mem_map.mp h
  have hmem : record ∈ recordsOf records itemId := by
    simpa [recordsOf, (sortAsc_perm _ _).mem_iff] using ⟨hrecord, hid⟩
  have hsorted : (recordsOf records itemId).Pairwise _ := sortAsc_pairwise _ _
  obtain ⟨selected, rest, hown⟩ := List.exists_cons_of_ne_nil (List.ne_nil_of_mem hmem)
  rw [mergedItem]
  rw [hown] at hsorted ⊢
  refine ⟨selected, List.mem_cons_self, fun record hrecord => ?_, rfl⟩
  rcases List.mem_cons.mp hrecord with rfl | hrecord
  · exact le_rfl
  · exact List.rel_of_pairwise_cons hsorted hrecord

def conflictIssue (records : List RoadmapCandidate) (itemId : String) : Option RoadmapConsistencyIssue :=
  if recordsConflict (recordsOf records itemId) then
    some { code := "conflicting_state"
           severity := .error
           message := s!"Sources disagree about the operational state of {itemId}; " ++
             "the highest-precedence value is shown with a conflict flag."
           itemIds := [itemId]
           sourceIds := sortedSet ((recordsOf records itemId).map RoadmapCandidate.sourceId) }
  else none

def confirm (issues : List RoadmapConsistencyIssue) (item : RoadmapItem) : RoadmapItem :=
  { item with
    confirmationState :=
      if item.sourceRefs ≠ [] ∧ ¬ (issues.any fun issue => issue.code = "missing_source" ∧ item.id ∈ issue.itemIds) then
        .confirmed
      else .unconfirmed }

def derive (records : List RoadmapCandidate) : List RoadmapItem × List RoadmapConsistencyIssue :=
  let itemIds := sortedSet (records.map resolveIdentity)
  let items := sortAsc modelSortKey (itemIds.filterMap (mergedItem records))
  let issues := itemIds.filterMap (conflictIssue records) ++ check items
  ((applyDerivedState items issues).map (confirm issues), issues)

theorem conflicting_iff {records : List RoadmapCandidate} {items : List RoadmapItem} {item : RoadmapItem}
    (hid : item.id ∈ records.map resolveIdentity) :
    let issues := (sortedSet (records.map resolveIdentity)).filterMap (conflictIssue records) ++ check items
    .conflicting ∈ (deriveItem items issues item).operationalFlags ↔ .conflicting ∈ item.operationalFlags ∨
      recordsConflict (recordsOf records item.id) = true ∨
      ∃ issue ∈ issues, issue.code = "causal_cycle" ∧ item.id ∈ issue.itemIds := by
  intro issues
  have hcodes (code : String) : code ∈ issueCodes issues item.id ↔
      ∃ issue ∈ issues, issue.code = code ∧ item.id ∈ issue.itemIds := by
    simp [issueCodes, and_assoc, and_comm]
  have hstate : "conflicting_state" ∈ issueCodes issues item.id ↔ recordsConflict (recordsOf records item.id) = true := by
    rw [hcodes]
    constructor
    · rintro ⟨issue, hissue, hcode, hitem⟩
      rcases List.mem_append.mp hissue with hissue | hissue
      · obtain ⟨itemId, -, hissue⟩ := List.mem_filterMap.mp hissue
        unfold conflictIssue at hissue
        split at hissue <;> grind
      · -- `check` has no issue of this code
        simp only [check, checkItem, itemIssue, List.mem_append, List.mem_map, List.mem_flatMap] at hissue
        grind
    · intro h
      refine ⟨_, List.mem_append_left _ (List.mem_filterMap.mpr
        ⟨item.id, mem_sortedSet.mpr hid, by rw [conflictIssue, if_pos h]⟩), rfl, by simp⟩
  simp only [deriveItem, addFlag, (sortAsc_perm _ _).mem_iff, List.mem_dedup, hstate, hcodes]
  grind

theorem derive_merges (records : List RoadmapCandidate) :
    ((derive records).1.map RoadmapItem.id).Perm (records.map resolveIdentity).dedup ∧ ∀ item ∈ (derive records).1,
      let own := recordsOf records item.id
      ∃ selected ∈ own, (∀ record ∈ own,
          toLex (selected.sourcePriority, selected.sourceId) ≤ toLex (record.sourcePriority, record.sourceId)) ∧
        item = { selected.toRoadmapItem with
          id := item.id, sourceRefs := item.sourceRefs, evidenceRefs := item.evidenceRefs,
          operationalFlags := item.operationalFlags, blockingDependencyIds := item.blockingDependencyIds,
          downstreamItemIds := item.downstreamItemIds, confirmationState := item.confirmationState } ∧
        item.sourceRefs.Perm (own.flatMap fun record => record.sourceRefs).dedup ∧
        item.evidenceRefs.Perm (own.flatMap fun record => record.evidenceRefs).dedup ∧
        (.conflicting ∈ item.operationalFlags ↔ .conflicting ∈ selected.operationalFlags ∨
          (∃ record ∈ own, ∃ record' ∈ own, ¬ recordsAgree record record') ∨
          ∃ issue ∈ (derive records).2, issue.code = "causal_cycle" ∧ item.id ∈ issue.itemIds) := by
  refine ⟨?_, fun item hitem => ?_⟩
  · have hmerged : ((sortedSet (records.map resolveIdentity)).filterMap (mergedItem records)).map RoadmapItem.id =
        sortedSet (records.map resolveIdentity) := by
      rw [List.map_filterMap]
      conv_rhs => rw [← List.filterMap_some (l := sortedSet (records.map resolveIdentity))]
      refine List.filterMap_congr fun itemId hid => ?_
      obtain ⟨selected, -, -, h⟩ := mergedItem_eq (mem_sortedSet.mp hid)
      rw [h]
      rfl
    simp only [derive, applyDerivedState, List.map_map]
    refine ((sortAsc_perm _ _).map RoadmapItem.id).trans ?_
    rw [hmerged]
    exact sortAsc_perm id _
  · obtain ⟨derived, hderived, rfl⟩ := List.mem_map.mp hitem
    obtain ⟨merged, hmerged, rfl⟩ := List.mem_map.mp hderived
    obtain ⟨itemId, hid, hmerged⟩ := List.mem_filterMap.mp ((sortAsc_perm _ _).mem_iff.mp hmerged)
    obtain ⟨selected, hselected, hfirst, hmerge⟩ := mergedItem_eq (mem_sortedSet.mp hid)
    cases hmerge.symm.trans hmerged
    refine ⟨selected, hselected, hfirst, rfl, dedupeModels_perm _, dedupeModels_perm _, ?_⟩
    rw [← recordsConflict_iff]
    exact conflicting_iff (mem_sortedSet.mp hid)

def countValues (values : List String) : List (String × Nat) :=
  (sortedSet values).map fun value => (value, values.count value)

def stats (items : List RoadmapItem) : RoadmapStats where
  totalItems := items.length
  confirmedItems := items.countP fun item => item.confirmationState = .confirmed
  blockedItems := items.countP fun item => .blocked ∈ item.operationalFlags
  conflictItems := items.countP fun item => .conflicting ∈ item.operationalFlags
  staleItems := items.countP fun item => item.freshnessStatus ≠ .current
  byHorizon := countValues (items.map fun item => item.horizon.value)
  byStatus := countValues (items.map fun item => item.deliveryStatus.value)

def RoadmapCompiler.snapshot (c : RoadmapCompiler) (files : Files) (project : String) : RoadmapSnapshot :=
  let states := c.sourceStates files project
  let derived := derive (c.sourceRecords files project)
  { projectId := project
    items := derived.1
    stats := stats derived.1
    sourcesConsulted := states
    sourcesUnavailable := sourcesUnavailable states
    issues := derived.2
    sourceFingerprint := sourceFingerprint states }

def RoadmapCompiler.compile (c : RoadmapCompiler) (files : Files) (project : String)
    (previousSnapshot : Option RoadmapSnapshot) : RoadmapSnapshot :=
  let states := c.sourceStates files project
  match previousSnapshot with
  | some previous =>
    if previous.projectId = project ∧ previous.sourceFingerprint = sourceFingerprint states ∧
        ¬ (states.any fun state => state.status = .unavailable) then
      previous
    else c.snapshot files project
  | none => c.snapshot files project

theorem RoadmapCompiler.compile_cases (c : RoadmapCompiler) (files : Files) (project : String)
    (previousSnapshot : Option RoadmapSnapshot) :
    c.compile files project previousSnapshot = c.snapshot files project ∨
      ∃ previous, previousSnapshot = some previous ∧ c.compile files project previousSnapshot = previous ∧
        previous.sourceFingerprint = (c.snapshot files project).sourceFingerprint ∧
        (c.snapshot files project).sourcesUnavailable = [] := by
  unfold RoadmapCompiler.compile
  cases previousSnapshot with
  | none => exact Or.inl rfl
  | some previous =>
    dsimp only
    split
    · rename_i h
      refine Or.inr ⟨previous, rfl, rfl, h.2.1, sourcesUnavailable_eq_nil.mpr ?_⟩
      simpa using h.2.2
    · exact Or.inl rfl

section

variable {c : RoadmapCompiler} {files files' : Files} {project : String}

theorem sourceFingerprint_sources (c : RoadmapCompiler) (files : Files) (project : String) :
    sourceFingerprint (c.sourceStates files project) =
      (sortAsc RoadmapSource.sourceId c.sources).map fun source => (source.read files project).state.entry := by
  have hsort : (sortAsc RoadmapSource.sourceId c.sources).map (fun source => (source.read files project).state) =
      sortAsc RoadmapSourceState.sourceId (c.sourceStates files project) := by
    refine List.map_insertionSort _ _ _ _ fun source _ source' _ => ?_
    rw [source.named, source'.named]
  rw [sourceFingerprint, ← hsort, List.map_map]
  rfl

theorem entry_eq_of_fingerprint
    (h : sourceFingerprint (c.sourceStates files project) = sourceFingerprint (c.sourceStates files' project))
    {source : RoadmapSource} (hsource : source ∈ c.sources) :
    (source.read files project).state.entry = (source.read files' project).state.entry := by
  rw [sourceFingerprint_sources, sourceFingerprint_sources] at h
  exact List.map_inj_left.mp h source ((sortAsc_perm _ _).mem_iff.mpr hsource)

/-- Every source answers, as it is, from what it reads now. -/
def RoadmapCompiler.Available (c : RoadmapCompiler) (files : Files) (project : String) : Prop :=
  ∀ source ∈ c.sources, (source.read files project).state.status = .available

instance (c : RoadmapCompiler) (files : Files) (project : String) : Decidable (c.Available files project) := by
  unfold RoadmapCompiler.Available
  infer_instance

theorem sourceRecords_congr (havailable : c.Available files project)
    (hfingerprint : sourceFingerprint (c.sourceStates files project) = sourceFingerprint (c.sourceStates files' project))
    (hbeside : ∀ source ∈ c.sources, source.beside files project = source.beside files' project) :
    c.sourceRecords files project = c.sourceRecords files' project := by
  refine List.flatMap_congr fun source hsource => ?_
  rw [source.determined files files' project (havailable source hsource)
    (entry_eq_of_fingerprint hfingerprint hsource) (hbeside source hsource)]

theorem derive_congr (havailable : c.Available files project)
    (hfingerprint : sourceFingerprint (c.sourceStates files project) = sourceFingerprint (c.sourceStates files' project))
    (hbeside : ∀ source ∈ c.sources, source.beside files project = source.beside files' project) :
    derive (c.sourceRecords files project) = derive (c.sourceRecords files' project) :=
  congrArg derive (sourceRecords_congr havailable hfingerprint hbeside)

theorem RoadmapCompiler.Available.of_fingerprint (h : c.Available files' project)
    (hfingerprint : sourceFingerprint (c.sourceStates files project) =
      sourceFingerprint (c.sourceStates files' project)) : c.Available files project := by
  intro source hsource
  have hentry := entry_eq_of_fingerprint hfingerprint hsource
  exact (congrArg FingerprintEntry.status hentry).trans (h source hsource)

theorem RoadmapCompiler.Available.unavailable_eq_nil (h : c.Available files project) :
    (c.snapshot files project).sourcesUnavailable = [] := by
  refine sourcesUnavailable_eq_nil.mpr fun state hstate => ?_
  obtain ⟨source, hsource, rfl⟩ := List.mem_map.mp hstate
  rw [h source hsource]
  intro h
  cases h

end

end Roadmap
end DarkFactory
