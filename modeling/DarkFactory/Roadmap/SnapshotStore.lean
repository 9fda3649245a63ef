import Mathlib.Algebra.GroupWithZero.Nat
import DarkFactory.Lib.Lookup
import DarkFactory.Roadmap.Compiler

/-!
# DarkFactory.Roadmap.SnapshotStore

`core/roadmap/store.py`: the snapshots in memory, one per project, and the counters beside them.

* Latencies are left out; a store holds at least two snapshots of history.
* `outcome` — which branch of `get_or_compile` a request takes.
* `getOrCompile_entries` — a request replaces the snapshot of its project or none.
-/

namespace DarkFactory
namespace Roadmap

structure StoreTelemetry where
  requestsTotal : Nat := 0
  cacheHits : Nat := 0
  cacheMisses : Nat := 0
  compilationsCount : Nat := 0
  itemsCount : Nat := 0
  relationsCount : Nat := 0
  sourceChangesDetected : Nat := 0
deriving DecidableEq

structure RoadmapSnapshotStore where
  historyLimit : Nat := 50
  entries : List (String × RoadmapSnapshot) := []
  history : List (String × List RoadmapSnapshot) := []
  telemetry : List (String × StoreTelemetry) := []
  lastSourceFingerprints : List (String × List FingerprintEntry) := []
  atLeastTwo : 2 ≤ historyLimit := by decide

inductive Outcome where
  | hit (cached : RoadmapSnapshot)
  | staleHit (cached : RoadmapSnapshot)
  | stale (cached : RoadmapSnapshot)
  | refused
  | stored
deriving DecidableEq

def outcome (cached : Option RoadmapSnapshot) (candidate : RoadmapSnapshot) : Outcome :=
  match cached with
  | some cached =>
    if cached.sourceFingerprint = candidate.sourceFingerprint then
      if candidate.sourcesUnavailable ≠ [] then .staleHit cached else .hit cached
    else if candidate.sourcesUnavailable ≠ [] then .stale cached
    else .stored
  | none => if candidate.sourcesUnavailable ≠ [] ∧ candidate.items = [] then .refused else .stored

def Outcome.isHit : Outcome → Bool
  | .hit _ | .staleHit _ => true
  | .stale _ | .refused | .stored => false

def staleSnapshot (cached failed : RoadmapSnapshot) : RoadmapSnapshot :=
  { cached with
    items := cached.items.map fun item => { item with freshnessStatus := .stale }
    sourcesConsulted := cached.sourcesConsulted.map fun state =>
      if state.sourceId ∈ failed.sourcesUnavailable then { state with status := .stale } else state
    sourcesUnavailable := failed.sourcesUnavailable
    issues := cached.issues ++ failed.issues }

/-- `RoadmapUnavailableError`. -/
inductive StoreError where
  | noPreviousSnapshot
deriving DecidableEq

def RoadmapSnapshot.hashed (s : RoadmapSnapshot) :
    String × List RoadmapItem × List RoadmapConsistencyIssue × List FingerprintEntry :=
  (s.projectId, s.items, s.issues, s.sourceFingerprint)

namespace RoadmapSnapshotStore

variable (store : RoadmapSnapshotStore)

def entry (project : String) : Option RoadmapSnapshot := (Lookup.get Prod.fst store.entries project).map Prod.snd

def telemetryEntry (project : String) : StoreTelemetry :=
  ((Lookup.get Prod.fst store.telemetry project).map Prod.snd).getD {}

def snapshots (project : String) : List RoadmapSnapshot :=
  ((Lookup.get Prod.fst store.history project).map Prod.snd).getD []

/-- `_record_snapshot`. -/
def recorded (project : String) (snapshot : RoadmapSnapshot) : List RoadmapSnapshot :=
  let history := store.snapshots project
  if (history.getLast?.map RoadmapSnapshot.hashed) = some snapshot.hashed then history
  else (history ++ [snapshot]).drop (history.length + 1 - store.historyLimit)

def counted (project : String) (candidate : RoadmapSnapshot) (hit : Bool) : StoreTelemetry :=
  let telemetry := store.telemetryEntry project
  let previous := (Lookup.get Prod.fst store.lastSourceFingerprints project).map Prod.snd
  let telemetry := { telemetry with
    requestsTotal := telemetry.requestsTotal + 1
    sourceChangesDetected := telemetry.sourceChangesDetected +
      if previous ≠ none ∧ previous ≠ some candidate.sourceFingerprint then 1 else 0 }
  if hit then { telemetry with cacheHits := telemetry.cacheHits + 1 }
  else { telemetry with
    cacheMisses := telemetry.cacheMisses + 1
    compilationsCount := telemetry.compilationsCount + 1
    itemsCount := candidate.items.length
    relationsCount := (candidate.items.map fun item => item.dependencies.length).sum }

def observed (project : String) (candidate : RoadmapSnapshot) (hit : Bool) : RoadmapSnapshotStore :=
  { store with
    telemetry := Lookup.put Prod.fst store.telemetry (project, store.counted project candidate hit)
    lastSourceFingerprints :=
      Lookup.put Prod.fst store.lastSourceFingerprints (project, candidate.sourceFingerprint) }

def keep (project : String) (candidate : RoadmapSnapshot) : RoadmapSnapshotStore :=
  { store with
    entries := Lookup.put Prod.fst store.entries (project, candidate)
    history := Lookup.put Prod.fst store.history (project, store.recorded project candidate) }

def getOrCompile (c : RoadmapCompiler) (files : Files) (project : String) :
    Except StoreError RoadmapSnapshot × RoadmapSnapshotStore :=
  let cached := store.entry project
  let candidate := c.compile files project cached
  let result := outcome cached candidate
  let observed := store.observed project candidate result.isHit
  match result with
  | .hit cached => (.ok cached, observed)
  | .staleHit cached | .stale cached => (.ok (staleSnapshot cached candidate), observed)
  | .refused => (.error .noPreviousSnapshot, observed)
  | .stored => (.ok candidate, observed.keep project candidate)

/-- `clear(project_id)`, of all projects when none is given. -/
def clear (project : Option String) : RoadmapSnapshotStore :=
  match project with
  | none => { store with entries := [], lastSourceFingerprints := [] }
  | some project =>
    { store with
      entries := store.entries.filter fun e => e.1 ≠ project
      lastSourceFingerprints := store.lastSourceFingerprints.filter fun e => e.1 ≠ project }

variable {store} {project : String}

def taken (store : RoadmapSnapshotStore) (c : RoadmapCompiler) (files : Files) (project : String) : Outcome :=
  outcome (store.entry project) (c.compile files project (store.entry project))

theorem getOrCompile_entries (c : RoadmapCompiler) (files : Files) (project project' : String) :
    (store.getOrCompile c files project).2.entry project' =
      if store.taken c files project = .stored ∧ project = project' then
        some (c.compile files project (store.entry project))
      else store.entry project' := by
  have hkeep : ∀ s : RoadmapSnapshotStore, ∀ candidate, (s.keep project candidate).entry project' =
      if project = project' then some candidate else s.entry project' := by
    intro s candidate
    rw [entry, keep, Lookup.get_put]
    split <;> rfl
  unfold getOrCompile taken
  dsimp only
  generalize hresult : outcome (store.entry project) _ = result
  cases result with
  | stored =>
    rw [hkeep]
    simp only [true_and]
    rfl
  | hit cached => rw [if_neg (fun h => by cases h.1)]; rfl
  | staleHit cached => rw [if_neg (fun h => by cases h.1)]; rfl
  | stale cached => rw [if_neg (fun h => by cases h.1)]; rfl
  | refused => rw [if_neg (fun h => by cases h.1)]; rfl

/-- A cached snapshot of the fingerprint the sources have now goes to the caller; otherwise a new one does, and into
the store. -/
theorem getOrCompile_available {c : RoadmapCompiler} {files : Files} (havailable : c.Available files project)
    (hkept : ∀ cached, store.entry project = some cached → ∃ origin, cached = c.snapshot origin project) :
    (∃ cached, store.entry project = some cached ∧
        cached.sourceFingerprint = (c.snapshot files project).sourceFingerprint ∧
        (store.getOrCompile c files project).1 = .ok cached) ∨
      (store.getOrCompile c files project).1 = .ok (c.snapshot files project) := by
  have hnone := havailable.unavailable_eq_nil
  have hcompile := c.compile_cases files project (store.entry project)
  unfold getOrCompile
  dsimp only
  cases hcached : store.entry project with
  | none =>
    rw [hcached] at hcompile
    rcases hcompile with hnew | ⟨_, h, -⟩
    · rw [hnew]
      exact Or.inr (by simp [outcome, hnone])
    · cases h
  | some cached =>
    rw [hcached] at hcompile
    by_cases hprint : cached.sourceFingerprint = (c.snapshot files project).sourceFingerprint
    · -- the sources were available when the cached snapshot was made
      obtain ⟨origin, rfl⟩ := hkept cached hcached
      have horigin : (c.snapshot origin project).sourcesUnavailable = [] :=
        (havailable.of_fingerprint hprint).unavailable_eq_nil
      have hcandidate : (c.compile files project (some (c.snapshot origin project))).sourcesUnavailable = [] ∧
          (c.compile files project (some (c.snapshot origin project))).sourceFingerprint =
            (c.snapshot origin project).sourceFingerprint := by
        rcases hcompile with hnew | ⟨_, h, hsame, -, -⟩
        · exact hnew ▸ ⟨hnone, hprint.symm⟩
        · cases h
          rw [hsame]
          exact ⟨horigin, rfl⟩
      exact Or.inl ⟨_, rfl, hprint, by simp [outcome, hcandidate.1, hcandidate.2]⟩
    · rcases hcompile with hnew | ⟨_, h, -, hprint', -⟩
      · rw [hnew]
        exact Or.inr (by simp [outcome, hnone, hprint])
      · cases h
        exact absurd hprint' hprint

theorem compile_of_stored {c : RoadmapCompiler} {files : Files} (h : store.taken c files project = .stored) :
    c.compile files project (store.entry project) = c.snapshot files project := by
  rcases c.compile_cases files project (store.entry project) with hnew | ⟨previous, hcached, hsame, -, -⟩
  · exact hnew
  · rw [taken, hsame, hcached, outcome, if_pos rfl] at h
    split at h <;> cases h

theorem entry_clear (project : Option String) (project' : String) {cached : RoadmapSnapshot}
    (h : (store.clear project).entry project' = some cached) : store.entry project' = some cached := by
  cases project with
  | none => cases h
  | some project =>
    rw [entry, clear, Lookup.get, List.find?_filter] at h
    by_cases hp : project' = project
    · rw [List.find?_eq_none.mpr] at h
      · cases h
      · intro e _
        simp only [decide_eq_true_eq, not_and]
        exact fun hne heq => hne (heq.trans hp)
    · rw [entry, Lookup.get, ← h]
      refine congrArg (Option.map Prod.snd) (congrFun (congrArg _ (funext fun e => ?_)) _)
      rw [Bool.eq_iff_iff]
      simp only [decide_eq_true_eq]
      exact ⟨fun heq => ⟨fun h => hp (heq.symm.trans h), heq⟩, fun h => h.2⟩

end RoadmapSnapshotStore

end Roadmap
end DarkFactory
