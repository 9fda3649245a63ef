import DarkFactory.Lib.Runs
import DarkFactory.Roadmap.JsonSources
import DarkFactory.Roadmap.SnapshotStore

/-!
# DarkFactory.Roadmap.CacheRuns

What the store answers over whole runs: files change, projects are requested, the store is cleared.

* `Recompiled` — a request answers the items and issues of a compilation of the files as they are.
* `HashCovers` — under the fingerprint of the cached snapshot nothing has changed that its sources look up and do not
  hash.
* `answers_recompiled` — every request of a run that meets the second has the first.
* `manifests_recompiled` — the adapters of manifests hash all they read, so their requests always do.
-/

namespace DarkFactory
namespace Roadmap

structure World where
  files : Files
  store : RoadmapSnapshotStore
  /-- by project, the files its cached snapshot was compiled from -/
  origins : List (String × Files) := []

def World.origin (w : World) (project : String) : Option Files :=
  (Lookup.get Prod.fst w.origins project).map Prod.snd

inductive Act where
  | change (files : Files)
  | request (project : String)
  | clear (project : Option String)

def step (c : RoadmapCompiler) (w : World) : Act → World
  | .change files => { w with files := files }
  | .request project =>
    { w with
      store := (w.store.getOrCompile c w.files project).2
      origins :=
        if w.store.taken c w.files project = .stored then Lookup.put Prod.fst w.origins (project, w.files)
        else w.origins }
  | .clear project => { w with store := w.store.clear project }

def Recompiled (c : RoadmapCompiler) (m : Move World Act) : Prop :=
  ∀ project, m.act = .request project → c.Available m.pre.files project →
    ∃ snapshot, (m.pre.store.getOrCompile c m.pre.files project).1 = .ok snapshot ∧
      snapshot.items = (c.compile m.pre.files project none).items ∧
      snapshot.issues = (c.compile m.pre.files project none).issues

def HashCovers (c : RoadmapCompiler) (m : Move World Act) : Prop :=
  ∀ project, m.act = .request project → ∀ origin, m.pre.origin project = some origin →
    sourceFingerprint (c.sourceStates origin project) = sourceFingerprint (c.sourceStates m.pre.files project) →
    ∀ source ∈ c.sources, source.beside origin project = source.beside m.pre.files project

def Inv (c : RoadmapCompiler) (w : World) : Prop :=
  ∀ project cached, w.store.entry project = some cached →
    ∃ origin, w.origin project = some origin ∧ cached = c.snapshot origin project

theorem origin_put {w : World} (project project' : String) (files : Files) :
    ({ w with origins := Lookup.put Prod.fst w.origins (project, files) } : World).origin project' =
      if project = project' then some files else w.origin project' := by
  rw [World.origin, Lookup.get_put]
  split <;> rfl

theorem Inv.request {c : RoadmapCompiler} {w : World} (h : Inv c w) (project : String) :
    Inv c (step c w (.request project)) := by
  intro project' cached hcached
  simp only [step] at hcached ⊢
  rw [RoadmapSnapshotStore.getOrCompile_entries] at hcached
  by_cases hstored : w.store.taken c w.files project = .stored
  · rw [if_pos hstored]
    have horigin := origin_put (w := w) project project' w.files
    split at hcached
    · rename_i hp
      cases hcached
      refine ⟨w.files, ?_, ?_⟩
      · exact horigin.trans (if_pos hp.2)
      · rw [RoadmapSnapshotStore.compile_of_stored hstored, hp.2]
    · rename_i hp
      obtain ⟨origin, ho, hsnap⟩ := h project' cached hcached
      exact ⟨origin, (horigin.trans (if_neg fun heq => hp ⟨hstored, heq⟩)).trans ho, hsnap⟩
  · rw [if_neg fun hp => hstored hp.1] at hcached
    rw [if_neg hstored]
    exact h project' cached hcached

theorem inv_step (c : RoadmapCompiler) (w : World) (a : Act) (h : Inv c w) : Inv c (step c w a) := by
  cases a with
  | change files => exact h
  | request project => exact h.request project
  | clear project =>
    intro project' cached hcached
    exact h project' cached (RoadmapSnapshotStore.entry_clear project project' hcached)

theorem Inv.recompiled {c : RoadmapCompiler} {m : Move World Act} (h : Inv c m.pre) (hcovers : HashCovers c m) :
    Recompiled c m := by
  intro project hact havailable
  have hkept : ∀ cached, m.pre.store.entry project = some cached → ∃ origin, cached = c.snapshot origin project := by
    intro cached hcached
    obtain ⟨origin, -, hsnap⟩ := h project cached hcached
    exact ⟨origin, hsnap⟩
  rcases RoadmapSnapshotStore.getOrCompile_available havailable hkept with ⟨cached, hcached, hprint, hanswer⟩ | hanswer
  · obtain ⟨origin, horigin, rfl⟩ := h project cached hcached
    have hderive := derive_congr (havailable.of_fingerprint hprint) hprint (hcovers project hact origin horigin hprint)
    exact ⟨_, hanswer, congrArg Prod.fst hderive, congrArg Prod.snd hderive⟩
  · exact ⟨_, hanswer, rfl, rfl⟩

def World.start (files : Files) (store : RoadmapSnapshotStore) : World := ⟨files, store.clear none, []⟩

theorem inv_start (c : RoadmapCompiler) (files : Files) (store : RoadmapSnapshotStore) :
    Inv c (World.start files store) := by
  intro project cached hcached
  cases hcached

theorem answers_recompiled (c : RoadmapCompiler) (files : Files) (store : RoadmapSnapshotStore) (acts : List Act) :
    ∀ m ∈ Runs.moves (step c) (World.start files store) acts, HashCovers c m → Recompiled c m := by
  intro m hm hcovers
  exact (Runs.moves_invariant (inv_step c) (inv_start c files store) hm).1.recompiled hcovers

theorem manifests_recompiled (manifests : List JsonRoadmapSource) (python : Python) (files : Files)
    (store : RoadmapSnapshotStore) (acts : List Act) :
    let c := RoadmapCompiler.new (manifests.map fun s => s.toRoadmapSource python)
    ∀ m ∈ Runs.moves (step c) (World.start files store) acts, Recompiled c m := by
  intro c m hm
  refine (Runs.moves_invariant (inv_step c) (inv_start c files store) hm).1.recompiled ?_
  intro project _ origin _ _ source hsource
  obtain ⟨s, -, rfl⟩ := List.mem_map.mp ((sortAsc_perm _ _).mem_iff.mp hsource)
  rfl

/-- What the calls give on the manifest `m` of the project `d`, without items. -/
def bareManifest : Python :=
  ⟨fun _ => .ok (.object [("project_id", .string "d")]), fun _ => "", id, fun _ => none, fun _ _ => [], fun _ => none,
    fun _ => none⟩

def manifestFiles : Files where
  document path := if path = "m" then .text "\x7b\"project_id\": \"d\"\x7d" else .missing
  directory _ := none

theorem manifests_recompiled_bare :
    let c := RoadmapCompiler.new ([({ path := "m" } : JsonRoadmapSource)].map fun s => s.toRoadmapSource bareManifest)
    Recompiled c ⟨World.start manifestFiles {}, .request "d", step c (World.start manifestFiles {}) (.request "d")⟩ :=
  manifests_recompiled [{ path := "m" }] bareManifest manifestFiles {} [.request "d"] _ List.mem_cons_self

def planSource : MarkdownDevelopmentPlanSource where
  path := "p"
  evidenceDir := some "r"

def planCompiler : RoadmapCompiler := .new [planSource.toRoadmapSource]

def planFiles (reports : List String) : Files where
  document path := if path = "p" then .text "|DF-01|s|-|c|" else .missing
  directory path := if path = "r" then some (reports.map fun name => (name, "")) else none

/-- The plan is compiled, and the report of another ticket arrives. -/
def World.otherReported : World :=
  Runs.run (step planCompiler) (World.start (planFiles []) {}) [.request "d", .change (planFiles ["df-02-x-report.md"])]

theorem otherReported_origin : World.otherReported.origin "d" = some (planFiles []) := by
  have hstored : (World.start (planFiles []) {}).store.taken planCompiler (planFiles []) "d" = .stored := by
    decide +kernel
  simp only [World.otherReported, Runs.run_cons, Runs.run_nil, step]
  exact (origin_put (w := World.start (planFiles []) {}) "d" "d" (planFiles [])).trans (if_pos rfl)

theorem answers_recompiled_other :
    Recompiled planCompiler ⟨World.otherReported, .request "d", step planCompiler World.otherReported (.request "d")⟩ := by
  refine answers_recompiled planCompiler (planFiles []) {}
    [.request "d", .change (planFiles ["df-02-x-report.md"]), .request "d"] _
    (List.mem_cons_of_mem _ (List.mem_cons_of_mem _ List.mem_cons_self)) ?_
  intro project hact origin horigin _ source hsource
  cases hact
  rw [otherReported_origin] at horigin
  cases horigin
  have hbeside : ∀ source ∈ planCompiler.sources, source.beside (planFiles []) "d" =
      source.beside (planFiles ["df-02-x-report.md"]) "d" := by decide +kernel
  exact hbeside source hsource

def reportedActs : List Act := [.request "d", .change (planFiles ["df-01-x-report.md"]), .request "d"]

/-- The report that completes the ticket is not seen. -/
theorem report_unseen :
    ¬ ∀ (sources : List RoadmapSource) (files : Files) (store : RoadmapSnapshotStore) (acts : List Act),
      ∀ m ∈ Runs.moves (step (.new sources)) (World.start files store) acts, Recompiled (.new sources) m := by
  intro h
  let w := Runs.run (step planCompiler) (World.start (planFiles []) {}) (reportedActs.take 2)
  have hm : (⟨w, .request "d", step planCompiler w (.request "d")⟩ : Move World Act) ∈
      Runs.moves (step planCompiler) (World.start (planFiles []) {}) reportedActs :=
    List.mem_cons_of_mem _ (List.mem_cons_of_mem _ List.mem_cons_self)
  have havailable : planCompiler.Available w.files "d" := by decide +kernel
  obtain ⟨snapshot, hanswer, hitems, -⟩ := h _ _ _ _ _ hm "d" rfl havailable
  have hcached : (w.store.getOrCompile planCompiler w.files "d").1.toOption.map
      (fun snapshot => snapshot.items.map RoadmapItem.deliveryStatus) = some [.planned] := by decide +kernel
  have hnow : (planCompiler.compile w.files "d" none).items.map RoadmapItem.deliveryStatus = [.completed] := by
    decide +kernel
  have hfirst : (w.store.getOrCompile planCompiler w.files "d").1 = .ok snapshot := hanswer
  rw [hfirst] at hcached
  have hstatus : snapshot.items.map RoadmapItem.deliveryStatus = [.planned] := Option.some.inj hcached
  rw [hitems] at hstatus
  exact absurd (hnow.symm.trans hstatus) (by decide)

end Roadmap
end DarkFactory
