import Mathlib.Data.List.Chain
import Mathlib.Data.List.Dedup
import Mathlib.Logic.Relation
import DarkFactory.Python.Sort
import DarkFactory.Roadmap.Models

/-!
# DarkFactory.Roadmap.Checker

`core/roadmap/checker.py`: the consistency issues of a roadmap, and the indicators they leave on its items.

* `check` — missing sources, criteria, evidence and dependencies, and the causal cycles.
* `visit` — the depth-first search for cycles, `fuel` calls deep. `visit_fuel`: more than one call per node that is
  not being visited changes nothing.
* `check_causal_cycles` — every cycle in an issue is a loop of the graph, and a graph without such issues has no loop.
* `applyDerivedState` — flags, blockers and downstream items.
-/

namespace DarkFactory
namespace Roadmap

/-- `sorted(set(texts))`. -/
def sortedSet (texts : List String) : List String := sortAsc id texts.dedup

@[simp] theorem mem_sortedSet {texts : List String} {text : String} : text ∈ sortedSet texts ↔ text ∈ texts := by
  rw [sortedSet, (sortAsc_perm id _).mem_iff, List.mem_dedup]

structure CausalGraph where
  nodes : List String
  edges : List (String × String)

def CausalGraph.children (graph : CausalGraph) (node : String) : List String :=
  sortedSet ((graph.edges.filter fun edge => edge.1 = node).map Prod.snd)

def CausalGraph.Leads (graph : CausalGraph) (source target : String) : Prop := (source, target) ∈ graph.edges

theorem CausalGraph.mem_children {graph : CausalGraph} {node child : String} :
    child ∈ graph.children node ↔ graph.Leads node child := by
  simp [CausalGraph.children, CausalGraph.Leads]

def DependencyType.isCausal : DependencyType → Bool
  | .requires | .blocks | .unlocks | .parentOf => true
  | .relatedTo => false

def causalEdges (knownIds : List String) (item : RoadmapItem) : List (String × String) :=
  item.dependencies.filterMap fun dependency =>
    if dependency.itemId ∈ knownIds ∧ dependency.type.isCausal then
      some (if dependency.type = .requires then (dependency.itemId, item.id) else (item.id, dependency.itemId))
    else none

def causalGraph (items : List RoadmapItem) (knownIds : List String) : CausalGraph where
  nodes := items.map RoadmapItem.id
  edges := items.flatMap (causalEdges knownIds)

/-- What the calls of `visit` share; `active` is the set of what is in `visiting`. -/
structure Search where
  cycles : List (List String) := []
  visiting : List String := []
  visited : List String := []

def Search.found (s : Search) (cycle : List String) : Search :=
  if cycle = [] ∨ cycle ∈ s.cycles then s else { s with cycles := s.cycles ++ [cycle] }

def visit (graph : CausalGraph) : Nat → Search → String → Search
  | 0, s, _ => s
  | fuel + 1, s, node =>
    if node ∈ s.visiting then s.found (s.visiting.drop (s.visiting.idxOf node))
    else if node ∈ s.visited then s
    else
      let entered := { s with visiting := s.visiting ++ [node] }
      let left := (graph.children node).foldl (visit graph fuel) entered
      { left with visiting := s.visiting, visited := node :: left.visited }

def findCycles (graph : CausalGraph) : List (List String) :=
  ((sortedSet graph.nodes).foldl (visit graph (graph.nodes.length + 1)) {}).cycles

@[simp] theorem Search.found_visiting (s : Search) (cycle : List String) : (s.found cycle).visiting = s.visiting := by
  unfold Search.found
  split <;> rfl

theorem visit_visiting (graph : CausalGraph) (fuel : Nat) (s : Search) (node : String) :
    (visit graph fuel s node).visiting = s.visiting := by
  cases fuel with
  | zero => rfl
  | succ fuel =>
    rw [visit]
    split
    · exact s.found_visiting _
    · split <;> rfl

theorem foldl_congr_visiting {f g : Search → String → Search} {path nodes : List String}
    (hf : ∀ s node, (f s node).visiting = s.visiting)
    (h : ∀ s node, node ∈ nodes → s.visiting = path → f s node = g s node) {s : Search} (hs : s.visiting = path) :
    nodes.foldl f s = nodes.foldl g s := by
  induction nodes generalizing s with
  | nil => rfl
  | cons node nodes ih =>
    rw [List.foldl_cons, List.foldl_cons, ← h s node List.mem_cons_self hs]
    exact ih (fun s' n hn => h s' n (List.mem_cons_of_mem _ hn)) ((hf s node).trans hs)

def CausalGraph.free (graph : CausalGraph) (path : List String) : List String :=
  graph.nodes.filter fun node => node ∉ path

theorem CausalGraph.free_lt {graph : CausalGraph} {path : List String} {node : String} (hnode : node ∈ graph.nodes)
    (hpath : node ∉ path) : (graph.free (path ++ [node])).length < (graph.free path).length := by
  have hsub : graph.free (path ++ [node]) = (graph.free path).filter fun n => n ≠ node := by
    rw [CausalGraph.free, CausalGraph.free, List.filter_filter]
    refine List.filter_congr fun n _ => ?_
    rw [Bool.eq_iff_iff]
    simp [and_comm]
  have hmem : node ∈ graph.free path := List.mem_filter.mpr ⟨hnode, by simpa using hpath⟩
  rw [hsub, List.length_filter_lt_length_iff_exists]
  exact ⟨node, hmem, by simp⟩

theorem visit_fuel {graph : CausalGraph} (hedges : ∀ edge ∈ graph.edges, edge.2 ∈ graph.nodes) (fuel more : Nat)
    (s : Search) (node : String) (hnode : node ∈ graph.nodes) (hfuel : (graph.free s.visiting).length < fuel) :
    visit graph (fuel + more) s node = visit graph fuel s node := by
  induction fuel generalizing s node with
  | zero => omega
  | succ fuel ih =>
    rw [Nat.add_right_comm, visit, visit]
    split
    · rfl
    · rename_i hactive
      split
      · rfl
      · have hfold : (graph.children node).foldl (visit graph (fuel + more)) { s with visiting := s.visiting ++ [node] }
            = (graph.children node).foldl (visit graph fuel) { s with visiting := s.visiting ++ [node] } := by
          refine foldl_congr_visiting (visit_visiting graph _) ?_ (rfl : _ = s.visiting ++ [node])
          intro s' child hchild hs'
          have hlt := CausalGraph.free_lt hnode hactive
          refine ih s' child (hedges _ (CausalGraph.mem_children.mp hchild)) ?_
          rw [hs']
          omega
        simp only [hfold]

theorem causalGraph_edges {items : List RoadmapItem} {edge : String × String}
    (h : edge ∈ (causalGraph items (items.map RoadmapItem.id)).edges) :
    edge.2 ∈ (causalGraph items (items.map RoadmapItem.id)).nodes := by
  obtain ⟨item, hitem, hedge⟩ := List.mem_flatMap.mp h
  obtain ⟨dependency, -, hdep⟩ := List.mem_filterMap.mp hedge
  have hid : item.id ∈ items.map RoadmapItem.id := List.mem_map_of_mem hitem
  split at hdep
  · rename_i hknown
    cases hdep
    split
    · exact hid
    · exact hknown.1
  · cases hdep

theorem findCycles_fuel (items : List RoadmapItem) (more : Nat) :
    let graph := causalGraph items (items.map RoadmapItem.id)
    ((sortedSet graph.nodes).foldl (visit graph (graph.nodes.length + 1 + more)) {}).cycles = findCycles graph := by
  intro graph
  rw [findCycles]
  refine congrArg Search.cycles (foldl_congr_visiting (visit_visiting graph _) ?_ (rfl : _ = []))
  intro s node hnode hs
  refine visit_fuel (fun edge hedge => causalGraph_edges hedge) _ more s node (mem_sortedSet.mp hnode) ?_
  exact Nat.lt_succ_of_le (List.length_filter_le _ _)

/-- Each node leads to the next one, and the last to the first. -/
def CausalGraph.Loop (graph : CausalGraph) (cycle : List String) : Prop :=
  cycle ≠ [] ∧ cycle.Nodup ∧ (cycle ++ cycle.take 1).IsChain graph.Leads

/-- Every node stands before all that it leads to. -/
def CausalGraph.Settled (graph : CausalGraph) : List String → Prop
  | [] => True
  | node :: rest => (∀ child, graph.Leads node child → child ∈ rest) ∧ graph.Settled rest

theorem CausalGraph.Settled.closed {graph : CausalGraph} {nodes : List String} (h : graph.Settled nodes)
    {node next : String} (hnode : node ∈ nodes) (hnext : Relation.ReflTransGen graph.Leads node next) :
    next ∈ nodes := by
  induction hnext with
  | refl => exact hnode
  | tail _ hlead ih =>
    clear hnode
    induction nodes with
    | nil => cases ih
    | cons first rest ih' =>
      rcases List.mem_cons.mp ih with rfl | hmem
      · exact List.mem_cons_of_mem _ (h.1 _ hlead)
      · exact List.mem_cons_of_mem _ (ih' h.2 hmem)

theorem CausalGraph.Settled.acyclic {graph : CausalGraph} {nodes : List String} (h : graph.Settled nodes)
    {node : String} (hnode : node ∈ nodes) : ¬ Relation.TransGen graph.Leads node node := by
  induction nodes with
  | nil => cases hnode
  | cons first rest ih =>
    intro hloop
    rcases List.mem_cons.mp hnode with rfl | hnode
    · obtain ⟨next, hnext, hback⟩ := Relation.TransGen.head'_iff.mp hloop
      exact ih h.2 (h.2.closed (h.1 next hnext) hback) hloop
    · exact ih h.2 hnode hloop

theorem CausalGraph.Loop.transGen {graph : CausalGraph} {cycle : List String} (h : graph.Loop cycle) :
    ∃ node, Relation.TransGen graph.Leads node node := by
  obtain ⟨hne, -, hchain⟩ := h
  cases cycle with
  | nil => exact absurd rfl hne
  | cons node rest =>
    have hpair := List.isChain_iff_pairwise.mp (hchain.imp fun _ _ => Relation.TransGen.single)
    exact ⟨node, List.rel_of_pairwise_cons hpair (by simp)⟩

theorem CausalGraph.loop_of_visiting {graph : CausalGraph} {path : List String} {node : String}
    (hchain : (path ++ [node]).IsChain graph.Leads) (hnodup : path.Nodup) (hmem : node ∈ path) :
    graph.Loop (path.drop (path.idxOf node)) := by
  have hlt := List.idxOf_lt_length_of_mem hmem
  have hdrop : path.drop (path.idxOf node) = node :: path.drop (path.idxOf node + 1) := by
    rw [List.drop_eq_getElem_cons hlt, List.getElem_idxOf]
  refine ⟨by simp [hdrop], hnodup.sublist (List.drop_sublist _ _), ?_⟩
  have := hchain.drop (path.idxOf node)
  rw [List.drop_append_of_le_length hlt.le] at this
  rwa [show (path.drop (path.idxOf node)).take 1 = [node] by rw [hdrop]; rfl]

theorem visit_loops {graph : CausalGraph} {fuel : Nat} {s : Search} {node : String}
    (hchain : (s.visiting ++ [node]).IsChain graph.Leads) (hnodup : s.visiting.Nodup)
    (h : ∀ cycle ∈ s.cycles, graph.Loop cycle) : ∀ cycle ∈ (visit graph fuel s node).cycles, graph.Loop cycle := by
  induction fuel generalizing s node with
  | zero => exact h
  | succ fuel ih =>
    rw [visit]
    split
    · rename_i hactive
      intro cycle hcycle
      rw [Search.found] at hcycle
      split at hcycle
      · exact h cycle hcycle
      · rcases List.mem_append.mp hcycle with hcycle | hcycle
        · exact h cycle hcycle
        · rw [List.mem_singleton.mp hcycle]
          exact CausalGraph.loop_of_visiting hchain hnodup hactive
    · rename_i hactive
      split
      · exact h
      · refine (List.foldlRecOn (motive := fun s' : Search => s'.visiting = s.visiting ++ [node] ∧
          ∀ cycle ∈ s'.cycles, graph.Loop cycle) _ _ ?_ ?_).2
        · exact ⟨rfl, h⟩
        · intro s' ⟨hs', h'⟩ child hchild
          refine ⟨(visit_visiting _ _ _ _).trans hs', ih ?_ ?_ h'⟩
          · rw [hs', List.isChain_append]
            exact ⟨hchain, .singleton _, by simpa using CausalGraph.mem_children.mp hchild⟩
          · rw [hs']
            exact List.nodup_append'.mpr ⟨hnodup, List.nodup_singleton _, by simpa using hactive⟩

/-- A search without a cycle has settled the nodes it was sent to. -/
def Settles (graph : CausalGraph) (s : Search) (nodes : List String) (s' : Search) : Prop :=
  s'.cycles = [] → s.cycles = [] ∧ (graph.Settled s.visited → graph.Settled s'.visited ∧
    s.visited ⊆ s'.visited ∧ nodes ⊆ s'.visited)

theorem foldl_settles {graph : CausalGraph} (fuel : Nat) (path : List String) {nodes : List String} {s : Search}
    (h : ∀ s node, node ∈ nodes → s.visiting = path → Settles graph s [node] (visit graph fuel s node))
    (hs : s.visiting = path) : Settles graph s nodes (nodes.foldl (visit graph fuel) s) := by
  induction nodes generalizing s with
  | nil => exact fun hnone => ⟨hnone, fun hset => ⟨hset, List.Subset.refl _, List.nil_subset _⟩⟩
  | cons node nodes ih =>
    intro hnone
    obtain ⟨hnone, hrest⟩ := ih (fun s' n hn => h s' n (List.mem_cons_of_mem _ hn)) ((visit_visiting _ _ _ _).trans hs) hnone
    obtain ⟨hnone, hfirst⟩ := h s node List.mem_cons_self hs hnone
    refine ⟨hnone, fun hset => ?_⟩
    obtain ⟨hset, hsub, hnode⟩ := hfirst hset
    obtain ⟨hset, hsub', hnodes⟩ := hrest hset
    refine ⟨hset, List.Subset.trans hsub hsub', List.cons_subset.mpr ⟨hsub' (hnode List.mem_cons_self), hnodes⟩⟩

theorem visit_settles {graph : CausalGraph} (hedges : ∀ edge ∈ graph.edges, edge.2 ∈ graph.nodes) {fuel : Nat}
    {s : Search} {node : String} (hnode : node ∈ graph.nodes) (hfuel : (graph.free s.visiting).length < fuel) :
    Settles graph s [node] (visit graph fuel s node) := by
  induction fuel generalizing s node with
  | zero => omega
  | succ fuel ih =>
    intro hnone
    rw [visit] at hnone ⊢
    split at hnone
    · rename_i hactive
      have hne : s.visiting.drop (s.visiting.idxOf node) ≠ [] := by
        simpa using List.idxOf_lt_length_of_mem hactive
      rw [Search.found] at hnone
      split at hnone
      · rename_i h
        rcases h with h | h
        · exact absurd h hne
        · rw [hnone] at h
          cases h
      · simp at hnone
    · rename_i hactive
      rw [if_neg hactive]
      split at hnone
      · rename_i hvisited
        rw [if_pos hvisited]
        exact ⟨hnone, fun hset => ⟨hset, List.Subset.refl _, by simpa using hvisited⟩⟩
      · rename_i hvisited
        rw [if_neg hvisited]
        have hlt := CausalGraph.free_lt hnode hactive
        have hfold := foldl_settles fuel (s.visiting ++ [node]) (fun s' child hchild hs' =>
          ih (hedges _ (CausalGraph.mem_children.mp hchild)) (by rw [hs']; omega)) rfl hnone
        refine ⟨hfold.1, fun hset => ?_⟩
        obtain ⟨hset, hsub, hchildren⟩ := hfold.2 hset
        exact ⟨⟨fun child hchild => hchildren (CausalGraph.mem_children.mpr hchild), hset⟩,
          List.subset_cons_of_subset _ hsub, by simp⟩

theorem findCycles_loops {graph : CausalGraph} {cycle : List String} (h : cycle ∈ findCycles graph) :
    graph.Loop cycle := by
  refine (List.foldlRecOn (motive := fun s : Search => s.visiting = [] ∧ ∀ cycle ∈ s.cycles, graph.Loop cycle) _ _ ?_ ?_).2 cycle h
  · exact ⟨rfl, by simp⟩
  · intro s ⟨hs, h⟩ node _
    exact ⟨(visit_visiting _ _ _ _).trans hs, visit_loops (by simp [hs]) (by simp [hs]) h⟩

theorem findCycles_acyclic {graph : CausalGraph} (hedges : ∀ edge ∈ graph.edges, edge.2 ∈ graph.nodes)
    (h : findCycles graph = []) (node : String) : ¬ Relation.TransGen graph.Leads node node := by
  intro hloop
  obtain ⟨last, -, hlast⟩ := Relation.TransGen.tail'_iff.mp hloop
  have hfold := foldl_settles _ [] (fun s n hn hs => visit_settles hedges (mem_sortedSet.mp hn)
    (Nat.lt_succ_of_le (List.length_filter_le _ _))) rfl h
  obtain ⟨hset, -, hnodes⟩ := hfold.2 trivial
  exact hset.acyclic (hnodes (mem_sortedSet.mpr (hedges _ hlast))) hloop

def itemIssue (code text : String) (itemId : String) : RoadmapConsistencyIssue where
  code := code
  severity := .error
  message := text
  itemIds := [itemId]

def checkItem (knownIds : List String) (item : RoadmapItem) : List RoadmapConsistencyIssue :=
  (if item.sourceRefs = [] then
      [itemIssue "missing_source" s!"Item {item.id} has no navigable source reference." item.id]
    else []) ++
  (if item.deliveryStatus = .completed then
      (if item.completionCriteria = [] then
          [itemIssue "missing_completion_criteria" s!"Completed item {item.id} has no completion criteria." item.id]
        else []) ++
      (if item.evidenceRefs = [] then
          [itemIssue "missing_evidence" s!"Completed item {item.id} has no completion evidence." item.id]
        else [])
    else []) ++
  (item.dependencies.filter fun dependency => dependency.itemId ∉ knownIds).map fun dependency =>
    { code := "orphan_dependency"
      severity := .error
      message := s!"Item {item.id} references missing dependency {dependency.itemId}."
      itemIds := [item.id, dependency.itemId] }

def check (items : List RoadmapItem) : List RoadmapConsistencyIssue :=
  let knownIds := items.map RoadmapItem.id
  items.flatMap (checkItem knownIds) ++ (findCycles (causalGraph items knownIds)).map fun cycle =>
    { code := "causal_cycle"
      severity := .error
      message := "Causal dependency cycle detected: " ++ " -> ".intercalate cycle
      itemIds := cycle }

theorem check_causal_cycles (items : List RoadmapItem) :
    let graph := causalGraph items (items.map RoadmapItem.id)
    let cycles := ((check items).filter fun issue => issue.code = "causal_cycle").map RoadmapConsistencyIssue.itemIds
    (∀ cycle ∈ cycles, graph.Loop cycle) ∧
      (cycles = [] ↔ ∀ node, ¬ Relation.TransGen graph.Leads node node) := by
  intro graph cycles
  have hcycles : cycles = findCycles graph := by
    have hitems : ((items.flatMap (checkItem (items.map RoadmapItem.id))).filter
        fun issue => issue.code = "causal_cycle") = [] := by
      refine List.filter_eq_nil_iff.mpr fun issue hissue => ?_
      obtain ⟨item, -, hissue⟩ := List.mem_flatMap.mp hissue
      simp only [checkItem, itemIssue, List.mem_append, List.mem_map] at hissue
      grind
    simp [cycles, check, hitems, graph, List.filter_map, Function.comp_def]
  rw [hcycles]
  refine ⟨fun cycle => findCycles_loops, fun h => findCycles_acyclic (fun _ => causalGraph_edges) h, fun h => ?_⟩
  refine List.eq_nil_iff_forall_not_mem.mpr fun cycle hcycle => ?_
  obtain ⟨node, hnode⟩ := (findCycles_loops hcycle).transGen
  exact h node hnode

def issueCodes (issues : List RoadmapConsistencyIssue) (itemId : String) : List String :=
  (issues.filter fun issue => itemId ∈ issue.itemIds).map RoadmapConsistencyIssue.code

def addFlag (flag : RoadmapFlag) (p : Prop) [Decidable p] (flags : List RoadmapFlag) : List RoadmapFlag :=
  if p ∧ flag ∉ flags then flags ++ [flag] else flags

def downstream (items : List RoadmapItem) (itemId : String) : List String :=
  items.flatMap fun item =>
    (item.dependencies.filter fun dependency => dependency.itemId = itemId ∧ dependency.type ≠ .relatedTo).map
      fun _ => item.id

/-- `by_id.get(id)`: the last item of an id. -/
def byId (items : List RoadmapItem) (itemId : String) : Option RoadmapItem :=
  items.reverse.find? fun item => item.id = itemId

def openRequirements (items : List RoadmapItem) (item : RoadmapItem) : List String :=
  (item.dependencies.filter fun dependency =>
    dependency.type = .requires ∧ (byId items dependency.itemId).any fun d => d.deliveryStatus ≠ .completed).map
      RoadmapDependency.itemId

def deriveItem (items : List RoadmapItem) (issues : List RoadmapConsistencyIssue) (item : RoadmapItem) : RoadmapItem :=
  let codes := issueCodes issues item.id
  let flags := addFlag .atRisk ("missing_evidence" ∈ codes ∨ "missing_completion_criteria" ∈ codes)
    (addFlag .conflicting ("conflicting_state" ∈ codes ∨ "causal_cycle" ∈ codes) item.operationalFlags)
  let blockers := item.blockingDependencyIds ++ if .blocked ∈ flags then openRequirements items item else []
  { item with
    operationalFlags := sortAsc RoadmapFlag.value flags.dedup
    blockingDependencyIds := sortedSet blockers
    downstreamItemIds := sortedSet (downstream items item.id) }

def applyDerivedState (items : List RoadmapItem) (issues : List RoadmapConsistencyIssue) : List RoadmapItem :=
  items.map (deriveItem items issues)

end Roadmap
end DarkFactory
