import DarkFactory.Harness.CachedRun
import DarkFactory.Lib.Runs

/-!
# DarkFactory.Harness.CacheSoundness

What the verdicts of `Harness.CachedRun` are worth.

* `Attests` — executions cover the named steps: each passed, as its whole command, on the tree.
* `CacheSound` — every stored verdict attests its key, and every replayed one the tree it is replayed for.
* `Steady` — no edit changes the tree that a run has still to find, and a job covers the steps of the
  run it answers.
* `Inv` — every run is where its key says, and every stored verdict attests its key.
-/

namespace DarkFactory
namespace Harness
namespace CachedRun

structure Attests (tree : String) (stepNames : List String) (result : HarnessResult)
    (runs : List StepRun) : Prop where
  tree : ∀ run ∈ runs, run.tree = some tree
  names : sortedNames (runs.map fun run => run.step.name) = stepNames
  passed : ∀ run ∈ runs, run.execution.passed = true
  /-- No step was narrowed to a shard. -/
  whole : ∀ run ∈ runs, run.ran = run.command
  reported : result.requiredSteps = runs.map fun run => run.step.name

instance (tree : String) (stepNames : List String) (result : HarnessResult) (runs : List StepRun) :
    Decidable (Attests tree stepNames result runs) :=
  decidable_of_iff
    ((∀ run ∈ runs, run.tree = some tree) ∧ sortedNames (runs.map fun run => run.step.name) = stepNames ∧
      (∀ run ∈ runs, run.execution.passed = true) ∧ (∀ run ∈ runs, run.ran = run.command) ∧
      result.requiredSteps = runs.map fun run => run.step.name)
    ⟨fun ⟨htree, hnames, hpassed, hwhole, hreported⟩ => ⟨htree, hnames, hpassed, hwhole, hreported⟩,
      fun h => ⟨h.tree, h.names, h.passed, h.whole, h.reported⟩⟩

def Sound (key : CacheKey) (result : HarnessResult) (runs : List StepRun) : Prop :=
  Attests key.treeSha key.stepNames result runs

instance (key : CacheKey) (result : HarnessResult) (runs : List StepRun) : Decidable (Sound key result runs) :=
  inferInstanceAs (Decidable (Attests key.treeSha key.stepNames result runs))

/-- The result is of the commit it names and of the steps it names. -/
def Evidence.Full (treeOf : String → String) (e : Evidence) : Prop :=
  Attests (treeOf e.result.candidateSha) (sortedNames e.result.requiredSteps) e.result e.runs

instance (treeOf : String → String) (e : Evidence) : Decidable (e.Full treeOf) :=
  inferInstanceAs (Decidable (Attests (treeOf e.result.candidateSha)
    (sortedNames e.result.requiredSteps) e.result e.runs))

structure CacheSound (c : Setting) (s : State) : Prop where
  stored : s.store.All Sound
  replayed : ∀ t evidence, s.pcs t = .returned (some evidence) true → evidence.replayed = true →
    evidence.Full c.treeOf

/-- No step of a run whose result may be stored is narrowed to a shard. -/
def Request.Whole (r : Request) : Prop :=
  r.cacheEnabled = true ∨ r.isJob = true → ∀ step ∈ r.steps, r.process.shardSpec step = none ∨
      (r.process.resolveCommand step.cmd).any TESTS_TARGETS.contains = false

def Pc.awaits (treeOf : String → String) (isJob : Bool) : Pc → Option String
  | .lookingUp key | .replaying key _ | .remoteLookup key _ _ | .polling key _ | .locked key
  | .claiming key => some key.treeSha
  | .dispatching key | .binding key _ _ | .locking key | .beginning key => key.map CacheKey.treeSha
  | .executing key candidateSha _ (_ :: _) =>
    match key with
    | some key => some key.treeSha
    | none => if isJob then some (treeOf candidateSha) else none
  | .entered | .dispatched _ _ _ _ | .executing _ _ _ [] | .storing _ _ | .returned _ _ => none

def Pc.isTesting : Pc → Bool
  | .executing _ _ _ (_ :: _) => true
  | _ => false

def Fresh (c : Setting) (r : Request) (checkout : Checkout) (pc : Pc) : Prop :=
  ∀ tree, pc.awaits c.treeOf r.isJob = some tree →
    c.treeOf checkout.head = tree ∧ (pc.isTesting = true → checkout.clean = true)

/-- The result of a job that passes every check of `_finalize_remote_result`. -/
structure Accepted (r : Request) (candidateSha : String) (result : HarnessResult) : Prop where
  candidate : result.candidateSha = candidateSha
  config : result.configHash = r.configHash
  success : result.success = true

structure Steady (c : Setting) (s : State) (a : Act) : Prop where
  /-- Until a run has started its last step, no edit of its root changes the tree. -/
  edits : ∀ root checkout, a = .edit root checkout →
    ∀ t, (c.request t).root = root → Fresh c (c.request t) checkout (s.pcs t)
  /-- Nor has one, when a dispatched run goes on without an answer. -/
  falls : ∀ t e key workerKey health sha, a = .go t e →
    s.pcs t = .dispatched (some key) workerKey health sha → s.answered c e.answer = none →
    c.treeOf (s.checkouts (c.request t).root).head = key.treeSha
  /-- A job whose result a run with a key accepts has run the steps of that run. -/
  answers : ∀ t e key workerKey health sha job evidence, a = .go t e →
    s.pcs t = .dispatched key (some workerKey) health sha → e.answer = some job →
    s.answered c e.answer = some evidence → Accepted (c.request t) sha evidence.result →
    sortedNames (c.request job).stepNames = sortedNames (c.request t).stepNames

def Pc.key : Pc → Option CacheKey
  | .lookingUp key | .replaying key _ | .remoteLookup key _ _ | .polling key _ | .locked key
  | .claiming key | .storing key _ => some key
  | .dispatching key | .binding key _ _ | .dispatched key _ _ _ | .locking key | .beginning key
  | .executing key _ _ _ => key
  | .entered | .returned _ _ => none

/-- The key that `maybe_dispatch_remote` computed is of the same suite. -/
def SameSuite (key : Option CacheKey) (workerKey : CacheKey) : Prop :=
  ∃ k, key = some k ∧ workerKey.treeSha = k.treeSha ∧ workerKey.stepNames = k.stepNames

/-- The loop of `execute` so far. -/
structure Looping (c : Setting) (r : Request) (key : Option CacheKey) (candidateSha : String)
    (done : List StepRun) (rest : List HarnessStepConfig) : Prop where
  bound : ∀ k, key = some k → c.treeOf candidateSha = k.treeSha
  tree : ∀ run ∈ done, run.tree = some (c.treeOf candidateSha)
  whole : ∀ run ∈ done, run.ran = run.command
  selected : ∀ step ∈ rest, step ∈ r.steps
  /-- While every step passes, those that are left are still to come. -/
  covers : (∀ run ∈ done, run.execution.passed = true) → done.map StepRun.step ++ rest = r.steps

def PcOk (c : Setting) (r : Request) : Pc → Prop
  | .replaying key hit => Sound key hit.record.result hit.origin
  | .remoteLookup key workerKey _ => r.localOnly = false ∧ SameSuite (some key) workerKey
  | .binding key workerKey _ => r.localOnly = false ∧ ∀ k, workerKey = some k → SameSuite key k
  | .dispatched key workerKey _ sha =>
    r.localOnly = false ∧ ∀ k, workerKey = some k → SameSuite key k ∧ c.treeOf sha = k.treeSha
  | .executing key sha done rest => key.isSome ∨ r.isJob = true → Looping c r key sha done rest
  | .storing key evidence =>
    Attests key.treeSha key.stepNames evidence.result evidence.runs ∧ evidence.Full c.treeOf
  | .returned (some evidence) success =>
    evidence.replayed = true ∨ r.isJob = true → success = true ∨ evidence.result.success = true →
      evidence.Full c.treeOf ∧ (r.isJob = true →
        sortedNames (evidence.runs.map fun run => run.step.name) = sortedNames r.stepNames)
  | _ => True

structure RunOk (c : Setting) (r : Request) (checkout : Checkout) (pc : Pc) : Prop where
  key : ∀ key, pc.key = some key → key.stepNames = sortedNames r.stepNames ∧ r.cacheEnabled = true
  fresh : Fresh c r checkout pc
  ok : PcOk c r pc

structure Inv (c : Setting) (s : State) : Prop where
  stored : s.store.All Sound
  runs : ∀ t, RunOk c (c.request t) (s.checkouts (c.request t).root) (s.pcs t)

theorem Attests.full {treeOf : String → String} {tree : String} {stepNames : List String}
    {result : HarnessResult} {runs : List StepRun} {replayed : Bool}
    (h : Attests tree stepNames result runs) (htree : treeOf result.candidateSha = tree) :
    Evidence.Full treeOf ⟨result, runs, replayed⟩ := by
  refine ⟨?_, ?_, h.passed, h.whole, h.reported⟩
  · rw [htree]
    exact h.tree
  · rw [h.reported]

theorem stepCommand_eq {p : Process} {step : HarnessStepConfig} {files : Option (List String)} {ran : List String}
    (h : p.shardSpec step = none ∨ (p.resolveCommand step.cmd).any TESTS_TARGETS.contains = false)
    (hran : p.stepCommand step files = some ran) : ran = p.resolveCommand step.cmd := by
  unfold Process.stepCommand at hran
  split at hran
  · cases hran
  · rename_i command hcommand
    split at hran
    · rename_i hspec
      have htargets := h.resolve_left (by rw [hspec]; exact fun hnone => by cases hnone)
      rw [commandForShard, htargets] at hran
      cases hran
      rfl
    · cases hran
      rfl

theorem runStep_whole {p : Process} {tree : Option String} {step : HarnessStepConfig}
    {files : Option (List String)} {o : StepOutcome}
    (h : p.shardSpec step = none ∨ (p.resolveCommand step.cmd).any TESTS_TARGETS.contains = false) :
    (p.runStep tree step files o).ran = (p.runStep tree step files o).command := by
  unfold Process.runStep
  split
  · rename_i hran
    exact stepCommand_eq h hran
  · rfl

theorem runStep_tree (p : Process) (tree : Option String) (step : HarnessStepConfig)
    (files : Option (List String)) (o : StepOutcome) : (p.runStep tree step files o).tree = tree := by
  unfold Process.runStep
  split <;> rfl

theorem runStep_step (p : Process) (tree : Option String) (step : HarnessStepConfig)
    (files : Option (List String)) (o : StepOutcome) : (p.runStep tree step files o).step = step := by
  unfold Process.runStep
  split <;> rfl

theorem passed_of_success {candidateSha configHash : String} {steps : List HarnessStepConfig} {runs : List StepRun}
    (h : (harnessResult candidateSha configHash steps (runs.map StepRun.execution)).success = true) :
    ∀ run ∈ runs, run.execution.passed = true := by
  simp only [HarnessResult.success, harnessResult, Bool.and_eq_true, List.isEmpty_iff,
    List.map_eq_nil_iff, List.filter_eq_nil_iff] at h
  intro run hrun
  have hpassed := h.1.1.1 run.execution (List.mem_map_of_mem hrun)
  simpa using hpassed

variable {c : Setting}

theorem Looping.attests {r : Request} {key : Option CacheKey} {candidateSha : String}
    {done : List StepRun} (h : Looping c r key candidateSha done [])
    (hpassed : ∀ run ∈ done, run.execution.passed = true) :
    Attests (c.treeOf candidateSha) (sortedNames r.stepNames)
      (harnessResult candidateSha r.configHash r.steps (done.map StepRun.execution)) done := by
  have hsteps : done.map StepRun.step = r.steps := by
    have hcovers := h.covers hpassed
    rwa [List.append_nil] at hcovers
  have hnames : done.map (fun run => run.step.name) = r.stepNames := by
    rw [Request.stepNames, ← hsteps, List.map_map]
    rfl
  exact ⟨h.tree, by rw [hnames], hpassed, h.whole, hnames.symm⟩

section

variable {c : Setting} {r : Request} {checkout : Checkout}

structure Keyed (c : Setting) (r : Request) (checkout : Checkout) (key : CacheKey) : Prop where
  names : key.stepNames = sortedNames r.stepNames
  enabled : r.cacheEnabled = true
  fresh : c.treeOf checkout.head = key.treeSha

theorem runOk_idle {pc : Pc} (hawaits : ∀ b, pc.awaits c.treeOf b = pc.key.map CacheKey.treeSha)
    (htesting : pc.isTesting = false) (hkeyed : ∀ key, pc.key = some key → Keyed c r checkout key)
    (hok : PcOk c r pc) : RunOk c r checkout pc := by
  refine ⟨fun key hkey => ⟨(hkeyed key hkey).names, (hkeyed key hkey).enabled⟩, ?_, hok⟩
  intro tree htree
  rw [hawaits] at htree
  obtain ⟨key, hkey, rfl⟩ := Option.map_eq_some_iff.mp htree
  exact ⟨(hkeyed key hkey).fresh, fun h => by rw [htesting] at h; cases h⟩

theorem runOk_returned {evidence : Option Evidence} {success : Bool}
    (hok : PcOk c r (.returned evidence success)) : RunOk c r checkout (.returned evidence success) :=
  ⟨nofun, nofun, hok⟩

variable {key : Option CacheKey} {done : List StepRun}

theorem runOk_localPath (h : ∀ k, key = some k → Keyed c r checkout k) : RunOk c r checkout (localPath key) := by
  cases key with
  | none => exact runOk_idle (fun _ => rfl) rfl (fun _ hk => by cases hk) trivial
  | some key => exact runOk_idle (fun _ => rfl) rfl (fun k hk => h k hk) trivial

theorem runOk_enter (git : Bool) : RunOk c r checkout (enter c r checkout git) := by
  unfold enter
  split
  · rename_i h
    simp only [Bool.and_eq_true] at h
    refine runOk_idle (fun _ => rfl) rfl (fun key hkey => ?_) trivial
    cases hkey
    exact ⟨rfl, h.1.1, rfl⟩
  · exact runOk_idle (fun _ => rfl) rfl (fun _ hk => by cases hk) trivial

theorem runOk_afterLookup {key : CacheKey} {found : Option RunVerdict × Option RunWrite} {miss : Pc}
    (hkeyed : Keyed c r checkout key) (hfound : ∀ v, found.1 = some v → Sound key v.record.result v.origin)
    (hmiss : RunOk c r checkout miss) : RunOk c r checkout (afterLookup key found miss).1 := by
  unfold afterLookup
  split
  · rename_i hit hhit
    refine runOk_idle (fun _ => rfl) rfl (fun k hk => ?_) (hfound hit hhit)
    cases hk
    exact hkeyed
  · exact hmiss

theorem runOk_replay {key : CacheKey} {hit : RunVerdict} (git : Bool) (hkeyed : Keyed c r checkout key)
    (hsound : Sound key hit.record.result hit.origin) : RunOk c r checkout (replay checkout git hit) := by
  unfold replay
  split
  · rename_i sha hsha
    have htree : c.treeOf sha = key.treeSha := by
      rw [← hkeyed.fresh]
      simp only [Checkout.candidateSha] at hsha
      split at hsha <;> cases hsha
      rfl
    have hattests : Attests key.treeSha key.stepNames (cacheHitResult sha hit.record.result) hit.origin :=
      ⟨hsound.tree, hsound.names, hsound.passed, hsound.whole, hsound.reported⟩
    refine runOk_returned fun _ _ => ⟨hattests.full htree, fun _ => ?_⟩
    rw [hsound.names, hkeyed.names]
  · exact runOk_returned trivial

theorem runOk_dispatch (e : Event) (h : ∀ k, key = some k → Keyed c r checkout k) :
    RunOk c r checkout (dispatch c r checkout key e) := by
  unfold dispatch
  split
  · exact runOk_localPath h
  · rename_i hlocal
    simp only [Bool.or_eq_true, not_or, Bool.not_eq_true] at hlocal
    cases e.worker with
    | none =>
      simp only
      split
      · exact runOk_returned trivial
      · exact runOk_localPath h
    | some health =>
      cases key with
      | none =>
        exact runOk_idle (fun _ => rfl) rfl (fun _ hk => by cases hk) ⟨hlocal.2, fun _ hk => by cases hk⟩
      | some key =>
        simp only
        split
        · refine runOk_idle (fun _ => rfl) rfl h ⟨hlocal.2, key, rfl, ?_, ?_⟩
          · exact (h key rfl).fresh
          · exact (h key rfl).names.symm
        · exact runOk_idle (fun _ => rfl) rfl h ⟨hlocal.2, fun _ hk => by cases hk⟩

theorem runOk_bindCandidate (git : Bool) (h : ∀ k, key = some k → Keyed c r checkout k) :
    RunOk c r checkout (bindCandidate r checkout git key) := by
  unfold bindCandidate
  split
  · exact runOk_returned trivial
  · split
    · rename_i sha hsha
      have hclean : checkout.clean = true ∧ checkout.head = sha := by
        simp only [Checkout.candidateSha] at hsha
        split at hsha
        · rename_i hc
          simp only [Bool.and_eq_true] at hc
          cases hsha
          exact ⟨hc.2, rfl⟩
        · cases hsha
      refine ⟨fun k hk => ⟨(h k hk).names, (h k hk).enabled⟩, fun tree htree => ⟨?_, fun _ => hclean.1⟩,
        fun _ => ⟨fun k hk => ?_, nofun, nofun, fun _ hs => hs, fun _ => rfl⟩⟩
      · cases hsteps : r.steps with
        | nil =>
          rw [hsteps] at htree
          cases htree
        | cons step rest =>
          rw [hsteps] at htree
          cases key with
          | none =>
            simp only [Pc.awaits] at htree
            split at htree <;> cases htree
            rw [hclean.2]
          | some key =>
            cases htree
            exact (h key rfl).fresh
      · rw [← hclean.2]
        exact (h k hk).fresh
    · exact runOk_returned trivial

theorem Looping.next {sha : String} {step : HarnessStepConfig} {rest : List HarnessStepConfig} {run : StepRun}
    (h : Looping c r key sha done (step :: rest)) (htree : run.tree = some (c.treeOf sha))
    (hwhole : run.ran = run.command) (hstep : run.step = step) :
    Looping c r key sha (done ++ [run]) (if run.execution.passed then rest else []) := by
  refine ⟨h.bound, ?_, ?_, ?_, ?_⟩
  · exact List.forall_mem_append.mpr ⟨h.tree, List.forall_mem_singleton.mpr htree⟩
  · exact List.forall_mem_append.mpr ⟨h.whole, List.forall_mem_singleton.mpr hwhole⟩
  · intro s hs
    split at hs
    · exact h.selected s (List.mem_cons_of_mem _ hs)
    · cases hs
  · intro hpassed
    obtain ⟨hdone, hrun⟩ := List.forall_mem_append.mp hpassed
    rw [if_pos (hrun run (List.mem_singleton_self run)), List.map_append, List.append_assoc,
      List.map_singleton, List.singleton_append, hstep]
    exact h.covers hdone

theorem runOk_executeStep {sha : String}
    {step : HarnessStepConfig} {rest : List HarnessStepConfig} (e : Event) (hwhole : r.Whole)
    (h : RunOk c r checkout (.executing key sha done (step :: rest))) :
    RunOk c r checkout (executeStep c r checkout key sha done step rest e) := by
  -- Until its last step has started the run has to find the checkout it is in.
  have hfound : ∀ tree, (Pc.executing key sha done (step :: rest)).awaits c.treeOf r.isJob = some tree →
      checkout.tree c.treeOf = some tree := by
    intro tree htree
    obtain ⟨hhead, hclean⟩ := h.fresh tree htree
    rw [Checkout.tree, if_pos (hclean rfl), hhead]
  refine ⟨h.key, fun tree htree => ?_, fun hcounts => ?_⟩
  · have hsame : (Pc.executing key sha done (step :: rest)).awaits c.treeOf r.isJob = some tree := by
      simp only [executeStep] at htree
      split at htree
      · cases rest with
        | nil => cases htree
        | cons _ _ => exact htree
      · cases htree
    exact ⟨(h.fresh tree hsame).1, fun _ => (h.fresh tree hsame).2 rfl⟩
  · have hloop := h.ok hcounts
    refine hloop.next ?_ (runStep_whole (hwhole ?_ step (hloop.selected step List.mem_cons_self)))
      (runStep_step ..)
    · rw [runStep_tree]
      cases key with
      | none =>
        have hjob : r.isJob = true := hcounts.resolve_left (by simp)
        exact hfound _ (by rw [Pc.awaits, hjob]; rfl)
      | some key =>
        rw [hloop.bound key rfl]
        exact hfound _ rfl
    · cases key with
      | none => exact Or.inr (hcounts.resolve_left (by simp))
      | some key => exact Or.inl (h.key key rfl).2

theorem runOk_conclude {sha : String} (git : Bool) (h : RunOk c r checkout (.executing key sha done [])) :
    RunOk c r checkout (conclude r checkout git key sha done) := by
  unfold conclude
  split
  · exact runOk_returned trivial
  · have hattests : key.isSome ∨ r.isJob = true →
        (harnessResult sha r.configHash r.steps (done.map StepRun.execution)).success = true →
        Attests (c.treeOf sha) (sortedNames r.stepNames)
          (harnessResult sha r.configHash r.steps (done.map StepRun.execution)) done :=
      fun hcounts hsuccess => (h.ok hcounts).attests (passed_of_success hsuccess)
    cases key with
    | none =>
      refine runOk_returned fun hor hsuccess => ?_
      have hjob : r.isJob = true := hor.resolve_left (by simp)
      have hfull := hattests (Or.inr hjob) (hsuccess.elim id id)
      exact ⟨hfull.full rfl, fun _ => hfull.names⟩
    | some key =>
      simp only
      split
      · rename_i hsuccess
        have hfull := hattests (Or.inl rfl) hsuccess
        refine ⟨fun k hk => ?_, nofun, ?_, hfull.full rfl⟩
        · cases hk
          exact h.key key rfl
        · rw [← (h.ok (Or.inl rfl)).bound key rfl, (h.key key rfl).1]
          exact hfull
      · rename_i hsuccess
        exact runOk_returned fun _ hor => absurd (hor.resolve_left (by simp)) hsuccess

end

section

variable {c : Setting} {s : State}

theorem afterLookup_snd (key : CacheKey) (found : Option RunVerdict × Option RunWrite) (miss : Pc) :
    (afterLookup key found miss).2 = found.2 := by
  unfold afterLookup
  split <;> rfl

def MoveOk (c : Setting) (r : Request) (checkout : Checkout) (n : Pc × Option RunWrite) : Prop :=
  RunOk c r checkout n.1 ∧ ∀ w, n.2 = some w → VerdictStore.WriteOk Sound w

variable {r : Request} {checkout : Checkout}

theorem moveOk_silent {pc : Pc} (h : RunOk c r checkout pc) : MoveOk c r checkout (pc, none) :=
  ⟨h, fun _ hw => by cases hw⟩

theorem moveOk_write {pc : Pc} {w : RunWrite}
    (h : RunOk c r checkout pc) (hw : VerdictStore.WriteOk Sound w) : MoveOk c r checkout (pc, some w) := by
  refine ⟨h, fun w' hw' => ?_⟩
  cases hw'
  exact hw

theorem moveOk_afterLookup {key : CacheKey}
    {found : Option RunVerdict × Option RunWrite} {miss : Pc} (hkeyed : Keyed c r checkout key)
    (hfound : ∀ v, found.1 = some v → Sound key v.record.result v.origin)
    (hwrite : ∀ w, found.2 = some w → VerdictStore.WriteOk Sound w)
    (hmiss : RunOk c r checkout miss) : MoveOk c r checkout (afterLookup key found miss) :=
  ⟨runOk_afterLookup hkeyed hfound hmiss, fun w hw => hwrite w (afterLookup_snd key found miss ▸ hw)⟩

theorem answered_full (h : Inv c s) {job : Nat} {evidence : Evidence}
    (hanswer : s.answered c (some job) = some evidence) (hsuccess : evidence.result.success = true) :
    evidence.Full c.treeOf ∧
      sortedNames (evidence.runs.map fun run => run.step.name) = sortedNames (c.request job).stepNames := by
  simp only [State.answered] at hanswer
  split at hanswer
  · rename_i found success hpc
    split at hanswer
    · rename_i hjob
      have hok := (h.runs job).ok
      rw [hpc, hanswer] at hok
      have hboth := hok (Or.inr hjob) (Or.inr hsuccess)
      exact ⟨hboth.1, hboth.2 hjob⟩
    · cases hanswer
  · cases hanswer

theorem resolve_ok {key workerKey : Option CacheKey}
    {health : Health} {sha : String} {online : Bool} {answer : Evidence}
    (hok : PcOk c r (.dispatched key workerKey health sha))
    (hkeyed : ∀ k, key = some k → k.stepNames = sortedNames r.stepNames)
    (hfull : Accepted r sha answer.result → answer.Full c.treeOf ∧ (workerKey.isSome →
      sortedNames (answer.runs.map fun run => run.step.name) = sortedNames r.stepNames)) :
    MoveOk c r checkout (resolve r workerKey health sha online answer) := by
  -- A dispatched run is not a job, and it has replayed nothing.
  have hreturned : RunOk c r checkout (.returned (some { answer with replayed := false }) true) := by
    refine runOk_returned fun hor => ?_
    have hjob := hor.resolve_left (by simp)
    simp only [Request.isJob, hok.1, Bool.and_false, Bool.false_and] at hjob
    cases hjob
  unfold resolve
  simp only
  split
  · exact moveOk_silent (runOk_returned trivial)
  · rename_i hbound
    simp only [ne_eq, not_or, Decidable.not_not] at hbound
    split
    · rename_i hsuccess
      cases workerKey with
      | none => exact moveOk_silent hreturned
      | some workerKey =>
        refine moveOk_write hreturned ?_
        obtain ⟨hfull, hnames⟩ := hfull ⟨hbound.1, hbound.2, hsuccess⟩
        obtain ⟨⟨k, hk, -, hsame⟩, hsha⟩ := hok.2 workerKey rfl
        refine ⟨?_, ?_, hfull.passed, hfull.whole, hfull.reported⟩
        · rw [← hsha, ← hbound.1]
          exact hfull.tree
        · rw [hnames rfl, hsame, hkeyed k hk]
    · exact moveOk_silent (runOk_returned trivial)

theorem next_ok (hwhole : ∀ t, (c.request t).Whole) (h : Inv c s) {t : Nat} {e : Event}
    (hsteady : Steady c s (.go t e)) :
    MoveOk c (c.request t) (s.checkouts (c.request t).root) (next c s t e) := by
  have hrun := h.runs t
  have hlookup := fun key => VerdictStore.getVerdict_all h.stored (c.request t).process.host key e.online
  have hkeyed : ∀ key, (s.pcs t).key = some key → (s.pcs t).awaits c.treeOf (c.request t).isJob = some key.treeSha →
      Keyed c (c.request t) (s.checkouts (c.request t).root) key := fun key hkey hawaits =>
    ⟨(hrun.key key hkey).1, (hrun.key key hkey).2, (hrun.fresh _ hawaits).1⟩
  unfold next
  generalize hpc : s.pcs t = pc at hrun hkeyed
  cases pc with
  | entered => exact moveOk_silent (runOk_enter e.git)
  | lookingUp key =>
    have hk := hkeyed key rfl rfl
    refine moveOk_afterLookup hk (hlookup key).1 (hlookup key).2 ?_
    exact runOk_idle (fun _ => rfl) rfl (fun k hk' => by cases hk'; exact hk) trivial
  | replaying key hit => exact moveOk_silent (runOk_replay e.git (hkeyed key rfl rfl) hrun.ok)
  | dispatching key =>
    exact moveOk_silent (runOk_dispatch e fun k hk => hkeyed k hk (by rw [hk]; rfl))
  | remoteLookup key workerKey health =>
    have hk := hkeyed key rfl rfl
    obtain ⟨hlocal, k, hkk, htree, hnames⟩ := hrun.ok
    cases hkk
    refine moveOk_afterLookup hk (fun v hv => ?_) (hlookup workerKey).2 ?_
    · have hsound := (hlookup workerKey).1 v hv
      unfold Sound at hsound ⊢
      rw [← htree, ← hnames]
      exact hsound
    · refine runOk_idle (fun _ => rfl) rfl (fun k hk' => by cases hk'; exact hk) ⟨hlocal, fun k hk' => ?_⟩
      cases hk'
      exact ⟨key, rfl, htree, hnames⟩
  | binding key workerKey health =>
    have hk : ∀ k, key = some k → Keyed c (c.request t) (s.checkouts (c.request t).root) k :=
      fun k hk => hkeyed k hk (by rw [hk]; rfl)
    simp only
    split
    · rename_i sha hsha
      refine moveOk_silent ⟨fun k hk' => ⟨(hk k hk').names, (hk k hk').enabled⟩,
        fun _ hawaits => (by cases hawaits), hrun.ok.1, fun wk hwk => ?_⟩
      obtain ⟨k, hkk, htree, hnames⟩ := hrun.ok.2 wk hwk
      refine ⟨⟨k, hkk, htree, hnames⟩, ?_⟩
      rw [htree, ← (hk k hkk).fresh]
      simp only [Checkout.candidateSha] at hsha
      split at hsha <;> cases hsha
      rfl
    · exact moveOk_silent (runOk_localPath hk)
  | dispatched key workerKey health sha =>
    simp only
    split
    · rename_i answer hanswer
      refine resolve_ok hrun.ok (fun k hk => (hrun.key k hk).1) fun haccepted => ?_
      cases hjob : e.answer with
      | none =>
        rw [hjob] at hanswer
        cases hanswer
      | some job =>
        obtain ⟨hfull, hnames⟩ := answered_full h (hjob ▸ hanswer) haccepted.success
        refine ⟨hfull, fun hsome => ?_⟩
        obtain ⟨wk, rfl⟩ := Option.isSome_iff_exists.mp hsome
        rw [hnames, hsteady.answers t e key wk health sha job answer rfl hpc hjob hanswer haccepted]
    · rename_i hanswer
      refine moveOk_silent (runOk_idle (fun _ => rfl) rfl (fun k hk => ?_) trivial)
      cases hk
      exact ⟨(hrun.key k rfl).1, (hrun.key k rfl).2, hsteady.falls t e k workerKey health sha rfl hpc hanswer⟩
  | polling key second =>
    have hk : ∀ k, some key = some k → Keyed c (c.request t) (s.checkouts (c.request t).root) k :=
      fun k hk => hkeyed k hk (by cases hk; rfl)
    simp only
    split
    · rename_i hit hhit
      have hsound := VerdictStore.getRemoteVerdict_all h.stored hhit
      exact moveOk_write (runOk_idle (fun _ => rfl) rfl hk hsound) hsound
    · split
      · exact moveOk_silent (runOk_idle (fun _ => rfl) rfl hk trivial)
      · refine moveOk_silent ?_
        split <;> exact runOk_idle (fun _ => rfl) rfl hk trivial
  | locking key =>
    have hk : ∀ k, key = some k → Keyed c (c.request t) (s.checkouts (c.request t).root) k :=
      fun k hk => hkeyed k hk (by rw [hk]; rfl)
    simp only
    split
    · exact moveOk_silent (runOk_returned trivial)
    · cases key with
      | none => exact moveOk_silent (runOk_idle (fun _ => rfl) rfl hk trivial)
      | some key => exact moveOk_silent (runOk_idle (fun _ => rfl) rfl hk trivial)
  | locked key =>
    have hk := hkeyed key rfl rfl
    refine moveOk_afterLookup hk (hlookup key).1 (hlookup key).2 ?_
    exact runOk_idle (fun _ => rfl) rfl (fun k hk' => by cases hk'; exact hk) trivial
  | claiming key =>
    refine moveOk_silent ?_
    split <;> exact runOk_idle (fun _ => rfl) rfl (fun k hk => hkeyed k hk (by cases hk; rfl)) trivial
  | beginning key =>
    exact moveOk_silent (runOk_bindCandidate e.git fun k hk => hkeyed k hk (by rw [hk]; rfl))
  | executing key sha done rest =>
    cases rest with
    | nil => exact moveOk_silent (runOk_conclude e.git hrun)
    | cons step rest => exact moveOk_silent (runOk_executeStep e (hwhole t) hrun)
  | storing key evidence =>
    have hnames := hrun.ok.1.names.trans (hrun.key key rfl).1
    exact moveOk_write (runOk_returned fun _ _ => ⟨hrun.ok.2, fun _ => hnames⟩) hrun.ok.1
  | returned evidence success => exact moveOk_silent hrun

theorem inv_step (hwhole : ∀ t, (c.request t).Whole) (h : Inv c s) (a : Act) (hsteady : Steady c s a) :
    Inv c (step c s a) := by
  cases a with
  | go t e =>
    obtain ⟨hrun, hwrite⟩ := next_ok hwhole h hsteady
    have hruns : ∀ t', RunOk c (c.request t') (s.checkouts (c.request t').root)
        ((s.setPc t (next c s t e).1).pcs t') := by
      intro t'
      simp only [State.setPc]
      split
      · rename_i heq
        rw [heq]
        exact hrun
      · exact h.runs t'
    simp only [step]
    cases hw : (next c s t e).2 with
    | none => exact ⟨h.stored, hruns⟩
    | some w => exact ⟨VerdictStore.all_write h.stored (hwrite w hw) _, hruns⟩
  | edit root checkout =>
    refine ⟨h.stored, fun t => ?_⟩
    obtain ⟨hkey, hfresh, hok⟩ := h.runs t
    refine ⟨hkey, ?_, hok⟩
    simp only [step, State.edit]
    split
    · rename_i hroot
      exact hsteady.edits root checkout rfl t hroot
    · exact hfresh
  | forget host key => exact ⟨VerdictStore.all_setLocal h.stored nofun, h.runs⟩

theorem Inv.cacheSound (h : Inv c s) : CacheSound c s := by
  refine ⟨h.stored, fun t evidence hpc hreplayed => ?_⟩
  have hok := (h.runs t).ok
  rw [hpc] at hok
  exact (hok (Or.inl hreplayed) (Or.inl rfl)).1

theorem inv_init (c : Setting) (checkouts : String → Checkout) : Inv c (State.init checkouts) :=
  ⟨VerdictStore.all_empty, fun _ => ⟨nofun, nofun, trivial⟩⟩

/-- The verdicts are sound in every state of a steady run. -/
theorem verdict_cache_sound (c : Setting) (checkouts : String → Checkout) (acts : List Act)
    (hwhole : ∀ t, (c.request t).Whole)
    (hsteady : ∀ m ∈ Runs.moves (step c) (State.init checkouts) acts, Steady c m.pre m.act) :
    ∀ before after, acts = before ++ after →
      CacheSound c (Runs.run (step c) (State.init checkouts) before) := by
  intro before after heq
  subst heq
  have hbefore : Inv c (Runs.run (step c) (State.init checkouts) before) := by
    refine Runs.run_invariant_of (I := Inv c) (C := Steady c) (fun s a hs => inv_step hwhole hs a)
      (inv_init c checkouts) fun m hm => hsteady m ?_
    rw [Runs.moves_append]
    exact List.mem_append_left _ hm
  exact hbefore.cacheSound

end

def testsStep : HarnessStepConfig where
  name := "tests"
  cmd := "python -m pytest tests"
  quick := true
  kind := some .test

def slowStep : HarnessStepConfig where
  name := "slow"
  cmd := "python -m pytest slow"
  kind := some .test

def suite : HarnessConfig := ⟨[testsStep, slowStep], by decide, by decide⟩

def runner : Process where
  host := "vps"
  resolveCommand := fun cmd => if cmd = testsStep.cmd then ["pytest", "tests"] else ["pytest", "slow"]

def quickRun : Request where
  process := runner
  root := "checkout"
  config := suite
  configHash := "config"
  quick := true

def shardedRun : Request := { quickRun with process := { runner with testShard := "1/2" } }

def jobRun : Request :=
  { quickRun with
    process := { runner with host := "worker", workerJob := "1" }
    root := "worktree"
    localOnly := true }

def treeOfCommit (commit : String) : String := "tree of " ++ commit

def atCommit (commit : String) : State := .init fun _ => ⟨commit, true⟩

def untilLock (t : Nat) : List Act := [.go t {}, .go t {}, .go t {}, .go t {}, .go t {}]

def fromLock (t : Nat) : List Act :=
  [.go t {}, .go t {}, .go t {},
    .go t { files := some ["tests/test_a.py"], outcome := .exited 0 3 3 0 }, .go t {}, .go t {}]

def replayRun (t : Nat) : List Act := [.go t {}, .go t {}, .go t {}]

def untilDispatch (t : Nat) : List Act :=
  [.go t {}, .go t {}, .go t { worker := some ⟨"worker", none, none⟩ }, .go t {}, .go t {}]

/-- The branch is switched while a run waits for the suite lock, and back before the next run. -/
def switchedActs : List Act :=
  untilLock 0 ++ [.edit "checkout" ⟨"b", true⟩] ++ fromLock 0 ++ [.edit "checkout" ⟨"a", true⟩] ++ replayRun 1

def dispatchedActs : List Act :=
  untilDispatch 0 ++ untilLock 1 ++ fromLock 1 ++ [.go 0 { answer := some 1 }]

theorem not_cacheSound_of_stored {s : State} (host : String) (key : CacheKey)
    (h : (s.store.locals host key).any (fun v => !decide (Sound key v.record.result v.origin)) = true) :
    ¬ CacheSound c s := by
  intro hsound
  cases hv : s.store.locals host key with
  | none =>
    rw [hv] at h
    cases h
  | some v =>
    rw [hv] at h
    simp only [Option.any_some, Bool.not_eq_true', decide_eq_false_iff_not] at h
    exact h (hsound.stored.locals host key v hv)

def Pc.replayedEvidence : Pc → Option Evidence
  | .returned (some evidence) true => if evidence.replayed then some evidence else none
  | _ => none

theorem not_cacheSound_of_replayed {s : State} {t : Nat}
    (h : (s.pcs t).replayedEvidence.any (fun e => !decide (e.Full c.treeOf)) = true) :
    ¬ CacheSound c s := by
  intro hsound
  cases hpc : s.pcs t with
  | returned found success =>
    rw [hpc] at h
    simp only [Pc.replayedEvidence] at h
    split at h
    · rename_i evidence hreturned
      cases hreturned
      split at h
      · rename_i hreplayed
        simp only [Option.any_some, Bool.not_eq_true', decide_eq_false_iff_not] at h
        exact h (hsound.replayed t evidence hpc hreplayed)
      · cases h
    · cases h
  | _ =>
    rw [hpc] at h
    cases h

/-- A verdict of another tree is replayed, one of a shard is stored, and so is one of the quick steps
under the key of all. -/
theorem poisoned_cache :
    ¬ CacheSound ⟨treeOfCommit, fun _ => quickRun⟩
        (Runs.run (step ⟨treeOfCommit, fun _ => quickRun⟩) (atCommit "a") switchedActs) ∧
      ¬ CacheSound ⟨treeOfCommit, fun _ => shardedRun⟩
        (Runs.run (step ⟨treeOfCommit, fun _ => shardedRun⟩) (atCommit "a")
          (untilLock 0 ++ fromLock 0)) ∧
      ¬ CacheSound ⟨treeOfCommit, fun t => if t = 0 then { quickRun with quick := false } else jobRun⟩
        (Runs.run
          (step ⟨treeOfCommit, fun t => if t = 0 then { quickRun with quick := false } else jobRun⟩)
          (atCommit "a") dispatchedActs) := by
  refine ⟨not_cacheSound_of_replayed (t := 1) ?_,
    not_cacheSound_of_stored "vps" (quickRun.cacheKey "tree of a" none none) ?_,
    not_cacheSound_of_stored "vps"
      (Request.cacheKey { quickRun with quick := false } "tree of a" (some "windows") none) ?_⟩
  · decide +kernel
  · decide +kernel
  · decide +kernel

theorem steady_go {s : State} {t : Nat} {e : Event}
    (h : ∀ key workerKey health sha, s.pcs t ≠ .dispatched key workerKey health sha) :
    Steady c s (.go t e) := by
  refine ⟨nofun, fun t' e' key workerKey health sha ha hpc => ?_,
    fun t' e' key workerKey health sha _ _ ha hpc => ?_⟩
  · cases ha
    exact absurd hpc (h (some key) workerKey health sha)
  · cases ha
    exact absurd hpc (h key (some workerKey) health sha)

def Pc.isDispatched : Pc → Bool
  | .dispatched _ _ _ _ => true
  | _ => false

def isLocalMove (m : Move State Act) : Bool :=
  match m.act with
  | .go t _ => !(m.pre.pcs t).isDispatched
  | _ => false

theorem steady_of_isLocal {m : Move State Act} (h : isLocalMove m = true) : Steady c m.pre m.act := by
  obtain ⟨pre, act, post⟩ := m
  cases act with
  | go t e =>
    refine steady_go fun key workerKey health sha hpc => ?_
    have hpre : pre.pcs t = .dispatched key workerKey health sha := hpc
    simp only [isLocalMove] at h
    rw [hpre] at h
    cases h
  | edit root checkout => cases h
  | forget host key => cases h

/-- A run stores its verdict and the next one replays it. -/
theorem stored_and_replayed :
    CacheSound ⟨treeOfCommit, fun _ => quickRun⟩
        (Runs.run (step ⟨treeOfCommit, fun _ => quickRun⟩) (atCommit "a")
          (untilLock 0 ++ fromLock 0 ++ replayRun 1)) ∧
      ((Runs.run (step ⟨treeOfCommit, fun _ => quickRun⟩) (atCommit "a")
        (untilLock 0 ++ fromLock 0 ++ replayRun 1)).pcs 1).replayedEvidence.isSome = true := by
  constructor
  · refine verdict_cache_sound ⟨treeOfCommit, fun _ => quickRun⟩ _ _ (fun _ _ step _ => ?_) ?_ _ []
      (List.append_nil _).symm
    · have hblank : Text.strip quickRun.process.testShard = "" := by decide +kernel
      simp [Process.shardSpec, hblank]
    · have hlocal : ((Runs.moves (step ⟨treeOfCommit, fun _ => quickRun⟩) (atCommit "a")
          (untilLock 0 ++ fromLock 0 ++ replayRun 1)).all isLocalMove) = true := by
        decide +kernel
      exact fun m hm => steady_of_isLocal (List.all_eq_true.mp hlocal m hm)
  · decide +kernel

end CachedRun
end Harness
end DarkFactory
