import DarkFactory.Harness.Runner

/-!
# DarkFactory.Harness.CachedRun

`_run_with_cache` of `core/harness/runner.py`: any number of runs on any hosts, with the verdicts they
share, the checkouts they work in, and whatever else is done to these meanwhile.

* A query of git, a call of `cache.py` and the run of a step are one move each. What a move meets
  outside comes with it as an `Event`.
* A dispatched suite is one of the runs: the job that the worker starts with `--quick --local`.
* A verdict keeps the executions behind its record. No function reads them.
-/

namespace DarkFactory
namespace Harness
namespace CachedRun

/-- A working tree: the commit checked out, and whether `git status` reports nothing. -/
structure Checkout where
  head : String
  clean : Bool := true
deriving DecidableEq

/-- `_candidate_sha`, when git answers. -/
def Checkout.candidateSha (c : Checkout) (git : Bool) : Option String :=
  if git && c.clean then some c.head else none

/-- A call of `_run_with_cache`. -/
structure Request where
  process : Process
  /-- `PROJECT_ROOT`. -/
  root : String
  config : HarnessConfig
  configHash : String
  quick : Bool := false
  includeHoldout : Bool := false
  noCache : Bool := false
  localOnly : Bool := false
  remoteRequired : Bool := false

namespace Request

def steps (r : Request) : List HarnessStepConfig := r.config.selectedSteps r.quick r.includeHoldout

def stepNames (r : Request) : List String := r.steps.map HarnessStepConfig.name

def cacheEnabled (r : Request) : Bool :=
  !r.steps.isEmpty && !r.noCache && !cacheDisabled r.process.platform

def cacheKey (r : Request) (treeHash : String) (platformFamily pythonVersion : Option String) : CacheKey :=
  computeCacheKey r.process.platform treeHash r.configHash r.stepNames r.quick r.includeHoldout
    platformFamily pythonVersion

/-- The run of a job on a worker: `runner.py --quick --local`. -/
def isJob (r : Request) : Bool :=
  decide (r.process.workerJob = "1") && r.quick && r.localOnly && !r.noCache

end Request

abbrev RunVerdict := Verdict (List StepRun)

abbrev RunWrite := Write (List StepRun)

structure Evidence where
  result : HarnessResult
  runs : List StepRun
  /-- By `_emit_cache_hit`. -/
  replayed : Bool := false
deriving DecidableEq

/-- What a worker says of itself in `/health`. -/
structure Health where
  hostname : String
  platformFamily : Option String := none
  pythonVersion : Option String := none
deriving DecidableEq

/-- Where a run stands; `key` is its `cache_key`. -/
inductive Pc where
  | entered
  /-- `get_verdict(cache_key)`. -/
  | lookingUp (key : CacheKey)
  /-- `_emit_cache_hit`. -/
  | replaying (key : CacheKey) (hit : RunVerdict)
  /-- `maybe_dispatch_remote`, about to take the next worker. -/
  | dispatching (key : Option CacheKey)
  /-- `get_verdict(worker_key)`. -/
  | remoteLookup (key workerKey : CacheKey) (health : Health)
  /-- `_local_candidate_sha`. -/
  | binding (key workerKey : Option CacheKey) (health : Health)
  /-- The worker runs the suite for the candidate. -/
  | dispatched (key workerKey : Option CacheKey) (health : Health) (candidateSha : String)
  /-- `poll_for_remote_verdict`, before the suite lock or the `second` time. -/
  | polling (key : CacheKey) (second : Bool)
  /-- `suite_lock`. -/
  | locking (key : Option CacheKey)
  /-- `get_verdict(cache_key)` under the lock. -/
  | locked (key : CacheKey)
  /-- `acquire_inflight`. -/
  | claiming (key : CacheKey)
  /-- `execute`, about to bind the candidate. -/
  | beginning (key : Option CacheKey)
  /-- The loop of `execute`. -/
  | executing (key : Option CacheKey) (candidateSha : String) (done : List StepRun)
      (rest : List HarnessStepConfig)
  /-- `store_verdict`. -/
  | storing (key : CacheKey) (evidence : Evidence)
  /-- With the result it printed, if any. -/
  | returned (evidence : Option Evidence) (success : Bool)
deriving DecidableEq

structure Event where
  /-- Git answers. -/
  git : Bool := true
  /-- The database answers. -/
  online : Bool := true
  /-- The next worker that is reachable, idle and stable. -/
  worker : Option Health := none
  /-- The job that answers a dispatch, unless the worker is lost. -/
  answer : Option Nat := none
  /-- `RemoteRequiredError` or `SuiteLockTimeout`. -/
  raised : Bool := false
  /-- `get_inflight_claim` finds a claim, before the deadline. -/
  waits : Bool := false
  /-- `acquire_inflight` has claimed the key. -/
  claimed : Bool := true
  files : Option (List String) := none
  outcome : StepOutcome := .error

structure Setting where
  /-- The tree of a commit. -/
  treeOf : String → String
  request : Nat → Request

/-- The tree that is checked out, unless there are changes. -/
def Checkout.tree (c : Checkout) (treeOf : String → String) : Option String :=
  if c.clean then some (treeOf c.head) else none

structure State where
  checkouts : String → Checkout
  store : VerdictStore (List StepRun) := {}
  pcs : Nat → Pc := fun _ => .entered

namespace State

def answered (s : State) (c : Setting) (answer : Option Nat) : Option Evidence :=
  match answer with
  | none => none
  | some job =>
    match s.pcs job with
    | .returned evidence _ => if (c.request job).isJob then evidence else none
    | _ => none

end State

def localPath (key : Option CacheKey) : Pc :=
  match key with
  | some key => .polling key false
  | none => .locking none

def afterLookup (key : CacheKey) (found : Option RunVerdict × Option RunWrite) (miss : Pc) : Pc × Option RunWrite :=
  match found.1 with
  | some hit => (.replaying key hit, found.2)
  | none => (miss, found.2)

/-- The head of `_run_with_cache`: the cache key. -/
def enter (c : Setting) (r : Request) (checkout : Checkout) (git : Bool) : Pc :=
  if r.cacheEnabled && git && checkout.clean then
    .lookingUp (r.cacheKey (c.treeOf checkout.head) none none)
  else .dispatching none

/-- `_emit_cache_hit`. -/
def replay (checkout : Checkout) (git : Bool) (hit : RunVerdict) : Pc :=
  match checkout.candidateSha git with
  | some currentSha =>
    .returned (some ⟨cacheHitResult currentSha hit.record.result, hit.origin, true⟩) true
  | none => .returned none false

/-- The next worker of `maybe_dispatch_remote`, and its key. -/
def dispatch (c : Setting) (r : Request) (checkout : Checkout) (key : Option CacheKey) (e : Event) : Pc :=
  if r.steps.isEmpty || r.localOnly then localPath key
  else
    match e.worker with
    | none => if r.remoteRequired && e.raised then .returned none false else localPath key
    | some health =>
      match key with
      | some key =>
        if e.git then
          .remoteLookup key (r.cacheKey (c.treeOf checkout.head)
            (some (orDefault health.platformFamily "windows")) health.pythonVersion) health
        else .binding (some key) none health
      | none => .binding none none health

/-- The record that `maybe_dispatch_remote` stores of the execution of the worker. -/
def remoteRecord (r : Request) (workerKey : CacheKey) (health : Health) (result : HarnessResult) : Record :=
  { buildRecord r.process.platform r.process.host workerKey.treeSha result.candidateSha r.configHash
      result with
    host := health.hostname
    osFamily := workerKey.platformFamily
    pyVersion := workerKey.pythonVersion }

/-- `_finalize_remote_result`, and the store after it. -/
def resolve (r : Request) (workerKey : Option CacheKey) (health : Health) (candidateSha : String)
    (online : Bool) (answer : Evidence) : Pc × Option RunWrite :=
  let result := answer.result
  if result.candidateSha ≠ candidateSha ∨ result.configHash ≠ r.configHash then (.returned none false, none)
  else if result.success then
    let evidence := { answer with replayed := false }
    match workerKey with
    | some workerKey =>
      (.returned (some evidence) true,
        some (.store workerKey ⟨remoteRecord r workerKey health result, answer.runs⟩ online))
    | none => (.returned (some evidence) true, none)
  else (.returned none false, none)

/-- The head of `execute`. -/
def bindCandidate (r : Request) (checkout : Checkout) (git : Bool) (key : Option CacheKey) : Pc :=
  if r.steps.isEmpty then .returned none false
  else
    match checkout.candidateSha git with
    | some candidateSha => .executing key candidateSha [] r.steps
    | none => .returned none false

/-- A round of the loop of `execute`. -/
def executeStep (c : Setting) (r : Request) (checkout : Checkout) (key : Option CacheKey)
    (candidateSha : String) (done : List StepRun) (step : HarnessStepConfig)
    (rest : List HarnessStepConfig) (e : Event) : Pc :=
  let run := r.process.runStep (checkout.tree c.treeOf) step e.files e.outcome
  .executing key candidateSha (done ++ [run]) (if run.execution.passed then rest else [])

/-- What `execute` does after its loop. -/
def conclude (r : Request) (checkout : Checkout) (git : Bool) (key : Option CacheKey)
    (candidateSha : String) (done : List StepRun) : Pc :=
  if checkout.candidateSha git ≠ some candidateSha then .returned none false
  else
    let result := harnessResult candidateSha r.configHash r.steps (done.map StepRun.execution)
    match key with
    | some key =>
      if result.success then .storing key ⟨result, done, false⟩
      else .returned (some ⟨result, done, false⟩) false
    | none => .returned (some ⟨result, done, false⟩) result.success

/-- The record that `_run_with_cache` stores of its own execution. -/
def localRecord (r : Request) (key : CacheKey) (result : HarnessResult) : Record :=
  buildRecord r.process.platform r.process.host key.treeSha result.candidateSha r.configHash result

def next (c : Setting) (s : State) (t : Nat) (e : Event) : Pc × Option RunWrite :=
  let r := c.request t
  let checkout := s.checkouts r.root
  let host := r.process.host
  match s.pcs t with
  | .entered => (enter c r checkout e.git, none)
  | .lookingUp key => afterLookup key (s.store.getVerdict host key e.online) (.dispatching (some key))
  | .replaying _ hit => (replay checkout e.git hit, none)
  | .dispatching key => (dispatch c r checkout key e, none)
  | .remoteLookup key workerKey health =>
    afterLookup key (s.store.getVerdict host workerKey e.online) (.binding (some key) (some workerKey) health)
  | .binding key workerKey health =>
    match checkout.candidateSha e.git with
    | some candidateSha => (.dispatched key workerKey health candidateSha, none)
    | none => (localPath key, none)
  | .dispatched key workerKey health candidateSha =>
    match s.answered c e.answer with
    | some answer => resolve r workerKey health candidateSha e.online answer
    | none => (.dispatching key, none)
  | .polling key second =>
    match s.store.getRemoteVerdict key e.online with
    | some hit => (.replaying key hit, some (.setLocal key hit))
    | none =>
      if e.waits then (.polling key second, none)
      else (if second then .beginning (some key) else .locking (some key), none)
  | .locking key =>
    if e.raised then (.returned none false, none)
    else
      match key with
      | some key => (.locked key, none)
      | none => (.beginning none, none)
  | .locked key => afterLookup key (s.store.getVerdict host key e.online) (.claiming key)
  | .claiming key => (if e.claimed then .beginning (some key) else .polling key true, none)
  | .beginning key => (bindCandidate r checkout e.git key, none)
  | .executing key candidateSha done (step :: rest) =>
    (executeStep c r checkout key candidateSha done step rest e, none)
  | .executing key candidateSha done [] => (conclude r checkout e.git key candidateSha done, none)
  | .storing key evidence =>
    (.returned (some evidence) true, some (.store key ⟨localRecord r key evidence.result, evidence.runs⟩ e.online))
  | .returned evidence success => (.returned evidence success, none)

inductive Act where
  /-- A run goes on. -/
  | go (t : Nat) (e : Event)
  /-- A commit, a checkout or an edit in a root. -/
  | edit (root : String) (checkout : Checkout)
  /-- A local entry is lost: to a concurrent write of the file, or with the file. -/
  | forget (host : String) (key : CacheKey)

namespace State

def setPc (s : State) (t : Nat) (pc : Pc) : State :=
  { s with pcs := fun t' => if t' = t then pc else s.pcs t' }

def edit (s : State) (root : String) (checkout : Checkout) : State :=
  { s with checkouts := fun root' => if root' = root then checkout else s.checkouts root' }

end State

def step (c : Setting) (s : State) : Act → State
  | .go t e =>
    let (pc, w) := next c s t e
    let s := s.setPc t pc
    match w with
    | some w => { s with store := s.store.write (c.request t).process.host w }
    | none => s
  | .edit root checkout => s.edit root checkout
  | .forget host key => { s with store := s.store.setLocal host key none }

def State.init (checkouts : String → Checkout) : State := { checkouts := checkouts }

end CachedRun
end Harness
end DarkFactory
