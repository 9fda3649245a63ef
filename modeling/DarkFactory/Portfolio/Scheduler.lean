import Mathlib.Algebra.Order.Ring.Rat
import Mathlib.Data.List.MinMax
import DarkFactory.Lib.Lookup

/-!
# DarkFactory.Portfolio.Scheduler

The weighted fair scheduler of `core/portfolio/scheduler.py`, in its own (not composed) mode.

* `WeightConfig`, `SlotCapacityConfig` — the configuration, with positive weights.
* `Memory` — the queues in the order of their creation, the starvation ticks, the credits and the active slots.
* `enqueueJob`, `dequeueNext`, `acquireSlot`, `releaseSlot` — the operations on it.
* `save`, `load` — the state file. Payloads go through `json`, which is none where `json.dumps` raises.

A slot kind is a string enum: it equals its text, so that nothing depends on whether it went through JSON.
-/

namespace DarkFactory
namespace Portfolio

inductive JobSlotKind where
  | heavy
  | light
  deriving DecidableEq

structure SlotAllocation where
  slotId : JobSlotKind × String
  jobId : String
  workerId : String
  kind : JobSlotKind
  acquiredAt : Int
  expiresAt : Int
  deriving DecidableEq

structure SlotCapacityConfig where
  maxHeavySlots : Nat := 1
  maxLightSlots : Nat := 4

structure WeightConfig where
  weights : List (String × Rat)
  defaultWeight : Rat
  maxStarvationTicks : Nat
  positive : 0 < defaultWeight ∧ ∀ entry ∈ weights, 0 < entry.2

structure Config where
  capacity : SlotCapacityConfig
  weights : WeightConfig

/-- `weights.get(project, default_weight)` -/
def Config.weight (cfg : Config) (project : String) : Rat :=
  ((Lookup.get Prod.fst cfg.weights.weights project).map Prod.snd).getD cfg.weights.defaultWeight

def SlotCapacityConfig.limit (c : SlotCapacityConfig) : JobSlotKind → Nat
  | .heavy => c.maxHeavySlots
  | .light => c.maxLightSlots

structure Job (P : Type) where
  jobId : String
  projectId : String
  kind : JobSlotKind
  priority : Int
  enqueuedAt : Int
  payload : P
  deriving DecidableEq

structure Memory (P : Type) where
  queues : List (String × List (Job P))
  starvationTicks : String → Nat
  deficitCredits : String → Rat
  activeSlots : List SlotAllocation

def Memory.empty (P : Type) : Memory P := ⟨[], fun _ => 0, fun _ => 0, []⟩

variable {P : Type}

def Memory.queue (m : Memory P) (project : String) : List (Job P) :=
  ((Lookup.get Prod.fst m.queues project).map Prod.snd).getD []

def reconcileExpired (slots : List SlotAllocation) (now : Int) : List SlotAllocation :=
  slots.filter fun slot => decide (now < slot.expiresAt)

def activeCount (slots : List SlotAllocation) (kind : JobSlotKind) : Nat :=
  (slots.filter fun slot => decide (slot.kind = kind)).length

/-- `can_acquire_slot` on slots that were just reconciled. -/
def canAcquire (cfg : Config) (slots : List SlotAllocation) (kind : JobSlotKind) : Bool :=
  decide (activeCount slots kind < cfg.capacity.limit kind)

def acquireSlot (cfg : Config) (m : Memory P) (jobId workerId draw : String) (kind : JobSlotKind) (lease : Int)
    (clock : Nat → Int) : Option SlotAllocation × Memory P :=
  let slots := reconcileExpired (reconcileExpired m.activeSlots (clock 0)) (clock 1)
  if canAcquire cfg slots kind then
    let slot : SlotAllocation := ⟨(kind, draw), jobId, workerId, kind, clock 2, clock 2 + lease⟩
    (some slot, { m with activeSlots := Lookup.put SlotAllocation.slotId slots slot })
  else (none, { m with activeSlots := reconcileExpired slots (clock 2) })

def releaseSlot (m : Memory P) (slotId : JobSlotKind × String) : Bool × Memory P :=
  if m.activeSlots.any fun slot => decide (slot.slotId = slotId) then
    (true, { m with activeSlots := m.activeSlots.filter fun slot => decide (slot.slotId ≠ slotId) })
  else (false, m)

def enqueueJob (cfg : Config) (m : Memory P) (job : Job P) : Memory P :=
  let m :=
    if m.queues.any fun entry => decide (entry.1 = job.projectId) then m
    else { m with
      queues := m.queues ++ [(job.projectId, [])]
      starvationTicks := Function.update m.starvationTicks job.projectId 0
      deficitCredits := Function.update m.deficitCredits job.projectId (cfg.weight job.projectId) }
  { m with queues := m.queues.map fun entry => if entry.1 = job.projectId then (entry.1, entry.2 ++ [job]) else entry }

/-- The projects whose head job can get a slot, with the slots left. The clock is read for each project with a queue. -/
def dispatchable (cfg : Config) (clock : Nat → Int) :
    Nat → List SlotAllocation → List (String × List (Job P)) → List String × List SlotAllocation
  | _, slots, [] => ([], slots)
  | n, slots, (_, []) :: rest => dispatchable cfg clock n slots rest
  | n, slots, (project, head :: _) :: rest =>
    let slots := reconcileExpired slots (clock n)
    let found := dispatchable cfg clock (n + 1) slots rest
    (if canAcquire cfg slots head.kind then project :: found.1 else found.1, found.2)

def starved (cfg : Config) (m : Memory P) (projects : List String) : List String :=
  projects.filter fun p => decide (cfg.weights.maxStarvationTicks ≤ m.starvationTicks p)

/-- The project that is served and the credits after, first by starvation and then by credit. -/
def selectProject (cfg : Config) (m : Memory P) (projects : List String) : Option (String × (String → Rat)) :=
  if starved cfg m projects ≠ [] then
    ((starved cfg m projects).argmax m.starvationTicks).map fun p => (p, m.deficitCredits)
  else
    let credits := fun p => if p ∈ projects then m.deficitCredits p + cfg.weight p else m.deficitCredits p
    (projects.argmax credits).map fun p => (p, Function.update credits p (max 0 (credits p - 1)))

def popAndUpdate (m : Memory P) (project : String) : Option (Job P) × Memory P :=
  let queues := m.queues.map fun entry => if entry.1 = project then (entry.1, entry.2.tail) else entry
  ((m.queue project).head?, { m with
    queues
    starvationTicks := fun p =>
      if p = project then 0
      else if queues.any (fun entry => decide (entry.1 = p) && !entry.2.isEmpty) then m.starvationTicks p + 1
      else m.starvationTicks p })

def dequeueNext (cfg : Config) (m : Memory P) (clock : Nat → Int) : Option (Job P) × Memory P :=
  let found := dispatchable cfg clock 1 (reconcileExpired m.activeSlots (clock 0)) m.queues
  let m := { m with activeSlots := found.2 }
  match selectProject cfg m found.1 with
  | none => (none, m)
  | some (project, credits) => popAndUpdate { m with deficitCredits := credits } project

variable (json : P → Option P)

def Job.dumped (job : Job P) : Option (Job P) := (json job.payload).map fun payload => { job with payload }

def dumpedQueue (entry : String × List (Job P)) : Option (String × List (Job P)) :=
  (entry.2.mapM (Job.dumped json)).map fun jobs => (entry.1, jobs)

/-- What the file then holds, or none when a payload cannot be written. -/
def dumps (m : Memory P) : Option (Memory P) :=
  (m.queues.mapM (dumpedQueue json)).map fun queues => { m with queues }

def save (m : Memory P) (file : Option (Memory P)) : Option (Memory P) := (dumps json m).or file

def load (file : Option (Memory P)) : Memory P := file.getD (Memory.empty P)

end Portfolio
end DarkFactory
