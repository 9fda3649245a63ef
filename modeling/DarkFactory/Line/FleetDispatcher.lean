import DarkFactory.Lib.Lookup
import DarkFactory.Lib.Runs
import DarkFactory.Python.Sort
import DarkFactory.Python.Text
import Mathlib.Algebra.Order.Ring.Rat
import Mathlib.Data.String.Basic

/-!
# DarkFactory.Line.FleetDispatcher

`FleetDispatcher.run_cycle`: the launchers that have ended are reaped, waiting deliveries are resumed, each free host
gets the next ticket, and merges are deployed after a quiet window.

What the cycle asks of the world (the exits of launchers, the demand list, the probes, the admission store, the clock,
the deploy) is one record, `Cycle`. Dictionaries are lists with one row for each key. A launcher's log is the one of
its ticket and host; what a launch prints comes after what is there.
-/

namespace DarkFactory
namespace Line
namespace FleetDispatcher

def EXCLUDED_TAGS : List String := ["congelado-v0", "not-authorized-for-execution", "planning-only", "waiting_human"]

def INFRA_EXIT_CODES : List Int := [75]

def LOCK_MARKERS : List String := ["[TRAVA DE LINHA]"]

def INFRA_MARKERS : List String :=
  ["[REMOTE_JOB_LOST]", "--remote-required:", "RemoteRequiredError", "harness_infra_error"]

def TERMINAL_STATUSES : List String := ["completed", "cancelled", "canceled"]

structure HostSpec where
  id : String
  priority : Int
deriving DecidableEq

structure DispatcherConfig where
  resumeOnly : Bool := false
  recoveryTickets : List String := []
  hosts : List HostSpec
  requeueCooldownSec : Rat := 600
  lockRequeueCooldownSec : Rat := 30
  deployWindowSec : Rat := 180
  dryRun : Bool := false

structure InFlight where
  ticketId : String
  hostId : String
  runId : Option String := none
deriving DecidableEq

structure HostProbe where
  free : Bool
  reason : String := ""
  resourceVersion : String := ""
deriving DecidableEq

/-- A row of `demands.json` or of the queue; a missing key is `none`, no tags and no dependencies are `[]`. The keys a
context digest is made of are one text. -/
structure Demand where
  id : Option String := none
  status : Option String := none
  createdAt : Option String := none
  tags : List String := []
  dependencies : List String := []
  projectId : Option String := none
  project : Option String := none
  candidateDigest : Option String := none
  baselineSha : Option String := none
  contextDigest : Option String := none
  context : String := ""
  resourceVersion : Option String := none
  quotaReceipt : Option String := none
  quotaWindow : Option String := none
  errorClass : Option String := none
deriving DecidableEq

/-- `str(d.get("id", ""))`. -/
def Demand.ticketId (d : Demand) : String := d.id.getD ""

/-- `{d["id"] for d in demands if d.get("status") == "completed"}`: a completed row without an id raises. -/
def completedIds (demands : List Demand) : Option (List String) :=
  (demands.filter fun d => decide (d.status = some "completed")).mapM Demand.id

def excludedTags (d : Demand) : List String := sortAsc id (d.tags.dedup.filter fun t => EXCLUDED_TAGS.contains t)

/-- Why a planned row is passed by; `none` when it is executable. -/
def skipReason (done busyIds cooldownIds : List String) (d : Demand) : Option String :=
  if excludedTags d ≠ [] then some ("tag:" ++ String.intercalate "," (excludedTags d))
  else if busyIds.contains d.ticketId then some "em_voo"
  else if cooldownIds.contains d.ticketId then some "cooldown_infra"
  else if d.dependencies.any (fun x => !done.contains x) then some "dependencia_aberta"
  else none

def plannedRows (demands : List Demand) : List Demand := demands.filter fun d => decide (d.status = some "planned")

def skip (skipped : List (String × String)) (ticketId reason : String) : List (String × String) :=
  Lookup.put Prod.fst skipped (ticketId, reason)

def selectTickets (demands : List Demand) (busyIds cooldownIds : List String) :
    Option (List String × List (String × String)) :=
  (completedIds demands).map fun done =>
    let eligible := (plannedRows demands).filter fun d => (skipReason done busyIds cooldownIds d).isNone
    ((sortAsc (fun d => toLex (d.createdAt.getD "", d.ticketId)) eligible).map Demand.ticketId,
      (plannedRows demands).foldl
        (fun skipped d =>
          match skipReason done busyIds cooldownIds d with
          | some reason => skip skipped d.ticketId reason
          | none => skipped) [])

structure Exit where
  rc : Int
  /-- What this launch has printed. -/
  output : List Char

def mentions (markers : List String) (logTail : List Char) : Bool :=
  markers.any fun m => Text.isInfixList m.toList logTail

def isLockRefusal (logTail : List Char) : Bool := mentions LOCK_MARKERS logTail

def isInfraFailure (rc : Int) (logTail : List Char) : Bool :=
  INFRA_EXIT_CODES.contains rc || mentions INFRA_MARKERS logTail

def deliveryEvidence (logTail : List Char) : Bool :=
  mentions ["merged_awaiting_deploy", "[DELIVERY_MERGED]"] logTail

/-- `_tail`. -/
def tailOf (log : List Char) : List Char := log.rtake 6000

/-- What the keys of a reservation are made of, and the error class a failure is looked up with. -/
structure Query where
  projectId : String
  ticketId : String
  candidateDigest : String
  contextDigest : String
  resourceVersion : String
  errorClass : Option String
deriving DecidableEq

/-- The answers to `is_failure_open`, `reserve_recovery` and `reserve`; `none` is an exception. -/
structure StoreAnswers where
  failureOpen : Option Bool
  reserveRecovery : Option Bool
  reserve : Option Bool
deriving DecidableEq

inductive Admission where
  | admitted | identicalFailureOpen | recoveryDeliveryReserved | admissionReserved | admissionStoreUnavailable
deriving DecidableEq

def Admission.reason : Admission → String
  | .admitted => ""
  | .identicalFailureOpen => "identical_failure_open"
  | .recoveryDeliveryReserved => "recovery_delivery_reserved"
  | .admissionReserved => "admission_reserved"
  | .admissionStoreUnavailable => "admission_store_unavailable"

/-- The `try` block of `_dispatch_ticket`. -/
def admission (recovery : Bool) (a : StoreAnswers) : Admission :=
  match a.failureOpen with
  | none => .admissionStoreUnavailable
  | some true => .identicalFailureOpen
  | some false =>
    match if recovery then a.reserveRecovery else some true with
    | none => .admissionStoreUnavailable
    | some false => .recoveryDeliveryReserved
    | some true =>
      match a.reserve with
      | none => .admissionStoreUnavailable
      | some false => .admissionReserved
      | some true => .admitted

inductive Launch where
  | started (runId : String)
  /-- `latches`: the failure is the one that turns recovery on. -/
  | failed (error : String) (latches : Bool)
deriving DecidableEq

structure Release where
  ticketId : String
  runId : Option String
deriving DecidableEq

/-- A row of `tick`. -/
structure Resumption where
  ticket : Option String
  status : String
deriving DecidableEq

/-- One `_maybe_deploy`: the clock when it looks, whether the deploy mutex is free, the exit code of the deploy, the
proofs that are complete afterwards, and the clock after a failure. -/
structure DeployCall where
  now : Rat
  mutexFree : Bool
  rc : Int
  proven : Release → Bool
  afterwards : Rat

structure Cycle where
  poll : InFlight → Option Exit
  reapAt : InFlight → Rat
  /-- `recovery_state()["active"]` when a job is reaped. -/
  inRecovery : InFlight → Bool
  resumptions : List Resumption
  tickAt : Rat
  firstDeploy : DeployCall
  /-- `acknowledge_deploy` returns. -/
  acknowledges : Bool
  /-- `recovery_state()["active"]` before the dispatch; `none` is an exception. -/
  recoveryState : Option Bool
  now : Rat
  /-- `none`: the loader raised. -/
  demands : Option (List Demand)
  busyIds : List String
  orphanHosts : List String
  safeDigest : String → String
  normalizeError : String → String
  probe : HostSpec → HostProbe
  store : HostSpec → Query → StoreAnswers
  launch : HostSpec → Demand → Launch
  secondDeploy : DeployCall

/-- `a or b`, for texts. -/
def orElse (a b : Option String) : Option String :=
  match a with
  | some text => if text = "" then b else some text
  | none => b

def orText (a : Option String) (default : String) : String :=
  match a with
  | some text => if text = "" then default else text
  | none => default

/-- What a ticket is looked up with in the admission store when the host would take it. -/
def Cycle.query (w : Cycle) (host : HostSpec) (tid : String) (demand : Demand) : Query :=
  let probe := w.probe host
  let base := if probe.resourceVersion = "" then host.id ++ ":" ++ probe.reason else probe.resourceVersion
  { projectId := orText (orElse demand.projectId demand.project) "darkfac"
    ticketId := tid
    candidateDigest := w.safeDigest (orText (orElse demand.candidateDigest demand.baselineSha) "unknown")
    contextDigest := w.safeDigest (orText demand.contextDigest (w.safeDigest demand.context))
    resourceVersion :=
      w.safeDigest
        (match orElse (orElse demand.resourceVersion demand.quotaReceipt) demand.quotaWindow with
        | some receipt => base ++ ":receipt:" ++ w.safeDigest receipt
        | none => base)
    errorClass := demand.errorClass.bind fun e => if e = "" then none else some (w.normalizeError e) }

structure Dispatcher where
  inFlight : List InFlight
  cooldown : List (String × Rat)
  lockBusy : List (String × String)
  /-- `self.recovery["active"]`. -/
  recovery : Bool
  lastMergeAt : Option Rat
  pendingDeploy : Bool
  /-- Also on disk. -/
  pendingReleases : List Release
  deploys : Nat
  /-- The log file of a ticket and a host. -/
  logs : String → String → List Char

def writeLog (logs : String → String → List Char) (ticketId hostId : String) (output : List Char) :
    String → String → List Char :=
  fun t h => if t = ticketId ∧ h = hostId then logs t h ++ output else logs t h

def cool (cooldown : List (String × Rat)) (ticketId : String) (until' : Rat) : List (String × Rat) :=
  Lookup.put Prod.fst cooldown (ticketId, until')

def endLog (d : Dispatcher) (job : InFlight) (exit : Exit) : List Char := d.logs job.ticketId job.hostId ++ exit.output

def delivers (d : Dispatcher) (job : InFlight) (exit : Exit) : Bool :=
  decide (exit.rc = 0) && deliveryEvidence (tailOf (endLog d job exit))

def addRelease (releases : List Release) (job : InFlight) : List Release :=
  if releases.contains ⟨job.ticketId, job.runId⟩ then releases else releases ++ [⟨job.ticketId, job.runId⟩]

def reapJob (cfg : DispatcherConfig) (w : Cycle) (d : Dispatcher) (job : InFlight) : Dispatcher :=
  match w.poll job with
  | none => d
  | some exit =>
    let tail := tailOf (endLog d job exit)
    let d' : Dispatcher := { d with
      inFlight := d.inFlight.filter fun j => decide (j.hostId ≠ job.hostId)
      logs := writeLog d.logs job.ticketId job.hostId exit.output }
    if exit.rc = 0 then
      if deliveryEvidence tail then
        { d' with
          pendingReleases := if w.inRecovery job then addRelease d.pendingReleases job else d.pendingReleases
          lastMergeAt := some (w.reapAt job)
          pendingDeploy := true }
      else { d' with cooldown := cool d.cooldown job.ticketId (w.reapAt job + cfg.requeueCooldownSec * 3) }
    else if isLockRefusal tail then
      { d' with
        cooldown := cool d.cooldown job.ticketId (w.reapAt job + cfg.lockRequeueCooldownSec)
        lockBusy := Lookup.put Prod.fst d.lockBusy (job.hostId, "host_ocupado_trava:" ++ job.ticketId) }
    else if isInfraFailure exit.rc tail then
      { d' with cooldown := cool d.cooldown job.ticketId (w.reapAt job + cfg.requeueCooldownSec) }
    else { d' with cooldown := cool d.cooldown job.ticketId (w.reapAt job + cfg.requeueCooldownSec * 3) }

def reap (cfg : DispatcherConfig) (w : Cycle) (d : Dispatcher) : Dispatcher := d.inFlight.foldl (reapJob cfg w) d

structure Started where
  at' : Rat
  succeeded : Bool
deriving DecidableEq

def deployDue (cfg : DispatcherConfig) (t : DeployCall) (d : Dispatcher) : Bool :=
  d.pendingDeploy && !cfg.dryRun &&
    match d.lastMergeAt with
    | none => false
    | some last => !decide (t.now - last < cfg.deployWindowSec)

/-- `_maybe_deploy`: its answer, the call of the deploy it has made, and the state it leaves. -/
def maybeDeploy (cfg : DispatcherConfig) (t : DeployCall) (d : Dispatcher) : Bool × Option Started × Dispatcher :=
  if !deployDue cfg t d then (false, none, d)
  else if !t.mutexFree then (false, none, { d with lastMergeAt := some t.afterwards })
  else if t.rc ≠ 0 then (false, some ⟨t.now, false⟩, { d with lastMergeAt := some t.afterwards })
  else
    -- the releases are proven in order, up to the first one that is not
    match d.pendingReleases.dropWhile t.proven with
    | [] =>
      (true, some ⟨t.now, true⟩,
        { d with pendingReleases := [], pendingDeploy := false, deploys := d.deploys + 1 })
    | releases =>
      (false, some ⟨t.now, true⟩, { d with pendingReleases := releases, lastMergeAt := some t.afterwards })

structure Dispatched where
  ticket : String
  host : String
  dryRun : Bool := false
deriving DecidableEq

structure Dispatching where
  queue : List String
  inFlight : List InFlight
  cooldown : List (String × Rat)
  recovery : Bool
  dispatched : List Dispatched := []
  idle : List (String × String) := []
  skipped : List (String × String)

structure Round where
  demands : List Demand
  /-- Releases of a recovery wait for their proof. -/
  awaitingProof : Bool

def demandOf (demands : List Demand) (tid : String) : Option Demand :=
  demands.find? fun row => decide (row.ticketId = tid)

def Dispatching.setIdle (s : Dispatching) (host : HostSpec) (reason : String) : Dispatching :=
  { s with idle := Lookup.put Prod.fst s.idle (host.id, reason) }

/-- `_dispatch_ticket`, after the ticket has been taken from the queue. -/
def dispatchTicket (cfg : DispatcherConfig) (w : Cycle) (host : HostSpec) (tid : String) (demand : Demand)
    (s : Dispatching) : Dispatching :=
  if cfg.dryRun then { s with dispatched := s.dispatched ++ [⟨tid, host.id, true⟩] }
  else
    match admission s.recovery (w.store host (w.query host tid demand)) with
    | .admitted =>
      match w.launch host demand with
      | .started runId =>
        { s with
          inFlight := Lookup.put InFlight.hostId s.inFlight
            { ticketId := tid, hostId := host.id, runId := some runId }
          dispatched := s.dispatched ++ [⟨tid, host.id, false⟩] }
      | .failed error latches =>
        { s.setIdle host ("lancamento_falhou:" ++ error) with
          cooldown := cool s.cooldown tid (w.now + cfg.requeueCooldownSec)
          recovery := s.recovery || latches }
    | refusal =>
      { s.setIdle host refusal.reason with
        skipped := skip s.skipped tid refusal.reason
        queue := tid :: s.queue }

def inFlightOn (jobs : List InFlight) (host : String) : Bool := jobs.any fun j => decide (j.hostId = host)

def turn (cfg : DispatcherConfig) (w : Cycle) (r : Round) (s : Dispatching) (host : HostSpec) : Dispatching :=
  if r.awaitingProof then s.setIdle host "recovery_awaiting_deploy_proof"
  else if inFlightOn s.inFlight host.id then s
  else if w.orphanHosts.contains host.id then s.setIdle host "run_orfao_em_execucao"
  else
    match s.queue with
    | [] => s.setIdle host "sem_ticket_executavel"
    | tid :: queue =>
      if !(w.probe host).free then s.setIdle host ("host_indisponivel:" ++ (w.probe host).reason)
      else if s.recovery && !s.dispatched.isEmpty then s.setIdle host "recovery_single_delivery_reserved"
      else
        match demandOf r.demands tid with
        | none =>
          { s.setIdle host "demand_disappeared" with
            skipped := skip s.skipped tid "demand_disappeared"
            queue := queue }
        | some demand => dispatchTicket cfg w host tid demand { s with queue := queue }

def hostsInOrder (cfg : DispatcherConfig) : List HostSpec := sortAsc HostSpec.priority cfg.hosts

def dispatchHosts (cfg : DispatcherConfig) (w : Cycle) (r : Round) (s : Dispatching) : Dispatching :=
  Runs.run (turn cfg w r) s (hostsInOrder cfg)

structure Report where
  firstDeploy : Option Started := none
  acknowledged : List Resumption := []
  dispatched : List Dispatched := []
  idleReasons : List (String × String) := []
  skipped : List (String × String) := []
  queueRemaining : List String := []
  secondDeploy : Option Started := none
  raised : Bool := false

def awaitingRows (w : Cycle) : List Resumption :=
  w.resumptions.filter fun r => decide (r.status = "merged_awaiting_deploy")

/-- The queue under `--recovery-tickets`. -/
def restrictQueue (cfg : DispatcherConfig) (w : Cycle) (demands : List Demand) (inFlight : List InFlight)
    (selected : List String × List (String × String)) : List String × List (String × String) :=
  let terminal := (demands.filter fun d => d.status.any TERMINAL_STATUSES.contains).map fun d => d.id.getD "None"
  if !cfg.recoveryTickets.isEmpty && !cfg.recoveryTickets.all terminal.contains then
    let allowed := cfg.recoveryTickets.filter selected.1.contains
    let activeResume := w.resumptions.any fun r => ["running", "merged_awaiting_deploy"].contains r.status
    (if activeResume || !inFlight.isEmpty then [] else allowed.take 1,
      (selected.1.filter fun tid => !allowed.contains tid).foldl
        (fun skipped tid => skip skipped tid "recuperacao_prioritaria") selected.2)
  else selected

/-- The state in which the loop over the hosts begins; `none` when the selection raises. -/
def startDispatch (cfg : DispatcherConfig) (w : Cycle) (recovery : Bool) (d : Dispatcher) :
    Option (Round × Dispatching) :=
  let demands := w.demands.getD []
  let busyIds := d.inFlight.map InFlight.ticketId ++ w.busyIds ++ w.resumptions.filterMap Resumption.ticket
  (selectTickets demands busyIds (d.cooldown.map Prod.fst)).map fun selected =>
    let queue := restrictQueue cfg w demands d.inFlight selected
    ({ demands := demands, awaitingProof := !d.pendingReleases.isEmpty },
      { queue := queue.1
        inFlight := d.inFlight
        cooldown := d.cooldown
        recovery := recovery
        skipped := queue.2 })

def noteAwaiting (w : Cycle) (d : Dispatcher) : Dispatcher :=
  if !(awaitingRows w).isEmpty && !d.pendingDeploy then { d with pendingDeploy := true, lastMergeAt := some w.tickAt }
  else d

def resumeDeploy (cfg : DispatcherConfig) (w : Cycle) (d : Dispatcher) : Bool × Option Started × Dispatcher :=
  if (awaitingRows w).isEmpty then (false, none, d) else maybeDeploy cfg w.firstDeploy d

def openDispatch (cfg : DispatcherConfig) (w : Cycle) (report : Report) (d : Dispatcher) :
    Report × Dispatcher × Option (Round × Dispatching) :=
  match w.recoveryState with
  | none => ({ report with raised := true }, d, none)
  | some recovery =>
    let cooled := { d with recovery := recovery, cooldown := d.cooldown.filter fun c => decide (w.now < c.2) }
    match startDispatch cfg w recovery cooled with
    | none => ({ report with raised := true }, cooled, none)
    | some start => (report, cooled, some start)

/-- The cycle up to the dispatch: reaping, resumed deliveries and the deploy for them. The last part is where the loop
over the hosts begins, when the cycle gets there. -/
def beforeDispatch (cfg : DispatcherConfig) (w : Cycle) (d : Dispatcher) :
    Report × Dispatcher × Option (Round × Dispatching) :=
  let reaped := reap cfg w d
  if w.resumptions.any fun r => decide (r.status = "dispatcher_busy") then ({}, reaped, none)
  else
    match resumeDeploy cfg w (noteAwaiting w reaped) with
    | (deployed, started, d) =>
      if deployed && !w.acknowledges then ({ firstDeploy := started, raised := true }, d, none)
      else
        let report : Report :=
          { firstDeploy := started
            acknowledged := if deployed then awaitingRows w else [] }
        if cfg.resumeOnly then (report, d, none) else openDispatch cfg w report d

def runCycle (cfg : DispatcherConfig) (w : Cycle) (d : Dispatcher) : Report × Dispatcher :=
  match beforeDispatch cfg w d with
  | (report, d, none) => (report, d)
  | (report, d, some (r, s)) =>
    let s' := dispatchHosts cfg w r s
    let dispatched : Dispatcher :=
      { d with inFlight := s'.inFlight, cooldown := s'.cooldown, recovery := s'.recovery, lockBusy := [] }
    let (_, started, d') := maybeDeploy cfg w.secondDeploy dispatched
    ({ report with
        dispatched := s'.dispatched
        idleReasons := d.lockBusy.foldl (Lookup.put Prod.fst) s'.idle
        skipped := s'.skipped
        queueRemaining := s'.queue
        secondDeploy := started }, d')

/-- A new process: the releases that wait for their proof are read from disk, all else is forgotten. -/
def restarted (cfg : DispatcherConfig) (recovery : Bool) (now : Rat) (d : Dispatcher) : Dispatcher where
  inFlight := []
  cooldown := []
  lockBusy := []
  recovery := recovery
  lastMergeAt := if d.pendingReleases.isEmpty then none else some (now - cfg.deployWindowSec)
  pendingDeploy := !d.pendingReleases.isEmpty
  pendingReleases := d.pendingReleases
  deploys := 0
  logs := d.logs

def HostSpec.sample : HostSpec := ⟨"grokbox", 1⟩

def Demand.sample (id : String) : Demand := { id := some id, status := some "planned" }

def Dispatcher.fresh : Dispatcher where
  inFlight := []
  cooldown := []
  lockBusy := []
  recovery := false
  lastMergeAt := none
  pendingDeploy := false
  pendingReleases := []
  deploys := 0
  logs _ _ := []

def DeployCall.sample (now : Rat) : DeployCall := ⟨now, true, 0, fun _ => true, now⟩

/-- A cycle at `now` in which no launcher ends, the hosts are free and the store and the launcher accept everything. -/
def Cycle.sample (now : Rat) (demands : List Demand) : Cycle where
  poll _ := none
  reapAt _ := now
  inRecovery _ := false
  resumptions := []
  tickAt := now
  firstDeploy := .sample now
  acknowledges := true
  recoveryState := some false
  now := now
  demands := some demands
  busyIds := []
  orphanHosts := []
  safeDigest text := text
  normalizeError text := text
  probe _ := ⟨true, "saudavel", ""⟩
  store _ _ := ⟨some false, some true, some true⟩
  launch _ _ := .started "run"
  secondDeploy := .sample now

end FleetDispatcher
end Line
end DarkFactory
