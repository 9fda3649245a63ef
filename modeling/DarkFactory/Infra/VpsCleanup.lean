import DarkFactory.Python.JsonValue
import DarkFactory.Python.Text

/-!
# DarkFactory.Infra.VpsCleanup

The policy-driven prune of `core/infra/vps_cleanup.py`: the transport to the Dokploy API, the check for running
deployments and the two prune calls.

* `Reply`, `transport` — what the API answers to a request, and what the transport makes of it.
* `iterServiceContainers`, `findRunningDeployments` — the walk over a `project.all` payload.
* `runPrune`, `cleanVpsDockerCache` — a prune call with its one retry.
* `cleanVpsIfNeeded` — the policy. It returns its report and the requests it sent.
-/

namespace DarkFactory
namespace Infra
namespace VpsCleanup

open Python

def DEFAULT_MIN_FREE_GB : Double := .fin 8

def EMERGENCY_FREE_GB : Double := .fin 2

def PRUNE_CONNECT_RETRIES : Nat := 1

def CLEAN_BUILDER : String := "/api/settings.cleanDockerBuilder"

def CLEAN_IMAGES : String := "/api/settings.cleanUnusedImages"

def SAFE_PRUNE_PATHS : List String := [CLEAN_BUILDER, CLEAN_IMAGES]

structure Request where
  method : String
  path : String
  deriving DecidableEq

/-- The text of a response: empty, no JSON, JSON that the decoder gives up on with another error, or a value. -/
inductive Body where
  | empty
  | notJson
  | undecodable (error : String)
  | value (v : JsonValue)

inductive Reply where
  | timeout (text : String)
  | http (code : Nat)
  | unreachable (reason : String)
  /-- the connection breaks while the response is read -/
  | broken (text : String)
  | body (b : Body)

inductive FailureType where
  | timeoutError
  | connectionError
  | other
  deriving DecidableEq

/-- What the transport raises. -/
structure Failure where
  type : FailureType
  text : String

/-- An empty body and one that is no JSON both come out as an empty dict. -/
def transport (apiKey : String) (request : Request) : Reply → Except Failure JsonValue
  | .timeout text => .error ⟨.timeoutError, if apiKey = "" then text else Text.replace text apiKey "***"⟩
  | .http code =>
    .error ⟨.other, "Dokploy API HTTP " ++ toString code ++ " for " ++ request.method ++ " " ++ request.path⟩
  | .unreachable reason =>
    .error ⟨.other, "Dokploy API unreachable for " ++ request.method ++ " " ++ request.path ++ ": " ++ reason⟩
  | .broken text => .error ⟨.connectionError, text⟩
  | .body .empty | .body .notJson => .ok (.obj [])
  | .body (.undecodable error) => .error ⟨.other, error⟩
  | .body (.value v) => .ok v

def dictOf : JsonValue → Option (List (String × JsonValue))
  | .obj fields => some fields
  | _ => none

def projectsOf : JsonValue → List JsonValue
  | .arr projects => projects
  | .obj fields =>
    match JsonValue.field fields "data" with
    | some (.arr projects) => projects
    | _ => []
  | _ => []

def containersOf (project : JsonValue) : List (List (String × JsonValue)) :=
  match dictOf project with
  | none => []
  | some fields =>
    match JsonValue.field fields "environments" with
    | some (.arr (env :: envs)) => (env :: envs).filterMap dictOf
    | _ => [fields]

def iterServiceContainers (payload : JsonValue) : List (List (String × JsonValue)) :=
  (projectsOf payload).flatMap containersOf

/-- One of the two kinds of services: the list it stands in, and the keys of its status, its name and its id. -/
structure ServiceKind where
  list : String
  status : String
  id : String
  unnamed : String
  deriving DecidableEq

def compose : ServiceKind := ⟨"compose", "composeStatus", "composeId", "compose"⟩

def application : ServiceKind := ⟨"applications", "applicationStatus", "applicationId", "application"⟩

/-- `str(value or "").lower() == "running"`. No other value than a text prints as one. -/
def isRunning : Option JsonValue → Bool
  | some (.str s) => decide (Text.asciiLower s = "running")
  | _ => false

section

variable (str : JsonValue → String)

/-- The names that a service adds to the running ones; no dict has no `get`. -/
def ServiceKind.visit (kind : ServiceKind) : JsonValue → Option (List String)
  | .obj service =>
    if isRunning (JsonValue.field service kind.status) then
      some [(((JsonValue.fieldOr service "name").or (JsonValue.fieldOr service kind.id)).map str).getD kind.unnamed]
    else some []
  | _ => none

/-- `for service in container.get(list) or []`. -/
def ServiceKind.services (kind : ServiceKind) (container : List (String × JsonValue)) : Option (List JsonValue) :=
  match JsonValue.fieldOr container kind.list with
  | none => some []
  | some value => value.iterate

def ServiceKind.running (kind : ServiceKind) (container : List (String × JsonValue)) : Option (List String) := do
  let services ← kind.services container
  let names ← services.mapM (kind.visit str)
  return names.flatten

def runningIn (container : List (String × JsonValue)) : Option (List String) := do
  let composes ← compose.running str container
  let applications ← application.running str container
  return composes ++ applications

def findRunningDeployments (apiKey : String) (reply : Reply) : Except String (List String) :=
  match transport apiKey ⟨"GET", "/api/project.all"⟩ reply with
  | .error failure => .error failure.text
  | .ok payload =>
    match payload with
    | .arr _ | .obj _ =>
      match (iterServiceContainers payload).mapM (runningIn str) with
      | none => .error "not a service"
      | some names => .ok names.flatten
    | _ => .error "Unexpected /api/project.all response shape"

end

inductive FailureKind where
  | readTimeout
  | connect
  | hard
  deriving DecidableEq

def READ_TIMEOUT_MARKERS : List String := ["timed out", "timeout", "time out"]

def CONNECT_MARKERS : List String :=
  ["connection refused", "connection reset", "connection aborted", "connection error", "temporarily unavailable",
    "temporary failure", "name or service not known", "nodename nor servname", "network is unreachable", "unreachable",
    "http 502", "http 503", "http 504"]

def pruneFailureKind (failure : Failure) : FailureKind :=
  let blob := Text.asciiLower (failure.text ++ " ")
  if failure.type = .timeoutError then .readTimeout
  else if READ_TIMEOUT_MARKERS.any fun marker => Text.contains marker blob then .readTimeout
  else if failure.type = .connectionError then .connect
  else if CONNECT_MARKERS.any fun marker => Text.contains marker blob then .connect
  else .hard

inductive Outcome where
  | ok
  | skipped
  | failed
  | transient
  deriving DecidableEq

structure Prune where
  outcome : Outcome
  errors : List String
  notes : List String
  /-- the requests sent -/
  requests : List Request

/-- The loop of `_run_prune`, with the retries that are left for a connect failure; `replies` come one per request. -/
def runPrune (apiKey name path : String) : Nat → (Nat → Reply) → Prune
  | retries, replies =>
    match transport apiKey ⟨"POST", path⟩ (replies 0) with
    | .ok _ => ⟨.ok, [], [], [⟨"POST", path⟩]⟩
    | .error failure =>
      let kind := pruneFailureKind failure
      match kind, retries with
      | .connect, retries + 1 =>
        let note := "settings." ++ name ++ " transient connect (attempt " ++
          toString (PRUNE_CONNECT_RETRIES - retries) ++ "): " ++ failure.text
        let rest := runPrune apiKey name path retries fun n => replies (n + 1)
        { rest with notes := note :: rest.notes, requests := ⟨"POST", path⟩ :: rest.requests }
      | _, _ =>
        ⟨if kind = .hard then .failed else .transient, ["settings." ++ name ++ " failed: " ++ failure.text], [],
          [⟨"POST", path⟩]⟩

def aggregateHygieneStatus (outcomes : List Outcome) : Outcome :=
  let relevant := outcomes.filter (· ≠ .skipped)
  if relevant = [] then .skipped
  else if relevant.all (· = .ok) then .ok
  else if relevant.any (· = .failed) then .failed
  else if relevant.any (· = .transient) then .transient
  else .failed

structure Cleaning where
  hygieneStatus : Outcome
  errors : List String
  notes : List String
  requests : List Request

def cleanVpsDockerCache (apiKey : String) (builder : Bool) (replies : Nat → Reply) : Cleaning :=
  let first : Prune :=
    if builder then runPrune apiKey "cleanDockerBuilder" CLEAN_BUILDER PRUNE_CONNECT_RETRIES replies
    else ⟨.skipped, [], [], []⟩
  let second := runPrune apiKey "cleanUnusedImages" CLEAN_IMAGES PRUNE_CONNECT_RETRIES fun n =>
    replies (first.requests.length + n)
  ⟨aggregateHygieneStatus [first.outcome, second.outcome], first.errors ++ second.errors, first.notes ++ second.notes,
    first.requests ++ second.requests⟩

/-- `float(before.get(key, 0.0))` for the two keys of a disk reading, or the text of the error. -/
structure DiskReading where
  freeGb : Except String Double
  totalGb : Except String Double

/-- `min_free_gb_from_env`, from the number that stands in the environment, if one does. -/
def minFreeGbFromEnv (value : Option Double) : Double :=
  match value with
  | some x => if Double.lt (.fin 0) x then x else DEFAULT_MIN_FREE_GB
  | none => DEFAULT_MIN_FREE_GB

structure Input where
  /-- the reading of the disk probe, or the text of what it raised -/
  probe : Except String DiskReading
  minFreeGb : Option Double
  envMinFreeGb : Option Double
  forceImages : Bool
  forceBuilder : Bool
  /-- a transport is given, or the credentials for one are there -/
  access : Bool
  apiKey : String
  stage : String
  /-- the answers of the API, in the order of the requests -/
  replies : Nat → Reply

inductive Action where
  | skipped
  | cleaned
  | incomplete
  deriving DecidableEq

structure Report where
  stage : String
  action : Action
  reason : String
  errors : List String
  notes : List String
  hygieneStatus : Outcome

def Input.reading (input : Input) : DiskReading :=
  match input.probe with
  | .ok reading => reading
  | .error _ => ⟨.ok (.fin 0), .ok (.fin 0)⟩

def Input.probeErrors (input : Input) : List String :=
  match input.probe with
  | .ok _ => []
  | .error text => ["disk probe failed: " ++ text]

def Input.threshold (input : Input) : Double := input.minFreeGb.getD (minFreeGbFromEnv input.envMinFreeGb)

def cleanWith (str : JsonValue → String) (input : Input) (freeGb totalGb : Double) : Report × List Request :=
  let report (reason : String) : Report := ⟨input.stage, .skipped, reason, input.probeErrors, [], .skipped⟩
  let probeOk := Double.lt (.fin 0) totalGb
  let low := probeOk && Double.lt freeGb input.threshold
  if !(low || input.forceImages || input.forceBuilder) then
    (report (if probeOk then "disk_ok" else "disk_probe_unavailable"), [])
  else if !input.access then (report "no_credentials", [])
  else
    let emergency := probeOk && Double.le freeGb EMERGENCY_FREE_GB
    let (running, errors) := match findRunningDeployments str input.apiKey (input.replies 0) with
      | .ok running => (running, input.probeErrors)
      | .error text => (["unknown"], input.probeErrors ++ ["running-deployment check failed: " ++ text])
    let check : Request := ⟨"GET", "/api/project.all"⟩
    if running ≠ [] ∧ emergency = false then
      (⟨input.stage, .skipped, "deploy_in_progress:" ++ String.intercalate "," running, errors, [], .skipped⟩, [check])
    else
      let result := cleanVpsDockerCache input.apiKey (low || input.forceBuilder) fun n => input.replies (n + 1)
      (⟨input.stage, if result.hygieneStatus = .ok then .cleaned else .incomplete,
        if low then "low_disk" else "forced", errors ++ result.errors, result.notes, result.hygieneStatus⟩,
        check :: result.requests)

def cleanVpsIfNeeded (str : JsonValue → String) (input : Input) : Report × List Request :=
  match input.reading.freeGb, input.reading.totalGb with
  | .ok freeGb, .ok totalGb => cleanWith str input freeGb totalGb
  | .error text, _ | .ok _, .error text =>
    (⟨input.stage, .skipped, "error", input.probeErrors ++ [text], [], .failed⟩, [])

end VpsCleanup
end Infra
end DarkFactory
