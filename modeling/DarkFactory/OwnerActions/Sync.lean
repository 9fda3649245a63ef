import DarkFactory.Lib.Lookup
import DarkFactory.OwnerActions.Store

/-!
# DarkFactory.OwnerActions.Sync

`core/owner_actions/sync.py`: the outbox of a worker, the events in flight, and the Hub that applies them.

* `publishRequest`, `publishClosed` — what the publishers do to the outbox, under its lock.
* `step` — the publishers, any number of `flush_pending` runs, a network that may lose, delay or deliver an event
  again, and the Hub. `accepted` and `rejected` record what the Hub and the answers have made of each message.
* `human_request_to_action` is a parameter, which gives nothing where it raises. The key of a row is the run and the
  stage that its digest is taken of, and the Hub's address and key do not change.
-/

namespace DarkFactory
namespace OwnerActions
namespace Sync

open Store

inductive HumanRequestKind where
  | grill | secret | account | repoSetting | commercialAcceptance | infra
deriving DecidableEq

structure HumanRequest where
  kind : HumanRequestKind
  runId : String
  blockingStage : String
  guideMd : String
  probeCmd : Option String := none
  createdAt : String
deriving DecidableEq

structure SyncEvent where
  request : HumanRequest
  closed : Bool := false
deriving DecidableEq

/-- `RETRY_INTERVAL_SEC`. -/
def retryInterval : Rat := 30

structure OutboxRow where
  event : SyncEvent
  sent : Bool := false
  nextAttempt : Rat := 0
  quarantined : Bool := false
  error : Option Nat := none
deriving DecidableEq

abbrev Key := String × String

abbrev Outbox := List (Key × OutboxRow)

/-- `_key`. -/
def keyOf (request : HumanRequest) : Key := (request.runId, request.blockingStage)

def row (rows : Outbox) (key : Key) : Option OutboxRow := (Lookup.get Prod.fst rows key).map Prod.snd

def setRow (rows : Outbox) (key : Key) (r : OutboxRow) : Outbox := Lookup.put Prod.fst rows (key, r)

def HumanRequest.safe (scan : SecretScan) (request : HumanRequest) : HumanRequest :=
  { request with
    guideMd := scan.redact request.guideMd
    probeCmd := (request.probeCmd.filter fun cmd => decide (cmd ≠ "")).map scan.redact }

def publishRequest (scan : SecretScan) (request : HumanRequest) (rows : Outbox) : Outbox :=
  let event : SyncEvent := { request := request.safe scan }
  match row rows (keyOf request) with
  | none => setRow rows (keyOf request) { event := event }
  | some old =>
    if old.event.closed || decide (old.event = event) then rows else setRow rows (keyOf request) { event := event }

def publishClosed (runId blockingStage createdAt : String) (rows : Outbox) : Outbox :=
  match row rows (runId, blockingStage) with
  | some old =>
    if old.event.closed then rows
    else
      -- the other flags of the row stay
      setRow rows (runId, blockingStage)
        { old with event := { old.event with closed := true }, sent := false, nextAttempt := 0 }
  | none =>
    let request : HumanRequest := {
      kind := .infra, runId := runId, blockingStage := blockingStage
      guideMd := "Pedido encerrado pela linha de producao.", createdAt := createdAt }
    setRow rows (runId, blockingStage) { event := { request := request, closed := true } }

def pending (now : Rat) (force : Bool) (rows : Outbox) : List (Key × SyncEvent) :=
  ((rows.filter fun e => !e.2.quarantined && !e.2.sent && (force || decide (e.2.nextAttempt ≤ now))).take 2).map
    fun e => (e.1, e.2.event)

section

variable (scan : SecretScan) (toAction : HumanRequest → Option OwnerAction)

def syncHumanRequest (now : String) (e : SyncEvent) (hub : Backlog) : Except OwnerActionError (OwnerAction × Backlog) :=
  match toAction e.request with
  | none => .error .invalid
  | some action => do
    let event : MachineEvent :=
      { action := action, identity := [e.request.runId, e.request.blockingStage], closed := e.closed }
    requestCheck scan now event hub
    syncIn scan now event hub

end

inductive Answer where
  /-- `urlopen` returns. -/
  | ok
  | http (code : Nat)
  /-- No answer, or none that can be read. -/
  | failed
deriving DecidableEq

def rejects (code : Nat) : Bool := decide (code ∈ [400, 409, 413, 422])

inductive Flush where
  | absent
  /-- Before the next one of the rows that are left. -/
  | draining (now : Rat) (rows : List (Key × SyncEvent))
  | posting (now : Rat) (key : Key) (event : SyncEvent) (message : Nat) (rest : List (Key × SyncEvent))
  /-- Before the lock: the event was accepted, or rejected with a code. -/
  | answered (now : Rat) (key : Key) (event : SyncEvent) (message : Nat) (code : Option Nat)
      (rest : List (Key × SyncEvent))
  | done

def Flush.message : Flush → Option (SyncEvent × Nat)
  | .posting _ _ event message _ | .answered _ _ event message _ _ => some (event, message)
  | _ => none

structure World where
  outbox : Outbox := []
  /-- The backoff in the transport state. -/
  transport : Option Rat := none
  /-- The events that were ever posted. -/
  network : List SyncEvent := []
  /-- The messages that the Hub has applied. -/
  accepted : List Nat := []
  /-- The messages that were answered with a code that rejects them. -/
  rejected : List Nat := []
  hub : Backlog
  flushes : Nat → Flush := fun _ => .absent

inductive Event where
  | publishRequest (request : HumanRequest)
  | publishClosed (runId blockingStage createdAt : String)
  | flush (f : Nat) (now : Rat) (force : Bool)
  | post (f : Nat)
  | answer (f : Nat) (a : Answer)
  | settle (f : Nat)
  | crash (f : Nat)
  /-- Some copy of a message gets to the Hub. -/
  | deliver (message : Nat) (now : String)

namespace World

def set (w : World) (f : Nat) (s : Flush) : World :=
  { w with flushes := fun f' => if f' = f then s else w.flushes f' }

def update (w : World) (key : Key) (event : SyncEvent) (change : OutboxRow → OutboxRow) : World :=
  match row w.outbox key with
  | some r => if r.event = event then { w with outbox := setRow w.outbox key (change r) } else w
  | none => w

end World

def step (scan : SecretScan) (toAction : HumanRequest → Option OwnerAction) (w : World) : Event → World
  | .publishRequest request => { w with outbox := publishRequest scan request w.outbox }
  | .publishClosed runId stage createdAt => { w with outbox := publishClosed runId stage createdAt w.outbox }
  | .flush f now force =>
    match w.flushes f with
    | .absent =>
      if !force && w.transport.any fun next => decide (now < next) then w.set f .done
      else w.set f (.draining now (pending now force w.outbox))
    | _ => w
  | .post f =>
    match w.flushes f with
    | .draining _ [] => w.set f .done
    | .draining now ((key, event) :: rest) =>
      if (row w.outbox key).any fun r => decide (r.event = event) then
        { w.update key event fun r => { r with nextAttempt := now + retryInterval } with
          network := w.network ++ [event] }.set f (.posting now key event w.network.length rest)
      else w.set f (.draining now rest)
    | _ => w
  | .answer f a =>
    match w.flushes f with
    | .posting now key event message rest =>
      match a with
      | .ok => if message ∈ w.accepted then w.set f (.answered now key event message none rest) else w
      | .http code =>
        if code = 401 ∨ code = 403 then { w with transport := some (now + retryInterval) }.set f .done
        else if rejects code then
          { w with rejected := w.rejected ++ [message] }.set f (.answered now key event message (some code) rest)
        else w.set f (.draining now rest)
      | .failed => w.set f (.draining now rest)
    | _ => w
  | .settle f =>
    match w.flushes f with
    | .answered now key event _ none rest =>
      (w.update key event fun r => { r with sent := true }).set f (.draining now rest)
    | .answered now key event _ (some code) rest =>
      (w.update key event fun r => { r with quarantined := true, sent := false, error := some code }).set f
        (.draining now rest)
    | _ => w
  | .crash f => w.set f .done
  | .deliver message now =>
    match w.network[message]? with
    | none => w
    | some event =>
      match syncHumanRequest scan toAction now event w.hub with
      | .error _ => w
      | .ok (_, hub) => { w with hub := hub, accepted := w.accepted ++ [message] }

end Sync
end OwnerActions
end DarkFactory
