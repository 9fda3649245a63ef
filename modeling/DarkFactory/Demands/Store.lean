import DarkFactory.Demands.QueueStore

/-!
# DarkFactory.Demands.Store

`DemandsStore` of `core/demands/store.py`: calls on one ledger file by any number of processes.

* A call takes the lock of its path, reads, prepares the ticket that it saves, reads again, writes the
  file and mirrors the ticket to the control store. Each of these is one move.
* The lock file of a path is named by a digest of it, which here is the path. Paths are ASCII.
* `LedgerFile` keeps beside a text the items that can be made out in it. No function reads them.
* The control store is what it is when a call reads it. What a call writes there is left out.
-/

namespace DarkFactory
namespace Demands

section

variable {ρ : Type}

def LedgerText.items? : LedgerText ρ → Option (List (Item ρ))
  | .blank | .json .scalar => some []
  | .json (.list items) | .json (.demands items) => some items
  | .malformed _ | .json (.otherDemands _) | .json .object => none

structure LedgerFile (ρ : Type) where
  text : LedgerText ρ
  held : List (Item ρ)
  held_eq : ∀ items, text.items? = some items → held = items

/-- What `_write_raw` leaves. -/
def LedgerFile.written (items : List (Item ρ)) : LedgerFile ρ :=
  ⟨.json (.list items), items, fun _ h => Option.some.inj h⟩

/-- The items of the file; none when it does not exist. -/
def heldOf (file : Option (LedgerFile ρ)) : List (Item ρ) := (file.map LedgerFile.held).getD []

/-- What `_read_raw` returns. -/
inductive Raw (ρ : Type) where
  | items (items : List (Item ρ))
  /-- Not a list, and how many elements it has to iterate over, if any can. -/
  | value (elements : Option Nat)
deriving DecidableEq

/-- `_read_raw`; `readable`: the file can be read and decoded. -/
def readRaw (readable : Bool) : Option (LedgerFile ρ) → Raw ρ
  | none => .items []
  | some file =>
    if readable then
      match file.text with
      | .json (.list items) | .json (.demands items) => .items items
      | .json (.otherDemands elements) => .value elements
      | .blank | .malformed _ | .json .object | .json .scalar => .items []
    else .items []

/-- The rows with the dump of a ticket, or none where the loop raises. -/
def saveRows (dump : Row ρ) : List (Item ρ) → Option (List (Item ρ))
  | [] => some [.row dump]
  | .other :: _ => none
  | .row r :: rest =>
    if r.id = dump.id then some (.row dump :: rest) else (saveRows dump rest).map fun rows => .row r :: rows

def saveRaw (dump : Row ρ) : Raw ρ → Option (List (Item ρ))
  | .items items => saveRows dump items
  | .value _ => none

end

inductive StoreError where
  | lockTimeout
  /-- Ticket not found. -/
  | notFound (ticketId : String)
  /-- Completed ticket requires delivery_evidence. -/
  | requiresEvidence (ticketId : String)
  /-- Completed ticket with live deployment requirements requires live convergence proof. -/
  | requiresProof (ticketId : String)
  /-- Reopening requires a reason. -/
  | requiresReason (ticketId : String)
  | refusingRequeue (ticketId : String) (status : DeliveryStatus)
  /-- `AttributeError` or `TypeError` of the loop over the items. -/
  | malformedItems
  | notWritten
  | notRegistered
deriving DecidableEq

inductive Op (τ : Type) where
  | saveTicket (t : UserTicket τ)
  | updateStatus (ticketId : String) (status : DeliveryStatus) (deliveryEvidence : Option String)
  | requeueTicket (ticketId reason : String) (reopen : Bool)
  | resolveForDelivery (ticketId : String)

structure Call (τ : Type) where
  op : Op τ
  /-- `os.path.abspath` of the ledger, as this process names it. -/
  path : String
  tempDir : String := "/tmp"
  /-- The default ledger, and no `DARKFAC_DEMANDS_PATH`. -/
  projectLedger : Bool := false
  controlOnly : Bool := false

def Call.lockFile {τ : Type} (call : Call τ) : String × String := (call.tempDir, Text.asciiLower call.path)

structure Event (τ : Type) where
  timeout : Bool := false
  readable : Bool := true
  queue : Queue τ := Table.empty
  now : Nat := 0
  registered : Bool := true
  written : Bool := true

section

variable {ρ τ : Type}

/-- The check of `save_ticket`. -/
def checkTicket (t : UserTicket τ) : Option StoreError :=
  let evidence := Text.strip (t.deliveryEvidence.getD "")
  if t.status = .completed ∧ evidence = "" then some (.requiresEvidence t.id)
  else if t.status = .completed ∧ t.isLiveDeploy = true ∧
      ["live_converged", "live_verified", "live_provisional"].any (Text.contains · evidence) = false then
    some (.requiresProof t.id)
  else none

/-- The valid tickets of the file, or none where the loop raises. -/
def validTickets (codec : Codec ρ τ) (now : Nat) : Raw ρ → Option (List (UserTicket τ))
  | .items items => some ((rowsOf items).filterMap (codec.validate now))
  | .value elements => elements.map fun _ => []

def getTicket (codec : Codec ρ τ) (projectLedger : Bool) (e : Event τ) (file : Option (LedgerFile ρ))
    (ticketId : String) : Except StoreError (UserTicket τ) :=
  match validTickets codec e.now (readRaw e.readable file) with
  | none => .error .malformedItems
  | some rows =>
    match (listTickets projectLedger {} e.queue rows).find? fun t => decide (t.id = ticketId) with
    | some t => .ok t
    | none => .error (.notFound ticketId)

/-- The loop of `_file_ticket`. -/
def fileTicketFrom (codec : Codec ρ τ) (now : Nat) (ticketId : String) :
    List (Item ρ) → Except StoreError (Option (UserTicket τ))
  | [] => .ok none
  | .other :: _ => .error .malformedItems
  | .row r :: rest =>
    if r.id = some ticketId then .ok (codec.validate now r) else fileTicketFrom codec now ticketId rest

def fileTicket (codec : Codec ρ τ) (now : Nat) (ticketId : String) :
    Raw ρ → Except StoreError (Option (UserTicket τ))
  | .items items => fileTicketFrom codec now ticketId items
  | .value (some 0) => .ok none
  | .value _ => .error .malformedItems

def chooseDeliveryRow (own queued : Option (UserTicket τ)) : Option (UserTicket τ) :=
  match own with
  | some t => if queued.isNone || t.isTerminal then some t else queued
  | none => queued

inductive Prepared (τ : Type) where
  | fails (e : StoreError)
  /-- There is nothing to save. -/
  | returns
  | saves (t : UserTicket τ)

def prepareUpdate (status : DeliveryStatus) (deliveryEvidence : Option String) (now : Nat)
    (t : UserTicket τ) : UserTicket τ :=
  { t with status := status, updatedAt := now, deliveryEvidence := deliveryEvidence.or t.deliveryEvidence }

def prepareRequeue (reason : String) (reopen : Bool) (now : Nat) (t : UserTicket τ) : Prepared τ :=
  if reopen = true ∧ t.status = .completed then
    if Text.strip reason = "" then .fails (.requiresReason t.id)
    else
      .saves { t with
        status := .planned
        deliveryEvidence := none
        problemStatement := t.problemStatement ++ "\n\n" ++ reason
        updatedAt := now }
  else if t.isTerminal then .fails (.refusingRequeue t.id t.status)
  else if t.status = .planned then .returns
  else .saves { t with status := .planned, updatedAt := now }

def prepareDelivery [DecidableEq ρ] (codec : Codec ρ τ) (controlOnly : Bool) (own queued : Option (UserTicket τ)) :
    Prepared τ :=
  match chooseDeliveryRow own queued with
  | none => .returns
  | some chosen =>
    if controlOnly || own.any (fun t => decide (codec.dump t = codec.dump chosen)) then .returns
    else .saves chosen

/-- What a call does before `save_ticket`, with the lock. -/
def prepare [DecidableEq ρ] (codec : Codec ρ τ) (call : Call τ) (e : Event τ) (file : Option (LedgerFile ρ)) :
    Prepared τ :=
  match call.op with
  | .saveTicket t => .saves t
  | .updateStatus ticketId status deliveryEvidence =>
    match getTicket codec call.projectLedger e file ticketId with
    | .error err => .fails err
    | .ok t => .saves (prepareUpdate status deliveryEvidence e.now t)
  | .requeueTicket ticketId reason reopen =>
    match getTicket codec call.projectLedger e file ticketId with
    | .error err => .fails err
    | .ok t => prepareRequeue reason reopen e.now t
  | .resolveForDelivery ticketId =>
    match fileTicket codec e.now ticketId (readRaw e.readable file) with
    | .error err => .fails err
    | .ok own => prepareDelivery codec call.controlOnly own (e.queue.getTicket ticketId)

end

inductive Pc (ρ τ : Type) where
  | entered
  /-- `_PathMutex.acquire`. -/
  | acquiring
  | locked
  /-- `save_ticket`, about to read the rows. -/
  | saving (t : UserTicket τ)
  /-- `_write_raw`. -/
  | writing (t : UserTicket τ) (items : List (Item ρ))
  /-- `_mirror_to_control`. -/
  | mirroring (t : UserTicket τ)
  | returned
  | raised (e : StoreError)
  /-- Its process has ended. -/
  | dead
deriving DecidableEq

def Pc.critical {ρ τ : Type} : Pc ρ τ → Bool
  | .locked | .saving _ | .writing _ _ | .mirroring _ => true
  | _ => false

structure Setting (ρ τ : Type) where
  codec : Codec ρ τ
  call : Nat → Call τ

structure State (ρ τ : Type) where
  file : Option (LedgerFile ρ)
  /-- The call that has the lock on a file. -/
  locks : String × String → Option Nat := fun _ => none
  pcs : Nat → Pc ρ τ := fun _ => .entered

section

variable {ρ τ : Type}

namespace State

def setPc (s : State ρ τ) (n : Nat) (pc : Pc ρ τ) : State ρ τ :=
  { s with pcs := fun n' => if n' = n then pc else s.pcs n' }

def setLock (s : State ρ τ) (lockFile : String × String) (holder : Option Nat) : State ρ τ :=
  { s with locks := fun f => if f = lockFile then holder else s.locks f }

def leave (s : State ρ τ) (n : Nat) (call : Call τ) (pc : Pc ρ τ) : State ρ τ :=
  (s.setLock call.lockFile none).setPc n pc

variable [DecidableEq ρ]

def go (c : Setting ρ τ) (s : State ρ τ) (n : Nat) (e : Event τ) : State ρ τ :=
  let call := c.call n
  match s.pcs n with
  | .entered =>
    match call.op with
    | .saveTicket t =>
      match checkTicket t with
      | some err => s.setPc n (.raised err)
      | none => s.setPc n .acquiring
    | _ => s.setPc n .acquiring
  | .acquiring =>
    match s.locks call.lockFile with
    | none => (s.setLock call.lockFile (some n)).setPc n .locked
    | some _ => if e.timeout then s.setPc n (.raised .lockTimeout) else s
  | .locked =>
    match prepare c.codec call e s.file with
    | .fails err => s.leave n call (.raised err)
    | .returns => s.leave n call .returned
    | .saves t =>
      match checkTicket t with
      | some err => s.leave n call (.raised err)
      | none => s.setPc n (.saving t)
  | .saving t =>
    if call.controlOnly then s.leave n call (if e.registered then .returned else .raised .notRegistered)
    else
      match saveRaw (c.codec.dump t) (readRaw e.readable s.file) with
      | none => s.leave n call (.raised .malformedItems)
      | some items => s.setPc n (.writing t items)
  | .writing t items =>
    if e.written then { s with file := some (.written items) }.setPc n (.mirroring t)
    else s.leave n call (.raised .notWritten)
  | .mirroring _ => s.leave n call .returned
  | .returned | .raised _ | .dead => s

end State

inductive Act (τ : Type) where
  | go (n : Nat) (e : Event τ)
  /-- The process of a call ends; the system takes its lock away. -/
  | kill (n : Nat)

def step [DecidableEq ρ] (c : Setting ρ τ) (s : State ρ τ) : Act τ → State ρ τ
  | .go n e => s.go c n e
  | .kill n => if (s.pcs n).critical then s.leave n (c.call n) .dead else s.setPc n .dead

end

end Demands
end DarkFactory
