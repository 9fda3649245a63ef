import DarkFactory.OwnerActions.Merge
import DarkFactory.OwnerActions.Store

/-!
# DarkFactory.OwnerActions.Hosts

The default backlog on several hosts: each has its ledger file with its lock, and all of them share the control store.

* `Session`, `step` — the mutations of all hosts. A read of the control store may fail, and then gives no rows; a row
  is written later than it is read.
-/

namespace DarkFactory
namespace OwnerActions
namespace Hosts

open Store

section

variable (scan : SecretScan)

/-- `_mutate_control`, on the ledger and the rows that were read: its result and the rows to write. -/
def mutateControl {α : Type} (fn : Ledger → Except OwnerActionError (α × Ledger)) (ledger : Ledger)
    (controlRows : List Store.Row) : Except OwnerActionError (α × List Store.Row) := do
  let file ← writableDocument ledger
  validateDocument scan file
  validateDocument scan { rows := controlRows }
  let (result, document) ← mutateLedger scan fn { rows := Store.mergeRows file.rows controlRows }
  return (result, changedRows (Store.mergeRows file.rows controlRows) document.rows)

structure OwnerActionDraft where
  kind : ActionKind := .action
  title : String
  priority : ActionPriority := .medium
  why : String := ""
  blocks : List String := []
  dependsOn : List String := []
  steps : List ActionStep := []
  options : List DecisionOption := []
  verify : String := ""
  createdBy : String := "claude-code"
  id : Option String := none
deriving DecidableEq

namespace OwnerActionDraft

def build (now : String) (d : OwnerActionDraft) (actionId : String) : Option OwnerAction :=
  OwnerAction.validate scan now {
    id := actionId
    kind := d.kind
    title := Text.strip d.title
    priority := d.priority
    status := .open
    why := Text.strip d.why
    blocks := d.blocks
    dependsOn := d.dependsOn
    steps := d.steps
    options := d.options
    verify := Text.strip d.verify
    createdAt := now
    createdBy := d.createdBy }

def given (d : OwnerActionDraft) : Option String := d.id.filter fun id => decide (id ≠ "")

end OwnerActionDraft

structure Sources where
  dynamic : List Store.Row := []
  /-- The ids of the overlay. -/
  resolutions : List String := []
  gitHistory : List Nat := []

/-- `_used_numbers`, with the rows `loaded` and `listed` of its two reads of the control store. -/
def usedNumbers (now : String) (rows : List Store.Row) (remoteReserved : List Nat) (ledger : Ledger)
    (loaded listed : List Store.Row) (sources : Sources) : List Nat :=
  let actions := (loadRows scan now (Store.mergeRows (rawActions ledger) loaded)).map OwnerAction.id
  let raw := (rawActions ledger ++ rows ++ listed ++ sources.dynamic).filterMap Store.Row.key
  (actions ++ raw ++ sources.resolutions).filterMap sequentialNumber ++ sources.gitHistory ++ remoteReserved

/-- The id that `add` takes. -/
def actionIdOf (now : String) (draft : OwnerActionDraft) (rows : List Store.Row) (remoteReserved : List Nat)
    (ledger : Ledger) (loaded listed : List Store.Row) (sources : Sources) : String :=
  draft.given.getD
    (freshId (nextNumber (usedNumbers scan now rows remoteReserved ledger loaded listed sources)))

/-- The function that `add` applies, for the id that it takes. -/
def addRow (now : String) (draft : OwnerActionDraft) (actionId : String) (sources : Sources) (l : Ledger) :
    Except OwnerActionError (OwnerAction × Ledger) :=
  if actionId ∈ l.rows.filterMap Store.Row.key ∨ actionId ∈ sources.dynamic.filterMap Store.Row.key ∨
      actionId ∈ sources.resolutions then
    .error (.alreadyExists actionId)
  else
    match draft.build scan now actionId with
    | none => .error .invalid
    | some action => .ok (action, { l with rows := l.rows ++ [.object action] })

inductive Mutation where
  /-- With the numbers that the base branch has reserved. -/
  | add (draft : OwnerActionDraft) (remoteReserved : List Nat)
  | upsert (action : OwnerAction)
  /-- `_resolve_in_definitions`. -/
  | resolve (actionId : String) (answer : Option DecisionAnswer)
  | reconcileUpdate (r : Reconciliation)

inductive Result where
  | added (action : OwnerAction)
  | upserted (action : OwnerAction) (created : Bool)
  | resolved (action : OwnerAction)
  | reconciled (action : OwnerAction)
  | failed (e : OwnerActionError)
deriving DecidableEq

def Mutation.reads : Mutation → Nat
  | .add draft _ => if draft.given.isSome then 1 else 3
  | .upsert _ | .resolve _ _ | .reconcileUpdate _ => 1

structure Reads where
  ledger : Ledger
  control : List (List Store.Row) := []

def Reads.controlRows (r : Reads) : List Store.Row := r.control.headD []

def Reads.rows (r : Reads) : List Store.Row := Store.mergeRows (rawActions r.ledger) r.controlRows

def Mutation.actionId (now : String) (reads : Reads) (ledger : Ledger) (sources : Sources) : Mutation → String
  | .add draft remoteReserved =>
    actionIdOf scan now draft reads.rows remoteReserved ledger ((reads.control[1]?).getD []) ((reads.control[2]?).getD [])
      sources
  | .upsert action => action.id
  | .resolve actionId _ => actionId
  | .reconcileUpdate r => r.actionId

def Mutation.run (now : String) (reads : Reads) (ledger : Ledger) (sources : Sources) (m : Mutation) :
    Except OwnerActionError (Result × List Store.Row) :=
  match m with
  | .add draft _ => do
    let (action, changed) ←
      mutateControl scan (addRow scan now draft (m.actionId scan now reads ledger sources) sources) reads.ledger
        reads.controlRows
    return (.added action, changed)
  | .upsert action => do
    let ((saved, created), changed) ← mutateControl scan (insert scan now action) reads.ledger reads.controlRows
    return (.upserted saved created, changed)
  | .resolve actionId answer => do
    let (action, changed) ← mutateControl scan (Ledger.update scan now actionId fun action =>
      .ok { action with status := .done, resolvedAt := some now, answer := answer }) reads.ledger reads.controlRows
    return (.resolved action, changed)
  | .reconcileUpdate r => do
    let (action, changed) ← mutateControl scan (Ledger.update scan now r.actionId fun action =>
      match (r.apply scan now action).validate scan now with
      | none => .error .invalid
      | some updated => .ok updated) reads.ledger reads.controlRows
    return (.reconciled action, changed)

end

inductive Call where
  | add (draft : OwnerActionDraft) (remoteReserved : List Nat)
  | upsert (action : OwnerAction)
  | resolve (args : ResolveArgs)
  | reconcileUpdate (r : Reconciliation)

inductive Session where
  | absent
  /-- Before the effective backlog is read. -/
  | deciding (host : Nat) (args : ResolveArgs)
  /-- Before the lock. -/
  | waiting (host : Nat) (m : Mutation)
  | holding (host : Nat) (m : Mutation) (reads : Reads)
  | returned (result : Result)

structure Fleet where
  control : List Store.Row
  ledgers : Nat → Ledger
  /-- The call that has the lock of a host's ledger. -/
  locks : Nat → Option Nat := fun _ => none
  sessions : Nat → Session := fun _ => .absent

inductive Event where
  | start (c host : Nat) (call : Call)
  /-- `resolve`, on the effective backlog that it has read. -/
  | decide (c : Nat) (now : String) (backlog : List OwnerAction)
  | enter (c : Nat)
  | timeout (c : Nat)
  | read (c : Nat) (reachable : Bool)
  | write (c : Nat) (now : String) (sources : Sources) (reachable : Bool)
  /-- The ledger file of a host changes by other means. -/
  | pull (host : Nat) (ledger : Ledger)

def Call.session (host : Nat) : Call → Session
  | .add draft remoteReserved => .waiting host (.add draft remoteReserved)
  | .upsert action => .waiting host (.upsert action)
  | .resolve args => .deciding host args
  | .reconcileUpdate r => .waiting host (.reconcileUpdate r)

/-- What `resolve` has decided. -/
def decided (host : Nat) : Store.Session → Session
  | .answering args _ answer => .waiting host (.resolve args.actionId answer)
  | .returned (.resolved _ (.ok action)) => .returned (.resolved action)
  | .returned (.resolved _ (.error e)) => .returned (.failed e)
  | _ => .absent

namespace Fleet

def set (w : Fleet) (c : Nat) (s : Session) : Fleet :=
  { w with sessions := fun c' => if c' = c then s else w.sessions c' }

def setLock (w : Fleet) (host : Nat) (holder : Option Nat) : Fleet :=
  { w with locks := fun host' => if host' = host then holder else w.locks host' }

def leave (w : Fleet) (c host : Nat) (result : Result) : Fleet := (w.setLock host none).set c (.returned result)

/-- The end of a mutation: its rows are upserted, one after the other. -/
def finish (w : Fleet) (c host : Nat) (reachable : Bool) (outcome : Except OwnerActionError (Result × List Store.Row)) :
    Fleet :=
  match outcome with
  | .error e => w.leave c host (.failed e)
  | .ok (result, changed) =>
    if changed = [] then w.leave c host result
    else if reachable then { w with control := changed.foldl upsertRow w.control }.leave c host result
    else w.leave c host (.failed .unavailable)

end Fleet

def step (scan : SecretScan) (w : Fleet) : Event → Fleet
  | .start c host call =>
    match w.sessions c with
    | .absent => w.set c (call.session host)
    | _ => w
  | .decide c now backlog =>
    match w.sessions c with
    | .deciding host args => w.set c (decided host (decideAnswer now args backlog))
    | _ => w
  | .enter c =>
    match w.sessions c with
    | .waiting host m =>
      if w.locks host = none then (w.setLock host (some c)).set c (.holding host m { ledger := w.ledgers host }) else w
    | _ => w
  | .timeout c =>
    match w.sessions c with
    | .waiting _ _ => w.set c (.returned (.failed .lockTimeout))
    | _ => w
  | .read c reachable =>
    match w.sessions c with
    | .holding host m reads =>
      if reads.control.length < m.reads then
        -- `list_control_rows`: no rows when the store cannot be reached
        let rows := if reachable then w.control else []
        w.set c (.holding host m { reads with control := reads.control ++ [rows] })
      else w
    | _ => w
  | .write c now sources reachable =>
    match w.sessions c with
    | .holding host m reads =>
      if reads.control.length = m.reads then
        w.finish c host reachable (m.run scan now reads (w.ledgers host) sources)
      else w
    | _ => w
  | .pull host ledger => { w with ledgers := fun host' => if host' = host then ledger else w.ledgers host' }

end Hosts
end OwnerActions
end DarkFactory
