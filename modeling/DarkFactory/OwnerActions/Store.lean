import DarkFactory.Lib.Runs
import DarkFactory.OwnerActions.Models

/-!
# DarkFactory.OwnerActions.Store

`OwnerActionStore` of `core/owner_actions/store.py` on one backlog: the ledger of the definitions, with the rows of
the control store over it where it is the default one, the dynamic ledger and the overlay.

* `Ledger`, `Overlay` — what the files hold; a file that cannot be read is one with `readable := false`.
* `mutateDefinitions`, `writeOverlay` — what happens under the lock of a file.
* `Session`, `step` — the calls of all processes. A call reads the three sources one after another, and what it
  writes it writes later, under a lock.
-/

namespace DarkFactory
namespace OwnerActions
namespace Store

/-- An element of `actions`. -/
inductive Row where
  | object (a : OwnerAction)
  /-- An object that is no action for another reason than its values. -/
  | mistyped (id : String) (done : Bool)
  /-- Not an object. -/
  | other
deriving DecidableEq

namespace Row

def key : Row → Option String
  | .object a => some a.id
  | .mistyped id _ => some id
  | .other => none

/-- `row.get("status") == "done"`. -/
def saysDone : Row → Bool
  | .object a => a.isDone
  | .mistyped _ done => done
  | .other => false

def accept (scan : SecretScan) : Row → Option OwnerAction
  | .object a => a.accept scan
  | .mistyped _ _ | .other => none

def validate (scan : SecretScan) (now : String) : Row → Option OwnerAction
  | .object a => a.validate scan now
  | .mistyped _ _ | .other => none

end Row

/-- `schema_version`, or a document without a list of `actions`. -/
inductive Version where
  | current | absent | other
deriving DecidableEq

structure Ledger where
  readable : Bool := true
  version : Version := .current
  rows : List Row := []
  /-- `human_request_identities`, when it is an object or absent. -/
  identities : Option (List (String × List String)) := some []
deriving DecidableEq

def rawActions (l : Ledger) : List Row := if l.readable then l.rows else []

structure Definitions where
  file : Ledger := {}
  /-- The rows of the control store, for the default ledger. -/
  control : Option (List Row) := none
deriving DecidableEq

def rowAt (rows : List Row) (id : String) : Option Row := rows.find? fun r => decide (r.key = some id)

/-- `merged[key] = raw`. -/
def assign (merged : List Row) (raw : Row) : List Row :=
  if merged.any (fun r => decide (r.key = raw.key)) then
    merged.map fun r => if r.key = raw.key then raw else r
  else merged ++ [raw]

def mergeControl (merged : List Row) (raw : Row) : List Row :=
  match merged.find? fun r => decide (r.key = raw.key) with
  | some current => if current.saysDone && !raw.saysDone then merged else assign merged raw
  | none => assign merged raw

/-- `merge_rows`, less the second mention of an id. -/
def mergeRows (fileRows controlRows : List Row) : List Row :=
  controlRows.foldl mergeControl ((fileRows.filter fun r => r.key.isSome).foldl assign [])

/-- The rows that `_load_definitions` and `_mutate_definitions` go by. -/
def Definitions.rows (d : Definitions) : List Row :=
  match d.control with
  | none => rawActions d.file
  | some control => mergeRows (rawActions d.file) control

inductive OwnerActionError where
  | notFound (id : String)
  /-- `informe a opcao escolhida`. -/
  | optionMissing (id : String)
  /-- `e uma acao, nao uma decisao`. -/
  | notADecision (id : String)
  | invalidOption (option id : String) (valid : List String)
  /-- `ja foi respondida com a opcao`. -/
  | alreadyAnswered (id option : String)
  | overlayNotConfigured
  | dynamicNotConfigured
  /-- `machine event conflicts with curated owner action`. -/
  | curatedConflict
  | identityMetadata
  | identityConflict
  /-- `esta corrompido`. -/
  | corrupt
  | envelope
  | invalidRow (index : Nat)
  | duplicate (id : String)
  | resolutions
  | invalid
  | lockTimeout
  /-- `ja existe`. -/
  | alreadyExists (id : String)
  /-- The control store cannot be written. -/
  | unavailable
deriving DecidableEq

section

variable (scan : SecretScan)

/-- The loop of `_validate_candidate_document`. -/
def validateRows : List String → Nat → List Row → Except OwnerActionError Unit
  | _, _, [] => .ok ()
  | seen, index, raw :: rows =>
    match raw.accept scan with
    | none => .error (.invalidRow index)
    | some a => if a.id ∈ seen then .error (.duplicate a.id) else validateRows (a.id :: seen) (index + 1) rows

/-- `_validate_candidate_document`. -/
def validateDocument (l : Ledger) : Except OwnerActionError Unit :=
  if l.version = .current then validateRows scan [] 0 l.rows else .error .envelope

/-- `_writable_ledger_document`, of a file that is not corrupt. -/
def writableDocument (l : Ledger) : Except OwnerActionError Ledger :=
  if l.readable then .ok { l with version := if l.version = .absent then .current else l.version }
  else .error .corrupt

/-- `_mutate_definitions` of a store on a file. -/
def mutateLedger {α : Type} (fn : Ledger → Except OwnerActionError (α × Ledger)) (l : Ledger) :
    Except OwnerActionError (α × Ledger) := do
  let document ← writableDocument l
  validateDocument scan document
  let (result, document') ← fn document
  validateDocument scan document'
  return (result, document')

/-- `upsert_owner_action`, on the rows in the order of their ids. -/
def upsertRow (rows : List Row) (raw : Row) : List Row :=
  if rows.any (fun r => decide (r.key = raw.key)) then rows.map fun r => if r.key = raw.key then raw else r
  else
    rows.takeWhile (fun r => decide (r.key.getD "" < raw.key.getD "")) ++
      raw :: rows.dropWhile (fun r => decide (r.key.getD "" < raw.key.getD ""))

/-- The rows that are not what `before` has under their ids. -/
def changedRows (before rows : List Row) : List Row :=
  rows.filter fun r => decide (before.find? (fun b => decide (b.key = r.key)) ≠ some r)

def mutateDefinitions {α : Type} (fn : Ledger → Except OwnerActionError (α × Ledger)) (d : Definitions) :
    Except OwnerActionError (α × Definitions) :=
  match d.control with
  | none => do
    let (result, file) ← mutateLedger scan fn d.file
    return (result, { d with file := file })
  | some control => do
    let file ← writableDocument d.file
    validateDocument scan file
    validateDocument scan { rows := control }
    let (result, document) ← mutateLedger scan fn { rows := mergeRows file.rows control }
    let changed := changedRows (mergeRows file.rows control) document.rows
    return (result, { d with control := some (changed.foldl upsertRow control) })

def updateRow (now id : String) (f : OwnerAction → Except OwnerActionError OwnerAction) :
    List Row → Except OwnerActionError (OwnerAction × List Row)
  | [] => .error (.notFound id)
  | raw :: rows =>
    if raw.key = some id then
      match raw.validate scan now with
      | none => .error .invalid
      | some a => do
        let updated ← f a
        return (updated, .object updated :: rows)
    else do
      let (updated, rows') ← updateRow now id f rows
      return (updated, raw :: rows')

def Ledger.update (now id : String) (f : OwnerAction → Except OwnerActionError OwnerAction) (l : Ledger) :
    Except OwnerActionError (OwnerAction × Ledger) := do
  let (updated, rows) ← updateRow scan now id f l.rows
  return (updated, { l with rows := rows })

def resolveInDefinitions (now id : String) (answer : Option DecisionAnswer) (d : Definitions) :
    Except OwnerActionError (OwnerAction × Definitions) :=
  mutateDefinitions scan (Ledger.update scan now id fun action =>
    .ok { action with status := .done, resolvedAt := some now, answer := answer }) d

structure Reconciliation where
  actionId : String
  blocks : Option (List String) := none
  close : Bool := false
  outcome : String
  note : String

/-- What `reconcile_update` makes of the row, before it is validated. -/
def Reconciliation.apply (r : Reconciliation) (now : String) (action : OwnerAction) : OwnerAction :=
  let closes := r.close && !action.isDone
  { action with
    history := action.history ++ [[("at", now), ("outcome", r.outcome), ("note", scan.redact r.note)]]
    blocks := r.blocks.getD action.blocks
    status := if closes then .done else action.status
    resolvedAt := if closes then some now else action.resolvedAt }

def reconcileUpdate (now : String) (r : Reconciliation) (d : Definitions) :
    Except OwnerActionError (OwnerAction × Definitions) :=
  mutateDefinitions scan (Ledger.update scan now r.actionId fun action =>
    match (r.apply scan now action).validate scan now with
    | none => .error .invalid
    | some updated => .ok updated) d

/-- The function that `upsert` applies. -/
def insert (now : String) (action : OwnerAction) (l : Ledger) :
    Except OwnerActionError ((OwnerAction × Bool) × Ledger) :=
  match rowAt l.rows action.id with
  | some raw => .ok (((raw.validate scan now).getD action, false), l)
  | none => .ok ((action, true), { l with rows := l.rows ++ [.object action] })

/-- A machine event: the action of its `HumanRequest`, its run and stage, and whether it closes the request. -/
structure MachineEvent where
  action : OwnerAction
  identity : List String
  closed : Bool

def closedRow (now : String) (action : OwnerAction) : Except OwnerActionError OwnerAction :=
  match { action with status := .done }.validate scan now with
  | none => .error .invalid
  | some done => .ok done

/-- The function that `sync_human_request` applies. -/
def MachineEvent.apply (e : MachineEvent) (now : String) (l : Ledger) :
    Except OwnerActionError (OwnerAction × Ledger) :=
  match l.identities with
  | none => .error .identityMetadata
  | some identities =>
    match rowAt l.rows e.action.id with
    | some raw =>
      if (identities.find? fun i => decide (i.1 = e.action.id)).map Prod.snd ≠ some e.identity then
        .error .identityConflict
      else
        match raw.validate scan now with
        | none => .error .invalid
        | some existing =>
          if existing.isDone || !e.closed then .ok (existing, l)
          else l.update scan now e.action.id (closedRow scan now)
    | none => do
      let saved ← if e.closed then closedRow scan now e.action else .ok e.action
      return (saved, { l with
        rows := l.rows ++ [.object saved]
        identities := some (identities.filter (fun i => decide (i.1 ≠ e.action.id)) ++ [(e.action.id, e.identity)]) })

structure Overlay where
  /-- Otherwise it is written afresh. -/
  isObject : Bool := true
  /-- Its `schema_version` is the current one, and its `resolutions` are an object. -/
  envelope : Bool := true
  /-- Nothing for an entry that is no resolution. -/
  entries : List (String × Option Resolution) := []
deriving DecidableEq

/-- `_load_resolutions`. -/
def Overlay.loaded (o : Overlay) : List (String × Resolution) :=
  if o.isObject then o.entries.filterMap fun e => e.2.map fun r => (e.1, r) else []

/-- `resolutions.get(id)`. -/
def resolutionOf (resolutions : List (String × Resolution)) (id : String) : Option Resolution :=
  (resolutions.find? fun e => decide (e.1 = id)).map Prod.snd

/-- `resolutions[id] = resolution`. -/
def setEntry (entries : List (String × Option Resolution)) (id : String) (resolution : Resolution) :
    List (String × Option Resolution) :=
  if entries.any (fun e => decide (e.1 = id)) then
    entries.map fun e => if e.1 = id then (id, some resolution) else e
  else entries ++ [(id, some resolution)]

/-- What `_write_overlay` asks of the definitions. -/
def validateSources (d : Definitions) : Except OwnerActionError Unit :=
  if d.file.readable then do
    validateDocument scan d.file
    validateDocument scan { rows := d.control.getD [] }
  else .error .corrupt

/-- `_write_overlay`, from its lock on. -/
def writeOverlay (now : String) (current : OwnerAction) (answer : Option DecisionAnswer) (note : String)
    (d : Definitions) (o : Overlay) : Except OwnerActionError (OwnerAction × Overlay) := do
  let resolution : Resolution := { resolvedAt := now, answer := answer, note := Text.strip note }
  validateSources scan d
  let document := if o.isObject then o else {}
  if document.envelope && document.entries.all fun e => e.2.isSome then
    return (applyResolution current (some resolution),
      { document with entries := setEntry document.entries current.id resolution })
  else .error .resolutions

/-- The actions that follow ones with the ids `seen`: the first of each id. -/
def firsts : List String → List OwnerAction → List OwnerAction
  | _, [] => []
  | seen, a :: actions => if a.id ∈ seen then firsts seen actions else a :: firsts (a.id :: seen) actions

/-- `_load_definitions`, from the rows. -/
def loadRows (now : String) (rows : List Row) : List OwnerAction :=
  firsts [] (rows.filterMap (Row.validate scan now))

/-- `load`, from the three sources. -/
def effective (curated dynamic : List OwnerAction) (resolutions : List (String × Resolution)) : List OwnerAction :=
  (curated ++ dynamic.filter fun a => decide (a.id ∉ curated.map OwnerAction.id)).map fun a =>
    applyResolution a (resolutionOf resolutions a.id)

def validateWriteSources (d : Definitions) : Except OwnerActionError Unit := do
  let document ← writableDocument d.file
  validateDocument scan document
  validateDocument scan { rows := d.control.getD [] }

end

structure ResolveArgs where
  actionId : String
  optionId : Option String := none
  note : String := ""
  answeredBy : String := "owner"
  toOverlay : Bool := false
deriving DecidableEq

structure Backlog where
  definitions : Definitions := {}
  /-- The ledger at `dynamic_path`, if the backlog has one. -/
  dynamic : Option Ledger := none
  overlay : Option Overlay := none
deriving DecidableEq

inductive Target where
  | definitions | dynamic
deriving DecidableEq

inductive Call where
  | load
  | resolve (args : ResolveArgs)
  | upsert (target : Target) (action : OwnerAction)
  | reconcileUpdate (r : Reconciliation)
  | syncHumanRequest (e : MachineEvent)

inductive Task where
  | load
  | resolve (args : ResolveArgs)
deriving DecidableEq

inductive Result where
  | loaded (actions : List OwnerAction)
  | resolved (args : ResolveArgs) (outcome : Except OwnerActionError OwnerAction)
  | upserted (outcome : Except OwnerActionError (OwnerAction × Bool))
  | reconciled (outcome : Except OwnerActionError OwnerAction)
  | synced (outcome : Except OwnerActionError OwnerAction)
deriving DecidableEq

inductive Session where
  | absent
  /-- Before `_validate_write_sources`. -/
  | validating (args : ResolveArgs)
  | reading (task : Task)
  | definitionsRead (task : Task) (curated : List OwnerAction)
  | dynamicRead (task : Task) (curated dynamic : List OwnerAction)
  /-- Before the lock of the file that the answer goes to. -/
  | answering (args : ResolveArgs) (current : OwnerAction) (answer : Option DecisionAnswer)
  | upserting (target : Target) (action : OwnerAction)
  | reconciling (r : Reconciliation)
  /-- Before the definitions are read for a conflict. -/
  | requesting (e : MachineEvent)
  | synchronizing (e : MachineEvent)
  | returned (result : Result)

structure World where
  backlog : Backlog
  sessions : Nat → Session

def World.set (w : World) (c : Nat) (s : Session) : World :=
  { w with sessions := fun c' => if c' = c then s else w.sessions c' }

/-- The checks of `resolve` on the effective item, up to its answer. -/
def answerFor (now : String) (args : ResolveArgs) (current : OwnerAction) :
    Except OwnerActionError (Option DecisionAnswer) :=
  match current.kind, args.optionId.filter fun option => decide (option ≠ "") with
  | .decision, none => .error (.optionMissing args.actionId)
  | .action, some _ => .error (.notADecision args.actionId)
  | .action, none => .ok none
  | .decision, some option =>
    if option ∈ current.optionIds then
      .ok (some { optionId := option, note := Text.strip args.note, answeredAt := now, answeredBy := args.answeredBy })
    else .error (.invalidOption option args.actionId current.optionIds)

/-- `resolve`, from the effective backlog to its answer or to the write. -/
def decideAnswer (now : String) (args : ResolveArgs) (backlog : List OwnerAction) : Session :=
  match backlog.find? fun a => decide (a.id = args.actionId) with
  | none => .returned (.resolved args (.error (.notFound args.actionId)))
  | some current =>
    match answerFor now args current with
    | .error e => .returned (.resolved args (.error e))
    | .ok answer =>
      if current.isDone then
        match answer, current.answer with
        | some a, some given =>
          if given.optionId ≠ a.optionId then
            .returned (.resolved args (.error (.alreadyAnswered args.actionId given.optionId)))
          else .returned (.resolved args (.ok current))
        | _, _ => .returned (.resolved args (.ok current))
      else .answering args current answer

section

variable (scan : SecretScan)

def writeAnswer (now : String) (args : ResolveArgs) (current : OwnerAction) (answer : Option DecisionAnswer)
    (b : Backlog) : Except OwnerActionError (OwnerAction × Backlog) :=
  if args.toOverlay then
    match b.overlay with
    | none => .error .overlayNotConfigured
    | some overlay => do
      let (action, overlay') ← writeOverlay scan now current answer args.note b.definitions overlay
      return (action, { b with overlay := some overlay' })
  else do
    let (action, definitions) ← resolveInDefinitions scan now args.actionId answer b.definitions
    return (action, { b with definitions := definitions })

def upsertIn (now : String) (target : Target) (action : OwnerAction) (b : Backlog) :
    Except OwnerActionError ((OwnerAction × Bool) × Backlog) :=
  match target with
  | .definitions => do
    let (result, definitions) ← mutateDefinitions scan (insert scan now action) b.definitions
    return (result, { b with definitions := definitions })
  | .dynamic =>
    match b.dynamic with
    | none => .error .dynamicNotConfigured
    | some dynamic => do
      let (result, dynamic') ← mutateLedger scan (insert scan now action) dynamic
      return (result, { b with dynamic := some dynamic' })

def reconcileIn (now : String) (r : Reconciliation) (b : Backlog) : Except OwnerActionError (OwnerAction × Backlog) := do
  let (action, definitions) ← reconcileUpdate scan now r b.definitions
  return (action, { b with definitions := definitions })

def syncIn (now : String) (e : MachineEvent) (b : Backlog) : Except OwnerActionError (OwnerAction × Backlog) :=
  match b.dynamic with
  | none => .error .dynamicNotConfigured
  | some dynamic => do
    let (action, dynamic') ← mutateLedger scan (e.apply scan now) dynamic
    return (action, { b with dynamic := some dynamic' })

/-- The check of `sync_human_request` before its lock. -/
def requestCheck (now : String) (e : MachineEvent) (b : Backlog) : Except OwnerActionError Unit :=
  if b.dynamic = none then .error .dynamicNotConfigured
  else if (loadRows scan now b.definitions.rows).any fun a => decide (a.id = e.action.id) then
    .error .curatedConflict
  else .ok ()

/-- A call returns what its write returns; a write that raises changes nothing. -/
def World.finish {α : Type} (w : World) (c : Nat) (result : Except OwnerActionError α → Result)
    (outcome : Except OwnerActionError (α × Backlog)) : World :=
  match outcome with
  | .error e => w.set c (.returned (result (.error e)))
  | .ok (a, b) => { w with backlog := b }.set c (.returned (result (.ok a)))

def finishRead (now : String) (task : Task) (backlog : List OwnerAction) : Session :=
  match task with
  | .load => .returned (.loaded backlog)
  | .resolve args => decideAnswer now args backlog

def World.advance (w : World) (c : Nat) (now : String) : World :=
  let b := w.backlog
  match w.sessions c with
  | .absent | .returned _ => w
  | .validating args =>
    match validateWriteSources scan b.definitions with
    | .error e => w.set c (.returned (.resolved args (.error e)))
    | .ok () => w.set c (.reading (.resolve args))
  | .reading task => w.set c (.definitionsRead task (loadRows scan now b.definitions.rows))
  | .definitionsRead task curated =>
    w.set c (.dynamicRead task curated (loadRows scan now ((b.dynamic.map rawActions).getD [])))
  | .dynamicRead task curated dynamic =>
    w.set c (finishRead now task (effective curated dynamic ((b.overlay.map Overlay.loaded).getD [])))
  | .answering args current answer => w.finish c (.resolved args) (writeAnswer scan now args current answer b)
  | .upserting target action => w.finish c .upserted (upsertIn scan now target action b)
  | .reconciling r => w.finish c .reconciled (reconcileIn scan now r b)
  | .requesting e =>
    match requestCheck scan now e b with
    | .error error => w.set c (.returned (.synced (.error error)))
    | .ok () => w.set c (.synchronizing e)
  | .synchronizing e => w.finish c .synced (syncIn scan now e b)

end

def Call.session : Call → Session
  | .load => .reading .load
  | .resolve args => .validating args
  | .upsert target action => .upserting target action
  | .reconcileUpdate r => .reconciling r
  | .syncHumanRequest e => .requesting e

def Session.timeout : Session → Session
  | .answering args _ _ => .returned (.resolved args (.error .lockTimeout))
  | .upserting _ _ => .returned (.upserted (.error .lockTimeout))
  | .reconciling _ => .returned (.reconciled (.error .lockTimeout))
  | .synchronizing _ => .returned (.synced (.error .lockTimeout))
  | s => s

inductive Event where
  /-- A call of some process. -/
  | start (c : Nat) (call : Call)
  | advance (c : Nat) (now : String)
  | timeout (c : Nat)

def step (scan : SecretScan) (w : World) : Event → World
  | .start c call =>
    match w.sessions c with
    | .absent => w.set c call.session
    | _ => w
  | .advance c now => w.advance scan c now
  | .timeout c => w.set c (w.sessions c).timeout

end Store
end OwnerActions
end DarkFactory
