import Mathlib.Order.Basic

/-!
# DarkFactory.Infra.Persistence

The local-first records of `core/infra/persistence.py`: hosts with a store and an outbox of their own, and one remote.

* `Row` — the data, version and deletion flag of an entity; `OutboxRow` — a queued write.
* `put`, `delete` — one local transaction each.
* `upsert` — what the remote makes of a pushed row: equal versions are taken, smaller ones are ignored.
* `pushRemote`, `pushMark`, `pullRead`, `pullApply` — the transactions of `sync_to_remote` and `sync_from_remote`, which
  hold the lock of the host together.

Data is any JSON object, `empty` the one without keys. Outbox rows are never removed, so that the id of a row is its place.
-/

namespace DarkFactory
namespace Infra
namespace Persistence

structure Key where
  tenantId : String
  collection : String
  entityId : String
  deriving DecidableEq

structure Row (Data : Type) where
  data : Data
  version : Int
  isDeleted : Bool

structure OutboxRow (Data : Type) where
  id : Nat
  key : Key
  row : Row Data
  synced : Bool

inductive Pc (Data : Type) where
  | idle
  /-- the remote has committed the rows with these ids -/
  | marking (ids : List Nat)
  /-- these remote rows have been read -/
  | applying (rows : Key → Option (Row Data))

structure Host (Data : Type) where
  records : Key → Option (Row Data)
  outbox : List (OutboxRow Data)
  pc : Pc Data

variable {Data : Type}

def Host.start : Host Data := ⟨fun _ => none, [], .idle⟩

def Host.pending (host : Host Data) : List (OutboxRow Data) := host.outbox.filter fun r => !r.synced

def Host.queue (host : Host Data) (key : Key) (row : Row Data) : Host Data :=
  { host with
    records := Function.update host.records key (some row)
    outbox := host.outbox ++ [⟨host.outbox.length, key, row, false⟩] }

def newVersion (existing : Option (Row Data)) (version : Option Int) : Int :=
  match existing with
  | none => version.getD 1
  | some row =>
    match version with
    | some v => if row.version < v then v else row.version + 1
    | none => row.version + 1

def put (host : Host Data) (key : Key) (data : Data) (version : Option Int) : Host Data :=
  host.queue key ⟨data, newVersion (host.records key) version, false⟩

/-- The record keeps its data, the queued write has none. -/
def delete (empty : Data) (host : Host Data) (key : Key) : Host Data :=
  match host.records key with
  | none => host
  | some row =>
    let newVer := row.version + 1
    { host with
      records := Function.update host.records key (some { row with version := newVer, isDeleted := true })
      outbox := host.outbox ++ [⟨host.outbox.length, key, ⟨empty, newVer, true⟩, false⟩] }

/-- `ON CONFLICT DO UPDATE ... WHERE EXCLUDED.version >= tenant_records.version` -/
def upsertRow (old : Option (Row Data)) (row : Row Data) : Option (Row Data) :=
  match old with
  | none => some row
  | some r => if r.version ≤ row.version then some row else some r

def upsert (remote : Key → Option (Row Data)) (r : OutboxRow Data) : Key → Option (Row Data) :=
  Function.update remote r.key (upsertRow (remote r.key) r.row)

def push (remote : Key → Option (Row Data)) (rows : List (OutboxRow Data)) : Key → Option (Row Data) :=
  rows.foldl upsert remote

def mark (ids : List Nat) (r : OutboxRow Data) : OutboxRow Data := if r.id ∈ ids then { r with synced := true } else r

def pullRow (localRow remoteRow : Option (Row Data)) : Option (Row Data) :=
  match remoteRow, localRow with
  | none, l => l
  | some r, none => some r
  | some r, some l => if l.version < r.version then some r else some l

structure Scope where
  tenantId : String
  collection : Option String

def Scope.covers (scope : Scope) (key : Key) : Bool :=
  decide (key.tenantId = scope.tenantId) &&
    match scope.collection with
    | none => true
    | some collection => decide (collection = "") || decide (key.collection = collection)

end Persistence
end Infra
end DarkFactory
