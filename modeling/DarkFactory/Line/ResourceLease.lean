import DarkFactory.Lib.Table
import DarkFactory.Lib.Runs
import DarkFactory.Python.DateTime

/-!
# DarkFactory.Line.ResourceLease

`ResourceLeaseCoordinator` on both of its backends. Each call is one transaction, so a history is a
sequence of calls.

* `acquire`, `heartbeat`, `release`, `isHeldBy` — the methods, with what they return and the table
  they leave.
-/

namespace DarkFactory
namespace Line

inductive LeaseStatus where
  | active | released | expired
deriving DecidableEq

structure ResourceLease where
  resourceId : String
  resourceType : String
  holderId : String
  fencingToken : Int := 1
  acquiredAt : DateTime
  heartbeatAt : DateTime
  expiresAt : DateTime
  status : LeaseStatus := .active
  metadata : String := "{}"
deriving DecidableEq

inductive LeaseError where
  | resourceBusy (resourceId holderId : String) (expiresAt : DateTime)
  | leaseLost (resourceId holderId : String) (fencingToken : Int)
deriving DecidableEq

/-- `str(exc)`, for the text `iso` of the time in it. -/
def LeaseError.message (iso : DateTime → String) : LeaseError → String
  | .resourceBusy resourceId holderId expiresAt =>
    s!"Resource '{resourceId}' is busy: currently held by '{holderId}' until {iso expiresAt}."
  | .leaseLost resourceId holderId fencingToken =>
    s!"Lease for '{resourceId}' (token={fencingToken}) was lost by '{holderId}'."

/-- A row of `resource_leases` has the columns of the lease that was granted. -/
abbrev Leases := Table ResourceLease.resourceId

inductive Backend where
  | sqlite | postgres
deriving DecidableEq

/-- `expires_at <= now`. -/
def Backend.expiredBy (backend : Backend) (expiresAt now : DateTime) : Bool :=
  match backend with
  | .sqlite => expiresAt.textLe now
  | .postgres => expiresAt.le now

/-- `expires_at > now`. -/
def Backend.unexpiredBy (backend : Backend) (expiresAt now : DateTime) : Bool :=
  match backend with
  | .sqlite => !expiresAt.textLe now
  | .postgres => now.lt expiresAt

namespace ResourceLeaseCoordinator

/-- `UPDATE … WHERE resource_id = ?`. -/
def set (resourceId : String) (f : ResourceLease → ResourceLease)
    (hf : ∀ r, (f r).resourceId = r.resourceId) (db : Leases) : Leases :=
  db.update (fun r => decide (r.resourceId = resourceId)) f hf

def refreshed (now expiresAt : DateTime) (metadata : String) (r : ResourceLease) : ResourceLease :=
  { r with heartbeatAt := now, expiresAt := expiresAt, metadata := metadata }

def reclaimed (resourceType holderId : String) (token : Int) (now expiresAt : DateTime)
    (metadata : String) (r : ResourceLease) : ResourceLease :=
  { r with
    resourceType := resourceType
    holderId := holderId
    fencingToken := token
    acquiredAt := now
    heartbeatAt := now
    expiresAt := expiresAt
    status := .active
    metadata := metadata }

def renewed (now expiresAt : DateTime) (r : ResourceLease) : ResourceLease :=
  { r with heartbeatAt := now, expiresAt := expiresAt }

def ended (now : DateTime) (r : ResourceLease) : ResourceLease :=
  { r with status := .released, expiresAt := now }

section

variable (r : ResourceLease)

theorem refreshed_id (now expiresAt : DateTime) (metadata : String) :
    (refreshed now expiresAt metadata r).resourceId = r.resourceId := rfl

theorem reclaimed_id (resourceType holderId : String) (token : Int) (now expiresAt : DateTime)
    (metadata : String) :
    (reclaimed resourceType holderId token now expiresAt metadata r).resourceId = r.resourceId :=
  rfl

theorem renewed_id (now expiresAt : DateTime) : (renewed now expiresAt r).resourceId = r.resourceId := rfl

theorem ended_id (now : DateTime) : (ended now r).resourceId = r.resourceId := rfl

end

def isLive (backend : Backend) (now : DateTime) (row : ResourceLease) : Bool :=
  decide (row.status = .active) && backend.unexpiredBy row.expiresAt now

def acquire (backend : Backend) (resourceId resourceType holderId : String) (ttlS : Int)
    (metadata : String) (now : DateTime) (db : Leases) : Except LeaseError ResourceLease × Leases :=
  let expiresAt := now.addSeconds ttlS
  let lease : ResourceLease :=
    { resourceId := resourceId
      resourceType := resourceType
      holderId := holderId
      acquiredAt := now
      heartbeatAt := now
      expiresAt := expiresAt
      metadata := metadata }
  match db.get? resourceId with
  | some row =>
    if isLive backend now row then
      if row.holderId = holderId then
        (.ok { lease with fencingToken := row.fencingToken, acquiredAt := row.acquiredAt },
          set resourceId (refreshed now expiresAt metadata)
            (fun r => refreshed_id r now expiresAt metadata) db)
      else (.error (.resourceBusy resourceId row.holderId row.expiresAt), db)
    else
      (.ok { lease with fencingToken := row.fencingToken + 1 }, set resourceId
          (reclaimed resourceType holderId (row.fencingToken + 1) now expiresAt metadata)
          (fun r => reclaimed_id r resourceType holderId (row.fencingToken + 1) now expiresAt metadata)
          db)
  | none => (.ok lease, db.insertIgnore lease)

/-- The check of `heartbeat`, negated. -/
def owns (backend : Backend) (lease : ResourceLease) (now : DateTime) (row : ResourceLease) : Bool :=
  decide (row.holderId = lease.holderId) && decide (row.fencingToken = lease.fencingToken) &&
    decide (row.status = .active) && !backend.expiredBy row.expiresAt now

def heartbeat (backend : Backend) (lease : ResourceLease) (ttlS : Int) (now : DateTime)
    (db : Leases) : Except LeaseError ResourceLease × Leases :=
  if (db.get? lease.resourceId).any (owns backend lease now) then
    (.ok { lease with heartbeatAt := now, expiresAt := now.addSeconds ttlS },
      set lease.resourceId (renewed now (now.addSeconds ttlS))
        (fun r => renewed_id r now (now.addSeconds ttlS)) db)
  else (.error (.leaseLost lease.resourceId lease.holderId lease.fencingToken), db)

/-- The check of `release`, which does not look at the expiry. -/
def releasable (lease row : ResourceLease) : Bool :=
  decide (row.holderId = lease.holderId) && decide (row.fencingToken = lease.fencingToken) &&
    decide (row.status = .active)

def release (lease : ResourceLease) (now : DateTime) (db : Leases) : Bool × Leases :=
  if (db.get? lease.resourceId).any (releasable lease) then
    (true, set lease.resourceId (ended now) (fun r => ended_id r now) db)
  else (false, db)

def isHeldBy (backend : Backend) (resourceId holderId : String) (fencingToken : Option Int)
    (now : DateTime) (db : Leases) : Bool :=
  match db.get? resourceId with
  | none => false
  | some row =>
    if row.holderId ≠ holderId ∨ row.status ≠ .active ∨ backend.expiredBy row.expiresAt now = true
    then false
    else
      match fencingToken with
      | none => true
      | some token => decide (row.fencingToken = token)

inductive Call where
  | acquire (resourceId resourceType holderId : String) (ttlS : Int) (metadata : String)
      (now : DateTime)
  | heartbeat (lease : ResourceLease) (ttlS : Int) (now : DateTime)
  | release (lease : ResourceLease) (now : DateTime)
deriving DecidableEq

def Call.now : Call → DateTime
  | .acquire _ _ _ _ _ now => now
  | .heartbeat _ _ now => now
  | .release _ now => now

def step (backend : Backend) (db : Leases) : Call → Leases
  | .acquire resourceId resourceType holderId ttlS metadata now =>
    (acquire backend resourceId resourceType holderId ttlS metadata now db).2
  | .heartbeat lease ttlS now => (heartbeat backend lease ttlS now db).2
  | .release lease now => (release lease now db).2

end ResourceLeaseCoordinator
end Line
end DarkFactory
