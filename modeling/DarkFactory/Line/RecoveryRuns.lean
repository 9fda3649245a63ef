import DarkFactory.Lib.Runs
import DarkFactory.Line.AdmissionStore

/-!
# DarkFactory.Line.RecoveryRuns

Any number of dispatchers over one `AdmissionStore`. A step of a run is one transaction of a dispatcher, a launch, the
end of a launch, a restart, or the passing of time.

* `World` — the store, the clock, the file of pending releases, the dispatchers and the launches that run.
* `step` — one event; an event that the dispatcher is not ready for changes nothing.
-/

namespace DarkFactory
namespace Line
namespace AdmissionStore

open Reservations

structure DispatcherConfig where
  reservationTtlSec : Nat := 3600
  recoveryFailureThreshold : Nat := 3

/-- A launch: what an `InFlight` keeps of its admission. -/
structure InFlight where
  host : String
  runId : String
  scope : Scope
  admissionToken : Nat
  recoveryToken : Option Nat
deriving DecidableEq

/-- An entry of `pending_recovery_releases.json`. -/
structure Release where
  ticketId : String
  runId : String
deriving DecidableEq

structure Attempt where
  host : String
  scope : Scope
  recoveryToken : Option Nat := none
  token : Option Nat := none

/-- What a dispatcher still has to do, in order, before it goes on. -/
inductive Call where
  | heartbeatRecovery (token : Nat)
  | release (scope : Scope) (token : Nat)
  | releaseRecovery (token : Nat)
  | recordFailure (fingerprint : AdmissionFingerprint)
  | setRecovery (fingerprint : AdmissionFingerprint)
  | recordReceiptCause (safeCause : String)
  | addRelease (r : Release)

structure Dispatcher where
  /-- `self.recovery["active"]`. -/
  recovery : Bool := false
  inFlight : List InFlight := []
  attempt : Option Attempt := none
  calls : List Call := []
  pendingReleases : List Release := []

inductive Ending where
  | delivered
  | silent (errorClass : String)
  | failed (errorClass : String)

inductive Event (ι : Type) where
  | wait (time : Nat)
  /-- The process of a launch ends. -/
  | ends (f : InFlight)
  /-- The part of `run_cycle` between the resumed deliveries and the dispatch; `early`: the cycle has returned. -/
  | cycle (i : ι) (early : Bool)
  | reap (i : ι) (f : InFlight) (ending : Ending)
  /-- The check for an open failure. -/
  | check (i : ι) (host : String) (scope : Scope) (errorClass : Option String)
  | reserveRecovery (i : ι)
  | reserve (i : ι)
  /-- The store fails during the admission. -/
  | refuse (i : ι)
  | launch (i : ι) (runId : String)
  | launchFails (i : ι) (errorClass : String)
  /-- The next call is made. -/
  | call (i : ι)
  /-- Exceptions: the next calls are not made. -/
  | raises (i : ι) (n : Nat)
  /-- One round of `_complete_pending_releases`; `saved = false`: the process dies before the list is saved. -/
  | prove (i : ι) (receipt : Option Receipt) (safeCause : String) (saved : Bool)
  | restart (i : ι)

structure World (ι : Type) where
  now : Nat
  /-- How many tokens have been drawn. -/
  drawn : Nat
  store : Store
  /-- What `pending_recovery_releases.json` holds. -/
  file : List Release
  dispatchers : ι → Dispatcher
  running : List InFlight
  /-- The proofs that have closed an episode, in order. -/
  closed : List Proof

def World.start (ι : Type) : World ι where
  now := 0
  drawn := 0
  store := ⟨[], [], none⟩
  file := []
  dispatchers _ := {}
  running := []
  closed := []

def Attempt.claims (a : Attempt) : List Slot :=
  (a.token.map fun t => ⟨a.scope, t⟩).toList ++ (a.recoveryToken.map fun t => ⟨recoveryScope, t⟩).toList

def InFlight.claims (f : InFlight) : List Slot :=
  ⟨f.scope, f.admissionToken⟩ :: (f.recoveryToken.map fun t => ⟨recoveryScope, t⟩).toList

/-- `_release_reservation`. -/
def InFlight.releases (f : InFlight) : List Call :=
  .release f.scope f.admissionToken :: (f.recoveryToken.map Call.releaseRecovery).toList

/-- It is between two tickets and has nothing left to do for the last one. -/
def Dispatcher.idle (d : Dispatcher) : Bool := d.attempt.isNone && d.calls.isEmpty

/-- The calls of `_reap` for a launch that has ended. -/
def reapCalls (active : Bool) (f : InFlight) : Ending → List Call
  | .delivered =>
    f.releases ++
      if active then [.addRelease ⟨f.scope.ticketId, f.runId⟩, .recordReceiptCause "awaiting_deploy_proof"] else []
  | .silent errorClass =>
    .recordFailure ⟨f.scope, errorClass⟩ ::
      (if active then [.recordReceiptCause "no_delivery_evidence"] else []) ++ f.releases
  | .failed errorClass => .recordFailure ⟨f.scope, errorClass⟩ :: f.releases

/-- The calls of `_record_launch_failure`. -/
def launchFailureCalls (d : Dispatcher) (a : Attempt) (token : Nat) (errorClass : String) : List Call :=
  .recordFailure ⟨a.scope, errorClass⟩ :: .release a.scope token ::
    if d.recovery then (a.recoveryToken.map Call.releaseRecovery).toList else []

def restarted (s : Store) (file : List Release) : Dispatcher where
  recovery := recoveryActive s
  pendingReleases := file

/-- What a call comes to: the store, the calls that follow from it, and whether the cached latch is read anew. -/
structure Performed where
  store : Store
  more : List Call := []
  reread : Bool := false

def performed (cfg : DispatcherConfig) (now : Nat) (s : Store) : Call → Performed
  | .heartbeatRecovery token => { store := AdmissionStore.heartbeatRecovery now token s }
  | .release scope token => { store := AdmissionStore.release scope token s }
  | .releaseRecovery token => { store := AdmissionStore.releaseRecovery token s }
  | .recordFailure fingerprint =>
    { store := (AdmissionStore.recordFailure fingerprint s).2
      more :=
        if max 1 cfg.recoveryFailureThreshold ≤ (AdmissionStore.recordFailure fingerprint s).1 then
          [.setRecovery fingerprint]
        else [] }
  | .setRecovery fingerprint =>
    { store := AdmissionStore.setRecovery true fingerprint.errorClass (some fingerprint) false s
      reread := true }
  | .recordReceiptCause safeCause => { store := recordRecoveryReceiptCause safeCause s, reread := true }
  | .addRelease _ => { store := s }

def addPending (releases : List Release) : Call → List Release
  | .addRelease r => if releases.contains r then releases else releases ++ [r]
  | _ => releases

section

variable {ι : Type} [DecidableEq ι]

def World.put (x : World ι) (i : ι) (d : Dispatcher) : World ι :=
  { x with dispatchers := Function.update x.dispatchers i d }

def makeCall (cfg : DispatcherConfig) (x : World ι) (i : ι) : World ι :=
  match (x.dispatchers i).calls with
  | [] => x
  | call :: calls =>
    let p := performed cfg x.now x.store call
    let releases := addPending (x.dispatchers i).pendingReleases call
    { x.put i { x.dispatchers i with
        calls := p.more ++ calls
        recovery := if p.reread then recoveryActive p.store else (x.dispatchers i).recovery
        pendingReleases := releases } with
      store := p.store
      file := if releases = (x.dispatchers i).pendingReleases then x.file else releases }

/-- The proof of a release: `complete_recovery`, and the release is taken off the list. -/
def prove (x : World ι) (i : ι) (r : Release) (releases : List Release) (receipt : Option Receipt) (safeCause : String)
    (saved : Bool) : World ι :=
  match receipt.filter fun receipt => decide (receipt.proof.runId = r.runId) with
  | none =>
    let store := recordRecoveryReceiptCause safeCause x.store
    { x.put i { x.dispatchers i with recovery := recoveryActive store } with store := store }
  | some receipt =>
    match completeRecovery receipt receipt.proof.candidateDigest x.store with
    | none => x
    | some store =>
      let d : Dispatcher :=
        if saved then
          { x.dispatchers i with recovery := recoveryActive store, pendingReleases := releases }
        else restarted store x.file
      { x.put i d with
        store := store
        file := if saved then releases else x.file
        closed := if recoveryActive x.store && !recoveryActive store then x.closed ++ [receipt.proof] else x.closed }

def step (cfg : DispatcherConfig) (x : World ι) : Event ι → World ι
  | .wait time => { x with now := x.now + time }
  | .ends f => { x with running := x.running.erase f }
  | .cycle i early =>
    if (x.dispatchers i).idle && !early then
      x.put i { x.dispatchers i with
        recovery := recoveryActive x.store
        calls :=
          if recoveryActive x.store then
            (x.dispatchers i).inFlight.filterMap fun f => f.recoveryToken.map Call.heartbeatRecovery
          else [] }
    else x
  | .reap i f ending =>
    if (x.dispatchers i).idle && (x.dispatchers i).inFlight.contains f && !x.running.contains f then
      x.put i { x.dispatchers i with
        inFlight := (x.dispatchers i).inFlight.erase f
        calls := reapCalls (recoveryActive x.store) f ending }
    else x
  | .check i host scope errorClass =>
    if (x.dispatchers i).idle && (x.dispatchers i).pendingReleases.isEmpty &&
        !((x.dispatchers i).inFlight.any fun f => decide (f.host = host)) &&
        !isFailureOpen x.store scope errorClass then
      x.put i { x.dispatchers i with attempt := some { host := host, scope := scope } }
    else x
  | .reserveRecovery i =>
    match (x.dispatchers i).attempt with
    | some ⟨host, scope, none, none⟩ =>
      if (x.dispatchers i).recovery then
        match AdmissionStore.reserveRecovery x.now x.drawn x.store with
        | none => x.put i { x.dispatchers i with attempt := none }
        | some store =>
          { x.put i { x.dispatchers i with attempt := some ⟨host, scope, some x.drawn, none⟩ } with
            store := store
            drawn := x.drawn + 1 }
      else x
    | _ => x
  | .reserve i =>
    match (x.dispatchers i).attempt with
    | some ⟨host, scope, recoveryToken, none⟩ =>
      if (x.dispatchers i).recovery && recoveryToken.isNone then x
      else
        match AdmissionStore.reserve cfg.reservationTtlSec x.now x.drawn scope x.store with
        | none =>
          x.put i { x.dispatchers i with
            attempt := none
            calls := (recoveryToken.map Call.releaseRecovery).toList }
        | some store =>
          { x.put i { x.dispatchers i with attempt := some ⟨host, scope, recoveryToken, some x.drawn⟩ } with
            store := store
            drawn := x.drawn + 1 }
    | _ => x
  | .refuse i =>
    match (x.dispatchers i).attempt with
    | some ⟨_, _, recoveryToken, none⟩ =>
      x.put i { x.dispatchers i with attempt := none, calls := (recoveryToken.map Call.releaseRecovery).toList }
    | _ => x
  | .launch i runId =>
    match (x.dispatchers i).attempt with
    | some ⟨host, scope, recoveryToken, some token⟩ =>
      let f : InFlight := ⟨host, runId, scope, token, recoveryToken⟩
      { x.put i { x.dispatchers i with attempt := none, inFlight := (x.dispatchers i).inFlight ++ [f] } with
        running := x.running ++ [f] }
    | _ => x
  | .launchFails i errorClass =>
    match (x.dispatchers i).attempt with
    | some ⟨host, scope, recoveryToken, some token⟩ =>
      x.put i { x.dispatchers i with
        attempt := none
        calls := launchFailureCalls (x.dispatchers i) ⟨host, scope, recoveryToken, some token⟩ token errorClass }
    | _ => x
  | .call i => makeCall cfg x i
  | .raises i n => x.put i { x.dispatchers i with calls := (x.dispatchers i).calls.drop n }
  | .prove i receipt safeCause saved =>
    match (x.dispatchers i).idle, (x.dispatchers i).pendingReleases with
    | true, r :: releases => prove x i r releases receipt safeCause saved
    | _, _ => x
  | .restart i => x.put i (restarted x.store x.file)

end

end AdmissionStore
end Line
end DarkFactory
