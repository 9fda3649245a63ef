import DarkFactory.Lib.Runs
import DarkFactory.Python.DateTime
import DarkFactory.Python.Round
import DarkFactory.Python.Text

/-!
# DarkFactory.Usage.Reservation

`QuotaReservationManager`: reservations of provider quota in one JSON file. The lock is that of the
instance and every routing call makes an instance, so calls of different instances interleave.

* `getActiveReservedPercent` — the sum over the reservations of `counted`.
* `Pc`, `System`, `step` — the calls under way, each a clock reading, a load and an atomic replace.
-/

namespace DarkFactory
namespace Usage

structure QuotaReservation where
  reservationId : String
  providerId : String
  harness : String
  percent : Rat := 2
  createdAt : Instant
  /-- As `_parse_time` reads it. -/
  expiresAt : Option Instant
  ticketId : Option String := none
deriving DecidableEq

/-- The list of reservations at `path`; none is a file that is missing or does not parse. -/
abbrev ReservationsFile := Option (List QuotaReservation)

def loadData (file : ReservationsFile) : List QuotaReservation := file.getD []

def QuotaReservation.unexpired (r : QuotaReservation) (now : Instant) : Bool :=
  match r.expiresAt with
  | some exp => decide (now < exp)
  | none => false

def pruneExpired (items : List QuotaReservation) (now : Instant) : List QuotaReservation :=
  items.filter fun r => r.unexpired now

/-- `s.lower().strip()`. -/
def clean (lower : String → String) (s : String) : String := Text.strip (lower s)

structure QuotaReservationManager where
  defaultTtlSeconds : Int := 900
deriving DecidableEq

/-- The arguments of `reserve`. -/
structure ReserveArgs where
  providerId : String
  harness : String
  percent : Rat := 2
  ttlSeconds : Option Int := none
  ticketId : Option String := none
deriving DecidableEq

/-- The model that `reserve` builds, unless the percentage is out of bounds. -/
def newReservation (lower : String → String) (manager : QuotaReservationManager) (id : String)
    (args : ReserveArgs) (now : Instant) : Option QuotaReservation :=
  if 0 ≤ args.percent ∧ args.percent ≤ 100 then
    some
      { reservationId := id
        providerId := clean lower args.providerId
        harness := clean lower args.harness
        percent := args.percent
        createdAt := now
        expiresAt := some (now + args.ttlSeconds.getD manager.defaultTtlSeconds * DateTime.second)
        ticketId := args.ticketId }
  else none

/-- What `reserve` saves. -/
def reserved (res : QuotaReservation) (now : Instant) (data : List QuotaReservation) : List QuotaReservation :=
  pruneExpired data now ++ [res]

/-- What `release` returns and saves. -/
def released (id : String) (now : Instant) (data : List QuotaReservation) : Bool × List QuotaReservation :=
  let active := pruneExpired data now
  let filtered := active.filter fun r => decide (r.reservationId ≠ id)
  (decide (filtered.length < active.length), filtered)

/-- The reservations that `get_active_reserved_percent` adds up. -/
def counted (lower : String → String) (providerId : String) (now : Instant)
    (file : ReservationsFile) : List QuotaReservation :=
  (pruneExpired (loadData file) now).filter fun r => decide (r.providerId = clean lower providerId)

def getActiveReservedPercent (lower : String → String) (providerId : String) (now : Instant)
    (file : ReservationsFile) : Rat :=
  round2 ((counted lower providerId now file).map QuotaReservation.percent).sum

/-- Where a call is: what comes next, with what the call has so far. -/
inductive Pc where
  /-- `reserve` reads the clock and builds the reservation. -/
  | reserve (manager : QuotaReservationManager) (id : String) (args : ReserveArgs)
  | reserveLoad (now : Instant) (res : QuotaReservation)
  | reserveSave (now : Instant) (res : QuotaReservation) (data : List QuotaReservation)
  /-- `release` loads, and then reads the clock. -/
  | releaseLoad (id : String)
  | releaseNow (id : String) (data : List QuotaReservation)
  | releaseSave (id : String) (now : Instant) (data : List QuotaReservation)
deriving DecidableEq

structure System (ι : Type) where
  file : ReservationsFile
  clock : Instant
  pcs : ι → Option Pc
  /-- What `reserve` has returned, and the ids whose `release` has returned. -/
  returned : List QuotaReservation
  gone : List String

inductive Event (ι : Type) where
  | tick (elapsed : Nat)
  | reserve (i : ι) (manager : QuotaReservationManager) (id : String) (args : ReserveArgs)
  | release (i : ι) (id : String)
  | next (i : ι)
  /-- The process dies, or the call raises. -/
  | die (i : ι)

section

variable {ι : Type} [DecidableEq ι]

namespace System

def setPc (S : System ι) (i : ι) (pc : Option Pc) : System ι :=
  { S with pcs := Function.update S.pcs i pc }

/-- The call of `i` begins, unless the instance's lock is held. -/
def begin (S : System ι) (i : ι) (pc : Pc) : System ι :=
  match S.pcs i with
  | none => S.setPc i (some pc)
  | some _ => S

end System

def advance (lower : String → String) (S : System ι) (i : ι) : Pc → System ι
  | .reserve manager id args =>
    S.setPc i ((newReservation lower manager id args S.clock).map fun res =>
      .reserveLoad S.clock res)
  | .reserveLoad now res => S.setPc i (some (.reserveSave now res (loadData S.file)))
  | .reserveSave now res data =>
    { S.setPc i none with
      file := some (reserved res now data)
      returned := S.returned ++ [res] }
  | .releaseLoad id => S.setPc i (some (.releaseNow id (loadData S.file)))
  | .releaseNow id data => S.setPc i (some (.releaseSave id S.clock data))
  | .releaseSave id now data =>
    { S.setPc i none with
      file := some (released id now data).2
      gone := id :: S.gone }

def step (lower : String → String) (S : System ι) : Event ι → System ι
  | .tick elapsed => { S with clock := S.clock + elapsed }
  | .reserve i manager id args => S.begin i (.reserve manager id args)
  | .release i id => if id = "" then S else S.begin i (.releaseLoad id)
  | .next i =>
    match S.pcs i with
    | none => S
    | some pc => advance lower S i pc
  | .die i => S.setPc i none

end

end Usage
end DarkFactory
