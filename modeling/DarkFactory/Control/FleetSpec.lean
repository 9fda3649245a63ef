import DarkFactory.Control.Effects

/-!
# DarkFactory.Control.FleetSpec

What the fleet operations do when they expire reservations, and when reserve_cycle inserts one.

* `Expires` — the reservations a call expires, read off the state before it.
-/

namespace DarkFactory
namespace Control

theorem ReservationStatus.text_of_ofString? {text : String} {status : ReservationStatus}
    (h : ReservationStatus.ofString? text = some status) : text = status.text := by
  unfold ReservationStatus.ofString? at h
  split at h <;> cases h <;> rfl

/-- The reservation with this id is not expired in `s` and is in `s'`. -/
def TurnsExpired (s s' : Store) (reservationId : String) : Prop :=
  (∃ r, r ∈ s.fleetReservations ∧ r.reservationId = reservationId ∧ r.status ≠ .expired) ∧
    ∃ r, r ∈ s'.fleetReservations ∧ r.reservationId = reservationId ∧ r.status = .expired

def Op.expiresReservations : Op → Bool
  | .reserveCycle .. | .heartbeatReservation .. | .reconcileFleetReservations .. => true
  | _ => false

namespace Sqlite

theorem requeueRuns_reservations (now : DateTime) (runIds : List String) (s : Store) :
    (runIds.foldl (fun s runId => requeueExpiredFleetRun runId now s) s).fleetReservations =
      s.fleetReservations := by
  induction runIds generalizing s with
  | nil => rfl
  | cons runId runIds ih => exact ih _

theorem expireFleetReservations_reservations (now : DateTime) (s : Store) :
    (expireFleetReservations now s).fleetReservations =
      s.fleetReservations.update (isExpiring now) expired expired_id :=
  requeueRuns_reservations now _ _

theorem select_swept {q : FleetReservation → Bool} (hq : ∀ r, q r = true → r.status.isLive = true)
    (now : DateTime) (s : Store) :
    (expireFleetReservations now s).fleetReservations.select q =
      s.fleetReservations.select fun r => q r && !isExpiring now r := by
  rw [expireFleetReservations_reservations]
  refine Table.select_update fun r _ => ?_
  cases h : q (expired r) with
  | false => rfl
  | true => exact absurd (hq _ h) Bool.false_ne_true

theorem isLive_of_isActive {r : FleetReservation} (h : r.isActive = true) : r.status.isLive = true := by
  simp only [FleetReservation.isActive, decide_eq_true_eq] at h
  rw [h]
  rfl

def outlives (now : DateTime) (r : FleetReservation) : Bool := !isExpiring now r

/-- The checks of reserve_cycle: no active reservation that outlives the sweep has the ticket or the
host, fewer than the ceiling do outlive it, and the id is free. -/
structure Admits (request : CycleRequest) (id : String) (now : DateTime) (s : Store) : Prop where
  ticket : ∀ r, r ∈ s.fleetReservations → r.isActive = true → outlives now r = true →
    ¬ (r.projectId = request.projectId ∧ r.ticketId = request.ticketId)
  host : ∀ r, r ∈ s.fleetReservations → r.isActive = true → outlives now r = true → r.hostId ≠ request.hostId
  ceiling : ((s.fleetReservations.select fun r => r.isActive && outlives now r).length : Int) <
    request.maxFleetSlots
  id : s.fleetReservations.get? ("fres-" ++ id) = none

def ticketHolder (request : CycleRequest) (now : DateTime) (s : Store) : Option FleetReservation :=
  (s.fleetReservations.select fun r =>
    (decide (r.projectId = request.projectId) && decide (r.ticketId = request.ticketId) &&
      r.isActive) && outlives now r).head?

def Readmits (request : CycleRequest) (now : DateTime) (s : Store) : Prop :=
  ∃ r, ticketHolder request now s = some r ∧ r.runId = request.runId ∧ r.hostId = request.hostId

theorem activeForTicket_swept (request : CycleRequest) (now : DateTime) (s : Store) :
    activeForTicket (expireFleetReservations now s) request.projectId request.ticketId =
      ticketHolder request now s :=
  congrArg List.head? (select_swept (fun _ h => isLive_of_isActive (Bool.and_eq_true_iff.mp h).2)
    now s)

theorem ticketHolder_eq_none {request : CycleRequest} {now : DateTime} {s : Store} :
    ticketHolder request now s = none ↔ ∀ r, r ∈ s.fleetReservations → r.isActive = true → outlives now r = true →
        ¬ (r.projectId = request.projectId ∧ r.ticketId = request.ticketId) := by
  rw [ticketHolder, List.head?_eq_none_iff, List.eq_nil_iff_forall_not_mem]
  simp only [Table.mem_select, Bool.and_eq_true, decide_eq_true_eq]
  constructor
  · exact fun h r hr ha ho hk => h r ⟨hr, ⟨hk, ha⟩, ho⟩
  · exact fun h r hr => h r hr.1 hr.2.1.2 hr.2.2 hr.2.1.1

theorem activeForHost_swept (hostId : String) (now : DateTime) (s : Store) :
    activeForHost (expireFleetReservations now s) hostId = none ↔
      ∀ r, r ∈ s.fleetReservations → r.isActive = true → outlives now r = true → r.hostId ≠ hostId := by
  rw [activeForHost, List.head?_eq_none_iff, List.eq_nil_iff_forall_not_mem,
    select_swept fun r h => isLive_of_isActive (Bool.and_eq_true_iff.mp h).2]
  simp only [Table.mem_select, outlives, Bool.and_eq_true, decide_eq_true_eq]
  constructor
  · exact fun h r hr ha ho hk => h r ⟨hr, ⟨hk, ha⟩, ho⟩
  · exact fun h r hr => h r hr.1 hr.2.1.2 hr.2.2 hr.2.1.1

theorem activeCount_swept (now : DateTime) (s : Store) :
    activeCount (expireFleetReservations now s) =
      (s.fleetReservations.select fun r => r.isActive && outlives now r).length := by
  rw [activeCount, select_swept fun r h => isLive_of_isActive h]
  rfl

theorem get?_swept (now : DateTime) (s : Store) (id : String) :
    (expireFleetReservations now s).fleetReservations.get? id = none ↔ s.fleetReservations.get? id = none := by
  rw [expireFleetReservations_reservations, Table.get?_update, Option.map_eq_none_iff]

/-- reserve_cycle inserts a reservation when its checks pass, answers a repeated request again, and
raises otherwise; the sweep is committed in the first two cases. -/
theorem reserveCycle_cases (request : CycleRequest) (id : String) (now : DateTime) (s : Store) :
    (Admits request id now s ∧ ∃ fleetReservations,
      (expireFleetReservations now s).fleetReservations.insert? (newReservation request id now) =
        some fleetReservations ∧
      reserveCycle request id now s = .ok (newReservation request id now,
        { expireFleetReservations now s with fleetReservations := fleetReservations })) ∨
    (¬ Admits request id now s ∧ Readmits request now s ∧
      ∃ r, reserveCycle request id now s = .ok (r, expireFleetReservations now s)) ∨
    (¬ Admits request id now s ∧ ¬ Readmits request now s ∧ ∃ e, reserveCycle request id now s = .error e) := by
  have hhost := activeForHost_swept request.hostId now s
  have hcount := activeCount_swept now s
  have hid := get?_swept now s ("fres-" ++ id)
  unfold reserveCycle
  simp only [activeForTicket_swept]
  split
  · rename_i r hr
    have hn : ¬ Admits request id now s := by
      intro h
      rw [ticketHolder_eq_none.mpr h.ticket] at hr
      cases hr
    split
    · rename_i hsame
      exact .inr (.inl ⟨hn, ⟨r, hr, hsame⟩, r, rfl⟩)
    · rename_i hother
      refine .inr (.inr ⟨hn, ?_, _, rfl⟩)
      rintro ⟨q, hq, hsame⟩
      rw [hr, Option.some.injEq] at hq
      exact hother (hq ▸ hsame)
  · rename_i hnone
    have hn : ¬ Readmits request now s := by
      rintro ⟨q, hq, -⟩
      rw [hnone] at hq
      cases hq
    split
    · rename_i r hr
      refine .inr (.inr ⟨fun h => ?_, hn, _, rfl⟩)
      rw [hhost.mpr h.host] at hr
      cases hr
    · rename_i hnone'
      split
      · rename_i hle
        refine .inr (.inr ⟨fun h => ?_, hn, _, rfl⟩)
        have := h.ceiling
        omega
      · rename_i hlt
        split
        · rename_i hins
          refine .inr (.inr ⟨fun h => ?_, hn, _, rfl⟩)
          exact (Table.insert?_eq_none.mp hins) (hid.mpr h.id)
        · rename_i fleetReservations hins
          refine .inl ⟨⟨ticketHolder_eq_none.mp hnone, hhost.mp hnone', ?_, ?_⟩, fleetReservations, hins, rfl⟩
          · omega
          · exact hid.mp (Table.insert?_fresh hins)

/-- The running jobs of the runs in `E` are pending again, and the active claims of these runs are
released; nothing else has changed in the two tables. -/
structure Requeues (E : String → Bool) (now : DateTime) (s s' : Store) : Prop where
  jobs : s.jobs.Mapped (fun j =>
    if E j.key.runId && decide (j.status = .running) then fleetRequeued now j else j) s'.jobs
  claims : s.claims.Mapped (fun c =>
    if E c.jobKey.runId && decide (c.status = .active) then releasedClaim c else c) s'.claims

namespace Requeues

theorem of_eq {now : DateTime} {s s' : Store} (hj : s'.jobs = s.jobs) (hc : s'.claims = s.claims) :
    Requeues (fun _ => false) now s s' where
  jobs := hj ▸ .refl
  claims := hc ▸ .refl

theorem trans {E E' : String → Bool} {now : DateTime} {s s' s'' : Store}
    (h₁ : Requeues E now s s') (h₂ : Requeues E' now s' s'') :
    Requeues (fun runId => E runId || E' runId) now s s'' where
  jobs := (h₁.jobs.trans h₂.jobs).congr fun j _ => by
    cases h : E j.key.runId <;> cases hr : decide (j.status = .running) <;>
      simp [hr, fleetRequeued]
  claims := (h₁.claims.trans h₂.claims).congr fun c _ => by
    cases h : E c.jobKey.runId <;> cases hr : decide (c.status = .active) <;>
      simp [hr, releasedClaim]

theorem congr {E E' : String → Bool} {now : DateTime} {s s' : Store} (h : Requeues E now s s')
    (hE : ∀ runId, E runId = E' runId) : Requeues E' now s s' := by
  rw [← funext hE]
  exact h

end Requeues

theorem requeueExpiredFleetRun_requeues (runId : String) (now : DateTime) (s : Store) :
    Requeues (fun r => decide (r = runId)) now s (requeueExpiredFleetRun runId now s) where
  jobs := Table.mapped_update (h := fleetRequeued_key now)
  claims := Table.mapped_update (h := releasedClaim_leaseId)

theorem requeueRuns_requeues (now : DateTime) (runIds : List String) (s : Store) :
    Requeues (fun runId => decide (runId ∈ runIds)) now s
      (runIds.foldl (fun s runId => requeueExpiredFleetRun runId now s) s) := by
  induction runIds generalizing s with
  | nil => exact (Requeues.of_eq rfl rfl).congr fun _ => by simp
  | cons runId runIds ih =>
    refine ((requeueExpiredFleetRun_requeues runId now s).trans (ih _)).congr fun r => ?_
    rw [Bool.eq_iff_iff]
    simp

theorem expireFleetReservations_requeues (now : DateTime) (s : Store) :
    Requeues (fun runId =>
        decide (runId ∈ (s.fleetReservations.select (isExpiring now)).map FleetReservation.runId))
      now s (expireFleetReservations now s) := by
  have h := requeueRuns_requeues now
    ((s.fleetReservations.select (isExpiring now)).map FleetReservation.runId)
    { s with fleetReservations := s.fleetReservations.update (isExpiring now) expired expired_id }
  exact ⟨h.jobs, h.claims⟩

structure BeatsExpired (reservationId : String) (fencingToken : Nat) (now : DateTime)
    (r : FleetReservation) : Prop where
  id : r.reservationId = reservationId
  live : r.status.isLive = true
  token : r.fencingToken = fencingToken
  bound : leavesUnbound r.expiresAt now = false
  expired : r.expiresAt.le now = true

def Expires (s : Store) : Op → FleetReservation → Prop
  | .reserveCycle request id now, r =>
    (Admits request id now s ∨ Readmits request now s) ∧ isExpiring now r = true
  | .heartbeatReservation reservationId fencingToken now _, r =>
    BeatsExpired reservationId fencingToken now r
  | .reconcileFleetReservations now _, r => isExpiring now r = true
  | _, _ => False

theorem heartbeatReservation_cases (env : Env) (reservationId : String) (fencingToken : Nat)
    (now : DateTime) (leaseDurationSec : Option Int) (s : Store) :
    (∃ row e, row ∈ s.fleetReservations ∧ BeatsExpired reservationId fencingToken now row ∧
      heartbeatReservation env reservationId fencingToken now leaseDurationSec s =
        (.error e, requeueExpiredFleetRun row.runId now
          (setReservation reservationId expired s expired_id))) ∨
    (∃ e, (∀ r, r ∈ s.fleetReservations → ¬ BeatsExpired reservationId fencingToken now r) ∧
      heartbeatReservation env reservationId fencingToken now leaseDurationSec s = (.error e, s)) ∨
    (∃ row, row ∈ s.fleetReservations ∧ row.reservationId = reservationId ∧
      row.status.isLive = true ∧ row.expiresAt.le now = false ∧
      heartbeatReservation env reservationId fencingToken now leaseDurationSec s = (.ok { row with
            heartbeatAt := now
            expiresAt := now.addSeconds (leaseDurationSec.getD env.leaseDurationSec) },
          setReservation reservationId (fun r => { r with
            heartbeatAt := now
            expiresAt := now.addSeconds (leaseDurationSec.getD env.leaseDurationSec) }) s)) := by
  have refused : ∀ row, s.fleetReservations.get? reservationId = some row →
      ¬ BeatsExpired reservationId fencingToken now row →
      ∀ r, r ∈ s.fleetReservations → ¬ BeatsExpired reservationId fencingToken now r := by
    intro row hrow hn r hr hb
    have e := Table.get?_of_mem hr
    rw [hb.id, hrow, Option.some.injEq] at e
    exact hn (e ▸ hb)
  unfold heartbeatReservation
  split
  · rename_i hnone
    refine .inr (.inl ⟨_, fun r hr hb => ?_, rfl⟩)
    exact Table.get?_eq_none.mp hnone r hr hb.id
  · rename_i row hrow
    obtain ⟨hrm, hid⟩ := Table.get?_eq_some.mp hrow
    split
    · rename_i hdead
      refine .inr (.inl ⟨_, refused row hrow fun hb => ?_, rfl⟩)
      simp [hb.live] at hdead
    · rename_i hlive
      rw [Bool.not_eq_true', Bool.not_eq_false] at hlive
      split
      · rename_i htoken
        exact .inr (.inl ⟨_, refused row hrow fun hb => htoken hb.token, rfl⟩)
      · rename_i htoken
        split
        · rename_i hunbound
          refine .inr (.inl ⟨_, refused row hrow fun hb => ?_, rfl⟩)
          rw [hb.bound] at hunbound
          cases hunbound
        · rename_i hbound
          split
          · rename_i hexp
            exact .inl ⟨row, _, hrm, ⟨hid, hlive, not_not.mp htoken, Bool.not_eq_true _ ▸ hbound, hexp⟩, rfl⟩
          · rename_i hexp
            exact .inr (.inr ⟨row, hrm, hid, hlive, Bool.not_eq_true _ ▸ hexp, rfl⟩)

/-- The reservations that turn expired are the ones in `X`, when the update expires just these. -/
theorem turnsExpired_iff {F : FleetReservation → FleetReservation} {X : FleetReservation → Prop}
    {s s' : Store} (hm : s.fleetReservations.Mapped F s'.fleetReservations)
    (hX : ∀ r, r ∈ s.fleetReservations → ((F r).status = .expired ↔ r.status = .expired ∨ X r))
    (hl : ∀ r, r ∈ s.fleetReservations → X r → r.status ≠ .expired) {id : String} :
    TurnsExpired s s' id ↔ ∃ r, r ∈ s.fleetReservations ∧ X r ∧ r.reservationId = id := by
  constructor
  · rintro ⟨⟨r, hr, hid, hne⟩, r', hr', hid', he⟩
    have e := hm.eq_of_key hr hr' (hid'.trans hid.symm)
    rw [e] at he
    exact ⟨r, hr, ((hX r hr).mp he).resolve_left hne, hid⟩
  · rintro ⟨r, hr, hx, hid⟩
    exact ⟨⟨r, hr, hid, hl r hr hx⟩, F r, hm.mem_of hr, (hm.key_eq r hr).trans hid, (hX r hr).mpr (.inr hx)⟩

theorem isExpiring_ne_expired {now : DateTime} {r : FleetReservation}
    (h : isExpiring now r = true) : r.status ≠ .expired := by
  intro e
  simp [isExpiring, e, ReservationStatus.isLive] at h

theorem turnsExpired_swept (now : DateTime) (s : Store) (id : String) :
    TurnsExpired s (expireFleetReservations now s) id ↔
      ∃ r, r ∈ s.fleetReservations ∧ isExpiring now r = true ∧ r.reservationId = id := by
  have hm : s.fleetReservations.Mapped (fun r => if isExpiring now r then expired r else r)
      (expireFleetReservations now s).fleetReservations := by
    rw [expireFleetReservations_reservations]
    exact Table.mapped_update (h := expired_id)
  refine turnsExpired_iff hm (fun r _ => ?_) fun r _ h => isExpiring_ne_expired h
  cases h : isExpiring now r <;> simp [expired]

/-- The loop of reconcile_fleet_reservations over rows `rs`, with any ledger cycles. -/
theorem expireReservations_requeues (now : DateTime) (cycles : Nat → String)
    (rs : List (FleetReservation × Nat)) (s : Store) :
    Requeues (fun runId => decide (runId ∈ rs.map fun p => p.1.runId)) now s
        (rs.foldl (fun s p => expireReservation now (cycles p.2) s p.1) s) ∧
      s.fleetReservations.Mapped (fun r =>
        if rs.any fun p => decide (r.reservationId = p.1.reservationId) then expired r else r)
        (rs.foldl (fun s p => expireReservation now (cycles p.2) s p.1) s).fleetReservations := by
  induction rs generalizing s with
  | nil => exact ⟨(Requeues.of_eq rfl rfl).congr fun _ => by simp, .refl⟩
  | cons p rs ih =>
    obtain ⟨ihq, ihm⟩ := ih (expireReservation now (cycles p.2) s p.1)
    have hq : Requeues (fun r => decide (r = p.1.runId)) now s
        (expireReservation now (cycles p.2) s p.1) :=
      ⟨Table.mapped_update (h := fleetRequeued_key now), Table.mapped_update (h := releasedClaim_leaseId)⟩
    have hm : s.fleetReservations.Mapped
        (fun r => if decide (r.reservationId = p.1.reservationId) then expired r else r)
        (expireReservation now (cycles p.2) s p.1).fleetReservations :=
      Table.mapped_update (h := expired_id)
    refine ⟨(hq.trans ihq).congr fun r => ?_, (hm.trans ihm).congr fun r _ => ?_⟩
    · rw [Bool.eq_iff_iff]
      simp
    · rw [List.any_cons]
      cases h : decide (r.reservationId = p.1.reservationId) with
      | false => rfl
      | true => cases ha : rs.any fun p => decide (r.reservationId = p.1.reservationId) <;>
          simp [expired, ha]

theorem reconcileFleetReservations_spec (now : DateTime) (cycles : Nat → String) (s : Store) :
    Requeues (fun runId =>
        decide (runId ∈ (s.fleetReservations.select (isExpiring now)).map FleetReservation.runId))
        now s (reconcileFleetReservations now cycles s).2 ∧
      s.fleetReservations.Mapped (fun r => if isExpiring now r then expired r else r)
        (reconcileFleetReservations now cycles s).2.fleetReservations := by
  obtain ⟨hq, hm⟩ := expireReservations_requeues now cycles
    (s.fleetReservations.select (isExpiring now)).zipIdx s
  have hruns : (s.fleetReservations.select (isExpiring now)).zipIdx.map (fun p => p.1.runId) =
      (s.fleetReservations.select (isExpiring now)).map FleetReservation.runId := by
    have h := List.zipIdx_map_fst 0 (s.fleetReservations.select (isExpiring now))
    exact (List.map_map ..).symm.trans (congrArg (List.map FleetReservation.runId) h)
  refine ⟨hq.congr fun runId => by rw [hruns], hm.congr fun r hr => ?_⟩
  -- a row is in the loop exactly if it expires, since its id is its own
  have hmem : ((s.fleetReservations.select (isExpiring now)).zipIdx.any fun p =>
      decide (r.reservationId = p.1.reservationId)) = isExpiring now r := by
    rw [Bool.eq_iff_iff, List.any_eq_true]
    constructor
    · rintro ⟨p, hp, hid⟩
      have hq := List.mem_map_of_mem (f := Prod.fst) hp
      rw [List.zipIdx_map_fst, Table.mem_select] at hq
      rw [Table.eq_of_key hr hq.1 (of_decide_eq_true hid)]
      exact hq.2
    · intro h
      have hq : r ∈ (s.fleetReservations.select (isExpiring now)).zipIdx.map Prod.fst := by
        rw [List.zipIdx_map_fst]
        exact Table.mem_select.mpr ⟨hr, h⟩
      obtain ⟨p, hp, rfl⟩ := List.mem_map.mp hq
      exact ⟨p, hp, decide_eq_true rfl⟩
  rw [hmem]

structure ExpiryEffect (s : Store) (op : Op) (s' : Store) : Prop where
  requeues : ∃ now E, Requeues E now s s' ∧ ∀ runId, E runId = true ↔
    ∃ r, r ∈ s.fleetReservations ∧ Expires s op r ∧ r.runId = runId
  turns : ∀ id, TurnsExpired s s' id ↔ ∃ r, r ∈ s.fleetReservations ∧ Expires s op r ∧ r.reservationId = id

theorem ExpiryEffect.of_none {s s' : Store} {op : Op} {F : FleetReservation → FleetReservation}
    (hn : ∀ r, r ∈ s.fleetReservations → ¬ Expires s op r) (hj : s'.jobs = s.jobs)
    (hc : s'.claims = s.claims) (hm : s.fleetReservations.Mapped F s'.fleetReservations)
    (hF : ∀ r, (F r).status = r.status) : ExpiryEffect s op s' where
  requeues := by
    refine ⟨⟨0, none⟩, _, .of_eq hj hc, fun runId => ?_⟩
    simp only [Bool.false_eq_true, false_iff]
    rintro ⟨r, hr, he, -⟩
    exact hn r hr he
  turns id := turnsExpired_iff hm (fun r hr => by rw [hF]; simp [hn r hr])
    fun r hr he => absurd he (hn r hr)

theorem ExpiryEffect.of_sweep {s s' : Store} {op : Op} {now : DateTime}
    (he : ∀ r, r ∈ s.fleetReservations → (Expires s op r ↔ isExpiring now r = true))
    (hq : Requeues (fun runId =>
      decide (runId ∈ (s.fleetReservations.select (isExpiring now)).map FleetReservation.runId))
      now s s')
    (ht : ∀ id, TurnsExpired s s' id ↔
      ∃ r, r ∈ s.fleetReservations ∧ isExpiring now r = true ∧ r.reservationId = id) :
    ExpiryEffect s op s' where
  requeues := by
    refine ⟨now, _, hq, fun runId => ?_⟩
    simp only [decide_eq_true_eq, List.mem_map, Table.mem_select, and_assoc]
    exact exists_congr fun r => and_congr_right fun hr => and_congr_left fun _ => (he r hr).symm
  turns id := (ht id).trans
    (exists_congr fun r => and_congr_right fun hr => and_congr_left fun _ => (he r hr).symm)

theorem reserveCycle_effect (env : Env) (request : CycleRequest) (id : String) (now : DateTime)
    (s : Store) : ExpiryEffect s (.reserveCycle request id now)
      (apply env s (.reserveCycle request id now)) := by
  have hq := expireFleetReservations_requeues now s
  simp only [apply]
  rcases reserveCycle_cases request id now s with
    ⟨ha, t, hins, e⟩ | ⟨-, ha, r, e⟩ | ⟨ha, hr, e', e⟩
  · rw [e, committed_ok]
    refine .of_sweep (fun r _ => and_iff_right (.inl ha)) ⟨hq.jobs, hq.claims⟩ fun i => ?_
    rw [← turnsExpired_swept]
    -- the new reservation is not expired
    refine and_congr_right fun _ => exists_congr fun r => ?_
    constructor
    · rintro ⟨hr, hi, he⟩
      rcases (Table.mem_of_insert? hins).mp hr with hr | rfl
      · exact ⟨hr, hi, he⟩
      · cases he
    · rintro ⟨hr, hi, he⟩
      exact ⟨(Table.mem_of_insert? hins).mpr (.inl hr), hi, he⟩
  · rw [e, committed_ok]
    exact .of_sweep (fun r _ => and_iff_right (.inr ha)) hq (turnsExpired_swept now s)
  · rw [e, committed_error]
    exact .of_none (fun r _ he => he.1.elim ha hr) rfl rfl .refl fun _ => rfl

theorem heartbeatReservation_effect (env : Env) (reservationId : String) (fencingToken : Nat)
    (now : DateTime) (leaseDurationSec : Option Int) (s : Store) :
    ExpiryEffect s (.heartbeatReservation reservationId fencingToken now leaseDurationSec)
      (apply env s (.heartbeatReservation reservationId fencingToken now leaseDurationSec)) := by
  simp only [apply]
  rcases heartbeatReservation_cases env reservationId fencingToken now leaseDurationSec s with
    ⟨row, e', hrow, hb, e⟩ | ⟨e', hn, e⟩ | ⟨row, hrow, hid, -, hexp, e⟩
  · rw [e]
    have hone : ∀ r, r ∈ s.fleetReservations →
        (BeatsExpired reservationId fencingToken now r ↔ r = row) := fun r hr =>
      ⟨fun h => Table.eq_of_key hr hrow (h.id.trans hb.id.symm), fun h => h ▸ hb⟩
    constructor
    · refine ⟨now, fun r => decide (r = row.runId),
        ⟨Table.mapped_update (h := fleetRequeued_key now), Table.mapped_update (h := releasedClaim_leaseId)⟩,
        fun runId => ?_⟩
      rw [decide_eq_true_eq]
      constructor
      · rintro rfl
        exact ⟨row, hrow, hb, rfl⟩
      · rintro ⟨r, hr, hb', rfl⟩
        rw [(hone r hr).mp hb']
    · have hm : s.fleetReservations.Mapped
          (fun r => if decide (r.reservationId = reservationId) then expired r else r)
          (requeueExpiredFleetRun row.runId now
            (setReservation reservationId expired s expired_id)).fleetReservations :=
        Table.mapped_update (h := expired_id)
      refine fun i => turnsExpired_iff hm (fun r hr => ?_) fun r hr he hs => ?_
      · show _ ↔ _ ∨ BeatsExpired reservationId fencingToken now r
        rw [hone r hr]
        by_cases hi : r.reservationId = reservationId
        · have hrow' := Table.eq_of_key hr hrow (hi.trans hb.id.symm)
          rw [if_pos (decide_eq_true hi)]
          exact iff_of_true rfl (.inr hrow')
        · have hne : r ≠ row := fun h => hi (h ▸ hb.id)
          simp [hi, hne]
      · have hl := BeatsExpired.live he
        rw [hs] at hl
        cases hl
  · rw [e]
    exact .of_none hn rfl rfl .refl fun _ => rfl
  · rw [e]
    refine .of_none (fun r hr hb => ?_) rfl rfl (Table.mapped_update (h := by intro _; rfl)) fun r => by split <;> rfl
    have hr' := Table.eq_of_key hr hrow (BeatsExpired.id hb |>.trans hid.symm)
    have := BeatsExpired.expired hb
    rw [hr', hexp] at this
    cases this

theorem apply_expires (env : Env) (s : Store) (op : Op) (h : op.expiresReservations = true) :
    ExpiryEffect s op (apply env s op) := by
  cases op with
  | reserveCycle request id now => exact reserveCycle_effect env request id now s
  | heartbeatReservation reservationId fencingToken now leaseDurationSec =>
    exact heartbeatReservation_effect env reservationId fencingToken now leaseDurationSec s
  | reconcileFleetReservations now cycles =>
    obtain ⟨hq, hm⟩ := reconcileFleetReservations_spec now cycles s
    refine .of_sweep (fun r _ => Iff.rfl) hq fun id => ?_
    refine turnsExpired_iff hm (fun r _ => ?_) fun r _ h => isExpiring_ne_expired h
    cases h : isExpiring now r <;> simp [expired]
  | _ => cases h

end Sqlite
end Control
end DarkFactory
