import DarkFactory.Control.FleetSpec

/-!
# DarkFactory.Control.FleetOwnership

Expiring a reservation takes back the work claimed under it. The requeue goes by run, so a run that
has work under another reservation, or under none, loses that work too. `fleet_expiry_own_iff` is the
exact condition under which a run of the store takes back only what was claimed under the expired
reservations.
-/

namespace DarkFactory
namespace Control

structure TakesBackOwn (s s' : Store) : Prop where
  released : ∀ c, c ∈ s.claims → c.status = .active → ∀ c', c' ∈ s'.claims →
    c'.leaseId = c.leaseId → c'.status = .released → TurnsExpired s s' c.reservationId
  requeued : ∀ j, j ∈ s.jobs → j.status = .running → ∀ j', j' ∈ s'.jobs → j'.key = j.key → j'.status = .pending →
    ∃ c, c ∈ s.claims ∧ c.status = .active ∧ c.jobKey = j.key ∧ TurnsExpired s s' c.reservationId
  /-- Work claimed under a reservation that is still live keeps its job and claim rows. -/
  kept : ∀ c, c ∈ s.claims → c.status = .active →
    (∃ r, r ∈ s'.fleetReservations ∧ r.reservationId = c.reservationId ∧ r.status.isLive = true) →
    ∀ j, j ∈ s.jobs → j.key = c.jobKey → c ∈ s'.claims ∧ j ∈ s'.jobs

instance (s s' : Store) (id : String) : Decidable (TurnsExpired s s' id) :=
  inferInstanceAs (Decidable ((∃ r, r ∈ s.fleetReservations ∧ _) ∧ ∃ r, r ∈ s'.fleetReservations ∧ _))

namespace Sqlite

/-- The condition: every active claim of a run with a reservation that the call expires is bound to
a reservation that the call expires. -/
def ExpiresOwn (s : Store) (op : Op) : Prop :=
  ∀ r, r ∈ s.fleetReservations → Expires s op r → ∀ c, c ∈ s.claims → c.status = .active →
    c.jobKey.runId = r.runId →
    ∃ q, q ∈ s.fleetReservations ∧ Expires s op q ∧ q.reservationId = c.reservationId

theorem takesBackOwn_iff {s s' : Store} {op : Op} (hi : Inv s) (h : ExpiryEffect s op s') :
    TakesBackOwn s s' ↔ ExpiresOwn s op := by
  obtain ⟨⟨now, E, hq, hE⟩, hturns⟩ := h
  constructor
  · intro ht r hr he c hc ha hrun
    -- the claim is in a requeued run, so the call releases it
    have hc' := hq.claims.mem_of hc
    rw [if_pos (by simp [(hE c.jobKey.runId).mpr ⟨r, hr, he, hrun.symm⟩, ha])] at hc'
    exact (hturns _).mp (ht.released c hc ha _ hc' rfl rfl)
  · intro hcond
    have own : ∀ c, c ∈ s.claims → c.status = .active → E c.jobKey.runId = true →
        TurnsExpired s s' c.reservationId := by
      intro c hc ha hrun
      obtain ⟨r, hr, he, hr'⟩ := (hE _).mp hrun
      exact (hturns _).mpr (hcond r hr he c hc ha hr'.symm)
    constructor
    · intro c hc ha c' hc' hid hst
      rw [hq.claims.eq_of_key hc hc' hid] at hst
      cases hrun : E c.jobKey.runId with
      | true => exact own c hc ha hrun
      | false => simp [hrun, ha] at hst
    · intro j hj hr j' hj' hkey hst
      rw [hq.jobs.eq_of_key hj hj' hkey] at hst
      obtain ⟨c, hc, ha, hk, -⟩ := hi.running_claim hj hr
      cases hrun : E j.key.runId with
      | true => exact ⟨c, hc, ha, hk, own c hc ha (hk ▸ hrun)⟩
      | false => simp [hrun, hr] at hst
    · rintro c hc ha ⟨r, hr, hid, hl⟩ j hj hk
      cases hrun : E c.jobKey.runId with
      | true =>
        -- the reservation of the claim would be expired
        obtain ⟨-, q, hq, hqid, hqs⟩ := own c hc ha hrun
        rw [Table.eq_of_key hr hq (hid.trans hqid.symm), hqs] at hl
        cases hl
      | false =>
        have hc' := hq.claims.mem_of hc
        have hj' := hq.jobs.mem_of hj
        rw [hrun, Bool.false_and, if_neg Bool.false_ne_true] at hc'
        rw [hk, hrun, Bool.false_and, if_neg Bool.false_ne_true] at hj'
        exact ⟨hc', hj'⟩

/-- In a run of the store, the calls that expire reservations take back only what was claimed under
them exactly when every one of them meets the condition. -/
theorem fleet_expiry_own_iff (env : Env) (ops : List Op) :
    (∀ m ∈ Runs.moves (apply env) .empty ops,
        m.act.expiresReservations = true → TakesBackOwn m.pre m.post) ↔
      ∀ m ∈ Runs.moves (apply env) .empty ops, ExpiresOwn m.pre m.act := by
  refine Runs.moves_forall_iff (I := Inv) (fun s op hi => ?_) (fun s op hi _ => inv_step env s op hi)
    .empty ops
  cases h : op.expiresReservations with
  | true =>
    simp only [true_imp_iff]
    exact takesBackOwn_iff hi (apply_expires env s op h)
  | false =>
    refine iff_of_true (fun h' => Bool.noConfusion h') fun r _ he => ?_
    cases op <;> first | exact he.elim | cases h

/-- A host is drained in the middle of a stage and the cycle of its run is reserved again on another
host. When that reservation expires, the stage claimed under the first one, live and unexpired, is
released. -/
theorem drained_work_released :
    ((Runs.run (apply .sample) .empty
        [.sampleAccept, .sampleReserve "p1" "run-r1" "worker-1" "a" 0,
          .claim "worker-1" [] (utc 1) 0 ⟨"l1", "v1"⟩, .drainHost "worker-1" "maintenance",
          .sampleReserve "p1" "run-r1" "worker-2" "b" 2]).fleetReservations.get? "fres-a").map
        (fun r => (r.status, r.expiresAt)) = some (.draining, utc 61) ∧
    ¬ TakesBackOwn
      (Runs.run (apply .sample) .empty
        [.sampleAccept, .sampleReserve "p1" "run-r1" "worker-1" "a" 0,
          .claim "worker-1" [] (utc 1) 0 ⟨"l1", "v1"⟩, .drainHost "worker-1" "maintenance",
          .sampleReserve "p1" "run-r1" "worker-2" "b" 2])
      (Runs.run (apply .sample) .empty
        [.sampleAccept, .sampleReserve "p1" "run-r1" "worker-1" "a" 0,
          .claim "worker-1" [] (utc 1) 0 ⟨"l1", "v1"⟩, .drainHost "worker-1" "maintenance",
          .sampleReserve "p1" "run-r1" "worker-2" "b" 2,
          .reconcileFleetReservations (utc 50) fun _ => "c1"]) := by
  refine ⟨by decide +kernel, fun h => ?_⟩
  have kept := h.kept
  revert kept
  decide +kernel

end Sqlite
end Control
end DarkFactory
