import DarkFactory.Control.Lease

/-!
# DarkFactory.Control.LeaseRuns

Every operation of the SQLite store is a sequence of fencing steps on its book:

* accept, materialize_result — keys are created;
* claim                      — a free key is acquired;
* finish, reconcile, cancel_run, the expiry of reservations, materialize_result — keys are revoked;
* the others                 — the book stays as it is.

So `Inv` holds in every reachable state (`reachable_inv`), and with it mutual exclusion, the
agreement of jobs and claims, and the growth and uniqueness of fencing tokens.
-/

namespace DarkFactory
namespace Control
namespace Sqlite

theorem accept_advance {command : IntakeCommand} {ids : IntakeIds} {now : DateTime} {s s' : Store}
    {receipt : IntakeReceipt} (h : Inv s) (hs : accept command ids now s = .ok (receipt, s')) :
    Advance s s' := by
  rcases accept_ok hs with rfl | ⟨-, -, hj, hc, -⟩ | ⟨-, -, hj, hc, -⟩
  · exact .refl h
  · exact advance_create h hj hc rfl rfl (by simp [initialJob])
  · exact (Advance.refl h).of_eq hj hc

theorem heartbeat_advance {env : Env} {c c' : Claim} {now : DateTime} {s s' : Store} (h : Inv s)
    (hs : heartbeat env c now s = .ok (c', s')) : Advance s s' := by
  obtain ⟨row, job, hh, _, _, hs⟩ := heartbeat_ok hs
  unfold heartbeat.beat at hs
  cases hs
  refine .same h (Table.mapped_update (h := by intro _; rfl)) (Table.mapped_update (h := by intro _; rfl)) ?_ ?_ ?_ ?_
  · intro j _
    split <;> exact ⟨rfl, rfl⟩
  · intro d _
    split <;> rfl
  · intro j hj
    split <;> exact h.leased j hj
  · intro j hj ho
    -- the job whose lease is held is running
    have hk : j.key ≠ c.jobKey := by
      intro hk
      rw [Table.eq_of_key hj hh.job_mem (hk.trans hh.key.symm)] at ho
      exact JobStatus.ne_running_of_closed ho (h.holds hh).2.2
    simp [hk]

theorem recordOperation_advance {operation : ExternalOperation} {c : Claim} {clock : DateTime}
    {s s' : Store} (h : Inv s) (hs : recordOperation operation c clock s = .ok s') :
    Advance s s' := by
  obtain ⟨_, _, _, _, _, rfl⟩ := recordOperation_ok hs
  exact (Advance.refl h).of_eq rfl rfl

theorem claim_advance {env : Env} {worker : String} {capabilities : List String} {now : DateTime}
    {readyAgeSec : Rat} {ids : ClaimIds} {s s' : Store} {c : Option Claim} (h : Inv s)
    (hs : claim env worker capabilities now readyAgeSec ids s = .ok (c, s')) : Advance s s' := by
  cases c with
  | none =>
    rw [claim_none hs]
    exact .refl h
  | some c =>
    obtain ⟨row, matched, claims, hch, hins, -, rfl⟩ := claim_ok hs
    obtain ⟨hrow, -⟩ := chosenRow_ok hch
    obtain ⟨hrow, hpend⟩ := mem_pendingByCreation.mp hrow
    obtain ⟨hins, -⟩ := insertClaim_eq_some hins
    have hget := Table.get?_of_mem hrow
    have hfree : row.currentLeaseId = none := (h.leased row hrow).free (by simp [hpend])
    have hlease : s.claims.get? ("lease-" ++ ids.lease) = none := Table.insert?_fresh hins
    have hjobs := leaseJobs_get? hrow ("lease-" ++ ids.lease) now
    have e : book (claimed env now ids row matched claims s) =
        (book s).acquire row.key ("lease-" ++ ids.lease) row.fencingToken := by
      ext1
      · funext k
        simp only [book, Fencing.Book.acquire, claimed, hjobs, Function.update_apply]
        split <;> rfl
      · funext k
        simp only [book, Fencing.Book.acquire, claimed, hjobs, Function.update_apply]
        split <;> rfl
      · funext l
        simp only [book, Fencing.Book.acquire, claimed, Table.get?_of_insert? hins, claimRow,
          Function.update_apply, eq_comm (a := l)]
        by_cases hl : "lease-" ++ ids.lease = l
        · simp [hl, leaseOf]
        · simp [hl]
    refine ⟨?_, ?_, ?_, ?_⟩
    · rw [e]
      exact .single (.acquire (by simp [book, hget]) (by simp [book, hget, hfree])
        (by simp [book, hlease]))
    · intro j hj
      have := Table.get?_of_mem hj
      simp only [claimed, hjobs] at this
      split at this
      · cases this
        exact ⟨fun _ => Option.some_ne_none _, fun _ => rfl⟩
      · exact h.leased j (Table.mem_of_get? this)
    · intro d hd
      rcases (Table.mem_of_insert? hins).mp hd with hd | rfl
      · exact h.named d hd
      · show "lease-" ++ ids.lease ≠ ""
        intro hn
        have := congrArg String.length hn
        rw [String.length_append] at this
        have h6 : ("lease-" : String).length = 6 := by decide
        have h0 : ("" : String).length = 0 := by decide
        omega
    · intro j hj ho
      have hk : j.key ≠ row.key := by
        intro hk
        rw [Table.eq_of_key hj hrow hk, hpend] at ho
        exact absurd ho (by decide)
      have hget' : (leaseJobs s row ("lease-" ++ ids.lease) now).get? j.key = some j := by
        rw [hjobs, if_neg hk, Table.get?_of_mem hj]
      exact Table.mem_of_get? hget'

theorem leaseOf_dead {c : ClaimRow} (h : c.status ≠ .active) : { leaseOf c with live := false } = leaseOf c := by
  simp [leaseOf, h]

/-- The job of a held lease goes free, and the row of the lease ends with status `status`. -/
theorem revoke_one {s s' : Store} (h : Inv s) {row : ClaimRow} {F : Job → Job} {d : Nat}
    {G : ClaimRow → ClaimRow} (hrow : row ∈ s.claims) (ha : row.status = .active)
    (hj : s.jobs.Mapped F s'.jobs) (hc : s.claims.Mapped G s'.claims)
    (hF : ∀ j, j ∈ s.jobs → j.key = row.jobKey → j.status = .running → j.fencingToken = row.fencingToken →
      (F j).fencingToken = j.fencingToken + d ∧ (F j).currentLeaseId = none ∧ (F j).status ≠ .running)
    (hF' : ∀ j, j ∈ s.jobs → j.key ≠ row.jobKey → F j = j)
    (hG : leaseOf (G row) = { leaseOf row with live := false })
    (hG' : ∀ c, c ∈ s.claims → c.leaseId ≠ row.leaseId → G c = c) : Advance s s' := by
  obtain ⟨i, hi, hik, hir, hit, -⟩ := h.active_job hrow ha
  -- the rows of the key are the job itself, and those of its claims that are not active
  have hjob : ∀ j, j ∈ s.jobs → j.key = row.jobKey → j = i := fun j hjm hk =>
    Table.eq_of_key hjm hi (hk.trans hik.symm)
  refine .revoke h hj hc (fun k => decide (k = row.jobKey)) (fun _ => d) ?_ ?_ ?_ ?_
  · intro j hjm
    by_cases hk : j.key = row.jobKey
    · have hji := hjob j hjm hk
      obtain ⟨h₁, h₂, -⟩ := hF j hjm hk (hji ▸ hir) (hji ▸ hit)
      simp [hk, h₁, h₂]
    · simp [hk, hF' j hjm hk]
  · intro c hcm
    by_cases hl : c.leaseId = row.leaseId
    · have hcr : c = row := Table.eq_of_key hcm hrow hl
      subst hcr
      simp [hG]
    · rw [hG' c hcm hl]
      by_cases hk : c.jobKey = row.jobKey
      · have hdead : c.status ≠ .active := by
          intro hca
          exact hl (by rw [h.active_unique hcm hrow hca ha hk])
        simp [hk, leaseOf_dead hdead]
      · simp [hk]
  · intro j hjm
    by_cases hk : j.key = row.jobKey
    · have hji := hjob j hjm hk
      obtain ⟨-, h₂, h₃⟩ := hF j hjm hk (hji ▸ hir) (hji ▸ hit)
      exact Job.leased_free h₃ h₂
    · rw [hF' j hjm hk]
      exact h.leased j hjm
  · intro j hjm ho
    refine hF' j hjm fun hk => ?_
    rw [hjob j hjm hk] at ho
    exact JobStatus.ne_running_of_closed ho hir

theorem finishedJob_free (result : StageResult) (causeCode : Option String) (now : DateTime)
    (j : Job) :
    (finishedJob result causeCode now j).fencingToken = j.fencingToken ∧
      (finishedJob result causeCode now j).currentLeaseId = none ∧
      (finishedJob result causeCode now j).status ≠ .running := by
  unfold finishedJob
  cases result.outcome with
  | retry =>
    simp only
    split
    · exact ⟨rfl, rfl, by simp⟩
    · exact ⟨rfl, rfl, by simp⟩
  | _ => exact ⟨rfl, rfl, by simp [Outcome.dbStatus]⟩

theorem finishRow_free (env : Env) (result : StageResult) (now : DateTime) (j : Job) :
    (finishRow env result now j).fencingToken = j.fencingToken ∧
      (finishRow env result now j).currentLeaseId = none ∧
      (finishRow env result now j).status ≠ .running := by
  unfold finishRow keepEvidence
  split
  · exact finishedJob_free result _ now j
  · exact finishedJob_free result _ now j

theorem finish_advance {env : Env} {c : Claim} {result : StageResult} {now : DateTime}
    {s s' : Store} (h : Inv s) (hs : finish env c result now s = .ok s') : Advance s s' := by
  obtain ⟨row, job, hh, -, -, rfl⟩ := finish_ok hs
  obtain ⟨hrk, hrt, -⟩ := h.holds hh
  suffices ht : Advance s (finishTables env c result now s) from
    ht.of_eq (finishApply_jobs env c result now s) (finishApply_claims env c result now s)
  refine revoke_one (d := 0) h hh.row_mem hh.active
    (Table.mapped_update (h := finishRow_key env result now)) (Table.mapped_update (h := by intro _; rfl)) ?_ ?_ ?_ ?_
  · intro j _ hk _ ht
    rw [if_pos (by simp [hk, hrk, ht, hrt])]
    exact finishRow_free env result now j
  · intro j _ hk
    rw [hrk] at hk
    simp [hk]
  · simp [hh.leaseId, leaseOf]
  · intro d _ hl
    rw [hh.leaseId] at hl
    simp [hl]

theorem reconcileClaim_advance (cycle : String) (now : DateTime) {s : Store} (repaired : List Repair)
    {c : ClaimRow} (h : Inv s) (hc : c ∈ s.claims) (ha : c.status = .active) :
    Advance s (reconcileClaim cycle now (s, repaired) c).1 := by
  obtain ⟨j, hj, hjk, -, hjt, -⟩ := h.active_job hc ha
  have hget : s.jobs.get? c.jobKey = some j := Table.get?_eq_some.mpr ⟨hj, hjk⟩
  simp only [reconcileClaim, hget, hjt, if_true]
  refine revoke_one (d := 1) h hc ha (Table.mapped_update (h := requeuedJob_key now))
    (Table.mapped_update (h := by intro _; rfl)) ?_ ?_ ?_ ?_
  · intro i _ hk _ _
    simp only [hk, decide_true, if_true, requeuedJob]
    split
    · exact ⟨rfl, rfl, by simp⟩
    · exact ⟨rfl, rfl, by simp⟩
  · intro i _ hk
    simp [hk]
  · simp [leaseOf]
  · intro d _ hl
    simp [hl]

theorem reconcileClaim_mem {cycle : String} {now : DateTime} {s : Store} {repaired : List Repair}
    {c d : ClaimRow} (hd : d ∈ s.claims) (hl : d.leaseId ≠ c.leaseId) :
    d ∈ (reconcileClaim cycle now (s, repaired) c).1.claims := by
  have hm : d ∈ s.claims.update (fun d => decide (d.leaseId = c.leaseId)) fun d =>
      { d with status := .expired } := Table.mem_update_of_neg hd (by simp [hl])
  unfold reconcileClaim
  simp only
  split
  · exact hm
  · split
    · exact hm
    · exact hm

theorem reconcileClaims_advance {cycle : String} {now : DateTime} {cs : List ClaimRow} :
    ∀ {s : Store} {repaired : List Repair}, Inv s → (cs.map ClaimRow.leaseId).Nodup →
      (∀ c ∈ cs, c ∈ s.claims ∧ c.status = .active) →
      Advance s (cs.foldl (reconcileClaim cycle now) (s, repaired)).1 := by
  induction cs with
  | nil =>
    intro s _ h _ _
    exact .refl h
  | cons c cs ih =>
    intro s repaired h hnd hcs
    rw [List.map_cons, List.nodup_cons] at hnd
    obtain ⟨hc, ha⟩ := hcs c List.mem_cons_self
    have hstep := reconcileClaim_advance cycle now repaired h hc ha
    refine hstep.trans (ih (h.advance hstep) hnd.2 ?_)
    intro d hd
    obtain ⟨hdm, hda⟩ := hcs d (List.mem_cons_of_mem _ hd)
    refine ⟨reconcileClaim_mem hdm ?_, hda⟩
    intro hl
    exact hnd.1 (hl ▸ List.mem_map_of_mem hd)

theorem reconcile_advance {now : DateTime} {limit : Nat} {cycle : String} {s : Store} (h : Inv s) :
    Advance s (reconcile now limit cycle s).2 := by
  refine reconcileClaims_advance h ?_ ?_
  · exact (Table.select_nodup _ _).sublist ((List.take_sublist _ _).map _)
  · intro c hc
    have := Table.mem_select.mp (List.mem_of_mem_take hc)
    simp only [Bool.and_eq_true, decide_eq_true_eq] at this
    exact ⟨this.1, this.2.1⟩

theorem requeueExpiredFleetRun_advance (runId : String) (now : DateTime) {s : Store} (h : Inv s) :
    Advance s (requeueExpiredFleetRun runId now s) := by
  refine .revoke h (Table.mapped_update (h := fleetRequeued_key now))
    (Table.mapped_update (h := releasedClaim_leaseId))
    (fun k => decide (k.runId = runId) && (s.jobs.get? k).any fun j => decide (j.status = .running))
    (fun _ => 1) ?_ ?_ ?_ ?_
  · intro j hj
    have hget := Table.get?_of_mem hj
    by_cases hp : j.key.runId = runId ∧ j.status = .running
    · simp [hp.1, hp.2, hget, fleetRequeued]
    · have hp' : ¬ (j.key.runId = runId ∧ j.status = .running) := hp
      simp [hget, hp']
  · intro c hc
    by_cases ha : c.status = .active
    · obtain ⟨j, hj, hjk, hjr, -, -⟩ := h.active_job hc ha
      have hget : s.jobs.get? c.jobKey = some j := Table.get?_eq_some.mpr ⟨hj, hjk⟩
      by_cases hr : c.jobKey.runId = runId
      · simp [hr, ha, hget, hjr, leaseOf, releasedClaim]
      · simp [hr]
    · simp [ha, leaseOf_dead ha]
  · intro j hj
    split
    · exact Job.leased_free (by simp [fleetRequeued]) rfl
    · exact h.leased j hj
  · intro j _ ho
    simp [JobStatus.ne_running_of_closed ho]

theorem requeueRuns_advance {now : DateTime} {runIds : List String} :
    ∀ {s : Store}, Inv s → Advance s (runIds.foldl (fun s runId => requeueExpiredFleetRun runId now s) s) := by
  induction runIds with
  | nil =>
    intro s h
    exact .refl h
  | cons runId runIds ih =>
    intro s h
    have hstep := requeueExpiredFleetRun_advance runId now h
    exact hstep.trans (ih (h.advance hstep))

theorem expireFleetReservations_advance (now : DateTime) {s : Store} (h : Inv s) :
    Advance s (expireFleetReservations now s) := by
  have h₀ : Advance s { s with
      fleetReservations := s.fleetReservations.update (isExpiring now) expired expired_id } :=
    (Advance.refl h).of_eq rfl rfl
  exact h₀.trans (requeueRuns_advance (h.advance h₀))

theorem setReservation_advance (reservationId : String) (f : FleetReservation → FleetReservation)
    (hf : ∀ r, (f r).reservationId = r.reservationId) {s : Store} (h : Inv s) :
    Advance s (setReservation reservationId f s hf) := (Advance.refl h).of_eq rfl rfl

theorem reserveCycle_advance {request : CycleRequest} {id : String} {now : DateTime}
    {s s' : Store} {r : FleetReservation} (h : Inv s)
    (hs : reserveCycle request id now s = .ok (r, s')) : Advance s s' := by
  have h₀ := expireFleetReservations_advance now h
  unfold reserveCycle at hs
  simp only at hs
  split at hs
  · split at hs
    · cases hs
      exact h₀
    · cases hs
  · split at hs
    · cases hs
    · split at hs
      · cases hs
      · split at hs
        · cases hs
        · cases hs
          exact h₀.of_eq rfl rfl

theorem heartbeatReservation_advance {env : Env} {reservationId : String} {fencingToken : Nat}
    {now : DateTime} {leaseDurationSec : Option Int} {s : Store} (h : Inv s) :
    Advance s (heartbeatReservation env reservationId fencingToken now leaseDurationSec s).2 := by
  unfold heartbeatReservation
  split
  · exact .refl h
  · split
    · exact .refl h
    · split
      · exact .refl h
      · split
        · exact .refl h
        · split
          · have h₀ := setReservation_advance reservationId expired expired_id h
            exact h₀.trans (requeueExpiredFleetRun_advance _ now (h.advance h₀))
          · exact setReservation_advance _ _ _ h

theorem releaseReservation_advance {reservationId : String} {fencingToken : Nat} {status : String}
    {now : DateTime} {s s' : Store} {r : FleetReservation} (h : Inv s)
    (hs : releaseReservation reservationId fencingToken status now s = .ok (r, s')) :
    Advance s s' := by
  unfold releaseReservation at hs
  split at hs
  · cases hs
  · split at hs
    · cases hs
    · split at hs
      · cases hs
        exact .refl h
      · split at hs
        · cases hs
        · split at hs
          · cases hs
          · simp only at hs
            split at hs
            · cases hs
            · cases hs
              exact setReservation_advance _ _ _ h

theorem expireReservation_advance (now : DateTime) (cycle : String) {s : Store}
    (r : FleetReservation) (h : Inv s) : Advance s (expireReservation now cycle s r) := by
  have h₀ := setReservation_advance r.reservationId expired expired_id h
  exact (h₀.trans (requeueExpiredFleetRun_advance _ now (h.advance h₀))).of_eq rfl rfl

theorem reconcileFleetReservations_advance {now : DateTime} {cycles : Nat → String} {s : Store}
    (h : Inv s) : Advance s (reconcileFleetReservations now cycles s).2 := by
  unfold reconcileFleetReservations
  simp only
  generalize (s.fleetReservations.select (isExpiring now)).zipIdx = rows
  induction rows generalizing s with
  | nil => exact .refl h
  | cons p rows ih =>
    have hstep := expireReservation_advance now (cycles p.2) p.1 h
    exact hstep.trans (ih (h.advance hstep))

theorem cancelRun_advance {runId reason actor : String} {now : DateTime} {s : Store} (h : Inv s) :
    Advance s (cancelRun runId reason actor now s).2 := by
  unfold cancelRun
  split
  · exact .refl h
  · refine .revoke h (Table.mapped_update (h := cancelledJob_key reason now)) (Table.mapped_update (h := by intro _; rfl))
      (fun k => decide (k.runId = runId)) (fun _ => 0) ?_ ?_ ?_ ?_
    · intro j hj
      by_cases hr : j.key.runId = runId
      · cases ho : j.status.isOpen with
        | true => simp [hr, cancelledJob]
        | false =>
          -- a closed job has no lease to lose
          simp [hr, (h.leased j hj).free (JobStatus.ne_running_of_closed ho)]
      · simp [hr]
    · intro c _
      by_cases hr : c.jobKey.runId = runId
      · by_cases ha : c.status = .active
        · simp [hr, ha, leaseOf]
        · simp [hr, ha, leaseOf_dead ha]
      · simp [hr]
    · intro j hj
      split
      · exact Job.leased_free (by simp [cancelledJob]) rfl
      · exact h.leased j hj
    · intro j _ ho
      simp [ho]

theorem resumeJob_advance {key : JobKey} {now : DateTime} {s : Store} (h : Inv s) :
    Advance s (resumeJob key now s).2 := by
  unfold resumeJob
  split
  · exact .refl h
  · split
    · exact .refl h
    · refine .same h (Table.mapped_update (h := by intro _; rfl)) .refl ?_ (fun _ _ => rfl) ?_ ?_
      · intro j _
        split <;> exact ⟨rfl, rfl⟩
      · intro j hj
        split
        · rename_i hp
          rw [Bool.and_eq_true] at hp
          exact Job.leased_free (by simp)
            ((h.leased j hj).free (JobStatus.ne_running_of_waiting hp.2))
        · exact h.leased j hj
      · intro j _ ho
        have hw : j.status.isWaiting = false := by
          cases hw : j.status.isWaiting with
          | false => rfl
          | true => rw [JobStatus.open_of_waiting hw] at ho; exact ho
        simp [hw]

theorem materializedStatus_ne_running (plan : Plan) (result : StageResult) :
    materializedStatus plan result ≠ .running := by
  unfold materializedStatus
  split
  · decide
  · exact Outcome.dbStatus_ne_running _

theorem recordResult_advance (env : Env) (k : JobKey) (result : StageResult) (plan : Plan)
    (now : DateTime) {s : Store} (h : Inv s) : Advance s (recordResult env k result plan now s) := by
  unfold recordResult
  split
  · exact advance_insertIgnore h rfl rfl rfl rfl (materializedStatus_ne_running plan result)
  · rename_i row hrow
    obtain ⟨hrm, hrk⟩ := Table.get?_eq_some.mp hrow
    have hother : ∀ j, j ∈ s.jobs → j.key = k → j = row := fun j hj hk =>
      Table.eq_of_key hj hrm (hk.trans hrk.symm)
    split
    · rename_i hst
      by_cases hr : row.status = .running
      · -- the lease of the running job is its active claim
        obtain ⟨c, hc, hca, hck, hct, hcl⟩ := h.running_claim hrm hr
        rw [hcl]
        simp only [if_neg (h.named c hc)]
        refine revoke_one (d := 0) h hc hca (Table.mapped_update (h := by intro _; rfl)) (Table.mapped_update (h := by intro _; rfl)) ?_ ?_ ?_ ?_
        · intro j _ hk _ _
          rw [if_pos (by simp [hk, hck, hrk])]
          exact ⟨rfl, rfl, materializedStatus_ne_running plan result⟩
        · intro j _ hk
          rw [hck, hrk] at hk
          simp [hk]
        · simp [leaseOf, releasedClaim]
        · intro d _ hl
          simp [hl]
      · have hfree := (h.leased row hrm).free hr
        rw [hfree]
        refine .same h (Table.mapped_update (h := by intro _; rfl)) .refl ?_ (fun _ _ => rfl) ?_ ?_
        · intro j hj
          split
          · rename_i hk
            rw [hother j hj (of_decide_eq_true hk), hfree]
            exact ⟨rfl, rfl⟩
          · exact ⟨rfl, rfl⟩
        · intro j hj
          split
          · exact Job.leased_free (materializedStatus_ne_running plan result) rfl
          · exact h.leased j hj
        · intro j hj ho
          have hk : j.key ≠ k := by
            intro hk
            rw [hother j hj hk] at ho
            rcases hst with hst | hst
            · rw [hst] at ho
              exact absurd ho (by decide)
            · exact hr hst
          simp [hk]
    · exact .refl h

theorem insertSuccessors_advance {env : Env} {plan : Plan} {now : DateTime} {s : Store} (h : Inv s) :
    Advance s (insertSuccessors env plan now s) := by
  unfold insertSuccessors
  generalize plan.successors = keys
  induction keys generalizing s with
  | nil => exact (Advance.refl h).of_eq rfl rfl
  | cons k keys ih =>
    have hstep : Advance s { s with jobs := s.jobs.insertIgnore (successorJob env plan now k) } :=
      advance_insertIgnore h rfl rfl rfl rfl (by simp [successorJob])
    exact hstep.trans (ih (h.advance hstep))

theorem closeIfDone_tables (runId : String) (now : DateTime) (s : Store) :
    (closeIfDone runId now s).jobs = s.jobs ∧ (closeIfDone runId now s).claims = s.claims := by
  unfold closeIfDone
  split
  · exact ⟨rfl, rfl⟩
  · exact ⟨rfl, rfl⟩

theorem materialized_advance {env : Env} {k : JobKey} {result : StageResult} {plan : Plan}
    {now : DateTime} {s : Store} (h : Inv s) : Advance s (materialized env k result plan now s) := by
  have h₁ := recordResult_advance env k result plan now h
  exact (h₁.trans (insertSuccessors_advance (h.advance h₁))).of_eq rfl rfl

theorem materializeResult_advance {env : Env} {k : JobKey} {result : StageResult} {now : DateTime}
    {s s' : Store} {keys : List JobKey} (h : Inv s)
    (hs : materializeResult env k result now s = .ok (keys, s')) : Advance s s' := by
  obtain ⟨s₀, -, hs₀, -, rfl⟩ := materializeResult_ok hs
  obtain ⟨hj, hc, -⟩ := ensureRun_jobs hs₀
  have h₀ : Advance s s₀ := (Advance.refl h).of_eq hj hc
  obtain ⟨hj', hc'⟩ := closeIfDone_tables k.runId now
    (materialized env k result (planOf env k result now s) now s₀)
  exact (h₀.trans (materialized_advance (h.advance h₀))).of_eq hj' hc'

theorem apply_advance (env : Env) {s : Store} (h : Inv s) (op : Op) : Advance s (apply env s op) := by
  cases op with
  | accept command ids now => exact committed_rel (.refl h) fun _ _ hs => accept_advance h hs
  | claim worker capabilities now readyAgeSec ids =>
    exact committed_rel (.refl h) fun _ _ hs => claim_advance h hs
  | heartbeat c now => exact committed_rel (.refl h) fun _ _ hs => heartbeat_advance h hs
  | finish c result now => exact toOption_rel (.refl h) fun _ hs => finish_advance h hs
  | reconcile now limit cycle => exact reconcile_advance h
  | resumeJob key now => exact resumeJob_advance h
  | cancelRun runId reason actor now => exact cancelRun_advance h
  | recordOperation operation c clock =>
    exact toOption_rel (.refl h) fun _ hs => recordOperation_advance h hs
  | reserveCycle request id now => exact committed_rel (.refl h) fun _ _ hs => reserveCycle_advance h hs
  | heartbeatReservation reservationId fencingToken now leaseDurationSec =>
    exact heartbeatReservation_advance h
  | releaseReservation reservationId fencingToken status now =>
    exact committed_rel (.refl h) fun _ _ hs => releaseReservation_advance h hs
  | drainHost hostId reason => exact (Advance.refl h).of_eq rfl rfl
  | renewOpenRunReservations now pendingGraceSec => exact (Advance.refl h).of_eq rfl rfl
  | reconcileFleetReservations now cycles => exact reconcileFleetReservations_advance h
  | materializeResult key result now =>
    exact committed_rel (.refl h) fun _ _ hs => materializeResult_advance h hs

theorem inv_step (env : Env) (s : Store) (op : Op) (h : Inv s) : Inv (apply env s op) :=
  h.advance (apply_advance env h op)

theorem reachable_inv (env : Env) (ops : List Op) : Inv (Runs.run (apply env) .empty ops) :=
  Runs.run_invariant (inv_step env) .empty ops

/-- The claims insert of a claim call never fails for a fresh lease id. -/
def ClaimInsertSucceeds (env : Env) (s : Store) : Prop :=
  ∀ worker capabilities now readyAgeSec (ids : ClaimIds), s.claims.get? ("lease-" ++ ids.lease) = none →
    claim env worker capabilities now readyAgeSec ids s ≠ .error (integrityError "claims")

theorem claimInsertSucceeds {env : Env} {s : Store} (h : Inv s) : ClaimInsertSucceeds env s := by
  intro worker capabilities now readyAgeSec ids hfresh hs
  unfold claim at hs
  split at hs
  · rename_i e hch
    cases hs
    exact absurd (chosenRow_error hch) (by decide)
  · cases hs
  · rename_i row matched hch
    obtain ⟨hrow, -⟩ := mem_pendingByCreation.mp (chosenRow_ok hch).1
    split at hs
    · rename_i hins
      exact absurd hins (h.insertClaim hrow rfl rfl hfresh)
    · cases hs

/-- In every reachable state jobs and claims agree on who owns what, along every run no fencing
token decreases, and the insert of a claim never fails. -/
theorem lease_discipline (env : Env) (ops : List Op) :
    LeaseDiscipline (Runs.run (apply env) .empty ops) ∧
      (∀ m ∈ Runs.moves (apply env) .empty ops, TokensGrow m.pre m.post) ∧
      ClaimInsertSucceeds env (Runs.run (apply env) .empty ops) := by
  have h := reachable_inv env ops
  refine ⟨h.leaseDiscipline, ?_, claimInsertSucceeds h⟩
  intro m hm
  obtain ⟨hpre, -⟩ := Runs.moves_invariant (inv_step env) .empty hm
  rw [Runs.post_of_mem hm]
  exact (apply_advance env hpre m.act).tokensGrow

end Sqlite
end Control
end DarkFactory
