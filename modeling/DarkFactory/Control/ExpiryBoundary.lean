import DarkFactory.Control.FleetSpec

/-!
# DarkFactory.Control.ExpiryBoundary

Whether a lease has run out at a given time, as nine operations decide it. Most compare the parsed
times with `<=`. Three differ: `record_operation` does not look at the expiry of the claim and lets a
reservation live through its last instant, `renew_open_run_reservations` does the latter as well, and
the sweeps compare texts, which agrees with the instants on UTC times (`sweeps_agree_utc`) but not in
general. `one_boundary_iff` is the exact condition under which all nine keep to one boundary.
-/

namespace DarkFactory
namespace Control

def Op.worksAt : Op → Option DateTime
  | .claim _ _ now _ _ | .heartbeat _ now | .finish _ _ now | .heartbeatReservation _ _ now _
  | .renewOpenRunReservations now _ => some now
  | .recordOperation operation _ clock => some (operation.observedAt.getD clock)
  | _ => none

def Op.sweepsAt : Op → Option DateTime
  | .reconcile now _ _ | .reserveCycle _ _ now | .reconcileFleetReservations now _ => some now
  | _ => none

def Bound (s : Store) (r : FleetReservation) : Prop :=
  ∃ c, c ∈ s.claims ∧ c.reservationId = r.reservationId

theorem lt_self (d : DateTime) : d.lt d = false := by
  rw [DateTime.lt_eq_not_le, DateTime.le_refl]
  rfl

namespace Sqlite

/-- The call accepts work under the claim `k`. -/
def AcceptsWork (env : Env) (s : Store) : Op → Claim → Prop
  | .claim worker capabilities now readyAgeSec ids, k =>
    ∃ s', claim env worker capabilities now readyAgeSec ids s = .ok (some k, s')
  | .heartbeat c now, k => k = c ∧ ∃ r, heartbeat env c now s = .ok r
  | .finish c result now, k => k = c ∧ ∃ s', finish env c result now s = .ok s'
  | .recordOperation operation c clock, k =>
    k = c ∧ ∃ s', recordOperation operation c clock s = .ok s'
  | _, _ => False

/-- One call keeps to the boundary: a lease with `expires_at <= t` has run out at `t`, any other has
not. A lease that was refused at `t` has run out at every later time, so it is not brought back. -/
structure OneBoundary (env : Env) (s : Store) (op : Op) (s' : Store) : Prop where
  claimsEnd : ∀ t, op.worksAt = some t → ∀ c, c ∈ s.claims → c.expiresAt.le t = true →
    ∀ c', c' ∈ s'.claims → c'.leaseId = c.leaseId → c.expiresAt.lt c'.expiresAt = false
  reservationsEnd : ∀ t, op.worksAt = some t → ∀ r, r ∈ s.fleetReservations → Bound s r →
    r.expiresAt.le t = true → ∀ r', r' ∈ s'.fleetReservations →
    r'.reservationId = r.reservationId → r.expiresAt.lt r'.expiresAt = false
  noWork : ∀ t, op.worksAt = some t → ∀ k, AcceptsWork env s op k →
    (∀ c, c ∈ s.claims → c.leaseId = k.leaseId → c.expiresAt.le t = false) ∧
      (k.fleetBound = true → ∀ r, r ∈ s.fleetReservations →
        r.reservationId = k.reservationId → r.expiresAt.le t = false)
  claimsLive : ∀ t, op.sweepsAt = some t → ∀ c, c ∈ s.claims → t.lt c.expiresAt = true →
    ∀ c', c' ∈ s'.claims → c'.leaseId = c.leaseId → c'.status = .expired → c.status = .expired
  reservationsLive : ∀ t, op.sweepsAt = some t → ∀ r, r ∈ s.fleetReservations → Bound s r →
    t.lt r.expiresAt = true → ¬ TurnsExpired s s' r.reservationId

def RecordFence (c : Claim) (t : DateTime) (s : Store) : Prop :=
  c.fleetBound = true → ∀ r, s.fleetReservations.get? c.reservationId = some r →
    r.status.isLive = true ∧ r.expiresAt.lt t = false

/-- The condition. A record passes its checks only under a claim and a reservation that have not run
out; renew extends no bound reservation that has; and what a sweep takes has run out. -/
def BoundaryAgrees (env : Env) (s : Store) : Op → Prop
  | .recordOperation operation c clock =>
    ∀ row job, c.Holds s row job → row.fencingToken = c.fencingToken →
      RecordFence c (operation.observedAt.getD clock) s →
      row.expiresAt.le (operation.observedAt.getD clock) = false ∧
        (c.fleetBound = true → ∀ r, s.fleetReservations.get? c.reservationId = some r →
          r.expiresAt.le (operation.observedAt.getD clock) = false)
  | .renewOpenRunReservations now pendingGraceSec =>
    ∀ r, r ∈ s.fleetReservations → Bound s r → isRenewable s now (now.addSeconds (-pendingGraceSec)) r = true →
      r.expiresAt.le now = true → r.expiresAt.lt (now.addSeconds env.leaseDurationSec) = false
  | .reconcile now limit _ => ∀ c, c ∈ (expiredClaims s now).take limit → now.lt c.expiresAt = false
  | .reserveCycle request id now =>
    ∀ r, r ∈ s.fleetReservations → Bound s r → Expires s (.reserveCycle request id now) r →
      now.lt r.expiresAt = false
  | .reconcileFleetReservations now cycles =>
    ∀ r, r ∈ s.fleetReservations → Bound s r →
      Expires s (.reconcileFleetReservations now cycles) r → now.lt r.expiresAt = false
  | _ => True

variable {env : Env} {s s' : Store} {t : DateTime}

/-- An operation that only works under leases keeps to the boundary when it changes the time of no
lease that has run out, and does not work under one. -/
theorem OneBoundary.of_works {op : Op} (hw : op.worksAt = some t) (hs : op.sweepsAt = none)
    (hc : ∀ c, c ∈ s.claims → c.expiresAt.le t = true → ∀ c', c' ∈ s'.claims →
      c'.leaseId = c.leaseId → c'.expiresAt = c.expiresAt)
    (hr : ∀ r, r ∈ s.fleetReservations → r.expiresAt.le t = true →
      ∀ r', r' ∈ s'.fleetReservations → r'.reservationId = r.reservationId →
      r'.expiresAt = r.expiresAt)
    (hk : ∀ k, AcceptsWork env s op k → (∀ c, c ∈ s.claims → c.leaseId = k.leaseId → c.expiresAt.le t = false) ∧
        (k.fleetBound = true → ∀ r, r ∈ s.fleetReservations →
          r.reservationId = k.reservationId → r.expiresAt.le t = false)) :
    OneBoundary env s op s' where
  claimsEnd u hu c hcm hle c' hc' hid := by
    rw [hw, Option.some.injEq] at hu
    rw [hc c hcm (hu ▸ hle) c' hc' hid, lt_self]
  reservationsEnd u hu r hrm _ hle r' hr' hid := by
    rw [hw, Option.some.injEq] at hu
    rw [hr r hrm (hu ▸ hle) r' hr' hid, lt_self]
  noWork u hu k hk' := by
    rw [hw, Option.some.injEq] at hu
    exact hu ▸ hk k hk'
  claimsLive u hu := by rw [hs] at hu; cases hu
  reservationsLive u hu := by rw [hs] at hu; cases hu

theorem OneBoundary.of_refused {op : Op}
    (hw : op.worksAt = some t) (hs : op.sweepsAt = none) (hn : ∀ k, ¬ AcceptsWork env s op k) :
    OneBoundary env s op s :=
  .of_works hw hs (fun _ hc _ _ hc' hid => congrArg _ (Table.eq_of_key hc' hc hid))
    (fun _ hr _ _ hr' hid => congrArg _ (Table.eq_of_key hr' hr hid)) fun k hk => absurd hk (hn k)

theorem reservations_same (e : s'.fleetReservations = s.fleetReservations)
    {r r' : FleetReservation} (hr : r ∈ s.fleetReservations) (hr' : r' ∈ s'.fleetReservations)
    (hid : r'.reservationId = r.reservationId) : r' = r :=
  Table.eq_of_key (e ▸ hr') hr hid

theorem claimable_live {worker : String} {capabilities : List String} {now : DateTime}
    {readyAgeSec : Rat} {row : Job} {id : String}
    (h : claimable env worker capabilities now readyAgeSec s row = some (some id)) :
    ∃ r, liveReservation s row.key.runId = some r ∧ r.reservationId = id ∧ r.expiresAt.le now = false := by
  unfold claimable at h
  split at h
  · cases h
  · split at h
    · rename_i r hr
      split at h
      · cases h
      · rename_i hexp
        split at h
        · cases h
        · cases h
          exact ⟨r, hr, rfl, Bool.not_eq_true _ ▸ hexp⟩
    · split at h
      · cases h
      · split at h <;> cases h

theorem mem_liveReservation {runId : String} {r : FleetReservation}
    (h : liveReservation s runId = some r) : r ∈ s.fleetReservations := by
  exact (Table.mem_select.mp (List.mem_of_head? h)).1

theorem not_fleetBound_res (id : String) : Text.startsWith ("res-" ++ id) "fres-" = false := by
  simp only [Text.startsWith, String.toList_append]
  rfl

theorem claim_oneBoundary (env : Env) (worker : String) (capabilities : List String)
    (now : DateTime) (readyAgeSec : Rat) (ids : ClaimIds) (s : Store) :
    OneBoundary env s (.claim worker capabilities now readyAgeSec ids)
      (apply env s (.claim worker capabilities now readyAgeSec ids)) := by
  simp only [apply]
  cases hs : claim env worker capabilities now readyAgeSec ids s with
  | error e =>
    refine .of_refused rfl rfl fun k hk => ?_
    obtain ⟨s', hk⟩ := hk
    rw [hs] at hk
    cases hk
  | ok a =>
    obtain ⟨c?, s'⟩ := a
    rw [committed_ok]
    cases c? with
    | none =>
      obtain rfl := claim_none hs
      refine .of_refused rfl rfl fun k hk => ?_
      obtain ⟨_, hk⟩ := hk
      rw [hs] at hk
      cases hk
    | some k =>
      obtain ⟨row, matched, claims, hch, hins, rfl, rfl⟩ := claim_ok hs
      obtain ⟨hins, -⟩ := insertClaim_eq_some hins
      have hclaimable := (chosenRow_ok hch).2
      -- the reservation that is matched, if any, has not run out
      have hlive : ∀ id, matched = some id → ∀ r, r ∈ s.fleetReservations → r.reservationId = id →
          r.expiresAt.le now = false := by
        rintro id rfl r hr rfl
        obtain ⟨q, hq, hid, hexp⟩ := claimable_live hclaimable
        rw [Table.eq_of_key hr (mem_liveReservation hq) hid.symm]
        exact hexp
      refine .of_works rfl rfl (fun c hc _ c' hc' hid => ?_) (fun r hr hle r' hr' hid => ?_)
        fun k hk => ?_
      · rcases (Table.mem_of_insert? hins).mp hc' with hc' | rfl
        · exact congrArg _ (Table.eq_of_key hc' hc hid)
        · exact absurd hid.symm (Table.get?_eq_none.mp (Table.insert?_fresh hins) c hc)
      · cases matched with
        | none => exact congrArg _ (Table.eq_of_key hr' hr hid)
        | some id =>
          have hm : s.fleetReservations.Mapped _ (renewMatched s (some id) now
            (now.addSeconds env.leaseDurationSec)) := (Table.mapped_update (h := by intro _; rfl))
          rw [hm.eq_of_key hr hr' hid]
          split
          · rename_i hp
            simp only [Bool.and_eq_true, decide_eq_true_eq] at hp
            rw [hlive id rfl r hr hp.1] at hle
            cases hle
          · rfl
      · obtain ⟨_, hk⟩ := hk
        rw [hs] at hk
        cases hk
        refine ⟨fun c hc hid => ?_, fun hb r hr hid => ?_⟩
        · exact absurd hid (Table.get?_eq_none.mp (Table.insert?_fresh hins) c hc)
        · cases matched with
          | none =>
            have hn := not_fleetBound_res ids.reservation
            simp only [Claim.fleetBound, claimOf, claimRow, Option.getD_none] at hb
            rw [hn] at hb
            cases hb
          | some id => exact hlive id rfl r hr hid

theorem heartbeat_oneBoundary (env : Env) (k : Claim) (now : DateTime) (s : Store) :
    OneBoundary env s (.heartbeat k now) (apply env s (.heartbeat k now)) := by
  have hsame := apply_reservations env s (.heartbeat k now) rfl
  cases hs : heartbeat env k now s with
  | error e =>
    simp only [apply, hs, committed_error]
    refine .of_refused rfl rfl fun k' hk => ?_
    obtain ⟨-, r, hk⟩ := hk
    rw [hs] at hk
    cases hk
  | ok a =>
    obtain ⟨k', s'⟩ := a
    obtain ⟨row, job, hh, hexp, hfence, hbeat⟩ := heartbeat_ok hs
    unfold heartbeat.beat at hbeat
    cases hbeat
    have hrow : ∀ c, c ∈ s.claims → c.leaseId = k.leaseId → c.expiresAt.le now = false :=
      fun c hc hid => Table.eq_of_key hh.row_mem hc (hh.leaseId.trans hid.symm) ▸ hexp
    refine .of_works rfl rfl (fun c hc hle c' hc' hid => ?_) (fun r hr _ r' hr' hid => ?_)
      fun k' hk => ?_
    · simp only [apply, hs, committed_ok] at hc'
      rw [Table.eq_of_mem_update hc (fun _ => by rfl) hc' hid]
      split
      · -- the renewed claim has not run out
        rename_i hp
        simp only [Bool.and_eq_true, decide_eq_true_eq] at hp
        rw [hrow c hc hp.1.1] at hle
        cases hle
      · rfl
    · exact congrArg _ (reservations_same hsame hr hr' hid)
    · obtain ⟨rfl, -⟩ := hk
      refine ⟨hrow, fun hb r hr hid => ?_⟩
      exact (hfence hb r (Table.get?_eq_some.mpr ⟨hr, hid⟩)).2

theorem finish_oneBoundary (env : Env) (k : Claim) (result : StageResult) (now : DateTime) (s : Store) :
    OneBoundary env s (.finish k result now) (apply env s (.finish k result now)) := by
  have hsame := apply_reservations env s (.finish k result now) rfl
  cases hs : finish env k result now s with
  | error e =>
    simp only [apply, hs, Except.toOption, Option.getD_none]
    refine .of_refused rfl rfl fun k' hk => ?_
    obtain ⟨-, r, hk⟩ := hk
    rw [hs] at hk
    cases hk
  | ok s' =>
    obtain ⟨row, job, hh, hexp, hfence, rfl⟩ := finish_ok hs
    refine .of_works rfl rfl (fun c hc hle c' hc' hid => ?_) (fun r hr _ r' hr' hid => ?_)
      fun k' hk => ?_
    · simp only [apply, hs, Except.toOption, Option.getD_some, finishApply_claims, finishTables]
        at hc'
      rw [Table.eq_of_mem_update hc (fun _ => by rfl) hc' hid]
      split
      · rfl
      · rfl
    · exact congrArg _ (reservations_same hsame hr hr' hid)
    · obtain ⟨rfl, -⟩ := hk
      refine ⟨fun c hc hid => ?_, fun hb r hr hid => ?_⟩
      · exact Table.eq_of_key hh.row_mem hc (hh.leaseId.trans hid.symm) ▸ hexp
      · obtain ⟨q, hq, -, hqexp⟩ := checkFinishReservationFence_ok hfence hb
        obtain ⟨hqm, hqid⟩ := Table.get?_eq_some.mp hq
        exact Table.eq_of_key hqm hr (hqid.trans hid.symm) ▸ hqexp

/-- The converse of `recordOperation_ok`: a record whose checks pass is accepted. -/
theorem recordOperation_of {operation : ExternalOperation} {c : Claim} {clock : DateTime} {row : ClaimRow}
    {job : Job} (hh : c.Holds s row job)
    (ht : row.fencingToken = c.fencingToken)
    (hf : RecordFence c (operation.observedAt.getD clock) s) :
    recordOperation operation c clock s = .ok (recordOperation.record operation c s) := by
  have hrow : s.claims.get? c.leaseId = some row :=
    Table.get?_eq_some.mpr ⟨hh.row_mem, hh.leaseId⟩
  have hjob : s.jobs.get? c.jobKey = some job := Table.get?_eq_some.mpr ⟨hh.job_mem, hh.key⟩
  unfold recordOperation
  simp only [hrow, hh.active, ht, hjob, hh.token, hh.lease, ne_eq, not_true, if_false, or_self]
  cases hb : c.fleetBound with
  | false => rfl
  | true =>
    simp only [if_true]
    cases hr : s.fleetReservations.get? c.reservationId with
    | none => rfl
    | some r =>
      obtain ⟨hl, hlt⟩ := hf hb r hr
      simp [hl, hlt]

theorem recordOperation_oneBoundary (env : Env) (operation : ExternalOperation) (k : Claim)
    (clock : DateTime) (s : Store) :
    OneBoundary env s (.recordOperation operation k clock)
        (apply env s (.recordOperation operation k clock)) ↔
      BoundaryAgrees env s (.recordOperation operation k clock) := by
  constructor
  · intro h row job hh ht hf
    have hacc : AcceptsWork env s (.recordOperation operation k clock) k :=
      ⟨rfl, _, recordOperation_of hh ht hf⟩
    obtain ⟨hc, hr⟩ := h.noWork _ rfl k hacc
    refine ⟨hc row hh.row_mem hh.leaseId, fun hb r hr' => ?_⟩
    obtain ⟨hrm, hrid⟩ := Table.get?_eq_some.mp hr'
    exact hr hb r hrm hrid
  · intro h
    have hsame := apply_reservations env s (.recordOperation operation k clock) rfl
    have hclaims : (apply env s (.recordOperation operation k clock)).claims = s.claims := by
      simp only [apply]
      cases hs : recordOperation operation k clock s with
      | error e => rfl
      | ok s' =>
        obtain ⟨_, _, _, _, _, rfl⟩ := recordOperation_ok hs
        rfl
    refine .of_works rfl rfl (fun c hc _ c' hc' hid => ?_) (fun r hr _ r' hr' hid => ?_)
      fun k' hk => ?_
    · exact congrArg _ (Table.eq_of_key (hclaims ▸ hc') hc hid)
    · exact congrArg _ (reservations_same hsame hr hr' hid)
    · obtain ⟨rfl, s', hs⟩ := hk
      obtain ⟨row, job, hh, ht, hf, -⟩ := recordOperation_ok hs
      obtain ⟨hc, hr⟩ := h row job hh ht hf
      refine ⟨fun c hcm hid => ?_, fun hb r hrm hid => ?_⟩
      · exact Table.eq_of_key hh.row_mem hcm (hh.leaseId.trans hid.symm) ▸ hc
      · exact hr hb r (Table.get?_eq_some.mpr ⟨hrm, hid⟩)

theorem heartbeatReservation_oneBoundary (env : Env) (reservationId : String) (fencingToken : Nat)
    (now : DateTime) (leaseDurationSec : Option Int) (s : Store) :
    OneBoundary env s (.heartbeatReservation reservationId fencingToken now leaseDurationSec)
      (apply env s (.heartbeatReservation reservationId fencingToken now leaseDurationSec)) := by
  simp only [apply]
  rcases heartbeatReservation_cases env reservationId fencingToken now leaseDurationSec s with
    ⟨row, e', hrow, hb, e⟩ | ⟨e', hn, e⟩ | ⟨row, hrow, hid, -, hexp, e⟩
  · rw [e]
    refine .of_works rfl rfl (fun c hc _ c' hc' hk => ?_) (fun r hr _ r' hr' hk => ?_)
      fun k hk => hk.elim
    · rw [Table.eq_of_mem_update hc (fun _ => by rfl) hc' hk]
      split
      · rfl
      · rfl
    · have hm : s.fleetReservations.Mapped _ (setReservation reservationId expired s
        expired_id).fleetReservations := Table.mapped_update (h := expired_id)
      rw [hm.eq_of_key hr hr' hk]
      split
      · rfl
      · rfl
  · rw [e]
    exact .of_refused rfl rfl fun k hk => hk.elim
  · rw [e]
    refine .of_works rfl rfl (fun c hc _ c' hc' hk => ?_) (fun r hr hle r' hr' hk => ?_)
      fun k hk => hk.elim
    · exact congrArg _ (Table.eq_of_key hc' hc hk)
    · rw [Table.eq_of_mem_update hr (fun _ => by rfl) hr' hk]
      split
      · -- the renewed reservation has not run out
        rename_i hp
        rw [Table.eq_of_key hr hrow ((of_decide_eq_true hp).trans hid.symm), hexp] at hle
        cases hle
      · rfl

theorem renew_oneBoundary (env : Env) (now : DateTime) (pendingGraceSec : Int) (s : Store) :
    OneBoundary env s (.renewOpenRunReservations now pendingGraceSec)
        (apply env s (.renewOpenRunReservations now pendingGraceSec)) ↔
      BoundaryAgrees env s (.renewOpenRunReservations now pendingGraceSec) := by
  constructor
  · intro h r hr hb hren hle
    have hm : s.fleetReservations.Mapped _
        (apply env s (.renewOpenRunReservations now pendingGraceSec)).fleetReservations :=
      (Table.mapped_update (h := by intro _; rfl))
    have hr' := hm.mem_of hr
    rw [if_pos hren] at hr'
    exact h.reservationsEnd now rfl r hr hb hle _ hr' rfl
  · intro h
    constructor
    · intro t _ c hc _ c' hc' hid
      rw [Table.eq_of_key hc' hc hid, lt_self]
    · intro t ht r hr hb hle r' hr' hid
      cases ht
      rw [Table.eq_of_mem_update hr (fun _ => by rfl) hr' hid]
      split
      · rename_i hren
        exact h r hr hb hren hle
      · exact lt_self _
    · exact fun _ _ k hk => hk.elim
    · intro t ht
      cases ht
    · intro t ht
      cases ht

theorem OneBoundary.of_sweep_iff {op : Op} (hw : op.worksAt = none) (hs : op.sweepsAt = some t) :
    OneBoundary env s op s' ↔ (∀ c, c ∈ s.claims → t.lt c.expiresAt = true → ∀ c', c' ∈ s'.claims →
        c'.leaseId = c.leaseId → c'.status = .expired → c.status = .expired) ∧
      ∀ r, r ∈ s.fleetReservations → Bound s r → t.lt r.expiresAt = true → ¬ TurnsExpired s s' r.reservationId := by
  constructor
  · exact fun h => ⟨h.claimsLive t hs, h.reservationsLive t hs⟩
  · rintro ⟨hc, hr⟩
    constructor
    · intro u hu
      rw [hw] at hu
      cases hu
    · intro u hu
      rw [hw] at hu
      cases hu
    · intro u hu
      rw [hw] at hu
      cases hu
    · intro u hu
      rw [hs, Option.some.injEq] at hu
      exact hu ▸ hc
    · intro u hu
      rw [hs, Option.some.injEq] at hu
      exact hu ▸ hr

theorem reconcileClaims_claims (cycle : String) (now : DateTime) (cs : List ClaimRow) (acc : Store × List Repair) :
    acc.1.claims.Mapped
      (fun c => if cs.any fun d => decide (c.leaseId = d.leaseId) then { c with status := .expired }
        else c)
      (cs.foldl (reconcileClaim cycle now) acc).1.claims := by
  induction cs generalizing acc with
  | nil => exact .refl
  | cons d cs ih =>
    have hstep : acc.1.claims.Mapped
        (fun c => if decide (c.leaseId = d.leaseId) then { c with status := .expired } else c)
        (reconcileClaim cycle now acc d).1.claims := by
      unfold reconcileClaim
      simp only
      split
      · exact (Table.mapped_update (h := by intro _; rfl))
      · split
        · exact (Table.mapped_update (h := by intro _; rfl))
        · exact (Table.mapped_update (h := by intro _; rfl))
    refine (hstep.trans (ih _)).congr fun c _ => ?_
    rw [List.any_cons]
    cases h : decide (c.leaseId = d.leaseId) with
    | false => rfl
    | true => cases ha : cs.any fun d => decide (c.leaseId = d.leaseId) <;> simp [ha]

theorem reconcile_oneBoundary (env : Env) (now : DateTime) (limit : Nat) (cycle : String) (s : Store) :
    OneBoundary env s (.reconcile now limit cycle) (apply env s (.reconcile now limit cycle)) ↔
      BoundaryAgrees env s (.reconcile now limit cycle) := by
  have hm := reconcileClaims_claims ("cycle-" ++ cycle) now ((expiredClaims s now).take limit)
    (s, [])
  have hsame := apply_reservations env s (.reconcile now limit cycle) rfl
  have hswept : ∀ c, c ∈ (expiredClaims s now).take limit → c ∈ s.claims ∧ c.status = .active := by
    intro c hc
    have := Table.mem_select.mp (List.mem_of_mem_take hc)
    simp only [Bool.and_eq_true, decide_eq_true_eq] at this
    exact ⟨this.1, this.2.1⟩
  rw [OneBoundary.of_sweep_iff rfl rfl]
  constructor
  · rintro ⟨h, -⟩ c hc
    obtain ⟨hcm, ha⟩ := hswept c hc
    have hc' := hm.mem_of hcm
    rw [if_pos (List.any_eq_true.mpr ⟨c, hc, decide_eq_true rfl⟩)] at hc'
    cases hlt : now.lt c.expiresAt with
    | false => rfl
    | true =>
      have := h c hcm hlt _ hc' rfl rfl
      rw [ha] at this
      cases this
  · intro h
    refine ⟨fun c hc hlt c' hc' hid hst => ?_, fun r hr _ _ hturn => ?_⟩
    · rw [hm.eq_of_key hc hc' hid] at hst
      split at hst
      · rename_i hany
        obtain ⟨d, hd, hk⟩ := List.any_eq_true.mp hany
        rw [Table.eq_of_key hc (hswept d hd).1 (of_decide_eq_true hk), h d hd] at hlt
        cases hlt
      · exact hst
    · obtain ⟨⟨q, hq, hqid, hne⟩, q', hq', hqid', hexp⟩ := hturn
      rw [reservations_same hsame hq hq' (hqid'.trans hqid.symm)] at hexp
      exact hne hexp

/-- reserve_cycle and reconcile_fleet_reservations expire no claim, and the reservations in
`Expires`. -/
theorem sweep_oneBoundary {op : Op} (hw : op.worksAt = none) (hs : op.sweepsAt = some t) (h : ExpiryEffect s op s') :
    OneBoundary env s op s' ↔ ∀ r, r ∈ s.fleetReservations → Bound s r → Expires s op r →
      t.lt r.expiresAt = false := by
  obtain ⟨⟨now, E, hq, -⟩, hturns⟩ := h
  rw [OneBoundary.of_sweep_iff hw hs]
  constructor
  · rintro ⟨-, h⟩ r hr hb he
    cases hlt : t.lt r.expiresAt with
    | false => rfl
    | true => exact absurd ((hturns _).mpr ⟨r, hr, he, rfl⟩) (h r hr hb hlt)
  · intro h
    refine ⟨fun c hc _ c' hc' hid hst => ?_, fun r hr hb hlt hturn => ?_⟩
    · rw [hq.claims.eq_of_key hc hc' hid] at hst
      split at hst
      · cases hst
      · exact hst
    · obtain ⟨q, hq, he, hid⟩ := (hturns _).mp hturn
      rw [Table.eq_of_key hq hr hid] at he
      rw [h r hr hb he] at hlt
      cases hlt

theorem sweeps_agree_utc {now : DateTime} {r : FleetReservation} (hn : now.IsUtc)
    (hr : r.expiresAt.IsUtc) (h : isExpiring now r = true) : now.lt r.expiresAt = false := by
  simp only [isExpiring, Bool.and_eq_true, DateTime.textLe_utc hr hn] at h
  rw [DateTime.lt_eq_not_le, h.2]
  rfl

theorem oneBoundary_step (env : Env) (s : Store) (op : Op) :
    OneBoundary env s op (apply env s op) ↔ BoundaryAgrees env s op := by
  cases op with
  | claim worker capabilities now readyAgeSec ids =>
    exact iff_of_true (claim_oneBoundary env worker capabilities now readyAgeSec ids s) trivial
  | heartbeat c now => exact iff_of_true (heartbeat_oneBoundary env c now s) trivial
  | finish c result now => exact iff_of_true (finish_oneBoundary env c result now s) trivial
  | recordOperation operation c clock => exact recordOperation_oneBoundary env operation c clock s
  | heartbeatReservation reservationId fencingToken now leaseDurationSec =>
    exact iff_of_true (heartbeatReservation_oneBoundary env reservationId fencingToken now
      leaseDurationSec s) trivial
  | renewOpenRunReservations now pendingGraceSec => exact renew_oneBoundary env now pendingGraceSec s
  | reconcile now limit cycle => exact reconcile_oneBoundary env now limit cycle s
  | reserveCycle request id now =>
    exact sweep_oneBoundary rfl rfl (apply_expires env s (.reserveCycle request id now) rfl)
  | reconcileFleetReservations now cycles =>
    exact sweep_oneBoundary rfl rfl
      (apply_expires env s (.reconcileFleetReservations now cycles) rfl)
  | _ =>
    refine iff_of_true ⟨?_, ?_, ?_, ?_, ?_⟩ trivial
    all_goals
      intro t ht
      cases ht

/-- In a run of the store, every operation keeps to one expiry boundary exactly when every operation
meets the condition. -/
theorem one_boundary_iff (env : Env) (ops : List Op) :
    (∀ m ∈ Runs.moves (apply env) .empty ops, OneBoundary env m.pre m.act m.post) ↔
      ∀ m ∈ Runs.moves (apply env) .empty ops, BoundaryAgrees env m.pre m.act :=
  Runs.moves_forall_iff (I := fun _ => True) (fun s op _ => oneBoundary_step env s op)
    (fun _ _ _ _ => trivial) trivial ops

/-- At the second its lease runs out, a worker that finish refuses can still record an operation. -/
theorem record_under_expired_lease :
    (finish .sample (.sample (.sample "grill" 0) 1 "l1" "v1" 1) .sampleSuccess (utc 61)
        (Runs.run (apply .sample) .empty
          [.sampleAccept, .claim "worker-1" [] (utc 1) 0 ⟨"l1", "v1"⟩])).toOption.isNone = true ∧
    ¬ OneBoundary .sample
      (Runs.run (apply .sample) .empty
        [.sampleAccept, .claim "worker-1" [] (utc 1) 0 ⟨"l1", "v1"⟩])
      (.recordOperation (.sample (utc 61)) (.sample (.sample "grill" 0) 1 "l1" "v1" 1) (utc 61))
      (Runs.run (apply .sample) .empty
        [.sampleAccept, .claim "worker-1" [] (utc 1) 0 ⟨"l1", "v1"⟩,
          .recordOperation (.sample (utc 61)) (.sample (.sample "grill" 0) 1 "l1" "v1" 1)
            (utc 61)]) := by
  refine ⟨by decide +kernel, fun h => ?_⟩
  have hacc : ∃ s', recordOperation (.sample (utc 61)) (.sample (.sample "grill" 0) 1 "l1" "v1" 1)
      (utc 61) (Runs.run (apply .sample) .empty
        [.sampleAccept, .claim "worker-1" [] (utc 1) 0 ⟨"l1", "v1"⟩]) = .ok s' :=
    exists_ok (by decide +kernel)
  have late := (h.noWork (utc 61) rfl _ ⟨rfl, hacc⟩).1
  revert late
  decide +kernel

end Sqlite
end Control
end DarkFactory
