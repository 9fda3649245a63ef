import DarkFactory.Control.ExpiryBoundary

/-!
# DarkFactory.Control.LeaseSweep

The sweep of expired leases, which takes a page of them at a call.

* `RetryBound` — no job has been retried more often than it may be; every operation keeps this.
* `SweepLaw` — what one call does, and that enough calls at one time leave no expired claim and nothing to change.
-/

namespace DarkFactory
namespace Control
namespace Sqlite

def RetryBound (s : Store) : Prop := ∀ j, j ∈ s.jobs → j.retryCount ≤ j.maxRetries

def KeepsRetries (s s' : Store) : Prop := RetryBound s → RetryBound s'

namespace KeepsRetries

variable {s' : Store}

theorem of_eq {s : Store} (h : s'.jobs = s.jobs) : KeepsRetries s s' := fun hb j hj => hb j (h ▸ hj)

theorem refl (s : Store) : KeepsRetries s s := of_eq rfl

theorem trans {s s'' : Store} (h₁ : KeepsRetries s s') (h₂ : KeepsRetries s' s'') : KeepsRetries s s'' :=
  fun hb => h₂ (h₁ hb)

theorem foldl {α : Type} {f : Store → α → Store} (hf : ∀ s a, KeepsRetries s (f s a)) (as : List α) (s : Store) :
    KeepsRetries s (as.foldl f s) := by
  induction as generalizing s with
  | nil => exact refl s
  | cons a as ih => exact (hf s a).trans (ih (f s a))

theorem mapped {s : Store} {F : Job → Job} (h : s.jobs.Mapped F s'.jobs)
    (hF : ∀ j : Job, j.retryCount ≤ j.maxRetries → (F j).retryCount ≤ (F j).maxRetries) : KeepsRetries s s' := by
  intro hb j hj
  obtain ⟨i, hi, rfl⟩ := h.mem hj
  exact hF i (hb i hi)

theorem update {s : Store} {p : Job → Bool} {f : Job → Job}
    (h : s.jobs.Mapped (fun j => if p j then f j else j) s'.jobs)
    (hf : ∀ j : Job, j.retryCount ≤ j.maxRetries → (f j).retryCount ≤ (f j).maxRetries) : KeepsRetries s s' := by
  refine .mapped h fun j hj => ?_
  split
  · exact hf j hj
  · exact hj

theorem insert {s : Store} {j : Job} (h : s.jobs.insert? j = some s'.jobs) (hn : j.retryCount ≤ j.maxRetries) :
    KeepsRetries s s' := by
  intro hb i hi
  rcases (Table.mem_of_insert? h).mp hi with hi | rfl
  · exact hb i hi
  · exact hn

theorem insertIgnore {s : Store} {j : Job} (h : s'.jobs = s.jobs.insertIgnore j)
    (hn : j.retryCount ≤ j.maxRetries) : KeepsRetries s s' := by
  intro hb i hi
  rcases Table.mem_insertIgnore.mp (h ▸ hi) with hi | ⟨rfl, -⟩
  · exact hb i hi
  · exact hn

end KeepsRetries

theorem requeuedJob_retries (now : DateTime) (j : Job) (h : j.retryCount ≤ j.maxRetries) :
    (requeuedJob now j).retryCount ≤ (requeuedJob now j).maxRetries := by
  unfold requeuedJob
  split
  · rename_i hlt
    exact hlt
  · exact h

theorem finishRow_retries (env : Env) (result : StageResult) (now : DateTime) (j : Job)
    (h : j.retryCount ≤ j.maxRetries) :
    (finishRow env result now j).retryCount ≤ (finishRow env result now j).maxRetries := by
  have hfinished : ∀ causeCode, (finishedJob result causeCode now j).retryCount ≤
      (finishedJob result causeCode now j).maxRetries := by
    intro causeCode
    unfold finishedJob
    cases result.outcome with
    | retry =>
      simp only
      split
      · rename_i hlt
        exact hlt
      · exact h
    | _ => exact h
  unfold finishRow keepEvidence
  split
  · exact hfinished _
  · exact hfinished _

theorem requeueExpiredFleetRun_retries (runId : String) (now : DateTime) (s : Store) :
    KeepsRetries s (requeueExpiredFleetRun runId now s) :=
  .update (Table.mapped_update (h := fleetRequeued_key now)) fun _ h => h

theorem expireFleetReservations_retries (now : DateTime) (s : Store) :
    KeepsRetries s (expireFleetReservations now s) := by
  have h₀ : KeepsRetries s { s with
      fleetReservations := s.fleetReservations.update (isExpiring now) expired expired_id } := .of_eq rfl
  exact h₀.trans (.foldl (fun s runId => requeueExpiredFleetRun_retries runId now s) _ _)

theorem reconcileClaim_retries (cycle : String) (now : DateTime) (acc : Store × List Repair) (c : ClaimRow) :
    KeepsRetries acc.1 (reconcileClaim cycle now acc c).1 := by
  unfold reconcileClaim
  simp only
  split
  · exact .of_eq rfl
  · split
    · exact .update (Table.mapped_update (h := requeuedJob_key now)) (requeuedJob_retries now)
    · exact .of_eq rfl

theorem reconcile_retries (now : DateTime) (limit : Nat) (cycle : String) (s : Store) :
    KeepsRetries s (reconcile now limit cycle s).2 := by
  have key : ∀ (cs : List ClaimRow) (acc : Store × List Repair),
      KeepsRetries acc.1 (cs.foldl (reconcileClaim ("cycle-" ++ cycle) now) acc).1 := by
    intro cs
    induction cs with
    | nil => exact fun _ => .of_eq rfl
    | cons c cs ih => exact fun acc => (reconcileClaim_retries _ now acc c).trans (ih _)
  exact key _ (s, [])

theorem heartbeatReservation_retries (env : Env) (reservationId : String) (fencingToken : Nat) (now : DateTime)
    (leaseDurationSec : Option Int) (s : Store) :
    KeepsRetries s (heartbeatReservation env reservationId fencingToken now leaseDurationSec s).2 := by
  unfold heartbeatReservation
  split
  · exact .refl s
  · split
    · exact .refl s
    · split
      · exact .refl s
      · split
        · exact .refl s
        · split
          · exact requeueExpiredFleetRun_retries _ now (setReservation reservationId expired s expired_id)
          · exact .of_eq rfl

theorem recordResult_retries (env : Env) (k : JobKey) (result : StageResult) (plan : Plan) (now : DateTime)
    (s : Store) : KeepsRetries s (recordResult env k result plan now s) := by
  unfold recordResult
  split
  · exact .insertIgnore rfl (Nat.zero_le _)
  · split
    · exact .update (Table.mapped_update (h := materializedJob_key env result plan now)) fun _ h => h
    · exact .refl s

theorem insertSuccessors_retries (env : Env) (plan : Plan) (now : DateTime) (s : Store) :
    KeepsRetries s (insertSuccessors env plan now s) := by
  unfold insertSuccessors
  generalize plan.successors = keys
  induction keys generalizing s with
  | nil => exact .of_eq rfl
  | cons k keys ih =>
    have hstep : KeepsRetries s { s with jobs := s.jobs.insertIgnore (successorJob env plan now k) } :=
      .insertIgnore rfl (Nat.zero_le _)
    exact hstep.trans (ih _)

theorem materializeResult_retries {env : Env} {k : JobKey} {result : StageResult} {now : DateTime} {s s' : Store}
    {keys : List JobKey} (h : materializeResult env k result now s = .ok (keys, s')) : KeepsRetries s s' := by
  obtain ⟨s₀, -, hs₀, -, rfl⟩ := materializeResult_ok h
  have h₀ : KeepsRetries s s₀ := .of_eq (ensureRun_jobs hs₀).1
  have h₁ := recordResult_retries env k result (planOf env k result now s) now s₀
  have h₂ := insertSuccessors_retries env (planOf env k result now s) now
    (recordResult env k result (planOf env k result now s) now s₀)
  refine ((h₀.trans h₁).trans h₂).trans (.of_eq ?_)
  exact (closeIfDone_tables k.runId now _).1

theorem apply_retries (env : Env) (s : Store) (op : Op) : KeepsRetries s (apply env s op) := by
  cases op with
  | accept command ids now =>
    refine committed_rel (.refl s) fun _ s' hs => ?_
    rcases accept_ok hs with rfl | ⟨-, -, hj, -, -⟩ | ⟨-, -, hj, -, -⟩
    · exact .refl _
    · exact .insert hj (Nat.zero_le _)
    · exact .of_eq hj
  | claim worker capabilities now readyAgeSec ids =>
    refine committed_rel (.refl s) fun c s' hs => ?_
    cases c with
    | none => exact claim_none hs ▸ .refl s
    | some c =>
      obtain ⟨row, _, _, _, _, _, rfl⟩ := claim_ok hs
      exact .update (Table.mapped_update (h := by intro _; rfl)) fun _ h => h
  | heartbeat c now =>
    refine committed_rel (.refl s) fun c' s' hs => ?_
    obtain ⟨_, _, _, _, _, hs⟩ := heartbeat_ok hs
    unfold heartbeat.beat at hs
    cases hs
    exact .update (Table.mapped_update (h := by intro _; rfl)) fun _ h => h
  | finish c result now =>
    refine toOption_rel (.refl s) fun s' hs => ?_
    obtain ⟨_, _, _, _, _, rfl⟩ := finish_ok hs
    have hm : KeepsRetries s (finishTables env c result now s) :=
      .update (Table.mapped_update (h := finishRow_key env result now)) (finishRow_retries env result now)
    exact hm.trans (.of_eq (finishApply_jobs env c result now s))
  | reconcile now limit cycle => exact reconcile_retries now limit cycle s
  | resumeJob key now =>
    simp only [apply, resumeJob]
    split
    · exact .refl s
    · split
      · exact .refl s
      · exact .update (Table.mapped_update (h := by intro _; rfl)) fun _ h => h
  | cancelRun runId reason actor now =>
    simp only [apply, cancelRun]
    split
    · exact .refl s
    · exact .update (Table.mapped_update (h := cancelledJob_key reason now)) fun _ h => h
  | recordOperation operation c clock =>
    refine toOption_rel (.refl s) fun s' hs => ?_
    obtain ⟨_, _, _, _, _, rfl⟩ := recordOperation_ok hs
    exact .of_eq rfl
  | reserveCycle request id now =>
    refine committed_rel (.refl s) fun r s' hs => ?_
    rcases reserveCycle_ok hs with rfl | ⟨_, _, rfl⟩
    · exact expireFleetReservations_retries now s
    · exact (expireFleetReservations_retries now s).trans (.of_eq rfl)
  | heartbeatReservation reservationId fencingToken now leaseDurationSec =>
    exact heartbeatReservation_retries env reservationId fencingToken now leaseDurationSec s
  | releaseReservation reservationId fencingToken status now =>
    refine committed_rel (.refl s) fun r s' hs => ?_
    rcases releaseReservation_ok hs with rfl | ⟨_, _, rfl⟩
    · exact .refl _
    · exact .of_eq rfl
  | drainHost hostId reason => exact .of_eq rfl
  | renewOpenRunReservations now pendingGraceSec => exact .of_eq rfl
  | reconcileFleetReservations now cycles =>
    refine .foldl (fun s p => ?_) _ s
    exact requeueExpiredFleetRun_retries _ now (setReservation p.1.reservationId expired s expired_id)
  | materializeResult k result now =>
    exact committed_rel (.refl s) fun _ _ hs => materializeResult_retries hs

theorem reachable_retries (env : Env) (ops : List Op) : RetryBound (Runs.run (apply env) .empty ops) :=
  Runs.run_invariant (fun s op => apply_retries env s op) (fun _ h => absurd h Table.not_mem_empty) ops

def overdue (s : Store) (now : DateTime) : List ClaimRow :=
  s.claims.select fun c => decide (c.status = .active) && c.expiresAt.le now

/-- The claims that are expired in the second state and were not in the first. -/
def turned (s s' : Store) : List ClaimRow :=
  s.claims.select fun c => decide (c.status ≠ .expired) &&
    s'.claims.any fun d => decide (d.leaseId = c.leaseId) && decide (d.status = .expired)

/-- The job is pending again with one more retry, or failed when it had none left. -/
structure Requeued (j j' : Job) : Prop where
  settled : (j.retryCount < j.maxRetries ∧ j'.status = .pending ∧ j'.retryCount = j.retryCount + 1) ∨
    (j.maxRetries ≤ j.retryCount ∧ j'.status = .failed ∧ j'.retryCount = j.retryCount)
  bound : j'.maxRetries = j.maxRetries
  token : j.fencingToken < j'.fencingToken
  lease : j'.currentLeaseId = none

/-- What a call with limit `n` makes of the state. -/
structure SweptOnce (now : DateTime) (n : Nat) (s s' : Store) : Prop where
  atMost : (turned s s').length ≤ n
  overdue : ∀ c, c ∈ turned s s' → c ∈ overdue s now
  claims : ∃ F, s.claims.Mapped F s'.claims ∧ ∀ c, c ∈ s.claims →
    F c = c ∨ (c ∈ turned s s' ∧ F c = { c with status := .expired })
  jobs : ∃ F, s.jobs.Mapped F s'.jobs ∧ ∀ j, j ∈ s.jobs → F j = j ∨
    ((∃ c, c ∈ turned s s' ∧ c.jobKey = j.key ∧ c.fencingToken = j.fencingToken) ∧
      j.status = .running ∧ Requeued j (F j))

def sweeps (now : DateTime) (n : Nat) (cycles : List String) (s : Store) : Store :=
  cycles.foldl (fun s cycle => (reconcile now n cycle s).2) s

structure SweepLaw (s : Store) (now : DateTime) : Prop where
  once : ∀ n cycle, SweptOnce now n s (reconcile now n cycle s).2
  retries : ∀ n cycle, RetryBound s ∧ RetryBound (reconcile now n cycle s).2
  /-- After `⌈k / n⌉` calls nothing is left to sweep, and one more call finds nothing to change. -/
  enough : ∀ n cycles cycle, 1 ≤ n → ((overdue s now).length + n - 1) / n ≤ cycles.length →
    overdue (sweeps now n cycles s) now = [] ∧
      (reconcile now n cycle (sweeps now n cycles s)).2.jobs = (sweeps now n cycles s).jobs ∧
      (reconcile now n cycle (sweeps now n cycles s)).2.claims = (sweeps now n cycles s).claims ∧
      (reconcile now n cycle (sweeps now n cycles s)).2.runs = (sweeps now n cycles s).runs

/-- The texts order the expiry of every active claim against `now` as the instants do. -/
def TextsAgree (s : Store) (now : DateTime) : Prop :=
  ∀ c, c ∈ s.claims → c.status = .active → c.expiresAt.textLe now = c.expiresAt.le now

variable {now : DateTime} {n : Nat} {cycle : String} {s : Store}

variable {c : ClaimRow}

theorem mem_expiredClaims :
    c ∈ expiredClaims s now ↔ c ∈ s.claims ∧ c.status = .active ∧ c.expiresAt.textLe now = true := by
  simp only [expiredClaims, Table.mem_select, Bool.and_eq_true, decide_eq_true_eq]

theorem mem_overdue : c ∈ overdue s now ↔ c ∈ s.claims ∧ c.status = .active ∧ c.expiresAt.le now = true := by
  simp only [overdue, Table.mem_select, Bool.and_eq_true, decide_eq_true_eq]

def taken (s : Store) (now : DateTime) (n : Nat) : List ClaimRow := (expiredClaims s now).take n

def isTaken (s : Store) (now : DateTime) (n : Nat) (c : ClaimRow) : Bool :=
  (taken s now n).any fun d => decide (c.leaseId = d.leaseId)

theorem isTaken_iff (hc : c ∈ s.claims) : isTaken s now n c = true ↔ c ∈ taken s now n := by
  rw [isTaken, List.any_eq_true]
  constructor
  · rintro ⟨d, hd, he⟩
    have hds := (mem_expiredClaims.mp (List.mem_of_mem_take hd)).1
    exact Table.eq_of_key hc hds (of_decide_eq_true he) ▸ hd
  · exact fun h => ⟨c, h, decide_eq_true rfl⟩

theorem taken_nodup (s : Store) (now : DateTime) (n : Nat) : ((taken s now n).map ClaimRow.leaseId).Nodup :=
  (Table.select_nodup _ _).sublist ((List.take_sublist _ _).map _)

theorem reconcile_claims (now : DateTime) (n : Nat) (cycle : String) (s : Store) :
    s.claims.Mapped (fun c => if isTaken s now n c then { c with status := .expired } else c)
      (reconcile now n cycle s).2.claims :=
  reconcileClaims_claims ("cycle-" ++ cycle) now (taken s now n) (s, [])

theorem mem_turned : c ∈ turned s (reconcile now n cycle s).2 ↔ c ∈ taken s now n := by
  have hm := reconcile_claims now n cycle s
  simp only [turned, Table.mem_select, Bool.and_eq_true, decide_eq_true_eq, Table.any_eq_true]
  constructor
  · rintro ⟨hc, hne, d, hd, hid, hst⟩
    rw [hm.eq_of_key hc hd hid] at hst
    split at hst
    · rename_i ht
      exact (isTaken_iff hc).mp ht
    · exact absurd hst hne
  · intro h
    obtain ⟨hc, ha, -⟩ := mem_expiredClaims.mp (List.mem_of_mem_take h)
    have hd := hm.mem_of hc
    rw [if_pos ((isTaken_iff hc).mpr h)] at hd
    exact ⟨hc, by rw [ha]; decide, _, hd, rfl, rfl⟩

theorem turned_length : (turned s (reconcile now n cycle s).2).length ≤ n := by
  have hnd : (turned s (reconcile now n cycle s).2).Nodup := (Table.select_nodup _ _).of_map _
  have hsub : turned s (reconcile now n cycle s).2 ⊆ taken s now n := fun c hc => mem_turned.mp hc
  exact (hnd.length_le_of_subset hsub).trans (List.length_take_le _ _)

theorem reconcileClaims_jobs {now : DateTime} {cs : List ClaimRow} :
    ∀ {s : Store} (repaired : List Repair), Inv s → (cs.map ClaimRow.leaseId).Nodup →
      (∀ c ∈ cs, c ∈ s.claims ∧ c.status = .active) →
      s.jobs.Mapped (fun j => if cs.any fun c => decide (j.key = c.jobKey) then requeuedJob now j else j)
        (cs.foldl (reconcileClaim cycle now) (s, repaired)).1.jobs := by
  induction cs with
  | nil => exact fun _ _ _ _ => .refl
  | cons c cs ih =>
    intro s repaired h hnd hcs
    rw [List.map_cons, List.nodup_cons] at hnd
    obtain ⟨hc, ha⟩ := hcs c List.mem_cons_self
    obtain ⟨i, hi, hik, -, hit, -⟩ := h.active_job hc ha
    have hget : s.jobs.get? c.jobKey = some i := Table.get?_eq_some.mpr ⟨hi, hik⟩
    have hother : ∀ d ∈ cs, d.leaseId ≠ c.leaseId := fun d hd he => hnd.1 (he ▸ List.mem_map_of_mem hd)
    have hrest := ih (reconcileClaim cycle now (s, repaired) c).2
      (h.advance (reconcileClaim_advance cycle now repaired h hc ha)) hnd.2 fun d hd =>
        have hd' := hcs d (List.mem_cons_of_mem _ hd)
        ⟨reconcileClaim_mem hd'.1 (hother d hd), hd'.2⟩
    have hstep : s.jobs.Mapped (fun j => if decide (j.key = c.jobKey) then requeuedJob now j else j)
        (reconcileClaim cycle now (s, repaired) c).1.jobs := by
      simp only [reconcileClaim, hget, hit, if_true]
      exact Table.mapped_update (h := requeuedJob_key now)
    refine (hstep.trans hrest).congr fun j _ => ?_
    by_cases hk : j.key = c.jobKey
    · -- no other of the claims is on the job
      have hnone : (cs.any fun d => decide (j.key = d.jobKey)) = false := by
        rw [List.any_eq_false]
        intro d hd he
        have hd' := hcs d (List.mem_cons_of_mem _ hd)
        have hdc := h.active_unique hd'.1 hc hd'.2 ha ((of_decide_eq_true he).symm.trans hk)
        exact hother d hd (congrArg _ hdc)
      have hsome : ((c :: cs).any fun d => decide (j.key = d.jobKey)) = true := by
        rw [List.any_cons, decide_eq_true hk, Bool.true_or]
      rw [if_pos (decide_eq_true hk), if_pos hsome, requeuedJob_key, hnone]
      rfl
    · have hsame : ((c :: cs).any fun d => decide (j.key = d.jobKey)) =
          cs.any fun d => decide (j.key = d.jobKey) := by
        rw [List.any_cons, decide_eq_false hk, Bool.false_or]
      rw [if_neg fun h => hk (of_decide_eq_true h), hsame]

theorem requeuedJob_requeued (now : DateTime) (j : Job) : Requeued j (requeuedJob now j) := by
  unfold requeuedJob
  split
  · rename_i hlt
    exact ⟨.inl ⟨hlt, rfl, rfl⟩, rfl, Nat.lt_succ_self _, rfl⟩
  · rename_i hle
    exact ⟨.inr ⟨Nat.le_of_not_lt hle, rfl, rfl⟩, rfl, Nat.lt_succ_self _, rfl⟩

theorem reconcile_sweptOnce (h : Inv s) (hagree : TextsAgree s now) (n : Nat) (cycle : String) :
    SweptOnce now n s (reconcile now n cycle s).2 where
  atMost := turned_length
  overdue c hc := by
    obtain ⟨hcm, ha, htext⟩ := mem_expiredClaims.mp (List.mem_of_mem_take (mem_turned.mp hc))
    exact mem_overdue.mpr ⟨hcm, ha, hagree c hcm ha ▸ htext⟩
  claims := by
    refine ⟨_, reconcile_claims now n cycle s, fun c hc => ?_⟩
    split
    · rename_i ht
      exact .inr ⟨mem_turned.mpr ((isTaken_iff hc).mp ht), rfl⟩
    · exact .inl rfl
  jobs := by
    have hactive : ∀ c ∈ taken s now n, c ∈ s.claims ∧ c.status = .active := fun c hc =>
      have hc' := mem_expiredClaims.mp (List.mem_of_mem_take hc)
      ⟨hc'.1, hc'.2.1⟩
    refine ⟨_, reconcileClaims_jobs [] h (taken_nodup s now n) hactive, fun j hj => ?_⟩
    split
    · rename_i hany
      obtain ⟨c, hc, hk⟩ := List.any_eq_true.mp hany
      have hk := of_decide_eq_true hk
      obtain ⟨i, hi, hik, hir, hit, -⟩ := h.active_job (hactive c hc).1 (hactive c hc).2
      obtain rfl : j = i := Table.eq_of_key hj hi (hk.trans hik.symm)
      exact .inr ⟨⟨c, mem_turned.mpr hc, hk.symm, hit.symm⟩, hir, requeuedJob_requeued now j⟩
    · exact .inl rfl

theorem expiredClaims_reconcile (now : DateTime) (n : Nat) (cycle : String) (s : Store) :
    expiredClaims (reconcile now n cycle s).2 now = (expiredClaims s now).drop n := by
  have hm := reconcile_claims now n cycle s
  have hkept : expiredClaims (reconcile now n cycle s).2 now =
      (expiredClaims s now).filter fun c => !isTaken s now n c := by
    have hsel := hm.select (q := fun c => decide (c.status = .active) && c.expiresAt.textLe now)
      (p := fun c => !isTaken s now n c && (decide (c.status = .active) && c.expiresAt.textLe now))
      fun c _ => by cases isTaken s now n c <;> rfl
    refine hsel.trans ?_
    rw [expiredClaims, Table.select, Table.select, List.filter_filter]
    refine (List.map_congr_left fun c hc => ?_).trans (List.map_id _)
    have hnot := (Bool.and_eq_true _ _ ▸ (List.mem_filter.mp hc).2).1
    simp only [Bool.not_eq_true'] at hnot
    rw [hnot]
    rfl
  have hmem : ∀ c ∈ expiredClaims s now, isTaken s now n c = true ↔ c ∈ taken s now n := fun c hc =>
    isTaken_iff (mem_expiredClaims.mp hc).1
  have hnd : (taken s now n ++ (expiredClaims s now).drop n).Nodup := by
    rw [taken, List.take_append_drop]
    exact (Table.select_nodup _ _).of_map _
  rw [hkept]
  conv_lhs => rw [← List.take_append_drop n (expiredClaims s now)]
  have htaken : ((expiredClaims s now).take n).filter (fun c => !isTaken s now n c) = [] := by
    rw [List.filter_eq_nil_iff]
    intro c hc
    rw [(hmem c (List.mem_of_mem_take hc)).mpr hc]
    exact Bool.false_ne_true
  have hleft : ((expiredClaims s now).drop n).filter (fun c => !isTaken s now n c) =
      (expiredClaims s now).drop n := by
    rw [List.filter_eq_self]
    intro c hc
    rw [Bool.not_eq_true', ← Bool.not_eq_true]
    intro ht
    exact List.disjoint_of_nodup_append hnd ((hmem c (List.mem_of_mem_drop hc)).mp ht) hc
  rw [List.filter_append, htaken, hleft, List.nil_append]

theorem expiredClaims_sweeps (now : DateTime) (n : Nat) (cycles : List String) (s : Store) :
    expiredClaims (sweeps now n cycles s) now = (expiredClaims s now).drop (n * cycles.length) := by
  induction cycles generalizing s with
  | nil => rfl
  | cons cycle cycles ih =>
    rw [sweeps, List.foldl_cons]
    refine (ih _).trans ?_
    rw [expiredClaims_reconcile, List.drop_drop, List.length_cons, Nat.mul_succ, Nat.add_comm]

theorem sweeps_none (h : expiredClaims s now = []) (n : Nat) (cycle : String) :
    (reconcile now n cycle s).2 = s := by
  simp only [reconcile, h, List.take_nil, List.foldl_nil]

theorem textsAgree_reconcile (h : TextsAgree s now) (n : Nat) (cycle : String) :
    TextsAgree (reconcile now n cycle s).2 now := by
  intro c hc ha
  obtain ⟨d, hd, rfl⟩ := (reconcile_claims now n cycle s).mem hc
  cases ht : isTaken s now n d with
  | true =>
    rw [ht] at ha
    cases ha
  | false =>
    rw [ht] at ha
    exact h d hd ha

theorem textsAgree_sweeps (h : TextsAgree s now) (n : Nat) (cycles : List String) :
    TextsAgree (sweeps now n cycles s) now :=
  Runs.run_invariant (I := fun s => TextsAgree s now) (fun _ cycle h => textsAgree_reconcile h n cycle) h cycles

theorem TextsAgree.overdue (h : TextsAgree s now) : overdue s now = expiredClaims s now := by
  refine List.filter_congr fun c hc => ?_
  by_cases ha : c.status = .active
  · rw [h c hc ha]
  · simp only [ha, decide_false, Bool.false_and]

theorem sweeps_spare (hc : c ∈ s.claims) (hlive : c.expiresAt.textLe now = false)
    (n : Nat) (cycles : List String) : c ∈ (sweeps now n cycles s).claims := by
  refine Runs.run_invariant (I := fun s : Store => c ∈ s.claims) (fun s cycle hc => ?_) hc cycles
  have hm := (reconcile_claims now n cycle s).mem_of hc
  rw [if_neg fun ht => ?_] at hm
  · exact hm
  · rw [(mem_expiredClaims.mp (List.mem_of_mem_take ((isTaken_iff hc).mp ht))).2.2] at hlive
    cases hlive

theorem SweepLaw.of_agree (h : Inv s) (hb : RetryBound s) (hagree : TextsAgree s now) : SweepLaw s now where
  once n cycle := reconcile_sweptOnce h hagree n cycle
  retries n cycle := ⟨hb, reconcile_retries now n cycle s hb⟩
  enough n cycles cycle hn hcycles := by
    have hlength : (expiredClaims s now).length ≤ n * cycles.length := by
      rw [hagree.overdue] at hcycles
      have hlt := Nat.lt_mul_of_div_lt (Nat.lt_succ_of_le hcycles) hn
      rw [Nat.mul_comm, Nat.mul_succ] at hlt
      omega
    have hnone : expiredClaims (sweeps now n cycles s) now = [] := by
      rw [expiredClaims_sweeps, List.drop_eq_nil_iff]
      exact hlength
    rw [(textsAgree_sweeps hagree n cycles).overdue, sweeps_none hnone]
    exact ⟨hnone, rfl, rfl, rfl⟩

theorem SweepLaw.agree (h : SweepLaw s now) : TextsAgree s now := by
  intro c hc ha
  cases htext : c.expiresAt.textLe now with
  | true =>
    -- a call without a bound takes the claim
    have hexpired := mem_expiredClaims.mpr ⟨hc, ha, htext⟩
    have htaken : c ∈ taken s now (expiredClaims s now).length := by
      rw [taken, List.take_length]
      exact hexpired
    have hover := (h.once (expiredClaims s now).length "").overdue c (mem_turned.mpr htaken)
    exact (mem_overdue.mp hover).2.2.symm
  | false =>
    cases hle : c.expiresAt.le now with
    | false => rfl
    | true =>
      -- no call ever takes it, so it is still overdue when nothing should be
      obtain ⟨hnone, -⟩ := h.enough 1 (List.replicate (overdue s now).length "") "" (Nat.le_refl _) (by
        rw [List.length_replicate, Nat.div_one]
        omega)
      have hstill := mem_overdue.mpr ⟨sweeps_spare hc htext 1 (List.replicate (overdue s now).length ""), ha, hle⟩
      rw [hnone] at hstill
      cases hstill

theorem sweep_law_utc (env : Env) (ops : List Op) {now : DateTime} (hn : now.IsUtc)
    (hutc : ∀ c, c ∈ (Runs.run (apply env) .empty ops).claims → c.expiresAt.IsUtc) :
    SweepLaw (Runs.run (apply env) .empty ops) now :=
  .of_agree (reachable_inv env ops) (reachable_retries env ops) fun c hc _ => DateTime.textLe_utc (hutc c hc) hn

/-- 2024-01-01T01:00:00+02:00, an hour before the sample's times begin. -/
def elsewhere : DateTime := ⟨63839664000000000 + 3600 * DateTime.second, some (7200 * DateTime.second)⟩

end Sqlite
end Control
end DarkFactory
