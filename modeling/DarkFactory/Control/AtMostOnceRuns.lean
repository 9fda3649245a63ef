import DarkFactory.Control.AtMostOnce

/-!
# DarkFactory.Control.AtMostOnceRuns

Every step of the workers keeps `WorkInv` as long as no claim falls into the window, and
`offered_once_iff`: that window, and a postponed retrospective, whose `not_before` is not stored, are
the only ways to a second offer or an early one.
-/

namespace DarkFactory
namespace Control
namespace Sqlite

theorem mem_requeued {w : WorkLog} {k : JobKey} :
    k ∈ w.requeued ↔ ∃ result, (k, result) ∈ w.due ∧ result.outcome = .retry := by
  simp [WorkLog.requeued]

variable {result : StageResult} {status : JobStatus} {env : Env}

theorem FinishedAs.ne_running (h : FinishedAs result status) : status ≠ .running := by
  rintro rfl
  unfold FinishedAs at h
  split at h
  · rcases h with h | h <;> cases h
  · exact result.outcome.dbStatus_ne_running h.symm

theorem FinishedAs.retry_of_pending
    (h : FinishedAs result status) (hs : status = .pending) : result.outcome = .retry := by
  subst hs
  unfold FinishedAs at h
  split at h
  · assumption
  · exact absurd h.symm result.outcome.dbStatus_ne_pending

theorem FinishedAs.of_retry (h : FinishedAs result status) (ho : result.outcome = .retry) :
    status = .pending ∨ status = .failed := by
  unfold FinishedAs at h
  rw [ho] at h
  exact h

theorem FinishedAs.of_ne_retry (h : FinishedAs result status) (ho : result.outcome ≠ .retry) :
    status = result.outcome.dbStatus := by
  unfold FinishedAs at h
  split at h
  · rename_i ho'
    exact absurd ho' ho
  · exact h

theorem finishRow_finishedAs (env : Env) (result : StageResult) (now : DateTime) (j : Job) :
    FinishedAs result (finishRow env result now j).status := by
  rw [finishRow_status, FinishedAs]
  cases result.outcome with
  | retry =>
    simp only
    split
    · exact .inl rfl
    · exact .inr rfl
  | _ => rfl

theorem claim_touches {worker : String} {capabilities : List String} {now : DateTime}
    {readyAgeSec : Rat} {ids : ClaimIds} {s s' : Store} {c : Claim}
    (h : claim env worker capabilities now readyAgeSec ids s = .ok (some c, s')) :
    ∃ row row', row.key = c.jobKey ∧ row.status = .pending ∧ postponed env now row = false ∧
      row'.status = .running ∧ Touches s s' row row' none := by
  obtain ⟨row, matched, claims, hch, -, rfl, rfl⟩ := claim_ok h
  obtain ⟨hrow, hclaim⟩ := chosenRow_ok hch
  obtain ⟨hrow, hpend⟩ := mem_pendingByCreation.mp hrow
  have hgate : postponed env now row = false := by
    unfold claimable at hclaim
    split at hclaim
    · cases hclaim
    · rename_i ho
      rw [Bool.not_eq_true', Bool.not_eq_false, offerable, Bool.and_eq_true, Bool.not_eq_true'] at ho
      exact ho.2
  have ht : Touches s (claimed env now ids row matched claims s) row
      (leasedRow row ("lease-" ++ ids.lease) now) none := by
    refine ⟨hrow, rfl, fun key => ?_, fun _ h => by cases h⟩
    rw [Option.filter_none, Option.or_none]
    exact leaseJobs_get? hrow ("lease-" ++ ids.lease) now key
  exact ⟨row, _, rfl, hpend, hgate, rfl, ht⟩

theorem offer_eq_some {w : WorkLog} {op : WorkOp} {o : JobKey × DateTime} (h : offer env w op = some o) :
    ∃ worker capabilities readyAgeSec ids c s',
      op = .claim worker capabilities o.2 readyAgeSec ids ∧ c.jobKey = o.1 ∧
      claim env worker capabilities o.2 readyAgeSec ids w.store = .ok (some c, s') := by
  unfold offer at h
  split at h
  · rename_i worker capabilities now readyAgeSec ids
    split at h
    · rename_i c s' hc
      cases h
      exact ⟨worker, capabilities, readyAgeSec, ids, c, s', rfl, rfl, hc⟩
    · cases h
  · cases h

theorem notReached_of_offered {now : DateTime} {row : Job} {notBefore : String}
    (h : postponed env now row = false) (hb : row.notBefore = some notBefore)
    (hne : notBefore ≠ "") : notReached env now notBefore = false := by
  unfold postponed at h
  rw [hb] at h
  simp only [if_neg hne] at h
  exact h

theorem offered_once_step {w : WorkLog} (hi : WorkInv w) (op : WorkOp)
    (hoff : (workStep env w op).offered = ((offer env w op).map Prod.fst).toList ++ w.offered) :
    OfferedOnce env ⟨w, op, workStep env w op⟩ ↔ OutsideWindow env w op := by
  unfold OfferedOnce OutsideWindow
  rw [hoff]
  cases ho : offer env w op with
  | none => simpa using hi.once
  | some o =>
    obtain ⟨worker, capabilities, readyAgeSec, ids, c, s', -, hkey, hc⟩ := offer_eq_some ho
    obtain ⟨row, row', hrow, hpend, hpost, -, ht⟩ := claim_touches hc
    have hrow : row.key = o.1 := hrow.trans hkey
    have hwin : o.1 ∈ w.offered ↔ o.1 ∈ w.requeued := by
      constructor
      · intro hm
        obtain ⟨j, hj, hjk, hs⟩ := hi.offered o.1 hm
        exact hs (Table.eq_of_key hj ht.mem (hjk.trans hrow.symm) ▸ hpend)
      · intro hm
        obtain ⟨result, hd, -⟩ := mem_requeued.mp hm
        exact (hi.due _ hd).1
    simp only [Option.map_some, Option.toList_some, List.singleton_append, List.nodup_cons, hwin,
      Option.mem_def, Option.some.injEq, forall_eq']
    refine ⟨fun h => ⟨h.1.1, fun _ => h.2⟩, fun h => ⟨⟨h.1, hi.once⟩, fun p hp hpk => ?_⟩⟩
    obtain ⟨hne, j, hj, hjk, hm | hst | hb⟩ := hi.postponed p hp
    · exact absurd (hwin.mp (hpk ▸ hm)) h.1
    · exact h.2 (hpk ▸ hst) p hp hpk
    · have hjk := hjk.trans hpk
      have e := Table.eq_of_key hj ht.mem (hjk.trans hrow.symm)
      exact notReached_of_offered hpost (e ▸ hb) hne

section

variable {env : Env} {w : WorkLog}

theorem claim_workInv (hi : WorkInv w) {worker : String} {capabilities : List String}
    {now : DateTime} {readyAgeSec : Rat} {ids : ClaimIds}
    (hc : OutsideWindow env w (.claim worker capabilities now readyAgeSec ids)) :
    WorkInv (workStep env w (.claim worker capabilities now readyAgeSec ids)) := by
  have hl := inv_step env w.store (.claim worker capabilities now readyAgeSec ids) hi.lease
  have ho := owned_step env w.store (.claim worker capabilities now readyAgeSec ids) hi.owned
  have hnodup := ((offered_once_step hi _ rfl).mpr hc).1
  unfold OutsideWindow at hc
  cases hoff : offer env w (.claim worker capabilities now readyAgeSec ids) with
  | none =>
    have hs : apply env w.store (.claim worker capabilities now readyAgeSec ids) = w.store := by
      rw [apply]
      cases hr : claim env worker capabilities now readyAgeSec ids w.store with
      | error e => rfl
      | ok r =>
        obtain ⟨c | c, s'⟩ := r
        · exact claim_none hr
        · simp [offer, hr] at hoff
    simp only [workStep, hoff, hs, Option.map_none, Option.toList_none, List.nil_append]
    exact hi
  | some o =>
    obtain ⟨_, _, _, _, c, s', e, hkey, hr⟩ := offer_eq_some hoff
    cases e
    obtain ⟨row, row', hrow, hpend, -, hrun, ht⟩ := claim_touches hr
    have hrow : row.key = o.1 := hrow.trans hkey
    have hs : apply env w.store (.claim worker capabilities o.2 readyAgeSec ids) = s' := by
      rw [apply, hr, committed_ok]
    simp only [workStep, hoff, hs, Option.map_some, Option.toList_some, List.singleton_append]
      at hnodup hl ho ⊢
    refine hi.touches ht hl ho (.inl ⟨row, ht.mem, rfl, by rw [hpend]; rfl⟩) (fun k => ?_) hnodup
      (fun k _ hk => hk) (fun hp => ?_) (fun e he => .inl ⟨he, fun hk => ?_⟩) hi.dueOnce
      (fun hn => absurd rfl hn) (fun p hp => .inl hp)
    · rw [List.mem_cons, hrow, or_comm]
    · rw [hrun] at hp
      cases hp
    · -- the claimed job would be one whose retry is due
      obtain ⟨-, j, hj, hjk, hf⟩ := hi.due e he
      have hje := Table.eq_of_key hj ht.mem (hjk.trans hk)
      refine (hc o hoff).1 (mem_requeued.mpr ⟨e.2, ?_, hf.retry_of_pending (hje ▸ hpend)⟩)
      rw [← hrow, ← hk]
      exact he

theorem retryPostpones_mem {key : JobKey} {result : StageResult} {p : JobKey × String}
    (h : p ∈ retryPostpones key result) :
    p.1 = key ∧ (parseRetryCauseCode result.causeCode).2 = some p.2 := by
  unfold retryPostpones at h
  split at h
  · rw [Option.mem_toList, Option.map_eq_some_iff] at h
    obtain ⟨notBefore, hn, rfl⟩ := h
    exact ⟨rfl, hn⟩
  · cases h

theorem notBeforeToken_ne_empty {cs : List Char} {iso : String} (h : notBeforeToken cs = some iso) : iso ≠ "" := by
  induction cs with
  | nil => cases h
  | cons c cs ih =>
    unfold notBeforeToken at h
    split at h
    · split at h
      · exact ih h
      · rename_i hne
        cases h
        intro he
        exact hne (String.ofList_injective he)
    · exact ih h

theorem parseRetryCauseCode_ne_empty {causeCode : Option String} {notBefore : String}
    (h : (parseRetryCauseCode causeCode).2 = some notBefore) : notBefore ≠ "" := by
  unfold parseRetryCauseCode at h
  split at h
  · cases h
  · exact notBeforeToken_ne_empty h

theorem finish_workInv (hi : WorkInv w) (c : Claim) (result : StageResult) (now : DateTime) :
    WorkInv (workStep env w (.finish c result now)) := by
  have hl := inv_step env w.store (.finish c result now) hi.lease
  have ho := owned_step env w.store (.finish c result now) hi.owned
  cases hs : finish env c result now w.store with
  | error e =>
    rw [workStep, hs]
    exact hi
  | ok s' =>
    rw [apply, hs] at hl ho
    rw [workStep, hs]
    obtain ⟨crow, job, hh, -, -, rfl⟩ := finish_ok hs
    have hrun : job.status = .running := by
      refine (hi.lease.leased job hh.job_mem).mpr ?_
      rw [hh.lease]
      exact Option.some_ne_none _
    have ht : Touches w.store (finishApply env c result now w.store) job
        (finishRow env result now job) none := by
      refine ⟨hh.job_mem, finishRow_key env result now job, fun key => ?_, fun _ h => by cases h⟩
      rw [Option.filter_none, Option.or_none, finishApply_jobs, finishTables_get? env result now hh, hh.key]
    have hoff : job.key ∈ w.offered := by
      by_contra hn
      have := hi.fresh job hh.job_mem hn
      rw [hrun] at this
      cases this
    have hnd : ∀ e ∈ w.due, e.1 ≠ job.key := by
      intro e he hk
      obtain ⟨-, j, hj, hjk, hf⟩ := hi.due e he
      exact hf.ne_running (Table.eq_of_key hj hh.job_mem (hjk.trans hk) ▸ hrun)
    refine hi.touches ht hl ho (.inl ⟨job, hh.job_mem, rfl, by rw [hrun]; rfl⟩)
      (fun k => (or_iff_left_of_imp fun hk => hk ▸ hoff).symm) hi.once (fun k _ hk => ?_)
      (fun hp => ?_) (fun e he => ?_) ?_ (fun hn => absurd rfl hn) (fun p hp => ?_)
    · obtain ⟨r, hr, hret⟩ := mem_requeued.mp hk
      exact mem_requeued.mpr ⟨r, List.mem_cons_of_mem _ hr, hret⟩
    · rw [mem_requeued, hh.key]
      exact ⟨result, List.mem_cons_self, (finishRow_finishedAs env result now job).retry_of_pending hp⟩
    · rcases List.mem_cons.mp he with rfl | he
      · exact .inr ⟨hh.key.symm, finishRow_finishedAs env result now job, rfl⟩
      · exact .inl ⟨he, hnd e he⟩
    · show (c.jobKey :: w.due.map Prod.fst).Nodup
      refine List.nodup_cons.mpr ⟨fun hm => ?_, hi.dueOnce⟩
      obtain ⟨e, he, hk⟩ := List.mem_map.mp hm
      exact hnd e he (hk.trans hh.key.symm)
    · rcases List.mem_append.mp hp with hp | hp
      · obtain ⟨hk, hn⟩ := retryPostpones_mem hp
        have hp : p.1 = job.key := hk.trans hh.key.symm
        exact .inr ⟨parseRetryCauseCode_ne_empty hn, _, ht.mem_row, ht.key.trans hp.symm, .inl (hp.symm ▸ hoff)⟩
      · exact .inl hp

theorem planOf_successors (env : Env) (k : JobKey) (result : StageResult) (now : DateTime) (s : Store) :
    (planOf env k result now s).successors = [] ∨ ∃ key, (planOf env k result now s).successors = [key] := by
  unfold planOf
  split
  · by_cases hst : k.stage = "build_deploy"
    · exact .inr ⟨retrospectiveKey k, by rw [hst]; rfl⟩
    · rw [if_neg hst, List.append_nil]
      cases PRODUCTIVE_DAG k.stage with
      | none => exact .inl rfl
      | some stage => exact .inr ⟨_, rfl⟩
  · split
    · exact .inr ⟨_, rfl⟩
    · exact .inr ⟨_, rfl⟩
  · exact .inr ⟨_, rfl⟩
  · exact .inr ⟨_, rfl⟩
  all_goals exact .inl rfl

theorem planPostpones_mem {k : JobKey} {result : StageResult} {now : DateTime} {s : Store}
    {p : JobKey × String} (h : p ∈ planPostpones (planOf env k result now s)) :
    p.1 ∈ (planOf env k result now s).successors ∧
      (planOf env k result now s).retryNotBefore = some p.2 ∧ p.2 ≠ "" := by
  have hne : ∀ notBefore, (planOf env k result now s).retryNotBefore = some notBefore → notBefore ≠ "" := by
    intro notBefore hn
    unfold planOf at hn
    split at hn
    · cases hn
    · split at hn
      · cases hn
      · exact parseRetryCauseCode_ne_empty hn
    all_goals cases hn
  unfold planPostpones at h
  split at h
  · cases h
  · rename_i notBefore hn
    obtain ⟨key, hk, rfl⟩ := List.mem_map.mp h
    exact ⟨hk, hn, hne _ hn⟩

theorem settledStatus_closed (env : Env) {k : JobKey} {result : StageResult} (now : DateTime)
    (s : Store) {s₀ : Store} {row : Job} (hrow : s₀.jobs.get? k = some row)
    (hf : FinishedAs result row.status) :
    settledStatus k result (planOf env k result now s) s₀ ≠ .pending ∧
      ((planOf env k result now s).successors ≠ [] →
        (settledStatus k result (planOf env k result now s) s₀).isOpen = false) := by
  have hst : settledStatus k result (planOf env k result now s) s₀ =
      if row.status = .pending ∨ row.status = .running then
        materializedStatus (planOf env k result now s) result
      else row.status := by
    rw [settledStatus, hrow]
  rw [hst]
  by_cases hret : result.outcome = .retry
  · rcases hf.of_retry hret with hf | hf
    · rw [hf, if_pos (.inl rfl), materializedStatus, hret]
      split
      · exact ⟨by decide, fun _ => rfl⟩
      · exact ⟨by decide, fun _ => rfl⟩
    · rw [hf, if_neg (by decide)]
      exact ⟨by decide, fun _ => rfl⟩
  · rw [hf.of_ne_retry hret, if_neg]
    · refine ⟨result.outcome.dbStatus_ne_pending, fun hn => ?_⟩
      cases ho : result.outcome with
      | retry => exact absurd ho hret
      | waitingDependency | waitingHuman => exact absurd (by rw [planOf, ho]) hn
      | success | replan | cancelled | failed => rfl
    · rintro (h | h)
      · exact result.outcome.dbStatus_ne_pending h
      · exact result.outcome.dbStatus_ne_running h

theorem materialize_touches (env : Env) {k : JobKey} (result : StageResult) (now : DateTime)
    {s s₀ : Store} {row : Job} (hrow : s.jobs.get? k = some row) (hj : s₀.jobs = s.jobs) :
    ∃ new, Touches s (closeIfDone k.runId now
        (materialized env k result (planOf env k result now s) now s₀)) row
        (settledRow env k result (planOf env k result now s) now s₀) new ∧
      (new ≠ none → (planOf env k result now s).successors ≠ []) ∧
      ∀ key ∈ (planOf env k result now s).successors, s.jobs.get? key = none →
        new = some (successorJob env (planOf env k result now s) now key) := by
  obtain ⟨hrm, hrk⟩ := Table.get?_eq_some.mp hrow
  have hget := materialized_get? env k result (planOf env k result now s) now s₀
  rw [hj, ← closeIfDone_jobs k.runId now] at hget
  have hskey : (settledRow env k result (planOf env k result now s) now s₀).key = row.key :=
    (settledRow_key ..).trans hrk.symm
  rcases planOf_successors env k result now s with hs | ⟨succ, hs⟩
  · refine ⟨none, ⟨hrm, hskey, fun key => ?_, fun _ h => by cases h⟩, fun h => absurd rfl h, ?_⟩
    · rw [hget, hrk, hs, if_neg List.not_mem_nil, Option.filter_none]
    · rw [hs]
      intro key hk
      cases hk
  · cases hold : s.jobs.get? succ with
    | some i =>
      refine ⟨none, ⟨hrm, hskey, fun key => ?_, fun _ h => by cases h⟩, fun h => absurd rfl h, ?_⟩
      · rw [hget, hrk, hs, Option.filter_none]
        split
        · rfl
        · split
          · rename_i hk
            rw [List.mem_singleton.mp hk, hold]
            rfl
          · rfl
      · rw [hs]
        intro key hk hn
        rw [List.mem_singleton.mp hk, hold] at hn
        cases hn
    | none =>
      refine ⟨some (successorJob env (planOf env k result now s) now succ),
        ⟨hrm, hskey, fun key => ?_, ?_⟩, fun _ => by rw [hs]; exact List.cons_ne_nil _ _, ?_⟩
      · rw [hget, hrk, hs]
        simp only [List.mem_singleton, Option.filter_some, decide_eq_true_eq]
        have hkey : (successorJob env (planOf env k result now s) now succ).key = succ := rfl
        rw [hkey]
        by_cases hk : key = succ
        · rw [hk, if_pos rfl]
        · rw [if_neg hk, if_neg fun e : succ = key => hk e.symm]
      · rintro _ ⟨⟩
        refine ⟨?_, rfl, hold⟩
        rw [hrk]
        exact planOf_runId (hs ▸ List.mem_singleton_self succ)
      · rw [hs]
        intro key hk _
        rw [List.mem_singleton.mp hk]

theorem materialize_workInv (hi : WorkInv w) (k : JobKey) (result : StageResult) (now : DateTime) :
    WorkInv (workStep env w (.materialize k result now)) := by
  have hl := inv_step env w.store (.materializeResult k result now) hi.lease
  have ho := owned_step env w.store (.materializeResult k result now) hi.owned
  by_cases hdue : (k, result) ∈ w.due
  · cases hs : materializeResult env k result now w.store with
    | error e =>
      rw [workStep, if_pos hdue, hs]
      exact hi
    | ok r =>
      rw [workStep, if_pos hdue, hs]
      obtain ⟨keys, s'⟩ := r
      rw [apply, hs, committed_ok] at hl ho
      obtain ⟨s₀, -, hs₀, -, rfl⟩ := materializeResult_ok hs
      obtain ⟨hj, -, -⟩ := ensureRun_jobs hs₀
      obtain ⟨hoff, row, hrm, hrk, hf⟩ := hi.due _ hdue
      have hrk : row.key = k := hrk
      have hrow : w.store.jobs.get? k = some row := Table.get?_eq_some.mpr ⟨hrm, hrk⟩
      obtain ⟨new, ht, hnew, hsucc⟩ := materialize_touches env result now hrow hj
      obtain ⟨hnp, hclosed⟩ := settledStatus_closed env now w.store (hj ▸ hrow) hf
      rw [← settledRow_status env k result _ now s₀] at hnp hclosed
      have hne : ∀ e ∈ w.due.erase (k, result), e ∈ w.due ∧ e.1 ≠ row.key := by
        intro e he
        rw [(List.Nodup.of_map _ hi.dueOnce).mem_erase_iff] at he
        refine ⟨he.2, fun hk => he.1 ?_⟩
        exact List.inj_on_of_nodup_map hi.dueOnce he.2 hdue (hk.trans hrk)
      refine hi.touches ht hl ho (.inr (hrk ▸ List.mem_map_of_mem hdue))
        (fun k' => (or_iff_left_of_imp fun hk => hk ▸ hrk ▸ hoff).symm) hi.once
        (fun k' hk' hm => ?_) (fun hp => absurd hp hnp) (fun e he => .inl (hne e he))
        (hi.dueOnce.sublist (List.erase_sublist.map _)) (fun hn => hclosed (hnew hn))
        (fun p hp => ?_)
      · obtain ⟨r, hr, hret⟩ := mem_requeued.mp hm
        refine mem_requeued.mpr ⟨r, (List.mem_erase_of_ne fun e => hk' ?_).mpr hr, hret⟩
        rw [hrk]
        exact congrArg Prod.fst e
      · rcases List.mem_append.mp hp with hp | hp
        · obtain ⟨hm, hn, hne'⟩ := planPostpones_mem hp
          refine .inr ⟨hne', ?_⟩
          cases hold : w.store.jobs.get? p.1 with
          | none =>
            -- the successor is new and carries the postponement, unless it is a retrospective
            refine ⟨_, ht.mem_new (hsucc p.1 hm hold), rfl, .inr ?_⟩
            by_cases hst : p.1.stage = "retrospective"
            · exact .inl hst
            · exact .inr ((if_neg hst).trans hn)
          | some i =>
            -- the job was there: it is the source, or the run has left it behind
            obtain ⟨him, hik⟩ := Table.get?_eq_some.mp hold
            rcases ht.kept him with ⟨rfl, hm'⟩ | ⟨hk', hm'⟩
            · exact ⟨_, hm', ht.key.trans hik, .inl (hik ▸ hrk ▸ hoff)⟩
            · refine ⟨i, hm', hik, .inl ?_⟩
              by_contra hnot
              have hpend := hi.fresh i him (hik ▸ hnot)
              refine hk' (hi.single i.key row.key (.inl ⟨i, him, rfl, by rw [hpend]; rfl⟩)
                (.inr (hrk ▸ List.mem_map_of_mem hdue)) ?_)
              rw [hik, hrk]
              exact planOf_runId hm
        · exact .inl hp
  · rw [workStep, if_neg hdue]
    exact hi

/-- A step that inserts at most the first job of a new run, and changes no status and no `not_before`
of the others. -/
theorem WorkInv.of_kept (hi : WorkInv w) {s' : Store} (hl : Inv s') (ho : Owned s')
    (hkept : ∀ j, j ∈ w.store.jobs → ∃ j', j' ∈ s'.jobs ∧ j'.key = j.key ∧
      j'.status = j.status ∧ j'.notBefore = j.notBefore)
    (hcame : ∀ j', j' ∈ s'.jobs → (∃ j, j ∈ w.store.jobs ∧ j.key = j'.key ∧ j'.status = j.status) ∨
      (j'.status = .pending ∧ (∀ j, j ∈ w.store.jobs → j.key.runId ≠ j'.key.runId) ∧
        ∀ j, j ∈ s'.jobs → j.key.runId = j'.key.runId → j.key = j'.key)) :
    WorkInv { w with store := s' } := by
  have hlive : ∀ k, ({ w with store := s' } : WorkLog).Live k → w.Live k ∨
      ((∀ j, j ∈ w.store.jobs → j.key.runId ≠ k.runId) ∧ ∀ j, j ∈ s'.jobs → j.key.runId = k.runId → j.key = k) := by
    rintro k (⟨j', hj', rfl, hs⟩ | hk)
    · rcases hcame j' hj' with ⟨j, hj, hk, he⟩ | ⟨-, hnew⟩
      · exact .inl (.inl ⟨j, hj, hk, he ▸ hs⟩)
      · exact .inr hnew
    · exact .inl (.inr hk)
  -- a live key is the key of a job
  have hjob : ∀ k, w.Live k → ∃ j, j ∈ w.store.jobs ∧ j.key = k := by
    rintro k (⟨j, hj, hk, -⟩ | hk)
    · exact ⟨j, hj, hk⟩
    · obtain ⟨e, he, rfl⟩ := List.mem_map.mp hk
      obtain ⟨-, j, hj, hk, -⟩ := hi.due e he
      exact ⟨j, hj, hk⟩
  refine ⟨hl, ho, hi.once, fun k hk => ?_, fun j' hj' hn => ?_, fun e he => ?_, hi.dueOnce,
    fun k k' hk hk' hr => ?_, fun p hp => ?_⟩
  · obtain ⟨j, hj, hjk, hs⟩ := hi.offered k hk
    obtain ⟨j', hj', hk', hs', -⟩ := hkept j hj
    exact ⟨j', hj', hk'.trans hjk, fun hp => hs (hs' ▸ hp)⟩
  · rcases hcame j' hj' with ⟨j, hj, hk, hs⟩ | ⟨hs, -⟩
    · rw [hs]
      refine hi.fresh j hj ?_
      rw [hk]
      exact hn
    · exact hs
  · obtain ⟨hm, j, hj, hjk, hs⟩ := hi.due e he
    obtain ⟨j', hj', hk', hs', -⟩ := hkept j hj
    exact ⟨hm, j', hj', hk'.trans hjk, hs'.symm ▸ hs⟩
  · rcases hlive k hk with hl₁ | ⟨hn, hone⟩
    · rcases hlive k' hk' with hl₂ | ⟨hn, -⟩
      · exact hi.single k k' hl₁ hl₂ hr
      · obtain ⟨j, hj, rfl⟩ := hjob k hl₁
        exact absurd hr (hn j hj)
    · rcases hlive k' hk' with hl₂ | ⟨-, hone'⟩
      · obtain ⟨j, hj, rfl⟩ := hjob k' hl₂
        exact absurd hr.symm (hn j hj)
      · rcases hk with ⟨j, hj, rfl, -⟩ | hk
        · exact hone' j hj hr
        · obtain ⟨j, hj, rfl⟩ := hjob k (.inr hk)
          exact absurd rfl (hn j hj)
  · obtain ⟨hne, j, hj, hjk, h⟩ := hi.postponed p hp
    obtain ⟨j', hj', hk', -, hb⟩ := hkept j hj
    exact ⟨hne, j', hj', hk'.trans hjk, by rw [hb]; exact h⟩

theorem accept_workInv (hi : WorkInv w) (command : IntakeCommand) (ids : IntakeIds)
    (now : DateTime) : WorkInv (workStep env w (.accept command ids now)) := by
  have hl := inv_step env w.store (.accept command ids now) hi.lease
  have ho := owned_step env w.store (.accept command ids now) hi.owned
  cases hs : accept command ids now w.store with
  | error e =>
    simp only [workStep, apply, hs, committed_error]
    exact hi
  | ok r =>
    obtain ⟨receipt, s'⟩ := r
    simp only [apply, hs, committed_ok] at hl ho
    simp only [workStep, apply, hs, committed_ok]
    rcases accept_ok hs with rfl | ⟨-, e, hj, -⟩ | ⟨-, -, hj, -⟩
    · exact hi
    · have hfresh : ∀ j, j ∈ w.store.jobs → j.key.runId ≠ "run-" ++ ids.run := by
        intro j hjm hid
        have hnone := Table.insert?_fresh (insertRun_eq_some e)
        exact hi.owned j hjm (hid ▸ hnone)
      refine hi.of_kept hl ho (fun j hjm => ?_) fun j' hj' => ?_
      · exact ⟨j, (Table.mem_of_insert? hj).mpr (.inl hjm), rfl, rfl, rfl⟩
      · rcases (Table.mem_of_insert? hj).mp hj' with hj' | rfl
        · exact .inl ⟨j', hj', rfl, rfl⟩
        · refine .inr ⟨rfl, hfresh, fun j hjm hid => ?_⟩
          rcases (Table.mem_of_insert? hj).mp hjm with hjm | rfl
          · exact absurd hid (hfresh j hjm)
          · rfl
    · refine hi.of_kept hl ho (fun j hjm => ⟨j, hj.symm ▸ hjm, rfl, rfl, rfl⟩) fun j' hj' => ?_
      exact .inl ⟨j', hj ▸ hj', rfl, rfl⟩

theorem unexpired_not_expires {s : Store} {op : Op} (h : op.keepsWork s = true) (he : op.expiresReservations = true) :
    ∀ r, r ∈ s.fleetReservations → ¬ Expires s op r := by
  have hlive : ∀ {now}, s.unexpired now = true → ∀ r, r ∈ s.fleetReservations →
      r.status.isLive = true → r.expiresAt.le now = false ∧ r.expiresAt.textLe now = false := by
    intro now hu r hr hl
    rw [Store.unexpired, Bool.not_eq_true', Table.any_eq_false] at hu
    have := hu r hr
    rw [hl, Bool.true_and, Bool.or_eq_false_iff] at this
    exact this
  intro r hr hx
  cases op with
  | reserveCycle request id now =>
    obtain ⟨hl, ht⟩ := Bool.and_eq_true_iff.mp hx.2
    rw [(hlive h r hr hl).2] at ht
    cases ht
  | heartbeatReservation reservationId fencingToken now leaseDurationSec =>
    have hb : BeatsExpired reservationId fencingToken now r := hx
    have := hb.expired
    rw [(hlive h r hr hb.live).1] at this
    cases this
  | reconcileFleetReservations now cycles => cases h
  | _ => cases he

/-- The other calls change no status and no `not_before`. -/
theorem keepsWork_mapped (env : Env) {s : Store} {op : Op} (h : op.keepsWork s = true) :
    ∃ F, s.jobs.Mapped F (apply env s op).jobs ∧ ∀ j, (F j).status = j.status ∧ (F j).notBefore = j.notBefore := by
  have same : ∀ {s' : Store}, s'.jobs = s.jobs → ∃ F, s.jobs.Mapped F s'.jobs ∧
      ∀ j, (F j).status = j.status ∧ (F j).notBefore = j.notBefore := fun e =>
    ⟨fun j => j, e ▸ .refl, fun _ => ⟨rfl, rfl⟩⟩
  cases he : op.expiresReservations with
  | true =>
    obtain ⟨now, E, hq, hE⟩ := (apply_expires env s op he).requeues
    have hnone : ∀ runId, E runId = false := by
      intro runId
      rw [← Bool.not_eq_true, hE]
      rintro ⟨r, hr, hx, -⟩
      exact unexpired_not_expires h he r hr hx
    refine ⟨fun j => j, hq.jobs.congr fun j _ => ?_, fun _ => ⟨rfl, rfl⟩⟩
    rw [hnone, Bool.false_and]
    rfl
  | false =>
    cases op with
    | heartbeat c now =>
      cases hs : heartbeat env c now s with
      | error e => exact same (by rw [apply, hs, committed_error])
      | ok r =>
        obtain ⟨c', s'⟩ := r
        rw [apply, hs, committed_ok]
        obtain ⟨-, -, -, -, -, hb⟩ := heartbeat_ok hs
        cases hb
        exact ⟨_, (Table.mapped_update (h := by intro _; rfl)), fun j => by split <;> exact ⟨rfl, rfl⟩⟩
    | recordOperation operation c clock =>
      refine same ?_
      cases hs : recordOperation operation c clock s with
      | error e => rw [apply, hs]; rfl
      | ok s' =>
        obtain ⟨-, -, -, -, -, rfl⟩ := recordOperation_ok hs
        rw [apply, hs]
        rfl
    | releaseReservation reservationId fencingToken status now =>
      refine same ?_
      cases hs : releaseReservation reservationId fencingToken status now s with
      | error e => rw [apply, hs, committed_error]
      | ok r =>
        obtain ⟨r, s'⟩ := r
        rw [apply, hs, committed_ok]
        rcases releaseReservation_ok hs with rfl | ⟨st, -, rfl⟩
        · rfl
        · rfl
    | drainHost hostId reason => exact same rfl
    | renewOpenRunReservations now pendingGraceSec => exact same rfl
    | reserveCycle | heartbeatReservation => cases he
    | _ => cases h

theorem other_workInv (hi : WorkInv w) (op : Op) : WorkInv (workStep env w (.other op)) := by
  by_cases hk : op.keepsWork w.store = true
  · rw [workStep, if_pos hk]
    obtain ⟨F, hF, hsame⟩ := keepsWork_mapped env hk
    refine hi.of_kept (inv_step env w.store op hi.lease) (owned_step env w.store op hi.owned)
      (fun j hj => ?_) fun j' hj' => ?_
    · exact ⟨F j, hF.mem_of hj, hF.key_eq j hj, (hsame j).1, (hsame j).2⟩
    · obtain ⟨j, hj, rfl⟩ := hF.mem hj'
      exact .inl ⟨j, hj, (hF.key_eq j hj).symm, (hsame j).1⟩
  · rw [workStep, if_neg hk]
    exact hi

end

theorem workStep_offered (env : Env) (w : WorkLog) (op : WorkOp) :
    (workStep env w op).offered = ((offer env w op).map Prod.fst).toList ++ w.offered := by
  unfold workStep
  split
  · rfl
  · rfl
  · split
    · rfl
    · rfl
  · split
    · split
      · rfl
      · rfl
    · rfl
  · split
    · rfl
    · rfl

theorem workInv_step (env : Env) (w : WorkLog) (op : WorkOp) (hi : WorkInv w)
    (hc : OutsideWindow env w op) : WorkInv (workStep env w op) := by
  cases op with
  | accept command ids now => exact accept_workInv hi command ids now
  | claim worker capabilities now readyAgeSec ids => exact claim_workInv hi hc
  | finish c result now => exact finish_workInv hi c result now
  | materialize k result now => exact materialize_workInv hi k result now
  | other op => exact other_workInv hi op

theorem workInv_empty : WorkInv { store := .empty } where
  lease := .empty
  owned _ hj := absurd hj Table.not_mem_empty
  once := List.nodup_nil
  offered _ h := absurd h List.not_mem_nil
  fresh _ hj := absurd hj Table.not_mem_empty
  due _ h := absurd h List.not_mem_nil
  dueOnce := List.nodup_nil
  single _ _ h := by
    rcases h with ⟨j, hj, -⟩ | h
    · exact absurd hj Table.not_mem_empty
    · exact absurd h List.not_mem_nil
  postponed _ h := absurd h List.not_mem_nil

/-- In every interleaving of the workers, every key is offered at most once and no postponed work ahead
of time, exactly when every claim meets the condition. -/
theorem offered_once_iff (env : Env) (ops : List WorkOp) :
    (∀ m ∈ Runs.moves (workStep env) { store := .empty } ops, OfferedOnce env m) ↔
      ∀ m ∈ Runs.moves (workStep env) { store := .empty } ops, OutsideWindow env m.pre m.act :=
  Runs.moves_forall_iff (fun w op hi => offered_once_step hi op (workStep_offered env w op))
    (fun w op hi hc => workInv_step env w op hi hc) workInv_empty ops

instance (env : Env) (m : Move WorkLog WorkOp) : Decidable (OfferedOnce env m) :=
  inferInstanceAs (Decidable (_ ∧ ∀ o ∈ offer env m.pre m.act, ∀ p ∈ m.pre.postponed, _))

/-- A second worker claims the job of a retry before its result is materialized: the same key again, an
hour before its `not_before`. -/
theorem retried_job_offered_again :
    let env : Env := { Env.sample with fromisoformat := fun _ => some (utc 3600) }
    let result := StageResult.sampleRetry
      (some "ci_pending:not_before=2024-01-01T01:00:00+00:00")
    let ops : List WorkOp :=
      [.accept .sample ⟨"d1", "r1", "j1"⟩ (utc 0),
        .claim "worker-1" [] (utc 1) 0 ⟨"l1", "v1"⟩,
        .finish (.sample (.sample "grill" 0) 1 "l1" "v1" 1) result (utc 2),
        .claim "worker-2" [] (utc 3) 0 ⟨"l2", "v2"⟩]
    (Runs.run (workStep env) { store := .empty } ops).offered =
        [.sample "grill" 0, .sample "grill" 0] ∧
      ¬ ∀ m ∈ Runs.moves (workStep env) { store := .empty } ops, OfferedOnce env m := by
  decide +kernel

end Sqlite
end Control
end DarkFactory
