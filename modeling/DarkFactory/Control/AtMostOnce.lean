import DarkFactory.Control.FleetSpec
import DarkFactory.Control.RunActivity

/-!
# DarkFactory.Control.AtMostOnce

At most once: any number of workers claim, finish and materialize in any interleaving, no lease or
reservation expires, and no waiting job is resumed. `WorkLog` is the store with the results that are
due for materialization, the keys claim has returned, and the work retries have postponed.

finish('retry') makes its job pending again, and materialize_result closes it in a transaction of its
own. A claim between the two offers the job a second time.

* `WorkInv` — what a job's status says about whether it was offered, and about its results.
-/

namespace DarkFactory
namespace Control

structure WorkLog where
  store : Store
  /-- The results finish has committed and materialize_result has not. -/
  due : List (JobKey × StageResult) := []
  /-- The keys claim has returned. -/
  offered : List JobKey := []
  /-- The work a retry has postponed, and its `not_before`. -/
  postponed : List (JobKey × String) := []

def WorkLog.requeued (w : WorkLog) : List JobKey :=
  (w.due.filter fun e => decide (e.2.outcome = .retry)).map Prod.fst

def WorkLog.Live (w : WorkLog) (k : JobKey) : Prop :=
  (∃ j, j ∈ w.store.jobs ∧ j.key = k ∧ j.status.isOpen = true) ∨ k ∈ w.due.map Prod.fst

inductive WorkOp where
  | accept (command : IntakeCommand) (ids : Sqlite.IntakeIds) (now : DateTime)
  | claim (worker : String) (capabilities : List String) (now : DateTime) (readyAgeSec : Rat)
      (ids : Sqlite.ClaimIds)
  | finish (claim : Claim) (result : StageResult) (now : DateTime)
  | materialize (key : JobKey) (result : StageResult) (now : DateTime)
  /-- A heartbeat, an operation record or a call about reservations. -/
  | other (op : Op)

/-- No live reservation has expired, as the clock reads or as its text does. -/
def Store.unexpired (s : Store) (now : DateTime) : Bool :=
  !s.fleetReservations.any fun r =>
    r.status.isLive && (r.expiresAt.le now || r.expiresAt.textLe now)

def Op.keepsWork (s : Store) : Op → Bool
  | .heartbeat .. | .recordOperation .. | .releaseReservation .. | .drainHost ..
  | .renewOpenRunReservations .. => true
  | .reserveCycle _ _ now | .heartbeatReservation _ _ now _ => s.unexpired now
  | _ => false

namespace Sqlite

def offer (env : Env) (w : WorkLog) : WorkOp → Option (JobKey × DateTime)
  | .claim worker capabilities now readyAgeSec ids =>
    match claim env worker capabilities now readyAgeSec ids w.store with
    | .ok (some c, _) => some (c.jobKey, now)
    | _ => none
  | _ => none

def retryPostpones (key : JobKey) (result : StageResult) : List (JobKey × String) :=
  if result.outcome = .retry then
    ((parseRetryCauseCode result.causeCode).2.map fun notBefore => (key, notBefore)).toList
  else []

def planPostpones (plan : Plan) : List (JobKey × String) :=
  match plan.retryNotBefore with
  | none => []
  | some notBefore => plan.successors.map fun key => (key, notBefore)

def workStep (env : Env) (w : WorkLog) : WorkOp → WorkLog
  | .accept command ids now => { w with store := apply env w.store (.accept command ids now) }
  | .claim worker capabilities now readyAgeSec ids =>
    { w with
      store := apply env w.store (.claim worker capabilities now readyAgeSec ids)
      offered := ((offer env w (.claim worker capabilities now readyAgeSec ids)).map
        Prod.fst).toList ++ w.offered }
  | .finish c result now =>
    match finish env c result now w.store with
    | .error _ => w
    | .ok s =>
      { w with
        store := s
        due := (c.jobKey, result) :: w.due
        postponed := retryPostpones c.jobKey result ++ w.postponed }
  | .materialize key result now =>
    if (key, result) ∈ w.due then
      match materializeResult env key result now w.store with
      | .error _ => w
      | .ok (_, s) =>
        { w with
          store := s
          due := w.due.erase (key, result)
          postponed := planPostpones (planOf env key result now w.store) ++ w.postponed }
    else w
  | .other op => if op.keepsWork w.store then { w with store := apply env w.store op } else w

/-- The time of `notBefore` lies ahead. -/
def notReached (env : Env) (now : DateTime) (notBefore : String) : Bool :=
  match env.fromisoformat notBefore with
  | none => false
  | some t => now.lt t

/-- Every key has been returned at most once, and no claim returned postponed work ahead of time. -/
def OfferedOnce (env : Env) (m : Move WorkLog WorkOp) : Prop :=
  m.post.offered.Nodup ∧ ∀ o ∈ offer env m.pre m.act, ∀ p ∈ m.pre.postponed, p.1 = o.1 →
    notReached env o.2 p.2 = false

/-- No claim takes a job between finish('retry') and its materialize_result, nor a retrospective that
is still postponed. -/
def OutsideWindow (env : Env) (w : WorkLog) (op : WorkOp) : Prop :=
  ∀ o ∈ offer env w op, o.1 ∉ w.requeued ∧
    (o.1.stage = "retrospective" → ∀ p ∈ w.postponed, p.1 = o.1 → notReached env o.2 p.2 = false)

def FinishedAs (result : StageResult) (status : JobStatus) : Prop :=
  match result.outcome with
  | .retry => status = .pending ∨ status = .failed
  | outcome => status = outcome.dbStatus

structure WorkInv (w : WorkLog) : Prop where
  lease : Inv w.store
  owned : Owned w.store
  once : w.offered.Nodup
  /-- An offered job is pending again only while its retry is due. -/
  offered : ∀ k ∈ w.offered, ∃ j, j ∈ w.store.jobs ∧ j.key = k ∧ (j.status = .pending → k ∈ w.requeued)
  /-- A job that was never offered is pending. -/
  fresh : ∀ j, j ∈ w.store.jobs → j.key ∉ w.offered → j.status = .pending
  due : ∀ e ∈ w.due, e.1 ∈ w.offered ∧ ∃ j, j ∈ w.store.jobs ∧ j.key = e.1 ∧ FinishedAs e.2 j.status
  dueOnce : (w.due.map Prod.fst).Nodup
  single : ∀ k k', w.Live k → w.Live k' → k.runId = k'.runId → k = k'
  /-- Postponed work was offered before, is a retrospective, or is behind its `not_before`. -/
  postponed : ∀ p ∈ w.postponed, p.2 ≠ "" ∧ ∃ j, j ∈ w.store.jobs ∧ j.key = p.1 ∧
    (p.1 ∈ w.offered ∨ p.1.stage = "retrospective" ∨ j.notBefore = some p.2)

/-- What is done to one job, `row`, which becomes `row'`, next to the insertion of at most one new
job of its run. -/
structure Touches (s s' : Store) (row row' : Job) (new : Option Job) : Prop where
  mem : row ∈ s.jobs
  key : row'.key = row.key
  get? : ∀ key, s'.jobs.get? key = if key = row.key then some row'
    else (s.jobs.get? key).or (new.filter fun j => decide (j.key = key))
  fresh : ∀ j, new = some j → j.key.runId = row.key.runId ∧ j.status = .pending ∧ s.jobs.get? j.key = none

namespace Touches

variable {s s' : Store} {row row' : Job} {new : Option Job}

theorem mem_row (h : Touches s s' row row' new) : row' ∈ s'.jobs :=
  Table.mem_of_get? ((h.get? row.key).trans (if_pos rfl))

theorem mem_new (h : Touches s s' row row' new) {j : Job} (hj : new = some j) : j ∈ s'.jobs := by
  obtain ⟨-, -, hnone⟩ := h.fresh j hj
  refine Table.mem_of_get? (k := j.key) ?_
  rw [h.get?, if_neg, hnone, hj]
  · simp
  · intro hk
    rw [hk, Table.get?_of_mem h.mem] at hnone
    cases hnone

theorem mem_old (h : Touches s s' row row' new) {j : Job} (hj : j ∈ s.jobs)
    (hk : j.key ≠ row.key) : j ∈ s'.jobs := by
  refine Table.mem_of_get? (k := j.key) ?_
  rw [h.get?, if_neg hk, Table.get?_of_mem hj, Option.some_or]

theorem cases (h : Touches s s' row row' new) {j : Job} (hj : j ∈ s'.jobs) :
    j = row' ∨ (j ∈ s.jobs ∧ j.key ≠ row.key) ∨ new = some j := by
  have hget := Table.get?_of_mem hj
  rw [h.get?] at hget
  split at hget
  · exact .inl (Option.some.inj hget).symm
  · rename_i hk
    cases hold : s.jobs.get? j.key with
    | some i =>
      rw [hold, Option.some_or, Option.some.injEq] at hget
      exact .inr (.inl ⟨hget ▸ Table.mem_of_get? hold, hk⟩)
    | none =>
      rw [hold, Option.none_or, Option.filter_eq_some_iff] at hget
      exact .inr (.inr hget.1)

/-- A job of before is still there, as `row'` or as it was. -/
theorem kept (h : Touches s s' row row' new) {j : Job} (hj : j ∈ s.jobs) :
    (j = row ∧ row' ∈ s'.jobs) ∨ (j.key ≠ row.key ∧ j ∈ s'.jobs) := by
  by_cases hk : j.key = row.key
  · exact .inl ⟨Table.eq_of_key hj h.mem hk, h.mem_row⟩
  · exact .inr ⟨hk, h.mem_old hj hk⟩

end Touches

namespace WorkInv

variable {w w' : WorkLog}

/-- A step that works on one live job, and passes its run on to the new job only when it closes the
old one, keeps the invariant. -/
theorem touches {row row' : Job} {new : Option Job} (hi : WorkInv w)
    (ht : Touches w.store w'.store row row' new) (hl : Inv w'.store) (ho : Owned w'.store)
    (hlive : w.Live row.key)
    (hoff : ∀ k, k ∈ w'.offered ↔ k ∈ w.offered ∨ k = row.key) (honce : w'.offered.Nodup)
    (hreq : ∀ k, k ≠ row.key → k ∈ w.requeued → k ∈ w'.requeued)
    (hrow : row'.status = .pending → row.key ∈ w'.requeued)
    (hdue : ∀ e ∈ w'.due, (e ∈ w.due ∧ e.1 ≠ row.key) ∨ (e.1 = row.key ∧ FinishedAs e.2 row'.status ∧ new = none))
    (hdueOnce : (w'.due.map Prod.fst).Nodup)
    (hnew : new ≠ none → row'.status.isOpen = false)
    (hpost : ∀ p ∈ w'.postponed, p ∈ w.postponed ∨ (p.2 ≠ "" ∧ ∃ j, j ∈ w'.store.jobs ∧
      j.key = p.1 ∧ (p.1 ∈ w'.offered ∨ p.1.stage = "retrospective" ∨ j.notBefore = some p.2))) :
    WorkInv w' := by
  -- the live jobs: the ones of other runs, and one of this run
  have hlive' : ∀ k, w'.Live k → (w.Live k ∧ k.runId ≠ row.key.runId) ∨
      (k.runId = row.key.runId ∧ ((new = none ∧ k = row.key) ∨ ∃ j, new = some j ∧ j.key = k)) := by
    have hother : ∀ k, w.Live k → k ≠ row.key → w.Live k ∧ k.runId ≠ row.key.runId :=
      fun k hk hne => ⟨hk, fun hr => hne (hi.single k row.key hk hlive hr)⟩
    rintro k (⟨j, hj, rfl, hs⟩ | hk)
    · rcases ht.cases hj with rfl | ⟨hj, hne⟩ | hj
      · refine .inr ⟨by rw [ht.key], .inl ⟨?_, ht.key⟩⟩
        by_contra hn
        rw [hnew hn] at hs
        cases hs
      · exact .inl (hother _ (.inl ⟨j, hj, rfl, hs⟩) hne)
      · exact .inr ⟨(ht.fresh j hj).1, .inr ⟨j, hj, rfl⟩⟩
    · obtain ⟨e, he, rfl⟩ := List.mem_map.mp hk
      rcases hdue e he with ⟨he, hne⟩ | ⟨hk, -, hn⟩
      · exact .inl (hother _ (.inr (List.mem_map_of_mem he)) hne)
      · exact .inr ⟨by rw [hk], .inl ⟨hn, hk⟩⟩
  refine ⟨hl, ho, honce, fun k hk => ?_, fun j hj hn => ?_, fun e he => ?_, hdueOnce,
    fun k k' hk hk' hr => ?_, fun p hp => ?_⟩
  · by_cases hkr : k = row.key
    · exact ⟨row', ht.mem_row, by rw [ht.key, hkr], fun hs => hkr ▸ hrow hs⟩
    · obtain ⟨j, hj, hjk, hs⟩ := hi.offered k (((hoff k).mp hk).resolve_right hkr)
      exact ⟨j, ht.mem_old hj (hjk ▸ hkr), hjk, fun hp => hreq k hkr (hs hp)⟩
  · rcases ht.cases hj with rfl | ⟨hj, hne⟩ | hj
    · exact absurd ((hoff _).mpr (.inr ht.key)) hn
    · exact hi.fresh j hj fun hm => hn ((hoff _).mpr (.inl hm))
    · exact (ht.fresh j hj).2.1
  · rcases hdue e he with ⟨he, hne⟩ | ⟨hk, hs, -⟩
    · obtain ⟨hm, j, hj, hjk, hs⟩ := hi.due e he
      exact ⟨(hoff _).mpr (.inl hm), j, ht.mem_old hj (hjk ▸ hne), hjk, hs⟩
    · exact ⟨(hoff _).mpr (.inr hk), row', ht.mem_row, ht.key.trans hk.symm, hs⟩
  · rcases hlive' k hk with ⟨hk, hne⟩ | ⟨hkr, h⟩
    · rcases hlive' k' hk' with ⟨hk', -⟩ | ⟨hkr', -⟩
      · exact hi.single k k' hk hk' hr
      · exact absurd (hr.trans hkr') hne
    · rcases hlive' k' hk' with ⟨-, hne'⟩ | ⟨-, h'⟩
      · exact absurd (hr.symm.trans hkr) hne'
      · rcases h with ⟨hn, rfl⟩ | ⟨j, hj, rfl⟩
        · rcases h' with ⟨-, rfl⟩ | ⟨j', hj', -⟩
          · rfl
          · cases hn.symm.trans hj'
        · rcases h' with ⟨hn, -⟩ | ⟨j', hj', rfl⟩
          · cases hn.symm.trans hj
          · rw [Option.some.inj (hj.symm.trans hj')]
  · rcases hpost p hp with hp | hp
    · obtain ⟨hne, j, hj, hjk, h⟩ := hi.postponed p hp
      refine ⟨hne, ?_⟩
      rcases ht.kept hj with ⟨rfl, hm⟩ | ⟨hk, hm⟩
      · exact ⟨row', hm, ht.key.trans hjk, .inl ((hoff _).mpr (.inr hjk.symm))⟩
      · exact ⟨j, hm, hjk, h.imp_left fun hm => (hoff _).mpr (.inl hm)⟩
    · exact hp

end WorkInv

end Sqlite
end Control
end DarkFactory
