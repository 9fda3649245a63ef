import DarkFactory.Control.LeaseRuns

/-!
# DarkFactory.Control.Effects

What the operations of the SQLite store do to the tables `jobs` and `runs` as wholes. Five of them
write `runs`, and two of these insert jobs; all the others change rows of `jobs` in place and leave
`runs` alone (`apply_inPlace`). No operation deletes a run (`apply_runs_kept`).
-/

namespace DarkFactory
namespace Control

def Op.insertsJobs : Op → Bool
  | .accept .. | .materializeResult .. => true
  | _ => false

def Op.writesRuns : Op → Bool
  | .accept .. | .finish .. | .resumeJob .. | .cancelRun .. | .materializeResult .. => true
  | _ => false

def Op.writesReservations : Op → Bool
  | .claim .. | .cancelRun .. | .reserveCycle .. | .heartbeatReservation ..
  | .releaseReservation .. | .drainHost .. | .renewOpenRunReservations ..
  | .reconcileFleetReservations .. => true
  | _ => false

namespace Sqlite

/-- Rows of `jobs` changed in place, and `runs` is as before. -/
structure InPlace (s s' : Store) : Prop where
  jobs : ∃ F, s.jobs.Mapped F s'.jobs
  runs : s'.runs = s.runs

namespace InPlace

theorem of_eq {s s' : Store} (hj : s'.jobs = s.jobs) (hr : s'.runs = s.runs) : InPlace s s' :=
  ⟨⟨fun j => j, hj ▸ .refl⟩, hr⟩

theorem refl (s : Store) : InPlace s s := of_eq rfl rfl

theorem trans {s s' s'' : Store} (h₁ : InPlace s s') (h₂ : InPlace s' s'') : InPlace s s'' := by
  obtain ⟨⟨F, hF⟩, hr⟩ := h₁
  obtain ⟨⟨G, hG⟩, hr'⟩ := h₂
  exact ⟨⟨_, hF.trans hG⟩, hr'.trans hr⟩

theorem foldl {α : Type} {f : Store → α → Store} (hf : ∀ s a, InPlace s (f s a))
    (as : List α) (s : Store) : InPlace s (as.foldl f s) := by
  induction as generalizing s with
  | nil => exact refl s
  | cons a as ih => exact (hf s a).trans (ih (f s a))

end InPlace

theorem requeueExpiredFleetRun_inPlace (runId : String) (now : DateTime) (s : Store) :
    InPlace s (requeueExpiredFleetRun runId now s) :=
  ⟨⟨_, Table.mapped_update (h := fleetRequeued_key now)⟩, rfl⟩

theorem expireFleetReservations_inPlace (now : DateTime) (s : Store) :
    InPlace s (expireFleetReservations now s) := by
  have h₀ : InPlace s { s with
      fleetReservations := s.fleetReservations.update (isExpiring now) expired expired_id } :=
    .of_eq rfl rfl
  exact h₀.trans (.foldl (fun s runId => requeueExpiredFleetRun_inPlace runId now s) _ _)

theorem setReservation_inPlace (reservationId : String) (f : FleetReservation → FleetReservation)
    (s : Store) (hf : ∀ r, (f r).reservationId = r.reservationId) :
    InPlace s (setReservation reservationId f s hf) := .of_eq rfl rfl

variable {now : DateTime} {s s' : Store}

theorem reserveCycle_ok {request : CycleRequest} {id : String}
    {r : FleetReservation} (h : reserveCycle request id now s = .ok (r, s')) :
    s' = expireFleetReservations now s ∨
      ∃ fleetReservations,
        (expireFleetReservations now s).fleetReservations.insert? (newReservation request id now) =
          some fleetReservations ∧
        s' = { expireFleetReservations now s with fleetReservations := fleetReservations } := by
  unfold reserveCycle at h
  simp only at h
  split at h
  · split at h
    · cases h
      exact .inl rfl
    · cases h
  · split at h
    · cases h
    · split at h
      · cases h
      · split at h
        · cases h
        · rename_i t ht
          cases h
          exact .inr ⟨t, ht, rfl⟩

theorem heartbeatReservation_inPlace (env : Env) (reservationId : String) (fencingToken : Nat)
    (now : DateTime) (leaseDurationSec : Option Int) (s : Store) :
    InPlace s
      (heartbeatReservation env reservationId fencingToken now leaseDurationSec s).2 := by
  unfold heartbeatReservation
  split
  · exact .of_eq rfl rfl
  · split
    · exact .of_eq rfl rfl
    · split
      · exact .of_eq rfl rfl
      · split
        · exact .of_eq rfl rfl
        · split
          · exact (setReservation_inPlace reservationId expired s expired_id).trans
              (requeueExpiredFleetRun_inPlace _ now _)
          · exact .of_eq rfl rfl

theorem reconcileClaim_inPlace (cycle : String) (now : DateTime) (acc : Store × List Repair)
    (c : ClaimRow) : InPlace acc.1 (reconcileClaim cycle now acc c).1 := by
  unfold reconcileClaim
  simp only
  split
  · exact .of_eq rfl rfl
  · split
    · exact ⟨⟨_, Table.mapped_update (h := requeuedJob_key now)⟩, rfl⟩
    · exact .of_eq rfl rfl

theorem reconcile_inPlace (now : DateTime) (limit : Nat) (cycle : String) (s : Store) :
    InPlace s (reconcile now limit cycle s).2 := by
  unfold reconcile
  simp only
  generalize (expiredClaims s now).take limit = cs
  have key : ∀ acc : Store × List Repair,
      InPlace acc.1 (cs.foldl (reconcileClaim ("cycle-" ++ cycle) now) acc).1 := by
    induction cs with
    | nil => exact fun _ => .of_eq rfl rfl
    | cons c cs ih => exact fun acc => (reconcileClaim_inPlace _ now acc c).trans (ih _)
  exact key (s, [])

theorem releaseReservation_ok {reservationId : String} {fencingToken : Nat} {status : String} {r : FleetReservation}
    (h : releaseReservation reservationId fencingToken status now s = .ok (r, s')) :
    s' = s ∨ ∃ st, ReservationStatus.ofString? status = some st ∧
      s' = setReservation reservationId (fun r => { r with status := st, heartbeatAt := now }) s := by
  unfold releaseReservation at h
  split at h
  · cases h
  · split at h
    · cases h
    · split at h
      · cases h
        exact .inl rfl
      · split at h
        · cases h
        · split at h
          · cases h
          · rename_i st hst
            simp only at h
            split at h
            · cases h
            · cases h
              exact .inr ⟨st, hst, rfl⟩

theorem apply_inPlace (env : Env) (s : Store) {op : Op} (h : op.writesRuns = false) :
    InPlace s (apply env s op) := by
  cases op with
  | accept => cases h
  | materializeResult => cases h
  | claim worker capabilities now readyAgeSec ids =>
    refine committed_rel (.refl s) fun c s' hs => ?_
    cases c with
    | none => exact claim_none hs ▸ .refl s
    | some c =>
      obtain ⟨_, _, _, _, _, _, rfl⟩ := claim_ok hs
      exact ⟨⟨_, (Table.mapped_update (h := by intro _; rfl))⟩, rfl⟩
  | heartbeat c now =>
    refine committed_rel (.refl s) fun c' s' hs => ?_
    obtain ⟨_, _, _, _, _, hs⟩ := heartbeat_ok hs
    unfold heartbeat.beat at hs
    cases hs
    exact ⟨⟨_, (Table.mapped_update (h := by intro _; rfl))⟩, rfl⟩
  | finish => cases h
  | reconcile now limit cycle => exact reconcile_inPlace now limit cycle s
  | resumeJob => cases h
  | cancelRun => cases h
  | recordOperation operation c clock =>
    refine toOption_rel (.refl s) fun s' hs => ?_
    obtain ⟨_, _, _, _, _, rfl⟩ := recordOperation_ok hs
    exact .of_eq rfl rfl
  | reserveCycle request id now =>
    refine committed_rel (.refl s) fun r s' hs => ?_
    rcases reserveCycle_ok hs with rfl | ⟨_, _, rfl⟩
    · exact expireFleetReservations_inPlace now s
    · exact (expireFleetReservations_inPlace now s).trans (.of_eq rfl rfl)
  | heartbeatReservation reservationId fencingToken now leaseDurationSec =>
    exact heartbeatReservation_inPlace env reservationId fencingToken now leaseDurationSec s
  | releaseReservation reservationId fencingToken status now =>
    refine committed_rel (.refl s) fun r s' hs => ?_
    rcases releaseReservation_ok hs with rfl | ⟨_, _, rfl⟩
    · exact .of_eq rfl rfl
    · exact .of_eq rfl rfl
  | drainHost hostId reason => exact .of_eq rfl rfl
  | renewOpenRunReservations now pendingGraceSec => exact .of_eq rfl rfl
  | reconcileFleetReservations now cycles =>
    refine .foldl (fun s p => ?_) _ s
    have h₀ := setReservation_inPlace p.1.reservationId expired s expired_id
    exact (h₀.trans (requeueExpiredFleetRun_inPlace p.1.runId now _)).trans (.of_eq rfl rfl)

/-- An operation that inserts no job changes the rows of `jobs` in place. -/
theorem apply_mapped (env : Env) (s : Store) (op : Op) (h : op.insertsJobs = false) :
    ∃ F, s.jobs.Mapped F (apply env s op).jobs := by
  cases hw : op.writesRuns with
  | false => exact (apply_inPlace env s hw).jobs
  | true =>
    cases op with
    | finish c result now =>
      cases hs : finish env c result now s with
      | error e => simpa [apply, hs, Except.toOption] using (InPlace.refl s).jobs
      | ok s' =>
        obtain ⟨_, _, _, _, _, rfl⟩ := finish_ok hs
        simp only [apply, hs, Except.toOption, Option.getD_some, finishApply_jobs]
        exact ⟨_, Table.mapped_update (h := finishRow_key env result now)⟩
    | resumeJob key now =>
      simp only [apply, resumeJob]
      split
      · exact (InPlace.refl s).jobs
      · split
        · exact (InPlace.refl s).jobs
        · exact ⟨_, (Table.mapped_update (h := by intro _; rfl))⟩
    | cancelRun runId reason actor now =>
      simp only [apply, cancelRun]
      split
      · exact (InPlace.refl s).jobs
      · exact ⟨_, Table.mapped_update (h := cancelledJob_key reason now)⟩
    | accept => cases h
    | materializeResult => cases h
    | _ => cases hw

/-- The rows of `runs` only change in place or grow in number. -/
def RunsKept (s s' : Store) : Prop :=
  ∀ r, r ∈ s.runs → ∃ r', r' ∈ s'.runs ∧ r'.runId = r.runId

theorem RunsKept.of_eq (h : s'.runs = s.runs) : RunsKept s s' :=
  fun r hr => ⟨r, h ▸ hr, rfl⟩

theorem RunsKept.of_close {runId : String} {status : RunStatus}
    (h : s'.runs = (s.closeRun runId status now).runs) : RunsKept s s' := by
  intro r hr
  refine ⟨_, h ▸ Store.mem_closeRun.mpr ⟨r, hr, rfl⟩, ?_⟩
  split
  · rfl
  · rfl

theorem RunsKept.of_insert {r₀ : Run} (h : s.runs.insert? r₀ = some s'.runs) : RunsKept s s' :=
  fun r hr => ⟨r, (Table.mem_of_insert? h).mpr (.inl hr), rfl⟩

theorem RunsKept.of_mapped (h : ∃ F, s.runs.Mapped F s'.runs) : RunsKept s s' := by
  obtain ⟨F, hF⟩ := h
  exact fun r hr => ⟨F r, hF.mem_of hr, hF.key_eq r hr⟩

theorem reopenRun_mapped (s : Store) (runId : String) (resetBudget : Bool) (now : DateTime) :
    ∃ F, s.runs.Mapped F (reopenRun s runId resetBudget now) :=
  ⟨_, Table.Mapped.trans Table.mapped_update (Table.mapped_update (h := by intro _; rfl))⟩

theorem RunsKept.trans {s'' : Store} (h₁ : RunsKept s s') (h₂ : RunsKept s' s'') : RunsKept s s'' := by
  intro r hr
  obtain ⟨r', hr', e⟩ := h₁ r hr
  obtain ⟨r'', hr'', e'⟩ := h₂ r' hr'
  exact ⟨r'', hr'', e'.trans e⟩

theorem finishApply_runsKept (env : Env) (c : Claim) (result : StageResult) (now : DateTime)
    (s : Store) : RunsKept s (finishApply env c result now s) := by
  have h := finishApply_runs env c result now s
  split at h
  · exact .of_close h
  · exact .of_eq h

theorem closeIfDone_runsKept (runId : String) (now : DateTime) (s : Store) :
    RunsKept s (closeIfDone runId now s) := by
  unfold closeIfDone
  split
  · exact .of_close rfl
  · exact .of_eq rfl

theorem materializeResult_runsKept {env : Env} {k : JobKey} {result : StageResult} {keys : List JobKey}
    (h : materializeResult env k result now s = .ok (keys, s')) : RunsKept s s' := by
  obtain ⟨s₀, -, hs₀, -, rfl⟩ := materializeResult_ok h
  have h₀ : RunsKept s s₀ := by
    rcases ensureRun_runs hs₀ with e | ⟨-, e⟩
    · exact .of_eq e
    · exact .of_insert e
  have h₁ : RunsKept s₀ (materialized env k result (planOf env k result now s) now s₀) :=
    .of_eq (materialized_runs env k result _ now s₀)
  exact (h₀.trans h₁).trans (closeIfDone_runsKept k.runId now _)

theorem apply_runs_kept (env : Env) (s : Store) (op : Op) : RunsKept s (apply env s op) := by
  cases hw : op.writesRuns with
  | false => exact .of_eq (apply_inPlace env s hw).runs
  | true =>
    cases op with
    | finish c result now =>
      refine toOption_rel (.of_eq rfl) fun s' hs => ?_
      obtain ⟨_, _, _, _, _, rfl⟩ := finish_ok hs
      exact finishApply_runsKept env c result now s
    | resumeJob key now =>
      simp only [apply, resumeJob]
      split
      · exact .of_eq rfl
      · split
        · exact .of_eq rfl
        · exact .of_mapped (reopenRun_mapped s key.runId _ now)
    | cancelRun runId reason actor now =>
      rcases cancelRun_runs runId reason actor now s with ⟨-, e⟩ | ⟨-, e⟩
      · rw [apply, e]
        exact .of_eq rfl
      · exact .of_close e
    | accept command ids now =>
      refine committed_rel (.of_eq rfl) fun _ s' hs => ?_
      rcases accept_ok hs with e | ⟨-, e, -⟩ | ⟨-, e, -⟩
      · exact .of_eq (congrArg Store.runs e)
      · exact .of_insert (insertRun_eq_some e)
      · exact .of_insert (insertRun_eq_some e)
    | materializeResult k result now =>
      exact committed_rel (.of_eq rfl) fun _ _ hs => materializeResult_runsKept hs
    | _ => cases hw

theorem accept_reservations {command : IntakeCommand} {ids : IntakeIds} {receipt : IntakeReceipt}
    (h : accept command ids now s = .ok (receipt, s')) :
    s'.fleetReservations = s.fleetReservations := by
  unfold accept at h
  split at h
  · split at h
    · cases h
    · cases h
      rfl
  · split at h
    all_goals
      simp only at h
      repeat' split at h
      all_goals cases h
      all_goals rfl

theorem finishApply_reservations (env : Env) (c : Claim) (result : StageResult) (now : DateTime)
    (s : Store) : (finishApply env c result now s).fleetReservations = s.fleetReservations := by
  unfold finishApply
  cases result.outcome with
  | success =>
    simp only
    split
    · rfl
    · rfl
  | _ => rfl

theorem reconcileClaims_reservations (cycle : String) (now : DateTime) (cs : List ClaimRow)
    (acc : Store × List Repair) :
    (cs.foldl (reconcileClaim cycle now) acc).1.fleetReservations = acc.1.fleetReservations := by
  induction cs generalizing acc with
  | nil => rfl
  | cons c cs ih =>
    refine (ih _).trans ?_
    unfold reconcileClaim
    simp only
    split
    · rfl
    · split
      · rfl
      · rfl

theorem materialized_reservations (env : Env) (k : JobKey) (result : StageResult) (plan : Plan)
    (now : DateTime) (s : Store) :
    (materialized env k result plan now s).fleetReservations = s.fleetReservations := by
  show (recordResult env k result plan now s).fleetReservations = s.fleetReservations
  unfold recordResult
  split
  · rfl
  · split
    · rfl
    · rfl

theorem apply_reservations (env : Env) (s : Store) (op : Op) (h : op.writesReservations = false) :
    (apply env s op).fleetReservations = s.fleetReservations := by
  let R : Store → Store → Prop := fun s s' => s'.fleetReservations = s.fleetReservations
  cases op with
  | accept command ids now =>
    exact committed_rel (R := R) rfl fun _ _ hs => accept_reservations hs
  | heartbeat c now =>
    refine committed_rel (R := R) rfl fun _ _ hs => ?_
    obtain ⟨_, _, _, _, _, hs⟩ := heartbeat_ok hs
    unfold heartbeat.beat at hs
    cases hs
    rfl
  | finish c result now =>
    refine toOption_rel (R := R) rfl fun _ hs => ?_
    obtain ⟨_, _, _, _, _, rfl⟩ := finish_ok hs
    exact finishApply_reservations env c result now s
  | reconcile now limit cycle => exact reconcileClaims_reservations _ now _ _
  | resumeJob key now =>
    simp only [apply, resumeJob]
    split
    · rfl
    · split
      · rfl
      · rfl
  | recordOperation operation c clock =>
    refine toOption_rel (R := R) rfl fun _ hs => ?_
    obtain ⟨_, _, _, _, _, rfl⟩ := recordOperation_ok hs
    rfl
  | materializeResult k result now =>
    refine committed_rel (R := R) rfl fun _ _ hs => ?_
    obtain ⟨s₀, -, hs₀, -, rfl⟩ := materializeResult_ok hs
    have hclose : ∀ t, (closeIfDone k.runId now t).fleetReservations = t.fleetReservations := by
      intro t
      unfold closeIfDone
      split
      · rfl
      · rfl
    show (closeIfDone k.runId now _).fleetReservations = s.fleetReservations
    rw [hclose, materialized_reservations]
    exact (ensureRun_jobs hs₀).2.2
  | _ => cases h

end Sqlite
end Control
end DarkFactory
