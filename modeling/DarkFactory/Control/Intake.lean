import DarkFactory.Control.RunActivity

/-!
# DarkFactory.Control.Intake

Exactly-once intake. The calls of `accept` with one `(channel, external_id)` are a first one, which
creates the run, and repetitions, which read the stored command back.

* `Created`, `Repeated` — what the first call and a later one do.
-/

namespace DarkFactory
namespace Control

/-- The uuids a new intake draws are fresh: no run has one of them in its id or as its demand. -/
def Op.FreshIds (s : Store) : Op → Prop
  | .accept command ids _ =>
    s.intakeCommands.get? (command.channel, command.externalId) = none → s.runs.get? ("run-" ++ ids.run) = none ∧
        s.runs.get? ("doc-" ++ ("dem-" ++ ids.demand)) = none ∧
        ∀ r, r ∈ s.runs → r.demandId ≠ "dem-" ++ ids.demand
  | _ => True

instance (s : Store) : (op : Op) → Decidable (op.FreshIds s)
  | .accept _ ids _ =>
    inferInstanceAs (Decidable (_ → _ ∧ _ ∧ ∀ r, r ∈ s.runs → r.demandId ≠ "dem-" ++ ids.demand))
  | .materializeResult .. | .claim .. | .heartbeat .. | .finish .. | .reconcile ..
  | .resumeJob .. | .cancelRun .. | .recordOperation .. | .reserveCycle ..
  | .heartbeatReservation .. | .releaseReservation .. | .drainHost ..
  | .renewOpenRunReservations .. | .reconcileFleetReservations .. =>
    inferInstanceAs (Decidable True)

/-- A call of `accept` in a run, between the stores it found and left. -/
structure IntakeCall where
  command : IntakeCommand
  ids : Sqlite.IntakeIds
  now : DateTime
  pre : Store
  post : Store

def IntakeCall.key (c : IntakeCall) : String × String := (c.command.channel, c.command.externalId)

def IntakeCall.answer (c : IntakeCall) : Except Raised (IntakeReceipt × Store) :=
  Sqlite.accept c.command c.ids c.now c.pre

def intakeCall (m : Move Store Op) : Option IntakeCall :=
  match m.act with
  | .accept command ids now => some ⟨command, ids, now, m.pre, m.post⟩
  | _ => none

/-- The calls with one `(channel, external_id)`, in their order. -/
def intakeCalls (key : String × String) (ms : List (Move Store Op)) : List IntakeCall :=
  (ms.filterMap intakeCall).filter fun c => decide (c.key = key)

def newRuns (m : Move Store Op) : List String :=
  (m.post.runs.rows.map Run.runId).filter fun id => decide (m.pre.runs.get? id = none)

/-- The call returns the receipt of the one run it creates, with its first job if the intake is
autonomous. -/
def Created (c : IntakeCall) (receipt : IntakeReceipt) : Prop :=
  c.answer = .ok (receipt, c.post) ∧
    ∃ run jobs, c.post.runs.rows = c.pre.runs.rows ++ [run] ∧
      c.post.jobs.rows = c.pre.jobs.rows ++ jobs ∧ jobs.length ≤ 1 ∧
      (∀ j ∈ jobs, j.key.runId = run.runId) ∧
      receipt.demandId = run.demandId ∧ receipt.mode = c.command.mode ∧
      receipt.committedAt = c.now ∧
      receipt.runId = if c.command.mode = .autonomous then some run.runId else none

def Repeated (digest : String) (receipt : IntakeReceipt) (c : IntakeCall) : Prop :=
  c.post = c.pre ∧
    (c.command.payload.digest = digest → c.answer = .ok (receipt, c.pre)) ∧
    (c.command.payload.digest ≠ digest → ∃ e, c.answer = .error e ∧ e.cls = .idempotencyConflict)

def ExactlyOnce : List IntakeCall → Prop
  | [] => True
  | first :: rest =>
    ∃ receipt, Created first receipt ∧ ∀ c ∈ rest, Repeated first.command.payload.digest receipt c

namespace Sqlite

theorem foldl_intake {σ α : Type} {f : σ → α → σ} (store : σ → Store)
    (hf : ∀ acc a, (store (f acc a)).intakeCommands = (store acc).intakeCommands) (as : List α)
    (acc : σ) : (store (as.foldl f acc)).intakeCommands = (store acc).intakeCommands :=
  Runs.run_invariant (I := fun t => (store t).intakeCommands = (store acc).intakeCommands)
    (fun t a ht => (hf t a).trans ht) rfl as

theorem reconcileClaim_intake (cycle : String) (now : DateTime) (acc : Store × List Repair)
    (c : ClaimRow) : (reconcileClaim cycle now acc c).1.intakeCommands = acc.1.intakeCommands := by
  unfold reconcileClaim
  simp only
  split
  · rfl
  · split
    · rfl
    · rfl

theorem expireFleetReservations_intake (now : DateTime) (s : Store) :
    (expireFleetReservations now s).intakeCommands = s.intakeCommands :=
  foldl_intake id (f := fun s runId => requeueExpiredFleetRun runId now s) (fun _ _ => rfl) _ _

theorem heartbeatReservation_intake (env : Env) (reservationId : String) (fencingToken : Nat)
    (now : DateTime) (leaseDurationSec : Option Int) (s : Store) :
    (heartbeatReservation env reservationId fencingToken now leaseDurationSec s).2.intakeCommands =
      s.intakeCommands := by
  unfold heartbeatReservation
  repeat' split
  all_goals rfl

theorem finishApply_intake (env : Env) (c : Claim) (result : StageResult) (now : DateTime)
    (s : Store) : (finishApply env c result now s).intakeCommands = s.intakeCommands := by
  unfold finishApply
  cases result.outcome with
  | success =>
    simp only
    split
    · rfl
    · rfl
  | _ => rfl

theorem ensureRun_intake {k : JobKey} {now : DateTime} {s s₀ : Store}
    (h : ensureRun k now s = some s₀) : s₀.intakeCommands = s.intakeCommands := by
  unfold ensureRun at h
  split at h
  · cases h
    rfl
  · rw [Option.map_eq_some_iff] at h
    obtain ⟨_, _, rfl⟩ := h
    rfl

theorem materialized_intake (env : Env) (k : JobKey) (result : StageResult) (plan : Plan)
    (now : DateTime) (s : Store) :
    (closeIfDone k.runId now (materialized env k result plan now s)).intakeCommands = s.intakeCommands := by
  have hrec : (materialized env k result plan now s).intakeCommands = s.intakeCommands := by
    show (recordResult env k result plan now s).intakeCommands = s.intakeCommands
    unfold recordResult
    split
    · rfl
    · split
      · rfl
      · rfl
  unfold closeIfDone
  split
  · exact hrec
  · exact hrec

/-- Only `accept` writes the commands. -/
theorem apply_intakeCommands (env : Env) (s : Store) (op : Op)
    (h : ∀ command ids now, op ≠ .accept command ids now) :
    (apply env s op).intakeCommands = s.intakeCommands := by
  let R : Store → Store → Prop := fun s s' => s'.intakeCommands = s.intakeCommands
  cases op with
  | accept command ids now => exact absurd rfl (h command ids now)
  | claim worker capabilities now readyAgeSec ids =>
    refine committed_rel (R := R) rfl fun c s' hs => ?_
    cases c with
    | none => rw [claim_none hs]
    | some c =>
      obtain ⟨_, _, _, -, -, -, rfl⟩ := claim_ok hs
      rfl
  | heartbeat c now =>
    refine committed_rel (R := R) rfl fun _ _ hs => ?_
    obtain ⟨_, _, _, _, _, hs⟩ := heartbeat_ok hs
    unfold heartbeat.beat at hs
    cases hs
    rfl
  | finish c result now =>
    refine toOption_rel (R := R) rfl fun _ hs => ?_
    obtain ⟨_, _, _, _, _, rfl⟩ := finish_ok hs
    exact finishApply_intake env c result now s
  | reconcile now limit cycle => exact foldl_intake Prod.fst (reconcileClaim_intake _ now) _ _
  | resumeJob key now =>
    simp only [apply, resumeJob]
    split
    · rfl
    · split
      · rfl
      · rfl
  | cancelRun runId reason actor now =>
    simp only [apply, cancelRun]
    split
    · rfl
    · rfl
  | recordOperation operation c clock =>
    refine toOption_rel (R := R) rfl fun _ hs => ?_
    obtain ⟨_, _, _, _, _, rfl⟩ := recordOperation_ok hs
    rfl
  | reserveCycle request id now =>
    refine committed_rel (R := R) rfl fun _ _ hs => ?_
    rcases reserveCycle_ok hs with rfl | ⟨_, -, rfl⟩
    · exact expireFleetReservations_intake now s
    · exact expireFleetReservations_intake now s
  | heartbeatReservation reservationId fencingToken now leaseDurationSec =>
    exact heartbeatReservation_intake env reservationId fencingToken now leaseDurationSec s
  | releaseReservation reservationId fencingToken status now =>
    refine committed_rel (R := R) rfl fun _ _ hs => ?_
    rcases releaseReservation_ok hs with rfl | ⟨_, -, rfl⟩
    · rfl
    · rfl
  | drainHost hostId reason => rfl
  | renewOpenRunReservations now pendingGraceSec => rfl
  | reconcileFleetReservations now cycles =>
    exact foldl_intake id (f := fun s (p : FleetReservation × Nat) =>
      expireReservation now (cycles p.2) s p.1) (fun _ _ => rfl) _ s
  | materializeResult k result now =>
    refine committed_rel (R := R) rfl fun _ _ hs => ?_
    obtain ⟨s₀, -, hs₀, -, rfl⟩ := materializeResult_ok hs
    exact (materialized_intake env k result _ now s₀).trans (ensureRun_intake hs₀)

theorem accept_known {command : IntakeCommand} (ids : IntakeIds) (now : DateTime) {s : Store}
    {row : IntakeRow} (h : s.intakeCommands.get? (command.channel, command.externalId) = some row) :
    (command.payload.digest = row.payloadDigest → accept command ids now s = .ok (receiptOf row, s)) ∧
      (command.payload.digest ≠ row.payloadDigest →
        ∃ e, accept command ids now s = .error e ∧ e.cls = .idempotencyConflict) := by
  unfold accept
  rw [h]
  constructor
  · intro hd
    simp [hd]
  · intro hd
    simp [Ne.symm hd]

theorem accept_known_apply (env : Env) {command : IntakeCommand} {ids : IntakeIds} {now : DateTime}
    {s : Store} {row : IntakeRow}
    (h : s.intakeCommands.get? (command.channel, command.externalId) = some row) :
    apply env s (.accept command ids now) = s := by
  obtain ⟨hsame, hother⟩ := accept_known ids now h
  by_cases hd : command.payload.digest = row.payloadDigest
  · rw [apply, hsame hd, committed_ok]
  · obtain ⟨e, he, -⟩ := hother hd
    rw [apply, he, committed_error]

theorem insertRun_fresh {s : Store} {r : Run} (hid : s.runs.get? r.runId = none)
    (hd : ∀ q, q ∈ s.runs → q.demandId ≠ r.demandId) :
    ∃ runs, s.insertRun r = some runs ∧ runs.rows = s.runs.rows ++ [r] := by
  obtain ⟨runs, hruns⟩ := Table.insert?_isSome hid
  refine ⟨runs, ?_, Table.rows_of_insert? hruns⟩
  unfold Store.insertRun
  rw [if_neg, hruns]
  rw [Table.any_eq_true]
  rintro ⟨q, hq, hp⟩
  simp only [Bool.and_eq_true, decide_eq_true_eq] at hp
  exact hd q hq hp.1.2

theorem insertJob_fresh {s : Store} (ho : Owned s) {j : Job}
    (hr : s.runs.get? j.key.runId = none) :
    ∃ jobs, s.jobs.insert? j = some jobs ∧ jobs.rows = s.jobs.rows ++ [j] := by
  have hnone : s.jobs.get? j.key = none := by
    rw [Table.get?_eq_none]
    intro j' hj' hk
    rw [← hk] at hr
    exact ho j' hj' hr
  obtain ⟨jobs, hjobs⟩ := Table.insert?_isSome hnone
  exact ⟨jobs, hjobs, Table.rows_of_insert? hjobs⟩

theorem accept_new (env : Env) {command : IntakeCommand} {ids : IntakeIds} {now : DateTime}
    {s : Store} (ho : Owned s)
    (h : s.intakeCommands.get? (command.channel, command.externalId) = none)
    (hf : (Op.accept command ids now).FreshIds s) :
    ∃ row, (apply env s (.accept command ids now)).intakeCommands.get?
        (command.channel, command.externalId) = some row ∧
      row.payloadDigest = command.payload.digest ∧
      Created ⟨command, ids, now, s, apply env s (.accept command ids now)⟩ (receiptOf row) := by
  obtain ⟨hrun, hdoc, hdem⟩ := hf h
  cases hm : command.mode with
  | autonomous =>
    obtain ⟨runs, hruns, hrows⟩ := insertRun_fresh
      (r := intakeRun command ("run-" ++ ids.run) ("dem-" ++ ids.demand) now) hrun hdem
    obtain ⟨jobs, hjobs, hjrows⟩ := insertJob_fresh ho
      (j := initialJob command ("run-" ++ ids.run) now) hrun
    obtain ⟨cmds, hcmds⟩ := Table.insert?_isSome (a := intakeRow command ("dem-" ++ ids.demand)
      (some ("run-" ++ ids.run)) (some ("job-" ++ ids.job)) now) h
    have hacc : ∃ s', accept command ids now s = .ok (receiptOf (intakeRow command
        ("dem-" ++ ids.demand) (some ("run-" ++ ids.run)) (some ("job-" ++ ids.job)) now), s') ∧
        s'.runs = runs ∧ s'.jobs = jobs ∧ s'.intakeCommands = cmds := by
      unfold accept
      rw [h, hm]
      simp only [hruns, hjobs, hcmds]
      exact ⟨_, rfl, rfl, rfl, rfl⟩
    obtain ⟨s', hacc, hr', hj', hc'⟩ := hacc
    refine ⟨intakeRow command ("dem-" ++ ids.demand) (some ("run-" ++ ids.run))
      (some ("job-" ++ ids.job)) now, ?_, rfl, ?_⟩
    · rw [apply, hacc, committed_ok, hc', Table.get?_of_insert? hcmds]
      exact if_pos rfl
    · rw [apply, hacc, committed_ok]
      refine ⟨hacc, _, [_], hr' ▸ hrows, hj' ▸ hjrows, le_refl _, ?_, rfl, rfl, rfl, ?_⟩
      · intro j hj
        rw [List.mem_singleton.mp hj]
        rfl
      · simp [hm, receiptOf, intakeRow, intakeRun]
  | documentary =>
    obtain ⟨runs, hruns, hrows⟩ := insertRun_fresh
      (r := intakeRun command ("doc-" ++ ("dem-" ++ ids.demand)) ("dem-" ++ ids.demand) now) hdoc hdem
    obtain ⟨cmds, hcmds⟩ := Table.insert?_isSome (a := intakeRow command ("dem-" ++ ids.demand)
      none none now) h
    have hacc : ∃ s', accept command ids now s = .ok (receiptOf (intakeRow command
        ("dem-" ++ ids.demand) none none now), s') ∧
        s'.runs = runs ∧ s'.jobs = s.jobs ∧ s'.intakeCommands = cmds := by
      unfold accept
      rw [h, hm]
      simp only [hruns, hcmds]
      exact ⟨_, rfl, rfl, rfl, rfl⟩
    obtain ⟨s', hacc, hr', hj', hc'⟩ := hacc
    refine ⟨intakeRow command ("dem-" ++ ids.demand) none none now, ?_, rfl, ?_⟩
    · rw [apply, hacc, committed_ok, hc', Table.get?_of_insert? hcmds]
      exact if_pos rfl
    · rw [apply, hacc, committed_ok]
      refine ⟨hacc, _, [], hr' ▸ hrows, ?_, Nat.zero_le _, List.forall_mem_nil _, rfl, rfl, rfl, ?_⟩
      · rw [hj', List.append_nil]
      · simp [hm, receiptOf, intakeRow]

theorem accept_commands {command : IntakeCommand} {ids : IntakeIds} {now : DateTime} {s s' : Store}
    {receipt : IntakeReceipt} (h : accept command ids now s = .ok (receipt, s')) :
    s'.intakeCommands = s.intakeCommands ∨
      ∃ row, row.command = (command.channel, command.externalId) ∧
        s.intakeCommands.insert? row = some s'.intakeCommands := by
  unfold accept at h
  split at h
  · split at h
    · cases h
    · cases h
      exact .inl rfl
  · split at h
    all_goals
      simp only at h
      repeat' split at h
      all_goals cases h
      all_goals exact .inr ⟨_, rfl, by assumption⟩

theorem apply_command (env : Env) (s : Store) (op : Op) (key : String × String) :
    (apply env s op).intakeCommands.get? key = s.intakeCommands.get? key ∨
      (s.intakeCommands.get? key = none ∧ ∃ command ids now, op = .accept command ids now ∧
        (command.channel, command.externalId) = key) := by
  by_cases hop : ∃ command ids now, op = .accept command ids now
  · obtain ⟨command, ids, now, rfl⟩ := hop
    cases hs : accept command ids now s with
    | error e => exact .inl (by rw [apply, hs, committed_error])
    | ok r =>
      obtain ⟨receipt, s'⟩ := r
      rw [apply, hs, committed_ok]
      rcases accept_commands hs with e | ⟨row, hkey, hins⟩
      · exact .inl (by rw [e])
      · rw [Table.get?_of_insert? hins]
        by_cases hk : row.command = key
        · refine .inr ⟨hk ▸ Table.insert?_fresh hins, command, ids, now, rfl, ?_⟩
          rw [← hkey, hk]
        · exact .inl (if_neg hk)
  · refine .inl ?_
    rw [apply_intakeCommands env s op fun command ids now e => hop ⟨command, ids, now, e⟩]

theorem intakeCommands_kept (env : Env) {s : Store} {key : String × String} {row : IntakeRow}
    (h : s.intakeCommands.get? key = some row) (op : Op) :
    (apply env s op).intakeCommands.get? key = some row := by
  rcases apply_command env s op key with e | ⟨hnone, -⟩
  · rw [e, h]
  · rw [h] at hnone
    cases hnone

theorem intakeCalls_known (env : Env) {s : Store} {key : String × String} {row : IntakeRow}
    (h : s.intakeCommands.get? key = some row) (ops : List Op) :
    ∀ c ∈ intakeCalls key (Runs.moves (apply env) s ops),
      Repeated row.payloadDigest (receiptOf row) c := by
  intro c hc
  simp only [intakeCalls, List.mem_filter, List.mem_filterMap, decide_eq_true_eq] at hc
  obtain ⟨⟨m, hm, hcm⟩, hkey⟩ := hc
  obtain ⟨hpre, -⟩ := Runs.moves_invariant
    (I := fun s => s.intakeCommands.get? key = some row)
    (fun s op hs => intakeCommands_kept env hs op) h hm
  have hpost := Runs.post_of_mem hm
  unfold intakeCall at hcm
  split at hcm
  · rename_i command ids now hact
    cases hcm
    have hkey : (command.channel, command.externalId) = key := hkey
    rw [← hkey] at hpre
    rw [hact, accept_known_apply env hpre] at hpost
    exact ⟨hpost, accept_known ids now hpre⟩
  · cases hcm

theorem intakeCalls_new (env : Env) (key : String × String) (ops : List Op) :
    ∀ s, Owned s → s.intakeCommands.get? key = none → (∀ m ∈ Runs.moves (apply env) s ops, m.act.FreshIds m.pre) →
      ExactlyOnce (intakeCalls key (Runs.moves (apply env) s ops)) := by
  induction ops with
  | nil => exact fun _ _ _ _ => trivial
  | cons op ops ih =>
    intro s ho hs hf
    rw [Runs.moves, List.forall_mem_cons] at hf
    have ho' := owned_step env s op ho
    by_cases hop : ∃ command ids now, op = .accept command ids now ∧ (command.channel, command.externalId) = key
    · obtain ⟨command, ids, now, rfl, rfl⟩ := hop
      obtain ⟨row, hrow, hdig, hcre⟩ := accept_new env ho hs hf.1
      have hcalls : intakeCalls (command.channel, command.externalId)
          (Runs.moves (apply env) s (.accept command ids now :: ops)) =
          ⟨command, ids, now, s, apply env s (.accept command ids now)⟩ ::
            intakeCalls (command.channel, command.externalId)
              (Runs.moves (apply env) (apply env s (.accept command ids now)) ops) := by
        simp [intakeCalls, Runs.moves, intakeCall, IntakeCall.key]
      rw [hcalls]
      refine ⟨receiptOf row, hcre, fun c hc => ?_⟩
      rw [← hdig]
      exact intakeCalls_known env hrow ops c hc
    · -- a call of another command, or of another method
      have hcalls : intakeCalls key (Runs.moves (apply env) s (op :: ops)) =
          intakeCalls key (Runs.moves (apply env) (apply env s op) ops) := by
        cases op with
        | accept command ids now =>
          have hne : (command.channel, command.externalId) ≠ key := fun e =>
            hop ⟨command, ids, now, rfl, e⟩
          simp [intakeCalls, Runs.moves, intakeCall, IntakeCall.key, hne]
        | _ => rfl
      rw [hcalls]
      refine ih _ ho' ?_ hf.2
      rcases apply_command env s op key with e | ⟨-, hacc⟩
      · rw [e, hs]
      · exact absurd hacc hop

theorem newRuns_nodup (env : Env) (s : Store) (ops : List Op) :
    ((Runs.moves (apply env) s ops).flatMap newRuns).Nodup := by
  induction ops generalizing s with
  | nil => exact List.nodup_nil
  | cons op ops ih =>
    rw [Runs.moves, List.flatMap_cons, List.nodup_append]
    refine ⟨(apply env s op).runs.unique.filter _, ih _, ?_⟩
    rintro id hid _ hid' rfl
    obtain ⟨hmem, -⟩ := List.mem_filter.mp hid
    obtain ⟨m, hm, hid'⟩ := List.mem_flatMap.mp hid'
    have hnone := of_decide_eq_true (List.mem_filter.mp hid').2
    obtain ⟨before, -, -, hpre, -⟩ := Runs.mem_moves hm
    have hkept : RunsKept (apply env s op) m.pre := by
      rw [hpre]
      exact Runs.run_rel (I := fun _ => True) (R := RunsKept) (fun _ => .of_eq rfl) RunsKept.trans
        (fun _ _ _ => trivial) (fun s op _ => apply_runs_kept env s op) trivial before
    obtain ⟨r, hr, rfl⟩ := List.mem_map.mp hmem
    refine hkept.get? ?_ hnone
    rw [Table.get?_of_mem hr]
    exact Option.some_ne_none _

/-- From the empty store, through any calls whose intakes draw fresh uuids: of the calls with one
`(channel, external_id)` the first creates its run and the others repeat it, and no two calls create
one run. -/
theorem intake_exactly_once (env : Env) (ops : List Op)
    (h : ∀ m ∈ Runs.moves (apply env) .empty ops, m.act.FreshIds m.pre) :
    (∀ key, ExactlyOnce (intakeCalls key (Runs.moves (apply env) .empty ops))) ∧
      ((Runs.moves (apply env) .empty ops).flatMap newRuns).Nodup :=
  ⟨fun key => intakeCalls_new env key ops .empty (fun _ hj => absurd hj Table.not_mem_empty) rfl h,
    newRuns_nodup env .empty ops⟩

/-- An intake, the same one again after its run was cancelled, and another payload under its id. -/
def repeatedIntake : List Op :=
  [.sampleAccept, .cancelRun "run-r1" "stop" "operator" (utc 5), .accept .sample ⟨"d2", "r2", "j2"⟩ (utc 10),
    .accept { IntakeCommand.sample with payload := ⟨"other", "other-digest", none⟩ }
      ⟨"d3", "r3", "j3"⟩ (utc 20)]

theorem intake_exactly_once_repeated :
    (intakeCalls ("api", "x1") (Runs.moves (apply .sample) .empty repeatedIntake)).length = 3 ∧
      ExactlyOnce (intakeCalls ("api", "x1") (Runs.moves (apply .sample) .empty repeatedIntake)) :=
  ⟨by decide +kernel, (intake_exactly_once .sample repeatedIntake (by decide +kernel)).1 _⟩

/-- Jobs stay, their tokens do not decrease, and closed ones do not change. Claims stay, and none becomes active again.
Runs and commands stay. -/
structure Kept (s s' : Store) : Prop where
  jobs : TokensGrow s s'
  claims : ∀ c, c ∈ s.claims → ∃ c', c' ∈ s'.claims ∧ c'.leaseId = c.leaseId ∧ c'.jobKey = c.jobKey ∧
    c'.fencingToken = c.fencingToken ∧ (c'.status = .active → c.status = .active)
  closed : ∀ j, j ∈ s.jobs → j.status.isOpen = false → j ∈ s'.jobs
  runs : RunsKept s s'
  commands : ∀ key row, s.intakeCommands.get? key = some row → s'.intakeCommands.get? key = some row

theorem Kept.refl (s : Store) : Kept s s :=
  ⟨fun j hj => ⟨j, hj, rfl, Nat.le_refl _⟩, fun c hc => ⟨c, hc, rfl, rfl, rfl, id⟩, fun _ hj _ => hj, .of_eq rfl,
    fun _ _ h => h⟩

theorem Kept.trans {s s' s'' : Store} (h : Kept s s') (h' : Kept s' s'') : Kept s s'' := by
  refine ⟨fun j hj => ?_, fun c hc => ?_, fun j hj ho => h'.closed j (h.closed j hj ho) ho, h.runs.trans h'.runs,
    fun key row hrow => h'.commands key row (h.commands key row hrow)⟩
  · obtain ⟨j₁, hj₁, hkey, hle⟩ := h.jobs j hj
    obtain ⟨j₂, hj₂, hkey', hle'⟩ := h'.jobs j₁ hj₁
    exact ⟨j₂, hj₂, hkey'.trans hkey, hle.trans hle'⟩
  · obtain ⟨c₁, hc₁, hid, hkey, htoken, hactive⟩ := h.claims c hc
    obtain ⟨c₂, hc₂, hid', hkey', htoken', hactive'⟩ := h'.claims c₁ hc₁
    exact ⟨c₂, hc₂, hid'.trans hid, hkey'.trans hkey, htoken'.trans htoken, hactive ∘ hactive'⟩

theorem apply_kept (env : Env) (s : Store) (op : Op) (h : Inv s) : Kept s (apply env s op) := by
  have hadvance := apply_advance env h op
  refine ⟨hadvance.tokensGrow, fun c hc => ?_, hadvance.kept, apply_runs_kept env s op,
    fun _ _ hrow => intakeCommands_kept env hrow op⟩
  have hlease : (book s).lease c.leaseId = some (leaseOf c) := by simp [book, Table.get?_of_mem hc]
  obtain ⟨l, hl, hkey, htoken, hlive⟩ := hadvance.steps.lease hlease
  simp only [book, Option.map_eq_some_iff] at hl
  obtain ⟨c', hc', rfl⟩ := hl
  obtain ⟨hmem, hid⟩ := Table.get?_eq_some.mp hc'
  exact ⟨c', hmem, hid, hkey, htoken, by simpa [leaseOf] using hlive⟩

/-- In every reachable store the jobs have their runs, and no further calls lose anything. -/
theorem history_kept (env : Env) (past ops : List Op) :
    let s := Runs.run (apply env) .empty past
    Owned s ∧ Kept s (Runs.run (apply env) s ops) := by
  intro s
  refine ⟨Runs.run_invariant (owned_step env) (fun _ hj => absurd hj Table.not_mem_empty) past, ?_⟩
  exact Runs.run_rel Kept.refl Kept.trans (inv_step env) (apply_kept env) (reachable_inv env past) ops

end Sqlite
end Control
end DarkFactory
