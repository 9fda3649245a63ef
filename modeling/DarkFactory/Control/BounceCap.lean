import DarkFactory.Control.Line
import DarkFactory.Control.Termination

/-!
# DarkFactory.Control.BounceCap

The cap on the bounces to a stage, which is compared with the highest iteration of the stage.

* `World` — the store, and for each run and stage how many `retry:<stage>` results were materialized.
* `Inv` — no iteration of a stage is above the number of bounces to it, while these are fewer than the cap.
-/

namespace DarkFactory
namespace Control
namespace BounceCap

structure World where
  store : Store
  bounces : String → String → Nat

def World.start : World := ⟨.empty, fun _ _ => 0⟩

/-- The run and the stage that a call bounces to: a `retry:<stage>` that is under its cap and recorded. -/
def bounceOf (env : Env) (s : Store) : Op → Option (String × String)
  | .materializeResult k result now =>
    match result.outcome, (parseRetryCauseCode result.causeCode).1 with
    | .retry, some stage =>
      if (planOf env k result now s).loopCapExceeded then none
      else (Sqlite.materializeResult env k result now s).toOption.map fun _ => (k.runId, stage)
    | _, _ => none
  | _ => none

def World.count (w : World) : Option (String × String) → String → String → Nat
  | none => w.bounces
  | some (runId, stage) => fun runId' stage' =>
    if runId' = runId ∧ stage' = stage then w.bounces runId' stage' + 1 else w.bounces runId' stage'

def step (env : Env) (w : World) (op : Op) : World :=
  ⟨Sqlite.apply env w.store op, w.count (bounceOf env w.store op)⟩

/-- A call that answers `loop_cap` to a bounce comes after as many bounces to the stage as the cap says. -/
def CapCounts (env : Env) (m : Move World Op) : Prop :=
  ∀ k result now stage, m.act = .materializeResult k result now → result.outcome = .retry →
    (parseRetryCauseCode result.causeCode).1 = some stage →
    (planOf env k result now m.pre.store).loopCapExceeded = true → MAX_STAGE_ITERATIONS ≤ m.pre.bounces k.runId stage

def Within (w : World) (runId stage : String) (iteration : Nat) : Prop :=
  iteration ≤ w.bounces runId stage ∨ MAX_STAGE_ITERATIONS ≤ w.bounces runId stage

/-- What a materialization adds other than by a bounce: the next job of a retry in place, the mirrored job of a success,
and the job itself when the store does not have it. -/
def OnlyBouncesAdvance (w : World) : Op → Prop
  | .materializeResult k result _ =>
    (result.outcome = .retry → (parseRetryCauseCode result.causeCode).1 = none →
      Within w k.runId k.stage (k.iteration + 1)) ∧
    (result.outcome = .success → ∀ next, PRODUCTIVE_DAG k.stage = some next → Within w k.runId next k.iteration) ∧
    (w.store.jobs.get? k = none → Within w k.runId k.stage k.iteration)
  | _ => True

def Inv (w : World) : Prop := ∀ j, j ∈ w.store.jobs → Within w j.key.runId j.key.stage j.key.iteration

variable {env : Env} {w : World}

theorem le_count (w : World) (b : Option (String × String)) (runId stage : String) :
    w.bounces runId stage ≤ w.count b runId stage := by
  cases b with
  | none => exact Nat.le_refl _
  | some b =>
    simp only [World.count]
    split
    · exact Nat.le_succ _
    · exact Nat.le_refl _

theorem within_zero (w : World) (runId stage : String) : Within w runId stage 0 := .inl (Nat.zero_le _)

theorem Within.step {runId stage : String} {iteration : Nat} (h : Within w runId stage iteration) (op : Op) :
    Within (step env w op) runId stage iteration := by
  have hle := le_count w (bounceOf env w.store op) runId stage
  exact h.imp (fun h => h.trans hle) (fun h => h.trans hle)

theorem Inv.nextIteration_le (h : Inv w) (k : JobKey) (stage : String) :
    nextIteration w.store k stage ≤ w.bounces k.runId stage + 1 ∨
      MAX_STAGE_ITERATIONS ≤ w.bounces k.runId stage := by
  cases hn : nextIteration w.store k stage with
  | zero => exact .inl (Nat.zero_le _)
  | succ n =>
    obtain ⟨j, hget⟩ := Option.ne_none_iff_exists'.mp (nextIteration_used hn)
    obtain ⟨hj, hkey⟩ := Table.get?_eq_some.mp hget
    have hwithin : Within w k.runId stage n := by
      have hj' := h j hj
      rw [hkey] at hj'
      exact hj'
    exact hwithin.imp (fun h => Nat.succ_le_succ h) fun h => h

theorem Inv.capCounts (h : Inv w) {k : JobKey} {result : StageResult} {now : DateTime} {stage : String}
    (hretry : result.outcome = .retry) (htarget : (parseRetryCauseCode result.causeCode).1 = some stage)
    (hcap : (planOf env k result now w.store).loopCapExceeded = true) :
    MAX_STAGE_ITERATIONS ≤ w.bounces k.runId stage := by
  have hover : MAX_STAGE_ITERATIONS < nextIteration w.store k stage := by
    unfold planOf at hcap
    rw [hretry] at hcap
    simp only at hcap
    split at hcap
    · rename_i hstep
      unfold retryStep at hstep
      split at hstep
      · rename_i target _ hparse
        rw [hparse] at htarget
        cases htarget
        simp only [Prod.mk.injEq, decide_eq_true_eq] at hstep
        exact hstep.2.2
      · rename_i hparse
        rw [hparse] at htarget
        cases htarget
    · cases hcap
  rcases h.nextIteration_le k stage with hle | hle
  · omega
  · exact hle

theorem planOf_within (h : Inv w) {k key : JobKey} {result : StageResult} {now : DateTime}
    (hstep : OnlyBouncesAdvance w (.materializeResult k result now))
    (hok : (Sqlite.materializeResult env k result now w.store).toOption.isSome = true)
    (hkey : key ∈ (planOf env k result now w.store).successors) :
    Within (step env w (.materializeResult k result now)) key.runId key.stage key.iteration := by
  obtain ⟨hretry, hsuccess, -⟩ := hstep
  cases houtcome : result.outcome with
  | success =>
    unfold planOf at hkey
    rw [houtcome] at hkey
    rcases List.mem_append.mp hkey with hkey | hkey
    · simp only [Option.mem_toList, Option.map_eq_some_iff] at hkey
      obtain ⟨next, hnext, rfl⟩ := hkey
      exact (hsuccess houtcome next hnext).step _
    · split at hkey
      · rw [List.mem_singleton.mp hkey]
        exact within_zero _ _ _
      · cases hkey
  | retry =>
    cases htarget : (parseRetryCauseCode result.causeCode).1 with
    | none =>
      unfold planOf at hkey
      rw [houtcome] at hkey
      simp only at hkey
      split at hkey
      · rw [List.mem_singleton.mp hkey]
        exact within_zero _ _ _
      · rename_i stage n hretryStep
        rw [List.mem_singleton.mp hkey]
        unfold retryStep at hretryStep
        split at hretryStep
        · rename_i hparse
          rw [hparse] at htarget
          cases htarget
        · simp only [Prod.mk.injEq] at hretryStep
          obtain ⟨rfl, rfl, -⟩ := hretryStep
          exact (hretry houtcome htarget).step _
    | some target =>
      cases hcap : (planOf env k result now w.store).loopCapExceeded with
      | true =>
        unfold planOf at hkey hcap
        rw [houtcome] at hkey hcap
        simp only at hkey hcap
        split at hkey
        · rw [List.mem_singleton.mp hkey]
          exact within_zero _ _ _
        · rename_i hretryStep
          rw [hretryStep] at hcap
          cases hcap
      | false =>
        -- a bounce goes one above the highest iteration, and counts as one
        have hcount : (step env w (.materializeResult k result now)).bounces k.runId target =
            w.bounces k.runId target + 1 := by
          obtain ⟨r, hr⟩ := Option.isSome_iff_exists.mp hok
          simp only [step, bounceOf, houtcome, htarget, hcap, hr, Bool.false_eq_true, if_false, Option.map_some,
            World.count, and_self, if_true]
        unfold planOf at hkey
        rw [houtcome] at hkey
        simp only at hkey
        split at hkey
        · rw [List.mem_singleton.mp hkey]
          exact within_zero _ _ _
        · rename_i stage n hretryStep
          rw [List.mem_singleton.mp hkey]
          unfold retryStep at hretryStep
          split at hretryStep
          · rename_i hparse
            rw [hparse] at htarget
            cases htarget
            simp only [Prod.mk.injEq] at hretryStep
            obtain ⟨rfl, rfl, -⟩ := hretryStep
            show Within _ k.runId target _
            unfold Within
            rw [hcount]
            rcases h.nextIteration_le k target with hle | hle
            · exact .inl hle
            · exact .inr (Nat.le_succ_of_le hle)
          · rename_i hparse
            rw [hparse] at htarget
            cases htarget
  | replan =>
    unfold planOf at hkey
    rw [houtcome] at hkey
    rw [List.mem_singleton.mp hkey]
    exact within_zero _ _ _
  | failed =>
    unfold planOf at hkey
    rw [houtcome] at hkey
    rw [List.mem_singleton.mp hkey]
    exact within_zero _ _ _
  | _ =>
    unfold planOf at hkey
    rw [houtcome] at hkey
    cases hkey

theorem inv_step (w : World) (op : Op) (h : Inv w) (hop : OnlyBouncesAdvance w op) : Inv (step env w op) := by
  intro j hj
  by_cases hold : ∃ j₀, j₀ ∈ w.store.jobs ∧ j₀.key = j.key
  · obtain ⟨j₀, hj₀, hkey⟩ := hold
    rw [← hkey]
    exact (h j₀ hj₀).step op
  · rcases Sqlite.apply_key env op hj with hkept | ⟨command, ids, now, rfl, rfl, -⟩ | ⟨k, result, now, rfl, hkey⟩
    · exact absurd hkept hold
    · exact within_zero _ _ _
    · rcases hkey with rfl | hkey
      · have hnone : w.store.jobs.get? j.key = none := by
          rw [Table.get?_eq_none]
          intro j₀ hj₀ hsame
          exact hold ⟨j₀, hj₀, hsame⟩
        exact (hop.2.2 hnone).step _
      · refine planOf_within h hop ?_ hkey
        -- a call that raised leaves the jobs as they were
        cases hs : Sqlite.materializeResult env k result now w.store with
        | ok r => rfl
        | error e =>
          refine absurd ⟨j, ?_, rfl⟩ hold
          simp only [step, Sqlite.apply, hs, Sqlite.committed_error] at hj
          exact hj

/-- In a run in which only bounces take a stage further than its bounces, no bounce meets the cap before the number of
bounces that it allows. -/
theorem cap_counts_bounces (env : Env) (ops : List Op)
    (h : ∀ m ∈ Runs.moves (step env) .start ops, OnlyBouncesAdvance m.pre m.act) :
    ∀ m ∈ Runs.moves (step env) .start ops, CapCounts env m := by
  have hstart : Inv .start := fun j hj => absurd hj Table.not_mem_empty
  intro m hm k result now stage _ hretry htarget hcap
  have hinv := Runs.moves_invariant_of (I := Inv) (C := OnlyBouncesAdvance) inv_step hstart h m hm
  exact hinv.capCounts hretry htarget hcap

/-- The grill succeeds, and the planning sends it back. -/
theorem cap_counts_bounces_sent_back :
    (Runs.moves (step .sample) .start Sqlite.sentBackRun).Forall (CapCounts .sample) := by
  refine List.forall_iff_forall_mem.mpr (cap_counts_bounces .sample Sqlite.sentBackRun fun m hm => ?_)
  simp only [Sqlite.sentBackRun, Runs.moves, List.mem_cons, List.not_mem_nil, or_false] at hm
  rcases hm with rfl | rfl | rfl
  · trivial
  · exact ⟨fun h => (by cases h), fun _ _ _ => within_zero _ _ _, fun _ => within_zero _ _ _⟩
  · exact ⟨fun _ h => absurd h (by decide), fun h => (by cases h), fun _ => within_zero _ _ _⟩

def retriedInPlace : List Op :=
  .sampleAccept ::
    ((List.range 10).map fun n => .materializeResult (.sample "grill" n) (.sampleRetry none) (utc (n + 1))) ++
    [.materializeResult (.sample "grill" 10) .sampleSuccess (utc 20)]

/-- The first bounce to it meets the cap. -/
theorem first_bounce_capped :
    ¬ ∀ (env : Env) (ops : List Op), ∀ m ∈ Runs.moves (step env) .start ops, CapCounts env m := by
  intro h
  have hmove := h .sample (retriedInPlace ++
    [.materializeResult (.sample "planning" 10) (.sampleRetry (some "retry:grill")) (utc 30)])
  rw [Runs.moves_append] at hmove
  have hlast := hmove _ (List.mem_append_right _ List.mem_cons_self) _ _ _ "grill" rfl rfl (by decide +kernel)
    (by decide +kernel)
  exact absurd hlast (by decide +kernel)

end BounceCap
end Control
end DarkFactory
