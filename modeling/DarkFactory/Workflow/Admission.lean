import DarkFactory.Lib.Total
import DarkFactory.Workflow.Links

/-!
# DarkFactory.Workflow.Admission

What `claim_next` admits, kept by every change: conflict keys, limits of stages, attempts and dependencies.
-/

namespace DarkFactory
namespace Workflow

open Db

structure Admitted (limits : String → Option Nat) (db : Db) : Prop where
  conflicts : ∀ j j', j ∈ db.jobs → j' ∈ db.jobs → j.status = .claimed → j'.status = .claimed →
    j.jobId ≠ j'.jobId → ∀ key ∈ j.spec.conflictKeys, key ∉ j'.spec.conflictKeys
  stages : ∀ stage limit, limits stage = some limit → db.activeByStage stage ≤ limit
  attempts : ∀ j, j ∈ db.jobs → j.attempt ≤ j.spec.maxAttempts
  waits : ∀ j, j ∈ db.jobs → j.status = .ready ∨ j.status = .waitingBudget ∨ j.status = .retryScheduled →
    j.attempt < j.spec.maxAttempts
  dependencies : ∀ j, j ∈ db.jobs → j.status = .claimed ∨ j.status = .succeeded → ∀ jobId ∈ j.spec.dependsOn,
    ∃ j', j' ∈ db.jobs ∧ j'.jobId = jobId ∧ j'.status = .succeeded

section

variable {limits : String → Option Nat} {db db' : Db}

theorem Admitted.empty : Admitted limits {} where
  conflicts _ _ h := absurd h Table.not_mem_empty
  stages _ _ _ := Nat.zero_le _
  attempts _ h := absurd h Table.not_mem_empty
  waits _ h := absurd h Table.not_mem_empty
  dependencies _ h := absurd h Table.not_mem_empty

theorem Admitted.settles {F : Job → Job} {G : Lease → Lease} {H : Run → Run} (h : Admitted limits db)
    (hs : Settles db db' F G H) : Admitted limits db' where
  conflicts j₁ j₂ hj₁ hj₂ hclaimed₁ hclaimed₂ hne := by
    obtain ⟨a, ha, rfl⟩ := hs.jobs.mem hj₁
    obtain ⟨b, hb, rfl⟩ := hs.jobs.mem hj₂
    have hfix₁ := hs.leaves.claimed a ha hclaimed₁
    have hfix₂ := hs.leaves.claimed b hb hclaimed₂
    rw [hfix₁] at hclaimed₁ hne ⊢
    rw [hfix₂] at hclaimed₂ hne ⊢
    exact h.conflicts a b ha hb hclaimed₁ hclaimed₂ hne
  stages stage limit hlimit := by
    refine le_trans (hs.jobs.length_select_le fun j hj hcounted => ?_) (h.stages stage limit hlimit)
    have hclaimed : (F j).status = .claimed := of_decide_eq_true (Bool.and_eq_true_iff.mp hcounted).1
    rwa [hs.leaves.claimed j hj hclaimed] at hcounted
  attempts j' hj' := by
    obtain ⟨j, hj, rfl⟩ := hs.jobs.mem hj'
    rw [hs.leaves.spec j hj, hs.leaves.attempt j hj]
    exact h.attempts j hj
  waits j' hj' hstatus := by
    obtain ⟨j, hj, rfl⟩ := hs.jobs.mem hj'
    rw [hs.leaves.spec j hj, hs.leaves.attempt j hj]
    rcases hs.leaves.waits j hj hstatus with hbefore | hlt
    · exact h.waits j hj hbefore
    · exact hlt
  dependencies j' hj' hstatus jobId hdep := by
    obtain ⟨j, hj, rfl⟩ := hs.jobs.mem hj'
    rw [hs.leaves.spec j hj] at hdep
    have hbefore : j.status = .claimed ∨ j.status = .succeeded := by
      rcases hstatus with hclaimed | hsucceeded
      · exact .inl (hs.leaves.claimed j hj hclaimed ▸ hclaimed)
      · exact (hs.leaves.of_succeeded j hj hsucceeded).symm
    obtain ⟨d, hd, hid, hdone⟩ := h.dependencies j hj hbefore jobId hdep
    have hfix := hs.leaves.succeeded d hd hdone
    exact ⟨d, hfix ▸ hs.jobs.mem_of hd, hid, hdone⟩

theorem Admitted.enqueues {j : Job} {jobs : Table Job.jobId} (h : Admitted limits db)
    (hinsert : db.jobs.insert? j = some jobs) (hready : j.status = .ready) (hattempt : j.attempt = 0) :
    Admitted limits { db with jobs := jobs } := by
  have hmem : ∀ a, a ∈ jobs ↔ a ∈ db.jobs ∨ a = j := fun a => Table.mem_of_insert? hinsert
  have hold : ∀ a, a ∈ jobs → a.status ≠ .ready → a ∈ db.jobs := by
    intro a ha hnot
    rcases (hmem a).mp ha with ha | rfl
    · exact ha
    · exact absurd hready hnot
  constructor
  · intro j₁ j₂ hj₁ hj₂ hclaimed₁ hclaimed₂
    exact h.conflicts j₁ j₂ (hold j₁ hj₁ (by rw [hclaimed₁]; decide)) (hold j₂ hj₂ (by rw [hclaimed₂]; decide))
      hclaimed₁ hclaimed₂
  · intro stage limit hlimit
    refine le_trans (le_of_eq ?_) (h.stages stage limit hlimit)
    unfold activeByStage
    rw [Table.length_select, Table.length_select, Table.total_insert? hinsert, Table.share_of_neg, add_zero]
    simp [isClaimed, hready]
  · intro a ha
    rcases (hmem a).mp ha with ha | rfl
    · exact h.attempts a ha
    · rw [hattempt]
      exact Nat.zero_le _
  · intro a ha hstatus
    rcases (hmem a).mp ha with ha | rfl
    · exact h.waits a ha hstatus
    · rw [hattempt]
      exact a.spec.attempts_pos
  · intro a ha hstatus jobId hdep
    have hnot : a.status ≠ .ready := by rcases hstatus with hs | hs <;> rw [hs] <;> decide
    obtain ⟨d, hd, hrest⟩ := h.dependencies a (hold a ha hnot) hstatus jobId hdep
    exact ⟨d, (hmem d).mpr (.inl hd), hrest⟩

theorem open_stage {j : Job} (hopen : db.isOpen limits j = true) {limit : Nat}
    (hlimit : limits j.spec.stage = some limit) : db.activeByStage j.spec.stage < limit := by
  unfold isOpen at hopen
  simp only [Bool.and_eq_true] at hopen
  have hstage := hopen.1.1.1
  rw [hlimit, Option.all_some] at hstage
  exact of_decide_eq_true hstage

theorem open_conflicts {j : Job} (hopen : db.isOpen limits j = true) {j' : Job} (hj' : j' ∈ db.jobs)
    (hclaimed : j'.status = .claimed) {key : String} (hkey : key ∈ j.spec.conflictKeys) :
    key ∉ j'.spec.conflictKeys := by
  unfold isOpen at hopen
  simp only [Bool.and_eq_true] at hopen
  have hfree := hopen.1.1.2
  rw [Bool.not_eq_true', List.any_eq_false] at hfree
  intro hkey'
  refine hfree key hkey (decide_eq_true (List.mem_flatMap.mpr ⟨j', ?_, hkey'⟩))
  exact Table.mem_select.mpr ⟨hj', decide_eq_true hclaimed⟩

theorem open_dependencies {j : Job} (hopen : db.isOpen limits j = true) {jobId : String}
    (hdep : jobId ∈ j.spec.dependsOn) : ∃ j', j' ∈ db.jobs ∧ j'.jobId = jobId ∧ j'.status = .succeeded := by
  unfold isOpen at hopen
  simp only [Bool.and_eq_true] at hopen
  have hdone := List.all_eq_true.mp hopen.1.2 jobId hdep
  obtain ⟨j', hget, hstatus⟩ := (Option.any_eq_true _ _).mp hdone
  obtain ⟨hj', hid⟩ := Table.get?_eq_some.mp hget
  exact ⟨j', hj', hid, of_decide_eq_true hstatus⟩

theorem open_run {j : Job} (hopen : db.isOpen limits j = true) :
    ∃ r, r ∈ db.runs ∧ r.runId = j.spec.runId ∧ r.state.isDispatchable = true := by
  unfold isOpen at hopen
  simp only [Bool.and_eq_true] at hopen
  obtain ⟨r, hget, hstate⟩ := (Option.any_eq_true _ _).mp hopen.2
  obtain ⟨hr, hid⟩ := Table.get?_eq_some.mp hget
  exact ⟨r, hr, hid, hstate⟩

theorem Admitted.claims {j : Job} {leaseId workerId : String} {now : Time}
    (h : Admitted limits db) (hj : j ∈ db.jobs) (hstatus : j.status = .ready ∨ j.status = .waitingBudget)
    (hopen : db.isOpen limits j = true)
    (hjobs : db'.jobs = db.jobs.update (fun a => decide (a.jobId = j.jobId)) (claimedBy leaseId workerId now)) :
    Admitted limits db' := by
  have hfree : j.status ≠ .claimed := by rcases hstatus with h | h <;> rw [h] <;> decide
  have hlt : j.attempt < j.spec.maxAttempts := h.waits j hj (hstatus.imp_right .inl)
  have hcases : ∀ a, a ∈ db'.jobs → a ∈ db.jobs ∧ a.jobId ≠ j.jobId ∨ a = claimedBy leaseId workerId now j := by
    intro a ha
    rw [hjobs] at ha
    rcases Table.mem_update_cases ha with ⟨ha, hne⟩ | ⟨b, hb, hid, rfl⟩
    · exact .inl ⟨ha, of_decide_eq_false hne⟩
    · obtain rfl := Table.eq_of_key hb hj (of_decide_eq_true hid)
      exact .inr rfl
  have hdone : ∀ jobId, (∃ d, d ∈ db.jobs ∧ d.jobId = jobId ∧ d.status = .succeeded) →
      ∃ d, d ∈ db'.jobs ∧ d.jobId = jobId ∧ d.status = .succeeded := by
    rintro jobId ⟨d, hd, hid, hsucceeded⟩
    refine ⟨d, ?_, hid, hsucceeded⟩
    rw [hjobs]
    refine Table.mem_update_of_neg hd (decide_eq_false fun hbad => ?_)
    obtain rfl := Table.eq_of_key hd hj hbad
    rcases hstatus with hs | hs <;> cases hs.symm.trans hsucceeded
  constructor
  · intro j₁ j₂ hj₁ hj₂ hclaimed₁ hclaimed₂ hne key hkey
    rcases hcases j₁ hj₁ with ⟨hj₁, _⟩ | rfl <;> rcases hcases j₂ hj₂ with ⟨hj₂, _⟩ | rfl
    · exact h.conflicts j₁ j₂ hj₁ hj₂ hclaimed₁ hclaimed₂ hne key hkey
    · exact fun hkey' => open_conflicts hopen hj₁ hclaimed₁ hkey' hkey
    · exact open_conflicts hopen hj₂ hclaimed₂ hkey
    · exact absurd rfl hne
  · intro stage limit hlimit
    have hchange := (Table.mapped_update (t := db.jobs) (p := fun a => decide (a.jobId = j.jobId))
      (f := claimedBy leaseId workerId now) (h := fun _ => rfl)).total_change
      (p := fun a => isClaimed a && decide (a.spec.stage = stage)) (w := fun _ => 1) hj
      fun b _ hne => if_neg (by simpa using hne)
    rw [Table.share_of_neg (a := j) (by simp [isClaimed, hfree]), add_zero, ← hjobs] at hchange
    show (db'.jobs.select _).length ≤ limit
    rw [Table.length_select, hchange, ← Table.length_select]
    by_cases hstage : j.spec.stage = stage
    · subst hstage
      have hroom := open_stage hopen hlimit
      rw [Table.share_of_pos (by simp [isClaimed, claimedBy])]
      exact hroom
    · rw [Table.share_of_neg (by simp [claimedBy, hstage]), add_zero]
      exact h.stages stage limit hlimit
  · intro a ha
    rcases hcases a ha with ⟨ha, _⟩ | rfl
    · exact h.attempts a ha
    · exact hlt
  · intro a ha hwaits
    rcases hcases a ha with ⟨ha, _⟩ | rfl
    · exact h.waits a ha hwaits
    · rcases hwaits with hs | hs | hs <;> cases hs
  · intro a ha hheld jobId hdep
    rcases hcases a ha with ⟨ha, _⟩ | rfl
    · exact hdone jobId (h.dependencies a ha hheld jobId hdep)
    · exact hdone jobId (open_dependencies hopen hdep)

theorem admitted_of_change (hchange : Change limits db db') (hlinks : Links db) (h : Admitted limits db) :
    Admitted limits db' := by
  rcases settles_or_adds hlinks hchange with ⟨F, G, H, hs⟩ | hadds
  · exact h.settles hs
  · cases hadds with
    | run => exact ⟨h.conflicts, h.stages, h.attempts, h.waits, h.dependencies⟩
    | job j r jobs hr hrun hinsert hready hattempt => exact h.enqueues hinsert hready hattempt
    | lease j workerId now l leases hj hstatus hopen haffordable hlease hinsert =>
      exact h.claims hj hstatus hopen rfl

end

end Workflow
end DarkFactory
