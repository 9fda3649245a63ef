import DarkFactory.Lib.Total
import DarkFactory.Workflow.Growth
import Mathlib.Tactic.Linarith

/-!
# DarkFactory.Workflow.Balances

The balances of a run.

* `claims`, `charges` — what its claimed jobs reserve, and what its completed leases have charged.
* `Balanced` — its row has these two sums, and they keep to the ceiling while no completion charges
  more than the estimate.
-/

namespace DarkFactory
namespace Workflow

open Db

def isClaimedOf (runId : String) (j : Job) : Bool := isClaimed j && decide (j.spec.runId = runId)

def isCompletedOf (runId : String) (l : Lease) : Bool := decide (l.status = .completed ∧ l.runId = runId)

def Db.claims (db : Db) (runId : String) : Rat := db.jobs.total (isClaimedOf runId) fun j => j.spec.estimatedCost

def Db.charges (db : Db) (runId : String) : Rat := db.leases.total (isCompletedOf runId) db.charge

def Db.Frugal (db : Db) (runId : String) : Prop :=
  ∀ l, l ∈ db.leases → l.status = .completed → l.runId = runId → db.charge l ≤ db.estimate l

structure Balanced (db : Db) : Prop where
  reserved : ∀ r, r ∈ db.runs → r.budgetReserved = db.claims r.runId
  spent : ∀ r, r ∈ db.runs → r.budgetSpent = db.charges r.runId
  ceiling : ∀ r, r ∈ db.runs → db.Frugal r.runId → r.budgetReserved + r.budgetSpent ≤ r.budgetCeiling + Db.tolerance

section

variable {limits : String → Option Nat} {db db' : Db}

theorem Balanced.empty : Balanced {} := by
  constructor <;> exact fun _ h => absurd h Table.not_mem_empty

def claimShare (runId : String) (j : Job) : Rat := Table.share (isClaimedOf runId) (fun j => j.spec.estimatedCost) j

variable {j : Job} {l : Lease} {now : Time}

theorem claimShare_of_claimed {runId : String} (hclaimed : j.status = .claimed) :
    claimShare runId j = if j.spec.runId = runId then j.spec.estimatedCost else 0 := by
  simp [claimShare, Table.share, isClaimedOf, isClaimed, hclaimed]

theorem claimShare_of_not {runId : String} (hnot : j.status ≠ .claimed) : claimShare runId j = 0 :=
  Table.share_of_neg (by simp [isClaimedOf, isClaimed, hnot])

theorem claimShare_nonneg (runId : String) (j : Job) : 0 ≤ claimShare runId j := by
  unfold claimShare Table.share
  split
  · exact j.spec.cost_nonneg
  · exact le_refl 0

theorem claims_nonneg (db : Db) (runId : String) : 0 ≤ db.claims runId := by
  rw [claims, Table.total_eq]
  refine List.sum_nonneg fun x hx => ?_
  obtain ⟨j, _, rfl⟩ := List.mem_map.mp hx
  exact claimShare_nonneg runId j

theorem claims_eq {F : Job → Job} (hjobs : db.jobs.Mapped F db'.jobs) {runId : String}
    (hF : ∀ j, j ∈ db.jobs → claimShare runId (F j) = claimShare runId j) : db'.claims runId = db.claims runId :=
  hjobs.total_congr hF

theorem claims_setJob {f : Job → Job} {hf : ∀ j, (f j).jobId = j.jobId} (hj : j ∈ db.jobs)
    (hjobs : db'.jobs = db.jobs.update (fun a => decide (a.jobId = j.jobId)) f hf) (runId : String) :
    db'.claims runId + claimShare runId j = db.claims runId + claimShare runId (f j) := by
  have hchange := (Table.mapped_update (t := db.jobs) (p := fun a => decide (a.jobId = j.jobId)) (h := hf)).total_change
    (p := isClaimedOf runId) (w := fun j => j.spec.estimatedCost) hj fun b _ hne => if_neg (by simpa using hne)
  rw [if_pos (decide_eq_true rfl), ← hjobs] at hchange
  exact hchange

theorem charges_eq {G : Lease → Lease} (hr : Recorded db) (hops : ∀ op, op ∈ db.operations → op ∈ db'.operations)
    (hleases : db.leases.Mapped G db'.leases) (hG : Ends db.leases G)
    (hnew : ∀ l, l ∈ db.leases → (G l).status = .completed → l.status = .completed) (runId : String) :
    db'.charges runId = db.charges runId := by
  refine hleases.total_congr fun l hl => ?_
  by_cases hcompleted : l.status = .completed
  · rw [hG.ended l hl (by rw [hcompleted]; decide), Table.share, Table.share, charge_eq hr hops hl hcompleted]
  · rw [Table.share_of_neg, Table.share_of_neg]
    · simp [isCompletedOf, hcompleted]
    · simp [isCompletedOf, mt (hnew l hl) hcompleted]

theorem charges_insert {leases : Table Lease.leaseId} (hinsert : db.leases.insert? l = some leases)
    (hactive : l.status = .active) (hleases : db'.leases = leases) (hops : db'.operations = db.operations)
    (runId : String) : db'.charges runId = db.charges runId := by
  have hcharge : db'.charge = db.charge := by
    funext l'
    rw [charge, charge, hops]
  rw [charges, charges, hleases, hcharge, Table.total_insert? hinsert, Table.share_of_neg, add_zero]
  simp [isCompletedOf, hactive]

theorem charges_complete {outcome : Option JobOutcome} (hr : Recorded db)
    (hops : ∀ op, op ∈ db.operations → op ∈ db'.operations) (hl : l ∈ db.leases) (hactive : l.status = .active)
    (hleases : db'.leases = db.leases.update (fun a => decide (a.leaseId = l.leaseId)) (closed .completed now outcome))
    (runId : String) :
    db'.charges runId = db.charges runId + if l.runId = runId then db'.charge l else 0 := by
  have hold : db.leases.total (isCompletedOf runId) db'.charge = db.charges runId := by
    refine Table.Mapped.refl.total_congr fun a ha => ?_
    by_cases hcompleted : a.status = .completed
    · rw [Table.share, Table.share, charge_eq hr hops ha hcompleted]
    · rw [Table.share_of_neg, Table.share_of_neg]
      · simp [isCompletedOf, hcompleted]
      · simp [isCompletedOf, hcompleted]
  have hchange := (Table.mapped_update (t := db.leases) (p := fun a => decide (a.leaseId = l.leaseId))
    (f := closed .completed now outcome) (h := fun _ => rfl)).total_change (p := isCompletedOf runId) (w := db'.charge) hl
    fun b _ hne => if_neg (by simpa using hne)
  rw [if_pos (decide_eq_true rfl), ← hleases, hold, Table.share_of_neg (a := l) (by simp [isCompletedOf, hactive]),
    add_zero] at hchange
  rw [charges, hchange]
  congr 1
  simp only [Table.share, isCompletedOf, closed, true_and, decide_eq_true_eq]
  rfl

theorem frugal_of_grows (hlinks : Links db) (hr : Recorded db) (hgrows : Grows db db') {runId : String}
    (h : db'.Frugal runId) : db.Frugal runId := by
  intro l hl hcompleted hrun
  obtain ⟨l', hl', _, _, _, hover⟩ := hgrows.leases l hl
  obtain rfl := hover (by rw [hcompleted]; decide)
  rw [← charge_eq hr hgrows.operations hl hcompleted, ← estimate_eq hlinks hgrows hl]
  exact h l' hl' hcompleted hrun

structure Moves (db db' : Db) (r r' : Run) : Prop where
  runId : r'.runId = r.runId
  budgetCeiling : r'.budgetCeiling = r.budgetCeiling
  reserved : r.budgetReserved = db.claims r.runId → r'.budgetReserved = db'.claims r.runId
  spent : r.budgetSpent = db.charges r.runId → r'.budgetSpent = db'.charges r.runId
  ceiling : r.budgetReserved = db.claims r.runId → db'.Frugal r.runId →
    r.budgetReserved + r.budgetSpent ≤ r.budgetCeiling + tolerance →
      r'.budgetReserved + r'.budgetSpent ≤ r'.budgetCeiling + tolerance

theorem Balanced.moves (h : Balanced db) (hlinks : Links db) (hr : Recorded db) (hgrows : Grows db db')
    (hruns : ∀ r', r' ∈ db'.runs → ∃ r, r ∈ db.runs ∧ Moves db db' r r') : Balanced db' where
  reserved r' hr' := by
    obtain ⟨r, hrun, hm⟩ := hruns r' hr'
    rw [hm.runId]
    exact hm.reserved (h.reserved r hrun)
  spent r' hr' := by
    obtain ⟨r, hrun, hm⟩ := hruns r' hr'
    rw [hm.runId]
    exact hm.spent (h.spent r hrun)
  ceiling r' hr' hfrugal := by
    obtain ⟨r, hrun, hm⟩ := hruns r' hr'
    rw [hm.runId] at hfrugal
    exact hm.ceiling (h.reserved r hrun) hfrugal (h.ceiling r hrun (frugal_of_grows hlinks hr hgrows hfrugal))

theorem Moves.same {r r' : Run} (hid : r'.runId = r.runId) (hceiling : r'.budgetCeiling = r.budgetCeiling)
    (hreserved : r'.budgetReserved = r.budgetReserved) (hspent : r'.budgetSpent = r.budgetSpent)
    (hclaims : db'.claims r.runId = db.claims r.runId) (hcharges : db'.charges r.runId = db.charges r.runId) :
    Moves db db' r r' := by
  refine ⟨hid, hceiling, fun h => ?_, fun h => ?_, fun _ _ h => ?_⟩
  · rw [hreserved, hclaims, h]
  · rw [hspent, hcharges, h]
  · rw [hreserved, hspent, hceiling]
    exact h

theorem balanced_registers {r : Run} (h : Balanced db) (hlinks : Links db) (hnone : db.runs.get? r.runId = none)
    (hceiling : 0 ≤ r.budgetCeiling) (hreserved : r.budgetReserved = 0) (hspent : r.budgetSpent = 0) :
    Balanced { db with runs := db.runs.insertIgnore r } := by
  have hfree : ∀ j, j ∈ db.jobs → j.spec.runId ≠ r.runId := by
    intro j hj hid
    obtain ⟨r', hr', hid'⟩ := hlinks.jobRun j hj
    exact Table.get?_eq_none.mp hnone r' hr' (hid'.trans hid)
  have hclaims : db.claims r.runId = 0 := by
    rw [claims, Table.total_eq]
    refine List.sum_eq_zero fun x hx => ?_
    obtain ⟨j, hj, rfl⟩ := List.mem_map.mp hx
    exact Table.share_of_neg (by simp [isClaimedOf, hfree j hj])
  have hcharges : db.charges r.runId = 0 := by
    rw [charges, Table.total_eq]
    refine List.sum_eq_zero fun x hx => ?_
    obtain ⟨l, hl, rfl⟩ := List.mem_map.mp hx
    obtain ⟨j, hj, _, hrun⟩ := hlinks.leaseJob l hl
    exact Table.share_of_neg (by simp [isCompletedOf, ← hrun, hfree j hj])
  constructor <;> intro r' hr' <;> rcases Table.mem_insertIgnore.mp hr' with hr' | ⟨rfl, _⟩
  · exact h.reserved r' hr'
  · exact hreserved.trans hclaims.symm
  · exact h.spent r' hr'
  · exact hspent.trans hcharges.symm
  · exact h.ceiling r' hr'
  · intro _
    have htolerance : (0 : Rat) ≤ tolerance := by norm_num [tolerance]
    rw [hreserved, hspent]
    linarith

theorem mem_setRun {runId : String} (f : Run → Run) (hf : ∀ r, (f r).runId = r.runId) {r' : Run}
    (hr' : r' ∈ (db.setRun runId f hf).runs) :
    r' ∈ db.runs ∧ r'.runId ≠ runId ∨ ∃ r, r ∈ db.runs ∧ r.runId = runId ∧ r' = f r := by
  rcases Table.mem_update_cases (h := hf) hr' with ⟨hr', hne⟩ | ⟨r, hr, hid, rfl⟩
  · exact .inl ⟨hr', of_decide_eq_false hne⟩
  · exact .inr ⟨r, hr, of_decide_eq_true hid, rfl⟩

theorem moves_claims {workerId : String} {leases : Table Lease.leaseId}
    (hj : j ∈ db.jobs) (hstatus : j.status = .ready ∨ j.status = .waitingBudget)
    (haffordable : db.isAffordable j = true) (hlease : LeaseOf j workerId now l)
    (hinsert : db.leases.insert? l = some leases) {r' : Run}
    (hdb : db' = ({ db with leases := leases }.setJob j.jobId (claimedBy l.leaseId workerId now)).setRun
      j.spec.runId (reserve j.spec.estimatedCost now)) (hr' : r' ∈ db'.runs) :
    ∃ r, r ∈ db.runs ∧ Moves db db' r r' := by
  have hfree : j.status ≠ .claimed := by rcases hstatus with h | h <;> rw [h] <;> decide
  have hclaims : ∀ runId, db'.claims runId = db.claims runId + if j.spec.runId = runId then j.spec.estimatedCost else 0 := by
    intro runId
    have hjobs : db'.jobs = db.jobs.update (fun a => decide (a.jobId = j.jobId)) (claimedBy l.leaseId workerId now) := by
      rw [hdb]
      rfl
    have hchange := claims_setJob hj hjobs runId
    rw [claimShare_of_not hfree, claimShare_of_claimed (j := claimedBy l.leaseId workerId now j) rfl, add_zero] at hchange
    exact hchange
  have hcharges : ∀ runId, db'.charges runId = db.charges runId := by
    refine charges_insert hinsert hlease.status ?_ ?_ <;> rw [hdb] <;> rfl
  rw [hdb] at hr'
  rcases mem_setRun (reserve j.spec.estimatedCost now) (fun _ => rfl) hr' with ⟨hr', hne⟩ | ⟨r, hr, hid, rfl⟩
  · refine ⟨r', hr', .same rfl rfl rfl rfl ?_ (hcharges _)⟩
    rw [hclaims, if_neg (fun h => hne h.symm), add_zero]
  · refine ⟨r, hr, rfl, rfl, fun h => ?_, fun h => ?_, fun _ _ _ => ?_⟩
    · rw [hclaims, if_pos hid.symm, ← h]
      rfl
    · rw [hcharges, ← h]
      rfl
    · obtain ⟨r₀, hget, hroom⟩ := (Option.any_eq_true _ _).mp haffordable
      obtain ⟨hr₀, hid₀⟩ := Table.get?_eq_some.mp hget
      obtain rfl := Table.eq_of_key hr hr₀ (hid.trans hid₀.symm)
      have hle := not_lt.mp (of_decide_eq_true hroom)
      show r.budgetReserved + j.spec.estimatedCost + r.budgetSpent ≤ r.budgetCeiling + tolerance
      linarith

theorem claims_released (f : Job → Job) (hf : ∀ j, (f j).jobId = j.jobId) (hj : j ∈ db.jobs)
    (hclaimed : j.status = .claimed) (hnot : (f j).status ≠ .claimed)
    (hjobs : db'.jobs = db.jobs.update (fun a => decide (a.jobId = j.jobId)) f hf) (runId : String) :
    db'.claims runId = db.claims runId - if j.spec.runId = runId then j.spec.estimatedCost else 0 := by
  have hchange := claims_setJob hj hjobs runId
  rw [claimShare_of_not hnot, claimShare_of_claimed hclaimed, add_zero] at hchange
  exact eq_sub_of_add_eq hchange

theorem moves_expires {retryDelay : Time} (hlinks : Links db) (hr : Recorded db)
    (hl : l ∈ db.leases) (hactive : l.status = .active) (hj : j ∈ db.jobs) (hid : j.jobId = l.jobId) {r' : Run}
    (hdb : db' = db.released l (closed .expired now none) (unreserve j.spec.estimatedCost now) j
      (expiredJob retryDelay now) (fun _ => rfl) (fun _ => rfl) (expiredJob_jobId retryDelay now))
    (hr' : r' ∈ db'.runs) : ∃ r, r ∈ db.runs ∧ Moves db db' r r' := by
  have hclaims : ∀ runId, db'.claims runId = db.claims runId - if j.spec.runId = runId then j.spec.estimatedCost else 0 := by
    refine claims_released _ (expiredJob_jobId retryDelay now) hj
      (hlinks.claimed hl hactive hj hid).1 ?_ ?_
    · rcases expiredJob_status retryDelay now j with ⟨he, _⟩ | he <;> rw [he] <;> decide
    · rw [hdb]
      rfl
  have hcharges : ∀ runId, db'.charges runId = db.charges runId := by
    rw [hdb]
    refine charges_eq hr (fun _ hop => hop) (Table.mapped_update (f := closed .expired now none) (h := fun _ => rfl))
      (ends_update (by decide) fun a ha hkey => ?_) fun a _ => ?_
    · rw [Table.eq_of_key ha hl (of_decide_eq_true hkey)]
      exact hactive
    · split
      · exact nofun
      · exact id
  have hrunId := hlinks.runId_eq hl hj hid
  rw [hdb] at hr'
  rcases mem_setRun (unreserve j.spec.estimatedCost now) (fun _ => rfl) hr' with ⟨hr', hne⟩ | ⟨r, hrow, hrun, rfl⟩
  · refine ⟨r', hr', .same rfl rfl rfl rfl ?_ (hcharges _)⟩
    rw [hclaims, hrunId, if_neg (fun h => hne h.symm), sub_zero]
  · have hback : db'.claims r.runId = db.claims r.runId - j.spec.estimatedCost := by
      rw [hclaims, hrunId, if_pos hrun.symm]
    have hnonneg := claims_nonneg db' r.runId
    refine ⟨r, hrow, rfl, rfl, fun h => ?_, fun h => ?_, fun h _ hsum => ?_⟩
    · show max 0 (r.budgetReserved - j.spec.estimatedCost) = _
      rw [h, ← hback, max_eq_right hnonneg]
    · rw [hcharges, ← h]
      rfl
    · have hcost := j.spec.cost_nonneg
      show max 0 (r.budgetReserved - j.spec.estimatedCost) + r.budgetSpent ≤ r.budgetCeiling + tolerance
      rw [h, ← hback, max_eq_right hnonneg]
      linarith

theorem moves_completes {completion : Completion} {op : Operation}
    {operations : Table Operation.key} {retryDelay : Time} (hlinks : Links db) (hr : Recorded db)
    (hl : l ∈ db.leases) (hactive : l.status = .active) (hj : j ∈ db.jobs) (hid : j.jobId = l.jobId)
    (hkey : op.key = completionKey l.leaseId)
    (hbody : op.body = .jobCompletion completion (completedJob completion retryDelay now j))
    (hinsert : db.operations.insert? op = some operations) {r' : Run}
    (hdb : db' = { db.released l (closed .completed now (some completion.outcome))
        (spend j.spec.estimatedCost completion.chargedCost now) j (completedJob completion retryDelay now)
        (fun _ => rfl) (fun _ => rfl) (fun _ => rfl) with operations := operations })
    (hr' : r' ∈ db'.runs) : ∃ r, r ∈ db.runs ∧ Moves db db' r r' := by
  have hjobs : db'.jobs = db.jobs.update (fun a => decide (a.jobId = j.jobId)) (completedJob completion retryDelay now) := by
    rw [hdb]
    rfl
  have hleases : db'.leases = db.leases.update (fun a => decide (a.leaseId = l.leaseId))
      (closed .completed now (some completion.outcome)) := by
    rw [hdb]
    rfl
  have hoperations : ∀ op', op' ∈ db'.operations ↔ op' ∈ db.operations ∨ op' = op := by
    rw [hdb]
    exact fun op' => Table.mem_of_insert? hinsert
  have hcharge : db'.charge l = completion.chargedCost :=
    charge_of_operation ((hoperations op).mpr (.inr rfl)) hkey hbody
  have hclaims : ∀ runId, db'.claims runId = db.claims runId - if j.spec.runId = runId then j.spec.estimatedCost else 0 := by
    refine claims_released (completedJob completion retryDelay now) (fun _ => rfl) hj (hlinks.claimed hl hactive hj hid).1 ?_ hjobs
    rcases completedJob_status completion retryDelay now j with ⟨he, _⟩ | he | he | he <;> rw [he] <;> decide
  have hcharges : ∀ runId, db'.charges runId = db.charges runId + if l.runId = runId then db'.charge l else 0 :=
    charges_complete hr (fun op' hop => (hoperations op').mpr (.inl hop)) hl hactive hleases
  have hrunId := hlinks.runId_eq hl hj hid
  have hr'' := hr'
  rw [hdb] at hr''
  rcases mem_setRun (spend j.spec.estimatedCost completion.chargedCost now) (fun _ => rfl) hr'' with
    ⟨hrow, hne⟩ | ⟨r, hrow, hrun, rfl⟩
  · refine ⟨r', hrow, .same rfl rfl rfl rfl ?_ ?_⟩
    · rw [hclaims, hrunId, if_neg (fun h => hne h.symm), sub_zero]
    · rw [hcharges, if_neg (fun h => hne h.symm), add_zero]
  · have hback : db'.claims r.runId = db.claims r.runId - j.spec.estimatedCost := by
      rw [hclaims, hrunId, if_pos hrun.symm]
    have hnonneg := claims_nonneg db' r.runId
    refine ⟨r, hrow, rfl, rfl, fun h => ?_, fun h => ?_, fun h hfrugal hsum => ?_⟩
    · show max 0 (r.budgetReserved - j.spec.estimatedCost) = _
      rw [h, ← hback, max_eq_right hnonneg]
    · rw [hcharges, if_pos hrun.symm, hcharge, ← h]
      rfl
    · -- the completion that is charged is one of those that keep to their estimates
      have hmine : closed .completed now (some completion.outcome) l ∈ db'.leases := by
        rw [hleases]
        exact Table.mem_update_of_pos hl (decide_eq_true rfl)
      have hjob : completedJob completion retryDelay now j ∈ db'.jobs := by
        rw [hjobs]
        exact Table.mem_update_of_pos hj (decide_eq_true rfl)
      have hcost : db'.charge l ≤ db'.estimate l :=
        hfrugal (closed .completed now (some completion.outcome) l) hmine rfl hrun.symm
      rw [estimate_of_job hjob hid, hcharge] at hcost
      have hcost : completion.chargedCost ≤ j.spec.estimatedCost := hcost
      show max 0 (r.budgetReserved - j.spec.estimatedCost) + (r.budgetSpent + completion.chargedCost) ≤
        r.budgetCeiling + tolerance
      rw [h, ← hback, max_eq_right hnonneg]
      linarith

theorem moves_cancels {row : Run} {reason : String} (hr : Recorded db) {r' : Run}
    (hdb : db' = db.cancelled row.runId reason now)
    (hr' : r' ∈ db'.runs) : ∃ r, r ∈ db.runs ∧ Moves db db' r r' := by
  have hmapped : db.jobs.Mapped
      (fun j => if isOpenOf row.runId j then withoutLease .cancelled j.readyAt (some reason) now j else j) db'.jobs := by
    rw [hdb]
    exact (Table.mapped_update (h := by intro _; rfl))
  have hclaims : ∀ runId, runId ≠ row.runId → db'.claims runId = db.claims runId := by
    intro runId hne
    refine claims_eq hmapped fun j _ => ?_
    split
    · rename_i hopen
      have hrun := (of_decide_eq_true hopen).1
      rw [claimShare_of_not (fun h => by cases h), claimShare, Table.share_of_neg]
      simp [isClaimedOf, hrun, Ne.symm hne]
    · rfl
  have hnone : db'.claims row.runId = 0 := by
    rw [claims, Table.total_eq]
    refine List.sum_eq_zero fun x hx => ?_
    obtain ⟨j', hj', rfl⟩ := List.mem_map.mp hx
    obtain ⟨j, _, rfl⟩ := hmapped.mem hj'
    show claimShare row.runId _ = 0
    split
    · exact claimShare_of_not fun h => by cases h
    · rename_i hopen
      by_cases hclaimed : j.status = .claimed
      · rw [claimShare_of_claimed hclaimed, if_neg]
        intro hrun
        simp [isOpenOf, hrun, hclaimed] at hopen
      · exact claimShare_of_not hclaimed
  have hcharges : ∀ runId, db'.charges runId = db.charges runId := by
    rw [hdb]
    refine charges_eq hr (fun _ hop => hop) (Table.mapped_update (f := closed .cancelled now none) (h := fun _ => rfl))
      (ends_update (by decide) fun l _ hactive => of_decide_eq_true (Bool.and_eq_true_iff.mp hactive).1)
      fun l _ => ?_
    split
    · intro h
      cases h
    · exact id
  have hr'' := hr'
  rw [hdb] at hr''
  rcases mem_setRun (withoutReserve now) (fun _ => rfl) hr'' with ⟨hrow, hne⟩ | ⟨r, hrow, hrun, rfl⟩
  · exact ⟨r', hrow, .same rfl rfl rfl rfl (hclaims _ hne) (hcharges _)⟩
  · refine ⟨r, hrow, rfl, rfl, fun _ => ?_, fun h => ?_, fun h _ hsum => ?_⟩
    · rw [hrun, hnone]
      rfl
    · rw [hcharges, ← h]
      rfl
    · have hnonneg := claims_nonneg db r.runId
      show 0 + r.budgetSpent ≤ r.budgetCeiling + tolerance
      linarith

theorem balanced_of_change (hchange : Change limits db db') (hlinks : Links db) (hr : Recorded db) (h : Balanced db) :
    Balanced db' := by
  have hgrows := grows_of_change hlinks hchange
  cases hchange with
  | outbox => exact ⟨h.reserved, h.spent, h.ceiling⟩
  | registers r hnone hceiling hreserved hspent => exact balanced_registers h hlinks hnone hceiling hreserved hspent
  | transits row target now op operations outbox hrow htarget =>
    have hcharges := charges_eq hr hgrows.operations .refl (.refl _) fun _ _ => id
    refine h.moves hlinks hr hgrows fun r' hr' => ?_
    rcases mem_setRun (withState target now) (fun _ => rfl) hr' with ⟨hr', _⟩ | ⟨r, hrun, _, rfl⟩
    · exact ⟨r', hr', .same rfl rfl rfl rfl rfl (hcharges _)⟩
    · exact ⟨r, hrun, .same rfl rfl rfl rfl rfl (hcharges _)⟩
  | enqueues j r jobs hrun hid hinsert hready hattempt =>
    refine h.moves hlinks hr hgrows fun r' hr' => ⟨r', hr', .same rfl rfl rfl rfl ?_ rfl⟩
    rw [claims, claims, Table.total_insert? hinsert, Table.share_of_neg, add_zero]
    simp [isClaimedOf, isClaimed, hready]
  | dues now =>
    refine h.moves hlinks hr hgrows fun r' hr' => ⟨r', hr', .same rfl rfl rfl rfl ?_ rfl⟩
    refine claims_eq (Table.mapped_update (p := isDue now) (f := withStatus .ready now none) (h := fun _ => rfl)) fun j _ => ?_
    split
    · rename_i hdue
      have hstatus : j.status = .retryScheduled := of_decide_eq_true (Bool.and_eq_true_iff.mp hdue).1
      rw [claimShare_of_not (fun h => by cases h), claimShare_of_not (by rw [hstatus]; decide)]
    · rfl
  | awaits j now hj hready =>
    refine h.moves hlinks hr hgrows fun r' hr' => ⟨r', hr', .same rfl rfl rfl rfl ?_ rfl⟩
    refine claims_eq (Table.mapped_update (p := fun a => decide (a.jobId = j.jobId))
      (f := withStatus .waitingBudget now (some "budget unavailable")) (h := fun _ => rfl)) fun a ha => ?_
    split
    · rename_i hid
      obtain rfl := Table.eq_of_key ha hj (of_decide_eq_true hid)
      rw [claimShare_of_not (fun h => by cases h), claimShare_of_not (by rw [hready]; decide)]
    · rfl
  | claims j workerId now l leases hj hstatus hopen haffordable hlease hinsert =>
    exact h.moves hlinks hr hgrows fun r' => moves_claims hj hstatus haffordable hlease hinsert rfl
  | expires l j retryDelay now hl hactive hj hid =>
    exact h.moves hlinks hr hgrows fun r' => moves_expires hlinks hr hl hactive hj hid rfl
  | completes l j completion op operations retryDelay now hl hactive hj hid hkey hsubject hbody hinsert =>
    exact h.moves hlinks hr hgrows fun r' =>
      moves_completes hlinks hr hl hactive hj hid hkey hbody hinsert rfl
  | recovers l op operations hl hcompleted hkey hinsert => exact (hr.not_again hl hcompleted hkey hinsert).elim
  | cancels row reason now hrow hterminal => exact h.moves hlinks hr hgrows fun r' => moves_cancels hr rfl

end

end Workflow
end DarkFactory
