import DarkFactory.Execution.Budget

/-!
# DarkFactory.Execution.BudgetSpec

One specification per method of the budget manager: what a call that returns has found, and which
tables it leaves.

* `Fits` — the ceilings an additional amount has passed.
-/

namespace DarkFactory
namespace Execution

open Prog

@[simp] theorem run_check (failed : Prop) [Decidable failed] (error : BudgetError) (db : Db) :
    (check failed error).run db = if failed then (.error error, db) else (.ok (), db) := by
  unfold check
  split
  · rfl
  · rfl

theorem check_readsOnly (failed : Prop) [Decidable failed] (error : BudgetError) :
    ReadsOnly (check failed error) := by
  unfold check
  split
  · exact .raise error
  · exact .pure ()

theorem check_ok {failed : Prop} [Decidable failed] {error : BudgetError} {db db' : Db} {u : Unit}
    (h : (check failed error).run db = (.ok u, db')) : ¬ failed ∧ db' = db := by
  rw [run_check] at h
  split at h
  · cases h
  · rename_i hf
    cases h
    exact ⟨hf, rfl⟩

variable {db db' : Db} {additional : Rat} {u : Unit} {row : BudgetRow} {t : Readings} {reservationId : String}

theorem fetch_ok {α : Type} {q : Db → Option α} {error : BudgetError} {a : α}
    (h : (fetch q error).run db = (.ok a, db')) : q db = some a ∧ db' = db := by
  unfold fetch at h
  rw [run_bind, run_query] at h
  simp only at h
  split at h
  · rename_i a' hq
    cases h
    exact ⟨hq, rfl⟩
  · cases h

def expireRow (db : Db) (row : ReservationRow) : Db :=
  Db.setReserved row.budgetId
    (round8 ((Db.setStatus row.reservationId .expired db).activeSum row.budgetId))
    (Db.setStatus row.reservationId .expired db)

/-- The tables `_expire_stale_unlocked` leaves. -/
def expired (budgetId : Option String) (clock : DateTime) (db : Db) : Db :=
  (db.reservations.select (Db.isStale budgetId clock)).foldl expireRow db

theorem run_expireRows (rows : List ReservationRow) (db : Db) :
    (expireRows rows).run db = (.ok (), rows.foldl expireRow db) := by
  induction rows generalizing db with
  | nil => rfl
  | cons row rows ih =>
    simp only [expireRows, run_bind, run_update, run_query, List.foldl_cons]
    exact ih _

theorem run_expireStale (budgetId : Option String) (clock : DateTime) (db : Db) :
    (expireStale budgetId clock).run db = (.ok (db.reservations.select (Db.isStale budgetId clock)).length,
        expired budgetId clock db) := by
  simp only [expireStale, run_bind, run_query, run_expireRows]
  rfl

def FitsWindow (db : Db) (budgetId : String) (clock : DateTime) (reserved additional : Rat)
    (w : Window) : Prop :=
  round8 (round8 (db.windowSum budgetId w.duration clock) + reserved + additional) ≤ w.ceiling

structure Fits (db : Db) (row : BudgetRow) (t : Readings) (additional : Rat) : Prop where
  ceiling : round8 (row.spent + row.reserved + additional) ≤ row.ceiling
  short : ∀ w, row.shortWindow = some w → FitsWindow db row.budgetId t.shortAt row.reserved additional w
  long : ∀ w, row.longWindow = some w → FitsWindow db row.budgetId t.longAt row.reserved additional w

theorem checkWindow_ok {budgetId : String} {window : Option Window} {clock : DateTime} {reserved : Rat}
    (h : (checkWindow budgetId window clock reserved additional).run db = (.ok u, db')) :
    db' = db ∧ ∀ w, window = some w → FitsWindow db budgetId clock reserved additional w := by
  unfold checkWindow at h
  cases window with
  | none =>
    cases h
    exact ⟨rfl, fun _ hw => by cases hw⟩
  | some w =>
    simp only [bind_ok, computeWindowSpent, run_query] at h
    obtain ⟨_, _, hq, h⟩ := h
    cases hq
    obtain ⟨hle, rfl⟩ := check_ok h
    refine ⟨rfl, fun w' hw => ?_⟩
    cases hw
    exact not_lt.mp hle

theorem checkCeilings_ok (h : (checkCeilings row t additional).run db = (.ok u, db')) :
    db' = db ∧ Fits db row t additional := by
  simp only [checkCeilings, bind_ok] at h
  obtain ⟨_, _, h₁, _, _, h₂, h₃⟩ := h
  obtain ⟨hle, rfl⟩ := check_ok h₁
  obtain ⟨rfl, hshort⟩ := checkWindow_ok h₂
  obtain ⟨rfl, hlong⟩ := checkWindow_ok h₃
  exact ⟨rfl, not_lt.mp hle, hshort, hlong⟩

theorem checkUpgrade_ok (h : (checkUpgrade row t additional).run db = (.ok u, db')) :
    db' = db ∧ (0 < additional → Fits db row t additional) := by
  unfold checkUpgrade at h
  split at h
  · obtain ⟨rfl, hfits⟩ := checkCeilings_ok h
    exact ⟨rfl, fun _ => hfits⟩
  · rename_i hle
    cases h
    exact ⟨rfl, fun hlt => absurd hlt hle⟩

theorem checkDeadline_ok {now : DateTime} (h : (checkDeadline row now).run db = (.ok u, db')) : db' = db := by
  unfold checkDeadline at h
  split at h
  · cases h
    rfl
  · simp only [bind_ok] at h
    obtain ⟨_, _, h₁, h₂⟩ := h
    obtain ⟨-, rfl⟩ := check_ok h₁
    exact (check_ok h₂).2

/-- The row `reserve` inserts. -/
def reservationRow (budgetId attemptId : String) (amount leaseSeconds : Rat) (id : String)
    (now : DateTime) : ReservationRow where
  reservationId := "res-" ++ id
  budgetId := budgetId
  attemptId := attemptId
  amount := amount
  status := .active
  createdAt := now.astimezoneUtc
  expiresAt := (leaseEnd now leaseSeconds).map DateTime.astimezoneUtc

theorem insertReservation_ok {r : ReservationRow} (h : (tryWrite (Db.insertReservation r)).run db = (.ok u, db')) :
    ∃ reservations, db.reservations.insert? r = some reservations ∧
      db' = { db with reservations := reservations } := by
  rw [run_tryWrite, Db.insertReservation] at h
  split at h
  · rename_i s' hs
    split at hs
    · cases hs
    · rename_i reservations hins
      cases hs
      cases h
      exact ⟨reservations, hins, rfl⟩
  · cases h

theorem insertAttempt_ok {a : AttemptRow} (h : (tryWrite (Db.insertAttempt a)).run db = (.ok u, db')) :
    ∃ attempts, db.attempts.insert? a = some attempts ∧ db' = { db with attempts := attempts } := by
  rw [run_tryWrite, Db.insertAttempt] at h
  split at h
  · rename_i s' hs
    split at hs
    · cases hs
    · rename_i attempts hins
      cases hs
      cases h
      exact ⟨attempts, hins, rfl⟩
  · cases h

theorem reserve_ok {budgetId attemptId : String} {amount leaseSeconds : Rat} {id : String} {record : ReservationRow}
    (h : (reserve budgetId attemptId amount leaseSeconds id t).run db = (.ok record, db')) :
    ∃ row reservations, (expired (some budgetId) t.expireAt db).budgets.get? budgetId = some row ∧
      (expired (some budgetId) t.expireAt db).activeCount budgetId < row.concurrencyLimit ∧
      Fits (expired (some budgetId) t.expireAt db) row t amount ∧
      (expired (some budgetId) t.expireAt db).reservations.insert?
        (reservationRow budgetId attemptId amount leaseSeconds id t.now) = some reservations ∧
      db' = Db.setReserved budgetId (round8 (row.reserved + amount))
        { expired (some budgetId) t.expireAt db with reservations := reservations } := by
  simp only [reserve, bind_ok, run_expireStale, run_query, run_update] at h
  obtain ⟨_, _, he, row, _, hrow, _, _, hdead, _, _, hatt, _, _, hmax, _, _, hact, _, _, hlim, _, _,
    hceil, _, _, hins, _, _, hupd, h⟩ := h
  cases he
  obtain ⟨hget, rfl⟩ := fetch_ok hrow
  obtain rfl := checkDeadline_ok hdead
  cases hatt
  obtain ⟨-, rfl⟩ := check_ok hmax
  cases hact
  obtain ⟨hfree, rfl⟩ := check_ok hlim
  obtain ⟨rfl, hfits⟩ := checkCeilings_ok hceil
  obtain ⟨reservations, hnew, rfl⟩ := insertReservation_ok hins
  cases hupd
  cases h
  exact ⟨row, reservations, hget, not_le.mp hfree, hfits, hnew, rfl⟩

theorem Db.withCost_reservationId (cost : Rat) (r : ReservationRow) :
    (Db.withCost cost r).reservationId = r.reservationId := rfl

theorem Db.withBalances_budgetId (reserved spent : Rat) (b : BudgetRow) :
    (Db.withBalances reserved spent b).budgetId = b.budgetId := rfl

def settle (reservationId : String) (attempt : AttemptRecord) (res : ReservationRow) (row : BudgetRow)
    (charged : Rat) : Call Rat := do
  tryWrite (Db.insertAttempt
    { budgetId := res.budgetId
      record := { attempt with timestamp := attempt.timestamp.astimezoneUtc }
      chargedCost := charged })
  update (Db.setReservation reservationId (Db.withCost charged) (Db.withCost_reservationId charged))
  update (Db.setBudget res.budgetId
    (Db.withBalances (max 0 (round8 (row.reserved - res.amount))) (round8 (row.spent + charged)))
    (Db.withBalances_budgetId _ _))
  pure charged

theorem settle_ok {attempt : AttemptRecord} {res : ReservationRow} {cost charged : Rat}
    (h : (settle reservationId attempt res row cost).run db = (.ok charged, db')) :
    charged = cost ∧ ∃ attempts, db.attempts.insert?
        { budgetId := res.budgetId
          record := { attempt with timestamp := attempt.timestamp.astimezoneUtc }
          chargedCost := charged } = some attempts ∧
      db' = Db.setBudget res.budgetId
        (Db.withBalances (max 0 (round8 (row.reserved - res.amount))) (round8 (row.spent + charged))) (Db.withBalances_budgetId _ _)
        (Db.setReservation reservationId (Db.withCost charged) (Db.withCost_reservationId charged) { db with attempts := attempts }) := by
  unfold settle at h
  simp only [bind_ok, run_update] at h
  obtain ⟨_, _, hins, _, _, hu₁, _, _, hu₂, h⟩ := h
  obtain ⟨attempts, hnew, rfl⟩ := insertAttempt_ok hins
  cases hu₁
  cases hu₂
  cases h
  exact ⟨rfl, attempts, hnew, rfl⟩

theorem commit_eq (reservationId : String) (attempt : AttemptRecord) :
    commit reservationId attempt = (do
      let res ← fetch (fun db => db.reservations.get? reservationId) .invalidReservation
      match ← query fun db => db.attempts.get? attempt.attemptId with
      | some existing =>
        if existing.record.outcome = attempt.outcome then pure existing.chargedCost
        else raise .invalidReservation
      | none => do
        check (res.status ≠ .active) .invalidReservation
        let row ← fetch (fun db => db.budgets.get? res.budgetId) .budgetNotFound
        match chargedCost row.unknownCostPolicy res.amount attempt with
        | .error e => raise e
        | .ok cost => settle reservationId attempt res row (round8 cost)) :=
  rfl

theorem commit_ok {attempt : AttemptRecord} {charged : Rat}
    (h : (commit reservationId attempt).run db = (.ok charged, db')) :
    (db' = db ∧ db.attempts.get? attempt.attemptId ≠ none) ∨
      ∃ res row cost attempts, db.reservations.get? reservationId = some res ∧
        res.status = .active ∧ db.budgets.get? res.budgetId = some row ∧
        chargedCost row.unknownCostPolicy res.amount attempt = .ok cost ∧ charged = round8 cost ∧
        db.attempts.insert?
          { budgetId := res.budgetId
            record := { attempt with timestamp := attempt.timestamp.astimezoneUtc }
            chargedCost := charged } = some attempts ∧
        db' = Db.setBudget res.budgetId
          (Db.withBalances (max 0 (round8 (row.reserved - res.amount)))
            (round8 (row.spent + charged))) (Db.withBalances_budgetId _ _)
          (Db.setReservation reservationId (Db.withCost charged) (Db.withCost_reservationId charged)
            { db with attempts := attempts }) := by
  rw [commit_eq] at h
  simp only [bind_ok, run_query] at h
  obtain ⟨res, _, hres, existing, _, hq, h⟩ := h
  obtain ⟨hget, rfl⟩ := fetch_ok hres
  cases hq
  split at h
  · rename_i existing hrec
    split at h
    · cases h
      exact .inl ⟨rfl, fun hnone => by rw [hnone] at hrec; cases hrec⟩
    · cases h
  · simp only [bind_ok] at h
    obtain ⟨_, _, hst, row, _, hrow, h⟩ := h
    obtain ⟨hact, rfl⟩ := check_ok hst
    obtain ⟨hbud, rfl⟩ := fetch_ok hrow
    split at h
    · cases h
    · rename_i cost hcost
      obtain ⟨hcharged, attempts, hnew, hdb⟩ := settle_ok h
      exact .inr ⟨res, row, cost, attempts, hget, not_not.mp hact, hbud, hcost, hcharged, hnew, hdb⟩

theorem release_ok (h : (release reservationId).run db = (.ok u, db')) :
    ∃ res, db.reservations.get? reservationId = some res ∧ res.status = .active ∧
      ((db.budgets.get? res.budgetId = none ∧ db' = Db.setStatus reservationId .released db) ∨
        ∃ row, db.budgets.get? res.budgetId = some row ∧
          db' = Db.setReserved res.budgetId (max 0 (round8 (row.reserved - res.amount)))
            (Db.setStatus reservationId .released db)) := by
  simp only [release, bind_ok, run_query, run_update] at h
  obtain ⟨res, _, hres, _, _, hst, _, _, hupd, _, _, hq, h⟩ := h
  obtain ⟨hget, rfl⟩ := fetch_ok hres
  obtain ⟨hact, rfl⟩ := check_ok hst
  cases hupd
  cases hq
  refine ⟨res, hget, not_not.mp hact, ?_⟩
  split at h
  · rename_i hnone
    cases h
    exact .inl ⟨hnone, rfl⟩
  · rename_i row hrow
    cases h
    exact .inr ⟨row, hrow, rfl⟩

theorem upgradeReservation_ok {newAmount : Rat} {record : ReservationRow}
    (h : (upgradeReservation reservationId newAmount t).run db = (.ok record, db')) :
    ∃ res row, db.reservations.get? reservationId = some res ∧ res.status = .active ∧
      db.budgets.get? res.budgetId = some row ∧
      (0 < round8 (newAmount - res.amount) → Fits db row t (round8 (newAmount - res.amount))) ∧
      db' = Db.setReserved res.budgetId
        (max 0 (round8 (row.reserved + round8 (newAmount - res.amount))))
        (Db.setReservation reservationId (Db.withAmount newAmount) (fun _ => rfl) db) := by
  simp only [upgradeReservation, bind_ok, run_update] at h
  obtain ⟨res, _, hres, _, _, hst, row, _, hrow, _, _, hcheck, _, _, hu₁, _, _, hu₂, h⟩ := h
  obtain ⟨hget, rfl⟩ := fetch_ok hres
  obtain ⟨hact, rfl⟩ := check_ok hst
  obtain ⟨hbud, rfl⟩ := fetch_ok hrow
  obtain ⟨rfl, hfits⟩ := checkUpgrade_ok hcheck
  cases hu₁
  cases hu₂
  cases h
  exact ⟨res, row, hget, not_not.mp hact, hbud, hfits, rfl⟩

theorem windowSpent_readsOnly (budgetId : String) (window : Option Window) (clock : DateTime) :
    ReadsOnly (windowSpent budgetId window clock) := by
  unfold windowSpent
  split
  · exact .pure none
  · exact .bind (.query _) fun spent => .bind (check_readsOnly _ _) fun _ => .pure (some spent)

/-- Whatever `get_budget` answers, it has expired the stale reservations. -/
theorem getBudget_run (budgetId : String) (t : Readings) (db : Db) :
    ((getBudget budgetId t).run db).2 = expired (some budgetId) t.expireAt db := by
  rw [getBudget, run_bind, run_expireStale]
  refine ReadsOnly.bind (.query _) (fun row => ?_) _
  split
  · exact .pure none
  · refine .bind (windowSpent_readsOnly _ _ _) fun _ => .bind (windowSpent_readsOnly _ _ _) fun _ => ?_
    exact .bind (check_readsOnly _ _) fun _ => .pure _

end Execution
end DarkFactory
