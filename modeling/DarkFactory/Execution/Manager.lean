import DarkFactory.Execution.Ceilings

/-!
# DarkFactory.Execution.Manager

One `ExecutionBudgetManager` and its histories.

* `step` — one call, at the values the clock returns.
* `accounting_run` — after every call of a history the balances are the sums they stand for and the
  active reservations within the limit; if no commit charged more than it had reserved, the budgets
  are within their ceilings.
-/

namespace DarkFactory
namespace Execution

/-- `get_budget` writes outside of a `with` block: until the next block ends, `db` may differ from
`saved`. `clock` is the last value `self._clock()` has returned. -/
structure Manager where
  db : Db
  saved : Db
  clock : DateTime

namespace Manager

def start (db : Db) (clock : DateTime) : Manager := ⟨db, db, clock⟩

/-- `with self._conn:`. The commit and the rollback take what was written before the block along. -/
def withBlock {α : Type} (p : Call α) (m : Manager) : Except BudgetError α × Manager :=
  match p.run m.db with
  | (.ok a, db) => (.ok a, { m with db := db, saved := db })
  | (.error e, _) => (.error e, { m with db := m.saved })

def reserve (budgetId attemptId : String) (amount leaseSeconds : Rat) (id : String) (t : Readings)
    (m : Manager) : Except BudgetError ReservationRow × Manager :=
  if amount < 0 then (.error .valueError, m)
  else m.withBlock (Execution.reserve budgetId attemptId amount leaseSeconds id t)

def commit (reservationId : String) (attempt : AttemptRecord) (m : Manager) : Except BudgetError Rat × Manager :=
  m.withBlock (Execution.commit reservationId attempt)

def release (reservationId : String) (m : Manager) : Except BudgetError Unit × Manager :=
  m.withBlock (Execution.release reservationId)

def releaseIfActive (reservationId : String) (m : Manager) : Except BudgetError Bool × Manager :=
  match m.release reservationId with
  | (.ok _, m') => (.ok true, m')
  | (.error .invalidReservation, m') => (.ok false, m')
  | (.error .budgetNotFound, m') => (.ok false, m')
  | (.error e, m') => (.error e, m')

def upgradeReservation (reservationId : String) (newAmount : Rat) (t : Readings) (m : Manager) :
    Except BudgetError ReservationRow × Manager :=
  if newAmount < 0 then (.error .valueError, m)
  else m.withBlock (Execution.upgradeReservation reservationId newAmount t)

def expireStaleReservations (budgetId : Option String) (clock : DateTime) (m : Manager) :
    Except BudgetError Nat × Manager :=
  m.withBlock (expireStale budgetId clock)

def getBudget (budgetId : String) (t : Readings) (m : Manager) : Except BudgetError (Option Budget) × Manager :=
  match (Execution.getBudget budgetId t).run m.db with
  | (answer, db) => (answer, { m with db := db })

end Manager

inductive Op where
  | reserve (budgetId attemptId : String) (amount leaseSeconds : Rat) (id : String) (t : Readings)
  | commit (reservationId : String) (attempt : AttemptRecord) (now : DateTime)
  | release (reservationId : String) (now : DateTime)
  | releaseIfActive (reservationId : String) (now : DateTime)
  | upgradeReservation (reservationId : String) (newAmount : Rat) (t : Readings)
  | expireStaleReservations (budgetId : Option String) (now : DateTime)
  | getBudget (budgetId : String) (t : Readings)

namespace Op

/-- The values of the clock, where a call reads fewer of them than four. -/
def readings : Op → Readings
  | .reserve _ _ _ _ _ t => t
  | .commit _ _ now => ⟨now, now, now, now⟩
  | .release _ now => ⟨now, now, now, now⟩
  | .releaseIfActive _ now => ⟨now, now, now, now⟩
  | .upgradeReservation _ _ t => t
  | .expireStaleReservations _ now => ⟨now, now, now, now⟩
  | .getBudget _ t => t

end Op

namespace Manager

def step (m : Manager) (op : Op) : Manager :=
  let m := { m with clock := op.readings.longAt }
  match op with
  | .reserve budgetId attemptId amount leaseSeconds id t =>
    (m.reserve budgetId attemptId amount leaseSeconds id t).2
  | .commit reservationId attempt _ => (m.commit reservationId attempt).2
  | .release reservationId _ => (m.release reservationId).2
  | .releaseIfActive reservationId _ => (m.releaseIfActive reservationId).2
  | .upgradeReservation reservationId newAmount t =>
    (m.upgradeReservation reservationId newAmount t).2
  | .expireStaleReservations budgetId now => (m.expireStaleReservations budgetId now).2
  | .getBudget budgetId t => (m.getBudget budgetId t).2

end Manager

structure Readings.InOrder (clock : DateTime) (t : Readings) : Prop where
  now : clock.utcWall ≤ t.now.utcWall
  expireAt : t.now.utcWall ≤ t.expireAt.utcWall
  shortAt : t.expireAt.utcWall ≤ t.shortAt.utcWall
  longAt : t.shortAt.utcWall ≤ t.longAt.utcWall

variable {clock : DateTime} {m : Manager}

theorem Readings.InOrder.short {t : Readings} (h : t.InOrder clock) : clock.utcWall ≤ t.shortAt.utcWall :=
  h.now.trans (h.expireAt.trans h.shortAt)

theorem Readings.InOrder.long {t : Readings} (h : t.InOrder clock) : clock.utcWall ≤ t.longAt.utcWall :=
  h.short.trans h.longAt

namespace Op

def AmountInUnits : Op → Prop
  | .reserve _ _ amount _ _ _ => InUnits amount
  | .upgradeReservation _ newAmount _ => InUnits newAmount
  | _ => True

def ChargesAtMost (db : Db) : Op → Prop
  | .commit reservationId attempt _ => ∀ charged db' res,
    (Execution.commit reservationId attempt).run db = (.ok charged, db') →
    db.attempts.get? attempt.attemptId = none → db.reservations.get? reservationId = some res →
    charged ≤ res.amount
  | _ => True

def MeasuresNonneg (db : Db) : Op → Prop
  | .commit reservationId attempt _ => ∀ cost res row w, attempt.measuredCost = some cost →
    db.reservations.get? reservationId = some res → db.budgets.get? res.budgetId = some row →
    row.HasWindow w → 0 ≤ cost
  | _ => True

end Op

/-- `register_budget`: the row is inserted, or replaced up to its balances. -/
def Db.register (b : BudgetRow) (db : Db) : Db :=
  match db.budgets.insert? b with
  | some budgets => { db with budgets := budgets }
  | none => setBudget b.budgetId
    (fun q => { b with budgetId := q.budgetId, reserved := q.reserved, spent := q.spent })
    (fun _ => rfl) db

structure BudgetRow.Valid (b : BudgetRow) : Prop where
  ceiling : 0 ≤ b.ceiling
  window : ∀ w, b.HasWindow w → 0 ≤ w.ceiling

/-- Budgets have been registered, and nothing has been reserved yet. -/
structure Registered (db : Db) : Prop where
  reserved : ∀ b, b ∈ db.budgets → b.reserved = 0
  spent : ∀ b, b ∈ db.budgets → b.spent = 0
  valid : ∀ b, b ∈ db.budgets → b.Valid
  reservations : db.reservations = Table.empty
  attempts : db.attempts = Table.empty

theorem registered_empty : Registered ⟨Table.empty, Table.empty, Table.empty⟩ where
  reserved _ h := absurd h Table.not_mem_empty
  spent _ h := absurd h Table.not_mem_empty
  valid _ h := absurd h Table.not_mem_empty
  reservations := rfl
  attempts := rfl

theorem Registered.register {db : Db} (h : Registered db) {b : BudgetRow} (hv : b.Valid)
    (hr : b.reserved = 0) (hs : b.spent = 0) : Registered (db.register b) := by
  unfold Db.register
  split
  · rename_i budgets hins
    refine ⟨fun q hq => ?_, fun q hq => ?_, fun q hq => ?_, h.reservations, h.attempts⟩
    · rcases (Table.mem_of_insert? hins).mp hq with hq | rfl
      · exact h.reserved q hq
      · exact hr
    · rcases (Table.mem_of_insert? hins).mp hq with hq | rfl
      · exact h.spent q hq
      · exact hs
    · rcases (Table.mem_of_insert? hins).mp hq with hq | rfl
      · exact h.valid q hq
      · exact hv
  · refine ⟨fun q hq => ?_, fun q hq => ?_, fun q hq => ?_, h.reservations, h.attempts⟩
    · rcases Db.mem_setBudget hq with ⟨hm, -⟩ | ⟨q₀, hm, -, rfl⟩
      · exact h.reserved q hm
      · exact h.reserved q₀ hm
    · rcases Db.mem_setBudget hq with ⟨hm, -⟩ | ⟨q₀, hm, -, rfl⟩
      · exact h.spent q hm
      · exact h.spent q₀ hm
    · rcases Db.mem_setBudget hq with ⟨hm, -⟩ | ⟨q₀, hm, -, rfl⟩
      · exact h.valid q hm
      · exact ⟨hv.ceiling, hv.window⟩

theorem Registered.books {db : Db} (h : Registered db) : Books db where
  reserved b hb := by
    rw [h.reserved b hb, Db.activeSum, h.reservations, Table.total_empty]
  spent b hb := by
    rw [h.spent b hb, Db.spentSum, h.attempts, Table.total_empty]
  active_le b hb := by
    rw [Db.activeCount, h.reservations]
    exact Nat.zero_le _
  amount r hr := by
    rw [h.reservations] at hr
    exact absurd hr Table.not_mem_empty
  charged a ha := by
    rw [h.attempts] at ha
    exact absurd ha Table.not_mem_empty

theorem Registered.within {db : Db} (h : Registered db) (now : DateTime) : Within now db where
  ceiling b hb := by
    rw [h.spent b hb, h.reserved b hb, add_zero]
    exact (h.valid b hb).ceiling
  window b hb w hw clock _ := by
    rw [Db.windowSum, h.attempts, Table.total_empty, h.reserved b hb, add_zero]
    exact (h.valid b hb).window w hw
  charged _ _ _ _ a ha := by
    rw [h.attempts] at ha
    exact absurd ha Table.not_mem_empty

theorem withBlock_inv {α : Type} {P : Db → Prop} {p : Call α} (hs : P m.saved)
    (hp : ∀ a db', p.run m.db = (.ok a, db') → P db') :
    P (m.withBlock p).2.db ∧ P (m.withBlock p).2.saved := by
  unfold Manager.withBlock
  split
  · rename_i a db' h
    exact ⟨hp a db' h, hp a db' h⟩
  · exact ⟨hs, hs⟩

theorem releaseIfActive_snd (reservationId : String) (m : Manager) :
    (m.releaseIfActive reservationId).2 = (m.release reservationId).2 := by
  unfold Manager.releaseIfActive
  split <;> simp_all

theorem step_inv {P Q : Db → Prop} {op : Op} (hdb : P m.db) (hs : P m.saved) (hPQ : ∀ db, P db → Q db)
    (hreserve : ∀ budgetId attemptId amount leaseSeconds id t record db',
      op = .reserve budgetId attemptId amount leaseSeconds id t → 0 ≤ amount →
      (reserve budgetId attemptId amount leaseSeconds id t).run m.db = (.ok record, db') → Q db')
    (hcommit : ∀ reservationId attempt now charged db', op = .commit reservationId attempt now →
      (commit reservationId attempt).run m.db = (.ok charged, db') → Q db')
    (hrelease : ∀ reservationId u db', (release reservationId).run m.db = (.ok u, db') → Q db')
    (hupgrade : ∀ reservationId newAmount t record db',
      op = .upgradeReservation reservationId newAmount t → 0 ≤ newAmount →
      (upgradeReservation reservationId newAmount t).run m.db = (.ok record, db') → Q db')
    (hexpire : ∀ budgetId clock, Q (expired budgetId clock m.db)) :
    Q (m.step op).db ∧ Q (m.step op).saved := by
  have hrel : ∀ reservationId, Q (({ m with clock := op.readings.longAt } : Manager).release reservationId).2.db ∧
        Q (({ m with clock := op.readings.longAt } : Manager).release reservationId).2.saved :=
    fun reservationId => withBlock_inv (hPQ _ hs) fun u db' h => hrelease reservationId u db' h
  cases op with
  | reserve budgetId attemptId amount leaseSeconds id t =>
    simp only [Manager.step, Manager.reserve]
    split
    · exact ⟨hPQ _ hdb, hPQ _ hs⟩
    · rename_i hnn
      exact withBlock_inv (hPQ _ hs) fun record db' h =>
        hreserve _ _ _ _ _ _ record db' rfl (not_lt.mp hnn) h
  | commit reservationId attempt now =>
    exact withBlock_inv (hPQ _ hs) fun charged db' h => hcommit _ _ _ charged db' rfl h
  | release reservationId now => exact hrel reservationId
  | releaseIfActive reservationId now =>
    simp only [Manager.step, releaseIfActive_snd]
    exact hrel reservationId
  | upgradeReservation reservationId newAmount t =>
    simp only [Manager.step, Manager.upgradeReservation]
    split
    · exact ⟨hPQ _ hdb, hPQ _ hs⟩
    · rename_i hnn
      exact withBlock_inv (hPQ _ hs) fun record db' h =>
        hupgrade _ _ _ record db' rfl (not_lt.mp hnn) h
  | expireStaleReservations budgetId now =>
    refine withBlock_inv (hPQ _ hs) fun n db' h => ?_
    have e := run_expireStale budgetId now m.db
    change (expireStale budgetId now).run m.db = _ at h
    rw [e] at h
    cases h
    exact hexpire budgetId now
  | getBudget budgetId t =>
    refine ⟨?_, hPQ _ hs⟩
    show Q ((getBudget budgetId t).run m.db).2
    rw [getBudget_run]
    exact hexpire _ _

theorem step_books {op : Op} (hdb : Books m.db) (hs : Books m.saved)
    (hu : op.AmountInUnits) : Books (m.step op).db ∧ Books (m.step op).saved := by
  refine step_inv hdb hs (fun _ h => h) ?_ ?_ ?_ ?_ fun _ _ => (expired_books hdb _ _).1
  · rintro _ _ _ _ _ _ record db' rfl hnn hrun
    exact (reserve_books hdb hnn hu hrun).1
  · rintro _ _ _ charged db' rfl hrun
    exact (commit_books hdb hrun).1
  · intro _ _ db' hrun
    exact (release_books hdb hrun).1
  · rintro _ _ _ record db' rfl hnn hrun
    exact (upgradeReservation_books hdb hnn hu hrun).1

theorem chargedCost_nonneg {policy : UnknownCostPolicy} {amount : Rat} {attempt : AttemptRecord}
    {cost : Rat} (h : chargedCost policy amount attempt = .ok cost)
    (hm : ∀ c, attempt.measuredCost = some c → 0 ≤ c) : 0 ≤ cost := by
  have he := attempt.estimated_nonneg
  unfold chargedCost at h
  split at h
  · rename_i c hc
    cases h
    exact hm _ hc
  · split at h
    · cases h
    · cases h
      exact he
    · cases h
      exact le_max_of_le_right (by linarith)

theorem step_within {op : Op} (hdb : Books m.db)
    (hin : Within m.clock m.db) (hins : Within m.clock m.saved) (hu : op.AmountInUnits)
    (ht : op.readings.InOrder m.clock) (hle : op.ChargesAtMost m.db) (hnn : op.MeasuresNonneg m.db) :
    Within op.readings.longAt (m.step op).db ∧ Within op.readings.longAt (m.step op).saved := by
  refine step_inv hin hins (fun _ h => h.later ht.long) ?_ ?_ ?_ ?_
    fun _ _ => (hin.lowers (expired_books hdb _ _).2).later ht.long
  · rintro _ _ amount _ _ t record db' rfl hamount hrun
    obtain ⟨-, db₁, row, hb₁, hl, hatt, hrow, hfits, hbud⟩ := reserve_books hdb hamount hu hrun
    exact (hin.lowers hl).raise hb₁ hu hrow hfits ht.short ht.longAt hatt hbud
  · rintro reservationId attempt now charged db' rfl hrun
    refine Within.later ?_ ht.long
    obtain ⟨-, rfl | ⟨res, row, cost, hres, hatt, hid, hcost, rfl, hch⟩⟩ := commit_books hdb hrun
    · exact hin
    · refine hin.settle hch (hle _ _ res hrun hatt hres) fun w hw => round8_nonneg ?_
      exact chargedCost_nonneg hcost fun c hc => hnn c res row w hc hres (hid ▸ hch.found) hw
  · intro _ _ db' hrun
    exact (hin.lowers (release_books hdb hrun).2).later ht.long
  · rintro _ newAmount t record db' rfl hamount hrun
    obtain ⟨-, hatt, row, additional, hadd, hrow, hfits, hbud⟩ :=
      upgradeReservation_books hdb hamount hu hrun
    rcases lt_or_ge 0 additional with hpos | hneg
    · exact hin.raise hdb hadd hrow (hfits hpos) ht.short ht.longAt hatt hbud
    -- an upgrade to less is not checked, and lowers what is reserved
    · refine (hin.lowers ⟨hatt, fun b' hb' => ?_⟩).later ht.long
      rw [hbud] at hb'
      rcases Db.mem_setBudget hb' with ⟨hb, -⟩ | ⟨b, hb, hk, rfl⟩
      · exact ⟨b', b'.reserved, hb, le_refl _, rfl⟩
      · refine ⟨b, _, hb, ?_, rfl⟩
        rw [Table.eq_of_key hb (Table.mem_of_get? hrow) hk]
        linarith

theorem withBlock_clock {α : Type} (p : Call α) (m : Manager) : (m.withBlock p).2.clock = m.clock := by
  unfold Manager.withBlock
  split
  · rfl
  · rfl

theorem step_clock (m : Manager) (op : Op) : (m.step op).clock = op.readings.longAt := by
  cases op with
  | reserve =>
    simp only [Manager.step, Manager.reserve]
    split
    · rfl
    · exact withBlock_clock _ _
  | commit => exact withBlock_clock _ _
  | release => exact withBlock_clock _ _
  | releaseIfActive =>
    simp only [Manager.step, releaseIfActive_snd]
    exact withBlock_clock _ _
  | upgradeReservation =>
    simp only [Manager.step, Manager.upgradeReservation]
    split
    · rfl
    · exact withBlock_clock _ _
  | expireStaleReservations => exact withBlock_clock _ _
  | getBudget => rfl

theorem accounting_run {db : Db} (h : Registered db) (clock : DateTime) (ops : List Op)
    (hops : ∀ mv ∈ Runs.moves Manager.step (Manager.start db clock) ops,
      mv.act.AmountInUnits ∧ mv.act.readings.InOrder mv.pre.clock) :
    Books (Runs.run Manager.step (Manager.start db clock) ops).db ∧
      ((∀ mv ∈ Runs.moves Manager.step (Manager.start db clock) ops,
          mv.act.ChargesAtMost mv.pre.db) →
        (∀ mv ∈ Runs.moves Manager.step (Manager.start db clock) ops,
          mv.act.MeasuresNonneg mv.pre.db) →
        Within (Runs.run Manager.step (Manager.start db clock) ops).clock
          (Runs.run Manager.step (Manager.start db clock) ops).db) := by
  constructor
  · refine (Runs.run_invariant_of (I := fun m : Manager => Books m.db ∧ Books m.saved)
      (C := fun _ op => op.AmountInUnits) (fun m op hI hu => step_books hI.1 hI.2 hu)
      ⟨h.books, h.books⟩ fun mv hmv => (hops mv hmv).1).1
  · intro hle hnn
    refine (Runs.run_invariant_of
      (I := fun m : Manager => (Books m.db ∧ Books m.saved) ∧
        Within m.clock m.db ∧ Within m.clock m.saved)
      (C := fun m op => op.AmountInUnits ∧ op.readings.InOrder m.clock ∧
        op.ChargesAtMost m.db ∧ op.MeasuresNonneg m.db)
      (fun m op hI hc => ?_) ⟨⟨h.books, h.books⟩, h.within clock, h.within clock⟩
      fun mv hmv => ⟨(hops mv hmv).1, (hops mv hmv).2, hle mv hmv, hnn mv hmv⟩).2.1
    obtain ⟨hu, ht, hc, hm⟩ := hc
    rw [step_clock]
    exact ⟨step_books hI.1.1 hI.1.2 hu, step_within hI.1.1 hI.2.1 hI.2.2 hu ht hc hm⟩

/-! A budget of 100 with a window of 60 seconds and 10. -/

def clockAt (seconds : Int) : DateTime := ⟨seconds * DateTime.second, some 0⟩

def readingsAt (seconds : Int) : Readings :=
  ⟨clockAt seconds, clockAt seconds, clockAt seconds, clockAt seconds⟩

theorem readingsAt_inOrder {seconds : Int}
    (h : clock.utcWall ≤ (clockAt seconds).utcWall) : (readingsAt seconds).InOrder clock :=
  ⟨h, le_refl _, le_refl _, le_refl _⟩

theorem inUnits_int (n : Int) : InUnits n := ⟨n * 100000000, by push_cast; ring⟩

def windowed : BudgetRow where
  budgetId := "b"
  ceiling := 100
  shortWindow := some ⟨60, 10⟩

def windowedDb : Db := Db.register windowed ⟨Table.empty, Table.empty, Table.empty⟩

theorem windowedDb_registered : Registered windowedDb := by
  refine registered_empty.register ⟨by decide, fun w hw => ?_⟩ rfl rfl
  rcases hw with hw | hw
  · cases hw
    decide
  · cases hw

def attemptAt (seconds : Int) (cost : Rat) : AttemptRecord where
  attemptId := "a"
  inputArtifactHash := "in"
  measuredCost := some cost
  timestamp := clockAt seconds
  estimated_nonneg := le_refl 0

/-- 10 is reserved, `cost` is committed, and 10 seconds later `amount` is reserved for longer than the
window. -/
def windowedOps (cost : Rat) (amount : Int) : List Op :=
  [.reserve "b" "a" 10 60 "1" (readingsAt 0), .commit "res-1" (attemptAt 1 cost) (clockAt 1),
    .reserve "b" "c" amount 1000 "2" (readingsAt 10),
    .expireStaleReservations none (clockAt 100)]

theorem windowedOps_inOrder (cost : Rat) (amount : Int) :
    ∀ mv ∈ Runs.moves Manager.step (Manager.start windowedDb (clockAt 0)) (windowedOps cost amount),
      mv.act.AmountInUnits ∧ mv.act.readings.InOrder mv.pre.clock := by
  simp only [windowedOps, Runs.moves, List.forall_mem_cons, step_clock]
  have hle : ∀ a b : Int, a ≤ b → (clockAt a).utcWall ≤ (clockAt b).utcWall := by
    intro a b hab
    simp only [clockAt, DateTime.utcWall, DateTime.astimezoneUtc, DateTime.second, Option.getD_some]
    omega
  refine ⟨⟨inUnits_int 10, readingsAt_inOrder (hle 0 0 (by decide))⟩,
    ⟨trivial, readingsAt_inOrder (hle 0 1 (by decide))⟩,
    ⟨inUnits_int amount, readingsAt_inOrder (hle 1 10 (by decide))⟩,
    ⟨trivial, readingsAt_inOrder (hle 10 100 (by decide))⟩, fun _ h => by cases h⟩

theorem windowedOps_chargesAtMost {cost : Rat} {amount : Int} (hle : round8 cost ≤ 10) :
    ∀ mv ∈ Runs.moves Manager.step (Manager.start windowedDb (clockAt 0)) (windowedOps cost amount),
      mv.act.ChargesAtMost mv.pre.db := by
  simp only [windowedOps, Runs.moves, List.forall_mem_cons]
  refine ⟨trivial, fun charged db' res hrun hatt hres => ?_, trivial, trivial, fun _ h => by cases h⟩
  have hamount : ∀ res, (Manager.step (Manager.start windowedDb (clockAt 0))
      (.reserve "b" "a" 10 60 "1" (readingsAt 0))).db.reservations.get? "res-1" = some res →
      res.amount = 10 := by
    intro r hr
    have h : ((Manager.step (Manager.start windowedDb (clockAt 0))
      (.reserve "b" "a" 10 60 "1" (readingsAt 0))).db.reservations.get? "res-1").map
        ReservationRow.amount = some 10 := by decide +kernel
    rw [hr] at h
    exact Option.some.inj h
  rw [hamount res hres]
  rcases commit_ok hrun with ⟨-, hrec⟩ | ⟨_, row, c, attempts, -, -, -, hc, rfl, -⟩
  · exact absurd hatt hrec
  · cases hc
    exact hle

theorem windowedOps_measuresNonneg {cost : Rat} {amount : Int} (hnn : 0 ≤ cost) :
    ∀ mv ∈ Runs.moves Manager.step (Manager.start windowedDb (clockAt 0)) (windowedOps cost amount),
      mv.act.MeasuresNonneg mv.pre.db := by
  simp only [windowedOps, Runs.moves, List.forall_mem_cons]
  refine ⟨trivial, fun c _ _ _ hc _ _ _ => ?_, trivial, trivial, fun _ h => by cases h⟩
  cases hc
  exact hnn

theorem accounting_run_windowed :
    Books (Runs.run Manager.step (Manager.start windowedDb (clockAt 0)) (windowedOps 4 3)).db ∧
      Within (Runs.run Manager.step (Manager.start windowedDb (clockAt 0)) (windowedOps 4 3)).clock
        (Runs.run Manager.step (Manager.start windowedDb (clockAt 0)) (windowedOps 4 3)).db := by
  have h := accounting_run windowedDb_registered (clockAt 0) (windowedOps 4 3)
    (windowedOps_inOrder 4 3)
  exact ⟨h.1, h.2 (windowedOps_chargesAtMost (by decide +kernel))
    (windowedOps_measuresNonneg (by decide))⟩

/-- A measured cost of -10 makes room in the window for 20; once it has left the window, they exceed
its ceiling of 10. -/
theorem window_overrun :
    Registered windowedDb ∧
      (∀ mv ∈ Runs.moves Manager.step (Manager.start windowedDb (clockAt 0)) (windowedOps (-10) 20),
        mv.act.AmountInUnits ∧ mv.act.readings.InOrder mv.pre.clock ∧
          mv.act.ChargesAtMost mv.pre.db) ∧
      ∃ b, b ∈ (Runs.run Manager.step (Manager.start windowedDb (clockAt 0))
          (windowedOps (-10) 20)).db.budgets ∧ b.HasWindow ⟨60, 10⟩ ∧
        10 < (Runs.run Manager.step (Manager.start windowedDb (clockAt 0))
          (windowedOps (-10) 20)).db.windowSum b.budgetId 60 (clockAt 100) + b.reserved := by
  refine ⟨windowedDb_registered, fun mv hmv => ?_, by decide +kernel⟩
  obtain ⟨hu, ht⟩ := windowedOps_inOrder (-10) 20 mv hmv
  exact ⟨hu, ht, windowedOps_chargesAtMost (by decide +kernel) mv hmv⟩

end Execution
end DarkFactory
