import DarkFactory.Execution.BudgetSpec

/-!
# DarkFactory.Execution.Accounting

What the tables of the budget manager keep between calls.

* `Within` — balances and windows are within their ceilings, from a time on.
-/

namespace DarkFactory

def DateTime.utcWall (d : DateTime) : Int := d.astimezoneUtc.wall

namespace Execution

variable {budgetId reservationId : String} {db db' : Db} {r : ReservationRow}

theorem Db.inWindow_iff {duration : Nat} {clock : DateTime} {a : AttemptRow} :
    Db.inWindow budgetId duration clock a = true ↔ a.budgetId = budgetId ∧
      clock.utcWall - duration * DateTime.second ≤ a.record.timestamp.utcWall := by
  have hutc : ∀ d : DateTime, d.astimezoneUtc.IsUtc := fun _ => rfl
  rw [Db.inWindow, Bool.and_eq_true, decide_eq_true_eq, DateTime.textLe_utc (hutc _) (hutc _),
    DateTime.le_utc (hutc _) (hutc _), decide_eq_true_eq]
  refine and_congr_right fun _ => ?_
  show clock.wall + -(duration : Int) * DateTime.second - clock.utcoffset.getD 0 ≤ a.record.timestamp.utcWall ↔
    clock.wall - clock.utcoffset.getD 0 - duration * DateTime.second ≤ a.record.timestamp.utcWall
  rw [neg_mul]
  omega

theorem Db.windowSum_anti (duration : Nat) {clock clock' : DateTime} (hle : clock.utcWall ≤ clock'.utcWall)
    (hc : ∀ a, a ∈ db.attempts → a.budgetId = budgetId → 0 ≤ a.chargedCost) :
    db.windowSum budgetId duration clock' ≤ db.windowSum budgetId duration clock := by
  refine Table.total_le_total fun a ha => ?_
  cases h' : Db.inWindow budgetId duration clock' a with
  | true =>
    obtain ⟨hb, ht⟩ := Db.inWindow_iff.mp h'
    have h : Db.inWindow budgetId duration clock a = true := Db.inWindow_iff.mpr ⟨hb, by omega⟩
    rw [Table.share_of_pos h', Table.share_of_pos h]
  | false =>
    rw [Table.share_of_neg h']
    cases h : Db.inWindow budgetId duration clock a with
    | true =>
      rw [Table.share_of_pos h]
      exact hc a ha (Db.inWindow_iff.mp h).1
    | false => rw [Table.share_of_neg h]

def Db.spentSum (db : Db) (budgetId : String) : Rat :=
  db.attempts.total (fun a => decide (a.budgetId = budgetId)) AttemptRow.chargedCost

structure Books (db : Db) : Prop where
  reserved : ∀ b, b ∈ db.budgets → b.reserved = db.activeSum b.budgetId
  spent : ∀ b, b ∈ db.budgets → b.spent = db.spentSum b.budgetId
  active_le : ∀ b, b ∈ db.budgets → db.activeCount b.budgetId ≤ b.concurrencyLimit
  amount : ∀ r, r ∈ db.reservations → 0 ≤ r.amount ∧ InUnits r.amount
  charged : ∀ a, a ∈ db.attempts → InUnits a.chargedCost

def activeShare (budgetId : String) (r : ReservationRow) : Rat :=
  Table.share (Db.isActiveOf budgetId) ReservationRow.amount r

theorem activeShare_other (h : r.budgetId ≠ budgetId) : activeShare budgetId r = 0 :=
  Table.share_of_neg (by simp [Db.isActiveOf, h])

theorem activeShare_active (h : r.status = .active) : activeShare r.budgetId r = r.amount :=
  Table.share_of_pos (by simp [Db.isActiveOf, h])

theorem activeShare_closed (h : r.status ≠ .active) : activeShare budgetId r = 0 :=
  Table.share_of_neg (by simp [Db.isActiveOf, h])

theorem Books.share_nonneg (h : Books db) (budgetId : String) {r : ReservationRow}
    (hr : r ∈ db.reservations) : 0 ≤ activeShare budgetId r := by
  unfold activeShare Table.share
  split
  · exact (h.amount r hr).1
  · exact le_refl 0

theorem Books.reserved_units (h : Books db) {b : BudgetRow} (hb : b ∈ db.budgets) : InUnits b.reserved := by
  rw [h.reserved b hb, Db.activeSum, Table.total]
  refine InUnits.sum fun x hx => ?_
  obtain ⟨r, hr, rfl⟩ := List.mem_map.mp hx
  exact (h.amount r (Table.mem_select.mp hr).1).2

theorem Books.spent_units (h : Books db) {b : BudgetRow} (hb : b ∈ db.budgets) : InUnits b.spent := by
  rw [h.spent b hb, Db.spentSum, Table.total]
  refine InUnits.sum fun x hx => ?_
  obtain ⟨a, ha, rfl⟩ := List.mem_map.mp hx
  exact h.charged a (Table.mem_select.mp ha).1

theorem Books.windowSum_units (h : Books db) (budgetId : String) (duration : Nat)
    (clock : DateTime) : InUnits (db.windowSum budgetId duration clock) := by
  rw [Db.windowSum, Table.total]
  refine InUnits.sum fun x hx => ?_
  obtain ⟨a, ha, rfl⟩ := List.mem_map.mp hx
  exact h.charged a (Table.mem_select.mp ha).1

theorem Books.amount_le (h : Books db) {r : ReservationRow} (hr : r ∈ db.reservations)
    (ha : r.status = .active) {b : BudgetRow} (hb : db.budgets.get? r.budgetId = some b) :
    r.amount ≤ b.reserved := by
  obtain ⟨hbm, hk⟩ := Table.get?_eq_some.mp hb
  rw [h.reserved b hbm, hk, ← activeShare_active ha]
  exact Table.share_le_total (fun q hq => h.share_nonneg _ hq) hr

theorem Books.rounded (h : Books db) {b : BudgetRow} (hb : b ∈ db.budgets) {x : Rat}
    (hx : InUnits x) (hnn : 0 ≤ b.reserved + x) : max 0 (round8 (b.reserved + x)) = b.reserved + x := by
  rw [round8_of_units ((h.reserved_units hb).add hx), max_eq_right hnn]

section

variable {db : Db} {r : ReservationRow} {f : ReservationRow → ReservationRow}
  (hf : ∀ r, (f r).reservationId = r.reservationId)

/-- Any sum over the reservations after `r` has become `f r`. -/
theorem Db.total_setReservation {M : Type} [AddCommMonoid M] (hr : r ∈ db.reservations)
    (p : ReservationRow → Bool) (w : ReservationRow → M) :
    (Db.setReservation r.reservationId f hf db).reservations.total p w + Table.share p w r =
      db.reservations.total p w + Table.share p w (f r) := by
  have h := (Table.mapped_update (t := db.reservations)
    (p := fun q => decide (q.reservationId = r.reservationId)) (h := hf)).total_change (p := p) (w := w) hr
    fun q _ hq => by simp [hq]
  rw [decide_eq_true rfl, if_pos rfl] at h
  exact h

/-- The reservation `r` becomes `f r`, of the same budget and not active again, and each budget
reserves what that changes. -/
theorem Books.of_change {db' : Db} (h : Books db) (hr : r ∈ db.reservations)
    (hres : db'.reservations = (Db.setReservation r.reservationId f hf db).reservations)
    (hid : (f r).budgetId = r.budgetId) (hamt : 0 ≤ (f r).amount ∧ InUnits (f r).amount)
    (hact : (f r).status = .active → r.status = .active)
    (hbud : ∀ b', b' ∈ db'.budgets → ∃ b, b ∈ db.budgets ∧ b'.budgetId = b.budgetId ∧
      b'.concurrencyLimit = b.concurrencyLimit ∧ b'.spent = db'.spentSum b.budgetId ∧
      b'.reserved + activeShare b.budgetId r = b.reserved + activeShare b.budgetId (f r))
    (hcharged : ∀ a, a ∈ db'.attempts → InUnits a.chargedCost) : Books db' where
  reserved b' hb' := by
    obtain ⟨b, hb, hk, -, -, he⟩ := hbud b' hb'
    have hsum := Db.total_setReservation hf hr (Db.isActiveOf b.budgetId)
      ReservationRow.amount
    rw [← hres] at hsum
    change db'.activeSum b.budgetId + activeShare _ r = db.activeSum b.budgetId + activeShare _ (f r)
      at hsum
    rw [hk]
    rw [h.reserved b hb] at he
    linarith
  spent b' hb' := by
    obtain ⟨b, hb, hk, -, hs, -⟩ := hbud b' hb'
    rw [hk]
    exact hs
  active_le b' hb' := by
    obtain ⟨b, hb, hk, hl, -⟩ := hbud b' hb'
    have hcount := Db.total_setReservation hf hr (Db.isActiveOf b.budgetId) fun _ => 1
    rw [← hres, ← Table.length_select, ← Table.length_select] at hcount
    have hle := h.active_le b hb
    rw [hk, hl]
    change db'.activeCount b.budgetId + _ = db.activeCount b.budgetId + _ at hcount
    have hshare : Table.share (Db.isActiveOf b.budgetId) (fun _ => 1) (f r) ≤
        Table.share (Db.isActiveOf b.budgetId) (fun _ => 1) r := by
      unfold Table.share Db.isActiveOf
      rw [hid]
      by_cases hs : (f r).status = .active
      · simp [hs, hact hs]
      · simp [hs]
    omega
  amount q hq := by
    rw [hres] at hq
    rcases Table.mem_update_cases (h := hf) hq with ⟨hq, -⟩ | ⟨q₀, hq₀, hp, rfl⟩
    · exact h.amount q hq
    · rw [Table.eq_of_key hq₀ hr (of_decide_eq_true hp)]
      exact hamt
  charged := hcharged

end

theorem Db.mem_setBudget {g : BudgetRow → BudgetRow} {hg : ∀ b, (g b).budgetId = b.budgetId} {b' : BudgetRow}
    (h : b' ∈ (Db.setBudget budgetId g hg db).budgets) :
    (b' ∈ db.budgets ∧ b'.budgetId ≠ budgetId) ∨ ∃ b, b ∈ db.budgets ∧ b.budgetId = budgetId ∧ b' = g b := by
  rcases Table.mem_update_cases (h := hg) h with ⟨hb, hne⟩ | ⟨b, hb, he, rfl⟩
  · exact .inl ⟨hb, of_decide_eq_false hne⟩
  · exact .inr ⟨b, hb, of_decide_eq_true he, rfl⟩

theorem Db.mem_setReservation_of {f : ReservationRow → ReservationRow}
    (hf : ∀ r, (f r).reservationId = r.reservationId) {q : ReservationRow}
    (hq : q ∈ db.reservations) (reservationId : String) :
    q ∈ (Db.setReservation reservationId f hf db).reservations ∨
      f q ∈ (Db.setReservation reservationId f hf db).reservations := by
  by_cases hid : q.reservationId = reservationId
  · exact .inr (Table.mem_update_of_pos (h := hf) hq (decide_eq_true hid))
  · exact .inl (Table.mem_update_of_neg (h := hf) hq (decide_eq_false hid))

theorem Books.share_units (h : Books db) (budgetId : String) {r : ReservationRow}
    (hr : r ∈ db.reservations) : InUnits (activeShare budgetId r) := by
  unfold activeShare Table.share
  split
  · exact (h.amount r hr).2
  · exact .zero

/-- Reservations leave, and what the budgets reserve does not grow. -/
structure Lowers (db db' : Db) : Prop where
  attempts : db'.attempts = db.attempts
  budgets : ∀ b', b' ∈ db'.budgets → ∃ b reserved, b ∈ db.budgets ∧ reserved ≤ b.reserved ∧
    b' = Db.withReserved reserved b

theorem Lowers.refl (db : Db) : Lowers db db where
  attempts := rfl
  budgets b hb := ⟨b, b.reserved, hb, le_refl _, rfl⟩

theorem Lowers.trans {db'' : Db} (h₁ : Lowers db db') (h₂ : Lowers db' db'') : Lowers db db'' where
  attempts := h₂.attempts.trans h₁.attempts
  budgets b'' hb'' := by
    obtain ⟨b', reserved', hb', hle', rfl⟩ := h₂.budgets b'' hb''
    obtain ⟨b, reserved, hb, hle, rfl⟩ := h₁.budgets b' hb'
    exact ⟨b, reserved', hb, hle'.trans hle, rfl⟩

theorem expireRow_books (h : Books db) {row r : ReservationRow}
    (hr : r ∈ db.reservations) (hid : r.reservationId = row.reservationId)
    (hb : r.budgetId = row.budgetId) : Books (expireRow db row) ∧ Lowers db (expireRow db row) := by
  have hgone : ∀ budgetId, activeShare budgetId (Db.withStatus .expired r) = 0 := fun _ =>
    activeShare_closed (by simp [Db.withStatus])
  have hsum : ∀ budgetId, (Db.setStatus row.reservationId .expired db).activeSum budgetId + activeShare budgetId r =
        db.activeSum budgetId := by
    intro budgetId
    have e := Db.total_setReservation (f := Db.withStatus .expired) (fun _ => rfl) hr
      (Db.isActiveOf budgetId) ReservationRow.amount
    rw [hid] at e
    change (Db.setStatus row.reservationId .expired db).activeSum budgetId + activeShare budgetId r =
      db.activeSum budgetId + activeShare budgetId _ at e
    rwa [hgone, add_zero] at e
  have hbud : ∀ b', b' ∈ (expireRow db row).budgets → ∃ b, b ∈ db.budgets ∧
      b'.reserved + activeShare b.budgetId r = b.reserved ∧
      b' = Db.withReserved b'.reserved b := by
    intro b' hb'
    rcases Db.mem_setBudget hb' with ⟨hm, hne⟩ | ⟨b, hm, hk, rfl⟩
    · refine ⟨b', hm, ?_, rfl⟩
      rw [activeShare_other (hb ▸ hne.symm), add_zero]
    · refine ⟨b, hm, ?_, rfl⟩
      have e := hsum b.budgetId
      rw [← h.reserved b hm] at e
      have hunits : InUnits ((Db.setStatus row.reservationId .expired db).activeSum b.budgetId) := by
        rw [eq_sub_iff_add_eq.mpr e]
        exact (h.reserved_units hm).sub (h.share_units _ hr)
      show round8 _ + _ = _
      rw [← hk, round8_of_units hunits]
      exact e
  constructor
  · refine h.of_change (f := Db.withStatus .expired) (fun _ => rfl) hr ?_ rfl (h.amount r hr)
      (fun hact => by cases hact) (fun b' hb' => ?_) h.charged
    · rw [hid]
      rfl
    · obtain ⟨b, hm, hres, he⟩ := hbud b' hb'
      refine ⟨b, hm, ?_, ?_, ?_, ?_⟩
      · rw [he]
        rfl
      · rw [he]
        rfl
      · rw [he]
        exact h.spent b hm
      · rw [hgone, add_zero]
        exact hres
  · refine ⟨rfl, fun b' hb' => ?_⟩
    obtain ⟨b, hm, hres, he⟩ := hbud b' hb'
    have := h.share_nonneg b.budgetId hr
    exact ⟨b, b'.reserved, hm, by linarith, he⟩

theorem expireRows_books {rows : List ReservationRow} (h : Books db)
    (hrows : ∀ row ∈ rows, ∃ r, r ∈ db.reservations ∧ r.reservationId = row.reservationId ∧
      r.budgetId = row.budgetId) :
    Books (rows.foldl expireRow db) ∧ Lowers db (rows.foldl expireRow db) := by
  induction rows generalizing db with
  | nil => exact ⟨h, .refl db⟩
  | cons row rows ih =>
    rw [List.forall_mem_cons] at hrows
    obtain ⟨⟨r, hr, hid, hb⟩, hrows⟩ := hrows
    obtain ⟨h₁, hl⟩ := expireRow_books h hr hid hb
    obtain ⟨h₂, hl'⟩ := ih h₁ fun row' hrow' => by
      obtain ⟨q, hq, hqid, hqb⟩ := hrows row' hrow'
      -- the expired row keeps its id and its budget
      rcases Db.mem_setReservation_of (f := Db.withStatus .expired) (fun _ => rfl) hq
        row.reservationId with hm | hm
      · exact ⟨q, hm, hqid, hqb⟩
      · exact ⟨_, hm, hqid, hqb⟩
    exact ⟨h₂, hl.trans hl'⟩

theorem expired_books (h : Books db) (budgetId : Option String) (clock : DateTime) :
    Books (expired budgetId clock db) ∧ Lowers db (expired budgetId clock db) :=
  expireRows_books h fun row hrow => ⟨row, (Table.mem_select.mp hrow).1, rfl, rfl⟩

theorem Books.setReserved (h : Books db) {r : ReservationRow}
    (hr : r ∈ db.reservations) (ha : r.status = .active) {f : ReservationRow → ReservationRow}
    (hf : ∀ r, (f r).reservationId = r.reservationId) (hid : (f r).budgetId = r.budgetId)
    (hamt : 0 ≤ (f r).amount ∧ InUnits (f r).amount) {row : BudgetRow}
    (hrow : db.budgets.get? r.budgetId = some row) {reserved : Rat}
    (hres : reserved + r.amount = row.reserved + activeShare r.budgetId (f r))
    (hdb : db' = Db.setReserved r.budgetId reserved (Db.setReservation r.reservationId f hf db)) :
    Books db' := by
  obtain ⟨hrm, hrk⟩ := Table.get?_eq_some.mp hrow
  refine h.of_change hf hr (by rw [hdb]; rfl) hid hamt (fun _ => ha) (fun b' hb' => ?_) ?_
  · rw [hdb] at hb' ⊢
    rcases Db.mem_setBudget hb' with ⟨hm, hne⟩ | ⟨b, hm, hk, rfl⟩
    · refine ⟨b', hm, rfl, rfl, h.spent b' hm, ?_⟩
      rw [activeShare_other hne.symm, activeShare_other (hid ▸ hne.symm)]
    · refine ⟨b, hm, rfl, rfl, h.spent b hm, ?_⟩
      rw [hk, activeShare_active ha, Table.eq_of_key hm hrm (hk.trans hrk.symm)]
      exact hres
  · rw [hdb]
    exact h.charged

theorem release_books {u : Unit} (h : Books db)
    (hrun : (release reservationId).run db = (.ok u, db')) : Books db' ∧ Lowers db db' := by
  obtain ⟨res, hget, ha, hrel⟩ := release_ok hrun
  obtain ⟨hm, rfl⟩ := Table.get?_eq_some.mp hget
  have hgone : ∀ budgetId, activeShare budgetId (Db.withStatus .released res) = 0 := fun _ =>
    activeShare_closed (by simp [Db.withStatus])
  rcases hrel with ⟨hnone, rfl⟩ | ⟨row, hrow, rfl⟩
  · constructor
    · refine h.of_change (f := Db.withStatus .released) (fun _ => rfl) hm rfl rfl
        (h.amount res hm) (fun hact => by cases hact) (fun b hb => ?_) h.charged
      refine ⟨b, hb, rfl, rfl, h.spent b hb, ?_⟩
      rw [hgone, activeShare_other]
      exact fun hk => Table.get?_eq_none.mp hnone b hb hk.symm
    · exact ⟨rfl, fun b hb => ⟨b, b.reserved, hb, le_refl _, rfl⟩⟩
  · obtain ⟨hrm, hrk⟩ := Table.get?_eq_some.mp hrow
    have hle := h.amount_le hm ha hrow
    have hround := h.rounded hrm (h.amount res hm).2.neg (by linarith)
    rw [← sub_eq_add_neg] at hround
    rw [hround]
    constructor
    · refine h.setReserved (f := Db.withStatus .released) hm ha (fun _ => rfl) rfl
        (h.amount res hm) hrow ?_ rfl
      rw [hgone]
      linarith
    · refine ⟨rfl, fun b' hb' => ?_⟩
      rcases Db.mem_setBudget hb' with ⟨hb, -⟩ | ⟨b, hb, hk, rfl⟩
      · exact ⟨b', b'.reserved, hb, le_refl _, rfl⟩
      · refine ⟨b, _, hb, ?_, rfl⟩
        rw [Table.eq_of_key hb hrm (hk.trans hrk.symm)]
        linarith [(h.amount res hm).1]

/-- What an upgrade that returns leaves; `row` is the row of its budget before. -/
theorem upgradeReservation_books {newAmount : Rat} {t : Readings} {record : ReservationRow} (h : Books db)
    (hnn : 0 ≤ newAmount)
    (hunits : InUnits newAmount)
    (hrun : (upgradeReservation reservationId newAmount t).run db = (.ok record, db')) :
    Books db' ∧ db'.attempts = db.attempts ∧ ∃ row additional, InUnits additional ∧
      db.budgets.get? row.budgetId = some row ∧ (0 < additional → Fits db row t additional) ∧
      db'.budgets = (Db.setReserved row.budgetId (row.reserved + additional) db).budgets := by
  obtain ⟨res, row, hget, ha, hrow, hfits, rfl⟩ := upgradeReservation_ok hrun
  obtain ⟨hm, rfl⟩ := Table.get?_eq_some.mp hget
  obtain ⟨hrm, hrk⟩ := Table.get?_eq_some.mp hrow
  have hadd : InUnits (newAmount - res.amount) := hunits.sub (h.amount res hm).2
  rw [round8_of_units hadd] at hfits ⊢
  have hle := h.amount_le hm ha hrow
  rw [h.rounded hrm hadd (by linarith)]
  refine ⟨?_, rfl, row, newAmount - res.amount, hadd, hrk ▸ hrow, hfits, by rw [hrk]; rfl⟩
  refine h.setReserved (f := Db.withAmount newAmount) hm ha (fun _ => rfl) rfl
    ⟨hnn, hunits⟩ hrow ?_ rfl
  have hact : activeShare res.budgetId (Db.withAmount newAmount res) = newAmount :=
    activeShare_active ha
  rw [hact]
  linarith

theorem reserve_books {attemptId : String} {amount leaseSeconds : Rat} {id : String}
    {t : Readings} {record : ReservationRow} (h : Books db) (hnn : 0 ≤ amount)
    (hunits : InUnits amount)
    (hrun : (reserve budgetId attemptId amount leaseSeconds id t).run db = (.ok record, db')) :
    Books db' ∧ ∃ db₁ row, Books db₁ ∧ Lowers db db₁ ∧ db'.attempts = db₁.attempts ∧
      db₁.budgets.get? row.budgetId = some row ∧ Fits db₁ row t amount ∧
      db'.budgets = (Db.setReserved row.budgetId (row.reserved + amount) db₁).budgets := by
  obtain ⟨row, reservations, hrow, hfree, hfits, hins, rfl⟩ := reserve_ok hrun
  obtain ⟨h₁, hl⟩ := expired_books h (some budgetId) t.expireAt
  generalize expired (some budgetId) t.expireAt db = db₁ at *
  obtain ⟨hrm, hrk⟩ := Table.get?_eq_some.mp hrow
  rw [round8_of_units ((h₁.reserved_units hrm).add hunits)]
  refine ⟨?_, db₁, row, h₁, hl, rfl, hrk ▸ hrow, hfits, by rw [hrk]; rfl⟩
  have hsum : ∀ b {M : Type} [AddCommMonoid M] (w : ReservationRow → M),
      reservations.total (Db.isActiveOf b) w = db₁.reservations.total (Db.isActiveOf b) w +
        if budgetId = b then
          w (reservationRow budgetId attemptId amount leaseSeconds id t.now) else 0 := by
    intro b M _ w
    have hp : Db.isActiveOf b (reservationRow budgetId attemptId amount leaseSeconds id t.now) =
        decide (budgetId = b) := Bool.and_true _
    rw [Table.total_insert? hins, Table.share, hp]
    simp only [decide_eq_true_eq]
  refine ⟨fun b' hb' => ?_, fun b' hb' => ?_, fun b' hb' => ?_, fun r hr => ?_, h₁.charged⟩
  · show _ = reservations.total _ _
    rcases Db.mem_setBudget hb' with ⟨hb, hne⟩ | ⟨b, hb, hk, rfl⟩
    · rw [hsum, if_neg (Ne.symm hne), add_zero]
      exact h₁.reserved b' hb
    · have hkb : (Db.withReserved (row.reserved + amount) b).budgetId = budgetId := hk
      rw [hsum, hkb, if_pos rfl]
      have := h₁.reserved row hrm
      rw [hrk] at this
      show row.reserved + amount = _ + amount
      rw [this]
      rfl
  · rcases Db.mem_setBudget hb' with ⟨hb, -⟩ | ⟨b, hb, -, rfl⟩
    · exact h₁.spent b' hb
    · exact h₁.spent b hb
  · show (reservations.select _).length ≤ _
    rw [Table.length_select]
    rcases Db.mem_setBudget hb' with ⟨hb, hne⟩ | ⟨b, hb, hk, rfl⟩
    · rw [hsum, if_neg (Ne.symm hne), add_zero, ← Table.length_select]
      exact h₁.active_le b' hb
    · have hkb : (Db.withReserved (row.reserved + amount) b).budgetId = budgetId := hk
      rw [hsum, hkb, if_pos rfl, ← Table.length_select]
      have hb' : b = row := Table.eq_of_key hb hrm (hk.trans hrk.symm)
      rw [hb']
      exact hfree
  · rcases (Table.mem_of_insert? hins).mp hr with hr | rfl
    · exact h₁.amount r hr
    · exact ⟨hnn, hunits⟩

/-- A commit that charges: the attempt is new, and the balances of the budget move by the amount of
the reservation and by the cost. -/
structure Charges (db db' : Db) (res : ReservationRow) (row : BudgetRow) (charged : Rat) : Prop where
  amount : 0 ≤ res.amount
  found : db.budgets.get? row.budgetId = some row
  attempt : ∃ a, a.budgetId = row.budgetId ∧ a.chargedCost = charged ∧ db.attempts.insert? a = some db'.attempts
  budgets : db'.budgets = (Db.setBudget row.budgetId
    (Db.withBalances (row.reserved - res.amount) (row.spent + charged)) (fun _ => rfl) db).budgets

theorem commit_books {attempt : AttemptRecord} {charged : Rat} (h : Books db)
    (hrun : (commit reservationId attempt).run db = (.ok charged, db')) :
    Books db' ∧ (db' = db ∨ ∃ res row cost, db.reservations.get? reservationId = some res ∧
      db.attempts.get? attempt.attemptId = none ∧ res.budgetId = row.budgetId ∧
      chargedCost row.unknownCostPolicy res.amount attempt = .ok cost ∧ charged = round8 cost ∧
      Charges db db' res row charged) := by
  rcases commit_ok hrun with ⟨rfl, -⟩ | ⟨res, row, cost, attempts, hget, ha, hrow, hcost, hch, hins, hdb⟩
  · exact ⟨h, .inl rfl⟩
  obtain ⟨hm, hres⟩ := Table.get?_eq_some.mp hget
  obtain ⟨hrm, hrk⟩ := Table.get?_eq_some.mp hrow
  have hunits : InUnits charged := hch ▸ round8_units cost
  have hle := h.amount_le hm ha hrow
  have hround := h.rounded hrm (h.amount res hm).2.neg (by linarith)
  rw [← sub_eq_add_neg] at hround
  rw [hround, round8_of_units ((h.spent_units hrm).add hunits)] at hdb
  have hgone : ∀ budgetId, activeShare budgetId (Db.withCost charged res) = 0 := fun _ =>
    activeShare_closed (by simp [Db.withCost])
  have hspent : ∀ budgetId, db'.spentSum budgetId =
      db.spentSum budgetId + if res.budgetId = budgetId then charged else 0 := by
    intro budgetId
    rw [hdb]
    show attempts.total _ _ = _
    rw [Table.total_insert? hins, Table.share]
    simp only [decide_eq_true_eq]
    rfl
  refine ⟨?_, .inr ⟨res, row, cost, hget, ?_, hrk.symm, hcost, hch, ?_⟩⟩
  · refine h.of_change (f := Db.withCost charged) (fun _ => rfl) hm (by rw [hdb, hres]; rfl) rfl
      (h.amount res hm) (fun hact => by cases hact) (fun b' hb' => ?_) fun a hatt => ?_
    · rw [hdb] at hb'
      rcases Db.mem_setBudget hb' with ⟨hb, hne⟩ | ⟨b, hb, hk, rfl⟩
      · refine ⟨b', hb, rfl, rfl, ?_, ?_⟩
        · rw [hspent, if_neg (Ne.symm hne), add_zero]
          exact h.spent b' hb
        · rw [hgone, activeShare_other (Ne.symm hne)]
      · have hbr : b = row := Table.eq_of_key hb hrm (hk.trans hrk.symm)
        refine ⟨b, hb, rfl, rfl, ?_, ?_⟩
        · rw [hspent, if_pos hk.symm, ← h.spent b hb, hbr]
          rfl
        · rw [hgone, hk, activeShare_active ha, hbr]
          show row.reserved - res.amount + res.amount = _
          linarith
    · rw [hdb] at hatt
      rcases (Table.mem_of_insert? hins).mp hatt with hatt | rfl
      · exact h.charged a hatt
      · exact hunits
  · exact Table.insert?_fresh hins
  · refine ⟨(h.amount res hm).1, hrk ▸ hrow, ⟨_, hrk.symm, rfl, by rw [hdb]; exact hins⟩, ?_⟩
    rw [hdb, hrk]
    rfl

end Execution
end DarkFactory
