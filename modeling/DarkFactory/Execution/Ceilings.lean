import DarkFactory.Execution.Accounting

/-!
# DarkFactory.Execution.Ceilings

Budgets within their ceilings.
-/

namespace DarkFactory
namespace Execution

def BudgetRow.HasWindow (b : BudgetRow) (w : Window) : Prop :=
  b.shortWindow = some w ∨ b.longWindow = some w

instance (b : BudgetRow) (w : Window) : Decidable (b.HasWindow w) :=
  inferInstanceAs (Decidable (_ ∨ _))

/-- A window is measured from `now` on; later readings of the clock see no more of the past. -/
structure Within (now : DateTime) (db : Db) : Prop where
  ceiling : ∀ b, b ∈ db.budgets → b.spent + b.reserved ≤ b.ceiling
  window : ∀ b, b ∈ db.budgets → ∀ w, b.HasWindow w → ∀ clock : DateTime,
    now.utcWall ≤ clock.utcWall → db.windowSum b.budgetId w.duration clock + b.reserved ≤ w.ceiling
  charged : ∀ b, b ∈ db.budgets → ∀ w, b.HasWindow w → ∀ a, a ∈ db.attempts →
    a.budgetId = b.budgetId → 0 ≤ a.chargedCost

variable {now : DateTime} {db : Db}

theorem Within.later {now' : DateTime} (h : Within now db) (hle : now.utcWall ≤ now'.utcWall) : Within now' db where
  ceiling := h.ceiling
  window b hb w hw clock hclock := h.window b hb w hw clock (hle.trans hclock)
  charged := h.charged

theorem Within.lowers {db' : Db} (h : Within now db) (hl : Lowers db db') : Within now db' where
  ceiling b' hb' := by
    obtain ⟨b, reserved, hb, hle, rfl⟩ := hl.budgets b' hb'
    have := h.ceiling b hb
    show b.spent + reserved ≤ b.ceiling
    linarith
  window b' hb' w hw clock hclock := by
    obtain ⟨b, reserved, hb, hle, rfl⟩ := hl.budgets b' hb'
    have hwin := h.window b hb w hw clock hclock
    unfold Db.windowSum at hwin ⊢
    rw [hl.attempts]
    show _ + reserved ≤ w.ceiling
    change _ + b.reserved ≤ w.ceiling at hwin
    exact (add_le_add_right hle _).trans hwin
  charged b' hb' w hw a ha hid := by
    obtain ⟨b, reserved, hb, -, rfl⟩ := hl.budgets b' hb'
    exact h.charged b hb w hw a (hl.attempts ▸ ha) hid

theorem FitsWindow.later (hb : Books db) {row : BudgetRow} (hrow : row ∈ db.budgets)
    {w : Window} {clock clock' : DateTime} {additional : Rat} (hunits : InUnits additional)
    (hfits : FitsWindow db row.budgetId clock row.reserved additional w)
    (hle : clock.utcWall ≤ clock'.utcWall)
    (hc : ∀ a, a ∈ db.attempts → a.budgetId = row.budgetId → 0 ≤ a.chargedCost) :
    db.windowSum row.budgetId w.duration clock' + (row.reserved + additional) ≤ w.ceiling := by
  have hsum := hb.windowSum_units row.budgetId w.duration clock
  unfold FitsWindow at hfits
  rw [round8_of_units hsum, round8_of_units ((hsum.add (hb.reserved_units hrow)).add hunits)]
    at hfits
  have hanti := Db.windowSum_anti w.duration hle hc
  linarith

theorem Within.raise {db' : Db} (h : Within now db) (hbooks : Books db)
    {row : BudgetRow} {t : Readings} {additional : Rat} (hunits : InUnits additional)
    (hrow : db.budgets.get? row.budgetId = some row) (hfits : Fits db row t additional)
    (hnow : now.utcWall ≤ t.shortAt.utcWall) (hle : t.shortAt.utcWall ≤ t.longAt.utcWall)
    (hatt : db'.attempts = db.attempts)
    (hbud : db'.budgets = (Db.setReserved row.budgetId (row.reserved + additional) db).budgets) :
    Within t.longAt db' := by
  obtain ⟨hrm, -⟩ := Table.get?_eq_some.mp hrow
  have hother := h.later (hnow.trans hle)
  have hcases : ∀ b', b' ∈ db'.budgets → b' ∈ db.budgets ∨
      b' = Db.withReserved (row.reserved + additional) row := by
    intro b' hb'
    rw [hbud] at hb'
    rcases Db.mem_setBudget hb' with ⟨hb, -⟩ | ⟨b, hb, hk, rfl⟩
    · exact .inl hb
    · exact .inr (by rw [Table.eq_of_key hb hrm hk])
  refine ⟨fun b' hb' => ?_, fun b' hb' w hw clock hclock => ?_, fun b' hb' w hw a ha hid => ?_⟩
  · rcases hcases b' hb' with hb | rfl
    · exact h.ceiling b' hb
    · have hceil := hfits.ceiling
      have hspent := hbooks.spent_units hrm
      have hres := hbooks.reserved_units hrm
      rw [round8_of_units ((hspent.add hres).add hunits)] at hceil
      show row.spent + (row.reserved + additional) ≤ row.ceiling
      linarith
  · rw [Db.windowSum, hatt]
    rcases hcases b' hb' with hb | rfl
    · exact hother.window b' hb w hw clock hclock
    · have hc := h.charged row hrm w hw
      rcases hw with hw | hw
      · exact FitsWindow.later hbooks hrm hunits (hfits.short w hw) (hle.trans hclock) hc
      · exact FitsWindow.later hbooks hrm hunits (hfits.long w hw) hclock hc
  · rw [hatt] at ha
    rcases hcases b' hb' with hb | rfl
    · exact h.charged b' hb w hw a ha hid
    · exact h.charged row hrm w hw a ha hid

theorem Within.settle {db' : Db} (h : Within now db) {res : ReservationRow}
    {row : BudgetRow} {charged : Rat} (hch : Charges db db' res row charged)
    (hle : charged ≤ res.amount) (hnn : ∀ w, row.HasWindow w → 0 ≤ charged) : Within now db' := by
  obtain ⟨hrm, -⟩ := Table.get?_eq_some.mp hch.found
  obtain ⟨a, hab, hac, hins⟩ := hch.attempt
  have hcases : ∀ b', b' ∈ db'.budgets → (b' ∈ db.budgets ∧ b'.budgetId ≠ row.budgetId) ∨
      b' = Db.withBalances (row.reserved - res.amount) (row.spent + charged) row := by
    intro b' hb'
    rw [hch.budgets] at hb'
    rcases Db.mem_setBudget hb' with hb | ⟨b, hb, hk, rfl⟩
    · exact .inl hb
    · exact .inr (by rw [Table.eq_of_key hb hrm hk])
  -- the new attempt counts for its own budget only, and for no more than it was charged
  have hsum : ∀ budgetId duration clock, db'.windowSum budgetId duration clock =
      db.windowSum budgetId duration clock +
        Table.share (Db.inWindow budgetId duration clock) AttemptRow.chargedCost a :=
    fun _ _ _ => Table.total_insert? hins _ _
  refine ⟨fun b' hb' => ?_, fun b' hb' w hw clock hclock => ?_, fun b' hb' w hw q hq hid => ?_⟩
  · rcases hcases b' hb' with ⟨hb, -⟩ | rfl
    · exact h.ceiling b' hb
    · have := h.ceiling row hrm
      show row.spent + charged + (row.reserved - res.amount) ≤ row.ceiling
      linarith
  · rw [hsum]
    rcases hcases b' hb' with ⟨hb, hne⟩ | rfl
    · have hout : Db.inWindow b'.budgetId w.duration clock a = false :=
        Bool.eq_false_iff.mpr fun hin => hne ((Db.inWindow_iff.mp hin).1.symm.trans hab)
      rw [Table.share_of_neg hout, add_zero]
      exact h.window b' hb w hw clock hclock
    · have hwin := h.window row hrm w hw clock hclock
      have hshare : Table.share (Db.inWindow row.budgetId w.duration clock)
          AttemptRow.chargedCost a ≤ res.amount := by
        unfold Table.share
        split
        · rw [hac]
          exact hle
        · exact hch.amount
      show db.windowSum row.budgetId w.duration clock +
        Table.share (Db.inWindow row.budgetId w.duration clock) AttemptRow.chargedCost a +
        (row.reserved - res.amount) ≤ w.ceiling
      linarith
  · rcases (Table.mem_of_insert? hins).mp hq with hq | rfl
    · rcases hcases b' hb' with ⟨hb, -⟩ | rfl
      · exact h.charged b' hb w hw q hq hid
      · exact h.charged row hrm w hw q hq hid
    · rcases hcases b' hb' with ⟨-, hne⟩ | rfl
      · exact absurd (hid.symm.trans hab) hne
      · rw [hac]
        exact hnn w hw

end Execution
end DarkFactory
