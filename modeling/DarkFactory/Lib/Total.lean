import Mathlib.Algebra.Order.BigOperators.Group.List
import Mathlib.Tactic.Abel
import DarkFactory.Lib.Table

/-!
# DarkFactory.Lib.Total

Sums over the rows of a table. `total p w` is `SELECT SUM(w) FROM t WHERE p`.

* `total_insert?`, `total_insertIgnore` — an INSERT adds the share of its row.
* `Mapped.total_congr` — rows with equal shares have equal sums.
* `Mapped.total_change` — an UPDATE of one row exchanges its share.
* `total_le_total`, `share_le_total` — sums compare row by row; no share exceeds a sum of shares that
  are not negative.
-/

namespace DarkFactory
namespace Table

section

variable {κ α M : Type} {key : α → κ} [AddCommMonoid M]

def total (t : Table key) (p : α → Bool) (w : α → M) : M := ((t.select p).map w).sum

/-- What a row adds to the sum over `p`. -/
def share (p : α → Bool) (w : α → M) (a : α) : M := if p a then w a else 0

theorem share_of_pos {p : α → Bool} {w : α → M} {a : α} (h : p a = true) : share p w a = w a :=
  if_pos h

theorem share_of_neg {p : α → Bool} {w : α → M} {a : α} (h : p a = false) : share p w a = 0 := by
  rw [share, h]
  rfl

theorem sum_filter_map (p : α → Bool) (w : α → M) (rows : List α) :
    ((rows.filter p).map w).sum = (rows.map (share p w)).sum := by
  induction rows with
  | nil => rfl
  | cons a rows ih =>
    rw [List.map_cons, List.sum_cons, ← ih, share]
    cases hp : p a with
    | true => simp [hp]
    | false => simp [hp]

theorem total_eq (t : Table key) (p : α → Bool) (w : α → M) : t.total p w = (t.rows.map (share p w)).sum :=
  sum_filter_map p w t.rows

@[simp] theorem total_empty (p : α → Bool) (w : α → M) : (empty : Table key).total p w = 0 := rfl

theorem length_select (t : Table key) (p : α → Bool) : (t.select p).length = t.total p fun _ => 1 := by
  simp [total]

namespace Mapped

variable {F : α → α} {t t' : Table key} {p : α → Bool} {w : α → M}

theorem total_congr (h : Mapped F t t') {q : α → Bool} {v : α → M}
    (hF : ∀ a, a ∈ t → share q v (F a) = share p w a) : t'.total q v = t.total p w := by
  rw [total_eq, total_eq, h.rows, List.map_map]
  congr 1
  exact List.map_congr_left hF

/-- The sum after an UPDATE of the row `a`: its old share is exchanged for the new one. -/
theorem total_change (h : Mapped F t t') {a : α} (ha : a ∈ t)
    (hF : ∀ b, b ∈ t → key b ≠ key a → F b = b) :
    t'.total p w + share p w a = t.total p w + share p w (F a) := by
  obtain ⟨l₁, l₂, hrows⟩ := List.append_of_mem (mem_def.mp ha)
  have hu := t.unique
  rw [hrows, List.map_append, List.map_cons, List.nodup_middle, List.nodup_cons, ← List.map_append] at hu
  have hfix : ∀ b, b ∈ l₁ ++ l₂ → F b = b := by
    intro b hb
    refine hF b ?_ fun hk => hu.1 (hk ▸ List.mem_map_of_mem hb)
    rw [mem_def, hrows]
    rcases List.mem_append.mp hb with hb | hb
    · exact List.mem_append_left _ hb
    · exact List.mem_append_right _ (List.mem_cons_of_mem _ hb)
  have h₁ : l₁.map F = l₁ := (List.map_congr_left fun b hb => hfix b (List.mem_append_left _ hb)).trans
    (List.map_id _)
  have h₂ : l₂.map F = l₂ := (List.map_congr_left fun b hb => hfix b (List.mem_append_right _ hb)).trans
    (List.map_id _)
  rw [total_eq, total_eq, h.rows, hrows]
  simp only [List.map_append, List.map_cons, h₁, h₂, List.sum_append, List.sum_cons]
  abel

end Mapped

end

section

variable {κ α M : Type} {key : α → κ} [DecidableEq κ] [AddCommMonoid M]

theorem total_insert? {t t' : Table key} {a : α} (h : t.insert? a = some t') (p : α → Bool)
    (w : α → M) : t'.total p w = t.total p w + share p w a := by
  rw [total_eq, total_eq, rows_of_insert? h, List.map_append, List.sum_append]
  simp

theorem total_insertIgnore {t : Table key} {a : α} {p : α → Bool} {w : α → M}
    (ha : share p w a = 0) : (t.insertIgnore a).total p w = t.total p w := by
  unfold insertIgnore
  cases h : t.insert? a with
  | none => rfl
  | some t' =>
    rw [Option.getD_some, total_insert? h, ha, add_zero]

end

section

variable {κ α M : Type} {key : α → κ} [AddCommMonoid M] [PartialOrder M] [IsOrderedAddMonoid M]

theorem total_le_total {t : Table key} {p q : α → Bool} {w : α → M}
    (h : ∀ a, a ∈ t → share p w a ≤ share q w a) : t.total p w ≤ t.total q w := by
  rw [total_eq, total_eq]
  exact List.sum_le_sum h

theorem share_le_total {t : Table key} {p : α → Bool} {w : α → M} (h : ∀ b, b ∈ t → 0 ≤ share p w b)
    {a : α} (ha : a ∈ t) : share p w a ≤ t.total p w := by
  rw [total_eq]
  refine List.single_le_sum (fun x hx => ?_) _ (List.mem_map_of_mem ha)
  obtain ⟨b, hb, rfl⟩ := List.mem_map.mp hx
  exact h b hb

end

end Table
end DarkFactory
