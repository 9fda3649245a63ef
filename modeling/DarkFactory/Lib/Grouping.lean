import Mathlib.Data.List.Induction
import DarkFactory.Lib.Total

/-!
# DarkFactory.Lib.Grouping

A list folded group by group into rows under their keys, in the order the keys first appear: GROUP BY
over a dictionary that keeps its order.

* `Groups.put` — `rows[k] = r`; `find_put` and `mem_values` say what is there after it.
* `Grouping` — the key of an element, the row a group starts from, how a row takes an element in.
* `group` — the fold over a list; `group_append` adds one element to it.
* `sum_group` — a column that grows by the weight of each element sums to the weight of the list.
-/

namespace DarkFactory

abbrev Groups (κ ρ : Type) : Type := Table (Prod.fst : κ × ρ → κ)

namespace Groups

variable {κ ρ M : Type}

/-- The sum of the column `w`. -/
def sum [AddCommMonoid M] (t : Groups κ ρ) (w : ρ → M) : M := (t.rows.map fun a => w a.2).sum

theorem sum_eq_total [AddCommMonoid M] (t : Groups κ ρ) (w : ρ → M) :
    t.sum w = t.total (fun _ => true) fun a => w a.2 := by
  rw [Table.total, Table.select, List.filter_true]
  rfl

variable [DecidableEq κ]

/-- `rows.get(k)`. -/
def find (t : Groups κ ρ) (k : κ) : Option ρ := (t.get? k).map Prod.snd

/-- The entry of `k` with the row `r` in the place of its own. -/
def replace (k : κ) (r : ρ) (a : κ × ρ) : κ × ρ := if a.1 = k then (k, r) else a

theorem replace_fst (k : κ) (r : ρ) (a : κ × ρ) : (replace k r a).1 = a.1 := by
  unfold replace
  split
  · rename_i h
    exact h.symm
  · rfl

/-- `rows[k] = r`: in place, or at the end when `k` is new. -/
def put (t : Groups κ ρ) (k : κ) (r : ρ) : Groups κ ρ :=
  match t.find k with
  | none => t.insertIgnore (k, r)
  | some _ => t.update (fun _ => true) (replace k r) (replace_fst k r)

theorem find_put (t : Groups κ ρ) (k : κ) (r : ρ) (k' : κ) :
    (t.put k r).find k' = if k' = k then some r else t.find k' := by
  unfold put
  cases h : t.find k with
  | none =>
    have hnone : t.get? k = none := Option.map_eq_none_iff.mp h
    simp only [find, Table.get?_insertIgnore]
    by_cases hk : k' = k
    · subst hk
      rw [if_pos rfl, if_pos rfl, hnone]
      rfl
    · rw [if_neg (Ne.symm hk), if_neg hk]
  | some old =>
    simp only [find, Table.get?_update]
    cases hk' : t.get? k' with
    | none =>
      have hne : k' ≠ k := by
        rintro rfl
        rw [find, hk'] at h
        cases h
      rw [if_neg hne]
      rfl
    | some a =>
      have ha := Table.key_of_get? hk'
      subst ha
      simp only [Option.map_some, if_true, replace]
      split <;> rfl

def values (t : Groups κ ρ) : List ρ := t.rows.map Prod.snd

theorem mem_values {t : Groups κ ρ} {r : ρ} : r ∈ t.values ↔ ∃ k, t.find k = some r := by
  unfold values find
  rw [List.mem_map]
  constructor
  · rintro ⟨a, ha, rfl⟩
    exact ⟨a.1, by rw [Table.get?_of_mem ha, Option.map_some]⟩
  · rintro ⟨k, hk⟩
    obtain ⟨a, ha, rfl⟩ := Option.map_eq_some_iff.mp hk
    exact ⟨a, Table.mem_of_get? ha, rfl⟩

theorem sum_put [AddCommMonoid M] (t : Groups κ ρ) (k : κ) (r : ρ) (w : ρ → M) :
    (t.put k r).sum w + ((t.find k).map w).getD 0 = t.sum w + w r := by
  simp only [sum_eq_total]
  cases h : t.find k with
  | none =>
    have hnone : t.get? k = none := Option.map_eq_none_iff.mp h
    obtain ⟨t', ht'⟩ := Table.insert?_isSome (a := (k, r)) hnone
    simp only [put, h, Table.insertIgnore, ht', Option.getD_some, Option.map_none, Option.getD_none, add_zero]
    exact Table.total_insert? ht' _ _
  | some old =>
    obtain ⟨a, ha, rfl⟩ := Option.map_eq_some_iff.mp h
    have hk := Table.key_of_get? ha
    have hmapped : Table.Mapped (fun b => if true then replace k r b else b) t (t.put k r) := by
      rw [put, h]
      exact Table.mapped_update (h := replace_fst k r)
    have hfix : ∀ b, b ∈ t → b.1 ≠ a.1 → replace k r b = b := by
      intro b _ hb
      rw [replace, if_neg (hk ▸ hb)]
    have hchange := hmapped.total_change (p := fun _ => true) (w := fun b => w b.2)
      (Table.mem_of_get? ha) hfix
    simpa [Table.share, replace, hk] using hchange

end Groups

structure Grouping (ε κ ρ : Type) where
  keyOf : ε → κ
  start : ε → ρ
  take : ρ → ε → ρ

namespace Grouping

variable {ε κ ρ M : Type} [DecidableEq κ]

/-- `row = rows.get(k, start)`, the element taken in, `rows[k] = row`. -/
def add (g : Grouping ε κ ρ) (t : Groups κ ρ) (e : ε) : Groups κ ρ :=
  t.put (g.keyOf e) (g.take ((t.find (g.keyOf e)).getD (g.start e)) e)

def group (g : Grouping ε κ ρ) (l : List ε) : Groups κ ρ := l.foldl g.add Table.empty

theorem group_append (g : Grouping ε κ ρ) (l : List ε) (e : ε) : g.group (l ++ [e]) = g.add (g.group l) e := by
  rw [group, List.foldl_append]
  rfl

section

variable [AddCancelCommMonoid M] {g : Grouping ε κ ρ} {w : ρ → M} {v : ε → M}

theorem sum_add (hstart : ∀ e, w (g.start e) = 0) (htake : ∀ r e, w (g.take r e) = w r + v e)
    (t : Groups κ ρ) (e : ε) : (g.add t e).sum w = t.sum w + v e := by
  have hput := t.sum_put (g.keyOf e) (g.take ((t.find (g.keyOf e)).getD (g.start e)) e) w
  have hold : w ((t.find (g.keyOf e)).getD (g.start e)) = ((t.find (g.keyOf e)).map w).getD 0 := by
    cases t.find (g.keyOf e) with
    | none => exact hstart e
    | some r => rfl
  rw [htake, hold, add_comm (Option.getD _ _), ← add_assoc] at hput
  exact add_right_cancel hput

theorem sum_group (hstart : ∀ e, w (g.start e) = 0) (htake : ∀ r e, w (g.take r e) = w r + v e)
    (l : List ε) : (g.group l).sum w = (l.map v).sum := by
  induction l using List.reverseRecOn with
  | nil => rfl
  | append_singleton l e ih =>
    rw [group_append, sum_add hstart htake, ih, List.map_append, List.sum_append]
    simp

end

end Grouping
end DarkFactory
