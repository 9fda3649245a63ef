import Mathlib.Order.Lattice
import Mathlib.Data.List.Basic

/-!
# DarkFactory.Lib.Earliest

The first element of a sorted list that meets a condition, when the keys tell the elements apart.

* `find?_sorted` — it is the one with the least key; how often elements occur does not matter.
* `find?_sorted_congr` — lists with the same elements have the same one.
* `findLast?_sorted`, `findLast?_sorted_congr` — the same from the end.
-/

namespace DarkFactory
namespace Earliest

variable {α κ : Type}

def Distinct (key : α → κ) (l : List α) : Prop := ∀ a ∈ l, ∀ b ∈ l, key a = key b → a = b

variable {key : α → κ} {l l' : List α}

theorem Distinct.of_mem (h : Distinct key l) (hmem : ∀ a, a ∈ l' → a ∈ l) : Distinct key l' :=
  fun a ha b hb => h a (hmem a ha) b (hmem b hb)

variable [LinearOrder κ]

theorem find?_sorted (hsorted : l.Pairwise fun a b => key a ≤ key b) (hdistinct : Distinct key l) (p : α → Bool)
    {a : α} : l.find? p = some a ↔ a ∈ l ∧ p a = true ∧ ∀ b ∈ l, p b = true → key a ≤ key b := by
  induction l with
  | nil => simp
  | cons x l ih =>
    obtain ⟨hx, hl⟩ := List.pairwise_cons.mp hsorted
    have hrest : Distinct key l := hdistinct.of_mem fun a => List.mem_cons_of_mem x
    rw [List.find?_cons]
    cases hpx : p x with
    | true =>
      simp only [Option.some.injEq]
      constructor
      · rintro rfl
        refine ⟨List.mem_cons_self, hpx, fun b hb _ => ?_⟩
        rcases List.mem_cons.mp hb with rfl | hb
        · exact le_refl _
        · exact hx b hb
      · rintro ⟨ha, _, hleast⟩
        have hle := hleast x List.mem_cons_self hpx
        rcases List.mem_cons.mp ha with rfl | hmem
        · rfl
        · exact hdistinct x List.mem_cons_self a ha (le_antisymm (hx a hmem) hle)
    | false =>
      simp only
      rw [ih hl hrest]
      constructor
      · rintro ⟨ha, hpa, hleast⟩
        refine ⟨List.mem_cons_of_mem x ha, hpa, fun b hb hpb => ?_⟩
        rcases List.mem_cons.mp hb with rfl | hb
        · rw [hpx] at hpb
          cases hpb
        · exact hleast b hb hpb
      · rintro ⟨ha, hpa, hleast⟩
        rcases List.mem_cons.mp ha with rfl | ha
        · rw [hpx] at hpa
          cases hpa
        · exact ⟨ha, hpa, fun b hb => hleast b (List.mem_cons_of_mem x hb)⟩

theorem find?_sorted_congr (hsorted : l.Pairwise fun a b => key a ≤ key b)
    (hsorted' : l'.Pairwise fun a b => key a ≤ key b) (hdistinct : Distinct key l) (hmem : ∀ a, a ∈ l ↔ a ∈ l')
    (p : α → Bool) : l.find? p = l'.find? p := by
  have hdistinct' : Distinct key l' := hdistinct.of_mem fun a => (hmem a).mpr
  refine Option.ext fun a => ?_
  rw [find?_sorted hsorted hdistinct, find?_sorted hsorted' hdistinct']
  simp only [hmem]

theorem findLast?_sorted (hsorted : l.Pairwise fun a b => key a ≤ key b) (hdistinct : Distinct key l) (p : α → Bool)
    {a : α} : l.reverse.find? p = some a ↔ a ∈ l ∧ p a = true ∧ ∀ b ∈ l, p b = true → key b ≤ key a := by
  have hreverse : l.reverse.Pairwise fun a b => OrderDual.toDual (key a) ≤ OrderDual.toDual (key b) :=
    List.pairwise_reverse.mpr hsorted
  have hkeys : Distinct (fun a => OrderDual.toDual (key a)) l.reverse :=
    fun a ha b hb => hdistinct a (List.mem_reverse.mp ha) b (List.mem_reverse.mp hb)
  rw [find?_sorted hreverse hkeys]
  simp only [List.mem_reverse, OrderDual.toDual_le_toDual]

theorem findLast?_sorted_congr (hsorted : l.Pairwise fun a b => key a ≤ key b)
    (hsorted' : l'.Pairwise fun a b => key a ≤ key b) (hdistinct : Distinct key l) (hmem : ∀ a, a ∈ l ↔ a ∈ l')
    (p : α → Bool) : l.reverse.find? p = l'.reverse.find? p := by
  have hdistinct' : Distinct key l' := hdistinct.of_mem fun a => (hmem a).mpr
  refine Option.ext fun a => ?_
  rw [findLast?_sorted hsorted hdistinct, findLast?_sorted hsorted' hdistinct']
  simp only [hmem]

theorem head?_eq_find? (l : List α) : l.head? = l.find? fun _ => true := by
  cases l <;> rfl

theorem getLast?_eq_find? (l : List α) : l.getLast? = l.reverse.find? fun _ => true := by
  rw [← head?_eq_find?, List.head?_reverse]

end Earliest
end DarkFactory
