import Mathlib.Data.List.DropRight
import Mathlib.Data.List.Sort
import Mathlib.Data.Prod.Lex

/-!
# DarkFactory.Python.Sort

`l.sort(key=..., reverse=True)`: largest key first, equal keys in the order they had. `sortAsc` is
`l.sort(key=...)`, and `sliceFrom l i` is `l[i:]`.
-/

namespace DarkFactory

section

variable {α κ : Type} [LinearOrder κ]

def sortDesc (key : α → κ) (l : List α) : List α := l.insertionSort fun a b => key b ≤ key a

theorem mem_sortDesc {key : α → κ} {l : List α} {a : α} : a ∈ sortDesc key l ↔ a ∈ l :=
  List.mem_insertionSort _

theorem sortDesc_pairwise (key : α → κ) (l : List α) : (sortDesc key l).Pairwise fun a b => key b ≤ key a := by
  have : Std.Total fun a b : α => key b ≤ key a := ⟨fun a b => le_total (key b) (key a)⟩
  have : IsTrans α fun a b => key b ≤ key a := ⟨fun _ _ _ hab hbc => le_trans hbc hab⟩
  exact List.pairwise_insertionSort _ l

theorem sortDesc_head {key : α → κ} {l : List α} {a : α} (h : (sortDesc key l).head? = some a) :
    a ∈ l ∧ ∀ b ∈ l, key b ≤ key a := by
  have hsorted := sortDesc_pairwise key l
  cases hs : sortDesc key l with
  | nil =>
    rw [hs] at h
    cases h
  | cons c rest =>
    rw [hs] at h hsorted
    cases h
    refine ⟨mem_sortDesc.mp (hs ▸ List.mem_cons_self ..), fun b hb => ?_⟩
    have hb' : b ∈ a :: rest := hs ▸ mem_sortDesc.mpr hb
    rcases List.mem_cons.mp hb' with rfl | hb'
    · exact le_refl _
    · exact (List.pairwise_cons.mp hsorted).1 b hb'

def sortAsc (key : α → κ) (l : List α) : List α := l.insertionSort fun a b => key a ≤ key b

theorem sortAsc_perm (key : α → κ) (l : List α) : (sortAsc key l).Perm l := List.perm_insertionSort _ l

theorem sortAsc_pairwise (key : α → κ) (l : List α) : (sortAsc key l).Pairwise fun a b => key a ≤ key b := by
  have : Std.Total fun a b : α => key a ≤ key b := ⟨fun a b => le_total (key a) (key b)⟩
  have : IsTrans α fun a b => key a ≤ key b := ⟨fun _ _ _ hab hbc => le_trans hab hbc⟩
  exact List.pairwise_insertionSort _ l

end

section

variable {α : Type}

def sliceFrom (l : List α) (i : Int) : List α :=
  if i < 0 then l.drop (l.length - i.natAbs) else l.drop i.toNat

/-- `l[-n:]` is the last `n` elements, except that `l[-0:]` is all of them. -/
theorem sliceFrom_neg (l : List α) (n : Nat) : sliceFrom l (-n) = if n = 0 then l else l.rtake n := by
  cases n with
  | zero => simp [sliceFrom]
  | succ n =>
    have hneg : (-((n + 1 : Nat) : Int)) < 0 := by omega
    rw [sliceFrom, if_pos hneg, Int.natAbs_neg, Int.natAbs_natCast, if_neg (Nat.succ_ne_zero n)]
    rfl

theorem length_rtake (l : List α) (n : Nat) : (l.rtake n).length = min n l.length := by
  rw [List.rtake, List.length_drop]
  omega

/-- The last elements that satisfy `p` are the last elements exactly when these satisfy `p`. -/
theorem rtake_filter_eq_iff (p : α → Bool) (l : List α) (n : Nat) :
    (l.filter p).rtake n = l.rtake n ↔ ∀ a ∈ l.rtake n, p a = true := by
  constructor
  · intro h a ha
    rw [← h] at ha
    exact (List.mem_filter.mp (List.mem_of_mem_drop ha)).2
  · intro h
    have hsplit : l.filter p = (l.take (l.length - n)).filter p ++ l.rtake n := by
      conv_lhs => rw [← List.take_append_drop (l.length - n) l, List.filter_append]
      exact congrArg _ (List.filter_eq_self.mpr h)
    have hlen := length_rtake l n
    rw [hsplit]
    by_cases hn : n ≤ l.length
    · rw [List.rtake, List.length_append, hlen, Nat.min_eq_left hn, Nat.add_sub_cancel, List.drop_left]
    · have hzero : l.length - n = 0 := by omega
      rw [hzero, List.take_zero, List.filter_nil, List.nil_append, List.rtake, hlen]
      rw [Nat.min_eq_right (by omega), hzero, List.drop_zero]

end

end DarkFactory
