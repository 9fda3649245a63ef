import Mathlib.Algebra.BigOperators.Ring.Finset
import Mathlib.Tactic.Linarith
import Mathlib.Tactic.Ring
import Mathlib.Tactic.FieldSimp
import Mathlib.Tactic.Positivity

/-!
# DarkFactory.Lib.Credits

Selection by credit: in every round each party gains its weight, and the one with the most credit is chosen and pays
one unit, as far as it has it.

* `Books`, `next`, `after` — the credits and the rounds that each party has waited.
* `Alert` — nobody waits for `patience` rounds or more.
* `Balanced` — equal weights, weights that add up to the unit paid, or two weights a unit apart.
* `fair` — then the numbers of choices, divided by the weights, differ by a bounded amount, whatever the credits are at
  the beginning. With two weights a unit apart there is no long alert course at all (`length_le_of_apart`).
-/

set_option linter.unusedSectionVars false

namespace DarkFactory
namespace Credits

section

variable {α K : Type} [DecidableEq α] [Field K] [LinearOrder K] [IsStrictOrderedRing K]

structure Books (α K : Type) where
  credit : α → K
  waited : α → ℕ

variable (S : List α) (w : α → K)

def offered (b : Books α K) (p : α) : K := b.credit p + w p

def choice (b : Books α K) : Option α := S.argmax (offered w b)

def next (b : Books α K) : Books α K :=
  match choice S w b with
  | none => b
  | some p => {
      credit := fun q => if q = p then max 0 (offered w b p - 1) else if q ∈ S then offered w b q else b.credit q
      waited := fun q => if q = p then 0 else b.waited q + 1 }

def after (b : Books α K) (n : ℕ) : Books α K := (next S w)^[n] b

def chosen (b : Books α K) (p : α) : ℕ → ℕ
  | 0 => 0
  | n + 1 => chosen b p n + if choice S w (after S w b n) = some p then 1 else 0

/-- In none of the first rounds somebody has waited for `patience` rounds. -/
def Alert (patience : ℕ) (b : Books α K) (n : ℕ) : Prop :=
  ∀ k < n, ∀ q ∈ S, (after S w b k).waited q < patience

def Solvent (b : Books α K) : Prop := ∀ q ∈ S, 0 ≤ b.credit q

inductive Balanced : Prop where
  | equal : (∀ p ∈ S, ∀ q ∈ S, w p = w q) → Balanced
  | unit : (S.map w).sum = 1 → Balanced
  | apart (p q : α) : p ∈ S → q ∈ S → w p + 1 ≤ w q → Balanced

variable {S w} {b : Books α K}

/-! ## Rounds -/

variable {p q : α} {patience n : ℕ}

theorem choice_mem (h : choice S w b = some p) : p ∈ S := List.argmax_mem h

theorem offered_le (h : choice S w b = some p) (hq : q ∈ S) : offered w b q ≤ offered w b p :=
  List.le_of_mem_argmax hq h

theorem choice_first (h : choice S w b = some p) (hq : q ∈ S) (hle : offered w b p ≤ offered w b q) :
    S.idxOf p ≤ S.idxOf q :=
  List.index_of_argmax h hq hle

theorem choice_isSome (hS : S ≠ []) : ∃ p, choice S w b = some p := by
  cases h : choice S w b with
  | none => exact absurd (List.argmax_eq_none.mp h) hS
  | some p => exact ⟨p, rfl⟩

theorem choice_pair (p q : α) : choice [p, q] w b = if offered w b p < offered w b q then some q else some p := by
  unfold choice
  rw [List.argmax_cons, List.argmax_singleton]

theorem credit_chosen (h : choice S w b = some p) : (next S w b).credit p = max 0 (offered w b p - 1) := by
  unfold next
  rw [h]
  exact if_pos rfl

theorem credit_other (h : choice S w b = some p) (hne : q ≠ p) (hq : q ∈ S) :
    (next S w b).credit q = offered w b q := by
  unfold next
  rw [h]
  exact (if_neg hne).trans (if_pos hq)

theorem waited_chosen (h : choice S w b = some p) : (next S w b).waited p = 0 := by
  unfold next
  rw [h]
  exact if_pos rfl

theorem waited_other (h : choice S w b = some p) (hne : q ≠ p) : (next S w b).waited q = b.waited q + 1 := by
  unfold next
  rw [h]
  exact if_neg hne

theorem after_succ (n : ℕ) : after S w b (n + 1) = next S w (after S w b n) := Function.iterate_succ_apply' ..

theorem after_add (n k : ℕ) : after S w b (n + k) = after S w (after S w b n) k := by
  rw [Nat.add_comm]
  exact Function.iterate_add_apply ..

theorem Solvent.next (hw : ∀ q ∈ S, 0 < w q) (h : Solvent S b) : Solvent S (next S w b) := by
  intro q hq
  cases hchoice : choice S w b with
  | none =>
    have hsame : Credits.next S w b = b := by unfold Credits.next; rw [hchoice]
    rw [hsame]
    exact h q hq
  | some p =>
    by_cases hqp : q = p
    · subst hqp
      rw [credit_chosen hchoice]
      exact le_max_left ..
    · rw [credit_other hchoice hqp hq]
      have hcredit := h q hq
      have hweight := hw q hq
      unfold offered
      linarith

theorem Solvent.after (hw : ∀ q ∈ S, 0 < w q) (h : Solvent S b) (n : ℕ) : Solvent S (after S w b n) := by
  induction n with
  | zero => exact h
  | succ n ih =>
    rw [after_succ]
    exact ih.next hw

theorem offered_pos (hw : ∀ q ∈ S, 0 < w q) (h : Solvent S b) {q : α} (hq : q ∈ S) : 0 < offered w b q := by
  have hcredit := h q hq
  have hweight := hw q hq
  unfold offered
  linarith

theorem chosen_le (p : α) (n : ℕ) : chosen S w b p n ≤ n := by
  induction n with
  | zero => exact Nat.le_refl 0
  | succ n ih =>
    rw [chosen]
    split <;> omega

theorem waited_unchosen (hq : q ∈ S) {n : ℕ} (h : ∀ k < n, choice S w (after S w b k) ≠ some q) :
    n ≤ (after S w b n).waited q := by
  induction n with
  | zero => exact Nat.zero_le _
  | succ n ih =>
    obtain ⟨p, hp⟩ := choice_isSome (w := w) (b := after S w b n) (List.ne_nil_of_mem hq)
    have hne : q ≠ p := by
      rintro rfl
      exact h n (Nat.lt_succ_self n) hp
    have hbefore := ih fun k hk => h k (Nat.lt_succ_of_lt hk)
    rw [after_succ, waited_other hp hne]
    omega

theorem Alert.chosen_before (h : Alert S w patience b n) (hn : patience < n) {q : α} (hq : q ∈ S) :
    ∃ k < patience, choice S w (after S w b k) = some q := by
  by_contra hnot
  have hwaited := waited_unchosen hq (n := patience) fun k hk hchoice => hnot ⟨k, hk, hchoice⟩
  exact absurd (h patience hn q hq) (Nat.not_lt.mpr hwaited)

theorem Alert.rest (h : Alert S w patience b n) (k : ℕ) : Alert S w patience (after S w b k) (n - k) := by
  intro j hj q hq
  rw [← after_add]
  exact h (k + j) (by omega) q hq

theorem chosen_zero (h : chosen S w b q n = 0) : ∀ k < n, choice S w (after S w b k) ≠ some q := by
  induction n with
  | zero => exact fun k hk => absurd hk (Nat.not_lt_zero k)
  | succ n ih =>
    rw [chosen] at h
    intro k hk hchoice
    rcases Nat.lt_succ_iff_lt_or_eq.mp hk with hless | rfl
    · exact ih (by omega) k hless hchoice
    · rw [if_pos hchoice] at h
      omega

theorem Alert.le_of_unchosen (h : Alert S w patience b n) {q : α} (hq : q ∈ S)
    (hzero : chosen S w b q n = 0) : n ≤ patience := by
  by_contra hless
  obtain ⟨k, hk, hchoice⟩ := h.chosen_before (Nat.not_le.mp hless) hq
  exact chosen_zero hzero k (by omega) hchoice

theorem chosen_cons (p : α) (n : ℕ) :
    chosen S w b p (n + 1) = (if choice S w b = some p then 1 else 0) + chosen S w (next S w b) p n := by
  induction n with
  | zero =>
    rw [chosen, chosen, chosen, Nat.zero_add, Nat.add_zero]
    rfl
  | succ n ih =>
    rw [chosen, ih, chosen, Nat.add_assoc]
    rfl

theorem Alert.cons (hfirst : ∀ q ∈ S, b.waited q < patience) (h : Alert S w patience (next S w b) n) :
    Alert S w patience b (n + 1) := by
  intro k hk
  cases k with
  | zero => exact hfirst
  | succ k => exact h k (Nat.lt_of_succ_lt_succ hk)

/-! ## Two weights a unit apart -/

theorem chosen_ge (h : choice S w b = some p) : offered w b p - 1 ≤ (next S w b).credit p := by
  rw [credit_chosen h]
  exact le_max_right ..

theorem chosen_lt (h : choice S w b = some p) (hpos : 0 < offered w b p) :
    (next S w b).credit p < offered w b p := by
  rw [credit_chosen h]
  exact max_lt hpos (sub_one_lt _)

section

variable {p q : α} (hp : p ∈ S) (hq : q ∈ S) (hw : ∀ r ∈ S, 0 < w r) (hapart : w p + 1 ≤ w q)

include hp hq hw hapart

theorem ne_of_apart : p ≠ q := by
  rintro rfl
  linarith

theorem behind_next (hbehind : b.credit p < b.credit q) :
    choice S w b ≠ some p ∧ (next S w b).credit p < (next S w b).credit q := by
  have hne := ne_of_apart hp hq hw hapart
  have hoffered : offered w b p + 1 < offered w b q := by
    unfold offered
    linarith
  constructor
  · intro hchoice
    have hle := offered_le hchoice hq
    linarith
  · obtain ⟨r, hr⟩ := choice_isSome (w := w) (b := b) (List.ne_nil_of_mem hp)
    by_cases hrq : r = q
    · subst hrq
      have hkept := chosen_ge hr
      rw [credit_other hr hne hp]
      linarith
    · rw [credit_other hr (fun h => hrq h.symm) hq]
      by_cases hrp : r = p
      · subst hrp
        have hle := offered_le hr hq
        linarith
      · rw [credit_other hr (fun h => hrp h.symm) hp]
        linarith

theorem behind_after (hbehind : b.credit p < b.credit q) (n : ℕ) :
    (after S w b n).credit p < (after S w b n).credit q := by
  induction n with
  | zero => exact hbehind
  | succ n ih =>
    rw [after_succ]
    exact (behind_next hp hq hw hapart ih).2

theorem length_of_behind {patience n : ℕ} (hbehind : b.credit p < b.credit q)
    (h : Alert S w patience b n) : n ≤ patience := by
  by_contra hlong
  obtain ⟨k, -, hchoice⟩ := h.chosen_before (Nat.not_le.mp hlong) hp
  exact (behind_next hp hq hw hapart (behind_after hp hq hw hapart hbehind k)).1 hchoice

theorem ahead_next (hb : Solvent S b) (hahead : b.credit p ≤ b.credit q + 1) :
    (next S w b).credit p ≤ (next S w b).credit q + 1 ∧
      (choice S w b = some p → (next S w b).credit p < (next S w b).credit q) := by
  have hne := ne_of_apart hp hq hw hapart
  have hoffered : offered w b p ≤ offered w b q := by
    unfold offered
    linarith
  obtain ⟨r, hr⟩ := choice_isSome (w := w) (b := b) (List.ne_nil_of_mem hp)
  by_cases hrp : r = p
  · subst hrp
    have hless := chosen_lt hr (offered_pos hw hb hp)
    rw [credit_other hr (fun h => hne h.symm) hq]
    exact ⟨by linarith, fun _ => by linarith⟩
  · refine ⟨?_, fun hchoice => absurd (Option.some.inj (hr.symm.trans hchoice)) hrp⟩
    rw [credit_other hr (fun h => hrp h.symm) hp]
    by_cases hrq : r = q
    · subst hrq
      have hkept := chosen_ge hr
      linarith
    · rw [credit_other hr (fun h => hrq h.symm) hq]
      linarith

theorem ahead_after (hb : Solvent S b) (hahead : b.credit p ≤ b.credit q + 1) (n : ℕ) :
    (after S w b n).credit p ≤ (after S w b n).credit q + 1 := by
  induction n with
  | zero => exact hahead
  | succ n ih =>
    rw [after_succ]
    exact (ahead_next hp hq hw hapart (hb.after hw n) ih).1

theorem length_of_ahead {patience n : ℕ} (hb : Solvent S b) (hahead : b.credit p ≤ b.credit q + 1)
    (h : Alert S w patience b n) : n ≤ 2 * patience := by
  by_cases hlong : patience < n
  · obtain ⟨k, hk, hchoice⟩ := h.chosen_before hlong hp
    have hbehind := (ahead_next hp hq hw hapart (hb.after hw k) (ahead_after hp hq hw hapart hb hahead k)).2 hchoice
    rw [← after_succ] at hbehind
    have hrest := length_of_behind hp hq hw hapart hbehind (h.rest (k + 1))
    omega
  · omega

theorem length_le_of_apart {patience n : ℕ} (hb : Solvent S b) (h : Alert S w patience b n) : n ≤ 3 * patience := by
  by_cases hlong : patience < n
  · obtain ⟨k, hk, hchoice⟩ := h.chosen_before hlong hq
    have hahead : (after S w b (k + 1)).credit p ≤ (after S w b (k + 1)).credit q + 1 := by
      rw [after_succ, credit_other hchoice (ne_of_apart hp hq hw hapart) hp]
      have hle := offered_le hchoice hp
      have hkept := chosen_ge hchoice
      linarith
    have hrest := length_of_ahead hp hq hw hapart (hb.after hw (k + 1)) hahead (h.rest (k + 1))
    omega
  · omega

end

/-! ## Equal weights -/

def lead (S : List α) (w : α → K) (b : Books α K) (p q : α) (n : ℕ) : ℤ := chosen S w b p n - chosen S w b q n

/-- Of two with equal weights, who is a unit behind or more has to be chosen first; after that they take turns, the one
that comes first in the list when they are level. -/
inductive Turns (patience : ℕ) (b : Books α K) (p q : α) (n : ℕ) : Prop where
  | ahead : (after S w b n).credit q + 1 ≤ (after S w b n).credit p → chosen S w b q n = 0 → Turns patience b p q n
  | behind : (after S w b n).credit p + 1 < (after S w b n).credit q → chosen S w b p n = 0 → Turns patience b p q n
  | first : (after S w b n).credit q ≤ (after S w b n).credit p →
      (after S w b n).credit p < (after S w b n).credit q + 1 → |lead S w b p q n| ≤ patience + 1 →
      Turns patience b p q n
  | second : (after S w b n).credit p < (after S w b n).credit q →
      (after S w b n).credit q ≤ (after S w b n).credit p + 1 → |lead S w b p q n - 1| ≤ patience + 1 →
      Turns patience b p q n

theorem chosen_succ_self (h : choice S w (after S w b n) = some p) :
    chosen S w b p (n + 1) = chosen S w b p n + 1 := by
  rw [chosen, if_pos h]

theorem chosen_succ_other {r : α} (h : choice S w (after S w b n) = some r) (hne : p ≠ r) :
    chosen S w b p (n + 1) = chosen S w b p n := by
  rw [chosen, if_neg]
  · rfl
  · rw [h]
    exact fun heq => hne (Option.some.inj heq).symm

theorem Alert.lt_of_unchosen (h : Alert S w patience b (n + 1)) {q : α} (hq : q ∈ S)
    (hzero : chosen S w b q n = 0) : n < patience :=
  lt_of_le_of_lt (waited_unchosen hq (chosen_zero hzero)) (h n (Nat.lt_succ_self n) q hq)

section

variable {p q : α} (hp : p ∈ S) (hq : q ∈ S) (hw : ∀ r ∈ S, 0 < w r) (hsame : w p = w q)
  (hbefore : S.idxOf p < S.idxOf q)

include hp hq hw hsame hbefore

variable {patience : ℕ}

theorem turns_first {n : ℕ} (hb : Solvent S b) (h : Alert S w patience b (n + 1))
    (hturns : Turns (S := S) (w := w) patience b p q n) (hchoice : choice S w (after S w b n) = some p) :
    Turns (S := S) (w := w) patience b p q (n + 1) := by
  have hne : q ≠ p := by
    rintro rfl
    exact Nat.lt_irrefl _ hbefore
  have hle := offered_le hchoice hq
  have hpos := offered_pos hw (hb.after hw n) hq
  have hq' := credit_other hchoice hne hq
  have hkept := chosen_ge hchoice
  rw [← after_succ] at hq' hkept
  unfold offered at hle hpos hq' hkept
  have hlead : lead S w b p q (n + 1) = lead S w b p q n + 1 := by
    unfold lead
    rw [chosen_succ_self hchoice, chosen_succ_other hchoice hne]
    push_cast
    ring
  cases hturns with
  | ahead hcredit hzero =>
    have hn := h.lt_of_unchosen hq hzero
    have hzero' : chosen S w b q (n + 1) = 0 := (chosen_succ_other hchoice hne).trans hzero
    by_cases hstill : (after S w b (n + 1)).credit q + 1 ≤ (after S w b (n + 1)).credit p
    · exact .ahead hstill hzero'
    · refine .first (by linarith) (not_le.mp hstill) ?_
      have hcount := chosen_le (S := S) (w := w) (b := b) p (n + 1)
      unfold lead
      rw [hzero', abs_le]
      omega
  | behind hcredit hzero => linarith
  | first hlow hhigh hbound =>
    refine .second ?_ (by linarith) ?_
    · rw [after_succ, credit_chosen hchoice, ← after_succ, hq']
      unfold offered
      exact max_lt hpos (by linarith)
    · rw [hlead, add_sub_cancel_right]
      exact hbound
  | second hlow hhigh hbound => linarith

theorem turns_second {n : ℕ} (hb : Solvent S b) (h : Alert S w patience b (n + 1))
    (hturns : Turns (S := S) (w := w) patience b p q n) (hchoice : choice S w (after S w b n) = some q) :
    Turns (S := S) (w := w) patience b p q (n + 1) := by
  have hne : p ≠ q := by
    rintro rfl
    exact Nat.lt_irrefl _ hbefore
  have hless : offered w (after S w b n) p < offered w (after S w b n) q := by
    rw [← not_le]
    exact fun hle => absurd (choice_first hchoice hp hle) (Nat.not_le.mpr hbefore)
  have hpos := offered_pos hw (hb.after hw n) hp
  have hp' := credit_other hchoice hne hp
  have hkept := chosen_ge hchoice
  rw [← after_succ] at hp' hkept
  unfold offered at hless hpos hp' hkept
  have hlead : lead S w b p q (n + 1) = lead S w b p q n - 1 := by
    unfold lead
    rw [chosen_succ_self hchoice, chosen_succ_other hchoice hne]
    push_cast
    ring
  cases hturns with
  | ahead hcredit hzero => linarith
  | behind hcredit hzero =>
    have hn := h.lt_of_unchosen hp hzero
    have hzero' : chosen S w b p (n + 1) = 0 := (chosen_succ_other hchoice hne).trans hzero
    by_cases hstill : (after S w b (n + 1)).credit p + 1 < (after S w b (n + 1)).credit q
    · exact .behind hstill hzero'
    · refine .second (by linarith) (not_lt.mp hstill) ?_
      have hcount := chosen_le (S := S) (w := w) (b := b) q (n + 1)
      unfold lead
      rw [hzero', abs_le]
      omega
  | first hlow hhigh hbound => linarith
  | second hlow hhigh hbound =>
    refine .first ?_ (by linarith) ?_
    · rw [after_succ, credit_chosen hchoice, ← after_succ, hp']
      unfold offered
      exact max_le hpos.le (by linarith)
    · rw [hlead]
      exact hbound

theorem turns_other {n : ℕ} {r : α} (hturns : Turns (S := S) (w := w) patience b p q n)
    (hchoice : choice S w (after S w b n) = some r) (hpr : p ≠ r) (hqr : q ≠ r) :
    Turns (S := S) (w := w) patience b p q (n + 1) := by
  have hp' := credit_other hchoice hpr hp
  have hq' := credit_other hchoice hqr hq
  rw [← after_succ] at hp' hq'
  unfold offered at hp' hq'
  have hchosen := chosen_succ_other (p := p) hchoice hpr
  have hchosen' := chosen_succ_other (p := q) hchoice hqr
  have hlead : lead S w b p q (n + 1) = lead S w b p q n := by
    unfold lead
    rw [hchosen, hchosen']
  cases hturns with
  | ahead hcredit hzero => exact .ahead (by linarith) (hchosen'.trans hzero)
  | behind hcredit hzero => exact .behind (by linarith) (hchosen.trans hzero)
  | first hlow hhigh hbound => exact .first (by linarith) (by linarith) (hlead ▸ hbound)
  | second hlow hhigh hbound => exact .second (by linarith) (by linarith) (hlead ▸ hbound)

theorem turns_after (hb : Solvent S b) {n : ℕ} (h : Alert S w patience b n) :
    Turns (S := S) (w := w) patience b p q n := by
  induction n with
  | zero =>
    have hlead : lead S w b p q 0 = 0 := rfl
    have hpatience : (0 : ℤ) ≤ patience := Int.natCast_nonneg patience
    by_cases hahead : b.credit q + 1 ≤ b.credit p
    · exact .ahead hahead rfl
    · by_cases hbehind : b.credit p + 1 < b.credit q
      · exact .behind hbehind rfl
      · by_cases hlow : b.credit q ≤ b.credit p
        · refine .first hlow (not_le.mp hahead) ?_
          rw [hlead, abs_le]
          omega
        · refine .second (not_le.mp hlow) (not_lt.mp hbehind) ?_
          rw [hlead, abs_le]
          omega
  | succ n ih =>
    have hturns := ih fun k hk => h k (Nat.lt_succ_of_lt hk)
    obtain ⟨r, hr⟩ := choice_isSome (w := w) (b := after S w b n) (List.ne_nil_of_mem hp)
    by_cases hpr : p = r
    · exact turns_first hp hq hw hsame hbefore hb h hturns (hpr ▸ hr)
    · by_cases hqr : q = r
      · exact turns_second hp hq hw hsame hbefore hb h hturns (hqr ▸ hr)
      · exact turns_other hp hq hw hsame hbefore hturns hr hpr hqr

theorem lead_le {n : ℕ} (hb : Solvent S b) (h : Alert S w patience b n) :
    |lead S w b p q n| ≤ patience + 2 := by
  have hcountP := chosen_le (S := S) (w := w) (b := b) p n
  have hcountQ := chosen_le (S := S) (w := w) (b := b) q n
  cases turns_after hp hq hw hsame hbefore hb h with
  | ahead hcredit hzero =>
    have hlength := h.le_of_unchosen hq hzero
    unfold lead
    rw [hzero, abs_le]
    omega
  | behind hcredit hzero =>
    have hlength := h.le_of_unchosen hp hzero
    unfold lead
    rw [hzero, abs_le]
    omega
  | first hlow hhigh hbound =>
    rw [abs_le] at hbound ⊢
    omega
  | second hlow hhigh hbound =>
    rw [abs_le] at hbound ⊢
    omega

end

theorem lead_le_of_equal (hw : ∀ r ∈ S, 0 < w r) (hequal : ∀ p ∈ S, ∀ q ∈ S, w p = w q) {p q : α} (hp : p ∈ S)
    (hq : q ∈ S) {patience n : ℕ} (hb : Solvent S b) (h : Alert S w patience b n) :
    |lead S w b p q n| ≤ patience + 2 := by
  rcases Nat.lt_trichotomy (S.idxOf p) (S.idxOf q) with hless | hsame | hless
  · exact lead_le hp hq hw (hequal p hp q hq) hless hb h
  · have heq : p = q := (List.idxOf_inj hp).mp hsame
    subst heq
    unfold lead
    rw [sub_self, abs_zero]
    omega
  · have hlead : lead S w b p q n = - lead S w b q p n := by
      unfold lead
      ring
    rw [hlead, abs_neg]
    exact lead_le hq hp hw (hequal q hq p hp) hless hb h

/-! ## Weights that add up to the unit -/

def total (S : List α) (b : Books α K) : K := ∑ q ∈ S.toFinset, b.credit q

def waived (w : α → K) (b : Books α K) (p : α) : K := max 0 (1 - offered w b p)

theorem waived_nonneg (p : α) : 0 ≤ waived w b p := le_max_left ..

theorem credit_waived (h : choice S w b = some p) : (next S w b).credit p = offered w b p - 1 + waived w b p := by
  rw [credit_chosen h]
  unfold waived
  rcases le_total (offered w b p) 1 with hle | hle
  · rw [max_eq_left (by linarith), max_eq_right (by linarith)]
    ring
  · rw [max_eq_right (by linarith), max_eq_left (by linarith)]
    ring

section

variable (hnodup : S.Nodup) (hw : ∀ r ∈ S, 0 < w r) (hunit : (S.map w).sum = 1)

include hnodup hunit

theorem sum_offered : ∑ q ∈ S.toFinset, offered w b q = total S b + 1 := by
  unfold offered total
  rw [Finset.sum_add_distrib, List.sum_toFinset w hnodup, hunit]

theorem total_next {p : α} (h : choice S w b = some p) : total S (next S w b) = total S b + waived w b p := by
  have hp : p ∈ S.toFinset := List.mem_toFinset.mpr (choice_mem h)
  have hothers : ∑ q ∈ S.toFinset.erase p, (next S w b).credit q = ∑ q ∈ S.toFinset.erase p, offered w b q := by
    refine Finset.sum_congr rfl fun q hq => ?_
    rw [Finset.mem_erase, List.mem_toFinset] at hq
    exact credit_other h hq.1 hq.2
  have hsum := sum_offered (b := b) hnodup hunit
  rw [← Finset.add_sum_erase _ _ hp] at hsum
  unfold total at hsum ⊢
  rw [← Finset.add_sum_erase _ _ hp, hothers, credit_waived h]
  linarith

theorem total_le_offered {p : α} (h : choice S w b = some p) : total S b + 1 ≤ S.toFinset.card * offered w b p := by
  rw [← sum_offered hnodup hunit, ← nsmul_eq_mul]
  exact Finset.sum_le_card_nsmul _ _ _ fun q hq => offered_le h (List.mem_toFinset.mp hq)

include hw

theorem waived_next {p : α} (hb : Solvent S b) (h : choice S w b = some p) :
    total S (next S w b) ≤ max (total S b) S.toFinset.card := by
  rw [total_next hnodup hunit h]
  unfold waived
  rcases le_total 1 (offered w b p) with hle | hle
  · rw [max_eq_left (by linarith), add_zero]
    exact le_max_left ..
  · rw [max_eq_right (by linarith)]
    have hsum := total_le_offered hnodup hunit h
    have hpos := offered_pos hw hb (choice_mem h)
    have hcard : (0 : K) ≤ S.toFinset.card := Nat.cast_nonneg _
    have hfew : (S.toFinset.card : K) * offered w b p ≤ S.toFinset.card := mul_le_of_le_one_right hcard hle
    refine le_max_of_le_right ?_
    linarith

theorem total_after (hS : S ≠ []) (hb : Solvent S b) (n : ℕ) :
    total S b ≤ total S (after S w b n) ∧ total S (after S w b n) ≤ max (total S b) S.toFinset.card := by
  induction n with
  | zero => exact ⟨le_refl _, le_max_left ..⟩
  | succ n ih =>
    obtain ⟨p, hp⟩ := choice_isSome (w := w) (b := after S w b n) hS
    have hgain := total_next hnodup hunit hp
    have hnonneg := waived_nonneg (w := w) (b := after S w b n) p
    have hnext := waived_next hnodup hw hunit (hb.after hw n) hp
    rw [after_succ]
    exact ⟨by linarith [ih.1], hnext.trans (max_le ih.2 (le_max_right ..))⟩

theorem balance {q : α} (hq : q ∈ S) (n : ℕ) :
    0 ≤ (after S w b n).credit q - b.credit q - n * w q + chosen S w b q n ∧
      (after S w b n).credit q - b.credit q - n * w q + chosen S w b q n ≤ total S (after S w b n) - total S b := by
  induction n with
  | zero =>
    have hzero : (after S w b 0).credit q - b.credit q - (0 : ℕ) * w q + chosen S w b q 0 = 0 := by
      rw [show after S w b 0 = b from rfl, chosen]
      push_cast
      ring
    rw [hzero]
    exact ⟨le_refl 0, by rw [show after S w b 0 = b from rfl, sub_self]⟩
  | succ n ih =>
    obtain ⟨p, hp⟩ := choice_isSome (w := w) (b := after S w b n) (List.ne_nil_of_mem hq)
    have hgain := total_next hnodup hunit hp
    have hnonneg := waived_nonneg (w := w) (b := after S w b n) p
    rw [after_succ]
    by_cases hqp : q = p
    · subst hqp
      rw [credit_waived hp, chosen_succ_self hp]
      unfold offered at *
      push_cast
      constructor <;> linarith [ih.1, ih.2]
    · rw [credit_other hp hqp hq, chosen_succ_other hp hqp]
      unfold offered at *
      push_cast
      constructor <;> linarith [ih.1, ih.2]

theorem floor_after {floor : K} (hfloor : ∀ q ∈ S, floor ≤ b.credit q) (hlow : S.toFinset.card * (floor + 1) ≤ total S b)
    (hS : S ≠ []) (hb : Solvent S b) (n : ℕ) : ∀ q ∈ S, floor ≤ (after S w b n).credit q := by
  induction n with
  | zero => exact hfloor
  | succ n ih =>
    intro q hq
    obtain ⟨p, hp⟩ := choice_isSome (w := w) (b := after S w b n) hS
    rw [after_succ]
    by_cases hqp : q = p
    · subst hqp
      have hkept := chosen_ge hp
      have hmost := total_le_offered hnodup hunit hp
      have hgrown := (total_after hnodup hw hunit hS hb n).1
      have hcard : (0 : K) < S.toFinset.card :=
        Nat.cast_pos.mpr (Finset.card_pos.mpr ⟨q, List.mem_toFinset.mpr hq⟩)
      have hoffered : floor + 1 ≤ offered w (after S w b n) q := by
        refine le_of_mul_le_mul_left ?_ hcard
        linarith
      linarith
    · rw [credit_other hp hqp hq]
      have hweight := hw q hq
      have hbefore := ih q hq
      unfold offered
      linarith

theorem weight_le_one {q : α} (hq : q ∈ S) : w q ≤ 1 := by
  rw [← hunit, ← List.sum_toFinset w hnodup]
  exact Finset.single_le_sum (fun r hr => (hw r (List.mem_toFinset.mp hr)).le) (List.mem_toFinset.mpr hq)

theorem total_nonneg (hb : Solvent S b) : 0 ≤ total S b :=
  Finset.sum_nonneg fun q hq => hb q (List.mem_toFinset.mp hq)

/-- How far below the mean somebody can be at the beginning of a long alert course. -/
def depth (S : List α) (patience : ℕ) : ℕ := patience + S.toFinset.card + 1

theorem start_floor {patience n : ℕ} (hb : Solvent S b) (h : Alert S w patience b n) (hlong : patience < n) {q : α}
    (hq : q ∈ S) : total S b ≤ S.toFinset.card * (b.credit q + depth S patience) := by
  obtain ⟨k, hk, hchoice⟩ := h.chosen_before hlong hq
  have hS := List.ne_nil_of_mem hq
  have hmost := total_le_offered hnodup hunit hchoice
  obtain ⟨hgrown, hceiling⟩ := total_after hnodup hw hunit hS hb k
  have hbalance := (balance hnodup hw hunit (b := b) hq k).2
  have hchosen : (0 : K) ≤ chosen S w b q k := Nat.cast_nonneg _
  have hcard : (0 : K) ≤ S.toFinset.card := Nat.cast_nonneg _
  have hgain : total S (after S w b k) - total S b ≤ S.toFinset.card := by
    have hmax := max_le_add_of_nonneg (total_nonneg hnodup hw hunit hb) hcard
    linarith
  have hweight := weight_le_one hnodup hw hunit hq
  have hwaits : (k : K) * w q ≤ k := mul_le_of_le_one_right (Nat.cast_nonneg k) hweight
  have hpatience : (k : K) + 1 ≤ patience := by exact_mod_cast hk
  have hoffered : offered w (after S w b k) q ≤ b.credit q + depth S patience := by
    unfold offered depth
    push_cast
    linarith
  have hscaled := mul_le_mul_of_nonneg_left hoffered hcard
  linarith

theorem credit_range {patience n : ℕ} (hb : Solvent S b) (h : Alert S w patience b n) (hlong : patience < n) {q : α}
    (hq : q ∈ S) (k : ℕ) :
    total S b / S.toFinset.card - depth S patience ≤ (after S w b k).credit q ∧
      (after S w b k).credit q ≤
        total S b / S.toFinset.card - depth S patience + S.toFinset.card * (depth S patience + 1) := by
  have hmem : q ∈ S.toFinset := List.mem_toFinset.mpr hq
  have hcard : (0 : K) < S.toFinset.card := Nat.cast_pos.mpr (Finset.card_pos.mpr ⟨q, hmem⟩)
  have hS := List.ne_nil_of_mem hq
  generalize hfloor : total S b / S.toFinset.card - depth S patience = floor
  have hmean : S.toFinset.card * (floor + depth S patience) = total S b := by
    rw [← hfloor, sub_add_cancel]
    exact mul_div_cancel₀ _ hcard.ne'
  have hstart : ∀ r ∈ S, floor ≤ b.credit r := by
    intro r hr
    have hbegin := start_floor hnodup hw hunit hb h hlong hr
    rw [← hmean] at hbegin
    have hle := le_of_mul_le_mul_left hbegin hcard
    linarith
  have hdepth : (1 : K) ≤ depth S patience := by
    unfold depth
    exact_mod_cast Nat.le_add_left 1 _
  have hlow : S.toFinset.card * (floor + 1) ≤ total S b := by
    rw [← hmean]
    exact mul_le_mul_of_nonneg_left (by linarith) hcard.le
  have hfloors := floor_after hnodup hw hunit hstart hlow hS hb k
  refine ⟨hfloors q hq, ?_⟩
  have hothers : (S.toFinset.erase q).card • floor ≤ ∑ r ∈ S.toFinset.erase q, (after S w b k).credit r :=
    Finset.card_nsmul_le_sum _ _ _ fun r hr => hfloors r (List.mem_toFinset.mp (Finset.mem_of_mem_erase hr))
  have hsum : (after S w b k).credit q + ∑ r ∈ S.toFinset.erase q, (after S w b k).credit r =
      total S (after S w b k) := Finset.add_sum_erase _ _ hmem
  have herase : ((S.toFinset.erase q).card : K) = S.toFinset.card - 1 := by
    rw [Finset.card_erase_of_mem hmem, Nat.cast_sub (Finset.card_pos.mpr ⟨q, hmem⟩), Nat.cast_one]
  rw [nsmul_eq_mul, herase] at hothers
  have hceiling := (total_after hnodup hw hunit hS hb k).2
  have hmax := max_le_add_of_nonneg (total_nonneg hnodup hw hunit hb) hcard.le
  linarith

def spread (S : List α) (patience : ℕ) : ℕ := S.toFinset.card * (depth S patience + 2) + patience

theorem chosen_share {patience n : ℕ} (hb : Solvent S b) (h : Alert S w patience b n) {q : α} (hq : q ∈ S) :
    |(chosen S w b q n : K) - n * w q| ≤ spread S patience := by
  have hweight := weight_le_one hnodup hw hunit hq
  have hpositive := hw q hq
  have hn : (0 : K) ≤ n := Nat.cast_nonneg n
  have hshare : (n : K) * w q ≤ n := mul_le_of_le_one_right hn hweight
  have hnonneg : 0 ≤ (n : K) * w q := mul_nonneg hn hpositive.le
  have hcard : (0 : K) ≤ S.toFinset.card := Nat.cast_nonneg _
  have hdepth : (0 : K) ≤ depth S patience := Nat.cast_nonneg _
  have hchosen : (chosen S w b q n : K) ≤ n := by exact_mod_cast chosen_le q n
  have hchosen' : (0 : K) ≤ chosen S w b q n := Nat.cast_nonneg _
  have hproduct := mul_nonneg hcard hdepth
  unfold spread
  push_cast
  rw [abs_le]
  by_cases hlong : patience < n
  · obtain ⟨hlow, hhigh⟩ := credit_range hnodup hw hunit hb h hlong hq n
    obtain ⟨hlow', hhigh'⟩ := credit_range hnodup hw hunit hb h hlong hq 0
    rw [show after S w b 0 = b from rfl] at hlow' hhigh'
    obtain ⟨hgained, hgained'⟩ := balance hnodup hw hunit (b := b) hq n
    have hceiling := (total_after hnodup hw hunit (List.ne_nil_of_mem hq) hb n).2
    have hmax := max_le_add_of_nonneg (total_nonneg hnodup hw hunit hb) hcard
    have hpatience : (0 : K) ≤ patience := Nat.cast_nonneg _
    constructor <;> linarith
  · have hshort : (n : K) ≤ patience := by exact_mod_cast Nat.not_lt.mp hlong
    constructor <;> linarith

end

/-! ## Fairness -/

theorem abs_div_sub_div_le {x y a c u v B : K} (hu : 0 < u) (hv : 0 < v) (hx : |x - a * u| ≤ B) (hy : |y - a * v| ≤ B)
    (hc : B / u + B / v ≤ c) : |x / u - y / v| ≤ c := by
  have hsplit : x / u - y / v = (x - a * u) / u - (y - a * v) / v := by
    field_simp
    ring
  rw [hsplit]
  have htriangle := abs_sub ((x - a * u) / u) ((y - a * v) / v)
  rw [abs_div, abs_div, abs_of_pos hu, abs_of_pos hv] at htriangle
  have hx' : |x - a * u| / u ≤ B / u := div_le_div_of_nonneg_right hx hu.le
  have hy' : |y - a * v| / v ≤ B / v := div_le_div_of_nonneg_right hy hv.le
  linarith

theorem fair (hnodup : S.Nodup) (hw : ∀ r ∈ S, 0 < w r) (hbalanced : Balanced S w) (patience : ℕ) {p q : α} (hp : p ∈ S)
    (hq : q ∈ S) : ∃ bound : K, ∀ (b : Books α K) (n : ℕ), Solvent S b → Alert S w patience b n →
      |(chosen S w b p n : K) / w p - chosen S w b q n / w q| ≤ bound := by
  have hwp := hw p hp
  have hwq := hw q hq
  cases hbalanced with
  | equal hequal =>
    refine ⟨(patience + 2) / w p, ?_⟩
    intro b n hb h
    have hlead := lead_le_of_equal hw hequal hp hq hb h
    rw [← hequal p hp q hq, ← sub_div, abs_div, abs_of_pos hwp]
    refine div_le_div_of_nonneg_right ?_ hwp.le
    unfold lead at hlead
    exact_mod_cast hlead
  | unit hunit =>
    refine ⟨spread S patience / w p + spread S patience / w q, ?_⟩
    intro b n hb h
    exact abs_div_sub_div_le hwp hwq (chosen_share hnodup hw hunit hb h hp) (chosen_share hnodup hw hunit hb h hq)
      (le_refl _)
  | apart low high hlow hhigh hapart =>
    refine ⟨3 * patience / w p + 3 * patience / w q, ?_⟩
    intro b n hb h
    have hlength : (n : K) ≤ 3 * patience := by exact_mod_cast length_le_of_apart hlow hhigh hw hapart hb h
    have hcount : ∀ r, |(chosen S w b r n : K) - 0 * w r| ≤ 3 * patience := by
      intro r
      have hchosen : (chosen S w b r n : K) ≤ n := by exact_mod_cast chosen_le r n
      rw [zero_mul, sub_zero, abs_of_nonneg (Nat.cast_nonneg _)]
      linarith
    have hcountQ := hcount q
    rw [zero_mul] at hcountQ
    exact abs_div_sub_div_le hwp hwq (hcount p) (by rw [zero_mul]; exact hcountQ) (le_refl _)

end

end Credits
end DarkFactory
