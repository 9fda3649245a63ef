import Mathlib.Tactic.Common

/-!
# DarkFactory.Lib.Numbering

Numbered passes over the stages of a pipeline `dag : σ → Option σ`. A `Numbering` says which numbers
each stage has used so far, and the next one: above every used number, with the one before it used.

A pass can be opened in two ways: under the next number of its stage, which is always unused, or, for
a pass that follows one of the stage before it, under the number of that one, which may be used
already. `Dense` is the invariant both keep: above the last number of a stage, the stage that follows
it has used every number up to its own last one. So for a pass under the last number of its stage,
the number is still free at the following stage exactly if that stage has not come so far
(`Dense.free_iff`).
-/

namespace DarkFactory

structure Numbering (σ : Type) where
  used : σ → Nat → Prop
  next : σ → Nat
  lt_next : ∀ s n, used s n → n < next s
  used_pred : ∀ s n, next s = n + 1 → used s n

namespace Numbering

theorem le_foldl_max {l : List Nat} {n : Nat} (h : n ∈ l) : n ≤ l.foldl max 0 := by
  rw [List.foldl_max]
  cases hm : l.max? with
  | none =>
    rw [List.max?_eq_none_iff.mp hm] at h
    cases h
  | some m =>
    rw [Option.getD_some, Nat.zero_max]
    exact (List.max?_eq_some_iff.mp hm).2 n h

theorem mem_of_foldl_max {l : List Nat} {n : Nat} (h : l.foldl max 0 = n + 1) : n + 1 ∈ l := by
  rw [List.foldl_max] at h
  cases hm : l.max? with
  | none =>
    rw [hm] at h
    cases h
  | some m =>
    rw [hm, Option.getD_some, Nat.zero_max] at h
    exact h ▸ (List.max?_eq_some_iff.mp hm).1

variable {σ : Type} {b b' : Numbering σ}

theorem next_le (b b' : Numbering σ) {s s' : σ} (h : ∀ n, b.used s n → b'.used s' n) : b.next s ≤ b'.next s' := by
  cases hn : b.next s with
  | zero => exact Nat.zero_le _
  | succ n => exact b'.lt_next s' n (h n (b.used_pred s n hn))

/-- `b'` is `b` with pass `n` of stage `t` opened above the numbers used there. -/
structure Opens (b b' : Numbering σ) (t : σ) (n : Nat) : Prop where
  used : ∀ s m, b'.used s m ↔ b.used s m ∨ (s = t ∧ m = n)
  le : b.next t ≤ n

namespace Opens

variable {t : σ} {n : Nat}

theorem next_self (h : Opens b b' t n) : b'.next t = n + 1 := by
  have hn := b'.lt_next t n ((h.used t n).mpr (.inr ⟨rfl, rfl⟩))
  cases hk : b'.next t with
  | zero => omega
  | succ k =>
    rcases (h.used t k).mp (b'.used_pred t k hk) with hu | ⟨-, rfl⟩
    · have := b.lt_next t k hu
      have := h.le
      omega
    · rfl

theorem next_other (h : Opens b b' t n) {s : σ} (hs : s ≠ t) : b'.next s = b.next s := by
  have hiff : ∀ m, b'.used s m ↔ b.used s m := fun m =>
    (h.used s m).trans (or_iff_left fun hm => hs hm.1)
  exact Nat.le_antisymm (next_le b' b fun m => (hiff m).mp) (next_le b b' fun m => (hiff m).mpr)

end Opens

def Dense (dag : σ → Option σ) (b : Numbering σ) : Prop :=
  ∀ s t, dag s = some t → ∀ n, b.next s ≤ n + 1 → n < b.next t → b.used t n

namespace Dense

variable {dag : σ → Option σ}

theorem free_iff (h : b.Dense dag) {s t : σ} (hst : dag s = some t) {n : Nat}
    (hn : b.next s = n + 1) : ¬ b.used t n ↔ b.next t ≤ n := by
  constructor
  · intro hu
    by_contra hlt
    exact hu (h s t hst n (by omega) (by omega))
  · intro hle hu
    have := b.lt_next t n hu
    omega

theorem opens {t : σ} {n : Nat} (h : b.Dense dag) (ho : Opens b b' t n)
    (hgap : ∀ s, dag s = some t → s ≠ t → ∀ m, b.next s ≤ m + 1 → b.next t ≤ m → m < n → False)
    (hloop : dag t ≠ some t) : b'.Dense dag := by
  intro s u hsu m hle hlt
  rw [ho.used]
  by_cases hu : u = t
  · subst hu
    have hs : s ≠ u := by
      rintro rfl
      exact hloop hsu
    rw [ho.next_self] at hlt
    rw [ho.next_other hs] at hle
    by_cases hm : m = n
    · exact .inr ⟨rfl, hm⟩
    · refine .inl ?_
      by_cases hold : m < b.next u
      · exact h s u hsu m hle hold
      · exact (hgap s hsu hs m hle (by omega) (by omega)).elim
  · rw [ho.next_other hu] at hlt
    refine .inl (h s u hsu m ?_ hlt)
    by_cases hs : s = t
    · subst hs
      rw [ho.next_self] at hle
      have := ho.le
      omega
    · rw [ho.next_other hs] at hle
      exact hle

theorem opens_next {t : σ} (h : b.Dense dag) (ho : Opens b b' t (b.next t))
    (hloop : dag t ≠ some t) : b'.Dense dag :=
  h.opens ho (fun s _ _ m _ h₁ h₂ => by omega) hloop

theorem opens_following {s t : σ} {n : Nat} (h : b.Dense dag) (ho : Opens b b' t n)
    (hn : b.next s = n + 1) (hloop : dag t ≠ some t)
    (hinj : ∀ s', dag s' = some t → s' = s) : b'.Dense dag := by
  refine h.opens ho (fun s' hs' _ m hle _ hlt => ?_) hloop
  rw [hinj s' hs', hn] at hle
  omega

end Dense

end Numbering
end DarkFactory
