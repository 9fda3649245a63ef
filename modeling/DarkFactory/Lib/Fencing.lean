import Mathlib.Logic.Function.Basic
import Mathlib.Logic.Relation

/-!
# DarkFactory.Lib.Fencing

The fencing-token protocol, over any type `κ` of guarded keys and any type `ι` of lease ids.

A `Book` records for each key its current token (`none`: the key does not exist yet) and the lease
that holds it, and for each lease ever issued its key, its token and whether it is still live.
Three things can happen:

* `create` — a key appears, free, with token 0;
* `acquire` — a free key is leased under a fresh id; its token grows by one and is the lease's;
* `revoke` — any set of keys is taken back at once: they become free, every lease on them dies,
  and their tokens may grow by any amount.

`Inv` holds after any number of these steps. From it follow mutual exclusion (`Inv.held_iff`: a key
is held exactly if one live lease is on it), that no token is issued twice for a key
(`Inv.unique`), and that the next token is always new (`Inv.next_token_new`). `Step.le` says that
tokens never decrease.
-/

namespace DarkFactory
namespace Fencing

structure Lease (κ : Type) where
  key : κ
  token : Nat
  live : Bool

@[ext] structure Book (κ ι : Type) where
  token : κ → Option Nat
  holder : κ → Option ι
  lease : ι → Option (Lease κ)

section

variable {κ ι : Type}

namespace Book

def revoke (b : Book κ ι) (S : κ → Bool) (d : κ → Nat) : Book κ ι where
  token k := if S k then (b.token k).map (· + d k) else b.token k
  holder k := if S k then none else b.holder k
  lease l := (b.lease l).map fun c => if S c.key then { c with live := false } else c

/-- `b'` knows every key of `b`, with at least its token. -/
def Le (b b' : Book κ ι) : Prop :=
  ∀ k n, b.token k = some n → ∃ n', b'.token k = some n' ∧ n ≤ n'

theorem Le.refl (b : Book κ ι) : b.Le b := fun _ n h => ⟨n, h, Nat.le_refl n⟩

theorem Le.trans {b b' b'' : Book κ ι} (h₁ : b.Le b') (h₂ : b'.Le b'') : b.Le b'' := by
  intro k n hn
  obtain ⟨n', hn', hle⟩ := h₁ k n hn
  obtain ⟨n'', hn'', hle'⟩ := h₂ k n' hn'
  exact ⟨n'', hn'', Nat.le_trans hle hle'⟩

end Book

structure Inv (b : Book κ ι) : Prop where
  /-- A holder is a live lease on its key, under the key's current token. -/
  held : ∀ k l, b.holder k = some l → ∃ n, b.token k = some n ∧ b.lease l = some ⟨k, n, true⟩
  /-- A live lease holds its key. -/
  live : ∀ l c, b.lease l = some c → c.live = true → b.holder c.key = some l
  /-- No lease carries a token above its key's. -/
  bound : ∀ l c, b.lease l = some c → ∃ n, b.token c.key = some n ∧ c.token ≤ n
  unique : ∀ l l' c c', b.lease l = some c → b.lease l' = some c' → c.key = c'.key → c.token = c'.token → l = l'

namespace Inv

theorem init : Inv (⟨fun _ => none, fun _ => none, fun _ => none⟩ : Book κ ι) where
  held _ _ h := by cases h
  live _ _ h := by cases h
  bound _ _ h := by cases h
  unique _ _ _ _ h := by cases h

theorem revoke_lease {b : Book κ ι} {S : κ → Bool} {d : κ → Nat} {l : ι} {c : Lease κ}
    (h : (b.revoke S d).lease l = some c) : ∃ c₀, b.lease l = some c₀ ∧ c₀.key = c.key ∧
      c₀.token = c.token ∧ (c.live = true → S c.key = false ∧ c₀ = c) := by
  simp only [Book.revoke, Option.map_eq_some_iff] at h
  obtain ⟨c₀, hc₀, rfl⟩ := h
  refine ⟨c₀, hc₀, ?_⟩
  cases hS : S c₀.key <;> simp [hS]

theorem revoke {b : Book κ ι} (h : Inv b) (S : κ → Bool) (d : κ → Nat) : Inv (b.revoke S d) := by
  constructor
  · intro k l hl
    cases hS : S k with
    | true => simp [Book.revoke, hS] at hl
    | false =>
      simp only [Book.revoke, hS, Bool.false_eq_true, if_false] at hl ⊢
      obtain ⟨n, hn, hc⟩ := h.held k l hl
      exact ⟨n, hn, by simp [hc, hS]⟩
  · intro l c hc hlive
    obtain ⟨c₀, hc₀, -, -, himp⟩ := revoke_lease hc
    obtain ⟨hS, rfl⟩ := himp hlive
    simp only [Book.revoke, hS, Bool.false_eq_true, if_false]
    exact h.live l c₀ hc₀ hlive
  · intro l c hc
    obtain ⟨c₀, hc₀, hkey, htok, -⟩ := revoke_lease hc
    obtain ⟨n, hn, hle⟩ := h.bound l c₀ hc₀
    rw [hkey] at hn
    rw [htok] at hle
    simp only [Book.revoke]
    cases hS : S c.key with
    | true => exact ⟨n + d c.key, by simp [hn], by omega⟩
    | false => exact ⟨n, by simp [hn], hle⟩
  · intro l l' c c' hc hc' hkey htok
    obtain ⟨c₀, hc₀, hk₀, ht₀, -⟩ := revoke_lease hc
    obtain ⟨c₁, hc₁, hk₁, ht₁, -⟩ := revoke_lease hc'
    exact h.unique l l' c₀ c₁ hc₀ hc₁ (hk₀.trans (hkey.trans hk₁.symm))
      (ht₀.trans (htok.trans ht₁.symm))

theorem next_token_new {b : Book κ ι} (h : Inv b) {k : κ} {n : Nat} (hk : b.token k = some n)
    {l : ι} {c : Lease κ} (hc : b.lease l = some c) (hkey : c.key = k) : c.token ≠ n + 1 := by
  obtain ⟨m, hm, hle⟩ := h.bound l c hc
  rw [hkey, hk] at hm
  cases hm
  omega

end Inv

end

section

variable {κ ι : Type} [DecidableEq κ] [DecidableEq ι]

namespace Book

def create (b : Book κ ι) (k : κ) : Book κ ι :=
  { b with token := Function.update b.token k (some 0) }

def acquire (b : Book κ ι) (k : κ) (l : ι) (n : Nat) : Book κ ι where
  token := Function.update b.token k (some (n + 1))
  holder := Function.update b.holder k (some l)
  lease := Function.update b.lease l (some ⟨k, n + 1, true⟩)

end Book

inductive Step (b : Book κ ι) : Book κ ι → Prop where
  | create {k : κ} : b.token k = none → Step b (b.create k)
  | acquire {k : κ} {l : ι} {n : Nat} :
      b.token k = some n → b.holder k = none → b.lease l = none → Step b (b.acquire k l n)
  | revoke (S : κ → Bool) (d : κ → Nat) : Step b (b.revoke S d)

abbrev Steps : Book κ ι → Book κ ι → Prop := Relation.ReflTransGen Step

namespace Inv

omit [DecidableEq ι] in
theorem create {b : Book κ ι} (h : Inv b) {k : κ} (hk : b.token k = none) : Inv (b.create k) where
  held k' l hl := by
    obtain ⟨n, ht, hlease⟩ := h.held k' l hl
    refine ⟨n, ?_, hlease⟩
    have hne : k' ≠ k := by rintro rfl; rw [hk] at ht; cases ht
    exact (Function.update_of_ne hne _ _).trans ht
  live := h.live
  bound l c hc := by
    obtain ⟨n, ht, hle⟩ := h.bound l c hc
    refine ⟨n, ?_, hle⟩
    have hne : c.key ≠ k := by intro e; rw [e, hk] at ht; cases ht
    exact (Function.update_of_ne hne _ _).trans ht
  unique := h.unique

theorem acquire {b : Book κ ι} (h : Inv b) {k : κ} {l : ι} {n : Nat} (hk : b.token k = some n)
    (hfree : b.holder k = none) (hl : b.lease l = none) : Inv (b.acquire k l n) := by
  -- every lease on `k` issued before carries a token of at most `n`
  have below : ∀ l' c, b.lease l' = some c → c.key = k → c.token ≤ n := by
    intro l' c hc hkey
    obtain ⟨m, hm, hle⟩ := h.bound l' c hc
    rw [hkey, hk] at hm
    cases hm
    exact hle
  constructor
  · intro k' l' hl'
    by_cases e : k' = k
    · subst e
      simp only [Book.acquire, Function.update_self, Option.some.injEq] at hl'
      subst hl'
      exact ⟨n + 1, by simp [Book.acquire], by simp [Book.acquire]⟩
    · simp only [Book.acquire, Function.update_of_ne e] at hl' ⊢
      obtain ⟨m, hm, hc⟩ := h.held k' l' hl'
      refine ⟨m, hm, ?_⟩
      have hne : l' ≠ l := by rintro rfl; rw [hl] at hc; cases hc
      rw [Function.update_of_ne hne]
      exact hc
  · intro l' c hc hlive
    by_cases e : l' = l
    · subst e
      simp only [Book.acquire, Function.update_self, Option.some.injEq] at hc
      subst hc
      simp [Book.acquire]
    · simp only [Book.acquire, Function.update_of_ne e] at hc ⊢
      have hh := h.live l' c hc hlive
      have hne : c.key ≠ k := by intro e'; rw [e', hfree] at hh; cases hh
      rw [Function.update_of_ne hne]
      exact hh
  · intro l' c hc
    by_cases e : l' = l
    · subst e
      simp only [Book.acquire, Function.update_self, Option.some.injEq] at hc
      subst hc
      exact ⟨n + 1, by simp [Book.acquire], Nat.le_refl _⟩
    · simp only [Book.acquire, Function.update_of_ne e] at hc ⊢
      by_cases ek : c.key = k
      · refine ⟨n + 1, by rw [ek, Function.update_self], ?_⟩
        have := below l' c hc ek
        omega
      · rw [Function.update_of_ne ek]
        exact h.bound l' c hc
  · intro l₁ l₂ c₁ c₂ h₁ h₂ hkey htok
    by_cases e₁ : l₁ = l <;> by_cases e₂ : l₂ = l
    · rw [e₁, e₂]
    · subst e₁
      simp only [Book.acquire, Function.update_self, Option.some.injEq] at h₁
      simp only [Book.acquire, Function.update_of_ne e₂] at h₂
      subst h₁
      have := below l₂ c₂ h₂ hkey.symm
      simp only at htok
      omega
    · subst e₂
      simp only [Book.acquire, Function.update_self, Option.some.injEq] at h₂
      simp only [Book.acquire, Function.update_of_ne e₁] at h₁
      subst h₂
      have := below l₁ c₁ h₁ hkey
      simp only at htok
      omega
    · simp only [Book.acquire, Function.update_of_ne e₁] at h₁
      simp only [Book.acquire, Function.update_of_ne e₂] at h₂
      exact h.unique l₁ l₂ c₁ c₂ h₁ h₂ hkey htok

theorem step {b b' : Book κ ι} (h : Inv b) (hs : Step b b') : Inv b' := by
  cases hs with
  | create hk => exact h.create hk
  | acquire hk hfree hl => exact h.acquire hk hfree hl
  | revoke S d => exact h.revoke S d

theorem steps {b b' : Book κ ι} (h : Inv b) (hs : Steps b b') : Inv b' := by
  induction hs with
  | refl => exact h
  | tail _ hst ih => exact ih.step hst

end Inv

theorem Step.le {b b' : Book κ ι} (hs : Step b b') : b.Le b' := by
  intro k n hn
  cases hs with
  | @create k' hk =>
    have hne : k ≠ k' := by rintro rfl; rw [hk] at hn; cases hn
    exact ⟨n, (Function.update_of_ne hne _ _).trans hn, Nat.le_refl n⟩
  | @acquire k' l m hk _ _ =>
    by_cases e : k = k'
    · subst e
      have hm : m = n := by rw [hk] at hn; exact Option.some.inj hn
      exact ⟨m + 1, Function.update_self _ _ _, by omega⟩
    · exact ⟨n, (Function.update_of_ne e _ _).trans hn, Nat.le_refl n⟩
  | revoke S d =>
    cases hS : S k with
    | true => exact ⟨n + d k, by simp [Book.revoke, hS, hn], by omega⟩
    | false => exact ⟨n, by simp [Book.revoke, hS, hn], Nat.le_refl n⟩

theorem Steps.le {b b' : Book κ ι} (hs : Steps b b') : b.Le b' := by
  induction hs with
  | refl => exact .refl b
  | tail _ hst ih => exact ih.trans hst.le

theorem Step.lease {b b' : Book κ ι} (h : Step b b') {l : ι} {c : Lease κ} (hc : b.lease l = some c) :
    ∃ c', b'.lease l = some c' ∧ c'.key = c.key ∧ c'.token = c.token ∧ (c'.live = true → c.live = true) := by
  cases h with
  | create => exact ⟨c, hc, rfl, rfl, id⟩
  | @acquire _ l' _ _ _ hfree =>
    have hne : l ≠ l' := by rintro rfl; rw [hfree] at hc; cases hc
    exact ⟨c, (Function.update_of_ne hne _ _).trans hc, rfl, rfl, id⟩
  | revoke S d =>
    refine ⟨if S c.key then { c with live := false } else c, by simp [Book.revoke, hc], ?_⟩
    split <;> simp

/-- A lease keeps its key and its token, and is never live again. -/
theorem Steps.lease {b b' : Book κ ι} (h : Steps b b') {l : ι} {c : Lease κ} (hc : b.lease l = some c) :
    ∃ c', b'.lease l = some c' ∧ c'.key = c.key ∧ c'.token = c.token ∧ (c'.live = true → c.live = true) := by
  induction h with
  | refl => exact ⟨c, hc, rfl, rfl, id⟩
  | tail _ hstep ih =>
    obtain ⟨c₁, hc₁, hkey, htoken, hlive⟩ := ih
    obtain ⟨c₂, hc₂, hkey', htoken', hlive'⟩ := hstep.lease hc₁
    exact ⟨c₂, hc₂, hkey'.trans hkey, htoken'.trans htoken, hlive ∘ hlive'⟩

end

end Fencing
end DarkFactory
