import Mathlib.Data.List.Nodup

/-!
# DarkFactory.Lib.Reservations

A table of reservations that run out: for each scope of type `σ` at most one row, with the token of its holder and the
time it expires at. Times are natural numbers.

* `acquire` — expired rows are dropped, and a free scope is reserved under a new claim.
* `renew` — the row of a claim gets a new expiry.
* `release` — the row of a claim is dropped.
* `Listed`, `Leased` — a claim has a row, and one that has not expired.

The lemmas say what each operation does to `Keyed`, `Listed` and to the rows of other claims.
-/

namespace DarkFactory
namespace Reservations

structure Claim (σ τ : Type) where
  scope : σ
  token : τ
deriving DecidableEq

structure Reservation (σ τ : Type) extends Claim σ τ where
  expiresAt : Nat
deriving DecidableEq

section

variable {σ τ : Type}

def live (now : Nat) (rows : List (Reservation σ τ)) : List (Reservation σ τ) :=
  rows.filter fun r => decide (now < r.expiresAt)

def Keyed (rows : List (Reservation σ τ)) : Prop := (rows.map fun r => r.scope).Nodup

def Listed (rows : List (Reservation σ τ)) (c : Claim σ τ) : Prop := ∃ r ∈ rows, r.toClaim = c

def Leased (now : Nat) (rows : List (Reservation σ τ)) (c : Claim σ τ) : Prop :=
  ∃ r ∈ rows, r.toClaim = c ∧ now < r.expiresAt

instance [DecidableEq σ] [DecidableEq τ] (now : Nat) (rows : List (Reservation σ τ)) (c : Claim σ τ) :
    Decidable (Leased now rows c) :=
  inferInstanceAs (Decidable (∃ r ∈ rows, r.toClaim = c ∧ now < r.expiresAt))

variable {rows rows' : List (Reservation σ τ)} {c c' : Claim σ τ} {now ttl : Nat}

theorem Leased.listed (h : Leased now rows c) : Listed rows c := by
  obtain ⟨r, hr, hc, -⟩ := h
  exact ⟨r, hr, hc⟩

theorem Keyed.nil : Keyed ([] : List (Reservation σ τ)) := List.nodup_nil

theorem Keyed.sublist (h : Keyed rows) (hs : rows'.Sublist rows) : Keyed rows' := List.Nodup.sublist (hs.map _) h

theorem Keyed.eq (h : Keyed rows) (hl : Listed rows c) (hl' : Listed rows c') (hs : c.scope = c'.scope) : c = c' := by
  obtain ⟨r, hr, rfl⟩ := hl
  obtain ⟨r', hr', rfl⟩ := hl'
  rw [List.inj_on_of_nodup_map h hr hr' hs]

section

variable [DecidableEq σ]

def acquire (now ttl : Nat) (c : Claim σ τ) (rows : List (Reservation σ τ)) : Option (List (Reservation σ τ)) :=
  if (live now rows).any fun r => decide (r.scope = c.scope) then none
  else some (live now rows ++ [⟨c, now + ttl⟩])

theorem acquire_eq_some (h : acquire now ttl c rows = some rows') :
    (∀ r ∈ live now rows, r.scope ≠ c.scope) ∧ rows' = live now rows ++ [⟨c, now + ttl⟩] := by
  unfold acquire at h
  split at h
  · cases h
  · rename_i hnone
    rw [Bool.not_eq_true, List.any_eq_false] at hnone
    exact ⟨fun r hr => by simpa using hnone r hr, (Option.some.inj h).symm⟩

theorem acquire_keyed (hk : Keyed rows) (h : acquire now ttl c rows = some rows') : Keyed rows' := by
  obtain ⟨hfree, rfl⟩ := acquire_eq_some h
  have hlive : Keyed (live now rows) := hk.sublist List.filter_sublist
  rw [Keyed, List.map_append, List.map_singleton]
  refine List.Nodup.append hlive (List.nodup_singleton _) ?_
  intro s hs hc
  obtain ⟨r, hr, rfl⟩ := List.mem_map.mp hs
  exact hfree r hr (List.mem_singleton.mp hc)

theorem acquire_listed (h : acquire now ttl c rows = some rows') (hl : Listed rows' c') : c' = c ∨ Listed rows c' := by
  obtain ⟨-, rfl⟩ := acquire_eq_some h
  obtain ⟨r, hr, rfl⟩ := hl
  rcases List.mem_append.mp hr with hr | hr
  · exact .inr ⟨r, List.mem_of_mem_filter hr, rfl⟩
  · rw [List.mem_singleton.mp hr]
    exact .inl rfl

theorem acquire_free (h : acquire now ttl c rows = some rows') (hl : Leased now rows c') : c'.scope ≠ c.scope := by
  obtain ⟨r, hr, rfl, hnow⟩ := hl
  exact (acquire_eq_some h).1 r (List.mem_filter.mpr ⟨hr, decide_eq_true hnow⟩)

end

variable [DecidableEq σ] [DecidableEq τ]

def renew (c : Claim σ τ) (expiresAt : Nat) (rows : List (Reservation σ τ)) : List (Reservation σ τ) :=
  rows.map fun r => if r.toClaim = c then { r with expiresAt := expiresAt } else r

def release (c : Claim σ τ) (rows : List (Reservation σ τ)) : List (Reservation σ τ) :=
  rows.filter fun r => decide (r.toClaim ≠ c)

theorem renew_toClaim (c : Claim σ τ) (expiresAt : Nat) (rows : List (Reservation σ τ)) :
    (renew c expiresAt rows).map (fun r => r.toClaim) = rows.map fun r => r.toClaim := by
  rw [renew, List.map_map]
  refine List.map_congr_left fun r _ => ?_
  rw [Function.comp_apply]
  split <;> rfl

theorem renew_keyed (hk : Keyed rows) (c : Claim σ τ) (expiresAt : Nat) : Keyed (renew c expiresAt rows) := by
  have hclaims := congrArg (List.map Claim.scope) (renew_toClaim c expiresAt rows)
  rw [List.map_map, List.map_map] at hclaims
  exact (congrArg List.Nodup hclaims).mpr hk

theorem renew_listed {expiresAt : Nat} (h : Listed (renew c expiresAt rows) c') : Listed rows c' := by
  have hmem : c' ∈ (renew c expiresAt rows).map fun r => r.toClaim := List.mem_map.mpr h
  rw [renew_toClaim] at hmem
  exact List.mem_map.mp hmem

theorem renew_other {expiresAt : Nat} {r : Reservation σ τ} (hr : r ∈ rows) (hne : r.toClaim ≠ c) :
    r ∈ renew c expiresAt rows := by
  rw [renew, List.mem_map]
  exact ⟨r, hr, if_neg hne⟩

theorem release_keyed (hk : Keyed rows) (c : Claim σ τ) : Keyed (release c rows) := hk.sublist List.filter_sublist

theorem release_listed (h : Listed (release c rows) c') : Listed rows c' := by
  obtain ⟨r, hr, hc⟩ := h
  exact ⟨r, List.mem_of_mem_filter hr, hc⟩

theorem release_other {r : Reservation σ τ} (hr : r ∈ rows) (hne : r.toClaim ≠ c) : r ∈ release c rows :=
  List.mem_filter.mpr ⟨hr, decide_eq_true hne⟩

end

end Reservations
end DarkFactory
