import Mathlib.Data.List.Basic

/-!
# DarkFactory.Lib.Calls

Calls that return or raise, taken apart, and calls for every element of a list.
-/

namespace DarkFactory
namespace Calls

section

variable {ε α β : Type}

theorem bind_ok {x : Except ε α} {f : α → Except ε β} {b : β} : (x >>= f) = .ok b ↔ ∃ a, x = .ok a ∧ f a = .ok b := by
  cases x with
  | error e => exact ⟨(by intro h; cases h), fun ⟨_, h, _⟩ => (by cases h)⟩
  | ok a =>
    refine ⟨fun h => ⟨a, rfl, h⟩, ?_⟩
    rintro ⟨_, h, h'⟩
    cases h
    exact h'

theorem map_ok {x : Except ε α} {f : α → β} {b : β} : x.map f = .ok b ↔ ∃ a, x = .ok a ∧ f a = b := by
  cases x with
  | error e => exact ⟨(by intro h; cases h), fun ⟨_, h, _⟩ => (by cases h)⟩
  | ok a =>
    refine ⟨fun h => ⟨a, rfl, Except.ok.inj h⟩, ?_⟩
    rintro ⟨_, h, rfl⟩
    cases h
    rfl

theorem ok_of_toOption {x : Except ε α} {f : α → β} {b : β} (h : x.toOption.map f = some b) :
    ∃ a, x = .ok a ∧ f a = b := by
  cases x with
  | error e => cases h
  | ok a => exact ⟨a, rfl, Option.some.inj h⟩

end

end Calls

namespace Traverse

section

variable {α β : Type} {f : α → Option β}

theorem traverse_cons {x : α} {xs : List α} {zs : List β} :
    (x :: xs).mapM f = some zs ↔ ∃ y ys, f x = some y ∧ xs.mapM f = some ys ∧ zs = y :: ys := by
  rw [List.mapM_cons]
  cases f x with
  | none => simp
  | some y =>
    cases xs.mapM f with
    | none => simp
    | some ys => simp [eq_comm]

theorem traverse_exists {xs : List α} : (∃ ys, xs.mapM f = some ys) ↔ ∀ x ∈ xs, ∃ y, f x = some y := by
  induction xs with
  | nil => simp
  | cons x xs ih =>
    rw [List.forall_mem_cons, ← ih]
    constructor
    · rintro ⟨zs, h⟩
      obtain ⟨y, ys, hy, hys, -⟩ := traverse_cons.mp h
      exact ⟨⟨y, hy⟩, ys, hys⟩
    · rintro ⟨⟨y, hy⟩, ys, hys⟩
      exact ⟨y :: ys, traverse_cons.mpr ⟨y, ys, hy, hys, rfl⟩⟩

theorem mem_traverse {xs : List α} {ys : List β} (h : xs.mapM f = some ys) {y : β} :
    y ∈ ys ↔ ∃ x ∈ xs, f x = some y := by
  induction xs generalizing ys with
  | nil =>
    rw [List.mapM_nil] at h
    cases h
    simp
  | cons x xs ih =>
    obtain ⟨z, zs, hz, hzs, rfl⟩ := traverse_cons.mp h
    simp only [List.mem_cons, ih hzs, exists_eq_or_imp, hz, Option.some.injEq, eq_comm (a := z)]

end

theorem traverse_flatten {α β : Type} {f : α → Option (List β)} {xs : List α} :
    (∃ ys, xs.mapM f = some ys ∧ ys.flatten = []) ↔ ∀ x ∈ xs, f x = some [] := by
  induction xs with
  | nil => simp
  | cons x xs ih =>
    rw [List.forall_mem_cons, ← ih]
    constructor
    · rintro ⟨zs, h, hflatten⟩
      obtain ⟨y, ys, hy, hys, rfl⟩ := traverse_cons.mp h
      obtain ⟨hnil, hrest⟩ := List.append_eq_nil_iff.mp hflatten
      exact ⟨hnil ▸ hy, ys, hys, hrest⟩
    · rintro ⟨hx, ys, hys, hflatten⟩
      exact ⟨[] :: ys, traverse_cons.mpr ⟨[], ys, hx, hys, rfl⟩, hflatten⟩

end Traverse
end DarkFactory
