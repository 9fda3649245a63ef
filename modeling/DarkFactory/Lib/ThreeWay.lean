import Mathlib.Order.Basic

/-!
# DarkFactory.Lib.ThreeWay

Three-way merges of maps.

* `pick` — the choice at one key: the side that has changed, none when both have to something else.
* `Conflict` — there is no choice at some key.
* `IsMerge` — the map of the choices.
-/

namespace DarkFactory
namespace ThreeWay

section

variable {α : Type} [DecidableEq α]

def pick (base ours theirs : α) : Option α :=
  if ours = theirs then some theirs
  else if theirs = base then some ours
  else if ours = base then some theirs
  else none

theorem pick_comm (base ours theirs : α) : pick base ours theirs = pick base theirs ours := by
  unfold pick
  by_cases hsame : ours = theirs
  · rw [hsame]
  · rw [if_neg hsame, if_neg (Ne.symm hsame)]
    by_cases hours : ours = base
    · subst hours
      rw [if_neg (Ne.symm hsame), if_pos rfl, if_pos rfl]
    · rw [if_neg hours, if_neg hours]

/-- A change of `ours` alone. -/
theorem pick_ours (base ours : α) : pick base ours base = some ours := by
  unfold pick
  split
  · rename_i h
    rw [h]
  · rw [if_pos rfl]

theorem pick_theirs (base theirs : α) : pick base base theirs = some theirs := by
  rw [pick_comm, pick_ours]

theorem pick_same (base a : α) : pick base a a = some a := if_pos rfl

theorem pick_eq_none {base ours theirs : α} :
    pick base ours theirs = none ↔ ours ≠ theirs ∧ theirs ≠ base ∧ ours ≠ base := by
  unfold pick
  split
  · simp_all
  · split
    · simp_all
    · split <;> simp_all

theorem pick_eq_some {base ours theirs a : α} (h : pick base ours theirs = some a) : a = ours ∨ a = theirs := by
  unfold pick at h
  split at h
  · cases h
    exact .inr rfl
  · split at h
    · cases h
      exact .inl rfl
    · split at h
      · cases h
        exact .inr rfl
      · cases h

end

section

variable {κ α : Type} [DecidableEq α]

def Conflict (base ours theirs : κ → α) : Prop := ∃ k, pick (base k) (ours k) (theirs k) = none

def IsMerge (base ours theirs merged : κ → α) : Prop :=
  ∀ k, pick (base k) (ours k) (theirs k) = some (merged k)

variable {base ours theirs merged merged' : κ → α}

theorem conflict_comm : Conflict base ours theirs ↔ Conflict base theirs ours := by
  unfold Conflict
  simp only [pick_comm]

theorem isMerge_comm : IsMerge base ours theirs merged ↔ IsMerge base theirs ours merged := by
  unfold IsMerge
  simp only [pick_comm]

theorem isMerge_unique (h : IsMerge base ours theirs merged) (h' : IsMerge base ours theirs merged') :
    merged = merged' := by
  funext k
  exact Option.some.inj ((h k).symm.trans (h' k))

theorem isMerge_ours : IsMerge base ours base ours := fun k => pick_ours (base k) (ours k)

theorem not_conflict_of_isMerge (h : IsMerge base ours theirs merged) : ¬ Conflict base ours theirs := by
  rintro ⟨k, hk⟩
  rw [h k] at hk
  cases hk

end

end ThreeWay
end DarkFactory
