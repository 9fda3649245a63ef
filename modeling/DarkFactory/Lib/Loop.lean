import Mathlib.Tactic.Common

/-!
# DarkFactory.Lib.Loop

Loops given by a step `σ → ρ ⊕ σ`, which ends with a result or goes on.

* `run` — the result with the state that gave it, or none when the fuel runs out.
* `Reached` — the states in which a round begins.
* `run_iff` — with enough fuel, the results are those of the states reached.
* `run_total` — a loop whose rounds all decrease a measure returns.
-/

namespace DarkFactory
namespace Loop

section

variable {σ ρ : Type} (step : σ → ρ ⊕ σ)

def run : Nat → σ → Option (ρ × σ)
  | 0, _ => none
  | fuel + 1, s =>
    match step s with
    | .inl r => some (r, s)
    | .inr s' => run fuel s'

inductive Reached (s : σ) : σ → Prop where
  | start : Reached s s
  | next {s' s'' : σ} : Reached s s' → step s' = .inr s'' → Reached s s''

variable {step}

theorem Reached.head {s s' s'' : σ} (hstep : step s = .inr s') (h : Reached step s' s'') : Reached step s s'' := by
  induction h with
  | start => exact .next .start hstep
  | next _ hnext ih => exact .next ih hnext

theorem reached_of_run {fuel : Nat} {s s' : σ} {r : ρ} (h : run step fuel s = some (r, s')) :
    Reached step s s' ∧ step s' = .inl r := by
  induction fuel generalizing s with
  | zero => cases h
  | succ fuel ih =>
    rw [run] at h
    split at h
    · rename_i hstep
      cases h
      exact ⟨.start, hstep⟩
    · rename_i hstep
      obtain ⟨hreached, hresult⟩ := ih h
      exact ⟨hreached.head hstep, hresult⟩

theorem run_succ {fuel : Nat} {s s' : σ} (hstep : step s = .inr s') : run step (fuel + 1) s = run step fuel s' := by
  rw [run, hstep]

theorem run_of_reached {s s' t : σ} {r : ρ} (h : Reached step s s') {fuel : Nat}
    (hrun : run step fuel s' = some (r, t)) : ∃ fuel, run step fuel s = some (r, t) := by
  induction h generalizing fuel with
  | start => exact ⟨fuel, hrun⟩
  | next _ hstep ih =>
    rw [← run_succ hstep] at hrun
    exact ih hrun

theorem run_iff {s s' : σ} {r : ρ} :
    (∃ fuel, run step fuel s = some (r, s')) ↔ Reached step s s' ∧ step s' = .inl r := by
  constructor
  · rintro ⟨fuel, h⟩
    exact reached_of_run h
  · rintro ⟨hreached, hresult⟩
    have hlast : run step 1 s' = some (r, s') := by rw [run, hresult]
    exact run_of_reached hreached hlast

theorem Reached.invariant {I : σ → Prop} (hI : ∀ s s', I s → step s = .inr s' → I s') {s s' : σ} (hs : I s)
    (h : Reached step s s') : I s' := by
  induction h with
  | start => exact hs
  | next _ hstep ih => exact hI _ _ ih hstep

theorem run_total {I : σ → Prop} (hI : ∀ s s', I s → step s = .inr s' → I s') (measure : σ → Nat)
    (hmeasure : ∀ s s', I s → step s = .inr s' → measure s' < measure s) {s : σ} (hs : I s) :
    ∃ fuel r s', run step fuel s = some (r, s') := by
  generalize hn : measure s = n
  induction n using Nat.strongRecOn generalizing s with
  | ind n ih =>
    cases hstep : step s with
    | inl r => exact ⟨1, r, s, by rw [run, hstep]⟩
    | inr s' =>
      have hless := hmeasure s s' hs hstep
      rw [hn] at hless
      obtain ⟨fuel, r, t, hrun⟩ := ih (measure s') hless (hI s s' hs hstep) rfl
      exact ⟨fuel + 1, r, t, by rw [run_succ hstep]; exact hrun⟩

end

end Loop
end DarkFactory
