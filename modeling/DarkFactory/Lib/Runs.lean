import Mathlib.Data.List.Basic

/-!
# DarkFactory.Lib.Runs

Runs of a system whose steps are given by a function `step : σ → α → σ`. An action that is refused
leaves the state as it is.

* `run` — the state a list of actions leads to.
* `moves` — the steps of a run; a `Move` keeps the state before, the action and the state after, so
  a property of a whole run is a property of its moves.
* `run_invariant`, `moves_invariant` — what every step preserves holds at the end of a run and
  around each of its moves.
* `moves_forall_iff` — the guarded-run rule: when, under an invariant, one move is good exactly if
  its condition on the state before holds, and the invariant survives such moves, then every move of
  a run is good exactly if every one of them meets the condition.
-/

namespace DarkFactory

structure Move (σ α : Type) where
  pre : σ
  act : α
  post : σ

namespace Runs

section

variable {σ α : Type}

def run (step : σ → α → σ) (s : σ) (acts : List α) : σ := acts.foldl step s

def moves (step : σ → α → σ) : σ → List α → List (Move σ α)
  | _, [] => []
  | s, a :: acts => ⟨s, a, step s a⟩ :: moves step (step s a) acts

variable {step : σ → α → σ}

@[simp] theorem run_nil (s : σ) : run step s [] = s := rfl

@[simp] theorem run_cons (s : σ) (a : α) (acts : List α) : run step s (a :: acts) = run step (step s a) acts := rfl

theorem run_append (s : σ) (acts acts' : List α) :
    run step s (acts ++ acts') = run step (run step s acts) acts' := by
  rw [run, List.foldl_append]
  rfl

theorem moves_append (s : σ) (acts acts' : List α) :
    moves step s (acts ++ acts') = moves step s acts ++ moves step (run step s acts) acts' := by
  induction acts generalizing s with
  | nil => rfl
  | cons a acts ih => simp only [List.cons_append, moves, run_cons, ih]

theorem mem_moves {s : σ} {acts : List α} {m : Move σ α} (h : m ∈ moves step s acts) :
    ∃ before after, acts = before ++ m.act :: after ∧ m.pre = run step s before ∧ m.post = step m.pre m.act := by
  induction acts generalizing s with
  | nil => cases h
  | cons a acts ih =>
    rcases List.mem_cons.mp h with rfl | h
    · exact ⟨[], acts, rfl, rfl, rfl⟩
    · obtain ⟨before, after, rfl, hpre, hpost⟩ := ih h
      exact ⟨a :: before, after, rfl, hpre, hpost⟩

theorem act_of_mem {s : σ} {acts : List α} {m : Move σ α} (h : m ∈ moves step s acts) : m.act ∈ acts := by
  obtain ⟨before, after, rfl, -, -⟩ := mem_moves h
  exact List.mem_append_right _ List.mem_cons_self

theorem post_of_mem {s : σ} {acts : List α} {m : Move σ α} (h : m ∈ moves step s acts) :
    m.post = step m.pre m.act := by
  obtain ⟨_, _, _, _, hpost⟩ := mem_moves h
  exact hpost

variable {I : σ → Prop}

theorem run_invariant (hI : ∀ s a, I s → I (step s a)) {s : σ} (hs : I s) (acts : List α) :
    I (run step s acts) := by
  induction acts generalizing s with
  | nil => exact hs
  | cons a acts ih => exact ih (hI s a hs)

variable {C : σ → α → Prop}

/-- So does what every step under the condition `C` preserves, when all steps of the run meet it. -/
theorem run_invariant_of (hI : ∀ s a, I s → C s a → I (step s a)) {s : σ}
    (hs : I s) {acts : List α} (hC : ∀ m ∈ moves step s acts, C m.pre m.act) :
    I (run step s acts) := by
  induction acts generalizing s with
  | nil => exact hs
  | cons a acts ih =>
    rw [moves, List.forall_mem_cons] at hC
    exact ih (hI s a hs hC.1) hC.2

theorem moves_invariant (hI : ∀ s a, I s → I (step s a)) {s : σ} (hs : I s) {acts : List α}
    {m : Move σ α} (h : m ∈ moves step s acts) : I m.pre ∧ I m.post := by
  obtain ⟨before, after, -, hpre, hpost⟩ := mem_moves h
  have h₁ : I m.pre := hpre ▸ run_invariant hI hs before
  exact ⟨h₁, hpost ▸ hI _ _ h₁⟩

theorem moves_invariant_of (hI : ∀ s a, I s → C s a → I (step s a)) {s : σ}
    (hs : I s) {acts : List α} (hC : ∀ m ∈ moves step s acts, C m.pre m.act) :
    ∀ m ∈ moves step s acts, I m.pre := by
  induction acts generalizing s with
  | nil => exact fun _ h => by cases h
  | cons a acts ih =>
    rw [moves, List.forall_mem_cons] at hC ⊢
    exact ⟨hs, ih (hI s a hs hC.1) hC.2⟩

theorem run_rel {R : σ → σ → Prop} (hrefl : ∀ s, R s s)
    (htrans : ∀ {s t u}, R s t → R t u → R s u) (hI : ∀ s a, I s → I (step s a))
    (hR : ∀ s a, I s → R s (step s a)) {s : σ} (hs : I s) (acts : List α) :
    R s (run step s acts) := by
  induction acts generalizing s with
  | nil => exact hrefl s
  | cons a acts ih => exact htrans (hR s a hs) (ih (hI s a hs))

theorem moves_rel_iff {R : σ → σ → Prop} (hrefl : ∀ s, R s s)
    (htrans : ∀ {s t u}, R s t → R t u → R s u) {s : σ} {acts : List α} :
    (∀ m ∈ moves step s acts, R m.pre m.post) ↔ ∀ before between after, acts = before ++ (between ++ after) →
        R (run step s before) (run step s (before ++ between)) := by
  constructor
  · intro h before between after heq
    subst heq
    induction before generalizing s with
    | cons a before ih => exact ih fun m hm => h m (List.mem_cons_of_mem _ hm)
    | nil =>
      induction between generalizing s with
      | nil => exact hrefl s
      | cons a between ih =>
        exact htrans (h ⟨s, a, step s a⟩ List.mem_cons_self)
          (ih fun m hm => h m (List.mem_cons_of_mem _ hm))
  · intro h m hm
    obtain ⟨before, after, heq, hpre, hpost⟩ := mem_moves hm
    have hrel := h before [m.act] after heq
    rw [run_append, ← hpre] at hrel
    rw [hpost]
    exact hrel

/-- The guarded-run rule, for runs whose actions all satisfy `P`. `Good` may speak of both ends of a
move, the condition `C` only of the state before it and the action. The invariant has to survive the moves that
meet the condition. -/
theorem moves_forall_iff_of {P : α → Prop} {Good : Move σ α → Prop}
    (hGood : ∀ s a, I s → P a → (Good ⟨s, a, step s a⟩ ↔ C s a))
    (hI : ∀ s a, I s → P a → C s a → I (step s a)) {s : σ} (hs : I s) (acts : List α)
    (hP : ∀ a ∈ acts, P a) :
    (∀ m ∈ moves step s acts, Good m) ↔ ∀ m ∈ moves step s acts, C m.pre m.act := by
  induction acts generalizing s with
  | nil => simp [moves]
  | cons a acts ih =>
    rw [List.forall_mem_cons] at hP
    rw [moves, List.forall_mem_cons, List.forall_mem_cons, hGood s a hs hP.1]
    exact and_congr_right fun hc => ih (hI s a hs hP.1 hc) hP.2

theorem moves_forall_iff {Good : Move σ α → Prop} (hGood : ∀ s a, I s → (Good ⟨s, a, step s a⟩ ↔ C s a))
    (hI : ∀ s a, I s → C s a → I (step s a)) {s : σ} (hs : I s) (acts : List α) :
    (∀ m ∈ moves step s acts, Good m) ↔ ∀ m ∈ moves step s acts, C m.pre m.act :=
  moves_forall_iff_of (P := fun _ => True) (fun s a h _ => hGood s a h)
    (fun s a h _ => hI s a h) hs acts fun _ _ => trivial

end

end Runs
end DarkFactory
