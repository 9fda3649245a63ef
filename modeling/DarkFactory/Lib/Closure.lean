import Mathlib.Data.List.Dedup
import Mathlib.Data.List.Perm.Subperm

/-!
# DarkFactory.Lib.Closure

What is reached from a start over the successors that a function lists.

* `visit` — the loop over a stack of elements that are seen and not yet expanded.
* `closure` — the loop from one element.
* `mem_closure_iff` — with as many rounds as there are elements, it is the reflexive and transitive closure.
-/

namespace DarkFactory
namespace Closure

variable {α : Type} [DecidableEq α]

def fresh (next : α → List α) (seen : List α) (a : α) : List α :=
  ((next a).filter fun b => decide (b ∉ seen)).dedup

/-- The rounds of the loop: the top of the stack is expanded, and what is new is seen and pushed. -/
def visit (next : α → List α) : Nat → List α → List α → List α
  | 0, seen, _ => seen
  | _ + 1, seen, [] => seen
  | rounds + 1, seen, a :: stack =>
    visit next rounds (fresh next seen a ++ seen) (fresh next seen a ++ stack)

def closure (next : α → List α) (rounds : Nat) (start : α) : List α := visit next rounds [start] [start]

def Reaches (next : α → List α) : α → α → Prop := Relation.ReflTransGen fun a b => b ∈ next a

variable {next : α → List α}

theorem mem_fresh {seen : List α} {a b : α} : b ∈ fresh next seen a ↔ b ∈ next a ∧ b ∉ seen := by
  simp [fresh]

theorem visit_sound {start : α} (rounds : Nat) {seen stack : List α} (hseen : ∀ a ∈ seen, Reaches next start a)
    (hstack : ∀ a ∈ stack, Reaches next start a) : ∀ a ∈ visit next rounds seen stack, Reaches next start a := by
  induction rounds generalizing seen stack with
  | zero => exact hseen
  | succ rounds ih =>
    cases stack with
    | nil => exact hseen
    | cons a stack =>
      have hfresh : ∀ b ∈ fresh next seen a, Reaches next start b := by
        intro b hb
        exact Relation.ReflTransGen.tail (hstack a List.mem_cons_self) (mem_fresh.mp hb).1
      refine ih (fun b hb => ?_) fun b hb => ?_
      · rcases List.mem_append.mp hb with hb | hb
        · exact hfresh b hb
        · exact hseen b hb
      · rcases List.mem_append.mp hb with hb | hb
        · exact hfresh b hb
        · exact hstack b (List.mem_cons_of_mem _ hb)

structure Frontier (next : α → List α) (nodes seen stack : List α) : Prop where
  nodup : seen.Nodup
  within : seen ⊆ nodes
  expanded : ∀ a ∈ seen, a ∈ stack ∨ ∀ b ∈ next a, b ∈ seen

theorem frontier_expand {nodes seen stack : List α} {a : α} (hnext : ∀ a, ∀ b ∈ next a, b ∈ nodes)
    (h : Frontier next nodes seen (a :: stack)) :
    Frontier next nodes (fresh next seen a ++ seen) (fresh next seen a ++ stack) := by
  refine ⟨?_, ?_, ?_⟩
  · refine List.nodup_append.mpr ⟨List.nodup_dedup _, h.nodup, fun b hb c hc hbad => ?_⟩
    subst hbad
    exact (mem_fresh.mp hb).2 hc
  · intro b hb
    rcases List.mem_append.mp hb with hb | hb
    · exact hnext a b (mem_fresh.mp hb).1
    · exact h.within hb
  · intro b hb
    rcases List.mem_append.mp hb with hb | hb
    · exact .inl (List.mem_append_left _ hb)
    · rcases h.expanded b hb with hstack | hseen
      · rcases List.mem_cons.mp hstack with rfl | hstack
        · refine .inr fun c hc => ?_
          by_cases hc' : c ∈ seen
          · exact List.mem_append_right _ hc'
          · exact List.mem_append_left _ (mem_fresh.mpr ⟨hc, hc'⟩)
        · exact .inl (List.mem_append_right _ hstack)
      · exact .inr fun c hc => List.mem_append_right _ (hseen c hc)

theorem visit_closed {nodes : List α} (hnext : ∀ a, ∀ b ∈ next a, b ∈ nodes) (rounds : Nat)
    {seen stack : List α} (h : Frontier next nodes seen stack)
    (henough : stack.length + nodes.length ≤ rounds + seen.length) :
    seen ⊆ visit next rounds seen stack ∧
      ∀ a ∈ visit next rounds seen stack, ∀ b ∈ next a, b ∈ visit next rounds seen stack := by
  have hlength : seen.length ≤ nodes.length := (List.subperm_of_subset h.nodup h.within).length_le
  induction rounds generalizing seen stack with
  | zero =>
    have hstack : stack = [] := List.length_eq_zero_iff.mp (by omega)
    subst hstack
    exact ⟨fun _ ha => ha, fun a ha => (h.expanded a ha).resolve_left List.not_mem_nil⟩
  | succ rounds ih =>
    cases stack with
    | nil => exact ⟨fun _ ha => ha, fun a ha => (h.expanded a ha).resolve_left List.not_mem_nil⟩
    | cons a stack =>
      have hexpand := frontier_expand hnext h
      have hbound := (List.subperm_of_subset hexpand.nodup hexpand.within).length_le
      obtain ⟨hkeeps, hclosed⟩ := ih hexpand (by
        simp only [List.length_cons, List.length_append] at henough ⊢
        omega) hbound
      exact ⟨fun b hb => hkeeps (List.mem_append_right _ hb), hclosed⟩

theorem mem_closure_iff {nodes : List α} (hnext : ∀ a, ∀ b ∈ next a, b ∈ nodes) {rounds : Nat}
    (henough : nodes.length < rounds) {start a : α} :
    a ∈ closure next rounds start ↔ Reaches next start a := by
  constructor
  · have hstart : ∀ b ∈ [start], Reaches next start b := by
      intro b hb
      rw [List.mem_singleton.mp hb]
      exact Relation.ReflTransGen.refl
    exact visit_sound rounds hstart hstart a
  · intro h
    have hfrontier : Frontier next (start :: nodes) [start] [start] :=
      ⟨List.nodup_singleton start, fun b hb => by
        rw [List.mem_singleton.mp hb]
        exact List.mem_cons_self, fun b hb => .inl hb⟩
    obtain ⟨hkeeps, hclosed⟩ := visit_closed (fun a b hb => List.mem_cons_of_mem _ (hnext a b hb)) rounds
      hfrontier (by simp only [List.length_cons, List.length_nil]; omega)
    induction h with
    | refl => exact hkeeps List.mem_cons_self
    | tail _ hb ih => exact hclosed _ ih _ hb

end Closure
end DarkFactory
