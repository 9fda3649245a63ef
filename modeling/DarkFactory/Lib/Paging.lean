import Mathlib.Order.Lattice
import Mathlib.Data.List.Basic

/-!
# DarkFactory.Lib.Paging

Keyset paging of an ascending list: a page after a cursor has the next `limit` items, and its last item is the
cursor for the next page when it is full.

* `page` — one page.
* `drain` — the pages of any paging function from a cursor on, put together, when they come to an end.
* `drain_page` — draining a list by pages gives the list; `drain_of_agrees` moves this to a paging function that
  agrees with `page` on the cursors that come up.
-/

namespace DarkFactory
namespace Paging

section

variable {α : Type}

/-- All pages from the cursor on, none when there are `fuel` pages or more. -/
def drain (list : Option α → List α × Option α) : Nat → Option α → Option (List α)
  | 0, _ => none
  | fuel + 1, cursor =>
    match list cursor with
    | (rows, none) => some rows
    | (rows, some next) => (drain list fuel (some next)).map (rows ++ ·)

variable [LinearOrder α]

def rest (all : List α) : Option α → List α
  | none => all
  | some c => all.filter fun x => decide (c < x)

def page (all : List α) (limit : Nat) (cursor : Option α) : List α × Option α :=
  let rows := (rest all cursor).take limit
  (rows, if rows.length = limit then rows.getLast? else none)

variable {all : List α}

theorem rest_subset {cursor : Option α} {x : α} (h : x ∈ rest all cursor) : x ∈ all := by
  cases cursor with
  | none => exact h
  | some c => exact (List.mem_filter.mp h).1

theorem rest_sorted (h : all.Pairwise (· < ·)) (cursor : Option α) : (rest all cursor).Pairwise (· < ·) := by
  cases cursor with
  | none => exact h
  | some c => exact h.filter _

theorem rest_rest {cursor : Option α} {x : α} (h : x ∈ rest all cursor) :
    rest all (some x) = rest (rest all cursor) (some x) := by
  cases cursor with
  | none => rfl
  | some c =>
    have hc : c < x := of_decide_eq_true (List.mem_filter.mp h).2
    simp only [rest, List.filter_filter]
    apply List.filter_congr
    intro y _
    by_cases hxy : x < y
    · simp only [hxy, hc.trans hxy, decide_true, Bool.and_true]
    · simp only [hxy, decide_false, Bool.false_and]

theorem rest_append {before after : List α} {x : α} (h : (before ++ x :: after).Pairwise (· < ·)) :
    rest (before ++ x :: after) (some x) = after := by
  rw [List.pairwise_append] at h
  obtain ⟨-, htail, hacross⟩ := h
  have hbefore : before.filter (fun y => decide (x < y)) = [] := by
    rw [List.filter_eq_nil_iff]
    intro y hy
    simp only [decide_eq_true_eq, not_lt]
    exact (hacross y hy x List.mem_cons_self).le
  have hafter : after.filter (fun y => decide (x < y)) = after := by
    rw [List.filter_eq_self]
    intro y hy
    simp only [decide_eq_true_eq]
    exact List.rel_of_pairwise_cons htail hy
  simp only [rest, List.filter_append, List.filter_cons, lt_self_iff_false, decide_false, Bool.false_eq_true,
    if_false, hbefore, hafter, List.nil_append]

theorem rest_next (hall : all.Pairwise (· < ·)) {limit : Nat} {cursor : Option α} {x : α}
    (h : (page all limit cursor).2 = some x) :
    x ∈ (page all limit cursor).1 ∧ rest all (some x) = (rest all cursor).drop limit := by
  simp only [page] at h ⊢
  split at h
  · have hx : x ∈ (rest all cursor).take limit := List.mem_of_getLast? h
    refine ⟨hx, ?_⟩
    obtain ⟨before, hbefore⟩ := List.getLast?_eq_some_iff.mp h
    have hsplit : rest all cursor = before ++ x :: (rest all cursor).drop limit := by
      conv_lhs => rw [← List.take_append_drop limit (rest all cursor), hbefore]
      rw [List.append_assoc]
      rfl
    rw [rest_rest (List.mem_of_mem_take hx)]
    conv_lhs => rw [hsplit]
    apply rest_append
    rw [← hsplit]
    exact rest_sorted hall cursor
  · cases h

theorem page_last {limit : Nat} (hlimit : 1 ≤ limit) {cursor : Option α}
    (h : (page all limit cursor).2 = none) : (page all limit cursor).1 = rest all cursor := by
  simp only [page] at h ⊢
  split at h
  · rename_i hlen
    rw [List.getLast?_eq_none_iff] at h
    rw [h] at hlen
    simp only [List.length_nil] at hlen
    omega
  · rename_i hlen
    apply List.take_of_length_le
    rw [List.length_take] at hlen
    omega

theorem drain_page (hall : all.Pairwise (· < ·)) {limit : Nat} (hlimit : 1 ≤ limit) :
    ∀ (fuel : Nat) (cursor : Option α), (rest all cursor).length < fuel →
      drain (page all limit) fuel cursor = some (rest all cursor) := by
  intro fuel
  induction fuel with
  | zero =>
    intro cursor h
    omega
  | succ fuel ih =>
    intro cursor h
    cases hp : page all limit cursor with
    | mk rows next =>
      rw [drain, hp]
      cases next with
      | none =>
        have hrows := page_last hlimit (congrArg Prod.snd hp)
        rw [hp] at hrows
        exact congrArg some hrows
      | some x =>
        obtain ⟨hx, hrest⟩ := rest_next hall (congrArg Prod.snd hp)
        have hrows : rows = (rest all cursor).take limit := (congrArg Prod.fst hp).symm
        -- a page with a last item is not empty, so that fewer items remain
        have hne : 0 < (rest all cursor).length :=
          List.length_pos_of_mem (List.mem_of_mem_take hx)
        have hless : (rest all (some x)).length < fuel := by
          rw [hrest, List.length_drop]
          omega
        simp only
        rw [ih (some x) hless, hrest, hrows, Option.map_some, List.take_append_drop]

theorem drain_of_agrees {limit : Nat} {list : Option α → List α × Option α} (hnone : list none = page all limit none)
    (hsome : ∀ c ∈ all, list (some c) = page all limit (some c)) :
    ∀ (fuel : Nat) (cursor : Option α), (∀ c, cursor = some c → c ∈ all) →
      drain list fuel cursor = drain (page all limit) fuel cursor := by
  intro fuel
  induction fuel with
  | zero =>
    intro cursor _
    rfl
  | succ fuel ih =>
    intro cursor hcursor
    have hsame : list cursor = page all limit cursor := by
      cases cursor with
      | none => exact hnone
      | some c => exact hsome c (hcursor c rfl)
    rw [drain, drain, hsame]
    cases hp : page all limit cursor with
    | mk rows next =>
      cases next with
      | none => rfl
      | some x =>
        simp only
        rw [ih (some x) fun c hc => ?_]
        cases hc
        have hx : (page all limit cursor).2 = some x := congrArg Prod.snd hp
        simp only [page] at hx
        split at hx
        · exact rest_subset (List.mem_of_mem_take (List.mem_of_getLast? hx))
        · cases hx

end

end Paging
end DarkFactory
