import Mathlib.Data.List.DropRight

/-!
# DarkFactory.Lib.Passages

Texts that passages are laid out in, and texts that are read back row by row.

* `Holds` — passages stand in a text in their order, none in another's place.
* `Spread` — passages are spread over texts in their order.
* `rows` — the rows of a text that are not blank, trimmed.
-/

namespace DarkFactory
namespace Passages

variable {α : Type}

def Holds : List (List α) → List α → Prop
  | [], _ => True
  | l :: ls, t => ∃ a b, t = a ++ l ++ b ∧ Holds ls b

theorem holds_nil (t : List α) : Holds [] t := trivial

theorem Holds.pad_left {ls : List (List α)} {t : List α} (a : List α) (h : Holds ls t) : Holds ls (a ++ t) := by
  cases ls with
  | nil => trivial
  | cons l ls =>
    obtain ⟨a', b, rfl, hb⟩ := h
    exact ⟨a ++ a', b, by simp only [List.append_assoc], hb⟩

theorem Holds.append {ls ls' : List (List α)} {t t' : List α} (h : Holds ls t) (h' : Holds ls' t') :
    Holds (ls ++ ls') (t ++ t') := by
  induction ls generalizing t with
  | nil => exact h'.pad_left t
  | cons l ls ih =>
    obtain ⟨a, b, rfl, hb⟩ := h
    exact ⟨a, b ++ t', by simp only [List.append_assoc], ih hb⟩

theorem holds_of_infix {l t : List α} (h : l <:+: t) : Holds [l] t := by
  obtain ⟨a, b, rfl⟩ := h
  exact ⟨a, b, rfl, trivial⟩

/-- Each text has passages of its own, and all of them are `ls`. -/
def Spread (ls : List (List α)) (ts : List (List α)) : Prop :=
  ∃ groups : List (List (List α)), groups.flatten = ls ∧ List.Forall₂ Holds groups ts

section

variable (blank : α → Bool)

def trim (s : List α) : List α := (s.dropWhile blank).rdropWhile blank

theorem trim_isInfix (s : List α) : trim blank s <:+: s :=
  List.IsInfix.trans (List.rdropWhile_prefix blank _).isInfix (List.dropWhile_suffix blank).isInfix

theorem trim_cons {c : α} (h : blank c = true) (s : List α) : trim blank (c :: s) = trim blank s := by
  unfold trim
  rw [List.dropWhile_cons_of_pos h]

theorem trim_concat {c : α} (h : blank c = true) (s : List α) : trim blank (s ++ [c]) = trim blank s := by
  unfold trim
  rw [List.dropWhile_append]
  split
  · rename_i hnil
    rw [List.isEmpty_iff.mp hnil, List.dropWhile_cons_of_pos h]
    rfl
  · exact List.rdropWhile_concat_pos blank _ _ h

theorem trim_eq_nil {s : List α} : trim blank s = [] ↔ ∀ c ∈ s, blank c = true := by
  unfold trim
  rw [List.rdropWhile_eq_nil_iff]
  constructor
  · intro h
    rw [← List.dropWhile_eq_nil_iff]
    by_contra hne
    exact absurd (h _ (List.head_mem hne)) (Bool.eq_false_iff.mp (List.head_dropWhile_not blank hne))
  · exact fun h c hc => h c ((List.dropWhile_suffix blank).subset hc)

/-- A passage that a trim leaves alone and that is not empty. -/
def Solid (l : List α) : Prop := trim blank l = l ∧ l ≠ []

variable {blank}

theorem Solid.head {l : List α} (h : Solid blank l) : ∃ c cs, l = c :: cs ∧ blank c = false := by
  obtain ⟨htrim, hne⟩ := h
  cases l with
  | nil => exact absurd rfl hne
  | cons c cs =>
    refine ⟨c, cs, rfl, Bool.eq_false_iff.mpr fun hc => ?_⟩
    have hlength := (trim_isInfix blank cs).length_le
    rw [← trim_cons blank hc, htrim, List.length_cons] at hlength
    omega

theorem Solid.last {l : List α} (h : Solid blank l) : ∃ cs c, l = cs ++ [c] ∧ blank c = false := by
  obtain ⟨htrim, hne⟩ := h
  refine ⟨l.dropLast, l.getLast hne, (List.dropLast_append_getLast hne).symm, Bool.eq_false_iff.mpr fun hc => ?_⟩
  have hlength := (trim_isInfix blank l.dropLast).length_le
  rw [← trim_concat blank hc, List.dropLast_append_getLast, htrim, List.length_dropLast] at hlength
  have := List.length_pos_of_ne_nil hne
  omega

variable {ls : List (List α)}

theorem Holds.drop_blank {c : α} {t : List α} (hsolid : ∀ l ∈ ls, Solid blank l)
    (hc : blank c = true) (h : Holds ls (c :: t)) : Holds ls t := by
  cases ls with
  | nil => trivial
  | cons l ls =>
    obtain ⟨a, b, heq, hb⟩ := h
    cases a with
    | cons x a => exact ⟨a, b, (List.cons.inj heq).2, hb⟩
    | nil =>
      -- a passage does not start with a blank
      obtain ⟨x, xs, rfl, hx⟩ := (hsolid l List.mem_cons_self).head
      rw [← (List.cons.inj heq).1, hc] at hx
      cases hx

theorem Holds.drop_last_blank {c : α} {t : List α} (hsolid : ∀ l ∈ ls, Solid blank l)
    (hc : blank c = true) (h : Holds ls (t ++ [c])) : Holds ls t := by
  induction ls generalizing t with
  | nil => trivial
  | cons l ls ih =>
    obtain ⟨a, b, heq, hb⟩ := h
    rcases List.eq_nil_or_concat b with rfl | ⟨b, x, rfl⟩
    · -- nor does it end with one
      obtain ⟨xs, x, rfl, hx⟩ := (hsolid l List.mem_cons_self).last
      rw [List.append_nil, ← List.append_assoc] at heq
      rw [← List.singleton_inj.mp (List.append_inj' heq rfl).2, hc] at hx
      cases hx
    · rw [List.concat_eq_append] at heq hb
      rw [← List.append_assoc] at heq
      obtain ⟨ht, hx⟩ := List.append_inj' heq rfl
      cases hx
      exact ⟨a, b, ht, ih (fun l hl => hsolid l (List.mem_cons_of_mem _ hl)) hb⟩

theorem Holds.trim {t : List α} (hsolid : ∀ l ∈ ls, Solid blank l) (h : Holds ls t) : Holds ls (trim blank t) := by
  have hleft : Holds ls (t.dropWhile blank) := by
    induction t with
    | nil => exact h
    | cons c t ih =>
      rw [List.dropWhile_cons]
      split
      · rename_i hc
        exact ih (h.drop_blank hsolid hc)
      · exact h
  unfold Passages.trim
  generalize t.dropWhile blank = t at hleft
  induction t using List.reverseRecOn with
  | nil => exact hleft
  | append_singleton t c ih =>
    rw [List.rdropWhile_concat]
    split
    · rename_i hc
      exact ih (hleft.drop_last_blank hsolid hc)
    · exact hleft

theorem Solid.holds_nil (hsolid : ∀ l ∈ ls, Solid blank l) (h : Holds ls []) : ls = [] := by
  cases ls with
  | nil => rfl
  | cons l ls =>
    obtain ⟨a, b, heq, -⟩ := h
    have hnil := List.append_eq_nil_iff.mp heq.symm
    exact absurd (List.append_eq_nil_iff.mp hnil.1).2 (hsolid l List.mem_cons_self).2

end

section

variable (blank : α → Bool)

/-- What is left of texts when they are trimmed and the empty ones are dropped. -/
def solids (ls : List (List α)) : List (List α) := (ls.map (trim blank)).filter fun l => decide (l ≠ [])

variable {blank}

theorem solids_append (ls ls' : List (List α)) : solids blank (ls ++ ls') = solids blank ls ++ solids blank ls' := by
  unfold solids
  rw [List.map_append, List.filter_append]

theorem trim_trim (l : List α) : trim blank (trim blank l) = trim blank l := by
  have hleft : (trim blank l).dropWhile blank = trim blank l := by
    rw [List.dropWhile_eq_self_iff]
    intro hlength
    -- the first item is the one that is left of the text
    have hleading : trim blank l <+: l.dropWhile blank := List.rdropWhile_prefix blank _
    have hne : 0 < (l.dropWhile blank).length := Nat.lt_of_lt_of_le hlength hleading.length_le
    rw [hleading.getElem hlength]
    exact List.dropWhile_eq_self_iff.mp (List.dropWhile_idempotent blank l) hne
  have hunfold : trim blank (trim blank l) = ((trim blank l).dropWhile blank).rdropWhile blank := rfl
  rw [hunfold, hleft]
  exact List.rdropWhile_idempotent blank _

theorem solid_of_mem {ls : List (List α)} : ∀ l ∈ solids blank ls, Solid blank l := by
  intro l hl
  obtain ⟨hl, hne⟩ := List.mem_filter.mp hl
  obtain ⟨l', -, rfl⟩ := List.mem_map.mp hl
  exact ⟨trim_trim l', of_decide_eq_true hne⟩

theorem holds_solids (l : List α) : Holds (solids blank [l]) l := by
  unfold solids
  rw [List.map_singleton, List.filter_cons]
  split
  · exact holds_of_infix (trim_isInfix blank l)
  · trivial

theorem holds_intercalate (sep : List α) (ls : List (List α)) : Holds (solids blank ls) (sep.intercalate ls) := by
  induction ls with
  | nil => trivial
  | cons l ls ih =>
    rw [← List.singleton_append, solids_append]
    cases ls with
    | nil =>
      rw [List.append_nil, List.intercalate_singleton]
      exact (List.append_nil _).symm ▸ holds_solids l
    | cons l' ls =>
      rw [List.singleton_append, List.intercalate_cons_cons, List.append_assoc]
      exact (holds_solids l).append (ih.pad_left sep)

end

section

variable [DecidableEq α] {blank : α → Bool} {sep : α}

def rows (blank : α → Bool) (sep : α) (s : List α) : List (List α) := solids blank (s.splitOn sep)

theorem rows_nil : rows blank sep [] = [] := rfl

theorem rows_append (s t : List α) : rows blank sep (s ++ sep :: t) = rows blank sep s ++ rows blank sep t := by
  unfold rows
  rw [List.splitOn_append_cons_self, solids_append]

theorem rows_of_notMem {l : List α} (h : sep ∉ l) : rows blank sep l = solids blank [l] := by
  unfold rows
  rw [List.splitOn_eq_singleton h]

theorem rows_cons_blank (hsep : blank sep = true) {c : α} (hc : blank c = true) (s : List α) :
    rows blank sep (c :: s) = rows blank sep s := by
  by_cases heq : c = sep
  · subst heq
    exact rows_append [] s
  · unfold rows
    rw [List.splitOn_cons_eq_if_modifyHead, if_neg (fun h => heq (eq_of_beq h))]
    cases hsplit : s.splitOn sep with
    | nil => exact absurd hsplit (List.splitOn_ne_nil sep s)
    | cons l ls =>
      rw [List.modifyHead_cons, solids, solids, List.map_cons, List.map_cons, trim_cons blank hc]

theorem splitOn_concat {c : α} (h : c ≠ sep) (s : List α) :
    ∃ ls l, s.splitOn sep = ls ++ [l] ∧ (s ++ [c]).splitOn sep = ls ++ [l ++ [c]] := by
  induction s with
  | nil =>
    refine ⟨[], [], rfl, ?_⟩
    exact List.splitOn_eq_singleton fun hmem => h (List.mem_singleton.mp hmem).symm
  | cons x s ih =>
    obtain ⟨ls, l, hs, hsc⟩ := ih
    rw [List.cons_append, List.splitOn_cons_eq_if_modifyHead, List.splitOn_cons_eq_if_modifyHead, hs, hsc]
    split
    · exact ⟨[] :: ls, l, rfl, rfl⟩
    · cases ls with
      | nil => exact ⟨[], x :: l, rfl, rfl⟩
      | cons l' ls => exact ⟨(x :: l') :: ls, l, rfl, rfl⟩

theorem rows_concat_blank {c : α} (hc : blank c = true) (s : List α) :
    rows blank sep (s ++ [c]) = rows blank sep s := by
  by_cases heq : c = sep
  · subst heq
    rw [rows_append, rows_nil, List.append_nil]
  · obtain ⟨ls, l, hs, hsc⟩ := splitOn_concat heq s
    unfold rows solids
    rw [hs, hsc, List.map_append, List.map_append, List.map_singleton, List.map_singleton, trim_concat blank hc]

theorem rows_trim (hsep : blank sep = true) (s : List α) : rows blank sep (trim blank s) = rows blank sep s := by
  have hleft : rows blank sep (s.dropWhile blank) = rows blank sep s := by
    induction s with
    | nil => rfl
    | cons c s ih =>
      rw [List.dropWhile_cons]
      split
      · rename_i hc
        rw [ih, rows_cons_blank hsep hc]
      · rfl
  rw [← hleft]
  unfold trim
  generalize s.dropWhile blank = s
  induction s using List.reverseRecOn with
  | nil => rfl
  | append_singleton s c ih =>
    rw [List.rdropWhile_concat]
    split
    · rename_i hc
      rw [ih, rows_concat_blank hc]
    · rfl

theorem rows_intercalate {ls : List (List α)} (h : ∀ l ∈ ls, sep ∉ l) :
    rows blank sep ([sep].intercalate ls) = solids blank ls := by
  induction ls with
  | nil => rfl
  | cons l ls ih =>
    have hl : rows blank sep l = solids blank [l] := rows_of_notMem (h l List.mem_cons_self)
    have hls := ih fun l hl => h l (List.mem_cons_of_mem _ hl)
    cases ls with
    | nil =>
      rw [List.intercalate_singleton]
      exact hl
    | cons l' ls =>
      rw [List.intercalate_cons_cons, List.append_assoc, List.singleton_append, rows_append, hl, hls]
      exact (solids_append [l] (l' :: ls)).symm

end

end Passages
end DarkFactory
