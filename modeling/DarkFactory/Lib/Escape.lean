import Mathlib.Data.List.Infix

/-!
# DarkFactory.Lib.Escape

Replacing words in a text, for words that a delimiter opens and in which it occurs nowhere else.

* `replace` — every occurrence of `old`, from left to right, by `new`.
* `Rule` — a replacement of one such word by another.
* `infix_of_infix_replace` — no replacement makes a word out of the text around it.
* `not_infix_replaceAll` — after all rules, none of their words is left; `replaceAll_idem` follows.
-/

namespace DarkFactory
namespace Escape

section

variable {α : Type}

/-- `d` opens the word and occurs nowhere else in it. -/
def Opens (d : α) (w : List α) : Prop := w.head? = some d ∧ d ∉ w.tail

theorem Opens.eq_cons {d : α} {w : List α} (h : Opens d w) : ∃ body, w = d :: body ∧ d ∉ body := by
  obtain ⟨hhead, htail⟩ := h
  cases w with
  | nil => cases hhead
  | cons c body =>
    cases hhead
    exact ⟨body, rfl, htail⟩

def Apart (v w : List α) : Prop := ¬ v <+: w ∧ ¬ w <+: v

structure Rule (d : α) where
  old : List α
  new : List α
  oldOpens : Opens d old
  newOpens : Opens d new

theorem infix_of_infix_append {d : α} {body xs ys : List α} (hxs : d ∉ xs) (h : d :: body <:+: xs ++ ys) :
    d :: body <:+: ys := by
  induction xs with
  | nil => exact h
  | cons x xs ih =>
    rw [List.mem_cons, not_or] at hxs
    rw [List.cons_append, List.infix_cons_iff] at h
    rcases h with h | h
    · exact absurd (List.cons_prefix_cons.mp h).1 hxs.1
    · exact ih hxs.2 h

variable [DecidableEq α]

/-- The replacement in a text of which the next `skip` elements belong to an occurrence of `old`. -/
def replaceFrom (old new : List α) : Nat → List α → List α
  | _, [] => []
  | skip + 1, _ :: cs => replaceFrom old new skip cs
  | 0, c :: cs =>
    if old.isPrefixOf (c :: cs) then new ++ replaceFrom old new (old.length - 1) cs
    else c :: replaceFrom old new 0 cs

/-- `s.replace(old, new)`, for a word `old` that is not empty. -/
def replace (old new s : List α) : List α := replaceFrom old new 0 s

theorem replace_eq_self {old : List α} (new : List α) {s : List α} (h : ¬ old <:+: s) : replace old new s = s := by
  unfold replace
  induction s with
  | nil => rfl
  | cons c cs ih =>
    rw [List.infix_cons_iff, not_or] at h
    rw [replaceFrom, if_neg (by simpa using h.1), ih h.2]

instance (d : α) (w : List α) : Decidable (Opens d w) := inferInstanceAs (Decidable (_ ∧ _))

instance (v w : List α) : Decidable (Apart v w) := inferInstanceAs (Decidable (_ ∧ _))

variable {d : α}

theorem prefix_of_prefix_replace {old body s : List α} {new : List α} (hnew : Opens d new)
    (hbody : d ∉ body) (h : body <+: replace old new s) : body <+: s := by
  unfold replace at h
  induction s generalizing body with
  | nil => exact h
  | cons c cs ih =>
    cases body with
    | nil => exact List.nil_prefix
    | cons x body =>
      rw [List.mem_cons, not_or] at hbody
      rw [replaceFrom] at h
      split at h
      · obtain ⟨rest, rfl, -⟩ := hnew.eq_cons
        exact absurd (List.cons_prefix_cons.mp h).1.symm hbody.1
      · obtain ⟨hx, hrest⟩ := List.cons_prefix_cons.mp h
        exact List.cons_prefix_cons.mpr ⟨hx, ih hbody.2 hrest⟩

theorem infix_of_infix_replaceFrom (r : Rule d) {w : List α} (hw : Opens d w) (hapart : Apart w r.new)
    {skip : Nat} {s : List α} (h : w <:+: replaceFrom r.old r.new skip s) : w <:+: s ∧ w ≠ r.old := by
  obtain ⟨body, rfl, hbody⟩ := hw.eq_cons
  induction s generalizing skip with
  | nil => exact absurd (List.eq_nil_of_infix_nil h) (List.cons_ne_nil _ _)
  | cons c cs ih =>
    cases skip with
    | succ skip =>
      obtain ⟨hin, hne⟩ := ih h
      exact ⟨hin.trans (List.infix_cons (List.infix_refl cs)), hne⟩
    | zero =>
      rw [replaceFrom] at h
      split at h
      · obtain ⟨new, hnew, hdelim⟩ := r.newOpens.eq_cons
        have hsplit : r.new ++ replaceFrom r.old r.new (r.old.length - 1) cs =
            d :: (new ++ replaceFrom r.old r.new (r.old.length - 1) cs) := by
          conv_lhs => rw [hnew, List.cons_append, ← hnew]
        rw [hsplit, List.infix_cons_iff, ← hsplit] at h
        rcases h with h | h
        · rcases List.prefix_or_prefix_of_prefix h (List.prefix_append r.new _) with h | h
          · exact absurd h hapart.1
          · exact absurd h hapart.2
        · obtain ⟨hin, hne⟩ := ih (infix_of_infix_append hdelim h)
          exact ⟨hin.trans (List.infix_cons (List.infix_refl cs)), hne⟩
      · rename_i hold
        rw [List.infix_cons_iff] at h
        rcases h with h | h
        · obtain ⟨hc, hrest⟩ := List.cons_prefix_cons.mp h
          have hprefix : d :: body <+: c :: cs :=
            List.cons_prefix_cons.mpr ⟨hc, prefix_of_prefix_replace r.newOpens hbody hrest⟩
          refine ⟨List.IsPrefix.isInfix hprefix, ?_⟩
          intro heq
          exact hold (List.isPrefixOf_iff_prefix.mpr (heq ▸ hprefix))
        · obtain ⟨hin, hne⟩ := ih h
          exact ⟨hin.trans (List.infix_cons (List.infix_refl cs)), hne⟩

theorem infix_of_infix_replace (r : Rule d) {w : List α} (hw : Opens d w) (hapart : Apart w r.new)
    {s : List α} (h : w <:+: replace r.old r.new s) : w <:+: s ∧ w ≠ r.old :=
  infix_of_infix_replaceFrom r hw hapart h

def replaceAll (rules : List (Rule d)) (s : List α) : List α :=
  rules.foldl (fun s r => replace r.old r.new s) s

theorem replaceAll_cons (r : Rule d) (rules : List (Rule d)) (s : List α) :
    replaceAll (r :: rules) s = replaceAll rules (replace r.old r.new s) := rfl

variable {rules : List (Rule d)}

theorem infix_of_infix_replaceAll {w : List α} (hw : Opens d w)
    (hapart : ∀ r ∈ rules, Apart w r.new) {s : List α} (h : w <:+: replaceAll rules s) : w <:+: s := by
  induction rules generalizing s with
  | nil => exact h
  | cons r rules ih =>
    rw [List.forall_mem_cons] at hapart
    exact (infix_of_infix_replace r hw hapart.1 (ih hapart.2 h)).1

theorem not_infix_replaceAll (hapart : ∀ r ∈ rules, ∀ r' ∈ rules, Apart r.old r'.new) (s : List α) :
    ∀ r ∈ rules, ¬ r.old <:+: replaceAll rules s := by
  suffices h : ∀ done, (∀ r ∈ done, ∀ r' ∈ done, Apart r.old r'.new) → ∀ s, ∀ r ∈ done,
      ¬ r.old <:+: replaceAll done s from h rules hapart s
  intro done
  induction done with
  | nil => intro _ _ r hr; cases hr
  | cons r₀ done ih =>
    intro hapart s r hr hin
    rw [replaceAll_cons] at hin
    rcases List.mem_cons.mp hr with rfl | hr
    · have hleft := infix_of_infix_replaceAll r.oldOpens
        (fun r' hr' => hapart r hr r' (List.mem_cons_of_mem _ hr')) hin
      exact (infix_of_infix_replace r r.oldOpens (hapart r hr r hr) hleft).2 rfl
    · exact ih (fun r₁ h₁ r₂ h₂ => hapart r₁ (List.mem_cons_of_mem _ h₁) r₂ (List.mem_cons_of_mem _ h₂))
        _ r hr hin

theorem replaceAll_eq_self {s : List α} (h : ∀ r ∈ rules, ¬ r.old <:+: s) : replaceAll rules s = s := by
  induction rules with
  | nil => rfl
  | cons r rules ih =>
    rw [List.forall_mem_cons] at h
    rw [replaceAll_cons, replace_eq_self r.new h.1, ih h.2]

theorem replaceAll_idem (hapart : ∀ r ∈ rules, ∀ r' ∈ rules, Apart r.old r'.new) (s : List α) :
    replaceAll rules (replaceAll rules s) = replaceAll rules s :=
  replaceAll_eq_self (not_infix_replaceAll hapart s)

end

end Escape
end DarkFactory
