import DarkFactory.Lib.Passages

/-!
# DarkFactory.Lib.Paragraphs

A text laid out in paragraphs with two breaks between them, and the search that takes the lines of a marker out.

* `Marker` — a text that opens a line, and does not reach from one paragraph into the next.
* `cut` — each marker goes, with the breaks before it and the rest of its line.
* `layout` — paragraphs one after another.
* `trim_cut_own` — a search takes one paragraph whole and nothing else.
-/

namespace DarkFactory
namespace Paragraphs

open Passages

variable {α : Type}

/-! ## Texts and breaks -/

section

variable {nl : α}

theorem getLast?_suffix {r s : List α} (h : r <:+ s) (hne : r ≠ []) : r.getLast? = s.getLast? := by
  obtain ⟨t, rfl⟩ := h
  rw [List.getLast?_append, List.getLast?_eq_some_getLast hne, Option.some_or]

def Parted (nl : α) (y : List α) : Prop := y = [] ∨ ∃ y', y = nl :: nl :: y'

def Closed (nl : α) (u : List α) : Prop := u.getLast? ≠ some nl

theorem Closed.suffix {r u : List α} (hu : Closed nl u) (h : r <:+ u) : Closed nl r := by
  by_cases hne : r = []
  · subst hne
    exact Option.some_ne_none nl |>.symm
  · unfold Closed
    rwa [getLast?_suffix h hne]

structure Marker (nl : α) where
  text : List α
  ne : text ≠ []
  last : text.getLast? ≠ some nl
  unbroken : ¬ [nl, nl] <:+: text

theorem Marker.isPrefix_of_append (m : Marker nl) {u y : List α} (h : m.text <+: u ++ nl :: nl :: y) :
    m.text <+: u := by
  rcases List.prefix_or_prefix_of_prefix h (List.prefix_append u _) with hu | ⟨v, hv⟩
  · exact hu
  · rw [← hv, List.prefix_append_right_inj] at h
    match v with
    | [] => exact List.append_nil u ▸ hv ▸ List.prefix_refl _
    | [c] =>
      have hlast := m.last
      rw [← hv, List.getLast?_append, (List.cons_prefix_cons.mp h).1] at hlast
      exact absurd rfl hlast
    | c :: c' :: v =>
      obtain ⟨rfl, h⟩ := List.cons_prefix_cons.mp h
      obtain ⟨rfl, -⟩ := List.cons_prefix_cons.mp h
      exact absurd (hv ▸ ⟨u, v, by simp⟩) m.unbroken

theorem Parted.isPrefix {m : Marker nl} {u y : List α} (hy : Parted nl y) (h : m.text <+: u ++ y) : m.text <+: u := by
  rcases hy with rfl | ⟨y', rfl⟩
  · rwa [List.append_nil] at h
  · exact m.isPrefix_of_append h

end

/-! ## Cutting -/

section

variable [DecidableEq α] {nl : α}

def dropBreaks (nl : α) (s : List α) : List α := s.dropWhile fun c => decide (c = nl)

def afterLine (nl : α) (s : List α) : List α := s.dropWhile fun c => decide (c ≠ nl)

theorem afterLine_suffix (nl : α) (s : List α) : afterLine nl s <:+ s := List.dropWhile_suffix _

theorem dropBreaks_suffix (nl : α) (s : List α) : dropBreaks nl s <:+ s := List.dropWhile_suffix _

theorem Parted.afterLine {y : List α} (hy : Parted nl y) : afterLine nl y = y := by
  rcases hy with rfl | ⟨y', rfl⟩
  · rfl
  · exact List.dropWhile_cons_of_neg (by simp)

theorem dropBreaks_append {u : List α} (hu : Closed nl u) (hne : u ≠ []) (y : List α) :
    dropBreaks nl (u ++ y) = dropBreaks nl u ++ y := by
  unfold dropBreaks
  rw [List.dropWhile_append, if_neg]
  intro hnil
  rw [List.isEmpty_iff, List.dropWhile_eq_nil_iff] at hnil
  refine hu ?_
  rw [List.getLast?_eq_some_getLast hne, of_decide_eq_true (hnil _ (List.getLast_mem hne))]

namespace Marker

variable (m : Marker nl)

def rest (s : List α) : List α := afterLine nl ((dropBreaks nl s).drop m.text.length)

def isNext (s : List α) : Prop := m.text <+: dropBreaks nl s

instance (s : List α) : Decidable (m.isNext s) := inferInstanceAs (Decidable (_ <+: _))

theorem rest_suffix (s : List α) : m.rest s <:+ s :=
  ((afterLine_suffix nl _).trans (List.drop_suffix _ _)).trans (dropBreaks_suffix nl s)

variable {s : List α}

theorem rest_length (h : m.isNext s) : (m.rest s).length < s.length := by
  have hpos := List.length_pos_of_ne_nil m.ne
  have hle := h.length_le
  have hbreaks := (dropBreaks_suffix nl s).length_le
  have hline := (afterLine_suffix nl ((dropBreaks nl s).drop m.text.length)).length_le
  rw [List.length_drop] at hline
  unfold rest
  omega

def cut : List α → List α
  | [] => []
  | c :: cs => if m.isNext (c :: cs) then cut (m.rest (c :: cs)) else c :: cut cs
termination_by s => s.length
decreasing_by
  · exact m.rest_length ‹_›
  · exact Nat.lt_succ_self _

theorem cut_nil : m.cut [] = [] := by rw [cut]

theorem not_isNext_nil : ¬ m.isNext [] := fun h => m.ne (List.prefix_nil.mp h)

theorem cut_isNext (h : m.isNext s) : m.cut s = m.cut (m.rest s) := by
  cases s with
  | nil => exact absurd h m.not_isNext_nil
  | cons c cs => rw [cut, if_pos h]

theorem cut_cons {c : α} {cs : List α} (h : ¬ m.isNext (c :: cs)) : m.cut (c :: cs) = c :: m.cut cs := by
  rw [cut, if_neg h]

theorem isNext_infix (h : m.isNext s) : m.text <:+: s :=
  h.isInfix.trans (dropBreaks_suffix nl s).isInfix

theorem cut_of_not_infix (h : ¬ m.text <:+: s) : m.cut s = s := by
  induction s with
  | nil => exact m.cut_nil
  | cons c cs ih =>
    rw [m.cut_cons fun hnext => h (m.isNext_infix hnext), ih fun hin => h (hin.trans (List.suffix_cons c cs).isInfix)]

theorem isNext_append {u y : List α} (hu : Closed nl u) (hne : u ≠ []) (hy : Parted nl y) :
    m.isNext (u ++ y) ↔ m.isNext u := by
  unfold isNext
  rw [dropBreaks_append hu hne]
  exact ⟨hy.isPrefix, fun h => h.trans (List.prefix_append _ _)⟩

theorem rest_append {u y : List α} (hu : Closed nl u) (hy : Parted nl y) (h : m.isNext u) :
    m.rest (u ++ y) = m.rest u ++ y := by
  have hne : u ≠ [] := by
    rintro rfl
    exact m.not_isNext_nil h
  have hlength : m.text.length ≤ (dropBreaks nl u).length := h.length_le
  unfold rest
  rw [dropBreaks_append hu hne, List.drop_append_of_le_length hlength, Paragraphs.afterLine, List.dropWhile_append]
  split
  · rename_i hnil
    rw [List.isEmpty_iff] at hnil
    have hparted := hy.afterLine
    unfold Paragraphs.afterLine at hparted ⊢
    rw [hnil, hparted, List.nil_append]
  · rfl

theorem cut_append {u y : List α} (hu : Closed nl u) (hy : Parted nl y) : m.cut (u ++ y) = m.cut u ++ m.cut y := by
  induction hlength : u.length using Nat.strong_induction_on generalizing u with
  | _ n ih =>
    cases u with
    | nil => rw [m.cut_nil, List.nil_append, List.nil_append]
    | cons c cs =>
      by_cases hnext : m.isNext (c :: cs)
      · rw [m.cut_isNext ((m.isNext_append hu (List.cons_ne_nil c cs) hy).mpr hnext), m.rest_append hu hy hnext,
          m.cut_isNext hnext]
        exact ih _ (hlength ▸ m.rest_length hnext) (hu.suffix (m.rest_suffix _)) rfl
      · have happend : ¬ m.isNext (c :: (cs ++ y)) := fun h =>
          hnext ((m.isNext_append hu (List.cons_ne_nil c cs) hy).mp h)
        rw [List.cons_append, m.cut_cons happend, m.cut_cons hnext, List.cons_append]
        exact congrArg (c :: ·) (ih _ (hlength ▸ Nat.lt_succ_self _) (hu.suffix (List.suffix_cons c cs)) rfl)

/-! ### What a search leaves -/

theorem rest_head : m.rest s = [] ∨ ∃ s', m.rest s = nl :: s' := by
  unfold rest afterLine
  generalize (dropBreaks nl s).drop m.text.length = s
  induction s with
  | nil => exact .inl rfl
  | cons c cs ih =>
    by_cases hc : c = nl
    · exact .inr ⟨cs, by rw [List.dropWhile_cons_of_neg (by simpa using hc), hc]⟩
    · rw [List.dropWhile_cons_of_pos (by simpa using hc)]
      exact ih

theorem cut_rest_head (h : s = [] ∨ ∃ s', s = nl :: s') : m.cut s = [] ∨ ∃ s', m.cut s = nl :: s' := by
  induction hlength : s.length using Nat.strong_induction_on generalizing s with
  | _ n ih =>
    rcases h with rfl | ⟨s, rfl⟩
    · exact .inl m.cut_nil
    · by_cases hnext : m.isNext (nl :: s)
      · rw [m.cut_isNext hnext]
        exact ih _ (hlength ▸ m.rest_length hnext) m.rest_head rfl
      · exact .inr ⟨m.cut s, m.cut_cons hnext⟩

theorem isPrefix_of_cut {p : List α} (hp : nl ∉ p) (h : p <+: m.cut s) : p <+: s := by
  induction s generalizing p with
  | nil => rwa [m.cut_nil] at h
  | cons c cs ih =>
    by_cases hnext : m.isNext (c :: cs)
    · rw [m.cut_isNext hnext] at h
      cases p with
      | nil => exact List.nil_prefix
      | cons x p =>
        rcases m.cut_rest_head m.rest_head with hnil | ⟨s', hs'⟩
        · rw [hnil] at h
          exact absurd (List.prefix_nil.mp h) (List.cons_ne_nil x p)
        · rw [hs'] at h
          exact absurd ((List.cons_prefix_cons.mp h).1 ▸ List.mem_cons_self) hp
    · rw [m.cut_cons hnext] at h
      cases p with
      | nil => exact List.nil_prefix
      | cons x p =>
        obtain ⟨hx, hrest⟩ := List.cons_prefix_cons.mp h
        exact List.cons_prefix_cons.mpr ⟨hx, ih (fun hmem => hp (List.mem_cons_of_mem _ hmem)) hrest⟩

theorem not_infix_cut (hline : nl ∉ m.text) (s : List α) : ¬ m.text <:+: m.cut s := by
  induction hlength : s.length using Nat.strong_induction_on generalizing s with
  | _ n ih =>
    cases s with
    | nil =>
      rw [m.cut_nil]
      exact fun h => m.ne (List.eq_nil_of_infix_nil h)
    | cons c cs =>
      by_cases hnext : m.isNext (c :: cs)
      · rw [m.cut_isNext hnext]
        exact ih _ (hlength ▸ m.rest_length hnext) _ rfl
      · rw [m.cut_cons hnext]
        intro hin
        rcases List.infix_cons_iff.mp hin with hfirst | hin
        · have hprefix : m.text <+: c :: cs := m.isPrefix_of_cut hline (by rwa [m.cut_cons hnext])
          refine hnext ?_
          cases htext : m.text with
          | nil => exact absurd htext m.ne
          | cons x text =>
            rw [htext] at hprefix hline
            have hc : c ≠ nl := by
              rintro rfl
              exact hline ((List.cons_prefix_cons.mp hprefix).1 ▸ List.mem_cons_self)
            have hbreaks : dropBreaks nl (c :: cs) = c :: cs := List.dropWhile_cons_of_neg (by simpa using hc)
            rw [isNext, hbreaks, htext]
            exact hprefix
        · exact ih _ (hlength ▸ Nat.lt_succ_self _) cs rfl hin

end Marker
end
/-! ## Paragraphs -/

section

variable {nl : α} {blank : α → Bool}

def after (nl : α) (parts : List (List α)) : List α := parts.flatMap fun part => nl :: nl :: part

def layout (nl : α) : List (List α) → List α
  | [] => []
  | part :: parts => part ++ after nl parts

theorem after_append (parts parts' : List (List α)) :
    after nl (parts ++ parts') = after nl parts ++ after nl parts' := List.flatMap_append

theorem parted_after (parts : List (List α)) : Parted nl (after nl parts) := by
  cases parts with
  | nil => exact .inl rfl
  | cons part parts => exact .inr ⟨part ++ after nl parts, rfl⟩

variable {parts : List (List α)} {s : List α}

theorem layout_append (hne : parts ≠ []) (parts' : List (List α)) :
    layout nl (parts ++ parts') = layout nl parts ++ after nl parts' := by
  cases parts with
  | nil => exact absurd rfl hne
  | cons part parts => rw [List.cons_append, layout, layout, after_append, List.append_assoc]

theorem infix_layout {part : List α} (h : part ∈ parts) : part <:+: layout nl parts := by
  obtain ⟨pre, post, rfl⟩ := List.append_of_mem h
  cases pre with
  | nil => exact (List.prefix_append part _).isInfix
  | cons first pre =>
    rw [layout_append (List.cons_ne_nil first pre)]
    exact ⟨layout nl (first :: pre) ++ [nl, nl], after nl post, by simp [after]⟩

theorem solid_of_ends (hhead : ∃ c, s.head? = some c ∧ blank c = false)
    (hlast : ∃ c, s.getLast? = some c ∧ blank c = false) : Solid blank s := by
  obtain ⟨c, hc, hblank⟩ := hhead
  obtain ⟨d, hd, hblank'⟩ := hlast
  have hdrop : s.dropWhile blank = s := by
    cases s with
    | nil => rfl
    | cons x s =>
      rw [List.head?_cons, Option.some.injEq] at hc
      exact List.dropWhile_cons_of_neg (by rw [hc, hblank]; exact Bool.false_ne_true)
  have hne : s ≠ [] := by
    rintro rfl
    cases hc
  refine ⟨?_, hne⟩
  rw [trim, hdrop, List.rdropWhile_eq_self_iff]
  intro hne
  rw [List.getLast?_eq_some_getLast hne, Option.some.injEq] at hd
  rw [hd, hblank']
  exact Bool.false_ne_true

theorem Solid.ends (h : Solid blank s) :
    (∃ c, s.head? = some c ∧ blank c = false) ∧ ∃ c, s.getLast? = some c ∧ blank c = false := by
  obtain ⟨c, cs, hcons, hc⟩ := h.head
  obtain ⟨ds, d, hconcat, hd⟩ := h.last
  exact ⟨⟨c, by rw [hcons]; rfl, hc⟩, ⟨d, by rw [hconcat, List.getLast?_concat], hd⟩⟩

theorem solid_append {u v : List α} (w : List α) (hu : Solid blank u) (hv : Solid blank v) :
    Solid blank (u ++ w ++ v) := by
  obtain ⟨c, hc, hblank⟩ := (Solid.ends hu).1
  obtain ⟨d, hd, hblank'⟩ := (Solid.ends hv).2
  refine solid_of_ends ⟨c, ?_, hblank⟩ ⟨d, ?_, hblank'⟩
  · rw [List.head?_append, List.head?_append, hc, Option.some_or, Option.some_or]
  · rw [List.getLast?_append, hd, Option.some_or]

theorem solid_layout (hne : parts ≠ []) (h : ∀ part ∈ parts, Solid blank part) : Solid blank (layout nl parts) := by
  induction parts using List.reverseRecOn with
  | nil => exact absurd rfl hne
  | append_singleton parts part ih =>
    have hpart := h part (List.mem_append_right _ List.mem_cons_self)
    by_cases hparts : parts = []
    · subst hparts
      have heq : layout nl ([] ++ [part]) = part := List.append_nil part
      rwa [heq]
    · have hsolid := ih hparts fun q hq => h q (List.mem_append_left _ hq)
      have heq : layout nl (parts ++ [part]) = layout nl parts ++ [nl, nl] ++ part := by
        rw [layout_append hparts]
        simp [after]
      rw [heq]
      exact solid_append [nl, nl] hsolid hpart

theorem trim_layout (h : ∀ part ∈ parts, Solid blank part) : trim blank (layout nl parts) = layout nl parts := by
  by_cases hne : parts = []
  · subst hne
    rfl
  · exact (solid_layout hne h).1

theorem Solid.closed (hnl : blank nl = true) (h : Solid blank s) : Closed nl s := by
  obtain ⟨c, hc, hblank⟩ := (Solid.ends h).2
  rw [Closed, hc, Ne, Option.some.injEq]
  rintro rfl
  rw [hnl] at hblank
  cases hblank

/-! ### Blanks around a text -/

theorem trim_blank_append {a : List α} (ha : ∀ c ∈ a, blank c = true) (s : List α) :
    trim blank (a ++ s) = trim blank s := by
  induction a with
  | nil => rfl
  | cons c a ih =>
    rw [List.cons_append, trim_cons blank (ha c List.mem_cons_self)]
    exact ih fun x hx => ha x (List.mem_cons_of_mem _ hx)

theorem trim_append_blank {b : List α} (hb : ∀ c ∈ b, blank c = true) (s : List α) :
    trim blank (s ++ b) = trim blank s := by
  induction b using List.reverseRecOn with
  | nil => rw [List.append_nil]
  | append_singleton b c ih =>
    rw [← List.append_assoc, trim_concat blank (hb c (List.mem_append_right _ List.mem_cons_self))]
    exact ih fun x hx => hb x (List.mem_append_left _ hx)

theorem rdropWhile_append_blank (blank : α → Bool) (s : List α) :
    ∃ b, s = s.rdropWhile blank ++ b ∧ ∀ c ∈ b, blank c = true := by
  induction s using List.reverseRecOn with
  | nil => exact ⟨[], rfl, List.forall_mem_nil _⟩
  | append_singleton s c ih =>
    rw [List.rdropWhile_concat]
    split
    · rename_i hc
      obtain ⟨b, hb, hblank⟩ := ih
      refine ⟨b ++ [c], ?_, ?_⟩
      · rw [← List.append_assoc, ← hb]
      · rintro x hx
        rcases List.mem_append.mp hx with hx | hx
        · exact hblank x hx
        · rw [List.mem_singleton.mp hx]
          exact hc
    · exact ⟨[], (List.append_nil _).symm, List.forall_mem_nil _⟩

theorem trim_split (blank : α → Bool) (s : List α) :
    ∃ a b, s = a ++ trim blank s ++ b ∧ (∀ c ∈ a, blank c = true) ∧ ∀ c ∈ b, blank c = true := by
  obtain ⟨b, hb, hblank⟩ := rdropWhile_append_blank blank (s.dropWhile blank)
  refine ⟨s.takeWhile blank, b, ?_, fun _ hc => List.mem_takeWhile_imp hc, hblank⟩
  rw [List.append_assoc, trim, ← hb, List.takeWhile_append_dropWhile]

theorem solid_trim (h : trim blank s ≠ []) : Solid blank (trim blank s) := ⟨trim_trim s, h⟩

theorem solids_singleton (s : List α) : solids blank [s] = if trim blank s = [] then [] else [trim blank s] := by
  unfold solids
  rw [List.map_singleton, List.filter_cons]
  split
  · rename_i h
    rw [if_neg (of_decide_eq_true h), List.filter_nil]
  · rename_i h
    rw [if_pos (by simpa using h), List.filter_nil]

theorem layout_solids (s : List α) : layout nl (solids blank [s]) = trim blank s := by
  rw [solids_singleton]
  split
  · rename_i h
    rw [h]
    rfl
  · exact List.append_nil _

theorem trim_write (hnl : blank nl = true) {p : List α} (hp : ∃ c, p.head? = some c ∧ blank c = false) (w : List α) :
    trim blank (w.rdropWhile blank ++ nl :: nl :: p) = layout nl (solids blank [w] ++ [trim blank p]) := by
  obtain ⟨b, hb, hblank⟩ := rdropWhile_append_blank blank w
  have htrim : trim blank w = trim blank (w.rdropWhile blank) := by
    conv_lhs => rw [hb]
    exact trim_append_blank hblank _
  obtain ⟨q, hpq, hq⟩ : ∃ b, p = trim blank p ++ b ∧ ∀ c ∈ b, blank c = true := by
    obtain ⟨c, hc, hcblank⟩ := hp
    obtain ⟨b, hb, hblank⟩ := rdropWhile_append_blank blank p
    refine ⟨b, ?_, hblank⟩
    cases p with
    | nil => cases hc
    | cons x p =>
      rw [List.head?_cons, Option.some.injEq] at hc
      rw [trim, List.dropWhile_cons_of_neg (by rw [hc, hcblank]; exact Bool.false_ne_true)]
      exact hb
  have hsolid : Solid blank (trim blank p) := by
    refine solid_trim fun hnil => ?_
    obtain ⟨c, hc, hcblank⟩ := hp
    rw [hnil, List.nil_append] at hpq
    rw [hpq] at hc
    rw [hq c (List.mem_of_mem_head? hc)] at hcblank
    cases hcblank
  rw [solids_singleton]
  split
  · rename_i hnil
    rw [List.rdropWhile_eq_nil_iff.mpr ((trim_eq_nil blank).mp hnil), List.nil_append, trim_cons blank hnl,
      trim_cons blank hnl]
    exact (List.append_nil _).symm
  · rename_i hne
    obtain ⟨a, b', hsplit, ha, hb'⟩ := trim_split blank (w.rdropWhile blank)
    rw [← htrim] at hsplit
    -- what is left of the text ends with no blank
    have hend : b' = [] := by
      rcases List.eq_nil_or_concat b' with hnil | ⟨b'', c, hconcat⟩
      · exact hnil
      · rw [hconcat, List.concat_eq_append] at hsplit hb'
        have hc : blank c = true := hb' c (List.mem_append_right _ List.mem_cons_self)
        have hleft : w.rdropWhile blank ≠ [] := by
          rw [hsplit]
          simp
        have hget : (w.rdropWhile blank).getLast hleft = c := by
          apply Option.some_inj.mp
          rw [← List.getLast?_eq_some_getLast, hsplit, ← List.append_assoc, List.getLast?_concat]
        exact absurd hc (hget ▸ List.rdropWhile_last_not blank w hleft)
    rw [hsplit, hend, List.append_nil, List.append_assoc, trim_blank_append ha]
    conv_lhs => rw [hpq]
    have hassoc :
        trim blank w ++ nl :: nl :: (trim blank p ++ q) = trim blank w ++ [nl, nl] ++ trim blank p ++ q := by
      simp
    have hlayout : layout nl ([trim blank w] ++ [trim blank p]) = trim blank w ++ [nl, nl] ++ trim blank p := by
      simp [layout, after]
    rw [hassoc, trim_append_blank hq, hlayout]
    exact (solid_append [nl, nl] (solid_trim hne) hsolid).1

theorem solid_prefix_trim {u : List α} (hu : Solid blank u) (w : List α) : u <+: trim blank (u ++ w) := by
  obtain ⟨a, b, hsplit, ha, hb⟩ := trim_split blank (u ++ w)
  obtain ⟨⟨c, hc, hblank⟩, ⟨d, hd, hblank'⟩⟩ := Solid.ends hu
  have hnil : a = [] := by
    cases a with
    | nil => rfl
    | cons x a =>
      have hhead := congrArg List.head? hsplit
      rw [List.head?_append, hc, Option.some_or, List.cons_append, List.cons_append, List.head?_cons] at hhead
      rw [Option.some.inj hhead, ha x List.mem_cons_self] at hblank
      cases hblank
  rw [hnil, List.nil_append] at hsplit
  have hprefix : trim blank (u ++ w) <+: u ++ w := ⟨b, hsplit.symm⟩
  rcases List.prefix_or_prefix_of_prefix (List.prefix_append u w) hprefix with h | ⟨v, hv⟩
  · exact h
  · -- what the trim took of the text would end it
    have hvb : v <+: b := by
      have happend : trim blank (u ++ w) ++ (v ++ w) = trim blank (u ++ w) ++ b := by
        rw [← List.append_assoc, hv, ← hsplit]
      exact ⟨w, List.append_cancel_left happend⟩
    have hvnil : v = [] := by
      rcases List.eq_nil_or_concat v with hnil | ⟨v, x, rfl⟩
      · exact hnil
      · rw [← hv, List.concat_eq_append, ← List.append_assoc, List.getLast?_concat, Option.some.injEq] at hd
        rw [← hd, hb x (hvb.subset (by simp))] at hblank'
        cases hblank'
    rw [hvnil, List.append_nil] at hv
    exact ⟨[], (List.append_nil u).trans hv.symm⟩

theorem solid_solids (s : List α) : ∀ part ∈ solids blank [s], Solid blank part := solid_of_mem

theorem layout_eq_nil (h : ∀ part ∈ parts, Solid blank part) : layout nl parts = [] ↔ parts = [] := by
  constructor
  · intro hnil
    by_contra hne
    exact (solid_layout hne h).2 hnil
  · rintro rfl
    rfl

theorem layout_concat (parts : List (List α)) (part : List α) :
    layout nl (parts ++ [part]) = if parts = [] then part else layout nl parts ++ nl :: nl :: part := by
  split
  · rename_i hparts
    subst hparts
    exact List.append_nil part
  · rename_i hparts
    rw [layout_append hparts]
    simp [after]

theorem layout_concat_inj {parts' : List (List α)} {part : List α} (h : ∀ part ∈ parts, Solid blank part)
    (h' : ∀ part ∈ parts', Solid blank part) :
    layout nl (parts ++ [part]) = layout nl (parts' ++ [part]) ↔ layout nl parts = layout nl parts' := by
  have hlonger : ∀ s : List α, part ≠ s ++ nl :: nl :: part := by
    intro s heq
    have hlength := congrArg List.length heq
    rw [List.length_append, List.length_cons, List.length_cons] at hlength
    omega
  rw [layout_concat, layout_concat]
  by_cases hparts : parts = []
  · rw [if_pos hparts, hparts]
    by_cases hparts' : parts' = []
    · rw [if_pos hparts', hparts']
      exact iff_of_true rfl rfl
    · rw [if_neg hparts']
      exact iff_of_false (hlonger _) fun heq => hparts' ((layout_eq_nil h').mp heq.symm)
  · rw [if_neg hparts]
    by_cases hparts' : parts' = []
    · rw [if_pos hparts', hparts']
      exact iff_of_false (fun heq => hlonger _ heq.symm) fun heq => hparts ((layout_eq_nil h).mp heq)
    · rw [if_neg hparts']
      exact ⟨List.append_cancel_right, fun heq => by rw [heq]⟩

theorem trim_eq_self_append {x gap : List α} (hx : Solid blank x) :
    trim blank (x ++ gap) = x ↔ ∀ c ∈ gap, blank c = true := by
  constructor
  · intro h
    obtain ⟨a, b, hsplit, ha, hb⟩ := trim_split blank (x ++ gap)
    rw [h] at hsplit
    obtain ⟨c, cs, rfl, hc⟩ := hx.head
    cases a with
    | nil =>
      rw [List.nil_append] at hsplit
      rw [List.append_cancel_left hsplit]
      exact hb
    | cons y a =>
      rw [List.cons_append, List.cons_append, List.cons_append] at hsplit
      rw [(List.cons.inj hsplit).1, ha y List.mem_cons_self] at hc
      cases hc
  · intro hgap
    rw [trim_append_blank hgap, hx.1]

theorem trim_append_eq_self {gap y : List α} (hy : Solid blank y) :
    trim blank (gap ++ y) = y ↔ ∀ c ∈ gap, blank c = true := by
  constructor
  · intro h
    obtain ⟨a, b, hsplit, ha, hb⟩ := trim_split blank (gap ++ y)
    rw [h] at hsplit
    obtain ⟨cs, c, rfl, hc⟩ := hy.last
    rcases List.eq_nil_or_concat b with rfl | ⟨b, z, rfl⟩
    · rw [List.append_nil] at hsplit
      rw [List.append_cancel_right hsplit]
      exact ha
    · rw [List.concat_eq_append, ← List.append_assoc, ← List.append_assoc, ← List.append_assoc] at hsplit
      rw [List.singleton_inj.mp (List.append_inj' hsplit rfl).2, hb z (by simp)] at hc
      cases hc
  · intro hgap
    rw [trim_blank_append hgap, hy.1]

theorem trim_gap (hnl : blank nl = true) {pre post : List (List α)} {gap : List α}
    (hpre : ∀ part ∈ pre, Solid blank part) (hpost : ∀ part ∈ post, Solid blank part) :
    trim blank (layout nl pre ++ gap ++ after nl post) = layout nl (pre ++ post) ↔
      (∀ c ∈ gap, blank c = true) ∧ (gap = [] ∨ pre = [] ∨ post = []) := by
  by_cases hpre' : pre = []
  · subst hpre'
    simp only [true_or, or_true, and_true]
    cases post with
    | nil =>
      rw [after, List.flatMap_nil, List.append_nil]
      exact trim_eq_nil blank
    | cons part post =>
      have hassoc : layout nl [] ++ gap ++ after nl (part :: post) = gap ++ [nl, nl] ++ layout nl (part :: post) := by
        simp [layout, after]
      rw [hassoc, List.nil_append, trim_append_eq_self (solid_layout (List.cons_ne_nil part post) hpost)]
      constructor
      · exact fun h c hc => h c (List.mem_append_left _ hc)
      · intro h c hc
        rcases List.mem_append.mp hc with hc | hc
        · exact h c hc
        · simp only [List.mem_cons, List.not_mem_nil, or_false, or_self] at hc
          rw [hc, hnl]
  · have hsolid : Solid blank (layout nl pre) := solid_layout hpre' hpre
    simp only [hpre', false_or]
    cases post with
    | nil =>
      rw [after, List.flatMap_nil, List.append_nil, List.append_nil, trim_eq_self_append hsolid]
      simp
    | cons part post =>
      have hlast : Solid blank (layout nl (part :: post)) := solid_layout (List.cons_ne_nil part post) hpost
      have hassoc : layout nl pre ++ gap ++ after nl (part :: post) =
          layout nl pre ++ (gap ++ [nl, nl]) ++ layout nl (part :: post) := by
        simp [layout, after]
      have htarget : layout nl (pre ++ part :: post) = layout nl pre ++ [nl, nl] ++ layout nl (part :: post) := by
        rw [layout_append hpre']
        simp [layout, after]
      rw [hassoc, (solid_append _ hsolid hlast).1, htarget]
      constructor
      · intro heq
        have hgap := congrArg List.length heq
        simp only [List.length_append] at hgap
        have hnil : gap = [] := List.eq_nil_of_length_eq_zero (by omega)
        subst hnil
        exact ⟨List.forall_mem_nil _, .inl rfl⟩
      · rintro ⟨-, rfl | hnil⟩
        · rfl
        · cases hnil

end

/-! ## One paragraph is replaced -/

section

variable [DecidableEq α] {nl : α} {blank : α → Bool} {m : Marker nl}

theorem cut_after_cons (hnl : blank nl = true) {part : List α} (h : Solid blank part) (parts : List (List α)) :
    m.cut (after nl (part :: parts)) =
      (if m.text <+: part then m.cut part else nl :: nl :: m.cut part) ++ m.cut (after nl parts) := by
  have hown : dropBreaks nl part = part := by
    obtain ⟨c, cs, hcons, hc⟩ := h.head
    have hne : c ≠ nl := by
      rintro rfl
      rw [hnl] at hc
      cases hc
    rw [hcons]
    exact List.dropWhile_cons_of_neg (by simpa using hne)
  have hbreak : ∀ s : List α, dropBreaks nl (nl :: s) = dropBreaks nl s :=
    fun _ => List.dropWhile_cons_of_pos (by simp)
  have hskip : dropBreaks nl (nl :: part) = part := (hbreak part).trans hown
  have hbreaks : dropBreaks nl (nl :: nl :: part) = part := (hbreak _).trans hskip
  have hclosed : Closed nl (nl :: nl :: part) := by
    obtain ⟨cs, c, hconcat, hc⟩ := h.last
    rw [Closed, hconcat, ← List.cons_append, ← List.cons_append, List.getLast?_concat, Ne, Option.some.injEq]
    rintro rfl
    rw [hnl] at hc
    cases hc
  have hsame : ∀ s, dropBreaks nl s = part → (m.isNext s ↔ m.text <+: part) := fun s hs => by rw [Marker.isNext, hs]
  have hafter : after nl (part :: parts) = nl :: nl :: part ++ after nl parts := rfl
  rw [hafter, m.cut_append hclosed (parted_after parts)]
  congr 1
  split
  · rename_i hfirst
    rw [m.cut_isNext ((hsame _ hbreaks).mpr hfirst), m.cut_isNext ((hsame _ hown).mpr hfirst), Marker.rest,
      Marker.rest, hbreaks, hown]
  · rename_i hfirst
    rw [m.cut_cons fun hnext => hfirst ((hsame _ hbreaks).mp hnext),
      m.cut_cons fun hnext => hfirst ((hsame _ hskip).mp hnext)]

/-- The marker stands in none of the paragraphs. -/
def Absent (m : Marker nl) (parts : List (List α)) : Prop := ∀ part ∈ parts, ¬ m.text <:+: part

theorem cut_after (hnl : blank nl = true) {parts : List (List α)} (hsolid : ∀ part ∈ parts, Solid blank part)
    (habsent : Absent m parts) : m.cut (after nl parts) = after nl parts := by
  induction parts with
  | nil => exact m.cut_nil
  | cons part parts ih =>
    have hpart := habsent part List.mem_cons_self
    rw [cut_after_cons hnl (hsolid part List.mem_cons_self), if_neg fun h => hpart h.isInfix,
      m.cut_of_not_infix hpart, ih (fun q hq => hsolid q (List.mem_cons_of_mem _ hq)) fun q hq => habsent q (List.mem_cons_of_mem _ hq)]
    rfl

theorem cut_layout_cons (hnl : blank nl = true) {part : List α} (h : Solid blank part) (parts : List (List α)) :
    m.cut (layout nl (part :: parts)) = m.cut part ++ m.cut (after nl parts) :=
  m.cut_append (Solid.closed hnl h) (parted_after parts)

theorem cut_layout (hnl : blank nl = true) {parts : List (List α)} (hsolid : ∀ part ∈ parts, Solid blank part)
    (habsent : Absent m parts) : m.cut (layout nl parts) = layout nl parts := by
  cases parts with
  | nil => exact m.cut_nil
  | cons part parts =>
    rw [cut_layout_cons hnl (hsolid part List.mem_cons_self), m.cut_of_not_infix (habsent part List.mem_cons_self),
      cut_after hnl (fun q hq => hsolid q (List.mem_cons_of_mem _ hq))
        fun q hq => habsent q (List.mem_cons_of_mem _ hq)]
    rfl

/-- What the search leaves of a paragraph that stands after others or first. -/
def remains (m : Marker nl) (pre : List (List α)) (own : List α) : List α :=
  if pre = [] ∨ m.text <+: own then m.cut own else nl :: nl :: m.cut own

theorem cut_own (hnl : blank nl = true) {pre post : List (List α)} {own : List α}
    (hsolid : ∀ part ∈ pre ++ own :: post, Solid blank part) (habsent : Absent m (pre ++ post)) :
    m.cut (layout nl (pre ++ own :: post)) = layout nl pre ++ remains m pre own ++ after nl post := by
  have hpre : ∀ part ∈ pre, Solid blank part := fun q hq => hsolid q (List.mem_append_left _ hq)
  have hown : Solid blank own := hsolid own (List.mem_append_right _ List.mem_cons_self)
  have hpost : m.cut (after nl post) = after nl post :=
    cut_after hnl (fun q hq => hsolid q (List.mem_append_right _ (List.mem_cons_of_mem _ hq)))
      fun q hq => habsent q (List.mem_append_right _ hq)
  cases pre with
  | nil =>
    rw [List.nil_append, cut_layout_cons hnl hown, hpost, remains, if_pos (.inl rfl)]
    rfl
  | cons first pre =>
    have hne : first :: pre ≠ [] := List.cons_ne_nil first pre
    have hclosed : Closed nl (layout nl (first :: pre)) := Solid.closed hnl (solid_layout hne hpre)
    rw [layout_append hne, m.cut_append hclosed (parted_after _), cut_after_cons hnl hown, hpost,
      cut_layout hnl hpre fun q hq => habsent q (List.mem_append_left _ hq), remains, List.append_assoc]
    simp only [hne, false_or]

def Gone (blank : α → Bool) (m : Marker nl) (pre : List (List α)) (own : List α) (post : List (List α)) : Prop :=
  (∀ c ∈ m.cut own, blank c = true) ∧ (m.cut own = [] ∨ pre = [] ∨ post = [])

theorem remains_blank (hnl : blank nl = true) (pre : List (List α)) {own : List α} (h : Solid blank own)
    (hblank : (∀ c ∈ remains m pre own, blank c = true) ∨ ∀ c ∈ m.cut own, blank c = true) :
    remains m pre own = m.cut own := by
  unfold remains at hblank ⊢
  split
  · rfl
  · rename_i hfirst
    rw [if_neg hfirst] at hblank
    rw [not_or] at hfirst
    have hcut : ∀ c ∈ m.cut own, blank c = true :=
      hblank.elim (fun hb c hc => hb c (List.mem_cons_of_mem _ (List.mem_cons_of_mem _ hc))) id
    -- a paragraph that does not open with the marker keeps its first character
    obtain ⟨c, cs, rfl, hc⟩ := h.head
    have hne : c ≠ nl := by
      rintro rfl
      rw [hnl] at hc
      cases hc
    have hbreaks : dropBreaks nl (c :: cs) = c :: cs := List.dropWhile_cons_of_neg (by simpa using hne)
    have hnext : ¬ m.isNext (c :: cs) := by
      rw [Marker.isNext, hbreaks]
      exact hfirst.2
    rw [m.cut_cons hnext] at hcut
    rw [hcut c List.mem_cons_self] at hc
    cases hc

/-- The other paragraphs are all that is left exactly if the search leaves no more of its own paragraph than blanks
around the text. -/
theorem trim_cut_own (hnl : blank nl = true) {pre post : List (List α)} {own : List α}
    (hsolid : ∀ part ∈ pre ++ own :: post, Solid blank part) (habsent : Absent m (pre ++ post)) :
    trim blank (m.cut (layout nl (pre ++ own :: post))) = layout nl (pre ++ post) ↔ Gone blank m pre own post := by
  have hpre : ∀ part ∈ pre, Solid blank part := fun q hq => hsolid q (List.mem_append_left _ hq)
  have hown : Solid blank own := hsolid own (List.mem_append_right _ List.mem_cons_self)
  have hpost : ∀ part ∈ post, Solid blank part := fun q hq =>
    hsolid q (List.mem_append_right _ (List.mem_cons_of_mem _ hq))
  rw [cut_own hnl hsolid habsent, trim_gap hnl hpre hpost, Gone]
  constructor
  · rintro ⟨hblank, hgap⟩
    have hsame := remains_blank hnl pre hown (.inl hblank)
    rw [hsame] at hblank hgap
    exact ⟨hblank, hgap⟩
  · rintro ⟨hblank, hgap⟩
    rw [remains_blank hnl pre hown (.inr hblank)]
    exact ⟨hblank, hgap⟩

theorem absent_of_trim_cut (hline : nl ∉ m.text) {s : List α} {parts : List (List α)}
    (h : trim blank (m.cut s) = layout nl parts) : Absent m parts := by
  intro part hpart hin
  have hcut : trim blank (m.cut s) <:+: m.cut s := trim_isInfix blank _
  rw [h] at hcut
  exact m.not_infix_cut hline s ((hin.trans (infix_layout hpart)).trans hcut)

end

end Paragraphs
end DarkFactory
