import DarkFactory.Lib.Calls
import DarkFactory.OwnerActions.Merge
import Mathlib.Data.List.Nodup

/-!
# DarkFactory.OwnerActions.MergeSpec

A merge of owner actions whose rows have unique ids.

* `rowsAt` — the rows of an id.
* `MergedAt` — what the merge leaves of them (`mergeRows_at`).
-/

namespace DarkFactory
namespace OwnerActions

open Calls

section

variable {ρ : Type}

def rowsAt (rows : List (Row ρ)) (id : String) : List (Row ρ) := rows.filter fun r => decide (r.id = id)

variable {rows : List (Row ρ)} {id : String}

theorem mem_rowsAt {r : Row ρ} : r ∈ rowsAt rows id ↔ r ∈ rows ∧ r.id = id := by
  rw [rowsAt, List.mem_filter, decide_eq_true_eq]

theorem rowsAt_append (rows rows' : List (Row ρ)) (id : String) :
    rowsAt (rows ++ rows') id = rowsAt rows id ++ rowsAt rows' id :=
  List.filter_append _ _

theorem find_mem {r : Row ρ} (h : find rows id = some r) : r ∈ rows ∧ r.id = id :=
  ⟨List.mem_of_find?_eq_some h, of_decide_eq_true (List.find?_some h :)⟩

theorem find_eq_none : find rows id = none ↔ ∀ r ∈ rows, r.id ≠ id := by
  rw [find, List.find?_eq_none]
  simp

theorem find_eq_some (hunique : (rows.map Row.id).Nodup) {id : String} {r : Row ρ} :
    find rows id = some r ↔ r ∈ rows ∧ r.id = id := by
  refine ⟨find_mem, ?_⟩
  rintro ⟨hr, rfl⟩
  cases hfind : find rows r.id with
  | none => exact absurd rfl (find_eq_none.mp hfind r hr)
  | some r' =>
    obtain ⟨hr', hid⟩ := find_mem hfind
    rw [List.inj_on_of_nodup_map hunique hr' hr hid]

theorem rowsAt_of_find_none (h : find rows id = none) : rowsAt rows id = [] := by
  rw [rowsAt, List.filter_eq_nil_iff]
  simpa using find_eq_none.mp h

theorem collect_rowsAt {f : Row ρ → Except MergeError (List (Row ρ))}
    (hf : ∀ r out, f r = .ok out → ∀ x ∈ out, x.id = r.id) {rows out : List (Row ρ)}
    (hunique : (rows.map Row.id).Nodup) (h : collect f rows = .ok out) (id : String) :
    (find rows id = none ∧ rowsAt out id = []) ∨ ∃ r, find rows id = some r ∧ f r = .ok (rowsAt out id) := by
  induction rows generalizing out with
  | nil =>
    cases h
    exact .inl ⟨rfl, rfl⟩
  | cons r rows ih =>
    rw [collect] at h
    obtain ⟨here, hhere, h⟩ := bind_ok.mp h
    obtain ⟨more, hmore, h⟩ := bind_ok.mp h
    cases h
    rw [List.map_cons, List.nodup_cons] at hunique
    have hrest := ih hunique.2 hmore
    rw [rowsAt_append]
    by_cases hid : r.id = id
    · have hnone : find rows id = none := by
        rw [find_eq_none]
        rintro r' hr' rfl
        exact hunique.1 (hid ▸ List.mem_map_of_mem hr')
      have hall : rowsAt here id = here := by
        rw [rowsAt, List.filter_eq_self]
        exact fun x hx => decide_eq_true ((hf r here hhere x hx).trans hid)
      rcases hrest with ⟨_, hempty⟩ | ⟨r', hfind, _⟩
      · rw [hempty, List.append_nil, hall]
        exact .inr ⟨r, List.find?_cons_of_pos (decide_eq_true hid), hhere⟩
      · rw [hnone] at hfind
        cases hfind
    · have hnothing : rowsAt here id = [] := by
        rw [rowsAt, List.filter_eq_nil_iff]
        intro x hx
        rw [decide_eq_true_eq, hf r here hhere x hx]
        exact hid
      have hskip : find (r :: rows) id = find rows id := List.find?_cons_of_neg (by simpa using hid)
      rw [hnothing, List.nil_append, hskip]
      exact hrest

variable [DecidableEq ρ] {base ours theirs : List (Row ρ)}

theorem mergeTheirs_id (t : Row ρ) (out : List (Row ρ)) (h : mergeTheirs base ours t = .ok out) :
    ∀ x ∈ out, x.id = t.id := by
  unfold mergeTheirs at h
  split at h
  · split at h
    · cases h
      simp
    · rename_i o ho
      have hid := (find_mem ho).2
      split at h <;> cases h <;> simp [hid]
  · split at h
    · cases h
    · rename_i value hpick
      cases h
      intro x hx
      rw [Option.mem_toList] at hx
      rcases ThreeWay.pick_eq_some hpick with rfl | rfl
      · exact (find_mem hx).2
      · cases hx
        rfl

theorem mergeOurs_id (o : Row ρ) (out : List (Row ρ)) (h : mergeOurs base theirs o = .ok out) :
    ∀ x ∈ out, x.id = o.id := by
  unfold mergeOurs at h
  split at h
  · cases h
    simp
  · split at h
    · cases h
      simp
    · split at h <;> cases h
      simp

inductive MergedAt : Option (Row ρ) → Option (Row ρ) → Option (Row ρ) → List (Row ρ) → Prop where
  | nowhere (b : Option (Row ρ)) : MergedAt b none none []
  | theirsAdd (t : Row ρ) : MergedAt none none (some t) [t]
  | sameAdd (t : Row ρ) : MergedAt none (some t) (some t) [t]
  | collision (o t : Row ρ) : o ≠ t → MergedAt none (some o) (some t) [t, o]
  | picked (b t : Row ρ) (o value : Option (Row ρ)) : ThreeWay.pick (some b) o (some t) = some value →
      MergedAt (some b) o (some t) value.toList
  | oursAdd (o : Row ρ) : MergedAt none (some o) none [o]
  | theirsDelete (b : Row ρ) : MergedAt (some b) (some b) none []

theorem mergeRows_at (hours : (ours.map Row.id).Nodup) (htheirs : (theirs.map Row.id).Nodup)
    {merged : List (Row ρ)} (h : mergeRows base ours theirs = .ok merged) (id : String) :
    MergedAt (find base id) (find ours id) (find theirs id) (rowsAt merged id) := by
  rw [mergeRows] at h
  obtain ⟨kept, hkept, h⟩ := bind_ok.mp h
  obtain ⟨added, hadded, h⟩ := bind_ok.mp h
  rw [← Except.ok.inj h, rowsAt_append]
  have hleft := collect_rowsAt mergeTheirs_id htheirs hkept id
  have hright := collect_rowsAt mergeOurs_id hours hadded id
  rcases hleft with ⟨hnone, hempty⟩ | ⟨t, ht, hout⟩
  · rw [hempty, List.nil_append, hnone]
    rcases hright with ⟨hnone', hempty'⟩ | ⟨o, ho, hout'⟩
    · rw [hempty', hnone']
      exact .nowhere _
    · rw [ho]
      have hid := (find_mem ho).2
      unfold mergeOurs at hout'
      rw [hid, hnone] at hout'
      simp only [Option.isSome_none, Bool.false_eq_true, if_false] at hout'
      split at hout'
      · rename_i hbase
        rw [hbase, ← Except.ok.inj hout']
        exact .oursAdd o
      · rename_i b hbase
        split at hout'
        · cases hout'
        · rename_i hsame
          rw [hbase, ← Except.ok.inj hout', not_not.mp hsame]
          exact .theirsDelete b
  · have hempty : rowsAt added id = [] := by
      rcases hright with ⟨_, hempty⟩ | ⟨o, ho, hout'⟩
      · exact hempty
      · have hid := (find_mem ho).2
        unfold mergeOurs at hout'
        rw [hid, ht] at hout'
        simp only [Option.isSome_some, if_true] at hout'
        exact (Except.ok.inj hout').symm
    have hid := (find_mem ht).2
    rw [hempty, List.append_nil, ht]
    unfold mergeTheirs at hout
    rw [hid] at hout
    split at hout
    · rename_i hbase
      rw [hbase]
      split at hout
      · rename_i hours'
        rw [hours', ← Except.ok.inj hout]
        exact .theirsAdd t
      · rename_i o ho
        rw [ho]
        split at hout
        · rename_i hne
          rw [← Except.ok.inj hout]
          exact .collision o t hne
        · rename_i hsame
          rw [← Except.ok.inj hout, not_not.mp hsame]
          exact .sameAdd t
    · rename_i b hbase
      rw [hbase]
      split at hout
      · cases hout
      · rename_i value hpick
        rw [← Except.ok.inj hout]
        exact .picked b t _ value hpick

end

end OwnerActions
end DarkFactory
