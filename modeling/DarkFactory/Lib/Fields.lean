import Mathlib.Data.List.Basic

/-!
# DarkFactory.Lib.Fields

Streams of fields, each one ended by a separator, and their reading by splitting at the separator and
dropping what is empty.

* `fields_terminated` — the fields of a stream that is whole.
* `fields_take_le`, `fields_take_gt` — a stream that is cut off inside its first field, and after it.
-/

namespace DarkFactory
namespace Fields

section

variable {α : Type} {sep : α}

def terminated (sep : α) (fs : List (List α)) : List α := fs.flatMap fun f => f ++ [sep]

/-- A field that reads back: it is not empty and does not hold the separator. -/
def IsField (sep : α) (f : List α) : Prop := f ≠ [] ∧ sep ∉ f

@[simp] theorem terminated_nil : terminated sep [] = [] := rfl

theorem terminated_cons (f : List α) (fs : List (List α)) :
    terminated sep (f :: fs) = f ++ sep :: terminated sep fs := by
  simp [terminated]

variable {f : List α}

theorem IsField.take (h : IsField sep f) {k : Nat} (hk : 0 < k) : IsField sep (f.take k) := by
  refine ⟨fun hnil => ?_, fun hmem => h.2 (List.mem_of_mem_take hmem)⟩
  rw [List.take_eq_nil_iff] at hnil
  rcases hnil with h0 | hnil
  · omega
  · exact h.1 hnil

variable [DecidableEq α]

/-- The pieces between separators that are not empty. -/
def fields (sep : α) (s : List α) : List (List α) := (s.splitOn sep).filter fun f => !f.isEmpty

instance (sep : α) (f : List α) : Decidable (IsField sep f) := inferInstanceAs (Decidable (_ ∧ _))

@[simp] theorem fields_nil : fields sep [] = [] := rfl

theorem fields_of_isField (h : IsField sep f) : fields sep f = [f] := by
  rw [fields, List.splitOn_eq_singleton h.2]
  simp [h.1]

theorem fields_append (h : IsField sep f) (rest : List α) :
    fields sep (f ++ sep :: rest) = f :: fields sep rest := by
  rw [fields, List.splitOn_append_cons_self_of_not_mem h.2, List.filter_cons_of_pos]
  · rfl
  · simp [h.1]

theorem fields_terminated {fs : List (List α)} (h : ∀ f ∈ fs, IsField sep f) (rest : List α) :
    fields sep (terminated sep fs ++ rest) = fs ++ fields sep rest := by
  induction fs with
  | nil => rfl
  | cons f fs ih =>
    rw [List.forall_mem_cons] at h
    rw [terminated_cons, List.append_assoc, List.cons_append, fields_append h.1, ih h.2, List.cons_append]

theorem fields_take_le (h : IsField sep f) (fs : List (List α)) {k : Nat} (hk : 0 < k)
    (hle : k ≤ f.length) : fields sep ((terminated sep (f :: fs)).take k) = [f.take k] := by
  rw [terminated_cons, List.take_append_of_le_length hle]
  exact fields_of_isField (h.take hk)

theorem fields_take_gt (h : IsField sep f) (fs : List (List α)) (j : Nat) :
    fields sep ((terminated sep (f :: fs)).take (f.length + 1 + j)) =
      f :: fields sep ((terminated sep fs).take j) := by
  have hsplit : (terminated sep (f :: fs)).take (f.length + 1 + j) = f ++ sep :: (terminated sep fs).take j := by
    rw [terminated_cons, Nat.add_assoc, List.take_length_add_append, Nat.add_comm 1 j, List.take_succ_cons]
  rw [hsplit, fields_append h]

end

end Fields
end DarkFactory
