import Mathlib.Data.List.Nodup

/-!
# DarkFactory.Lib.Lookup

Lists of rows with a key, read as maps: the first row of a key is the one that counts.

* `get` — the row of a key.
* `put` — an assignment: the row takes the place of the one with its key, or comes last.
* `Unique` — no two rows with one key; then `get` says which rows there are (`get_eq_some`).
-/

namespace DarkFactory
namespace Lookup

section

variable {α κ : Type} [DecidableEq κ] (key : α → κ)

def get (rows : List α) (k : κ) : Option α := rows.find? fun r => decide (key r = k)

def put (rows : List α) (r : α) : List α :=
  if rows.any (fun r' => decide (key r' = key r)) then rows.map fun r' => if key r' = key r then r else r'
  else rows ++ [r]

def Unique (rows : List α) : Prop := (rows.map key).Nodup

variable {key}

variable {rows rows' : List α} {r : α}

theorem get_key {k : κ} (h : get key rows k = some r) : r ∈ rows ∧ key r = k :=
  ⟨List.mem_of_find?_eq_some h, of_decide_eq_true (List.find?_some h :)⟩

theorem get_eq_none {k : κ} : get key rows k = none ↔ ∀ r ∈ rows, key r ≠ k := by
  rw [get, List.find?_eq_none]
  simp

theorem get_cons (r : α) (rows : List α) (k : κ) :
    get key (r :: rows) k = if key r = k then some r else get key rows k := by
  rw [get, List.find?_cons]
  by_cases h : key r = k
  · rw [decide_eq_true h, if_pos h]
  · rw [decide_eq_false h, if_neg h]
    rfl

theorem get_append (rows rows' : List α) (k : κ) :
    get key (rows ++ rows') k = (get key rows k).or (get key rows' k) :=
  List.find?_append

theorem get_eq_some (hunique : Unique key rows) {k : κ} {r : α} :
    get key rows k = some r ↔ r ∈ rows ∧ key r = k := by
  refine ⟨get_key, ?_⟩
  rintro ⟨hr, rfl⟩
  cases hget : get key rows (key r) with
  | none => exact absurd rfl (get_eq_none.mp hget r hr)
  | some r' =>
    obtain ⟨hr', hkey⟩ := get_key hget
    rw [List.inj_on_of_nodup_map hunique hr' hr hkey]

theorem get_map {β : Type} {key' : β → κ} {f : α → β} (hf : ∀ r, key' (f r) = key r) (rows : List α) (k : κ) :
    get key' (rows.map f) k = (get key rows k).map f := by
  rw [get, get, List.find?_map]
  simp only [Function.comp_def, hf]

theorem get_filter (hunique : Unique key rows) (p : α → Bool) (k : κ) :
    get key (rows.filter p) k = (get key rows k).filter p := by
  have hunique' : Unique key (rows.filter p) := hunique.sublist (List.filter_sublist.map key)
  apply Option.ext
  intro r
  rw [Option.filter_eq_some_iff, get_eq_some hunique', get_eq_some hunique, List.mem_filter]
  constructor
  · rintro ⟨⟨hr, hp⟩, hkey⟩
    exact ⟨⟨hr, hkey⟩, hp⟩
  · rintro ⟨⟨hr, hkey⟩, hp⟩
    exact ⟨⟨hr, hp⟩, hkey⟩

theorem get_replace (rows : List α) (r : α) (k : κ) :
    get key (rows.map fun r' => if key r' = key r then r else r') k =
      if key r = k then (get key rows k).map fun _ => r else get key rows k := by
  have hkey : ∀ r', key (if key r' = key r then r else r') = key r' := by
    intro r'
    split
    · rename_i h
      exact h.symm
    · rfl
  rw [get_map hkey]
  cases hget : get key rows k with
  | none => split <;> rfl
  | some r' =>
    rw [Option.map_some, (get_key hget).2]
    by_cases h : key r = k
    · rw [if_pos h, if_pos h.symm]
      rfl
    · rw [if_neg h, if_neg (Ne.symm h)]

theorem get_insert (hnew : ∀ r' ∈ rows, key r' ≠ key r) (k : κ) :
    get key (rows ++ r :: rows') k = if key r = k then some r else get key (rows ++ rows') k := by
  rw [get_append, get_append, get_cons]
  split
  · rename_i h
    rw [← h, get_eq_none.mpr hnew]
    rfl
  · rfl

theorem any_key {k : κ} : rows.any (fun r => decide (key r = k)) = true ↔ ∃ r, get key rows k = some r := by
  rw [List.any_eq_true, ← Option.isSome_iff_exists, get, List.find?_isSome]

theorem not_any_key {k : κ} (h : ¬ rows.any (fun r => decide (key r = k)) = true) : ∀ r ∈ rows, key r ≠ k := by
  intro r hr hkey
  exact h (List.any_eq_true.mpr ⟨r, hr, decide_eq_true hkey⟩)

theorem get_put (rows : List α) (r : α) (k : κ) :
    get key (put key rows r) k = if key r = k then some r else get key rows k := by
  unfold put
  split
  · rename_i hany
    rw [get_replace]
    split
    · rename_i h
      obtain ⟨r', hr'⟩ := any_key.mp hany
      rw [← h, hr']
      rfl
    · rfl
  · rename_i hany
    rw [get_insert (not_any_key hany), List.append_nil]

theorem unique_replace (h : Unique key rows) (r : α) :
    Unique key (rows.map fun r' => if key r' = key r then r else r') := by
  have hkeys : (rows.map fun r' => if key r' = key r then r else r').map key = rows.map key := by
    rw [List.map_map]
    refine List.map_congr_left fun r' _ => ?_
    rw [Function.comp_apply]
    split
    · rename_i h'
      exact h'.symm
    · rfl
  rw [Unique, hkeys]
  exact h

omit [DecidableEq κ] in
theorem unique_insert (h : Unique key (rows ++ rows'))
    (hnew : ∀ r' ∈ rows ++ rows', key r' ≠ key r) : Unique key (rows ++ r :: rows') := by
  have hperm : ((rows ++ r :: rows').map key).Perm ((r :: (rows ++ rows')).map key) := List.perm_middle.map key
  rw [Unique, hperm.nodup_iff, List.map_cons, List.nodup_cons]
  refine ⟨?_, h⟩
  rw [List.mem_map]
  rintro ⟨r', hr', hkey⟩
  exact hnew r' hr' hkey

theorem unique_put (h : Unique key rows) (r : α) : Unique key (put key rows r) := by
  unfold put
  split
  · exact unique_replace h r
  · rename_i hany
    have hunique : Unique key (rows ++ []) := by
      rw [List.append_nil]
      exact h
    refine unique_insert hunique ?_
    rw [List.append_nil]
    exact not_any_key hany

theorem mem_put {r' : α} (h : r' ∈ put key rows r) : r' ∈ rows ∨ r' = r := by
  unfold put at h
  split at h
  · obtain ⟨row, hrow, heq⟩ := List.mem_map.mp h
    split at heq
    · exact Or.inr heq.symm
    · exact Or.inl (heq ▸ hrow)
  · exact (List.mem_append.mp h).imp_right List.mem_singleton.mp

theorem mem_foldl_put (h : r ∈ rows'.foldl (put key) rows) : r ∈ rows ∨ r ∈ rows' := by
  induction rows' generalizing rows with
  | nil => exact Or.inl h
  | cons r' rows' ih =>
    rcases ih h with hput | hrest
    · refine (mem_put hput).imp_right ?_
      rintro rfl
      exact List.mem_cons_self
    · exact Or.inr (List.mem_cons_of_mem _ hrest)

theorem put_new (hnew : ∀ r' ∈ rows, key r' ≠ key r) : put key rows r = rows ++ [r] := by
  unfold put
  rw [if_neg]
  rw [any_key]
  rintro ⟨r', hr'⟩
  exact hnew r' (get_key hr').1 (get_key hr').2

theorem foldl_put (h : Unique key (rows' ++ rows)) : rows.foldl (put key) rows' = rows' ++ rows := by
  induction rows generalizing rows' with
  | nil => exact (List.append_nil rows').symm
  | cons r rows ih =>
    have hnew : ∀ r' ∈ rows', key r' ≠ key r := by
      intro r' hr' hkey
      rw [Unique, List.map_append, List.nodup_append] at h
      exact h.2.2 (key r') (List.mem_map_of_mem hr') (key r) (List.mem_map_of_mem List.mem_cons_self) hkey
    rw [List.foldl_cons, put_new hnew, ih (by rw [List.append_assoc]; exact h), List.append_assoc]
    rfl

theorem map_put {β : Type} {key' : β → κ} {f : α → β} (hf : ∀ r, key' (f r) = key r) (rows : List α) (r : α) :
    (put key rows r).map f = put key' (rows.map f) (f r) := by
  unfold put
  rw [List.any_map]
  simp only [Function.comp_def, hf]
  split
  · rw [List.map_map, List.map_map]
    refine List.map_congr_left fun r' _ => ?_
    simp only [Function.comp_apply, hf]
    split <;> rfl
  · rw [List.map_append]
    rfl

theorem map_foldl_put {β : Type} {key' : β → κ} {f : α → β} (hf : ∀ r, key' (f r) = key r) (rows' rows : List α) :
    (rows'.foldl (put key) rows).map f = rows'.foldl (fun rows r => put key' rows (f r)) (rows.map f) := by
  induction rows' generalizing rows with
  | nil => rfl
  | cons r rows' ih => rw [List.foldl_cons, List.foldl_cons, ih, map_put hf]

theorem get_foldl {f : List α → α → List α} (combine : Option α → α → Option α)
    (hf : ∀ rows r k, get key (f rows r) k = if key r = k then combine (get key rows k) r else get key rows k)
    {rows' : List α} (hunique : Unique key rows') (rows : List α) (k : κ) :
    get key (rows'.foldl f rows) k = match get key rows' k with
      | some r => combine (get key rows k) r
      | none => get key rows k := by
  induction rows' generalizing rows with
  | nil => rfl
  | cons r rows' ih =>
    rw [Unique, List.map_cons, List.nodup_cons] at hunique
    rw [List.foldl_cons, ih hunique.2, get_cons, hf]
    by_cases h : key r = k
    · have hnone : get key rows' k = none := by
        rw [get_eq_none]
        rintro r' hr' rfl
        exact hunique.1 (h ▸ List.mem_map_of_mem hr')
      rw [hnone, if_pos h, if_pos h]
    · rw [if_neg h, if_neg h]

omit [DecidableEq κ] in
theorem unique_foldl {f : List α → α → List α} (hf : ∀ rows r, Unique key rows → Unique key (f rows r))
    (rows' : List α) {rows : List α} (h : Unique key rows) : Unique key (rows'.foldl f rows) := by
  induction rows' generalizing rows with
  | nil => exact h
  | cons r rows' ih => exact ih (hf rows r h)

end

end Lookup
end DarkFactory
