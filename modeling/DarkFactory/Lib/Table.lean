import Mathlib.Data.List.Nodup

/-!
# DarkFactory.Lib.Table

Relational tables with a primary key. A `Table key` is its rows in insertion order together with
the proof that no two of them have the same key, so a table that breaks its key cannot be built.

* `insert?` — `INSERT`, refused (`none`) when the key is taken.
* `insertIgnore` — `INSERT ... ON CONFLICT (key) DO NOTHING`.
* `update p f` — `UPDATE ... WHERE p`, for an `f` that keeps the key.
* `get?`, `select` — `SELECT` by key and by condition.
* `Mapped F t t'` — `t'` is what UPDATEs that change each row by `F` make of `t`.

Every statement is described by what it does to membership (`mem_update`, `mem_of_insert?`, ...)
and to lookups (`get?_update`, ...); proofs about a store use these and never the list of rows.
-/

namespace DarkFactory

@[ext] structure Table {κ α : Type} (key : α → κ) where
  rows : List α
  unique : (rows.map key).Nodup

namespace Table

section

variable {κ α : Type} {key : α → κ}

def empty : Table key := ⟨[], List.nodup_nil⟩

instance : Membership α (Table key) := ⟨fun t a => a ∈ t.rows⟩

variable {t : Table key} {a : α} {p q : α → Bool} {f : α → α}

theorem mem_def : a ∈ t ↔ a ∈ t.rows := Iff.rfl

instance {t : Table key} {p : α → Prop} [DecidablePred p] : Decidable (∀ a, a ∈ t → p a) :=
  inferInstanceAs (Decidable (∀ a ∈ t.rows, p a))

instance {t : Table key} {p : α → Prop} [DecidablePred p] : Decidable (∃ a, a ∈ t ∧ p a) :=
  inferInstanceAs (Decidable (∃ a ∈ t.rows, p a))

instance [DecidableEq α] {t : Table key} {a : α} : Decidable (a ∈ t) :=
  inferInstanceAs (Decidable (a ∈ t.rows))

@[simp] theorem not_mem_empty : ¬ a ∈ (empty : Table key) := List.not_mem_nil

theorem eq_of_key {b : α} (ha : a ∈ t) (hb : b ∈ t) (h : key a = key b) : a = b :=
  List.inj_on_of_nodup_map t.unique ha hb h

def select (t : Table key) (p : α → Bool) : List α := t.rows.filter p

@[simp] theorem mem_select : a ∈ t.select p ↔ a ∈ t ∧ p a = true := List.mem_filter

theorem select_nodup (t : Table key) (p : α → Bool) : ((t.select p).map key).Nodup :=
  t.unique.sublist (List.filter_sublist.map key)

def any (t : Table key) (p : α → Bool) : Bool := t.rows.any p

@[simp] theorem any_eq_true : t.any p = true ↔ ∃ a, a ∈ t ∧ p a = true := List.any_eq_true

@[simp] theorem any_eq_false : t.any p = false ↔ ∀ a, a ∈ t → p a = false := by
  rw [any, List.any_eq_false]
  simp [mem_def]

/-! ## UPDATE -/

def update (t : Table key) (p : α → Bool) (f : α → α)
    (h : ∀ a, key (f a) = key a := by intro _; rfl) : Table key :=
  ⟨t.rows.map fun a => if p a then f a else a, by
    have e : (key ∘ fun a => if p a then f a else a) = key := by
      funext a
      by_cases hp : p a = true <;> simp [hp, h]
    rw [List.map_map, e]
    exact t.unique⟩

theorem mem_update {h : ∀ a, key (f a) = key a}
    {b : α} : b ∈ t.update p f h ↔ ∃ a, a ∈ t ∧ (if p a then f a else a) = b := by
  simp [update, mem_def]

theorem mem_update_cases {h : ∀ a, key (f a) = key a} {b : α} (hb : b ∈ t.update p f h) :
    (b ∈ t ∧ p b = false) ∨ ∃ a, a ∈ t ∧ p a = true ∧ b = f a := by
  obtain ⟨a, ha, rfl⟩ := mem_update.mp hb
  cases hp : p a with
  | true => exact .inr ⟨a, ha, hp, by simp⟩
  | false => exact .inl (by simpa [hp] using ha)

theorem mem_update_of_pos {h : ∀ a, key (f a) = key a} (ha : a ∈ t) (hp : p a = true) : f a ∈ t.update p f h :=
  mem_update.mpr ⟨a, ha, by simp [hp]⟩

theorem mem_update_of_neg {h : ∀ a, key (f a) = key a} (ha : a ∈ t) (hp : p a = false) : a ∈ t.update p f h :=
  mem_update.mpr ⟨a, ha, by simp [hp]⟩

theorem select_update {h : ∀ a, key (f a) = key a} (hf : ∀ a, p a = true → q (f a) = false) :
    (t.update p f h).select q = t.select fun a => q a && !p a := by
  show (t.rows.map fun a => if p a then f a else a).filter q = t.rows.filter _
  induction t.rows with
  | nil => rfl
  | cons a rows ih =>
    cases hp : p a with
    | true => simp [hp, hf a hp, ih]
    | false => cases hq : q a <;> simp [hp, hq, ih]

/-! ## Equal updates -/

theorem update_eq_iff {g : α → α} {hf : ∀ a, key (f a) = key a} {hg : ∀ a, key (g a) = key a} :
    t.update p f hf = t.update q g hg ↔ ∀ a, a ∈ t → (if p a then f a else a) = if q a then g a else a := by
  rw [Table.ext_iff]
  exact List.map_inj_left

theorem update_congr {hf : ∀ a, key (f a) = key a}
    (h : ∀ a, a ∈ t → p a = q a) : t.update p f hf = t.update q f hf := by
  rw [update_eq_iff]
  intro a ha
  rw [h a ha]

theorem update_eq_self_iff {hf : ∀ a, key (f a) = key a} :
    t.update p f hf = t ↔ ∀ a, a ∈ t → p a = true → f a = a := by
  rw [Table.ext_iff]
  show t.rows.map (fun a => if p a then f a else a) = t.rows ↔ _
  have hid : (t.rows.map fun a => if p a then f a else a) = t.rows.map id ↔ _ := List.map_inj_left
  rw [List.map_id] at hid
  rw [hid]
  simp only [id, ite_eq_right_iff]
  rfl

theorem update_update {hf : ∀ a, key (f a) = key a} (hff : ∀ a, f (f a) = f a) (hq : ∀ a, q (f a) = q a) :
    (t.update p f hf).update q f hf = t.update (fun a => p a || q a) f hf := by
  apply Table.ext
  show (t.rows.map _).map _ = t.rows.map _
  rw [List.map_map]
  apply List.map_congr_left
  intro a _
  cases hp : p a <;> cases hqa : q a <;> simp [hp, hq, hqa, hff]

/-- The row of the updated table with the key of `a`. -/
theorem eq_of_mem_update {b : α} (ha : a ∈ t)
    (h : ∀ a, key (f a) = key a) (hb : b ∈ t.update p f h) (hk : key b = key a) :
    b = if p a then f a else a := by
  have ha' : (if p a then f a else a) ∈ t.update p f h := mem_update.mpr ⟨a, ha, rfl⟩
  refine eq_of_key hb ha' (hk.trans ?_)
  split
  · exact (h a).symm
  · rfl

/-! ## Mapped tables -/

/-- `t'` has the rows of `t`, each of them changed by `F`, which keeps their keys. -/
structure Mapped (F : α → α) (t t' : Table key) : Prop where
  rows : t'.rows = t.rows.map F
  key_eq : ∀ a, a ∈ t → key (F a) = key a

theorem mapped_update {h : ∀ a, key (f a) = key a} :
    Mapped (fun a => if p a then f a else a) t (t.update p f h) where
  rows := rfl
  key_eq a _ := by
    cases hp : p a
    · simp
    · simp [h]

namespace Mapped

variable {F G : α → α} {t t' t'' : Table key}

theorem refl : Mapped (fun a => a) t t := ⟨(List.map_id _).symm, fun _ _ => rfl⟩

theorem mem (h : Mapped F t t') {b : α} (hb : b ∈ t') : ∃ a, a ∈ t ∧ F a = b := by
  rw [mem_def, h.rows, List.mem_map] at hb
  exact hb

theorem mem_of (h : Mapped F t t') {a : α} (ha : a ∈ t) : F a ∈ t' := by
  rw [mem_def, h.rows, List.mem_map]
  exact ⟨a, ha, rfl⟩

theorem trans (h₁ : Mapped F t t') (h₂ : Mapped G t' t'') : Mapped (fun a => G (F a)) t t'' where
  rows := by
    rw [h₂.rows, h₁.rows, List.map_map]
    rfl
  key_eq a ha := (h₂.key_eq (F a) (h₁.mem_of ha)).trans (h₁.key_eq a ha)

theorem congr (h : Mapped F t t') (hF : ∀ a, a ∈ t → F a = G a) : Mapped G t t' where
  rows := by
    rw [h.rows]
    exact List.map_congr_left hF
  key_eq a ha := hF a ha ▸ h.key_eq a ha

theorem select (h : Mapped F t t') {p q : α → Bool} (hq : ∀ a, a ∈ t → q (F a) = p a) :
    t'.select q = (t.select p).map F := by
  unfold Table.select
  rw [h.rows, List.filter_map]
  congr 1
  exact List.filter_congr hq

theorem length_select_le (h : Mapped F t t') {p q : α → Bool} (hq : ∀ a, a ∈ t → q (F a) = true → p a = true) :
    (t'.select q).length ≤ (t.select p).length := by
  unfold Table.select
  rw [h.rows, ← List.countP_eq_length_filter, ← List.countP_eq_length_filter, List.countP_map]
  exact List.countP_mono_left hq

/-- The row of `t'` with the key of `a`. -/
theorem eq_of_key (h : Mapped F t t') {a b : α} (ha : a ∈ t) (hb : b ∈ t') (hk : key b = key a) : b = F a :=
  Table.eq_of_key hb (h.mem_of ha) (hk.trans (h.key_eq a ha).symm)

end Mapped

end

section

variable {κ α : Type} {key : α → κ} [DecidableEq κ]

def get? (t : Table key) (k : κ) : Option α := t.rows.find? fun a => decide (key a = k)

variable {t t' : Table key} {a : α}

theorem get?_eq_some {k : κ} : t.get? k = some a ↔ a ∈ t ∧ key a = k := by
  constructor
  · intro h
    exact ⟨List.mem_of_find?_eq_some h, by simpa using List.find?_some h⟩
  · rintro ⟨ha, rfl⟩
    cases h : t.get? (key a) with
    | none => simpa using List.find?_eq_none.mp h a ha
    | some b =>
      have hb : key b = key a := by simpa using List.find?_some h
      rw [eq_of_key (List.mem_of_find?_eq_some h) ha hb]

theorem get?_eq_none {k : κ} : t.get? k = none ↔ ∀ a, a ∈ t → key a ≠ k := by
  rw [get?, List.find?_eq_none]
  simp [mem_def]

theorem get?_of_mem (h : a ∈ t) : t.get? (key a) = some a :=
  get?_eq_some.mpr ⟨h, rfl⟩

theorem mem_of_get? {k : κ} (h : t.get? k = some a) : a ∈ t :=
  (get?_eq_some.mp h).1

theorem key_of_get? {k : κ} (h : t.get? k = some a) : key a = k :=
  (get?_eq_some.mp h).2

/-! ## One UPDATE for each row of a list -/

/-- `UPDATE ... WHERE key = ?` for each row of `l`, by an idempotent `f`, is one UPDATE. -/
theorem foldl_update_key {f : α → α} {hf : ∀ a, key (f a) = key a} (hff : ∀ a, f (f a) = f a)
    (l : List α) (t : Table key) :
    l.foldl (fun t a => t.update (fun b => decide (key b = key a)) f hf) t =
      t.update (fun b => l.any fun a => decide (key b = key a)) f hf := by
  induction l generalizing t with
  | nil =>
    rw [List.foldl_nil, eq_comm, update_eq_self_iff]
    intro a _ ha
    exact absurd ha Bool.false_ne_true
  | cons a l ih =>
    rw [List.foldl_cons, ih, update_update hff]
    · rfl
    · intro b
      simp only [hf]

theorem foldl_update_select {f : α → α} {hf : ∀ a, key (f a) = key a} (hff : ∀ a, f (f a) = f a)
    (t : Table key) (p : α → Bool) :
    (t.select p).foldl (fun t a => t.update (fun b => decide (key b = key a)) f hf) t = t.update p f hf := by
  rw [foldl_update_key hff]
  apply update_congr
  intro b hb
  rw [Bool.eq_iff_iff, List.any_eq_true]
  constructor
  · rintro ⟨a, ha, hk⟩
    obtain ⟨hat, hp⟩ := mem_select.mp ha
    exact eq_of_key hb hat (of_decide_eq_true hk) ▸ hp
  · intro hp
    exact ⟨b, mem_select.mpr ⟨hb, hp⟩, decide_eq_true rfl⟩

namespace Mapped

variable {F : α → α} {t t' : Table key}

theorem get? (h : Mapped F t t') (k : κ) : t'.get? k = (t.get? k).map F := by
  cases hk : t.get? k with
  | none =>
    rw [Option.map_none, get?_eq_none]
    rw [get?_eq_none] at hk
    intro b hb
    obtain ⟨a, ha, rfl⟩ := h.mem hb
    rw [h.key_eq a ha]
    exact hk a ha
  | some a =>
    obtain ⟨ha, rfl⟩ := get?_eq_some.mp hk
    rw [Option.map_some, get?_eq_some]
    exact ⟨h.mem_of ha, h.key_eq a ha⟩

end Mapped

theorem get?_update {p : α → Bool} {f : α → α} {h : ∀ a, key (f a) = key a}
    (k : κ) : (t.update p f h).get? k = (t.get? k).map fun a => if p a then f a else a :=
  (mapped_update (h := h)).get? k

/-! ## INSERT -/

def insert? (t : Table key) (a : α) : Option (Table key) :=
  if h : key a ∈ t.rows.map key then none
  else some ⟨t.rows ++ [a], by
    rw [List.map_append, List.nodup_append]
    refine ⟨t.unique, List.nodup_singleton _, ?_⟩
    intro x hx y hy
    rw [List.map_cons, List.map_nil, List.mem_singleton] at hy
    rintro rfl
    exact h (hy ▸ hx)⟩

def insertIgnore (t : Table key) (a : α) : Table key := (t.insert? a).getD t

theorem insert?_eq_none : t.insert? a = none ↔ t.get? (key a) ≠ none := by
  unfold insert?
  split
  · rename_i h
    obtain ⟨b, hb, hk⟩ := List.mem_map.mp h
    simp only [true_iff]
    intro hn
    exact get?_eq_none.mp hn b hb hk
  · rename_i h
    simp only [reduceCtorEq, ne_eq, false_iff, not_not]
    rw [get?_eq_none]
    intro b hb hk
    exact h (List.mem_map.mpr ⟨b, hb, hk⟩)

theorem insert?_isSome (h : t.get? (key a) = none) : ∃ t', t.insert? a = some t' := by
  cases e : t.insert? a with
  | none => exact absurd h (insert?_eq_none.mp e)
  | some t' => exact ⟨t', rfl⟩

theorem insert?_fresh (h : t.insert? a = some t') : t.get? (key a) = none := by
  by_contra hn
  rw [insert?_eq_none.mpr hn] at h
  cases h

theorem rows_of_insert? (h : t.insert? a = some t') : t'.rows = t.rows ++ [a] := by
  unfold insert? at h
  split at h
  · cases h
  · cases h; rfl

theorem length_select_insert? {p : α → Bool} (h : t.insert? a = some t') (hp : p a = true) :
    (t'.select p).length = (t.select p).length + 1 := by
  unfold select
  rw [rows_of_insert? h, List.filter_append, List.length_append]
  simp [hp]

theorem mem_of_insert? {b : α} (h : t.insert? a = some t') : b ∈ t' ↔ b ∈ t ∨ b = a := by
  rw [mem_def, rows_of_insert? h, List.mem_append, List.mem_singleton]
  rfl

theorem get?_of_insert? (h : t.insert? a = some t') (k : κ) :
    t'.get? k = if key a = k then some a else t.get? k := by
  have hf := get?_eq_none.mp (insert?_fresh h)
  split
  · rename_i hk
    exact get?_eq_some.mpr ⟨(mem_of_insert? h).mpr (.inr rfl), hk⟩
  · rename_i hk
    cases e : t.get? k with
    | none =>
      rw [get?_eq_none]
      intro b hb
      rcases (mem_of_insert? h).mp hb with hb | rfl
      · exact get?_eq_none.mp e b hb
      · exact hk
    | some b =>
      obtain ⟨hb, rfl⟩ := get?_eq_some.mp e
      exact get?_eq_some.mpr ⟨(mem_of_insert? h).mpr (.inl hb), rfl⟩

theorem mem_insertIgnore {b : α} : b ∈ t.insertIgnore a ↔ b ∈ t ∨ (b = a ∧ t.get? (key a) = none) := by
  unfold insertIgnore
  cases h : t.insert? a with
  | none =>
    have hn := insert?_eq_none.mp h
    simp [hn]
  | some t' =>
    rw [Option.getD_some, mem_of_insert? h]
    simp [insert?_fresh h]

theorem get?_insertIgnore (k : κ) :
    (t.insertIgnore a).get? k = if key a = k then some ((t.get? k).getD a) else t.get? k := by
  unfold insertIgnore
  cases h : t.insert? a with
  | none =>
    have hn := insert?_eq_none.mp h
    rw [Option.getD_none]
    split
    · rename_i hk
      subst hk
      cases e : t.get? (key a) with
      | none => exact absurd e hn
      | some b => rfl
    · rfl
  | some t' =>
    rw [Option.getD_some, get?_of_insert? h]
    split
    · rename_i hk
      subst hk
      rw [insert?_fresh h]
      rfl
    · rfl

end

end Table

end DarkFactory
