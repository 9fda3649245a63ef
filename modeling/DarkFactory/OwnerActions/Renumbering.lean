import DarkFactory.OwnerActions.MergeSpec

/-!
# DarkFactory.OwnerActions.Renumbering

`renumber_duplicate_owner_actions` on rows that all have ids.

* `renumberedRow` — what becomes of a row: the one that is kept of its id stays, any other gets a fresh id.
* `renumbered_unique` — the ids of the result are unique.
-/

namespace DarkFactory
namespace OwnerActions

theorem sequentialNumber_freshId (n : Nat) : sequentialNumber (freshId n) = some n := by
  have htext : (freshId n).toList = "OA-".toList ++ (Text.decimal 3 n).toList := String.toList_append
  rw [sequentialNumber, htext, Text.afterList_append, Option.bind_some, Text.parseDigits_decimal]
  rfl

theorem freshId_injective {m n : Nat} (h : freshId m = freshId n) : m = n := by
  have hnumber := congrArg sequentialNumber h
  rw [sequentialNumber_freshId, sequentialNumber_freshId] at hnumber
  exact Option.some.inj hnumber

theorem freshId_ne_empty (n : Nat) : freshId n ≠ "" := by
  intro h
  have hnumber := congrArg sequentialNumber h
  rw [sequentialNumber_freshId] at hnumber
  cases hnumber

variable {used : List Nat}

theorem le_max {n : Nat} (h : n ∈ used) : n ≤ used.foldr max 0 := by
  induction used with
  | nil => cases h
  | cons m used ih =>
    rw [List.foldr_cons]
    rcases List.mem_cons.mp h with rfl | h
    · omega
    · have hle := ih h
      omega

theorem lt_nextNumber {n : Nat} (h : n ∈ used) : n < nextNumber used :=
  Nat.lt_succ_of_le (le_max h)

theorem mem_assign {indices : List Nat} {p : Nat × Nat} (h : p ∈ assign used indices) :
    p.1 ∈ indices ∧ ∀ n ∈ used, n < p.2 := by
  induction indices generalizing used with
  | nil => cases h
  | cons index indices ih =>
    rcases List.mem_cons.mp h with rfl | h
    · exact ⟨List.mem_cons_self, fun n hn => lt_nextNumber hn⟩
    · obtain ⟨hindex, hnumber⟩ := ih h
      exact ⟨List.mem_cons_of_mem _ hindex, fun n hn => hnumber n (List.mem_cons_of_mem _ hn)⟩

theorem assign_injective {indices : List Nat} {p q : Nat × Nat} (hp : p ∈ assign used indices)
    (hq : q ∈ assign used indices) (h : p.2 = q.2) : p = q := by
  induction indices generalizing used with
  | nil => cases hp
  | cons index indices ih =>
    rcases List.mem_cons.mp hp with rfl | hp <;> rcases List.mem_cons.mp hq with rfl | hq
    · rfl
    · have hlt := (mem_assign hq).2 (nextNumber used) List.mem_cons_self
      simp only at h
      omega
    · have hlt := (mem_assign hp).2 (nextNumber used) List.mem_cons_self
      simp only at h
      omega
    · exact ih hp hq

theorem assign_complete (used : List Nat) {indices : List Nat} {index : Nat} (h : index ∈ indices) :
    ∃ n, (index, n) ∈ assign used indices := by
  induction indices generalizing used with
  | nil => cases h
  | cons first indices ih =>
    rcases List.mem_cons.mp h with rfl | h
    · exact ⟨_, List.mem_cons_self⟩
    · obtain ⟨n, hn⟩ := ih (nextNumber used :: used) h
      exact ⟨n, List.mem_cons_of_mem _ hn⟩

theorem numberOf_mem {assigned : List (Nat × Nat)} {index n : Nat} (h : numberOf assigned index = some n) :
    (index, n) ∈ assigned := by
  rw [numberOf, Option.map_eq_some_iff] at h
  obtain ⟨p, hp, rfl⟩ := h
  have hindex : p.1 = index := of_decide_eq_true (List.find?_some hp :)
  exact hindex ▸ List.mem_of_find?_eq_some hp

theorem numberOf_eq_none {assigned : List (Nat × Nat)} {index : Nat} :
    numberOf assigned index = none ↔ ∀ p ∈ assigned, p.1 ≠ index := by
  rw [numberOf, Option.map_eq_none_iff, List.find?_eq_none]
  simp

section

variable {ρ : Type}

variable {rows remote : List (Row ρ)}

theorem mem_groupOf (hids : ∀ r ∈ rows, r.id ≠ "") {id : String} {index : Nat} :
    index ∈ groupOf (rows.map Item.row) id ↔ ∃ r, rows[index]? = some r ∧ r.id = id := by
  rw [groupOf, List.mem_filter, List.mem_range, decide_eq_true_eq, List.length_map, List.getElem?_map]
  constructor
  · rintro ⟨hindex, hkey⟩
    rw [List.getElem?_eq_getElem hindex, Option.map_some, Option.bind_some, Item.key,
      if_neg (hids _ (List.getElem_mem hindex))] at hkey
    exact ⟨_, List.getElem?_eq_getElem hindex, Option.some.inj hkey⟩
  · rintro ⟨r, hr, rfl⟩
    obtain ⟨hindex, rfl⟩ := List.getElem?_eq_some_iff.mp hr
    refine ⟨hindex, ?_⟩
    rw [hr, Option.map_some, Option.bind_some, Item.key, if_neg (hids _ (List.getElem_mem hindex))]

theorem two_le_length {l : List Nat} {i j : Nat} (hi : i ∈ l) (hj : j ∈ l) (hne : i ≠ j) : 2 ≤ l.length := by
  match l, hi, hj with
  | [a], hi, hj => exact absurd ((List.mem_singleton.mp hi).trans (List.mem_singleton.mp hj).symm) hne
  | a :: b :: l, _, _ =>
    rw [List.length_cons, List.length_cons]
    omega

variable [DecidableEq ρ]

theorem keepIndex_mem {items : List (Item ρ)} (remote : List (Row ρ)) {id : String} {index : Nat}
    (h : index ∈ groupOf items id) : keepIndex items remote id ∈ groupOf items id := by
  have hfirst : (groupOf items id).headD 0 ∈ groupOf items id := by
    cases hgroup : groupOf items id with
    | nil =>
      rw [hgroup] at h
      cases h
    | cons first rest => exact List.mem_cons_self
  unfold keepIndex
  dsimp only
  split
  · exact hfirst
  · rename_i r _
    cases hfind : (groupOf items id).find? fun index => decide (items[index]? = some (.row r)) with
    | none => exact hfirst
    | some kept => exact List.mem_of_find?_eq_some hfind

theorem keepIndex_remote {items : List (Item ρ)} {id : String} {index : Nat} {t : Row ρ}
    (h : index ∈ groupOf items id) (hremote : find remote id = some t) (ht : items[index]? = some (.row t)) :
    items[keepIndex items remote id]? = some (.row t) := by
  unfold keepIndex
  rw [hremote]
  dsimp only
  cases hfind : (groupOf items id).find? fun index => decide (items[index]? = some (.row t)) with
  | none => exact absurd (decide_eq_true ht) (List.find?_eq_none.mp hfind index h)
  | some kept => exact of_decide_eq_true (List.find?_some hfind :)

theorem mem_duplicates (remote : List (Row ρ)) (hids : ∀ r ∈ rows, r.id ≠ "") {index : Nat} :
    index ∈ duplicates (rows.map Item.row) remote ↔
      ∃ r, rows[index]? = some r ∧ index ≠ keepIndex (rows.map Item.row) remote r.id := by
  rw [duplicates, List.mem_flatMap]
  constructor
  · rintro ⟨id, _, hindex⟩
    split at hindex
    · cases hindex
    · rw [List.mem_filter, decide_eq_true_eq] at hindex
      obtain ⟨r, hr, rfl⟩ := (mem_groupOf hids).mp hindex.1
      exact ⟨r, hr, hindex.2⟩
  · rintro ⟨r, hr, hne⟩
    have hindex : index ∈ groupOf (rows.map Item.row) r.id := (mem_groupOf hids).mpr ⟨r, hr, rfl⟩
    refine ⟨r.id, ?_, ?_⟩
    · rw [groupIds, List.mem_eraseDups, List.mem_filterMap]
      exact ⟨.row r, List.mem_map_of_mem (List.mem_of_getElem? hr), if_neg (hids r (List.mem_of_getElem? hr))⟩
    · have hlength := two_le_length hindex (keepIndex_mem remote hindex) hne
      rw [if_neg (by omega), List.mem_filter]
      exact ⟨hindex, decide_eq_true hne⟩

def renumberedRow (rows remote : List (Row ρ)) (index : Nat) (r : Row ρ) : Row ρ :=
  match numberOf (assign (usedNumbers (rows.map Item.row) remote) (duplicates (rows.map Item.row) remote)) index with
  | some n => r.withId (freshId n)
  | none => r

def renumberedRows (rows remote : List (Row ρ)) : List (Row ρ) := rows.mapIdx (renumberedRow rows remote)

theorem renumbered_rows (rows remote : List (Row ρ)) :
    renumbered (rows.map Item.row) remote = (renumberedRows rows remote).map Item.row := by
  apply List.ext_getElem?
  intro index
  rw [renumbered, renumberedRows, List.getElem?_mapIdx, List.getElem?_map, List.getElem?_map, List.getElem?_mapIdx,
    Option.map_map, Option.map_map]
  congr 1
  funext r
  simp only [Function.comp_apply, renumberedRow]
  cases numberOf (assign (usedNumbers (rows.map Item.row) remote) (duplicates (rows.map Item.row) remote)) index <;> rfl

theorem getElem?_renumberedRows (index : Nat) :
    (renumberedRows rows remote)[index]? = rows[index]?.map (renumberedRow rows remote index) := by
  rw [renumberedRows, List.getElem?_mapIdx]

theorem renumberedRow_kept (hids : ∀ r ∈ rows, r.id ≠ "") {index : Nat} {r : Row ρ}
    (hr : rows[index]? = some r) (hkeep : index = keepIndex (rows.map Item.row) remote r.id) :
    renumberedRow rows remote index r = r := by
  unfold renumberedRow
  rw [numberOf_eq_none.mpr]
  intro p hp hindex
  obtain ⟨r', hr', hne⟩ := (mem_duplicates remote hids).mp (mem_assign hp).1
  rw [hindex] at hr' hne
  obtain rfl := Option.some.inj (hr'.symm.trans hr)
  exact hne hkeep

theorem renumberedRow_fresh (hids : ∀ r ∈ rows, r.id ≠ "") {index : Nat} {r : Row ρ}
    (hr : rows[index]? = some r) (hne : index ≠ keepIndex (rows.map Item.row) remote r.id) :
    ∃ n, renumberedRow rows remote index r = r.withId (freshId n) ∧
      (index, n) ∈ assign (usedNumbers (rows.map Item.row) remote) (duplicates (rows.map Item.row) remote) ∧
      (∀ r' ∈ rows, r'.id ≠ freshId n) ∧ ∀ t ∈ remote, t.id ≠ freshId n := by
  obtain ⟨n', hn'⟩ := assign_complete (usedNumbers (rows.map Item.row) remote)
    ((mem_duplicates remote hids).mpr ⟨r, hr, hne⟩)
  cases hnumber : numberOf (assign (usedNumbers (rows.map Item.row) remote)
      (duplicates (rows.map Item.row) remote)) index with
  | none => exact absurd rfl (numberOf_eq_none.mp hnumber _ hn')
  | some n =>
    have hmem := numberOf_mem hnumber
    have hunused : ∀ id, id ∈ groupIds (rows.map Item.row) ++ remote.map Row.id → id ≠ freshId n := by
      rintro id hid rfl
      have hused : n ∈ usedNumbers (rows.map Item.row) remote :=
        List.mem_filterMap.mpr ⟨_, hid, sequentialNumber_freshId n⟩
      exact Nat.lt_irrefl n ((mem_assign hmem).2 n hused)
    refine ⟨n, ?_, hmem, fun r' hr' => hunused _ (List.mem_append_left _ ?_), fun t ht =>
      hunused _ (List.mem_append_right _ (List.mem_map_of_mem ht))⟩
    · unfold renumberedRow
      rw [hnumber]
    · rw [groupIds, List.mem_eraseDups, List.mem_filterMap]
      exact ⟨.row r', List.mem_map_of_mem hr', if_neg (hids r' hr')⟩

theorem renumbered_unique (hids : ∀ r ∈ rows, r.id ≠ "") {i j : Nat} {r s : Row ρ}
    (hi : rows[i]? = some r) (hj : rows[j]? = some s)
    (h : (renumberedRow rows remote i r).id = (renumberedRow rows remote j s).id) : i = j := by
  by_cases hkeep : i = keepIndex (rows.map Item.row) remote r.id
  · rw [renumberedRow_kept hids hi hkeep] at h
    by_cases hkeep' : j = keepIndex (rows.map Item.row) remote s.id
    · rw [renumberedRow_kept hids hj hkeep'] at h
      rw [hkeep, hkeep', h]
    · obtain ⟨n, hrow, _, hunused, _⟩ := renumberedRow_fresh hids hj hkeep'
      rw [hrow] at h
      exact absurd h (hunused r (List.mem_of_getElem? hi))
  · obtain ⟨m, hrow, hm, hunused, _⟩ := renumberedRow_fresh hids hi hkeep
    rw [hrow] at h
    by_cases hkeep' : j = keepIndex (rows.map Item.row) remote s.id
    · rw [renumberedRow_kept hids hj hkeep'] at h
      exact absurd h.symm (hunused s (List.mem_of_getElem? hj))
    · obtain ⟨n, hrow', hn, _, _⟩ := renumberedRow_fresh hids hj hkeep'
      rw [hrow'] at h
      have hpair := assign_injective hm hn (freshId_injective h)
      exact congrArg Prod.fst hpair

end

end OwnerActions
end DarkFactory
