import DarkFactory.OwnerActions.Renumbering

/-!
# DarkFactory.OwnerActions.Places

The merged rows, renumbered against the rows of theirs.

* `Collides` — a row that ours has added under an id that theirs has given to another row.
* `Merged` — the merged rows, each from what the documents have at its id.
* `placeOf` — where a merged row is after the renumbering: at its id, unless it collides (`place_cases`).
-/

namespace DarkFactory
namespace OwnerActions

open Calls

section

variable {ρ : Type}

def rowsOf (raw : Raw ρ) : List (Row ρ) := remoteRows (some raw)

structure UniqueIds (rows : List (Row ρ)) : Prop where
  unique : (rows.map Row.id).Nodup
  given : ∀ r ∈ rows, r.id ≠ ""

variable {rows : List (Row ρ)} {b o t : Option (Row ρ)}

theorem byIdFrom_unique {items : List (Item ρ)}
    (hrows : items.filterMap (fun | .row r => some r | .other _ => none) = rows) (hids : UniqueIds rows)
    {seen : List String} (hseen : ∀ r ∈ rows, r.id ∉ seen) : byIdFrom seen items = rows := by
  induction items generalizing rows seen with
  | nil => exact hrows
  | cons item items ih =>
    cases item with
    | other value => exact ih hrows hids hseen
    | row r =>
      rw [List.filterMap_cons] at hrows
      subst hrows
      obtain ⟨hunique, hgiven⟩ := hids
      rw [List.map_cons, List.nodup_cons] at hunique
      have hr := hgiven r List.mem_cons_self
      have hnew := hseen r List.mem_cons_self
      rw [byIdFrom, if_neg (by rintro (h | h) <;> contradiction)]
      congr 1
      refine ih rfl ⟨hunique.2, fun r' hr' => hgiven r' (List.mem_cons_of_mem _ hr')⟩ ?_
      intro r' hr' hmem
      rcases List.mem_cons.mp hmem with hid | hmem
      · exact hunique.1 (hid ▸ List.mem_map_of_mem hr')
      · exact hseen r' (List.mem_cons_of_mem _ hr') hmem

theorem byId_of_parse {label : String} {raw : Raw ρ} {d : Document ρ} (h : parse label raw = .ok d)
    (hids : UniqueIds (rowsOf raw)) : byId d = rowsOf raw := by
  cases raw with
  | blank =>
    cases h
    rfl
  | document d' =>
    cases h
    exact byIdFrom_unique rfl hids (fun _ _ => List.not_mem_nil)
  | malformed exc => cases h
  | scalar => cases h
  | list items => cases h
  | otherActions => cases h

theorem rowsOf_rows (rows : List (Row ρ)) (fields : List (String × ρ)) :
    rowsOf (.document { actions := some (rows.map .row), fields := fields }) = rows := by
  unfold rowsOf remoteRows
  simp only [Option.map_some, Option.getD_some, extractRows, List.filterMap_map]
  exact List.filterMap_some

def Added (base ours : List (Row ρ)) (o : Row ρ) : Prop := o ∈ ours ∧ find base o.id = none

def Collides (theirs : List (Row ρ)) (o : Row ρ) : Prop := ∃ t, find theirs o.id = some t ∧ o ≠ t

variable [DecidableEq ρ] {base ours theirs merged : List (Row ρ)}

structure Merged (base ours theirs merged : List (Row ρ)) : Prop where
  ours_unique : UniqueIds ours
  theirs_unique : UniqueIds theirs
  at_id : ∀ id, MergedAt (find base id) (find ours id) (find theirs id) (rowsAt merged id)

theorem mergedAt_source (h : MergedAt b o t rows) {r : Row ρ} (hr : r ∈ rows) : o = some r ∨ t = some r := by
  cases h with
  | nowhere | theirsDelete => cases hr
  | theirsAdd t | sameAdd t => exact .inr (congrArg some (List.mem_singleton.mp hr).symm)
  | collision o t =>
    rcases List.mem_cons.mp hr with rfl | hr
    · exact .inr rfl
    · exact .inl (congrArg some (List.mem_singleton.mp hr).symm)
  | picked b t o value hpick =>
    rw [Option.mem_toList] at hr
    rcases ThreeWay.pick_eq_some hpick with rfl | rfl
    · exact .inl hr
    · exact .inr hr
  | oursAdd o => exact .inl (congrArg some (List.mem_singleton.mp hr).symm)

theorem mergedAt_nodup (h : MergedAt b o t rows) : rows.Nodup := by
  cases h with
  | nowhere | theirsDelete => exact List.nodup_nil
  | theirsAdd | sameAdd | oursAdd => exact List.nodup_singleton _
  | collision o t hne => simpa using Ne.symm hne
  | picked b t o value => cases value <;> simp

theorem mergedAt_two (h : MergedAt b o t rows) {r s : Row ρ} (hr : r ∈ rows) (hs : s ∈ rows) (hne : r ≠ s) :
    b = none ∧ ∃ x y, o = some x ∧ t = some y ∧ x ≠ y ∧ rows = [y, x] := by
  cases h with
  | nowhere | theirsDelete => cases hr
  | theirsAdd | sameAdd | oursAdd => exact absurd ((List.mem_singleton.mp hr).trans (List.mem_singleton.mp hs).symm) hne
  | collision o t hcollision => exact ⟨rfl, o, t, rfl, rfl, hcollision, rfl⟩
  | picked b t o value =>
    rw [Option.mem_toList] at hr hs
    exact absurd (Option.some.inj (hr.symm.trans hs)) hne

namespace Merged

theorem mem_source (h : Merged base ours theirs merged) {r : Row ρ} (hr : r ∈ merged) : r ∈ ours ∨ r ∈ theirs := by
  rcases mergedAt_source (h.at_id r.id) (mem_rowsAt.mpr ⟨hr, rfl⟩) with ho | ht
  · exact .inl (find_mem ho).1
  · exact .inr (find_mem ht).1

theorem given (h : Merged base ours theirs merged) : ∀ r ∈ merged, r.id ≠ "" := by
  intro r hr
  rcases h.mem_source hr with ho | ht
  · exact h.ours_unique.given r ho
  · exact h.theirs_unique.given r ht

theorem nodup (h : Merged base ours theirs merged) : merged.Nodup := by
  rw [List.nodup_iff_count_le_one]
  intro r
  have hcount := List.nodup_iff_count_le_one.mp (mergedAt_nodup (h.at_id r.id)) r
  rwa [rowsAt, List.count_filter (by simp)] at hcount

theorem added_mem (h : Merged base ours theirs merged) {o : Row ρ} (ho : Added base ours o) : o ∈ merged := by
  have hfind : find ours o.id = some o := (find_eq_some h.ours_unique.unique).mpr ⟨ho.1, rfl⟩
  have hat := h.at_id o.id
  rw [ho.2, hfind] at hat
  have hmem : o ∈ rowsAt merged o.id := by
    generalize find theirs o.id = theirs' at hat
    generalize rowsAt merged o.id = rows at hat
    cases hat with
    | sameAdd => exact List.mem_cons_self
    | collision => exact List.mem_cons_of_mem _ List.mem_cons_self
    | oursAdd => exact List.mem_cons_self
  exact (mem_rowsAt.mp hmem).1

theorem collision_rows (h : Merged base ours theirs merged) {o t : Row ρ} (ho : Added base ours o)
    (ht : find theirs o.id = some t) (hne : o ≠ t) : rowsAt merged o.id = [t, o] := by
  have hfind : find ours o.id = some o := (find_eq_some h.ours_unique.unique).mpr ⟨ho.1, rfl⟩
  have hat := h.at_id o.id
  rw [ho.2, hfind, ht] at hat
  generalize rowsAt merged o.id = rows at hat
  cases hat with
  | sameAdd => exact absurd rfl hne
  | collision => rfl

end Merged

def placeOf (merged theirs : List (Row ρ)) (r : Row ρ) : String :=
  (renumberedRow merged theirs (merged.idxOf r) r).id

theorem renumberedRow_withId (rows remote : List (Row ρ)) (index : Nat) (r : Row ρ) :
    r.withId (renumberedRow rows remote index r).id = renumberedRow rows remote index r := by
  unfold renumberedRow
  split <;> rfl

namespace Merged

theorem final_rows (h : Merged base ours theirs merged) :
    renumberedRows merged theirs = merged.map fun r => r.withId (placeOf merged theirs r) := by
  apply List.ext_getElem?
  intro index
  rw [getElem?_renumberedRows, List.getElem?_map]
  by_cases hindex : index < merged.length
  · rw [List.getElem?_eq_getElem hindex, Option.map_some, Option.map_some, placeOf, h.nodup.idxOf_getElem,
      renumberedRow_withId]
  · rw [List.getElem?_eq_none (by omega)]
    rfl

theorem place_injective (h : Merged base ours theirs merged) {r s : Row ρ} (hr : r ∈ merged) (hs : s ∈ merged)
    (hplace : placeOf merged theirs r = placeOf merged theirs s) : r = s := by
  have hr' := List.getElem?_idxOf hr
  have hs' := List.getElem?_idxOf hs
  have hindex := renumbered_unique h.given hr' hs' hplace
  rw [hindex] at hr'
  exact Option.some.inj (hr'.symm.trans hs')

theorem place_cases (h : Merged base ours theirs merged) {r : Row ρ} (hr : r ∈ merged) :
    (placeOf merged theirs r = r.id ∧ ¬ (Added base ours r ∧ Collides theirs r)) ∨
      ((Added base ours r ∧ Collides theirs r) ∧ (∃ n, placeOf merged theirs r = freshId n) ∧
        (∀ s ∈ merged, s.id ≠ placeOf merged theirs r) ∧ ∀ t ∈ theirs, t.id ≠ placeOf merged theirs r) := by
  have hindex := List.getElem?_idxOf hr
  have hgroup : merged.idxOf r ∈ groupOf (merged.map Item.row) r.id := (mem_groupOf h.given).mpr ⟨r, hindex, rfl⟩
  have hkept := keepIndex_mem theirs hgroup
  obtain ⟨s, hs, hid⟩ := (mem_groupOf h.given).mp hkept
  by_cases hkeep : merged.idxOf r = keepIndex (merged.map Item.row) theirs r.id
  · refine .inl ⟨?_, ?_⟩
    · rw [placeOf, renumberedRow_kept h.given hindex hkeep]
    · rintro ⟨hadded, t, ht, hne⟩
      have htmem : t ∈ merged := (mem_rowsAt.mp (h.collision_rows hadded ht hne ▸ List.mem_cons_self)).1
      have htid := (find_mem ht).2
      have htindex := List.getElem?_idxOf htmem
      have htgroup : merged.idxOf t ∈ groupOf (merged.map Item.row) r.id :=
        (mem_groupOf h.given).mpr ⟨t, htindex, htid⟩
      have hremote := keepIndex_remote htgroup ht (by rw [List.getElem?_map, htindex]; rfl)
      rw [← hkeep, List.getElem?_map, hindex] at hremote
      cases hremote
      exact hne rfl
  · obtain ⟨n, hrow, _, hunused, hunused'⟩ := renumberedRow_fresh h.given hindex hkeep
    have hplace : placeOf merged theirs r = freshId n := by rw [placeOf, hrow]; rfl
    have hne : r ≠ s := by
      rintro rfl
      exact hkeep ((List.getElem?_inj (List.getElem?_eq_some_iff.mp hindex).1 h.nodup).mp (hindex.trans hs.symm))
    have hsmem : s ∈ rowsAt merged r.id := mem_rowsAt.mpr ⟨List.mem_of_getElem? hs, hid⟩
    obtain ⟨hbase, x, y, hx, hy, hxy, hrows⟩ :=
      mergedAt_two (h.at_id r.id) (mem_rowsAt.mpr ⟨hr, rfl⟩) hsmem hne
    have hyid := (find_mem hy).2
    have hymem : y ∈ merged := (mem_rowsAt.mp (hrows ▸ List.mem_cons_self)).1
    have hyindex := List.getElem?_idxOf hymem
    -- the row that is kept is theirs, so this one is ours
    have hremote := keepIndex_remote ((mem_groupOf h.given).mpr ⟨y, hyindex, hyid⟩) hy
      (by rw [List.getElem?_map, hyindex]; rfl)
    rw [List.getElem?_map, hs] at hremote
    have hsy : s = y := Item.row.inj (Option.some.inj hremote)
    have hrx : r = x := by
      have hr' : r ∈ rowsAt merged r.id := mem_rowsAt.mpr ⟨hr, rfl⟩
      rw [hrows] at hr'
      rcases List.mem_cons.mp hr' with hry | hrx
      · exact absurd (hry.trans hsy.symm) hne
      · exact List.mem_singleton.mp hrx
    rw [← hrx] at hx hxy
    rw [hplace]
    exact .inr ⟨⟨⟨(find_mem hx).1, hbase⟩, y, hy, hxy⟩, ⟨n, rfl⟩, hunused, hunused'⟩

theorem mem_final (h : Merged base ours theirs merged) {x : Row ρ} :
    x ∈ renumberedRows merged theirs ↔ ∃ r ∈ merged, r.withId (placeOf merged theirs r) = x := by
  rw [h.final_rows, List.mem_map]

theorem final_unique (h : Merged base ours theirs merged) : UniqueIds (renumberedRows merged theirs) := by
  constructor
  · rw [h.final_rows, List.map_map]
    exact h.nodup.map_on fun r hr s hs hplace => h.place_injective hr hs hplace
  · intro x hx
    obtain ⟨r, hr, rfl⟩ := h.mem_final.mp hx
    rcases h.place_cases hr with ⟨hplace, _⟩ | ⟨_, ⟨n, hplace⟩, _⟩
    · exact hplace.trans_ne (h.given r hr)
    · exact hplace.trans_ne (freshId_ne_empty n)

theorem find_kept (h : Merged base ours theirs merged) {r : Row ρ} (hr : r ∈ merged)
    (hkept : ¬ (Added base ours r ∧ Collides theirs r)) :
    placeOf merged theirs r = r.id ∧ find (renumberedRows merged theirs) r.id = some r := by
  have hplace : placeOf merged theirs r = r.id := by
    rcases h.place_cases hr with ⟨hplace, _⟩ | ⟨hmoved, _⟩
    · exact hplace
    · exact absurd hmoved hkept
  refine ⟨hplace, (find_eq_some h.final_unique.unique).mpr ⟨h.mem_final.mpr ⟨r, hr, ?_⟩, rfl⟩⟩
  rw [hplace]
  rfl

theorem find_absent (h : Merged base ours theirs merged) {id : String} (hempty : rowsAt merged id = []) :
    find (renumberedRows merged theirs) id = none ∨
      find theirs id = none ∧ ∃ o, Added base ours o ∧ Collides theirs o ∧ placeOf merged theirs o = id := by
  cases hfind : find (renumberedRows merged theirs) id with
  | none => exact .inl rfl
  | some x =>
    obtain ⟨hx, rfl⟩ := find_mem hfind
    obtain ⟨r, hr, rfl⟩ := h.mem_final.mp hx
    rcases h.place_cases hr with ⟨hplace, _⟩ | ⟨hmoved, _, _, hunused⟩
    · have hmem : r ∈ rowsAt merged r.id := mem_rowsAt.mpr ⟨hr, rfl⟩
      rw [← hplace] at hmem
      exact absurd (hempty ▸ hmem) List.not_mem_nil
    · exact .inr ⟨find_eq_none.mpr hunused, r, hmoved.1, hmoved.2, rfl⟩

end Merged

end

end OwnerActions
end DarkFactory
