import DarkFactory.OwnerActions.Places

/-!
# DarkFactory.OwnerActions.Repair

What the file is after a merge of owner actions and the renumbering.

* `merge_repairs` — a merge that succeeds is repaired. References are left as they are written, so one to a row that
  has been renumbered leads to the row of theirs.
-/

namespace DarkFactory
namespace OwnerActions

open Calls

section

variable {ρ : Type} [DecidableEq ρ] {base ours theirs merged : List (Row ρ)}

/-- The file after the merge and the renumbering. `place` says where each row that ours has added is. -/
structure Repaired (base ours theirs final : List (Row ρ)) (place : Row ρ → String) : Prop where
  unique : UniqueIds final
  ours_only : ∀ id, find theirs id = find base id → find ours id ≠ find base id → find final id = find ours id
  /-- An id that theirs has deleted may be the new id of a row. -/
  theirs_only : ∀ id, find ours id = find base id → find theirs id ≠ find base id → find final id = find theirs id ∨
      find theirs id = none ∧ ∃ o, Added base ours o ∧ Collides theirs o ∧ place o = id
  /-- A row of theirs stays, unless ours alone has changed or deleted it. -/
  theirs_kept : ∀ t ∈ theirs, t ∈ final ∨
    find base t.id = some t ∧ find ours t.id ≠ some t ∧ find final t.id = find ours t.id
  added : ∀ o, Added base ours o → o.withId (place o) ∈ final
  once : ∀ o o', Added base ours o → Added base ours o' → place o = place o' → o = o'
  own : ∀ o, Added base ours o → ¬ Collides theirs o → place o = o.id
  fresh : ∀ o, Added base ours o → Collides theirs o → (∃ n, place o = freshId n) ∧ find theirs (place o) = none ∧
      (find ours (place o) = none ∨ find ours (place o) = find base (place o))
  only : ∀ x ∈ final, (∃ o, Added base ours o ∧ x = o.withId (place o)) ∨ x ∈ theirs ∨
    x ∈ ours ∧ (find base x.id).isSome
  /-- A row that ours has added or changed has its references as they were. -/
  references : ∀ x ∈ ours, find base x.id ≠ some x → ∃ x' ∈ final, x' = x.withId x'.id ∧
    ((find base x.id).isSome → x'.id = x.id) ∧ (find base x.id = none → x'.id = place x) ∧
    ∀ o, Added base ours o → o.id ∈ x.refs → o.id ∈ x'.refs ∧
      (find final o.id = some (o.withId (place o)) ↔ ¬ Collides theirs o)

namespace Merged

theorem ours_only (h : Merged base ours theirs merged) {id : String} (htheirs : find theirs id = find base id)
    (hours : find ours id ≠ find base id) : find (renumberedRows merged theirs) id = find ours id := by
  have hat := h.at_id id
  rw [htheirs] at hat
  cases ho : find ours id with
  | none =>
    rw [ho] at hat hours
    cases hb : find base id with
    | none => exact absurd hb.symm hours
    | some b =>
      rw [hb] at hat htheirs
      have hempty : rowsAt merged id = [] := by
        generalize rowsAt merged id = rows at hat
        cases hat with
        | picked _ _ _ value hpick =>
          rw [ThreeWay.pick_ours] at hpick
          cases hpick
          rfl
      rcases h.find_absent hempty with hnone | ⟨hnone, _⟩
      · exact hnone
      · rw [htheirs] at hnone
        cases hnone
  | some o =>
    rw [ho] at hat hours
    obtain ⟨_, hid⟩ := find_mem ho
    have hmem : o ∈ rowsAt merged id := by
      generalize rowsAt merged id = rows at hat
      generalize find base id = base' at hat hours
      cases hat with
      | picked _ _ _ value hpick =>
        rw [ThreeWay.pick_ours] at hpick
        cases hpick
        exact List.mem_cons_self
      | oursAdd => exact List.mem_cons_self
    have hkept : ¬ (Added base ours o ∧ Collides theirs o) := by
      rintro ⟨hadded, t, ht, _⟩
      rw [hid, htheirs, ← hid, hadded.2] at ht
      cases ht
    rw [← hid]
    exact (h.find_kept (mem_rowsAt.mp hmem).1 hkept).2

theorem theirs_only (h : Merged base ours theirs merged) {id : String} (hours : find ours id = find base id)
    (htheirs : find theirs id ≠ find base id) :
    find (renumberedRows merged theirs) id = find theirs id ∨
      find theirs id = none ∧ ∃ o, Added base ours o ∧ Collides theirs o ∧ placeOf merged theirs o = id := by
  have hat := h.at_id id
  rw [hours] at hat
  cases ht : find theirs id with
  | none =>
    rw [ht] at hat
    have hempty : rowsAt merged id = [] := by
      generalize rowsAt merged id = rows at hat
      generalize hb : find base id = base' at hat
      cases hat with
      | nowhere => rfl
      | theirsDelete => rfl
    rcases h.find_absent hempty with hnone | ⟨_, hnew⟩
    · exact .inl hnone
    · exact .inr ⟨rfl, hnew⟩
  | some t =>
    rw [ht] at hat htheirs
    have hmem : t ∈ rowsAt merged id := by
      generalize rowsAt merged id = rows at hat
      generalize find base id = base' at hat htheirs
      cases hat with
      | theirsAdd => exact List.mem_cons_self
      | picked _ _ _ value hpick =>
        rw [ThreeWay.pick_theirs] at hpick
        cases hpick
        exact List.mem_cons_self
    obtain ⟨hmem, hid⟩ := mem_rowsAt.mp hmem
    have hkept : ¬ (Added base ours t ∧ Collides theirs t) := by
      rintro ⟨_, t', ht', hne⟩
      rw [hid, ht] at ht'
      exact hne (Option.some.inj ht')
    rw [← hid]
    exact .inl (h.find_kept hmem hkept).2

theorem theirs_kept (h : Merged base ours theirs merged) {t : Row ρ} (ht : t ∈ theirs) :
    t ∈ renumberedRows merged theirs ∨
      find base t.id = some t ∧ find ours t.id ≠ some t ∧
        find (renumberedRows merged theirs) t.id = find ours t.id := by
  have hfind : find theirs t.id = some t := (find_eq_some h.theirs_unique.unique).mpr ⟨ht, rfl⟩
  by_cases hmem : t ∈ merged
  · have hkept : ¬ (Added base ours t ∧ Collides theirs t) := by
      rintro ⟨_, t', ht', hne⟩
      rw [hfind] at ht'
      exact hne (Option.some.inj ht')
    exact .inl (find_mem (h.find_kept hmem hkept).2).1
  · have hat := h.at_id t.id
    have habsent : t ∉ rowsAt merged t.id := fun hrow => hmem (mem_rowsAt.mp hrow).1
    rw [hfind] at hat
    have hcase : find base t.id = some t ∧ find ours t.id ≠ some t := by
      generalize rowsAt merged t.id = rows at hat habsent
      generalize find base t.id = base' at hat
      generalize find ours t.id = ours' at hat
      cases hat with
      | theirsAdd => exact absurd List.mem_cons_self habsent
      | sameAdd => exact absurd List.mem_cons_self habsent
      | collision => exact absurd List.mem_cons_self habsent
      | picked b _ o value hpick =>
        rw [Option.mem_toList] at habsent
        unfold ThreeWay.pick at hpick
        split at hpick
        · exact absurd (Option.some.inj hpick).symm habsent
        · rename_i hne
          split at hpick
          · rename_i hsame
            exact ⟨hsame.symm, hne⟩
          · split at hpick
            · exact absurd (Option.some.inj hpick).symm habsent
            · cases hpick
    obtain ⟨hbase, hours⟩ := hcase
    refine .inr ⟨hbase, hours, h.ours_only (hfind.trans hbase.symm) ?_⟩
    rw [hbase]
    exact hours

theorem fresh (h : Merged base ours theirs merged) {o : Row ρ} (ho : Added base ours o) (hcollides : Collides theirs o) :
    (∃ n, placeOf merged theirs o = freshId n) ∧ find theirs (placeOf merged theirs o) = none ∧
      (find ours (placeOf merged theirs o) = none ∨
        find ours (placeOf merged theirs o) = find base (placeOf merged theirs o)) := by
  rcases h.place_cases (h.added_mem ho) with ⟨_, hkept⟩ | ⟨_, hnumber, hunused, hunused'⟩
  · exact absurd ⟨ho, hcollides⟩ hkept
  · have htheirs := find_eq_none.mpr hunused'
    refine ⟨hnumber, htheirs, ?_⟩
    have hempty : rowsAt merged (placeOf merged theirs o) = [] := rowsAt_of_find_none (find_eq_none.mpr hunused)
    have hat := h.at_id (placeOf merged theirs o)
    rw [htheirs, hempty] at hat
    generalize find ours (placeOf merged theirs o) = ours' at hat
    generalize find base (placeOf merged theirs o) = base' at hat
    cases hat with
    | nowhere => exact .inl rfl
    | theirsDelete => exact .inr rfl

theorem only (h : Merged base ours theirs merged) {x : Row ρ} (hx : x ∈ renumberedRows merged theirs) :
    (∃ o, Added base ours o ∧ x = o.withId (placeOf merged theirs o)) ∨ x ∈ theirs ∨
      x ∈ ours ∧ (find base x.id).isSome := by
  obtain ⟨r, hr, rfl⟩ := h.mem_final.mp hx
  by_cases hadded : Added base ours r
  · exact .inl ⟨r, hadded, rfl⟩
  · have hplace := (h.find_kept hr fun hmoved => hadded hmoved.1).1
    have hsame : r.withId (placeOf merged theirs r) = r := by
      rw [hplace]
      rfl
    rw [hsame]
    rcases h.mem_source hr with ho | ht
    · refine .inr (.inr ⟨ho, Option.isSome_iff_ne_none.mpr ?_⟩)
      intro hnone
      exact hadded ⟨ho, hnone⟩
    · exact .inr (.inl ht)

theorem changed (h : Merged base ours theirs merged) {x : Row ρ} (hx : x ∈ ours) (hbase : (find base x.id).isSome)
    (hchanged : find base x.id ≠ some x) : find (renumberedRows merged theirs) x.id = some x := by
  have hfind : find ours x.id = some x := (find_eq_some h.ours_unique.unique).mpr ⟨hx, rfl⟩
  have hkept : ¬ (Added base ours x ∧ Collides theirs x) := by
    rintro ⟨⟨_, hnone⟩, _⟩
    rw [hnone] at hbase
    cases hbase
  have hat := h.at_id x.id
  rw [hfind] at hat
  have hmem : x ∈ rowsAt merged x.id := by
    generalize rowsAt merged x.id = rows at hat
    generalize find base x.id = base' at hat hbase hchanged
    generalize find theirs x.id = theirs' at hat
    cases hat with
    | sameAdd => exact List.mem_cons_self
    | collision => cases hbase
    | picked b t _ value hpick =>
      rw [Option.mem_toList]
      unfold ThreeWay.pick at hpick
      split at hpick
      · rename_i hsame
        rw [hsame]
        exact (Option.some.inj hpick).symm
      · split at hpick
        · exact (Option.some.inj hpick).symm
        · split at hpick
          · rename_i hsame
            exact absurd hsame.symm hchanged
          · cases hpick
    | oursAdd => exact List.mem_cons_self
    | theirsDelete => exact absurd rfl hchanged
  exact (h.find_kept (mem_rowsAt.mp hmem).1 hkept).2

theorem reference (h : Merged base ours theirs merged) {o : Row ρ} (ho : Added base ours o) :
    find (renumberedRows merged theirs) o.id = some (o.withId (placeOf merged theirs o)) ↔ ¬ Collides theirs o := by
  constructor
  · rintro hfind hcollides
    obtain ⟨hmem, hid⟩ := find_mem hfind
    rcases h.place_cases (h.added_mem ho) with ⟨_, hkept⟩ | ⟨_, _, hunused, _⟩
    · exact hkept ⟨ho, hcollides⟩
    · exact hunused o (h.added_mem ho) hid.symm
  · intro hkept
    obtain ⟨hplace, hfind⟩ := h.find_kept (h.added_mem ho) fun hmoved => hkept hmoved.2
    rw [hplace]
    exact hfind

theorem references (h : Merged base ours theirs merged) {x : Row ρ} (hx : x ∈ ours) (hchanged : find base x.id ≠ some x) :
    ∃ x' ∈ renumberedRows merged theirs, x' = x.withId x'.id ∧ ((find base x.id).isSome → x'.id = x.id) ∧
      (find base x.id = none → x'.id = placeOf merged theirs x) ∧
      ∀ o, Added base ours o → o.id ∈ x.refs → o.id ∈ x'.refs ∧
        (find (renumberedRows merged theirs) o.id = some (o.withId (placeOf merged theirs o)) ↔
          ¬ Collides theirs o) := by
  cases hbase : find base x.id with
  | none =>
    have hmem := h.added_mem ⟨hx, hbase⟩
    exact ⟨_, h.mem_final.mpr ⟨x, hmem, rfl⟩, rfl, (by intro hsome; cases hsome), fun _ => rfl,
      fun o ho href => ⟨href, h.reference ho⟩⟩
  | some b =>
    have hfind := h.changed hx (by rw [hbase]; rfl) hchanged
    exact ⟨x, (find_mem hfind).1, rfl, fun _ => rfl, (by intro hnone; cases hnone),
      fun o ho href => ⟨href, h.reference ho⟩⟩

theorem repaired (h : Merged base ours theirs merged) :
    Repaired base ours theirs (renumberedRows merged theirs) (placeOf merged theirs) where
  unique := h.final_unique
  ours_only _ := h.ours_only
  theirs_only _ := h.theirs_only
  theirs_kept _ := h.theirs_kept
  added o ho := h.mem_final.mpr ⟨o, h.added_mem ho, rfl⟩
  once _ _ ho ho' := h.place_injective (h.added_mem ho) (h.added_mem ho')
  own _ ho hkept := (h.find_kept (h.added_mem ho) fun hmoved => hkept hmoved.2).1
  fresh _ := h.fresh
  only _ := h.only
  references _ := h.references

end Merged

theorem merged_of_merge {baseRaw oursRaw theirsRaw : Raw ρ} (hbase : UniqueIds (rowsOf baseRaw))
    (hours : UniqueIds (rowsOf oursRaw)) (htheirs : UniqueIds (rowsOf theirsRaw)) {d : Document ρ}
    (h : mergeOwnerActions3way baseRaw oursRaw theirsRaw = .ok d) :
    ∃ rows, d.actions = some (rows.map .row) ∧ Merged (rowsOf baseRaw) (rowsOf oursRaw) (rowsOf theirsRaw) rows := by
  unfold mergeOwnerActions3way at h
  obtain ⟨base', hparse, h⟩ := bind_ok.mp h
  obtain ⟨ours', hparse', h⟩ := bind_ok.mp h
  obtain ⟨theirs', hparse'', h⟩ := bind_ok.mp h
  obtain ⟨rows, hrows, h⟩ := bind_ok.mp h
  obtain ⟨fields, _, h⟩ := bind_ok.mp h
  rw [byId_of_parse hparse hbase, byId_of_parse hparse' hours, byId_of_parse hparse'' htheirs] at hrows
  rw [← Except.ok.inj h]
  exact ⟨rows, rfl, hours, htheirs, mergeRows_at hours.unique htheirs.unique hrows⟩

theorem renumberedRows_of_no_changes {rows remote : List (Row ρ)} (hids : ∀ r ∈ rows, r.id ≠ "")
    (h : changesOf (rows.map Item.row) remote = []) : renumberedRows rows remote = rows := by
  have hkeep : ∀ index r, rows[index]? = some r → index = keepIndex (rows.map Item.row) remote r.id := by
    intro index r hr
    by_contra hne
    obtain ⟨n, hn⟩ := assign_complete (usedNumbers (rows.map Item.row) remote)
      ((mem_duplicates remote hids).mpr ⟨r, hr, hne⟩)
    have hnone := List.filterMap_eq_nil_iff.mp h _ hn
    rw [List.getElem?_map, hr, Option.map_some, Option.bind_some, Item.key,
      if_neg (hids r (List.mem_of_getElem? hr))] at hnone
    cases hnone
  apply List.ext_getElem?
  intro index
  rw [getElem?_renumberedRows]
  cases hr : rows[index]? with
  | none => rfl
  | some r => rw [Option.map_some, renumberedRow_kept hids hr (hkeep index r hr)]

theorem rowsOf_renumbered {d : Document ρ} {rows : List (Row ρ)} (hactions : d.actions = some (rows.map .row))
    (hids : ∀ r ∈ rows, r.id ≠ "") (remote : Raw ρ) :
    rowsOf (renumberDuplicateOwnerActions (.document d) (some remote)).1 = renumberedRows rows (rowsOf remote) := by
  obtain ⟨actions, fields⟩ := d
  subst hactions
  unfold renumberDuplicateOwnerActions
  simp only [extractRows, Option.getD_some]
  split
  · rename_i h
    rw [rowsOf_rows]
    exact (renumberedRows_of_no_changes hids h).symm
  · rw [renumbered_rows, rowsOf_rows]
    rfl

def sampleBase : Raw String := .document { actions := some [] }

def sampleOurs : Raw String :=
  .document { actions := some [.row { id := "OA-001", rest := "ours" },
    .row { id := "OA-002", dependsOn := ["OA-001"], rest := "later" }] }

def sampleTheirs : Raw String := .document { actions := some [.row { id := "OA-001", rest := "theirs" }] }

def sampleMerged : Document String :=
  { actions := some [.row { id := "OA-001", rest := "theirs" }, .row { id := "OA-001", rest := "ours" },
      .row { id := "OA-002", dependsOn := ["OA-001"], rest := "later" }] }

def reusedBase : Raw String := .document { actions := some [.row { id := "OA-005", rest := "old" }] }

def reusedOurs : Raw String :=
  .document { actions := some [.row { id := "OA-005", rest := "old" }, .row { id := "OA-004", rest := "ours" }] }

def reusedTheirs : Raw String := .document { actions := some [.row { id := "OA-004", rest := "theirs" }] }

def reusedMerged : Document String :=
  { actions := some [.row { id := "OA-004", rest := "theirs" }, .row { id := "OA-004", rest := "ours" }] }

end

end OwnerActions
end DarkFactory
