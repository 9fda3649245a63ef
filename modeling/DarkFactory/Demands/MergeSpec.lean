import DarkFactory.Demands.Merge

/-!
# DarkFactory.Demands.MergeSpec

When `merge_demands_3way` is the three-way merge of the ledgers as maps from ids to rows.

* `IsMergeResult` — the result that a semantic merge owes.
* `Semantic` — it does, and swapping the sides changes nothing.
* `Mergeable` — no title check, deletion or empty id stands in the way.
-/

namespace DarkFactory
namespace Demands

section

variable {ρ : Type}

theorem mem_allIds {base ours theirs : List (Row ρ)} {id : String} :
    id ∈ allIds base ours theirs ↔ id ∈ ids base ∨ id ∈ ids ours ∨ id ∈ ids theirs := by
  rw [allIds, (sortAsc_perm _ _).mem_iff, List.mem_eraseDups, List.mem_append, List.mem_append, or_assoc]

theorem key_eq_some {r : Row ρ} {id : String} : r.key = some id ↔ r.id = some id ∧ id ≠ "" := by
  simp [Row.key, Option.filter_eq_some_iff]

theorem mem_keys {rows : List (Row ρ)} {id : String} :
    id ∈ rows.filterMap Row.key ↔ byId rows id ≠ none ∧ id ≠ "" := by
  rw [List.mem_filterMap, ne_eq, byId_eq_none_iff, not_not, mem_ids]
  simp only [key_eq_some]
  constructor
  · rintro ⟨r, hr, hid, hne⟩
    exact ⟨⟨r, hr, hid⟩, hne⟩
  · rintro ⟨⟨r, hr, hid⟩, hne⟩
    exact ⟨r, hr, hid, hne⟩

theorem mem_appendOurs {seen : List String} {ours : List (Row ρ)} {r : Row ρ}
    (h : r ∈ appendOurs seen ours) : r ∈ ours ∧ ∃ id, r.key = some id ∧ id ∉ seen := by
  induction ours generalizing seen with
  | nil => cases h
  | cons o rest ih =>
    simp only [appendOurs] at h
    split at h
    · exact ⟨List.mem_cons_of_mem _ (ih h).1, (ih h).2⟩
    · rename_i id hkey
      split at h
      · exact ⟨List.mem_cons_of_mem _ (ih h).1, (ih h).2⟩
      · rename_i hseen
        rcases List.mem_cons.mp h with rfl | h
        · exact ⟨List.mem_cons_self, id, hkey, hseen⟩
        · obtain ⟨hr, id', hkey', hseen'⟩ := ih h
          exact ⟨List.mem_cons_of_mem _ hr, id', hkey', fun hmem => hseen' (List.mem_cons_of_mem _ hmem)⟩

theorem mem_appendOurs_of {seen : List String} {ours : List (Row ρ)} (hnodup : (ours.map Row.id).Nodup)
    {r : Row ρ} (hr : r ∈ ours) {id : String} (hkey : r.key = some id) (hseen : id ∉ seen) :
    r ∈ appendOurs seen ours := by
  induction ours generalizing seen with
  | nil => cases hr
  | cons o rest ih =>
    rw [List.map_cons, List.nodup_cons] at hnodup
    simp only [appendOurs]
    rcases List.mem_cons.mp hr with rfl | hr
    · rw [hkey]
      simp only
      rw [if_neg hseen]
      exact List.mem_cons_self
    · have hne : o.id ≠ r.id := fun heq => hnodup.1 (heq ▸ List.mem_map_of_mem hr)
      cases hok : o.key with
      | none => exact ih hnodup.2 hr hseen
      | some id' =>
        simp only
        split
        · exact ih hnodup.2 hr hseen
        · refine List.mem_cons_of_mem _ (ih hnodup.2 hr fun hmem => ?_)
          rcases List.mem_cons.mp hmem with rfl | hmem
          · exact hne ((key_eq_some.mp hok).1.trans (key_eq_some.mp hkey).1.symm)
          · exact hseen hmem

theorem appendOurs_sublist (seen : List String) (ours : List (Row ρ)) : (appendOurs seen ours).Sublist ours := by
  induction ours generalizing seen with
  | nil => exact List.Sublist.slnil
  | cons o rest ih =>
    simp only [appendOurs]
    split
    · exact (ih seen).cons _
    · split
      · exact (ih seen).cons _
      · exact (ih _).cons_cons _

variable {baseRaw oursRaw theirsRaw : LedgerText ρ} {base ours theirs : List (Row ρ)}

structure Ledgers (baseRaw oursRaw theirsRaw : LedgerText ρ) (base ours theirs : List (Row ρ)) : Prop where
  readBase : parseDemandsPayload baseRaw = .ok base
  readOurs : parseDemandsPayload oursRaw = .ok ours
  readTheirs : parseDemandsPayload theirsRaw = .ok theirs
  baseIds : UniqueIds base
  oursIds : UniqueIds ours
  theirsIds : UniqueIds theirs

theorem Ledgers.swap (h : Ledgers baseRaw oursRaw theirsRaw base ours theirs) :
    Ledgers baseRaw theirsRaw oursRaw base theirs ours :=
  ⟨h.readBase, h.readTheirs, h.readOurs, h.baseIds, h.theirsIds, h.oursIds⟩

end

section

variable {ρ : Type} [DecidableEq ρ]

structure IsMergeResult (base ours theirs : List (Row ρ)) (result : Except MergeError (List (Row ρ))) : Prop where
  fails : (∃ e, result = .error e) ↔ ThreeWay.Conflict (byId base) (byId ours) (byId theirs)
  rows : ∀ rows, result = .ok rows → UniqueIds rows ∧
    ThreeWay.IsMerge (byId base) (byId ours) (byId theirs) (byId rows)

def SameResult (result result' : Except MergeError (List (Row ρ))) : Prop :=
  match result, result' with
  | .ok rows, .ok rows' => byId rows = byId rows'
  | .error _, .error _ => True
  | _, _ => False

structure Semantic (baseRaw oursRaw theirsRaw : LedgerText ρ) (base ours theirs : List (Row ρ)) : Prop where
  result : IsMergeResult base ours theirs (mergeDemands3way baseRaw oursRaw theirsRaw)
  swap : SameResult (mergeDemands3way baseRaw oursRaw theirsRaw) (mergeDemands3way baseRaw theirsRaw oursRaw)

structure Mergeable (oursRaw theirsRaw : LedgerText ρ) (base ours theirs : List (Row ρ)) : Prop where
  /-- Where both ledgers have the id, they have one title for it, or the check of the titles raises. -/
  titles : ∀ collisions, titleCollisions theirsRaw oursRaw = some collisions → collisions = []
  /-- `theirs` deletes nothing that `ours` has left alone. -/
  deletions : ∀ id r, id ≠ "" → byId base id = some r → byId ours id = some r → byId theirs id ≠ none
  /-- No row is due under the empty id. -/
  blank : ThreeWay.pick (byId base "") (byId ours "") (byId theirs "") = some none

theorem conflictOf_eq_none {id : String} {base ours theirs : Option (Row ρ)} :
    conflictOf id base ours theirs = none ↔ ThreeWay.pick base ours theirs ≠ none := by
  rw [ne_eq, ThreeWay.pick_eq_none]
  cases base with
  | none =>
    cases ours with
    | none => simp [conflictOf]
    | some o =>
      cases theirs with
      | none => simp [conflictOf]
      | some t => simp [conflictOf]
  | some b =>
    cases ours with
    | none =>
      cases theirs with
      | none => simp [conflictOf]
      | some t => simp [conflictOf]
    | some o =>
      cases theirs with
      | none => simp [conflictOf]
      | some t =>
        simp only [conflictOf, ite_eq_right_iff, reduceCtorEq, imp_false, ne_eq, Option.some.injEq]
        tauto

theorem findConflict_eq_none {base ours theirs : List (Row ρ)} :
    findConflict base ours theirs = none ↔ ¬ ThreeWay.Conflict (byId base) (byId ours) (byId theirs) := by
  rw [findConflict, List.findSome?_eq_none_iff]
  constructor
  · rintro h ⟨id, hid⟩
    by_cases hmem : id ∈ allIds base ours theirs
    · exact conflictOf_eq_none.mp (h id hmem) hid
    · -- No ledger has the id.
      rw [mem_allIds, not_or, not_or, ← byId_eq_none_iff, ← byId_eq_none_iff, ← byId_eq_none_iff] at hmem
      rw [hmem.1, hmem.2.1, hmem.2.2, ThreeWay.pick_same] at hid
      cases hid
  · intro h id _
    exact conflictOf_eq_none.mpr fun hid => h ⟨id, hid⟩

theorem mergeRow_id {base ours : List (Row ρ)} {t r : Row ρ} (h : mergeRow base ours t = some r) :
    ∃ id, t.key = some id ∧ r.id = some id := by
  obtain ⟨id, hkey, h⟩ := Option.bind_eq_some_iff.mp h
  refine ⟨id, hkey, ?_⟩
  split at h
  · rename_i o ho
    split at h
    · cases h
      exact (byId_some ho).2
    · cases h
      exact (key_eq_some.mp hkey).1
  · split at h
    · cases h
    · cases h
      exact (key_eq_some.mp hkey).1

/-- The merged rows keep the ids of `theirs`, in order. -/
theorem mergeRows_sublist (base ours theirs : List (Row ρ)) :
    ((theirs.filterMap (mergeRow base ours)).map Row.id).Sublist (theirs.map Row.id) := by
  induction theirs with
  | nil => exact List.Sublist.slnil
  | cons t rest ih =>
    rw [List.filterMap_cons]
    split
    · exact ih.cons _
    · rename_i r hr
      obtain ⟨id, hkey, hid⟩ := mergeRow_id hr
      rw [List.map_cons, List.map_cons, hid, (key_eq_some.mp hkey).1]
      exact ih.cons_cons _

variable {base ours theirs : List (Row ρ)}

theorem uniqueIds_merged (hours : UniqueIds ours) (htheirs : UniqueIds theirs) :
    UniqueIds (mergedRows base ours theirs) := by
  constructor
  · intro r hr
    rcases List.mem_append.mp hr with hr | hr
    · obtain ⟨t, -, ht⟩ := List.mem_filterMap.mp hr
      obtain ⟨id, -, hid⟩ := mergeRow_id ht
      rw [hid]
      rfl
    · exact hours.some r (mem_appendOurs hr).1
  · rw [mergedRows, List.map_append, List.nodup_append]
    refine ⟨htheirs.unique.sublist (mergeRows_sublist base ours theirs),
      hours.unique.sublist ((appendOurs_sublist _ ours).map _), ?_⟩
    intro a ha b hb heq
    subst heq
    obtain ⟨r, hr, rfl⟩ := List.mem_map.mp ha
    obtain ⟨r', hr', heq⟩ := List.mem_map.mp hb
    obtain ⟨t, ht, hrow⟩ := List.mem_filterMap.mp hr
    obtain ⟨id, hkey, hid⟩ := mergeRow_id hrow
    obtain ⟨-, id', hkey', hseen⟩ := mem_appendOurs hr'
    have hsame : id = id' := by
      rw [hid, (key_eq_some.mp hkey').1] at heq
      exact (Option.some.inj heq).symm
    exact hseen (List.mem_filterMap.mpr ⟨t, ht, hsame ▸ hkey⟩)

def resultOf (base ours theirs : Option (Row ρ)) : Option (Row ρ) :=
  match theirs with
  | some t =>
    match ours with
    | some o => if some o ≠ base then some o else some t
    | none => if base.isSome then none else some t
  | none => ours

theorem mergeRow_eq {t : Row ρ} {id : String} (hkey : t.key = some id) :
    mergeRow base ours t = resultOf (byId base id) (byId ours id) (some t) := by
  rw [mergeRow, hkey]
  rfl

theorem byId_merged (hours : UniqueIds ours) (htheirs : UniqueIds theirs) {id : String} (hne : id ≠ "") :
    byId (mergedRows base ours theirs) id = resultOf (byId base id) (byId ours id) (byId theirs id) := by
  have hmerged : UniqueIds (mergedRows base ours theirs) := uniqueIds_merged hours htheirs
  have hunique := hmerged.unique
  apply Option.ext
  intro r
  rw [byId_eq_some hunique, mergedRows, List.mem_append, List.mem_filterMap]
  constructor
  · rintro ⟨⟨t, ht, hrow⟩ | hr, hid⟩
    · obtain ⟨id', hkey, hid'⟩ := mergeRow_id hrow
      have hsame : id' = id := Option.some.inj (hid'.symm.trans hid)
      subst hsame
      rw [(byId_eq_some htheirs.unique).mpr ⟨ht, (key_eq_some.mp hkey).1⟩, ← mergeRow_eq hkey]
      exact hrow
    · obtain ⟨hr, id', hkey, hseen⟩ := mem_appendOurs hr
      have hsame : id' = id := Option.some.inj ((key_eq_some.mp hkey).1.symm.trans hid)
      subst hsame
      rw [mem_keys, not_and_or, not_not, not_not] at hseen
      rw [hseen.resolve_right hne]
      exact (byId_eq_some hours.unique).mpr ⟨hr, hid⟩
  · intro hresult
    cases ht : byId theirs id with
    | some t =>
      obtain ⟨htmem, htid⟩ := byId_some ht
      have hkey := key_eq_some.mpr ⟨htid, hne⟩
      rw [ht, ← mergeRow_eq hkey] at hresult
      obtain ⟨id', hkey', hid'⟩ := mergeRow_id hresult
      exact ⟨.inl ⟨t, htmem, hresult⟩, hid'.trans (hkey'.symm.trans hkey)⟩
    | none =>
      rw [ht] at hresult
      obtain ⟨hr, hid⟩ := byId_some hresult
      have hseen : id ∉ theirs.filterMap Row.key := fun hmem => (mem_keys.mp hmem).1 ht
      exact ⟨.inr (mem_appendOurs_of hours.unique hr (key_eq_some.mpr ⟨hid, hne⟩) hseen), hid⟩

theorem byId_merged_blank : byId (mergedRows base ours theirs) "" = none := by
  rw [byId_eq_none]
  intro r hr hid
  rcases List.mem_append.mp hr with hr | hr
  · obtain ⟨t, -, ht⟩ := List.mem_filterMap.mp hr
    obtain ⟨id, hkey, hid'⟩ := mergeRow_id ht
    exact (key_eq_some.mp hkey).2 (Option.some.inj (hid'.symm.trans hid))
  · obtain ⟨-, id, hkey, -⟩ := mem_appendOurs hr
    exact (key_eq_some.mp hkey).2 (Option.some.inj ((key_eq_some.mp hkey).1.symm.trans hid))

/-- Without a conflict the loops make the choice of a three-way merge, but for a row that `theirs` has
deleted and `ours` has left alone. -/
theorem pick_resultOf_iff {b o t : Option (Row ρ)} (h : ThreeWay.pick b o t ≠ none) :
    ThreeWay.pick b o t = some (resultOf b o t) ↔ ∀ r, b = some r → o = some r → t ≠ none := by
  rw [ne_eq, ThreeWay.pick_eq_none] at h
  cases t with
  | none =>
    cases o with
    | none => simp [resultOf, ThreeWay.pick_same]
    | some o =>
      cases b with
      | none => simp [resultOf, ThreeWay.pick_ours]
      | some b =>
        have hsame : o = b := by simpa using h
        subst hsame
        simp [resultOf, ThreeWay.pick_theirs]
  | some t =>
    simp only [ne_eq, reduceCtorEq, not_false_eq_true, implies_true, iff_true]
    cases o with
    | none =>
      cases b with
      | none => simp [resultOf, ThreeWay.pick_theirs]
      | some b =>
        have hsame : t = b := by simpa using h
        subst hsame
        simp [resultOf, ThreeWay.pick_ours]
    | some o =>
      by_cases hob : some o = b
      · subst hob
        simp [resultOf, ThreeWay.pick_theirs]
      · by_cases hot : o = t
        · subst hot
          simp [resultOf, hob, ThreeWay.pick_same]
        · have htb : some t = b := by
            by_contra htb
            exact h ⟨fun heq => hot (Option.some.inj heq), htb, hob⟩
          subst htb
          simp [resultOf, hob, ThreeWay.pick_ours]

variable {baseRaw oursRaw theirsRaw : LedgerText ρ}

theorem merge_collisions (h : Ledgers baseRaw oursRaw theirsRaw base ours theirs)
    {c : String × String × String} {rest : List (String × String × String)}
    (hc : titleCollisions theirsRaw oursRaw = some (c :: rest)) :
    mergeDemands3way baseRaw oursRaw theirsRaw = .error (.collisions (c :: rest)) := by
  simp only [mergeDemands3way, h.readBase, h.readOurs, h.readTheirs, hc]

theorem merge_checked (h : Ledgers baseRaw oursRaw theirsRaw base ours theirs)
    (hc : ∀ collisions, titleCollisions theirsRaw oursRaw = some collisions → collisions = []) :
    mergeDemands3way baseRaw oursRaw theirsRaw = match findConflict base ours theirs with
      | some e => .error e
      | none => .ok (mergedRows base ours theirs) := by
  simp only [mergeDemands3way, h.readBase, h.readOurs, h.readTheirs]
  split
  · rename_i c rest hsome
    cases hc _ hsome
  · rfl

theorem isMerge_mergedRows_iff (h : Ledgers baseRaw oursRaw theirsRaw base ours theirs)
    (hconflict : ¬ ThreeWay.Conflict (byId base) (byId ours) (byId theirs)) :
    ThreeWay.IsMerge (byId base) (byId ours) (byId theirs) (byId (mergedRows base ours theirs)) ↔
      (∀ id r, id ≠ "" → byId base id = some r → byId ours id = some r → byId theirs id ≠ none) ∧
        ThreeWay.pick (byId base "") (byId ours "") (byId theirs "") = some none := by
  have hpick : ∀ id, ThreeWay.pick (byId base id) (byId ours id) (byId theirs id) ≠ none :=
    fun id hid => hconflict ⟨id, hid⟩
  constructor
  · intro hmerge
    refine ⟨fun id r hne => ?_, ?_⟩
    · have hid := hmerge id
      rw [byId_merged h.oursIds h.theirsIds hne] at hid
      exact (pick_resultOf_iff (hpick id)).mp hid r
    · rw [hmerge "", byId_merged_blank]
  · rintro ⟨hdeletions, hblank⟩ id
    by_cases hne : id = ""
    · rw [hne, byId_merged_blank]
      exact hblank
    · rw [byId_merged h.oursIds h.theirsIds hne]
      exact (pick_resultOf_iff (hpick id)).mpr fun r => hdeletions id r hne

theorem isMergeResult_iff (h : Ledgers baseRaw oursRaw theirsRaw base ours theirs) :
    IsMergeResult base ours theirs (mergeDemands3way baseRaw oursRaw theirsRaw) ↔
      ThreeWay.Conflict (byId base) (byId ours) (byId theirs) ∨ Mergeable oursRaw theirsRaw base ours theirs := by
  -- A result that is an error is right exactly if there is a conflict.
  have herror : ∀ e, mergeDemands3way baseRaw oursRaw theirsRaw = .error e →
      (IsMergeResult base ours theirs (mergeDemands3way baseRaw oursRaw theirsRaw) ↔
        ThreeWay.Conflict (byId base) (byId ours) (byId theirs)) := by
    intro e he
    rw [he]
    refine ⟨fun hresult => hresult.fails.mp ⟨e, rfl⟩, fun hconflict => ⟨?_, nofun⟩⟩
    exact ⟨fun _ => hconflict, fun _ => ⟨e, rfl⟩⟩
  by_cases hc : ∀ collisions, titleCollisions theirsRaw oursRaw = some collisions → collisions = []
  · have hmerge := merge_checked h hc
    cases hfind : findConflict base ours theirs with
    | some e =>
      rw [hfind] at hmerge
      have hconflict : ThreeWay.Conflict (byId base) (byId ours) (byId theirs) := by
        by_contra hnone
        rw [findConflict_eq_none.mpr hnone] at hfind
        cases hfind
      rw [herror e hmerge]
      exact ⟨.inl, fun _ => hconflict⟩
    | none =>
      rw [hfind] at hmerge
      have hconflict := findConflict_eq_none.mp hfind
      have hiff := isMerge_mergedRows_iff h hconflict
      rw [hmerge]
      constructor
      · intro hresult
        obtain ⟨hdeletions, hblank⟩ := hiff.mp (hresult.rows _ rfl).2
        exact .inr ⟨hc, hdeletions, hblank⟩
      · rintro (hbad | hok)
        · exact absurd hbad hconflict
        · refine ⟨⟨nofun, fun hbad => absurd hbad hconflict⟩, fun rows hrows => ?_⟩
          cases hrows
          exact ⟨uniqueIds_merged h.oursIds h.theirsIds, hiff.mpr ⟨hok.deletions, hok.blank⟩⟩
  · have hcollides : ∃ c rest, titleCollisions theirsRaw oursRaw = some (c :: rest) := by
      simp only [not_forall] at hc
      obtain ⟨collisions, hsome, hne⟩ := hc
      obtain ⟨c, rest, rfl⟩ := List.exists_cons_of_ne_nil hne
      exact ⟨c, rest, hsome⟩
    obtain ⟨c, rest, hcollides⟩ := hcollides
    rw [herror _ (merge_collisions h hcollides)]
    exact ⟨.inl, fun hcase => hcase.resolve_right fun hok => hc hok.titles⟩

theorem sameResult_of_isMergeResult {result result' : Except MergeError (List (Row ρ))}
    (h : IsMergeResult base ours theirs result) (h' : IsMergeResult base theirs ours result') :
    SameResult result result' := by
  cases result with
  | error e =>
    have hconflict := h.fails.mp ⟨e, rfl⟩
    obtain ⟨e', rfl⟩ := h'.fails.mpr (ThreeWay.conflict_comm.mp hconflict)
    trivial
  | ok rows =>
    cases result' with
    | error e' =>
      have hconflict := h'.fails.mp ⟨e', rfl⟩
      obtain ⟨e, he⟩ := h.fails.mpr (ThreeWay.conflict_comm.mp hconflict)
      cases he
    | ok rows' =>
      exact ThreeWay.isMerge_unique (h.rows rows rfl).2 (ThreeWay.isMerge_comm.mp (h'.rows rows' rfl).2)

theorem uniqueIds_of_merge (h : Ledgers baseRaw oursRaw theirsRaw base ours theirs) {rows : List (Row ρ)}
    (hrows : mergeDemands3way baseRaw oursRaw theirsRaw = .ok rows) : UniqueIds rows := by
  simp only [mergeDemands3way, h.readBase, h.readOurs, h.readTheirs] at hrows
  split at hrows
  · cases hrows
  · split at hrows
    · cases hrows
    · cases hrows
      exact uniqueIds_merged h.oursIds h.theirsIds

theorem isMergeResult_of_same {result result' : Except MergeError (List (Row ρ))}
    (h : IsMergeResult base ours theirs result) (hsame : SameResult result result')
    (hunique : ∀ rows, result' = .ok rows → UniqueIds rows) : IsMergeResult base theirs ours result' := by
  cases result with
  | error e =>
    cases result' with
    | error e' =>
      have hconflict := ThreeWay.conflict_comm.mp (h.fails.mp ⟨e, rfl⟩)
      exact ⟨⟨fun _ => hconflict, fun _ => ⟨e', rfl⟩⟩, nofun⟩
    | ok rows' => exact False.elim hsame
  | ok rows =>
    cases result' with
    | error e' => exact False.elim hsame
    | ok rows' =>
      have hmerge := (h.rows rows rfl).2
      have hsame : byId rows = byId rows' := hsame
      rw [hsame, ThreeWay.isMerge_comm] at hmerge
      refine ⟨⟨nofun, fun hbad => absurd hbad (ThreeWay.not_conflict_of_isMerge hmerge)⟩, fun r hr => ?_⟩
      cases hr
      exact ⟨hunique rows' rfl, hmerge⟩

/-- The merge of ledgers with unique ids is semantic exactly if they are in conflict or nothing else
stands in its way, from either side. -/
theorem merge_semantic_iff (h : Ledgers baseRaw oursRaw theirsRaw base ours theirs) :
    Semantic baseRaw oursRaw theirsRaw base ours theirs ↔
      ThreeWay.Conflict (byId base) (byId ours) (byId theirs) ∨
        (Mergeable oursRaw theirsRaw base ours theirs ∧ Mergeable theirsRaw oursRaw base theirs ours) := by
  have hboth : Semantic baseRaw oursRaw theirsRaw base ours theirs ↔
      IsMergeResult base ours theirs (mergeDemands3way baseRaw oursRaw theirsRaw) ∧
        IsMergeResult base theirs ours (mergeDemands3way baseRaw theirsRaw oursRaw) := by
    constructor
    · rintro ⟨hresult, hswap⟩
      exact ⟨hresult, isMergeResult_of_same hresult hswap fun rows => uniqueIds_of_merge h.swap⟩
    · rintro ⟨hresult, hresult'⟩
      exact ⟨hresult, sameResult_of_isMergeResult hresult hresult'⟩
  rw [hboth, isMergeResult_iff h, isMergeResult_iff h.swap, ← ThreeWay.conflict_comm, ← or_and_left]

def demand (id title : String) : Row Unit := ⟨some id, some title, ()⟩

def ledger (rows : List (Row Unit)) : LedgerText Unit := .json (.list (rows.map Item.row))

end

/-- A branch changes one demand while main adds another. -/
theorem merge_semantic_added :
    Semantic (ledger [demand "USR-01" "First"]) (ledger [demand "USR-01" "First", demand "USR-02" "Second"])
      (ledger [demand "USR-03" "Third", demand "USR-01" "First"]) [demand "USR-01" "First"]
      [demand "USR-01" "First", demand "USR-02" "Second"] [demand "USR-03" "Third", demand "USR-01" "First"] := by
  refine (merge_semantic_iff ⟨rfl, rfl, rfl, ⟨by decide, by decide⟩, ⟨by decide, by decide⟩,
    ⟨by decide, by decide⟩⟩).mpr (.inr ⟨?_, ?_⟩)
  all_goals
    refine ⟨?_, fun id r _ hbase _ => ?_, by decide⟩
    · intro collisions hcollisions
      have hnone : collisions = [] := by
        have hsome : some collisions = some [] := hcollisions.symm.trans (by decide)
        exact Option.some.inj hsome
      exact hnone
    · obtain ⟨hr, hid⟩ := byId_some hbase
      simp only [List.mem_singleton] at hr
      subst hr
      cases hid
      decide

/-- A deleted demand comes back, and a new title is refused. -/
theorem one_sided_changes_lost :
    (mergeDemands3way (ledger [demand "USR-01" "First", demand "USR-02" "Second"])
        (ledger [demand "USR-01" "First", demand "USR-02" "Second"]) (ledger [demand "USR-01" "First"]) =
      .ok [demand "USR-01" "First", demand "USR-02" "Second"] ∧
      ¬ Semantic (ledger [demand "USR-01" "First", demand "USR-02" "Second"])
        (ledger [demand "USR-01" "First", demand "USR-02" "Second"]) (ledger [demand "USR-01" "First"])
        [demand "USR-01" "First", demand "USR-02" "Second"]
        [demand "USR-01" "First", demand "USR-02" "Second"] [demand "USR-01" "First"]) ∧
      mergeDemands3way (ledger [demand "USR-01" "First"]) (ledger [demand "USR-01" "Renamed"])
        (ledger [demand "USR-01" "First"]) = .error (.collisions [("USR-01", "First", "Renamed")]) ∧
      ¬ Semantic (ledger [demand "USR-01" "First"]) (ledger [demand "USR-01" "Renamed"])
        (ledger [demand "USR-01" "First"]) [demand "USR-01" "First"] [demand "USR-01" "Renamed"]
        [demand "USR-01" "First"] := by
  refine ⟨⟨by decide, fun h => ?_⟩, by decide, fun h => ?_⟩
  · have hmerge := (h.result.rows [demand "USR-01" "First", demand "USR-02" "Second"] (by decide)).2
    have hback := hmerge "USR-02"
    revert hback
    decide
  · obtain ⟨id, hid⟩ := h.result.fails.mp ⟨.collisions [("USR-01", "First", "Renamed")], by decide⟩
    exact ThreeWay.not_conflict_of_isMerge ThreeWay.isMerge_ours ⟨id, hid⟩

end Demands
end DarkFactory
