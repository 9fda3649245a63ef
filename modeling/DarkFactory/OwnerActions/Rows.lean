import DarkFactory.Lib.Calls
import DarkFactory.Lib.Lookup
import DarkFactory.OwnerActions.Store

/-!
# DarkFactory.OwnerActions.Rows

What reading and writing do to the rows of an id.

* `Item` — what an answer and the trail of an action go by; validation leaves it alone.
* `rowOf` — the valid action of an id, the first one.
* `Edit` — the two things that a write does to the rows of a ledger: it puts a row at an id, or nothing.
-/

namespace DarkFactory
namespace OwnerActions
namespace Store

open Calls

structure Item where
  kind : ActionKind
  options : List String
  done : Bool
  option : Option String
  history : List HistoryEntry

def item (a : OwnerAction) : Item := ⟨a.kind, a.optionIds, a.isDone, a.option, a.history⟩

theorem item_same {a b : OwnerAction} (h : OwnerAction.Same a b) : item b = item a := by
  unfold item OwnerAction.optionIds OwnerAction.isDone OwnerAction.option
  rw [h.kind, h.options, h.status, h.answer, h.history]

def itemIn (actions : List OwnerAction) (k : String) : Option Item :=
  (Lookup.get OwnerAction.id actions k).map item

section

variable (scan : SecretScan)

def rowOf (rows : List Row) (k : String) : Option OwnerAction :=
  Lookup.get OwnerAction.id (rows.filterMap (Row.accept scan)) k

end

variable {scan : SecretScan} {now : String}

theorem firsts_get {seen : List String} {actions : List OwnerAction} {k : String} (hk : k ∉ seen) :
    Lookup.get OwnerAction.id (firsts seen actions) k = Lookup.get OwnerAction.id actions k := by
  induction actions generalizing seen with
  | nil => rfl
  | cons a actions ih =>
    rw [firsts, Lookup.get_cons]
    split
    · rename_i hseen
      have hne : a.id ≠ k := by
        rintro rfl
        exact hk hseen
      rw [ih hk, if_neg hne]
    · rw [Lookup.get_cons]
      split
      · rfl
      · rename_i hne
        refine ih fun hmem => ?_
        rcases List.mem_cons.mp hmem with rfl | hmem
        · exact hne rfl
        · exact hk hmem

theorem firsts_unique (seen : List String) (actions : List OwnerAction) :
    Lookup.Unique OwnerAction.id (firsts seen actions) ∧ ∀ a ∈ firsts seen actions, a.id ∉ seen := by
  induction actions generalizing seen with
  | nil => exact ⟨List.nodup_nil, fun _ h => by cases h⟩
  | cons a actions ih =>
    rw [firsts]
    split
    · exact ih seen
    · rename_i hnew
      obtain ⟨hunique, hids⟩ := ih (a.id :: seen)
      refine ⟨?_, ?_⟩
      · rw [Lookup.Unique, List.map_cons, List.nodup_cons]
        refine ⟨?_, hunique⟩
        rw [List.mem_map]
        rintro ⟨b, hb, hid⟩
        exact hids b hb (hid ▸ List.mem_cons_self)
      · intro b hb
        rcases List.mem_cons.mp hb with rfl | hb
        · exact hnew
        · exact fun hmem => hids b hb (List.mem_cons_of_mem _ hmem)

theorem row_validate (r : Row) : r.validate scan now = (r.accept scan).map (OwnerAction.fillResolved now) := by
  cases r <;> rfl

theorem loadRows_get (rows : List Row) (k : String) :
    Lookup.get OwnerAction.id (loadRows scan now rows) k = (rowOf scan rows k).map (OwnerAction.fillResolved now) := by
  have hfun : Row.validate scan now = fun r => (r.accept scan).map (OwnerAction.fillResolved now) :=
    funext row_validate
  rw [loadRows, firsts_get List.not_mem_nil, hfun, ← List.map_filterMap]
  exact Lookup.get_map (fun a => (OwnerAction.fillResolved_same now a).id) _ k

theorem itemIn_loadRows (rows : List Row) (k : String) :
    itemIn (loadRows scan now rows) k = (rowOf scan rows k).map item := by
  rw [itemIn, loadRows_get, Option.map_map]
  congr 1
  funext a
  exact item_same (OwnerAction.fillResolved_same now a)

structure Valid (scan : SecretScan) (rows : List Row) : Prop where
  accepted : ∀ r ∈ rows, (r.accept scan).isSome
  unique : Lookup.Unique Row.key rows

theorem accept_key {r : Row} {a : OwnerAction} (h : r.accept scan = some a) : r.key = some a.id := by
  cases r with
  | object b => exact congrArg some (OwnerAction.accept_same h).id.symm
  | mistyped id done => cases h
  | other => cases h

variable {rows rows' : List Row}

theorem validateRows_ok {seen : List String} {index : Nat} (h : validateRows scan seen index rows = .ok ()) :
    Valid scan rows ∧ ∀ r ∈ rows, ∀ id ∈ seen, r.key ≠ some id := by
  induction rows generalizing seen index with
  | nil => exact ⟨⟨fun _ h => (by cases h), List.nodup_nil⟩, fun _ h => (by cases h)⟩
  | cons r rows ih =>
    rw [validateRows] at h
    cases haccept : r.accept scan with
    | none =>
      rw [haccept] at h
      cases h
    | some a =>
      rw [haccept] at h
      dsimp only at h
      split at h
      · cases h
      · rename_i hnew
        obtain ⟨hvalid, hids⟩ := ih h
        have hkey := accept_key haccept
        refine ⟨⟨?_, ?_⟩, ?_⟩
        · intro r' hr'
          rcases List.mem_cons.mp hr' with rfl | hr'
          · rw [haccept]
            rfl
          · exact hvalid.accepted r' hr'
        · rw [Lookup.Unique, List.map_cons, List.nodup_cons]
          refine ⟨?_, hvalid.unique⟩
          rw [List.mem_map]
          rintro ⟨r', hr', hsame⟩
          exact hids r' hr' a.id List.mem_cons_self (hsame.trans hkey)
        · intro r' hr' id hid hsame
          rcases List.mem_cons.mp hr' with rfl | hr'
          · rw [hkey] at hsame
            cases hsame
            exact hnew hid
          · exact hids r' hr' id (List.mem_cons_of_mem _ hid) hsame

theorem validateDocument_ok {l : Ledger} (h : validateDocument scan l = .ok ()) : Valid scan l.rows := by
  unfold validateDocument at h
  split at h
  · exact (validateRows_ok h).1
  · cases h

theorem rowOf_unique (hunique : Lookup.Unique Row.key rows) (k : String) :
    rowOf scan rows k = (Lookup.get Row.key rows (some k)).bind (Row.accept scan) := by
  induction rows with
  | nil => rfl
  | cons r rows ih =>
    rw [Lookup.Unique, List.map_cons, List.nodup_cons] at hunique
    have hrest := ih hunique.2
    rw [Lookup.get_cons]
    unfold rowOf at hrest ⊢
    cases haccept : r.accept scan with
    | none =>
      rw [List.filterMap_cons_none haccept, hrest]
      by_cases hk : r.key = some k
      · have hnone : Lookup.get Row.key rows (some k) = none := by
          rw [Lookup.get_eq_none]
          intro r' hr' hk'
          exact hunique.1 (List.mem_map.mpr ⟨r', hr', hk'.trans hk.symm⟩)
        rw [if_pos hk, hnone]
        exact haccept.symm
      · rw [if_neg hk]
    | some a =>
      rw [List.filterMap_cons_some haccept, Lookup.get_cons, hrest, accept_key haccept]
      by_cases hk : a.id = k
      · rw [if_pos hk, if_pos (congrArg some hk)]
        exact haccept.symm
      · rw [if_neg hk, if_neg (fun h => hk (Option.some.inj h))]

structure Put (rows rows' : List Row) (u : OwnerAction) : Prop where
  get : ∀ key, Lookup.get Row.key rows' key =
    if some u.id = key then some (.object u) else Lookup.get Row.key rows key
  done : ∀ r, Lookup.get Row.key rows (some u.id) = some r → r.saysDone = true → u.isDone = true

inductive Edit (rows rows' : List Row) : Prop where
  | same : rows' = rows → Edit rows rows'
  | put (u : OwnerAction) : Put rows rows' u → Edit rows rows'

section

variable (scan : SecretScan)

def items (rows : List Row) (k : String) : Option Item := (rowOf scan rows k).map item

end

theorem items_valid (h : Valid scan rows) {k : String} {a : OwnerAction}
    (hget : Lookup.get Row.key rows (some k) = some (.object a)) : items scan rows k = some (item a) := by
  have haccept := h.accepted (.object a) (Lookup.get_key hget).1
  obtain ⟨b, hb⟩ := Option.isSome_iff_exists.mp haccept
  rw [items, rowOf_unique h.unique, hget, Option.bind_some, hb, Option.map_some]
  exact congrArg some (item_same (OwnerAction.accept_same hb))

theorem items_put (h : Valid scan rows) (h' : Valid scan rows') {u : OwnerAction}
    (hput : Put rows rows' u) (k : String) :
    items scan rows' k = if k = u.id then some (item u) else items scan rows k := by
  split
  · rename_i hk
    subst hk
    refine items_valid h' ?_
    rw [hput.get, if_pos rfl]
  · rename_i hk
    rw [items, items, rowOf_unique h'.unique, rowOf_unique h.unique, hput.get,
      if_neg fun hid => hk (Option.some.inj hid).symm]

theorem updateRow_ok {id : String} {f : OwnerAction → Except OwnerActionError OwnerAction}
    {u : OwnerAction} (h : updateRow scan now id f rows = .ok (u, rows')) :
    ∃ raw a, Lookup.get Row.key rows (some id) = some raw ∧ raw.validate scan now = some a ∧ f a = .ok u ∧
      (u.id = id → ∀ key, Lookup.get Row.key rows' key =
        if some id = key then some (.object u) else Lookup.get Row.key rows key) := by
  induction rows generalizing rows' with
  | nil => cases h
  | cons raw rows ih =>
    rw [updateRow] at h
    split at h
    · rename_i hkey
      cases hvalidate : raw.validate scan now with
      | none =>
        rw [hvalidate] at h
        cases h
      | some a =>
        rw [hvalidate] at h
        obtain ⟨updated, hf, h⟩ := bind_ok.mp h
        cases h
        refine ⟨raw, a, by rw [Lookup.get_cons, if_pos hkey], hvalidate, hf, fun hid key => ?_⟩
        have hkey' : (Row.object u).key = some id := congrArg some hid
        rw [Lookup.get_cons, Lookup.get_cons, hkey, hkey']
        split <;> rfl
    · rename_i hkey
      obtain ⟨⟨updated, rest⟩, hrest, h⟩ := bind_ok.mp h
      cases h
      obtain ⟨found, a, hget, hvalidate, hf, hput⟩ := ih hrest
      refine ⟨found, a, by rw [Lookup.get_cons, if_neg hkey, hget], hvalidate, hf, fun hid key => ?_⟩
      rw [Lookup.get_cons, Lookup.get_cons, hput hid]
      by_cases hid' : some id = key
      · subst hid'
        rw [if_neg hkey, if_pos rfl, if_pos rfl]
      · rw [if_neg hid', if_neg hid']

theorem append_put {u : OwnerAction} (hnone : Lookup.get Row.key rows (some u.id) = none) :
    Put rows (rows ++ [.object u]) u := by
  refine ⟨fun key => ?_, fun r hr => ?_⟩
  · rw [Lookup.get_insert (Lookup.get_eq_none.mp hnone), List.append_nil]
    rfl
  · rw [hnone] at hr
    cases hr

def withControl (file control : Option Row) : Option Row :=
  match control with
  | none => file
  | some c =>
    match file with
    | none => some c
    | some f => if f.saysDone && !c.saysDone then some f else some c

theorem assign_get (merged : List Row) (raw : Row) (key : Option String) :
    Lookup.get Row.key (assign merged raw) key = if raw.key = key then some raw else Lookup.get Row.key merged key :=
  Lookup.get_put merged raw key

theorem mergeControl_get (merged : List Row) (raw : Row) (key : Option String) :
    Lookup.get Row.key (mergeControl merged raw) key =
      if raw.key = key then withControl (Lookup.get Row.key merged key) (some raw) else Lookup.get Row.key merged key := by
  have hassign := assign_get merged raw key
  unfold mergeControl
  by_cases hkey : raw.key = key
  · subst hkey
    rw [if_pos rfl] at hassign ⊢
    cases hget : Lookup.get Row.key merged raw.key with
    | none =>
      rw [Lookup.get] at hget
      rw [hget]
      exact hassign
    | some current =>
      have hfind : merged.find? (fun r => decide (r.key = raw.key)) = some current := hget
      rw [hfind, withControl]
      dsimp only
      split
      · exact hget
      · exact hassign
  · rw [if_neg hkey] at hassign ⊢
    split
    · split
      · rfl
      · exact hassign
    · exact hassign

theorem unique_mergeControl {merged : List Row} (raw : Row) (h : Lookup.Unique Row.key merged) :
    Lookup.Unique Row.key (mergeControl merged raw) := by
  unfold mergeControl
  split
  · split
    · exact h
    · exact Lookup.unique_put h raw
  · exact Lookup.unique_put h raw

theorem unique_mergeRows (fileRows controlRows : List Row) : Lookup.Unique Row.key (mergeRows fileRows controlRows) :=
  Lookup.unique_foldl (fun _ r h => unique_mergeControl r h) _
    (Lookup.unique_foldl (fun _ r h => Lookup.unique_put h r) _ List.nodup_nil)

theorem mergeRows_get {fileRows controlRows : List Row} (hfile : Valid scan fileRows)
    (hcontrol : Lookup.Unique Row.key controlRows) (key : Option String) :
    Lookup.get Row.key (mergeRows fileRows controlRows) key =
      withControl (Lookup.get Row.key fileRows key) (Lookup.get Row.key controlRows key) := by
  have hkeys : fileRows.filter (fun r => r.key.isSome) = fileRows := by
    rw [List.filter_eq_self]
    intro r hr
    obtain ⟨a, ha⟩ := Option.isSome_iff_exists.mp (hfile.accepted r hr)
    rw [accept_key ha]
    rfl
  have hbase : Lookup.get Row.key (fileRows.foldl assign []) key = Lookup.get Row.key fileRows key := by
    rw [Lookup.get_foldl (fun _ r => some r) assign_get hfile.unique]
    cases Lookup.get Row.key fileRows key <;> rfl
  rw [mergeRows, hkeys, Lookup.get_foldl (fun m r => withControl m (some r)) mergeControl_get hcontrol, hbase]
  cases Lookup.get Row.key controlRows key <;> rfl

theorem upsertRow_get (rows : List Row) (raw : Row) (key : Option String) :
    Lookup.get Row.key (upsertRow rows raw) key =
      if raw.key = key then some raw else Lookup.get Row.key rows key := by
  unfold upsertRow
  split
  · rename_i hany
    rw [Lookup.get_replace]
    split
    · rename_i hkey
      obtain ⟨r, hr⟩ := Lookup.any_key.mp hany
      rw [← hkey, hr]
      rfl
    · rfl
  · rename_i hany
    have hnew := Lookup.not_any_key hany
    rw [Lookup.get_insert fun r hr => hnew r (List.takeWhile_subset _ hr), List.takeWhile_append_dropWhile]

theorem unique_upsertRow (raw : Row) (h : Lookup.Unique Row.key rows) :
    Lookup.Unique Row.key (upsertRow rows raw) := by
  unfold upsertRow
  split
  · exact Lookup.unique_replace h raw
  · rename_i hany
    have hnew := Lookup.not_any_key hany
    refine Lookup.unique_insert ?_ ?_
    · rw [List.takeWhile_append_dropWhile]
      exact h
    · rw [List.takeWhile_append_dropWhile]
      exact hnew

theorem changedRows_get {before : List Row} (hunique : Lookup.Unique Row.key rows) (key : Option String) :
    Lookup.get Row.key (changedRows before rows) key =
      if Lookup.get Row.key before key = Lookup.get Row.key rows key then none else Lookup.get Row.key rows key := by
  rw [changedRows, Lookup.get_filter hunique]
  cases hget : Lookup.get Row.key rows key with
  | none => split <;> rfl
  | some r =>
    have hkey := (Lookup.get_key hget).2
    rw [Option.filter_some]
    have hfind : (before.find? fun b => decide (b.key = r.key)) = Lookup.get Row.key before key := by
      rw [Lookup.get, hkey]
    rw [hfind]
    by_cases hsame : Lookup.get Row.key before key = some r
    · rw [if_pos hsame, if_neg (by simp [hsame])]
    · rw [if_neg hsame, if_pos (by simp [hsame])]

theorem control_rows {fileRows controlRows : List Row} (hfile : Valid scan fileRows)
    (hcontrol : Valid scan controlRows) (hrows' : Valid scan rows')
    (hedit : Edit (mergeRows fileRows controlRows) rows') (k : String) :
    rowOf scan (mergeRows fileRows ((changedRows (mergeRows fileRows controlRows) rows').foldl upsertRow controlRows)) k =
      rowOf scan rows' k := by
  have hchanged : Lookup.Unique Row.key (changedRows (mergeRows fileRows controlRows) rows') :=
    hrows'.unique.sublist (List.filter_sublist.map Row.key)
  have hunique : Lookup.Unique Row.key
      ((changedRows (mergeRows fileRows controlRows) rows').foldl upsertRow controlRows) :=
    Lookup.unique_foldl (fun _ r h => unique_upsertRow r h) _ hcontrol.unique
  rw [rowOf_unique (unique_mergeRows _ _), rowOf_unique hrows'.unique, mergeRows_get hfile hunique,
    Lookup.get_foldl (fun _ r => some r) upsertRow_get hchanged, changedRows_get hrows'.unique]
  congr 1
  have hmerged := mergeRows_get hfile hcontrol.unique (some k)
  by_cases hsame : Lookup.get Row.key (mergeRows fileRows controlRows) (some k) = Lookup.get Row.key rows' (some k)
  · rw [if_pos hsame]
    exact hmerged.symm.trans hsame
  · rw [if_neg hsame]
    cases hedit with
    | same heq =>
      rw [heq] at hsame
      exact absurd rfl hsame
    | put u hput =>
      rw [hput.get] at hsame ⊢
      by_cases hk : some u.id = some k
      · rw [if_pos hk]
        dsimp only
        cases hf : Lookup.get Row.key fileRows (some k) with
        | none => rfl
        | some f =>
          -- a row that is done in the file is done in the merged rows, so its edit is too
          have hdone : f.saysDone = true → u.isDone = true := by
            intro hfdone
            rw [hf] at hmerged
            cases hc : Lookup.get Row.key controlRows (some k) with
            | none =>
              rw [hc, ← hk] at hmerged
              exact hput.done f hmerged hfdone
            | some c =>
              rw [hc, withControl] at hmerged
              split at hmerged
              · rw [← hk] at hmerged
                exact hput.done f hmerged hfdone
              · rename_i hover
                rw [← hk] at hmerged
                refine hput.done c hmerged ?_
                rw [hfdone, Bool.true_and, Bool.not_eq_true', Bool.not_eq_false] at hover
                exact hover
          unfold withControl
          dsimp only
          split
          · rename_i hbad
            rw [Bool.and_eq_true, Bool.not_eq_true'] at hbad
            have hu : u.isDone = false := hbad.2
            rw [hdone hbad.1] at hu
            cases hu
          · rfl
      · rw [if_neg hk] at hsame
        exact absurd rfl hsame

end Store
end OwnerActions
end DarkFactory
