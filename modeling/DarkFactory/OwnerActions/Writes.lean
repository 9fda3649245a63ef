import DarkFactory.OwnerActions.Rows

/-!
# DarkFactory.OwnerActions.Writes

What each write of the backlog does to its items.

* `View` — the items of the definitions and of the dynamic ledger, and the resolutions.
-/

namespace DarkFactory
namespace OwnerActions
namespace Store

open Calls

structure View where
  curated : String → Option Item
  dynamic : String → Option Item
  entry : String → Option Resolution

def setAt {β : Type} (f : String → Option β) (k : String) (v : β) : String → Option β :=
  fun j => if j = k then some v else f j

@[simp] theorem setAt_self {β : Type} (f : String → Option β) (k : String) (v : β) : setAt f k v k = some v :=
  if_pos rfl

theorem setAt_ne {β : Type} (f : String → Option β) {k j : String} (v : β) (h : j ≠ k) : setAt f k v j = f j :=
  if_neg h

section

variable (scan : SecretScan)

def dynamicRows (b : Backlog) : List Row := (b.dynamic.map rawActions).getD []

def resolutionsOf (b : Backlog) : List (String × Resolution) := (b.overlay.map Overlay.loaded).getD []

def view (b : Backlog) : View where
  curated := items scan b.definitions.rows
  dynamic := items scan (dynamicRows b)
  entry := resolutionOf (resolutionsOf b)

end

def Item.settle (i : Item) (option : Option String) : Item := { i with done := true, option := option }

variable {scan : SecretScan} {now : String}

theorem mutateLedger_ok {α : Type} {fn : Ledger → Except OwnerActionError (α × Ledger)} {l l' : Ledger} {x : α}
    (h : mutateLedger scan fn l = .ok (x, l')) :
    ∃ doc : Ledger, doc.rows = rawActions l ∧ doc.readable = true ∧ Valid scan doc.rows ∧ fn doc = .ok (x, l') ∧
      Valid scan l'.rows := by
  unfold mutateLedger at h
  obtain ⟨doc, hdoc, h⟩ := bind_ok.mp h
  obtain ⟨_, hvalid, h⟩ := bind_ok.mp h
  obtain ⟨⟨result, doc'⟩, hfn, h⟩ := bind_ok.mp h
  obtain ⟨_, hvalid', h⟩ := bind_ok.mp h
  cases h
  unfold writableDocument at hdoc
  split at hdoc
  · rename_i hreadable
    cases hdoc
    have hrows := validateDocument_ok hvalid
    refine ⟨{ l with version := if l.version = .absent then .current else l.version }, ?_, hreadable, hrows, hfn,
      validateDocument_ok hvalid'⟩
    rw [rawActions, if_pos hreadable]
  · cases hdoc

def Edits {α : Type} (fn : Ledger → Except OwnerActionError (α × Ledger)) : Prop :=
  ∀ doc x doc', fn doc = .ok (x, doc') → doc'.readable = doc.readable ∧ Edit doc.rows doc'.rows

theorem mutateDefinitions_ok {α : Type} {fn : Ledger → Except OwnerActionError (α × Ledger)} (hfn : Edits fn)
    {d d' : Definitions} {x : α} (h : mutateDefinitions scan fn d = .ok (x, d')) :
    ∃ doc doc' : Ledger, doc.rows = d.rows ∧ Valid scan doc.rows ∧ fn doc = .ok (x, doc') ∧ Valid scan doc'.rows ∧
      ∀ k, rowOf scan d'.rows k = rowOf scan doc'.rows k := by
  unfold mutateDefinitions at h
  cases hcontrol : d.control with
  | none =>
    rw [hcontrol] at h
    obtain ⟨⟨result, file⟩, hmutate, h⟩ := bind_ok.mp h
    cases h
    obtain ⟨doc, hrows, hreadable, hvalid, hdoc, hvalid'⟩ := mutateLedger_ok hmutate
    refine ⟨doc, file, ?_, hvalid, hdoc, hvalid', fun k => ?_⟩
    · rw [hrows, Definitions.rows, hcontrol]
    · have hfile : file.readable = true := (hfn doc x file hdoc).1.trans hreadable
      have hrows' : ({ file := file } : Definitions).rows = file.rows := if_pos hfile
      rw [hrows']
  | some control =>
    rw [hcontrol] at h
    obtain ⟨file, hfile, h⟩ := bind_ok.mp h
    obtain ⟨_, hfileValid, h⟩ := bind_ok.mp h
    obtain ⟨_, hcontrolValid, h⟩ := bind_ok.mp h
    obtain ⟨⟨result, doc'⟩, hmutate, h⟩ := bind_ok.mp h
    cases h
    have hrows : file.rows = rawActions d.file := by
      unfold writableDocument at hfile
      split at hfile
      · rename_i hreadable
        cases hfile
        rw [rawActions, if_pos hreadable]
      · cases hfile
    obtain ⟨doc, hdocRows, -, hvalid, hdoc, hvalid'⟩ := mutateLedger_ok hmutate
    have hmerged : doc.rows = mergeRows file.rows control := hdocRows
    refine ⟨doc, doc', ?_, hvalid, hdoc, hvalid', fun k => ?_⟩
    · rw [hmerged, hrows, Definitions.rows, hcontrol]
    · have hedit := (hfn doc x doc' hdoc).2
      rw [hmerged] at hedit
      have hk := control_rows (validateDocument_ok hfileValid) (validateDocument_ok hcontrolValid) hvalid' hedit k
      rw [hrows] at hk
      rw [hrows]
      exact hk

variable {a : OwnerAction} {id : String} {f : OwnerAction → Except OwnerActionError OwnerAction}
variable {answer : Option DecisionAnswer} {b b' : Backlog}

theorem saysDone_of_validate {r : Row} (h : r.validate scan now = some a) :
    r.saysDone = a.isDone ∧ r.key = some a.id := by
  cases r with
  | object b =>
    have hsame := OwnerAction.validate_same h
    exact ⟨by rw [Row.saysDone, OwnerAction.isDone, OwnerAction.isDone, hsame.status], congrArg some hsame.id.symm⟩
  | mistyped id done => cases h
  | other => cases h

def Updates (f : OwnerAction → Except OwnerActionError OwnerAction) : Prop :=
  ∀ a u, f a = .ok u → u.id = a.id ∧ (a.isDone = true → u.isDone = true)

theorem update_ok (hf : Updates f) {l l' : Ledger} {u : OwnerAction} (h : l.update scan now id f = .ok (u, l')) :
    l'.readable = l.readable ∧ u.id = id ∧ Put l.rows l'.rows u ∧
      ∃ raw a, Lookup.get Row.key l.rows (some id) = some raw ∧ raw.validate scan now = some a ∧ f a = .ok u := by
  unfold Ledger.update at h
  obtain ⟨⟨updated, rows⟩, hrows, h⟩ := bind_ok.mp h
  cases h
  obtain ⟨raw, a, hget, hvalidate, hfa, hput⟩ := updateRow_ok hrows
  obtain ⟨hdone, hkey⟩ := saysDone_of_validate hvalidate
  have hid : u.id = id := by
    rw [(hf a u hfa).1]
    exact Option.some.inj (hkey.symm.trans (Lookup.get_key hget).2)
  refine ⟨rfl, hid, ⟨fun key => ?_, fun r hr hrdone => ?_⟩, raw, a, hget, hvalidate, hfa⟩
  · rw [hput hid, hid]
  · rw [hid, hget] at hr
    cases hr
    exact (hf a u hfa).2 (hdone.symm.trans hrdone)

theorem edits_update (hf : Updates f) : Edits (Ledger.update scan now id f) := by
  intro doc u doc' h
  obtain ⟨hreadable, _, hput, _⟩ := update_ok hf h
  exact ⟨hreadable, .put u hput⟩

theorem items_of_get {rows : List Row} (hvalid : Valid scan rows) {id : String} {raw : Row} {a : OwnerAction}
    (hget : Lookup.get Row.key rows (some id) = some raw) (hvalidate : raw.validate scan now = some a) :
    items scan rows id = some (item a) := by
  rw [row_validate, Option.map_eq_some_iff] at hvalidate
  obtain ⟨b, hb, rfl⟩ := hvalidate
  rw [items, rowOf_unique hvalid.unique, hget, Option.bind_some, hb, Option.map_some]
  exact congrArg some (item_same (OwnerAction.fillResolved_same now b)).symm

theorem items_none {rows : List Row} (hvalid : Valid scan rows) {id : String}
    (hget : Lookup.get Row.key rows (some id) = none) : items scan rows id = none := by
  rw [items, rowOf_unique hvalid.unique, hget]
  rfl

theorem update_definitions (hf : Updates f)
    {d d' : Definitions} {u : OwnerAction} (h : mutateDefinitions scan (Ledger.update scan now id f) d = .ok (u, d')) :
    ∃ a, items scan d.rows id = some (item a) ∧ f a = .ok u ∧ u.id = id ∧
      items scan d'.rows = setAt (items scan d.rows) id (item u) := by
  obtain ⟨doc, doc', hrows, hvalid, hfn, hvalid', hk⟩ := mutateDefinitions_ok (edits_update hf) h
  obtain ⟨_, hid, hput, raw, a, hget, hvalidate, hfa⟩ := update_ok hf hfn
  refine ⟨a, ?_, hfa, hid, ?_⟩
  · rw [← hrows]
    exact items_of_get hvalid hget hvalidate
  · funext k
    have hitems := items_put hvalid hvalid' hput k
    rw [items, hk k, ← items, hitems, hid, ← hrows]
    rfl

theorem edits_insert (action : OwnerAction) : Edits (insert scan now action) := by
  intro doc x doc' h
  unfold insert at h
  split at h
  · cases h
    exact ⟨rfl, .same rfl⟩
  · rename_i hnone
    cases h
    exact ⟨rfl, .put action (append_put hnone)⟩

theorem insert_items {action : OwnerAction} {doc doc' : Ledger} {x : OwnerAction × Bool} (hvalid : Valid scan doc.rows)
    (hvalid' : Valid scan doc'.rows) (h : insert scan now action doc = .ok (x, doc')) :
    doc'.rows = doc.rows ∨
      items scan doc.rows action.id = none ∧ items scan doc'.rows = setAt (items scan doc.rows) action.id (item action) := by
  unfold insert at h
  split at h
  · cases h
    exact .inl rfl
  · rename_i hnone
    cases h
    exact .inr ⟨items_none hvalid hnone, funext (items_put hvalid hvalid' (append_put hnone))⟩

theorem updates_settle (answer : Option DecisionAnswer) : Updates fun action =>
    .ok { action with status := .done, resolvedAt := some now, answer := answer } := by
  intro a u h
  cases h
  exact ⟨rfl, fun _ => rfl⟩

theorem resolveInDefinitions_view {d' : Definitions}
    {u : OwnerAction} (h : resolveInDefinitions scan now id answer b.definitions = .ok (u, d')) :
    ∃ i, (view scan b).curated id = some i ∧ u.id = id ∧ item u = i.settle (answer.map DecisionAnswer.optionId) ∧
      view scan { b with definitions := d' } = { view scan b with
        curated := setAt (view scan b).curated id (i.settle (answer.map DecisionAnswer.optionId)) } := by
  obtain ⟨a, hitem, hu, hid, hitems⟩ := update_definitions (updates_settle answer) h
  cases hu
  refine ⟨item a, hitem, hid, rfl, ?_⟩
  unfold view
  rw [hitems]
  rfl

def loadedEntries (entries : List (String × Option Resolution)) : List (String × Resolution) :=
  entries.filterMap fun e => e.2.map fun r => (e.1, r)

theorem resolutionOf_cons (e : String × Option Resolution) (entries : List (String × Option Resolution)) (k : String) :
    resolutionOf (loadedEntries (e :: entries)) k =
      if e.1 = k then e.2.or (resolutionOf (loadedEntries entries) k) else resolutionOf (loadedEntries entries) k := by
  obtain ⟨id, value⟩ := e
  unfold loadedEntries
  cases value with
  | none =>
    rw [List.filterMap_cons_none rfl]
    split <;> rfl
  | some r =>
    have hcons : ((id, some r) :: entries).filterMap (fun e => e.2.map fun r => (e.1, r)) =
        (id, r) :: entries.filterMap fun e => e.2.map fun r => (e.1, r) := List.filterMap_cons_some rfl
    rw [hcons, resolutionOf, List.find?_cons]
    by_cases hid : id = k
    · rw [decide_eq_true hid, if_pos hid]
      rfl
    · rw [decide_eq_false hid, if_neg hid]
      rfl

theorem resolutionOf_replace_self {entries : List (String × Option Resolution)} (r : Resolution)
    (h : ∃ e ∈ entries, e.1 = id) :
    resolutionOf (loadedEntries (entries.map fun e => if e.1 = id then (id, some r) else e)) id = some r := by
  induction entries with
  | nil =>
    obtain ⟨e, he, _⟩ := h
    cases he
  | cons e entries ih =>
    rw [List.map_cons, resolutionOf_cons]
    by_cases hid : e.1 = id
    · rw [if_pos hid, if_pos rfl]
      rfl
    · rw [if_neg hid, if_neg hid]
      obtain ⟨e', he', hid'⟩ := h
      rcases List.mem_cons.mp he' with rfl | he'
      · exact absurd hid' hid
      · exact ih ⟨e', he', hid'⟩

theorem resolutionOf_replace_ne (entries : List (String × Option Resolution)) {id k : String} (r : Resolution)
    (hk : k ≠ id) :
    resolutionOf (loadedEntries (entries.map fun e => if e.1 = id then (id, some r) else e)) k =
      resolutionOf (loadedEntries entries) k := by
  induction entries with
  | nil => rfl
  | cons e entries ih =>
    rw [List.map_cons, resolutionOf_cons, resolutionOf_cons, ih]
    by_cases hid : e.1 = id
    · rw [if_pos hid, if_neg (Ne.symm hk), if_neg fun h => hk (h.symm.trans hid)]
    · rw [if_neg hid]

theorem resolutionOf_append (entries : List (String × Option Resolution)) {id : String}
    (hnew : ∀ e ∈ entries, e.1 ≠ id) (r : Resolution) (k : String) :
    resolutionOf (loadedEntries (entries ++ [(id, some r)])) k =
      if k = id then some r else resolutionOf (loadedEntries entries) k := by
  induction entries with
  | nil =>
    rw [List.nil_append, resolutionOf_cons]
    by_cases hk : k = id
    · subst hk
      rw [if_pos rfl, if_pos rfl]
      rfl
    · rw [if_neg (Ne.symm hk), if_neg hk]
  | cons e entries ih =>
    rw [List.cons_append, resolutionOf_cons, resolutionOf_cons, ih fun e he => hnew e (List.mem_cons_of_mem _ he)]
    by_cases hk : k = id
    · subst hk
      rw [if_pos rfl, if_pos rfl, if_neg (hnew e List.mem_cons_self)]
    · rw [if_neg hk, if_neg hk]

theorem resolutionOf_setEntry (entries : List (String × Option Resolution)) (id : String) (r : Resolution) :
    resolutionOf (loadedEntries (setEntry entries id r)) = setAt (resolutionOf (loadedEntries entries)) id r := by
  funext k
  unfold setEntry setAt
  split
  · rename_i hany
    by_cases hk : k = id
    · subst hk
      rw [if_pos rfl]
      simp only [List.any_eq_true, decide_eq_true_eq] at hany
      exact resolutionOf_replace_self r hany
    · rw [if_neg hk]
      exact resolutionOf_replace_ne entries r hk
  · rename_i hany
    exact resolutionOf_append entries (Lookup.not_any_key hany) r k

theorem writeOverlay_view {current : OwnerAction} {note : String} {o o' : Overlay} (ho : b.overlay = some o)
    (h : writeOverlay scan now current answer note b.definitions o = .ok (a, o')) :
    let r : Resolution := { resolvedAt := now, answer := answer, note := Text.strip note }
    a = applyResolution current (some r) ∧
      view scan { b with overlay := some o' } =
        { view scan b with entry := setAt (view scan b).entry current.id r } := by
  unfold writeOverlay at h
  obtain ⟨_, _, h⟩ := bind_ok.mp h
  have hloaded : o.loaded = loadedEntries (if o.isObject then o else {}).entries := by
    unfold Overlay.loaded
    split <;> rfl
  have hobject : (if o.isObject then o else {}).isObject = true := by
    split
    · assumption
    · rfl
  dsimp only at h
  generalize (if o.isObject then o else {}) = document at h hloaded hobject
  split at h
  · cases h
    refine ⟨rfl, ?_⟩
    have hloaded' : ({ document with
        entries := setEntry document.entries current.id { resolvedAt := now, answer := answer, note := Text.strip note } }
          : Overlay).loaded = loadedEntries (setEntry document.entries current.id
            { resolvedAt := now, answer := answer, note := Text.strip note }) := if_pos hobject
    unfold view resolutionsOf
    rw [ho, Option.map_some, Option.getD_some, Option.map_some, Option.getD_some, hloaded, hloaded',
      resolutionOf_setEntry]
    rfl
  · cases h

theorem writeAnswer_view {args : ResolveArgs} {current : OwnerAction}
    (h : writeAnswer scan now args current answer b = .ok (a, b')) :
    (∃ i, (view scan b).curated args.actionId = some i ∧ a.id = args.actionId ∧
      item a = i.settle (answer.map DecisionAnswer.optionId) ∧
      view scan b' = { view scan b with
        curated := setAt (view scan b).curated args.actionId (i.settle (answer.map DecisionAnswer.optionId)) }) ∨
    ∃ r : Resolution, r.status = .done ∧ r.answer = answer ∧ a = applyResolution current (some r) ∧
      view scan b' = { view scan b with entry := setAt (view scan b).entry current.id r } := by
  unfold writeAnswer at h
  split at h
  · split at h
    · cases h
    · rename_i o ho
      obtain ⟨⟨action, o'⟩, hwrite, h⟩ := bind_ok.mp h
      cases h
      obtain ⟨ha, hview⟩ := writeOverlay_view ho hwrite
      exact .inr ⟨_, rfl, rfl, ha, hview⟩
  · obtain ⟨⟨action, d'⟩, hwrite, h⟩ := bind_ok.mp h
    cases h
    exact .inl (resolveInDefinitions_view hwrite)

def Item.reconcile (i : Item) (close : Bool) (entry : HistoryEntry) : Item :=
  { i with done := i.done || close, history := i.history ++ [entry] }

theorem updates_reconcile (r : Reconciliation) : Updates fun action =>
    match (r.apply scan now action).validate scan now with
    | none => .error .invalid
    | some updated => .ok updated := by
  intro a u h
  dsimp only at h
  cases hvalidate : (r.apply scan now a).validate scan now with
  | none =>
    rw [hvalidate] at h
    cases h
  | some updated =>
    rw [hvalidate] at h
    cases h
    have hsame := OwnerAction.validate_same hvalidate
    refine ⟨hsame.id, fun hdone => ?_⟩
    rw [OwnerAction.isDone, hsame.status]
    unfold Reconciliation.apply
    simp only [hdone, Bool.not_true, Bool.and_false, Bool.false_eq_true, if_false]
    exact hdone

theorem item_reconciled {r : Reconciliation} {u : OwnerAction} (h : (r.apply scan now a).validate scan now = some u) :
    item u = (item a).reconcile r.close [("at", now), ("outcome", r.outcome), ("note", scan.redact r.note)] := by
  rw [item_same (OwnerAction.validate_same h)]
  unfold item Item.reconcile Reconciliation.apply OwnerAction.isDone
  by_cases hstatus : a.status = .done
  · simp [hstatus, OwnerAction.optionIds, OwnerAction.option]
  · cases r.close <;> simp [hstatus, OwnerAction.optionIds, OwnerAction.option]

theorem reconcileIn_view {r : Reconciliation} (h : reconcileIn scan now r b = .ok (a, b')) :
    ∃ i entry, (view scan b).curated r.actionId = some i ∧
      view scan b' = { view scan b with
        curated := setAt (view scan b).curated r.actionId (i.reconcile r.close entry) } := by
  unfold reconcileIn reconcileUpdate at h
  obtain ⟨⟨u, d'⟩, hwrite, h⟩ := bind_ok.mp h
  cases h
  obtain ⟨a', hitem, hu, _, hitems⟩ := update_definitions (updates_reconcile r) hwrite
  cases hvalidate : (r.apply scan now a').validate scan now with
  | none =>
    rw [hvalidate] at hu
    cases hu
  | some updated =>
    rw [hvalidate] at hu
    cases hu
    refine ⟨item a', [("at", now), ("outcome", r.outcome), ("note", scan.redact r.note)], hitem, ?_⟩
    unfold view
    rw [hitems, item_reconciled hvalidate]
    rfl

theorem upsertIn_view {target : Target} {action : OwnerAction} {x : OwnerAction × Bool}
    (h : upsertIn scan now target action b = .ok (x, b')) :
    view scan b' = view scan b ∨
      (target = .definitions ∧ (view scan b).curated action.id = none ∧
        view scan b' = { view scan b with curated := setAt (view scan b).curated action.id (item action) }) ∨
      (target = .dynamic ∧ (view scan b).dynamic action.id = none ∧
        view scan b' = { view scan b with dynamic := setAt (view scan b).dynamic action.id (item action) }) := by
  unfold upsertIn at h
  cases target with
  | definitions =>
    obtain ⟨⟨result, d'⟩, hwrite, h⟩ := bind_ok.mp h
    cases h
    obtain ⟨doc, doc', hrows, hvalid, hfn, hvalid', hk⟩ := mutateDefinitions_ok (edits_insert action) hwrite
    have hitems : items scan d'.rows = items scan doc'.rows := funext fun k => by rw [items, hk k, ← items]
    unfold view
    rcases insert_items hvalid hvalid' hfn with hsame | ⟨hnone, hset⟩
    · refine .inl ?_
      rw [hitems, hsame, hrows]
      rfl
    · rw [hrows] at hnone hset
      refine .inr (.inl ⟨rfl, hnone, ?_⟩)
      rw [hitems, hset]
      rfl
  | dynamic =>
    cases hdynamic : b.dynamic with
    | none =>
      rw [hdynamic] at h
      cases h
    | some dynamic =>
      rw [hdynamic] at h
      obtain ⟨⟨result, l'⟩, hwrite, h⟩ := bind_ok.mp h
      cases h
      obtain ⟨doc, hrows, hreadable, hvalid, hfn, hvalid'⟩ := mutateLedger_ok hwrite
      have hraw : rawActions l' = l'.rows := if_pos ((edits_insert action doc _ l' hfn).1.trans hreadable)
      unfold view dynamicRows
      rw [hdynamic, Option.map_some, Option.getD_some, Option.map_some, Option.getD_some, hraw, ← hrows]
      rcases insert_items hvalid hvalid' hfn with hsame | ⟨hnone, hset⟩
      · refine .inl ?_
        rw [hsame]
        rfl
      · refine .inr (.inr ⟨rfl, hnone, ?_⟩)
        rw [hset]
        rfl

theorem updates_closedRow : Updates (closedRow scan now) := by
  intro a u h
  unfold closedRow at h
  split at h
  · cases h
  · rename_i done hvalidate
    cases h
    have hsame := OwnerAction.validate_same hvalidate
    exact ⟨hsame.id, fun _ => decide_eq_true hsame.status⟩

theorem syncIn_view {e : MachineEvent} (h : syncIn scan now e b = .ok (a, b')) :
    view scan b' = view scan b ∨
      (∃ i, (view scan b).dynamic e.action.id = none ∧
        view scan b' = { view scan b with dynamic := setAt (view scan b).dynamic e.action.id i }) ∨
      ∃ i, e.closed = true ∧ (view scan b).dynamic e.action.id = some i ∧ i.done = false ∧
        view scan b' = { view scan b with
          dynamic := setAt (view scan b).dynamic e.action.id { i with done := true } } := by
  unfold syncIn at h
  cases hdynamic : b.dynamic with
  | none =>
    rw [hdynamic] at h
    cases h
  | some dynamic =>
    rw [hdynamic] at h
    obtain ⟨⟨result, l'⟩, hwrite, h⟩ := bind_ok.mp h
    cases h
    obtain ⟨doc, hrows, hreadable, hvalid, hfn, hvalid'⟩ := mutateLedger_ok hwrite
    unfold view dynamicRows
    rw [hdynamic, Option.map_some, Option.getD_some, Option.map_some, Option.getD_some, ← hrows]
    unfold MachineEvent.apply at hfn
    split at hfn
    · cases hfn
    · split at hfn
      · rename_i raw hget
        split at hfn
        · cases hfn
        · split at hfn
          · cases hfn
          · rename_i existing hexisting
            split at hfn
            · cases hfn
              refine .inl ?_
              rw [rawActions, if_pos hreadable]
              rfl
            · rename_i hopen
              rw [Bool.or_eq_true, Bool.not_eq_true', not_or, Bool.not_eq_true, Bool.not_eq_false] at hopen
              obtain ⟨hreadable', hid, hput, raw', a', hget', hvalidate, hclosed⟩ := update_ok updates_closedRow hfn
              obtain rfl : raw' = raw := Option.some.inj (hget'.symm.trans hget)
              obtain rfl : a' = existing := Option.some.inj (hvalidate.symm.trans hexisting)
              refine .inr (.inr ⟨item a', hopen.2, items_of_get hvalid hget hexisting, hopen.1, ?_⟩)
              rw [rawActions, if_pos (hreadable'.trans hreadable), funext (items_put hvalid hvalid' hput), hid]
              unfold closedRow at hclosed
              split at hclosed
              · cases hclosed
              · rename_i done hdone
                cases hclosed
                rw [item_same (OwnerAction.validate_same hdone)]
                rfl
      · rename_i hnone
        obtain ⟨saved, identities, hid, hl⟩ : ∃ saved identities, saved.id = e.action.id ∧
            l' = { doc with rows := doc.rows ++ [.object saved], identities := identities } := by
          dsimp only at hfn
          split at hfn
          · obtain ⟨saved, hsaved, hfn⟩ := bind_ok.mp hfn
            cases hfn
            exact ⟨_, _, (updates_closedRow e.action _ hsaved).1, rfl⟩
          · cases hfn
            exact ⟨e.action, _, rfl, rfl⟩
        subst hl
        have hget : Lookup.get Row.key doc.rows (some saved.id) = none := by
          rw [hid]
          exact hnone
        refine .inr (.inl ⟨item saved, items_none hvalid hnone, ?_⟩)
        rw [rawActions, if_pos hreadable, funext (items_put hvalid hvalid' (append_put hget)), hid]
        rfl

end Store
end OwnerActions
end DarkFactory
