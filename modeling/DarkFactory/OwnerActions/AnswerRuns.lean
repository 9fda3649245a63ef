import DarkFactory.OwnerActions.Answers

/-!
# DarkFactory.OwnerActions.AnswerRuns

What one call on a backlog does to the answers.
-/

namespace DarkFactory
namespace OwnerActions
namespace Store

open Calls

def given (a : OwnerAction) : Option (Option String) := if a.isDone then some a.option else none

variable {a current : OwnerAction} {b b' : Backlog} {k : String} {args : ResolveArgs} {answer : Option DecisionAnswer}

theorem given_done (h : a.isDone = true) : given a = some a.option := if_pos h

theorem given_open (h : a.isDone = false) : given a = none :=
  if_neg (by rw [h]; exact Bool.false_ne_true)

theorem given_eq_some {x : Option String} : given a = some x ↔ a.isDone = true ∧ a.option = x := by
  unfold given
  cases a.isDone <;> simp

def shown (actions : List OwnerAction) (k : String) : Option (Option String) :=
  (Lookup.get OwnerAction.id actions k).bind given

theorem applyResolution_id (a : OwnerAction) (r : Option Resolution) : (applyResolution a r).id = a.id := by
  unfold applyResolution
  split
  · rfl
  · split
    · rfl
    · split
      · split
        · split <;> rfl
        · rfl
      · rfl

theorem applyResolution_done (h : a.isDone = true) (r : Option Resolution) : applyResolution a r = a := by
  unfold applyResolution
  cases r with
  | none => rfl
  | some r => exact if_pos (by rw [h, Bool.true_or])

theorem applyResolution_open (h : a.isDone = false) (r : Resolution) :
    applyResolution a (some r) = if r.status = .done then
        match a.kind with
        | .decision =>
          match r.answer with
          | some answer =>
            if answer.optionId ∈ a.optionIds then
              { a with status := .done, resolvedAt := some r.resolvedAt, answer := some answer }
            else a
          | none => a
        | .action => { a with status := .done, resolvedAt := some r.resolvedAt, answer := none }
      else a := by
  unfold applyResolution
  by_cases hstatus : r.status = .done
  · rw [if_pos hstatus]
    exact if_neg (by rw [h, hstatus]; decide)
  · rw [if_neg hstatus]
    exact if_pos (by rw [h, decide_eq_true hstatus]; rfl)

theorem applyResolution_settled (a : OwnerAction) (r : Option Resolution) :
    given (applyResolution a r) = (item a).settled r := by
  cases hdone : a.isDone with
  | true =>
    have hitem : (item a).done = true := hdone
    rw [applyResolution_done hdone, Item.settled_done hitem, given_done hdone]
    rfl
  | false =>
    have hitem : (item a).done = false := hdone
    rw [Item.settled_open hitem]
    cases r with
    | none => exact given_open hdone
    | some r =>
      rw [applyResolution_open hdone]
      unfold Item.chosen
      dsimp only
      by_cases hstatus : r.status = .done
      · rw [if_pos hstatus, if_pos hstatus]
        have hkind : (item a).kind = a.kind := rfl
        rw [hkind]
        cases a.kind with
        | action => rfl
        | decision =>
          dsimp only
          cases r.answer with
          | none => exact given_open hdone
          | some answer =>
            dsimp only
            have hoptions : (item a).options = a.optionIds := rfl
            rw [hoptions]
            by_cases hmem : answer.optionId ∈ a.optionIds
            · rw [if_pos hmem, if_pos hmem]
              rfl
            · rw [if_neg hmem, if_neg hmem]
              exact given_open hdone
      · rw [if_neg hstatus, if_neg hstatus]
        exact given_open hdone

theorem effective_get (curated dynamic : List OwnerAction) (resolutions : List (String × Resolution)) (k : String) :
    Lookup.get OwnerAction.id (effective curated dynamic resolutions) k =
      ((Lookup.get OwnerAction.id curated k).or (Lookup.get OwnerAction.id dynamic k)).map fun a =>
        applyResolution a (resolutionOf resolutions a.id) := by
  rw [effective, Lookup.get_map fun a => applyResolution_id a (resolutionOf resolutions a.id), Lookup.get_append]
  congr 1
  cases hcurated : Lookup.get OwnerAction.id curated k with
  | some a => rfl
  | none =>
    rw [Option.none_or, Option.none_or, Lookup.get, List.find?_filter, Lookup.get]
    congr 1
    funext a
    by_cases hid : a.id = k
    · have hnew : a.id ∉ curated.map OwnerAction.id := by
        rw [List.mem_map]
        rintro ⟨b, hb, hsame⟩
        exact Lookup.get_eq_none.mp hcurated b hb (hsame.trans hid)
      simp [hid, hid ▸ hnew]
    · simp [hid]

theorem shown_effective (curated dynamic : List OwnerAction) (resolutions : List (String × Resolution)) (k : String) :
    shown (effective curated dynamic resolutions) k =
      ((itemIn curated k).or (itemIn dynamic k)).bind fun i => i.settled (resolutionOf resolutions k) := by
  have hitem : (itemIn curated k).or (itemIn dynamic k) =
      ((Lookup.get OwnerAction.id curated k).or (Lookup.get OwnerAction.id dynamic k)).map item := by
    unfold itemIn
    cases Lookup.get OwnerAction.id curated k <;> rfl
  rw [shown, effective_get, hitem]
  have hid : ∀ a, (Lookup.get OwnerAction.id curated k).or (Lookup.get OwnerAction.id dynamic k) = some a → a.id = k := by
    intro a ha
    rcases Option.or_eq_some_iff.mp ha with ha | ⟨_, ha⟩
    · exact (Lookup.get_key ha).2
    · exact (Lookup.get_key ha).2
  cases hget : (Lookup.get OwnerAction.id curated k).or (Lookup.get OwnerAction.id dynamic k) with
  | none => rfl
  | some a =>
    rw [Option.map_some, Option.map_some, Option.bind_some, Option.bind_some, hid a hget, applyResolution_settled]

theorem unique_loadRows (scan : SecretScan) (now : String) (rows : List Row) :
    Lookup.Unique OwnerAction.id (loadRows scan now rows) := (firsts_unique [] _).1

theorem unique_effective {curated dynamic : List OwnerAction} (hcurated : Lookup.Unique OwnerAction.id curated)
    (hdynamic : Lookup.Unique OwnerAction.id dynamic) (resolutions : List (String × Resolution)) :
    Lookup.Unique OwnerAction.id (effective curated dynamic resolutions) := by
  have hids : (effective curated dynamic resolutions).map OwnerAction.id = curated.map OwnerAction.id ++
      (dynamic.filter fun a => decide (a.id ∉ curated.map OwnerAction.id)).map OwnerAction.id := by
    rw [effective, List.map_map, ← List.map_append]
    refine List.map_congr_left fun a _ => ?_
    exact applyResolution_id a _
  rw [Lookup.Unique, hids, List.nodup_append]
  refine ⟨hcurated, hdynamic.sublist (List.filter_sublist.map OwnerAction.id), ?_⟩
  rintro id hid id' hid' rfl
  obtain ⟨a, ha, rfl⟩ := List.mem_map.mp hid'
  exact of_decide_eq_true (List.mem_filter.mp ha).2 hid

def Backlog.load (scan : SecretScan) (now : String) (b : Backlog) : List OwnerAction :=
  effective (loadRows scan now b.definitions.rows) (loadRows scan now (dynamicRows b)) (resolutionsOf b)

theorem shown_load (scan : SecretScan) (now : String) (b : Backlog) (k : String) :
    shown (b.load scan now) k = (view scan b).settled k := by
  rw [Backlog.load, shown_effective, itemIn_loadRows, itemIn_loadRows]
  rfl

def ResolveArgs.chosen (args : ResolveArgs) : Option String := args.optionId.filter fun option => decide (option ≠ "")

/-- The backlog does not report the item as done, except with the option. -/
def Fits (scan : SecretScan) (now : String) (b : Backlog) (k : String) (option : Option String) : Prop :=
  ∀ a ∈ b.load scan now, a.id = k → a.isDone = true → a.option = option

instance (scan : SecretScan) (now : String) (b : Backlog) (k : String) (option : Option String) :
    Decidable (Fits scan now b k option) := by
  unfold Fits
  infer_instance

/-- The step is none that an answer is lost by. -/
def Unraced (scan : SecretScan) (w : World) : Event → Prop
  | .advance c now =>
    let b := w.backlog
    match w.sessions c with
    | .answering args _ answer => Fits scan now b args.actionId (answer.map DecisionAnswer.optionId)
    | .reconciling r =>
      r.close = true → ∀ a ∈ rowOf scan b.definitions.rows r.actionId, a.isDone = false →
        Fits scan now b r.actionId a.option
    | .upserting .definitions action =>
      rowOf scan b.definitions.rows action.id = none → rowOf scan (dynamicRows b) action.id = none
    | .upserting .dynamic action =>
      rowOf scan (dynamicRows b) action.id = none → rowOf scan b.definitions.rows action.id = none
    | .synchronizing e =>
      (rowOf scan (dynamicRows b) e.action.id = none → rowOf scan b.definitions.rows e.action.id = none) ∧
        (e.closed = true → rowOf scan b.definitions.rows e.action.id = none →
          ∀ a ∈ rowOf scan (dynamicRows b) e.action.id, a.isDone = false → Fits scan now b e.action.id a.option)
    | _ => True
  | .start _ _ | .timeout _ => True

instance (scan : SecretScan) (w : World) (e : Event) : Decidable (Unraced scan w e) := by
  unfold Unraced
  split
  · dsimp only
    split <;> infer_instance
  · infer_instance
  · infer_instance

variable {scan : SecretScan} {now : String}

theorem Fits.settled {option : Option String} (h : Fits scan now b k option)
    {x : Option String} (hx : (view scan b).settled k = some x) : x = option := by
  rw [← shown_load scan now, shown, Option.bind_eq_some_iff] at hx
  obtain ⟨a, ha, hshown⟩ := hx
  obtain ⟨hmem, hid⟩ := Lookup.get_key ha
  obtain ⟨hdone, rfl⟩ := given_eq_some.mp hshown
  exact h a hmem hid hdone

theorem curated_none : (view scan b).curated k = none ↔ rowOf scan b.definitions.rows k = none := by
  unfold view items
  exact Option.map_eq_none_iff

theorem dynamic_none : (view scan b).dynamic k = none ↔ rowOf scan (dynamicRows b) k = none := by
  unfold view items
  exact Option.map_eq_none_iff

theorem settled_of_source {v : View} {i : Item} (hsource : v.source k = some i) {x : Option String}
    (hx : i.settled (v.entry k) = some x) : v.settled k = some x := by
  rw [View.settled, hsource]
  exact hx

theorem source_curated {v : View} {i : Item} (h : v.curated k = some i) : v.source k = some i := by
  rw [View.source, h, Option.some_or]

theorem reconcileIn_lawful {r : Reconciliation}
    (hfits : r.close = true → ∀ a, rowOf scan b.definitions.rows r.actionId = some a → a.isDone = false →
      Fits scan now b r.actionId a.option)
    (h : reconcileIn scan now r b = .ok (a, b')) : Lawful (view scan b) (view scan b') := by
  obtain ⟨i, entry, hi, hview⟩ := reconcileIn_view h
  rw [hview]
  have hsource := source_curated hi
  refine lawful_curated (fun hnone => by rw [hi] at hnone; cases hnone) ?_
  rw [hsource]
  refine .edit _ _ _ rfl rfl (fun x hx hdone => ?_) fun hdone => ?_
  · cases hi' : i.done with
    | true =>
      rw [Item.settled_done hi'] at hx
      exact (Option.some.inj hx).symm
    | false =>
      have hclose : r.close = true := by
        have hdone' : (i.done || r.close) = true := hdone
        rwa [hi', Bool.false_or] at hdone'
      obtain ⟨a', ha', rfl⟩ := Option.map_eq_some_iff.mp hi
      exact (hfits hclose a' ha' hi').settled (settled_of_source hsource hx)
  · have hdone' : (i.done || r.close) = true := by rw [hdone, Bool.true_or]
    exact hdone'

theorem upsertIn_lawful {target : Target} {action : OwnerAction} {x : OwnerAction × Bool}
    (hdefinitions : target = .definitions →
      rowOf scan b.definitions.rows action.id = none → rowOf scan (dynamicRows b) action.id = none)
    (hdynamic : target = .dynamic →
      rowOf scan (dynamicRows b) action.id = none → rowOf scan b.definitions.rows action.id = none)
    (h : upsertIn scan now target action b = .ok (x, b')) : Lawful (view scan b) (view scan b') := by
  rcases upsertIn_view h with hsame | ⟨htarget, hnone, hview⟩ | ⟨htarget, hnone, hview⟩
  · rw [hsame]
    exact Lawful.refl _
  · have hdyn := dynamic_none.mpr (hdefinitions htarget (curated_none.mp hnone))
    rw [hview]
    refine lawful_curated (fun _ => hdyn) ?_
    rw [View.source_of_apart hnone, hdyn]
    exact .insert _ _
  · have hcur := curated_none.mpr (hdynamic htarget (dynamic_none.mp hnone))
    rw [hview]
    refine lawful_dynamic (fun _ => hcur) fun _ => ?_
    rw [View.source_of_apart hcur, hnone]
    exact .insert _ _

theorem syncIn_lawful {e : MachineEvent}
    (hapart : rowOf scan (dynamicRows b) e.action.id = none → rowOf scan b.definitions.rows e.action.id = none)
    (hfits : e.closed = true → rowOf scan b.definitions.rows e.action.id = none →
      ∀ a, rowOf scan (dynamicRows b) e.action.id = some a → a.isDone = false → Fits scan now b e.action.id a.option)
    (h : syncIn scan now e b = .ok (a, b')) : Lawful (view scan b) (view scan b') := by
  rcases syncIn_view h with hsame | ⟨i, hnone, hview⟩ | ⟨i, hclosed, hi, hopen, hview⟩
  · rw [hsame]
    exact Lawful.refl _
  · have hcur := curated_none.mpr (hapart (dynamic_none.mp hnone))
    rw [hview]
    refine lawful_dynamic (fun _ => hcur) fun _ => ?_
    rw [View.source_of_apart hcur, hnone]
    exact .insert _ _
  · rw [hview]
    refine lawful_dynamic (fun hnone => by rw [hi] at hnone; cases hnone) fun hcur => ?_
    have hsource : (view scan b).source e.action.id = some i := (View.source_of_apart hcur).trans hi
    rw [hsource]
    refine .edit _ _ _ rfl rfl (fun x hx _ => ?_) fun _ => rfl
    obtain ⟨a', ha', rfl⟩ := Option.map_eq_some_iff.mp hi
    exact (hfits hclosed (curated_none.mp hcur) a' ha' hopen).settled (settled_of_source hsource hx)

/-- What `resolve` has checked of the answer before it writes it. -/
structure Checked (args : ResolveArgs) (current : OwnerAction) (answer : Option DecisionAnswer) : Prop where
  id : current.id = args.actionId
  «open» : current.isDone = false
  chosen : ∀ r : Resolution, r.status = .done → r.answer = answer →
    (item current).chosen (some r) = some (answer.map DecisionAnswer.optionId)
  option : args.chosen = answer.map DecisionAnswer.optionId

theorem answerFor_ok (h : answerFor now args current = .ok answer) :
    args.chosen = answer.map DecisionAnswer.optionId ∧
      ∀ r : Resolution, r.status = .done → r.answer = answer →
        (item current).chosen (some r) = some (answer.map DecisionAnswer.optionId) := by
  unfold answerFor at h
  have hkind : (item current).kind = current.kind := rfl
  have hoptions : (item current).options = current.optionIds := rfl
  have hargs : args.optionId.filter (fun option => decide (option ≠ "")) = args.chosen := rfl
  rw [hargs] at h
  cases hk : current.kind with
  | action =>
    rw [hk] at h
    cases hchosen : args.chosen with
    | some o =>
      rw [hchosen] at h
      cases h
    | none =>
      rw [hchosen] at h
      cases h
      refine ⟨rfl, fun r hr _ => ?_⟩
      unfold Item.chosen
      dsimp only
      rw [if_pos hr, hkind, hk]
      rfl
  | decision =>
    rw [hk] at h
    cases hchosen : args.chosen with
    | none =>
      rw [hchosen] at h
      cases h
    | some o =>
      rw [hchosen] at h
      dsimp only at h
      split at h
      · rename_i hmem
        cases h
        refine ⟨rfl, fun r hr hanswer => ?_⟩
        unfold Item.chosen
        dsimp only
        rw [if_pos hr, hkind, hk, hoptions, hanswer]
        exact if_pos hmem
      · cases h

/-- What `resolve` makes of the effective backlog. -/
theorem decideAnswer_cases (now : String) (args : ResolveArgs) (backlog : List OwnerAction) :
    (∃ e, decideAnswer now args backlog = .returned (.resolved args (.error e))) ∨
    (∃ a, decideAnswer now args backlog = .returned (.resolved args (.ok a)) ∧
      Lookup.get OwnerAction.id backlog args.actionId = some a ∧ a.isDone = true ∧
        ∀ o o', a.option = some o → args.chosen = some o' → o' = o) ∨
    ∃ current answer, decideAnswer now args backlog = .answering args current answer ∧
      Lookup.get OwnerAction.id backlog args.actionId = some current ∧ Checked args current answer := by
  unfold decideAnswer
  cases hget : backlog.find? fun a => decide (a.id = args.actionId) with
  | none => exact .inl ⟨_, rfl⟩
  | some current =>
    dsimp only
    have hid : current.id = args.actionId := (Lookup.get_key hget).2
    cases hanswer : answerFor now args current with
    | error e => exact .inl ⟨e, rfl⟩
    | ok answer =>
      dsimp only
      obtain ⟨hoption, hchosen⟩ := answerFor_ok hanswer
      cases hdone : current.isDone with
      | false =>
        rw [if_neg Bool.false_ne_true]
        exact .inr (.inr ⟨current, answer, rfl, hget, hid, hdone, hchosen, hoption⟩)
      | true =>
        rw [if_pos rfl]
        cases answer with
        | none =>
          refine .inr (.inl ⟨current, rfl, hget, hdone, fun o o' _ ho' => ?_⟩)
          rw [hoption] at ho'
          cases ho'
        | some new =>
          cases hgiven : current.answer with
          | none =>
            refine .inr (.inl ⟨current, rfl, hget, hdone, fun o o' ho _ => ?_⟩)
            rw [OwnerAction.option, hgiven] at ho
            cases ho
          | some old =>
            dsimp only
            split
            · exact .inl ⟨_, rfl⟩
            · rename_i hsame
              refine .inr (.inl ⟨current, rfl, hget, hdone, fun o o' ho ho' => ?_⟩)
              rw [OwnerAction.option, hgiven] at ho
              rw [hoption] at ho'
              cases ho
              cases ho'
              exact (not_not.mp hsame).symm

theorem writeAnswer_lawful {j : Item} (hchecked : Checked args current answer)
    (ht : Tracks (view scan b) args.actionId (item current) j)
    (hfits : Fits scan now b args.actionId (answer.map DecisionAnswer.optionId))
    (h : writeAnswer scan now args current answer b = .ok (a, b')) :
    Lawful (view scan b) (view scan b') ∧
      (∀ k x, (if a.id = k then given a else none) = some x → (view scan b').settled k = some x) ∧
      ∀ o o', a.option = some o → args.chosen = some o' → o' = o := by
  have hoption : ∀ o o', a.option = answer.map DecisionAnswer.optionId → a.option = some o →
      args.chosen = some o' → o' = o := by
    intro o o' hsame ho ho'
    rw [hchecked.option, ← hsame, ho] at ho'
    exact (Option.some.inj ho').symm
  rcases writeAnswer_view h with ⟨i, hi, hid, hitem, hview⟩ | ⟨r, hr, hanswer, ha, hview⟩
  · -- the row of the definitions
    have hsource := source_curated hi
    rw [hview]
    refine ⟨lawful_curated (fun hnone => by rw [hi] at hnone; cases hnone) ?_, fun k x hx => ?_, fun o o' => ?_⟩
    · rw [hsource]
      exact .edit _ _ _ rfl rfl (fun x hx _ => hfits.settled (settled_of_source hsource hx)) fun _ => rfl
    · split at hx
      · rename_i hk
        obtain ⟨_, rfl⟩ := given_eq_some.mp hx
        subst hk
        refine settled_of_source (i := item a) (source_curated ?_) (Item.settled_done ?_ _)
        · dsimp only
          rw [hid, setAt_self, hitem]
        · rw [hitem]
          rfl
      · cases hx
    · exact hoption o o' (congrArg Item.option hitem)
  · -- a resolution in the overlay
    have hkey : current.id = args.actionId := hchecked.id
    have hchosen : j.chosen (some r) = some (answer.map DecisionAnswer.optionId) := by
      rw [Item.chosen_congr ht.kind ht.options]
      exact hchecked.chosen r hr hanswer
    have hsettled : ∀ x, j.settled ((view scan b).entry args.actionId) = some x →
        x = answer.map DecisionAnswer.optionId := fun x hx => hfits.settled (settled_of_source ht.source hx)
    have hgiven : given a = some (answer.map DecisionAnswer.optionId) := by
      rw [ha, applyResolution_settled, Item.settled_open hchecked.open]
      exact hchecked.chosen r hr hanswer
    rw [hview, hkey]
    refine ⟨lawful_entry ?_, fun k x hx => ?_, fun o o' => hoption o o' (given_eq_some.mp hgiven).2⟩
    · rw [ht.source]
      exact .answer _ _ _ _ hchosen hsettled
    · split at hx
      · rename_i hk
        rw [ha, applyResolution_id, hkey] at hk
        subst hk
        rw [hgiven] at hx
        have hentry : ({ view scan b with entry := setAt (view scan b).entry args.actionId r } : View).entry
            args.actionId = some r := setAt_self _ _ _
        have hsource : ({ view scan b with entry := setAt (view scan b).entry args.actionId r } : View).source
            args.actionId = some j := ht.source
        refine settled_of_source hsource ?_
        rw [hentry]
        cases hj : j.done with
        | true =>
          rw [Item.settled_done hj, hsettled j.option (Item.settled_done hj _)]
          exact hx
        | false =>
          rw [Item.settled_open hj, hchosen]
          exact hx
      · cases hx

theorem writeAnswer_done (hchecked : Checked args current answer)
    (h : writeAnswer scan now args current answer b = .ok (a, b')) : a.id = args.actionId ∧ a.isDone = true := by
  rcases writeAnswer_view h with ⟨i, _, hid, hitem, _⟩ | ⟨r, hr, hanswer, ha, _⟩
  · refine ⟨hid, ?_⟩
    have hdone : (item a).done = true := by rw [hitem]; rfl
    exact hdone
  · have hgiven : given a = some (answer.map DecisionAnswer.optionId) := by
      rw [ha, applyResolution_settled, Item.settled_open hchecked.open]
      exact hchecked.chosen r hr hanswer
    refine ⟨?_, (given_eq_some.mp hgiven).1⟩
    rw [ha, applyResolution_id]
    exact hchecked.id

end Store
end OwnerActions
end DarkFactory
