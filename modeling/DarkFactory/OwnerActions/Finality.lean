import DarkFactory.OwnerActions.AnswerRuns

/-!
# DarkFactory.OwnerActions.Finality

Whether the owner's answer is final over every interleaving of the calls on a backlog.

* `SessionOk` — what each call in flight knows is true of the backlog, and what it returned is settled.
-/

namespace DarkFactory
namespace OwnerActions
namespace Store

open Calls

def Session.result : Session → Option Result
  | .returned result => some result
  | _ => none

def Session.started : Session → Bool
  | .absent => false
  | _ => true

variable {s : Session} {v v' : View} {b b' : Backlog} {k now : String} {a : OwnerAction} {w : World} {c : Nat}
variable {e : Event} {x : Option String}

theorem returned_of_result {result : Result} (h : s.result = some result) : s = .returned result := by
  cases s with
  | returned r =>
    cases h
    rfl
  | absent | validating | reading | definitionsRead | dynamicRead | answering | upserting | reconciling | requesting
  | synchronizing => cases h

theorem absent_of_started (h : s.started = false) : s = .absent := by
  cases s with
  | absent => rfl
  | validating | reading | definitionsRead | dynamicRead | answering | upserting | reconciling | requesting
  | synchronizing | returned => cases h

def Result.shows : Result → String → Option (Option String)
  | .loaded actions, k => shown actions k
  | .resolved _ (.ok a), k => if a.id = k then given a else none
  | _, _ => none

structure ResultOk (v : View) (result : Result) : Prop where
  shows : ∀ k x, result.shows k = some x → v.settled k = some x
  resolved : ∀ args a, result = .resolved args (.ok a) → a.id = args.actionId ∧ a.isDone = true ∧
    ∀ o o', a.option = some o → args.chosen = some o' → o' = o

theorem resultOk_none {result : Result} (hshows : ∀ k, result.shows k = none)
    (hresolved : ∀ args a, result ≠ .resolved args (.ok a)) : ResultOk v result :=
  ⟨fun k x hx => (by rw [hshows k] at hx; cases hx), fun args a h => absurd h (hresolved args a)⟩

theorem resultOk_lawful (h : Lawful v v') {result : Result} (hok : ResultOk v result) : ResultOk v' result :=
  ⟨fun k x hx => settled_lawful h (hok.shows k x hx), hok.resolved⟩

structure CuratedRead (v : View) (curated : List OwnerAction) : Prop where
  tracks : ∀ k i, itemIn curated k = some i → ∃ j, Tracks v k i j
  apart : ∀ k, itemIn curated k = none → v.curated k = none ∨ v.dynamic k = none

def SessionOk (v : View) : Session → Prop
  | .definitionsRead _ curated => CuratedRead v curated
  | .dynamicRead _ curated dynamic =>
    ∀ k i, (itemIn curated k).or (itemIn dynamic k) = some i → ∃ j, Tracks v k i j
  | .answering args current answer =>
    Checked args current answer ∧ ∃ j, Tracks v args.actionId (item current) j
  | .returned result => ResultOk v result
  | _ => True

theorem tracks_mono (h : Lawful v v') {k : String} {i : Item} (ht : ∃ j, Tracks v k i j) :
    ∃ j, Tracks v' k i j := by
  obtain ⟨j, ht⟩ := ht
  exact tracks_lawful h ht

theorem sessionOk_lawful (h : Lawful v v') {s : Session} (hok : SessionOk v s) : SessionOk v' s := by
  cases s with
  | definitionsRead task curated =>
    exact ⟨fun k i hi => tracks_mono h (hok.tracks k i hi), fun k hk => h.apart k (hok.apart k hk)⟩
  | dynamicRead task curated dynamic => exact fun k i hi => tracks_mono h (hok k i hi)
  | answering args current answer => exact ⟨hok.1, tracks_mono h hok.2⟩
  | returned result => exact resultOk_lawful h hok
  | absent | validating _ | reading _ | upserting _ _ | reconciling _ | requesting _ | synchronizing _ => trivial

variable {scan : SecretScan}

theorem curatedRead_now (now : String) (b : Backlog) :
    CuratedRead (view scan b) (loadRows scan now b.definitions.rows) := by
  refine ⟨fun k i hi => ?_, fun k hk => .inl ?_⟩
  · rw [itemIn_loadRows] at hi
    exact ⟨i, Tracks.refl (source_curated hi)⟩
  · rw [itemIn_loadRows] at hk
    exact hk

theorem dynamicRead_now (now : String) {b : Backlog} {curated : List OwnerAction}
    (hread : CuratedRead (view scan b) curated) {k : String} {i : Item}
    (hi : (itemIn curated k).or (itemIn (loadRows scan now (dynamicRows b)) k) = some i) :
    ∃ j, Tracks (view scan b) k i j := by
  rcases Option.or_eq_some_iff.mp hi with hi | ⟨hnone, hi⟩
  · exact hread.tracks k i hi
  · rw [itemIn_loadRows] at hi
    have hdynamic : (view scan b).dynamic k = some i := hi
    rcases hread.apart k hnone with hcurated | hcurated
    · exact ⟨i, Tracks.refl ((View.source_of_apart hcurated).trans hdynamic)⟩
    · rw [hdynamic] at hcurated
      cases hcurated

theorem shows_of_read {curated dynamic : List OwnerAction}
    (hread : ∀ k i, (itemIn curated k).or (itemIn dynamic k) = some i → ∃ j, Tracks (view scan b) k i j)
    {k : String} {x : Option String} (hx : shown (effective curated dynamic (resolutionsOf b)) k = some x) :
    (view scan b).settled k = some x := by
  rw [shown_effective, Option.bind_eq_some_iff] at hx
  obtain ⟨i, hi, hx⟩ := hx
  obtain ⟨j, ht⟩ := hread k i hi
  exact ht.settled hx

theorem shown_of_get {actions : List OwnerAction}
    (h : Lookup.get OwnerAction.id actions k = some a) : shown actions k = given a := by
  rw [shown, h]
  rfl

theorem item_of_open {curated dynamic : List OwnerAction} {resolutions : List (String × Resolution)}
    (h : Lookup.get OwnerAction.id (effective curated dynamic resolutions) k = some a)
    (hopen : a.isDone = false) : (itemIn curated k).or (itemIn dynamic k) = some (item a) := by
  rw [effective_get, Option.map_eq_some_iff] at h
  obtain ⟨row, hrow, rfl⟩ := h
  have hrowopen : row.isDone = false := by
    cases hdone : row.isDone with
    | false => rfl
    | true =>
      rw [applyResolution_done hdone, hdone] at hopen
      cases hopen
  have hsame : applyResolution row (resolutionOf resolutions row.id) = row := by
    cases hr : resolutionOf resolutions row.id with
    | none => rfl
    | some r =>
      rw [hr, applyResolution_open hrowopen] at hopen
      rw [applyResolution_open hrowopen]
      split at hopen
      · rename_i hstatus
        rw [if_pos hstatus]
        split at hopen
        · split at hopen
          · rename_i answer _
            split at hopen
            · cases hopen
            · rename_i hmem
              rw [if_neg hmem]
          · rfl
        · cases hopen
      · rename_i hstatus
        rw [if_neg hstatus]
  rw [hsame]
  unfold itemIn
  cases hcurated : Lookup.get OwnerAction.id curated k with
  | none =>
    rw [hcurated, Option.none_or] at hrow
    rw [hrow]
    rfl
  | some c =>
    rw [hcurated, Option.some_or] at hrow
    cases hrow
    rfl

theorem finishRead_ok (now : String) (task : Task) {b : Backlog} {curated dynamic : List OwnerAction}
    (hread : ∀ k i, (itemIn curated k).or (itemIn dynamic k) = some i → ∃ j, Tracks (view scan b) k i j) :
    SessionOk (view scan b) (finishRead now task (effective curated dynamic (resolutionsOf b))) := by
  cases task with
  | load => exact ⟨fun k x hx => shows_of_read hread hx, fun args a h => by cases h⟩
  | resolve args =>
    rcases decideAnswer_cases now args (effective curated dynamic (resolutionsOf b)) with
      ⟨e, hsession⟩ | ⟨a, hsession, hget, hdone, hoption⟩ | ⟨current, answer, hsession, hget, hchecked⟩
    · rw [finishRead, hsession]
      exact resultOk_none (fun _ => rfl) fun args a h => by cases h
    · rw [finishRead, hsession]
      have hid := (Lookup.get_key hget).2
      refine ⟨fun k x hx => ?_, fun args' a' h => ?_⟩
      · unfold Result.shows at hx
        dsimp only at hx
        split at hx
        · rename_i hk
          rw [← hk, hid]
          refine shows_of_read hread ?_
          rw [shown_of_get hget]
          exact hx
        · cases hx
      · cases h
        exact ⟨hid, hdone, hoption⟩
    · rw [finishRead, hsession]
      exact ⟨hchecked, hread _ _ (item_of_open hget hchecked.open)⟩

theorem set_self (w : World) (c : Nat) (s : Session) : (w.set c s).sessions c = s := if_pos rfl

theorem set_ne (w : World) {c c' : Nat} (s : Session) (h : c' ≠ c) : (w.set c s).sessions c' = w.sessions c' := if_neg h

/-- What a step of the call `c` needs to keep, of the backlog and of the call. -/
structure Progress (scan : SecretScan) (w w' : World) (c : Nat) : Prop where
  lawful : Lawful (view scan w.backlog) (view scan w'.backlog)
  session : SessionOk (view scan w'.backlog) (w'.sessions c)
  others : ∀ c', c' ≠ c → w'.sessions c' = w.sessions c'

theorem progress_refl (h : SessionOk (view scan w.backlog) (w.sessions c)) :
    Progress scan w w c := ⟨Lawful.refl _, h, fun _ _ => rfl⟩

theorem progress_set (h : SessionOk (view scan w.backlog) s) : Progress scan w (w.set c s) c := by
  refine ⟨Lawful.refl _, ?_, fun c' hc => set_ne w s hc⟩
  rw [set_self]
  exact h

theorem progress_finish {α : Type} {result : Except OwnerActionError α → Result}
    {outcome : Except OwnerActionError (α × Backlog)}
    (herror : ∀ e, ResultOk (view scan w.backlog) (result (.error e)))
    (hok : ∀ a b', outcome = .ok (a, b') →
      Lawful (view scan w.backlog) (view scan b') ∧ ResultOk (view scan b') (result (.ok a))) :
    Progress scan w (w.finish c result outcome) c := by
  cases outcome with
  | error e => exact progress_set (herror e)
  | ok p =>
    obtain ⟨a, b'⟩ := p
    obtain ⟨hlawful, hresult⟩ := hok a b' rfl
    exact ⟨hlawful, by rw [World.finish, set_self]; exact hresult, fun c' hc => if_neg hc⟩

theorem progress_advance
    (hok : SessionOk (view scan w.backlog) (w.sessions c)) (hunraced : Unraced scan w (.advance c now)) :
    Progress scan w (w.advance scan c now) c := by
  unfold World.advance
  unfold Unraced at hunraced
  dsimp only at hunraced ⊢
  cases hs : w.sessions c with
  | absent => exact progress_refl (by rw [hs]; trivial)
  | returned result => exact progress_refl hok
  | validating args =>
    dsimp only
    split
    · exact progress_set (resultOk_none (fun _ => rfl) fun _ _ h => by cases h)
    · exact progress_set trivial
  | reading task => exact progress_set (curatedRead_now now w.backlog)
  | definitionsRead task curated =>
    rw [hs] at hok
    exact progress_set fun k i hi => dynamicRead_now now hok hi
  | dynamicRead task curated dynamic =>
    rw [hs] at hok
    exact progress_set (finishRead_ok now task hok)
  | answering args current answer =>
    rw [hs] at hok hunraced
    obtain ⟨hchecked, j, ht⟩ := hok
    refine progress_finish (fun e => resultOk_none (fun _ => rfl) fun _ _ h => by cases h) fun a b' h => ?_
    obtain ⟨hlawful, hshows, hoption⟩ := writeAnswer_lawful hchecked ht hunraced h
    refine ⟨hlawful, hshows, fun args' a' heq => ?_⟩
    cases heq
    obtain ⟨hid, hdone⟩ := writeAnswer_done hchecked h
    exact ⟨hid, hdone, hoption⟩
  | upserting target action =>
    rw [hs] at hunraced
    refine progress_finish (fun e => resultOk_none (fun _ => rfl) fun _ _ h => by cases h) fun a b' h => ?_
    refine ⟨upsertIn_lawful ?_ ?_ h, resultOk_none (fun _ => rfl) fun _ _ h => by cases h⟩
    · rintro rfl
      exact hunraced
    · rintro rfl
      exact hunraced
  | reconciling r =>
    rw [hs] at hunraced
    exact progress_finish (fun e => resultOk_none (fun _ => rfl) fun _ _ h => by cases h) fun a b' h =>
      ⟨reconcileIn_lawful hunraced h, resultOk_none (fun _ => rfl) fun _ _ h => by cases h⟩
  | requesting e =>
    dsimp only
    split
    · exact progress_set (resultOk_none (fun _ => rfl) fun _ _ h => by cases h)
    · exact progress_set trivial
  | synchronizing e =>
    rw [hs] at hunraced
    exact progress_finish (fun e => resultOk_none (fun _ => rfl) fun _ _ h => by cases h) fun a b' h =>
      ⟨syncIn_lawful hunraced.1 hunraced.2 h, resultOk_none (fun _ => rfl) fun _ _ h => by cases h⟩

def Event.caller : Event → Nat
  | .start c _ | .advance c _ | .timeout c => c

theorem timeout_ok (h : SessionOk v s) : SessionOk v s.timeout := by
  cases s with
  | answering | upserting | reconciling | synchronizing =>
    exact resultOk_none (fun _ => rfl) fun _ _ h => by cases h
  | absent | validating | reading | definitionsRead | dynamicRead | requesting | returned => exact h

theorem progress_step (hok : SessionOk (view scan w.backlog) (w.sessions e.caller))
    (hunraced : Unraced scan w e) : Progress scan w (step scan w e) e.caller := by
  cases e with
  | start c call =>
    rw [step]
    split
    · refine progress_set ?_
      cases call <;> trivial
    · exact progress_refl hok
  | advance c now => exact progress_advance hok hunraced
  | timeout c => exact progress_set (timeout_ok hok)

def Sound (scan : SecretScan) (w : World) : Prop := ∀ c, SessionOk (view scan w.backlog) (w.sessions c)

theorem sound_step (h : Sound scan w) (hunraced : Unraced scan w e) : Sound scan (step scan w e) := by
  have hprogress := progress_step (h e.caller) hunraced
  intro c
  by_cases hc : c = e.caller
  · subst hc
    exact hprogress.session
  · rw [hprogress.others c hc]
    exact sessionOk_lawful hprogress.lawful (h c)

/-- What a call that has started since the item was settled has read of it. -/
def Fresh (v : View) (k : String) (x : Option String) : Session → Prop
  | .definitionsRead _ curated =>
    match itemIn curated k with
    | some i => i.settled (v.entry k) = some x
    | none => v.curated k = none
  | .dynamicRead _ curated dynamic =>
    ∃ i, (itemIn curated k).or (itemIn dynamic k) = some i ∧ i.settled (v.entry k) = some x
  | .returned (.loaded actions) => shown actions k = some x
  | _ => True

theorem fresh_lawful (h : Lawful v v') {k : String} {x : Option String} (hx : v.settled k = some x)
    {s : Session} (hok : SessionOk v s) (hfresh : Fresh v k x s) : Fresh v' k x s := by
  cases s with
  | definitionsRead task curated =>
    unfold Fresh at hfresh ⊢
    dsimp only at hfresh ⊢
    cases hi : itemIn curated k with
    | some i =>
      rw [hi] at hfresh
      obtain ⟨j, ht⟩ := hok.tracks k i hi
      exact settled_read h ht hfresh
    | none =>
      rw [hi] at hfresh
      dsimp only at hfresh ⊢
      have hdynamic : v.dynamic k ≠ none := by
        intro hnone
        rw [View.settled, View.source_of_apart hfresh, hnone] at hx
        cases hx
      exact (h.apart k (.inl hfresh)).resolve_right (h.dynamic k hdynamic)
  | dynamicRead task curated dynamic =>
    obtain ⟨i, hi, hsettled⟩ := hfresh
    obtain ⟨j, ht⟩ := hok k i hi
    exact ⟨i, hi, settled_read h ht hsettled⟩
  | returned result =>
    cases result with
    | loaded actions => exact hfresh
    | resolved _ _ | upserted _ | reconciled _ | synced _ => trivial
  | absent | validating | reading | answering | upserting | reconciling | requesting | synchronizing => trivial

theorem fresh_definitionsRead (now : String) (task : Task) {b : Backlog} {k : String} {x : Option String}
    (hx : (view scan b).settled k = some x) :
    Fresh (view scan b) k x (.definitionsRead task (loadRows scan now b.definitions.rows)) := by
  unfold Fresh
  dsimp only
  rw [itemIn_loadRows]
  have hcurated : (view scan b).curated k = (rowOf scan b.definitions.rows k).map item := rfl
  rw [← hcurated]
  cases hi : (view scan b).curated k with
  | none => rfl
  | some i =>
    rw [View.settled, source_curated hi] at hx
    exact hx

theorem fresh_dynamicRead (now : String) (task : Task) {b : Backlog} {k : String} {x : Option String}
    (hx : (view scan b).settled k = some x) {curated : List OwnerAction}
    (hfresh : Fresh (view scan b) k x (.definitionsRead task curated)) :
    Fresh (view scan b) k x (.dynamicRead task curated (loadRows scan now (dynamicRows b))) := by
  unfold Fresh at hfresh ⊢
  dsimp only at hfresh ⊢
  cases hi : itemIn curated k with
  | some i =>
    rw [hi] at hfresh
    exact ⟨i, rfl, hfresh⟩
  | none =>
    rw [hi] at hfresh
    rw [View.settled, View.source_of_apart hfresh, Option.bind_eq_some_iff] at hx
    obtain ⟨i, hdynamic, hsettled⟩ := hx
    refine ⟨i, ?_, hsettled⟩
    rw [Option.none_or, itemIn_loadRows]
    exact hdynamic

theorem fresh_finishRead (now : String) (task : Task) {b : Backlog} {k : String} {x : Option String}
    {curated dynamic : List OwnerAction} (hfresh : Fresh (view scan b) k x (.dynamicRead task curated dynamic)) :
    Fresh (view scan b) k x (finishRead now task (effective curated dynamic (resolutionsOf b))) := by
  cases task with
  | load =>
    obtain ⟨i, hi, hsettled⟩ := hfresh
    have hshown : shown (effective curated dynamic (resolutionsOf b)) k = some x := by
      rw [shown_effective, hi]
      exact hsettled
    exact hshown
  | resolve args =>
    rcases decideAnswer_cases now args (effective curated dynamic (resolutionsOf b)) with
      ⟨_, hs⟩ | ⟨_, hs, _⟩ | ⟨_, _, hs, _⟩
    all_goals
      rw [finishRead, hs]
      trivial

theorem fresh_finish {α : Type} {result : Except OwnerActionError α → Result}
    {outcome : Except OwnerActionError (α × Backlog)}
    (hresult : ∀ v o, Fresh v k x (.returned (result o))) :
    Fresh (view scan (w.finish c result outcome).backlog) k x ((w.finish c result outcome).sessions c) := by
  cases outcome with
  | error e =>
    rw [World.finish, set_self]
    exact hresult _ _
  | ok p =>
    rw [World.finish, set_self]
    exact hresult _ _

theorem fresh_set
    (h : Fresh (view scan w.backlog) k x s) : Fresh (view scan (w.set c s).backlog) k x ((w.set c s).sessions c) := by
  rw [set_self]
  exact h

theorem fresh_advance
    (hx : (view scan w.backlog).settled k = some x) (hfresh : Fresh (view scan w.backlog) k x (w.sessions c)) :
    Fresh (view scan (w.advance scan c now).backlog) k x ((w.advance scan c now).sessions c) := by
  unfold World.advance
  dsimp only
  cases hs : w.sessions c with
  | absent | returned =>
    rw [hs] at hfresh
    dsimp only
    rw [hs]
    exact hfresh
  | validating args | requesting e =>
    dsimp only
    split
    all_goals exact fresh_set trivial
  | reading task => exact fresh_set (fresh_definitionsRead now task hx)
  | definitionsRead task curated =>
    rw [hs] at hfresh
    exact fresh_set (fresh_dynamicRead now task hx hfresh)
  | dynamicRead task curated dynamic =>
    rw [hs] at hfresh
    exact fresh_set (fresh_finishRead now task hfresh)
  | answering | upserting | reconciling | synchronizing => exact fresh_finish fun _ _ => trivial

theorem fresh_step (hx : (view scan w.backlog).settled k = some x)
    (hfresh : Fresh (view scan w.backlog) k x (w.sessions e.caller)) :
    Fresh (view scan (step scan w e).backlog) k x ((step scan w e).sessions e.caller) := by
  cases e with
  | start c call =>
    rw [step]
    split
    · refine fresh_set ?_
      cases call <;> trivial
    · exact hfresh
  | advance c now => exact fresh_advance hx hfresh
  | timeout c =>
    refine fresh_set ?_
    have hfresh' : Fresh (view scan w.backlog) k x (w.sessions c) := hfresh
    cases hs : w.sessions c with
    | answering | upserting | reconciling | synchronizing => trivial
    | absent | validating | reading | definitionsRead | dynamicRead | requesting | returned =>
      rw [hs] at hfresh'
      exact hfresh'

/-- The item is settled, and every call that has started since reads it so. -/
structure Settled (scan : SecretScan) (k : String) (x : Option String) (late : Nat → Prop) (w : World) : Prop where
  sound : Sound scan w
  settled : (view scan w.backlog).settled k = some x
  fresh : ∀ c, late c → Fresh (view scan w.backlog) k x (w.sessions c)

theorem settled_step {late : Nat → Prop}
    (h : Settled scan k x late w) (hunraced : Unraced scan w e) : Settled scan k x late (step scan w e) := by
  have hprogress := progress_step (h.sound e.caller) hunraced
  refine ⟨sound_step h.sound hunraced, settled_lawful hprogress.lawful h.settled, fun c hc => ?_⟩
  by_cases hcaller : c = e.caller
  · subst hcaller
    exact fresh_step h.settled (h.fresh _ hc)
  · rw [hprogress.others c hcaller]
    exact fresh_lawful hprogress.lawful h.settled (h.sound c) (h.fresh c hc)

def Longer (before after : Option Item) : Prop :=
  ∀ i, before = some i → ∃ j, after = some j ∧ i.history <+: j.history

theorem Longer.refl (i : Option Item) : Longer i i := fun i h => ⟨i, h, List.prefix_rfl⟩

theorem Longer.trans {i j l : Option Item} (h : Longer i j) (h' : Longer j l) : Longer i l := by
  intro a ha
  obtain ⟨b, hb, hab⟩ := h a ha
  obtain ⟨d, hd, hbd⟩ := h' b hb
  exact ⟨d, hd, hab.trans hbd⟩

structure TrailKept (v v' : View) : Prop where
  curated : ∀ k, Longer (v.curated k) (v'.curated k)
  dynamic : ∀ k, Longer (v.dynamic k) (v'.dynamic k)

theorem TrailKept.refl (v : View) : TrailKept v v := ⟨fun _ => .refl _, fun _ => .refl _⟩

theorem TrailKept.trans {v'' : View} (h : TrailKept v v') (h' : TrailKept v' v'') : TrailKept v v'' :=
  ⟨fun k => (h.curated k).trans (h'.curated k), fun k => (h.dynamic k).trans (h'.dynamic k)⟩

theorem longer_setAt {f : String → Option Item} {j : Item}
    (h : ∀ i, f k = some i → i.history <+: j.history) (k' : String) : Longer (f k') (setAt f k j k') := by
  intro i hi
  by_cases hk : k' = k
  · subst hk
    exact ⟨j, setAt_self f k' j, h i hi⟩
  · exact ⟨i, (setAt_ne f j hk).trans hi, List.prefix_rfl⟩

theorem trailKept_curated {j : Item} (h : ∀ i, v.curated k = some i → i.history <+: j.history) :
    TrailKept v { v with curated := setAt v.curated k j } := ⟨longer_setAt h, fun _ => .refl _⟩

theorem trailKept_dynamic {j : Item} (h : ∀ i, v.dynamic k = some i → i.history <+: j.history) :
    TrailKept v { v with dynamic := setAt v.dynamic k j } := ⟨fun _ => .refl _, longer_setAt h⟩

theorem trailKept_writeAnswer {args : ResolveArgs} {current : OwnerAction}
    {answer : Option DecisionAnswer} (h : writeAnswer scan now args current answer b = .ok (a, b')) :
    TrailKept (view scan b) (view scan b') := by
  rcases writeAnswer_view h with ⟨i, hi, _, _, hview⟩ | ⟨r, _, _, _, hview⟩
  · rw [hview]
    refine trailKept_curated fun i' hi' => ?_
    rw [hi] at hi'
    cases hi'
    exact List.prefix_rfl
  · rw [hview]
    exact ⟨fun _ => .refl _, fun _ => .refl _⟩

theorem trailKept_upsertIn {target : Target} {action : OwnerAction}
    {x : OwnerAction × Bool} (h : upsertIn scan now target action b = .ok (x, b')) :
    TrailKept (view scan b) (view scan b') := by
  rcases upsertIn_view h with hview | ⟨_, hnone, hview⟩ | ⟨_, hnone, hview⟩
  · rw [hview]
    exact .refl _
  · rw [hview]
    exact trailKept_curated fun i hi => by rw [hnone] at hi; cases hi
  · rw [hview]
    exact trailKept_dynamic fun i hi => by rw [hnone] at hi; cases hi

theorem trailKept_reconcileIn {r : Reconciliation}
    (h : reconcileIn scan now r b = .ok (a, b')) : TrailKept (view scan b) (view scan b') := by
  obtain ⟨i, entry, hi, hview⟩ := reconcileIn_view h
  rw [hview]
  refine trailKept_curated fun i' hi' => ?_
  rw [hi] at hi'
  cases hi'
  exact List.prefix_append _ _

theorem trailKept_syncIn {e : MachineEvent}
    (h : syncIn scan now e b = .ok (a, b')) : TrailKept (view scan b) (view scan b') := by
  rcases syncIn_view h with hview | ⟨i, hnone, hview⟩ | ⟨i, _, hi, _, hview⟩
  · rw [hview]
    exact .refl _
  · rw [hview]
    exact trailKept_dynamic fun i' hi' => by rw [hnone] at hi'; cases hi'
  · rw [hview]
    refine trailKept_dynamic fun i' hi' => ?_
    rw [hi] at hi'
    cases hi'
    exact List.prefix_rfl

theorem trailKept_finish {α : Type} {result : Except OwnerActionError α → Result}
    {outcome : Except OwnerActionError (α × Backlog)}
    (h : ∀ a b', outcome = .ok (a, b') → TrailKept (view scan w.backlog) (view scan b')) :
    TrailKept (view scan w.backlog) (view scan (w.finish c result outcome).backlog) := by
  cases outcome with
  | error e => exact .refl _
  | ok p => exact h p.1 p.2 rfl

theorem trailKept_step (w : World) (e : Event) :
    TrailKept (view scan w.backlog) (view scan (step scan w e).backlog) := by
  cases e with
  | start c call =>
    rw [step]
    split <;> exact .refl _
  | timeout c => exact .refl _
  | advance c now =>
    rw [step]
    unfold World.advance
    dsimp only
    cases w.sessions c with
    | absent | returned | reading | definitionsRead | dynamicRead => exact .refl _
    | validating args | requesting e =>
      dsimp only
      split <;> exact .refl _
    | answering args current answer => exact trailKept_finish fun a b' h => trailKept_writeAnswer h
    | upserting target action => exact trailKept_finish fun a b' h => trailKept_upsertIn h
    | reconciling r => exact trailKept_finish fun a b' h => trailKept_reconcileIn h
    | synchronizing e => exact trailKept_finish fun a b' h => trailKept_syncIn h

def Reports (actions : List OwnerAction) (k : String) (x : Option String) : Prop :=
  (∃ a ∈ actions, a.id = k) ∧ ∀ a ∈ actions, a.id = k → a.isDone = true ∧ a.option = x

instance (actions : List OwnerAction) (k : String) (x : Option String) : Decidable (Reports actions k x) := by
  unfold Reports
  infer_instance

def LoadsUnique (s : Session) : Prop :=
  match s with
  | .definitionsRead _ curated => Lookup.Unique OwnerAction.id curated
  | .dynamicRead _ curated dynamic => Lookup.Unique OwnerAction.id curated ∧ Lookup.Unique OwnerAction.id dynamic
  | .returned (.loaded actions) => Lookup.Unique OwnerAction.id actions
  | _ => True

theorem loadsUnique_step (h : ∀ c, LoadsUnique (w.sessions c)) (e : Event) :
    ∀ c, LoadsUnique ((step scan w e).sessions c) := by
  have hset : ∀ (w' : World) (c : Nat) (s : Session), (∀ c', w'.sessions c' = w.sessions c') → LoadsUnique s →
      ∀ c', LoadsUnique ((w'.set c s).sessions c') := by
    intro w' c s hw hs c'
    by_cases hc : c' = c
    · rw [hc, set_self]
      exact hs
    · rw [set_ne w' s hc, hw]
      exact h c'
  have hfinish : ∀ {α : Type} (c : Nat) (result : Except OwnerActionError α → Result)
      (outcome : Except OwnerActionError (α × Backlog)), (∀ o, LoadsUnique (.returned (result o))) →
      ∀ c', LoadsUnique ((w.finish c result outcome).sessions c') := by
    intro α c result outcome hresult
    cases outcome with
    | error e => exact hset w c _ (fun _ => rfl) (hresult _)
    | ok p => exact hset { w with backlog := p.2 } c _ (fun _ => rfl) (hresult _)
  have hat : ∀ c s, w.sessions c = s → LoadsUnique s := fun c s hs => hs ▸ h c
  cases e with
  | start c call =>
    rw [step]
    split
    · refine hset w c _ (fun _ => rfl) ?_
      cases call <;> trivial
    · exact h
  | timeout c =>
    refine hset w c _ (fun _ => rfl) ?_
    have hs := h c
    cases hsession : w.sessions c with
    | answering | upserting | reconciling | synchronizing => trivial
    | absent | validating | reading | definitionsRead | dynamicRead | requesting | returned =>
      rw [hsession] at hs
      exact hs
  | advance c now =>
    rw [step]
    unfold World.advance
    dsimp only
    cases hs : w.sessions c with
    | absent | returned => exact h
    | validating args | requesting e =>
      dsimp only
      split
      all_goals exact hset w c _ (fun _ => rfl) trivial
    | reading task => exact hset w c _ (fun _ => rfl) (unique_loadRows scan now _)
    | definitionsRead task curated =>
      exact hset w c _ (fun _ => rfl) ⟨hat c _ hs, unique_loadRows scan now _⟩
    | dynamicRead task curated dynamic =>
      refine hset w c _ (fun _ => rfl) ?_
      have hunique : LoadsUnique (.dynamicRead task curated dynamic) := hat c _ hs
      cases task with
      | load => exact unique_effective hunique.1 hunique.2 _
      | resolve args =>
        rcases decideAnswer_cases now args (effective curated dynamic (resolutionsOf w.backlog)) with
          ⟨_, hd⟩ | ⟨_, hd, _⟩ | ⟨_, _, hd, _⟩
        all_goals
          rw [finishRead]
          unfold resolutionsOf at hd
          rw [hd]
          trivial
    | answering | upserting | reconciling | synchronizing => exact hfinish c _ _ fun _ => trivial

theorem reports_of_shown {actions : List OwnerAction} (hunique : Lookup.Unique OwnerAction.id actions) {k : String}
    {x : Option String} (h : shown actions k = some x) : Reports actions k x := by
  rw [shown, Option.bind_eq_some_iff] at h
  obtain ⟨a, ha, hgiven⟩ := h
  obtain ⟨hmem, hid⟩ := Lookup.get_key ha
  refine ⟨⟨a, hmem, hid⟩, fun a' ha' hid' => ?_⟩
  have hsame : Lookup.get OwnerAction.id actions k = some a' := (Lookup.get_eq_some hunique).mpr ⟨ha', hid'⟩
  rw [ha] at hsame
  cases hsame
  exact given_eq_some.mp hgiven

/-- Without races the owner's answer is final, and the trail of a row only ever grows at its end. -/
theorem answer_final (scan : SecretScan) (w : World) (hstart : ∀ c, (w.sessions c).started = false) :
    (∀ before later, TrailKept (view scan (Runs.run (step scan) w before).backlog)
      (view scan (Runs.run (step scan) w (before ++ later)).backlog)) ∧
    ∀ before later, (∀ m ∈ Runs.moves (step scan) w (before ++ later), Unraced scan m.pre m.act) →
      ∀ c result k x, ((Runs.run (step scan) w before).sessions c).result = some result →
        result.shows k = some x →
        (∀ c' actions, ((Runs.run (step scan) w before).sessions c').started = false →
          ((Runs.run (step scan) w (before ++ later)).sessions c').result = some (.loaded actions) →
          Reports actions k x) ∧
        ∀ c' args a, ((Runs.run (step scan) w (before ++ later)).sessions c').result = some (.resolved args (.ok a)) →
          args.actionId = k → ∀ o o', x = some o → args.chosen = some o' → o' = o := by
  have habsent : ∀ c, w.sessions c = .absent := fun c => absent_of_started (hstart c)
  refine ⟨fun before later => ?_, fun before later hunraced c result k x hresult hshows => ?_⟩
  · rw [Runs.run_append]
    exact Runs.run_rel (R := fun s s' => TrailKept (view scan s.backlog) (view scan s'.backlog)) (I := fun _ => True)
      (fun _ => TrailKept.refl _) (fun {s t u} (h : TrailKept (view scan s.backlog) (view scan t.backlog))
        (h' : TrailKept (view scan t.backlog) (view scan u.backlog)) => h.trans h')
      (fun _ _ _ => trivial) (fun s a _ => trailKept_step s a) trivial later
  rw [Runs.moves_append] at hunraced
  have hsound : Sound scan (Runs.run (step scan) w before) :=
    Runs.run_invariant_of (fun _ _ h hm => sound_step h hm) (fun c => by rw [habsent c]; trivial)
      fun m hm => hunraced m (List.mem_append_left _ hm)
  have hresultOk : ResultOk (view scan (Runs.run (step scan) w before).backlog) result := by
    have hok := hsound c
    rw [returned_of_result hresult] at hok
    exact hok
  have hsettled : Settled scan k x (fun c => ((Runs.run (step scan) w before).sessions c).started = false)
      (Runs.run (step scan) w (before ++ later)) := by
    rw [Runs.run_append]
    refine Runs.run_invariant_of (fun _ _ h hm => settled_step h hm) ⟨hsound, hresultOk.shows k x hshows, ?_⟩
      fun m hm => hunraced m (List.mem_append_right _ hm)
    intro c' hc'
    rw [absent_of_started hc']
    trivial
  refine ⟨fun c' actions hlate hloaded => ?_, fun c' args a hresolved hid o o' hx ho' => ?_⟩
  · have hfresh := hsettled.fresh c' hlate
    have hunique : LoadsUnique ((Runs.run (step scan) w (before ++ later)).sessions c') :=
      Runs.run_invariant (I := fun w : World => ∀ c, LoadsUnique (w.sessions c)) (fun _ e h => loadsUnique_step h e)
        (fun c => by rw [habsent c]; trivial) (before ++ later) c'
    rw [returned_of_result hloaded] at hfresh hunique
    exact reports_of_shown hunique hfresh
  · have hok := hsettled.sound c'
    rw [returned_of_result hresolved] at hok
    obtain ⟨haid, hdone, hoption⟩ := hok.resolved args a rfl
    have hgiven := hok.shows k a.option (by
      unfold Result.shows
      dsimp only
      rw [if_pos (haid.trans hid), given_done hdone])
    rw [hsettled.settled, hx] at hgiven
    exact hoption o o' (Option.some.inj hgiven).symm ho'

def scanNone : SecretScan := ⟨fun _ => false, id⟩

def wireTransfer : OwnerAction where
  id := "OA-7"
  kind := .decision
  title := "Pick the bank"
  options := [⟨"a", "Bank A", ""⟩, ⟨"b", "Bank B", ""⟩]
  createdAt := "2026-07-01T00:00:00Z"

def bankWorld : World where
  backlog := { definitions := { file := { rows := [.object wireTransfer] } } }
  sessions := fun _ => .absent

def answerBank (option : String) : Call := .resolve { actionId := "OA-7", optionId := some option }

def advances (c n : Nat) : List Event := List.replicate n (.advance c "2026-07-02T00:00:00Z")

def bothRead : List Event :=
  .start 0 (answerBank "a") :: .start 1 (answerBank "b") :: advances 0 4 ++ advances 1 4 ++ advances 0 1

def thenLoad : List Event := advances 1 1 ++ .start 2 .load :: advances 2 3

def answerOnce : List Event := .start 0 (answerBank "a") :: advances 0 5

def loadAfter : List Event := .start 2 .load :: advances 2 3

def resultAt (events : List Event) (c : Nat) : Option Result :=
  ((Runs.run (step scanNone) bankWorld events).sessions c).result

def loadedAt (events : List Event) (c : Nat) : List OwnerAction :=
  match resultAt events c with
  | some (.loaded actions) => actions
  | _ => []

theorem answer_final_bank : Reports (loadedAt (answerOnce ++ loadAfter) 2) "OA-7" (some "a") := by
  have hrun := (answer_final scanNone bankWorld fun _ => rfl).2 answerOnce loadAfter (by decide +kernel) 0
  obtain ⟨result, hresult, hshows⟩ : ∃ result ∈ resultAt answerOnce 0, result.shows "OA-7" = some (some "a") := by
    decide +kernel
  have hloaded : resultAt (answerOnce ++ loadAfter) 2 = some (.loaded (loadedAt (answerOnce ++ loadAfter) 2)) := by
    decide +kernel
  exact (hrun result "OA-7" (some "a") hresult hshows).1 2 _ (by decide +kernel) hloaded

/-- Two answers that cross: the later write wins over the one that was returned. -/
theorem answer_races : ¬ ∀ (scan : SecretScan) (w : World), (∀ c, (w.sessions c).started = false) →
    ∀ before later c result k x, ((Runs.run (step scan) w before).sessions c).result = some result →
      result.shows k = some x →
      ∀ c' actions, ((Runs.run (step scan) w before).sessions c').started = false →
        ((Runs.run (step scan) w (before ++ later)).sessions c').result = some (.loaded actions) →
        Reports actions k x := by
  intro h
  obtain ⟨result, hresult, hshows⟩ : ∃ result ∈ resultAt bothRead 0, result.shows "OA-7" = some (some "a") := by
    decide +kernel
  have hloaded : resultAt (bothRead ++ thenLoad) 2 = some (.loaded (loadedAt (bothRead ++ thenLoad) 2)) := by
    decide +kernel
  have hreports := h scanNone bankWorld (fun _ => rfl) bothRead thenLoad 0 result "OA-7" (some "a") hresult hshows 2 _
    (by decide +kernel) hloaded
  exact absurd hreports (by decide +kernel)

end Store
end OwnerActions
end DarkFactory
