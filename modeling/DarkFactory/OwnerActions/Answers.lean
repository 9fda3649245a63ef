import DarkFactory.OwnerActions.Writes

/-!
# DarkFactory.OwnerActions.Answers

The answer that a backlog has for an item, and what becomes of it.

* `View.settled` — the option of an item that is done, in its row or by a resolution.
* `Lawful` — a change that gives no other answer to an item that has one, and no second row to an id.
* `settled_lawful`, `tracks_lawful` — answers are final along lawful changes, and what a call has read stays true.
-/

namespace DarkFactory
namespace OwnerActions
namespace Store

namespace Item

def chosen (i : Item) (r : Option Resolution) : Option (Option String) :=
  match r with
  | none => none
  | some r =>
    if r.status = .done then
      match i.kind with
      | .decision =>
        match r.answer with
        | some answer => if answer.optionId ∈ i.options then some (some answer.optionId) else none
        | none => none
      | .action => some none
    else none

def settled (i : Item) (r : Option Resolution) : Option (Option String) :=
  if i.done then some i.option else i.chosen r

theorem chosen_congr {i j : Item} (hkind : i.kind = j.kind) (hoptions : i.options = j.options)
    (r : Option Resolution) : i.chosen r = j.chosen r := by
  unfold chosen
  rw [hkind, hoptions]

theorem settled_done {i : Item} (h : i.done = true) (r : Option Resolution) : i.settled r = some i.option := if_pos h

theorem settled_open {i : Item} (h : i.done = false) (r : Option Resolution) : i.settled r = i.chosen r :=
  if_neg (by rw [h]; exact Bool.false_ne_true)

end Item

namespace View

def source (v : View) (k : String) : Option Item := (v.curated k).or (v.dynamic k)

def settled (v : View) (k : String) : Option (Option String) := (v.source k).bind fun i => i.settled (v.entry k)

theorem source_of_apart {v : View} {k : String} (h : v.curated k = none) : v.source k = v.dynamic k := by
  rw [source, h, Option.none_or]

end View

inductive KeyChange : Option Item → Option Resolution → Option Item → Option Resolution → Prop where
  | same (i : Option Item) (e : Option Resolution) : KeyChange i e i e
  | insert (i : Item) (e : Option Resolution) : KeyChange none e (some i) e
  | edit (i j : Item) (e : Option Resolution) : j.kind = i.kind → j.options = i.options →
      (∀ x, i.settled e = some x → j.done = true → x = j.option) → (i.done = true → j.done = true) →
      KeyChange (some i) e (some j) e
  | answer (i : Item) (e e' : Option Resolution) (y : Option String) : i.chosen e' = some y →
      (∀ x, i.settled e = some x → x = y) → KeyChange (some i) e (some i) e'

structure Lawful (v v' : View) : Prop where
  at_key : ∀ k, KeyChange (v.source k) (v.entry k) (v'.source k) (v'.entry k)
  apart : ∀ k, v.curated k = none ∨ v.dynamic k = none → v'.curated k = none ∨ v'.dynamic k = none
  dynamic : ∀ k, v.dynamic k ≠ none → v'.dynamic k ≠ none

theorem Lawful.refl (v : View) : Lawful v v := ⟨fun _ => .same _ _, fun _ h => h, fun _ h => h⟩

variable {v : View} {k : String}

theorem lawful_curated {j : Item} (hapart : v.curated k = none → v.dynamic k = none)
    (hkey : KeyChange (v.source k) (v.entry k) (some j) (v.entry k)) :
    Lawful v { v with curated := setAt v.curated k j } := by
  refine ⟨fun k' => ?_, fun k' h => ?_, fun _ h => h⟩
  · by_cases hk : k' = k
    · subst hk
      have hsource : View.source { v with curated := setAt v.curated k' j } k' = some j := by
        unfold View.source
        dsimp only
        rw [setAt_self, Option.some_or]
      rw [hsource]
      exact hkey
    · have hsource : View.source { v with curated := setAt v.curated k j } k' = v.source k' := by
        unfold View.source
        dsimp only
        rw [setAt_ne _ _ hk]
      rw [hsource]
      exact .same _ _
  · by_cases hk : k' = k
    · subst hk
      refine .inr ?_
      rcases h with h | h
      · exact hapart h
      · exact h
    · dsimp only
      rw [setAt_ne _ _ hk]
      exact h

theorem lawful_dynamic {j : Item} (hapart : v.dynamic k = none → v.curated k = none)
    (hkey : v.curated k = none → KeyChange (v.source k) (v.entry k) (some j) (v.entry k)) :
    Lawful v { v with dynamic := setAt v.dynamic k j } := by
  refine ⟨fun k' => ?_, fun k' h => ?_, fun k' h => ?_⟩
  · by_cases hk : k' = k
    · subst hk
      cases hcurated : v.curated k' with
      | none =>
        have hsource : View.source { v with dynamic := setAt v.dynamic k' j } k' = some j := by
          unfold View.source
          dsimp only
          rw [hcurated, Option.none_or, setAt_self]
        rw [hsource]
        exact hkey hcurated
      | some i =>
        have hsource : View.source { v with dynamic := setAt v.dynamic k' j } k' = v.source k' := by
          unfold View.source
          dsimp only
          rw [hcurated, Option.some_or, Option.some_or]
        rw [hsource]
        exact .same _ _
    · have hsource : View.source { v with dynamic := setAt v.dynamic k j } k' = v.source k' := by
        unfold View.source
        dsimp only
        rw [setAt_ne _ _ hk]
      rw [hsource]
      exact .same _ _
  · by_cases hk : k' = k
    · subst hk
      refine .inl ?_
      rcases h with h | h
      · exact h
      · exact hapart h
    · dsimp only
      rw [setAt_ne _ _ hk]
      exact h
  · by_cases hk : k' = k
    · subst hk
      dsimp only
      rw [setAt_self]
      exact Option.some_ne_none j
    · dsimp only
      rw [setAt_ne _ _ hk]
      exact h

theorem lawful_entry {r : Resolution} (hkey : KeyChange (v.source k) (v.entry k) (v.source k) (some r)) :
    Lawful v { v with entry := setAt v.entry k r } := by
  refine ⟨fun k' => ?_, fun _ h => h, fun _ h => h⟩
  by_cases hk : k' = k
  · subst hk
    dsimp only
    rw [setAt_self]
    exact hkey
  · dsimp only
    rw [setAt_ne _ _ hk]
    exact .same _ _

theorem settled_lawful {v' : View} (h : Lawful v v') {k : String} {x : Option String} (hx : v.settled k = some x) :
    v'.settled k = some x := by
  unfold View.settled at hx ⊢
  have hkey := h.at_key k
  generalize v.source k = i at hx hkey
  generalize v.entry k = e at hx hkey
  generalize v'.source k = j at hkey ⊢
  generalize v'.entry k = e' at hkey ⊢
  cases hkey with
  | same => exact hx
  | insert => cases hx
  | edit i j e hkind hoptions hfits hdone =>
    rw [Option.bind_some] at hx ⊢
    cases hj : j.done with
    | true => rw [Item.settled_done hj, hfits x hx hj]
    | false =>
      have hi : i.done = false := by
        cases hi : i.done with
        | false => rfl
        | true =>
          rw [hdone hi] at hj
          cases hj
      rw [Item.settled_open hi] at hx
      rw [Item.settled_open hj, Item.chosen_congr hkind hoptions, hx]
  | answer i e e' y hchosen hfits =>
    rw [Option.bind_some] at hx ⊢
    cases hi : i.done with
    | true => rwa [Item.settled_done hi] at hx ⊢
    | false => rw [Item.settled_open hi, hchosen, hfits x hx]

/-- The item of the id is the one that was read, or one that has been closed since. -/
structure Tracks (v : View) (k : String) (i j : Item) : Prop where
  source : v.source k = some j
  kind : j.kind = i.kind
  options : j.options = i.options
  done : i.done = true → j.done = true ∧ j.option = i.option
  /-- A resolution gives no other answer than the one that it was closed with. -/
  closed : i.done = false → j.done = true → ∀ x, i.chosen (v.entry k) = some x → x = j.option

theorem Tracks.refl {i : Item} (h : v.source k = some i) : Tracks v k i i :=
  ⟨h, rfl, rfl, fun hdone => ⟨hdone, rfl⟩, fun hopen hdone => by rw [hopen] at hdone; cases hdone⟩

theorem tracks_lawful {v' : View} (h : Lawful v v') {k : String} {i j : Item} (ht : Tracks v k i j) :
    ∃ j', Tracks v' k i j' := by
  obtain ⟨hsource, hkind, hoptions, hdone, hclosed⟩ := ht
  have hkey := h.at_key k
  rw [hsource] at hkey
  generalize hi : some j = source at hkey
  generalize he : v.entry k = e at hkey hclosed
  generalize hs : v'.source k = source' at hkey
  generalize he' : v'.entry k = e' at hkey
  cases hkey with
  | same =>
    subst hi
    exact ⟨j, hs, hkind, hoptions, hdone, by rw [he']; exact hclosed⟩
  | insert => cases hi
  | edit _ j' _ hkind' hoptions' hfits hdone' =>
    cases hi
    refine ⟨j', hs, hkind'.trans hkind, hoptions'.trans hoptions, fun hi => ?_, fun hi hj' x hx => ?_⟩
    · obtain ⟨hj, hoption⟩ := hdone hi
      have hj' := hdone' hj
      exact ⟨hj', (hfits j.option (Item.settled_done hj _) hj').symm.trans hoption⟩
    · rw [he'] at hx
      refine hfits x ?_ hj'
      cases hj : j.done with
      | true => rw [Item.settled_done hj, hclosed hi hj x hx]
      | false => rw [Item.settled_open hj, Item.chosen_congr hkind hoptions, hx]
  | answer _ _ _ y hchosen hfits =>
    cases hi
    refine ⟨j, hs, hkind, hoptions, hdone, fun _ hj x hx => ?_⟩
    rw [he', Item.chosen_congr hkind.symm hoptions.symm, hchosen] at hx
    rw [← Option.some.inj hx]
    exact (hfits j.option (Item.settled_done hj _)).symm

theorem Tracks.settled {i j : Item} (ht : Tracks v k i j) {x : Option String}
    (hx : i.settled (v.entry k) = some x) : v.settled k = some x := by
  rw [View.settled, ht.source, Option.bind_some]
  cases hi : i.done with
  | true =>
    obtain ⟨hj, hoption⟩ := ht.done hi
    rwa [Item.settled_done hj, hoption, ← Item.settled_done hi]
  | false =>
    rw [Item.settled_open hi] at hx
    cases hj : j.done with
    | true => rw [Item.settled_done hj, ht.closed hi hj x hx]
    | false => rwa [Item.settled_open hj, Item.chosen_congr ht.kind ht.options]

theorem settled_read {v' : View} (h : Lawful v v') {k : String} {i j : Item} (ht : Tracks v k i j) {x : Option String}
    (hx : i.settled (v.entry k) = some x) : i.settled (v'.entry k) = some x := by
  have hsettled := ht.settled hx
  cases hi : i.done with
  | true => rwa [Item.settled_done hi] at hx ⊢
  | false =>
    rw [Item.settled_open hi] at hx ⊢
    rw [View.settled, ht.source, Option.bind_some] at hsettled
    have hkey := h.at_key k
    rw [ht.source] at hkey
    generalize hsource : some j = source at hkey
    generalize v.entry k = e at hkey hx hsettled
    generalize v'.source k = source' at hkey
    generalize v'.entry k = e' at hkey ⊢
    cases hkey with
    | same => exact hx
    | insert => cases hsource
    | edit => exact hx
    | answer _ _ _ y hchosen hfits =>
      cases hsource
      rw [Item.chosen_congr ht.kind.symm ht.options.symm, hchosen, hfits x hsettled]

end Store
end OwnerActions
end DarkFactory
