import DarkFactory.Demands.QueueStore

/-!
# DarkFactory.Demands.QueueView

What the view of the queue shows of the ledger and of the control store.

* `entry` — the ticket that is due for a `(project_id, ticket_id)`.
* `Complete` — every filtered view is the tickets that are due, each of them once.
* `OneProject` — no id is used by two projects.
* `StatusStable` — the rows of other statuses, which a view by status never reads, change nothing.
-/

namespace DarkFactory
namespace Demands

section

variable {τ : Type}

def ledgerRow (rows : List (UserTicket τ)) (pair : String × String) : Option (UserTicket τ) :=
  rows.reverse.find? fun t => decide (t.pair = pair)

def entry (rows : List (UserTicket τ)) (queue : Queue τ) (pair : String × String) : Option (UserTicket τ) :=
  match ledgerRow rows pair with
  | some t => if t.isTerminal then some t else some ((queue.get? pair).getD t)
  | none => queue.get? pair

structure Complete (rows : List (UserTicket τ)) (queue : Queue τ) : Prop where
  tickets : ∀ f t, t ∈ listTickets true f queue rows ↔ entry rows queue t.pair = some t ∧ f.admits t = true
  once : ∀ f, ((listTickets true f queue rows).map UserTicket.pair).Nodup

def Source (rows : List (UserTicket τ)) (queue : Queue τ) (t : UserTicket τ) : Prop := t ∈ rows ∨ t ∈ queue

def OneProject (rows : List (UserTicket τ)) (queue : Queue τ) : Prop :=
  ∀ t t', Source rows queue t → Source rows queue t' → t.id = t'.id → t.projectId = t'.projectId

def StatusStable (rows : List (UserTicket τ)) (queue : Queue τ) : Prop :=
  ∀ t, entry (rows.filter fun r => decide (r.status = t.status)) queue t.pair = some t ↔
    entry rows queue t.pair = some t

def Keyed (merged : Groups String (UserTicket τ)) : Prop := ∀ id t, merged.find id = some t → t.id = id

variable {merged : Groups String (UserTicket τ)} {t : UserTicket τ} {k : String × String}

theorem keyed_put (h : Keyed merged) (t : UserTicket τ) : Keyed (merged.put t.id t) := by
  intro id t' hfind
  rw [Groups.find_put] at hfind
  split at hfind
  · rename_i hid
    cases hfind
    exact hid.symm
  · exact h id t' hfind

theorem ticketsById_append (rows : List (UserTicket τ)) (t : UserTicket τ) :
    ticketsById (rows ++ [t]) = (ticketsById rows).put t.id t := by
  rw [ticketsById, List.foldl_append]
  rfl

theorem find_ticketsById (rows : List (UserTicket τ)) (id : String) :
    (ticketsById rows).find id = rows.reverse.find? fun t => decide (t.id = id) := by
  induction rows using List.reverseRecOn with
  | nil => rfl
  | append_singleton rows t ih =>
    rw [ticketsById_append, Groups.find_put, ih, List.reverse_append]
    by_cases hid : id = t.id
    · simp [hid]
    · simp [hid, Ne.symm hid]

theorem keyed_ticketsById (rows : List (UserTicket τ)) : Keyed (ticketsById rows) := by
  intro id t hfind
  rw [find_ticketsById] at hfind
  have hid := List.find?_some hfind
  exact of_decide_eq_true hid

theorem keyed_mergeControl (h : Keyed merged) (t : UserTicket τ) : Keyed (mergeControl merged t) := by
  unfold mergeControl
  split
  · exact h
  · exact keyed_put h t

theorem keyed_foldl (h : Keyed merged) (rows : List (UserTicket τ)) : Keyed (rows.foldl mergeControl merged) := by
  induction rows generalizing merged with
  | nil => exact h
  | cons t rows ih => exact ih (keyed_mergeControl h t)

theorem find_mergeControl (merged : Groups String (UserTicket τ)) (t : UserTicket τ) (id : String) :
    (mergeControl merged t).find id =
      if id = t.id ∧ (merged.find id).any UserTicket.isTerminal = false then some t else merged.find id := by
  unfold mergeControl
  by_cases hid : id = t.id
  · subst hid
    cases hterminal : (merged.find t.id).any UserTicket.isTerminal with
    | true => simp
    | false => simp [Groups.find_put]
  · split
    · simp [hid]
    · simp [Groups.find_put, hid]

theorem find_foldl_mergeControl {rows : List (UserTicket τ)} (h : (rows.map UserTicket.id).Nodup)
    (merged : Groups String (UserTicket τ)) (id : String) :
    (rows.foldl mergeControl merged).find id = if (merged.find id).any UserTicket.isTerminal then merged.find id
      else (rows.find? fun t => decide (t.id = id)).or (merged.find id) := by
  induction rows generalizing merged with
  | nil => simp
  | cons t rows ih =>
    rw [List.map_cons, List.nodup_cons] at h
    rw [List.foldl_cons, ih h.2, find_mergeControl]
    by_cases hid : id = t.id
    · subst hid
      have hrest : (rows.find? fun t' => decide (t'.id = t.id)) = none := by
        rw [List.find?_eq_none]
        intro t' ht' heq
        exact h.1 (of_decide_eq_true heq ▸ List.mem_map_of_mem ht')
      simp only [hrest, List.find?_cons, decide_true]
      cases hterminal : (merged.find t.id).any UserTicket.isTerminal with
      | true => simp [hterminal]
      | false => simp
    · simp [hid, Ne.symm hid]

theorem mem_mergeTickets {rows controlRows : List (UserTicket τ)} :
    t ∈ mergeTickets rows controlRows ↔ (controlRows.foldl mergeControl (ticketsById rows)).find t.id = some t := by
  rw [mergeTickets, (sortAsc_perm _ _).mem_iff, Groups.mem_values]
  constructor
  · rintro ⟨id, hfind⟩
    rw [keyed_foldl (keyed_ticketsById rows) controlRows id t hfind]
    exact hfind
  · exact fun hfind => ⟨t.id, hfind⟩

theorem mergeTickets_nodup (rows controlRows : List (UserTicket τ)) :
    ((mergeTickets rows controlRows).map UserTicket.id).Nodup := by
  have hkeyed := keyed_foldl (keyed_ticketsById rows) controlRows
  rw [mergeTickets, ((sortAsc_perm _ _).map _).nodup_iff, Groups.values, List.map_map]
  have hkeys : (controlRows.foldl mergeControl (ticketsById rows)).rows.map
      (UserTicket.id ∘ Prod.snd) = (controlRows.foldl mergeControl (ticketsById rows)).rows.map Prod.fst := by
    apply List.map_congr_left
    intro a ha
    refine hkeyed a.1 a.2 ?_
    rw [Groups.find, Table.get?_of_mem ha, Option.map_some]
  rw [hkeys]
  exact (controlRows.foldl mergeControl (ticketsById rows)).unique

variable {rows : List (UserTicket τ)} {queue : Queue τ}

theorem find?_congr_mem {α : Type} {l : List α} {p q : α → Bool} (h : ∀ a ∈ l, p a = q a) :
    l.find? p = l.find? q := by
  induction l with
  | nil => rfl
  | cons a l ih =>
    rw [List.find?_cons, List.find?_cons, h a List.mem_cons_self, ih fun b hb => h b (List.mem_cons_of_mem _ hb)]

theorem ledgerRow_some (h : ledgerRow rows k = some t) : t ∈ rows ∧ t.pair = k := by
  have hpair := List.find?_some h
  exact ⟨List.mem_reverse.mp (List.mem_of_find?_eq_some h), of_decide_eq_true hpair⟩

theorem entry_source (h : entry rows queue k = some t) : Source rows queue t ∧ t.pair = k := by
  unfold entry at h
  cases hl : ledgerRow rows k with
  | none =>
    rw [hl] at h
    exact ⟨.inr (Table.mem_of_get? h), Table.key_of_get? h⟩
  | some l =>
    obtain ⟨hmem, hpair⟩ := ledgerRow_some hl
    rw [hl] at h
    simp only at h
    split at h
    · cases h
      exact ⟨.inl hmem, hpair⟩
    · cases hc : queue.get? k with
      | none =>
        rw [hc] at h
        cases h
        exact ⟨.inl hmem, hpair⟩
      | some c =>
        rw [hc] at h
        cases h
        exact ⟨.inr (Table.mem_of_get? hc), Table.key_of_get? hc⟩

theorem entry_isSome (h : Source rows queue t) (hk : t.pair = k) : (entry rows queue k).isSome = true := by
  unfold entry
  cases hl : ledgerRow rows k with
  | some l =>
    simp only
    split <;> rfl
  | none =>
    rcases h with hrow | hqueue
    · have hnone := List.find?_eq_none.mp hl t (List.mem_reverse.mpr hrow)
      exact absurd (decide_eq_true hk) hnone
    · rw [← hk, Table.get?_of_mem hqueue]
      rfl

theorem OneProject.pair_eq (h : OneProject rows queue) {t t' : UserTicket τ} (ht : Source rows queue t)
    (ht' : Source rows queue t') : t.id = t'.id ↔ t.pair = t'.pair := by
  constructor
  · intro hid
    exact Prod.ext (h t t' ht ht' hid) hid
  · intro hpair
    exact congrArg Prod.snd hpair

theorem OneProject.filter (h : OneProject rows queue) (p : UserTicket τ → Bool) :
    OneProject (rows.filter p) queue := by
  have hsource : ∀ t, Source (rows.filter p) queue t → Source rows queue t :=
    fun t ht => ht.imp (fun hrow => (List.mem_filter.mp hrow).1) id
  exact fun t t' ht ht' => h t t' (hsource t ht) (hsource t' ht')

theorem OneProject.queue_ids (h : OneProject rows queue) : (queue.rows.map UserTicket.id).Nodup := by
  refine List.Nodup.map_on ?_ (List.Nodup.of_map _ queue.unique)
  intro t ht t' ht' hid
  exact Table.eq_of_key ht ht' ((h.pair_eq (.inr ht) (.inr ht')).mp hid)

theorem mem_mergeTickets_iff (h : OneProject rows queue) {t : UserTicket τ} :
    t ∈ mergeTickets rows queue.rows ↔ entry rows queue t.pair = some t := by
  rw [mem_mergeTickets, find_foldl_mergeControl h.queue_ids, find_ticketsById]
  have hsame : Source rows queue t → ((rows.reverse.find? fun r => decide (r.id = t.id)) = ledgerRow rows t.pair) ∧
        (queue.rows.find? fun r => decide (r.id = t.id)) = queue.get? t.pair := by
    intro ht
    constructor
    · refine find?_congr_mem fun r hr => ?_
      rw [decide_eq_decide]
      exact h.pair_eq (.inl (List.mem_reverse.mp hr)) ht
    · refine find?_congr_mem fun r hr => ?_
      rw [decide_eq_decide]
      exact h.pair_eq (.inr hr) ht
  have hentry : Source rows queue t → (entry rows queue t.pair =
      if ((rows.reverse.find? fun r => decide (r.id = t.id)).any UserTicket.isTerminal) = true then
        rows.reverse.find? fun r => decide (r.id = t.id)
      else (queue.rows.find? fun r => decide (r.id = t.id)).or
        (rows.reverse.find? fun r => decide (r.id = t.id))) := by
    intro ht
    rw [(hsame ht).1, (hsame ht).2, entry]
    cases ledgerRow rows t.pair with
    | none => simp
    | some l => cases hterminal : l.isTerminal <;> cases queue.get? t.pair <;> simp [hterminal]
  constructor
  · intro hfind
    have ht : Source rows queue t := by
      split at hfind
      · exact .inl (List.mem_reverse.mp (List.mem_of_find?_eq_some hfind))
      · rcases Option.or_eq_some_iff.mp hfind with hqueue | ⟨-, hrow⟩
        · exact .inr (List.mem_of_find?_eq_some hqueue)
        · exact .inl (List.mem_reverse.mp (List.mem_of_find?_eq_some hrow))
    rw [hentry ht]
    exact hfind
  · intro hdue
    rw [← hentry (entry_source hdue).1]
    exact hdue

theorem mem_listTickets {f : Filter} :
    t ∈ listTickets true f queue rows ↔ t ∈ mergeTickets (rows.filter f.admits) queue.rows ∧ f.admits t = true := by
  rw [listTickets, (sortAsc_perm _ _).mem_iff, withControlQueue, if_pos rfl, List.mem_filter]

theorem listTickets_ids (f : Filter) (queue : Queue τ) (rows : List (UserTicket τ)) :
    ((listTickets true f queue rows).map UserTicket.id).Nodup := by
  rw [listTickets, ((sortAsc_perm _ _).map _).nodup_iff, withControlQueue, if_pos rfl]
  exact (mergeTickets_nodup _ _).sublist (List.filter_sublist.map _)

theorem listTickets_pairs (f : Filter) (queue : Queue τ) (rows : List (UserTicket τ)) :
    ((listTickets true f queue rows).map UserTicket.pair).Nodup := by
  have hids : (((listTickets true f queue rows).map UserTicket.pair).map Prod.snd).Nodup := by
    rw [List.map_map]
    exact listTickets_ids f queue rows
  exact List.Nodup.of_map _ hids

theorem entry_filter_congr {p q : UserTicket τ → Bool} (h : ∀ r ∈ rows, r.pair = k → p r = q r) :
    entry (rows.filter p) queue k = entry (rows.filter q) queue k := by
  have hrow : ledgerRow (rows.filter p) k = ledgerRow (rows.filter q) k := by
    rw [ledgerRow, ledgerRow, ← List.filter_reverse, ← List.filter_reverse, List.find?_filter, List.find?_filter]
    refine find?_congr_mem fun r hr => ?_
    by_cases hk : r.pair = k
    · rw [h r (List.mem_reverse.mp hr) hk]
    · simp [hk]
  rw [entry, entry, hrow]

theorem admits_eq {f : Filter} {s : DeliveryStatus} (hs : f.status = some s) {r t : UserTicket τ}
    (ht : f.admits t = true) (hr : r.pair = t.pair) : f.admits r = decide (r.status = t.status) := by
  have hproject : r.projectId = t.projectId := congrArg Prod.fst hr
  simp only [Filter.admits, hs, Option.all_some, Bool.and_eq_true, decide_eq_true_eq] at ht ⊢
  rw [hproject, ht.1, ht.2, Bool.true_and]

theorem admits_of_unfiltered {f : Filter} (hs : f.status = none) {r t : UserTicket τ}
    (ht : f.admits t = true) (hr : r.pair = t.pair) : f.admits r = true := by
  have hproject : r.projectId = t.projectId := congrArg Prod.fst hr
  simp only [Filter.admits, hs, Option.all_none, Bool.and_true] at ht ⊢
  rw [hproject]
  exact ht

theorem entry_admitted (hstable : StatusStable rows queue) {f : Filter} {t : UserTicket τ} (ht : f.admits t = true) :
    entry (rows.filter f.admits) queue t.pair = some t ↔ entry rows queue t.pair = some t := by
  cases hs : f.status with
  | none =>
    have hall : entry (rows.filter f.admits) queue t.pair = entry (rows.filter fun _ => true) queue t.pair :=
      entry_filter_congr fun r _ hr => admits_of_unfiltered hs ht hr
    rw [hall, List.filter_true]
  | some s =>
    rw [← hstable t, entry_filter_congr fun r _ hr => admits_eq hs ht hr]

theorem complete_of (hproject : OneProject rows queue) (hstable : StatusStable rows queue) :
    Complete rows queue where
  tickets f t := by
    rw [mem_listTickets, mem_mergeTickets_iff (hproject.filter f.admits)]
    constructor
    · rintro ⟨hdue, ht⟩
      exact ⟨(entry_admitted hstable ht).mp hdue, ht⟩
    · rintro ⟨hdue, ht⟩
      exact ⟨(entry_admitted hstable ht).mpr hdue, ht⟩
  once f := listTickets_pairs f queue rows

theorem admits_all (t : UserTicket τ) : ({} : Filter).admits t = true := rfl

theorem oneProject_of (h : Complete rows queue) : OneProject rows queue := by
  intro t t' ht ht' hid
  obtain ⟨e, he⟩ := Option.isSome_iff_exists.mp (entry_isSome ht rfl)
  obtain ⟨e', he'⟩ := Option.isSome_iff_exists.mp (entry_isSome ht' rfl)
  have hpair := (entry_source he).2
  have hpair' := (entry_source he').2
  have hview := (h.tickets {} e).mpr ⟨hpair ▸ he, admits_all e⟩
  have hview' := (h.tickets {} e').mpr ⟨hpair' ▸ he', admits_all e'⟩
  -- The view has one ticket for an id.
  have hids : e.id = e'.id :=
    (congrArg Prod.snd hpair).trans (hid.trans (congrArg Prod.snd hpair').symm)
  have hsame := List.inj_on_of_nodup_map (listTickets_ids {} queue rows) hview hview' hids
  rw [hsame, hpair'] at hpair
  exact (congrArg Prod.fst hpair).symm

theorem statusStable_of (h : Complete rows queue) : StatusStable rows queue := by
  intro t
  have hproject := oneProject_of h
  have ht : ({ status := some t.status } : Filter).admits t = true := by simp [Filter.admits]
  have hview := h.tickets { status := some t.status } t
  rw [mem_listTickets, mem_mergeTickets_iff (hproject.filter _)] at hview
  simp only [ht, and_true] at hview
  rw [← hview, entry_filter_congr fun r _ hr => admits_eq rfl ht hr]

theorem ledgerRow_filter (h : (rows.map UserTicket.pair).Nodup) {k : String × String} {l : UserTicket τ}
    (hl : ledgerRow rows k = some l) (p : UserTicket τ → Bool) :
    ledgerRow (rows.filter p) k = if p l = true then some l else none := by
  obtain ⟨hmem, hpair⟩ := ledgerRow_some hl
  have hfilter : ∀ r, ledgerRow (rows.filter p) k = some r → r = l ∧ p l = true := by
    intro r hr
    obtain ⟨hr, hrpair⟩ := ledgerRow_some hr
    obtain ⟨hr, hp⟩ := List.mem_filter.mp hr
    have hsame := List.inj_on_of_nodup_map h hr hmem (hrpair.trans hpair.symm)
    exact ⟨hsame, hsame ▸ hp⟩
  cases hr : ledgerRow (rows.filter p) k with
  | some r =>
    obtain ⟨rfl, hp⟩ := hfilter r hr
    rw [if_pos hp]
  | none =>
    rw [if_neg]
    intro hp
    have hnone := List.find?_eq_none.mp hr l (List.mem_reverse.mpr (List.mem_filter.mpr ⟨hmem, hp⟩))
    exact hnone (decide_eq_true hpair)

theorem statusStable_iff (h : (rows.map UserTicket.pair).Nodup) :
    StatusStable rows queue ↔ ∀ l ∈ rows, l.isTerminal = true →
      ∀ t, queue.get? l.pair = some t → t.status = l.status := by
  have hrow : ∀ l ∈ rows, ledgerRow rows l.pair = some l := by
    intro l hl
    cases hr : ledgerRow rows l.pair with
    | none => exact absurd (decide_eq_true rfl) (List.find?_eq_none.mp hr l (List.mem_reverse.mpr hl))
    | some r =>
      obtain ⟨hrmem, hpair⟩ := ledgerRow_some hr
      rw [List.inj_on_of_nodup_map h hrmem hl hpair]
  constructor
  · intro hstable l hl hterminal t ht
    by_contra hne
    have hpair := Table.key_of_get? ht
    have hdue := hstable t
    rw [entry, entry, hpair, ledgerRow_filter h (hrow l hl), hrow l hl] at hdue
    simp only [Ne.symm hne, decide_false, Bool.false_eq_true, if_false, hterminal, if_true] at hdue
    have hsame := hdue.mp ht
    cases hsame
    exact hne rfl
  · intro hclosed t
    cases hl : ledgerRow rows t.pair with
    | none =>
      have hnone : ledgerRow (rows.filter fun r => decide (r.status = t.status)) t.pair = none := by
        rw [ledgerRow, List.find?_eq_none] at hl ⊢
        intro r hr
        exact hl r (List.mem_reverse.mpr (List.mem_filter.mp (List.mem_reverse.mp hr)).1)
      rw [entry, entry, hl, hnone]
    | some l =>
      obtain ⟨hmem, hpair⟩ := ledgerRow_some hl
      rw [entry, entry, ledgerRow_filter h hl, hl]
      by_cases hstatus : l.status = t.status
      · simp [hstatus]
      · simp only [hstatus, decide_false, Bool.false_eq_true, if_false]
        cases hterminal : l.isTerminal with
        | true =>
          simp only [if_true, Option.some.injEq]
          constructor
          · intro ht
            exact absurd (hclosed l hmem hterminal t (hpair ▸ ht)).symm hstatus
          · rintro rfl
            exact absurd rfl hstatus
        | false =>
          simp only [Bool.false_eq_true, if_false, Option.some.injEq]
          cases queue.get? t.pair with
          | none =>
            simp only [reduceCtorEq, Option.getD_none, false_iff]
            rintro rfl
            exact hstatus rfl
          | some c => simp

/-- Every view shows what is due exactly if no id is used by two projects and no view by status shows
a ticket that the rows of other statuses would have closed. -/
theorem view_complete_iff (rows : List (UserTicket τ)) (queue : Queue τ) :
    Complete rows queue ↔ OneProject rows queue ∧ StatusStable rows queue :=
  ⟨fun h => ⟨oneProject_of h, statusStable_of h⟩, fun h => complete_of h.1 h.2⟩

end

def ticket (projectId : String) (status : DeliveryStatus) : UserTicket Unit where
  id := "USR-01"
  projectId := projectId
  title := "Ticket"
  status := status
  rest := ()

def queueOf (t : UserTicket Unit) : Queue Unit := ⟨[t], List.nodup_singleton _⟩

/-- The open ticket of one project is hidden by a ticket of another one, and a ticket that the ledger has
closed is shown as planned. -/
theorem hidden_ticket :
    (listTickets true { projectId := some "darkfac" } (queueOf (ticket "site" .planned))
        [ticket "darkfac" .planned] = [] ∧
      ¬ Complete [ticket "darkfac" .planned] (queueOf (ticket "site" .planned))) ∧
      listTickets true { status := some .planned } (queueOf (ticket "darkfac" .planned))
        [ticket "darkfac" .completed] = [ticket "darkfac" .planned] ∧
      ¬ Complete [ticket "darkfac" .completed] (queueOf (ticket "darkfac" .planned)) := by
  refine ⟨⟨by decide, fun h => ?_⟩, by decide, fun h => ?_⟩
  · have hview := (h.tickets { projectId := some "darkfac" } (ticket "darkfac" .planned)).mpr
      ⟨by decide, by decide⟩
    revert hview
    decide
  · have hdue := (h.tickets { status := some .planned } (ticket "darkfac" .planned)).mp (by decide)
    have hclosed : entry [ticket "darkfac" .completed] (queueOf (ticket "darkfac" .planned))
        (ticket "darkfac" .planned).pair = some (ticket "darkfac" .completed) := by decide
    rw [hclosed] at hdue
    exact absurd hdue.1 (by decide)

end Demands
end DarkFactory
