import DarkFactory.OwnerActions.AnswerRuns
import DarkFactory.OwnerActions.Sync

/-!
# DarkFactory.OwnerActions.SyncRuns

What the outbox, the messages in flight and the Hub have in common, whatever the network does.

* `Gentle` — no row is closed that is quarantined, and no close is answered with a code that rejects it.
* `Tidy` — then a quarantined row has had its event rejected, and a close is not quarantined.
-/

namespace DarkFactory
namespace OwnerActions
namespace Sync

open Store Calls

variable {scan : SecretScan} {toAction : HumanRequest → Option OwnerAction}

theorem row_setRow (rows : Outbox) (k key : Key) (r : OutboxRow) :
    row (setRow rows k r) key = if k = key then some r else row rows key := by
  rw [row, setRow, Lookup.get_put]
  split <;> rfl

theorem publishRequest_row (scan : SecretScan) (request : HumanRequest) (rows : Outbox) (key : Key) :
    row (publishRequest scan request rows) key = row rows key ∨
      (keyOf request = key ∧ (∀ r, row rows key = some r → r.event.closed = false) ∧
        row (publishRequest scan request rows) key = some { event := { request := request.safe scan } }) := by
  unfold publishRequest
  dsimp only
  split
  · rename_i hnone
    by_cases hkey : keyOf request = key
    · subst hkey
      refine .inr ⟨rfl, fun r hr => ?_, by rw [row_setRow, if_pos rfl]⟩
      rw [hnone] at hr
      cases hr
    · left
      rw [row_setRow, if_neg hkey]
  · rename_i old hold
    split
    · exact .inl rfl
    · rename_i hopen
      by_cases hkey : keyOf request = key
      · subst hkey
        refine .inr ⟨rfl, fun r hr => ?_, by rw [row_setRow, if_pos rfl]⟩
        rw [hold] at hr
        cases hr
        rw [Bool.or_eq_true, not_or, Bool.not_eq_true] at hopen
        exact hopen.1
      · left
        rw [row_setRow, if_neg hkey]

theorem publishClosed_row (runId stage createdAt : String) (rows : Outbox) (key : Key) :
    row (publishClosed runId stage createdAt rows) key = row rows key ∨
      ((runId, stage) = key ∧ ∃ r', row (publishClosed runId stage createdAt rows) key = some r' ∧
        r'.event.closed = true ∧ r'.sent = false ∧
        ((row rows key = none ∧ r'.quarantined = false) ∨
          ∃ r, row rows key = some r ∧ r.event.closed = false ∧ r'.quarantined = r.quarantined)) := by
  unfold publishClosed
  split
  · rename_i old hold
    split
    · exact .inl rfl
    · rename_i hopen
      by_cases hkey : (runId, stage) = key
      · subst hkey
        rw [row_setRow, if_pos rfl]
        refine .inr ⟨rfl, _, rfl, rfl, rfl, .inr ⟨old, hold, ?_, rfl⟩⟩
        rwa [Bool.not_eq_true] at hopen
      · left
        rw [row_setRow, if_neg hkey]
  · rename_i hnone
    dsimp only
    by_cases hkey : (runId, stage) = key
    · subst hkey
      rw [row_setRow, if_pos rfl]
      exact .inr ⟨rfl, _, rfl, rfl, rfl, .inl ⟨hnone, rfl⟩⟩
    · left
      rw [row_setRow, if_neg hkey]

theorem update_row (w : World) (k : Key) (event : SyncEvent) (change : OutboxRow → OutboxRow) (key : Key) :
    row (w.update k event change).outbox key = row w.outbox key ∨
      ∃ r, row w.outbox key = some r ∧ r.event = event ∧ row (w.update k event change).outbox key = some (change r) := by
  unfold World.update
  split
  · rename_i r hr
    split
    · rename_i hevent
      by_cases hkey : k = key
      · subst hkey
        refine .inr ⟨r, hr, hevent, ?_⟩
        dsimp only
        rw [row_setRow, if_pos rfl]
      · left
        dsimp only
        rw [row_setRow, if_neg hkey]
    · exact .inl rfl
  · exact .inl rfl

theorem update_frame (w : World) (k : Key) (event : SyncEvent) (change : OutboxRow → OutboxRow) :
    ∃ outbox, w.update k event change = { w with outbox := outbox } := by
  unfold World.update
  split
  · split
    · exact ⟨_, rfl⟩
    · exact ⟨_, rfl⟩
  · exact ⟨_, rfl⟩

theorem update_rows (w : World) (k : Key) (event : SyncEvent) (change : OutboxRow → OutboxRow) :
    ∃ outbox, w.update k event change = { w with outbox := outbox } ∧ ∀ key r', row outbox key = some r' →
      row w.outbox key = some r' ∨ ∃ r, row w.outbox key = some r ∧ r.event = event ∧ r' = change r := by
  obtain ⟨outbox, hframe⟩ := update_frame w k event change
  refine ⟨outbox, hframe, fun key r' hr' => ?_⟩
  have hrow := update_row w k event change key
  rw [hframe] at hrow
  dsimp only at hrow
  rw [hr'] at hrow
  exact hrow.imp Eq.symm fun ⟨r, hr, hevent, hchange⟩ => ⟨r, hr, hevent, Option.some.inj hchange⟩

def Among (network : List SyncEvent) (messages : List Nat) (event : SyncEvent) : Prop :=
  ∃ i ∈ messages, network[i]? = some event

variable {network : List SyncEvent} {event : SyncEvent} {w : World}

theorem getElem?_posted {i : Nat} (h : network[i]? = some event)
    (posted : SyncEvent) : (network ++ [posted])[i]? = some event := by
  have hlt : i < network.length := (List.getElem?_eq_some_iff.mp h).1
  rw [List.getElem?_append_left hlt, h]

theorem Among.posted {messages : List Nat}
    (h : Among network messages event) (posted : SyncEvent) : Among (network ++ [posted]) messages event := by
  obtain ⟨i, hi, hget⟩ := h
  exact ⟨i, hi, getElem?_posted hget posted⟩

theorem Among.more {messages : List Nat}
    (h : Among network messages event) (i : Nat) : Among network (messages ++ [i]) event := by
  obtain ⟨j, hj, hget⟩ := h
  exact ⟨j, List.mem_append_left _ hj, hget⟩

/-- What is posted and accepted is on record, for the flushes in flight and for the rows that are marked as sent. -/
structure Honest (w : World) : Prop where
  sent : ∀ key r, row w.outbox key = some r → r.sent = true → Among w.network w.accepted r.event
  posted : ∀ f event message, (w.flushes f).message = some (event, message) → w.network[message]? = some event
  accepted : ∀ f now key event message rest, w.flushes f = .answered now key event message none rest →
    message ∈ w.accepted

theorem set_self (w : World) (f : Nat) (s : Flush) : (w.set f s).flushes f = s := if_pos rfl

theorem set_ne (w : World) {f f' : Nat} (s : Flush) (h : f' ≠ f) : (w.set f s).flushes f' = w.flushes f' := if_neg h

theorem honest_set (h : Honest w) {f : Nat} {s : Flush}
    (hposted : ∀ event message, s.message = some (event, message) → w.network[message]? = some event)
    (haccepted : ∀ now key event message rest, s = .answered now key event message none rest → message ∈ w.accepted) :
    Honest (w.set f s) := by
  refine ⟨h.sent, fun f' event message hf => ?_, fun f' now key event message rest hf => ?_⟩
  all_goals by_cases hf' : f' = f
  · subst hf'
    rw [set_self] at hf
    exact hposted event message hf
  · rw [set_ne w s hf'] at hf
    exact h.posted f' event message hf
  · subst hf'
    rw [set_self] at hf
    exact haccepted now key event message rest hf
  · rw [set_ne w s hf'] at hf
    exact h.accepted f' now key event message rest hf

theorem honest_idle (h : Honest w) {f : Nat} {s : Flush} (hs : s.message = none) : Honest (w.set f s) := by
  refine honest_set h (fun event message hm => ?_) fun now key event message rest hm => ?_
  · rw [hs] at hm
    cases hm
  · rw [hm] at hs
    cases hs

theorem honest_outbox (h : Honest w) {outbox : Outbox} (hrows : ∀ key r', row outbox key = some r' → r'.sent = true →
      (∃ r, row w.outbox key = some r ∧ r.sent = true ∧ r'.event = r.event) ∨
        Among w.network w.accepted r'.event) : Honest { w with outbox := outbox } := by
  refine ⟨fun key r' hr' hsent => ?_, h.posted, h.accepted⟩
  rcases hrows key r' hr' hsent with ⟨r, hr, hrsent, hevent⟩ | hamong
  · rw [hevent]
    exact h.sent key r hr hrsent
  · exact hamong

theorem honest_update (h : Honest w) (k : Key) (event : SyncEvent) {change : OutboxRow → OutboxRow}
    (hevent : ∀ r, (change r).event = r.event)
    (hsent : ∀ r, r.event = event → (change r).sent = true → r.sent = true ∨ Among w.network w.accepted event) :
    Honest (w.update k event change) := by
  obtain ⟨outbox, hframe, hrows⟩ := update_rows w k event change
  rw [hframe]
  refine honest_outbox h fun key r' hr' hr'sent => ?_
  rcases hrows key r' hr' with hsame | ⟨r, hr, hrevent, rfl⟩
  · exact .inl ⟨r', hsame, hr'sent, rfl⟩
  · rcases hsent r hrevent hr'sent with hrsent | hamong
    · exact .inl ⟨r, hr, hrsent, hevent r⟩
    · right
      rw [hevent r, hrevent]
      exact hamong

theorem honest_step (h : Honest w) (e : Event) : Honest (step scan toAction w e) := by
  unfold step
  cases e with
  | publishRequest request =>
    refine honest_outbox h fun key r' hr' hsent => ?_
    rcases publishRequest_row scan request w.outbox key with hsame | ⟨_, _, hnew⟩
    · rw [hsame] at hr'
      exact .inl ⟨r', hr', hsent, rfl⟩
    · rw [hnew] at hr'
      cases hr'
      cases hsent
  | publishClosed runId stage createdAt =>
    refine honest_outbox h fun key r' hr' hsent => ?_
    rcases publishClosed_row runId stage createdAt w.outbox key with hsame | ⟨_, r, hnew, _, hunsent, _⟩
    · rw [hsame] at hr'
      exact .inl ⟨r', hr', hsent, rfl⟩
    · rw [hnew] at hr'
      cases hr'
      rw [hunsent] at hsent
      cases hsent
  | flush f now force =>
    dsimp only
    split
    · split
      · exact honest_idle h rfl
      · exact honest_idle h rfl
    · exact h
  | post f =>
    dsimp only
    split
    · exact honest_idle h rfl
    · rename_i now key event rest hf
      split
      · -- the message is in the network from now on
        obtain ⟨outbox, hframe⟩ := update_frame w key event fun r => { r with nextAttempt := now + retryInterval }
        have hupdate : Honest (w.update key event fun r => { r with nextAttempt := now + retryInterval }) :=
          honest_update h key event (fun _ => rfl) fun r _ hsent => .inl hsent
        rw [hframe] at hupdate ⊢
        have hposted : Honest { w with outbox := outbox, network := w.network ++ [event] } :=
          ⟨fun k r hr hsent => (hupdate.sent k r hr hsent).posted event,
            fun f' event' message hm => getElem?_posted (h.posted f' event' message hm) event, h.accepted⟩
        refine honest_set hposted (fun event' message hm => ?_) fun _ _ _ _ _ hm => Flush.noConfusion hm
        cases hm
        dsimp only
        rw [List.getElem?_append_right (Nat.le_refl _), Nat.sub_self]
        rfl
      · exact honest_idle h rfl
    · exact h
  | answer f a =>
    dsimp only
    split
    · rename_i now key event message rest hf
      have hmessage : w.network[message]? = some event := h.posted f event message (by rw [hf]; rfl)
      cases a with
      | ok =>
        dsimp only
        split
        · rename_i haccepted
          refine honest_set h (fun event' message' hm => ?_) fun now' key' event' message' rest' hm => ?_
          · cases hm
            exact hmessage
          · cases hm
            exact haccepted
        · exact h
      | http code =>
        dsimp only
        split
        · have htransport : Honest { w with transport := some (now + retryInterval) } := ⟨h.sent, h.posted, h.accepted⟩
          exact honest_idle htransport rfl
        · split
          · have hrejected : Honest { w with rejected := w.rejected ++ [message] } := ⟨h.sent, h.posted, h.accepted⟩
            refine honest_set hrejected (fun event' message' hm => ?_) fun _ _ _ _ _ hm => ?_
            · cases hm
              exact hmessage
            · cases hm
          · exact honest_idle h rfl
      | failed => exact honest_idle h rfl
    · exact h
  | settle f =>
    dsimp only
    split
    · rename_i now key event message rest hf
      have hmessage : w.network[message]? = some event := h.posted f event message (by rw [hf]; rfl)
      have haccepted := h.accepted f now key event message rest hf
      refine honest_idle ?_ rfl
      exact honest_update h key event (fun _ => rfl) fun r _ _ => .inr ⟨message, haccepted, hmessage⟩
    · rename_i now key event message code rest hf
      refine honest_idle ?_ rfl
      refine honest_update h key event (fun _ => rfl) fun r _ hsent => ?_
      cases hsent
    · exact h
  | crash f => exact honest_idle h rfl
  | deliver message now =>
    dsimp only
    split
    · exact h
    · split
      · exact h
      · exact ⟨fun key r hr hsent => (h.sent key r hr hsent).more message, h.posted,
          fun f now key event message' rest hf => List.mem_append_left _ (h.accepted f now key event message' rest hf)⟩

def Gentle (w : World) : Event → Prop
  | .publishClosed runId stage _ => ∀ r ∈ row w.outbox (runId, stage), r.quarantined = false
  | .answer f (.http code) =>
    match w.flushes f with
    | .posting _ _ event _ _ => rejects code = true → event.closed = false
    | _ => True
  | _ => True

instance (w : World) (e : Event) : Decidable (Gentle w e) := by
  unfold Gentle
  split
  · infer_instance
  · split <;> infer_instance
  · infer_instance

structure Tidy (w : World) : Prop where
  quarantined : ∀ key r, row w.outbox key = some r → r.quarantined = true →
    r.event.closed = false ∧ Among w.network w.rejected r.event
  rejected : ∀ f now key event message code rest, w.flushes f = .answered now key event message (some code) rest →
    event.closed = false ∧ message ∈ w.rejected

theorem tidy_set (h : Tidy w) {f : Nat} {s : Flush}
    (hs : ∀ now key event message code rest, s = .answered now key event message (some code) rest →
      event.closed = false ∧ message ∈ w.rejected) : Tidy (w.set f s) := by
  refine ⟨h.quarantined, fun f' now key event message code rest hf => ?_⟩
  by_cases hf' : f' = f
  · subst hf'
    rw [set_self] at hf
    exact hs now key event message code rest hf
  · rw [set_ne w s hf'] at hf
    exact h.rejected f' now key event message code rest hf

theorem tidy_idle (h : Tidy w) {f : Nat} {s : Flush} (hs : s.message = none) : Tidy (w.set f s) := by
  refine tidy_set h fun now key event message code rest hm => ?_
  rw [hm] at hs
  cases hs

theorem tidy_outbox (h : Tidy w) {outbox : Outbox}
    (hrows : ∀ key r', row outbox key = some r' → r'.quarantined = true →
      (∃ r, row w.outbox key = some r ∧ r.quarantined = true ∧ r'.event = r.event) ∨
        (r'.event.closed = false ∧ Among w.network w.rejected r'.event)) : Tidy { w with outbox := outbox } := by
  refine ⟨fun key r' hr' hquarantined => ?_, h.rejected⟩
  rcases hrows key r' hr' hquarantined with ⟨r, hr, hrq, hevent⟩ | hnew
  · rw [hevent]
    exact h.quarantined key r hr hrq
  · exact hnew

theorem tidy_update (h : Tidy w) (k : Key) (event : SyncEvent) {change : OutboxRow → OutboxRow}
    (hevent : ∀ r, (change r).event = r.event)
    (hquarantined : ∀ r, r.event = event → (change r).quarantined = true →
      r.quarantined = true ∨ (event.closed = false ∧ Among w.network w.rejected event)) :
    Tidy (w.update k event change) := by
  obtain ⟨outbox, hframe, hrows⟩ := update_rows w k event change
  rw [hframe]
  refine tidy_outbox h fun key r' hr' hr'q => ?_
  rcases hrows key r' hr' with hsame | ⟨r, hr, hrevent, rfl⟩
  · exact .inl ⟨r', hsame, hr'q, rfl⟩
  · rcases hquarantined r hrevent hr'q with hrq | hnew
    · exact .inl ⟨r, hr, hrq, hevent r⟩
    · right
      rw [hevent r, hrevent]
      exact hnew

theorem tidy_step {e : Event} (h : Tidy w) (hhonest : Honest w) (hgentle : Gentle w e) :
    Tidy (step scan toAction w e) := by
  unfold step
  cases e with
  | publishRequest request =>
    refine tidy_outbox h fun key r' hr' hquarantined => ?_
    rcases publishRequest_row scan request w.outbox key with hsame | ⟨_, _, hnew⟩
    · rw [hsame] at hr'
      exact .inl ⟨r', hr', hquarantined, rfl⟩
    · rw [hnew] at hr'
      cases hr'
      cases hquarantined
  | publishClosed runId stage createdAt =>
    have hclear : ∀ r ∈ row w.outbox (runId, stage), r.quarantined = false := hgentle
    refine tidy_outbox h fun key r' hr' hquarantined => ?_
    rcases publishClosed_row runId stage createdAt w.outbox key with hsame | ⟨rfl, r'', hnew, _, _, hold⟩
    · rw [hsame] at hr'
      exact .inl ⟨r', hr', hquarantined, rfl⟩
    · rw [hnew] at hr'
      cases hr'
      rcases hold with ⟨_, hfalse⟩ | ⟨r, hr, _, hq⟩
      · rw [hfalse] at hquarantined
        cases hquarantined
      · rw [hq, hclear r hr] at hquarantined
        cases hquarantined
  | flush f now force =>
    dsimp only
    split
    · split
      · exact tidy_idle h rfl
      · exact tidy_idle h rfl
    · exact h
  | post f =>
    dsimp only
    split
    · exact tidy_idle h rfl
    · rename_i now key event rest hf
      split
      · obtain ⟨outbox, hframe⟩ := update_frame w key event fun r => { r with nextAttempt := now + retryInterval }
        have hupdate : Tidy (w.update key event fun r => { r with nextAttempt := now + retryInterval }) :=
          tidy_update h key event (fun _ => rfl) fun r _ hq => .inl hq
        rw [hframe] at hupdate ⊢
        have hposted : Tidy { w with outbox := outbox, network := w.network ++ [event] } := by
          refine ⟨fun k r hr hq => ?_, h.rejected⟩
          obtain ⟨hopen, hamong⟩ := hupdate.quarantined k r hr hq
          exact ⟨hopen, hamong.posted event⟩
        exact tidy_set hposted fun _ _ _ _ _ _ hs => by cases hs
      · exact tidy_idle h rfl
    · exact h
  | answer f a =>
    dsimp only
    split
    · rename_i now key event message rest hf
      cases a with
      | ok =>
        dsimp only
        split
        · exact tidy_set h fun _ _ _ _ _ _ hs => by cases hs
        · exact h
      | http code =>
        unfold Gentle at hgentle
        dsimp only at hgentle ⊢
        rw [hf] at hgentle
        split
        · have htransport : Tidy { w with transport := some (now + retryInterval) } := ⟨h.quarantined, h.rejected⟩
          exact tidy_idle htransport rfl
        · split
          · rename_i hrejects
            have hrejected : Tidy { w with rejected := w.rejected ++ [message] } := by
              refine ⟨fun k r hr hq => ?_, fun f' now' key' event' message' code' rest' hf' => ?_⟩
              · obtain ⟨hopen, hamong⟩ := h.quarantined k r hr hq
                exact ⟨hopen, hamong.more message⟩
              · obtain ⟨hopen, hmem⟩ := h.rejected f' now' key' event' message' code' rest' hf'
                exact ⟨hopen, List.mem_append_left _ hmem⟩
            refine tidy_set hrejected fun now' key' event' message' code' rest' hs => ?_
            cases hs
            exact ⟨hgentle hrejects, List.mem_append_right _ List.mem_cons_self⟩
          · exact tidy_idle h rfl
      | failed => exact tidy_idle h rfl
    · exact h
  | settle f =>
    dsimp only
    split
    · rename_i now key event message rest hf
      refine tidy_idle ?_ rfl
      exact tidy_update h key event (fun _ => rfl) fun r _ hq => .inl hq
    · rename_i now key event message code rest hf
      have hmessage : w.network[message]? = some event := hhonest.posted f event message (by rw [hf]; rfl)
      obtain ⟨hopen, hmem⟩ := h.rejected f now key event message code rest hf
      refine tidy_idle ?_ rfl
      exact tidy_update h key event (fun _ => rfl) fun r _ _ => .inr ⟨hopen, message, hmem, hmessage⟩
    · exact h
  | crash f => exact tidy_idle h rfl
  | deliver message now =>
    dsimp only
    split
    · exact h
    · split
      · exact h
      · exact ⟨h.quarantined, h.rejected⟩

def Publishes : Event → Key → Prop
  | .publishRequest request, key => keyOf request = key
  | .publishClosed runId stage _, key => (runId, stage) = key
  | _, _ => False

/-- A row stays in the outbox. Its event stays too, unless a newer one of its request is published; a close stays. -/
def RowsStay (w : World) (e : Event) (w' : World) : Prop :=
  ∀ key r, row w.outbox key = some r → ∃ r', row w'.outbox key = some r' ∧
    (r'.event = r.event ∨ (Publishes e key ∧ r.event.closed = false))

theorem rowsStay_update {w' : World} (e : Event) (k : Key) (event : SyncEvent) {change : OutboxRow → OutboxRow}
    (hevent : ∀ r, (change r).event = r.event) (hw' : w'.outbox = (w.update k event change).outbox) :
    RowsStay w e w' := by
  intro key r hr
  rw [hw']
  rcases update_row w k event change key with hsame | ⟨r'', hr'', _, hchange⟩
  · exact ⟨r, hsame.trans hr, .inl rfl⟩
  · rw [hr] at hr''
    cases hr''
    exact ⟨change r, hchange, .inl (hevent r)⟩

theorem rowsStay_same {w' : World} (e : Event) (h : w'.outbox = w.outbox) : RowsStay w e w' := by
  intro key r hr
  exact ⟨r, by rw [h, hr], .inl rfl⟩

theorem rowsStay_step (w : World) (e : Event) : RowsStay w e (step scan toAction w e) := by
  unfold step
  cases e with
  | publishRequest request =>
    intro key r hr
    rcases publishRequest_row scan request w.outbox key with hsame | ⟨hkey, hopen, hnew⟩
    · exact ⟨r, hsame.trans hr, .inl rfl⟩
    · exact ⟨_, hnew, .inr ⟨hkey, hopen r hr⟩⟩
  | publishClosed runId stage createdAt =>
    intro key r hr
    rcases publishClosed_row runId stage createdAt w.outbox key with hsame | ⟨hkey, r', hnew, _, _, hold⟩
    · exact ⟨r, hsame.trans hr, .inl rfl⟩
    · refine ⟨r', hnew, .inr ⟨hkey, ?_⟩⟩
      rcases hold with ⟨hnone, _⟩ | ⟨r'', hr'', hopen, _⟩
      · rw [hnone] at hr
        cases hr
      · rw [hr] at hr''
        cases hr''
        exact hopen
  | post f =>
    dsimp only
    split
    · exact rowsStay_same _ rfl
    · rename_i now key event rest hf
      split
      · refine rowsStay_update _ key event ?_ rfl
        exact fun _ => rfl
      · exact rowsStay_same _ rfl
    · exact rowsStay_same _ rfl
  | settle f =>
    dsimp only
    split
    · rename_i now key event message rest hf
      refine rowsStay_update _ key event ?_ rfl
      exact fun _ => rfl
    · rename_i now key event message code rest hf
      refine rowsStay_update _ key event ?_ rfl
      exact fun _ => rfl
    · exact rowsStay_same _ rfl
  | flush f now force | answer f a | deliver message now =>
    dsimp only
    repeat' split
    all_goals exact rowsStay_same _ rfl
  | crash f => exact rowsStay_same _ rfl

theorem syncHumanRequest_done {now : String} {e : SyncEvent} {hub hub' : Backlog} {a : OwnerAction}
    (h : syncHumanRequest scan toAction now e hub = .ok (a, hub')) {k : String}
    (hdone : ((view scan hub).settled k).isSome) : ((view scan hub').settled k).isSome := by
  unfold syncHumanRequest at h
  split at h
  · cases h
  · obtain ⟨_, _, h⟩ := bind_ok.mp h
    rcases syncIn_view h with hview | ⟨i, hnone, hview⟩ | ⟨i, _, hi, _, hview⟩
    · rwa [hview]
    · rw [hview]
      unfold View.settled View.source at hdone ⊢
      dsimp only at hdone ⊢
      unfold setAt
      split
      · rename_i hk
        subst hk
        rw [hnone, Option.or_none] at hdone
        cases hcurated : (view scan hub).curated _ with
        | none =>
          rw [hcurated] at hdone
          cases hdone
        | some c =>
          rw [hcurated] at hdone
          exact hdone
      · exact hdone
    · rw [hview]
      unfold View.settled View.source at hdone ⊢
      dsimp only at hdone ⊢
      unfold setAt
      split
      · cases hcurated : (view scan hub).curated k with
        | none => rfl
        | some c =>
          rw [hcurated] at hdone
          exact hdone
      · exact hdone

theorem hub_step (w : World) (e : Event) {k : String} (hdone : ((view scan w.hub).settled k).isSome) :
    ((view scan (step scan toAction w e).hub).settled k).isSome := by
  cases e with
  | deliver message now =>
    unfold step
    dsimp only
    split
    · exact hdone
    · split
      · exact hdone
      · rename_i hsync
        exact syncHumanRequest_done hsync hdone
  | publishRequest | publishClosed | crash => exact hdone
  | post f =>
    unfold step
    dsimp only
    split
    · exact hdone
    · rename_i now key event rest hf
      split
      · obtain ⟨outbox, hframe⟩ := update_frame w key event fun r => { r with nextAttempt := now + retryInterval }
        rw [hframe]
        exact hdone
      · exact hdone
    · exact hdone
  | settle f =>
    unfold step
    dsimp only
    split
    · rename_i now key event message rest hf
      obtain ⟨outbox, hframe⟩ := update_frame w key event fun r => { r with sent := true }
      rw [hframe]
      exact hdone
    · rename_i now key event message code rest hf
      obtain ⟨outbox, hframe⟩ :=
        update_frame w key event fun r => { r with quarantined := true, sent := false, error := some code }
      rw [hframe]
      exact hdone
    · exact hdone
  | flush f now force | answer f a =>
    unfold step
    dsimp only
    repeat' split
    all_goals exact hdone

def World.init (hub : Backlog) : World := { hub := hub }

/-- Without the two steps that are not gentle no close drops out of the retries; the rest holds over every run. -/
theorem sync_reliable (scan : SecretScan) (toAction : HumanRequest → Option OwnerAction) (hub : Backlog)
    (events : List Event) :
    (∀ key r, row (Runs.run (step scan toAction) (.init hub) events).outbox key = some r → r.sent = true →
      Among (Runs.run (step scan toAction) (.init hub) events).network
        (Runs.run (step scan toAction) (.init hub) events).accepted r.event) ∧
    (∀ before later, events = before ++ later → ∀ now now' k,
      (shown ((Runs.run (step scan toAction) (.init hub) before).hub.load scan now) k).isSome →
      (shown ((Runs.run (step scan toAction) (.init hub) events).hub.load scan now') k).isSome) ∧
    (∀ m ∈ Runs.moves (step scan toAction) (.init hub) events, RowsStay m.pre m.act m.post) ∧
    ((∀ m ∈ Runs.moves (step scan toAction) (.init hub) events, Gentle m.pre m.act) →
      ∀ key r, row (Runs.run (step scan toAction) (.init hub) events).outbox key = some r → r.quarantined = true →
        r.event.closed = false ∧ Among (Runs.run (step scan toAction) (.init hub) events).network
          (Runs.run (step scan toAction) (.init hub) events).rejected r.event) := by
  have hhonest : Honest (.init hub) := by
    refine ⟨fun key r hr => ?_, fun f event message hm => ?_, fun f now key event message rest hf => ?_⟩
    · cases hr
    · cases hm
    · cases hf
  have htidy : Tidy (.init hub) := by
    refine ⟨fun key r hr => ?_, fun f now key event message code rest hf => ?_⟩
    · cases hr
    · cases hf
  refine ⟨?_, fun before later heq now now' k hdone => ?_, fun m hm => ?_, fun hgentle => ?_⟩
  · have hinv : Honest (Runs.run (step scan toAction) (.init hub) events) :=
      Runs.run_invariant (I := Honest) (fun _ e h => honest_step h e) hhonest events
    exact hinv.sent
  · rw [shown_load] at hdone ⊢
    rw [heq, Runs.run_append]
    exact Runs.run_invariant (I := fun w : World => ((view scan w.hub).settled k).isSome)
      (fun w e h => hub_step w e h) hdone later
  · rw [Runs.post_of_mem hm]
    exact rowsStay_step m.pre m.act
  · have hinv : Honest (Runs.run (step scan toAction) (.init hub) events) ∧
        Tidy (Runs.run (step scan toAction) (.init hub) events) :=
      Runs.run_invariant_of (I := fun w : World => Honest w ∧ Tidy w)
        (fun _ e h hm => ⟨honest_step h.1 e, tidy_step h.2 h.1 hm⟩) ⟨hhonest, htidy⟩ hgentle
    exact hinv.2.quarantined

def openScan : SecretScan := ⟨fun _ => false, id⟩

def releaseRequest (guide : String) : HumanRequest where
  kind := .infra
  runId := "run-1"
  blockingStage := "release"
  guideMd := guide
  createdAt := "2026-07-01T00:00:00Z"

def releaseAction (request : HumanRequest) : Option OwnerAction :=
  some {
    id := "OA-HR-run-1-release"
    title := "Linha parada (infra): run run-1 aguarda voce no estagio 'release'"
    priority := .high
    why := "A linha de producao parou no estagio 'release' do run run-1 e so retoma depois desta acao humana (infra)."
    steps := [⟨request.guideMd, none⟩]
    verify := "A linha retoma sozinha depois da sua resposta; confira o run na Esteira ao vivo."
    createdAt := request.createdAt
    createdBy := "production-line" }

def emptyHub : Backlog where
  dynamic := some {}

def rejectedThenClosed : List Event :=
  [.publishRequest (releaseRequest "Restore service"), .flush 0 0 false, .post 0, .deliver 0 "2026-07-01T00:00:10Z",
    .answer 0 .ok, .settle 0, .publishRequest (releaseRequest "Restore the whole service"), .flush 1 1 false, .post 1,
    .answer 1 (.http 413), .settle 1, .publishClosed "run-1" "release" "2026-07-01T00:01:00Z"]

instance (network : List SyncEvent) (messages : List Nat) (event : SyncEvent) :
    Decidable (Among network messages event) := by
  unfold Among
  infer_instance

/-- The item of the close is open on the Hub, no message of the close was rejected, and it is quarantined. -/
theorem close_dropped : ¬ ∀ (scan : SecretScan) (toAction : HumanRequest → Option OwnerAction) (hub : Backlog)
    (events : List Event) (now : String) key r a,
      row (Runs.run (step scan toAction) (.init hub) events).outbox key = some r → r.event.closed = true →
      toAction r.event.request = some a →
      (∃ x ∈ (Runs.run (step scan toAction) (.init hub) events).hub.load scan now, x.id = a.id) →
      ¬ Among (Runs.run (step scan toAction) (.init hub) events).network
        (Runs.run (step scan toAction) (.init hub) events).rejected r.event →
      r.sent = true ∨ r.quarantined = false := by
  intro h
  obtain ⟨r, hr, hclosed, hid, hrejected, hdropped⟩ :
      ∃ r ∈ row (Runs.run (step openScan releaseAction) (.init emptyHub) rejectedThenClosed).outbox ("run-1", "release"),
        r.event.closed = true ∧
        (∃ x ∈ (Runs.run (step openScan releaseAction) (.init emptyHub) rejectedThenClosed).hub.load openScan "",
          x.id = "OA-HR-run-1-release") ∧
        ¬ Among (Runs.run (step openScan releaseAction) (.init emptyHub) rejectedThenClosed).network
          (Runs.run (step openScan releaseAction) (.init emptyHub) rejectedThenClosed).rejected r.event ∧
        ¬ (r.sent = true ∨ r.quarantined = false) := by
    decide +kernel
  exact hdropped (h openScan releaseAction emptyHub rejectedThenClosed "" _ r _ hr hclosed rfl hid hrejected)

end Sync
end OwnerActions
end DarkFactory
