import DarkFactory.Workflow.Growth
import Mathlib.Data.Set.Finite.Basic
import Mathlib.Data.Set.Finite.Range

/-!
# DarkFactory.Workflow.Transitions

`transition_run` on every reachable database.

* `TakesEffect` — the run is in the target state and its row is returned, with one event for a change.
* `Repeats` — the idempotency key is bound to the call: later calls repeat its result or are refused.
-/

namespace DarkFactory
namespace Workflow

open Db Calls

/-- The caller has given an idempotency key. An empty one is none. -/
def isKeyed (key : Option String) : Bool := key.any fun k => decide (k ≠ "")

structure TakesEffect (db db' : Db) (runId : String) (target : WorkflowState) (result : Run) : Prop where
  stored : db'.runs.get? runId = some result
  state : result.state = target
  event : ∀ r, r ∈ db.runs → r.runId = runId → r.state ≠ target → ∃ e, db'.outbox.rows = db.outbox.rows ++ [e] ∧
    e.runId = runId ∧ e.eventType = "run.transitioned" ∧ e.payload = .transitioned r.state target

structure Repeats (limits : String → Option Nat) (db : Db) (runId : String) (target : WorkflowState)
    (key : Option String) (result : Run) : Prop where
  again : ∀ acts now, (Runs.run (step limits) db acts).transitionRun runId target key now =
    .ok (result, Runs.run (step limits) db acts)
  reuse : ∀ acts runId' target' now, ¬(runId' = runId ∧ target' = target) →
    ∃ error, (Runs.run (step limits) db acts).transitionRun runId' target' key now = .error error

def Lawful (limits : String → Option Nat) (db : Db) (runId : String) (target : WorkflowState)
    (key : Option String) : Prop :=
  ∀ now result db', db.transitionRun runId target key now = .ok (result, db') →
    (isKeyed key = false → TakesEffect db db' runId target result) ∧
      (isKeyed key = true → Repeats limits db' runId target key result)

/-- Without a key no transition is stored under the default one, unless it has the row of a run that is in the
target state. With a key the run is not in the target state, or an operation is stored under the key. -/
def Fresh (db : Db) (runId : String) (target : WorkflowState) (key : Option String) : Prop :=
  ∀ r, r ∈ db.runs → r.runId = runId → target ≠ .delivered →
    (isKeyed key = false → ∀ op result, db.operations.get? (defaultKey runId r.state target) = some op →
      op.transitionResult runId target = some result → r.state = target ∧ result = r) ∧
    (isKeyed key = true → r.state = target → db.operations.get? (key.getD "") ≠ none)

theorem operationKey_keyed {key : Option String} (h : isKeyed key = true) (runId : String)
    (current target : WorkflowState) : operationKey key runId current target = key.getD "" := by
  obtain ⟨k, rfl, hk⟩ := (Option.any_eq_true _ _).mp h
  exact if_neg (of_decide_eq_true hk)

theorem operationKey_default {key : Option String} (h : isKeyed key = false) (runId : String)
    (current target : WorkflowState) : operationKey key runId current target = defaultKey runId current target := by
  cases key with
  | none => rfl
  | some k => exact if_pos (by simpa [isKeyed] using h)

/-- No run is delivered, and a transition has its event and its operation under one key. -/
structure Keyed (db : Db) : Prop where
  local_run : ∀ r, r ∈ db.runs → r.state ≠ .delivered
  stored : ∀ e, e ∈ db.outbox → e.payload.isTransition = true → ∃ op, op ∈ db.operations ∧ op.key = e.dedupeKey

section

variable {limits : String → Option Nat} {db db' : Db}

theorem Keyed.empty : Keyed {} :=
  ⟨fun _ h => absurd h Table.not_mem_empty, fun _ h => absurd h Table.not_mem_empty⟩

theorem local_of_change (hchange : Change limits db db') (h : ∀ r, r ∈ db.runs → r.state ≠ .delivered) {r : Run}
    (hr : r ∈ db'.runs) : r.state ≠ .delivered := by
  have hupdate : ∀ (runId : String) (f : Run → Run) (hf : ∀ r, (f r).runId = r.runId),
      (∀ r, r.state ≠ .delivered → (f r).state ≠ .delivered) →
      r ∈ db.runs.update (fun a => decide (a.runId = runId)) f hf → r.state ≠ .delivered := by
    intro runId f hf hstate hr
    rcases Table.mem_update_cases hr with ⟨hr, _⟩ | ⟨a, ha, _, rfl⟩
    · exact h r hr
    · exact hstate a (h a ha)
  cases hchange with
  | registers new hnone hceiling hreserved hspent hstate =>
    rcases Table.mem_insertIgnore.mp hr with hr | ⟨rfl, _⟩
    · exact h r hr
    · exact hstate
  | transits row target now op operations outbox hrow hallowed htarget =>
    exact hupdate _ (withState target now) (fun _ => rfl) (fun _ _ => htarget) hr
  | claims j workerId now l leases =>
    exact hupdate _ (reserve j.spec.estimatedCost now) (fun _ => rfl) (fun _ hstate => hstate) hr
  | expires l j retryDelay now =>
    exact hupdate _ (unreserve j.spec.estimatedCost now) (fun _ => rfl) (fun _ hstate => hstate) hr
  | completes l j completion op operations retryDelay now =>
    exact hupdate _ (spend j.spec.estimatedCost completion.chargedCost now) (fun _ => rfl) (fun _ hstate => hstate) hr
  | cancels row reason now => exact hupdate _ (withoutReserve now) (fun _ => rfl) (fun _ _ => nofun) hr
  | _ => exact h r hr

theorem keyed_of_change (hchange : Change limits db db') (h : Keyed db) : Keyed db' := by
  refine ⟨fun r hr => local_of_change hchange h.local_run hr, ?_⟩
  have hops : ∀ op, op ∈ db.operations → op ∈ db'.operations := fun _ hop => operations_of_change hchange hop
  have hsame : ∀ e, e ∈ db.outbox → e.payload.isTransition = true →
      ∃ op, op ∈ db'.operations ∧ op.key = e.dedupeKey := by
    intro e he htransition
    obtain ⟨op, hop, hkey⟩ := h.stored e he htransition
    exact ⟨op, hops op hop, hkey⟩
  cases hchange with
  | outbox outbox hold =>
    intro e he htransition
    obtain ⟨e', he', hkey, htransition'⟩ := hold e he htransition
    rw [← hkey]
    exact hsame e' he' htransition'
  | transits row target now op operations outbox hrow hallowed htarget hbody hsubject hinsert hold =>
    intro e he htransition
    rcases hold e he htransition with he | hkey
    · exact hsame e he htransition
    · exact ⟨op, (Table.mem_of_insert? hinsert).mpr (.inr rfl), hkey.symm⟩
  | _ => exact hsame

theorem keyed_run (limits : String → Option Nat) (acts : List Act) (h : Keyed db) :
    Keyed (Runs.run (step limits) db acts) :=
  Runs.run_invariant (fun _ a h => step_of_changes keyed_of_change a h) h acts

theorem transitioned_event {e : Event} (h : Keyed db) (hnone : db.operations.get? e.dedupeKey = none)
    (htransition : e.payload.isTransition = true) (hevent : db.insertEvent e = .ok db') :
    db' = { db with outbox := db.outbox.insertIgnore e } ∧
      (db.outbox.insertIgnore e).rows = db.outbox.rows ++ [e] := by
  unfold insertEvent at hevent
  split at hevent
  · rename_i old hold
    obtain ⟨hmem, hkey⟩ := Table.get?_eq_some.mp hold
    split at hevent
    · cases hevent
    · rename_i hsame
      have hpayload : old.payload = e.payload := by
        by_contra hne
        exact hsame (.inr (.inr hne))
      obtain ⟨op, hop, hopkey⟩ := h.stored old hmem (hpayload ▸ htransition)
      exact absurd (hopkey.trans hkey) (Table.get?_eq_none.mp hnone op hop)
  · rename_i hfree
    cases hevent
    obtain ⟨outbox, hinsert⟩ := Table.insert?_isSome hfree
    refine ⟨rfl, ?_⟩
    rw [Table.insertIgnore, hinsert]
    exact Table.rows_of_insert? hinsert

variable {runId : String} {target : WorkflowState} {key : Option String} {result : Run} {op : Operation}

theorem takesEffect_of_fresh {now : Time} (h : Keyed db) (hkey : isKeyed key = false)
    (hfresh : Fresh db runId target key)
    (hcall : db.transitionRun runId target key now = .ok (result, db')) :
    TakesEffect db db' runId target result := by
  obtain ⟨r, hr, hid, htarget, hcases⟩ := transitionRun_ok hcall
  rw [operationKey_default hkey] at hcases
  have hrow : ∀ r', r' ∈ db.runs → r'.runId = runId → r' = r := fun r' hr' hid' =>
    Table.eq_of_key hr' hr (hid'.trans hid.symm)
  rcases hcases with ⟨op, hop, hresult, rfl⟩ | ⟨_, hstate, rfl, rfl⟩ |
    ⟨hnone, hstate, _, rfl, db₁, operations, hevent, hinsert, rfl⟩
  · obtain ⟨hstate, rfl⟩ := (hfresh r hr hid htarget).1 hkey op result hop hresult
    refine ⟨Table.get?_eq_some.mpr ⟨hr, hid⟩, hstate, fun r' hr' hid' hne => ?_⟩
    exact absurd (hrow r' hr' hid' ▸ hstate) hne
  · refine ⟨Table.get?_eq_some.mpr ⟨hr, hid⟩, hstate, fun r' hr' hid' hne => ?_⟩
    exact absurd (hrow r' hr' hid' ▸ hstate) hne
  · obtain ⟨rfl, hrows⟩ := transitioned_event h hnone rfl hevent
    refine ⟨?_, rfl, fun r' hr' hid' _ => ?_⟩
    · refine Table.get?_eq_some.mpr ⟨?_, hid⟩
      exact Table.mem_update_of_pos (f := withState target now) (h := fun _ => rfl) hr (decide_eq_true hid)
    · obtain rfl := hrow r' hr' hid'
      exact ⟨_, hrows, rfl, rfl, rfl⟩

theorem fresh_of_takesEffect (h : Keyed db)
    (hkey : isKeyed key = false) (hlawful : Lawful limits db runId target key) {r : Run} (hr : r ∈ db.runs)
    (hid : r.runId = runId) (htarget : target ≠ .delivered) {op : Operation} {result : Run}
    (hop : db.operations.get? (defaultKey runId r.state target) = some op)
    (hresult : op.transitionResult runId target = some result) : r.state = target ∧ result = r := by
  have hrow : db.runs.get? runId = some r := Table.get?_eq_some.mpr ⟨hr, hid⟩
  have hcall : db.transitionRun runId target key 0 = .ok (result, db) := by
    unfold transitionRun
    rw [if_neg htarget, hrow]
    simp only [if_neg (h.local_run r hr), operationKey_default hkey, hop, hresult]
  have heffect := (hlawful 0 result db hcall).1 hkey
  obtain rfl := Option.some.inj (heffect.stored.symm.trans hrow)
  exact ⟨heffect.state, rfl⟩

theorem transitionRun_replays {r : Run} {now : Time} (h : Keyed db) (hkey : isKeyed key = true)
    (hop : db.operations.get? (key.getD "") = some op) (hresult : op.transitionResult r.runId target = some result)
    (hr : r ∈ db.runs) (htarget : target ≠ .delivered) :
    db.transitionRun r.runId target key now = .ok (result, db) := by
  unfold transitionRun
  rw [if_neg htarget, Table.get?_of_mem hr]
  simp only [if_neg (h.local_run r hr), operationKey_keyed hkey, hop, hresult]

theorem transitionResult_other {runId' : String} {target' : WorkflowState}
    (hresult : op.transitionResult runId target = some result) (hne : ¬(runId' = runId ∧ target' = target)) :
    op.transitionResult runId' target' = none := by
  unfold Operation.transitionResult at hresult ⊢
  split at hresult
  · split at hresult
    · rename_i hsame
      rw [if_neg]
      rintro ⟨_, hrun, hstate⟩
      exact hne ⟨hrun.symm.trans hsame.2.1, hstate.symm.trans hsame.2.2⟩
    · cases hresult
  · cases hresult

theorem transitionRun_refuses (hkey : isKeyed key = true) (hop : db.operations.get? (key.getD "") = some op)
    (hother : op.transitionResult runId target = none) (now : Time) :
    ∃ error, db.transitionRun runId target key now = .error error := by
  cases hcall : db.transitionRun runId target key now with
  | error error => exact ⟨error, rfl⟩
  | ok pair =>
    obtain ⟨result, db'⟩ := pair
    obtain ⟨r, _, _, _, hcases⟩ := transitionRun_ok hcall
    rw [operationKey_keyed hkey, hop] at hcases
    rcases hcases with ⟨op', hop', hresult, _⟩ | ⟨hnone, _⟩ | ⟨hnone, _⟩
    · obtain rfl := Option.some.inj hop'
      rw [hother] at hresult
      cases hresult
    · cases hnone
    · cases hnone

theorem repeats_of_stored {r : Run} (hlinks : Links db) (h : Keyed db) (hkey : isKeyed key = true) (hr : r ∈ db.runs)
    (hid : r.runId = runId) (htarget : target ≠ .delivered)
    (hop : db.operations.get? (key.getD "") = some op) (hresult : op.transitionResult runId target = some result) :
    Repeats limits db runId target key result := by
  have hlater : ∀ acts, (Runs.run (step limits) db acts).operations.get? (key.getD "") = some op := by
    intro acts
    obtain ⟨hmem, hname⟩ := Table.get?_eq_some.mp hop
    exact Table.get?_eq_some.mpr ⟨(grows_run hlinks acts).operations op hmem, hname⟩
  refine ⟨fun acts now => ?_, fun acts runId' target' now hne => ?_⟩
  · have hgrows : Grows db (Runs.run (step limits) db acts) := grows_run hlinks acts
    obtain ⟨r', hr', hid', _⟩ := hgrows.runs r hr
    obtain rfl := hid'.trans hid
    exact transitionRun_replays (keyed_run limits acts h) hkey (hlater acts) hresult hr' htarget
  · exact transitionRun_refuses hkey (hlater acts) (transitionResult_other hresult hne) now

theorem repeats_of_fresh {now : Time}
    (hlinks : Links db) (h : Keyed db) (hkey : isKeyed key = true) (hfresh : Fresh db runId target key)
    (hcall : db.transitionRun runId target key now = .ok (result, db')) :
    Repeats limits db' runId target key result := by
  have hchanges : Changes limits db db' := changes_transitionRun hcall
  have hafter := grows_of_changes hchanges hlinks
  have hkeyed := of_changes keyed_of_change hchanges h
  obtain ⟨r, hr, hid, htarget, hcases⟩ := transitionRun_ok hcall
  rw [operationKey_keyed hkey] at hcases
  obtain ⟨r', hr', hid', _⟩ := hafter.2.runs r hr
  rcases hcases with ⟨op, hop, hresult, rfl⟩ | ⟨hnone, hstate, _, _⟩ |
    ⟨hnone, hstate, _, _, db₁, operations, hevent, hinsert, rfl⟩
  · exact repeats_of_stored hlinks h hkey hr hid htarget hop hresult
  · exact absurd hnone ((hfresh r hr hid htarget).2 hkey hstate)
  · have hop : operations.get? (key.getD "") = some ⟨key.getD "", runId, .runTransition runId target result, now⟩ := by
      rw [Table.get?_of_insert? hinsert]
      exact if_pos rfl
    exact repeats_of_stored hafter.1 hkeyed hkey hr' (hid'.trans hid) htarget hop (if_pos ⟨rfl, rfl, rfl⟩)

def unusedId (n : Nat) : String := String.ofList (List.replicate (n + 1) 'x')

theorem strip_unusedId (n : Nat) : Text.strip (unusedId n) ≠ "" := by
  intro h
  have hlist := congrArg String.toList h
  rw [Text.strip_toList, unusedId, String.toList_ofList] at hlist
  have hspace : Text.isSpace 'x' = false := by decide
  simp [Text.stripList, List.replicate_succ, hspace] at hlist
  have hx := hlist 'x' (.inr rfl)
  rw [hspace] at hx
  cases hx

theorem unusedId_injective : Function.Injective unusedId := by
  intro m n h
  have hlength := congrArg (fun s => s.toList.length) h
  simpa [unusedId] using hlength

theorem exists_unused (db : Db) : ∃ runId, db.runs.get? runId = none ∧ Text.strip runId ≠ "" := by
  have hfinite := (db.runs.rows.map Run.runId).finite_toSet
  obtain ⟨runId, ⟨n, rfl⟩, hnot⟩ := (Set.infinite_range_of_injective unusedId_injective).exists_notMem_finite hfinite
  refine ⟨unusedId n, Table.get?_eq_none.mpr fun r hr hid => ?_, strip_unusedId n⟩
  exact hnot (List.mem_map.mpr ⟨r, hr, hid⟩)

theorem not_repeats {r : Run}
    (hkey : isKeyed key = true) (htarget : target ≠ .delivered) (hr : r ∈ db.runs) (hid : r.runId = runId)
    (hnone : db.operations.get? (key.getD "") = none) : ¬ Repeats limits db runId target key result := by
  intro h
  obtain ⟨other, hfree, hname⟩ := exists_unused db
  have hne : other ≠ runId := by
    rintro rfl
    exact Table.get?_eq_none.mp hfree r hr hid
  let row : Run := ⟨other, "p", target, 0, 0, 0, 0, 0⟩
  have hregister : db.registerRun other "p" target 0 0 = .ok (row, { db with runs := db.runs.insertIgnore row }) := by
    unfold registerRun
    rw [if_neg, if_neg (by decide), if_neg htarget, hfree]
    rintro (hbad | hbad)
    · exact hname hbad
    · exact absurd hbad (by decide)
  have hstep : step limits db ⟨.registerRun other "p" target 0, 0, 0⟩ = { db with runs := db.runs.insertIgnore row } := by
    simp only [step, answer, hregister, Except.map]
  obtain ⟨error, herror⟩ := h.reuse [⟨.registerRun other "p" target 0, 0, 0⟩] other target 0 fun hsame => hne hsame.1
  rw [Runs.run_cons, Runs.run_nil, hstep] at herror
  have hrow : ({ db with runs := db.runs.insertIgnore row } : Db).runs.get? other = some row := by
    refine Table.get?_eq_some.mpr ⟨Table.mem_insertIgnore.mpr (.inr ⟨rfl, hfree⟩), rfl⟩
  unfold transitionRun at herror
  rw [if_neg htarget, hrow] at herror
  simp only [operationKey_keyed hkey, hnone, if_neg htarget, row] at herror
  cases herror

end

/-- On every reachable database a call is lawful exactly when it is fresh. -/
theorem transition_lawful_iff (limits : String → Option Nat) (acts : List Act) (runId : String)
    (target : WorkflowState) (key : Option String) :
    Lawful limits (Runs.run (step limits) {} acts) runId target key ↔
      Fresh (Runs.run (step limits) {} acts) runId target key := by
  have hlinks := links_run limits acts .empty
  have h := keyed_run limits acts .empty
  constructor
  · intro hlawful r hr hid htarget
    refine ⟨fun hkey op result => fresh_of_takesEffect h hkey hlawful hr hid htarget, fun hkey hstate hnone => ?_⟩
    have hcall : (Runs.run (step limits) {} acts).transitionRun runId target key 0 =
        .ok (r, Runs.run (step limits) {} acts) := by
      unfold transitionRun
      rw [if_neg htarget, Table.get?_eq_some.mpr ⟨hr, hid⟩]
      simp only [if_neg (h.local_run r hr), operationKey_keyed hkey, hnone, if_pos hstate]
    exact not_repeats hkey htarget hr hid hnone ((hlawful 0 r _ hcall).2 hkey)
  · intro hfresh now result db' hcall
    exact ⟨fun hkey => takesEffect_of_fresh h hkey hfresh hcall, fun hkey =>
      repeats_of_fresh hlinks h hkey hfresh hcall⟩

/-- A validation fails, and the work is done and validated once more. -/
def loop : List Act :=
  [⟨.registerRun "r" "p" .implementingEconomy 1, 0, 0⟩, ⟨.transitionRun "r" .validating none, 1, 0⟩,
   ⟨.transitionRun "r" .failedValidation none, 2, 0⟩,
   ⟨.transitionRun "r" .implementingEconomy none, 3, 0⟩]

/-- The second validation returns the first one's record. The run stays where it was. -/
theorem second_validation_lost :
    ¬ Lawful (fun _ => none) (Runs.run (step fun _ => none) {} loop) "r" .validating none := by
  intro h
  have hrun : ((Runs.run (step fun _ => none) {} loop).transitionRun "r" .validating none 4).toOption.map
      (fun p => (p.1.state, (p.2.runs.get? "r").map Run.state)) = some (.validating, some .implementingEconomy) := by
    decide +kernel
  obtain ⟨⟨result, db'⟩, hcall, hstate⟩ := ok_of_toOption hrun
  have hstored := ((h 4 result db' hcall).1 rfl).stored
  simp only [hstored, Option.map_some, Prod.mk.injEq, Option.some.injEq] at hstate
  exact absurd (hstate.1.symm.trans hstate.2) (by decide)

end Workflow
end DarkFactory
