import DarkFactory.OwnerActions.Hosts
import DarkFactory.OwnerActions.Writes

/-!
# DarkFactory.OwnerActions.SharedStore

What the mutations of several hosts leave in the control store.

* `run_ok` — a mutation writes one row, the one that it makes of the row it has read, or none.
-/

namespace DarkFactory
namespace OwnerActions
namespace Hosts

open Store Calls

variable {scan : SecretScan} {now : String}

theorem changedRows_cons (before : List Store.Row) (r : Store.Row) (rows : List Store.Row) :
    changedRows before (r :: rows) = if Lookup.get Store.Row.key before r.key = some r then changedRows before rows
      else r :: changedRows before rows := by
  have hget : before.find? (fun b => decide (b.key = r.key)) = Lookup.get Store.Row.key before r.key := rfl
  unfold changedRows
  rw [List.filter_cons, hget]
  by_cases h : Lookup.get Store.Row.key before r.key = some r
  · rw [if_neg (by simp [h]), if_pos h]
  · rw [if_pos (by simp [h]), if_neg h]

theorem changedRows_put {before rows : List Store.Row} (hunique : Lookup.Unique Store.Row.key rows) {u : OwnerAction}
    (hput : Put before rows u) : changedRows before rows = [] ∨ changedRows before rows = [.object u] := by
  have hsame : ∀ r ∈ rows, r.key ≠ some u.id → Lookup.get Store.Row.key before r.key = some r := by
    intro r hr hkey
    rw [← (Lookup.get_eq_some hunique).mpr ⟨hr, rfl⟩, hput.get, if_neg (Ne.symm hkey)]
  have hu : ∀ r ∈ rows, r.key = some u.id → r = .object u := by
    intro r hr hkey
    have hget := (Lookup.get_eq_some hunique).mpr ⟨hr, hkey⟩
    rw [hput.get, if_pos rfl] at hget
    exact (Option.some.inj hget).symm
  clear hput
  induction rows with
  | nil => exact .inl rfl
  | cons r rows ih =>
    rw [Lookup.Unique, List.map_cons, List.nodup_cons] at hunique
    have hrest := ih hunique.2 (fun r' hr' => hsame r' (List.mem_cons_of_mem _ hr'))
      fun r' hr' => hu r' (List.mem_cons_of_mem _ hr')
    rw [changedRows_cons]
    by_cases hkey : r.key = some u.id
    · -- the other rows have other keys
      have hnil : changedRows before rows = [] := by
        rw [changedRows, List.filter_eq_nil_iff]
        intro r' hr'
        have hne : r'.key ≠ some u.id := fun h =>
          hunique.1 (List.mem_map.mpr ⟨r', hr', h.trans hkey.symm⟩)
        have hget : before.find? (fun b => decide (b.key = r'.key)) = some r' :=
          hsame r' (List.mem_cons_of_mem _ hr') hne
        simp [hget]
      rw [hnil, hu r List.mem_cons_self hkey]
      split
      · exact .inl rfl
      · exact .inr rfl
    · rw [if_pos (hsame r List.mem_cons_self hkey)]
      exact hrest

theorem mutateControl_ok {α : Type} {fn : Ledger → Except OwnerActionError (α × Ledger)} {reads : Reads} {x : α}
    {changed : List Store.Row} (h : mutateControl scan fn reads.ledger reads.controlRows = .ok (x, changed)) :
    ∃ doc doc' : Ledger, doc.rows = reads.rows ∧ Valid scan doc.rows ∧ fn doc = .ok (x, doc') ∧ Valid scan doc'.rows ∧
      changed = changedRows reads.rows doc'.rows := by
  unfold mutateControl at h
  obtain ⟨file, hfile, h⟩ := bind_ok.mp h
  obtain ⟨_, _, h⟩ := bind_ok.mp h
  obtain ⟨_, _, h⟩ := bind_ok.mp h
  obtain ⟨⟨result, document⟩, hmutate, h⟩ := bind_ok.mp h
  cases h
  have hrows : file.rows = rawActions reads.ledger := by
    unfold writableDocument at hfile
    split at hfile
    · rename_i hreadable
      cases hfile
      rw [rawActions, if_pos hreadable]
    · cases hfile
  obtain ⟨doc, hdoc, _, hvalid, hfn, hvalid'⟩ := mutateLedger_ok hmutate
  have hreads : doc.rows = reads.rows := by
    rw [hdoc, Reads.rows, ← hrows]
    rfl
  refine ⟨doc, document, hreads, hvalid, hfn, hvalid', ?_⟩
  rw [hrows]
  rfl

/-- What a mutation makes of the row `raw` that it has read. -/
inductive Mutation.Makes (scan : SecretScan) (now : String) : Mutation → Option Store.Row → OwnerAction → Prop where
  | add {draft : OwnerActionDraft} {remoteReserved : List Nat} (u : OwnerAction) :
      draft.build scan now u.id = some u → Makes scan now (.add draft remoteReserved) none u
  | upsert (action : OwnerAction) : Makes scan now (.upsert action) none action
  | resolve {actionId : String} {answer : Option DecisionAnswer} {raw : Store.Row} {a : OwnerAction} :
      raw.validate scan now = some a →
      Makes scan now (.resolve actionId answer) (some raw)
        { a with status := .done, resolvedAt := some now, answer := answer }
  | reconcile {r : Reconciliation} {raw : Store.Row} {a u : OwnerAction} :
      raw.validate scan now = some a → (r.apply scan now a).validate scan now = some u →
      Makes scan now (.reconcileUpdate r) (some raw) u

structure Mutation.Writes (scan : SecretScan) (now : String) (reads : Reads) (actionId : String) (m : Mutation)
    (result : Result) (changed : List Store.Row) : Prop where
  rows : changed = [] ∨ ∃ u, changed = [.object u] ∧ u.id = actionId ∧
    m.Makes scan now (Lookup.get Store.Row.key reads.rows (some actionId)) u
  added : ∀ a, result = .added a → changed = [.object a] ∧ (∃ draft reserved, m = .add draft reserved)

theorem update_writes {id : String} {f : OwnerAction → Except OwnerActionError OwnerAction} (hf : Updates f)
    {reads : Reads} {u : OwnerAction} {changed : List Store.Row}
    (h : mutateControl scan (Ledger.update scan now id f) reads.ledger reads.controlRows = .ok (u, changed)) :
    ∃ raw a, Lookup.get Store.Row.key reads.rows (some id) = some raw ∧ raw.validate scan now = some a ∧ f a = .ok u ∧
      u.id = id ∧ (changed = [] ∨ changed = [.object u]) := by
  obtain ⟨doc, doc', hrows, hvalid, hfn, hvalid', hchanged⟩ := mutateControl_ok h
  obtain ⟨_, hid, hput, raw, a, hget, hvalidate, hfa⟩ := update_ok hf hfn
  rw [hrows] at hput hget
  refine ⟨raw, a, hget, hvalidate, hfa, hid, ?_⟩
  rw [hchanged]
  exact changedRows_put hvalid'.unique hput

theorem append_changed {rows : List Store.Row} {u : OwnerAction}
    (hnone : Lookup.get Store.Row.key rows (some u.id) = none) (hunique : Lookup.Unique Store.Row.key rows) :
    changedRows rows (rows ++ [.object u]) = [.object u] := by
  have hrows : rows.filter (fun r => decide (rows.find? (fun b => decide (b.key = r.key)) ≠ some r)) = [] := by
    rw [List.filter_eq_nil_iff]
    intro r hr
    have hget : rows.find? (fun b => decide (b.key = r.key)) = some r := (Lookup.get_eq_some hunique).mpr ⟨hr, rfl⟩
    simp [hget]
  have hnew : rows.find? (fun b => decide (b.key = (Store.Row.object u).key)) = none := hnone
  rw [changedRows, List.filter_append, hrows, List.nil_append, List.filter_cons, hnew]
  rfl

theorem get_none_of_keys {rows : List Store.Row} {id : String} (h : id ∉ rows.filterMap Store.Row.key) :
    Lookup.get Store.Row.key rows (some id) = none := by
  rw [Lookup.get_eq_none]
  intro r hr hkey
  exact h (List.mem_filterMap.mpr ⟨r, hr, hkey⟩)

theorem build_id {d : OwnerActionDraft} {actionId : String} {a : OwnerAction} (h : d.build scan now actionId = some a) :
    a.id = actionId := (OwnerAction.validate_same h).id

theorem run_ok {reads : Reads} {ledger : Ledger} {sources : Sources} {m : Mutation} {result : Result}
    {changed : List Store.Row} (h : m.run scan now reads ledger sources = .ok (result, changed)) :
    m.Writes scan now reads (m.actionId scan now reads ledger sources) result changed := by
  unfold Mutation.run at h
  cases m with
  | add draft reserved =>
    dsimp only at h
    obtain ⟨⟨action, rows⟩, hmutate, h⟩ := bind_ok.mp h
    cases h
    obtain ⟨doc, doc', hrows, hvalid, hfn, hvalid', hchanged⟩ := mutateControl_ok hmutate
    unfold addRow at hfn
    split at hfn
    · cases hfn
    · rename_i hnew
      rw [not_or, not_or] at hnew
      split at hfn
      · cases hfn
      · rename_i a hbuild
        cases hfn
        have hid := build_id hbuild
        have hnone := get_none_of_keys hnew.1
        rw [← hid] at hnone
        have happend := append_changed hnone hvalid.unique
        rw [hrows] at happend hnone
        dsimp only at hchanged
        rw [hrows, happend] at hchanged
        refine ⟨.inr ⟨action, hchanged, hid, ?_⟩, fun a ha => ?_⟩
        · rw [← hid, hnone]
          rw [← hid] at hbuild
          exact .add action hbuild
        · cases ha
          exact ⟨hchanged, draft, reserved, rfl⟩
  | upsert action =>
    dsimp only at h
    obtain ⟨⟨⟨saved, created⟩, rows⟩, hmutate, h⟩ := bind_ok.mp h
    cases h
    obtain ⟨doc, doc', hrows, hvalid, hfn, hvalid', hchanged⟩ := mutateControl_ok hmutate
    refine ⟨?_, fun a ha => by cases ha⟩
    unfold Store.insert at hfn
    split at hfn
    · cases hfn
      left
      rw [hchanged, hrows, changedRows, List.filter_eq_nil_iff]
      intro r hr
      rw [hrows] at hvalid
      have hget : reads.rows.find? (fun b => decide (b.key = r.key)) = some r :=
        (Lookup.get_eq_some hvalid.unique).mpr ⟨hr, rfl⟩
      simp [hget]
    · rename_i hnone
      cases hfn
      have hget : Lookup.get Store.Row.key doc.rows (some action.id) = none := hnone
      have happend := append_changed hget hvalid.unique
      rw [hrows] at happend hget
      dsimp only at hchanged
      rw [hrows, happend] at hchanged
      refine .inr ⟨action, hchanged, rfl, ?_⟩
      unfold Mutation.actionId
      dsimp only
      rw [hget]
      exact .upsert action
  | resolve actionId answer =>
    dsimp only at h
    obtain ⟨⟨action, rows⟩, hmutate, h⟩ := bind_ok.mp h
    cases h
    obtain ⟨raw, a, hget, hvalidate, hfa, hid, hchanged⟩ := update_writes (updates_settle answer) hmutate
    refine ⟨hchanged.imp_right fun hchanged => ⟨action, hchanged, hid, ?_⟩, fun a ha => by cases ha⟩
    cases hfa
    unfold Mutation.actionId
    dsimp only
    rw [hget]
    exact .resolve hvalidate
  | reconcileUpdate r =>
    dsimp only at h
    obtain ⟨⟨action, rows⟩, hmutate, h⟩ := bind_ok.mp h
    cases h
    obtain ⟨raw, a, hget, hvalidate, hfa, hid, hchanged⟩ := update_writes (updates_reconcile r) hmutate
    refine ⟨hchanged.imp_right fun hchanged => ⟨action, hchanged, hid, ?_⟩, fun a ha => by cases ha⟩
    unfold Mutation.actionId
    dsimp only
    rw [hget]
    cases hvalidated : (r.apply scan now a).validate scan now with
    | none =>
      rw [hvalidated] at hfa
      cases hfa
    | some u =>
      rw [hvalidated] at hfa
      cases hfa
      exact .reconcile hvalidate hvalidated

def Mutation.Sets : Mutation → OwnerAction → OwnerAction → Prop
  | .resolve _ _, a, u => u = { a with status := u.status, resolvedAt := u.resolvedAt, answer := u.answer }
  | .reconcileUpdate _, a, u =>
    u = { a with status := u.status, resolvedAt := u.resolvedAt, blocks := u.blocks, history := u.history } ∧
      a.history <+: u.history ∧ (a.isDone = true → u.isDone = true)
  | .add _ _, _, _ | .upsert _, _, _ => False

theorem fillResolved_eq (now : String) (a : OwnerAction) :
    a.fillResolved now = { a with resolvedAt := (a.fillResolved now).resolvedAt } := by
  unfold OwnerAction.fillResolved
  split <;> rfl

theorem reconcile_sets {r : Reconciliation} {raw : Store.Row} {a u : OwnerAction}
    (hvalidate : raw.validate scan now = some a) (hu : (r.apply scan now a).validate scan now = some u) :
    Mutation.Sets (.reconcileUpdate r) a u := by
  -- the references and the steps of the row are clean
  have hclean : cleanRefs [] a.dependsOn = some a.dependsOn ∧ a.steps.mapM ActionStep.validate = some a.steps := by
    rw [row_validate, Option.map_eq_some_iff] at hvalidate
    obtain ⟨b, hb, rfl⟩ := hvalidate
    cases raw with
    | object raw =>
      obtain ⟨_, hdepends, hsteps⟩ := OwnerAction.accept_fields hb
      rw [fillResolved_eq]
      exact ⟨cleanRefs_idem hdepends, steps_idem hsteps⟩
    | mistyped id done => cases hb
    | other => cases hb
  obtain ⟨b, hb, rfl⟩ := Option.map_eq_some_iff.mp hu
  obtain ⟨hfields, hdepends, hsteps⟩ := OwnerAction.accept_fields hb
  have hdepends' : b.dependsOn = a.dependsOn := Option.some.inj (hdepends.symm.trans hclean.1)
  have hsteps' : b.steps = a.steps := Option.some.inj (hsteps.symm.trans hclean.2)
  have hsame := OwnerAction.validate_same hu
  have hhistory : (b.fillResolved now).history =
      a.history ++ [[("at", now), ("outcome", r.outcome), ("note", scan.redact r.note)]] := hsame.history
  refine ⟨?_, ?_, fun hdone => ?_⟩
  · rw [fillResolved_eq]
    rw [hdepends', hsteps'] at hfields
    rw [hfields]
    rfl
  · rw [hhistory]
    exact List.prefix_append _ _
  · have hstatus : (b.fillResolved now).isDone = (r.apply scan now a).isDone := by
      rw [OwnerAction.isDone, hsame.status]
      rfl
    rw [hstatus]
    unfold Reconciliation.apply
    simp only [hdone, Bool.not_true, Bool.and_false, Bool.false_eq_true, if_false]
    exact hdone

theorem makes_sets {m : Mutation} {raw : Store.Row} {u : OwnerAction} (h : m.Makes scan now (some raw) u) :
    ∃ a, raw.validate scan now = some a ∧ m.Sets a u := by
  cases h with
  | resolve hvalidate => exact ⟨_, hvalidate, rfl⟩
  | reconcile hvalidate hu => exact ⟨_, hvalidate, reconcile_sets hvalidate hu⟩

/-- The row that the mutation is about is, if the control store has one, the one that it has read. -/
def Undisturbed (scan : SecretScan) (w : Fleet) : Event → Prop
  | .write c now sources _ =>
    match w.sessions c with
    | .holding host m reads =>
      let id := m.actionId scan now reads (w.ledgers host) sources
      ∀ r ∈ Lookup.get Store.Row.key w.control (some id), Lookup.get Store.Row.key reads.rows (some id) = some r
    | _ => True
  | _ => True

instance (scan : SecretScan) (w : Fleet) (e : Event) : Decidable (Undisturbed scan w e) := by
  unfold Undisturbed
  split
  · split <;> infer_instance
  · infer_instance

/-- A row of the control store stays, or becomes what a mutation makes of it that sets its own fields. -/
def RowsKept (scan : SecretScan) (w : Fleet) (e : Event) (w' : Fleet) : Prop :=
  ∀ key r, Lookup.get Store.Row.key w.control key = some r → Lookup.get Store.Row.key w'.control key = some r ∨
      ∃ c now sources reachable host m reads a u, e = .write c now sources reachable ∧
        w.sessions c = .holding host m reads ∧ r.validate scan now = some a ∧ m.Sets a u ∧
        Lookup.get Store.Row.key w'.control key = some (.object u)

/-- An action that `add` returns is new in the control store, and there. -/
def AddsLeft (w w' : Fleet) : Prop :=
  ∀ c a, w'.sessions c = .returned (.added a) → w.sessions c = .returned (.added a) ∨
    (Lookup.get Store.Row.key w.control (some a.id) = none ∧
      Lookup.get Store.Row.key w'.control (some a.id) = some (.object a))

theorem leave_session (w : Fleet) (c host c' : Nat) (result : Result) :
    (w.leave c host result).sessions c' = if c' = c then .returned result else w.sessions c' := rfl

theorem set_session (w : Fleet) (c c' : Nat) (s : Session) :
    (w.set c s).sessions c' = if c' = c then s else w.sessions c' := rfl

theorem step_cases (scan : SecretScan) (w : Fleet) (e : Event) :
    ((step scan w e).control = w.control ∧
      ∀ c a, (step scan w e).sessions c = .returned (.added a) → w.sessions c = .returned (.added a)) ∨
    ∃ c now sources host m reads result changed, e = .write c now sources true ∧
      w.sessions c = .holding host m reads ∧
      m.run scan now reads (w.ledgers host) sources = .ok (result, changed) ∧ changed ≠ [] ∧
      step scan w e = { w with control := changed.foldl upsertRow w.control }.leave c host result := by
  have hset : ∀ c (s : Session), (∀ a, s ≠ .returned (.added a)) → ∀ c' a,
      (w.set c s).sessions c' = .returned (.added a) → w.sessions c' = .returned (.added a) := by
    intro c s hs c' a h
    rw [set_session] at h
    split at h
    · exact absurd h (hs a)
    · exact h
  have hleave : ∀ c host (result : Result), (∀ a, result ≠ .added a) → ∀ c' a,
      (w.leave c host result).sessions c' = .returned (.added a) → w.sessions c' = .returned (.added a) := by
    intro c host result hresult c' a h
    rw [leave_session] at h
    split at h
    · cases h
      exact absurd rfl (hresult a)
    · exact h
  unfold step
  cases e with
  | start c host call =>
    left
    dsimp only
    split
    · exact ⟨rfl, hset c _ fun a h => by cases call <;> cases h⟩
    · exact ⟨rfl, fun _ _ h => h⟩
  | decide c now backlog =>
    left
    dsimp only
    split
    · rename_i host args hs
      refine ⟨rfl, hset c _ fun a => ?_⟩
      unfold decided
      split <;> exact fun h => by cases h
    · exact ⟨rfl, fun _ _ h => h⟩
  | enter c =>
    left
    dsimp only
    split
    · split
      · exact ⟨rfl, hset c _ fun a h => by cases h⟩
      · exact ⟨rfl, fun _ _ h => h⟩
    · exact ⟨rfl, fun _ _ h => h⟩
  | timeout c =>
    left
    dsimp only
    split
    · exact ⟨rfl, hset c _ fun a h => by cases h⟩
    · exact ⟨rfl, fun _ _ h => h⟩
  | read c reachable =>
    left
    dsimp only
    split
    · split
      · exact ⟨rfl, hset c _ fun a h => by cases h⟩
      · exact ⟨rfl, fun _ _ h => h⟩
    · exact ⟨rfl, fun _ _ h => h⟩
  | pull host ledger => exact .inl ⟨rfl, fun _ _ h => h⟩
  | write c now sources reachable =>
    dsimp only
    split
    · rename_i host m reads hs
      split
      · cases hrun : m.run scan now reads (w.ledgers host) sources with
        | error error => exact .inl ⟨rfl, hleave c host _ fun a h => by cases h⟩
        | ok p =>
          obtain ⟨result, changed⟩ := p
          have hwrites := run_ok hrun
          unfold Fleet.finish
          dsimp only
          by_cases hchanged : changed = []
          · rw [if_pos hchanged]
            refine .inl ⟨rfl, hleave c host result fun a ha => ?_⟩
            rw [(hwrites.added a ha).1] at hchanged
            cases hchanged
          · rw [if_neg hchanged]
            cases reachable with
            | false => exact .inl ⟨rfl, hleave c host _ fun a h => by cases h⟩
            | true =>
              exact .inr ⟨c, now, sources, host, m, reads, result, changed, rfl, hs, hrun, hchanged, rfl⟩
      · exact .inl ⟨rfl, fun _ _ h => h⟩
    · exact .inl ⟨rfl, fun _ _ h => h⟩

theorem step_kept {w : Fleet} {e : Event} (hundisturbed : Undisturbed scan w e) :
    RowsKept scan w e (step scan w e) ∧ AddsLeft w (step scan w e) := by
  rcases step_cases scan w e with
    ⟨hcontrol, hadded⟩ | ⟨c, now, sources, host, m, reads, result, changed, rfl, hs, hrun, hchanged, hstep⟩
  · refine ⟨fun key r hr => .inl ?_, fun c a h => .inl (hadded c a h)⟩
    rw [hcontrol]
    exact hr
  · obtain ⟨hrows, hadded⟩ := run_ok hrun
    obtain ⟨u, rfl, hid, hmakes⟩ := hrows.resolve_left hchanged
    unfold Undisturbed at hundisturbed
    dsimp only at hundisturbed
    rw [hs] at hundisturbed
    dsimp only at hundisturbed
    rw [← hid] at hundisturbed hmakes
    have hget : ∀ key, Lookup.get Store.Row.key (step scan w (.write c now sources true)).control key =
        if some u.id = key then some (.object u) else Lookup.get Store.Row.key w.control key := by
      intro key
      rw [hstep]
      exact upsertRow_get w.control (.object u) key
    refine ⟨fun key r hr => ?_, fun c' a h => ?_⟩
    · rw [hget key]
      by_cases hkey : some u.id = key
      · subst hkey
        rw [if_pos rfl]
        rw [hundisturbed r hr] at hmakes
        obtain ⟨a, hvalidate, hsets⟩ := makes_sets hmakes
        exact .inr ⟨c, now, sources, true, host, m, reads, a, u, rfl, hs, hvalidate, hsets, rfl⟩
      · rw [if_neg hkey]
        exact .inl hr
    · rw [hstep, leave_session] at h
      split at h
      · cases h
        obtain ⟨hchanged', draft, reserved, rfl⟩ := hadded a rfl
        cases hchanged'
        right
        refine ⟨?_, by rw [hget, if_pos rfl]⟩
        cases hcontrol : Lookup.get Store.Row.key w.control (some u.id) with
        | none => rfl
        | some r =>
          rw [hundisturbed r hcontrol] at hmakes
          obtain ⟨_, _, hsets⟩ := makes_sets hmakes
          exact hsets.elim
      · exact .inl h

/-- The actions that `add` has returned are in the control store under ids of their own. -/
structure AddsApart (w : Fleet) : Prop where
  «there» : ∀ c a, w.sessions c = .returned (.added a) → Lookup.get Store.Row.key w.control (some a.id) ≠ none
  apart : ∀ c c' a a', c ≠ c' → w.sessions c = .returned (.added a) → w.sessions c' = .returned (.added a') →
    a.id ≠ a'.id

theorem apart_step {w : Fleet} {e : Event} (h : AddsApart w) (hundisturbed : Undisturbed scan w e) :
    AddsApart (step scan w e) := by
  obtain ⟨hkept, hleft⟩ := step_kept hundisturbed
  have hstill : ∀ key, Lookup.get Store.Row.key w.control key ≠ none →
      Lookup.get Store.Row.key (step scan w e).control key ≠ none := by
    intro key hkey
    obtain ⟨r, hr⟩ := Option.ne_none_iff_exists'.mp hkey
    rcases hkept key r hr with hsame | ⟨_, _, _, _, _, _, _, _, u, _, _, _, _, hset⟩
    · rw [hsame]
      exact Option.some_ne_none r
    · rw [hset]
      exact Option.some_ne_none _
  refine ⟨fun c a ha => ?_, fun c c' a a' hne ha ha' => ?_⟩
  · rcases hleft c a ha with hold | ⟨_, hnew⟩
    · exact hstill _ (h.there c a hold)
    · rw [hnew]
      exact Option.some_ne_none _
  · intro hid
    rcases hleft c a ha with hold | ⟨hnone, hnew⟩
    · rcases hleft c' a' ha' with hold' | ⟨hnone', _⟩
      · exact h.apart c c' a a' hne hold hold' hid
      · rw [← hid] at hnone'
        exact h.there c a hold hnone'
    · rcases hleft c' a' ha' with hold' | ⟨_, hnew'⟩
      · rw [hid] at hnone
        exact h.there c' a' hold' hnone
      · -- one step returns one result
        rcases step_cases scan w e with
          ⟨hcontrol, _⟩ | ⟨d, now, sources, host, m, reads, result, changed, rfl, hs, hrun, hchanged, hstep⟩
        · rw [hcontrol, hnone] at hnew
          cases hnew
        · have hc : ∀ b y, (step scan w (.write d now sources true)).sessions b = .returned (.added y) →
              Lookup.get Store.Row.key w.control (some y.id) = none → b = d := by
            intro b y hb hy
            rw [hstep, leave_session] at hb
            split at hb
            · assumption
            · exact absurd hy (h.there b y hb)
          rw [hid] at hnone
          exact hne ((hc c a ha (by rw [hid]; exact hnone)).trans (hc c' a' ha' hnone).symm)

/-- Where no row changes between its reading and its writing, the hosts' mutations are as if made one after another. -/
theorem shared_store_kept (scan : SecretScan) (w : Fleet) (hstart : ∀ c, w.sessions c = .absent) (events : List Event)
    (hundisturbed : ∀ m ∈ Runs.moves (step scan) w events, Undisturbed scan m.pre m.act) :
    (∀ m ∈ Runs.moves (step scan) w events, AddsLeft m.pre m.post ∧ RowsKept scan m.pre m.act m.post) ∧
    ∀ c c' a a', c ≠ c' → (Runs.run (step scan) w events).sessions c = .returned (.added a) →
      (Runs.run (step scan) w events).sessions c' = .returned (.added a') → a.id ≠ a'.id := by
  refine ⟨fun m hm => ?_, ?_⟩
  · have hpost := Runs.post_of_mem hm
    obtain ⟨hkept, hleft⟩ := step_kept (hundisturbed m hm)
    rw [hpost]
    exact ⟨hleft, hkept⟩
  · have hapart : AddsApart (Runs.run (step scan) w events) := by
      refine Runs.run_invariant_of (fun _ _ h hm => apart_step h hm) ⟨fun c a h => ?_, fun c c' a a' _ h => ?_⟩
        hundisturbed
      · rw [hstart c] at h
        cases h
      · rw [hstart c] at h
        cases h
    exact hapart.apart

def scanNone : SecretScan := ⟨fun _ => false, id⟩

def draftOf (title : String) : OwnerActionDraft where
  title := title
  steps := [⟨"Do it", none⟩]

def crossing : List Event :=
  [.start 0 0 (.add (draftOf "Renew the domain") []), .start 1 1 (.add (draftOf "Rotate the key") []),
    .enter 0, .enter 1, .read 0 true, .read 0 true, .read 0 true, .read 1 true, .read 1 true, .read 1 true,
    .write 0 "2026-07-01T00:00:00Z" {} true, .write 1 "2026-07-01T00:00:00Z" {} true]

def inTurn : List Event :=
  [.start 0 0 (.add (draftOf "Renew the domain") []), .enter 0, .read 0 true, .read 0 true, .read 0 true,
    .write 0 "2026-07-01T00:00:00Z" {} true,
    .start 1 1 (.add (draftOf "Rotate the key") []), .enter 1, .read 1 true, .read 1 true, .read 1 true,
    .write 1 "2026-07-01T00:00:00Z" {} true]

def emptyFleet : Fleet where
  control := []
  ledgers := fun _ => {}

def Session.addedId : Session → Option String
  | .returned (.added a) => some a.id
  | _ => none

theorem added_of_id {s : Session} {id : String} (h : s.addedId = some id) : ∃ a, s = .returned (.added a) ∧ a.id = id := by
  unfold Session.addedId at h
  split at h
  · cases h
    exact ⟨_, rfl, rfl⟩
  · cases h

theorem shared_store_kept_inTurn : ((Runs.run (step scanNone) emptyFleet inTurn).sessions 0).addedId = some "OA-001" ∧
    ((Runs.run (step scanNone) emptyFleet inTurn).sessions 1).addedId ≠ some "OA-001" := by
  have hfirst : ((Runs.run (step scanNone) emptyFleet inTurn).sessions 0).addedId = some "OA-001" := by decide +kernel
  refine ⟨hfirst, fun hsecond => ?_⟩
  obtain ⟨a, ha, hid⟩ := added_of_id hfirst
  obtain ⟨a', ha', hid'⟩ := added_of_id hsecond
  exact (shared_store_kept scanNone emptyFleet (fun _ => rfl) inTurn (by decide +kernel)).2 0 1 a a' (by decide) ha ha'
    (hid.trans hid'.symm)

/-- Two hosts take one id, and the later row replaces the one that was returned before. -/
theorem hosts_collide : ¬ ∀ (scan : SecretScan) (w : Fleet), (∀ c, w.sessions c = .absent) → ∀ events c c' a a',
    c ≠ c' → (Runs.run (step scan) w events).sessions c = .returned (.added a) →
      (Runs.run (step scan) w events).sessions c' = .returned (.added a') → a.id ≠ a'.id := by
  intro h
  have hfirst : ((Runs.run (step scanNone) emptyFleet crossing).sessions 0).addedId = some "OA-001" := by decide +kernel
  have hsecond : ((Runs.run (step scanNone) emptyFleet crossing).sessions 1).addedId = some "OA-001" := by
    decide +kernel
  obtain ⟨a, ha, hid⟩ := added_of_id hfirst
  obtain ⟨a', ha', hid'⟩ := added_of_id hsecond
  exact h scanNone emptyFleet (fun _ => rfl) crossing 0 1 a a' (by decide) ha ha' (hid.trans hid'.symm)

end Hosts
end OwnerActions
end DarkFactory
