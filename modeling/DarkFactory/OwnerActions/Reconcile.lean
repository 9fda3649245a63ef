import DarkFactory.OwnerActions.Writes

/-!
# DarkFactory.OwnerActions.Reconcile

The backlog against reality, `core/owner_actions/reconcile.py`.

* `propose`, `reconcile` — one proposal for each open action of a snapshot.
* `Frames` — what a write may do to an item, and to the others.
-/

namespace DarkFactory
namespace OwnerActions
namespace Reconcile

open Calls Store

def TERMINAL_TICKET_STATUSES : List String := ["completed", "cancelled", "canceled"]

abbrev PrStateLookup := Nat → Option (String × Bool)

inductive Classification where
  | stillNeeded | obsoleteBlocker | orphanPr
deriving DecidableEq

def Classification.value : Classification → String
  | .stillNeeded => "still_needed"
  | .obsoleteBlocker => "obsolete_blocker"
  | .orphanPr => "orphan_pr"

inductive Outcome where
  | keep | updateBlocks | close
deriving DecidableEq

def Outcome.value : Outcome → String
  | .keep => "keep"
  | .updateBlocks => "update_blocks"
  | .close => "close"

structure Proposal where
  actionId : String
  classification : Classification
  outcome : Outcome
  explanation : String
  newBlocks : List String := []
  droppedBlocks : List String := []
  safe : Bool := false
  evidence : List (String × String) := []
deriving DecidableEq

/-- The leftmost match of `_PR_IN_TEXT`. -/
def pullNumber : List Char → Option Nat
  | [] => none
  | c :: cs =>
    match Text.afterList "/pull/".toList (c :: cs) with
    | some rest =>
      match rest.takeWhile fun d => (Text.digitValue d).isSome with
      | [] => pullNumber cs
      | digits => Text.parseDigits digits
    | none => pullNumber cs

/-- `_PR_IN_ID`. -/
def idNumber (id : String) : Option Nat :=
  (Text.afterList "OA-QR-".toList (dropNewline id.toList)).bind Text.parseDigits

def linkedPr (action : OwnerAction) : Option Nat :=
  match idNumber action.id with
  | some number => some number
  | none => if Text.startsWith action.id "OA-QR-" then pullNumber action.why.toList else none

def isTerminal (tickets : String → Option String) (ticket : String) : Bool :=
  decide ((tickets ticket).getD "" ∈ TERMINAL_TICKET_STATUSES)

def proposePr (action : OwnerAction) (number : Nat) (state : String) (merged : Bool) : Proposal :=
  if state = "CLOSED" && !merged then {
    actionId := action.id
    classification := .orphanPr
    outcome := .close
    safe := true
    explanation := "O PR #" ++ toString number ++ " foi fechado sem merge, entao este alerta nao rastreia mais nada. " ++
      "O ticket, se ainda for necessario, e acompanhado pelo seu proprio registro."
    evidence := [("pr", toString number), ("pr_state", "CLOSED")] }
  else if state = "MERGED" || merged then {
    actionId := action.id
    classification := .obsoleteBlocker
    outcome := .close
    safe := true
    explanation := "O PR #" ++ toString number ++
      " foi mergeado: o registro chegou a main e o alerta cumpriu o papel."
    evidence := [("pr", toString number), ("pr_state", "MERGED")] }
  else {
    actionId := action.id
    classification := .stillNeeded
    outcome := .keep
    explanation := "O PR #" ++ toString number ++
      " segue aberto; fechar o PR duplicado/superado (ou mergear) resolve o alerta na proxima varredura do watchdog."
    evidence := [("pr", toString number), ("pr_state", state)] }

def proposeBlocks (tickets : String → Option String) (action : OwnerAction) : Proposal :=
  let done := action.blocks.filter (isTerminal tickets)
  let remaining := action.blocks.filter fun t => decide (t ∉ done)
  let statuses := ", ".intercalate (done.map fun t => t ++ "=" ++ (tickets t).getD "")
  if done = [] then {
    actionId := action.id
    classification := .stillNeeded
    outcome := .keep
    explanation := "Ha ticket bloqueado ainda aberto (ou sem evidencia de conclusao) ou nao ha bloqueios."
    newBlocks := action.blocks }
  else if remaining = [] then {
    actionId := action.id
    classification := .obsoleteBlocker
    outcome := .updateBlocks
    safe := true
    droppedBlocks := done
    explanation := "Todos os tickets bloqueados ja terminaram (" ++ statuses ++
      "); a lista de bloqueios sera esvaziada. Se os passos ainda forem uma acao real do owner, a OA segue aberta; " ++
      "fechar exige julgamento." }
  else {
    actionId := action.id
    classification := .stillNeeded
    outcome := .updateBlocks
    safe := true
    droppedBlocks := done
    newBlocks := remaining
    explanation := "Tickets ja terminados saem dos bloqueios (" ++ statuses ++ "); " ++ ", ".intercalate remaining ++
      " continuam bloqueados." }

def propose (tickets : String → Option String) (prState : Option PrStateLookup) (action : OwnerAction) : Proposal :=
  match linkedPr action, prState with
  | some number, some lookup =>
    match lookup number with
    | some (state, merged) => proposePr action number state merged
    | none => proposeBlocks tickets action
  | _, _ => proposeBlocks tickets action

def reconcile (tickets : String → Option String) (prState : Option PrStateLookup) (actions : List OwnerAction) :
    List Proposal :=
  (actions.filter fun a => !a.isDone).map (propose tickets prState)

def Proposal.skipped (wanted : Option (List String)) (p : Proposal) : Bool :=
  !p.safe || decide (p.outcome = .keep) || wanted.any fun ids => decide (p.actionId ∉ ids)

/-- The arguments of `reconcile_update`. -/
def Proposal.update (p : Proposal) : Reconciliation where
  actionId := p.actionId
  blocks := if p.outcome = .updateBlocks then some p.newBlocks else none
  close := decide (p.outcome = .close)
  outcome := p.classification.value ++ ":" ++ p.outcome.value
  note := p.explanation

structure Applied where
  proposal : Proposal
  now : String
  pre : Backlog
  post : Backlog

structure Pass where
  applied : List Applied
  backlog : Backlog
  /-- The error that ended the pass. -/
  error : Option OwnerActionError

/-- `others i` is what the other processes do before the `i`-th write, which happens at `clock i`. -/
def applyProposals (scan : SecretScan) (clock : Nat → String) (others : Nat → Backlog → Backlog)
    (only : Option (List String)) : Nat → List Proposal → Backlog → Pass
  | _, [], b => ⟨[], b, none⟩
  | i, p :: ps, b =>
    if p.skipped only then applyProposals scan clock others only i ps b
    else
      match reconcileIn scan (clock i) p.update (others i b) with
      | .error e => ⟨[], others i b, some e⟩
      | .ok (_, b') =>
        let rest := applyProposals scan clock others only (i + 1) ps b'
        { rest with applied := ⟨p, clock i, others i b, b'⟩ :: rest.applied }

/-- What `load` returns. -/
def load (scan : SecretScan) (now : String) (b : Backlog) : List OwnerAction :=
  effective (loadRows scan now b.definitions.rows) (loadRows scan now (dynamicRows b)) (resolutionsOf b)

def loaded (scan : SecretScan) (now : String) (b : Backlog) (id : String) : Option OwnerAction :=
  Lookup.get OwnerAction.id (loadRows scan now b.definitions.rows) id

def Reported (prState : Option PrStateLookup) (number : Nat) : Prop :=
  ∃ lookup state merged, prState = some lookup ∧ lookup number = some (state, merged) ∧
    (state = "CLOSED" ∨ state = "MERGED" ∨ merged = true)

/-- What the write of a proposal about the action `a` of the snapshot may do to its item. -/
structure Finished (tickets : String → Option String) (prState : Option PrStateLookup) (a before after : OwnerAction) :
    Prop where
  removed : ∀ t ∈ before.blocks, t ∉ after.blocks → isTerminal tickets t = true
  added : (before.blocks.filter fun t => decide (t ∉ a.blocks)).Sublist after.blocks
  closed : after.isDone = true → before.isDone = true ∨ ∃ number, linkedPr a = some number ∧ Reported prState number
  reopened : before.isDone = true → after.isDone = true ∧ after.resolvedAt = before.resolvedAt
  trail : ∃ entry, after.history = before.history ++ [entry]
  rest : after = { before with
    blocks := after.blocks, status := after.status, resolvedAt := after.resolvedAt, history := after.history }

def Frames (scan : SecretScan) (tickets : String → Option String) (prState : Option PrStateLookup)
    (actions : List OwnerAction) (m : Applied) : Prop :=
  ∃ before after, loaded scan m.now m.pre m.proposal.actionId = some before ∧
    loaded scan m.now m.post m.proposal.actionId = some after ∧
    (∀ a ∈ actions, a.isDone = false → propose tickets prState a = m.proposal →
      Finished tickets prState a before after) ∧
    ∀ k, k ≠ m.proposal.actionId → loaded scan m.now m.post k = loaded scan m.now m.pre k

/-- Where blocks are rewritten, the item has no reference that its action in the snapshot lacks. -/
def NothingAdded (scan : SecretScan) (tickets : String → Option String) (prState : Option PrStateLookup)
    (actions : List OwnerAction) (m : Applied) : Prop :=
  m.proposal.outcome = .updateBlocks → ∀ before, loaded scan m.now m.pre m.proposal.actionId = some before →
    ∀ a ∈ actions, a.isDone = false → propose tickets prState a = m.proposal → ∀ t ∈ before.blocks, t ∈ a.blocks

variable {scan : SecretScan} {now : String}

structure Clean (a : OwnerAction) : Prop where
  blocks : cleanRefs [] a.blocks = some a.blocks
  dependsOn : cleanRefs [] a.dependsOn = some a.dependsOn
  steps : a.steps.mapM ActionStep.validate = some a.steps
  resolved : a.isDone = true → a.resolvedAt.isSome = true

variable {raw a : OwnerAction}

theorem accept_blocks (h : raw.accept scan = some a) : cleanRefs [] raw.blocks = some a.blocks := by
  unfold OwnerAction.accept at h
  simp only [Option.bind_eq_bind, Option.bind_eq_some_iff] at h
  obtain ⟨blocks, hblocks, dependsOn, -, steps, -, h⟩ := h
  split at h
  · cases h
    exact hblocks
  · cases h

theorem fillResolved_resolved (a : OwnerAction) (hdone : (OwnerAction.fillResolved now a).isDone = true) :
    (OwnerAction.fillResolved now a).resolvedAt.isSome = true := by
  unfold OwnerAction.fillResolved at hdone ⊢
  split
  · rfl
  · rename_i hopen
    rw [if_neg hopen] at hdone
    rw [hdone, Bool.true_and, Option.isNone_iff_eq_none] at hopen
    exact Option.isSome_iff_ne_none.mpr hopen

theorem fillResolved_clean (a : OwnerAction) (hblocks : cleanRefs [] a.blocks = some a.blocks)
    (hdepends : cleanRefs [] a.dependsOn = some a.dependsOn) (hsteps : a.steps.mapM ActionStep.validate = some a.steps) :
    Clean (OwnerAction.fillResolved now a) := by
  refine ⟨?_, ?_, ?_, fillResolved_resolved a⟩
  all_goals
    unfold OwnerAction.fillResolved
    split
    · assumption
    · assumption

theorem clean_of_validate (h : raw.validate scan now = some a) : Clean a := by
  rw [OwnerAction.validate, Option.map_eq_some_iff] at h
  obtain ⟨b, hb, rfl⟩ := h
  obtain ⟨-, hdepends, hsteps⟩ := OwnerAction.accept_fields hb
  exact fillResolved_clean b (cleanRefs_idem (accept_blocks hb)) (cleanRefs_idem hdepends) (steps_idem hsteps)

theorem fillResolved_of_clean (h : Clean a) : OwnerAction.fillResolved now a = a := by
  unfold OwnerAction.fillResolved
  rw [if_neg]
  intro hopen
  rw [Bool.and_eq_true, Option.isNone_iff_eq_none] at hopen
  have hresolved := h.resolved hopen.1
  rw [hopen.2] at hresolved
  cases hresolved

theorem validate_clean (hclean : Clean raw) (h : raw.validate scan now = some a) : a = raw := by
  rw [OwnerAction.validate, Option.map_eq_some_iff] at h
  obtain ⟨b, hb, rfl⟩ := h
  obtain ⟨hfields, hdepends, hsteps⟩ := OwnerAction.accept_fields hb
  have hblocks := accept_blocks hb
  rw [hclean.blocks] at hblocks
  rw [hclean.dependsOn] at hdepends
  rw [hclean.steps] at hsteps
  rw [← Option.some.inj hblocks, ← Option.some.inj hdepends, ← Option.some.inj hsteps] at hfields
  have hsame : b = raw := hfields
  rw [hsame]
  exact fillResolved_of_clean hclean

theorem loadRows_clean {rows : List Store.Row} (h : a ∈ loadRows scan now rows) : Clean a := by
  have hget := (Lookup.get_eq_some (firsts_unique [] _).1).mpr ⟨h, rfl⟩
  rw [← loadRows, loadRows_get, Option.map_eq_some_iff] at hget
  obtain ⟨b, hb, rfl⟩ := hget
  obtain ⟨r, -, hr⟩ := List.mem_filterMap.mp (Lookup.get_key hb).1
  have hvalidate : r.validate scan now = some (OwnerAction.fillResolved now b) := by
    rw [row_validate, hr]
    rfl
  cases r with
  | object raw => exact clean_of_validate hvalidate
  | mistyped id done => cases hr
  | other => cases hr

theorem applyResolution_blocks (a : OwnerAction) (r : Option Resolution) : (applyResolution a r).blocks = a.blocks := by
  unfold applyResolution
  repeat' split
  all_goals rfl

theorem load_blocks {b : Backlog} (h : a ∈ load scan now b) : cleanRefs [] a.blocks = some a.blocks := by
  unfold load effective at h
  obtain ⟨c, hc, rfl⟩ := List.mem_map.mp h
  rw [applyResolution_blocks]
  rcases List.mem_append.mp hc with hc | hc
  · exact (loadRows_clean hc).blocks
  · exact (loadRows_clean (List.mem_of_mem_filter hc)).blocks

theorem reconcileIn_loaded {r : Reconciliation} {u : OwnerAction} {b b' : Backlog}
    (h : reconcileIn scan now r b = .ok (u, b')) :
    ∃ before, loaded scan now b r.actionId = some before ∧ Clean before ∧
      (r.apply scan now before).validate scan now = some u ∧ loaded scan now b' r.actionId = some u ∧
      ∀ k, k ≠ r.actionId → loaded scan now b' k = loaded scan now b k := by
  unfold reconcileIn reconcileUpdate at h
  obtain ⟨⟨u', d'⟩, hwrite, h⟩ := bind_ok.mp h
  cases h
  obtain ⟨doc, doc', hrows, hvalid, hfn, hvalid', hk⟩ := mutateDefinitions_ok (edits_update (updates_reconcile r)) hwrite
  obtain ⟨-, hid, hput, raw, before, hget, hvalidate, hu⟩ := update_ok (updates_reconcile r) hfn
  have hupdated : (r.apply scan now before).validate scan now = some u := by
    split at hu
    · cases hu
    · rename_i hsome
      cases hu
      exact hsome
  have hbefore : ∀ k, loaded scan now b k =
      ((Lookup.get Row.key doc.rows (some k)).bind (Row.accept scan)).map (OwnerAction.fillResolved now) := by
    intro k
    rw [loaded, loadRows_get, ← hrows, rowOf_unique hvalid.unique]
  have hafter : ∀ k, loaded scan now { b with definitions := d' } k =
      ((Lookup.get Row.key doc'.rows (some k)).bind (Row.accept scan)).map (OwnerAction.fillResolved now) := by
    intro k
    rw [loaded, loadRows_get, hk k, rowOf_unique hvalid'.unique]
  refine ⟨before, ?_, ?_, hupdated, ?_, ?_⟩
  · rw [hbefore, hget, Option.bind_some, ← row_validate]
    exact hvalidate
  · cases raw with
    | object raw => exact clean_of_validate hvalidate
    | mistyped id done => cases hvalidate
    | other => cases hvalidate
  · have hrow : Lookup.get Row.key doc'.rows (some r.actionId) = some (.object u) := by
      rw [hput.get, hid, if_pos rfl]
    have haccepted := hvalid'.accepted _ (Lookup.get_key hrow).1
    rw [hafter, hrow, Option.bind_some]
    obtain ⟨v, hv⟩ := Option.isSome_iff_exists.mp haccepted
    have hsame : (u.accept scan).map (OwnerAction.fillResolved now) = some (OwnerAction.fillResolved now v) :=
      congrArg _ hv
    have hclean := validate_clean (clean_of_validate hupdated) hsame
    rw [hclean] at hsame
    exact hsame
  · intro k hne
    rw [hafter, hbefore, hput.get, if_neg]
    rw [hid]
    exact fun heq => hne (Option.some.inj heq).symm

theorem close_newBlocks {tickets : String → Option String} {prState : Option PrStateLookup}
    (h : (propose tickets prState a).outcome = .close) : (propose tickets prState a).newBlocks = [] := by
  have hblocks : (proposeBlocks tickets a).outcome ≠ .close := by
    unfold proposeBlocks
    dsimp only
    repeat' split
    all_goals exact nofun
  unfold propose at h ⊢
  split
  · rename_i number lookup hnumber
    split
    · unfold proposePr
      repeat' split
      all_goals rfl
    · rename_i hunknown
      rw [hnumber] at h
      dsimp only at h
      rw [hunknown] at h
      exact absurd h hblocks
  · rename_i hno
    split at h
    · rename_i number lookup hnumber
      exact absurd rfl (hno number lookup hnumber)
    · exact absurd h hblocks

theorem propose_applied {tickets : String → Option String} {prState : Option PrStateLookup}
    {only : Option (List String)} (h : (propose tickets prState a).skipped only = false) :
    ((propose tickets prState a).outcome = .close ∧ ∃ number, linkedPr a = some number ∧ Reported prState number) ∨
      ((propose tickets prState a).outcome = .updateBlocks ∧
        (propose tickets prState a).newBlocks = a.blocks.filter fun t => !isTerminal tickets t) := by
  have hblocks : (proposeBlocks tickets a).skipped only = false →
      (proposeBlocks tickets a).outcome = .updateBlocks ∧
        (proposeBlocks tickets a).newBlocks = a.blocks.filter fun t => !isTerminal tickets t := by
    intro hkept
    have hremaining : (a.blocks.filter fun t => decide (t ∉ a.blocks.filter (isTerminal tickets))) =
        a.blocks.filter fun t => !isTerminal tickets t := by
      refine List.filter_congr fun t ht => ?_
      simp [List.mem_filter, ht]
    unfold proposeBlocks at hkept ⊢
    dsimp only at hkept ⊢
    split
    · rename_i hdone
      rw [if_pos hdone] at hkept
      cases hkept
    · split
      · rename_i hnone
        exact ⟨rfl, by rw [← hremaining, hnone]⟩
      · exact ⟨rfl, hremaining⟩
  unfold propose at h ⊢
  split
  · rename_i number lookup hnumber
    rw [hnumber] at h
    dsimp only at h
    split
    · rename_i state merged hfound
      rw [hfound] at h
      dsimp only at h
      unfold proposePr at h ⊢
      split
      · rename_i hclosed
        rw [Bool.and_eq_true, decide_eq_true_iff] at hclosed
        exact .inl ⟨rfl, number, hnumber, lookup, state, merged, rfl, hfound, .inl hclosed.1⟩
      · rename_i hopen
        rw [if_neg hopen] at h
        split
        · rename_i hmerged
          refine .inl ⟨rfl, number, hnumber, lookup, state, merged, rfl, hfound, .inr ?_⟩
          rw [Bool.or_eq_true, decide_eq_true_iff] at hmerged
          exact hmerged
        · rename_i hneither
          rw [if_neg hneither] at h
          cases h
    · rename_i hunknown
      rw [hunknown] at h
      exact .inr (hblocks h)
  · rename_i hno
    refine .inr (hblocks ?_)
    split at h
    · rename_i number lookup hnumber
      exact absurd rfl (hno number lookup hnumber)
    · exact h

theorem mem_applied {clock : Nat → String} {others : Nat → Backlog → Backlog} {only : Option (List String)} {i : Nat}
    {ps : List Proposal} {b : Backlog} {m : Applied} (h : m ∈ (applyProposals scan clock others only i ps b).applied) :
    m.proposal.skipped only = false ∧ ∃ u, reconcileIn scan m.now m.proposal.update m.pre = .ok (u, m.post) := by
  induction ps generalizing i b with
  | nil => cases h
  | cons p ps ih =>
    rw [applyProposals] at h
    split at h
    · exact ih h
    · rename_i hkept
      split at h
      · cases h
      · rename_i u b' hwrite
        rcases List.mem_cons.mp h with rfl | h
        · exact ⟨Bool.eq_false_iff.mpr hkept, u, hwrite⟩
        · exact ih h

section

variable {tickets : String → Option String} {prState : Option PrStateLookup} {a before u : OwnerAction} {p : Proposal}

theorem clean_filter {refs : List String} (h : cleanRefs [] refs = some refs) (keep : String → Bool) :
    cleanRefs [] (refs.filter keep) = some (refs.filter keep) := by
  obtain ⟨hclean, hnodup⟩ := cleanRefs_clean h (fun _ hmem => by cases hmem) List.nodup_nil
  exact cleanRefs_of_clean (fun ref href => hclean ref (List.mem_of_mem_filter href)) (hnodup.filter keep)

theorem updated_eq (hbefore : Clean before) (hblocks : cleanRefs [] p.newBlocks = some p.newBlocks)
    (h : (p.update.apply scan now before).validate scan now = some u) : u = p.update.apply scan now before := by
  refine validate_clean ⟨?_, hbefore.dependsOn, hbefore.steps, ?_⟩ h
  · unfold Reconciliation.apply Proposal.update
    dsimp only
    split
    · exact hblocks
    · exact hbefore.blocks
  · unfold Reconciliation.apply OwnerAction.isDone
    dsimp only
    split
    · exact fun _ => rfl
    · exact hbefore.resolved

theorem finished_close {number : Nat} (houtcome : p.outcome = .close) (hlinked : linkedPr a = some number)
    (hreported : Reported prState number) :
    Finished tickets prState a before (p.update.apply scan now before) := by
  have hblocks : (p.update.apply scan now before).blocks = before.blocks := by
    unfold Reconciliation.apply Proposal.update
    rw [houtcome]
    rfl
  refine ⟨fun t ht hnot => ?_, ?_, fun _ => .inr ⟨number, hlinked, hreported⟩, fun hdone => ?_, ⟨_, rfl⟩, rfl⟩
  · rw [hblocks] at hnot
    exact absurd ht hnot
  · rw [hblocks]
    exact List.filter_sublist
  · unfold Reconciliation.apply OwnerAction.isDone at *
    simp only [hdone, Bool.not_true, Bool.and_false, Bool.false_eq_true, if_false]
    exact ⟨trivial, trivial⟩

theorem finished_update_iff (houtcome : p.outcome = .updateBlocks)
    (hblocks : p.newBlocks = a.blocks.filter fun t => !isTerminal tickets t) :
    Finished tickets prState a before (p.update.apply scan now before) ↔ ∀ t ∈ before.blocks, t ∈ a.blocks := by
  have hnew : (p.update.apply scan now before).blocks = a.blocks.filter fun t => !isTerminal tickets t := by
    rw [← hblocks]
    unfold Reconciliation.apply Proposal.update
    rw [houtcome]
    rfl
  have hstatus : (p.update.apply scan now before).status = before.status ∧
      (p.update.apply scan now before).resolvedAt = before.resolvedAt := by
    unfold Reconciliation.apply Proposal.update
    rw [houtcome]
    exact ⟨rfl, rfl⟩
  constructor
  · intro h t ht
    by_contra hnot
    have hkept := h.added.subset (List.mem_filter.mpr ⟨ht, decide_eq_true hnot⟩)
    rw [hnew] at hkept
    exact hnot (List.mem_of_mem_filter hkept)
  · intro h
    refine ⟨fun t ht hnot => ?_, ?_, fun hdone => .inl ?_, fun hdone => ⟨?_, hstatus.2⟩, ⟨_, rfl⟩, rfl⟩
    · rw [hnew, List.mem_filter] at hnot
      by_contra hopen
      rw [Bool.not_eq_true] at hopen
      exact hnot ⟨h t ht, by rw [hopen]; rfl⟩
    · have hnone : before.blocks.filter (fun t => decide (t ∉ a.blocks)) = [] := by
        rw [List.filter_eq_nil_iff]
        intro t ht hadded
        exact of_decide_eq_true hadded (h t ht)
      rw [hnone]
      exact List.nil_sublist _
    · unfold OwnerAction.isDone at hdone ⊢
      rw [← hstatus.1]
      exact hdone
    · unfold OwnerAction.isDone at hdone ⊢
      rw [hstatus.1]
      exact hdone

theorem frames_of_applied {actions : List OwnerAction} {only : Option (List String)} {m : Applied}
    (hactions : ∀ a ∈ actions, cleanRefs [] a.blocks = some a.blocks)
    (hkept : m.proposal.skipped only = false)
    (hwrite : reconcileIn scan m.now m.proposal.update m.pre = .ok (u, m.post)) :
    Frames scan tickets prState actions m ↔ NothingAdded scan tickets prState actions m := by
  obtain ⟨before, hbefore, hclean, hvalidate, hafter, hothers⟩ := reconcileIn_loaded hwrite
  have hid : m.proposal.update.actionId = m.proposal.actionId := rfl
  rw [hid] at hbefore hafter hothers
  have hone : ∀ a ∈ actions, a.isDone = false → propose tickets prState a = m.proposal →
      (Finished tickets prState a before u ↔
        (m.proposal.outcome = .updateBlocks → ∀ t ∈ before.blocks, t ∈ a.blocks)) := by
    intro a ha _ hpropose
    have happlied := propose_applied
      (show (propose tickets prState a).skipped only = false by rw [hpropose]; exact hkept)
    rw [hpropose] at happlied
    rcases happlied with ⟨houtcome, number, hlinked, hreported⟩ | ⟨houtcome, hblocks⟩
    · have hnone : m.proposal.newBlocks = [] := by
        rw [← hpropose] at houtcome ⊢
        exact close_newBlocks houtcome
      rw [updated_eq hclean (by rw [hnone]; rfl) hvalidate]
      refine ⟨fun _ hupdate => ?_, fun _ => finished_close houtcome hlinked hreported⟩
      rw [houtcome] at hupdate
      cases hupdate
    · rw [updated_eq hclean (by rw [hblocks]; exact clean_filter (hactions a ha) _) hvalidate,
        finished_update_iff houtcome hblocks]
      exact ⟨fun h _ => h, fun h => h houtcome⟩
  constructor
  · rintro ⟨before', after, hbefore', hafter', hfinished, -⟩ houtcome before'' hbefore'' a ha hopen hpropose
    cases hbefore.symm.trans hbefore''
    cases hbefore.symm.trans hbefore'
    cases hafter.symm.trans hafter'
    exact (hone a ha hopen hpropose).mp (hfinished a ha hopen hpropose) houtcome
  · intro h
    refine ⟨before, u, hbefore, hafter, fun a ha hopen hpropose => ?_, hothers⟩
    exact (hone a ha hopen hpropose).mpr fun houtcome => h houtcome before hbefore a ha hopen hpropose

end

/-- Every write of a pass over the proposals of a snapshot stays within its frame exactly if none that rewrites blocks
meets an item with a reference that the snapshot lacks. -/
theorem frames_iff (scan : SecretScan) (snapshot b : Backlog) (now : String) (tickets : String → Option String)
    (prState : Option PrStateLookup) (only : Option (List String)) (clock : Nat → String)
    (others : Nat → Backlog → Backlog) :
    (∀ m ∈ (applyProposals scan clock others only 0 (reconcile tickets prState (load scan now snapshot)) b).applied,
        Frames scan tickets prState (load scan now snapshot) m) ↔
      ∀ m ∈ (applyProposals scan clock others only 0 (reconcile tickets prState (load scan now snapshot)) b).applied,
        NothingAdded scan tickets prState (load scan now snapshot) m := by
  refine forall₂_congr fun m hm => ?_
  obtain ⟨hkept, u, hwrite⟩ := mem_applied hm
  exact frames_of_applied (fun a ha => load_blocks ha) hkept hwrite

def plainScan : SecretScan := ⟨fun _ => false, id⟩

def blocking (refs : List String) : Backlog where
  definitions.file.rows := [.object {
    id := "OA-001", title := "Rotate the key", blocks := refs, steps := [{ text := "Open the portal" }]
    createdAt := "2026-10-09T22:00:00Z" }]

def oneCompleted (ticket : String) : Option String := if ticket = "USR-1" then some "completed" else none

/-- A reference added after the snapshot is removed, although its ticket is open. -/
theorem added_reference_removed :
    ¬ ∀ m ∈ (applyProposals plainScan (fun _ => "2026-10-10T10:00:00Z") (fun _ _ => blocking ["USR-1", "USR-2"]) none 0
        (reconcile oneCompleted none (load plainScan "2026-10-10T09:00:00Z" (blocking ["USR-1"])))
        (blocking ["USR-1"])).applied,
      Frames plainScan oneCompleted none (load plainScan "2026-10-10T09:00:00Z" (blocking ["USR-1"])) m := by
  intro h
  have hcase : ∃ m ∈ (applyProposals plainScan (fun _ => "2026-10-10T10:00:00Z")
        (fun _ _ => blocking ["USR-1", "USR-2"]) none 0
        (reconcile oneCompleted none (load plainScan "2026-10-10T09:00:00Z" (blocking ["USR-1"])))
        (blocking ["USR-1"])).applied,
      (loaded plainScan m.now m.pre m.proposal.actionId).map OwnerAction.blocks = some ["USR-1", "USR-2"] ∧
        (loaded plainScan m.now m.post m.proposal.actionId).map OwnerAction.blocks = some [] ∧
        ∃ a ∈ load plainScan "2026-10-10T09:00:00Z" (blocking ["USR-1"]), a.isDone = false ∧
          propose oneCompleted none a = m.proposal := by
    decide +kernel
  obtain ⟨m, hm, hpre, hpost, a, ha, hopen, hpropose⟩ := hcase
  obtain ⟨before, after, hbefore, hafter, hfinished, -⟩ := h m hm
  rw [hbefore] at hpre
  rw [hafter] at hpost
  have hremoved := (hfinished a ha hopen hpropose).removed "USR-2"
  rw [Option.some.inj hpre, Option.some.inj hpost] at hremoved
  exact absurd (hremoved (by decide) (by decide)) (by decide)

end Reconcile
end OwnerActions
end DarkFactory
