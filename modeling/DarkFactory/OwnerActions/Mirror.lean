import DarkFactory.OwnerActions.AnswerRuns
import DarkFactory.OwnerActions.Guide

/-!
# DarkFactory.OwnerActions.Mirror

The mirror of the line's requests in `core/owner_actions/mirror.py`: one item for each blocked stage.

* `mirroredId` — the id of a request, from its run and stage.
* `mirrorHumanRequest`, `closeMirroredRequest` — one call on a backlog; what is raised is logged and nothing changes.
* `Cards` — a backlog, with the request that each mirrored item was put there for.
-/

namespace DarkFactory
namespace OwnerActions
namespace Mirror

open Store

/-- `_UNSAFE_ID_CHARS.sub("-", text)`, in a run of unsafe characters or not. -/
def dashUnsafe : Bool → List Char → List Char
  | _, [] => []
  | inRun, c :: cs =>
    if isRefChar c then c :: dashUnsafe false cs
    else if inRun then dashUnsafe true cs
    else '-' :: dashUnsafe true cs

/-- `text.strip("-.")`. -/
def stripDashes (cs : List Char) : List Char := Passages.trim (fun c => decide (c = '-' ∨ c = '.')) cs

def slug (runId blockingStage : String) : List Char :=
  let text := stripDashes (dashUnsafe false (runId ++ "-" ++ blockingStage).toList)
  if text = [] then "run".toList else text

def mirroredId (runId blockingStage : String) : String :=
  String.ofList (("OA-HR-".toList ++ slug runId blockingStage).take 80)

inductive HumanRequestKind where
  | grill | secret | account | repoSetting | commercialAcceptance | infra
deriving DecidableEq

def HumanRequestKind.text : HumanRequestKind → String
  | .grill => "grill"
  | .secret => "secret"
  | .account => "account"
  | .repoSetting => "repo_setting"
  | .commercialAcceptance => "commercial_acceptance"
  | .infra => "infra"

/-- `_PRIORITY_BY_KIND`. -/
def HumanRequestKind.priority : HumanRequestKind → ActionPriority
  | .grill => .medium
  | .secret | .account | .repoSetting | .commercialAcceptance | .infra => .high

structure HumanRequest where
  kind : HumanRequestKind
  runId : String
  blockingStage : String
  guideMd : String
  probeCmd : Option String := none
  createdAt : String
deriving DecidableEq

def humanRequestToAction (scan : SecretScan) (now : String) (r : HumanRequest) : Option OwnerAction := do
  let (intro, steps) ← Guide.parseGuide r.guideMd
  let why := if intro = "" then
      "A linha de producao parou no estagio '" ++ r.blockingStage ++ "' do run " ++ r.runId ++
        " e so retoma depois desta acao humana (" ++ r.kind.text ++ ")."
    else intro
  let verify :=
    match r.probeCmd.filter fun cmd => decide (cmd ≠ "") with
    | some cmd => "Probe da linha: " ++ cmd
    | none => "A linha retoma sozinha depois da sua resposta; confira o run na Esteira ao vivo."
  OwnerAction.validate scan now {
    id := mirroredId r.runId r.blockingStage
    kind := .action
    title := "Linha parada (" ++ r.kind.text ++ "): run " ++ r.runId ++ " aguarda voce no estagio '" ++
      r.blockingStage ++ "'"
    priority := r.kind.priority
    status := .open
    why := scan.redact why
    steps := steps.map fun s => { text := scan.redact s.text, command := s.command.map scan.redact }
    verify := scan.redact verify
    createdAt := r.createdAt
    createdBy := "production-line" }

section

variable (scan : SecretScan) (now : String)

/-- `resolve`, by one process. -/
def resolveIn (args : ResolveArgs) (b : Backlog) : Except OwnerActionError (OwnerAction × Backlog) := do
  validateWriteSources scan b.definitions
  match decideAnswer now args (b.load scan now) with
  | .answering args current answer => writeAnswer scan now args current answer b
  | .returned (.resolved _ outcome) => outcome.map fun current => (current, b)
  | _ => .error .invalid

def mirrorHumanRequest (r : HumanRequest) (b : Backlog) : Option (OwnerAction × Bool) × Backlog :=
  match humanRequestToAction scan now r with
  | none => (none, b)
  | some action =>
    match upsertIn scan now .definitions action b with
    | .error _ => (none, b)
    | .ok (saved, b') => (some saved, b')

def closeMirroredRequest (runId blockingStage : String) (b : Backlog) : Bool × Backlog :=
  match (b.load scan now).find? fun a => decide (a.id = mirroredId runId blockingStage) with
  | none => (false, b)
  | some action =>
    if action.isDone then (false, b)
    else
      match resolveIn scan now { actionId := action.id } b with
      | .error _ => (false, b)
      | .ok (_, b') => (true, b')

end

abbrev Request := String × String

def HumanRequest.pair (r : HumanRequest) : Request := (r.runId, r.blockingStage)

inductive Call where
  | mirror (r : HumanRequest) (now : String)
  | close (p : Request) (now : String)

def Call.pair : Call → Request
  | .mirror r _ => r.pair
  | .close p _ => p

structure Cards where
  backlog : Backlog
  /-- The ids of the items that were added, each with the request it was added for. -/
  added : List (String × Request) := []
  /-- The requests that an item was returned for. -/
  saved : List Request := []

def step (scan : SecretScan) (s : Cards) : Call → Cards
  | .mirror r now =>
    match mirrorHumanRequest scan now r s.backlog with
    | (none, b) => { s with backlog := b }
    | (some (_, created), b) =>
      { backlog := b
        added := if created then s.added ++ [(mirroredId r.runId r.blockingStage, r.pair)] else s.added
        saved := s.saved ++ [r.pair] }
  | .close p now => { s with backlog := (closeMirroredRequest scan now p.1 p.2 s.backlog).2 }

/-- `list_actions` gives an item with the id, at any time. -/
def Listed (scan : SecretScan) (b : Backlog) (id : String) : Prop := ∀ now, ∃ a ∈ b.load scan now, a.id = id

/-- A request that an item was returned for has one: the one that was added for it, or one that the backlog had from
the start. No two requests have the same. -/
structure OwnCards (scan : SecretScan) (start : Backlog) (s : Cards) : Prop where
  named : ∀ c ∈ s.added, c.1 = mirroredId c.2.1 c.2.2 ∧ Listed scan s.backlog c.1
  alone : (s.added.map Prod.fst).Nodup
  own : ∀ p ∈ s.saved, Listed scan s.backlog (mirroredId p.1 p.2) ∧
    ((mirroredId p.1 p.2, p) ∈ s.added ∨ Listed scan start (mirroredId p.1 p.2))

def Apart (calls : List Call) : Prop :=
  ∀ c ∈ calls, ∀ c' ∈ calls,
    (slug c.pair.1 c.pair.2).take 74 = (slug c'.pair.1 c'.pair.2).take 74 → c.pair = c'.pair

theorem dashUnsafe_safe (inRun : Bool) (cs : List Char) : ∀ c ∈ dashUnsafe inRun cs, isRefChar c = true := by
  induction cs generalizing inRun with
  | nil => exact nofun
  | cons c cs ih =>
    rw [dashUnsafe]
    split
    · rename_i hc
      exact List.forall_mem_cons.mpr ⟨hc, ih false⟩
    · split
      · exact ih true
      · exact List.forall_mem_cons.mpr ⟨by decide, ih true⟩

theorem slug_safe (runId blockingStage : String) : ∀ c ∈ slug runId blockingStage, isRefChar c = true := by
  unfold slug
  dsimp only
  split
  · simp [isRefChar]
  · exact fun c hc => dashUnsafe_safe _ _ c ((Passages.trim_isInfix _ _).subset hc)

/-- The part of an id that follows `OA-HR-`. -/
theorem mirroredId_toList (runId blockingStage : String) :
    (mirroredId runId blockingStage).toList = "OA-HR-".toList ++ (slug runId blockingStage).take 74 := by
  rw [mirroredId, String.toList_ofList, List.take_append]
  rfl

theorem mirroredId_eq_iff (p q : Request) : mirroredId p.1 p.2 = mirroredId q.1 q.2 ↔
    (slug p.1 p.2).take 74 = (slug q.1 q.2).take 74 := by
  rw [← String.toList_inj, mirroredId_toList, mirroredId_toList, List.append_right_inj]

theorem dropNewline_safe {cs : List Char} (h : ∀ c ∈ cs, isRefChar c = true) : dropNewline cs = cs := by
  unfold dropNewline
  rw [if_neg]
  intro hlast
  exact absurd (h _ (List.mem_of_getLast? hlast)) (by decide)

theorem mirroredId_valid (runId blockingStage : String) : isOwnerActionId (mirroredId runId blockingStage) = true := by
  have hsafe : ∀ c ∈ (slug runId blockingStage).take 74, isRefChar c = true :=
    fun c hc => slug_safe _ _ c (List.mem_of_mem_take hc)
  unfold isOwnerActionId
  rw [mirroredId_toList, dropNewline_safe]
  · rw [show "OA-HR-".toList = "OA-".toList ++ "HR-".toList from by decide, List.append_assoc, Text.afterList_append]
    have hlength : (['R', '-'] ++ (slug runId blockingStage).take 74).length ≤ 80 := by
      rw [List.length_append, List.length_take, List.length_cons, List.length_cons, List.length_nil]
      omega
    have hall : (['R', '-'] ++ (slug runId blockingStage).take 74).all isRefChar = true := by
      rw [List.all_append, List.all_eq_true.mpr hsafe]
      decide
    show ('H'.isAlphanum && decide ((['R', '-'] ++ (slug runId blockingStage).take 74).length ≤ 80) &&
      (['R', '-'] ++ (slug runId blockingStage).take 74).all isRefChar) = true
    rw [hall, decide_eq_true hlength]
    decide
  · intro c hc
    rcases List.mem_append.mp hc with hc | hc
    · exact (by simp [isRefChar] : ∀ c ∈ "OA-HR-".toList, isRefChar c = true) c hc
    · exact hsafe c hc

section

variable {scan : SecretScan} {now : String} {b b' : Backlog}

theorem action_id {r : HumanRequest} {action : OwnerAction} (h : humanRequestToAction scan now r = some action) :
    action.id = mirroredId r.runId r.blockingStage := by
  unfold humanRequestToAction at h
  obtain ⟨parsed, -, h⟩ := Option.bind_eq_some_iff.mp h
  exact (OwnerAction.validate_same h).id

theorem upsert_cases {action : OwnerAction} {x : OwnerAction × Bool}
    (h : upsertIn scan now .definitions action b = .ok (x, b')) :
    (x.2 = false ∧ view scan b' = view scan b ∧ ((view scan b).curated action.id).isSome = true) ∨
      x.2 = true ∧ (view scan b).curated action.id = none ∧
        view scan b' = { view scan b with curated := setAt (view scan b).curated action.id (item action) } := by
  unfold upsertIn at h
  obtain ⟨⟨result, d'⟩, hwrite, h⟩ := Calls.bind_ok.mp h
  cases h
  obtain ⟨doc, doc', hrows, hvalid, hfn, hvalid', hk⟩ := mutateDefinitions_ok (edits_insert action) hwrite
  have hitems : items scan d'.rows = items scan doc'.rows := funext fun k => by rw [items, hk k, ← items]
  have hview : view scan { b with definitions := d' } = { view scan b with curated := items scan doc'.rows } := by
    unfold view
    rw [hitems]
    rfl
  have hcurated : (view scan b).curated = items scan doc.rows := by
    rw [hrows]
    rfl
  rw [hview]
  unfold Store.insert at hfn
  split at hfn
  · rename_i raw hraw
    cases hfn
    refine .inl ⟨rfl, by rw [← hcurated], ?_⟩
    have hget : Lookup.get Row.key doc.rows (some action.id) = some raw := hraw
    obtain ⟨a, ha⟩ := Option.isSome_iff_exists.mp (hvalid.accepted raw (Lookup.get_key hget).1)
    rw [hcurated, items, rowOf_unique hvalid.unique, hget, Option.bind_some, ha]
    rfl
  · rename_i hnone
    cases hfn
    refine .inr ⟨rfl, by rw [hcurated]; exact items_none hvalid hnone, ?_⟩
    rw [hcurated]
    exact congrArg (fun f => ({ view scan b with curated := f } : View))
      (funext (items_put hvalid hvalid' (append_put hnone)))

theorem mirror_cases {r : HumanRequest} {res : Option (OwnerAction × Bool)}
    (h : mirrorHumanRequest scan now r b = (res, b')) :
    (res = none ∧ b' = b) ∨
    (∃ a, res = some (a, false) ∧ view scan b' = view scan b ∧
      ((view scan b).curated (mirroredId r.runId r.blockingStage)).isSome = true) ∨
    ∃ a i, res = some (a, true) ∧ (view scan b).curated (mirroredId r.runId r.blockingStage) = none ∧
      view scan b' = { view scan b with
        curated := setAt (view scan b).curated (mirroredId r.runId r.blockingStage) i } := by
  unfold mirrorHumanRequest at h
  split at h
  · cases h
    exact .inl ⟨rfl, rfl⟩
  · rename_i action haction
    split at h
    · cases h
      exact .inl ⟨rfl, rfl⟩
    · rename_i saved after hupsert
      cases h
      rw [← action_id haction]
      obtain ⟨a, created⟩ := saved
      rcases upsert_cases hupsert with ⟨hcreated, hview, hsome⟩ | ⟨hcreated, hnone, hview⟩
      · cases hcreated
        exact .inr (.inl ⟨a, rfl, hview, hsome⟩)
      · cases hcreated
        exact .inr (.inr ⟨a, item action, rfl, hnone, hview⟩)

theorem decideAnswer_args {args args' : ResolveArgs} {backlog : List OwnerAction} {current : OwnerAction}
    {answer : Option DecisionAnswer} (h : decideAnswer now args backlog = .answering args' current answer) :
    args' = args := by
  unfold decideAnswer at h
  split at h
  · cases h
  · split at h
    · cases h
    · split at h
      · split at h
        · split at h
          · cases h
          · cases h
        · cases h
      · cases h
        rfl

theorem close_cases {p : Request} {closed : Bool} (h : closeMirroredRequest scan now p.1 p.2 b = (closed, b')) :
    b' = b ∨ ∃ i, ((view scan b).curated (mirroredId p.1 p.2)).isSome = true ∧
      view scan b' = { view scan b with curated := setAt (view scan b).curated (mirroredId p.1 p.2) i } := by
  unfold closeMirroredRequest at h
  split at h
  · cases h
    exact .inl rfl
  · rename_i action hfind
    have hid : action.id = mirroredId p.1 p.2 := of_decide_eq_true (List.find?_some hfind :)
    split at h
    · cases h
      exact .inl rfl
    · split at h
      · cases h
        exact .inl rfl
      · rename_i saved after hresolve
        cases h
        unfold resolveIn at hresolve
        obtain ⟨_, -, hresolve⟩ := Calls.bind_ok.mp hresolve
        split at hresolve
        · rename_i args current answer hdecide
          have hargs := decideAnswer_args hdecide
          rw [hargs] at hresolve
          unfold writeAnswer at hresolve
          rw [if_neg Bool.false_ne_true] at hresolve
          obtain ⟨⟨u, d'⟩, hwrite, hok⟩ := Calls.bind_ok.mp hresolve
          cases hok
          obtain ⟨i, hsome, -, -, hview⟩ := resolveInDefinitions_view hwrite
          rw [hid] at hsome hview
          exact .inr ⟨_, by rw [hsome]; rfl, hview⟩
        · obtain ⟨current, -, hok⟩ := Calls.map_ok.mp hresolve
          cases hok
          exact .inl rfl
        · cases hresolve

theorem listed_of_curated {id : String} (h : ((view scan b).curated id).isSome = true) : Listed scan b id := by
  intro now
  have hitem : (Lookup.get OwnerAction.id (loadRows scan now b.definitions.rows) id).isSome = true := by
    have hitem : (itemIn (loadRows scan now b.definitions.rows) id).isSome = true := by
      rw [itemIn_loadRows]
      exact h
    rwa [itemIn, Option.isSome_map] at hitem
  obtain ⟨a, ha⟩ := Option.isSome_iff_exists.mp hitem
  have hget : Lookup.get OwnerAction.id (b.load scan now) id =
      some (applyResolution a (resolutionOf (resolutionsOf b) a.id)) := by
    rw [Backlog.load, effective_get, ha]
    rfl
  exact ⟨_, Lookup.get_key hget⟩

end

section

variable {scan : SecretScan} {start : Backlog} {calls : List Call}

theorem Apart.pair_of_id (h : Apart calls) {c c' : Call} (hc : c ∈ calls) (hc' : c' ∈ calls)
    (hid : mirroredId c.pair.1 c.pair.2 = mirroredId c'.pair.1 c'.pair.2) : c.pair = c'.pair :=
  h c hc c' hc' ((mirroredId_eq_iff _ _).mp hid)

/-- What holds of the definitions after some of the calls: an id with an item had it from the start, or a call of the
request with that id added it. -/
structure Kept (scan : SecretScan) (start : Backlog) (calls : List Call) (s : Cards) : Prop where
  named : ∀ c ∈ s.added, c.1 = mirroredId c.2.1 c.2.2 ∧ ((view scan s.backlog).curated c.1).isSome = true ∧
    ∃ call ∈ calls, call.pair = c.2
  alone : (s.added.map Prod.fst).Nodup
  own : ∀ p ∈ s.saved, ((view scan s.backlog).curated (mirroredId p.1 p.2)).isSome = true ∧
    ∃ call ∈ calls, call.pair = p
  origin : ∀ id, ((view scan s.backlog).curated id).isSome = true →
    id ∈ s.added.map Prod.fst ∨ ((view scan start).curated id).isSome = true

theorem kept_start : Kept scan start calls { backlog := start } where
  named := nofun
  alone := List.nodup_nil
  own := nofun
  origin := fun _ h => .inr h

theorem isSome_setAt {f : String → Option Store.Item} {id k : String} {i : Store.Item} (h : (f k).isSome = true) :
    (setAt f id i k).isSome = true := by
  unfold setAt
  split
  · rfl
  · exact h

variable {s : Cards}

theorem Kept.rewrite (h : Kept scan start calls s) {id : String} {i : Store.Item} {b : Backlog}
    (hsome : ((view scan s.backlog).curated id).isSome = true)
    (hview : (view scan b).curated = setAt (view scan s.backlog).curated id i) :
    Kept scan start calls { s with backlog := b } where
  named := by
    intro c hc
    obtain ⟨hid, hcurated, hcall⟩ := h.named c hc
    exact ⟨hid, by rw [hview]; exact isSome_setAt hcurated, hcall⟩
  alone := h.alone
  own := by
    intro p hp
    obtain ⟨hcurated, hcall⟩ := h.own p hp
    exact ⟨by rw [hview]; exact isSome_setAt hcurated, hcall⟩
  origin := by
    intro k hk
    rw [hview] at hk
    unfold setAt at hk
    split at hk
    · rename_i heq
      exact h.origin k (heq ▸ hsome)
    · exact h.origin k hk

theorem Kept.same (h : Kept scan start calls s) {b : Backlog} (hview : view scan b = view scan s.backlog) :
    Kept scan start calls { s with backlog := b } where
  named := by
    rw [hview]
    exact h.named
  alone := h.alone
  own := by
    rw [hview]
    exact h.own
  origin := by
    rw [hview]
    exact h.origin

theorem Kept.save (h : Kept scan start calls s) {call : Call} (hcall : call ∈ calls)
    (hsome : ((view scan s.backlog).curated (mirroredId call.pair.1 call.pair.2)).isSome = true) :
    Kept scan start calls { s with saved := s.saved ++ [call.pair] } where
  named := h.named
  alone := h.alone
  own := by
    intro p hp
    rcases List.mem_append.mp hp with hp | hp
    · exact h.own p hp
    · cases List.mem_singleton.mp hp
      exact ⟨hsome, call, hcall, rfl⟩
  origin := h.origin

theorem Kept.add (h : Kept scan start calls s) {call : Call} (hcall : call ∈ calls) {i : Store.Item} {b : Backlog}
    (hnone : (view scan s.backlog).curated (mirroredId call.pair.1 call.pair.2) = none)
    (hview : (view scan b).curated = setAt (view scan s.backlog).curated (mirroredId call.pair.1 call.pair.2) i) :
    Kept scan start calls { s with
      backlog := b, added := s.added ++ [(mirroredId call.pair.1 call.pair.2, call.pair)] } where
  named := by
    intro c hc
    rcases List.mem_append.mp hc with hc | hc
    · obtain ⟨hid, hcurated, hcall⟩ := h.named c hc
      exact ⟨hid, by rw [hview]; exact isSome_setAt hcurated, hcall⟩
    · rw [List.mem_singleton.mp hc]
      exact ⟨rfl, by rw [hview, setAt_self]; rfl, call, hcall, rfl⟩
  alone := by
    dsimp only
    rw [List.map_append, List.nodup_append]
    refine ⟨h.alone, List.nodup_singleton _, ?_⟩
    rintro id hid _ hsingle rfl
    obtain ⟨c, hc, rfl⟩ := List.mem_map.mp hid
    have hcurated := (h.named c hc).2.1
    rw [show c.1 = mirroredId call.pair.1 call.pair.2 from List.mem_singleton.mp hsingle, hnone] at hcurated
    cases hcurated
  own := by
    intro p hp
    obtain ⟨hcurated, hcall⟩ := h.own p hp
    exact ⟨by rw [hview]; exact isSome_setAt hcurated, hcall⟩
  origin := by
    intro k hk
    rw [List.map_append]
    rw [hview] at hk
    unfold setAt at hk
    split at hk
    · rename_i heq
      exact .inl (List.mem_append_right _ (List.mem_singleton.mpr heq))
    · exact (h.origin k hk).imp_left (List.mem_append_left _)

theorem kept_step (h : Kept scan start calls s) {call : Call} (hcall : call ∈ calls) :
    Kept scan start calls (step scan s call) := by
  cases call with
  | mirror r now =>
    unfold step
    dsimp only
    cases hmirror : mirrorHumanRequest scan now r s.backlog with
    | mk res b =>
      rcases mirror_cases hmirror with ⟨rfl, rfl⟩ | ⟨a, rfl, hview, hsome⟩ | ⟨a, i, rfl, hnone, hview⟩
      · exact h
      · exact (h.same hview).save hcall (by rw [hview]; exact hsome)
      · have hcurated : (view scan b).curated =
            setAt (view scan s.backlog).curated (mirroredId r.runId r.blockingStage) i := by rw [hview]
        refine (h.add hcall hnone hcurated).save hcall ?_
        rw [hcurated]
        exact congrArg Option.isSome (setAt_self _ _ _)
  | close p now =>
    unfold step
    dsimp only
    cases hclose : closeMirroredRequest scan now p.1 p.2 s.backlog with
    | mk closed b =>
      rcases close_cases hclose with rfl | ⟨i, hsome, hview⟩
      · exact h
      · exact h.rewrite hsome (by rw [hview])

theorem own_of_kept (hapart : Apart calls) (h : Kept scan start calls s) : OwnCards scan start s where
  named := fun c hc => ⟨(h.named c hc).1, listed_of_curated (h.named c hc).2.1⟩
  alone := h.alone
  own := by
    intro p hp
    obtain ⟨hcurated, call, hcall, rfl⟩ := h.own p hp
    refine ⟨listed_of_curated hcurated, (h.origin _ hcurated).imp ?_ listed_of_curated⟩
    intro hid
    obtain ⟨c, hc, heq⟩ := List.mem_map.mp hid
    obtain ⟨hname, -, call', hcall', hpair⟩ := h.named c hc
    -- what has the id of the request was added for it
    have hsame : call'.pair = call.pair := hapart.pair_of_id hcall' hcall (by rw [hpair, ← hname, heq])
    rw [hsame] at hpair
    have hcard : c = (mirroredId call.pair.1 call.pair.2, call.pair) := Prod.ext heq hpair.symm
    exact hcard ▸ hc

theorem step_other (call : Call) {k : String} (hk : k ≠ mirroredId call.pair.1 call.pair.2) (now : String) :
    Store.shown ((step scan s call).backlog.load scan now) k = Store.shown (s.backlog.load scan now) k := by
  have hframe : ∀ (b : Backlog) (i : Store.Item), view scan b = { view scan s.backlog with
      curated := setAt (view scan s.backlog).curated (mirroredId call.pair.1 call.pair.2) i } →
      Store.shown (b.load scan now) k = Store.shown (s.backlog.load scan now) k := by
    intro b i hview
    rw [shown_load, shown_load, hview]
    unfold View.settled View.source
    dsimp only
    rw [setAt_ne _ _ hk]
  cases call with
  | mirror r now' =>
    unfold step
    dsimp only
    cases hmirror : mirrorHumanRequest scan now' r s.backlog with
    | mk res b =>
      rcases mirror_cases hmirror with ⟨rfl, rfl⟩ | ⟨a, rfl, hview, -⟩ | ⟨a, i, rfl, -, hview⟩
      · rfl
      · rw [shown_load, shown_load, hview]
      · exact hframe b i hview
  | close p now' =>
    unfold step
    dsimp only
    cases hclose : closeMirroredRequest scan now' p.1 p.2 s.backlog with
    | mk closed b =>
      rcases close_cases hclose with rfl | ⟨i, -, hview⟩
      · rfl
      · exact hframe b i hview

/-- Every id is valid, and two requests have one id exactly when their cleaned texts agree up to the cut. In every run
of calls whose requests do not, each request has an item of its own, and a call changes no other request's item. -/
theorem requests_apart_own (h : Apart calls) :
    (∀ p : Request, isOwnerActionId (mirroredId p.1 p.2) = true) ∧
    (∀ p q : Request, mirroredId p.1 p.2 = mirroredId q.1 q.2 ↔ (slug p.1 p.2).take 74 = (slug q.1 q.2).take 74) ∧
    ∀ m ∈ Runs.moves (step scan) { backlog := start } calls, OwnCards scan start m.post ∧
      ∀ c ∈ m.pre.added, c.2 ≠ m.act.pair → ∀ now,
        Store.shown (m.post.backlog.load scan now) c.1 = Store.shown (m.pre.backlog.load scan now) c.1 := by
  refine ⟨fun p => mirroredId_valid p.1 p.2, mirroredId_eq_iff, fun m hm => ?_⟩
  have hpost := Runs.post_of_mem hm
  have hact : m.act ∈ calls := Runs.act_of_mem hm
  have hkept : Kept scan start calls m.pre :=
    Runs.moves_invariant_of (I := Kept scan start calls) (C := fun _ call => call ∈ calls) (fun _ _ hs hc => kept_step hs hc) kept_start
      (fun _ hm => Runs.act_of_mem hm) m hm
  refine ⟨hpost ▸ own_of_kept h (kept_step hkept hact), fun c hc hne now => ?_⟩
  rw [hpost]
  refine step_other m.act (fun hid => hne ?_) now
  obtain ⟨hname, -, call, hcall, hpair⟩ := hkept.named c hc
  rw [← hpair]
  exact h.pair_of_id hcall hact (by rw [hpair, ← hname, hid])

end

def noSecrets : SecretScan where
  leaks := fun _ => false
  redact := id

def askFor (runId blockingStage : String) : HumanRequest where
  kind := .secret
  runId := runId
  blockingStage := blockingStage
  guideMd := "1. Set the token"
  createdAt := "2026-10-09T22:00:00Z"

def fixTests : HumanRequest := askFor "USR-190" "fix-tests"

def tests : HumanRequest := askFor "USR-190-fix" "tests"

def bothAsked : Cards :=
  Runs.run (step noSecrets) { backlog := {} } [.mirror fixTests "t1", .mirror tests "t2"]

/-- The second request gets the item of the first, and closing it marks that item done. -/
theorem tests_shares_card :
    mirroredId "USR-190" "fix-tests" = mirroredId "USR-190-fix" "tests" ∧
    bothAsked.added = [("OA-HR-USR-190-fix-tests", fixTests.pair)] ∧ bothAsked.saved = [fixTests.pair, tests.pair] ∧
    ¬ OwnCards noSecrets {} bothAsked ∧
    Store.shown (bothAsked.backlog.load noSecrets "t3") "OA-HR-USR-190-fix-tests" = none ∧
    Store.shown ((step noSecrets bothAsked (.close tests.pair "t3")).backlog.load noSecrets "t3")
      "OA-HR-USR-190-fix-tests" = some none := by
  have hrun : bothAsked.added = [("OA-HR-USR-190-fix-tests", fixTests.pair)] ∧
      bothAsked.saved = [fixTests.pair, tests.pair] ∧
      Store.shown (bothAsked.backlog.load noSecrets "t3") "OA-HR-USR-190-fix-tests" = none ∧
      Store.shown ((step noSecrets bothAsked (.close tests.pair "t3")).backlog.load noSecrets "t3")
        "OA-HR-USR-190-fix-tests" = some none := by decide +kernel
  obtain ⟨hadded, hsaved, hopen, hclosed⟩ := hrun
  refine ⟨by decide +kernel, hadded, hsaved, fun h => ?_, hopen, hclosed⟩
  obtain ⟨-, hcard | hstart⟩ := h.own tests.pair (by rw [hsaved]; exact List.mem_cons_of_mem _ List.mem_cons_self)
  · rw [hadded] at hcard
    exact absurd hcard (by decide)
  · obtain ⟨a, ha, -⟩ := hstart "t3"
    cases ha

def plainCalls : List Call :=
  [.mirror (askFor "USR-190" "build") "t1", .mirror (askFor "USR-190" "review") "t2", .close ("USR-190", "build") "t3"]

theorem plain_cards_own :
    (Runs.moves (step noSecrets) { backlog := {} } plainCalls).Forall fun m => OwnCards noSecrets {} m.post := by
  have hapart : Apart plainCalls := by
    unfold Apart plainCalls
    simp only [List.forall_mem_cons, List.not_mem_nil, false_implies, implies_true, and_true]
    decide +kernel
  exact List.forall_iff_forall_mem.mpr fun m hm => ((requests_apart_own hapart).2.2 m hm).1

end Mirror
end OwnerActions
end DarkFactory
