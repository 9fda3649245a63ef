import DarkFactory.Python.Digits
import DarkFactory.Python.Text

/-!
# DarkFactory.OwnerActions.Models

`OwnerAction` of `core/owner_actions/models.py`, what its validation accepts, and `apply_resolution`.

* A time is its `iso_z` text.
* `OwnerAction.validate` — `model_validate`; `validate_same` says which fields it leaves alone.
-/

namespace DarkFactory
namespace OwnerActions

inductive ActionKind where
  | action | decision
deriving DecidableEq

inductive ActionPriority where
  | critical | high | medium | low
deriving DecidableEq

inductive ActionStatus where
  | «open» | waiting | done
deriving DecidableEq

structure ActionStep where
  text : String
  command : Option String := none
deriving DecidableEq

structure DecisionOption where
  id : String
  label : String
  detail : String := ""
deriving DecidableEq

structure DecisionAnswer where
  optionId : String
  note : String := ""
  answeredAt : String
  answeredBy : String := "owner"
deriving DecidableEq

/-- A `dict[str, str]` of the trail, in its order. -/
abbrev HistoryEntry := List (String × String)

structure OwnerAction where
  id : String
  kind : ActionKind := .action
  title : String
  priority : ActionPriority := .medium
  status : ActionStatus := .open
  why : String := ""
  blocks : List String := []
  dependsOn : List String := []
  steps : List ActionStep := []
  options : List DecisionOption := []
  verify : String := ""
  createdAt : String
  createdBy : String := "claude-code"
  resolvedAt : Option String := none
  answer : Option DecisionAnswer := none
  history : List HistoryEntry := []
deriving DecidableEq

structure Resolution where
  status : ActionStatus := .done
  resolvedAt : String
  answer : Option DecisionAnswer := none
  note : String := ""
deriving DecidableEq

/-- `_SECRET_PATTERNS`. A time has no match in it. -/
structure SecretScan where
  leaks : OwnerAction → Bool
  redact : String → String

/-- `$` matches before a last newline too. -/
def dropNewline (cs : List Char) : List Char := if cs.getLast? = some '\n' then cs.dropLast else cs

def isRefChar (c : Char) : Bool := c.isAlphanum || c = '.' || c = '_' || c = '-'

/-- `OWNER_ACTION_ID_PATTERN`. -/
def isOwnerActionId (s : String) : Bool :=
  match Text.afterList "OA-".toList (dropNewline s.toList) with
  | some (c :: cs) => c.isAlphanum && decide (cs.length ≤ 80) && cs.all isRefChar
  | _ => false

/-- `TICKET_ID_PATTERN`. -/
def isTicketId (s : String) : Bool :=
  match dropNewline s.toList with
  | [] => false
  | c :: cs =>
    match cs.dropWhile Char.isAlphanum with
    | '-' :: rest => c.isAlpha && !rest.isEmpty && rest.all isRefChar
    | _ => false

/-- `_clean_refs`, after the references `cleaned`. -/
def cleanRefs : List String → List String → Option (List String)
  | cleaned, [] => some cleaned
  | cleaned, raw :: raws =>
    let ref := Text.strip raw
    if ref = "" then cleanRefs cleaned raws
    else if !(isTicketId ref || isOwnerActionId ref) then none
    else if ref ∈ cleaned then cleanRefs cleaned raws
    else cleanRefs (cleaned ++ [ref]) raws

def CleanRef (ref : String) : Prop :=
  Text.strip ref = ref ∧ ref ≠ "" ∧ (isTicketId ref || isOwnerActionId ref) = true

theorem cleanRefs_clean {cleaned raws refs : List String} (h : cleanRefs cleaned raws = some refs)
    (hclean : ∀ ref ∈ cleaned, CleanRef ref) (hnodup : cleaned.Nodup) : (∀ ref ∈ refs, CleanRef ref) ∧ refs.Nodup := by
  induction raws generalizing cleaned with
  | nil =>
    cases h
    exact ⟨hclean, hnodup⟩
  | cons raw raws ih =>
    rw [cleanRefs] at h
    split at h
    · exact ih h hclean hnodup
    · rename_i hne
      split at h
      · cases h
      · rename_i hvalid
        split at h
        · exact ih h hclean hnodup
        · rename_i hnew
          refine ih h (fun ref href => ?_) (List.nodup_append.mpr ⟨hnodup, List.nodup_cons.mpr ⟨List.not_mem_nil, List.nodup_nil⟩, ?_⟩)
          · rcases List.mem_append.mp href with href | href
            · exact hclean ref href
            · rw [List.mem_singleton.mp href]
              rw [Bool.not_eq_true', Bool.not_eq_false] at hvalid
              exact ⟨Text.strip_idem raw, hne, hvalid⟩
          · rintro ref href ref' href' rfl
            rw [List.mem_singleton.mp href'] at href
            exact hnew href

theorem cleanRefs_of_clean {cleaned raws : List String} (hclean : ∀ ref ∈ raws, CleanRef ref)
    (hnodup : (cleaned ++ raws).Nodup) : cleanRefs cleaned raws = some (cleaned ++ raws) := by
  induction raws generalizing cleaned with
  | nil => rw [cleanRefs, List.append_nil]
  | cons raw raws ih =>
    obtain ⟨hstrip, hne, hvalid⟩ := hclean raw List.mem_cons_self
    have hnew : raw ∉ cleaned := fun hmem =>
      (List.nodup_append.mp hnodup).2.2 raw hmem raw List.mem_cons_self rfl
    have happend : cleaned ++ raw :: raws = cleaned ++ [raw] ++ raws := by rw [List.append_assoc]; rfl
    rw [cleanRefs, hstrip, if_neg hne, hvalid, if_neg (by decide), if_neg hnew, happend]
    rw [happend] at hnodup
    exact ih (fun ref href => hclean ref (List.mem_cons_of_mem _ href)) hnodup

theorem cleanRefs_idem {raws refs : List String} (h : cleanRefs [] raws = some refs) : cleanRefs [] refs = some refs := by
  obtain ⟨hclean, hnodup⟩ := cleanRefs_clean h (fun _ h => by cases h) List.nodup_nil
  exact cleanRefs_of_clean hclean hnodup

def ActionStep.validate (s : ActionStep) : Option ActionStep :=
  if Text.strip s.text = "" then none
  else some { text := Text.strip s.text, command := (s.command.map Text.strip).filter fun c => decide (c ≠ "") }

theorem ActionStep.validate_idem {s t : ActionStep} (h : s.validate = some t) : t.validate = some t := by
  unfold ActionStep.validate at h
  split at h
  · cases h
  · rename_i hne
    cases h
    unfold ActionStep.validate
    rw [Text.strip_idem, if_neg hne]
    congr 2
    cases s.command with
    | none => rfl
    | some c =>
      rw [Option.map_some, Option.filter_some]
      split
      · rename_i hc
        rw [Option.map_some, Text.strip_idem, Option.filter_some, if_pos hc]
      · rfl

theorem steps_idem {steps steps' : List ActionStep} (h : steps.mapM ActionStep.validate = some steps') :
    steps'.mapM ActionStep.validate = some steps' := by
  induction steps generalizing steps' with
  | nil =>
    cases h
    rfl
  | cons s steps ih =>
    rw [List.mapM_cons] at h
    simp only [Option.bind_eq_bind, Option.bind_eq_some_iff] at h
    obtain ⟨t, ht, rest, hrest, h⟩ := h
    cases h
    rw [List.mapM_cons, ActionStep.validate_idem ht, ih hrest]
    rfl

def DecisionOption.ok (o : DecisionOption) : Bool :=
  decide (o.id ≠ "") && decide (o.id.length ≤ 40) && decide (o.label ≠ "")

namespace OwnerAction

def optionIds (a : OwnerAction) : List String := a.options.map DecisionOption.id

/-- `answer.option_id`, where there is an answer. -/
def option (a : OwnerAction) : Option String := a.answer.map DecisionAnswer.optionId

def isDone (a : OwnerAction) : Bool := decide (a.status = .done)

/-- `_consistent`, less the scan. -/
def consistent (a : OwnerAction) : Bool :=
  decide (a.id ∉ a.dependsOn) &&
    (match a.kind with
      | .decision =>
        decide (2 ≤ a.options.length) && decide a.optionIds.Nodup &&
          a.option.all fun option => decide (option ∈ a.optionIds)
      | .action => a.options.isEmpty && !a.steps.isEmpty) &&
    (a.isDone || a.resolvedAt.isNone)

/-- The validated action, before a missing `resolved_at` is filled in. -/
def accept (scan : SecretScan) (raw : OwnerAction) : Option OwnerAction := do
  let blocks ← cleanRefs [] raw.blocks
  let dependsOn ← cleanRefs [] raw.dependsOn
  let steps ← raw.steps.mapM ActionStep.validate
  let a := { raw with blocks := blocks, dependsOn := dependsOn, steps := steps }
  if isOwnerActionId a.id && decide (3 ≤ a.title.length) && a.options.all DecisionOption.ok &&
      a.option.all (fun option => decide (option ≠ "")) && a.consistent && !scan.leaks a
  then some a else none

def fillResolved (now : String) (a : OwnerAction) : OwnerAction :=
  if a.isDone && a.resolvedAt.isNone then { a with resolvedAt := some now } else a

def validate (scan : SecretScan) (now : String) (raw : OwnerAction) : Option OwnerAction :=
  (raw.accept scan).map (fillResolved now)

/-- The fields that no validation changes, and the owner's answer among them. -/
structure Same (a b : OwnerAction) : Prop where
  id : b.id = a.id
  kind : b.kind = a.kind
  options : b.options = a.options
  status : b.status = a.status
  answer : b.answer = a.answer
  history : b.history = a.history

theorem Same.refl (a : OwnerAction) : Same a a := ⟨rfl, rfl, rfl, rfl, rfl, rfl⟩

theorem Same.trans {a b c : OwnerAction} (h : Same a b) (h' : Same b c) : Same a c :=
  ⟨h'.id.trans h.id, h'.kind.trans h.kind, h'.options.trans h.options, h'.status.trans h.status,
    h'.answer.trans h.answer, h'.history.trans h.history⟩

variable {scan : SecretScan} {now : String} {raw a : OwnerAction}

theorem accept_same (h : raw.accept scan = some a) : Same raw a := by
  unfold accept at h
  simp only [Option.bind_eq_bind, Option.bind_eq_some_iff] at h
  obtain ⟨blocks, _, dependsOn, _, steps, _, h⟩ := h
  split at h
  · cases h
    exact ⟨rfl, rfl, rfl, rfl, rfl, rfl⟩
  · cases h

theorem fillResolved_same (now : String) (a : OwnerAction) : Same a (fillResolved now a) := by
  unfold fillResolved
  split
  · exact ⟨rfl, rfl, rfl, rfl, rfl, rfl⟩
  · exact Same.refl a

theorem validate_same (h : raw.validate scan now = some a) : Same raw a := by
  rw [validate, Option.map_eq_some_iff] at h
  obtain ⟨b, hb, rfl⟩ := h
  exact (accept_same hb).trans (fillResolved_same now b)

theorem accept_fields (h : raw.accept scan = some a) :
    a = { raw with blocks := a.blocks, dependsOn := a.dependsOn, steps := a.steps } ∧
      cleanRefs [] raw.dependsOn = some a.dependsOn ∧ raw.steps.mapM ActionStep.validate = some a.steps := by
  unfold accept at h
  simp only [Option.bind_eq_bind, Option.bind_eq_some_iff] at h
  obtain ⟨blocks, _, dependsOn, hdepends, steps, hsteps, h⟩ := h
  split at h
  · cases h
    exact ⟨rfl, hdepends, hsteps⟩
  · cases h

end OwnerAction

def applyResolution (action : OwnerAction) (resolution : Option Resolution) : OwnerAction :=
  match resolution with
  | none => action
  | some r =>
    if action.isDone || decide (r.status ≠ .done) then action
    else
      match action.kind with
      | .decision =>
        match r.answer with
        | some answer =>
          if answer.optionId ∈ action.optionIds then
            { action with status := .done, resolvedAt := some r.resolvedAt, answer := some answer }
          else action
        | none => action
      | .action => { action with status := .done, resolvedAt := some r.resolvedAt, answer := none }

end OwnerActions
end DarkFactory
