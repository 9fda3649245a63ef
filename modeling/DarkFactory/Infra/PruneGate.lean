import DarkFactory.Infra.VpsCleanup
import DarkFactory.Lib.Calls

/-!
# DarkFactory.Infra.PruneGate

When the prune of `cleanVpsIfNeeded` is issued, over all disk readings and all answers of the API.

* `enumerate` — the services of a payload, nested and top level, known only when every list is one and every service
  names its status.
* `Idle` — they are known, the walk of the code saw exactly these, and none is running.
* `FailsClosed` — a prune is issued only in an emergency or over an idle payload.
* `Documented` — the payloads of the documented shape. On others the walk may see less than there is.
-/

namespace DarkFactory
namespace Infra
namespace VpsCleanup

open Python

structure Service where
  kind : ServiceKind
  fields : List (String × JsonValue)
  status : String
  named : JsonValue.field fields kind.status = some (.str status)

def Service.seen (s : Service) : ServiceKind × JsonValue := (s.kind, .obj s.fields)

def Service.running (s : Service) : Prop := Text.asciiLower s.status = "running"

def ServiceKind.service? (kind : ServiceKind) : JsonValue → Option Service
  | .obj fields =>
    match h : JsonValue.field fields kind.status with
    | some (.str status) => some ⟨kind, fields, status, h⟩
    | _ => none
  | _ => none

def ServiceKind.known (kind : ServiceKind) (container : List (String × JsonValue)) : Option (List Service) :=
  match JsonValue.field container kind.list with
  | some (.arr xs) => xs.mapM kind.service?
  | _ => none

/-- The services of a project that stand beside its environments, where both lists may be missing. -/
def ServiceKind.beside (kind : ServiceKind) (project : List (String × JsonValue)) : Option (List Service) :=
  if JsonValue.field project kind.list |>.isNone then some [] else kind.known project

def containerServices (container : List (String × JsonValue)) : Option (List Service) := do
  let composes ← compose.known container
  let applications ← application.known container
  return composes ++ applications

def besideServices (project : List (String × JsonValue)) : Option (List Service) := do
  let composes ← compose.beside project
  let applications ← application.beside project
  return composes ++ applications

def projectServices : JsonValue → Option (List Service)
  | .obj fields =>
    match JsonValue.field fields "environments" with
    | none | some (.arr []) => containerServices fields
    | some (.arr (env :: envs)) => do
      let nested ← (env :: envs).mapM fun e => (dictOf e).bind containerServices
      let beside ← besideServices fields
      return nested.flatten ++ beside
    | _ => none
  | _ => none

def projectList : JsonValue → Option (List JsonValue)
  | .arr projects => some projects
  | .obj fields =>
    match JsonValue.field fields "data" with
    | some (.arr projects) => some projects
    | _ => none
  | _ => none

def enumerate (payload : JsonValue) : Option (List Service) := do
  let projects ← projectList payload
  let services ← projects.mapM projectServices
  return services.flatten

def kinds : List ServiceKind := [compose, application]

def seenIn (container : List (String × JsonValue)) : List (ServiceKind × JsonValue) :=
  kinds.flatMap fun kind => ((kind.services container).getD []).map fun value => (kind, value)

def seen (payload : JsonValue) : List (ServiceKind × JsonValue) := (iterServiceContainers payload).flatMap seenIn

structure Idle (payload : JsonValue) : Prop where
  services : ∃ services, enumerate payload = some services ∧ seen payload = services.map Service.seen ∧
    ∀ s ∈ services, ¬ s.running

def Destructive (r : Request) : Prop := r.method = "POST" ∧ r.path ∈ SAFE_PRUNE_PATHS

def Input.emergency (input : Input) : Bool :=
  match input.reading.freeGb, input.reading.totalGb with
  | .ok freeGb, .ok totalGb => Double.lt (.fin 0) totalGb && Double.le freeGb EMERGENCY_FREE_GB
  | _, _ => false

/-- The disk is low or a prune is forced, and there is a transport. -/
def Input.wanted (input : Input) : Bool :=
  match input.reading.freeGb, input.reading.totalGb with
  | .ok freeGb, .ok totalGb =>
    ((Double.lt (.fin 0) totalGb && Double.lt freeGb input.threshold) || input.forceImages || input.forceBuilder) &&
      input.access
  | _, _ => false

def FailsClosed (str : JsonValue → String) (input : Input) : Prop :=
  (∃ r ∈ (cleanVpsIfNeeded str input).2, Destructive r) →
    input.emergency = true ∨ ∃ payload, input.replies 0 = .body (.value payload) ∧ Idle payload

def ListOf (p : JsonValue → Prop) (fields : List (String × JsonValue)) (key : String) : Prop :=
  ∃ xs, JsonValue.field fields key = some (.arr xs) ∧ ∀ x ∈ xs, p x

def DocumentedService (kind : ServiceKind) (x : JsonValue) : Prop :=
  ∃ fields status, x = .obj fields ∧ JsonValue.field fields kind.status = some (.str status)

def DocumentedContainer (container : List (String × JsonValue)) : Prop :=
  ∀ kind ∈ kinds, ListOf (DocumentedService kind) container kind.list

/-- A dict that is flat, or has environments and no services beside them. -/
inductive DocumentedProject : JsonValue → Prop where
  | flat (fields : List (String × JsonValue)) (h : DocumentedContainer fields)
      (hflat : JsonValue.field fields "environments" = none ∨ JsonValue.field fields "environments" = some (.arr [])) :
      DocumentedProject (.obj fields)
  | nested (fields : List (String × JsonValue)) (env : JsonValue) (envs : List JsonValue)
      (henvs : JsonValue.field fields "environments" = some (.arr (env :: envs)))
      (h : ∀ e ∈ env :: envs, ∃ container, e = .obj container ∧ DocumentedContainer container)
      (hbeside : ∀ kind ∈ kinds, JsonValue.field fields kind.list = none ∨
        JsonValue.field fields kind.list = some (.arr [])) : DocumentedProject (.obj fields)

structure Documented (payload : JsonValue) : Prop where
  projects : ∃ projects, projectList payload = some projects ∧ ∀ p ∈ projects, DocumentedProject p

/-- All that the walk reads of a payload is dicts, none of them running. -/
structure Quiet (payload : JsonValue) : Prop where
  shape : (∃ xs, payload = .arr xs) ∨ ∃ fields, payload = .obj fields
  services : ∀ container ∈ iterServiceContainers payload, ∀ kind ∈ kinds, ∃ xs, kind.services container = some xs ∧
    ∀ x ∈ xs, ∃ fields, x = .obj fields ∧ isRunning (JsonValue.field fields kind.status) = false

section

variable (str : JsonValue → String)

theorem visit_nil {kind : ServiceKind} {x : JsonValue} : kind.visit str x = some [] ↔
    ∃ fields, x = .obj fields ∧ isRunning (JsonValue.field fields kind.status) = false := by
  unfold ServiceKind.visit
  split
  · rename_i fields
    cases hrunning : isRunning (JsonValue.field fields kind.status) with
    | true => simp [hrunning]
    | false => simp [hrunning]
  · rename_i hne
    constructor
    · nofun
    · rintro ⟨fields, rfl, -⟩
      exact absurd rfl (hne fields)

theorem running_nil {kind : ServiceKind} {container : List (String × JsonValue)} :
    kind.running str container = some [] ↔ ∃ xs, kind.services container = some xs ∧
      ∀ x ∈ xs, ∃ fields, x = .obj fields ∧ isRunning (JsonValue.field fields kind.status) = false := by
  unfold ServiceKind.running
  simp only [Option.bind_eq_bind, Option.pure_def, Option.bind_eq_some_iff, Option.some.injEq]
  refine exists_congr fun xs => and_congr_right fun _ => ?_
  rw [Traverse.traverse_flatten]
  exact forall₂_congr fun x _ => visit_nil str

theorem runningIn_nil {container : List (String × JsonValue)} : runningIn str container = some [] ↔
    ∀ kind ∈ kinds, ∃ xs, kind.services container = some xs ∧
      ∀ x ∈ xs, ∃ fields, x = .obj fields ∧ isRunning (JsonValue.field fields kind.status) = false := by
  simp only [kinds, List.forall_mem_cons, List.not_mem_nil, false_implies, implies_true, and_true, ← running_nil str]
  unfold runningIn
  cases compose.running str container with
  | none => simp
  | some composes =>
    cases application.running str container with
    | none => simp
    | some applications => simp [List.append_eq_nil_iff]

theorem walk_nil {payload : JsonValue} :
    (match (iterServiceContainers payload).mapM (runningIn str) with
      | none => Except.error "not a service"
      | some names => Except.ok names.flatten) = Except.ok [] ↔
    ∀ container ∈ iterServiceContainers payload, ∀ kind ∈ kinds, ∃ xs, kind.services container = some xs ∧
      ∀ x ∈ xs, ∃ fields, x = .obj fields ∧ isRunning (JsonValue.field fields kind.status) = false := by
  rw [← forall₂_congr fun container _ => runningIn_nil str, ← Traverse.traverse_flatten]
  cases (iterServiceContainers payload).mapM (runningIn str) with
  | none => simp
  | some names => simp

theorem findRunning_value {apiKey : String} {payload : JsonValue} :
    findRunningDeployments str apiKey (.body (.value payload)) = .ok [] ↔ Quiet payload := by
  unfold findRunningDeployments transport
  dsimp only
  split
  · exact (walk_nil str).trans ⟨fun h => ⟨Or.inl ⟨_, rfl⟩, h⟩, fun h => h.services⟩
  · exact (walk_nil str).trans ⟨fun h => ⟨Or.inr ⟨_, rfl⟩, h⟩, fun h => h.services⟩
  · rename_i harr hobj
    constructor
    · nofun
    · intro h
      rcases h.shape with ⟨xs, rfl⟩ | ⟨fields, rfl⟩
      · exact absurd rfl (harr xs)
      · exact absurd rfl (hobj fields)

theorem findRunning_nil {apiKey : String} {reply : Reply} :
    findRunningDeployments str apiKey reply = .ok [] ↔
      reply = .body .empty ∨ reply = .body .notJson ∨ ∃ payload, reply = .body (.value payload) ∧ Quiet payload := by
  have hempty : findRunningDeployments str apiKey (.body .empty) = .ok [] := rfl
  cases reply with
  | body b =>
    cases b with
    | empty => simp [hempty]
    | notJson => simp [show findRunningDeployments str apiKey (.body .notJson) = .ok [] from rfl]
    | undecodable error => simp [findRunningDeployments, transport]
    | value payload =>
      rw [findRunning_value]
      simp
  | _ => simp [findRunningDeployments, transport]

theorem runPrune_head (apiKey name path : String) (retries : Nat) (replies : Nat → Reply) :
    ⟨"POST", path⟩ ∈ (runPrune apiKey name path retries replies).requests := by
  unfold runPrune
  split
  · exact List.mem_singleton_self _
  · dsimp only
    split
    · exact List.mem_cons_self
    · exact List.mem_singleton_self _

theorem cleaning_destructive (apiKey : String) (builder : Bool) (replies : Nat → Reply) :
    ∃ r ∈ (cleanVpsDockerCache apiKey builder replies).requests, Destructive r :=
  ⟨⟨"POST", CLEAN_IMAGES⟩, List.mem_append_right _ (runPrune_head _ _ _ _ _), rfl, by decide⟩

theorem check_safe : ¬ Destructive ⟨"GET", "/api/project.all"⟩ := fun h => absurd h.1 (by decide)

theorem gate_prunes {p : Prop} [Decidable p] {skipped report : Report} {requests : List Request}
    (h : ∃ r ∈ requests, Destructive r) :
    (∃ r ∈ (if p then (skipped, [⟨"GET", "/api/project.all"⟩])
      else (report, ⟨"GET", "/api/project.all"⟩ :: requests)).2, Destructive r) ↔ ¬ p := by
  split
  · rename_i hp
    refine ⟨?_, fun hnot => absurd hp hnot⟩
    rintro ⟨r, hr, hdestructive⟩
    cases List.mem_singleton.mp hr
    exact absurd hdestructive check_safe
  · rename_i hp
    obtain ⟨r, hr, hdestructive⟩ := h
    exact ⟨fun _ => hp, fun _ => ⟨r, List.mem_cons_of_mem _ hr, hdestructive⟩⟩

theorem cleanWith_prunes (input : Input) (freeGb totalGb : Double) :
    (∃ r ∈ (cleanWith str input freeGb totalGb).2, Destructive r) ↔
      (((Double.lt (.fin 0) totalGb && Double.lt freeGb input.threshold) || input.forceImages || input.forceBuilder) &&
        input.access) = true ∧
      ((Double.lt (.fin 0) totalGb && Double.le freeGb EMERGENCY_FREE_GB) = true ∨
        findRunningDeployments str input.apiKey (input.replies 0) = .ok []) := by
  unfold cleanWith
  dsimp only
  generalize ((Double.lt (.fin 0) totalGb && Double.lt freeGb input.threshold) || input.forceImages ||
    input.forceBuilder) = wanted
  generalize (Double.lt (.fin 0) totalGb && Double.le freeGb EMERGENCY_FREE_GB) = emergency
  cases wanted with
  | false => simp
  | true =>
    cases input.access with
    | false => simp
    | true =>
      simp only [Bool.not_true, Bool.false_eq_true, if_false, Bool.and_self, true_and]
      have hclean := cleaning_destructive input.apiKey
        ((Double.lt (.fin 0) totalGb && Double.lt freeGb input.threshold) || input.forceBuilder)
        fun n => input.replies (n + 1)
      cases hfind : findRunningDeployments str input.apiKey (input.replies 0) with
      | error text =>
        rw [gate_prunes hclean]
        simp
      | ok running =>
        rw [gate_prunes hclean]
        cases emergency <;> simp

theorem prunes_iff (input : Input) : (∃ r ∈ (cleanVpsIfNeeded str input).2, Destructive r) ↔ input.wanted = true ∧
      (input.emergency = true ∨ findRunningDeployments str input.apiKey (input.replies 0) = .ok []) := by
  unfold cleanVpsIfNeeded Input.wanted Input.emergency
  cases input.reading.freeGb with
  | error text => simp
  | ok freeGb =>
    cases input.reading.totalGb with
    | error text => simp
    | ok totalGb => exact cleanWith_prunes str input freeGb totalGb

end

variable {xs projects : List JsonValue} {kind : ServiceKind} {container : List (String × JsonValue)}
variable {services : List Service} {payload : JsonValue}

theorem fieldOr_arr {fields : List (String × JsonValue)} {key : String}
    (h : JsonValue.field fields key = some (.arr xs)) :
    JsonValue.fieldOr fields key = if xs = [] then none else some (.arr xs) := by
  unfold JsonValue.fieldOr
  rw [h]
  cases xs <;> simp [JsonValue.truthy]

theorem services_arr
    (h : JsonValue.field container kind.list = some (.arr xs)) : kind.services container = some xs := by
  unfold ServiceKind.services
  rw [fieldOr_arr h]
  cases xs <;> rfl

theorem service?_some {x : JsonValue} {s : Service} (h : kind.service? x = some s) :
    s.seen = (kind, x) ∧ DocumentedService kind x := by
  unfold ServiceKind.service? at h
  split at h
  · rename_i fields
    split at h
    · rename_i status hstatus
      cases h
      exact ⟨rfl, fields, status, rfl, hstatus⟩
    · cases h
  · cases h

theorem service?_documented {x : JsonValue} (h : DocumentedService kind x) : ∃ s, kind.service? x = some s := by
  obtain ⟨fields, status, rfl, hstatus⟩ := h
  unfold ServiceKind.service?
  dsimp only
  split
  · exact ⟨_, rfl⟩
  · rename_i hne
    exact absurd hstatus (hne status)

theorem services_seen (h : xs.mapM kind.service? = some services) :
    services.map Service.seen = xs.map (fun x => (kind, x)) ∧ ∀ x ∈ xs, DocumentedService kind x := by
  induction xs generalizing services with
  | nil =>
    rw [List.mapM_nil] at h
    cases h
    exact ⟨rfl, nofun⟩
  | cons x xs ih =>
    obtain ⟨s, rest, hs, hrest, rfl⟩ := Traverse.traverse_cons.mp h
    obtain ⟨hseen, hdocumented⟩ := service?_some hs
    obtain ⟨hseen', hdocumented'⟩ := ih hrest
    rw [List.map_cons, List.map_cons, hseen, hseen', List.forall_mem_cons]
    exact ⟨rfl, hdocumented, hdocumented'⟩

theorem known_some (h : kind.known container = some services) : ListOf (DocumentedService kind) container kind.list ∧
      ((kind.services container).getD []).map (fun x => (kind, x)) = services.map Service.seen := by
  unfold ServiceKind.known at h
  split at h
  · rename_i xs hxs
    obtain ⟨hseen, hdocumented⟩ := services_seen h
    rw [services_arr hxs]
    exact ⟨⟨xs, hxs, hdocumented⟩, hseen.symm⟩
  · cases h

theorem known_documented
    (h : ListOf (DocumentedService kind) container kind.list) : ∃ services, kind.known container = some services := by
  obtain ⟨xs, hxs, hdocumented⟩ := h
  unfold ServiceKind.known
  rw [hxs]
  exact Traverse.traverse_exists.mpr fun x hx => service?_documented (hdocumented x hx)

theorem containerServices_some (h : containerServices container = some services) :
    DocumentedContainer container ∧ seenIn container = services.map Service.seen := by
  unfold containerServices at h
  simp only [Option.bind_eq_bind, Option.pure_def, Option.bind_eq_some_iff, Option.some.injEq] at h
  obtain ⟨composes, hcomposes, applications, happlications, rfl⟩ := h
  obtain ⟨hdocumented, hseen⟩ := known_some hcomposes
  obtain ⟨hdocumented', hseen'⟩ := known_some happlications
  constructor
  · intro kind hkind
    rcases List.mem_cons.mp hkind with rfl | hkind
    · exact hdocumented
    · cases List.mem_singleton.mp hkind
      exact hdocumented'
  · unfold seenIn kinds
    rw [List.flatMap_cons, List.flatMap_singleton, hseen, hseen', List.map_append]

theorem containerServices_documented (h : DocumentedContainer container) :
    ∃ services, containerServices container = some services := by
  obtain ⟨composes, hcomposes⟩ := known_documented (h compose (by decide))
  obtain ⟨applications, happlications⟩ := known_documented (h application (by decide))
  exact ⟨composes ++ applications, by rw [containerServices, hcomposes, happlications]; rfl⟩

theorem beside_some {project : List (String × JsonValue)}
    (h : kind.beside project = some services) : services = [] → JsonValue.field project kind.list = none ∨
      JsonValue.field project kind.list = some (.arr []) := by
  rintro rfl
  unfold ServiceKind.beside at h
  split at h
  · rename_i hnone
    exact Or.inl (Option.isNone_iff_eq_none.mp hnone)
  · unfold ServiceKind.known at h
    split at h
    · rename_i xs hxs
      cases xs with
      | nil => exact Or.inr hxs
      | cons x xs =>
        obtain ⟨_, _, _, _, hnil⟩ := Traverse.traverse_cons.mp h
        cases hnil
    · cases h

theorem beside_none {project : List (String × JsonValue)}
    (h : JsonValue.field project kind.list = none ∨ JsonValue.field project kind.list = some (.arr [])) :
    kind.beside project = some [] := by
  unfold ServiceKind.beside
  rcases h with h | h
  · rw [h]
    rfl
  · rw [h, ServiceKind.known, h]
    rfl

theorem nested_seen {envs : List JsonValue} {nested : List (List Service)}
    (h : envs.mapM (fun e => (dictOf e).bind containerServices) = some nested) :
    (envs.filterMap dictOf).flatMap seenIn = nested.flatten.map Service.seen ∧
      ∀ e ∈ envs, ∃ container, e = .obj container ∧ DocumentedContainer container := by
  induction envs generalizing nested with
  | nil =>
    rw [List.mapM_nil] at h
    cases h
    exact ⟨rfl, nofun⟩
  | cons e envs ih =>
    obtain ⟨services, rest, he, hrest, rfl⟩ := Traverse.traverse_cons.mp h
    obtain ⟨container, hcontainer, hservices⟩ := Option.bind_eq_some_iff.mp he
    obtain ⟨hdocumented, hseen⟩ := containerServices_some hservices
    obtain ⟨hseen', hdocumented'⟩ := ih hrest
    have hobj : e = .obj container := by
      unfold dictOf at hcontainer
      split at hcontainer
      · cases hcontainer
        rfl
      · cases hcontainer
    rw [List.filterMap_cons_some hcontainer, List.flatMap_cons, List.flatten_cons, List.map_append, hseen, hseen',
      List.forall_mem_cons]
    exact ⟨rfl, ⟨container, hobj, hdocumented⟩, hdocumented'⟩

theorem projectServices_some {p : JsonValue} (h : projectServices p = some services) :
    ((containersOf p).flatMap seenIn).length ≤ services.length ∧
      ((containersOf p).flatMap seenIn = services.map Service.seen → DocumentedProject p) := by
  unfold projectServices at h
  split at h
  · rename_i fields
    split at h
    · rename_i hflat
      obtain ⟨hdocumented, hseen⟩ := containerServices_some h
      have hcontainers : containersOf (.obj fields) = [fields] := by simp only [containersOf, dictOf, hflat]
      rw [hcontainers, List.flatMap_singleton, hseen, List.length_map]
      exact ⟨Nat.le_refl _, fun _ => .flat fields hdocumented (Or.inl hflat)⟩
    · rename_i hflat
      obtain ⟨hdocumented, hseen⟩ := containerServices_some h
      have hcontainers : containersOf (.obj fields) = [fields] := by simp only [containersOf, dictOf, hflat]
      rw [hcontainers, List.flatMap_singleton, hseen, List.length_map]
      exact ⟨Nat.le_refl _, fun _ => .flat fields hdocumented (Or.inr hflat)⟩
    · rename_i env envs henvs
      simp only [Option.bind_eq_bind, Option.pure_def, Option.bind_eq_some_iff, Option.some.injEq, besideServices] at h
      obtain ⟨nested, hnested, _, ⟨composes, hcomposes, applications, happlications, rfl⟩, rfl⟩ := h
      obtain ⟨hseen, hdocumented⟩ := nested_seen hnested
      have hcontainers : containersOf (.obj fields) = (env :: envs).filterMap dictOf := by
        simp only [containersOf, dictOf, henvs]
      rw [hcontainers, hseen, List.length_map, List.length_append]
      refine ⟨Nat.le_add_right _ _, ?_⟩
      intro heq
      rw [List.map_append, List.self_eq_append_right, List.map_eq_nil_iff, List.append_eq_nil_iff] at heq
      refine .nested fields env envs henvs hdocumented ?_
      intro kind hkind
      rcases List.mem_cons.mp hkind with rfl | hkind
      · exact beside_some hcomposes heq.1
      · cases List.mem_singleton.mp hkind
        exact beside_some happlications heq.2
    · cases h
  · cases h

theorem projectServices_documented {p : JsonValue} (h : DocumentedProject p) :
    ∃ services, projectServices p = some services ∧ (containersOf p).flatMap seenIn = services.map Service.seen := by
  cases h with
  | flat fields h hflat =>
    obtain ⟨services, hservices⟩ := containerServices_documented h
    have hseen := (containerServices_some hservices).2
    rcases hflat with hflat | hflat
    · exact ⟨services, by simp only [projectServices, hflat, hservices],
        by simp only [containersOf, dictOf, hflat, List.flatMap_singleton, hseen]⟩
    · exact ⟨services, by simp only [projectServices, hflat, hservices],
        by simp only [containersOf, dictOf, hflat, List.flatMap_singleton, hseen]⟩
  | nested fields env envs henvs h hbeside =>
    have hcontainers : containersOf (.obj fields) = (env :: envs).filterMap dictOf := by
      simp only [containersOf, dictOf, henvs]
    obtain ⟨nested, hnested⟩ : ∃ nested, (env :: envs).mapM (fun e => (dictOf e).bind containerServices) = some nested := by
      rw [Traverse.traverse_exists]
      intro e he
      obtain ⟨container, rfl, hdocumented⟩ := h e he
      exact containerServices_documented hdocumented
    have hnone : besideServices fields = some [] := by
      rw [besideServices, beside_none (hbeside compose (by decide)), beside_none (hbeside application (by decide))]
      rfl
    refine ⟨nested.flatten, ?_, ?_⟩
    · simp only [projectServices, henvs, hnested, hnone, Option.bind_eq_bind, Option.bind_some, Option.pure_def,
        List.append_nil]
    · rw [hcontainers]
      exact (nested_seen hnested).1

theorem projects_some {services : List (List Service)} (h : projects.mapM projectServices = some services) :
    ((projects.flatMap containersOf).flatMap seenIn).length ≤ services.flatten.length ∧
      ((projects.flatMap containersOf).flatMap seenIn = services.flatten.map Service.seen →
        ∀ p ∈ projects, DocumentedProject p) := by
  induction projects generalizing services with
  | nil => exact ⟨Nat.zero_le _, fun _ => nofun⟩
  | cons p projects ih =>
    obtain ⟨first, rest, hfirst, hrest, rfl⟩ := Traverse.traverse_cons.mp h
    obtain ⟨hlength, hdocumented⟩ := projectServices_some hfirst
    obtain ⟨hlength', hdocumented'⟩ := ih hrest
    rw [List.flatMap_cons, List.flatMap_append, List.flatten_cons, List.length_append, List.length_append]
    refine ⟨Nat.add_le_add hlength hlength', ?_⟩
    intro heq
    have hlengths := congrArg List.length heq
    simp only [List.length_append, List.length_map] at hlengths
    rw [List.map_append] at heq
    obtain ⟨heq, heq'⟩ := List.append_inj heq (by rw [List.length_map]; omega)
    rw [List.forall_mem_cons]
    exact ⟨hdocumented heq, hdocumented' heq'⟩

theorem projects_documented (h : ∀ p ∈ projects, DocumentedProject p) :
    ∃ services, projects.mapM projectServices = some services ∧
      (projects.flatMap containersOf).flatMap seenIn = services.flatten.map Service.seen := by
  induction projects with
  | nil => exact ⟨[], rfl, rfl⟩
  | cons p projects ih =>
    rw [List.forall_mem_cons] at h
    obtain ⟨first, hfirst, hseen⟩ := projectServices_documented h.1
    obtain ⟨rest, hrest, hseen'⟩ := ih h.2
    refine ⟨first :: rest, Traverse.traverse_cons.mpr ⟨first, rest, hfirst, hrest, rfl⟩, ?_⟩
    rw [List.flatMap_cons, List.flatMap_append, List.flatten_cons, List.map_append, hseen, hseen']

theorem projectsOf_list (h : projectList payload = some projects) : projectsOf payload = projects := by
  unfold projectList at h
  split at h
  · cases h
    rfl
  · split at h
    · rename_i hdata
      cases h
      simp only [projectsOf, hdata]
    · cases h
  · cases h

theorem isRunning_status (s : Service) : isRunning (JsonValue.field s.fields s.kind.status) = true ↔ s.running := by
  rw [s.named]
  exact decide_eq_true_iff

theorem Quiet.not_running (h : Quiet payload) {s : Service} (hs : s.seen ∈ seen payload) : ¬ s.running := by
  obtain ⟨container, hcontainer, hs⟩ := List.mem_flatMap.mp hs
  obtain ⟨kind, hkind, hs⟩ := List.mem_flatMap.mp hs
  obtain ⟨x, hx, heq⟩ := List.mem_map.mp hs
  obtain ⟨xs, hxs, hquiet⟩ := h.services container hcontainer kind hkind
  rw [hxs] at hx
  obtain ⟨fields, rfl, hidle⟩ := hquiet x hx
  cases heq
  rw [← isRunning_status, hidle]
  nofun

theorem Quiet.idle_iff (h : Quiet payload) : Idle payload ↔ Documented payload := by
  constructor
  · rintro ⟨services, henumerate, hseen, -⟩
    unfold enumerate at henumerate
    simp only [Option.bind_eq_bind, Option.pure_def, Option.bind_eq_some_iff, Option.some.injEq] at henumerate
    obtain ⟨projects, hprojects, lists, hlists, rfl⟩ := henumerate
    refine ⟨projects, hprojects, (projects_some hlists).2 ?_⟩
    rw [← hseen, seen, iterServiceContainers, projectsOf_list hprojects]
  · rintro ⟨projects, hprojects, hdocumented⟩
    obtain ⟨lists, hlists, hseen⟩ := projects_documented hdocumented
    have hall : seen payload = lists.flatten.map Service.seen := by
      rw [seen, iterServiceContainers, projectsOf_list hprojects, hseen]
    refine ⟨lists.flatten, ?_, hall, ?_⟩
    · simp only [enumerate, hprojects, hlists, Option.bind_eq_bind, Option.bind_some, Option.pure_def]
    · intro s hs
      exact h.not_running (hall ▸ List.mem_map_of_mem hs)

/-- The gate fails closed exactly if, when a prune is wanted outside an emergency, the API does not answer with an empty
body or one that is no JSON, and a payload in which the walk finds nothing running is of the documented shape. -/
theorem failsClosed_iff (str : JsonValue → String) (input : Input) : FailsClosed str input ↔
    (input.wanted = true → input.emergency = false →
      input.replies 0 ≠ .body .empty ∧ input.replies 0 ≠ .body .notJson ∧
        ∀ payload, input.replies 0 = .body (.value payload) → Quiet payload → Documented payload) := by
  unfold FailsClosed
  rw [prunes_iff, findRunning_nil]
  constructor
  · intro h hwanted hemergency
    have hidle := fun hfind => (h ⟨hwanted, Or.inr hfind⟩).resolve_left (by rw [hemergency]; nofun)
    refine ⟨?_, ?_, ?_⟩
    · intro hempty
      obtain ⟨payload, hpayload, -⟩ := hidle (Or.inl hempty)
      rw [hempty] at hpayload
      cases hpayload
    · intro hnotJson
      obtain ⟨payload, hpayload, -⟩ := hidle (Or.inr (Or.inl hnotJson))
      rw [hnotJson] at hpayload
      cases hpayload
    · intro payload hpayload hquiet
      obtain ⟨payload', hpayload', hidle'⟩ := hidle (Or.inr (Or.inr ⟨payload, hpayload, hquiet⟩))
      rw [hpayload] at hpayload'
      cases hpayload'
      exact hquiet.idle_iff.mp hidle'
  · rintro h ⟨hwanted, hgate⟩
    cases hemergency : input.emergency with
    | true => exact Or.inl rfl
    | false =>
      obtain ⟨hempty, hnotJson, hdocumented⟩ := h hwanted hemergency
      rw [hemergency] at hgate
      rcases hgate.resolve_left nofun with hreply | hreply | ⟨payload, hpayload, hquiet⟩
      · exact absurd hreply hempty
      · exact absurd hreply hnotJson
      · exact Or.inr ⟨payload, hpayload, hquiet.idle_iff.mpr (hdocumented payload hpayload hquiet)⟩

def errorReply : Input where
  probe := .ok ⟨.ok (.fin 5), .ok (.fin 40)⟩
  minFreeGb := some (.fin 8)
  envMinFreeGb := none
  forceImages := false
  forceBuilder := false
  access := true
  apiKey := "key"
  stage := "pre-deploy"
  replies := fun _ => .body (.value (.obj [("message", .str "Unauthorized")]))

/-- Five free gigabytes, and an API that answers with an error object: both prunes are issued. -/
theorem errorReply_prunes : ¬ FailsClosed (fun _ => "") errorReply := by
  intro h
  have hfind : findRunningDeployments (fun _ => "") errorReply.apiKey (errorReply.replies 0) = .ok [] := rfl
  rcases h ((prunes_iff _ errorReply).mpr ⟨by decide +kernel, Or.inr hfind⟩) with hemergency | ⟨payload, hpayload, hidle⟩
  · exact absurd hemergency (by decide +kernel)
  · cases hpayload
    obtain ⟨services, henumerate, -⟩ := hidle
    have hnone : enumerate (.obj [("message", .str "Unauthorized")]) = none := rfl
    rw [hnone] at henumerate
    cases henumerate

end VpsCleanup
end Infra
end DarkFactory
