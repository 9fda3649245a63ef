import DarkFactory.Lib.Earliest
import DarkFactory.Lib.Runs
import DarkFactory.Workflow.Messages

/-!
# DarkFactory.Workflow.ExecutionRecords

What the rows of one execution say of it when they are read back.

* `Kept` — every publication is made in the context that `start` saved, or in none.
-/

namespace DarkFactory
namespace Workflow
namespace Executions

open Runs Earliest

variable {m : Machine} {executionId : String} {a : Start} {began : DateTime}

structure Kept (m : Machine) (a : Start) (began : DateTime) (r : Registry) : Prop where
  file : ∀ c, r.context = some c → c = a.context m began
  own : ∀ p ∈ r.publications, p.context = a.context m began ∨ p.context = unknownContext
  started : ∃ p ∈ r.publications, p.context = a.context m began

variable {r : Registry}

theorem Kept.loadContext (h : Kept m a began r) (files : Files) :
    r.loadContext files = a.context m began ∨ r.loadContext files = unknownContext := by
  unfold Registry.loadContext
  split
  · cases hcontext : r.context with
    | none => exact .inr rfl
    | some c => exact .inl (h.file c hcontext)
  · exact .inr rfl

theorem Kept.publish (h : Kept m a began r) {p : Publication}
    (hp : p.context = a.context m began ∨ p.context = unknownContext) : Kept m a began (r.publish p) where
  file := h.file
  own := by
    intro q hq
    rcases List.mem_append.mp hq with hq | hq
    · exact h.own q hq
    · rw [List.mem_singleton.mp hq]
      exact hp
  started := by
    obtain ⟨q, hq, hcontext⟩ := h.started
    exact ⟨q, List.mem_append_left _ hq, hcontext⟩

theorem kept_start (saved : Bool) : Kept m a began (Registry.start m a began saved) where
  file := by
    intro c hc
    unfold Registry.start Registry.publish at hc
    dsimp only at hc
    split at hc
    · cases hc
      rfl
    · cases hc
  own := by
    intro p hp
    rw [List.mem_singleton.mp hp]
    exact .inl rfl
  started := ⟨_, List.mem_singleton_self _, rfl⟩

theorem kept_finish (h : Kept m a began r) (now : DateTime) (status evidence : String) (files : Files) :
    Kept m a began (r.finish now status evidence files) := by
  have hpublished := h.publish (p := { context := r.loadContext files, kind := .finish
                                       status := (normalizeStatus status).value, time := now, evidence })
    (h.loadContext files)
  refine ⟨?_, hpublished.own, hpublished.started⟩
  intro c hc
  unfold Registry.finish at hc
  dsimp only at hc
  split at hc
  · cases hc
  · exact hpublished.file c hc

theorem kept_call (r : Registry) (c : Call) (h : Kept m a began r) : Kept m a began (Registry.call m r c) := by
  cases c with
  | heartbeat now files closing =>
    unfold Registry.call Registry.heartbeat
    dsimp only
    split
    · exact kept_finish h now _ _ closing
    · exact h.publish (h.loadContext files)
  | finish now status evidence files => exact kept_finish h now status evidence files

theorem kept_after (saved : Bool) (calls : List Call) : Kept m a began (Registry.after m a began saved calls) :=
  run_invariant kept_call (kept_start saved) calls

theorem mem_call (c : Call) {p : Publication} (h : p ∈ r.publications) :
    p ∈ (Registry.call m r c).publications := by
  cases c with
  | heartbeat now files closing =>
    unfold Registry.call Registry.heartbeat
    dsimp only
    split
    · exact List.mem_append_left _ h
    · exact List.mem_append_left _ h
  | finish now status evidence files => exact List.mem_append_left _ h

theorem mem_calls (calls : List Call) {p : Publication} (h : p ∈ r.publications) :
    p ∈ (run (Registry.call m) r calls).publications :=
  run_invariant (I := fun r : Registry => p ∈ r.publications) (fun _ c hp => mem_call c hp) h calls

/-- What `finish` publishes. -/
def Finishes (now : DateTime) (status : String) (p : Publication) : Prop :=
  p.kind = .finish ∧ p.time = now ∧ p.status = (normalizeStatus status).value

theorem mem_finish (r : Registry) (now : DateTime) (status evidence : String) (files : Files) :
    ∃ p ∈ (r.finish now status evidence files).publications, Finishes now status p := by
  refine ⟨_, List.mem_append_right _ (List.mem_singleton_self _), ?_⟩
  simp only [Finishes, and_self]

/-- Every `finish` publishes its status, normalised. -/
theorem finish_published {saved : Bool} {calls : List Call} {now : DateTime} {status evidence : String} {files : Files}
    (h : Call.finish now status evidence files ∈ calls) :
    ∃ p ∈ (Registry.after m a began saved calls).publications, Finishes now status p := by
  obtain ⟨pre, rest, rfl⟩ := List.append_of_mem h
  have hrun : Registry.after m a began saved (pre ++ .finish now status evidence files :: rest) =
      run (Registry.call m) ((Registry.after m a began saved pre).finish now status evidence files) rest := by
    unfold Registry.after
    rw [List.foldl_append]
    rfl
  obtain ⟨p, hp, hfinishes⟩ := mem_finish (Registry.after m a began saved pre) now status evidence files
  rw [hrun]
  exact ⟨p, mem_calls rest hp, hfinishes⟩

structure Items (m : Machine) (executionId : String) (pubs : List Publication) (items : List Event) : Prop where
  sorted : items.Pairwise fun e e' => instant e.time ≤ instant e'.time
  mem : ∀ e, e ∈ items ↔ ∃ p ∈ pubs, p.event m executionId = e
  distinct : (pubs.map fun p => instant p.time).Nodup

def First (pubs : List Publication) (p : Publication) : Prop := p ∈ pubs ∧ ∀ q ∈ pubs, instant p.time ≤ instant q.time

def Last (pubs : List Publication) (p : Publication) : Prop := p ∈ pubs ∧ ∀ q ∈ pubs, instant q.time ≤ instant p.time

theorem eq_of_instant {pubs : List Publication} (hdistinct : (pubs.map fun p => instant p.time).Nodup) {p q : Publication}
    (hp : p ∈ pubs) (hq : q ∈ pubs) (h : instant p.time = instant q.time) : p = q :=
  List.inj_on_of_nodup_map hdistinct hp hq h

theorem Last.unique {pubs : List Publication} (hdistinct : (pubs.map fun p => instant p.time).Nodup) {p q : Publication}
    (hp : Last pubs p) (hq : Last pubs q) : p = q :=
  eq_of_instant hdistinct hp.1 hq.1 (le_antisymm (hq.2 p hp.1) (hp.2 q hq.1))

theorem First.unique {pubs : List Publication} (hdistinct : (pubs.map fun p => instant p.time).Nodup) {p q : Publication}
    (hp : First pubs p) (hq : First pubs q) : p = q :=
  eq_of_instant hdistinct hp.1 hq.1 (le_antisymm (hp.2 q hq.1) (hq.2 p hp.1))

variable {pubs : List Publication} {items : List Event}

theorem Items.keys (h : Items m executionId pubs items) : Distinct (fun e : Event => instant e.time) items := by
  intro e he e' he' hsame
  obtain ⟨p, hp, rfl⟩ := (h.mem e).mp he
  obtain ⟨q, hq, rfl⟩ := (h.mem e').mp he'
  rw [eq_of_instant h.distinct hp hq hsame]

theorem Items.head (h : Items m executionId pubs items) (hne : pubs ≠ []) :
    ∃ p, First pubs p ∧ items.head? = some (p.event m executionId) := by
  obtain ⟨q, hq⟩ := List.exists_mem_of_ne_nil pubs hne
  have hsome : items.head?.isSome := by
    rw [List.isSome_head?]
    exact List.ne_nil_of_mem ((h.mem _).mpr ⟨q, hq, rfl⟩)
  obtain ⟨e, he⟩ := Option.isSome_iff_exists.mp hsome
  have hfind := he
  rw [head?_eq_find?, find?_sorted h.sorted h.keys] at hfind
  obtain ⟨hmem, _, hleast⟩ := hfind
  obtain ⟨p, hp, rfl⟩ := (h.mem e).mp hmem
  exact ⟨p, ⟨hp, fun q hq => hleast _ ((h.mem _).mpr ⟨q, hq, rfl⟩) rfl⟩, he⟩

theorem Items.last (h : Items m executionId pubs items) (hne : pubs ≠ []) :
    ∃ p, Last pubs p ∧ items.getLast? = some (p.event m executionId) := by
  obtain ⟨q, hq⟩ := List.exists_mem_of_ne_nil pubs hne
  have hsome : items.getLast?.isSome := by
    rw [List.getLast?_isSome]
    exact List.ne_nil_of_mem ((h.mem _).mpr ⟨q, hq, rfl⟩)
  obtain ⟨e, he⟩ := Option.isSome_iff_exists.mp hsome
  have hfind := he
  rw [getLast?_eq_find?, findLast?_sorted h.sorted h.keys] at hfind
  obtain ⟨hmem, _, hgreatest⟩ := hfind
  obtain ⟨p, hp, rfl⟩ := (h.mem e).mp hmem
  exact ⟨p, ⟨hp, fun q hq => hgreatest _ ((h.mem _).mpr ⟨q, hq, rfl⟩) rfl⟩, he⟩

theorem Items.recordOf_congr {items' : List Event} (h : Items m executionId pubs items)
    (h' : Items m executionId pubs items') (now : DateTime) (lostAfterSeconds window : Int) (id : String) :
    recordOf items now lostAfterSeconds window id = recordOf items' now lostAfterSeconds window id := by
  have hmem : ∀ e, e ∈ items ↔ e ∈ items' := fun e => (h.mem e).trans (h'.mem e).symm
  have hfirst : ∀ p, items.find? p = items'.find? p := find?_sorted_congr h.sorted h'.sorted h.keys hmem
  have hlast : ∀ p, items.reverse.find? p = items'.reverse.find? p :=
    findLast?_sorted_congr h.sorted h'.sorted h.keys hmem
  unfold recordOf startMetadata stateOf
  simp only [head?_eq_find?, getLast?_eq_find?, List.find?_map, hfirst, hlast]

def Carried (m : Machine) (context : Context) (pubs : List Publication) : Prop :=
  ∃ p ∈ pubs, p.context = context ∧ p.fits m

/-- Every publication was made in the context of the start, or in none. -/
def Own (context : Context) (pubs : List Publication) : Prop :=
  ∀ p ∈ pubs, p.context = context ∨ p.context = unknownContext

theorem isoformat_ne (d : DateTime) : d.isoformat ≠ "" := by
  intro h
  have hlist := congrArg String.toList h
  unfold DateTime.isoformat at hlist
  simp at hlist

theorem startTime_ne : value (a.metadata began) "t0" ≠ "" := isoformat_ne began

theorem key_t0 : OwnKey "t0" := by unfold OwnKey; decide

theorem Items.startMetadata_carried (h : Items m executionId pubs items) (hown : Own (a.context m began) pubs)
    (hcarried : Carried m (a.context m began) pubs) (last : Event) {key : String} (hkey : OwnKey key) :
    value (startMetadata items last) key = value (a.metadata began) key := by
  have hsome : ((items.map metadataOf).find? fun body => decide (value body "t0" ≠ "")).isSome := by
    obtain ⟨p, hp, hcontext, hfits⟩ := hcarried
    rw [List.find?_isSome]
    refine ⟨_, List.mem_map_of_mem ((h.mem _).mpr ⟨p, hp, rfl⟩), ?_⟩
    rw [decide_eq_true_eq, value_metadataOf key_t0, if_pos hfits, hcontext]
    exact startTime_ne
  obtain ⟨body, hbody⟩ := Option.isSome_iff_exists.mp hsome
  unfold startMetadata
  rw [hbody, Option.getD_some]
  obtain ⟨e, he, rfl⟩ := List.mem_map.mp (List.mem_of_find?_eq_some hbody)
  obtain ⟨p, hp, rfl⟩ := (h.mem e).mp he
  have htime := List.find?_some hbody
  rw [decide_eq_true_eq, value_metadataOf key_t0] at htime
  rw [value_metadataOf hkey]
  by_cases hfits : p.fits m
  · rw [if_pos hfits] at htime ⊢
    rcases hown p hp with hcontext | hcontext
    · rw [hcontext]
      rfl
    · rw [hcontext] at htime
      exact absurd rfl htime
  · rw [if_neg hfits] at htime
    exact absurd rfl htime

theorem Items.startMetadata_lost (h : Items m executionId pubs items) (hown : Own (a.context m began) pubs)
    (hlost : ¬ Carried m (a.context m began) pubs) {p : Publication} (hp : p ∈ pubs) {key : String} (hkey : OwnKey key) :
    value (startMetadata items (p.event m executionId)) key =
      if p.context = a.context m began then "" else value unknownContext.metadata key := by
  have hnone : (items.map metadataOf).find? (fun body => decide (value body "t0" ≠ "")) = none := by
    rw [List.find?_eq_none]
    intro body hbody
    obtain ⟨e, he, rfl⟩ := List.mem_map.mp hbody
    obtain ⟨q, hq, rfl⟩ := (h.mem e).mp he
    rw [decide_eq_true_eq, not_not, value_metadataOf key_t0]
    split
    · rename_i hfits
      rcases hown q hq with hcontext | hcontext
      · exact absurd ⟨q, hq, hcontext, hfits⟩ hlost
      · rw [hcontext]
        rfl
    · rfl
  unfold startMetadata
  rw [hnone, Option.getD_none, value_metadataOf hkey]
  split
  · rename_i hfits
    rw [if_neg fun hcontext => hlost ⟨p, hp, hcontext, hfits⟩]
    rcases hown p hp with hcontext | hcontext
    · exact absurd ⟨p, hp, hcontext, hfits⟩ hlost
    · rw [hcontext]
  · rename_i hlong
    rcases hown p hp with hcontext | hcontext
    · rw [if_pos hcontext]
    · exact absurd (unknown_fits hcontext) hlong

/-- The ticket given to `start`, as far as there is one. -/
def Start.ticket (a : Start) : Option String := (orNone (cut 64 (a.ticketId.getD ""))).filter fun t => decide (t ≠ "-")

def Start.shownSource (a : Start) : String := cut 40 (orElse a.source "unknown")

def Start.shownStage (a : Start) : String := cut 40 (orElse a.stage "unknown")

def Start.parent (a : Start) : Option String := orNone (cut 160 (a.parentExecutionId.getD ""))

def Start.shownModel (a : Start) : Option String := orNone (cut 60 (a.model.getD ""))

/-- The record has what was given to `start`, and the state of the last `finish` or of the time since the last event. -/
structure RoundTrip (a : Start) (calls : List Call) (pubs : List Publication) (now : DateTime) (lostAfterSeconds : Int)
    (r : ExecutionRecord) : Prop where
  source : r.source = a.shownSource
  stage : r.stage = a.shownStage
  ticket : r.ticketId = a.ticket
  parent : r.parentExecutionId = a.parent
  model : r.model = a.shownModel
  finished : ∀ p ∈ pubs, p.kind = .finish → (∀ q ∈ pubs, q.kind = .finish → instant q.time ≤ instant p.time) →
    r.state = .final (normalizeStatus p.status)
  finishedBy : ∀ t status evidence files, Call.finish t status evidence files ∈ calls →
    (∀ q ∈ pubs, q.kind = .finish → instant q.time ≤ instant t) → r.state = .final (normalizeStatus status)
  unfinished : (∀ p ∈ pubs, p.kind ≠ .finish) → ∀ p, Last pubs p →
    r.state = if lostAfterSeconds * DateTime.second < instant now - instant p.time then .lost else .active

/-- The defaults of a row that cannot be read happen to be what was given to `start`. -/
structure Guessed (a : Start) (context : Context) (pubs : List Publication) : Prop where
  source : a.shownSource = "unknown"
  stage : a.shownStage = "unknown"
  parent : a.parent = none
  model : a.shownModel = none
  ticket : a.ticket = none ∨ ∀ p, First pubs p ∨ Last pubs p → p.context = context

theorem cut_ne {n : Nat} (hn : 0 < n) {s : String} (h : s ≠ "") : cut n s ≠ "" := by
  intro hcut
  have hlist := congrArg String.toList hcut
  rw [cut_toList, String.toList_empty, List.take_eq_nil_iff] at hlist
  rcases hlist with hzero | hnil
  · omega
  · exact h (String.toList_eq_nil_iff.mp hnil)

theorem orElse_ne {s d : String} (hd : d ≠ "") : orElse s d ≠ "" := by
  unfold orElse
  split
  · exact hd
  · assumption

theorem orElse_of_ne {s d : String} (h : s ≠ "") : orElse s d = s := if_neg h

theorem shown_ne (s : String) : cut 40 (orElse s "unknown") ≠ "" := cut_ne (by decide) (orElse_ne (by decide))

/-- What `start` writes under `k`. -/
theorem ticketKey (a : Start) :
    (orNone (cut 64 (orElse (a.ticketId.getD "") "-"))).filter (fun t => decide (t ≠ "-")) = a.ticket := by
  unfold Start.ticket orElse
  split
  · rename_i hempty
    rw [hempty]
    decide
  · rfl

theorem metadata_k (a : Start) (began : DateTime) :
    value (a.metadata began) "k" = cut 64 (orElse (a.ticketId.getD "") "-") := rfl

theorem k_ne (a : Start) (began : DateTime) : value (a.metadata began) "k" ≠ "" :=
  cut_ne (by decide) (orElse_ne (by decide))

theorem cut_cut (n : Nat) (s : String) : cut n (cut n s) = cut n s := by
  unfold cut
  rw [String.toList_ofList, List.take_take, Nat.min_self]

theorem own_keys : OwnKey "s" ∧ OwnKey "g" ∧ OwnKey "k" ∧ OwnKey "p" ∧ OwnKey "m" := by
  unfold OwnKey
  decide

theorem event_ticketId (p : Publication) :
    (p.event m executionId).ticketId = cut 64 (orElse (value p.context.metadata "k") "-") := by
  have hkey : value p.metadata "k" = value p.context.metadata "k" := value_append (by decide)
  rw [← hkey]
  rfl

theorem ticketOf_carried {metadata : Json.Body} (hk : value metadata "k" = value (a.metadata began) "k") (first : Event) :
    ticketOf metadata first = a.ticket := by
  unfold ticketOf
  rw [hk, orElse_of_ne (k_ne a began), metadata_k, ticketKey]

theorem Items.ticketOf_lost (h : Items m executionId pubs items) (hown : Own (a.context m began) pubs)
    (hlost : ¬ Carried m (a.context m began) pubs) {p q : Publication} (hp : p ∈ pubs) (hq : q ∈ pubs) :
    ticketOf (startMetadata items (q.event m executionId)) (p.event m executionId) =
      if q.context = a.context m began ∧ p.context = a.context m began then a.ticket else none := by
  unfold ticketOf
  rw [h.startMetadata_lost hown hlost hq own_keys.2.2.1, event_ticketId]
  by_cases hlast : q.context = a.context m began
  · rw [if_pos hlast]
    have hfallback : ∀ s, orElse "" s = s := fun s => rfl
    rw [hfallback]
    rcases hown p hp with hfirst | hfirst
    · have hkey : value p.context.metadata "k" = value (a.metadata began) "k" := by rw [hfirst]; rfl
      rw [if_pos ⟨hlast, hfirst⟩, hkey, orElse_of_ne (k_ne a began), metadata_k, cut_cut, ticketKey]
    · have hdash : cut 64 (orElse (value p.context.metadata "k") "-") = "-" := by rw [hfirst]; rfl
      rw [hdash]
      split
      · rename_i hboth
        -- the file-less context is not the one of the start, which has a time
        have hsame := hboth.2.symm.trans hfirst
        have htime : value (a.metadata began) "t0" ≠ "" := startTime_ne
        have hmetadata : a.metadata began = unknownContext.metadata := congrArg Context.metadata hsame
        rw [hmetadata] at htime
        exact absurd rfl htime
      · rfl
  · rw [if_neg hlast, if_neg fun hboth => hlast hboth.1]
    rfl

variable {now : DateTime} {lostAfterSeconds window : Int} {id : String} {first last : Event}

theorem recordOf_isSome (hfirst : items.head? = some first) (hlast : items.getLast? = some last) :
    (recordOf items now lostAfterSeconds window id).isSome ↔ instant now - window ≤ instant last.time := by
  unfold recordOf
  rw [hfirst, hlast]
  dsimp only
  split
  · rename_i hold
    simp only [Option.isSome_none, Bool.false_eq_true, false_iff]
    omega
  · rename_i hrecent
    simp only [Option.isSome_some, true_iff]
    omega

theorem recordOf_id {r : ExecutionRecord} (h : recordOf items now lostAfterSeconds window id = some r) :
    r.executionId = id := by
  unfold recordOf at h
  split at h
  · split at h
    · cases h
    · cases h
      rfl
  · cases h

theorem recordOf_fields (hfirst : items.head? = some first) (hlast : items.getLast? = some last) {r : ExecutionRecord}
    (h : recordOf items now lostAfterSeconds window id = some r) :
    r.source = orElse (value (startMetadata items last) "s") "unknown" ∧
    r.stage = orElse (value (startMetadata items last) "g") "unknown" ∧
    r.ticketId = ticketOf (startMetadata items last) first ∧
    r.parentExecutionId = orNone (value (startMetadata items last) "p") ∧
    r.model = orNone (value (startMetadata items last) "m") ∧
    r.state = stateOf items now lostAfterSeconds last := by
  unfold recordOf at h
  rw [hfirst, hlast] at h
  dsimp only at h
  split at h
  · cases h
  · cases h
    exact ⟨rfl, rfl, rfl, rfl, rfl, rfl⟩

theorem finish_value {k : Kind} : k.value = Kind.finish.value ↔ k = .finish := by
  cases k <;> decide

theorem normalizeStatus_value (s : FinalStatus) : normalizeStatus s.value = s := by
  cases s <;> decide +kernel

theorem Items.stateOf_finished (h : Items m executionId pubs items) (last : Event) {p : Publication} (hp : p ∈ pubs)
    (hkind : p.kind = .finish) (hgreatest : ∀ q ∈ pubs, q.kind = .finish → instant q.time ≤ instant p.time) :
    stateOf items now lostAfterSeconds last = .final (normalizeStatus p.status) := by
  have hfind : (items.reverse.find? fun e => decide (e.causeCode = Kind.finish.value)) = some (p.event m executionId) := by
    rw [findLast?_sorted h.sorted h.keys]
    refine ⟨(h.mem _).mpr ⟨p, hp, rfl⟩, decide_eq_true (finish_value.mpr hkind), fun e he hend => ?_⟩
    obtain ⟨q, hq, rfl⟩ := (h.mem e).mp he
    exact hgreatest q hq (finish_value.mp (of_decide_eq_true hend))
  unfold stateOf
  rw [hfind]
  rfl

theorem Items.stateOf_unfinished (h : Items m executionId pubs items) (hnone : ∀ p ∈ pubs, p.kind ≠ .finish)
    (last : Event) : stateOf items now lostAfterSeconds last =
      if lostAfterSeconds * DateTime.second < instant now - instant last.time then .lost else .active := by
  have hfind : (items.reverse.find? fun e => decide (e.causeCode = Kind.finish.value)) = none := by
    rw [List.find?_eq_none]
    intro e he
    obtain ⟨q, hq, rfl⟩ := (h.mem e).mp (List.mem_reverse.mp he)
    rw [decide_eq_true_eq]
    exact fun hend => hnone q hq (finish_value.mp hend)
  unfold stateOf
  rw [hfind]

theorem runIds_append (rows : List Event) (e : Event) :
    runIds (rows ++ [e]) = if e.runId ∈ runIds rows then runIds rows else runIds rows ++ [e.runId] := by
  unfold runIds
  rw [List.foldl_append]
  rfl

theorem mem_runIds {rows : List Event} : id ∈ runIds rows ↔ ∃ e ∈ rows, e.runId = id := by
  induction rows using List.reverseRecOn with
  | nil => simp [runIds]
  | append_singleton rows e ih =>
    rw [runIds_append]
    simp only [List.mem_append, List.mem_singleton, or_and_right, exists_or, exists_eq_left, ← ih]
    split
    · rename_i hmem
      constructor
      · exact .inl
      · rintro (h | rfl)
        · exact h
        · exact hmem
    · rw [List.mem_append, List.mem_singleton, eq_comm (a := id)]

theorem runIds_nodup (rows : List Event) : (runIds rows).Nodup := by
  induction rows using List.reverseRecOn with
  | nil => exact List.nodup_nil
  | append_singleton rows e ih =>
    rw [runIds_append]
    split
    · exact ih
    · rename_i hnew
      exact List.nodup_append.mpr ⟨ih, List.nodup_singleton _, by
        rintro x hx _ hy rfl
        exact hnew (List.mem_singleton.mp hy ▸ hx)⟩

theorem filter_records {ids : List String} (hnodup : ids.Nodup) {f : String → Option ExecutionRecord}
    (hf : ∀ id r, f id = some r → r.executionId = id) {id : String} (hid : id ∈ ids) :
    (ids.filterMap f).filter (fun r => decide (r.executionId = id)) = (f id).toList := by
  have hother : ∀ ids : List String, id ∉ ids →
      (ids.filterMap f).filter (fun r => decide (r.executionId = id)) = [] := by
    intro ids hnot
    rw [List.filter_eq_nil_iff]
    intro r hr
    obtain ⟨id', hid', hr⟩ := List.mem_filterMap.mp hr
    rw [decide_eq_true_eq, hf id' r hr]
    rintro rfl
    exact hnot hid'
  induction ids with
  | nil => cases hid
  | cons x ids ih =>
    obtain ⟨hx, hrest⟩ := List.nodup_cons.mp hnodup
    rw [List.filterMap_cons]
    by_cases hsame : x = id
    · subst hsame
      have hnil := hother ids hx
      cases hfx : f x with
      | none => exact hnil
      | some r =>
        dsimp only
        rw [List.filter_cons, if_pos (decide_eq_true (hf x r hfx)), hnil]
        rfl
    · have hids : id ∈ ids := (List.mem_cons.mp hid).resolve_left (Ne.symm hsame)
      cases hfx : f x with
      | none => exact ih hrest hids
      | some r =>
        dsimp only
        rw [List.filter_cons_of_neg, ih hrest hids]
        rw [decide_eq_true_eq, hf x r hfx]
        exact hsame

theorem filter_sorted_records {κ : Type} [LinearOrder κ] (key : ExecutionRecord → κ) {ids : List String}
    (hnodup : ids.Nodup) {f : String → Option ExecutionRecord} (hf : ∀ id r, f id = some r → r.executionId = id)
    {id : String} (hid : id ∈ ids) :
    (sortDesc key (ids.filterMap f)).filter (fun r => decide (r.executionId = id)) = (f id).toList := by
  have hperm := (List.perm_insertionSort (fun r r' => key r' ≤ key r) (ids.filterMap f)).filter
    fun r => decide (r.executionId = id)
  rw [filter_records hnodup hf hid] at hperm
  cases hrecord : f id with
  | none =>
    rw [hrecord] at hperm
    exact List.perm_nil.mp hperm
  | some r =>
    rw [hrecord] at hperm
    exact List.perm_singleton.mp hperm

def reported (stored : List Event) (now : DateTime) (lostAfterSeconds window : Int) (executionId : String) :
    List ExecutionRecord :=
  (foldExecutions stored now lostAfterSeconds window).filter fun r => decide (r.executionId = cut 160 executionId)

def Stored (m : Machine) (executionId : String) (pubs : List Publication) (stored : List Event) : Prop :=
  ∀ e : Event, e.runId = cut 160 executionId → (e ∈ stored ↔ ∃ p ∈ pubs, p.event m executionId = e)

def storedItems (stored : List Event) (executionId : String) : List Event :=
  itemsOf (stored.filter fun e => decide (e.phase = execPhase) && decide (e.runId ≠ "")) (cut 160 executionId)

theorem Stored.toItems {stored : List Event} (h : Stored m executionId pubs stored) (hid : executionId ≠ "")
    (hdistinct : (pubs.map fun p => instant p.time).Nodup) :
    Items m executionId pubs (storedItems stored executionId) where
  sorted := sortAsc_pairwise _ _
  distinct := hdistinct
  mem := by
    intro e
    unfold storedItems itemsOf
    rw [(sortAsc_perm _ _).mem_iff, List.mem_filter, List.mem_filter, Bool.and_eq_true, decide_eq_true_eq,
      decide_eq_true_eq, decide_eq_true_eq]
    constructor
    · rintro ⟨⟨hmem, _⟩, hrun⟩
      exact (h e hrun).mp hmem
    · rintro ⟨p, hp, rfl⟩
      exact ⟨⟨(h _ rfl).mpr ⟨p, hp, rfl⟩, rfl, cut_ne (by decide) hid⟩, rfl⟩

theorem reported_eq {stored : List Event} (h : Stored m executionId pubs stored) (hid : executionId ≠ "")
    (hne : pubs ≠ []) (now : DateTime) (lostAfterSeconds window : Int) :
    reported stored now lostAfterSeconds window executionId =
      (recordOf (storedItems stored executionId) now lostAfterSeconds window (cut 160 executionId)).toList := by
  obtain ⟨p, hp⟩ := List.exists_mem_of_ne_nil pubs hne
  unfold reported foldExecutions storedItems
  dsimp only
  have hmem : cut 160 executionId ∈
      runIds (stored.filter fun e => decide (e.phase = execPhase) && decide (e.runId ≠ "")) := by
    rw [mem_runIds]
    refine ⟨p.event m executionId, ?_, rfl⟩
    rw [List.mem_filter, Bool.and_eq_true, decide_eq_true_eq, decide_eq_true_eq]
    exact ⟨(h _ rfl).mpr ⟨p, hp, rfl⟩, rfl, cut_ne (by decide) hid⟩
  exact filter_sorted_records _ (runIds_nodup _) (fun id r hr => recordOf_id hr) hmem

theorem Items.roundTrip (h : Items m executionId pubs items) (hkept : Own (a.context m began) pubs)
    {first last : Publication} (hfirst : First pubs first) (hlast : Last pubs last)
    (hhead : items.head? = some (first.event m executionId)) (hgetLast : items.getLast? = some (last.event m executionId))
    {calls : List Call}
    (hcalls : ∀ t status evidence files, Call.finish t status evidence files ∈ calls → ∃ p ∈ pubs, Finishes t status p)
    {r : ExecutionRecord} (hr : recordOf items now lostAfterSeconds window id = some r) :
    RoundTrip a calls pubs now lostAfterSeconds r ↔
      Carried m (a.context m began) pubs ∨ Guessed a (a.context m began) pubs := by
  obtain ⟨hsource, hstage, hticket, hparent, hmodel, hstate⟩ := recordOf_fields hhead hgetLast hr
  obtain ⟨keyS, keyG, keyK, keyP, keyM⟩ := own_keys
  -- the state does not depend on the metadata
  have hfinished : ∀ p ∈ pubs, p.kind = .finish → (∀ q ∈ pubs, q.kind = .finish → instant q.time ≤ instant p.time) →
      r.state = .final (normalizeStatus p.status) := by
    intro p hp hkind hgreatest
    rw [hstate, h.stateOf_finished _ hp hkind hgreatest]
  have hfinishedBy : ∀ t status evidence files, Call.finish t status evidence files ∈ calls →
      (∀ q ∈ pubs, q.kind = .finish → instant q.time ≤ instant t) → r.state = .final (normalizeStatus status) := by
    intro t status evidence files hcall hgreatest
    obtain ⟨p, hp, hkind, htime, hstatus⟩ := hcalls t status evidence files hcall
    rw [hfinished p hp hkind (by rw [htime]; exact hgreatest), hstatus, normalizeStatus_value]
  have hunfinished : (∀ p ∈ pubs, p.kind ≠ .finish) → ∀ p, Last pubs p →
      r.state = if lostAfterSeconds * DateTime.second < instant now - instant p.time then .lost else .active := by
    intro hnone p hp
    rw [hstate, h.stateOf_unfinished hnone, hp.unique h.distinct hlast]
    rfl
  by_cases hcarried : Carried m (a.context m began) pubs
  · refine iff_of_true ⟨?_, ?_, ?_, ?_, ?_, hfinished, hfinishedBy, hunfinished⟩ (.inl hcarried)
    · rw [hsource, h.startMetadata_carried hkept hcarried _ keyS]
      exact orElse_of_ne (shown_ne _)
    · rw [hstage, h.startMetadata_carried hkept hcarried _ keyG]
      exact orElse_of_ne (shown_ne _)
    · rw [hticket, ticketOf_carried (h.startMetadata_carried hkept hcarried _ keyK)]
    · rw [hparent, h.startMetadata_carried hkept hcarried _ keyP]
      rfl
    · rw [hmodel, h.startMetadata_carried hkept hcarried _ keyM]
      rfl
  · have hlost : ∀ {key : String}, OwnKey key → value (startMetadata items (last.event m executionId)) key =
        if last.context = a.context m began then "" else value unknownContext.metadata key :=
      fun hkey => h.startMetadata_lost hkept hcarried hlast.1 hkey
    have hticketLost := h.ticketOf_lost hkept hcarried hfirst.1 hlast.1
    have hsource : r.source = "unknown" := by
      rw [hsource, hlost keyS]
      split <;> rfl
    have hstage : r.stage = "unknown" := by
      rw [hstage, hlost keyG]
      split <;> rfl
    have hparent : r.parentExecutionId = none := by
      rw [hparent, hlost keyP]
      split <;> rfl
    have hmodel : r.model = none := by
      rw [hmodel, hlost keyM]
      split <;> rfl
    constructor
    · intro hround
      refine .inr ⟨hround.source.symm.trans hsource, hround.stage.symm.trans hstage, hround.parent.symm.trans hparent,
        hround.model.symm.trans hmodel, ?_⟩
      by_cases hboth : last.context = a.context m began ∧ first.context = a.context m began
      · refine .inr ?_
        rintro p (hp | hp)
        · rw [hp.unique h.distinct hfirst]
          exact hboth.2
        · rw [hp.unique h.distinct hlast]
          exact hboth.1
      · rw [if_neg hboth] at hticketLost
        exact .inl (hround.ticket.symm.trans (hticket.trans hticketLost))
    · rintro (hcarried' | hguessed)
      · exact absurd hcarried' hcarried
      · refine ⟨hsource.trans hguessed.source.symm, hstage.trans hguessed.stage.symm, ?_,
          hparent.trans hguessed.parent.symm, hmodel.trans hguessed.model.symm, hfinished, hfinishedBy, hunfinished⟩
        rw [hticket, hticketLost]
        rcases hguessed.ticket with hnone | hboth
        · rw [hnone]
          split <;> rfl
        · rw [if_pos ⟨hboth last (.inr hlast), hboth first (.inl hfirst)⟩]

def published (m : Machine) (a : Start) (began : DateTime) (saved : Bool) (calls : List Call) : List Publication :=
  (Registry.after m a began saved calls).publications

theorem published_ne_nil (m : Machine) (a : Start) (began : DateTime) (saved : Bool) (calls : List Call) :
    published m a began saved calls ≠ [] := by
  have hkept : Kept m a began (Registry.after m a began saved calls) := kept_after saved calls
  obtain ⟨p, hp, _⟩ := hkept.started
  exact List.ne_nil_of_mem hp

theorem reported_roundTrip {saved : Bool} {calls : List Call} (hid : executionId ≠ "")
    (hdistinct : ((published m a began saved calls).map fun p => instant p.time).Nodup) {stored : List Event}
    (hstored : Stored m executionId (published m a began saved calls) stored) :
    (∃ r, reported stored now lostAfterSeconds window executionId = [r] ∧
        RoundTrip a calls (published m a began saved calls) now lostAfterSeconds r) ↔
    (∀ p, Last (published m a began saved calls) p → instant now - window ≤ instant p.time) ∧
      (Carried m (a.context m began) (published m a began saved calls) ∨
        Guessed a (a.context m began) (published m a began saved calls)) := by
  have hkept : Kept m a began (Registry.after m a began saved calls) := kept_after saved calls
  have hne := published_ne_nil m a began saved calls
  have hitems := hstored.toItems hid hdistinct
  obtain ⟨first, hfirst, hhead⟩ := hitems.head hne
  obtain ⟨last, hlast, hgetLast⟩ := hitems.last hne
  have hrecent : (recordOf (storedItems stored executionId) now lostAfterSeconds window (cut 160 executionId)).isSome ↔
      ∀ p, Last (published m a began saved calls) p → instant now - window ≤ instant p.time := by
    rw [recordOf_isSome hhead hgetLast]
    constructor
    · intro hle p hp
      rw [hp.unique hdistinct hlast]
      exact hle
    · intro h
      exact h last hlast
  have hround : ∀ r, recordOf (storedItems stored executionId) now lostAfterSeconds window (cut 160 executionId) = some r →
      (RoundTrip a calls (published m a began saved calls) now lostAfterSeconds r ↔
        Carried m (a.context m began) (published m a began saved calls) ∨
          Guessed a (a.context m began) (published m a began saved calls)) :=
    fun r hr => hitems.roundTrip hkept.own hfirst hlast hhead hgetLast
      (fun _ _ _ _ hcall => finish_published hcall) hr
  rw [reported_eq hstored hid hne, ← hrecent]
  cases hr : recordOf (storedItems stored executionId) now lostAfterSeconds window (cut 160 executionId) with
  | none => simp
  | some r => simp [hround r hr]

/-- The rows of an execution give back what was registered, in whatever order they are, when its metadata has room in
one of the messages, or when nothing was given that a default does not show. -/
theorem executions_round_trip (m : Machine) (executionId : String) (hid : executionId ≠ "") (a : Start)
    (began : DateTime) (saved : Bool) (calls : List Call)
    (hdistinct : ((published m a began saved calls).map fun p => instant p.time).Nodup) (stored : List Event)
    (hstored : Stored m executionId (published m a began saved calls) stored) (now : DateTime)
    (lostAfterSeconds window : Int) :
    ((∃ r, reported stored now lostAfterSeconds window executionId = [r] ∧
        RoundTrip a calls (published m a began saved calls) now lostAfterSeconds r) ∧
      ∀ stored', Stored m executionId (published m a began saved calls) stored' →
        reported stored' now lostAfterSeconds window executionId =
          reported stored now lostAfterSeconds window executionId) ↔
    (∀ p, Last (published m a began saved calls) p → instant now - window ≤ instant p.time) ∧
      (Carried m (a.context m began) (published m a began saved calls) ∨
        Guessed a (a.context m began) (published m a began saved calls)) := by
  have hne := published_ne_nil m a began saved calls
  have horder : ∀ stored', Stored m executionId (published m a began saved calls) stored' →
      reported stored' now lostAfterSeconds window executionId = reported stored now lostAfterSeconds window executionId := by
    intro stored' hstored'
    rw [reported_eq hstored' hid hne, reported_eq hstored hid hne,
      (hstored'.toItems hid hdistinct).recordOf_congr (hstored.toItems hid hdistinct)]
  rw [and_iff_left horder]
  exact reported_roundTrip hid hdistinct hstored

def bareMachine : Machine := ⟨fun text => text, "host", fun _ => false⟩

def noon : DateTime := ⟨63000000000000000, some 0⟩

def shortStart : Start where
  source := "line"
  harness := none
  stage := "ticket"
  ticketId := some "USR-1"

def shortCalls : List Call := [.finish (noon.addSeconds 5) "ok" "" {}]

def shortRows : List Event :=
  let rows := (published bareMachine shortStart noon true shortCalls).map (Publication.event bareMachine "exec-1")
  rows.reverse ++ rows

theorem executions_round_trip_short :
    (∃ r, reported shortRows noon 180 604800000000 "exec-1" = [r] ∧
      RoundTrip shortStart shortCalls (published bareMachine shortStart noon true shortCalls) noon 180 r) := by
  have hstored : Stored bareMachine "exec-1" (published bareMachine shortStart noon true shortCalls) shortRows := by
    intro e _
    unfold shortRows
    simp only [List.mem_append, List.mem_reverse, or_self, List.mem_map]
  refine ((executions_round_trip bareMachine "exec-1" (by decide) shortStart noon true shortCalls (by decide +kernel)
    shortRows hstored noon 180 604800000000).mpr ⟨?_, .inl ?_⟩).1
  · intro p hp
    have hpast : ∀ q ∈ published bareMachine shortStart noon true shortCalls,
        instant noon - 604800000000 ≤ instant q.time := by
      decide +kernel
    exact hpast p hp.1
  · refine ⟨_, List.mem_cons_self, rfl, ?_⟩
    decide +kernel

def filled (c : Char) (n : Nat) : String := String.ofList (List.replicate n c)

/-- Every text as long as `start` keeps it. -/
def longStart : Start where
  source := filled 's' 40
  harness := none
  stage := filled 'g' 40
  ticketId := some (filled 'k' 64)
  parentExecutionId := some (filled 'p' 160)
  model := some (filled 'm' 60)

def longPublication : Publication where
  context := longStart.context bareMachine noon
  kind := .start
  status := "running"
  time := noon

theorem published_long : published bareMachine longStart noon true [] = [longPublication] := rfl

theorem length_filled (c : Char) (n : Nat) : (filled c n).length = n := by simp [filled]

theorem cut_filled (c : Char) (n : Nat) : cut n (filled c n) = filled c n :=
  cut_of_length (length_filled c n).le

theorem orElse_filled (c : Char) (n : Nat) (d : String) : orElse (filled c (n + 1)) d = filled c (n + 1) := by
  refine orElse_of_ne fun hempty => ?_
  have hlength := length_filled c (n + 1)
  rw [hempty] at hlength
  cases hlength

theorem shownSource_long : longStart.shownSource = filled 's' 40 := by
  unfold Start.shownSource longStart
  dsimp only
  rw [orElse_filled, cut_filled]

theorem metadata_long : longPublication.metadata =
    [("s", filled 's' 40), ("g", filled 'g' 40), ("k", filled 'k' 64), ("p", filled 'p' 160), ("m", filled 'm' 60),
      ("t0", noon.isoformat), ("x", "start")] := by
  unfold Publication.metadata longPublication Start.context Start.metadata longStart
  simp only [Option.getD_some, orElse_filled, cut_filled]
  rfl

theorem text_long : longPublication.text bareMachine = "" := by
  unfold Publication.text longPublication bareMachine
  dsimp only
  unfold flat
  rw [String.toList_ofList]
  rfl

theorem size_of_fits {p : Publication} (htext : p.text m = "") (hfits : p.fits m) :
    Json.size p.metadata + 1 ≤ 380 := by
  unfold Publication.fits Fits bodyAt messageBudget at hfits
  rwa [htext, if_pos rfl, Json.length_dumps (metadata_ne_nil p)] at hfits

theorem length_member_filled (key : String) (c : Char) (n : Nat) :
    n + 5 ≤ (Json.member (key, filled c n)).length := by
  have h := Json.length_member key (filled c n)
  rw [length_filled] at h
  omega

-- said of any lengths, so that none is computed
theorem no_room {s g k p m rest : Nat} (hs : 40 + 5 ≤ s) (hg : 40 + 5 ≤ g) (hk : 64 + 5 ≤ k) (hp : 160 + 5 ≤ p)
    (hm : 60 + 5 ≤ m) : ¬ s + 1 + (g + 1 + (k + 1 + (p + 1 + (m + 1 + rest)))) + 1 ≤ 380 := by
  omega

theorem long_not_fits : ¬ longPublication.fits bareMachine := by
  intro hfits
  have hroom := size_of_fits text_long hfits
  rw [metadata_long, Json.size_cons, Json.size_cons, Json.size_cons, Json.size_cons, Json.size_cons] at hroom
  exact no_room (length_member_filled "s" 's' 40) (length_member_filled "g" 'g' 40) (length_member_filled "k" 'k' 64)
    (length_member_filled "p" 'p' 160) (length_member_filled "m" 'm' 60) hroom

/-- The message of an execution with texts as long as `start` keeps them is cut, and cannot be read. -/
theorem metadata_cut :
    Stored bareMachine "exec-1" (published bareMachine longStart noon true [])
      [longPublication.event bareMachine "exec-1"] ∧
    ¬ ∃ r, reported [longPublication.event bareMachine "exec-1"] noon 180 604800000000 "exec-1" = [r] ∧
      RoundTrip longStart [] (published bareMachine longStart noon true []) noon 180 r := by
  have hstored : Stored bareMachine "exec-1" (published bareMachine longStart noon true [])
      [longPublication.event bareMachine "exec-1"] := by
    intro e _
    rw [published_long]
    simp [eq_comm]
  refine ⟨hstored, ?_⟩
  rw [reported_roundTrip (by decide) (by decide) hstored, published_long]
  rintro ⟨_, hcarried | hguessed⟩
  · obtain ⟨p, hp, _, hfits⟩ := hcarried
    rw [List.mem_singleton.mp hp] at hfits
    exact long_not_fits hfits
  · have hsource := hguessed.source
    rw [shownSource_long] at hsource
    have hlength := congrArg String.length hsource
    rw [length_filled] at hlength
    exact absurd hlength (by decide)

end Executions
end Workflow
end DarkFactory
