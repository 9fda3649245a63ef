import DarkFactory.Lib.Calls
import DarkFactory.Line.FleetDispatcher
import Mathlib.Data.List.Dedup

/-!
# DarkFactory.Line.DispatchCycle

What one cycle of the dispatcher does to hosts and tickets.

* `CycleLaw` — one job on a host, one host for a ticket, only executable tickets are launched, and no free host stays
  idle while a ticket of the queue would have been admitted there.
* `Turned` — what the turn of a host may be; every proof about the loop goes by its cases.
* `TurnOk` — the condition on a turn: a host that is turned away would have been refused the rest of the queue too,
  and a launched row is the one that was selected.
-/

namespace DarkFactory
namespace Line
namespace FleetDispatcher

def loopStart (cfg : DispatcherConfig) (w : Cycle) (d : Dispatcher) : Option (Round × Dispatching) :=
  (beforeDispatch cfg w d).2.2

def turns (cfg : DispatcherConfig) (w : Cycle) (r : Round) (s : Dispatching) : List (Move Dispatching HostSpec) :=
  Runs.moves (turn cfg w r) s (hostsInOrder cfg)

def admits (w : Cycle) (r : Round) (host : HostSpec) (tid : String) : Bool :=
  (demandOf r.demands tid).any fun demand =>
    decide (admission false (w.store host (w.query host tid demand)) = .admitted)

structure ProbedFree (w : Cycle) (r : Round) (s : Dispatching) (host : HostSpec) : Prop where
  unblocked : r.awaitingProof = false
  idle : inFlightOn s.inFlight host.id = false
  owned : w.orphanHosts.contains host.id = false
  queued : s.queue ≠ []
  free : (w.probe host).free = true

structure Executable (w : Cycle) (r : Round) (s : Dispatching) (tid : String) (row : Demand) : Prop where
  planned : row.status = some "planned"
  untagged : ∀ t ∈ row.tags, t ∉ EXCLUDED_TAGS
  dependencies : ∀ x ∈ row.dependencies, ∃ c ∈ r.demands, c.status = some "completed" ∧ c.id = some x
  idle : tid ∉ s.inFlight.map InFlight.ticketId ∧ tid ∉ w.busyIds ∧ tid ∉ w.resumptions.filterMap Resumption.ticket
  cooled : tid ∉ s.cooldown.map Prod.fst

/-- No host that was free in its turn and has no job now would be given a ticket of this queue. -/
def Conserving (w : Cycle) (r : Round) (m : Move Dispatching HostSpec) (s : Dispatching) : Prop :=
  ProbedFree w r m.pre m.act → s.recovery = false → inFlightOn s.inFlight m.act.id = false →
    ∀ tid ∈ s.queue, admits w r m.act tid = false

structure LoopLaw (cfg : DispatcherConfig) (w : Cycle) (r : Round) (s : Dispatching) : Prop where
  launched : ∀ m ∈ turns cfg w r s, ∀ tid, m.post.dispatched = m.pre.dispatched ++ [⟨tid, m.act.id, false⟩] →
    ∃ row, demandOf r.demands tid = some row ∧ Executable w r m.pre tid row
  conserving : cfg.dryRun = false → ∀ m ∈ turns cfg w r s, Conserving w r m m.post
  atEnd : cfg.dryRun = false → ∀ m ∈ turns cfg w r s, Conserving w r m (dispatchHosts cfg w r s)

/-- No two jobs have one host, and none have one ticket. -/
def Exclusive (jobs : List InFlight) : Prop :=
  Lookup.Unique InFlight.hostId jobs ∧ Lookup.Unique InFlight.ticketId jobs

structure CycleLaw (cfg : DispatcherConfig) (w : Cycle) (d : Dispatcher) : Prop where
  exclusive : Exclusive d.inFlight → Exclusive (runCycle cfg w d).2.inFlight
  loop : ∀ r s, loopStart cfg w d = some (r, s) → LoopLaw cfg w r s

structure Served (w : Cycle) (r : Round) (s : Dispatching) (host : HostSpec) (tid : String) (rest : List String)
    (demand : Demand) : Prop where
  unblocked : r.awaitingProof = false
  idle : inFlightOn s.inFlight host.id = false
  owned : w.orphanHosts.contains host.id = false
  queue : s.queue = tid :: rest
  free : (w.probe host).free = true
  single : (s.recovery && !s.dispatched.isEmpty) = false
  demand : demandOf r.demands tid = some demand

/-- The first row with the id is one that `select_tickets` takes, and no earlier turn has had the ticket. -/
def SelectedOnce (r : Round) (s : Dispatching) (tid : String) (demand : Demand) : Prop :=
  demand.status = some "planned" ∧ (∃ done, completedIds r.demands = some done ∧ skipReason done [] [] demand = none) ∧
    tid ∉ s.dispatched.map Dispatched.ticket ∧ tid ∉ s.cooldown.map Prod.fst

def TurnOk (cfg : DispatcherConfig) (w : Cycle) (r : Round) (s : Dispatching) (host : HostSpec) : Prop :=
  cfg.dryRun = false → ∀ tid rest demand, Served w r s host tid rest demand →
    match admission s.recovery (w.store host (w.query host tid demand)), w.launch host demand with
    | .admitted, .started _ => SelectedOnce r s tid demand
    | .admitted, .failed _ latches =>
      s.recovery = false → latches = false → ∀ tid' ∈ rest, admits w r host tid' = false
    | _, _ => s.recovery = false → ∀ tid' ∈ rest, admits w r host tid' = false

inductive Turned (cfg : DispatcherConfig) (w : Cycle) (r : Round) (s : Dispatching) (host : HostSpec) :
    Dispatching → Prop
  /-- The host has no turn: it is not free, or there is nothing for it. -/
  | passed (idle : List (String × String)) (h : ¬ ProbedFree w r s host ∨ s.recovery = true) :
    Turned cfg w r s host { s with idle := idle }
  | vanished (tid : String) (rest : List String) (idle skipped : List (String × String))
      (hq : s.queue = tid :: rest) (h : demandOf r.demands tid = none) :
    Turned cfg w r s host { s with queue := rest, idle := idle, skipped := skipped }
  | dry (tid : String) (rest : List String) (hq : s.queue = tid :: rest) (h : cfg.dryRun = true) :
    Turned cfg w r s host { s with queue := rest, dispatched := s.dispatched ++ [⟨tid, host.id, true⟩] }
  | launched (tid : String) (rest : List String) (demand : Demand) (runId : String) (hdry : cfg.dryRun = false)
      (h : Served w r s host tid rest demand)
      (ha : admission s.recovery (w.store host (w.query host tid demand)) = .admitted)
      (hl : w.launch host demand = .started runId) :
    Turned cfg w r s host
      { s with
        queue := rest
        inFlight := s.inFlight ++ [⟨tid, host.id, some runId⟩]
        dispatched := s.dispatched ++ [⟨tid, host.id, false⟩] }
  | broken (tid : String) (rest : List String) (demand : Demand) (error : String) (latches : Bool)
      (idle : List (String × String)) (hdry : cfg.dryRun = false) (h : Served w r s host tid rest demand)
      (ha : admission s.recovery (w.store host (w.query host tid demand)) = .admitted)
      (hl : w.launch host demand = .failed error latches) :
    Turned cfg w r s host
      { s with
        queue := rest
        cooldown := cool s.cooldown tid (w.now + cfg.requeueCooldownSec)
        recovery := s.recovery || latches
        idle := idle }
  | refused (tid : String) (rest : List String) (demand : Demand) (idle skipped : List (String × String))
      (hdry : cfg.dryRun = false) (h : Served w r s host tid rest demand)
      (ha : admission s.recovery (w.store host (w.query host tid demand)) ≠ .admitted) :
    Turned cfg w r s host { s with idle := idle, skipped := skipped }

variable {cfg : DispatcherConfig} {w : Cycle} {r : Round} {s : Dispatching} {host : HostSpec}

variable {jobs : List InFlight} {tid : String} {rest : List String} {demand : Demand} {s₀ s' : Dispatching}
variable {demands : List Demand}

theorem put_job {job : InFlight} (h : inFlightOn jobs job.hostId = false) :
    Lookup.put InFlight.hostId jobs job = jobs ++ [job] := by
  refine Lookup.put_new fun j hj hkey => ?_
  rw [inFlightOn, List.any_eq_false] at h
  exact h j hj (decide_eq_true hkey)

theorem dispatchTicket_turned (h : Served w r s host tid rest demand) :
    Turned cfg w r s host (dispatchTicket cfg w host tid demand { s with queue := rest }) := by
  unfold dispatchTicket
  split
  · rename_i hdry
    exact .dry tid rest h.queue hdry
  · rename_i hdry
    have hdry := Bool.not_eq_true _ ▸ hdry
    split
    · rename_i ha
      split
      · rename_i runId hl
        simp only
        rw [put_job h.idle]
        exact .launched tid rest demand runId hdry h ha hl
      · rename_i error latches hl
        exact .broken tid rest demand error latches _ hdry h ha hl
    · rename_i ha
      simp only
      rw [← h.queue]
      exact .refused tid rest demand _ _ hdry h ha

theorem turn_turned : Turned cfg w r s host (turn cfg w r s host) := by
  unfold turn
  split
  · rename_i h
    exact .passed _ (.inl fun hf => by rw [hf.unblocked] at h; cases h)
  · rename_i hblocked
    split
    · rename_i h
      exact .passed s.idle (.inl fun hf => by rw [hf.idle] at h; cases h)
    · rename_i hidle
      split
      · rename_i h
        exact .passed _ (.inl fun hf => by rw [hf.owned] at h; cases h)
      · rename_i howned
        split
        · rename_i hq
          exact .passed _ (.inl fun hf => hf.queued hq)
        · rename_i tid rest hq
          split
          · rename_i h
            exact .passed _ (.inl fun hf => by rw [hf.free] at h; cases h)
          · rename_i hfree
            split
            · rename_i h
              exact .passed _ (.inr (Bool.and_eq_true _ _ ▸ h).1)
            · rename_i hsingle
              split
              · rename_i hd
                exact .vanished tid rest _ _ hq hd
              · rename_i demand hd
                refine dispatchTicket_turned ⟨?_, ?_, ?_, hq, ?_, ?_, hd⟩
                · exact Bool.not_eq_true _ ▸ hblocked
                · exact Bool.not_eq_true _ ▸ hidle
                · exact Bool.not_eq_true _ ▸ howned
                · cases hp : (w.probe host).free with
                  | true => rfl
                  | false => rw [hp] at hfree; exact absurd rfl hfree
                · exact Bool.not_eq_true _ ▸ hsingle

theorem turn_served (h : Served w r s host tid rest demand) :
    turn cfg w r s host = dispatchTicket cfg w host tid demand { s with queue := rest } := by
  unfold turn
  rw [if_neg (by rw [h.unblocked]; exact Bool.false_ne_true), if_neg (by rw [h.idle]; exact Bool.false_ne_true),
    if_neg (by rw [h.owned]; exact Bool.false_ne_true), h.queue]
  dsimp only
  rw [if_neg (by rw [h.free]; exact Bool.false_ne_true), if_neg (by rw [h.single]; exact Bool.false_ne_true), h.demand]

structure Start (w : Cycle) (r : Round) (s : Dispatching) : Prop where
  fresh : ∀ tid ∈ s.queue, tid ∉ s.inFlight.map InFlight.ticketId ∧ tid ∉ w.busyIds ∧
    tid ∉ w.resumptions.filterMap Resumption.ticket
  rows : ∀ tid ∈ s.queue, ∃ row, demandOf r.demands tid = some row
  done : ∃ done, completedIds r.demands = some done
  empty : s.dispatched = []

structure Progress (cfg : DispatcherConfig) (s₀ s : Dispatching) : Prop where
  queue : ∀ tid ∈ s.queue, tid ∈ s₀.queue
  jobs : ∀ j ∈ s.inFlight, j ∈ s₀.inFlight ∨ j.ticketId ∈ s.dispatched.map Dispatched.ticket
  flying : cfg.dryRun = false → ∀ x ∈ s.dispatched, x.ticket ∈ s.inFlight.map InFlight.ticketId

theorem Progress.start (h : Start w r s) : Progress cfg s s where
  queue _ h := h
  jobs _ h := .inl h
  flying _ x hx := by
    rw [h.empty] at hx
    cases hx

theorem Progress.turned (h : Progress cfg s₀ s) (ht : Turned cfg w r s host s') : Progress cfg s₀ s' := by
  cases ht with
  | passed => exact ⟨h.queue, h.jobs, h.flying⟩
  | vanished tid rest _ _ hq =>
    exact ⟨fun t ht => h.queue t (hq ▸ List.mem_cons_of_mem _ ht), h.jobs, h.flying⟩
  | dry tid rest hq hdry =>
    refine ⟨fun t ht => h.queue t (hq ▸ List.mem_cons_of_mem _ ht), fun j hj => ?_, fun hd => ?_⟩
    · rw [List.map_append]
      exact (h.jobs j hj).imp_right (List.mem_append_left _)
    · rw [hdry] at hd
      cases hd
  | launched tid rest demand runId hdry hserved =>
    refine ⟨fun t ht => h.queue t (hserved.queue ▸ List.mem_cons_of_mem _ ht), fun j hj => ?_, fun hd x hx => ?_⟩
    · rw [List.map_append]
      rcases List.mem_append.mp hj with hj | hj
      · exact (h.jobs j hj).imp_right (List.mem_append_left _)
      · rw [List.mem_singleton.mp hj]
        exact .inr (List.mem_append_right _ (List.mem_singleton_self tid))
    · rw [List.map_append]
      rcases List.mem_append.mp hx with hx | hx
      · exact List.mem_append_left _ (h.flying hd x hx)
      · rw [List.mem_singleton.mp hx]
        exact List.mem_append_right _ (List.mem_singleton_self tid)
  | broken tid rest demand _ _ _ _ hserved =>
    exact ⟨fun t ht => h.queue t (hserved.queue ▸ List.mem_cons_of_mem _ ht), h.jobs, h.flying⟩
  | refused => exact ⟨h.queue, h.jobs, h.flying⟩

/-- Hosts keep their jobs, recovery stays on, and the queue only gets shorter. -/
structure Later (s s' : Dispatching) : Prop where
  queue : ∀ tid ∈ s'.queue, tid ∈ s.queue
  jobs : ∀ id, inFlightOn s.inFlight id = true → inFlightOn s'.inFlight id = true
  recovery : s.recovery = true → s'.recovery = true

theorem Later.refl (s : Dispatching) : Later s s := ⟨fun _ h => h, fun _ h => h, fun h => h⟩

theorem Later.trans {s'' : Dispatching} (h : Later s s') (h' : Later s' s'') : Later s s'' :=
  ⟨fun tid ht => h.queue tid (h'.queue tid ht), fun id hj => h'.jobs id (h.jobs id hj),
    fun hr => h'.recovery (h.recovery hr)⟩

theorem Turned.later (ht : Turned cfg w r s host s') : Later s s' := by
  cases ht with
  | passed => exact ⟨fun _ h => h, fun _ h => h, fun h => h⟩
  | vanished tid rest _ _ hq => exact ⟨fun t ht => hq ▸ List.mem_cons_of_mem _ ht, fun _ h => h, fun h => h⟩
  | dry tid rest hq => exact ⟨fun t ht => hq ▸ List.mem_cons_of_mem _ ht, fun _ h => h, fun h => h⟩
  | launched tid rest demand runId _ hserved =>
    refine ⟨fun t ht => hserved.queue ▸ List.mem_cons_of_mem _ ht, fun id hj => ?_, fun h => h⟩
    simp only [inFlightOn, List.any_append, Bool.or_eq_true] at hj ⊢
    exact .inl hj
  | broken tid rest demand _ _ _ _ hserved =>
    refine ⟨fun t ht => hserved.queue ▸ List.mem_cons_of_mem _ ht, fun _ h => h, fun h => ?_⟩
    simp only [h, Bool.true_or]
  | refused => exact ⟨fun _ h => h, fun _ h => h, fun h => h⟩

theorem turns_later {m : Move Dispatching HostSpec} (hm : m ∈ turns cfg w r s) :
    Later m.post (dispatchHosts cfg w r s) := by
  obtain ⟨before, after, hacts, hpre, hpost⟩ := Runs.mem_moves hm
  have hend : dispatchHosts cfg w r s = Runs.run (turn cfg w r) m.post after := by
    rw [dispatchHosts, hacts, Runs.run_append, ← hpre, Runs.run_cons, ← hpost]
  rw [hend]
  exact Runs.run_rel (I := fun _ => True) Later.refl Later.trans (fun _ _ h => h)
    (fun _ _ _ => turn_turned.later) trivial after

theorem mem_excludedTags {d : Demand} : excludedTags d = [] ↔ ∀ t ∈ d.tags, t ∉ EXCLUDED_TAGS := by
  have hmem : ∀ t, t ∈ excludedTags d ↔ t ∈ d.tags ∧ t ∈ EXCLUDED_TAGS := by
    intro t
    rw [excludedTags, (sortAsc_perm _ _).mem_iff, List.mem_filter, List.mem_dedup, List.contains_iff_mem]
  rw [List.eq_nil_iff_forall_not_mem]
  constructor
  · exact fun h t ht hex => h t ((hmem t).mpr ⟨ht, hex⟩)
  · exact fun h t ht => h t ((hmem t).mp ht).1 ((hmem t).mp ht).2

theorem skipReason_eq_none {done busyIds cooldownIds : List String} {d : Demand} :
    skipReason done busyIds cooldownIds d = none ↔ (∀ t ∈ d.tags, t ∉ EXCLUDED_TAGS) ∧ d.ticketId ∉ busyIds ∧
      d.ticketId ∉ cooldownIds ∧ ∀ x ∈ d.dependencies, x ∈ done := by
  unfold skipReason
  by_cases htags : excludedTags d = []
  · rw [if_neg (not_not.mpr htags)]
    by_cases hbusy : busyIds.contains d.ticketId = true
    · rw [if_pos hbusy]
      simp only [reduceCtorEq, false_iff]
      exact fun h => h.2.1 (List.contains_iff_mem.mp hbusy)
    · rw [if_neg hbusy]
      by_cases hcool : cooldownIds.contains d.ticketId = true
      · rw [if_pos hcool]
        simp only [reduceCtorEq, false_iff]
        exact fun h => h.2.2.1 (List.contains_iff_mem.mp hcool)
      · rw [if_neg hcool]
        rw [List.contains_iff_mem] at hbusy hcool
        by_cases hdeps : (d.dependencies.any fun x => !done.contains x) = true
        · rw [if_pos hdeps]
          simp only [reduceCtorEq, false_iff]
          obtain ⟨x, hx, hnot⟩ := List.any_eq_true.mp hdeps
          intro h
          rw [List.contains_iff_mem.mpr (h.2.2.2 x hx)] at hnot
          cases hnot
        · rw [if_neg hdeps]
          rw [Bool.not_eq_true, List.any_eq_false] at hdeps
          refine iff_of_true rfl ⟨mem_excludedTags.mp htags, hbusy, hcool, fun x hx => ?_⟩
          have hx' := hdeps x hx
          rw [Bool.not_eq_true', Bool.not_eq_false] at hx'
          exact List.contains_iff_mem.mp hx'
  · rw [if_pos htags]
    simp only [reduceCtorEq, false_iff]
    exact fun h => htags (mem_excludedTags.mpr h.1)

theorem mem_completedIds {done : List String} (h : completedIds demands = some done)
    {x : String} : x ∈ done ↔ ∃ c ∈ demands, c.status = some "completed" ∧ c.id = some x := by
  have hcompleted : ∀ c, c ∈ (demands.filter fun d => decide (d.status = some "completed")) ↔
      c ∈ demands ∧ c.status = some "completed" := by
    intro c
    rw [List.mem_filter, decide_eq_true_iff]
  unfold completedIds at h
  rw [Traverse.mem_traverse h]
  constructor
  · rintro ⟨c, hc, hid⟩
    obtain ⟨hcm, hst⟩ := (hcompleted c).mp hc
    exact ⟨c, hcm, hst, hid⟩
  · rintro ⟨c, hc, hst, hid⟩
    exact ⟨c, (hcompleted c).mpr ⟨hc, hst⟩, hid⟩

theorem mem_selectTickets {busyIds cooldownIds queue : List String}
    {skipped : List (String × String)} (h : selectTickets demands busyIds cooldownIds = some (queue, skipped))
    {tid : String} (htid : tid ∈ queue) :
    ∃ d ∈ demands, d.ticketId = tid ∧ tid ∉ busyIds ∧ tid ∉ cooldownIds := by
  obtain ⟨done, -, hsel⟩ := Option.map_eq_some_iff.mp h
  rw [Prod.mk.injEq] at hsel
  rw [← hsel.1, List.mem_map] at htid
  obtain ⟨d, hd, rfl⟩ := htid
  rw [(sortAsc_perm _ _).mem_iff, List.mem_filter] at hd
  have hnone := skipReason_eq_none.mp (Option.isNone_iff_eq_none.mp hd.2)
  exact ⟨d, (List.mem_filter.mp hd.1).1, rfl, hnone.2.1, hnone.2.2.1⟩

theorem mem_restrictQueue {selected : List String × List (String × String)}
    (h : tid ∈ (restrictQueue cfg w demands jobs selected).1) : tid ∈ selected.1 := by
  unfold restrictQueue at h
  simp only at h
  split at h
  · split at h
    · cases h
    · exact List.contains_iff_mem.mp (List.mem_filter.mp (List.mem_of_mem_take h)).2
  · exact h

theorem startDispatch_start {recovery : Bool} {d : Dispatcher}
    (h : startDispatch cfg w recovery d = some (r, s)) : Start w r s ∧ s.inFlight = d.inFlight := by
  obtain ⟨selected, hsel, heq⟩ := Option.map_eq_some_iff.mp h
  rw [Prod.mk.injEq] at heq
  obtain ⟨rfl, rfl⟩ := heq
  refine ⟨⟨fun tid htid => ?_, fun tid htid => ?_, ?_, rfl⟩, rfl⟩
  · obtain ⟨_, -, -, hbusy, -⟩ := mem_selectTickets hsel (mem_restrictQueue htid)
    simp only [List.mem_append, not_or] at hbusy
    exact ⟨hbusy.1.1, hbusy.1.2, hbusy.2⟩
  · obtain ⟨row, hrow, rfl, -⟩ := mem_selectTickets hsel (mem_restrictQueue htid)
    exact Option.isSome_iff_exists.mp (List.find?_isSome.mpr ⟨row, hrow, decide_eq_true rfl⟩)
  · obtain ⟨done, hdone, -⟩ := Option.map_eq_some_iff.mp hsel
    exact ⟨done, hdone⟩

theorem inFlightOn_append {job : InFlight} : inFlightOn (jobs ++ [job]) job.hostId = true := by
  simp [inFlightOn]

theorem admits_of_demand (h : demandOf r.demands tid = some demand) :
    admits w r host tid = decide (admission false (w.store host (w.query host tid demand)) = .admitted) := by
  rw [admits, h]
  rfl

theorem turns_progress (hstart : Start w r s) {m : Move Dispatching HostSpec} (hm : m ∈ turns cfg w r s) :
    Progress cfg s m.pre :=
  (Runs.moves_invariant (I := Progress cfg s) (fun _ _ h => h.turned turn_turned) (Progress.start hstart) hm).1

theorem turns_turned {m : Move Dispatching HostSpec} (hm : m ∈ turns cfg w r s) :
    Turned cfg w r m.pre m.act m.post := by
  rw [Runs.post_of_mem hm]
  exact turn_turned

theorem SelectedOnce.executable (hstart : Start w r s₀) (hp : Progress cfg s₀ s) {tid : String}
    {rest : List String} {demand : Demand} (hserved : Served w r s host tid rest demand)
    (h : SelectedOnce r s tid demand) : Executable w r s tid demand := by
  obtain ⟨hplanned, ⟨done, hdone, hskip⟩, hdispatched, hcool⟩ := h
  obtain ⟨htags, -, -, hdeps⟩ := skipReason_eq_none.mp hskip
  have hfresh := hstart.fresh tid (hp.queue tid (hserved.queue ▸ List.mem_cons_self))
  refine ⟨hplanned, htags, fun x hx => (mem_completedIds hdone).mp (hdeps x hx), ⟨fun hj => ?_, hfresh.2⟩, hcool⟩
  obtain ⟨j, hmem, rfl⟩ := List.mem_map.mp hj
  rcases hp.jobs j hmem with hold | hnew
  · exact hfresh.1 (List.mem_map_of_mem hold)
  · exact hdispatched hnew

theorem Executable.selectedOnce (hstart : Start w r s₀) (hp : Progress cfg s₀ s) {tid : String}
    {demand : Demand} (hdry : cfg.dryRun = false) (h : Executable w r s tid demand) : SelectedOnce r s tid demand := by
  obtain ⟨done, hdone⟩ := hstart.done
  refine ⟨h.planned, ⟨done, hdone, ?_⟩, fun hx => ?_, h.cooled⟩
  · refine skipReason_eq_none.mpr ⟨h.untagged, List.not_mem_nil, List.not_mem_nil, fun x hx => ?_⟩
    exact (mem_completedIds hdone).mpr (h.dependencies x hx)
  · obtain ⟨x, hmem, rfl⟩ := List.mem_map.mp hx
    exact h.idle.1 (hp.flying hdry x hmem)

theorem TurnOk.conserving (hstart : Start w r s₀) (hp : Progress cfg s₀ s)
    (hdry : cfg.dryRun = false) (hok : TurnOk cfg w r s host) (ht : Turned cfg w r s host s') :
    Conserving w r ⟨s, host, s'⟩ s' := by
  intro hfree hrecovery hidle
  cases ht with
  | passed idle h =>
    rcases h with h | h
    · exact absurd hfree h
    · rw [hrecovery] at h
      cases h
  | vanished tid rest idle skipped hq hnone =>
    obtain ⟨row, hrow⟩ := hstart.rows tid (hp.queue tid (hq ▸ List.mem_cons_self))
    rw [hnone] at hrow
    cases hrow
  | dry tid rest hq h =>
    rw [hdry] at h
    cases h
  | launched tid rest demand runId _ hserved =>
    rw [inFlightOn_append] at hidle
    cases hidle
  | broken tid rest demand error latches idle _ hserved ha hl =>
    have hturn := hok hdry tid rest demand hserved
    rw [ha, hl] at hturn
    simp only [Bool.or_eq_false_iff] at hrecovery
    exact hturn hrecovery.1 hrecovery.2
  | refused tid rest demand idle skipped _ hserved ha =>
    have hturn := hok hdry tid rest demand hserved
    have hrest : ∀ tid' ∈ rest, admits w r host tid' = false := by
      split at hturn
      · rename_i h _
        exact absurd h ha
      · rename_i h _
        exact absurd h ha
      · exact hturn hrecovery
    intro tid' htid'
    rw [hserved.queue] at htid'
    rcases List.mem_cons.mp htid' with rfl | htid'
    · rw [admits_of_demand hserved.demand]
      refine decide_eq_false fun h => ha ?_
      have hoff : s.recovery = false := hrecovery
      rw [hoff]
      exact h
    · exact hrest tid' htid'

theorem Turned.launch (ht : Turned cfg w r s host s') {tid : String}
    (h : s'.dispatched = s.dispatched ++ [⟨tid, host.id, false⟩]) :
    cfg.dryRun = false ∧ ∃ rest demand runId, Served w r s host tid rest demand ∧
      admission s.recovery (w.store host (w.query host tid demand)) = .admitted ∧
      w.launch host demand = .started runId := by
  have hsame : s.dispatched ≠ s.dispatched ++ [⟨tid, host.id, false⟩] := by
    intro heq
    have hlength := congrArg List.length heq
    rw [List.length_append, List.length_singleton] at hlength
    omega
  cases ht with
  | dry tid' rest hq hdry =>
    have hlast := List.append_cancel_left h
    cases hlast
  | launched tid' rest demand runId hdry hserved ha hl =>
    have hlast := List.append_cancel_left h
    cases hlast
    exact ⟨hdry, rest, demand, runId, hserved, ha, hl⟩
  | _ => exact absurd h hsame

theorem LoopLaw.of_turns (hstart : Start w r s) (hok : ∀ m ∈ turns cfg w r s, TurnOk cfg w r m.pre m.act) :
    LoopLaw cfg w r s where
  launched m hm tid h := by
    obtain ⟨hdry, rest, demand, runId, hserved, ha, hl⟩ := (turns_turned hm).launch h
    have hturn := hok m hm hdry tid rest demand hserved
    rw [ha, hl] at hturn
    exact ⟨demand, hserved.demand, hturn.executable hstart (turns_progress hstart hm) hserved⟩
  conserving hdry m hm := (hok m hm).conserving hstart (turns_progress hstart hm) hdry (turns_turned hm)
  atEnd hdry m hm hfree hrecovery hidle tid htid := by
    have hlater := turns_later hm
    have hcons := (hok m hm).conserving hstart (turns_progress hstart hm) hdry (turns_turned hm)
    refine hcons hfree ?_ ?_ tid (hlater.queue tid htid)
    · cases hr : m.post.recovery with
      | false => rfl
      | true => rw [hlater.recovery hr] at hrecovery; cases hrecovery
    · cases hj : inFlightOn m.post.inFlight m.act.id with
      | false => rfl
      | true => rw [hlater.jobs _ hj] at hidle; cases hidle

theorem Served.probedFree (h : Served w r s host tid rest demand) : ProbedFree w r s host :=
  ⟨h.unblocked, h.idle, h.owned, (by rw [h.queue]; exact List.cons_ne_nil _ _), h.free⟩

theorem LoopLaw.turnOk (hstart : Start w r s) (h : LoopLaw cfg w r s) {m : Move Dispatching HostSpec}
    (hm : m ∈ turns cfg w r s) : TurnOk cfg w r m.pre m.act := by
  intro hdry tid rest demand hserved
  have hpost : m.post = dispatchTicket cfg w m.act tid demand { m.pre with queue := rest } := by
    rw [Runs.post_of_mem hm, turn_served hserved]
  have hcons := h.conserving hdry m hm hserved.probedFree
  unfold dispatchTicket at hpost
  rw [if_neg (by rw [hdry]; exact Bool.false_ne_true)] at hpost
  split
  · rename_i runId ha hl
    simp only [ha, hl] at hpost
    obtain ⟨row, hrow, hexec⟩ := h.launched m hm tid (by rw [hpost])
    rw [hserved.demand] at hrow
    cases hrow
    exact hexec.selectedOnce hstart (turns_progress hstart hm) hdry
  · rename_i error latches ha hl
    simp only [ha, hl] at hpost
    intro hrecovery hlatches
    rw [hpost] at hcons
    exact hcons (by simp only [hrecovery, hlatches, Bool.or_self]) hserved.idle
  · rename_i ha₁ ha₂
    have ha : admission m.pre.recovery (w.store m.act (w.query m.act tid demand)) ≠ .admitted := by
      intro ha
      cases hl : w.launch m.act demand with
      | started runId => exact ha₁ runId ha hl
      | failed error latches => exact ha₂ error latches ha hl
    intro hrecovery tid' htid'
    have hqueue : m.post.queue = tid :: rest ∧ m.post.recovery = m.pre.recovery ∧
        m.post.inFlight = m.pre.inFlight := by
      rw [hpost]
      cases hadm : admission m.pre.recovery (w.store m.act (w.query m.act tid demand)) with
      | admitted => exact absurd hadm ha
      | _ => exact ⟨rfl, rfl, rfl⟩
    refine hcons (hqueue.2.1.trans hrecovery) (by rw [hqueue.2.2]; exact hserved.idle) tid' ?_
    rw [hqueue.1]
    exact List.mem_cons_of_mem _ htid'

theorem loopLaw_iff (hstart : Start w r s) :
    LoopLaw cfg w r s ↔ ∀ m ∈ turns cfg w r s, TurnOk cfg w r m.pre m.act :=
  ⟨fun h _ hm => h.turnOk hstart hm, LoopLaw.of_turns hstart⟩

theorem Exclusive.sublist {jobs' : List InFlight} (h : Exclusive jobs) (hs : jobs'.Sublist jobs) :
    Exclusive jobs' :=
  ⟨h.1.sublist (hs.map _), h.2.sublist (hs.map _)⟩

theorem Exclusive.append {job : InFlight} (h : Exclusive jobs)
    (hhost : inFlightOn jobs job.hostId = false) (hticket : job.ticketId ∉ jobs.map InFlight.ticketId) :
    Exclusive (jobs ++ [job]) := by
  have hjobs : Exclusive (jobs ++ []) := by
    rw [List.append_nil]
    exact h
  refine ⟨Lookup.unique_insert hjobs.1 fun j hj hkey => ?_, Lookup.unique_insert hjobs.2 fun j hj hkey => ?_⟩
  · rw [List.append_nil] at hj
    rw [inFlightOn, List.any_eq_false] at hhost
    exact hhost j hj (decide_eq_true hkey)
  · rw [List.append_nil] at hj
    exact hticket (hkey ▸ List.mem_map_of_mem hj)

theorem Exclusive.turned (hstart : Start w r s₀) (hp : Progress cfg s₀ s)
    (hok : TurnOk cfg w r s host) (ht : Turned cfg w r s host s') (h : Exclusive s.inFlight) :
    Exclusive s'.inFlight := by
  cases ht with
  | launched tid rest demand runId hdry hserved ha hl =>
    have hturn := hok hdry tid rest demand hserved
    rw [ha, hl] at hturn
    exact h.append hserved.idle (hturn.executable hstart hp hserved).idle.1
  | _ => exact h

theorem Exclusive.loop (hstart : Start w r s) (hok : ∀ m ∈ turns cfg w r s, TurnOk cfg w r m.pre m.act)
    (h : Exclusive s.inFlight) : Exclusive (dispatchHosts cfg w r s).inFlight := by
  have hrun := Runs.run_invariant_of (I := fun s' => Progress cfg s s' ∧ Exclusive s'.inFlight)
    (C := TurnOk cfg w r) (fun s' host h hok =>
      ⟨h.1.turned turn_turned, Exclusive.turned hstart h.1 hok turn_turned h.2⟩) ⟨Progress.start hstart, h⟩ hok
  exact hrun.2

theorem reapJob_inFlight (cfg : DispatcherConfig) (w : Cycle) (d : Dispatcher) (job : InFlight) :
    (reapJob cfg w d job).inFlight.Sublist d.inFlight := by
  unfold reapJob
  split
  · exact List.Sublist.refl _
  · simp only
    repeat' split
    all_goals exact List.filter_sublist

theorem reap_inFlight (cfg : DispatcherConfig) (w : Cycle) (d : Dispatcher) :
    (reap cfg w d).inFlight.Sublist d.inFlight :=
  Runs.run_rel (R := fun d d' => d'.inFlight.Sublist d.inFlight) (I := fun _ => True) (fun _ => List.Sublist.refl _)
    (fun h h' => h'.trans h) (fun _ _ h => h) (fun d job _ => reapJob_inFlight cfg w d job) trivial d.inFlight

theorem maybeDeploy_inFlight (cfg : DispatcherConfig) (t : DeployCall) (d : Dispatcher) :
    (maybeDeploy cfg t d).2.2.inFlight = d.inFlight := by
  unfold maybeDeploy
  repeat' split
  all_goals rfl

theorem noteAwaiting_inFlight (w : Cycle) (d : Dispatcher) : (noteAwaiting w d).inFlight = d.inFlight := by
  unfold noteAwaiting
  split
  · rfl
  · rfl

theorem resumeDeploy_inFlight (cfg : DispatcherConfig) (w : Cycle) (d : Dispatcher) :
    (resumeDeploy cfg w d).2.2.inFlight = d.inFlight := by
  unfold resumeDeploy
  split
  · rfl
  · exact maybeDeploy_inFlight cfg w.firstDeploy d

theorem openDispatch_inFlight (cfg : DispatcherConfig) (w : Cycle) (report : Report) (d : Dispatcher) :
    (openDispatch cfg w report d).2.1.inFlight = d.inFlight ∧
      ∀ r s, (openDispatch cfg w report d).2.2 = some (r, s) → Start w r s ∧ s.inFlight = d.inFlight := by
  unfold openDispatch
  split
  · exact ⟨rfl, fun _ _ h => by cases h⟩
  · simp only
    split
    · exact ⟨rfl, fun _ _ h => by cases h⟩
    · rename_i start hstart
      refine ⟨rfl, fun r s h => ?_⟩
      rw [Option.some.injEq] at h
      rw [h] at hstart
      obtain ⟨hs, hsame⟩ := startDispatch_start hstart
      exact ⟨hs, hsame⟩

theorem beforeDispatch_inFlight (cfg : DispatcherConfig) (w : Cycle) (d : Dispatcher) :
    (beforeDispatch cfg w d).2.1.inFlight = (reap cfg w d).inFlight ∧
      ∀ r s, loopStart cfg w d = some (r, s) → Start w r s ∧ s.inFlight = (reap cfg w d).inFlight := by
  have hdeployed : (resumeDeploy cfg w (noteAwaiting w (reap cfg w d))).2.2.inFlight = (reap cfg w d).inFlight := by
    rw [resumeDeploy_inFlight, noteAwaiting_inFlight]
  unfold loopStart beforeDispatch
  simp only
  split
  · exact ⟨rfl, fun _ _ h => by cases h⟩
  · split
    · exact ⟨hdeployed, fun _ _ h => by cases h⟩
    · split
      · exact ⟨hdeployed, fun _ _ h => by cases h⟩
      · rw [← hdeployed]
        exact openDispatch_inFlight cfg w _ _

theorem runCycle_inFlight (cfg : DispatcherConfig) (w : Cycle) (d : Dispatcher) :
    (runCycle cfg w d).2.inFlight = match loopStart cfg w d with
      | none => (reap cfg w d).inFlight
      | some (r, s) => (dispatchHosts cfg w r s).inFlight := by
  have hbefore := (beforeDispatch_inFlight cfg w d).1
  unfold runCycle loopStart
  split
  · rename_i report d' h
    rw [h] at hbefore ⊢
    exact hbefore
  · rename_i report d' r s h
    rw [h]
    exact maybeDeploy_inFlight cfg w.secondDeploy _

/-- A cycle keeps to the law exactly if every turn of its loop meets the condition. -/
theorem cycle_law_iff (cfg : DispatcherConfig) (w : Cycle) (d : Dispatcher) :
    CycleLaw cfg w d ↔ ∀ r s, loopStart cfg w d = some (r, s) → ∀ m ∈ turns cfg w r s, TurnOk cfg w r m.pre m.act := by
  obtain ⟨-, hstart⟩ := beforeDispatch_inFlight cfg w d
  constructor
  · intro h r s hloop
    exact (loopLaw_iff (hstart r s hloop).1).mp (h.loop r s hloop)
  · intro h
    refine ⟨fun hex => ?_, fun r s hloop => (loopLaw_iff (hstart r s hloop).1).mpr (h r s hloop)⟩
    have hreaped := hex.sublist (reap_inFlight cfg w d)
    rw [runCycle_inFlight]
    split
    · exact hreaped
    · rename_i r s hloop
      refine Exclusive.loop (hstart r s hloop).1 (h r s hloop) ?_
      rw [(hstart r s hloop).2]
      exact hreaped

def headRefused : Cycle :=
  { Cycle.sample 0 [.sample "USR-01", .sample "USR-02"] with
    store := fun _ query => ⟨some (decide (query.ticketId = "USR-01")), some true, some true⟩ }

/-- The refused ticket keeps the other one from the only host. -/
theorem refused_head_blocks : ¬ CycleLaw { hosts := [.sample] } headRefused .fresh := by
  intro h
  have hloop : loopStart { hosts := [.sample] } headRefused .fresh =
      some (⟨[.sample "USR-01", .sample "USR-02"], false⟩,
        { queue := ["USR-01", "USR-02"], inFlight := [], cooldown := [], recovery := false, skipped := [] }) := rfl
  have hconserving := (h.loop _ _ hloop).conserving rfl _ List.mem_cons_self
    ⟨rfl, rfl, rfl, List.cons_ne_nil _ _, rfl⟩ rfl rfl "USR-02" (by decide)
  exact absurd hconserving (by decide)

end FleetDispatcher
end Line
end DarkFactory
