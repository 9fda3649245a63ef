import DarkFactory.Line.DispatchCycle
import Mathlib.Tactic.Linarith

/-!
# DarkFactory.Line.MergeDeploys

Merges and the deploys that follow them, over runs of cycles and restarts.

* `DeployLaw` — only real merges count, an owed deploy is due after the quiet window, no deploy comes before that or
  without a merge, and a deploy that succeeds is acknowledged.
* `EventOk` — the condition on a cycle or a restart.
-/

namespace DarkFactory
namespace Line
namespace FleetDispatcher

structure History where
  /-- A job has been treated as delivered, and no deploy that started later has succeeded. -/
  owed : Bool
  /-- Something is known to have been merged since the last deploy that succeeded. -/
  merged : Bool
  /-- When the dispatcher learned of the latest merge. -/
  latest : Option Rat
  /-- Resumed deliveries known to wait for their deploy. -/
  awaiting : List Resumption

structure World where
  d : Dispatcher
  history : History

inductive Event where
  | cycle (w : Cycle)
  | restart (recovery : Bool) (now : Rat)
  /-- A launcher of an earlier process prints to its log. -/
  | printed (ticketId hostId : String) (output : List Char)

def isBusy (w : Cycle) : Bool := w.resumptions.any fun r => decide (r.status = "dispatcher_busy")

def reaping (cfg : DispatcherConfig) (w : Cycle) (d : Dispatcher) : List (Move Dispatcher InFlight) :=
  Runs.moves (reapJob cfg w) d d.inFlight

def treatedAsDelivered (w : Cycle) (m : Move Dispatcher InFlight) : Bool :=
  (w.poll m.act).any fun exit => delivers m.pre m.act exit

def deliveries (cfg : DispatcherConfig) (w : Cycle) (d : Dispatcher) : List Rat :=
  ((reaping cfg w d).filter (treatedAsDelivered w)).map fun m => w.reapAt m.act

def newRows (w : Cycle) (h : History) : List Resumption :=
  if isBusy w then [] else (awaitingRows w).filter fun row => !h.awaiting.contains row

def stillAwaiting (w : Cycle) (row : Resumption) : Bool :=
  w.resumptions.all fun r => decide (r.ticket ≠ row.ticket) || decide (r.status = row.status)

/-- The history after the jobs are reaped and the resumed deliveries are listed. -/
def History.noted (cfg : DispatcherConfig) (w : Cycle) (d : Dispatcher) (h : History) : History where
  owed := h.owed || !(deliveries cfg w d).isEmpty
  merged := h.merged || !(deliveries cfg w d).isEmpty || !(newRows w h).isEmpty
  latest := if (newRows w h).isEmpty then (deliveries cfg w d).getLast?.or h.latest else some w.tickAt
  awaiting := h.awaiting.filter (stillAwaiting w) ++ newRows w h

def succeeds (call : Option Started) : Bool := call.any Started.succeeded

def History.settled (report : Report) (h : History) : History where
  owed := h.owed && !(succeeds report.firstDeploy || succeeds report.secondDeploy)
  merged := h.merged && !(succeeds report.firstDeploy || succeeds report.secondDeploy)
  latest := h.latest
  awaiting := h.awaiting.filter fun row => !report.acknowledged.contains row

def step (cfg : DispatcherConfig) (x : World) : Event → World
  | .cycle w =>
    ⟨(runCycle cfg w x.d).2, (x.history.noted cfg w x.d).settled (runCycle cfg w x.d).1⟩
  | .restart recovery now => ⟨restarted cfg recovery now x.d, x.history⟩
  | .printed ticketId hostId output =>
    ⟨{ x.d with logs := writeLog x.d.logs ticketId hostId output }, x.history⟩

def World.start : World := ⟨.fresh, ⟨false, false, none, []⟩⟩

def Due (cfg : DispatcherConfig) (d : Dispatcher) : Prop :=
  ∃ last, ∀ call : DeployCall, last + cfg.deployWindowSec ≤ call.now → deployDue cfg call d = true

structure CycleDeploys (cfg : DispatcherConfig) (w : Cycle) (x : World) : Prop where
  /-- What is taken for a delivery is one by the output of that very launch. -/
  real : ∀ m ∈ reaping cfg w x.d, ∀ exit, w.poll m.act = some exit → delivers m.pre m.act exit = true →
    deliveryEvidence exit.output = true
  /-- No deploy starts within the window after the latest merge. -/
  quiet : ∀ call, call ∈ (runCycle cfg w x.d).1.firstDeploy ∨ call ∈ (runCycle cfg w x.d).1.secondDeploy →
    ∀ at', (x.history.noted cfg w x.d).latest = some at' → cfg.deployWindowSec ≤ call.at' - at'
  /-- A deploy that succeeds acknowledges the deliveries that wait for it. -/
  acknowledged : succeeds (runCycle cfg w x.d).1.firstDeploy || succeeds (runCycle cfg w x.d).1.secondDeploy →
    ∀ row ∈ (x.history.noted cfg w x.d).awaiting, row ∈ (runCycle cfg w x.d).1.acknowledged
  /-- A deploy that succeeds comes after a merge that none has followed. -/
  needed : succeeds (runCycle cfg w x.d).1.firstDeploy || succeeds (runCycle cfg w x.d).1.secondDeploy →
    (x.history.noted cfg w x.d).merged = true
  single : (succeeds (runCycle cfg w x.d).1.firstDeploy && succeeds (runCycle cfg w x.d).1.secondDeploy) = false

structure DeployLaw (cfg : DispatcherConfig) (m : Move World Event) : Prop where
  cycle : ∀ w, m.act = .cycle w → CycleDeploys cfg w m.pre
  due : cfg.dryRun = false → m.post.history.owed = true → Due cfg m.post.d

def deliveryMarkers : List String := ["merged_awaiting_deploy", "[DELIVERY_MERGED]"]

/-- A marker that is read begins before the output of the launch that has ended. -/
def olderMarker (d : Dispatcher) (job : InFlight) (exit : Exit) : Bool :=
  deliveryMarkers.any fun m => Text.isInfixList m.toList
    ((d.logs job.ticketId job.hostId).rtake (6000 - exit.output.length) ++ exit.output.take (m.toList.length - 1))

def deploysNow (cfg : DispatcherConfig) (call : DeployCall) (d : Dispatcher) : Bool :=
  deployDue cfg call d && call.mutexFree && decide (call.rc = 0)

def atFirst (cfg : DispatcherConfig) (w : Cycle) (d : Dispatcher) : Dispatcher := noteAwaiting w (reap cfg w d)

def atSecond (cfg : DispatcherConfig) (w : Cycle) (d : Dispatcher) : Dispatcher :=
  (resumeDeploy cfg w (atFirst cfg w d)).2.2

structure CycleOk (cfg : DispatcherConfig) (w : Cycle) (x : World) : Prop where
  /-- No marker of another launch is in the end of the log that is read. -/
  ownLog : ∀ m ∈ reaping cfg w x.d, ∀ exit, w.poll m.act = some exit → exit.rc = 0 →
    olderMarker m.pre m.act exit = false
  /-- A resumed delivery is not found to be merged while an older merge waits for its deploy. -/
  quietNews : newRows w x.history ≠ [] → (reap cfg w x.d).pendingDeploy = false
  /-- The clock does not go back. -/
  clock : (∀ at', x.history.latest = some at' → at' ≤ w.tickAt) ∧
    (∀ last, (atFirst cfg w x.d).lastMergeAt = some last → last ≤ w.firstDeploy.afterwards) ∧
    ∀ last, (atSecond cfg w x.d).lastMergeAt = some last → last ≤ w.secondDeploy.afterwards
  /-- A deploy for resumed deliveries completes the proofs, and its acknowledgement covers all that wait. -/
  first : isBusy w = false → awaitingRows w ≠ [] → deploysNow cfg w.firstDeploy (atFirst cfg w x.d) = true →
    (∀ release ∈ (atFirst cfg w x.d).pendingReleases, w.firstDeploy.proven release = true) ∧ w.acknowledges = true ∧
      ∀ row ∈ (x.history.noted cfg w x.d).awaiting, row ∈ awaitingRows w
  /-- The deploy at the end of the cycle completes the proofs, and no resumed delivery waits for it. -/
  second : (loopStart cfg w x.d).isSome = true → deploysNow cfg w.secondDeploy (atSecond cfg w x.d) = true →
    (∀ release ∈ (atSecond cfg w x.d).pendingReleases, w.secondDeploy.proven release = true) ∧
      (x.history.noted cfg w x.d).awaiting = []

/-- A restart loses no merge that is not on disk, and does not come within the window after one that is. -/
structure RestartOk (cfg : DispatcherConfig) (now : Rat) (x : World) : Prop where
  kept : x.history.owed = true → x.d.pendingReleases ≠ []
  quiet : x.d.pendingReleases ≠ [] → ∀ at', x.history.latest = some at' → at' ≤ now - cfg.deployWindowSec

def EventOk (cfg : DispatcherConfig) (x : World) : Event → Prop
  | .cycle w => CycleOk cfg w x
  | .restart _ now => RestartOk cfg now x
  | .printed _ _ _ => True

variable {cfg : DispatcherConfig} {w : Cycle}

/-- What `_maybe_deploy` may be. -/
inductive Looked (cfg : DispatcherConfig) (call : DeployCall) (d : Dispatcher) :
    Bool × Option Started × Dispatcher → Prop
  | quiet (h : deployDue cfg call d = false) : Looked cfg call d (false, none, d)
  | deferred (h : deployDue cfg call d = true) (hm : call.mutexFree = false) :
    Looked cfg call d (false, none, { d with lastMergeAt := some call.afterwards })
  | failed (h : deployDue cfg call d = true) (hrc : call.rc ≠ 0) :
    Looked cfg call d (false, some ⟨call.now, false⟩, { d with lastMergeAt := some call.afterwards })
  | released (h : deploysNow cfg call d = true) (hp : ∀ release ∈ d.pendingReleases, call.proven release = true) :
    Looked cfg call d (true, some ⟨call.now, true⟩,
      { d with pendingReleases := [], pendingDeploy := false, deploys := d.deploys + 1 })
  | unproven (releases : List Release) (h : deploysNow cfg call d = true) (release : Release)
      (hr : release ∈ d.pendingReleases) (hp : call.proven release = false) :
    Looked cfg call d (false, some ⟨call.now, true⟩,
      { d with pendingReleases := releases, lastMergeAt := some call.afterwards })

theorem maybeDeploy_looked (cfg : DispatcherConfig) (call : DeployCall) (d : Dispatcher) :
    Looked cfg call d (maybeDeploy cfg call d) := by
  unfold maybeDeploy
  split
  · rename_i h
    exact .quiet (by simpa using h)
  · rename_i h
    have hdue : deployDue cfg call d = true := by simpa using h
    split
    · rename_i hm
      exact .deferred hdue (by simpa using hm)
    · rename_i hm
      have hfree : call.mutexFree = true := by simpa using hm
      split
      · rename_i hrc
        exact .failed hdue hrc
      · rename_i hrc
        have hnow : deploysNow cfg call d = true := by
          rw [deploysNow, hdue, hfree, decide_eq_true (not_not.mp hrc)]
          rfl
        split
        · rename_i hnone
          exact .released hnow (List.dropWhile_eq_nil_iff.mp hnone)
        · rename_i releases hne
          obtain ⟨release, hr, hp⟩ : ∃ release ∈ d.pendingReleases, call.proven release = false := by
            by_contra hall
            push Not at hall
            exact hne (List.dropWhile_eq_nil_iff.mpr fun release hr => by simpa using hall release hr)
          exact .unproven _ hnow release hr hp

structure SameMerges (d d' : Dispatcher) : Prop where
  pendingDeploy : d'.pendingDeploy = d.pendingDeploy
  lastMergeAt : d'.lastMergeAt = d.lastMergeAt
  pendingReleases : d'.pendingReleases = d.pendingReleases

theorem reapJob_merges (cfg : DispatcherConfig) (w : Cycle) (d : Dispatcher) (job : InFlight) :
    if (w.poll job).any (delivers d job) then
      (reapJob cfg w d job).pendingDeploy = true ∧ (reapJob cfg w d job).lastMergeAt = some (w.reapAt job)
    else SameMerges d (reapJob cfg w d job) := by
  unfold reapJob
  cases hpoll : w.poll job with
  | none => exact ⟨rfl, rfl, rfl⟩
  | some exit =>
    rw [Option.any_some, delivers]
    dsimp only
    by_cases hrc : exit.rc = 0
    · rw [if_pos hrc, decide_eq_true hrc, Bool.true_and]
      cases hev : deliveryEvidence (tailOf (endLog d job exit)) with
      | true => exact ⟨rfl, rfl⟩
      | false => exact ⟨rfl, rfl, rfl⟩
    · rw [if_neg hrc, decide_eq_false hrc, Bool.false_and, if_neg Bool.false_ne_true]
      split
      · exact ⟨rfl, rfl, rfl⟩
      · split
        · exact ⟨rfl, rfl, rfl⟩
        · exact ⟨rfl, rfl, rfl⟩

theorem reapJobs_merges (cfg : DispatcherConfig) (w : Cycle) (jobs : List InFlight) (d : Dispatcher) :
    let times := ((Runs.moves (reapJob cfg w) d jobs).filter (treatedAsDelivered w)).map fun m => w.reapAt m.act
    (Runs.run (reapJob cfg w) d jobs).pendingDeploy = (d.pendingDeploy || !times.isEmpty) ∧
      (Runs.run (reapJob cfg w) d jobs).lastMergeAt = times.getLast?.or d.lastMergeAt ∧
      (times = [] → (Runs.run (reapJob cfg w) d jobs).pendingReleases = d.pendingReleases) := by
  induction jobs generalizing d with
  | nil => simp [Runs.moves]
  | cons job jobs ih =>
    obtain ⟨hpending, hlast, hreleases⟩ := ih (reapJob cfg w d job)
    have hjob := reapJob_merges cfg w d job
    have htreated : treatedAsDelivered w ⟨d, job, reapJob cfg w d job⟩ = (w.poll job).any (delivers d job) := rfl
    simp only [Runs.run_cons, Runs.moves, List.filter_cons, htreated]
    rw [hpending, hlast]
    cases hany : (w.poll job).any (delivers d job) with
    | true =>
      rw [hany, if_pos rfl] at hjob
      refine ⟨?_, ?_, fun h => ?_⟩
      · simp [hjob.1]
      · rw [hjob.2, if_pos rfl, List.map_cons, List.getLast?_cons]
        cases (List.map _ _).getLast? <;> rfl
      · rw [if_pos rfl, List.map_cons] at h
        cases h
    | false =>
      rw [hany, if_neg Bool.false_ne_true] at hjob
      rw [if_neg Bool.false_ne_true, hjob.pendingDeploy, hjob.lastMergeAt]
      exact ⟨rfl, rfl, fun h => (hreleases h).trans hjob.pendingReleases⟩

theorem reap_merges (cfg : DispatcherConfig) (w : Cycle) (d : Dispatcher) :
    (reap cfg w d).pendingDeploy = (d.pendingDeploy || !(deliveries cfg w d).isEmpty) ∧
      (reap cfg w d).lastMergeAt = (deliveries cfg w d).getLast?.or d.lastMergeAt ∧
      (deliveries cfg w d = [] → (reap cfg w d).pendingReleases = d.pendingReleases) :=
  reapJobs_merges cfg w d.inFlight d

theorem openDispatch_merges (cfg : DispatcherConfig) (w : Cycle) (report : Report) (d : Dispatcher) :
    SameMerges d (openDispatch cfg w report d).2.1 ∧
      (openDispatch cfg w report d).1.firstDeploy = report.firstDeploy ∧
      (openDispatch cfg w report d).1.acknowledged = report.acknowledged ∧
      (openDispatch cfg w report d).1.secondDeploy = report.secondDeploy := by
  unfold openDispatch
  split
  · exact ⟨⟨rfl, rfl, rfl⟩, rfl, rfl, rfl⟩
  · simp only
    split
    · exact ⟨⟨rfl, rfl, rfl⟩, rfl, rfl, rfl⟩
    · exact ⟨⟨rfl, rfl, rfl⟩, rfl, rfl, rfl⟩

def rowsAcknowledged (cfg : DispatcherConfig) (w : Cycle) (d : Dispatcher) : List Resumption :=
  if (resumeDeploy cfg w (atFirst cfg w d)).1 && w.acknowledges then awaitingRows w else []

theorem beforeDispatch_deploys (cfg : DispatcherConfig) {w : Cycle} (hbusy : isBusy w = false) (d : Dispatcher) :
    SameMerges (atSecond cfg w d) (beforeDispatch cfg w d).2.1 ∧
      (beforeDispatch cfg w d).1.firstDeploy = (resumeDeploy cfg w (atFirst cfg w d)).2.1 ∧
      (beforeDispatch cfg w d).1.acknowledged = rowsAcknowledged cfg w d ∧
      (beforeDispatch cfg w d).1.secondDeploy = none := by
  have hacked : ∀ b : Bool, (if b then awaitingRows w else []) = if b && true then awaitingRows w else [] := by
    intro b
    rw [Bool.and_true]
  unfold beforeDispatch rowsAcknowledged atSecond
  rw [isBusy] at hbusy
  simp only [hbusy, Bool.false_eq_true, if_false]
  change _ ∧ _ ∧ _ ∧ _
  rw [show noteAwaiting w (reap cfg w d) = atFirst cfg w d from rfl]
  cases hdeployed : (resumeDeploy cfg w (atFirst cfg w d)).1 with
  | false =>
    simp only [Bool.false_and, Bool.false_eq_true, if_false]
    split
    · exact ⟨⟨rfl, rfl, rfl⟩, rfl, rfl, rfl⟩
    · exact openDispatch_merges cfg w _ _
  | true =>
    cases hack : w.acknowledges with
    | false => exact ⟨⟨rfl, rfl, rfl⟩, rfl, rfl, rfl⟩
    | true =>
      simp only [Bool.not_true, Bool.and_false, Bool.false_eq_true, if_false, Bool.and_self, if_true]
      split
      · exact ⟨⟨rfl, rfl, rfl⟩, rfl, rfl, rfl⟩
      · exact openDispatch_merges cfg w _ _

theorem runCycle_busy (hbusy : isBusy w = true) (d : Dispatcher) : runCycle cfg w d = ({}, reap cfg w d) := by
  rw [isBusy] at hbusy
  have hbefore : beforeDispatch cfg w d = ({}, reap cfg w d, none) := by
    unfold beforeDispatch
    simp only [hbusy, if_true]
  rw [runCycle, hbefore]

theorem runCycle_deploys (cfg : DispatcherConfig) {w : Cycle} (hbusy : isBusy w = false) (d : Dispatcher) :
    (runCycle cfg w d).1.firstDeploy = (resumeDeploy cfg w (atFirst cfg w d)).2.1 ∧
      (runCycle cfg w d).1.acknowledged = rowsAcknowledged cfg w d ∧
      ((runCycle cfg w d).1.secondDeploy = none ∧ SameMerges (atSecond cfg w d) (runCycle cfg w d).2 ∨
        (loopStart cfg w d).isSome = true ∧ ∃ d', SameMerges (atSecond cfg w d) d' ∧
          (runCycle cfg w d).1.secondDeploy = (maybeDeploy cfg w.secondDeploy d').2.1 ∧
          (runCycle cfg w d).2 = (maybeDeploy cfg w.secondDeploy d').2.2) := by
  obtain ⟨hsame, hfirst, hack, hsecond⟩ := beforeDispatch_deploys cfg hbusy d
  unfold runCycle loopStart
  split
  · rename_i report d' h
    rw [h] at hsame hfirst hack hsecond
    exact ⟨hfirst, hack, .inl ⟨hsecond, hsame⟩⟩
  · rename_i report d' r s h
    rw [h] at hsame hfirst hack hsecond
    refine ⟨hfirst, hack, .inr ⟨by rw [h]; rfl, _, ?_, rfl, rfl⟩⟩
    exact ⟨hsame.pendingDeploy, hsame.lastMergeAt, hsame.pendingReleases⟩

structure Inv (d : Dispatcher) (h : History) : Prop where
  owed : h.owed = true → d.pendingDeploy = true
  /-- The time the window is counted from is not before the latest merge. -/
  armed : d.pendingDeploy = true → ∃ last, d.lastMergeAt = some last ∧ ∀ at', h.latest = some at' → at' ≤ last
  merged : d.pendingDeploy = true → h.merged = true
  releases : d.pendingReleases ≠ [] → h.merged = true
  awaiting : h.awaiting ≠ [] → h.merged = true

theorem Inv.start : Inv World.start.d World.start.history where
  owed h := by cases h
  armed h := by cases h
  merged h := by cases h
  releases h := absurd rfl h
  awaiting h := absurd rfl h

variable {d d' : Dispatcher} {h : History} {call : DeployCall} {x : World}

theorem Inv.cleared (ho : h.owed = false) (hp : d.pendingDeploy = false)
    (hr : d.pendingReleases = []) (ha : h.awaiting = []) : Inv d h where
  owed h := by rw [ho] at h; cases h
  armed h := by rw [hp] at h; cases h
  merged h := by rw [hp] at h; cases h
  releases h := absurd hr h
  awaiting h := absurd ha h

theorem Inv.same (hi : Inv d h) (hs : SameMerges d d') : Inv d' h where
  owed ho := hs.pendingDeploy.trans (hi.owed ho)
  armed hp := by
    rw [hs.lastMergeAt]
    exact hi.armed (hs.pendingDeploy ▸ hp)
  merged hp := hi.merged (hs.pendingDeploy ▸ hp)
  releases hr := hi.releases (hs.pendingReleases ▸ hr)
  awaiting := hi.awaiting

def History.reaped (cfg : DispatcherConfig) (w : Cycle) (d : Dispatcher) (h : History) : History :=
  { h with
    owed := h.owed || !(deliveries cfg w d).isEmpty
    merged := h.merged || !(deliveries cfg w d).isEmpty
    latest := (deliveries cfg w d).getLast?.or h.latest }

theorem Inv.reap (hi : Inv d h) : Inv (reap cfg w d) (h.reaped cfg w d) := by
  obtain ⟨hpending, hlast, hreleases⟩ := reap_merges cfg w d
  cases hd : deliveries cfg w d with
  | nil =>
    have hsame : SameMerges d (FleetDispatcher.reap cfg w d) := by
      refine ⟨?_, ?_, hreleases hd⟩
      · simp [hpending, hd]
      · simp [hlast, hd]
    have hh : h.reaped cfg w d = h := by
      simp [History.reaped, hd]
    rw [hh]
    exact hi.same hsame
  | cons first rest =>
    have hlatest : (h.reaped cfg w d).latest = (FleetDispatcher.reap cfg w d).lastMergeAt := by
      rw [hlast, History.reaped, hd, List.getLast?_cons]
      rfl
    have hmerged : (h.reaped cfg w d).merged = true := by simp [History.reaped, hd]
    refine ⟨fun _ => by simp [hpending, hd], fun _ => ?_, fun _ => hmerged, fun _ => hmerged, fun _ => hmerged⟩
    rw [hlatest, hlast, hd, List.getLast?_cons]
    exact ⟨_, rfl, fun at' h => le_of_eq (Option.some.inj h).symm⟩

theorem noted_merged : (h.noted cfg w d).merged = ((h.reaped cfg w d).merged || !(newRows w h).isEmpty) := rfl

theorem noted_awaiting (hi : Inv d h) (ha : (h.noted cfg w d).awaiting ≠ []) : (h.noted cfg w d).merged = true := by
  rw [noted_merged]
  cases hnew : newRows w h with
  | cons row rows => simp
  | nil =>
    have hold : h.awaiting ≠ [] := by
      intro hnil
      simp [History.noted, hnew, hnil] at ha
    simp [History.reaped, hi.awaiting hold]

theorem Inv.noted_none (hi : Inv d h) (hnew : newRows w h = [])
    (hi' : Inv d' (h.reaped cfg w d)) : Inv d' (h.noted cfg w d) where
  owed := hi'.owed
  armed hp := by
    obtain ⟨last, hlast, hle⟩ := hi'.armed hp
    refine ⟨last, hlast, fun at' hat => hle at' ?_⟩
    simpa [History.noted, History.reaped, hnew] using hat
  merged hp := by
    rw [noted_merged, hi'.merged hp, Bool.true_or]
  releases hr := by
    rw [noted_merged, hi'.releases hr, Bool.true_or]
  awaiting := noted_awaiting hi

theorem Inv.first (hi : Inv d h) (hbusy : isBusy w = false)
    (hquiet : newRows w h ≠ [] → (FleetDispatcher.reap cfg w d).pendingDeploy = false)
    (hclock : ∀ at', h.latest = some at' → at' ≤ w.tickAt) : Inv (atFirst cfg w d) (h.noted cfg w d) := by
  have hreap : Inv (FleetDispatcher.reap cfg w d) (h.reaped cfg w d) := hi.reap
  unfold atFirst noteAwaiting
  split
  · rename_i harm
    rw [Bool.and_eq_true, Bool.not_eq_true', Bool.not_eq_true'] at harm
    obtain ⟨hrows, hpending⟩ := harm
    -- nothing was delivered, or the deploy would be pending
    have hnone : deliveries cfg w d = [] := by
      have hp := (reap_merges cfg w d).1
      rw [hpending] at hp
      simpa using (Bool.or_eq_false_iff.mp hp.symm).2
    have hmerged : (h.noted cfg w d).merged = true := by
      rw [noted_merged]
      cases hnew : newRows w h with
      | cons row rows => simp
      | nil =>
        have hknown : h.awaiting ≠ [] := by
          intro hnil
          have hempty : awaitingRows w = [] := by simpa [newRows, hbusy, hnil] using hnew
          rw [hempty] at hrows
          cases hrows
        simp [History.reaped, hi.awaiting hknown]
    refine ⟨fun _ => rfl, fun _ => ⟨w.tickAt, rfl, fun at' hat => ?_⟩, fun _ => hmerged, fun _ => hmerged,
      fun _ => hmerged⟩
    simp only [History.noted, hnone, List.getLast?_nil, Option.none_or] at hat
    split at hat
    · exact hclock at' hat
    · exact le_of_eq (Option.some.inj hat).symm
  · rename_i harm
    refine hi.noted_none ?_ hreap
    -- a new delivery comes when nothing is pending, and would have been noted
    by_contra hnew
    apply harm
    rw [hquiet hnew, Bool.not_false, Bool.and_true, Bool.not_eq_true', List.isEmpty_eq_false_iff]
    intro hrows
    exact hnew (by simp [newRows, hrows])

theorem deployDue_iff :
    deployDue cfg call d = true ↔ d.pendingDeploy = true ∧ cfg.dryRun = false ∧
      ∃ last, d.lastMergeAt = some last ∧ cfg.deployWindowSec ≤ call.now - last := by
  cases hlast : d.lastMergeAt with
  | none => simp [deployDue, hlast]
  | some last => simp [deployDue, hlast, and_assoc]

theorem SameMerges.deploysNow (hs : SameMerges d d') (call : DeployCall) :
    deploysNow cfg call d' = deploysNow cfg call d := by
  rw [FleetDispatcher.deploysNow, FleetDispatcher.deploysNow, deployDue, deployDue, hs.pendingDeploy, hs.lastMergeAt]

/-- The call does not come within the window after the latest merge. -/
def Quiet (cfg : DispatcherConfig) (h : History) (call : Option Started) : Prop :=
  ∀ started ∈ call, ∀ at', h.latest = some at' → cfg.deployWindowSec ≤ started.at' - at'

theorem Quiet.none : Quiet cfg h none := by
  intro started hs
  cases hs

inductive LookEnds (cfg : DispatcherConfig) (h : History) : Bool × Option Started × Dispatcher → Prop
  | pending (call : Option Started) (d : Dispatcher) (hcall : succeeds call = false) (hquiet : Quiet cfg h call)
      (hi : Inv d h) : LookEnds cfg h (false, call, d)
  | deployed (started : Started) (d : Dispatcher) (hs : started.succeeded = true) (hquiet : Quiet cfg h (some started))
      (hmerged : h.merged = true) (hp : d.pendingDeploy = false) (hr : d.pendingReleases = []) :
      LookEnds cfg h (true, some started, d)

theorem Inv.delayed (hi : Inv d h) (hclock : ∀ last, d.lastMergeAt = some last → last ≤ call.afterwards) :
    Inv { d with lastMergeAt := some call.afterwards } h where
  owed := hi.owed
  armed hp := by
    obtain ⟨last, hlast, hle⟩ := hi.armed hp
    exact ⟨call.afterwards, rfl, fun at' hat => le_trans (hle at' hat) (hclock last hlast)⟩
  merged := hi.merged
  releases := hi.releases
  awaiting := hi.awaiting

theorem Inv.quiet {ok : Bool} (hi : Inv d h)
    (hdue : deployDue cfg call d = true) : Quiet cfg h (some ⟨call.now, ok⟩) := by
  obtain ⟨hp, -, last, hlast, hwindow⟩ := deployDue_iff.mp hdue
  obtain ⟨last', hlast', hle⟩ := hi.armed hp
  cases hlast.symm.trans hlast'
  intro started hs at' hat
  cases hs
  have hat' : at' ≤ last := hle at' hat
  change cfg.deployWindowSec ≤ call.now - at'
  linarith

theorem deploysNow_due (h : deploysNow cfg call d = true) : deployDue cfg call d = true := by
  rw [deploysNow, Bool.and_eq_true, Bool.and_eq_true] at h
  exact h.1.1

theorem maybeDeploy_ends (hi : Inv d h) (hclock : ∀ last, d.lastMergeAt = some last → last ≤ call.afterwards)
    (hproven : deploysNow cfg call d = true → ∀ release ∈ d.pendingReleases, call.proven release = true) :
    LookEnds cfg h (maybeDeploy cfg call d) := by
  have hlooked : Looked cfg call d (maybeDeploy cfg call d) := maybeDeploy_looked cfg call d
  generalize maybeDeploy cfg call d = out at hlooked ⊢
  cases hlooked with
  | quiet hdue => exact .pending none d rfl .none hi
  | deferred hdue hm => exact .pending none _ rfl .none (hi.delayed hclock)
  | failed hdue hrc => exact .pending _ _ rfl (hi.quiet hdue) (hi.delayed hclock)
  | released hnow hp =>
    have hdue : deployDue cfg call d = true := deploysNow_due hnow
    exact .deployed ⟨call.now, true⟩ _ rfl (hi.quiet hdue) (hi.merged (deployDue_iff.mp hdue).1) rfl rfl
  | unproven releases hnow release hr hp =>
    rw [hproven hnow release hr] at hp
    cases hp

theorem maybeDeploy_idle (call : DeployCall) (hp : d.pendingDeploy = false) :
    maybeDeploy cfg call d = (false, none, d) := by
  have hdue : deployDue cfg call d = false := by rw [deployDue, hp, Bool.false_and, Bool.false_and]
  rw [maybeDeploy, hdue]
  rfl

theorem resumeDeploy_ends (hi : Inv d h)
    (hclock : ∀ last, d.lastMergeAt = some last → last ≤ w.firstDeploy.afterwards)
    (hproven : awaitingRows w ≠ [] → deploysNow cfg w.firstDeploy d = true →
      ∀ release ∈ d.pendingReleases, w.firstDeploy.proven release = true) :
    LookEnds cfg h (resumeDeploy cfg w d) := by
  unfold resumeDeploy
  split
  · exact .pending none d rfl .none hi
  · rename_i hrows
    exact maybeDeploy_ends hi hclock (hproven fun hnil => hrows (by rw [hnil]; rfl))

theorem maybeDeploy_deployed (h : (maybeDeploy cfg call d).1 = true) : deploysNow cfg call d = true := by
  have hlooked : Looked cfg call d (maybeDeploy cfg call d) := maybeDeploy_looked cfg call d
  generalize maybeDeploy cfg call d = out at hlooked h
  cases hlooked with
  | released hnow hp => exact hnow
  | quiet | deferred | failed | unproven => cases h

theorem resumeDeploy_deployed (h : (resumeDeploy cfg w d).1 = true) :
    awaitingRows w ≠ [] ∧ deploysNow cfg w.firstDeploy d = true := by
  unfold resumeDeploy at h
  split at h
  · cases h
  · rename_i hrows
    exact ⟨fun hnil => hrows (by rw [hnil]; rfl), maybeDeploy_deployed h⟩

structure CycleEnds (cfg : DispatcherConfig) (h : History) (report : Report) (d : Dispatcher) : Prop where
  first : Quiet cfg h report.firstDeploy
  second : Quiet cfg h report.secondDeploy
  acknowledged : succeeds report.firstDeploy || succeeds report.secondDeploy →
    ∀ row ∈ h.awaiting, row ∈ report.acknowledged
  needed : succeeds report.firstDeploy || succeeds report.secondDeploy → h.merged = true
  single : (succeeds report.firstDeploy && succeeds report.secondDeploy) = false
  inv : Inv d (h.settled report)

theorem CycleEnds.pending {report : Report} (hq1 : Quiet cfg h report.firstDeploy)
    (hq2 : Quiet cfg h report.secondDeploy) (h1 : succeeds report.firstDeploy = false)
    (h2 : succeeds report.secondDeploy = false) (hack : report.acknowledged = []) (hi : Inv d h) :
    CycleEnds cfg h report d := by
  have hnone : (succeeds report.firstDeploy || succeeds report.secondDeploy) = false := by rw [h1, h2]; rfl
  have hsame : h.settled report = h := by
    simp [History.settled, h1, h2, hack]
  refine ⟨hq1, hq2, fun hs => ?_, fun hs => ?_, by rw [h1, Bool.false_and], hsame.symm ▸ hi⟩
  · rw [hnone] at hs
    cases hs
  · rw [hnone] at hs
    cases hs

theorem CycleEnds.deployed {report : Report} (hq1 : Quiet cfg h report.firstDeploy)
    (hq2 : Quiet cfg h report.secondDeploy)
    (hsome : (succeeds report.firstDeploy || succeeds report.secondDeploy) = true)
    (hsingle : (succeeds report.firstDeploy && succeeds report.secondDeploy) = false) (hmerged : h.merged = true)
    (hack : ∀ row ∈ h.awaiting, row ∈ report.acknowledged) (hp : d.pendingDeploy = false)
    (hr : d.pendingReleases = []) : CycleEnds cfg h report d := by
  refine ⟨hq1, hq2, fun _ => hack, fun _ => hmerged, hsingle, .cleared ?_ hp hr ?_⟩
  · simp [History.settled, hsome]
  · simpa [History.settled] using hack

theorem cycle_ends (hi : Inv x.d x.history) (hok : CycleOk cfg w x) :
    CycleEnds cfg (x.history.noted cfg w x.d) (runCycle cfg w x.d).1 (runCycle cfg w x.d).2 := by
  cases hbusy : isBusy w with
  | true =>
    have hnew : newRows w x.history = [] := by rw [newRows, hbusy, if_pos rfl]
    rw [runCycle_busy hbusy]
    exact .pending .none .none rfl rfl rfl (hi.noted_none hnew hi.reap)
  | false =>
    obtain ⟨hfirst, hack, hsecond⟩ := runCycle_deploys cfg hbusy x.d
    obtain ⟨htick, hclock1, hclock2⟩ := hok.clock
    have hfirstInv : Inv (atFirst cfg w x.d) (x.history.noted cfg w x.d) := hi.first hbusy hok.quietNews htick
    have hends : LookEnds cfg (x.history.noted cfg w x.d) (resumeDeploy cfg w (atFirst cfg w x.d)) :=
      resumeDeploy_ends hfirstInv hclock1 fun hrows hnow => (hok.first hbusy hrows hnow).1
    have hdeployed : (resumeDeploy cfg w (atFirst cfg w x.d)).1 = true → w.acknowledges = true ∧
        ∀ row ∈ (x.history.noted cfg w x.d).awaiting, row ∈ awaitingRows w := fun hd =>
      (hok.first hbusy (resumeDeploy_deployed hd).1 (resumeDeploy_deployed hd).2).2
    have hproven2 := hok.second
    rw [rowsAcknowledged] at hack
    rw [atSecond] at hsecond hclock2 hproven2
    generalize resumeDeploy cfg w (atFirst cfg w x.d) = out at *
    cases hends with
    | pending call d hcall hquiet hinv =>
      rw [Bool.false_and, if_neg Bool.false_ne_true] at hack
      rcases hsecond with ⟨hnone, hsame⟩ | ⟨hloop, d', hsame, hcall2, hd⟩
      · exact .pending (hfirst ▸ hquiet) (hnone ▸ .none) (hfirst ▸ hcall) (by rw [hnone]; rfl) hack (hinv.same hsame)
      · have hnow : deploysNow cfg w.secondDeploy d' = deploysNow cfg w.secondDeploy d := hsame.deploysNow _
        have hends2 : LookEnds cfg (x.history.noted cfg w x.d) (maybeDeploy cfg w.secondDeploy d') := by
          refine maybeDeploy_ends (hinv.same hsame) (fun last hl => hclock2 last (hsame.lastMergeAt ▸ hl)) ?_
          intro hnow' release hr
          exact (hproven2 hloop (hnow ▸ hnow')).1 release (hsame.pendingReleases ▸ hr)
        have hawaiting : (maybeDeploy cfg w.secondDeploy d').1 = true →
            (x.history.noted cfg w x.d).awaiting = [] := fun hm =>
          (hproven2 hloop (hnow ▸ maybeDeploy_deployed hm)).2
        rw [hd]
        generalize maybeDeploy cfg w.secondDeploy d' = out2 at *
        cases hends2 with
        | pending call2 d2 hcall2' hquiet2 hinv2 =>
          exact .pending (hfirst ▸ hquiet) (hcall2 ▸ hquiet2) (hfirst ▸ hcall) (hcall2 ▸ hcall2') hack hinv2
        | deployed started d2 hs hquiet2 hmerged hp hr =>
          have h1 : succeeds (runCycle cfg w x.d).1.firstDeploy = false := hfirst ▸ hcall
          have h2 : succeeds (runCycle cfg w x.d).1.secondDeploy = true := hcall2 ▸ hs
          refine .deployed (hfirst ▸ hquiet) (hcall2 ▸ hquiet2) (by rw [h2, Bool.or_true]) (by rw [h1, Bool.false_and])
            hmerged ?_ hp hr
          rw [hawaiting rfl]
          exact fun row hrow => absurd hrow List.not_mem_nil
    | deployed started d hs hquiet hmerged hp hr =>
      obtain ⟨hacks, hcovers⟩ := hdeployed rfl
      rw [hacks, Bool.true_and, if_pos rfl] at hack
      have h1 : succeeds (runCycle cfg w x.d).1.firstDeploy = true := hfirst ▸ hs
      have hcovered : ∀ row ∈ (x.history.noted cfg w x.d).awaiting, row ∈ (runCycle cfg w x.d).1.acknowledged :=
        hack ▸ hcovers
      -- nothing is pending any more when the second look comes
      have hquiet2 : (runCycle cfg w x.d).1.secondDeploy = none ∧ (runCycle cfg w x.d).2.pendingDeploy = false ∧
          (runCycle cfg w x.d).2.pendingReleases = [] := by
        rcases hsecond with ⟨hnone, hsame⟩ | ⟨hloop, d', hsame, hcall2, hd⟩
        · exact ⟨hnone, hsame.pendingDeploy.trans hp, hsame.pendingReleases.trans hr⟩
        · rw [hcall2, hd, maybeDeploy_idle _ (hsame.pendingDeploy.trans hp)]
          exact ⟨rfl, hsame.pendingDeploy.trans hp, hsame.pendingReleases.trans hr⟩
      obtain ⟨hnone, hp2, hr2⟩ := hquiet2
      exact .deployed (hfirst ▸ hquiet) (hnone ▸ .none) (by rw [h1, Bool.true_or])
        (by rw [h1, Bool.true_and, hnone]; rfl) hmerged hcovered hp2 hr2

theorem deliveryEvidence_iff {log : List Char} :
    deliveryEvidence log = true ↔ ∃ m ∈ deliveryMarkers, m.toList <:+: log := by
  have hmentions : deliveryEvidence log = mentions deliveryMarkers log := rfl
  rw [hmentions, mentions, List.any_eq_true]
  simp only [Text.isInfixList_iff]

theorem infix_append_cases {m a b : List Char} (h : m <:+: a ++ b) :
    m <:+: a ++ b.take (m.length - 1) ∨ m <:+: b := by
  obtain ⟨s, t, hst⟩ := h
  rcases Nat.lt_or_ge s.length a.length with hlt | hge
  · have hm : m <:+: s ++ m := ⟨s, [], List.append_nil _⟩
    refine .inl (hm.trans (List.IsPrefix.isInfix ?_))
    have hlen : (s ++ m).length ≤ a.length + (m.length - 1) := by
      rw [List.length_append]
      omega
    have htake : (a ++ b).take (a.length + (m.length - 1)) = a ++ b.take (m.length - 1) := List.take_length_add_append _
    rw [← htake, List.prefix_take_iff]
    exact ⟨⟨t, hst⟩, hlen⟩
  · refine .inr ?_
    have hdrop : (a ++ b).drop a.length = s.drop a.length ++ m ++ t := by
      rw [← hst, List.append_assoc, List.drop_append_of_le_length hge, List.append_assoc]
    rw [List.drop_left] at hdrop
    exact ⟨s.drop a.length, t, hdrop.symm⟩

theorem rtake_append (n : Nat) (a b : List Char) : (a ++ b).rtake n = a.rtake (n - b.length) ++ b.rtake n := by
  rw [List.rtake, List.rtake, List.rtake, List.length_append, List.drop_append]
  congr 1
  · rcases Nat.le_total n b.length with hle | hge
    · rw [Nat.sub_eq_zero_of_le hle, Nat.sub_zero, List.drop_length, List.drop_of_length_le (by omega)]
    · congr 1
      omega
  · congr 1
    omega

theorem rtake_of_length_le {n : Nat} {a : List Char} (h : a.length ≤ n) : a.rtake n = a := by
  rw [List.rtake, Nat.sub_eq_zero_of_le h, List.drop_zero]

theorem delivers_real {job : InFlight} {exit : Exit} (hown : olderMarker d job exit = false)
    (h : delivers d job exit = true) : deliveryEvidence exit.output = true := by
  rw [delivers, Bool.and_eq_true, endLog, tailOf, rtake_append] at h
  obtain ⟨m, hm, hinfix⟩ := deliveryEvidence_iff.mp h.2
  refine deliveryEvidence_iff.mpr ⟨m, hm, ?_⟩
  have hsuffix : exit.output.rtake 6000 <:+ exit.output := List.drop_suffix _ _
  rcases Nat.le_total exit.output.length 6000 with hshort | hlong
  · rw [rtake_of_length_le hshort] at hinfix
    rcases infix_append_cases hinfix with hold | hnew
    · rw [olderMarker, List.any_eq_false] at hown
      exact absurd (Text.isInfixList_iff.mpr hold) (hown m hm)
    · exact hnew
  · have hnone : (d.logs job.ticketId job.hostId).rtake (6000 - exit.output.length) = [] := by
      rw [Nat.sub_eq_zero_of_le hlong, List.rtake, Nat.sub_zero, List.drop_length]
    rw [hnone, List.nil_append] at hinfix
    exact hinfix.trans hsuffix.isInfix

theorem Inv.due (hi : Inv d h) (hdry : cfg.dryRun = false) (ho : h.owed = true) : Due cfg d := by
  have hp : d.pendingDeploy = true := hi.owed ho
  obtain ⟨last, hlast, -⟩ := hi.armed hp
  refine ⟨last, fun call hcall => deployDue_iff.mpr ⟨hp, hdry, last, hlast, ?_⟩⟩
  linarith

theorem cycle_law (hi : Inv x.d x.history) (hok : CycleOk cfg w x) : CycleDeploys cfg w x := by
  have hends := cycle_ends hi hok
  refine ⟨fun m hm exit hpoll hdelivers => ?_, ?_, hends.acknowledged, hends.needed, hends.single⟩
  · have hrc : exit.rc = 0 := by
      rw [delivers, Bool.and_eq_true, decide_eq_true_eq] at hdelivers
      exact hdelivers.1
    exact delivers_real (hok.ownLog m hm exit hpoll hrc) hdelivers
  · rintro call (hcall | hcall) at' hat
    · exact hends.first call hcall at' hat
    · exact hends.second call hcall at' hat

theorem restarted_inv {recovery : Bool} {now : Rat} (hi : Inv d h)
    (hok : RestartOk cfg now ⟨d, h⟩) : Inv (restarted cfg recovery now d) h := by
  have hpending : (restarted cfg recovery now d).pendingDeploy = true → d.pendingReleases ≠ [] := by
    intro hp hnil
    rw [restarted, hnil] at hp
    cases hp
  refine ⟨fun ho => ?_, fun hp => ?_, fun hp => hi.releases (hpending hp), hi.releases, hi.awaiting⟩
  · have hne : d.pendingReleases ≠ [] := hok.kept ho
    simpa [restarted] using hne
  · refine ⟨now - cfg.deployWindowSec, ?_, hok.quiet (hpending hp)⟩
    simp [restarted, hpending hp]

theorem step_inv {e : Event} (hi : Inv x.d x.history) (hok : EventOk cfg x e) :
    Inv (step cfg x e).d (step cfg x e).history := by
  cases e with
  | cycle w => exact (cycle_ends hi hok).inv
  | restart recovery now => exact restarted_inv hi hok
  | printed ticketId hostId output => exact hi.same ⟨rfl, rfl, rfl⟩

theorem step_law {e : Event} (hi : Inv x.d x.history) (hok : EventOk cfg x e) :
    DeployLaw cfg ⟨x, e, step cfg x e⟩ where
  cycle w he := by
    cases he
    exact cycle_law hi hok
  due hdry ho := (step_inv hi hok).due hdry ho

/-- When every step of a run meets the condition, the law holds of every step. -/
theorem merges_deployed (cfg : DispatcherConfig) (events : List Event)
    (hok : ∀ m ∈ Runs.moves (step cfg) .start events, EventOk cfg m.pre m.act) :
    ∀ m ∈ Runs.moves (step cfg) .start events, DeployLaw cfg m := by
  intro m hm
  have hi : Inv m.pre.d m.pre.history :=
    Runs.moves_invariant_of (I := fun x : World => Inv x.d x.history) (fun _ _ => step_inv) Inv.start hok m hm
  have hlaw := step_law hi (hok m hm)
  rw [← Runs.post_of_mem hm] at hlaw
  exact hlaw

def launching (now : Rat) : Event := .cycle (.sample now [.sample "USR-01"])

def ending (now : Rat) (exit : Exit) : Event := .cycle { Cycle.sample now [] with poll := fun _ => some exit }

def merging : List Event :=
  [launching 0, ending 100 ⟨0, "[DELIVERY_MERGED]".toList⟩, .cycle (.sample 300 [])]

/-- A launch prints the marker and fails; the next one of its ticket says nothing. -/
def failing : List Event :=
  [launching 0, ending 100 ⟨1, "[DELIVERY_MERGED]".toList⟩, launching 2000, ending 2100 ⟨0, []⟩]

theorem CycleOk.of_alone (hnone : w.resumptions = []) (hknown : x.history.awaiting = [])
    (hown : ∀ m ∈ reaping cfg w x.d, ∀ exit, w.poll m.act = some exit → exit.rc = 0 →
      olderMarker m.pre m.act exit = false)
    (htick : ∀ at', x.history.latest = some at' → at' ≤ w.tickAt)
    (hfirst : ∀ last, (atFirst cfg w x.d).lastMergeAt = some last → last ≤ w.firstDeploy.afterwards)
    (hsecond : ∀ last, (atSecond cfg w x.d).lastMergeAt = some last → last ≤ w.secondDeploy.afterwards)
    (hproven : ∀ release, w.secondDeploy.proven release = true) : CycleOk cfg w x := by
  have hrows : awaitingRows w = [] := by rw [awaitingRows, hnone]; rfl
  have hnew : newRows w x.history = [] := by
    rw [newRows, hrows, List.filter_nil, ite_self]
  refine ⟨hown, fun h => absurd hnew h, ⟨htick, hfirst, hsecond⟩, fun _ h => absurd hrows h, fun _ _ => ?_⟩
  exact ⟨fun release _ => hproven release, by simp [History.noted, hknown, hnew]⟩

def afterMerge : World :=
  Runs.run (step { hosts := [.sample] }) .start [launching 0, ending 100 ⟨0, "[DELIVERY_MERGED]".toList⟩]

theorem merges_deployed_sample :
    (Runs.moves (step { hosts := [.sample] }) .start merging).Forall (DeployLaw { hosts := [.sample] }) := by
  refine List.forall_iff_forall_mem.mpr (merges_deployed _ _ ?_)
  simp only [merging, Runs.moves, List.forall_mem_cons, List.not_mem_nil, false_imp_iff, implies_true, and_true]
  refine ⟨?_, ?_, ?_⟩
  · refine .of_alone rfl rfl ?_ ?_ ?_ ?_ fun _ => rfl
    · intro m hm
      cases hm
    · intro last h
      cases h
    · intro last h
      cases h
    · intro last h
      cases h
  · refine .of_alone rfl rfl ?_ ?_ ?_ ?_ fun _ => rfl
    · decide +kernel
    · intro last h
      cases h
    · intro last h
      cases h
      exact le_rfl
    · intro last h
      cases h
      exact le_rfl
  · have hlatest : afterMerge.history.latest = some 100 := by decide +kernel
    have hlast : (atFirst { hosts := [.sample] } (.sample 300 []) afterMerge.d).lastMergeAt = some 100 := by
      decide +kernel
    refine .of_alone rfl (by decide +kernel) ?_ ?_ ?_ ?_ fun _ => rfl
    · intro m hm exit hpoll
      cases hpoll
    · intro last h
      cases hlatest.symm.trans h
      decide +kernel
    · intro last h
      cases hlast.symm.trans h
      decide +kernel
    · intro last h
      cases hlast.symm.trans h
      decide +kernel

def beforeSilence : Dispatcher :=
  (Runs.run (step { hosts := [.sample] }) .start
    [launching 0, ending 100 ⟨1, "[DELIVERY_MERGED]".toList⟩, launching 2000]).d

/-- The marker of the launch that failed makes the next one a delivery. -/
theorem older_marker_delivers :
    ∃ m ∈ Runs.moves (step { hosts := [.sample] }) .start failing, ¬ DeployLaw { hosts := [.sample] } m := by
  refine ⟨_, .tail _ (.tail _ (.tail _ (.head _))), fun h => ?_⟩
  have hjobs : beforeSilence.inFlight = [⟨"USR-01", "grokbox", some "run"⟩] := by decide +kernel
  have hdelivers : delivers beforeSilence ⟨"USR-01", "grokbox", some "run"⟩ ⟨0, []⟩ = true := by decide +kernel
  have hreal := (h.cycle _ rfl).real
  change ∀ m ∈ Runs.moves _ beforeSilence beforeSilence.inFlight, _ at hreal
  rw [hjobs] at hreal
  exact absurd (hreal _ (.head _) ⟨0, []⟩ rfl hdelivers) (by decide)

end FleetDispatcher
end Line
end DarkFactory
