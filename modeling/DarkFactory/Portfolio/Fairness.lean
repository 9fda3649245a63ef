import Mathlib.Algebra.Order.Archimedean.Basic
import DarkFactory.Lib.Credits
import DarkFactory.Lib.Runs
import DarkFactory.Lib.Calls
import DarkFactory.Portfolio.Scheduler

/-!
# DarkFactory.Portfolio.Fairness

Runs of the scheduler with its state file.

* `World` — the scheduler, its file, and what went in and came out so far.
* `Inv` — queues and returned jobs make up the enqueued ones, the slots fit, and the file holds the queues.
* `scheduled_of_fit` — all of it, for runs whose selections by credit are among balanced weights.
-/

namespace DarkFactory
namespace Portfolio

section

variable {P : Type}

structure World (P : Type) where
  memory : Memory P
  file : Option (Memory P)
  enqueued : List (Job P)
  returned : List (Job P)

def World.start (P : Type) : World P := ⟨Memory.empty P, none, [], []⟩

inductive Op (P : Type) where
  | enqueueJob (job : Job P)
  | dequeueNext (clock : Nat → Int)
  | acquireSlot (jobId workerId draw : String) (kind : JobSlotKind) (lease : Int) (clock : Nat → Int)
  | releaseSlot (slotId : JobSlotKind × String)
  /-- a count of the active slots, which drops the expired ones -/
  | activeCounts (now : Int)
  /-- a new scheduler on the file -/
  | reload

variable (cfg : Config) (json : P → Option P)

def World.saved (w : World P) (m : Memory P) : World P := { w with memory := m, file := save json m w.file }

def step (w : World P) : Op P → World P
  | .enqueueJob job => { w.saved json (enqueueJob cfg w.memory job) with enqueued := w.enqueued ++ [job] }
  | .dequeueNext clock =>
    match dequeueNext cfg w.memory clock with
    | (none, m) => { w with memory := m }
    | (some job, m) => { w.saved json m with returned := w.returned ++ [job] }
  | .acquireSlot jobId workerId draw kind lease clock =>
    match acquireSlot cfg w.memory jobId workerId draw kind lease clock with
    | (none, m) => { w with memory := m }
    | (some _, m) => w.saved json m
  | .releaseSlot slotId =>
    match releaseSlot w.memory slotId with
    | (false, _) => w
    | (true, m) => w.saved json m
  | .activeCounts now => { w with memory := { w.memory with
      activeSlots := reconcileExpired w.memory.activeSlots now } }
  | .reload => { w with memory := load w.file }

def offers (w : World P) (clock : Nat → Int) : List String :=
  (dispatchable cfg clock 1 (reconcileExpired w.memory.activeSlots (clock 0)) w.memory.queues).1

def served (w : World P) : Op P → Option String
  | .dequeueNext clock => (dequeueNext cfg w.memory clock).1.map Job.projectId
  | _ => none

def selections (moves : List (Move (World P) (Op P))) (p : String) : Nat :=
  (moves.filter fun m => decide (served cfg m.pre m.act = some p)).length

def dequeues (moves : List (Move (World P) (Op P))) : Nat :=
  (moves.filter fun m => (served cfg m.pre m.act).isSome).length

def backlog (w : World P) : Nat := (w.memory.queues.filter fun entry => !entry.2.isEmpty).length

/-- The same projects are dispatchable at each dequeue, and no starvation guard fires. -/
def Stretch (S : List String) (moves : List (Move (World P) (Op P))) : Prop :=
  ∀ m ∈ moves, ∀ clock, m.act = .dequeueNext clock → offers cfg m.pre clock = S ∧ starved cfg m.pre.memory S = []

/-- What the scheduler promises for the runs whose steps meet a condition. -/
structure Scheduled (C : World P → Op P → Prop) : Prop where
  order : ∀ ops, (∀ m ∈ Runs.moves (step cfg json) (World.start P) ops, C m.pre m.act) →
    let w := Runs.run (step cfg json) (World.start P) ops
    ∀ p, (w.returned.filter fun job => decide (job.projectId = p)) ++ w.memory.queue p =
      w.enqueued.filter fun job => decide (job.projectId = p)
  capacity : ∀ ops, (∀ m ∈ Runs.moves (step cfg json) (World.start P) ops, C m.pre m.act) → ∀ kind,
    activeCount (Runs.run (step cfg json) (World.start P) ops).memory.activeSlots kind ≤ cfg.capacity.limit kind
  starvation : ∀ ops clock window,
    (∀ m ∈ Runs.moves (step cfg json) (World.start P) (ops ++ .dequeueNext clock :: window), C m.pre m.act) →
    let w := Runs.run (step cfg json) (World.start P) ops
    let moves := Runs.moves (step cfg json) w (.dequeueNext clock :: window)
    ∀ p, (∀ m ∈ moves, ∀ clock, m.act = .dequeueNext clock → p ∈ offers cfg m.pre clock) →
      cfg.weights.maxStarvationTicks + backlog w ≤ dequeues cfg moves → 0 < selections cfg moves p
  fairness : ∀ S, ∀ p ∈ S, ∀ q ∈ S, ∃ bound : Rat, ∀ ops window,
    (∀ m ∈ Runs.moves (step cfg json) (World.start P) (ops ++ window), C m.pre m.act) →
    let moves := Runs.moves (step cfg json) (Runs.run (step cfg json) (World.start P) ops) window
    Stretch cfg S moves →
      |(selections cfg moves p : Rat) / cfg.weight p - selections cfg moves q / cfg.weight q| ≤ bound
  saved : ∀ ops, (∀ m ∈ Runs.moves (step cfg json) (World.start P) ops, C m.pre m.act) →
    let w := Runs.run (step cfg json) (World.start P) ops
    load (save json w.memory w.file) = w.memory

/-- Payloads survive JSON, and projects are selected by credit only among balanced weights. -/
def Fit (w : World P) : Op P → Prop
  | .enqueueJob job => json job.payload = some job.payload
  | .dequeueNext clock => starved cfg w.memory (offers cfg w clock) = [] →
      Credits.Balanced (offers cfg w clock) cfg.weight
  | _ => True

def Kept : Op P → Prop
  | .enqueueJob job => json job.payload = some job.payload
  | _ => True

theorem weight_pos (p : String) : 0 < cfg.weight p := by
  unfold Config.weight
  cases hget : Lookup.get Prod.fst cfg.weights.weights p with
  | none => exact cfg.weights.positive.1
  | some entry => exact cfg.weights.positive.2 entry (Lookup.get_key hget).1

variable {cfg json}

variable {m : Memory P} {w : World P} {S : List String} {b b' : Credits.Books String Rat}

theorem queue_eq (hunique : Lookup.Unique Prod.fst m.queues) {p : String} {jobs : List (Job P)}
    (h : (p, jobs) ∈ m.queues) : m.queue p = jobs := by
  unfold Memory.queue
  rw [(Lookup.get_eq_some hunique).mpr ⟨h, rfl⟩]
  rfl

theorem mem_of_queue {p : String} {job : Job P} {jobs : List (Job P)} (h : m.queue p = job :: jobs) :
    (p, job :: jobs) ∈ m.queues := by
  unfold Memory.queue at h
  cases hget : Lookup.get Prod.fst m.queues p with
  | none => rw [hget] at h; cases h
  | some entry =>
    rw [hget] at h
    obtain ⟨hmem, hkey⟩ := Lookup.get_key hget
    obtain ⟨p', jobs'⟩ := entry
    cases hkey
    cases h
    exact hmem

def changed (project : String) (f : List (Job P) → List (Job P)) (entry : String × List (Job P)) :
    String × List (Job P) := if entry.1 = project then (entry.1, f entry.2) else entry

theorem changed_key (project : String) (f : List (Job P) → List (Job P)) (entry : String × List (Job P)) :
    (changed project f entry).1 = entry.1 := by
  unfold changed
  split <;> rfl

theorem keys_changed (project : String) (f : List (Job P) → List (Job P)) (queues : List (String × List (Job P))) :
    (queues.map (changed project f)).map Prod.fst = queues.map Prod.fst := by
  rw [List.map_map]
  exact List.map_congr_left fun entry _ => changed_key project f entry

theorem queue_changed {project : String} {f : List (Job P) → List (Job P)}
    {queues : List (String × List (Job P))} (hm : m.queues = queues.map (changed project f)) (p : String) :
    m.queue p = if p = project then ((Lookup.get Prod.fst queues p).map fun entry => f entry.2).getD []
      else ((Lookup.get Prod.fst queues p).map Prod.snd).getD [] := by
  unfold Memory.queue
  rw [hm, Lookup.get_map (changed_key project f)]
  cases hget : Lookup.get Prod.fst queues p with
  | none => split <;> rfl
  | some entry =>
    have hkey := (Lookup.get_key hget).2
    rw [Option.map_some, Option.map_some]
    unfold changed
    rw [hkey]
    split <;> rfl

theorem popAndUpdate_queues (m : Memory P) (project : String) :
    (popAndUpdate m project).2.queues = m.queues.map (changed project List.tail) := rfl

theorem queue_pop (m : Memory P) (project p : String) :
    (popAndUpdate m project).2.queue p = if p = project then (m.queue p).tail else m.queue p := by
  rw [queue_changed (popAndUpdate_queues m project)]
  unfold Memory.queue
  cases Lookup.get Prod.fst m.queues p <;> split <;> rfl

theorem ticks_pop (hunique : Lookup.Unique Prod.fst m.queues) (project p : String) :
    (popAndUpdate m project).2.starvationTicks p =
      if p = project then 0 else if m.queue p ≠ [] then m.starvationTicks p + 1 else m.starvationTicks p := by
  unfold popAndUpdate
  dsimp only
  split
  · rfl
  · rename_i hne
    refine if_congr ?_ rfl rfl
    change (m.queues.map (changed project List.tail)).any _ = true ↔ _
    rw [List.any_eq_true]
    constructor
    · rintro ⟨entry, hentry, h⟩
      rw [Bool.and_eq_true, decide_eq_true_eq, Bool.not_eq_true', List.isEmpty_eq_false_iff] at h
      obtain ⟨hkey, hjobs⟩ := h
      obtain ⟨⟨p', jobs⟩, hmem, rfl⟩ := List.mem_map.mp hentry
      rw [changed_key] at hkey
      cases hkey
      unfold changed at hjobs
      rw [if_neg hne] at hjobs
      rw [queue_eq hunique hmem]
      exact hjobs
    · intro hjobs
      obtain ⟨job, jobs, hqueue⟩ := List.exists_cons_of_ne_nil hjobs
      refine ⟨(p, job :: jobs), List.mem_map.mpr ⟨_, mem_of_queue hqueue, ?_⟩, ?_⟩
      · unfold changed
        exact if_neg hne
      · rw [decide_eq_true rfl]
        rfl

theorem enqueueJob_queues (cfg : Config) (m : Memory P) (job : Job P) :
    ∃ queues, (enqueueJob cfg m job).queues = queues.map (changed job.projectId (· ++ [job])) ∧
      ((queues = m.queues ∧ ∃ entry, Lookup.get Prod.fst m.queues job.projectId = some entry) ∨
        (queues = m.queues ++ [(job.projectId, [])] ∧ ∀ entry ∈ m.queues, entry.1 ≠ job.projectId)) := by
  unfold enqueueJob
  dsimp only
  split
  · rename_i hany
    exact ⟨m.queues, rfl, Or.inl ⟨rfl, Lookup.any_key.mp hany⟩⟩
  · rename_i hany
    exact ⟨m.queues ++ [(job.projectId, [])], rfl, Or.inr ⟨rfl, Lookup.not_any_key hany⟩⟩

theorem queue_enqueue (m : Memory P) (job : Job P) (p : String) :
    (enqueueJob cfg m job).queue p = if p = job.projectId then m.queue p ++ [job] else m.queue p := by
  obtain ⟨queues, hqueues, ⟨rfl, entry, hget⟩ | ⟨rfl, hnew⟩⟩ := enqueueJob_queues cfg m job
  · rw [queue_changed hqueues]
    unfold Memory.queue
    split
    · rename_i hp
      rw [hp, hget]
      rfl
    · rfl
  · rw [queue_changed hqueues, Lookup.get_append]
    unfold Memory.queue
    split
    · rename_i hp
      rw [hp, Lookup.get_eq_none.mpr hnew, Option.none_or, Lookup.get_cons, if_pos rfl]
      rfl
    · rename_i hp
      rw [Lookup.get_cons, if_neg fun h => hp h.symm]
      change ((Option.or _ none).map _).getD [] = _
      rw [Option.or_none]

theorem ticks_enqueue (cfg : Config) (m : Memory P) (job : Job P) (hticks : ∀ p, m.queue p = [] → m.starvationTicks p = 0) :
    (enqueueJob cfg m job).starvationTicks = m.starvationTicks := by
  unfold enqueueJob
  dsimp only
  split
  · rfl
  · rename_i hany
    refine Function.update_eq_self_iff.mpr (hticks _ ?_).symm
    unfold Memory.queue
    rw [Lookup.get_eq_none.mpr (Lookup.not_any_key hany)]
    rfl

theorem enqueueJob_known (cfg : Config) {m : Memory P} {job : Job P} (h : job.projectId ∈ m.queues.map Prod.fst) :
    enqueueJob cfg m job = { m with queues := m.queues.map (changed job.projectId (· ++ [job])) } := by
  obtain ⟨entry, hentry, hkey⟩ := List.mem_map.mp h
  unfold enqueueJob
  rw [if_pos (List.any_eq_true.mpr ⟨entry, hentry, decide_eq_true hkey⟩)]
  rfl

theorem credits_enqueue (cfg : Config) (m : Memory P) (job : Job P) {p : String} (hp : p ∈ m.queues.map Prod.fst) :
    (enqueueJob cfg m job).deficitCredits p = m.deficitCredits p := by
  unfold enqueueJob
  dsimp only
  split
  · rfl
  · rename_i hany
    refine Function.update_of_ne ?_ _ _
    rintro rfl
    obtain ⟨entry, hentry, hkey⟩ := List.mem_map.mp hp
    exact Lookup.not_any_key hany entry hentry hkey

theorem keys_enqueue (cfg : Config) (m : Memory P) (job : Job P) {p : String} (hp : p ∈ m.queues.map Prod.fst) :
    p ∈ (enqueueJob cfg m job).queues.map Prod.fst := by
  obtain ⟨queues, hqueues, hcases⟩ := enqueueJob_queues cfg m job
  rw [hqueues, keys_changed]
  rcases hcases with ⟨rfl, -⟩ | ⟨rfl, -⟩
  · exact hp
  · rw [List.map_append]
    exact List.mem_append_left _ hp

theorem credits_enqueue_nonneg (m : Memory P) (job : Job P) (h : ∀ p, 0 ≤ m.deficitCredits p) (p : String) :
    0 ≤ (enqueueJob cfg m job).deficitCredits p := by
  unfold enqueueJob
  dsimp only
  split
  · exact h p
  · by_cases hp : p = job.projectId
    · subst hp
      dsimp only
      rw [Function.update_self]
      exact (weight_pos cfg _).le
    · dsimp only
      rw [Function.update_of_ne hp]
      exact h p

theorem unique_enqueue (h : Lookup.Unique Prod.fst m.queues) (job : Job P) :
    Lookup.Unique Prod.fst (enqueueJob cfg m job).queues := by
  obtain ⟨queues, hqueues, ⟨rfl, -⟩ | ⟨rfl, hnew⟩⟩ := enqueueJob_queues cfg m job
  · rw [Lookup.Unique, hqueues, keys_changed]
    exact h
  · rw [Lookup.Unique, hqueues, keys_changed]
    refine Lookup.unique_insert (by rw [List.append_nil]; exact h) ?_
    rw [List.append_nil]
    exact hnew

theorem dispatchable_spec (clock : Nat → Int) (queues : List (String × List (Job P))) :
    ∀ (n : Nat) (slots : List SlotAllocation),
      (dispatchable cfg clock n slots queues).1.Sublist ((queues.filter fun e => !e.2.isEmpty).map Prod.fst) ∧
        (dispatchable cfg clock n slots queues).2.Sublist slots := by
  induction queues with
  | nil => exact fun n slots => ⟨List.Sublist.refl _, List.Sublist.refl _⟩
  | cons entry queues ih =>
    obtain ⟨project, jobs⟩ := entry
    intro n slots
    cases jobs with
    | nil => exact ih n slots
    | cons head jobs =>
      obtain ⟨hfound, hslots⟩ := ih (n + 1) (reconcileExpired slots (clock n))
      rw [dispatchable, List.filter_cons_of_pos rfl, List.map_cons]
      refine ⟨?_, hslots.trans List.filter_sublist⟩
      dsimp only
      split
      · exact hfound.cons_cons _
      · exact hfound.cons _

theorem offers_sublist (w : World P) (clock : Nat → Int) :
    (offers cfg w clock).Sublist ((w.memory.queues.filter fun e => !e.2.isEmpty).map Prod.fst) :=
  (dispatchable_spec clock w.memory.queues 1 _).1

theorem queue_of_offered (hunique : Lookup.Unique Prod.fst w.memory.queues) {clock : Nat → Int}
    {p : String} (h : p ∈ offers cfg w clock) : w.memory.queue p ≠ [] := by
  obtain ⟨⟨p', jobs⟩, hentry, rfl⟩ := List.mem_map.mp ((offers_sublist w clock).subset h)
  obtain ⟨hmem, hjobs⟩ := List.mem_filter.mp hentry
  rw [queue_eq hunique hmem]
  rw [Bool.not_eq_true', List.isEmpty_eq_false_iff] at hjobs
  exact hjobs

theorem offers_nodup (hunique : Lookup.Unique Prod.fst w.memory.queues) (clock : Nat → Int) :
    (offers cfg w clock).Nodup :=
  ((offers_sublist w clock).trans (List.filter_sublist.map Prod.fst)).nodup hunique

def booksOf (m : Memory P) : Credits.Books String Rat := ⟨m.deficitCredits, m.starvationTicks⟩

theorem argmax_congr {α β : Type} [LinearOrder β] [DecidableEq α] {f g : α → β} {l : List α} (h : ∀ a ∈ l, f a = g a) :
    l.argmax f = l.argmax g := by
  apply Option.ext
  intro a
  simp only [List.argmax_eq_some_iff]
  constructor
  · rintro ⟨ha, hmax, hfirst⟩
    refine ⟨ha, fun c hc => ?_, fun c hc hle => hfirst c hc ?_⟩
    · rw [← h a ha, ← h c hc]
      exact hmax c hc
    · rw [h a ha, h c hc]
      exact hle
  · rintro ⟨ha, hmax, hfirst⟩
    refine ⟨ha, fun c hc => ?_, fun c hc hle => hfirst c hc ?_⟩
    · rw [h a ha, h c hc]
      exact hmax c hc
    · rw [← h a ha, ← h c hc]
      exact hle

theorem select_starved (h : starved cfg m S ≠ []) :
    ∃ p, selectProject cfg m S = some (p, m.deficitCredits) ∧ p ∈ S ∧
      ∀ q ∈ S, cfg.weights.maxStarvationTicks ≤ m.starvationTicks q → m.starvationTicks q ≤ m.starvationTicks p := by
  unfold selectProject
  rw [if_pos h]
  cases hmax : (starved cfg m S).argmax m.starvationTicks with
  | none => exact absurd (List.argmax_eq_none.mp hmax) h
  | some p =>
    refine ⟨p, rfl, (List.mem_filter.mp (List.argmax_mem hmax)).1, ?_⟩
    intro q hq hticks
    exact List.le_of_mem_argmax (List.mem_filter.mpr ⟨hq, decide_eq_true hticks⟩) hmax

theorem select_credit (h : starved cfg m S = []) (hS : S ≠ []) :
    ∃ p credits, selectProject cfg m S = some (p, credits) ∧ Credits.choice S cfg.weight (booksOf m) = some p ∧
      credits = (Credits.next S cfg.weight (booksOf m)).credit := by
  unfold selectProject
  rw [if_neg (not_not.mpr h)]
  dsimp only
  have hcongr : S.argmax (fun p => if p ∈ S then m.deficitCredits p + cfg.weight p else m.deficitCredits p) =
      Credits.choice S cfg.weight (booksOf m) := argmax_congr fun p hp => if_pos hp
  rw [hcongr]
  obtain ⟨p, hp⟩ := Credits.choice_isSome (w := cfg.weight) (b := booksOf m) hS
  refine ⟨p, _, by rw [hp]; rfl, hp, ?_⟩
  funext q
  have hmem := Credits.choice_mem hp
  by_cases hqp : q = p
  · subst hqp
    rw [Function.update_self, Credits.credit_chosen hp, if_pos hmem]
    rfl
  · rw [Function.update_of_ne hqp]
    unfold Credits.next
    rw [hp]
    exact (if_neg hqp).symm

theorem select_nil : selectProject cfg m [] = none := by
  unfold selectProject starved
  rw [if_neg (by rw [List.filter_nil]; exact fun h => h rfl)]
  rfl

theorem select_nonneg (hcredits : ∀ p, 0 ≤ m.deficitCredits p) {S : List String} {p : String}
    {credits : String → Rat} (h : selectProject cfg m S = some (p, credits)) : p ∈ S ∧ ∀ q, 0 ≤ credits q := by
  by_cases hstarved : starved cfg m S = []
  · by_cases hS : S = []
    · rw [hS, select_nil] at h
      cases h
    · obtain ⟨p', credits', hselect, hchoice, rfl⟩ := select_credit hstarved hS
      rw [hselect] at h
      cases h
      refine ⟨Credits.choice_mem hchoice, fun q => ?_⟩
      unfold Credits.next
      rw [hchoice]
      dsimp only
      split
      · exact le_max_left ..
      · split
        · exact add_nonneg (hcredits q) (weight_pos cfg q).le
        · exact hcredits q
  · obtain ⟨p', hselect, hmem, -⟩ := select_starved hstarved
    rw [hselect] at h
    cases h
    exact ⟨hmem, hcredits⟩

theorem dequeueNext_cases (cfg : Config) (w : World P) (clock : Nat → Int) :
    ∃ slots, slots.Sublist w.memory.activeSlots ∧
      ((offers cfg w clock = [] ∧ dequeueNext cfg w.memory clock = (none, { w.memory with activeSlots := slots })) ∨
        ∃ p credits, selectProject cfg w.memory (offers cfg w clock) = some (p, credits) ∧
          dequeueNext cfg w.memory clock =
            popAndUpdate { w.memory with activeSlots := slots, deficitCredits := credits } p) := by
  generalize hslots : (dispatchable cfg clock 1 (reconcileExpired w.memory.activeSlots (clock 0)) w.memory.queues).2 =
    slots
  have hunfold : dequeueNext cfg w.memory clock = match selectProject cfg w.memory (offers cfg w clock) with
      | none => (none, { w.memory with activeSlots := slots })
      | some served => popAndUpdate { w.memory with activeSlots := slots, deficitCredits := served.2 } served.1 := by
    have hselect : selectProject cfg { w.memory with activeSlots := slots } (offers cfg w clock) =
      selectProject cfg w.memory (offers cfg w clock) := rfl
    rw [← hselect, ← hslots]
    unfold dequeueNext offers
    dsimp only
    split
    · rename_i hnone
      rw [hnone]
    · rename_i hsome
      rw [hsome]
  refine ⟨slots, hslots ▸ (dispatchable_spec clock w.memory.queues 1 _).2.trans List.filter_sublist, ?_⟩
  rw [hunfold]
  by_cases hS : offers cfg w clock = []
  · rw [hS, select_nil]
    exact Or.inl ⟨rfl, rfl⟩
  · right
    by_cases hstarved : starved cfg w.memory (offers cfg w clock) = []
    · obtain ⟨p, credits, hselect, -⟩ := select_credit hstarved hS
      rw [hselect]
      exact ⟨p, credits, rfl, rfl⟩
    · obtain ⟨p, hselect, -⟩ := select_starved hstarved
      rw [hselect]
      exact ⟨p, _, rfl, rfl⟩

structure Fits (cfg : Config) (slots : List SlotAllocation) : Prop where
  named : ∀ slot ∈ slots, slot.slotId.1 = slot.kind
  capacity : ∀ kind, activeCount slots kind ≤ cfg.capacity.limit kind

theorem Fits.sublist {slots slots' : List SlotAllocation} (h : Fits cfg slots) (hsub : slots'.Sublist slots) :
    Fits cfg slots' :=
  ⟨fun slot hslot => h.named slot (hsub.subset hslot),
    fun kind => (hsub.filter _).length_le.trans (h.capacity kind)⟩

theorem Fits.put {slots : List SlotAllocation} (h : Fits cfg slots) (slot : SlotAllocation)
    (hnamed : slot.slotId.1 = slot.kind) (hroom : canAcquire cfg slots slot.kind = true) :
    Fits cfg (Lookup.put SlotAllocation.slotId slots slot) := by
  constructor
  · intro slot' hslot'
    rcases Lookup.mem_put hslot' with hold | rfl
    · exact h.named slot' hold
    · exact hnamed
  · intro kind
    unfold Lookup.put
    split
    · -- the slot takes the place of one of its kind
      have hkinds : activeCount (slots.map fun s => if s.slotId = slot.slotId then slot else s) kind =
          activeCount slots kind := by
        unfold activeCount
        rw [List.filter_map, List.length_map]
        refine congrArg List.length (List.filter_congr fun s hs => ?_)
        rw [Function.comp_apply]
        split
        · rename_i hsame
          rw [← hnamed, ← hsame, h.named s hs]
        · rfl
      rw [hkinds]
      exact h.capacity kind
    · unfold activeCount
      rw [List.filter_append, List.length_append]
      by_cases hkind : slot.kind = kind
      · have hless := of_decide_eq_true hroom
        rw [hkind] at hless
        have hone : ([slot].filter fun s => decide (s.kind = kind)) = [slot] :=
          List.filter_cons_of_pos (decide_eq_true hkind)
        rw [hone]
        exact hless
      · have hnone : ([slot].filter fun s => decide (s.kind = kind)) = [] :=
          List.filter_cons_of_neg fun h => hkind (of_decide_eq_true h)
        rw [hnone]
        exact h.capacity kind

structure Sound (cfg : Config) (json : P → Option P) (m : Memory P) : Prop where
  unique : Lookup.Unique Prod.fst m.queues
  own : ∀ entry ∈ m.queues, ∀ job ∈ entry.2, job.projectId = entry.1
  clean : ∀ entry ∈ m.queues, ∀ job ∈ entry.2, json job.payload = some job.payload
  ticks : ∀ p, m.queue p = [] → m.starvationTicks p = 0
  solvent : ∀ p, 0 ≤ m.deficitCredits p
  fits : Fits cfg m.activeSlots

structure Inv (cfg : Config) (json : P → Option P) (w : World P) : Prop where
  memory : Sound cfg json w.memory
  order : ∀ p, (w.returned.filter fun job => decide (job.projectId = p)) ++ w.memory.queue p =
    w.enqueued.filter fun job => decide (job.projectId = p)
  file : ∃ slots, Fits cfg slots ∧ load w.file = { w.memory with activeSlots := slots }

theorem Sound.slots (h : Sound cfg json m) {slots : List SlotAllocation} (hfits : Fits cfg slots) :
    Sound cfg json { m with activeSlots := slots } :=
  ⟨h.unique, h.own, h.clean, h.ticks, h.solvent, hfits⟩

theorem mapM_fixed {α : Type} {f : α → Option α} {xs : List α} (h : ∀ x ∈ xs, f x = some x) : xs.mapM f = some xs := by
  induction xs with
  | nil => rfl
  | cons x xs ih =>
    rw [List.forall_mem_cons] at h
    exact Traverse.traverse_cons.mpr ⟨x, xs, h.1, ih h.2, rfl⟩

theorem Sound.dumps (h : Sound cfg json m) : dumps json m = some m := by
  have hqueues : m.queues.mapM (dumpedQueue json) = some m.queues := by
    refine mapM_fixed fun entry hentry => ?_
    have hjobs : entry.2.mapM (Job.dumped json) = some entry.2 := by
      refine mapM_fixed fun job hjob => ?_
      unfold Job.dumped
      rw [h.clean entry hentry job hjob]
      rfl
    unfold dumpedQueue
    rw [hjobs]
    rfl
  unfold Portfolio.dumps
  rw [hqueues]
  rfl

theorem Sound.save (h : Sound cfg json m) (file : Option (Memory P)) : load (save json m file) = m := by
  unfold Portfolio.save load
  rw [h.dumps]
  rfl

theorem Fits.nil : Fits cfg [] := ⟨List.forall_mem_nil _, fun _ => Nat.zero_le _⟩

theorem Sound.start : Sound cfg json (Memory.empty P) :=
  ⟨List.nodup_nil, List.forall_mem_nil _, List.forall_mem_nil _, fun _ _ => rfl, fun _ => le_refl 0, .nil⟩

theorem Inv.start : Inv cfg json (World.start P) := ⟨.start, fun _ => rfl, [], .nil, rfl⟩

theorem Inv.slots (h : Inv cfg json w) {slots : List SlotAllocation} (hfits : Fits cfg slots) :
    Inv cfg json { w with memory := { w.memory with activeSlots := slots } } ∧
      Inv cfg json (w.saved json { w.memory with activeSlots := slots }) := by
  have hsound := h.memory.slots hfits
  exact ⟨⟨hsound, h.order, h.file⟩, ⟨hsound, h.order, slots, hfits, hsound.save w.file⟩⟩

theorem Sound.enqueue (h : Sound cfg json m) {job : Job P} (hclean : json job.payload = some job.payload) :
    Sound cfg json (enqueueJob cfg m job) := by
  have hmem : ∀ entry ∈ (enqueueJob cfg m job).queues, ∀ job' ∈ entry.2,
      (∃ entry' ∈ m.queues, entry'.1 = entry.1 ∧ job' ∈ entry'.2) ∨ (job' = job ∧ entry.1 = job.projectId) := by
    obtain ⟨queues, hqueues, hcases⟩ := enqueueJob_queues cfg m job
    intro entry hentry job' hjob'
    rw [hqueues] at hentry
    obtain ⟨entry', hentry', rfl⟩ := List.mem_map.mp hentry
    have hold : job' ∈ entry'.2 → ∃ entry ∈ m.queues, entry.1 = entry'.1 ∧ job' ∈ entry.2 := by
      intro hjob
      rcases hcases with ⟨rfl, -⟩ | ⟨rfl, -⟩
      · exact ⟨entry', hentry', rfl, hjob⟩
      · rcases List.mem_append.mp hentry' with hmem | hnew
        · exact ⟨entry', hmem, rfl, hjob⟩
        · rw [List.mem_singleton] at hnew
          subst hnew
          cases hjob
    rw [changed_key]
    unfold changed at hjob'
    split at hjob'
    · rename_i hproject
      rcases List.mem_append.mp hjob' with hjob | hjob
      · exact Or.inl (hold hjob)
      · exact Or.inr ⟨List.mem_singleton.mp hjob, hproject⟩
    · exact Or.inl (hold hjob')
  have hticks := ticks_enqueue cfg m job h.ticks
  refine ⟨unique_enqueue h.unique job, ?_, ?_, ?_, credits_enqueue_nonneg m job h.solvent, ?_⟩
  · intro entry hentry job' hjob'
    rcases hmem entry hentry job' hjob' with ⟨entry', hentry', hkey, hjob⟩ | ⟨rfl, hkey⟩
    · rw [← hkey]
      exact h.own entry' hentry' job' hjob
    · exact hkey.symm
  · intro entry hentry job' hjob'
    rcases hmem entry hentry job' hjob' with ⟨entry', hentry', hkey, hjob⟩ | ⟨rfl, hkey⟩
    · exact h.clean entry' hentry' job' hjob
    · exact hclean
  · intro p hp
    rw [hticks]
    refine h.ticks p ?_
    rw [queue_enqueue] at hp
    split at hp
    · exact absurd (List.append_eq_nil_iff.mp hp).2 (List.cons_ne_nil _ _)
    · exact hp
  · unfold enqueueJob
    dsimp only
    split <;> exact h.fits

theorem Sound.pop (h : Sound cfg json m) (project : String) : Sound cfg json (popAndUpdate m project).2 := by
  have hmem : ∀ entry ∈ (popAndUpdate m project).2.queues, ∀ job ∈ entry.2,
      ∃ entry' ∈ m.queues, entry'.1 = entry.1 ∧ job ∈ entry'.2 := by
    intro entry hentry job hjob
    rw [popAndUpdate_queues] at hentry
    obtain ⟨entry', hentry', rfl⟩ := List.mem_map.mp hentry
    rw [changed_key]
    unfold changed at hjob
    split at hjob
    · exact ⟨entry', hentry', rfl, List.mem_of_mem_tail hjob⟩
    · exact ⟨entry', hentry', rfl, hjob⟩
  refine ⟨?_, ?_, ?_, ?_, h.solvent, h.fits⟩
  · rw [Lookup.Unique, popAndUpdate_queues, keys_changed]
    exact h.unique
  · intro entry hentry job hjob
    obtain ⟨entry', hentry', hkey, hjob'⟩ := hmem entry hentry job hjob
    rw [← hkey]
    exact h.own entry' hentry' job hjob'
  · intro entry hentry job hjob
    obtain ⟨entry', hentry', -, hjob'⟩ := hmem entry hentry job hjob
    exact h.clean entry' hentry' job hjob'
  · intro p hp
    rw [queue_pop] at hp
    rw [ticks_pop h.unique]
    split
    · rfl
    · rename_i hne
      rw [if_neg hne] at hp
      rw [if_neg (not_not.mpr hp)]
      exact h.ticks p hp

def servedMemory (w : World P) (slots : List SlotAllocation) (p : String) (credits : String → Rat) : Memory P :=
  (popAndUpdate { w.memory with activeSlots := slots, deficitCredits := credits } p).2

inductive Dequeued (cfg : Config) (json : P → Option P) (w : World P) (clock : Nat → Int) : Prop where
  | nothing (slots : List SlotAllocation) : slots.Sublist w.memory.activeSlots → offers cfg w clock = [] →
      served cfg w (.dequeueNext clock) = none →
      step cfg json w (.dequeueNext clock) = { w with memory := { w.memory with activeSlots := slots } } →
      Dequeued cfg json w clock
  | serves (slots : List SlotAllocation) (p : String) (credits : String → Rat) (job : Job P) (jobs : List (Job P)) :
      slots.Sublist w.memory.activeSlots → p ∈ offers cfg w clock →
      selectProject cfg w.memory (offers cfg w clock) = some (p, credits) → (∀ q, 0 ≤ credits q) →
      w.memory.queue p = job :: jobs → job.projectId = p → served cfg w (.dequeueNext clock) = some p →
      step cfg json w (.dequeueNext clock) =
        { w.saved json (servedMemory w slots p credits) with returned := w.returned ++ [job] } →
      Dequeued cfg json w clock

theorem dequeued (h : Inv cfg json w) (clock : Nat → Int) : Dequeued cfg json w clock := by
  obtain ⟨slots, hslots, ⟨hnone, hdequeue⟩ | ⟨p, credits, hselect, hdequeue⟩⟩ := dequeueNext_cases cfg w clock
  · refine .nothing slots hslots hnone ?_ ?_
    · unfold served
      dsimp only
      rw [hdequeue]
      rfl
    · unfold step
      dsimp only
      rw [hdequeue]
  · obtain ⟨hmem, hcredits⟩ := select_nonneg h.memory.solvent hselect
    obtain ⟨job, jobs, hqueue⟩ := List.exists_cons_of_ne_nil (queue_of_offered h.memory.unique hmem)
    have hproject := h.memory.own _ (mem_of_queue hqueue) job List.mem_cons_self
    have hpop : popAndUpdate { w.memory with activeSlots := slots, deficitCredits := credits } p =
        (some job, servedMemory w slots p credits) := by
      refine Prod.ext ?_ rfl
      change (w.memory.queue p).head? = some job
      rw [hqueue]
      rfl
    rw [hpop] at hdequeue
    refine .serves slots p credits job jobs hslots hmem hselect hcredits hqueue hproject ?_ ?_
    · unfold served
      dsimp only
      rw [hdequeue]
      exact congrArg some hproject
    · unfold step
      dsimp only
      rw [hdequeue]

theorem Sound.served (h : Sound cfg json w.memory) {slots : List SlotAllocation}
    (hslots : slots.Sublist w.memory.activeSlots) (p : String) {credits : String → Rat} (hcredits : ∀ q, 0 ≤ credits q) :
    Sound cfg json (servedMemory w slots p credits) := by
  have hbefore : Sound cfg json { w.memory with activeSlots := slots, deficitCredits := credits } :=
    ⟨h.unique, h.own, h.clean, h.ticks, hcredits, h.fits.sublist hslots⟩
  exact hbefore.pop p

theorem inv_saved (hm : Sound cfg json m) {enqueued returned : List (Job P)}
    (horder : ∀ p, (returned.filter fun job => decide (job.projectId = p)) ++ m.queue p =
      enqueued.filter fun job => decide (job.projectId = p)) :
    Inv cfg json { w.saved json m with enqueued, returned } :=
  ⟨hm, horder, m.activeSlots, hm.fits, hm.save w.file⟩

theorem reconciled (slots : List SlotAllocation) (now : Int) : (reconcileExpired slots now).Sublist slots :=
  List.filter_sublist

theorem Fit.kept {op : Op P} (h : Fit cfg json w op) : Kept json op := by
  cases op with
  | enqueueJob job => exact h
  | _ => trivial

theorem inv_step (h : Inv cfg json w) (op : Op P) (hkept : Kept json op) : Inv cfg json (step cfg json w op) := by
  cases op with
  | enqueueJob job =>
    refine inv_saved (h.memory.enqueue hkept) fun p => ?_
    rw [queue_enqueue, List.filter_append, ← h.order p]
    by_cases hp : job.projectId = p
    · have hone : ([job].filter fun job => decide (job.projectId = p)) = [job] :=
        List.filter_cons_of_pos (decide_eq_true hp)
      rw [if_pos hp.symm, hone, List.append_assoc]
      rfl
    · have hnone : ([job].filter fun job => decide (job.projectId = p)) = [] :=
        List.filter_cons_of_neg fun h => hp (of_decide_eq_true h)
      rw [if_neg (fun h => hp h.symm), hnone, List.append_nil]
      rfl
  | dequeueNext clock =>
    cases dequeued h clock with
    | nothing slots hslots hnone hserved hstep =>
      rw [hstep]
      exact (h.slots (h.memory.fits.sublist hslots)).1
    | serves slots p credits job jobs hslots hmem hselect hcredits hqueue hproject hserved hstep =>
      rw [hstep]
      refine inv_saved (h.memory.served hslots p hcredits) fun q => ?_
      have hpop : (servedMemory w slots p credits).queue q = if q = p then (w.memory.queue q).tail else w.memory.queue q :=
        queue_pop _ p q
      change _ = w.enqueued.filter fun job => decide (job.projectId = q)
      rw [hpop, List.filter_append, ← h.order q]
      by_cases hq : q = p
      · subst hq
        have hone : ([job].filter fun job => decide (job.projectId = q)) = [job] :=
          List.filter_cons_of_pos (decide_eq_true hproject)
        rw [if_pos rfl, hone, hqueue, List.append_assoc]
        rfl
      · have hnone : ([job].filter fun job => decide (job.projectId = q)) = [] :=
          List.filter_cons_of_neg fun h => hq ((of_decide_eq_true h).symm.trans hproject)
        rw [if_neg hq, hnone, List.append_nil]
  | acquireSlot jobId workerId draw kind lease clock =>
    have hslots : Fits cfg (reconcileExpired (reconcileExpired w.memory.activeSlots (clock 0)) (clock 1)) :=
      h.memory.fits.sublist ((reconciled _ _).trans (reconciled _ _))
    unfold step acquireSlot
    dsimp only
    by_cases hroom : canAcquire cfg (reconcileExpired (reconcileExpired w.memory.activeSlots (clock 0)) (clock 1)) kind =
        true
    · rw [if_pos hroom]
      exact (h.slots (hslots.put ⟨(kind, draw), jobId, workerId, kind, clock 2, clock 2 + lease⟩ rfl hroom)).2
    · rw [if_neg hroom]
      exact (h.slots (hslots.sublist (reconciled _ _))).1
  | releaseSlot slotId =>
    unfold step releaseSlot
    dsimp only
    by_cases hany : w.memory.activeSlots.any (fun slot => decide (slot.slotId = slotId)) = true
    · rw [if_pos hany]
      exact (h.slots (h.memory.fits.sublist List.filter_sublist)).2
    · rw [if_neg hany]
      exact h
  | activeCounts now => exact (h.slots (h.memory.fits.sublist (reconciled _ _))).1
  | reload =>
    obtain ⟨slots, hslots, hload⟩ := h.file
    have heq : step cfg json w .reload = { w with memory := { w.memory with activeSlots := slots } } := by
      unfold step
      rw [hload]
    rw [heq]
    exact (h.slots hslots).1

theorem step_slots (h : Inv cfg json w) {op : Op P} (hdequeue : ∀ clock, op ≠ .dequeueNext clock)
    (henqueue : ∀ job, op ≠ .enqueueJob job) :
    ∃ slots, (step cfg json w op).memory = { w.memory with activeSlots := slots } := by
  cases op with
  | enqueueJob job => exact absurd rfl (henqueue job)
  | dequeueNext clock => exact absurd rfl (hdequeue clock)
  | acquireSlot jobId workerId draw kind lease clock =>
    unfold step acquireSlot
    dsimp only
    by_cases hroom : canAcquire cfg (reconcileExpired (reconcileExpired w.memory.activeSlots (clock 0)) (clock 1)) kind =
        true
    · rw [if_pos hroom]
      exact ⟨_, rfl⟩
    · rw [if_neg hroom]
      exact ⟨_, rfl⟩
  | releaseSlot slotId =>
    unfold step releaseSlot
    dsimp only
    by_cases hany : w.memory.activeSlots.any (fun slot => decide (slot.slotId = slotId)) = true
    · rw [if_pos hany]
      exact ⟨_, rfl⟩
    · rw [if_neg hany]
      exact ⟨_, rfl⟩
  | activeCounts now => exact ⟨_, rfl⟩
  | reload =>
    obtain ⟨slots, -, hload⟩ := h.file
    exact ⟨slots, hload⟩

/-- The other projects with a queue that have waited for at least as long. -/
def threats (m : Memory P) (p : String) : Finset String :=
  (m.queues.map Prod.fst).toFinset.filter fun q =>
    q ≠ p ∧ m.starvationTicks p ≤ m.starvationTicks q ∧ (m.queue q).isEmpty = false

theorem mem_threats {p q : String} :
    q ∈ threats m p ↔ q ≠ p ∧ m.starvationTicks p ≤ m.starvationTicks q ∧ m.queue q ≠ [] := by
  unfold threats
  rw [Finset.mem_filter, List.mem_toFinset, List.isEmpty_eq_false_iff, and_iff_right_iff_imp]
  rintro ⟨-, -, hqueue⟩
  obtain ⟨job, jobs, hcons⟩ := List.exists_cons_of_ne_nil hqueue
  exact List.mem_map_of_mem (mem_of_queue hcons)

def patience (cfg : Config) (m : Memory P) (p : String) : Nat :=
  (cfg.weights.maxStarvationTicks - m.starvationTicks p) + (threats m p).card

theorem ticks_step (h : Inv cfg json w) {op : Op P} (hdequeue : ∀ clock, op ≠ .dequeueNext clock) :
    (step cfg json w op).memory.starvationTicks = w.memory.starvationTicks := by
  by_cases henqueue : ∃ job, op = .enqueueJob job
  · obtain ⟨job, rfl⟩ := henqueue
    exact ticks_enqueue cfg w.memory job h.memory.ticks
  · obtain ⟨slots, hslots⟩ := step_slots h hdequeue fun job hjob => henqueue ⟨job, hjob⟩
    rw [hslots]

theorem patience_step (h : Inv cfg json w) {op : Op P} (hdequeue : ∀ clock, op ≠ .dequeueNext clock)
    {p : String} (hwaits : 0 < w.memory.starvationTicks p) :
    patience cfg (step cfg json w op).memory p ≤ patience cfg w.memory p := by
  have hticks := ticks_step h hdequeue
  unfold patience
  rw [hticks]
  refine Nat.add_le_add_left (Finset.card_le_card fun q hq => ?_) _
  rw [mem_threats, hticks] at hq
  rw [mem_threats]
  refine ⟨hq.1, hq.2.1, fun hnone => ?_⟩
  have hzero := h.memory.ticks q hnone
  omega

theorem patience_dequeue (h : Inv cfg json w) {clock : Nat → Int} {p : String}
    (hoffered : p ∈ offers cfg w clock) (hpassed : served cfg w (.dequeueNext clock) ≠ some p) :
    patience cfg (step cfg json w (.dequeueNext clock)).memory p < patience cfg w.memory p ∧
      0 < (step cfg json w (.dequeueNext clock)).memory.starvationTicks p := by
  have hunique := h.memory.unique
  have hqueue := queue_of_offered hunique hoffered
  cases dequeued h clock with
  | nothing slots hslots hnone hserved hstep =>
    rw [hnone] at hoffered
    cases hoffered
  | serves slots p' credits job jobs hslots hmem hselect hcredits hqueue' hproject hserved hstep =>
    have hne : p ≠ p' := by
      rintro rfl
      exact hpassed hserved
    have hticks : ∀ q, (step cfg json w (.dequeueNext clock)).memory.starvationTicks q = if q = p' then 0
        else if w.memory.queue q ≠ [] then w.memory.starvationTicks q + 1 else w.memory.starvationTicks q := by
      intro q
      rw [hstep]
      exact ticks_pop (m := { w.memory with activeSlots := slots, deficitCredits := credits }) hunique p' q
    have hself : (step cfg json w (.dequeueNext clock)).memory.starvationTicks p = w.memory.starvationTicks p + 1 := by
      rw [hticks, if_neg hne, if_pos hqueue]
    have hthreats : ∀ q ∈ threats (step cfg json w (.dequeueNext clock)).memory p, q ≠ p' ∧ q ∈ threats w.memory p := by
      intro q hq
      obtain ⟨hqp, hmore, -⟩ := mem_threats.mp hq
      rw [hself, hticks] at hmore
      split at hmore
      · omega
      · rename_i hqp'
        split at hmore
        · rename_i hsome
          exact ⟨hqp', mem_threats.mpr ⟨hqp, by omega, hsome⟩⟩
        · rename_i hnone
          have hzero := h.memory.ticks q (not_not.mp hnone)
          omega
    refine ⟨?_, by rw [hself]; exact Nat.succ_pos _⟩
    unfold patience
    rw [hself]
    by_cases hstarved : cfg.weights.maxStarvationTicks ≤ w.memory.starvationTicks p
    · -- the guard serves one that has waited for at least as long, which is then no threat any more
      have hguard : starved cfg w.memory (offers cfg w clock) ≠ [] :=
        List.ne_nil_of_mem (List.mem_filter.mpr ⟨hoffered, decide_eq_true hstarved⟩)
      obtain ⟨p'', hselect', -, hmost⟩ := select_starved hguard
      rw [hselect] at hselect'
      cases hselect'
      have hthreat : p' ∈ threats w.memory p := by
        rw [mem_threats, hqueue']
        exact ⟨hne.symm, hmost p hoffered hstarved, List.cons_ne_nil _ _⟩
      have hcard : (threats (step cfg json w (.dequeueNext clock)).memory p).card < (threats w.memory p).card := by
        refine Finset.card_lt_card ⟨fun q hq => (hthreats q hq).2, fun hsub => ?_⟩
        exact (hthreats p' (hsub hthreat)).1 rfl
      omega
    · have hcard : (threats (step cfg json w (.dequeueNext clock)).memory p).card ≤ (threats w.memory p).card :=
        Finset.card_le_card fun q hq => (hthreats q hq).2
      omega

theorem dequeues_cons (m : Move (World P) (Op P)) (moves : List (Move (World P) (Op P))) :
    dequeues cfg (m :: moves) = (if (served cfg m.pre m.act).isSome then 1 else 0) + dequeues cfg moves := by
  unfold dequeues
  rw [List.filter_cons]
  split
  · rw [List.length_cons, Nat.add_comm]
  · rw [Nat.zero_add]

theorem dequeues_le (h : Inv cfg json w) {p : String} (hwaits : 0 < w.memory.starvationTicks p)
    (window : List (Op P)) (hfit : ∀ m ∈ Runs.moves (step cfg json) w window, Fit cfg json m.pre m.act)
    (hoffered : ∀ m ∈ Runs.moves (step cfg json) w window, ∀ clock, m.act = .dequeueNext clock →
      p ∈ offers cfg m.pre clock)
    (hpassed : ∀ m ∈ Runs.moves (step cfg json) w window, served cfg m.pre m.act ≠ some p) :
    dequeues cfg (Runs.moves (step cfg json) w window) ≤ patience cfg w.memory p := by
  induction window generalizing w with
  | nil => exact Nat.zero_le _
  | cons op window ih =>
    rw [Runs.moves, List.forall_mem_cons] at hfit hoffered hpassed
    have hnext := inv_step h op hfit.1.kept
    rw [Runs.moves, dequeues_cons]
    by_cases hdequeue : ∃ clock, op = .dequeueNext clock
    · obtain ⟨clock, rfl⟩ := hdequeue
      obtain ⟨hless, hwaits'⟩ := patience_dequeue h (hoffered.1 clock rfl) hpassed.1
      have hrest := ih hnext hwaits' hfit.2 hoffered.2 hpassed.2
      split <;> omega
    · have hother : ∀ clock, op ≠ .dequeueNext clock := fun clock hclock => hdequeue ⟨clock, hclock⟩
      have hserved : served cfg w op = none := by
        cases op with
        | dequeueNext clock => exact absurd rfl (hother clock)
        | _ => rfl
      have hticks := ticks_step h hother
      have hrest := ih hnext (by rw [hticks]; exact hwaits) hfit.2 hoffered.2 hpassed.2
      have hle := patience_step h hother hwaits
      rw [hserved]
      simp only [Option.isSome_none, Bool.false_eq_true, if_false]
      omega

theorem patience_le (cfg : Config) {w : World P} {p : String} (hqueue : w.memory.queue p ≠ []) :
    patience cfg w.memory p < cfg.weights.maxStarvationTicks + backlog w := by
  have hsub : threats w.memory p ⊆
      ((w.memory.queues.filter fun entry => !entry.2.isEmpty).map Prod.fst).toFinset.erase p := by
    intro q hq
    obtain ⟨hqp, -, hjobs⟩ := mem_threats.mp hq
    obtain ⟨job, jobs, hcons⟩ := List.exists_cons_of_ne_nil hjobs
    rw [Finset.mem_erase, List.mem_toFinset]
    exact ⟨hqp, List.mem_map.mpr ⟨_, List.mem_filter.mpr ⟨mem_of_queue hcons, rfl⟩, rfl⟩⟩
  obtain ⟨job, jobs, hcons⟩ := List.exists_cons_of_ne_nil hqueue
  have hmem : p ∈ ((w.memory.queues.filter fun entry => !entry.2.isEmpty).map Prod.fst).toFinset :=
    List.mem_toFinset.mpr (List.mem_map.mpr ⟨_, List.mem_filter.mpr ⟨mem_of_queue hcons, rfl⟩, rfl⟩)
  have hcard := Finset.card_le_card hsub
  have hpos := Finset.card_pos.mpr ⟨p, hmem⟩
  rw [Finset.card_erase_of_mem hmem] at hcard
  have hlength := List.toFinset_card_le ((w.memory.queues.filter fun entry => !entry.2.isEmpty).map Prod.fst)
  rw [List.length_map] at hlength
  unfold patience backlog
  omega

theorem selections_zero {moves : List (Move (World P) (Op P))} {p : String} (h : ¬ 0 < selections cfg moves p) :
    ∀ m ∈ moves, served cfg m.pre m.act ≠ some p := by
  unfold selections at h
  rw [Nat.not_lt, Nat.le_zero, List.length_eq_zero_iff, List.filter_eq_nil_iff] at h
  exact fun m hm hserved => h m hm (decide_eq_true hserved)

theorem selected_within (h : Inv cfg json w) (clock : Nat → Int) (window : List (Op P)) {p : String}
    (hfit : ∀ m ∈ Runs.moves (step cfg json) w (.dequeueNext clock :: window), Fit cfg json m.pre m.act)
    (hoffered : ∀ m ∈ Runs.moves (step cfg json) w (.dequeueNext clock :: window), ∀ clock, m.act = .dequeueNext clock →
      p ∈ offers cfg m.pre clock)
    (hmany : cfg.weights.maxStarvationTicks + backlog w ≤
      dequeues cfg (Runs.moves (step cfg json) w (.dequeueNext clock :: window))) :
    0 < selections cfg (Runs.moves (step cfg json) w (.dequeueNext clock :: window)) p := by
  by_contra hnever
  have hpassed := selections_zero hnever
  rw [Runs.moves, List.forall_mem_cons] at hfit hoffered hpassed
  rw [Runs.moves, dequeues_cons] at hmany
  have hfirst := hoffered.1 clock rfl
  obtain ⟨hless, hwaits⟩ := patience_dequeue h hfirst hpassed.1
  have hrest := dequeues_le (inv_step h _ hfit.1.kept) hwaits window hfit.2 hoffered.2 hpassed.2
  have hle := patience_le cfg (queue_of_offered h.memory.unique hfirst)
  dsimp only at hmany hless hrest
  split at hmany <;> omega

def Agree (S : List String) (b b' : Credits.Books String Rat) : Prop :=
  ∀ q ∈ S, b.credit q = b'.credit q ∧ b.waited q = b'.waited q

theorem Agree.choice (h : Agree S b b') (weight : String → Rat) :
    Credits.choice S weight b = Credits.choice S weight b' := by
  refine argmax_congr fun q hq => ?_
  unfold Credits.offered
  rw [(h q hq).1]

theorem Agree.trans {b'' : Credits.Books String Rat} (h : Agree S b b') (h' : Agree S b' b'') : Agree S b b'' :=
  fun q hq => ⟨(h q hq).1.trans (h' q hq).1, (h q hq).2.trans (h' q hq).2⟩

theorem Agree.next (h : Agree S b b') (weight : String → Rat) :
    Agree S (Credits.next S weight b) (Credits.next S weight b') := by
  intro q hq
  cases hchoice : Credits.choice S weight b with
  | none => exact absurd (List.argmax_eq_none.mp hchoice) (List.ne_nil_of_mem hq)
  | some p =>
    have hsame : ∀ r ∈ S, Credits.offered weight b r = Credits.offered weight b' r := by
      intro r hr
      unfold Credits.offered
      rw [(h r hr).1]
    have hchoice' := (h.choice weight).symm.trans hchoice
    by_cases hqp : q = p
    · subst hqp
      rw [Credits.credit_chosen hchoice, Credits.credit_chosen hchoice', hsame q hq, Credits.waited_chosen hchoice,
        Credits.waited_chosen hchoice']
      exact ⟨rfl, rfl⟩
    · rw [Credits.credit_other hchoice hqp hq, Credits.credit_other hchoice' hqp hq, hsame q hq,
        Credits.waited_other hchoice hqp, Credits.waited_other hchoice' hqp, (h q hq).2]
      exact ⟨rfl, rfl⟩

theorem not_starved (h : starved cfg m S = []) {q : String} (hq : q ∈ S) :
    m.starvationTicks q < cfg.weights.maxStarvationTicks := by
  unfold starved at h
  rw [List.filter_eq_nil_iff] at h
  exact Nat.not_le.mp fun hle => h q hq (decide_eq_true hle)

theorem selections_cons (m : Move (World P) (Op P)) (moves : List (Move (World P) (Op P))) (p : String) :
    selections cfg (m :: moves) p =
      (if served cfg m.pre m.act = some p then 1 else 0) + selections cfg moves p := by
  unfold selections
  rw [List.filter_cons]
  by_cases hserved : served cfg m.pre m.act = some p
  · rw [if_pos hserved, decide_eq_true hserved, if_pos rfl, List.length_cons, Nat.add_comm]
  · rw [if_neg hserved, decide_eq_false hserved, if_neg Bool.false_ne_true, Nat.zero_add]

theorem served_other {op : Op P} (hdequeue : ∀ clock, op ≠ .dequeueNext clock) : served cfg w op = none := by
  cases op with
  | dequeueNext clock => exact absurd rfl (hdequeue clock)
  | _ => rfl

theorem books_step (h : Inv cfg json w) {op : Op P} (hdequeue : ∀ clock, op ≠ .dequeueNext clock)
    {q : String} (hq : q ∈ w.memory.queues.map Prod.fst) :
    q ∈ (step cfg json w op).memory.queues.map Prod.fst ∧
      (step cfg json w op).memory.deficitCredits q = w.memory.deficitCredits q := by
  by_cases henqueue : ∃ job, op = .enqueueJob job
  · obtain ⟨job, rfl⟩ := henqueue
    exact ⟨keys_enqueue cfg w.memory job hq, credits_enqueue cfg w.memory job hq⟩
  · obtain ⟨slots, hslots⟩ := step_slots h hdequeue fun job hjob => henqueue ⟨job, hjob⟩
    rw [hslots]
    exact ⟨hq, rfl⟩

theorem round_step (h : Inv cfg json w) {clock : Nat → Int} {S : List String} (hS : S ≠ [])
    (hoffers : offers cfg w clock = S) (hguard : starved cfg w.memory S = []) :
    served cfg w (.dequeueNext clock) = Credits.choice S cfg.weight (booksOf w.memory) ∧
      (step cfg json w (.dequeueNext clock)).memory.queues.map Prod.fst = w.memory.queues.map Prod.fst ∧
      Agree S (booksOf (step cfg json w (.dequeueNext clock)).memory)
        (Credits.next S cfg.weight (booksOf w.memory)) := by
  cases dequeued h clock with
  | nothing slots hslots hnone hserved hstep => exact absurd (hoffers.symm.trans hnone) hS
  | serves slots p credits job jobs hslots hmem hselect hcredits hqueue hproject hserved hstep =>
    obtain ⟨p', credits', hselect', hchoice, hcredits'⟩ := select_credit hguard hS
    rw [hoffers, hselect'] at hselect
    cases hselect
    refine ⟨hserved.trans hchoice.symm, ?_, ?_⟩
    · rw [hstep]
      exact keys_changed _ _ _
    · intro q hq
      rw [hstep]
      constructor
      · change credits q = _
        rw [hcredits']
      · have hjobs : w.memory.queue q ≠ [] := queue_of_offered h.memory.unique (hoffers.symm ▸ hq)
        have hticks : (servedMemory w slots p credits).starvationTicks q =
            if q = p then 0 else if w.memory.queue q ≠ [] then w.memory.starvationTicks q + 1
              else w.memory.starvationTicks q :=
          ticks_pop (m := { w.memory with activeSlots := slots, deficitCredits := credits }) h.memory.unique p q
        change (servedMemory w slots p credits).starvationTicks q = _
        rw [hticks, if_pos hjobs]
        unfold Credits.next
        rw [hchoice]
        rfl

theorem stretch_course (hS : S ≠ []) (window : List (Op P)) {w : World P} (h : Inv cfg json w)
    (hkeys : ∀ q ∈ S, q ∈ w.memory.queues.map Prod.fst) {b : Credits.Books String Rat}
    (hagree : Agree S (booksOf w.memory) b)
    (hfit : ∀ m ∈ Runs.moves (step cfg json) w window, Fit cfg json m.pre m.act)
    (hstretch : Stretch cfg S (Runs.moves (step cfg json) w window)) :
    ∃ n, Credits.Alert S cfg.weight cfg.weights.maxStarvationTicks b n ∧
      ∀ p, selections cfg (Runs.moves (step cfg json) w window) p = Credits.chosen S cfg.weight b p n := by
  induction window generalizing w b with
  | nil => exact ⟨0, fun k hk => absurd hk (Nat.not_lt_zero k), fun _ => rfl⟩
  | cons op window ih =>
    rw [Runs.moves, List.forall_mem_cons] at hfit
    unfold Stretch at hstretch
    rw [Runs.moves, List.forall_mem_cons] at hstretch
    have hnext := inv_step h op hfit.1.kept
    by_cases hdequeue : ∃ clock, op = .dequeueNext clock
    · obtain ⟨clock, rfl⟩ := hdequeue
      obtain ⟨hoffers, hguard⟩ := hstretch.1 clock rfl
      obtain ⟨hserved, hqueues, hbooks⟩ := round_step h hS hoffers hguard
      obtain ⟨n, halert, hcount⟩ := ih hnext (by rw [hqueues]; exact hkeys) (hbooks.trans (hagree.next cfg.weight))
        hfit.2 hstretch.2
      refine ⟨n + 1, halert.cons fun q hq => ?_, fun p => ?_⟩
      · rw [← (hagree q hq).2]
        exact not_starved hguard hq
      · rw [Runs.moves, selections_cons, hcount, Credits.chosen_cons, hserved, hagree.choice]
    · have hother : ∀ clock, op ≠ .dequeueNext clock := fun clock hclock => hdequeue ⟨clock, hclock⟩
      have hbooks : Agree S (booksOf (step cfg json w op).memory) b := by
        intro q hq
        refine ⟨(books_step h hother (hkeys q hq)).2.trans (hagree q hq).1, ?_⟩
        rw [← (hagree q hq).2]
        exact congrFun (ticks_step h hother) q
      obtain ⟨n, halert, hcount⟩ := ih hnext (fun q hq => (books_step h hother (hkeys q hq)).1) hbooks hfit.2 hstretch.2
      refine ⟨n, halert, fun p => ?_⟩
      rw [Runs.moves, selections_cons, served_other hother, hcount, if_neg (fun h => by cases h), Nat.zero_add]

theorem stretch_balanced (hS : S ≠ []) (window : List (Op P)) {w : World P} (h : Inv cfg json w)
    (hfit : ∀ m ∈ Runs.moves (step cfg json) w window, Fit cfg json m.pre m.act)
    (hstretch : Stretch cfg S (Runs.moves (step cfg json) w window)) :
    (∀ p, selections cfg (Runs.moves (step cfg json) w window) p = 0) ∨
      (S.Nodup ∧ Credits.Balanced S cfg.weight) ∧ ∃ b n, Credits.Solvent S b ∧
        Credits.Alert S cfg.weight cfg.weights.maxStarvationTicks b n ∧
        ∀ p, selections cfg (Runs.moves (step cfg json) w window) p = Credits.chosen S cfg.weight b p n := by
  induction window generalizing w with
  | nil => exact Or.inl fun _ => rfl
  | cons op window ih =>
    by_cases hdequeue : ∃ clock, op = .dequeueNext clock
    · right
      obtain ⟨clock, rfl⟩ := hdequeue
      obtain ⟨hoffers, hguard⟩ := hstretch _ List.mem_cons_self clock rfl
      dsimp only at hoffers hguard
      have hbalanced := hfit _ List.mem_cons_self
      dsimp only [Fit] at hbalanced
      rw [hoffers] at hbalanced
      have hkeys : ∀ q ∈ S, q ∈ w.memory.queues.map Prod.fst := by
        intro q hq
        rw [← hoffers] at hq
        exact (List.filter_sublist.map Prod.fst).subset ((offers_sublist w clock).subset hq)
      obtain ⟨n, halert, hcount⟩ := stretch_course hS (.dequeueNext clock :: window) h hkeys
        (fun _ _ => ⟨rfl, rfl⟩) hfit hstretch
      exact ⟨⟨hoffers ▸ offers_nodup h.memory.unique clock, hbalanced hguard⟩, booksOf w.memory, n,
        fun q _ => h.memory.solvent q, halert, hcount⟩
    · have hother : ∀ clock, op ≠ .dequeueNext clock := fun clock hclock => hdequeue ⟨clock, hclock⟩
      have hsame : ∀ p, selections cfg (Runs.moves (step cfg json) w (op :: window)) p =
          selections cfg (Runs.moves (step cfg json) (step cfg json w op) window) p := by
        intro p
        rw [Runs.moves, selections_cons, served_other hother, if_neg (fun h => by cases h), Nat.zero_add]
      unfold Stretch at hstretch
      rw [Runs.moves, List.forall_mem_cons] at hfit hstretch
      simp only [hsame]
      exact ih (inv_step h op hfit.1.kept) hfit.2 hstretch.2

theorem stretch_fair (cfg : Config) (json : P → Option P) {S : List String} {p q : String} (hp : p ∈ S) (hq : q ∈ S) :
    ∃ bound : Rat, ∀ (w : World P) (window : List (Op P)), Inv cfg json w →
      (∀ m ∈ Runs.moves (step cfg json) w window, Fit cfg json m.pre m.act) →
      Stretch cfg S (Runs.moves (step cfg json) w window) →
      |(selections cfg (Runs.moves (step cfg json) w window) p : Rat) / cfg.weight p -
        selections cfg (Runs.moves (step cfg json) w window) q / cfg.weight q| ≤ bound := by
  have hS := List.ne_nil_of_mem hp
  have hnone : ∀ {moves : List (Move (World P) (Op P))}, (∀ r, selections cfg moves r = 0) →
      |(selections cfg moves p : Rat) / cfg.weight p - selections cfg moves q / cfg.weight q| = 0 := by
    intro moves hzero
    rw [hzero, hzero, Nat.cast_zero, zero_div, zero_div, sub_zero, abs_zero]
  by_cases hbalanced : S.Nodup ∧ Credits.Balanced S cfg.weight
  · obtain ⟨bound, hbound⟩ := Credits.fair hbalanced.1 (fun r _ => weight_pos cfg r) hbalanced.2
      cfg.weights.maxStarvationTicks hp hq
    refine ⟨max 0 bound, fun w window h hfit hstretch => ?_⟩
    rcases stretch_balanced hS window h hfit hstretch with hzero | ⟨-, b, n, hsolvent, halert, hcount⟩
    · rw [hnone hzero]
      exact le_max_left ..
    · rw [hcount, hcount]
      exact (hbound b n hsolvent halert).trans (le_max_right ..)
  · refine ⟨0, fun w window h hfit hstretch => ?_⟩
    rcases stretch_balanced hS window h hfit hstretch with hzero | ⟨hyes, -⟩
    · rw [hnone hzero]
    · exact absurd hyes hbalanced

theorem inv_run (ops : List (Op P))
    (hfit : ∀ m ∈ Runs.moves (step cfg json) (World.start P) ops, Fit cfg json m.pre m.act) :
    Inv cfg json (Runs.run (step cfg json) (World.start P) ops) :=
  Runs.run_invariant_of (I := Inv cfg json) (C := Fit cfg json) (fun _ op h hfit => inv_step h op hfit.kept) .start hfit

theorem fit_append {ops window : List (Op P)}
    (hfit : ∀ m ∈ Runs.moves (step cfg json) w (ops ++ window), Fit cfg json m.pre m.act) :
    (∀ m ∈ Runs.moves (step cfg json) w ops, Fit cfg json m.pre m.act) ∧
      ∀ m ∈ Runs.moves (step cfg json) (Runs.run (step cfg json) w ops) window, Fit cfg json m.pre m.act := by
  rw [Runs.moves_append, List.forall_mem_append] at hfit
  exact hfit

theorem scheduled_of_fit (cfg : Config) (json : P → Option P) : Scheduled cfg json (Fit cfg json) where
  order ops hfit := (inv_run ops hfit).order
  capacity ops hfit := (inv_run ops hfit).memory.fits.capacity
  starvation ops clock window hfit p hoffered hmany :=
    selected_within (inv_run ops (fit_append hfit).1) clock window (fit_append hfit).2 hoffered hmany
  fairness S p hp q hq := by
    obtain ⟨bound, hbound⟩ := stretch_fair cfg json hp hq
    refine ⟨bound, fun ops window hfit hstretch => ?_⟩
    exact hbound _ window (inv_run ops (fit_append hfit).1) (fit_append hfit).2 hstretch
  saved ops hfit := (inv_run ops hfit).memory.save _

end

def fourToThree : Config where
  capacity := {}
  weights := ⟨[("a", 1 / 2), ("b", 3 / 8)], 1, 5, by norm_num⟩

def chore (project : String) : Job Unit := ⟨project, project, .heavy, 0, 0, ()⟩

def turn (project : String) : List (Op Unit) := [.dequeueNext fun _ => 0, .enqueueJob (chore project)]

def rounds : Nat → List (Op Unit)
  | 0 => []
  | n + 1 => (turn "a" ++ turn "b") ++ rounds n

structure Paired (w : World Unit) : Prop where
  inv : Inv fourToThree some w
  queues : w.memory.queues = [("a", [chore "a"]), ("b", [chore "b"])]
  idle : w.memory.activeSlots = []

structure Level (w : World Unit) : Prop where
  paired : Paired w
  creditA : w.memory.deficitCredits "a" = 1 / 2
  creditB : 0 ≤ w.memory.deficitCredits "b" ∧ w.memory.deficitCredits "b" ≤ 3 / 8
  ticksA : w.memory.starvationTicks "a" ≤ 1
  ticksB : w.memory.starvationTicks "b" = 0

theorem weightA : fourToThree.weight "a" = 1 / 2 := rfl

theorem weightB : fourToThree.weight "b" = 3 / 8 := rfl

variable {w : World Unit}

theorem Paired.offers (h : Paired w) : offers fourToThree w (fun _ => 0) = ["a", "b"] := by
  unfold Portfolio.offers
  rw [h.queues, h.idle]
  rfl

theorem refill {m : Memory Unit} {p : String} (hp : p ∈ ["a", "b"])
    (hqueues : m.queues = [("a", [chore "a"]), ("b", [chore "b"])].map (changed p List.tail)) :
    enqueueJob fourToThree m (chore p) = { m with queues := [("a", [chore "a"]), ("b", [chore "b"])] } := by
  rw [enqueueJob_known, hqueues]
  · rcases List.mem_pair.mp hp with rfl | rfl <;> rfl
  · rw [hqueues, keys_changed]
    exact hp

theorem Paired.next (h : Paired w) (hguard : starved fourToThree w.memory ["a", "b"] = [])
    {p : String} (hchoice : Credits.choice ["a", "b"] fourToThree.weight (booksOf w.memory) = some p) :
    Paired (Runs.run (step fourToThree some) w (turn p)) ∧
      Agree ["a", "b"] (booksOf (Runs.run (step fourToThree some) w (turn p)).memory)
        (Credits.next ["a", "b"] fourToThree.weight (booksOf w.memory)) ∧
      (∀ q, selections fourToThree (Runs.moves (step fourToThree some) w (turn p)) q = if p = q then 1 else 0) ∧
      Stretch fourToThree ["a", "b"] (Runs.moves (step fourToThree some) w (turn p)) := by
  have hoffers := h.offers
  obtain ⟨hserved, hkeys, hbooks⟩ := round_step h.inv (List.cons_ne_nil _ _) hoffers hguard
  rw [hchoice] at hserved
  have hinv := inv_step h.inv (.dequeueNext fun _ => 0) trivial
  obtain ⟨hqueues, hidle⟩ : (step fourToThree some w (.dequeueNext fun _ => 0)).memory.queues =
      w.memory.queues.map (changed p List.tail) ∧
      (step fourToThree some w (.dequeueNext fun _ => 0)).memory.activeSlots = [] := by
    cases dequeued h.inv fun _ => 0 with
    | nothing slots hslots hnone hserved' hstep => exact absurd (hoffers.symm.trans hnone) (List.cons_ne_nil _ _)
    | serves slots p' credits job jobs hslots hmem hselect hcredits hqueue hproject hserved' hstep =>
      cases hserved.symm.trans hserved'
      rw [hstep]
      rw [h.idle] at hslots
      exact ⟨rfl, List.sublist_nil.mp hslots⟩
  rw [h.queues] at hqueues hkeys
  have hother : ∀ clock, Op.enqueueJob (chore p) ≠ .dequeueNext clock := fun _ hop => by cases hop
  have hmemory : (Runs.run (step fourToThree some) w (turn p)).memory =
      { (step fourToThree some w (.dequeueNext fun _ => 0)).memory with
        queues := [("a", [chore "a"]), ("b", [chore "b"])] } := refill (Credits.choice_mem hchoice) hqueues
  refine ⟨⟨inv_step hinv (.enqueueJob (chore p)) rfl, congrArg Memory.queues hmemory, ?_⟩, ?_, ?_, ?_⟩
  · rw [hmemory]
    exact hidle
  · rw [hmemory]
    exact hbooks
  · intro q
    unfold turn
    rw [Runs.moves, Runs.moves, Runs.moves, selections_cons, selections_cons, hserved, served_other hother,
      if_neg (Option.some_ne_none q).symm, Nat.zero_add]
    exact (Nat.add_zero _).trans (if_congr ⟨Option.some.inj, congrArg some⟩ rfl rfl)
  · intro m hm clock hclock
    rcases List.mem_pair.mp hm with rfl | rfl
    · cases hclock
      exact ⟨hoffers, hguard⟩
    · cases hclock

theorem unguarded {m : Memory Unit} (hticksA : m.starvationTicks "a" ≤ 1) (hticksB : m.starvationTicks "b" ≤ 1) :
    starved fourToThree m ["a", "b"] = [] := by
  have hmost : fourToThree.weights.maxStarvationTicks = 5 := rfl
  unfold starved
  rw [List.filter_eq_nil_iff, hmost]
  intro q hq hstarved
  have hticks := of_decide_eq_true hstarved
  rcases List.mem_pair.mp hq with rfl | rfl <;> omega

theorem selections_append (moves moves' : List (Move (World P) (Op P))) (p : String) :
    selections cfg (moves ++ moves') p = selections cfg moves p + selections cfg moves' p := by
  unfold selections
  rw [List.filter_append, List.length_append]

theorem Level.turnA (h : Level w) : Credits.choice ["a", "b"] fourToThree.weight (booksOf w.memory) = some "a" := by
  have hcreditA := h.creditA
  have hcreditB := h.creditB
  rw [Credits.choice_pair, if_neg]
  unfold Credits.offered booksOf
  rw [weightA, weightB, not_lt]
  dsimp only
  linarith

theorem Level.round (h : Level w) :
    Level (Runs.run (step fourToThree some) w (turn "a" ++ turn "b")) ∧
      (∀ q ∈ ["a", "b"], selections fourToThree (Runs.moves (step fourToThree some) w (turn "a" ++ turn "b")) q = 1) ∧
      Stretch fourToThree ["a", "b"] (Runs.moves (step fourToThree some) w (turn "a" ++ turn "b")) := by
  have hne : "b" ≠ "a" := by decide
  have hfirst : "a" ∈ ["a", "b"] := List.mem_cons_self
  have hsecond : "b" ∈ ["a", "b"] := List.mem_cons_of_mem _ List.mem_cons_self
  have hcreditA := h.creditA
  have hcreditB := h.creditB
  obtain ⟨hpaired, hbooks, hcountA, hstretchA⟩ :=
    h.paired.next (unguarded h.ticksA (by rw [h.ticksB]; exact Nat.zero_le 1)) h.turnA
  rw [Runs.run_append, Runs.moves_append]
  generalize Runs.run (step fourToThree some) w (turn "a") = w' at hpaired hbooks ⊢
  -- the first pays its whole credit
  have hcreditA' : w'.memory.deficitCredits "a" = 0 := by
    have hcredit := (hbooks "a" hfirst).1
    rw [Credits.credit_chosen h.turnA] at hcredit
    unfold Credits.offered booksOf at hcredit
    rw [weightA] at hcredit
    dsimp only at hcredit
    rw [hcredit, hcreditA]
    norm_num
  have hcreditB' : w'.memory.deficitCredits "b" = w.memory.deficitCredits "b" + 3 / 8 := by
    have hcredit := (hbooks "b" hsecond).1
    rw [Credits.credit_other h.turnA hne hsecond] at hcredit
    exact hcredit
  have hticksA' : w'.memory.starvationTicks "a" = 0 := (hbooks "a" hfirst).2.trans (Credits.waited_chosen h.turnA)
  have hticksB' : w'.memory.starvationTicks "b" = 1 :=
    ((hbooks "b" hsecond).2.trans (Credits.waited_other h.turnA hne)).trans (congrArg (· + 1) h.ticksB)
  have hturnB : Credits.choice ["a", "b"] fourToThree.weight (booksOf w'.memory) = some "b" := by
    rw [Credits.choice_pair, if_pos]
    unfold Credits.offered booksOf
    rw [weightA, weightB]
    dsimp only
    linarith
  obtain ⟨hpaired', hlater, hcountB, hstretchB⟩ :=
    hpaired.next (unguarded (by rw [hticksA']; exact Nat.zero_le 1) hticksB'.le) hturnB
  refine ⟨⟨hpaired', ?_, ?_, ?_, ?_⟩, ?_, ?_⟩
  · have hcredit := (hlater "a" hfirst).1
    rw [Credits.credit_other hturnB hne.symm hfirst] at hcredit
    unfold Credits.offered booksOf at hcredit
    rw [weightA] at hcredit
    dsimp only at hcredit
    rw [hcredit, hcreditA', zero_add]
  · have hcredit := (hlater "b" hsecond).1
    rw [Credits.credit_chosen hturnB] at hcredit
    unfold Credits.offered booksOf at hcredit
    rw [weightB] at hcredit
    dsimp only at hcredit
    rw [hcredit]
    exact ⟨le_max_left .., max_le (by norm_num) (by linarith)⟩
  · have hticks := (hlater "a" hfirst).2.trans (Credits.waited_other hturnB hne.symm)
    exact (hticks.trans (congrArg (· + 1) hticksA')).le
  · exact (hlater "b" hsecond).2.trans (Credits.waited_chosen hturnB)
  · intro q hq
    rw [selections_append, hcountA, hcountB]
    rcases List.mem_pair.mp hq with rfl | rfl
    · rw [if_pos rfl, if_neg hne]
    · rw [if_neg hne.symm, if_pos rfl]
  · intro m hm
    rcases List.mem_append.mp hm with hm | hm
    · exact hstretchA m hm
    · exact hstretchB m hm

theorem Level.rounds (h : Level w) (n : Nat) :
    (∀ q ∈ ["a", "b"], selections fourToThree (Runs.moves (step fourToThree some) w (rounds n)) q = n) ∧
      Stretch fourToThree ["a", "b"] (Runs.moves (step fourToThree some) w (rounds n)) := by
  induction n generalizing w with
  | zero => exact ⟨fun _ _ => rfl, fun _ hm => by cases hm⟩
  | succ n ih =>
    obtain ⟨hlevel, hcount, hstretch⟩ := h.round
    obtain ⟨hcounts, hstretches⟩ := ih hlevel
    unfold Portfolio.rounds
    rw [Runs.moves_append]
    constructor
    · intro q hq
      rw [selections_append, hcount q hq, hcounts q hq, Nat.add_comm]
    · intro m hm
      rcases List.mem_append.mp hm with hm | hm
      · exact hstretch m hm
      · exact hstretches m hm

theorem Level.start : Level (Runs.run (step fourToThree some) (World.start Unit)
    [.enqueueJob (chore "a"), .enqueueJob (chore "b")]) where
  paired := ⟨inv_step (inv_step .start (.enqueueJob (chore "a")) rfl) (.enqueueJob (chore "b")) rfl, rfl, rfl⟩
  creditA := rfl
  creditB := by
    change 0 ≤ (3 / 8 : Rat) ∧ (3 / 8 : Rat) ≤ 3 / 8
    norm_num
  ticksA := Nat.zero_le 1
  ticksB := rfl

/-- With weights of four to three, both are served as often, and the shares move apart without a bound. -/
theorem unequal_weights_unfair : ¬ Scheduled fourToThree some fun (_ : World Unit) _ => True := by
  intro h
  obtain ⟨bound, hbound⟩ := h.fairness ["a", "b"] "a" List.mem_cons_self "b" (List.mem_cons_of_mem _ List.mem_cons_self)
  obtain ⟨n, hn⟩ := exists_nat_gt (3 / 2 * bound)
  obtain ⟨hcount, hstretch⟩ := Level.start.rounds n
  have hdiff := hbound _ (rounds n) (fun _ _ => trivial) hstretch
  rw [hcount "a" List.mem_cons_self, hcount "b" (List.mem_cons_of_mem _ List.mem_cons_self), weightA, weightB] at hdiff
  have hapart : (n : Rat) / (1 / 2) - n / (3 / 8) = -(2 / 3 * n) := by ring
  rw [hapart, abs_neg, abs_of_nonneg (by positivity)] at hdiff
  linarith

end Portfolio
end DarkFactory
