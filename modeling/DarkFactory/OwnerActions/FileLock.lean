import DarkFactory.OwnerActions.Writes

/-!
# DarkFactory.OwnerActions.FileLock

`_file_lock` of `core/owner_actions/store.py` and the read-modify-replace inside it, for any number of processes.

* `step` — the atomic steps: exclusive create, stat, unlink of a stale file, read, replace, unlink on exit.
* `Brief` — every live holder keeps the lock for no longer than `_LOCK_STALE_S`.
* `OwnTakeover` — a stale file that is unlinked is still the one whose age was checked.
-/

namespace DarkFactory
namespace OwnerActions
namespace FileLock

structure LockFile where
  creator : Nat
  mtime : Nat
deriving DecidableEq

/-- What a call does to the document of the file; nothing when it raises. -/
abbrev Mutation (δ : Type) := δ → Option δ

inductive Session (δ : Type) where
  | absent
  /-- Before `os.open`. -/
  | trying (f : Mutation δ)
  /-- There is a lock file. -/
  | blocked (f : Mutation δ)
  /-- The lock file was stale. -/
  | judged (f : Mutation δ) (stale : LockFile)
  | inside (f : Mutation δ) (lock : LockFile) (read : Option δ)
  /-- Before the unlink on exit. -/
  | leaving (f : Mutation δ) (lock : LockFile) (replaced : Bool)
  | returned (f : Mutation δ)
  /-- The call raises; `publish_request` and `publish_closed` log it. -/
  | failed
  | crashed

variable {δ : Type}

def Session.holds : Session δ → Option LockFile
  | .inside _ lock _ | .leaving _ lock _ => some lock
  | _ => none

structure World (δ : Type) where
  doc : δ
  lock : Option LockFile := none
  now : Nat := 0
  /-- `_LOCK_STALE_S`, in the unit of the clock. -/
  lockStale : Nat := 60
  sessions : Nat → Session δ := fun _ => .absent

inductive Event (δ : Type) where
  | start (p : Nat) (f : Mutation δ)
  | create (p : Nat)
  | stat (p : Nat)
  | unlinkStale (p : Nat)
  | timeout (p : Nat)
  | read (p : Nat)
  | replace (p : Nat)
  | exit (p : Nat)
  | crash (p : Nat)
  | tick (n : Nat)

def World.set (w : World δ) (p : Nat) (s : Session δ) : World δ :=
  { w with sessions := fun q => if q = p then s else w.sessions q }

def step (w : World δ) : Event δ → World δ
  | .start p f =>
    match w.sessions p with
    | .absent => w.set p (.trying f)
    | _ => w
  | .create p =>
    match w.sessions p with
    | .trying f =>
      match w.lock with
      | none => { w with lock := some ⟨p, w.now⟩ }.set p (.inside f ⟨p, w.now⟩ none)
      | some _ => w.set p (.blocked f)
    | _ => w
  | .stat p =>
    match w.sessions p with
    | .blocked f =>
      match w.lock with
      | some lock => if lock.mtime + w.lockStale < w.now then w.set p (.judged f lock) else w.set p (.trying f)
      -- `stat` raises
      | none => w.set p (.trying f)
    | _ => w
  | .unlinkStale p =>
    match w.sessions p with
    -- by name
    | .judged f _ => { w with lock := none }.set p (.trying f)
    | _ => w
  | .timeout p =>
    match w.sessions p with
    | .trying _ => w.set p .failed
    | _ => w
  | .read p =>
    match w.sessions p with
    | .inside f lock none => w.set p (.inside f lock (some w.doc))
    | _ => w
  | .replace p =>
    match w.sessions p with
    | .inside f lock (some read) =>
      match f read with
      | some doc => { w with doc := doc }.set p (.leaving f lock true)
      | none => w.set p (.leaving f lock false)
    | _ => w
  | .exit p =>
    match w.sessions p with
    -- by name
    | .leaving f _ replaced => { w with lock := none }.set p (if replaced then .returned f else .failed)
    | _ => w
  | .crash p => w.set p .crashed
  | .tick n => { w with now := w.now + n }

def Brief (w : World δ) : Prop := ∀ p lock, (w.sessions p).holds = some lock → w.now ≤ lock.mtime + w.lockStale

def OwnTakeover (w : World δ) : Event δ → Prop
  | .unlinkStale p =>
    match w.sessions p with
    | .judged _ stale => ∀ lock ∈ w.lock, lock = stale
    | _ => True
  | _ => True

def written (w : World δ) : Event δ → Option (Nat × Mutation δ)
  | .replace p =>
    match w.sessions p with
    | .inside f _ (some read) => if (f read).isSome then some (p, f) else none
    | _ => none
  | _ => none

def writes (w : World δ) (events : List (Event δ)) : List (Nat × Mutation δ) :=
  (Runs.moves step w events).filterMap fun m => written m.pre m.act

structure Inv (w : World δ) : Prop where
  own : ∀ p lock, (w.sessions p).holds = some lock → w.lock = some lock ∧ lock.creator = p
  /-- What a holder has read is what the file holds. -/
  read : ∀ p f lock doc, w.sessions p = .inside f lock (some doc) → doc = w.doc
  judged : ∀ p f stale, w.sessions p = .judged f stale → stale.mtime + w.lockStale < w.now

variable {w : World δ} {ms : List (Nat × Mutation δ)}

theorem holds_unique (h : Inv w) {p q : Nat} {lock lock' : LockFile}
    (hp : (w.sessions p).holds = some lock) (hq : (w.sessions q).holds = some lock') : p = q := by
  obtain ⟨hlock, hcreator⟩ := h.own p lock hp
  obtain ⟨hlock', hcreator'⟩ := h.own q lock' hq
  rw [hlock] at hlock'
  cases hlock'
  exact hcreator.symm.trans hcreator'

theorem set_self (w : World δ) (p : Nat) (s : Session δ) : (w.set p s).sessions p = s := if_pos rfl

theorem set_ne (w : World δ) {p q : Nat} (s : Session δ) (h : q ≠ p) : (w.set p s).sessions q = w.sessions q := if_neg h

theorem inv_set (h : Inv w) {p : Nat} {s : Session δ}
    (hholds : ∀ lock, s.holds = some lock → w.lock = some lock ∧ lock.creator = p)
    (hread : ∀ f lock doc, s = .inside f lock (some doc) → doc = w.doc)
    (hjudged : ∀ f stale, s = .judged f stale → stale.mtime + w.lockStale < w.now) : Inv (w.set p s) := by
  refine ⟨fun q lock hq => ?_, fun q f lock doc hq => ?_, fun q f stale hq => ?_⟩
  all_goals by_cases hqp : q = p
  · subst hqp
    rw [set_self] at hq
    exact hholds lock hq
  · rw [set_ne w s hqp] at hq
    exact h.own q lock hq
  · subst hqp
    rw [set_self] at hq
    exact hread f lock doc hq
  · rw [set_ne w s hqp] at hq
    exact h.read q f lock doc hq
  · subst hqp
    rw [set_self] at hq
    exact hjudged f stale hq
  · rw [set_ne w s hqp] at hq
    exact h.judged q f stale hq

theorem inv_free (h : Inv w) {p : Nat} {s : Session δ} (hholds : s.holds = none)
    (hjudged : ∀ f stale, s = .judged f stale → stale.mtime + w.lockStale < w.now) : Inv (w.set p s) := by
  refine inv_set h (fun lock hlock => ?_) (fun f lock doc hs => ?_) hjudged
  · rw [hholds] at hlock
    cases hlock
  · rw [hs] at hholds
    cases hholds

/-- The lock file goes when no one holds it but the call `p`. -/
theorem inv_unlock (h : Inv w) {p : Nat} (hfree : ∀ q, q ≠ p → (w.sessions q).holds = none)
    {s : Session δ} (hholds : s.holds = none) (hjudged : ∀ f stale, s ≠ .judged f stale) :
    Inv ({ w with lock := none }.set p s) := by
  refine ⟨fun q lock hq => ?_, fun q f lock doc hq => ?_, fun q f stale hq => ?_⟩
  all_goals by_cases hqp : q = p
  · subst hqp
    rw [set_self, hholds] at hq
    cases hq
  · rw [set_ne _ s hqp] at hq
    rw [hfree q hqp] at hq
    cases hq
  · subst hqp
    rw [set_self] at hq
    rw [hq] at hholds
    cases hholds
  · rw [set_ne _ s hqp] at hq
    exact h.read q f lock doc hq
  · subst hqp
    rw [set_self] at hq
    exact absurd hq (hjudged f stale)
  · rw [set_ne _ s hqp] at hq
    exact h.judged q f stale hq

theorem inv_step {e : Event δ} (h : Inv w) (hbrief : Brief w) (hown : OwnTakeover w e) : Inv (step w e) := by
  unfold step
  cases e with
  | start p f =>
    dsimp only
    split
    · exact inv_free h rfl nofun
    · exact h
  | create p =>
    dsimp only
    split
    · rename_i f hs
      split
      · rename_i hlock
        -- the lock is free, so no one is inside
        have hfree : ∀ q, (w.sessions q).holds = none := by
          intro q
          cases hq : (w.sessions q).holds with
          | none => rfl
          | some lock =>
            rw [(h.own q lock hq).1] at hlock
            cases hlock
        have hinv : Inv { w with lock := some ⟨p, w.now⟩ } := by
          refine ⟨fun q lock hq => ?_, h.read, h.judged⟩
          rw [hfree q] at hq
          cases hq
        exact inv_set hinv (fun lock hlock => ⟨hlock, by cases hlock; rfl⟩) nofun nofun
      · exact inv_free h rfl nofun
    · exact h
  | stat p =>
    dsimp only
    split
    · split
      · split
        · rename_i hstale
          refine inv_free h rfl fun f stale hs => ?_
          cases hs
          exact hstale
        · exact inv_free h rfl nofun
      · exact inv_free h rfl nofun
    · exact h
  | unlinkStale p =>
    dsimp only
    split
    · rename_i f stale hs
      refine inv_unlock h (fun q hq => ?_) rfl nofun
      cases hholds : (w.sessions q).holds with
      | none => rfl
      | some lock =>
        -- the holder would have the stale file, which it keeps for less
        have hlock := (h.own q lock hholds).1
        have hown' : OwnTakeover w (.unlinkStale p) := hown
        unfold OwnTakeover at hown'
        dsimp only at hown'
        rw [hs] at hown'
        obtain rfl := hown' lock hlock
        have hold := hbrief q lock hholds
        have hstale := h.judged p f lock hs
        omega
    · exact h
  | timeout p =>
    dsimp only
    split
    · exact inv_free h rfl nofun
    · exact h
  | read p =>
    dsimp only
    split
    · rename_i f lock hs
      have hholds : (w.sessions p).holds = some lock := by rw [hs]; rfl
      refine inv_set h (fun lock' hlock => ?_) (fun f' lock' doc hs' => ?_) nofun
      · cases hlock
        exact h.own p lock hholds
      · cases hs'
        rfl
    · exact h
  | replace p =>
    dsimp only
    split
    · rename_i f lock read hs
      have hholds : (w.sessions p).holds = some lock := by rw [hs]; rfl
      split
      · rename_i doc hdoc
        refine ⟨fun q lock' hq => ?_, fun q f' lock' doc' hq => ?_, fun q f' stale hq => ?_⟩
        all_goals by_cases hqp : q = p
        · subst hqp
          rw [set_self] at hq
          cases hq
          exact h.own q lock hholds
        · rw [set_ne _ _ hqp] at hq
          exact h.own q lock' hq
        · subst hqp
          rw [set_self] at hq
          cases hq
        · rw [set_ne _ _ hqp] at hq
          exact absurd (holds_unique h (by rw [hq]; rfl) hholds) hqp
        · subst hqp
          rw [set_self] at hq
          cases hq
        · rw [set_ne _ _ hqp] at hq
          exact h.judged q f' stale hq
      · refine inv_set h (fun lock' hlock => ?_) nofun nofun
        cases hlock
        exact h.own p lock hholds
    · exact h
  | exit p =>
    dsimp only
    split
    · rename_i f lock replaced hs
      have hholds : (w.sessions p).holds = some lock := by rw [hs]; rfl
      refine inv_unlock h (fun q hq => ?_) ?_ fun f' stale hs' => ?_
      · cases hother : (w.sessions q).holds with
        | none => rfl
        | some lock' => exact absurd (holds_unique h hother hholds) hq
      · cases replaced <;> rfl
      · cases replaced <;> cases hs'
    · exact h
  | crash p => exact inv_free h rfl nofun
  | tick n =>
    refine ⟨h.own, h.read, fun p f stale hs => ?_⟩
    have hold := h.judged p f stale hs
    dsimp only
    omega

def replay (mutations : List (Nat × Mutation δ)) (doc : δ) : Option δ := mutations.foldlM (fun d m => m.2 d) doc

theorem written_step (h : Inv w) (e : Event δ) : replay (written w e).toList w.doc = some (step w e).doc := by
  have hnone : written w e = none → (step w e).doc = w.doc →
      replay (written w e).toList w.doc = some (step w e).doc := by
    intro hw hdoc
    rw [hw, hdoc]
    rfl
  cases e with
  | replace p =>
    cases hs : w.sessions p with
    | inside f lock read =>
      cases read with
      | none => exact hnone (by unfold written; dsimp only; rw [hs]) (by unfold step; dsimp only; rw [hs])
      | some read =>
        obtain rfl := h.read p f lock read hs
        unfold written step
        dsimp only
        rw [hs]
        dsimp only
        cases hf : f w.doc with
        | none => rfl
        | some doc =>
          rw [Option.isSome_some, if_pos rfl]
          have hreplay : replay [(p, f)] w.doc = (f w.doc).bind some := rfl
          rw [Option.toList_some, hreplay, hf]
          rfl
    | absent | trying | blocked | judged | leaving | returned | failed | crashed =>
      exact hnone (by unfold written; dsimp only; rw [hs]) (by unfold step; dsimp only; rw [hs])
  | start p f | create p | stat p | unlinkStale p | timeout p | read p | exit p =>
    refine hnone rfl ?_
    unfold step
    dsimp only
    repeat' split
    all_goals rfl
  | crash p | tick n => exact hnone rfl rfl

theorem writes_cons (w : World δ) (e : Event δ) (events : List (Event δ)) :
    writes w (e :: events) = (written w e).toList ++ writes (step w e) events := by
  rw [writes, Runs.moves, List.filterMap_cons]
  cases hw : written w e <;> rfl

theorem replay_append (ms ms' : List (Nat × Mutation δ)) (doc : δ) :
    replay (ms ++ ms') doc = (replay ms doc).bind (replay ms') := List.foldlM_append

/-- The calls that have replaced the file are among the writes `ms`. -/
def Recorded (ms : List (Nat × Mutation δ)) (w : World δ) : Prop :=
  ∀ p f, (w.sessions p = .returned f ∨ ∃ lock, w.sessions p = .leaving f lock true) → (p, f) ∈ ms

theorem recorded_set {w' : World δ} (h : Recorded ms w)
    (hsessions : ∀ q, w'.sessions q = w.sessions q) {p : Nat} {s : Session δ}
    (hs : ∀ f, (s = .returned f ∨ ∃ lock, s = .leaving f lock true) → (p, f) ∈ ms) : Recorded ms (w'.set p s) := by
  intro q f hq
  by_cases hqp : q = p
  · subst hqp
    rw [set_self] at hq
    exact hs f hq
  · rw [set_ne w' s hqp, hsessions] at hq
    exact h q f hq

theorem recorded_step (h : Recorded ms w) (e : Event δ) : Recorded (ms ++ (written w e).toList) (step w e) := by
  have hmore : Recorded (ms ++ (written w e).toList) w := fun p f hp => List.mem_append_left _ (h p f hp)
  have hquiet : ∀ (w' : World δ) (p : Nat) (s : Session δ), (∀ q, w'.sessions q = w.sessions q) →
      (∀ f, s ≠ .returned f) → (∀ f lock, s ≠ .leaving f lock true) →
      Recorded (ms ++ (written w e).toList) (w'.set p s) := by
    intro w' p s hsessions hreturned hleaving
    refine recorded_set hmore hsessions fun f hs => ?_
    rcases hs with hs | ⟨lock, hs⟩
    · exact absurd hs (hreturned f)
    · exact absurd hs (hleaving f lock)
  unfold step
  cases e with
  | start p f | create p | stat p | unlinkStale p | timeout p | read p =>
    dsimp only
    repeat' split
    all_goals first
      | exact hmore
      | exact hquiet _ p _ (fun _ => rfl) nofun nofun
  | crash p => exact hquiet w p _ (fun _ => rfl) nofun nofun
  | tick n => exact hmore
  | replace p =>
    dsimp only
    split
    · rename_i f lock read hs
      split
      · rename_i doc hdoc
        have hwritten : written w (.replace p) = some (p, f) := by
          unfold written
          dsimp only
          rw [hs]
          dsimp only
          rw [hdoc]
          rfl
        refine recorded_set hmore (fun _ => rfl) fun f' hs' => ?_
        rcases hs' with hs' | ⟨lock', hs'⟩
        · cases hs'
        · cases hs'
          rw [hwritten]
          exact List.mem_append_right _ List.mem_cons_self
      · exact hquiet w p _ (fun _ => rfl) nofun nofun
    · exact hmore
  | exit p =>
    dsimp only
    split
    · rename_i f lock replaced hs
      cases replaced with
      | false => exact hquiet _ p _ (fun _ => rfl) nofun nofun
      | true =>
        refine recorded_set hmore (fun _ => rfl) fun f' hs' => ?_
        rcases hs' with hs' | ⟨lock', hs'⟩
        · cases hs'
          exact hmore p f (.inr ⟨lock, hs⟩)
        · cases hs'
    · exact hmore

theorem recorded_run (h : Recorded ms w) (events : List (Event δ)) :
    Recorded (ms ++ writes w events) (Runs.run step w events) := by
  induction events generalizing ms w with
  | nil =>
    rw [writes, Runs.moves, List.filterMap_nil, List.append_nil]
    exact h
  | cons e events ih =>
    rw [writes_cons, ← List.append_assoc, Runs.run_cons]
    exact ih (recorded_step h e)

theorem replay_run (h : Inv w) {events : List (Event δ)}
    (hgood : ∀ m ∈ Runs.moves step w events, Brief m.pre ∧ OwnTakeover m.pre m.act) :
    replay (writes w events) w.doc = some (Runs.run step w events).doc := by
  induction events generalizing w with
  | nil => rfl
  | cons e events ih =>
    rw [Runs.moves, List.forall_mem_cons] at hgood
    rw [writes_cons, replay_append, written_step h e, Option.bind_some, Runs.run_cons]
    exact ih (inv_step h hgood.1.1 hgood.1.2) hgood.2

/-- Where no process unlinks a lock file other than the one that it has found stale, no update is lost. -/
theorem no_lost_update (w : World δ) (hstart : ∀ p, w.sessions p = .absent) (events : List (Event δ))
    (hbrief : ∀ m ∈ Runs.moves step w events, Brief m.pre)
    (hown : ∀ m ∈ Runs.moves step w events, OwnTakeover m.pre m.act) :
    (∀ p q, ((Runs.run step w events).sessions p).holds.isSome → ((Runs.run step w events).sessions q).holds.isSome →
      p = q) ∧
    replay (writes w events) w.doc = some (Runs.run step w events).doc ∧
    ∀ p f, (Runs.run step w events).sessions p = .returned f → (p, f) ∈ writes w events := by
  have hinit : Inv w := by
    refine ⟨fun p lock h => ?_, fun p f lock doc h => ?_, fun p f stale h => ?_⟩
    all_goals
      rw [hstart p] at h
      cases h
  have hgood : ∀ m ∈ Runs.moves step w events, Brief m.pre ∧ OwnTakeover m.pre m.act :=
    fun m hm => ⟨hbrief m hm, hown m hm⟩
  have hinv : Inv (Runs.run step w events) :=
    Runs.run_invariant_of (C := fun w e => Brief w ∧ OwnTakeover w e) (fun _ _ h hm => inv_step h hm.1 hm.2) hinit hgood
  refine ⟨fun p q hp hq => ?_, replay_run hinit hgood, fun p f hp => ?_⟩
  · obtain ⟨lock, hlock⟩ := Option.isSome_iff_exists.mp hp
    obtain ⟨lock', hlock'⟩ := Option.isSome_iff_exists.mp hq
    exact holds_unique hinv hlock hlock'
  · have hrecorded : Recorded [] w := by
      intro p f h
      rw [hstart p] at h
      rcases h with h | ⟨_, h⟩ <;> cases h
    exact recorded_run hrecorded events p f (.inl hp)

/-- `_mutate_definitions` of a store on a ledger file, inside the lock. -/
def ledgerMutation {α : Type} (scan : SecretScan) (fn : Store.Ledger → Except Store.OwnerActionError (α × Store.Ledger)) :
    Mutation Store.Ledger := fun l => (Store.mutateLedger scan fn l).toOption.map Prod.snd

def Event.call : Event δ → Option Nat
  | .start p _ | .create p | .stat p | .unlinkStale p | .timeout p | .read p | .replace p | .exit p | .crash p => some p
  | .tick _ => none

theorem step_other {e : Event δ} {q : Nat} (h : ∀ p ∈ e.call, q ≠ p) : (step w e).sessions q = w.sessions q := by
  unfold step
  cases e with
  | tick n => rfl
  | crash p => exact set_ne w _ (h p rfl)
  | start p f | create p | stat p | unlinkStale p | timeout p | read p | replace p | exit p =>
    have hne : q ≠ p := h p rfl
    dsimp only
    repeat' split
    all_goals first
      | exact set_ne _ _ hne
      | rfl

/-- Only the first `n` calls have to be looked at when no event is about another one. -/
theorem brief_of_few {events : List (Event δ)} (n : Nat) (hstart : ∀ p, w.sessions p = .absent)
    (hcalls : ∀ e ∈ events, ∀ p ∈ e.call, p < n)
    (hfew : ∀ m ∈ Runs.moves step w events, ∀ p < n, ∀ lock ∈ (m.pre.sessions p).holds,
      m.pre.now ≤ lock.mtime + m.pre.lockStale) : ∀ m ∈ Runs.moves step w events, Brief m.pre := by
  intro m hm p lock hlock
  by_cases hp : p < n
  · exact hfew m hm p hp lock hlock
  · obtain ⟨before, after, hevents, hpre, -⟩ := Runs.mem_moves hm
    have hbefore : ∀ e ∈ before, ∀ q ∈ e.call, q < n := fun e he =>
      hcalls e (by rw [hevents]; exact List.mem_append_left _ he)
    have habsent : ∀ (events : List (Event δ)) (w : World δ), (∀ e ∈ events, ∀ q ∈ e.call, q < n) →
        (Runs.run step w events).sessions p = w.sessions p := by
      intro events
      induction events with
      | nil => exact fun _ _ => rfl
      | cons e events ih =>
        intro w h
        rw [Runs.run_cons, ih _ fun e' he' => h e' (List.mem_cons_of_mem _ he')]
        refine step_other fun q hq hpq => hp ?_
        rw [hpq]
        exact h e List.mem_cons_self q hq
    rw [hpre, habsent before w hbefore, hstart p] at hlock
    cases hlock

instance (w : World δ) (e : Event δ) : Decidable (OwnTakeover w e) := by
  unfold OwnTakeover
  split
  · split <;> infer_instance
  · infer_instance

def plainScan : SecretScan := ⟨fun _ => false, id⟩

def actionOf (id : String) : OwnerAction where
  id := id
  title := "Check the invoice"
  steps := [⟨"Open it", none⟩]
  createdAt := "2026-07-01T00:00:00Z"

def upsertOf (id : String) : Mutation Store.Ledger :=
  ledgerMutation plainScan (Store.insert plainScan "2026-07-02T00:00:00Z" (actionOf id))

def emptyLedger : World Store.Ledger where
  doc := {}

/-- A holder has crashed; both waiters find its file stale before one of them takes the lock. -/
def crossed : List (Event Store.Ledger) :=
  [.start 0 (upsertOf "OA-1"), .create 0, .crash 0, .tick 61,
    .start 1 (upsertOf "OA-2"), .create 1, .stat 1, .start 2 (upsertOf "OA-3"), .create 2, .stat 2,
    .unlinkStale 1, .create 1, .unlinkStale 2, .create 2]

/-- One waiter takes the lock over, and the other one comes after it. -/
def takenOver : List (Event Store.Ledger) :=
  [.start 0 (upsertOf "OA-1"), .create 0, .crash 0, .tick 61,
    .start 1 (upsertOf "OA-2"), .create 1, .stat 1, .unlinkStale 1, .create 1, .start 2 (upsertOf "OA-3"), .create 2,
    .stat 2, .read 1, .replace 1, .exit 1, .create 2, .read 2, .replace 2, .exit 2]

theorem no_lost_update_takenOver :
    replay (writes emptyLedger takenOver) {} = some (Runs.run step emptyLedger takenOver).doc ∧
      (Runs.run step emptyLedger takenOver).doc.rows.map Store.Row.key = [some "OA-2", some "OA-3"] :=
  ⟨(no_lost_update emptyLedger (fun _ => rfl) takenOver
    (brief_of_few 3 (fun _ => rfl) (by decide +kernel) (by decide +kernel)) (by decide +kernel)).2.1, by decide +kernel⟩

/-- A decision to unlink the old file is carried out on the new one. -/
theorem takeovers_cross : ¬ ∀ (w : World Store.Ledger), (∀ p, w.sessions p = .absent) → ∀ events,
    (∀ m ∈ Runs.moves step w events, Brief m.pre) →
    ∀ p q, ((Runs.run step w events).sessions p).holds.isSome → ((Runs.run step w events).sessions q).holds.isSome →
      p = q := by
  intro h
  have hpq := h emptyLedger (fun _ => rfl) crossed
    (brief_of_few 3 (fun _ => rfl) (by decide +kernel) (by decide +kernel)) 1 2 (by decide +kernel) (by decide +kernel)
  cases hpq

end FileLock
end OwnerActions
end DarkFactory
