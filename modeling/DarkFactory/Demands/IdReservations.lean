import DarkFactory.Demands.IdAllocator
import DarkFactory.Lib.Runs

/-!
# DarkFactory.Demands.IdReservations

When the numbers that are reserved are new ones.

* `CallStep` — what a move of one call can do.
* `Standing` — what holds of a call where it stands, from the locks and the counters alone.
* `NewNumbers` — the numbers of one prefix and one home increase, each is above every number that was
  visible all along, and a call that raises leaves the counters alone.
-/

namespace DarkFactory
namespace Demands
namespace IdAllocator

section

variable {ρ : Type}

def HasNumber (ticketPrefix : String) (text : Option (LedgerText ρ)) (k : Nat) : Prop :=
  ∃ l rows id, text = some l ∧ ledgerRows l = some rows ∧ id ∈ ids rows ∧ idNumber ticketPrefix id = some k

inductive Source where
  | own
  | worktree (w : String)
  | main
  | ticketRef (r : String)

def Visible (c : Nat → Call) (s : State ρ) (t : Nat) (k : Nat) : Source → Prop
  | .own => HasNumber (c t).ticketPrefix (s.files (c t).path) k
  | .worktree w =>
    ∃ dir worktrees, (c t).repository = some dir ∧ (s.repos dir).worktrees = some worktrees ∧
      w ∈ worktrees ∧ HasNumber (c t).ticketPrefix (s.files (ledgerOf w)) k
  | .main =>
    ∃ dir, (c t).repository = some dir ∧ HasNumber (c t).ticketPrefix ((s.repos dir).show? originMain) k
  | .ticketRef r =>
    ∃ dir lines, (c t).repository = some dir ∧ (s.repos dir).ticketRefs = some lines ∧
      r ∈ refsOf lines ∧ HasNumber (c t).ticketPrefix ((s.repos dir).show? r) k

def Pc.issued : Pc → Option Nat
  | .leaving _ n | .returned n => some n
  | .entered | .acquiring _ _ | .locked _ _ | .reserving _ | .raised | .dead => none

def Pc.reading : Pc → Bool
  | .reserving a => decide (a.phase ≠ .fetching)
  | _ => false

def SameSeries (c : Nat → Call) (t t' : Nat) : Prop :=
  (c t).home = (c t').home ∧ (c t).ticketPrefix = (c t').ticketPrefix

structure NewNumbers (c : Nat → Call) (s : State ρ) (acts : List (Act ρ)) : Prop where
  numbered : ∀ t n, (Runs.run (step c) s acts).pcs t = .returned n →
    idNumber (c t).ticketPrefix (candidateId (c t).ticketPrefix n) = some n
  increasing : ∀ before after, acts = before ++ after → ∀ t t' n n', SameSeries c t t' →
    (Runs.run (step c) s before).pcs t = .returned n →
    (∀ n'', (Runs.run (step c) s before).pcs t' ≠ .returned n'') →
    (Runs.run (step c) s acts).pcs t' = .returned n' → n < n'
  distinct : ∀ t t' n n', t ≠ t' → SameSeries c t t' → (Runs.run (step c) s acts).pcs t = .returned n →
    (Runs.run (step c) s acts).pcs t' = .returned n' → n ≠ n'
  fresh : ∀ t n k source, (Runs.run (step c) s acts).pcs t = .returned n →
    (∀ m ∈ Runs.moves (step c) s acts, (m.pre.pcs t).reading = true → Visible c m.pre t k source) →
    k < n
  raises : ∀ t, (Runs.run (step c) s acts).pcs t = .raised →
    ∀ m ∈ Runs.moves (step c) s acts, (∃ e, m.act = .go t e) → m.post.counters = m.pre.counters

/-- `git rev-parse` does not hide the repository that a call is in. -/
def Located (c : Nat → Call) (s : State ρ) (a : Act ρ) : Prop :=
  ∀ t r, a = .go t (.revParse r) → s.pcs t = .entered → (c t).repository.isSome = true →
    r = .answers ∨ r = .missing ∧ (c t).gitAncestor = true

theorem mem_numbersOf {ticketPrefix : String} {l : LedgerText ρ} {numbers : List Nat} {k : Nat}
    (h : numbersOf ticketPrefix l = some numbers) (hk : HasNumber ticketPrefix (some l) k) : k ∈ numbers := by
  obtain ⟨l', rows, id, hl, hrows, hid, hnumber⟩ := hk
  cases hl
  rw [numbersOf, hrows, Option.map_some] at h
  cases h
  exact List.mem_filterMap.mpr ⟨id, hid, hnumber⟩

variable {call : Call} {text : Option (LedgerText ρ)} {phase : Phase} {a a' : Attempt} {n t : Nat} {act : Act ρ}

theorem collect_goOn (h : a.collect call text phase = .goOn a') :
    ∃ numbers, a' = { a with numbers := a.numbers ++ numbers, phase := phase } ∧
      ∀ k, HasNumber call.ticketPrefix text k → k ∈ numbers := by
  unfold Attempt.collect at h
  split at h
  · cases h
    refine ⟨[], by rw [List.append_nil], fun k hk => ?_⟩
    obtain ⟨_, _, _, hl, -⟩ := hk
    cases hl
  · split at h
    · cases h
    · rename_i numbers hnumbers
      cases h
      exact ⟨numbers, rfl, fun k hk => mem_numbersOf hnumbers hk⟩

theorem retry_goOn (h : a.retry = .goOn a') :
    ∃ left, a' = { a with floor := max a.floor a.nextNumber, left := left, numbers := [], phase := .fetching } := by
  unfold Attempt.retry at h
  split at h
  · cases h
  · cases h
    exact ⟨_, rfl⟩

theorem lt_nextNumber (a : Attempt) : a.floor < a.nextNumber ∧ ∀ k ∈ a.numbers, k < a.nextNumber := by
  unfold Attempt.nextNumber
  induction a.numbers with
  | nil => exact ⟨Nat.lt_succ_self _, nofun⟩
  | cons n numbers ih =>
    rw [List.foldr_cons]
    refine ⟨by omega, fun k hk => ?_⟩
    rcases List.mem_cons.mp hk with rfl | hk
    · omega
    · have hlt := ih.2 k hk
      omega

/-- The number that is about to be written is above what was found. -/
def Attempt.Sound (a : Attempt) : Prop :=
  ∀ n, a.phase = .writing n → a.floor < n ∧ ∀ k ∈ a.numbers, k < n

structure Attempt.Kept (a a' : Attempt) : Prop where
  inGit : a'.inGit = a.inGit
  dir : a'.dir = a.dir
  counters : a'.counters = a.counters
  floor : a.floor ≤ a'.floor
  sound : a'.Sound

theorem kept_phase {numbers : List Nat} (h : ∀ n, phase ≠ .writing n) :
    a.Kept { a with numbers := numbers, phase := phase } :=
  ⟨rfl, rfl, rfl, Nat.le_refl _, fun n hn => absurd hn (h n)⟩

theorem kept_collect (h : a.collect call text phase = .goOn a') (hphase : ∀ n, phase ≠ .writing n) : a.Kept a' := by
  obtain ⟨numbers, rfl, -⟩ := collect_goOn h
  exact kept_phase hphase

theorem kept_choose (a : Attempt) : a.Kept { a with phase := .writing a.nextNumber } := by
  refine ⟨rfl, rfl, rfl, Nat.le_refl _, fun n hn => ?_⟩
  cases hn
  exact lt_nextNumber a

theorem kept_advance {files : String → Option (LedgerText ρ)} {repo : Repo ρ}
    (h : a.advance call files repo = .goOn a') : a.Kept a' := by
  unfold Attempt.advance at h
  split at h
  · cases h
    exact kept_phase nofun
  · refine kept_collect h fun n => ?_
    split <;> nofun
  · split at h
    · cases h
    · cases h
      exact kept_phase nofun
  · cases h
    exact kept_phase nofun
  · exact kept_collect h nofun
  · exact kept_collect h nofun
  · split at h
    · cases h
    · cases h
      exact kept_phase nofun
  · cases h
    exact kept_phase nofun
  · exact kept_collect h nofun
  · split at h
    · split at h
      · cases h
      · obtain ⟨left, rfl⟩ := retry_goOn h
        exact ⟨rfl, rfl, rfl, Nat.le_max_left _ _, nofun⟩
      · cases h
        exact kept_choose a
    · cases h
      exact kept_choose a
  · cases h

theorem advance_reserves {files : String → Option (LedgerText ρ)} {repo : Repo ρ}
    (h : a.advance call files repo = .reserves n) : a.phase = .writing n := by
  have hcollect : ∀ (text : Option (LedgerText ρ)) phase, a.collect call text phase ≠ .reserves n := by
    intro text phase hbad
    unfold Attempt.collect at hbad
    split at hbad
    · cases hbad
    · split at hbad <;> cases hbad
  unfold Attempt.advance at h
  split at h
  · cases h
  · exact absurd h (hcollect _ _)
  · split at h <;> cases h
  · cases h
  · exact absurd h (hcollect _ _)
  · exact absurd h (hcollect _ _)
  · split at h <;> cases h
  · cases h
  · exact absurd h (hcollect _ _)
  · split at h
    · split at h
      · cases h
      · unfold Attempt.retry at h
        split at h <;> cases h
      · cases h
    · cases h
  · rename_i next hphase
    cases h
    exact hphase

def Call.At (call : Call) (inGit : Bool) (dir : String) : Prop :=
  dir = call.home ∧ inGit = call.repository.isSome

inductive CallStep (c : Nat → Call) (s : State ρ) (act : Act ρ) (t : Nat) : State ρ → Prop where
  | stays : CallStep c s act t s
  | locates (inGit : Bool) (dir : String) : s.pcs t = .entered → (Located c s act → (c t).At inGit dir) →
      CallStep c s act t (s.setPc t (.acquiring inGit dir))
  | acquires (inGit : Bool) (dir : String) : s.pcs t = .acquiring inGit dir → s.locks dir = none →
      CallStep c s act t ((s.setLock dir (some t)).setPc t (.locked inGit dir))
  | starts (a : Attempt) : s.pcs t = .locked a.inGit a.dir → (s.counters a.dir).read = some a.counters →
      a.counters.floor (c t).ticketPrefix = some a.floor → a.phase = (if a.inGit then .fetching else .own) →
      CallStep c s act t (s.setPc t (.reserving a))
  | fetches (a : Attempt) (repo : Repo ρ) : s.pcs t = .reserving a → a.phase = .fetching →
      CallStep c s act t ((s.setRepo a.dir repo).setPc t (.reserving { a with phase := .own }))
  | advances (a a' : Attempt) : s.pcs t = .reserving a →
      a.advance (c t) s.files (s.repos a.dir) = .goOn a' → CallStep c s act t (s.setPc t (.reserving a'))
  | writes (a : Attempt) (n : Nat) : s.pcs t = .reserving a → a.phase = .writing n →
      CallStep c s act t ((s.writeCounter a.dir (a.counters.set (c t).ticketPrefix n)).setPc t (.leaving a.dir n))
  | returns (dir : String) (n : Nat) : s.pcs t = .leaving dir n → CallStep c s act t (s.leave t dir (.returned n))
  /-- The call raises, or its process ends. -/
  | ends (pc : Pc) : (s.pcs t).lockDir = none → (s.pcs t).over = false → pc = .raised ∨ pc = .dead →
      CallStep c s act t (s.setPc t pc)
  | drops (dir : String) (pc : Pc) : (s.pcs t).lockDir = some dir →
      pc = .raised ∧ (s.pcs t).issued = none ∨ pc = .dead → CallStep c s act t (s.leave t dir pc)

theorem at_repository {dir : String} (h : call.repository = some dir) : call.At true dir := by
  rw [Call.At, Call.home, h]
  exact ⟨rfl, rfl⟩

theorem at_parent (h : ¬ call.repository.isSome = true) : call.At false call.parent := by
  have hnone : call.repository = none := Option.not_isSome_iff_eq_none.mp h
  rw [Call.At, Call.home, hnone]
  exact ⟨rfl, rfl⟩

theorem callStep_start {c : Nat → Call} {s : State ρ} {inGit : Bool} {dir : String}
    (hpc : s.pcs t = .locked inGit dir) : CallStep c s act t (s.start (c t) t inGit dir) := by
  have hraises : CallStep c s act t (s.leave t dir .raised) :=
    .drops dir .raised (by rw [hpc]; rfl) (.inl ⟨rfl, by rw [hpc]; rfl⟩)
  unfold State.start
  split
  · exact hraises
  · rename_i counters hread
    split
    · exact hraises
    · rename_i floor hfloor
      exact .starts _ hpc hread hfloor rfl

theorem callStep_reserve {c : Nat → Call} {s : State ρ} (hpc : s.pcs t = .reserving a) :
    CallStep c s act t (s.reserve (c t) t a) := by
  unfold State.reserve
  split
  · exact .drops a.dir .raised (by rw [hpc]; rfl) (.inl ⟨rfl, by rw [hpc]; rfl⟩)
  · rename_i a' hadvance
    exact .advances a a' hpc hadvance
  · rename_i n hadvance
    exact .writes a n hpc (advance_reserves hadvance)

theorem callStep_go (c : Nat → Call) (s : State ρ) (t : Nat) (e : Event ρ) :
    CallStep c s (.go t e) t (s.go c t e) := by
  unfold State.go
  cases hpc : s.pcs t with
  | entered =>
    have hraises : CallStep c s (.go t e) t (s.setPc t .raised) :=
      .ends .raised (by rw [hpc]; rfl) (by rw [hpc]; rfl) (.inl rfl)
    cases e with
    | revParse r =>
      simp only
      cases r with
      | answers =>
        simp only [State.locate]
        split
        · rename_i dir hrepository
          exact .locates true dir hpc fun _ => at_repository hrepository
        · exact .stays
      | missing =>
        simp only [State.locate]
        split
        · exact hraises
        · rename_i hancestor
          refine .locates false _ hpc fun hlocated => at_parent fun hin => ?_
          obtain hbad | ⟨-, hgit⟩ := hlocated t .missing rfl hpc hin
          · cases hbad
          · exact hancestor hgit
      | fails =>
        refine .locates false _ hpc fun hlocated => at_parent fun hin => ?_
        obtain hbad | ⟨hbad, -⟩ := hlocated t .fails rfl hpc hin
        · cases hbad
        · cases hbad
    | fetched repo => exact .stays
    | proceed => exact .stays
    | raise => exact hraises
  | acquiring inGit dir =>
    have hacquires : CallStep c s (.go t e) t
        (if s.locks dir = none then (s.setLock dir (some t)).setPc t (.locked inGit dir) else s) := by
      split
      · rename_i hfree
        exact .acquires inGit dir hpc hfree
      · exact .stays
    cases e with
    | raise => exact .ends .raised (by rw [hpc]; rfl) (by rw [hpc]; rfl) (.inl rfl)
    | revParse r => exact hacquires
    | fetched repo => exact hacquires
    | proceed => exact hacquires
  | locked inGit dir =>
    cases e with
    | raise => exact .drops dir .raised (by rw [hpc]; rfl) (.inl ⟨rfl, by rw [hpc]; rfl⟩)
    | revParse r => exact callStep_start hpc
    | fetched repo => exact callStep_start hpc
    | proceed => exact callStep_start hpc
  | reserving a =>
    cases e with
    | raise => exact .drops a.dir .raised (by rw [hpc]; rfl) (.inl ⟨rfl, by rw [hpc]; rfl⟩)
    | fetched repo =>
      simp only
      split
      · rename_i hphase
        exact .fetches a repo hpc hphase
      · exact .stays
    | revParse r => exact callStep_reserve hpc
    | proceed => exact callStep_reserve hpc
  | leaving dir n => exact .returns dir n hpc
  | returned n => exact .stays
  | raised => exact .stays
  | dead => exact .stays

theorem callStep_kill (c : Nat → Call) (s : State ρ) (t : Nat) : CallStep c s (.kill t) t (s.kill t) := by
  unfold State.kill
  split
  · rename_i dir hdir
    exact .drops dir .dead hdir (.inr rfl)
  · rename_i hdir
    split
    · exact .stays
    · rename_i hover
      exact .ends .dead hdir (by simpa using hover) (.inr rfl)

variable {c : Nat → Call} {s : State ρ}

def State.value (s : State ρ) (call : Call) : Option Nat :=
  (s.counters call.home).read.bind fun counters => counters.floor call.ticketPrefix

structure Attempt.Standing (c : Nat → Call) (s : State ρ) (t : Nat) (a : Attempt) : Prop where
  located : (c t).At a.inGit a.dir
  holder : s.locks a.dir = some t
  counters : (s.counters a.dir).read = some a.counters
  floor : ∃ v, a.counters.floor (c t).ticketPrefix = some v ∧ v ≤ a.floor
  sound : a.Sound

def Standing (c : Nat → Call) (s : State ρ) (t : Nat) : Pc → Prop
  | .entered | .raised | .dead => True
  | .acquiring inGit dir => (c t).At inGit dir
  | .locked inGit dir => (c t).At inGit dir ∧ s.locks dir = some t
  | .reserving a => a.Standing c s t
  | .leaving dir n => dir = (c t).home ∧ s.locks dir = some t ∧ s.value (c t) = some n
  | .returned n => ∃ v, s.value (c t) = some v ∧ n ≤ v

structure Inv (c : Nat → Call) (s : State ρ) : Prop where
  standing : ∀ t, Standing c s t (s.pcs t)
  distinct : ∀ t t' n n', t ≠ t' → SameSeries c t t' → (s.pcs t).issued = some n →
    (s.pcs t').issued = some n' → n ≠ n'

@[simp] theorem setPc_self (s : State ρ) (t : Nat) (pc : Pc) : (s.setPc t pc).pcs t = pc := if_pos rfl

theorem setPc_ne (s : State ρ) {t t' : Nat} (pc : Pc) (h : t' ≠ t) : (s.setPc t pc).pcs t' = s.pcs t' :=
  if_neg h

theorem setLock_self (s : State ρ) (dir : String) (holder : Option Nat) :
    (s.setLock dir holder).locks dir = holder := if_pos rfl

theorem setLock_ne (s : State ρ) {dir d : String} (holder : Option Nat) (h : d ≠ dir) :
    (s.setLock dir holder).locks d = s.locks d := if_neg h

theorem writeCounter_self (s : State ρ) (dir : String) (counters : Counters) :
    (s.writeCounter dir counters).counters dir = .object counters := if_pos rfl

theorem writeCounter_ne (s : State ρ) {dir d : String} (counters : Counters) (h : d ≠ dir) :
    (s.writeCounter dir counters).counters d = s.counters d := if_neg h

theorem holder_of_standing {pc : Pc} {dir : String} (h : Standing c s t pc)
    (hdir : pc.lockDir = some dir) : s.locks dir = some t := by
  cases pc with
  | locked inGit d =>
    cases hdir
    exact h.2
  | reserving a =>
    cases hdir
    exact h.holder
  | leaving d n =>
    cases hdir
    exact h.2.1
  | entered => cases hdir
  | acquiring inGit d => cases hdir
  | returned n => cases hdir
  | raised => cases hdir
  | dead => cases hdir

theorem standing_of_keeps {s' : State ρ} {pc : Pc} (h : Standing c s t pc)
    (hlocks : ∀ dir, pc.lockDir = some dir → s'.locks dir = s.locks dir)
    (hcounters : ∀ dir, pc.lockDir = some dir → s'.counters dir = s.counters dir)
    (hvalue : ∀ v, s.value (c t) = some v → ∃ v', s'.value (c t) = some v' ∧ v ≤ v') :
    Standing c s' t pc := by
  cases pc with
  | entered => trivial
  | acquiring inGit dir => exact h
  | locked inGit dir => exact ⟨h.1, (hlocks dir rfl).trans h.2⟩
  | reserving a =>
    exact ⟨h.located, (hlocks a.dir rfl).trans h.holder, by rw [hcounters a.dir rfl]; exact h.counters,
      h.floor, h.sound⟩
  | leaving dir n =>
    obtain ⟨hhome, hholder, hv⟩ := h
    refine ⟨hhome, (hlocks dir rfl).trans hholder, ?_⟩
    rw [State.value, ← hhome, hcounters dir rfl, hhome]
    exact hv
  | returned n =>
    obtain ⟨v, hv, hle⟩ := h
    obtain ⟨v', hv', hle'⟩ := hvalue v hv
    exact ⟨v', hv', Nat.le_trans hle hle'⟩
  | raised => trivial
  | dead => trivial

theorem standing_setPc {t' : Nat} {pc pc' : Pc} (h : Standing c s t' pc') : Standing c (s.setPc t pc) t' pc' :=
  standing_of_keeps h (fun _ _ => rfl) (fun _ _ => rfl) fun v hv => ⟨v, hv, Nat.le_refl v⟩

theorem issued_le {pc : Pc} (h : Standing c s t pc) (hn : pc.issued = some n) :
    ∃ v, s.value (c t) = some v ∧ n ≤ v := by
  cases pc with
  | leaving dir n' =>
    cases hn
    exact ⟨n, h.2.2, Nat.le_refl n⟩
  | returned n' =>
    cases hn
    exact h
  | entered => cases hn
  | acquiring inGit dir => cases hn
  | locked inGit dir => cases hn
  | reserving a => cases hn
  | raised => cases hn
  | dead => cases hn

theorem value_congr {t' : Nat} (h : SameSeries c t t') : s.value (c t) = s.value (c t') := by
  rw [State.value, State.value, h.1, h.2]

theorem inv_setPc (h : Inv c s) (s' : State ρ) {t : Nat} {pc : Pc} (hpcs : s'.pcs = s.pcs)
    (hpc : Standing c s' t pc) (hothers : ∀ t', t' ≠ t → Standing c s' t' (s.pcs t'))
    (hissued : ∀ n, pc.issued = some n → (s.pcs t).issued = some n ∨
      ∀ t' n', t' ≠ t → SameSeries c t t' → (s.pcs t').issued = some n' → n' ≠ n) :
    Inv c (s'.setPc t pc) := by
  constructor
  · intro t'
    by_cases heq : t' = t
    · subst heq
      rw [setPc_self]
      exact standing_setPc hpc
    · rw [setPc_ne s' pc heq, hpcs]
      exact standing_setPc (hothers t' heq)
  · intro t₁ t₂ n₁ n₂ hne hseries h₁ h₂
    by_cases heq₁ : t₁ = t
    · subst heq₁
      rw [setPc_self] at h₁
      rw [setPc_ne s' pc (Ne.symm hne), hpcs] at h₂
      rcases hissued n₁ h₁ with hbefore | hnew
      · exact h.distinct t₁ t₂ n₁ n₂ hne hseries hbefore h₂
      · exact Ne.symm (hnew t₂ n₂ (Ne.symm hne) hseries h₂)
    · rw [setPc_ne s' pc heq₁, hpcs] at h₁
      by_cases heq₂ : t₂ = t
      · subst heq₂
        rw [setPc_self] at h₂
        rcases hissued n₂ h₂ with hbefore | hnew
        · exact h.distinct t₁ t₂ n₁ n₂ hne hseries h₁ hbefore
        · exact hnew t₁ n₁ hne ⟨hseries.1.symm, hseries.2.symm⟩ h₁
      · rw [setPc_ne s' pc heq₂, hpcs] at h₂
        exact h.distinct t₁ t₂ n₁ n₂ hne hseries h₁ h₂

theorem others_standing (h : Inv c s) {t : Nat} {dir : String} (hlock : s.locks dir = none ∨ s.locks dir = some t)
    (holder : Option Nat) (t' : Nat) (hne : t' ≠ t) : Standing c (s.setLock dir holder) t' (s.pcs t') := by
  refine standing_of_keeps (h.standing t') (fun d hd => setLock_ne s holder fun hbad => ?_) (fun _ _ => rfl)
    fun v hv => ⟨v, hv, Nat.le_refl v⟩
  have hheld := holder_of_standing (h.standing t') hd
  rw [hbad] at hheld
  rcases hlock with hlock | hlock
  · rw [hlock] at hheld
    cases hheld
  · rw [hlock] at hheld
    exact hne (Option.some.inj hheld).symm

theorem inv_stands (h : Inv c s) {t : Nat} {pc : Pc} (hpc : Standing c s t pc) (hissued : pc.issued = none) :
    Inv c (s.setPc t pc) :=
  inv_setPc h s rfl hpc (fun t' _ => h.standing t') fun n hn => by rw [hissued] at hn; cases hn

theorem inv_leave (h : Inv c s) {t : Nat} {dir : String} {pc : Pc} (hdir : (s.pcs t).lockDir = some dir)
    (hpc : Standing c (s.setLock dir none) t pc)
    (hissued : ∀ n, pc.issued = some n → (s.pcs t).issued = some n) : Inv c (s.leave t dir pc) :=
  inv_setPc h (s.setLock dir none) rfl hpc
    (others_standing h (.inr (holder_of_standing (h.standing t) hdir)) none) fun n hn => .inl (hissued n hn)

@[simp] theorem floor_set_self (counters : Counters) (p : String) (n : Nat) :
    (counters.set p n).floor p = some n := by
  rw [Counters.floor, Counters.set, if_pos rfl]
  rfl

theorem floor_set_ne (counters : Counters) {p p' : String} (n : Nat) (h : p' ≠ p) :
    (counters.set p n).floor p' = counters.floor p' := by
  rw [Counters.floor, Counters.set, if_neg h]
  rfl

theorem value_write (ha : a.Standing c s t) (call : Call) :
    (s.writeCounter a.dir (a.counters.set (c t).ticketPrefix n)).value call =
      if call.home = (c t).home ∧ call.ticketPrefix = (c t).ticketPrefix then some n else s.value call := by
  have hdir : a.dir = (c t).home := ha.located.1
  by_cases hhome : call.home = (c t).home
  · have hread : ((s.writeCounter a.dir (a.counters.set (c t).ticketPrefix n)).counters call.home).read =
        some (a.counters.set (c t).ticketPrefix n) := by
      rw [hhome, ← hdir, writeCounter_self]
      rfl
    have hbefore : (s.counters call.home).read = some a.counters := by
      rw [hhome, ← hdir]
      exact ha.counters
    rw [State.value, hread, Option.bind_some]
    by_cases hp : call.ticketPrefix = (c t).ticketPrefix
    · rw [if_pos ⟨hhome, hp⟩, hp, floor_set_self]
    · rw [if_neg fun hboth => hp hboth.2, floor_set_ne _ _ hp, State.value, hbefore, Option.bind_some]
  · have hne : call.home ≠ a.dir := fun hbad => hhome (hbad.trans hdir)
    rw [if_neg fun hboth => hhome hboth.1, State.value, writeCounter_ne s _ hne, State.value]

theorem lt_of_writing {v : Nat} (ha : a.Standing c s t) (hphase : a.phase = .writing n)
    (hv : s.value (c t) = some v) : v < n := by
  obtain ⟨v', hfloor, hle⟩ := ha.floor
  rw [State.value, ← ha.located.1, ha.counters, Option.bind_some, hfloor] at hv
  cases hv
  exact Nat.lt_of_le_of_lt hle (ha.sound n hphase).1

theorem inv_write (h : Inv c s) {t : Nat} {a : Attempt} {n : Nat} (hpc : s.pcs t = .reserving a)
    (hphase : a.phase = .writing n) :
    Inv c ((s.writeCounter a.dir (a.counters.set (c t).ticketPrefix n)).setPc t (.leaving a.dir n)) := by
  have ha : a.Standing c s t := by
    have hstanding := h.standing t
    rw [hpc] at hstanding
    exact hstanding
  refine inv_setPc h _ rfl ⟨ha.located.1, ha.holder, ?_⟩ (fun t' hne => ?_) fun n' hn' => .inr ?_
  · rw [value_write ha, if_pos ⟨rfl, rfl⟩]
  · refine standing_of_keeps (h.standing t') (fun _ _ => rfl) (fun d hd => writeCounter_ne s _ fun hbad => ?_)
      fun v hv => ?_
    · have hheld := holder_of_standing (h.standing t') hd
      rw [hbad, ha.holder] at hheld
      exact hne (Option.some.inj hheld).symm
    · rw [value_write ha]
      split
      · rename_i hsame
        have hvalue : s.value (c t) = some v := (value_congr ⟨hsame.1.symm, hsame.2.symm⟩).trans hv
        exact ⟨n, rfl, Nat.le_of_lt (lt_of_writing ha hphase hvalue)⟩
      · exact ⟨v, hv, Nat.le_refl v⟩
  · cases hn'
    intro t' k hne hseries hk
    obtain ⟨v, hv, hle⟩ := issued_le (h.standing t') hk
    have hlt := lt_of_writing ha hphase ((value_congr hseries).trans hv)
    omega

theorem inv_callStep (h : Inv c s) {act : Act ρ} (hlocated : Located c s act) {t : Nat} {s' : State ρ}
    (hstep : CallStep c s act t s') : Inv c s' := by
  have hstanding := h.standing t
  cases hstep with
  | stays => exact h
  | locates inGit dir _ hat => exact inv_stands h (hat hlocated) rfl
  | acquires inGit dir hpc hfree =>
    rw [hpc] at hstanding
    exact inv_setPc h (s.setLock dir (some t)) rfl ⟨hstanding, setLock_self s dir (some t)⟩
      (others_standing h (.inl hfree) (some t)) fun n hn => by cases hn
  | starts a hpc hread hfloor hphase =>
    rw [hpc] at hstanding
    refine inv_stands h ⟨hstanding.1, hstanding.2, hread, ⟨a.floor, hfloor, Nat.le_refl _⟩, fun n hn => ?_⟩ rfl
    rw [hphase] at hn
    split at hn <;> cases hn
  | fetches a repo hpc hphase =>
    rw [hpc] at hstanding
    exact inv_setPc h (s.setRepo a.dir repo) rfl
      ⟨hstanding.located, hstanding.holder, hstanding.counters, hstanding.floor, nofun⟩
      (fun t' _ => standing_of_keeps (h.standing t') (fun _ _ => rfl) (fun _ _ => rfl)
        fun v hv => ⟨v, hv, Nat.le_refl v⟩)
      fun n hn => by cases hn
  | advances a a' hpc hadvance =>
    rw [hpc] at hstanding
    have hkept := kept_advance hadvance
    obtain ⟨v, hv, hle⟩ := hstanding.floor
    refine inv_stands h ⟨?_, ?_, ?_, ⟨v, ?_, Nat.le_trans hle hkept.floor⟩, hkept.sound⟩ rfl
    · rw [hkept.inGit, hkept.dir]
      exact hstanding.located
    · rw [hkept.dir]
      exact hstanding.holder
    · rw [hkept.dir, hkept.counters]
      exact hstanding.counters
    · rw [hkept.counters]
      exact hv
  | writes a n hpc hphase => exact inv_write h hpc hphase
  | returns dir n hpc =>
    rw [hpc] at hstanding
    refine inv_leave h (by rw [hpc]; rfl) ⟨n, hstanding.2.2, Nat.le_refl n⟩ fun k hk => ?_
    rw [hpc]
    exact hk
  | ends pc _ _ hpc =>
    rcases hpc with rfl | rfl
    · exact inv_stands h trivial rfl
    · exact inv_stands h trivial rfl
  | drops dir pc hdir hpc =>
    rcases hpc with ⟨rfl, -⟩ | rfl
    · exact inv_leave h hdir trivial nofun
    · exact inv_leave h hdir trivial nofun

theorem inv_step (h : Inv c s) (act : Act ρ) (hlocated : Located c s act) : Inv c (step c s act) := by
  cases act with
  | go t e => exact inv_callStep h hlocated (callStep_go c s t e)
  | kill t => exact inv_callStep h hlocated (callStep_kill c s t)
  | outside files repos =>
    refine ⟨fun t => ?_, h.distinct⟩
    exact standing_of_keeps (h.standing t) (fun _ _ => rfl) (fun _ _ => rfl) fun v hv => ⟨v, hv, Nat.le_refl v⟩

def Phase.awaits : Phase → Source → Prop
  | .fetching, _ | .own, _ => True
  | .listing, source => source ≠ .own
  | .worktrees _, .own => False
  | .worktrees rest, .worktree w => w ∈ rest
  | .worktrees _, _ => True
  | .main, .main | .main, .ticketRef _ => True
  | .listingRefs, .ticketRef _ => True
  | .ticketRefs rest, .ticketRef r => r ∈ rest
  | _, _ => False

def Covers (k : Nat) (source : Source) : Pc → Prop
  | .reserving a => a.phase.awaits source ∨ k ∈ a.numbers
  | .leaving _ n | .returned n => k < n
  | .entered | .acquiring _ _ | .locked _ _ | .raised | .dead => True

theorem covers_collect {k : Nat} {source : Source} (hcollect : a.collect call text phase = .goOn a')
    (h : HasNumber call.ticketPrefix text k ∨ phase.awaits source ∨ k ∈ a.numbers) :
    Covers k source (.reserving a') := by
  obtain ⟨numbers, rfl, hall⟩ := collect_goOn hcollect
  rcases h with hk | hawaits | hk
  · exact .inr (List.mem_append_right _ (hall k hk))
  · exact .inl hawaits
  · exact .inr (List.mem_append_left _ hk)

theorem covers_advance {k : Nat} {source : Source} (hat : (c t).At a.inGit a.dir)
    (hadvance : a.advance (c t) s.files (s.repos a.dir) = .goOn a')
    (hvisible : a.phase ≠ .fetching → Visible c s t k source) (hcovers : Covers k source (.reserving a)) :
    Covers k source (.reserving a') := by
  have hdir : ∀ dir, (c t).repository = some dir → a.inGit = true ∧ s.repos dir = s.repos a.dir := by
    intro dir hrepository
    rw [hat.1, hat.2, Call.home, hrepository]
    exact ⟨rfl, rfl⟩
  simp only [Covers] at hcovers
  unfold Attempt.advance at hadvance
  split at hadvance
  · cases hadvance
    exact .inl trivial
  · rename_i hphase
    have hsees := hvisible (by rw [hphase]; nofun)
    refine covers_collect hadvance ?_
    cases source with
    | own => exact .inl hsees
    | worktree w =>
      obtain ⟨dir, -, hrepository, -⟩ := hsees
      rw [if_pos (hdir dir hrepository).1]
      exact .inr (.inl nofun)
    | main =>
      obtain ⟨dir, hrepository, -⟩ := hsees
      rw [if_pos (hdir dir hrepository).1]
      exact .inr (.inl nofun)
    | ticketRef r =>
      obtain ⟨dir, -, hrepository, -⟩ := hsees
      rw [if_pos (hdir dir hrepository).1]
      exact .inr (.inl nofun)
  · rename_i hphase
    have hsees := hvisible (by rw [hphase]; nofun)
    rw [hphase] at hcovers
    split at hadvance
    · cases hadvance
    · rename_i worktrees hlist
      cases hadvance
      cases source with
      | own => exact .inr (hcovers.resolve_left fun hne => hne rfl)
      | worktree w =>
        obtain ⟨dir, l, hrepository, hl, hw, -⟩ := hsees
        rw [(hdir dir hrepository).2, hlist] at hl
        cases hl
        exact .inl hw
      | main => exact .inl trivial
      | ticketRef r => exact .inl trivial
  · rename_i hphase
    rw [hphase] at hcovers
    cases hadvance
    cases source with
    | own => exact .inr (hcovers.resolve_left id)
    | worktree w => exact .inr (hcovers.resolve_left List.not_mem_nil)
    | main => exact .inl trivial
    | ticketRef r => exact .inl trivial
  · rename_i w rest hphase
    have hsees := hvisible (by rw [hphase]; nofun)
    rw [hphase] at hcovers
    refine covers_collect hadvance ?_
    cases source with
    | own => exact .inr (.inr (hcovers.resolve_left id))
    | worktree w' =>
      rcases hcovers with hw | hk
      · rcases List.mem_cons.mp hw with rfl | hw
        · obtain ⟨_, _, -, -, -, hnumber⟩ := hsees
          exact .inl hnumber
        · exact .inr (.inl hw)
      · exact .inr (.inr hk)
    | main => exact .inr (.inl trivial)
    | ticketRef r => exact .inr (.inl trivial)
  · rename_i hphase
    have hsees := hvisible (by rw [hphase]; nofun)
    rw [hphase] at hcovers
    refine covers_collect hadvance ?_
    cases source with
    | own => exact .inr (.inr (hcovers.resolve_left id))
    | worktree w => exact .inr (.inr (hcovers.resolve_left id))
    | main =>
      obtain ⟨dir, hrepository, hnumber⟩ := hsees
      rw [(hdir dir hrepository).2] at hnumber
      exact .inl hnumber
    | ticketRef r => exact .inr (.inl trivial)
  · rename_i hphase
    have hsees := hvisible (by rw [hphase]; nofun)
    rw [hphase] at hcovers
    split at hadvance
    · cases hadvance
    · rename_i lines hlist
      cases hadvance
      cases source with
      | own => exact .inr (hcovers.resolve_left id)
      | worktree w => exact .inr (hcovers.resolve_left id)
      | main => exact .inr (hcovers.resolve_left id)
      | ticketRef r =>
        obtain ⟨dir, l, hrepository, hl, hr, -⟩ := hsees
        rw [(hdir dir hrepository).2, hlist] at hl
        cases hl
        exact .inl hr
  · rename_i hphase
    rw [hphase] at hcovers
    cases hadvance
    cases source with
    | own => exact .inr (hcovers.resolve_left id)
    | worktree w => exact .inr (hcovers.resolve_left id)
    | main => exact .inr (hcovers.resolve_left id)
    | ticketRef r => exact .inr (hcovers.resolve_left List.not_mem_nil)
  · rename_i r rest hphase
    have hsees := hvisible (by rw [hphase]; nofun)
    rw [hphase] at hcovers
    refine covers_collect hadvance ?_
    cases source with
    | own => exact .inr (.inr (hcovers.resolve_left id))
    | worktree w => exact .inr (.inr (hcovers.resolve_left id))
    | main => exact .inr (.inr (hcovers.resolve_left id))
    | ticketRef r' =>
      rcases hcovers with hr | hk
      · rcases List.mem_cons.mp hr with rfl | hr
        · obtain ⟨dir, _, hrepository, -, -, hnumber⟩ := hsees
          rw [(hdir dir hrepository).2] at hnumber
          exact .inl hnumber
        · exact .inr (.inl hr)
      · exact .inr (.inr hk)
  · rename_i hphase
    rw [hphase] at hcovers
    have hk : k ∈ a.numbers := hcovers.resolve_left (by cases source <;> exact id)
    split at hadvance
    · split at hadvance
      · cases hadvance
      · obtain ⟨left, rfl⟩ := retry_goOn hadvance
        exact .inl trivial
      · cases hadvance
        exact .inr hk
    · cases hadvance
      exact .inr hk
  · cases hadvance

theorem callStep_other {t' : Nat} {s' : State ρ} (hstep : CallStep c s act t s') (hne : t' ≠ t) :
    s'.pcs t' = s.pcs t' := by
  cases hstep with
  | stays => rfl
  | locates inGit dir => exact setPc_ne _ _ hne
  | acquires inGit dir => exact setPc_ne _ _ hne
  | starts a => exact setPc_ne _ _ hne
  | fetches a repo => exact setPc_ne _ _ hne
  | advances a a' => exact setPc_ne _ _ hne
  | writes a n => exact setPc_ne _ _ hne
  | returns dir n => exact setPc_ne _ _ hne
  | ends pc => exact setPc_ne _ _ hne
  | drops dir pc => exact setPc_ne _ _ hne

theorem pcs_step {P : Pc → Prop} (act : Act ρ) (h : P (s.pcs t))
    (hcall : ∀ s', CallStep c s act t s' → P (s'.pcs t)) : P ((step c s act).pcs t) := by
  cases act with
  | go t' e =>
    by_cases heq : t' = t
    · subst heq
      exact hcall _ (callStep_go c s t' e)
    · rw [step, callStep_other (callStep_go c s t' e) (Ne.symm heq)]
      exact h
  | kill t' =>
    by_cases heq : t' = t
    · subst heq
      exact hcall _ (callStep_kill c s t')
    · rw [step, callStep_other (callStep_kill c s t') (Ne.symm heq)]
      exact h
  | outside files repos => exact h

theorem covers_callStep (h : Inv c s) {act : Act ρ} {t k : Nat} {source : Source} {s' : State ρ}
    (hvisible : (s.pcs t).reading = true → Visible c s t k source) (hcovers : Covers k source (s.pcs t))
    (hstep : CallStep c s act t s') : Covers k source (s'.pcs t) := by
  have hstanding := h.standing t
  cases hstep with
  | stays => exact hcovers
  | locates inGit dir =>
    rw [setPc_self]
    trivial
  | acquires inGit dir =>
    rw [setPc_self]
    trivial
  | starts a _ _ _ hphase =>
    rw [setPc_self]
    refine .inl ?_
    rw [hphase]
    split <;> trivial
  | fetches a repo =>
    rw [setPc_self]
    exact .inl trivial
  | advances a a' hpc hadvance =>
    rw [hpc] at hstanding hcovers hvisible
    rw [setPc_self]
    exact covers_advance hstanding.located hadvance (fun hphase => hvisible (decide_eq_true hphase)) hcovers
  | writes a n hpc hphase =>
    rw [hpc] at hstanding hcovers
    rw [setPc_self]
    simp only [Covers, hphase] at hcovers
    have hk : k ∈ a.numbers := hcovers.resolve_left (by cases source <;> exact id)
    exact (hstanding.sound n hphase).2 k hk
  | returns dir n hpc =>
    rw [hpc] at hcovers
    rw [State.leave, setPc_self]
    exact hcovers
  | ends pc _ _ hpc =>
    rw [setPc_self]
    rcases hpc with rfl | rfl <;> trivial
  | drops dir pc _ hpc =>
    rw [State.leave, setPc_self]
    rcases hpc with ⟨rfl, -⟩ | rfl <;> trivial

theorem returned_step (act : Act ρ) (h : s.pcs t = .returned n) : (step c s act).pcs t = .returned n := by
  refine pcs_step (P := fun pc => pc = .returned n) act h fun s' hstep => ?_
  cases hstep with
  | stays => exact h
  | locates inGit dir hpc => rw [h] at hpc; cases hpc
  | acquires inGit dir hpc => rw [h] at hpc; cases hpc
  | starts a hpc => rw [h] at hpc; cases hpc
  | fetches a repo hpc => rw [h] at hpc; cases hpc
  | advances a a' hpc => rw [h] at hpc; cases hpc
  | writes a n hpc => rw [h] at hpc; cases hpc
  | returns dir n hpc => rw [h] at hpc; cases hpc
  | ends pc _ hover => rw [h] at hover; cases hover
  | drops dir pc hdir => rw [h] at hdir; cases hdir

/-- The call has returned the number, and what the other one issues is above it. -/
def Follows (c : Nat → Call) (t t' n : Nat) (s : State ρ) : Prop :=
  Inv c s ∧ s.pcs t = .returned n ∧ ∀ n', (s.pcs t').issued = some n' → n < n'

theorem follows_step {t' : Nat} (hseries : SameSeries c t t') (act : Act ρ) (hlocated : Located c s act)
    (h : Follows c t t' n s) : Follows c t t' n (step c s act) := by
  obtain ⟨hinv, hreturned, hbefore⟩ := h
  refine ⟨inv_step hinv act hlocated, returned_step act hreturned, ?_⟩
  refine pcs_step (P := fun pc => ∀ n', pc.issued = some n' → n < n') act hbefore fun s' hstep => ?_
  have hstanding := hinv.standing t'
  cases hstep with
  | stays => exact hbefore
  | locates inGit dir => rw [setPc_self]; nofun
  | acquires inGit dir => rw [setPc_self]; nofun
  | starts a => rw [setPc_self]; nofun
  | fetches a repo => rw [setPc_self]; nofun
  | advances a a' => rw [setPc_self]; nofun
  | writes a m hpc hphase =>
    rw [setPc_self]
    intro n' hn'
    cases hn'
    rw [hpc] at hstanding
    obtain ⟨v, hv, hle⟩ := issued_le (hinv.standing t) (n := n) (by rw [hreturned]; rfl)
    exact Nat.lt_of_le_of_lt hle (lt_of_writing hstanding hphase ((value_congr hseries).symm.trans hv))
  | returns dir m hpc =>
    rw [State.leave, setPc_self]
    rw [hpc] at hbefore
    exact hbefore
  | ends pc _ _ hpc =>
    rw [setPc_self]
    rcases hpc with rfl | rfl <;> nofun
  | drops dir pc _ hpc =>
    rw [State.leave, setPc_self]
    rcases hpc with ⟨rfl, -⟩ | rfl <;> nofun

theorem follows_of_inv (h : Inv c s) {t t' n : Nat} (hseries : SameSeries c t t')
    (hreturned : s.pcs t = .returned n) (hnot : ∀ n', s.pcs t' ≠ .returned n') : Follows c t t' n s := by
  refine ⟨h, hreturned, fun n' hn' => ?_⟩
  have hissued : (s.pcs t).issued = some n := by rw [hreturned]; rfl
  have hne : t ≠ t' := by
    intro heq
    subst heq
    exact hnot n hreturned
  have hdistinct := h.distinct t t' n n' hne hseries hissued hn'
  obtain ⟨v, hv, hle⟩ := issued_le (h.standing t) hissued
  have hstanding := h.standing t'
  cases hpc : s.pcs t' with
  | leaving dir m =>
    rw [hpc] at hstanding hn'
    cases hn'
    have hvalue := hstanding.2.2
    rw [← value_congr hseries, hv] at hvalue
    cases hvalue
    omega
  | returned m => exact absurd hpc (hnot m)
  | entered => rw [hpc] at hn'; cases hn'
  | acquiring inGit dir => rw [hpc] at hn'; cases hn'
  | locked inGit dir => rw [hpc] at hn'; cases hn'
  | reserving a => rw [hpc] at hn'; cases hn'
  | raised => rw [hpc] at hn'; cases hn'
  | dead => rw [hpc] at hn'; cases hn'

/-- The call cannot raise any more. -/
def Pc.past : Pc → Bool
  | .leaving _ _ | .returned _ | .dead => true
  | .entered | .acquiring _ _ | .locked _ _ | .reserving _ | .raised => false

theorem past_cases {pc : Pc} (h : pc.past = true) : (∃ dir n, pc = .leaving dir n) ∨ (∃ n, pc = .returned n) ∨ pc = .dead := by
  cases pc with
  | leaving dir n => exact .inl ⟨dir, n, rfl⟩
  | returned n => exact .inr (.inl ⟨n, rfl⟩)
  | dead => exact .inr (.inr rfl)
  | _ => cases h

theorem past_step (act : Act ρ) (h : (s.pcs t).past = true) : ((step c s act).pcs t).past = true := by
  refine pcs_step (P := fun pc => pc.past = true) act h fun s' hstep => ?_
  cases hstep with
  | stays => exact h
  | locates inGit dir hpc => rw [hpc] at h; cases h
  | acquires inGit dir hpc => rw [hpc] at h; cases h
  | starts a hpc => rw [hpc] at h; cases h
  | fetches a repo hpc => rw [hpc] at h; cases h
  | advances a a' hpc => rw [hpc] at h; cases h
  | writes a n hpc => rw [hpc] at h; cases h
  | returns dir n hpc =>
    rw [State.leave, setPc_self]
    rfl
  | ends pc hdir hover hpc =>
    rw [setPc_self]
    rcases hpc with rfl | rfl
    · rcases past_cases h with ⟨dir, n, hs⟩ | ⟨n, hs⟩ | hs
      · rw [hs] at hdir; cases hdir
      · rw [hs] at hover; cases hover
      · rw [hs] at hover; cases hover
    · rfl
  | drops dir pc hdir hpc =>
    rw [State.leave, setPc_self]
    rcases hpc with ⟨rfl, hissued⟩ | rfl
    · rcases past_cases h with ⟨dir, n, hs⟩ | ⟨n, hs⟩ | hs
      · rw [hs] at hissued; cases hissued
      · rw [hs] at hdir; cases hdir
      · rw [hs] at hdir; cases hdir
    · rfl

theorem counters_callStep {s' : State ρ} (hstep : CallStep c s act t s') :
    s'.counters = s.counters ∨ (s'.pcs t).past = true := by
  cases hstep with
  | stays => exact .inl rfl
  | locates inGit dir => exact .inl rfl
  | acquires inGit dir => exact .inl rfl
  | starts a => exact .inl rfl
  | fetches a repo => exact .inl rfl
  | advances a a' => exact .inl rfl
  | writes a n =>
    rw [setPc_self]
    exact .inr rfl
  | returns dir n => exact .inl rfl
  | ends pc => exact .inl rfl
  | drops dir pc => exact .inl rfl

theorem counters_of_raised {acts : List (Act ρ)} (hraised : (Runs.run (step c) s acts).pcs t = .raised)
    {m : Move (State ρ) (Act ρ)} (hm : m ∈ Runs.moves (step c) s acts) {e : Event ρ} (hact : m.act = .go t e) :
    m.post.counters = m.pre.counters := by
  obtain ⟨before, after, rfl, hpre, hpost⟩ := Runs.mem_moves hm
  rw [hact] at hpost
  rw [hpost]
  refine (counters_callStep (callStep_go c m.pre t e)).resolve_right fun hpast => ?_
  have hend : ((Runs.run (step c) (step c m.pre (.go t e)) after).pcs t).past = true :=
    Runs.run_invariant (I := fun s : State ρ => (s.pcs t).past = true) (fun s act h => past_step act h) hpast after
  rw [Runs.run_append, Runs.run_cons, ← hpre, hact] at hraised
  rw [hraised] at hend
  cases hend

def initial (files : String → Option (LedgerText ρ)) (repos : String → Repo ρ)
    (counters : String → CounterFile) : State ρ := { files, repos, counters }

theorem inv_initial (files : String → Option (LedgerText ρ)) (repos : String → Repo ρ)
    (counters : String → CounterFile) : Inv c (initial files repos counters) :=
  ⟨fun _ => trivial, nofun⟩

theorem inv_run (h : Inv c s) {acts : List (Act ρ)}
    (hlocated : ∀ m ∈ Runs.moves (step c) s acts, Located c m.pre m.act) : Inv c (Runs.run (step c) s acts) :=
  Runs.run_invariant_of (I := Inv c) (C := Located c) (fun _ act h ha => inv_step h act ha) h hlocated

theorem covers_run (h : Inv c s) {t k : Nat} {source : Source} (hcovers : Covers k source (s.pcs t))
    {acts : List (Act ρ)} (hlocated : ∀ m ∈ Runs.moves (step c) s acts, Located c m.pre m.act)
    (hvisible : ∀ m ∈ Runs.moves (step c) s acts, (m.pre.pcs t).reading = true → Visible c m.pre t k source) :
    Covers k source ((Runs.run (step c) s acts).pcs t) := by
  have hboth : Inv c (Runs.run (step c) s acts) ∧ Covers k source ((Runs.run (step c) s acts).pcs t) :=
    Runs.run_invariant_of (I := fun s => Inv c s ∧ Covers k source (s.pcs t))
    (C := fun s act => Located c s act ∧ ((s.pcs t).reading = true → Visible c s t k source))
    (fun s act hs hc => ⟨inv_step hs.1 act hc.1,
      pcs_step (P := Covers k source) act hs.2 fun s' hstep => covers_callStep hs.1 hc.2 hs.2 hstep⟩)
    ⟨h, hcovers⟩ (fun m hm => ⟨hlocated m hm, hvisible m hm⟩)
  exact hboth.2

/-- Whatever changes outside, and whatever the counters are at first: the numbers of a run are new ones
when no call is kept from the repository that it is in. -/
theorem reservations_are_new (c : Nat → Call) (files : String → Option (LedgerText ρ)) (repos : String → Repo ρ)
    (counters : String → CounterFile) (acts : List (Act ρ))
    (hlocated : ∀ m ∈ Runs.moves (step c) (initial files repos counters) acts, Located c m.pre m.act) :
    NewNumbers c (initial files repos counters) acts := by
  have hinit : Inv c (initial files repos counters) := inv_initial files repos counters
  refine ⟨?_, ?_, ?_, ?_, ?_⟩
  · intro t n _
    exact idNumber_candidateId _ n
  · intro before after hacts t t' n n' hseries hreturned hnot hreturned'
    subst hacts
    rw [Runs.moves_append] at hlocated
    have hmiddle := inv_run hinit fun m hm => hlocated m (List.mem_append_left _ hm)
    have hfollows := Runs.run_invariant_of (I := Follows c t t' n) (C := Located c)
      (fun _ act h ha => follows_step hseries act ha h) (follows_of_inv hmiddle hseries hreturned hnot)
      fun m hm => hlocated m (List.mem_append_right _ hm)
    rw [Runs.run_append] at hreturned'
    exact hfollows.2.2 n' (by rw [hreturned']; rfl)
  · intro t t' n n' hne hseries hreturned hreturned'
    exact (inv_run hinit hlocated).distinct t t' n n' hne hseries (by rw [hreturned]; rfl)
      (by rw [hreturned']; rfl)
  · intro t n k source hreturned hvisible
    have hcovers : Covers k source _ := covers_run hinit trivial hlocated hvisible
    rw [hreturned] at hcovers
    exact hcovers
  · intro t hraised m hm hgo
    obtain ⟨e, hact⟩ := hgo
    exact counters_of_raised hraised hm hact

end

def usrCall : Call where
  path := "/repo/.factory/demands/demands.json"
  parent := "/repo/.factory/demands"
  ticketPrefix := "USR"
  repository := some "/repo/.git"
  gitAncestor := true

def usrCalls : Nat → Call := fun _ => usrCall

/-- No ledger, no counter, and a repository without worktrees and ticket refs to list. -/
def emptyRepository : State Unit :=
  initial (fun _ => none) (fun _ => ⟨some [], fun _ => none, some []⟩) fun _ => .absent

/-- A whole call: `rev-parse`, and the moves after it. -/
def wholeCall (t : Nat) (r : RevParse) (moves : Nat) : List (Act Unit) :=
  .go t (.revParse r) :: List.replicate moves (.go t .proceed)

def Pc.number : Pc → Option Nat
  | .returned n => some n
  | _ => none

theorem returned_of_number {pc : Pc} {n : Nat} (h : pc.number = some n) : pc = .returned n := by
  cases pc with
  | returned n' =>
    cases h
    rfl
  | entered => cases h
  | acquiring inGit dir => cases h
  | locked inGit dir => cases h
  | reserving a => cases h
  | leaving dir n' => cases h
  | raised => cases h
  | dead => cases h

/-- `rev-parse` fails for the second call, which then counts beside its ledger: both return `USR-01`. -/
theorem number_reserved_twice :
    ¬ NewNumbers usrCalls emptyRepository (wholeCall 0 .answers 12 ++ wholeCall 1 .fails 6) := by
  intro h
  exact h.distinct 0 1 1 1 (by decide) ⟨rfl, rfl⟩ (returned_of_number (by decide +kernel))
    (returned_of_number (by decide +kernel)) rfl

/-- Two calls whose repository is found. -/
theorem reservations_are_new_two :
    NewNumbers usrCalls emptyRepository (wholeCall 0 .answers 12 ++ wholeCall 1 .answers 12) ∧
      ((Runs.run (step usrCalls) emptyRepository
        (wholeCall 0 .answers 12 ++ wholeCall 1 .answers 12)).pcs 1).number = some 2 := by
  refine ⟨reservations_are_new usrCalls _ _ _ _ fun m hm => ?_, by decide +kernel⟩
  have hact := Runs.act_of_mem hm
  intro t r hr _ _
  rw [hr] at hact
  simp only [wholeCall, List.cons_append, List.mem_cons, List.mem_append, List.mem_replicate, Act.go.injEq,
    Event.revParse.injEq, reduceCtorEq, and_false, or_false, false_or] at hact
  rcases hact with ⟨-, rfl⟩ | ⟨-, rfl⟩
  · exact .inl rfl
  · exact .inl rfl

end IdAllocator
end Demands
end DarkFactory
