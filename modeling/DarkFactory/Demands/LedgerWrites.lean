import DarkFactory.Demands.Store
import DarkFactory.Lib.Runs

/-!
# DarkFactory.Demands.LedgerWrites

When the writes of a ledger lose none of its other rows.

* `Saved` — the items after a save: the one row of the ticket, and every other item of before.
* `Good` — a move writes the file as a save does, or leaves it alone.
-/

namespace DarkFactory
namespace Demands

section

variable {ρ τ : Type}

def isFor (dump : Row ρ) : Item ρ → Bool
  | .row r => decide (r.id = dump.id)
  | .other => false

@[simp] theorem isFor_row (dump r : Row ρ) : isFor dump (.row r) = decide (r.id = dump.id) := rfl

@[simp] theorem isFor_other (dump : Row ρ) : isFor dump .other = false := rfl

structure Saved (before after : List (Item ρ)) (dump : Row ρ) : Prop where
  row : after.filter (isFor dump) = [.row dump]
  others : after.filter (fun i => !isFor dump i) = before.filter fun i => !isFor dump i

def Single (items : List (Item ρ)) (dump : Row ρ) : Prop := (items.filter (isFor dump)).length ≤ 1

variable {items after : List (Item ρ)}

theorem saveRows_filter {dump : Row ρ} (h : saveRows dump items = some after) :
    (after.filter (fun i => !isFor dump i) = items.filter fun i => !isFor dump i) ∧
      after.filter (isFor dump) = .row dump :: (items.filter (isFor dump)).tail := by
  induction items generalizing after with
  | nil =>
    cases h
    simp
  | cons item rest ih =>
    cases item with
    | other => cases h
    | row r =>
      simp only [saveRows] at h
      split at h
      · rename_i hid
        cases h
        simp [hid]
      · rename_i hid
        obtain ⟨rows, hrows, rfl⟩ := Option.map_eq_some_iff.mp h
        simp [hid, ih hrows]

theorem saved_iff {dump : Row ρ} (h : saveRows dump items = some after) :
    Saved items after dump ↔ Single items dump := by
  have hrow := (saveRows_filter h).2
  have htail : (items.filter (isFor dump)).tail = [] ↔ Single items dump := by
    rw [← List.length_eq_zero_iff, List.length_tail, Single]
    omega
  rw [← htail]
  constructor
  · intro hsaved
    rw [hsaved.row] at hrow
    exact (List.cons.inj hrow).2.symm
  · intro hnil
    rw [hnil] at hrow
    exact ⟨hrow, (saveRows_filter h).1⟩

def Hides (readable : Bool) (file : Option (LedgerFile ρ)) : Prop :=
  readable = false ∨ ∃ f, file = some f ∧ ((∃ exc, f.text = .malformed exc) ∨ f.text = .json .object)

theorem readRaw_items {readable : Bool} {file : Option (LedgerFile ρ)} (h : readRaw readable file = .items items) :
    items = heldOf file ∨ (items = [] ∧ Hides readable file) := by
  cases file with
  | none =>
    cases h
    exact .inl rfl
  | some f =>
    have hheld : ∀ l, f.text.items? = some l → l = heldOf (some f) := fun l hl => (f.held_eq l hl).symm
    simp only [readRaw] at h
    split at h
    · split at h
      · rename_i hl
        cases h
        exact .inl (hheld _ (by rw [hl]; rfl))
      · rename_i hl
        cases h
        exact .inl (hheld _ (by rw [hl]; rfl))
      · cases h
      · rename_i hl
        cases h
        exact .inl (hheld _ (by rw [hl]; rfl))
      · rename_i exc hl
        cases h
        exact .inr ⟨rfl, .inr ⟨f, rfl, .inl ⟨exc, hl⟩⟩⟩
      · rename_i hl
        cases h
        exact .inr ⟨rfl, .inr ⟨f, rfl, .inr hl⟩⟩
      · rename_i hl
        cases h
        exact .inl (hheld _ (by rw [hl]; rfl))
    · rename_i hreadable
      cases h
      exact .inr ⟨rfl, .inl (by simpa using hreadable)⟩

theorem readRaw_eq {readable : Bool} {file : Option (LedgerFile ρ)}
    (hheld : Hides readable file → heldOf file = []) (h : readRaw readable file = .items items) :
    items = heldOf file := by
  rcases readRaw_items h with hitems | ⟨rfl, hhides⟩
  · exact hitems
  · exact (hheld hhides).symm

variable {c : Setting ρ τ} {s : State ρ τ}

structure Writes (c : Setting ρ τ) (m : Move (State ρ τ) (Act τ)) (n : Nat) (t : UserTicket τ) : Prop where
  writing : ∃ items, m.pre.pcs n = .writing t items
  mirroring : m.post.pcs n = .mirroring t

structure Good (c : Setting ρ τ) (m : Move (State ρ τ) (Act τ)) : Prop where
  saves : ∀ n t, Writes c m n t → Saved (heldOf m.pre.file) (heldOf m.post.file) (c.codec.dump t)
  /-- No other move touches the file, in particular none that raises. -/
  frame : (¬ ∃ n t, Writes c m n t) → m.post.file = m.pre.file
  /-- A save of a ledger that is written does not return before the write. -/
  returns : ∀ n t, m.pre.pcs n = .saving t → m.post.pcs n = .returned → (c.call n).controlOnly = true

/-- The read of a call that is about to write: it raises, or it misses no item and the id of the ticket
is there once at most. -/
def Legible (c : Setting ρ τ) (s : State ρ τ) (a : Act τ) : Prop :=
  ∀ n e t, a = .go n e → s.pcs n = .saving t → (c.call n).controlOnly = false →
    saveRaw (c.codec.dump t) (readRaw e.readable s.file) = none ∨
      ((Hides e.readable s.file → heldOf s.file = []) ∧ Single (heldOf s.file) (c.codec.dump t))

def OneLock (c : Setting ρ τ) : Prop := ∀ n n', (c.call n).lockFile = (c.call n').lockFile

structure Inv (c : Setting ρ τ) (s : State ρ τ) : Prop where
  holder : ∀ n, (s.pcs n).critical = true → s.locks (c.call n).lockFile = some n
  pending : ∀ n t items, s.pcs n = .writing t items → Saved (heldOf s.file) items (c.codec.dump t)

theorem setPc_self (s : State ρ τ) (n : Nat) (pc : Pc ρ τ) : (s.setPc n pc).pcs n = pc := if_pos rfl

theorem setPc_ne (s : State ρ τ) (pc : Pc ρ τ) {n n' : Nat} (h : n' ≠ n) :
    (s.setPc n pc).pcs n' = s.pcs n' := if_neg h

theorem Inv.alone (hlock : OneLock c) (h : Inv c s) {n n' : Nat} (hn : (s.pcs n).critical = true)
    (hn' : (s.pcs n').critical = true) : n = n' := by
  have hholder := h.holder n hn
  rw [hlock n n', h.holder n' hn'] at hholder
  exact (Option.some.inj hholder).symm

theorem inv_setPc (h : Inv c s) {n : Nat} {pc : Pc ρ τ}
    (hcritical : pc.critical = true → s.locks (c.call n).lockFile = some n)
    (hpending : ∀ t items, pc = .writing t items → Saved (heldOf s.file) items (c.codec.dump t)) :
    Inv c (s.setPc n pc) := by
  constructor
  · intro n' hn'
    by_cases heq : n' = n
    · subst heq
      rw [setPc_self] at hn'
      exact hcritical hn'
    · rw [setPc_ne s pc heq] at hn'
      exact h.holder n' hn'
  · intro n' t items hn'
    by_cases heq : n' = n
    · subst heq
      rw [setPc_self] at hn'
      exact hpending t items hn'
    · rw [setPc_ne s pc heq] at hn'
      exact h.pending n' t items hn'

theorem inv_idle (h : Inv c s) {n : Nat} {pc : Pc ρ τ} (hpc : pc.critical = false) : Inv c (s.setPc n pc) := by
  refine inv_setPc h (fun hbad => ?_) fun t items hwriting => ?_
  · rw [hpc] at hbad
    cases hbad
  · rw [hwriting] at hpc
    cases hpc

theorem inv_leave (hlock : OneLock c) (h : Inv c s) {n : Nat} {pc : Pc ρ τ}
    (hn : (s.pcs n).critical = true) (hpc : pc.critical = false) : Inv c (s.leave n (c.call n) pc) := by
  -- Nobody else is critical, and the call no longer is.
  have hnone : ∀ n', ((s.leave n (c.call n) pc).pcs n').critical = false := by
    intro n'
    by_cases heq : n' = n
    · subst heq
      rw [State.leave, setPc_self]
      exact hpc
    · rw [State.leave, setPc_ne _ pc heq]
      cases hn' : (s.pcs n').critical with
      | false => exact hn'
      | true => exact absurd (h.alone hlock hn' hn) heq
  constructor
  · intro n' hn'
    rw [hnone n'] at hn'
    cases hn'
  · intro n' t items hn'
    have hfalse := hnone n'
    rw [hn'] at hfalse
    cases hfalse

theorem inv_acquire (hlock : OneLock c) (h : Inv c s) {n : Nat} (hfree : s.locks (c.call n).lockFile = none) :
    Inv c ((s.setLock (c.call n).lockFile (some n)).setPc n .locked) := by
  have hnone : ∀ n', (s.pcs n').critical = false := by
    intro n'
    cases hn' : (s.pcs n').critical with
    | false => rfl
    | true =>
      have hholder := h.holder n' hn'
      rw [hlock n' n, hfree] at hholder
      cases hholder
  constructor
  · intro n' hn'
    by_cases heq : n' = n
    · subst heq
      exact if_pos rfl
    · rw [setPc_ne _ _ heq] at hn'
      exact absurd hn' (Bool.eq_false_iff.mp (hnone n'))
  · intro n' t items hn'
    by_cases heq : n' = n
    · subst heq
      rw [setPc_self] at hn'
      cases hn'
    · rw [setPc_ne _ _ heq] at hn'
      exact h.pending n' t items hn'

theorem inv_write (hlock : OneLock c) (h : Inv c s) {n : Nat} {t : UserTicket τ} {items : List (Item ρ)}
    (hpc : s.pcs n = .writing t items) (file : Option (LedgerFile ρ)) :
    Inv c ({ s with file := file }.setPc n (.mirroring t)) := by
  have hn : (s.pcs n).critical = true := by rw [hpc]; rfl
  constructor
  · intro n' hn'
    by_cases heq : n' = n
    · subst heq
      exact h.holder n' hn
    · rw [setPc_ne _ _ heq] at hn'
      exact h.holder n' hn'
  · intro n' t' items' hn'
    by_cases heq : n' = n
    · subst heq
      rw [setPc_self] at hn'
      cases hn'
    · rw [setPc_ne _ _ heq] at hn'
      have hother : (s.pcs n').critical = true := by
        have hsame : s.pcs n' = .writing t' items' := hn'
        rw [hsame]
        rfl
      exact absurd (h.alone hlock hother hn) heq

inductive FileStep (c : Setting ρ τ) (s : State ρ τ) : State ρ τ → Prop where
  | keeps {s' : State ρ τ} (file : s'.file = s.file)
      (mirroring : ∀ n t, s'.pcs n = .mirroring t → s.pcs n = .mirroring t)
      (returns : ∀ n t, s.pcs n = .saving t → s'.pcs n = .returned → (c.call n).controlOnly = true) :
      FileStep c s s'
  | writes (n : Nat) (t : UserTicket τ) (items : List (Item ρ)) : s.pcs n = .writing t items →
      FileStep c s ({ s with file := some (.written items) }.setPc n (.mirroring t))

theorem saving_returned {s' : State ρ τ} {n : Nat} {t : UserTicket τ} (hsame : s'.pcs n = s.pcs n)
    (hsaving : s.pcs n = .saving t) : s'.pcs n ≠ .returned := by
  rw [hsame, hsaving]
  intro hbad
  cases hbad

theorem fileStep_self (c : Setting ρ τ) (s : State ρ τ) : FileStep c s s :=
  .keeps rfl (fun _ _ h => h) fun _ _ hsaving hbad => absurd hbad (saving_returned rfl hsaving)

theorem fileStep_move {n : Nat} {pc : Pc ρ τ} (s' : State ρ τ) (hfile : s'.file = s.file)
    (hpcs : s'.pcs = s.pcs) (hpc : ∀ t, pc ≠ .mirroring t)
    (hreturns : pc = .returned → ∀ t, s.pcs n = .saving t → (c.call n).controlOnly = true) :
    FileStep c s (s'.setPc n pc) := by
  refine .keeps hfile (fun n' t hn' => ?_) fun n' t hsaving hreturned => ?_
  · by_cases heq : n' = n
    · subst heq
      exact absurd ((setPc_self s' n' pc).symm.trans hn') (hpc t)
    · rw [setPc_ne s' pc heq, hpcs] at hn'
      exact hn'
  · by_cases heq : n' = n
    · subst heq
      exact hreturns ((setPc_self s' n' pc).symm.trans hreturned) t hsaving
    · have hsame : (s'.setPc n pc).pcs n' = s.pcs n' := by rw [setPc_ne s' pc heq, hpcs]
      exact absurd hreturned (saving_returned hsame hsaving)

theorem fileStep_raise {n : Nat} {e : StoreError} (s' : State ρ τ) (hfile : s'.file = s.file)
    (hpcs : s'.pcs = s.pcs) : FileStep c s (s'.setPc n (.raised e)) :=
  fileStep_move s' hfile hpcs (fun _ hbad => by cases hbad) fun hbad => by cases hbad

theorem good_of_fileStep (h : Inv c s) {a : Act τ} {s' : State ρ τ} (hstep : FileStep c s s') :
    Good c ⟨s, a, s'⟩ := by
  cases hstep with
  | keeps hfile hmirroring hreturns =>
    refine ⟨fun n t hwrites => ?_, fun _ => hfile, hreturns⟩
    obtain ⟨⟨items, hwriting⟩, hpost⟩ := hwrites
    rw [hmirroring n t hpost] at hwriting
    cases hwriting
  | writes n t items hwriting =>
    have hwrites : Writes c ⟨s, a, { s with file := some (.written items) }.setPc n (.mirroring t)⟩ n t :=
      ⟨⟨items, hwriting⟩, setPc_self _ _ _⟩
    refine ⟨fun n' t' hwrites' => ?_, fun hnone => absurd ⟨n, t, hwrites⟩ hnone, fun n' t' hsaving hreturned => ?_⟩
    · obtain ⟨⟨items', hwriting'⟩, hmirroring⟩ := hwrites'
      by_cases heq : n' = n
      · subst heq
        have hsame : Pc.mirroring t = Pc.mirroring t' := (setPc_self _ _ _).symm.trans hmirroring
        cases hsame
        exact h.pending n' t items hwriting
      · have hsame : s.pcs n' = .mirroring t' := (setPc_ne _ _ heq).symm.trans hmirroring
        rw [hsame] at hwriting'
        cases hwriting'
    · by_cases heq : n' = n
      · subst heq
        rw [hwriting] at hsaving
        cases hsaving
      · exact absurd hreturned (saving_returned (setPc_ne _ _ heq) hsaving)

theorem inv_init (c : Setting ρ τ) (file : Option (LedgerFile ρ)) : Inv c { file := file } :=
  ⟨nofun, nofun⟩

variable [DecidableEq ρ]

theorem inv_go (hlock : OneLock c) (h : Inv c s) (n : Nat) (e : Event τ) (ha : Legible c s (.go n e)) :
    Inv c (s.go c n e) := by
  unfold State.go
  cases hpc : s.pcs n with
  | entered =>
    simp only
    split
    · split <;> exact inv_idle h rfl
    · exact inv_idle h rfl
  | acquiring =>
    simp only
    split
    · rename_i hfree
      exact inv_acquire hlock h hfree
    · split
      · exact inv_idle h rfl
      · exact h
  | locked =>
    have hn : (s.pcs n).critical = true := by rw [hpc]; rfl
    simp only
    split
    · exact inv_leave hlock h hn rfl
    · exact inv_leave hlock h hn rfl
    · split
      · exact inv_leave hlock h hn rfl
      · exact inv_setPc h (fun _ => h.holder n hn) fun _ _ hwriting => by cases hwriting
  | saving t =>
    have hn : (s.pcs n).critical = true := by rw [hpc]; rfl
    simp only
    split
    · refine inv_leave hlock h hn ?_
      split <;> rfl
    · rename_i hcontrol
      split
      · exact inv_leave hlock h hn rfl
      · rename_i items hsave
        refine inv_setPc h (fun _ => h.holder n hn) fun t' items' hwriting => ?_
        cases hwriting
        rcases ha n e t rfl hpc (by simpa using hcontrol) with hraises | ⟨hheld, hsingle⟩
        · rw [hraises] at hsave
          cases hsave
        · cases hread : readRaw e.readable s.file with
          | value elements =>
            rw [hread] at hsave
            cases hsave
          | items l =>
            rw [hread, readRaw_eq hheld hread] at hsave
            exact (saved_iff hsave).mpr hsingle
  | writing t items =>
    have hn : (s.pcs n).critical = true := by rw [hpc]; rfl
    simp only
    split
    · exact inv_write hlock h hpc _
    · exact inv_leave hlock h hn rfl
  | mirroring t =>
    have hn : (s.pcs n).critical = true := by rw [hpc]; rfl
    exact inv_leave hlock h hn rfl
  | returned => exact h
  | raised err => exact h
  | dead => exact h

theorem inv_step (hlock : OneLock c) (h : Inv c s) (a : Act τ) (ha : Legible c s a) : Inv c (step c s a) := by
  cases a with
  | go n e => exact inv_go hlock h n e ha
  | kill n =>
    simp only [step]
    split
    · rename_i hn
      exact inv_leave hlock h hn rfl
    · exact inv_idle h rfl

theorem fileStep_go (c : Setting ρ τ) (s : State ρ τ) (n : Nat) (e : Event τ) : FileStep c s (s.go c n e) := by
  unfold State.go
  cases hpc : s.pcs n with
  | entered =>
    have hgoes : FileStep c s (s.setPc n .acquiring) :=
      fileStep_move s rfl rfl (fun _ hbad => by cases hbad) fun hbad => by cases hbad
    simp only
    split
    · split
      · exact fileStep_raise s rfl rfl
      · exact hgoes
    · exact hgoes
  | acquiring =>
    simp only
    split
    · exact fileStep_move (s.setLock _ _) rfl rfl (fun _ hbad => by cases hbad) fun hbad => by cases hbad
    · split
      · exact fileStep_raise s rfl rfl
      · exact fileStep_self c s
  | locked =>
    simp only
    split
    · exact fileStep_raise (s.setLock _ _) rfl rfl
    · refine fileStep_move (s.setLock _ _) rfl rfl (fun _ hbad => by cases hbad) fun _ t hsaving => ?_
      rw [hpc] at hsaving
      cases hsaving
    · split
      · exact fileStep_raise (s.setLock _ _) rfl rfl
      · exact fileStep_move s rfl rfl (fun _ hbad => by cases hbad) fun hbad => by cases hbad
  | saving t =>
    simp only
    split
    · rename_i hcontrol
      refine fileStep_move (s.setLock _ _) rfl rfl (fun t' hbad => ?_) fun _ _ _ => hcontrol
      split at hbad <;> cases hbad
    · split
      · exact fileStep_raise (s.setLock _ _) rfl rfl
      · exact fileStep_move s rfl rfl (fun _ hbad => by cases hbad) fun hbad => by cases hbad
  | writing t items =>
    simp only
    split
    · exact .writes n t items hpc
    · exact fileStep_raise (s.setLock _ _) rfl rfl
  | mirroring t =>
    refine fileStep_move (s.setLock _ _) rfl rfl (fun _ hbad => by cases hbad) fun _ t' hsaving => ?_
    rw [hpc] at hsaving
    cases hsaving
  | returned => exact fileStep_self c s
  | raised err => exact fileStep_self c s
  | dead => exact fileStep_self c s

theorem fileStep_step (c : Setting ρ τ) (s : State ρ τ) (a : Act τ) : FileStep c s (step c s a) := by
  cases a with
  | go n e => exact fileStep_go c s n e
  | kill n =>
    simp only [step]
    split
    · exact fileStep_move (s.setLock _ _) rfl rfl (fun _ hbad => by cases hbad) fun hbad => by cases hbad
    · exact fileStep_move s rfl rfl (fun _ hbad => by cases hbad) fun hbad => by cases hbad

/-- Whatever the file holds at first: with one lock file for all calls, no write of a run loses another
row, as long as the reads before the writes are legible. -/
theorem ledger_writes_keep (c : Setting ρ τ) (hlock : OneLock c) (file : Option (LedgerFile ρ)) (acts : List (Act τ))
    (hlegible : ∀ m ∈ Runs.moves (step c) { file := file } acts, Legible c m.pre m.act) :
    ∀ m ∈ Runs.moves (step c) { file := file } acts, Good c m := by
  intro m hm
  have hpre := Runs.moves_invariant_of (I := Inv c) (C := Legible c) (fun s a h ha => inv_step hlock h a ha)
    (inv_init c file) hlegible m hm
  have hpost := Runs.post_of_mem hm
  obtain ⟨pre, act, post⟩ := m
  simp only at hpost hpre
  rw [hpost]
  exact good_of_fileStep hpre (fileStep_step c pre act)

end

def row (id title : String) : Row Unit := ⟨some id, some title, ()⟩

def newTicket (title : String) : UserTicket Unit := { id := "USR-02", title := title, rest := () }

def codec : Codec Unit Unit where
  validate := fun _ r => r.id.bind fun id => r.title.map fun title => { id := id, title := title, rest := () }
  dumpRest := fun _ => ()

def saver (path : String) (title : String) : Call Unit := ⟨.saveTicket (newTicket title), path, "/tmp", false, false⟩

def saverOnly : Setting Unit Unit := ⟨codec, fun _ => saver "/repo/demands.json" "Second"⟩

def linkedSavers : Setting Unit Unit where
  codec := codec
  call := fun n =>
    if n = 0 then saver "/repo/demands.json" "Second"
    else { saver "/link/demands.json" "Third" with op := .saveTicket { newTicket "Third" with id := "USR-03" } }

def markedFile : LedgerFile Unit :=
  ⟨.malformed "Unexpected UTF-8 BOM (decode using utf-8-sig)", [.row (row "USR-01" "First")], nofun⟩

def upTo (n k : Nat) : List (Act Unit) := List.replicate k (.go n {})

variable {c : Setting Unit Unit}

theorem not_good_of_lost {s : State Unit Unit} (n : Nat) (t : UserTicket Unit)
    (items : List (Item Unit)) (hpc : s.pcs n = .writing t items)
    (hlost : items.filter (isFor (c.codec.dump t)) ≠ [.row (c.codec.dump t)] ∨
      (items.filter fun i => !isFor (c.codec.dump t) i) ≠
        (heldOf s.file).filter fun i => !isFor (c.codec.dump t) i) :
    ¬ Good c ⟨s, .go n {}, step c s (.go n {})⟩ := by
  intro hgood
  have hpost : step c s (.go n {}) = { s with file := some (.written items) }.setPc n (.mirroring t) := by
    simp only [step, State.go, hpc, if_true]
  have hsaved := hgood.saves n t ⟨⟨items, hpc⟩, by rw [hpost]; exact setPc_self _ _ _⟩
  simp only [hpost] at hsaved
  rcases hlost with hrow | hothers
  · exact hrow hsaved.row
  · exact hothers hsaved.others

theorem last_move {s : State Unit Unit} (acts : List (Act Unit)) (a : Act Unit) :
    (⟨Runs.run (step c) s acts, a, step c (Runs.run (step c) s acts) a⟩ : Move _ _) ∈
      Runs.moves (step c) s (acts ++ [a]) := by
  rw [Runs.moves_append]
  exact List.mem_append_right _ List.mem_cons_self

/-- A ledger that cannot be parsed is overwritten, a doubled row stays, and through two names of one file
a save takes away the ticket of another one. -/
theorem rows_lost :
    (∃ m ∈ Runs.moves (step saverOnly) { file := some markedFile } (upTo 0 4 ++ [.go 0 {}]),
      ¬ Good saverOnly m) ∧
      (∃ m ∈ Runs.moves (step saverOnly)
        { file := some (.written [.row (row "USR-02" "Old"), .row (row "USR-02" "Older")]) }
        (upTo 0 4 ++ [.go 0 {}]), ¬ Good saverOnly m) ∧
      ∃ m ∈ Runs.moves (step linkedSavers) { file := some (.written [.row (row "USR-01" "First")]) }
        (upTo 0 4 ++ upTo 1 5 ++ [.go 0 {}]), ¬ Good linkedSavers m := by
  refine ⟨⟨_, last_move _ _, ?_⟩, ⟨_, last_move _ _, ?_⟩, ⟨_, last_move _ _, ?_⟩⟩
  · exact not_good_of_lost 0 (newTicket "Second") [.row (row "USR-02" "Second")] (by decide +kernel)
      (by decide +kernel)
  · exact not_good_of_lost 0 (newTicket "Second") [.row (row "USR-02" "Second"), .row (row "USR-02" "Older")]
      (by decide +kernel) (by decide +kernel)
  · exact not_good_of_lost 0 (newTicket "Second") [.row (row "USR-01" "First"), .row (row "USR-02" "Second")]
      (by decide +kernel) (by decide +kernel)

/-- The move reads a list, in which the id of its ticket is not doubled. -/
def isLegible (m : Move (State Unit Unit) (Act Unit)) : Bool :=
  match m.act with
  | .go n e =>
    match m.pre.pcs n with
    | .saving t =>
      e.readable && m.pre.file.all (fun f => decide (f.text = .json (.list f.held))) &&
        decide (((heldOf m.pre.file).filter (isFor (codec.dump t))).length ≤ 1)
    | _ => true
  | .kill _ => true

theorem legible_of_isLegible (hcodec : c.codec = codec)
    {m : Move (State Unit Unit) (Act Unit)} (h : isLegible m = true) : Legible c m.pre m.act := by
  intro n e t hact hsaving _
  simp only [isLegible, hact, hsaving, Bool.and_eq_true, decide_eq_true_eq] at h
  obtain ⟨⟨hreadable, hlist⟩, hsingle⟩ := h
  refine .inr ⟨fun hhides => ?_, hcodec ▸ hsingle⟩
  rcases hhides with hhidden | ⟨f, hf, hshape⟩
  · rw [hreadable] at hhidden
    cases hhidden
  · rw [hf, Option.all_some, decide_eq_true_eq] at hlist
    rcases hshape with ⟨exc, htext⟩ | htext
    · rw [hlist] at htext
      cases htext
    · rw [hlist] at htext
      cases htext

/-- A save of a new ticket beside another one. -/
theorem ledger_writes_keep_two :
    (Runs.moves (step saverOnly) { file := some (.written [.row (row "USR-01" "First")]) } (upTo 0 6)).Forall
      (Good saverOnly) := by
  refine List.forall_iff_forall_mem.mpr (ledger_writes_keep saverOnly (fun _ _ => rfl) _ _ fun m hm => ?_)
  have hall : (Runs.moves (step saverOnly) { file := some (.written [.row (row "USR-01" "First")]) }
      (upTo 0 6)).all isLegible = true := by decide +kernel
  exact legible_of_isLegible rfl (List.all_eq_true.mp hall m hm)

end Demands
end DarkFactory
