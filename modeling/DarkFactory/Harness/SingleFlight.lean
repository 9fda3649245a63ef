import DarkFactory.Harness.Inflight

/-!
# DarkFactory.Harness.SingleFlight

Who holds a key, over every interleaving of the calls of any number of processes.

* `Inv` — what a transaction that has the lock knows of the row; a lease is in the row.
* `single_flight_iff` — one holder at a time, and nobody's claim touched by another, when every step meets
  `Fenced`; and only then, when acquisitions commit within their lease.
-/

namespace DarkFactory
namespace Harness
namespace Inflight

section

variable {τ : Type}

@[simp] theorem tell_now (s : State τ) (p : Process) (e : Option Int) : (s.tell p e).now = s.now := rfl

@[simp] theorem tell_row (s : State τ) (p : Process) (e : Option Int) : (s.tell p e).row = s.row := rfl

@[simp] theorem tell_lock (s : State τ) (p : Process) (e : Option Int) : (s.tell p e).lock = s.lock := rfl

theorem tell_self (s : State τ) (p : Process) (e : Option Int) : (s.tell p e).told p = e := if_pos rfl

theorem tell_ne (s : State τ) {p q : Process} (e : Option Int) (h : q ≠ p) :
    (s.tell p e).told q = s.told q := if_neg h

variable [DecidableEq τ]

@[simp] theorem setSession_now (s : State τ) (t : τ) (c : Session) : (s.setSession t c).now = s.now := rfl

@[simp] theorem setSession_row (s : State τ) (t : τ) (c : Session) : (s.setSession t c).row = s.row := rfl

@[simp] theorem setSession_lock (s : State τ) (t : τ) (c : Session) : (s.setSession t c).lock = s.lock := rfl

@[simp] theorem setSession_told (s : State τ) (t : τ) (c : Session) : (s.setSession t c).told = s.told := rfl

theorem setSession_self (s : State τ) (t : τ) (c : Session) : (s.setSession t c).sessions t = c :=
  if_pos rfl

theorem setSession_ne (s : State τ) {t t' : τ} (c : Session) (h : t' ≠ t) :
    (s.setSession t c).sessions t' = s.sessions t' := if_neg h

variable {s : State τ} {t : τ}

theorem isFree_iff : s.isFree t = true ↔ s.lock = none ∨ s.lock = some t := by
  simp [State.isFree]

inductive Advances (s : State τ) (t : τ) : State τ → Prop where
  /-- The call has returned, or the statement waits for a lock. -/
  | stays : Advances s t s
  | selectsNone (p : Process) (e timestamp : Int) : s.sessions t = .selecting p e timestamp →
      s.row = none → Advances s t (s.setSession t (.upserting p e timestamp none))
  | selects (p : Process) (e timestamp : Int) (row : Claim) : s.sessions t = .selecting p e timestamp →
      s.row = some row → s.isFree t = true →
      Advances s t ({ s with lock := some t }.setSession t (.checking p e timestamp row))
  | passes (p : Process) (e timestamp : Int) (row : Claim) :
      s.sessions t = .checking p e timestamp row → row.expiresAt < timestamp →
      Advances s t (s.setSession t (.upserting p e timestamp (some row)))
  | fails (p : Process) (e timestamp : Int) (row : Claim) :
      s.sessions t = .checking p e timestamp row → Advances s t (s.setSession t (.refusing p))
  | refuses (p : Process) : s.sessions t = .refusing p →
      Advances s t ({ s with lock := none }.setSession t (.returned false))
  | upserts (p : Process) (e timestamp : Int) (row : Option Claim) :
      s.sessions t = .upserting p e timestamp row → s.isFree t = true →
      Advances s t ({ s with lock := some t }.setSession t (.upserted p e timestamp row))
  | acquires (p : Process) (e timestamp : Int) (row : Option Claim) :
      s.sessions t = .upserted p e timestamp row →
      Advances s t (({ s with row := some ⟨p, timestamp + e⟩, lock := none }.tell p
        (some (timestamp + e))).setSession t (.returned true))
  | deletes (p : Process) (row : Claim) : s.sessions t = .deleting p → s.row = some row →
      row.owner.pid = p.pid → s.isFree t = true →
      Advances s t (({ s with lock := some t }.tell p none).setSession t (.deleted p true))
  | deletesNone (p : Process) : s.sessions t = .deleting p → (∀ row, s.row = some row → row.owner.pid ≠ p.pid) →
      Advances s t ((s.tell p none).setSession t (.deleted p false))
  | releases (p : Process) : s.sessions t = .deleted p true →
      Advances s t ({ s with row := none, lock := none }.setSession t (.returned true))
  | releasesNone (p : Process) : s.sessions t = .deleted p false → Advances s t (s.setSession t (.returned true))
  | updates (p : Process) (e timestamp : Int) (row : Claim) : s.sessions t = .updating p e timestamp →
      s.row = some row → row.owner = p → s.isFree t = true →
      Advances s t ({ s with lock := some t }.setSession t (.updated p e timestamp true))
  | updatesNone (p : Process) (e timestamp : Int) : s.sessions t = .updating p e timestamp →
      Advances s t (s.setSession t (.updated p e timestamp false))
  | refreshes (p : Process) (e timestamp : Int) : s.sessions t = .updated p e timestamp true →
      Advances s t (({ s with row := some ⟨p, timestamp + e⟩, lock := none }.tell p
        (some (timestamp + e))).setSession t (.returned true))
  | refreshesNone (p : Process) (e timestamp : Int) : s.sessions t = .updated p e timestamp false →
      Advances s t (s.setSession t (.returned false))

theorem advances (s : State τ) (t : τ) : Advances s t (s.advance t) := by
  unfold State.advance
  cases hc : s.sessions t with
  | absent => exact .stays
  | returned answer => exact .stays
  | selecting p e timestamp =>
    simp only
    split
    · rename_i hrow
      exact .selectsNone p e timestamp hc hrow
    · rename_i row hrow
      split
      · rename_i hfree
        exact .selects p e timestamp row hc hrow hfree
      · exact .stays
  | checking p e timestamp row =>
    simp only
    split
    · rename_i hexpired
      exact .passes p e timestamp row hc hexpired
    · exact .fails p e timestamp row hc
  | refusing p => exact .refuses p hc
  | upserting p e timestamp row =>
    simp only
    split
    · rename_i hfree
      exact .upserts p e timestamp row hc hfree
    · exact .stays
  | upserted p e timestamp row => exact .acquires p e timestamp row hc
  | deleting p =>
    simp only
    split
    · rename_i hmatch
      obtain ⟨row, hrow, hpid⟩ := (Option.any_eq_true _ _).mp hmatch
      split
      · rename_i hfree
        exact .deletes p row hc hrow (of_decide_eq_true hpid) hfree
      · exact .stays
    · rename_i hmatch
      refine .deletesNone p hc fun row hrow hpid => hmatch ?_
      rw [hrow, Option.any_some, decide_eq_true_eq]
      exact hpid
  | deleted p matched =>
    cases matched with
    | true => exact .releases p hc
    | false => exact .releasesNone p hc
  | updating p e timestamp =>
    simp only
    split
    · rename_i hmatch
      obtain ⟨row, hrow, howner⟩ := (Option.any_eq_true _ _).mp hmatch
      split
      · rename_i hfree
        exact .updates p e timestamp row hc hrow (of_decide_eq_true howner) hfree
      · exact .stays
    · exact .updatesNone p e timestamp hc
  | updated p e timestamp matched =>
    cases matched with
    | true => exact .refreshes p e timestamp hc
    | false => exact .refreshesNone p e timestamp hc

def Session.hasLock (c : Session) : Bool :=
  match c with
  | .checking _ _ _ _ | .refusing _ | .upserting _ _ _ (some _) | .upserted _ _ _ _ => true
  | .deleted _ matched | .updated _ _ _ matched => matched
  | _ => false

def Session.Knows (c : Session) (row : Option Claim) (now : Int) : Prop :=
  match c with
  | .checking _ _ timestamp r => row = some r ∧ timestamp ≤ now
  | .upserting _ _ timestamp (some r) | .upserted _ _ timestamp (some r) =>
    row = some r ∧ r.expiresAt < timestamp ∧ timestamp ≤ now
  | .deleted p true => ∃ r, row = some r ∧ r.owner.pid = p.pid
  | .updated p _ _ true => ∃ r, row = some r ∧ r.owner = p
  | _ => True

def Session.Began (c : Session) (now : Int) : Prop :=
  match c with
  | .selecting _ _ timestamp => timestamp ≤ now
  | _ => True

structure SessionOk (s : State τ) (t : τ) : Prop where
  lock : (s.sessions t).hasLock = true → s.lock = some t
  knows : (s.sessions t).Knows s.row s.now
  began : (s.sessions t).Began s.now

theorem knows_of_not_hasLock {c : Session} (h : c.hasLock = false) (row : Option Claim) (now : Int) :
    c.Knows row now := by
  cases c with
  | checking p e timestamp r => cases h
  | upserting p e timestamp r =>
    cases r with
    | none => trivial
    | some r => cases h
  | upserted p e timestamp r => cases h
  | deleted p matched =>
    cases matched with
    | true => cases h
    | false => trivial
  | updated p e timestamp matched =>
    cases matched with
    | true => cases h
    | false => trivial
  | _ => trivial

theorem knows_later {c : Session} {row : Option Claim} {now now' : Int} (hle : now ≤ now')
    (h : c.Knows row now) : c.Knows row now' := by
  cases c with
  | checking p e timestamp r => exact ⟨h.1, Int.le_trans h.2 hle⟩
  | upserting p e timestamp r =>
    cases r with
    | none => trivial
    | some r => exact ⟨h.1, h.2.1, Int.le_trans h.2.2 hle⟩
  | upserted p e timestamp r =>
    cases r with
    | none => trivial
    | some r => exact ⟨h.1, h.2.1, Int.le_trans h.2.2 hle⟩
  | deleted p matched =>
    cases matched with
    | true => exact h
    | false => trivial
  | updated p e timestamp matched =>
    cases matched with
    | true => exact h
    | false => trivial
  | _ => trivial

theorem began_later {c : Session} {now now' : Int} (hle : now ≤ now') (h : c.Began now) : c.Began now' := by
  cases c with
  | selecting p e timestamp => exact Int.le_trans h hle
  | _ => trivial

theorem advance_frame {t' : τ} (ht : t' ≠ t) (hown : SessionOk s t) :
    (s.advance t).now = s.now ∧ (s.advance t).sessions t' = s.sessions t' ∧
      (s.lock = some t' → (s.advance t).lock = some t' ∧ (s.advance t).row = s.row) := by
  have hwaits : s.isFree t = true → s.lock = some t' → False := by
    intro hfree hlock
    rcases isFree_iff.mp hfree with hn | hs
    · rw [hn] at hlock
      cases hlock
    · rw [hs] at hlock
      exact ht (Option.some.inj hlock).symm
  have howns : (s.sessions t).hasLock = true → s.lock = some t' → False := by
    intro hhas hlock
    rw [hown.lock hhas] at hlock
    exact ht (Option.some.inj hlock).symm
  have hadvance := advances s t
  generalize s.advance t = s' at hadvance ⊢
  cases hadvance with
  | stays => exact ⟨rfl, rfl, fun h => ⟨h, rfl⟩⟩
  | selectsNone p e timestamp hc hrow => exact ⟨rfl, setSession_ne _ _ ht, fun h => ⟨h, rfl⟩⟩
  | selects p e timestamp row hc hrow hfree =>
    exact ⟨rfl, setSession_ne _ _ ht, fun h => (hwaits hfree h).elim⟩
  | passes p e timestamp row hc hexpired => exact ⟨rfl, setSession_ne _ _ ht, fun h => ⟨h, rfl⟩⟩
  | fails p e timestamp row hc => exact ⟨rfl, setSession_ne _ _ ht, fun h => ⟨h, rfl⟩⟩
  | refuses p hc =>
    exact ⟨rfl, setSession_ne _ _ ht, fun h => (howns (by rw [hc]; rfl) h).elim⟩
  | upserts p e timestamp row hc hfree =>
    exact ⟨rfl, setSession_ne _ _ ht, fun h => (hwaits hfree h).elim⟩
  | acquires p e timestamp row hc =>
    exact ⟨rfl, setSession_ne _ _ ht, fun h => (howns (by rw [hc]; rfl) h).elim⟩
  | deletes p row hc hrow hpid hfree =>
    exact ⟨rfl, setSession_ne _ _ ht, fun h => (hwaits hfree h).elim⟩
  | deletesNone p hc hnone => exact ⟨rfl, setSession_ne _ _ ht, fun h => ⟨h, rfl⟩⟩
  | releases p hc =>
    exact ⟨rfl, setSession_ne _ _ ht, fun h => (howns (by rw [hc]; rfl) h).elim⟩
  | releasesNone p hc => exact ⟨rfl, setSession_ne _ _ ht, fun h => ⟨h, rfl⟩⟩
  | updates p e timestamp row hc hrow howner hfree =>
    exact ⟨rfl, setSession_ne _ _ ht, fun h => (hwaits hfree h).elim⟩
  | updatesNone p e timestamp hc => exact ⟨rfl, setSession_ne _ _ ht, fun h => ⟨h, rfl⟩⟩
  | refreshes p e timestamp hc =>
    exact ⟨rfl, setSession_ne _ _ ht, fun h => (howns (by rw [hc]; rfl) h).elim⟩
  | refreshesNone p e timestamp hc => exact ⟨rfl, setSession_ne _ _ ht, fun h => ⟨h, rfl⟩⟩

theorem sessionOk_self (h : SessionOk s t) : SessionOk (s.advance t) t := by
  have hnone : ∀ (s' : State τ) (c : Session), s'.sessions t = c → c.hasLock = false → c.Began s'.now →
      SessionOk s' t := by
    intro s' c hc hlock hbegan
    refine ⟨fun hh => ?_, ?_, ?_⟩
    · rw [hc, hlock] at hh
      cases hh
    · rw [hc]
      exact knows_of_not_hasLock hlock _ _
    · rw [hc]
      exact hbegan
  have hsome : ∀ (s' : State τ) (c : Session), s'.sessions t = c → s'.lock = some t →
      c.Knows s'.row s'.now → c.Began s'.now → SessionOk s' t := by
    intro s' c hc hlock hknows hbegan
    exact ⟨fun _ => hlock, by rw [hc]; exact hknows, by rw [hc]; exact hbegan⟩
  have hadvance := advances s t
  generalize s.advance t = s' at hadvance ⊢
  cases hadvance with
  | stays => exact h
  | selectsNone p e timestamp hc hrow => exact hnone _ _ (setSession_self _ _ _) rfl trivial
  | selects p e timestamp row hc hrow hfree =>
    have hbegan := h.began
    rw [hc] at hbegan
    exact hsome _ _ (setSession_self _ _ _) rfl ⟨hrow, hbegan⟩ trivial
  | passes p e timestamp row hc hexpired =>
    have hknows := h.knows
    rw [hc] at hknows
    exact hsome _ _ (setSession_self _ _ _) (h.lock (by rw [hc]; rfl)) ⟨hknows.1, hexpired, hknows.2⟩ trivial
  | fails p e timestamp row hc =>
    exact hsome _ _ (setSession_self _ _ _) (h.lock (by rw [hc]; rfl)) trivial trivial
  | refuses p hc => exact hnone _ _ (setSession_self _ _ _) rfl trivial
  | upserts p e timestamp row hc hfree =>
    have hknows := h.knows
    rw [hc] at hknows
    cases row with
    | none => exact hsome _ _ (setSession_self _ _ _) rfl trivial trivial
    | some row => exact hsome _ _ (setSession_self _ _ _) rfl hknows trivial
  | acquires p e timestamp row hc => exact hnone _ _ (setSession_self _ _ _) rfl trivial
  | deletes p row hc hrow hpid hfree =>
    exact hsome _ _ (setSession_self _ _ _) rfl ⟨row, hrow, hpid⟩ trivial
  | deletesNone p hc hmiss => exact hnone _ _ (setSession_self _ _ _) rfl trivial
  | releases p hc => exact hnone _ _ (setSession_self _ _ _) rfl trivial
  | releasesNone p hc => exact hnone _ _ (setSession_self _ _ _) rfl trivial
  | updates p e timestamp row hc hrow howner hfree =>
    exact hsome _ _ (setSession_self _ _ _) rfl ⟨row, hrow, howner⟩ trivial
  | updatesNone p e timestamp hc => exact hnone _ _ (setSession_self _ _ _) rfl trivial
  | refreshes p e timestamp hc => exact hnone _ _ (setSession_self _ _ _) rfl trivial
  | refreshesNone p e timestamp hc => exact hnone _ _ (setSession_self _ _ _) rfl trivial

theorem sessionOk_other {t' : τ} (ht : t' ≠ t) (hown : SessionOk s t)
    (h : SessionOk s t') : SessionOk (s.advance t) t' := by
  obtain ⟨hnow, hsame, hframe⟩ := advance_frame ht hown
  refine ⟨fun hl => ?_, ?_, ?_⟩
  · rw [hsame] at hl
    exact (hframe (h.lock hl)).1
  · rw [hsame, hnow]
    cases hl : (s.sessions t').hasLock with
    | true =>
      rw [(hframe (h.lock hl)).2]
      exact h.knows
    | false => exact knows_of_not_hasLock hl _ _
  · rw [hsame, hnow]
    exact h.began

theorem sessionOk_start (habsent : s.sessions t = .absent) (p : Process) (c : Call)
    (h : ∀ t, SessionOk s t) (t' : τ) : SessionOk (s.start t p c) t' := by
  have hset : ∀ c' : Session, c'.hasLock = false → c'.Began s.now → SessionOk (s.setSession t c') t' := by
    intro c' hlock hbegan
    by_cases heq : t' = t
    · subst heq
      refine ⟨fun hl => ?_, ?_, ?_⟩
      · rw [setSession_self, hlock] at hl
        cases hl
      · rw [setSession_self]
        exact knows_of_not_hasLock hlock _ _
      · rw [setSession_self]
        exact hbegan
    · refine ⟨fun hl => ?_, ?_, ?_⟩
      · rw [setSession_ne _ _ heq] at hl
        exact (h t').lock hl
      · rw [setSession_ne _ _ heq]
        exact (h t').knows
      · rw [setSession_ne _ _ heq]
        exact (h t').began
  cases c with
  | acquire e => exact hset _ rfl (Int.le_refl _)
  | release => exact hset _ rfl trivial
  | refresh e => exact hset _ rfl trivial

theorem sessionOk_step (a : Act τ) (h : ∀ t, SessionOk s t) : ∀ t, SessionOk (step s a) t := by
  intro t'
  cases a with
  | start t p c =>
    simp only [step]
    split
    · rename_i habsent
      exact sessionOk_start habsent p c h t'
    · exact h t'
  | advance t =>
    by_cases heq : t' = t
    · subst heq
      exact sessionOk_self (h t')
    · exact sessionOk_other heq (h t) (h t')
  | tick d =>
    have hle : s.now ≤ s.now + d := by omega
    exact ⟨(h t').lock, knows_later hle (h t').knows, began_later hle (h t').began⟩

structure Inv (s : State τ) : Prop where
  sessions : ∀ t, SessionOk s t
  /-- A lease that has not lapsed is in the table. -/
  held : ∀ p e, s.told p = some e → s.now ≤ e → s.row = some ⟨p, e⟩
  /-- The owner of the row knows of it, or is giving it up. -/
  known : ∀ r, s.row = some r → s.told r.owner = some r.expiresAt ∨ ∃ t p, s.sessions t = .deleted p true
  given : ∀ t p, s.sessions t = .deleted p true → s.told p = none

/-- The step overwrites or deletes no claim of another process that is still good. -/
structure Fenced (s : State τ) (a : Act τ) : Prop where
  /-- An acquisition that found no row meets no live claim of another process when it commits its own. -/
  acquire : ∀ t p e timestamp, a = .advance t → s.sessions t = .upserted p e timestamp none →
    ∀ r, s.row = some r → r.owner = p ∨ r.expiresAt < s.now
  /-- The row that a release deletes by its pid is of the same host. -/
  release : ∀ t p, a = .advance t → s.sessions t = .deleted p true → ∀ r, s.row = some r → r.owner.host = p.host

/-- What a commit of `t` does to the leases of the others. -/
theorem told_of_advance {q : Process} :
    (s.advance t).told q = s.told q ∨ (s.advance t).told q = none ∨
      ((s.sessions t).hasLock = true ∧ ∃ e, (s.advance t).told q = some e ∧ (s.advance t).row = some ⟨q, e⟩) := by
  have htell : ∀ (s' : State τ) (p : Process) (e : Int), s'.told = s.told →
      (s.sessions t).hasLock = true → s'.row = some ⟨p, e⟩ →
      (s'.tell p (some e)).told q = s.told q ∨ (s'.tell p (some e)).told q = none ∨
        ((s.sessions t).hasLock = true ∧ ∃ e', (s'.tell p (some e)).told q = some e' ∧
          (s'.tell p (some e)).row = some ⟨q, e'⟩) := by
    intro s' p e hsame hlock hrow
    by_cases hq : q = p
    · subst hq
      exact .inr (.inr ⟨hlock, e, tell_self _ _ _, hrow⟩)
    · rw [tell_ne _ _ hq, hsame]
      exact .inl rfl
  have hclear : ∀ (s' : State τ) (p : Process), s'.told = s.told →
      (s'.tell p none).told q = s.told q ∨ (s'.tell p none).told q = none := by
    intro s' p hsame
    by_cases hq : q = p
    · subst hq
      exact .inr (tell_self _ _ _)
    · rw [tell_ne _ _ hq, hsame]
      exact .inl rfl
  have hadvance := advances s t
  generalize s.advance t = s' at hadvance ⊢
  cases hadvance with
  | acquires p e timestamp row hc => exact htell _ p _ rfl (by rw [hc]; rfl) rfl
  | refreshes p e timestamp hc => exact htell _ p _ rfl (by rw [hc]; rfl) rfl
  | deletes p row hc hrow hpid hfree => exact (hclear _ p rfl).imp id .inl
  | deletesNone p hc hmiss => exact (hclear s p rfl).imp id .inl
  | _ => exact .inl rfl

theorem row_of_advance :
    (s.advance t).row = s.row ∨
      (∃ p e timestamp row, s.sessions t = .upserted p e timestamp row ∧
        (s.advance t).row = some ⟨p, timestamp + e⟩) ∨
      (∃ p, s.sessions t = .deleted p true ∧ (s.advance t).row = none) ∨
      ∃ p e timestamp, s.sessions t = .updated p e timestamp true ∧
        (s.advance t).row = some ⟨p, timestamp + e⟩ := by
  have hadvance := advances s t
  generalize s.advance t = s' at hadvance ⊢
  cases hadvance with
  | acquires p e timestamp row hc => exact .inr (.inl ⟨p, e, timestamp, row, hc, rfl⟩)
  | refreshes p e timestamp hc => exact .inr (.inr (.inr ⟨p, e, timestamp, hc, rfl⟩))
  | releases p hc => exact .inr (.inr (.inl ⟨p, hc, rfl⟩))
  | _ => exact .inl rfl

theorem held_advance (h : Inv s) (hf : Fenced s (.advance t)) (q : Process) (e : Int)
    (ht : (s.advance t).told q = some e) (hlive : s.now ≤ e) : (s.advance t).row = some ⟨q, e⟩ := by
  rcases told_of_advance (s := s) (t := t) (q := q) with hsame | hnone | ⟨-, e', he', hrow⟩
  · rw [hsame] at ht
    have hrow := h.held q e ht hlive
    have hknows := (h.sessions t).knows
    rcases row_of_advance (s := s) (t := t) with hkeep | ⟨p, e', timestamp, row, hc, hnew⟩ |
      ⟨p, hc, hnew⟩ | ⟨p, e', timestamp, hc, hnew⟩
    · rw [hkeep]
      exact hrow
    · -- the row that is replaced has lapsed, or is of the process itself
      have hp : q = p := by
        rw [hc] at hknows
        cases row with
        | some r =>
          obtain ⟨hr, hexpired, hpast⟩ := hknows
          rw [hrow] at hr
          cases hr
          simp only at hexpired
          omega
        | none =>
          rcases hf.acquire t p e' timestamp rfl hc _ hrow with hown | hexpired
          · exact hown
          · simp only at hexpired
            omega
      subst hp
      have htold : (s.advance t).told q = some (timestamp + e') := by
        simp only [State.advance, hc]
        exact tell_self _ _ _
      rw [hsame, ht] at htold
      rw [hnew, Option.some.inj htold]
    · obtain ⟨r, hr, hpid⟩ := by
        rw [hc] at hknows
        exact hknows
      have hhost := hf.release t p rfl hc r hr
      rw [hrow] at hr
      cases hr
      have hp : q = p := by
        cases q
        cases p
        simp only at hhost hpid
        rw [hhost, hpid]
      rw [hp, h.given t p hc] at ht
      cases ht
    · obtain ⟨r, hr, howner⟩ := by
        rw [hc] at hknows
        exact hknows
      rw [hrow] at hr
      cases hr
      simp only at howner
      subst howner
      have htold : (s.advance t).told q = some (timestamp + e') := by
        simp only [State.advance, hc, if_true]
        exact tell_self _ _ _
      rw [hsame, ht] at htold
      rw [hnew, Option.some.inj htold]
  · rw [hnone] at ht
    cases ht
  · rw [he'] at ht
    rw [hrow, Option.some.inj ht]

theorem known_advance (h : Inv s) (r : Claim) (hr : (s.advance t).row = some r) :
    (s.advance t).told r.owner = some r.expiresAt ∨ ∃ t' p, (s.advance t).sessions t' = .deleted p true := by
  have hdeleting : (∀ p, s.sessions t ≠ .deleted p true) → (∃ t' p, s.sessions t' = .deleted p true) →
      ∃ t' p, (s.advance t).sessions t' = .deleted p true := by
    rintro hnot ⟨t', p, hd⟩
    have hne : t' ≠ t := fun heq => hnot p (heq ▸ hd)
    exact ⟨t', p, (advance_frame hne (h.sessions t)).2.1.trans hd⟩
  have hkeep : (∀ p, s.sessions t ≠ .deleted p true) → (s.advance t).row = s.row →
      (s.advance t).told r.owner = s.told r.owner →
      (s.advance t).told r.owner = some r.expiresAt ∨ ∃ t' p, (s.advance t).sessions t' = .deleted p true := by
    intro hnot hrow htold
    rw [hrow] at hr
    rw [htold]
    exact (h.known r hr).imp id (hdeleting hnot)
  have hadvance := advances s t
  generalize s.advance t = s' at hadvance hkeep hr ⊢
  cases hadvance with
  | stays => exact h.known r hr
  | selectsNone p e timestamp hc hrow => exact hkeep (by simp [hc]) rfl rfl
  | selects p e timestamp row hc hrow hfree => exact hkeep (by simp [hc]) rfl rfl
  | passes p e timestamp row hc hexpired => exact hkeep (by simp [hc]) rfl rfl
  | fails p e timestamp row hc => exact hkeep (by simp [hc]) rfl rfl
  | refuses p hc => exact hkeep (by simp [hc]) rfl rfl
  | upserts p e timestamp row hc hfree => exact hkeep (by simp [hc]) rfl rfl
  | acquires p e timestamp row hc =>
    cases hr
    exact .inl (tell_self _ _ _)
  | deletes p row hc hrow hpid hfree => exact .inr ⟨t, p, setSession_self _ _ _⟩
  | deletesNone p hc hmiss =>
    have hother : r.owner ≠ p := fun heq => hmiss r hr (congrArg Process.pid heq)
    exact hkeep (by simp [hc]) rfl (tell_ne s none hother)
  | releases p hc => cases hr
  | releasesNone p hc => exact hkeep (by simp [hc]) rfl rfl
  | updates p e timestamp row hc hrow howner hfree => exact hkeep (by simp [hc]) rfl rfl
  | updatesNone p e timestamp hc => exact hkeep (by simp [hc]) rfl rfl
  | refreshes p e timestamp hc =>
    cases hr
    exact .inl (tell_self _ _ _)
  | refreshesNone p e timestamp hc => exact hkeep (by simp [hc]) rfl rfl

theorem given_advance {t' : τ} {p : Process} (h : Inv s)
    (hd : (s.advance t).sessions t' = .deleted p true) : (s.advance t).told p = none := by
  by_cases ht : t' = t
  · subst ht
    have hadvance := advances s t'
    generalize s.advance t' = s' at hadvance hd ⊢
    cases hadvance with
    | stays => exact h.given t' p hd
    | deletes q row hc hrow hpid hfree =>
      rw [setSession_self] at hd
      cases hd
      exact tell_self _ _ _
    | _ =>
      rw [setSession_self] at hd
      cases hd
  · have hframe := advance_frame ht (h.sessions t)
    rw [hframe.2.1] at hd
    rcases told_of_advance (s := s) (t := t) (q := p) with hsame | hnone | ⟨hlock, -⟩
    · rw [hsame]
      exact h.given t' p hd
    · exact hnone
    · -- the transaction that deletes has the lock
      have hmine : s.lock = some t' := (h.sessions t').lock (by rw [hd]; rfl)
      rw [(h.sessions t).lock hlock] at hmine
      exact absurd (Option.some.inj hmine).symm ht

theorem inv_start (habsent : s.sessions t = .absent) (p : Process) (c : Call) (h : Inv s) : Inv (s.start t p c) := by
  have hset : ∀ c' : Session, (∀ q, c' ≠ .deleted q true) → ∀ t' q,
      (s.setSession t c').sessions t' = .deleted q true ↔ s.sessions t' = .deleted q true := by
    intro c' hc' t' q
    by_cases ht : t' = t
    · subst ht
      rw [setSession_self, habsent]
      exact ⟨fun hd => absurd hd (hc' q), fun hd => (by cases hd)⟩
    · rw [setSession_ne _ _ ht]
  have hsessions := sessionOk_start habsent p c h.sessions
  cases c with
  | acquire e =>
    have hd := hset (.selecting p e s.now) (by simp)
    refine ⟨hsessions, h.held, fun r hr => (h.known r hr).imp id ?_, fun t' q hq => h.given t' q ((hd t' q).mp hq)⟩
    rintro ⟨t', q, hq⟩
    exact ⟨t', q, (hd t' q).mpr hq⟩
  | release =>
    have hd := hset (.deleting p) (by simp)
    refine ⟨hsessions, h.held, fun r hr => (h.known r hr).imp id ?_, fun t' q hq => h.given t' q ((hd t' q).mp hq)⟩
    rintro ⟨t', q, hq⟩
    exact ⟨t', q, (hd t' q).mpr hq⟩
  | refresh e =>
    have hd := hset (.updating p e s.now) (by simp)
    refine ⟨hsessions, h.held, fun r hr => (h.known r hr).imp id ?_, fun t' q hq => h.given t' q ((hd t' q).mp hq)⟩
    rintro ⟨t', q, hq⟩
    exact ⟨t', q, (hd t' q).mpr hq⟩

theorem advance_now (s : State τ) (t : τ) : (s.advance t).now = s.now := by
  have hadvance := advances s t
  generalize s.advance t = s' at hadvance ⊢
  cases hadvance <;> rfl

theorem inv_step {a : Act τ} (h : Inv s) (hf : Fenced s a) : Inv (step s a) := by
  cases a with
  | start t p c =>
    simp only [step]
    split
    · rename_i habsent
      exact inv_start habsent p c h
    · exact h
  | advance t =>
    refine ⟨sessionOk_step (.advance t) h.sessions, fun q e ht hlive => ?_, known_advance h, fun t' p hd => ?_⟩
    · exact held_advance h hf q e ht (advance_now s t ▸ hlive)
    · exact given_advance h hd
  | tick d =>
    refine ⟨sessionOk_step (.tick d) h.sessions, fun q e ht hlive => h.held q e ht ?_, h.known, h.given⟩
    have hlater : s.now + d ≤ e := hlive
    omega

omit [DecidableEq τ] in
theorem inv_init (now : Int) : Inv ({ now := now } : State τ) where
  sessions _ := ⟨fun hl => (by cases hl), trivial, trivial⟩
  held _ _ ht _ := by cases ht
  known _ hr := by cases hr
  given _ _ hd := by cases hd

def AtMostOne (s : State τ) : Prop := ∀ p q, s.Holds p → s.Holds q → p = q

def Session.gives (c : Session) (p : Process) : Prop :=
  (∃ matched, c = .deleted p matched) ∨ ∃ e timestamp matched, c = .updated p e timestamp matched

/-- A release or a refresh leaves the claim of another process as it is. -/
def OwnOnly (m : Move (State τ) (Act τ)) : Prop :=
  ∀ t p, m.act = .advance t → (m.pre.sessions t).gives p →
    ∀ r, m.pre.row = some r → r.owner ≠ p → m.post.row = some r

omit [DecidableEq τ] in
theorem atMostOne_of_inv (h : Inv s) : AtMostOne s := by
  rintro p q ⟨e, hp, hlive⟩ ⟨e', hq, hlive'⟩
  have hrow := h.held p e hp hlive
  rw [h.held q e' hq hlive'] at hrow
  cases hrow
  rfl

theorem ownOnly_step {a : Act τ} (h : Inv s) (hf : Fenced s a) : OwnOnly ⟨s, a, step s a⟩ := by
  rintro t p ha hgives r hr hne
  simp only at ha hgives hr
  subst ha
  have hknows := (h.sessions t).knows
  rcases hgives with ⟨matched, hc⟩ | ⟨e, timestamp, matched, hc⟩
  · cases matched with
    | true =>
      rw [hc] at hknows
      obtain ⟨r', hr', hpid⟩ := hknows
      rw [hr] at hr'
      cases hr'
      have hhost := hf.release t p rfl hc r hr
      refine absurd ?_ hne
      cases hp : r.owner
      cases p
      rw [hp] at hhost hpid
      simp only at hhost hpid
      rw [hhost, hpid]
    | false =>
      simp only [step, State.advance, hc, Bool.false_eq_true, if_false, setSession_row]
      exact hr
  · cases matched with
    | true =>
      rw [hc] at hknows
      obtain ⟨r', hr', howner⟩ := hknows
      rw [hr] at hr'
      cases hr'
      exact absurd howner hne
    | false =>
      simp only [step, State.advance, hc, Bool.false_eq_true, if_false, setSession_row]
      exact hr

def Prompt (s : State τ) (a : Act τ) : Prop :=
  ∀ t p e timestamp row, a = .advance t → s.sessions t = .upserted p e timestamp row → s.now ≤ timestamp + e

theorem fenced_of_good {a : Act τ} (h : Inv s) (hprompt : Prompt s a)
    (hone : AtMostOne (step s a)) (hown : OwnOnly ⟨s, a, step s a⟩) : Fenced s a where
  acquire := by
    rintro t p e timestamp rfl hc r hr
    by_contra hbad
    rw [not_or, Int.not_lt] at hbad
    obtain ⟨hne, hlive⟩ := hbad
    have hold : s.told r.owner = some r.expiresAt := by
      rcases h.known r hr with ht | ⟨t', p', hd⟩
      · exact ht
      · have hmine := (h.sessions t').lock (by rw [hd]; rfl)
        rw [(h.sessions t).lock (by rw [hc]; rfl)] at hmine
        cases Option.some.inj hmine
        rw [hc] at hd
        cases hd
    have hother : (step s (.advance t)).told r.owner = some r.expiresAt := by
      simp only [step, State.advance, hc, setSession_told]
      rw [tell_ne _ _ hne]
      exact hold
    have hnew : (step s (.advance t)).told p = some (timestamp + e) := by
      simp only [step, State.advance, hc, setSession_told]
      exact tell_self _ _ _
    have hnow : (step s (.advance t)).now = s.now := advance_now s t
    refine hne (hone r.owner p ⟨_, hother, ?_⟩ ⟨_, hnew, ?_⟩)
    · rw [hnow]
      exact hlive
    · rw [hnow]
      exact hprompt t p e timestamp none rfl hc
  release := by
    rintro t p rfl hc r hr
    by_cases hne : r.owner = p
    · rw [hne]
    · have hkept : (step s (.advance t)).row = some r := hown t p rfl (.inl ⟨true, hc⟩) r hr hne
      simp only [step, State.advance, hc, if_true, setSession_row] at hkept
      cases hkept

theorem single_flight_iff (now : Int) (acts : List (Act τ)) :
    ((∀ m ∈ Runs.moves step { now := now } acts, Fenced m.pre m.act) →
      ∀ m ∈ Runs.moves step { now := now } acts, AtMostOne m.post ∧ OwnOnly m) ∧
    ((∀ m ∈ Runs.moves step { now := now } acts, Prompt m.pre m.act) →
      (∀ m ∈ Runs.moves step { now := now } acts, AtMostOne m.post ∧ OwnOnly m) →
        ∀ m ∈ Runs.moves step { now := now } acts, Fenced m.pre m.act) := by
  constructor
  · intro hfenced m hm
    have hinv := Runs.moves_invariant_of (I := Inv) (fun _ _ h hf => inv_step h hf) (inv_init now) hfenced m hm
    rw [OwnOnly, Runs.post_of_mem hm]
    exact ⟨atMostOne_of_inv (inv_step hinv (hfenced m hm)), ownOnly_step hinv (hfenced m hm)⟩
  · intro hprompt hgood
    have hiff : (∀ m ∈ Runs.moves step { now := now } acts,
        (AtMostOne m.post ∧ OwnOnly m) ∧ Prompt m.pre m.act) ↔
          ∀ m ∈ Runs.moves step { now := now } acts, Fenced m.pre m.act ∧ Prompt m.pre m.act := by
      refine Runs.moves_forall_iff (I := Inv) (C := fun s a => Fenced s a ∧ Prompt s a) (fun s a h => ?_)
        (fun s a h hc => inv_step h hc.1) (inv_init now) acts
      constructor
      · rintro ⟨⟨hone, hown⟩, hp⟩
        exact ⟨fenced_of_good h hp hone hown, hp⟩
      · rintro ⟨hf, hp⟩
        exact ⟨⟨atMostOne_of_inv (inv_step h hf), ownOnly_step h hf⟩, hp⟩
    intro m hm
    exact (hiff.mp (fun m hm => ⟨hgood m hm, hprompt m hm⟩) m hm).1

end

def bothFindNone : List (Act Nat) :=
  [.start 0 ⟨"notebook", 100⟩ (.acquire 90000000), .start 1 ⟨"vps", 200⟩ (.acquire 90000000),
    .advance 0, .advance 1, .advance 0, .advance 0, .advance 1, .advance 1]

theorem two_hosts_hold :
    ¬ ∀ m ∈ Runs.moves step { now := 0 } bothFindNone, AtMostOne m.post ∧ OwnOnly m := by
  intro h
  have hrun : ∃ m ∈ Runs.moves step { now := 0 } bothFindNone,
      m.post.now = 0 ∧ m.post.told ⟨"notebook", 100⟩ = some 90000000 ∧
        m.post.told ⟨"vps", 200⟩ = some 90000000 := by
    decide +kernel
  obtain ⟨m, hm, hnow, hone, htwo⟩ := hrun
  have heq := (h m hm).1 ⟨"notebook", 100⟩ ⟨"vps", 200⟩ ⟨_, hone, by rw [hnow]; decide⟩
    ⟨_, htwo, by rw [hnow]; decide⟩
  exact absurd heq (by decide)

end Inflight
end Harness
end DarkFactory
