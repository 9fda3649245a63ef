import DarkFactory.Harness.HandOff

/-!
# DarkFactory.Harness.HandOffRuns

The waiter of `Harness.HandOff` over every interleaving with the holder and its heartbeat.

* `DbInv` — the claim is the holder's until its release, and nobody's afterwards.
* `Inv` — the waiter has not decided to run the steps, and every stored record is the holder's.
* `hand_off` — under `Covered` the waiter never runs the steps and ends with the record of the holder.
-/

namespace DarkFactory
namespace Harness
namespace HandOff

open Inflight (Process Claim Session SessionOk)

def Good (db : Inflight.State Line) (timestamp : Int) : Prop :=
  ∃ r, db.row = some r ∧ timestamp ≤ r.expiresAt

/-- A `SELECT ... FOR UPDATE` of `t` that does not wait for a lock finds such a claim. -/
def Finds (db : Inflight.State Line) (t : Line) (timestamp : Int) : Prop :=
  db.row = none ∨ db.isFree t = true → Good db timestamp

/-- An `acquire_inflight` that has found a good claim or has not looked yet. -/
def Declines (s : Session) : Prop :=
  match s with
  | .absent | .selecting _ _ _ | .refusing _ => True
  | .checking _ _ timestamp row => timestamp ≤ row.expiresAt
  | .returned answer => answer = false
  | _ => False

/-- A `refresh_inflight` of the process. -/
def Refreshes (p : Process) (s : Session) : Prop :=
  match s with
  | .absent | .returned _ => True
  | .updating q _ _ | .updated q _ _ _ => q = p
  | _ => False

/-- A `release_inflight` of the process. -/
def Releases (p : Process) (s : Session) : Prop :=
  match s with
  | .absent | .returned _ => True
  | .deleting q | .deleted q _ => q = p
  | _ => False

def Fits (c : Parties) (t : Line) (s : Session) : Prop :=
  match t with
  | .heartbeat _ => Refreshes c.holder s
  | .release => Releases c.holder s
  | .claim _ => Declines s

structure DbInv (c : Parties) (db : Inflight.State Line) : Prop where
  sessions : ∀ t, SessionOk db t
  fits : ∀ t, Fits c t (db.sessions t)
  owner : ∀ r, db.row = some r → r.owner = c.holder
  /-- After the release there is no row. -/
  gone : ((∃ b, db.sessions .release = .returned b) ∨ ∃ p, db.sessions .release = .deleted p false) → db.row = none

variable {c : Parties} {db : Inflight.State Line} {s : System}

theorem dbInv_tick (d : Nat) (h : DbInv c db) : DbInv c (Inflight.step db (.tick d)) :=
  ⟨Inflight.sessionOk_step (.tick d) h.sessions, h.fits, h.owner, h.gone⟩

theorem dbInv_start {t : Line} {p : Process}
    {call : Inflight.Call} (hfits : ∀ now, Fits c t ((({ now := now } : Inflight.State Line).start t p call).sessions t))
    (h : DbInv c db) : DbInv c (Inflight.step db (.start t p call)) := by
  have hsessions := Inflight.sessionOk_step (.start t p call) h.sessions
  simp only [Inflight.step] at hsessions ⊢
  split
  · rename_i habsent
    rw [habsent] at hsessions
    have hself : Fits c t ((db.start t p call).sessions t) := by
      have hnow := hfits db.now
      cases call <;>
        simpa only [Inflight.State.start, Inflight.setSession_self] using hnow
    have hother : ∀ t', t' ≠ t → (db.start t p call).sessions t' = db.sessions t' := by
      intro t' ht
      cases call <;> exact Inflight.setSession_ne _ _ ht
    have hrow : (db.start t p call).row = db.row := by
      cases call <;> rfl
    refine ⟨hsessions, fun t' => ?_, fun r hr => h.owner r (hrow ▸ hr), fun hgone => ?_⟩
    · by_cases ht : t' = t
      · rw [ht]
        exact hself
      · rw [hother t' ht]
        exact h.fits t'
    · rw [hrow]
      by_cases ht : Line.release = t
      · subst ht
        exfalso
        cases call <;> simp [Inflight.State.start, Inflight.setSession_self] at hgone
      · rw [hother .release ht] at hgone
        exact h.gone hgone
  · exact h

theorem fits_advance (t : Line)
    (hgood : ∀ p e timestamp, db.sessions t = .selecting p e timestamp → Finds db t timestamp)
    (h : DbInv c db) (t' : Line) : Fits c t' ((db.advance t).sessions t') := by
  by_cases ht : t' = t
  · subst ht
    have hfits := h.fits t'
    have hadvance := Inflight.advances db t'
    generalize db.advance t' = db' at hadvance ⊢
    cases hadvance with
    | stays => exact hfits
    | selectsNone p e timestamp hc hrow =>
      obtain ⟨r, hr, -⟩ := hgood p e timestamp hc (.inl hrow)
      rw [hrow] at hr
      cases hr
    | selects p e timestamp row hc hrow hfree =>
      obtain ⟨r, hr, hlive⟩ := hgood p e timestamp hc (.inr hfree)
      rw [hrow] at hr
      cases hr
      rw [hc] at hfits
      rw [Inflight.setSession_self]
      cases t' with
      | heartbeat n => exact hfits
      | release => exact hfits
      | claim second => exact hlive
    | passes p e timestamp row hc hexpired =>
      rw [hc] at hfits
      cases t' with
      | heartbeat n => exact False.elim hfits
      | release => exact False.elim hfits
      | claim second => exact absurd hexpired (Int.not_lt.mpr hfits)
    | fails p e timestamp row hc =>
      rw [hc] at hfits
      rw [Inflight.setSession_self]
      cases t' with
      | heartbeat n => exact hfits
      | release => exact hfits
      | claim second => trivial
    | refuses p hc =>
      rw [Inflight.setSession_self]
      cases t' with
      | heartbeat n => trivial
      | release => trivial
      | claim second => rfl
    | upserts p e timestamp row hc hfree =>
      rw [hc] at hfits
      cases t' <;> exact False.elim hfits
    | acquires p e timestamp row hc =>
      rw [hc] at hfits
      cases t' <;> exact False.elim hfits
    | deletes p row hc hrow hpid hfree =>
      rw [hc] at hfits
      rw [Inflight.setSession_self]
      cases t' <;> exact hfits
    | deletesNone p hc hmiss =>
      rw [hc] at hfits
      rw [Inflight.setSession_self]
      cases t' <;> exact hfits
    | releases p hc =>
      rw [hc] at hfits
      rw [Inflight.setSession_self]
      cases t' with
      | heartbeat n => trivial
      | release => trivial
      | claim second => exact False.elim hfits
    | releasesNone p hc =>
      rw [hc] at hfits
      rw [Inflight.setSession_self]
      cases t' with
      | heartbeat n => trivial
      | release => trivial
      | claim second => exact False.elim hfits
    | updates p e timestamp row hc hrow howner hfree =>
      rw [hc] at hfits
      rw [Inflight.setSession_self]
      cases t' <;> exact hfits
    | updatesNone p e timestamp hc =>
      rw [hc] at hfits
      rw [Inflight.setSession_self]
      cases t' <;> exact hfits
    | refreshes p e timestamp hc =>
      rw [hc] at hfits
      rw [Inflight.setSession_self]
      cases t' with
      | heartbeat n => trivial
      | release => trivial
      | claim second => exact False.elim hfits
    | refreshesNone p e timestamp hc =>
      rw [hc] at hfits
      rw [Inflight.setSession_self]
      cases t' with
      | heartbeat n => trivial
      | release => trivial
      | claim second => exact False.elim hfits
  · rw [(Inflight.advance_frame ht (h.sessions t)).2.1]
    exact h.fits t'

theorem owner_advance (t : Line) (h : DbInv c db) (r : Claim)
    (hr : (db.advance t).row = some r) : r.owner = c.holder := by
  have hfits := h.fits t
  rcases Inflight.row_of_advance (s := db) (t := t) with hkeep | ⟨p, e, timestamp, row, hc, hnew⟩ |
    ⟨p, hc, hnew⟩ | ⟨p, e, timestamp, hc, hnew⟩
  · exact h.owner r (hkeep ▸ hr)
  · rw [hc] at hfits
    cases t <;> exact False.elim hfits
  · rw [hnew] at hr
    cases hr
  · rw [hnew] at hr
    cases hr
    rw [hc] at hfits
    cases t with
    | heartbeat n => exact hfits
    | release => exact False.elim hfits
    | claim second => exact False.elim hfits

theorem none_advance (t : Line) (h : DbInv c db) (hnone : db.row = none) : (db.advance t).row = none := by
  have hfits := h.fits t
  have hknows := (h.sessions t).knows
  rcases Inflight.row_of_advance (s := db) (t := t) with hkeep | ⟨p, e, timestamp, row, hc, hnew⟩ |
    ⟨p, hc, hnew⟩ | ⟨p, e, timestamp, hc, hnew⟩
  · exact hkeep.trans hnone
  · rw [hc] at hfits
    cases t <;> exact False.elim hfits
  · exact hnew
  · rw [hc] at hknows
    obtain ⟨r, hr, -⟩ := hknows
    rw [hnone] at hr
    cases hr

theorem gone_advance (t : Line) (h : DbInv c db) (hgone : (∃ b, (db.advance t).sessions .release = .returned b) ∨
      ∃ p, (db.advance t).sessions .release = .deleted p false) : (db.advance t).row = none := by
  by_cases ht : Line.release = t
  · subst ht
    have hfits := h.fits .release
    have hnone := fun hnone => none_advance Line.release h hnone
    have hadvance := Inflight.advances db .release
    generalize db.advance .release = db' at hadvance hgone hnone ⊢
    cases hadvance with
    | stays => exact h.gone hgone
    | deletes p row hc hrow hpid hfree =>
      rw [Inflight.setSession_self] at hgone
      rcases hgone with ⟨b, hb⟩ | ⟨q, hq⟩
      · cases hb
      · cases hq
    | deletesNone p hc hmiss =>
      -- a row would be the holder's, and match
      rw [hc] at hfits
      cases hrow : db.row with
      | none => exact hnone hrow
      | some r => exact absurd (congrArg Process.pid ((h.owner r hrow).trans hfits.symm)) (hmiss r hrow)
    | releases p hc => rfl
    | releasesNone p hc => exact hnone (h.gone (.inr ⟨p, hc⟩))
    | selectsNone p e timestamp hc hrow =>
      rw [hc] at hfits
      exact False.elim hfits
    | selects p e timestamp row hc hrow hfree =>
      rw [hc] at hfits
      exact False.elim hfits
    | passes p e timestamp row hc hexpired =>
      rw [hc] at hfits
      exact False.elim hfits
    | fails p e timestamp row hc =>
      rw [hc] at hfits
      exact False.elim hfits
    | refuses p hc =>
      rw [hc] at hfits
      exact False.elim hfits
    | upserts p e timestamp row hc hfree =>
      rw [hc] at hfits
      exact False.elim hfits
    | acquires p e timestamp row hc =>
      rw [hc] at hfits
      exact False.elim hfits
    | updates p e timestamp row hc hrow howner hfree =>
      rw [hc] at hfits
      exact False.elim hfits
    | updatesNone p e timestamp hc =>
      rw [hc] at hfits
      exact False.elim hfits
    | refreshes p e timestamp hc =>
      rw [hc] at hfits
      exact False.elim hfits
    | refreshesNone p e timestamp hc =>
      rw [hc] at hfits
      exact False.elim hfits
  · rw [(Inflight.advance_frame ht (h.sessions t)).2.1] at hgone
    exact none_advance t h (h.gone hgone)

theorem dbInv_advance (t : Line)
    (hgood : ∀ p e timestamp, db.sessions t = .selecting p e timestamp → Finds db t timestamp)
    (h : DbInv c db) : DbInv c (Inflight.step db (.advance t)) :=
  ⟨Inflight.sessionOk_step (.advance t) h.sessions, fits_advance t hgood h, owner_advance t h, gone_advance t h⟩

/-- Whenever the waiter relies on the claim alone, the claim of the holder is good. -/
structure Covered (s : System) (a : Act) : Prop where
  /-- `acquire_inflight`, after a poll without a claim and a re-check without a verdict. -/
  claims : a = .waiter → s.waiter = .claiming false → ∀ p e timestamp,
    s.db.sessions (.claim false) = .selecting p e timestamp → Finds s.db (.claim false) timestamp
  /-- The claim check of the second poll, which no re-check follows. -/
  polls : a = .waiter → ∀ timestamp, s.waiter = .readingClaim true timestamp → Good s.db timestamp

def HolderPc.hasReleased (h : HolderPc) : Bool :=
  match h with
  | .storingLocal | .storingRemote | .returned => true
  | .executing | .stopping | .releasing => false

def WaiterOk (c : Parties) (db : Inflight.State Line) (w : WaiterPc) : Prop :=
  match w with
  | .executing | .claiming true => False
  | .claiming false => db.sessions (.claim false) ≠ .absent
  | .reusing r | .emitted r => r = c.record
  | _ => True

structure Inv (c : Parties) (s : System) : Prop where
  db : DbInv c s.db
  remote : ∀ r, s.remote = some r → r = c.record
  waiterLocal : ∀ r, s.waiterLocal = some r → r = c.record
  stored : s.holder = .returned → s.remote = some c.record
  released : s.holder.hasReleased = true → s.db.row = none
  waiter : WaiterOk c s.db s.waiter

theorem advance_ne_absent {t t' : Line} (hok : ∀ t, SessionOk db t)
    (h : db.sessions t' ≠ .absent) : (db.advance t).sessions t' ≠ .absent := by
  by_cases ht : t' = t
  · subst ht
    have hadvance := Inflight.advances db t'
    generalize db.advance t' = db' at hadvance ⊢
    cases hadvance with
    | stays => exact h
    | _ =>
      rw [Inflight.setSession_self]
      simp
  · rw [(Inflight.advance_frame ht (hok t)).2.1]
    exact h

theorem start_ne_absent {t t' : Line} (p : Process) (call : Inflight.Call)
    (h : db.sessions t' ≠ .absent ∨ t' = t) : (Inflight.step db (.start t p call)).sessions t' ≠ .absent := by
  simp only [Inflight.step]
  split
  · rename_i habsent
    by_cases ht : t' = t
    · subst ht
      cases call <;> simp [Inflight.State.start, Inflight.setSession_self]
    · have hother : (db.start t p call).sessions t' = db.sessions t' := by
        cases call <;> exact Inflight.setSession_ne _ _ ht
      rw [hother]
      exact h.resolve_right ht
  · rename_i hne
    rcases h with h | rfl
    · exact h
    · exact hne

theorem start_row (db : Inflight.State Line) (t : Line) (p : Process) (call : Inflight.Call) :
    (Inflight.step db (.start t p call)).row = db.row := by
  simp only [Inflight.step]
  split
  · cases call <;> rfl
  · rfl

theorem WaiterOk.of_db {db' : Inflight.State Line} {w : WaiterPc}
    (hdb : db.sessions (.claim false) ≠ .absent → db'.sessions (.claim false) ≠ .absent)
    (h : WaiterOk c db w) : WaiterOk c db' w := by
  cases w with
  | claiming second =>
    cases second with
    | true => exact h
    | false => exact hdb h
  | _ => exact h

theorem inv_start (t : Line) (p : Process) (call : Inflight.Call)
    (hfits : ∀ now, Fits c t ((({ now := now } : Inflight.State Line).start t p call).sessions t))
    (h : Inv c s) : Inv c (s.transact (.start t p call)) where
  db := dbInv_start hfits h.db
  remote := h.remote
  waiterLocal := h.waiterLocal
  stored := h.stored
  released hr := (start_row s.db t p call).trans (h.released hr)
  waiter := h.waiter.of_db fun hne => start_ne_absent p call (.inl hne)

theorem inv_advance (t : Line)
    (hgood : ∀ p e timestamp, s.db.sessions t = .selecting p e timestamp → Finds s.db t timestamp)
    (h : Inv c s) : Inv c (s.transact (.advance t)) where
  db := dbInv_advance t hgood h.db
  remote := h.remote
  waiterLocal := h.waiterLocal
  stored := h.stored
  released hr := none_advance t h.db (h.released hr)
  waiter := h.waiter.of_db fun hne => advance_ne_absent h.db.sessions hne

theorem selecting_of_other {t : Line} (h : Inv c s)
    (ht : ∀ second, t ≠ .claim second) (p : Process) (e timestamp : Int)
    (hc : s.db.sessions t = .selecting p e timestamp) : Finds s.db t timestamp := by
  have hfits := h.db.fits t
  rw [hc] at hfits
  cases t with
  | heartbeat n => exact False.elim hfits
  | release => exact False.elim hfits
  | claim second => exact absurd rfl (ht second)

theorem inv_holder (h : Inv c s) : Inv c (s.holderStep c) := by
  unfold System.holderStep
  cases hpc : s.holder with
  | executing => exact ⟨h.db, h.remote, h.waiterLocal, nofun, nofun, h.waiter⟩
  | stopping =>
    have hstart := inv_start .release c.holder .release
      (fun now => by simp only [Inflight.State.start, Inflight.setSession_self]; rfl) h
    exact ⟨hstart.db, hstart.remote, hstart.waiterLocal, nofun, nofun, hstart.waiter⟩
  | releasing =>
    simp only
    split
    · rename_i b hb
      exact ⟨h.db, h.remote, h.waiterLocal, nofun, fun _ => h.db.gone (.inl ⟨b, hb⟩), h.waiter⟩
    · exact inv_advance .release (selecting_of_other h (by simp)) h
  | storingLocal =>
    exact ⟨h.db, h.remote, h.waiterLocal, nofun, fun _ => h.released (by rw [hpc]; rfl), h.waiter⟩
  | storingRemote =>
    have hstored : setRemoteVerdict s.remote c.record = c.record := by
      cases hr : s.remote with
      | none => rfl
      | some r =>
        rw [h.remote r hr]
        rfl
    simp only [hstored]
    exact ⟨h.db, fun r hr => (Option.some.inj hr).symm, h.waiterLocal, fun _ => rfl,
      fun _ => h.released (by rw [hpc]; rfl), h.waiter⟩
  | returned => exact h

theorem inv_heartbeat (h : Inv c s) : Inv c (s.heartbeatStep c) := by
  unfold System.heartbeatStep
  cases hpc : s.heartbeat with
  | waiting n =>
    simp only
    split
    · exact ⟨h.db, h.remote, h.waiterLocal, h.stored, h.released, h.waiter⟩
    · have hstart := inv_start (.heartbeat n) c.holder (.refresh c.holderLease)
        (fun now => by simp only [Inflight.State.start, Inflight.setSession_self]; rfl) h
      exact ⟨hstart.db, hstart.remote, hstart.waiterLocal, hstart.stored, hstart.released, hstart.waiter⟩
  | refreshing n =>
    simp only
    split
    · exact ⟨h.db, h.remote, h.waiterLocal, h.stored, h.released, h.waiter⟩
    · exact inv_advance (.heartbeat n) (selecting_of_other h (by simp)) h
  | ended => exact h

theorem inv_waiter (hc : Covered s .waiter) (h : Inv c s) : Inv c (s.waiterStep c) := by
  have hto : ∀ w, WaiterOk c s.db w → Inv c { s with waiter := w } := fun w hw =>
    ⟨h.db, h.remote, h.waiterLocal, h.stored, h.released, hw⟩
  have hwaiter := h.waiter
  unfold System.waiterStep
  cases hpc : s.waiter with
  | pollingVerdict second =>
    simp only
    split
    · rename_i r hr
      exact hto _ (h.remote r hr)
    · exact hto _ trivial
  | pollingClaim second => exact hto _ trivial
  | readingClaim second timestamp =>
    have hleave : (second = true → ¬ Good s.db timestamp) → Inv c (s.afterPoll c second) := by
      intro hbad
      cases second with
      | true => exact absurd (hc.polls rfl timestamp hpc) (hbad rfl)
      | false => exact hto _ trivial
    simp only
    split
    · rename_i hrow
      refine hleave fun _ hgood => ?_
      obtain ⟨r, hr, -⟩ := hgood
      rw [hrow] at hr
      cases hr
    · rename_i row hrow
      split
      · rename_i hexpired
        refine hleave fun _ hgood => ?_
        obtain ⟨r, hr, hlive⟩ := hgood
        rw [hrow] at hr
        cases hr
        exact Int.not_lt.mpr hlive hexpired
      · exact hto _ trivial
  | sleeping second => exact hto _ trivial
  | locking => exact hto _ trivial
  | checkingLocal =>
    simp only
    split
    · rename_i r hr
      exact hto _ (h.waiterLocal r hr)
    · exact hto _ trivial
  | checkingRemote =>
    simp only
    split
    · rename_i r hr
      exact hto _ (h.remote r hr)
    · have hstart := inv_start (.claim false) c.waiter (.acquire c.waiterLease)
        (fun now => by simp only [Inflight.State.start, Inflight.setSession_self]; trivial) h
      exact ⟨hstart.db, hstart.remote, hstart.waiterLocal, hstart.stored, hstart.released,
        start_ne_absent _ _ (.inr rfl)⟩
  | claiming second =>
    rw [hpc] at hwaiter
    cases second with
    | true => exact False.elim hwaiter
    | false =>
      simp only
      split
      · rename_i owned howned
        have hdeclines := h.db.fits (.claim false)
        rw [howned] at hdeclines
        have hno : owned = false := hdeclines
        subst hno
        exact hto _ trivial
      · exact inv_advance (.claim false) (hc.claims rfl hpc) h
  | reusing r =>
    rw [hpc] at hwaiter
    exact ⟨h.db, h.remote, fun r' hr' => (Option.some.inj hr').symm.trans hwaiter, h.stored, h.released, hwaiter⟩
  | emitted r => exact h
  | executing => exact h

theorem inv_step {a : Act} (hc : Covered s a) (h : Inv c s) : Inv c (step c s a) := by
  cases a with
  | holder => exact inv_holder h
  | heartbeat => exact inv_heartbeat h
  | waiter => exact inv_waiter hc h
  | tick d => exact ⟨dbInv_tick d h.db, h.remote, h.waiterLocal, h.stored, h.released, h.waiter⟩

/-- How many steps the waiter has left once the holder has returned. -/
def remaining (s : System) : Nat :=
  match s.waiter with
  | .emitted _ => 0
  | .reusing _ => 1
  | .pollingVerdict _ | .checkingRemote => 2
  | .sleeping _ | .checkingLocal => 3
  | .locking => 4
  | .readingClaim _ _ => 5
  | .pollingClaim _ => 6
  | .claiming _ =>
    match s.db.sessions (.claim false) with
    | .refusing _ => 4
    | .checking _ _ _ _ => 5
    | .selecting _ _ _ => 6
    | _ => 3
  | .executing => 0

theorem remaining_le (s : System) : remaining s ≤ 6 := by
  unfold remaining
  split <;> try omega
  split <;> omega

theorem emitted_of_remaining (h : Inv c s) (hr : remaining s = 0) : s.waiter = .emitted c.record := by
  have hw := h.waiter
  cases hpc : s.waiter with
  | emitted r =>
    rw [hpc] at hw
    rw [hw]
  | executing =>
    rw [hpc] at hw
    exact False.elim hw
  | claiming second =>
    simp only [remaining, hpc] at hr
    split at hr <;> omega
  | _ =>
    simp only [remaining, hpc] at hr
    omega

theorem remaining_other {a : Act} (h : Inv c s) (ha : a ≠ .waiter) : remaining (step c s a) = remaining s := by
  have hsame : ∀ s' : System, s'.waiter = s.waiter →
      s'.db.sessions (.claim false) = s.db.sessions (.claim false) → remaining s' = remaining s := by
    intro s' hw hs
    unfold remaining
    rw [hw, hs]
  have hstart : ∀ t p call, t ≠ .claim false →
      (Inflight.step s.db (.start t p call)).sessions (.claim false) = s.db.sessions (.claim false) := by
    intro t p call ht
    simp only [Inflight.step]
    split
    · cases call <;> exact Inflight.setSession_ne _ _ ht.symm
    · rfl
  have hadvance : ∀ t, t ≠ .claim false → (s.db.advance t).sessions (.claim false) = s.db.sessions (.claim false) :=
    fun t ht => (Inflight.advance_frame ht.symm (h.db.sessions t)).2.1
  cases a with
  | holder =>
    simp only [step, System.holderStep]
    split
    · exact hsame _ rfl rfl
    · exact hsame _ rfl (hstart _ _ _ (by simp))
    · split
      · exact hsame _ rfl rfl
      · exact hsame _ rfl (hadvance _ (by simp))
    · exact hsame _ rfl rfl
    · exact hsame _ rfl rfl
    · rfl
  | heartbeat =>
    simp only [step, System.heartbeatStep]
    split
    · split
      · exact hsame _ rfl rfl
      · exact hsame _ rfl (hstart _ _ _ (by simp))
    · split
      · exact hsame _ rfl rfl
      · exact hsame _ rfl (hadvance _ (by simp))
    · rfl
  | waiter => exact absurd rfl ha
  | tick d => exact hsame _ rfl rfl

theorem remaining_waiter (h : Inv c s) (hc : Covered s .waiter)
    (hreturned : s.holder = .returned) : remaining (step c s .waiter) ≤ remaining s - 1 := by
  have hstored := h.stored hreturned
  have hnone : s.db.row = none := h.released (by rw [hreturned]; rfl)
  have hbad : ∀ timestamp, ¬ Good s.db timestamp := by
    rintro timestamp ⟨r, hr, -⟩
    rw [hnone] at hr
    cases hr
  have hw := h.waiter
  simp only [step, System.waiterStep]
  cases hpc : s.waiter with
  | pollingVerdict second => simp [hstored, remaining, hpc]
  | pollingClaim second => simp [remaining, hpc]
  | readingClaim second timestamp =>
    cases second with
    | true => exact absurd (hc.polls rfl timestamp hpc) (hbad timestamp)
    | false => simp [hnone, System.afterPoll, remaining, hpc]
  | sleeping second => simp [remaining, hpc]
  | locking => simp [remaining, hpc]
  | checkingLocal =>
    cases hl : s.waiterLocal <;> simp [remaining, hpc]
  | checkingRemote => simp [hstored, remaining, hpc]
  | claiming second =>
    rw [hpc] at hw
    cases second with
    | true => exact False.elim hw
    | false =>
      have hdeclines := h.db.fits (.claim false)
      cases hs : s.db.sessions (.claim false) with
      | absent => exact absurd hs hw
      | selecting p e timestamp => exact absurd (hc.claims rfl hpc p e timestamp hs (.inl hnone)) (hbad timestamp)
      | checking p e timestamp row =>
        have hknows := (h.db.sessions (.claim false)).knows
        rw [hs] at hknows
        rw [hnone] at hknows
        cases hknows.1
      | refusing p =>
        simp [System.transact, Inflight.step, Inflight.State.advance, hs, remaining, hpc, Inflight.setSession_self]
      | returned owned =>
        rw [hs] at hdeclines
        have hno : owned = false := hdeclines
        simp [hno, remaining, hpc, hs]
      | upserting p e timestamp row =>
        rw [hs] at hdeclines
        exact False.elim hdeclines
      | upserted p e timestamp row =>
        rw [hs] at hdeclines
        exact False.elim hdeclines
      | deleting p =>
        rw [hs] at hdeclines
        exact False.elim hdeclines
      | deleted p matched =>
        rw [hs] at hdeclines
        exact False.elim hdeclines
      | updating p e timestamp =>
        rw [hs] at hdeclines
        exact False.elim hdeclines
      | updated p e timestamp matched =>
        rw [hs] at hdeclines
        exact False.elim hdeclines
  | reusing r => simp [remaining, hpc]
  | emitted r => simp [remaining, hpc]
  | executing =>
    rw [hpc] at hw
    exact False.elim hw

theorem returned_step (a : Act) (h : s.holder = .returned) : (step c s a).holder = .returned := by
  cases a with
  | holder =>
    simp only [step, System.holderStep, h]
  | heartbeat =>
    simp only [step, System.heartbeatStep]
    split
    · split <;> exact h
    · split <;> exact h
    · exact h
  | waiter =>
    simp only [step, System.waiterStep]
    split
    · split <;> exact h
    · exact h
    · have hafter : ∀ second, (s.afterPoll c second).holder = .returned := by
        intro second
        unfold System.afterPoll
        split <;> exact h
      split
      · exact hafter _
      · split
        · exact hafter _
        · exact h
    · exact h
    · exact h
    · split <;> exact h
    · split <;> exact h
    · split <;> exact h
    · exact h
    · exact h
    · exact h
  | tick d => exact h

theorem remaining_run {acts : List Act} (h : Inv c s)
    (hc : ∀ m ∈ Runs.moves (step c) s acts, Covered m.pre m.act) (hreturned : s.holder = .returned) :
    remaining (Runs.run (step c) s acts) ≤ remaining s - acts.count .waiter := by
  induction acts generalizing s with
  | nil => simp
  | cons a acts ih =>
    rw [Runs.moves, List.forall_mem_cons] at hc
    have hrest : remaining (Runs.run (step c) (step c s a) acts) ≤ remaining (step c s a) - acts.count .waiter :=
      ih (inv_step hc.1 h) hc.2 (returned_step a hreturned)
    rw [Runs.run_cons, List.count_cons]
    by_cases ha : a = .waiter
    · subst ha
      have hnext := remaining_waiter h hc.1 hreturned
      simp only [beq_self_eq_true, if_true]
      omega
    · have hnext := remaining_other h ha
      rw [beq_eq_false_iff_ne.mpr ha]
      simp only [Bool.false_eq_true, if_false]
      omega

theorem inv_begin (c : Parties) (now expiresAt : Int) : Inv c (System.begin c now expiresAt) where
  db := by
    refine ⟨fun t => ⟨fun hl => (by cases hl), trivial, trivial⟩, fun t => ?_, fun r hr => ?_, ?_⟩
    · cases t <;> trivial
    · cases hr
      rfl
    · rintro (⟨b, hb⟩ | ⟨p, hp⟩)
      · cases hb
      · cases hp
  remote r hr := by cases hr
  waiterLocal r hr := by cases hr
  stored h := by cases h
  released h := by cases h
  waiter := trivial

theorem hand_off (c : Parties) (now expiresAt : Int) (acts : List Act)
    (hc : ∀ m ∈ Runs.moves (step c) (System.begin c now expiresAt) acts, Covered m.pre m.act) :
    HandsOff c (System.begin c now expiresAt) acts := by
  have hpost : ∀ m ∈ Runs.moves (step c) (System.begin c now expiresAt) acts, Inv c m.post := by
    intro m hm
    rw [Runs.post_of_mem hm]
    exact inv_step (hc m hm) (Runs.moves_invariant_of (fun _ _ h hc => inv_step hc h)
      (inv_begin c now expiresAt) hc m hm)
  refine ⟨fun m hm hex => ?_, fun m hm record hem => ?_, ?_⟩
  · have hw := (hpost m hm).waiter
    rw [hex] at hw
    exact hw
  · have hw := (hpost m hm).waiter
    rw [hem] at hw
    exact hw
  · rintro before after rfl hreturned hcount
    rw [Runs.moves_append, List.forall_mem_append] at hc
    have hinv : Inv c (Runs.run (step c) (System.begin c now expiresAt) before) :=
      Runs.run_invariant_of (fun _ _ h hc => inv_step hc h) (inv_begin c now expiresAt) hc.1
    have hend := Runs.run_invariant_of (I := Inv c) (fun _ _ h hc => inv_step hc h) hinv hc.2
    have hleft := remaining_run hinv hc.2 hreturned
    have hmost := remaining_le (Runs.run (step c) (System.begin c now expiresAt) before)
    rw [Runs.run_append]
    exact emitted_of_remaining hend (by omega)

def sample : Parties where
  holder := ⟨"vps", 100⟩
  holderLease := 90000000
  waiter := ⟨"notebook", 200⟩
  waiterLease := 90000000
  record :=
    { treeSha := "4b825dc"
      candidateSha := "0123456789abcdef"
      configHash := "c0ffee"
      osFamily := "posix"
      pyVersion := "3.12"
      host := "vps"
      result :=
        { candidateSha := "0123456789abcdef"
          configHash := "c0ffee"
          requiredSteps := ["unit"]
          startedSteps := ["unit"]
          passedSteps := ["unit"]
          failedSteps := []
          discoveredCount := 1
          passedCount := 1
          skippedCount := 0
          exitCodes := [("unit", 0)] } }

/-- The step that `Covered` is about. -/
def reliesOnClaim (s : System) : Bool :=
  match s.waiter with
  | .claiming false | .readingClaim true _ => true
  | _ => false

theorem covered_of_not_relies (a : Act) (h : reliesOnClaim s = false) : Covered s a where
  claims _ hw := by
    rw [reliesOnClaim, hw] at h
    cases h
  polls _ timestamp hw := by
    rw [reliesOnClaim, hw] at h
    cases h

/-- The waiter sees the claim, which is refreshed once, and then the verdict. -/
def storedInTime : List Act :=
  List.replicate 3 .waiter ++ .tick 30000000 :: List.replicate 4 .heartbeat ++ List.replicate 7 .holder ++
    List.replicate 6 .waiter

theorem hand_off_in_time : HandsOff sample (System.begin sample 0 90000000) storedInTime := by
  refine hand_off sample 0 90000000 storedInTime fun m hm => covered_of_not_relies m.act ?_
  have hnone : ∀ m ∈ Runs.moves (step sample) (System.begin sample 0 90000000) storedInTime,
      reliesOnClaim m.pre = false := by
    decide +kernel
  exact hnone m hm

/-- The waiter sees the claim; the holder passes and releases it; the waiter looks again before the holder
has stored the verdict. -/
def releasedBeforeStored : List Act :=
  List.replicate 3 .waiter ++ List.replicate 4 .holder ++ List.replicate 11 .waiter

theorem waiter_executes : ¬ HandsOff sample (System.begin sample 0 90000000) releasedBeforeStored := by
  intro h
  have hrun : ∃ m ∈ Runs.moves (step sample) (System.begin sample 0 90000000) releasedBeforeStored,
      m.post.waiter = .executing := by
    decide +kernel
  obtain ⟨m, hm, hex⟩ := hrun
  exact h.neverExecutes m hm hex

end HandOff
end Harness
end DarkFactory
