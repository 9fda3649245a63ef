import Mathlib.Data.Fintype.Basic
import DarkFactory.Usage.Reservation

/-!
# DarkFactory.Usage.Outstanding

No reservation is lost as long as every save writes what it would write on the file as it is.

* `none_lost` — under it no interleaving loses a reservation.
-/

namespace DarkFactory
namespace Usage

def Pc.id : Pc → String
  | .reserve _ id _ => id
  | .reserveLoad _ res => res.reservationId
  | .reserveSave _ res _ => res.reservationId
  | .releaseLoad id => id
  | .releaseNow id _ => id
  | .releaseSave id _ _ => id

def Pc.reserves : Pc → Bool
  | .reserve _ _ _ => true
  | .reserveLoad _ _ => true
  | .reserveSave _ _ _ => true
  | .releaseLoad _ => false
  | .releaseNow _ _ => false
  | .releaseSave _ _ _ => false

def Pc.now : Pc → Option Instant
  | .reserve _ _ _ => none
  | .reserveLoad now _ => some now
  | .reserveSave now _ _ => some now
  | .releaseLoad _ => none
  | .releaseNow _ _ => none
  | .releaseSave _ now _ => some now

section

variable {ι : Type}

/-- What the callers rely on. A `now` up to the clock is one that the reader has read before it loads
the file. -/
structure NoneLost (lower : String → String) (S : System ι) : Prop where
  kept : ∀ r ∈ S.returned, r.reservationId ∉ S.gone → r.unexpired S.clock = true →
    ∀ provider now, clean lower provider = r.providerId → now ≤ S.clock → (counted lower provider now S.file).filter
        (fun q => decide (q.reservationId = r.reservationId)) = [r]
  dropped : ∀ id ∈ S.gone, ∀ provider now, ∀ r ∈ counted lower provider now S.file, r.reservationId ≠ id

def System.Unknown (S : System ι) (id : String) : Prop :=
  (∀ r ∈ loadData S.file, r.reservationId ≠ id) ∧ (∀ r ∈ S.returned, r.reservationId ≠ id) ∧ id ∉ S.gone

instance (S : System ι) (id : String) : Decidable (S.Unknown id) :=
  inferInstanceAs (Decidable (_ ∧ _ ∧ _))

/-- A new reservation has an id that nobody has seen, and nobody releases it before it is returned. -/
def Uuid (S : System ι) : Event ι → Prop
  | .reserve _ _ id _ => S.Unknown id ∧ ∀ j, ∀ pc ∈ S.pcs j, pc.id ≠ id
  | .release _ id => ∀ j, ∀ pc ∈ S.pcs j, pc.reserves = true → pc.id ≠ id
  | _ => True

instance [Fintype ι] (S : System ι) (e : Event ι) : Decidable (Uuid S e) :=
  match e with
  | .reserve _ _ id _ => inferInstanceAs (Decidable (S.Unknown id ∧ ∀ j, ∀ pc ∈ S.pcs j, pc.id ≠ id))
  | .release _ id =>
    inferInstanceAs (Decidable (∀ j, ∀ pc ∈ S.pcs j, pc.reserves = true → pc.id ≠ id))
  | .tick _ | .next _ | .die _ => .isTrue trivial

/-- The call, if it saves now, saves what it would save had it loaded the file only now. -/
def Pc.Current (file : ReservationsFile) : Pc → Prop
  | .reserveSave now res data => reserved res now data = reserved res now (loadData file)
  | .releaseSave id now data => (released id now data).2 = (released id now (loadData file)).2
  | _ => True

instance (file : ReservationsFile) (pc : Pc) : Decidable (pc.Current file) :=
  match pc with
  | .reserveSave _ _ _ => inferInstanceAs (Decidable (_ = _))
  | .releaseSave _ _ _ => inferInstanceAs (Decidable (_ = _))
  | .reserve _ _ _ | .reserveLoad _ _ | .releaseLoad _ | .releaseNow _ _ => .isTrue trivial

/-- No other call has replaced the file under a call that saves, as far as this matters to it. -/
def Current (S : System ι) : Event ι → Prop
  | .next i => ∀ pc ∈ S.pcs i, pc.Current S.file
  | _ => True

instance (S : System ι) (e : Event ι) : Decidable (Current S e) :=
  match e with
  | .next i => inferInstanceAs (Decidable (∀ pc ∈ S.pcs i, pc.Current S.file))
  | .tick _ | .reserve _ _ _ _ | .release _ _ | .die _ => .isTrue trivial

/-- No call is under way or has returned; the file holds whatever it holds. -/
structure Idle (S : System ι) : Prop where
  pcs : ∀ i, S.pcs i = none
  returned : S.returned = []
  gone : S.gone = []

end

section

variable {items : List QuotaReservation} {r : QuotaReservation} {now clock : Instant}

theorem unexpired_earlier (h : r.unexpired clock = true) (hle : now ≤ clock) : r.unexpired now = true := by
  unfold QuotaReservation.unexpired at *
  split at h
  · rename_i exp hexp
    rw [decide_eq_true_eq] at *
    exact lt_of_le_of_lt hle h
  · cases h

theorem prune_prune (hle : now ≤ clock) :
    pruneExpired (pruneExpired items now) clock = pruneExpired items clock := by
  unfold pruneExpired
  rw [List.filter_filter]
  refine List.filter_congr fun r _ => ?_
  cases h : r.unexpired clock with
  | true => rw [unexpired_earlier h hle, Bool.and_self]
  | false => rw [Bool.false_and]

theorem filter_alone {p q : QuotaReservation → Bool} (h : items.filter q = [r]) (hp : p r = true) :
    (items.filter p).filter q = [r] := by
  rw [List.filter_comm, h]
  simp [hp]

theorem mem_of_mem_prune (h : r ∈ pruneExpired items now) : r ∈ items := List.mem_of_mem_filter h

theorem prune_append (items' : List QuotaReservation) :
    pruneExpired (items ++ items') now = pruneExpired items now ++ pruneExpired items' now :=
  List.filter_append ..

theorem prune_filter (p : QuotaReservation → Bool) :
    pruneExpired (items.filter p) now = (pruneExpired items now).filter p :=
  List.filter_comm ..

end

def outstanding (before returned : List QuotaReservation) (gone : List String) : List QuotaReservation :=
  (before ++ returned).filter fun r => decide (r.reservationId ∉ gone)

section

variable {before returned : List QuotaReservation} {gone : List String}

theorem outstanding_reserve {res : QuotaReservation} (h : res.reservationId ∉ gone) :
    outstanding before (returned ++ [res]) gone = outstanding before returned gone ++ [res] := by
  unfold outstanding
  rw [← List.append_assoc, List.filter_append]
  simp [h]

theorem outstanding_release (id : String) :
    outstanding before returned (id :: gone) =
      (outstanding before returned gone).filter fun r => decide (r.reservationId ≠ id) := by
  unfold outstanding
  rw [List.filter_filter]
  refine List.filter_congr fun r _ => ?_
  simp only [List.mem_cons, not_or, Bool.decide_and]

end

structure Inv {ι : Type} (before : List QuotaReservation) (S : System ι) : Prop where
  once : ∀ r ∈ S.returned, r.reservationId ∉ S.gone → r.unexpired S.clock = true →
    (loadData S.file).filter (fun q => decide (q.reservationId = r.reservationId)) = [r]
  dropped : ∀ id ∈ S.gone, ∀ r ∈ loadData S.file, r.reservationId ≠ id
  fresh : ∀ i, ∀ pc ∈ S.pcs i, pc.reserves = true → S.Unknown pc.id ∧ ∀ j, ∀ pc' ∈ S.pcs j, pc'.id = pc.id → j = i
  timed : ∀ i, ∀ pc ∈ S.pcs i, ∀ now ∈ pc.now, now ≤ S.clock
  /-- The file holds the outstanding reservations, besides expired ones. -/
  ledger : pruneExpired (loadData S.file) S.clock = pruneExpired (outstanding before S.returned S.gone) S.clock

section

variable {ι : Type} [DecidableEq ι] {lower : String → String} {before : List QuotaReservation}
  {S : System ι}

omit [DecidableEq ι] in
theorem Idle.inv (h : Idle S) : Inv (loadData S.file) S where
  once r hr := by
    rw [h.returned] at hr
    cases hr
  dropped id hid := by
    rw [h.gone] at hid
    cases hid
  fresh i pc hpc := by
    rw [h.pcs i] at hpc
    cases hpc
  timed i pc hpc := by
    rw [h.pcs i] at hpc
    cases hpc
  ledger := by simp [outstanding, h.returned, h.gone]

theorem setPc_pcs {i j : ι} {pc : Option Pc} {q : Pc} (hq : q ∈ (S.setPc i pc).pcs j) :
    j = i ∧ q ∈ pc ∨ j ≠ i ∧ q ∈ S.pcs j := by
  by_cases hj : j = i
  · subst hj
    simp only [System.setPc, Function.update_self] at hq
    exact .inl ⟨rfl, hq⟩
  · simp only [System.setPc, Function.update_of_ne hj] at hq
    exact .inr ⟨hj, hq⟩

theorem Inv.setPc (h : Inv before S) {i : ι} {pc : Option Pc}
    (hown : ∀ p ∈ pc, p.reserves = true → S.Unknown p.id ∧ ∀ j, ∀ q ∈ S.pcs j, q.id = p.id → j = i)
    (hothers : ∀ p ∈ pc, ∀ j, j ≠ i → ∀ q ∈ S.pcs j, q.reserves = true → q.id ≠ p.id)
    (htimed : ∀ p ∈ pc, ∀ now ∈ p.now, now ≤ S.clock) : Inv before (S.setPc i pc) where
  once := h.once
  dropped := h.dropped
  ledger := h.ledger
  fresh j p hp hr := by
    rcases setPc_pcs hp with ⟨rfl, hown'⟩ | ⟨hj, hold⟩
    · obtain ⟨hunknown, hsame⟩ := hown p hown' hr
      refine ⟨hunknown, fun k q hq hid => ?_⟩
      rcases setPc_pcs hq with ⟨rfl, -⟩ | ⟨-, hq⟩
      · rfl
      · exact hsame k q hq hid
    · obtain ⟨hunknown, hsame⟩ := h.fresh j p hold hr
      refine ⟨hunknown, fun k q hq hid => ?_⟩
      rcases setPc_pcs hq with ⟨rfl, hnew⟩ | ⟨-, hq⟩
      · exact absurd hid.symm (hothers q hnew j hj p hold hr)
      · exact hsame k q hq hid
  timed j p hp := by
    rcases setPc_pcs hp with ⟨rfl, hnew⟩ | ⟨-, hold⟩
    · exact htimed p hnew
    · exact h.timed j p hold

theorem Inv.clear (h : Inv before S) (i : ι) : Inv before (S.setPc i none) :=
  h.setPc (fun _ hp => absurd hp (Option.not_mem_none _)) (fun _ hp => absurd hp (Option.not_mem_none _))
    fun _ hp => absurd hp (Option.not_mem_none _)

/-- The call of `i` goes on with the reservation it is about. -/
theorem Inv.goOn (h : Inv before S) {i : ι} {pc q : Pc} (hpc : pc ∈ S.pcs i)
    (hid : q.id = pc.id) (hres : q.reserves = pc.reserves)
    (htimed : ∀ now ∈ q.now, now ≤ S.clock) : Inv before (S.setPc i (some q)) := by
  refine h.setPc ?_ ?_ ?_
  · intro p hp hr
    cases hp
    rw [hid]
    rw [hres] at hr
    exact h.fresh i pc hpc hr
  · intro p hp j hj other hother hr heq
    cases hp
    rw [hid] at heq
    exact hj ((h.fresh j other hother hr).2 i pc hpc heq.symm).symm
  · intro p hp
    cases hp
    exact htimed

theorem Inv.begin (h : Inv before S) {i : ι} {pc : Pc} (hnow : pc.now = none)
    (hown : pc.reserves = true → S.Unknown pc.id ∧ ∀ j, ∀ q ∈ S.pcs j, q.id ≠ pc.id)
    (hothers : ∀ j, ∀ q ∈ S.pcs j, q.reserves = true → q.id ≠ pc.id) :
    Inv before (S.begin i pc) := by
  unfold System.begin
  split
  · refine h.setPc ?_ ?_ ?_
    · intro p hp hr
      cases hp
      obtain ⟨hunknown, hno⟩ := hown hr
      exact ⟨hunknown, fun j q hq hid => absurd hid (hno j q hq)⟩
    · intro p hp j _ q hq hr
      cases hp
      exact hothers j q hq hr
    · intro p hp now hn
      cases hp
      rw [hnow] at hn
      cases hn
  · exact h

omit [DecidableEq ι] in
theorem Inv.tick (h : Inv before S) (elapsed : Nat) : Inv before { S with clock := S.clock + elapsed } := by
  have hle : S.clock ≤ S.clock + elapsed := le_add_of_nonneg_right (Int.natCast_nonneg elapsed)
  refine ⟨fun r hr hg hu => ?_, h.dropped, h.fresh, fun i pc hpc now hn => ?_, ?_⟩
  · exact h.once r hr hg (unexpired_earlier hu hle)
  · exact le_trans (h.timed i pc hpc now hn) hle
  · have hprune := congrArg (fun l => pruneExpired l (S.clock + elapsed)) h.ledger
    simp only [prune_prune hle] at hprune
    exact hprune

/-- The other calls are about other reservations than a new one of `i`. -/
theorem Inv.others (h : Inv before S) {i j : ι} {pc q : Pc} (hpc : pc ∈ S.pcs i)
    (hres : pc.reserves = true) (hq : q ∈ (S.setPc i none).pcs j) : j ≠ i ∧ q ∈ S.pcs j ∧ q.id ≠ pc.id := by
  rcases setPc_pcs hq with ⟨-, hnone⟩ | ⟨hj, hq⟩
  · cases hnone
  · exact ⟨hj, hq, fun hid => hj ((h.fresh i pc hpc hres).2 j q hq hid)⟩

theorem Inv.reserveSave (h : Inv before S) {i : ι} {now : Instant} {res : QuotaReservation}
    {data : List QuotaReservation} (hpc : Pc.reserveSave now res data ∈ S.pcs i)
    (hcur : reserved res now data = reserved res now (loadData S.file)) :
    Inv before (advance lower S i (.reserveSave now res data)) := by
  have hnow : now ≤ S.clock := h.timed i _ hpc now rfl
  obtain ⟨hfile, hreturned, hgone⟩ := (h.fresh i _ hpc rfl).1
  simp only [Pc.id] at hfile hreturned hgone
  simp only [advance, hcur]
  have hmem : ∀ r ∈ reserved res now (loadData S.file), r ∈ loadData S.file ∨ r = res := by
    intro r hr
    rcases List.mem_append.mp hr with hr | hr
    · exact .inl (mem_of_mem_prune hr)
    · exact .inr (List.mem_singleton.mp hr)
  refine ⟨?_, ?_, ?_, ?_, ?_⟩
  · intro r hr hg hu
    show (pruneExpired (loadData S.file) now ++ [res]).filter _ = [r]
    rw [List.filter_append]
    rcases List.mem_append.mp hr with hr | hr
    · have hold := filter_alone (p := fun r => r.unexpired now) (h.once r hr hg hu)
        (unexpired_earlier hu hnow)
      have hne : res.reservationId ≠ r.reservationId := Ne.symm (hreturned r hr)
      rw [pruneExpired, hold]
      simp [hne]
    · cases List.mem_singleton.mp hr
      have hnone : (pruneExpired (loadData S.file) now).filter
          (fun q => decide (q.reservationId = res.reservationId)) = [] := by
        refine List.filter_eq_nil_iff.mpr fun q hq => ?_
        rw [decide_eq_true_eq]
        exact hfile q (mem_of_mem_prune hq)
      rw [hnone]
      simp
  · intro id hid r hr
    rcases hmem r hr with hr | rfl
    · exact h.dropped id hid r hr
    · rintro rfl
      exact hgone hid
  · intro j q hq hr
    obtain ⟨hj, hq, hne⟩ := h.others hpc rfl hq
    obtain ⟨hunknown, hsame⟩ := h.fresh j q hq hr
    refine ⟨⟨fun r hr => ?_, fun r hr => ?_, hunknown.2.2⟩, fun k p hp hid => ?_⟩
    · rcases hmem r hr with hr | rfl
      · exact hunknown.1 r hr
      · exact Ne.symm hne
    · rcases List.mem_append.mp hr with hr | hr
      · exact hunknown.2.1 r hr
      · cases List.mem_singleton.mp hr
        exact Ne.symm hne
    · exact hsame k p (h.others hpc rfl hp).2.1 hid
  · intro j q hq
    exact h.timed j q (h.others hpc rfl hq).2.1
  · show pruneExpired (pruneExpired (loadData S.file) now ++ [res]) S.clock =
      pruneExpired (outstanding before (S.returned ++ [res]) S.gone) S.clock
    rw [outstanding_reserve hgone, prune_append, prune_append, prune_prune hnow, h.ledger]

theorem Inv.releaseSave (h : Inv before S) {i : ι} {id : String} {now : Instant}
    {data : List QuotaReservation} (hpc : Pc.releaseSave id now data ∈ S.pcs i)
    (hcur : (released id now data).2 = (released id now (loadData S.file)).2) :
    Inv before (advance lower S i (.releaseSave id now data)) := by
  have hnow : now ≤ S.clock := h.timed i _ hpc now rfl
  simp only [advance, hcur]
  have hmem : ∀ r ∈ (released id now (loadData S.file)).2,
      r ∈ loadData S.file ∧ r.reservationId ≠ id := by
    intro r hr
    obtain ⟨hr, hne⟩ := List.mem_filter.mp hr
    exact ⟨mem_of_mem_prune hr, of_decide_eq_true hne⟩
  refine ⟨?_, ?_, ?_, ?_, ?_⟩
  · intro r hr hg hu
    rw [List.mem_cons, not_or] at hg
    have hpruned := filter_alone (p := fun r => r.unexpired now) (h.once r hr hg.2 hu)
      (unexpired_earlier hu hnow)
    exact filter_alone hpruned (decide_eq_true hg.1)
  · intro gone hid r hr
    rcases List.mem_cons.mp hid with rfl | hid
    · exact (hmem r hr).2
    · exact h.dropped gone hid r (hmem r hr).1
  · intro j q hq hr
    rcases setPc_pcs hq with ⟨-, hnone⟩ | ⟨hj, hq⟩
    · cases hnone
    obtain ⟨hunknown, hsame⟩ := h.fresh j q hq hr
    refine ⟨⟨fun r hr => hunknown.1 r (hmem r hr).1, hunknown.2.1, ?_⟩, fun k p hp hid => ?_⟩
    · rw [List.mem_cons, not_or]
      exact ⟨fun hid => hj (hsame i _ hpc hid.symm).symm, hunknown.2.2⟩
    · rcases setPc_pcs hp with ⟨-, hnone⟩ | ⟨-, hp⟩
      · cases hnone
      · exact hsame k p hp hid
  · intro j q hq
    rcases setPc_pcs hq with ⟨-, hnone⟩ | ⟨-, hq⟩
    · cases hnone
    · exact h.timed j q hq
  · show pruneExpired ((pruneExpired (loadData S.file) now).filter _) S.clock =
      pruneExpired (outstanding before S.returned (id :: S.gone)) S.clock
    rw [outstanding_release, prune_filter, prune_filter, prune_prune hnow, h.ledger]

theorem Inv.advance (h : Inv before S) {i : ι} {pc : Pc} (hpc : pc ∈ S.pcs i)
    (hcur : pc.Current S.file) : Inv before (advance lower S i pc) := by
  cases pc with
  | reserve manager id args =>
    simp only [Usage.advance]
    cases hres : newReservation lower manager id args S.clock with
    | none => exact h.clear i
    | some res =>
      have hid : res.reservationId = id := by
        unfold newReservation at hres
        split at hres
        · cases hres
          rfl
        · cases hres
      refine h.goOn (q := .reserveLoad S.clock res) hpc hid rfl ?_
      rintro now ⟨⟩
      exact le_refl _
  | reserveLoad now res =>
    exact h.goOn (q := .reserveSave now res (loadData S.file)) hpc rfl rfl
      fun n hn => h.timed i _ hpc n hn
  | reserveSave now res data => exact h.reserveSave hpc hcur
  | releaseLoad id =>
    exact h.goOn (q := .releaseNow id (loadData S.file)) hpc rfl rfl nofun
  | releaseNow id data =>
    refine h.goOn (q := .releaseSave id S.clock data) hpc rfl rfl ?_
    rintro now ⟨⟩
    exact le_refl _
  | releaseSave id now data => exact h.releaseSave hpc hcur

theorem step_inv (h : Inv before S) (e : Event ι) (huuid : Uuid S e) (hcur : Current S e) :
    Inv before (step lower S e) := by
  cases e with
  | tick elapsed => exact h.tick elapsed
  | reserve i manager id args =>
    exact h.begin rfl (fun _ => huuid) fun j q hq _ => huuid.2 j q hq
  | release i id =>
    simp only [step]
    split
    · exact h
    · exact h.begin rfl nofun huuid
  | next i =>
    simp only [step]
    split
    · exact h
    · rename_i pc hpc
      exact h.advance hpc (hcur pc hpc)
  | die i => exact h.clear i

omit [DecidableEq ι] in
theorem Inv.noneLost (h : Inv before S) : NoneLost lower S where
  kept r hr hg hu provider now hprovider hnow := by
    have hpruned := filter_alone (p := fun r => r.unexpired now) (h.once r hr hg hu)
      (unexpired_earlier hu hnow)
    exact filter_alone hpruned (decide_eq_true hprovider.symm)
  dropped id hid provider now r hr :=
    h.dropped id hid r (mem_of_mem_prune (List.mem_of_mem_filter hr))

theorem run_inv (hidle : Idle S) {es : List (Event ι)}
    (hsteps : ∀ m ∈ Runs.moves (step lower) S es, Uuid m.pre m.act ∧ Current m.pre m.act) :
    Inv (loadData S.file) (Runs.run (step lower) S es) :=
  Runs.run_invariant_of (C := fun S e => Uuid S e ∧ Current S e)
    (fun _ e h hc => step_inv h e hc.1 hc.2) hidle.inv hsteps

theorem none_lost (hidle : Idle S) {es : List (Event ι)}
    (hsteps : ∀ m ∈ Runs.moves (step lower) S es, Uuid m.pre m.act ∧ Current m.pre m.act) :
    NoneLost lower (Runs.run (step lower) S es) :=
  (run_inv hidle hsteps).noneLost

end

/-! Two routing calls, each with a manager of its own. -/

def noReservations : System (Fin 2) := ⟨none, 0, fun _ => none, [], []⟩

theorem noReservations_idle : Idle noReservations := ⟨fun _ => rfl, rfl, rfl⟩

def codexArgs : ReserveArgs := { providerId := "OpenAI ", harness := "codex" }

def claudeArgs : ReserveArgs := { providerId := "anthropic", harness := "claude", percent := 5 }

/-- The second call begins before the first has saved, and loads after it. -/
def inTurn : List (Event (Fin 2)) :=
  [.reserve 0 {} "a" codexArgs, .next 0, .reserve 1 {} "b" claudeArgs, .next 1, .next 0, .next 0,
    .tick 1000000, .next 1, .next 1, .release 0 "a", .next 0, .next 0, .next 0]

theorem none_lost_inTurn :
    NoneLost Text.asciiLower (Runs.run (step Text.asciiLower) noReservations inTurn) :=
  none_lost noReservations_idle (by decide +kernel)

/-- Both load before either saves: the second save drops the reservation of the first. -/
def reserveRace : List (Event (Fin 2)) :=
  [.reserve 0 {} "a" codexArgs, .next 0, .next 0, .reserve 1 {} "b" claudeArgs, .next 1, .next 1, .next 0, .next 1]

theorem reservation_lost :
    ¬ ∀ es : List (Event (Fin 2)),
      (∀ m ∈ Runs.moves (step Text.asciiLower) noReservations es, Uuid m.pre m.act) →
        NoneLost Text.asciiLower (Runs.run (step Text.asciiLower) noReservations es) := by
  intro h
  have hcounted := (h reserveRace (by decide +kernel)).kept
    { reservationId := "a", providerId := "openai", harness := "codex", createdAt := 0,
      expiresAt := some 900000000 }
    (by decide +kernel) (by decide +kernel) (by decide +kernel) "openai" 0 (by decide +kernel)
    (by decide +kernel)
  revert hcounted
  decide +kernel

/-- A release that has loaded before a reservation saves drops it, too. -/
def releaseRace : List (Event (Fin 2)) :=
  [.reserve 0 {} "a" codexArgs, .next 0, .next 0, .next 0, .release 0 "a", .next 0,
    .reserve 1 {} "b" claudeArgs, .next 1, .next 1, .next 1, .next 0, .next 0]

example : counted Text.asciiLower "anthropic" 0
    (Runs.run (step Text.asciiLower) noReservations releaseRace).file = [] := by decide +kernel

end Usage
end DarkFactory
