import DarkFactory.Control.FleetSpec

/-!
# DarkFactory.Control.FleetExclusivity

At most one live fleet reservation for each host and for each ticket, and at most `N` in all.
`reserve_cycle` looks only at 'active' rows, while a draining reservation still lets its host work.
`fleet_exclusive_iff` is the exact condition under which a run of the store keeps to one live
reservation a host and a ticket: the requests it admits have no draining rival.
-/

namespace DarkFactory
namespace Control

structure Exclusive (N : Nat) (s : Store) : Prop where
  host : ∀ r, r ∈ s.fleetReservations → ∀ q, q ∈ s.fleetReservations → r.status.isLive = true →
    q.status.isLive = true → r.hostId = q.hostId → r = q
  ticket : ∀ r, r ∈ s.fleetReservations → ∀ q, q ∈ s.fleetReservations → r.status.isLive = true →
    q.status.isLive = true → r.projectId = q.projectId → r.ticketId = q.ticketId → r = q
  ceiling : (s.fleetReservations.select fun r => r.status.isLive).length ≤ N

instance (N : Nat) (s : Store) : Decidable (Exclusive N s) :=
  decidable_of_iff (_ ∧ _ ∧ _)
    ⟨fun h => ⟨h.1, h.2.1, h.2.2⟩, fun h => ⟨h.host, h.ticket, h.ceiling⟩⟩

theorem Exclusive.empty (N : Nat) : Exclusive N .empty where
  host _ hr := absurd hr Table.not_mem_empty
  ticket _ hr := absurd hr Table.not_mem_empty
  ceiling := Nat.zero_le N

/-- The same reservations, in their hosts and for their tickets; none has come to life. -/
def Retires (s s' : Store) : Prop :=
  ∃ F, s.fleetReservations.Mapped F s'.fleetReservations ∧ ∀ r, r ∈ s.fleetReservations →
    (F r).hostId = r.hostId ∧ (F r).projectId = r.projectId ∧ (F r).ticketId = r.ticketId ∧
      ((F r).status.isLive = true → r.status.isLive = true)

namespace Retires

variable {s s' : Store}

theorem of_eq (h : s'.fleetReservations = s.fleetReservations) : Retires s s' :=
  ⟨fun r => r, h ▸ .refl, fun _ _ => ⟨rfl, rfl, rfl, fun h => h⟩⟩

theorem refl (s : Store) : Retires s s := of_eq rfl

theorem trans {s'' : Store} (h₁ : Retires s s') (h₂ : Retires s' s'') : Retires s s'' := by
  obtain ⟨F, hF, hf⟩ := h₁
  obtain ⟨G, hG, hg⟩ := h₂
  refine ⟨_, hF.trans hG, fun r hr => ?_⟩
  obtain ⟨hh, hp, ht, hl⟩ := hf r hr
  obtain ⟨hh', hp', ht', hl'⟩ := hg (F r) (hF.mem_of hr)
  exact ⟨hh'.trans hh, hp'.trans hp, ht'.trans ht, fun h => hl (hl' h)⟩

theorem foldl {α : Type} {f : Store → α → Store} (hf : ∀ s a, Retires s (f s a)) (as : List α)
    (s : Store) : Retires s (as.foldl f s) := by
  induction as generalizing s with
  | nil => exact refl s
  | cons a as ih => exact (hf s a).trans (ih (f s a))

/-- An UPDATE of `fleet_reservations` that neither moves a reservation nor revives one. -/
theorem of_update {p : FleetReservation → Bool} {f : FleetReservation → FleetReservation}
    (h : s.fleetReservations.Mapped (fun r => if p r then f r else r) s'.fleetReservations)
    (hk : ∀ r, (f r).hostId = r.hostId ∧ (f r).projectId = r.projectId ∧ (f r).ticketId = r.ticketId)
    (hl : ∀ r, p r = true → (f r).status.isLive = true → r.status.isLive = true) :
    Retires s s' := by
  refine ⟨_, h, fun r _ => ?_⟩
  cases hp : p r with
  | false => exact ⟨rfl, rfl, rfl, fun h => h⟩
  | true =>
    obtain ⟨hh, hpr, ht⟩ := hk r
    exact ⟨hh, hpr, ht, hl r hp⟩

theorem exclusive {N : Nat} (h : Retires s s') (hs : Exclusive N s) : Exclusive N s' := by
  obtain ⟨F, hF, hf⟩ := h
  constructor
  · intro r' hr' q' hq' hlr hlq hhost
    obtain ⟨r, hr, rfl⟩ := hF.mem hr'
    obtain ⟨q, hq, rfl⟩ := hF.mem hq'
    obtain ⟨hhr, -, -, hr₀⟩ := hf r hr
    obtain ⟨hhq, -, -, hq₀⟩ := hf q hq
    rw [hhr, hhq] at hhost
    rw [hs.host r hr q hq (hr₀ hlr) (hq₀ hlq) hhost]
  · intro r' hr' q' hq' hlr hlq hproject hticket
    obtain ⟨r, hr, rfl⟩ := hF.mem hr'
    obtain ⟨q, hq, rfl⟩ := hF.mem hq'
    obtain ⟨-, hpr, htr, hr₀⟩ := hf r hr
    obtain ⟨-, hpq, htq, hq₀⟩ := hf q hq
    rw [hpr, hpq] at hproject
    rw [htr, htq] at hticket
    rw [hs.ticket r hr q hq (hr₀ hlr) (hq₀ hlq) hproject hticket]
  · exact Nat.le_trans (hF.length_select_le fun r hr hl => (hf r hr).2.2.2 hl) hs.ceiling

end Retires

/-- The calls of a fleet with `N` slots, whose releases name a terminal status. -/
def FleetOp (N : Nat) : Op → Prop
  | .reserveCycle request _ _ => request.maxFleetSlots = N
  | .releaseReservation _ _ status _ => status ≠ "active" ∧ status ≠ "draining"
  | _ => True

namespace Sqlite

theorem heartbeatReservation_retires (env : Env) (reservationId : String) (fencingToken : Nat)
    (now : DateTime) (leaseDurationSec : Option Int) (s : Store) :
    Retires s (heartbeatReservation env reservationId fencingToken now leaseDurationSec s).2 := by
  unfold heartbeatReservation
  split
  · exact .refl s
  · split
    · exact .refl s
    · split
      · exact .refl s
      · split
        · exact .refl s
        · split
          · exact .of_update (Table.mapped_update (h := by intro _; rfl)) (fun _ => ⟨rfl, rfl, rfl⟩) fun _ _ h => by cases h
          · exact .of_update (Table.mapped_update (h := by intro _; rfl)) (fun _ => ⟨rfl, rfl, rfl⟩) fun _ _ h => h

variable {s : Store}

theorem releaseReservation_retires {reservationId : String} {fencingToken : Nat} {status : String}
    {now : DateTime} {s' : Store} {r : FleetReservation}
    (hstatus : status ≠ "active" ∧ status ≠ "draining")
    (h : releaseReservation reservationId fencingToken status now s = .ok (r, s')) :
    Retires s s' := by
  rcases releaseReservation_ok h with rfl | ⟨st, hst, rfl⟩
  · exact .refl _
  · refine .of_update (Table.mapped_update (h := by intro _; rfl)) (fun _ => ⟨rfl, rfl, rfl⟩) fun _ _ hl => ?_
    have htext := ReservationStatus.text_of_ofString? hst
    cases st with
    | active => exact absurd htext hstatus.1
    | draining => exact absurd htext hstatus.2
    | _ => cases hl

theorem reconcileFleetReservations_retires (now : DateTime) (cycles : Nat → String) (s : Store) :
    Retires s (reconcileFleetReservations now cycles s).2 := by
  refine .foldl (fun s p => ?_) _ s
  exact .of_update (p := fun r => decide (r.reservationId = p.1.reservationId))
    (Table.mapped_update (h := by intro _; rfl)) (fun _ => ⟨rfl, rfl, rfl⟩) fun _ _ h => by cases h

theorem apply_retires (env : Env) {N : Nat} {s : Store} {op : Op} (h : FleetOp N op)
    (hr : ∀ request id now, op ≠ .reserveCycle request id now) : Retires s (apply env s op) := by
  cases hw : op.writesReservations with
  | false => exact .of_eq (apply_reservations env s op hw)
  | true =>
    cases op with
    | claim worker capabilities now readyAgeSec ids =>
      refine committed_rel (.refl s) fun c s' hs => ?_
      cases c with
      | none => exact claim_none hs ▸ .refl s
      | some c =>
        obtain ⟨row, matched, _, _, _, _, rfl⟩ := claim_ok hs
        cases matched with
        | none => exact .of_eq rfl
        | some id =>
          exact .of_update (Table.mapped_update (h := by intro _; rfl)) (fun _ => ⟨rfl, rfl, rfl⟩) fun _ _ h => h
    | cancelRun runId reason actor now =>
      simp only [apply, cancelRun]
      split
      · exact .refl s
      · exact .of_update (Table.mapped_update (h := by intro _; rfl)) (fun _ => ⟨rfl, rfl, rfl⟩) fun _ _ h => by cases h
    | reserveCycle request id now => exact absurd rfl (hr request id now)
    | heartbeatReservation reservationId fencingToken now leaseDurationSec =>
      exact heartbeatReservation_retires env reservationId fencingToken now leaseDurationSec s
    | releaseReservation reservationId fencingToken status now =>
      exact committed_rel (.refl s) fun _ _ hs => releaseReservation_retires h hs
    | drainHost hostId reason =>
      refine .of_update (Table.mapped_update (h := by intro _; rfl)) (fun _ => ⟨rfl, rfl, rfl⟩) fun r hp _ => ?_
      exact isLive_of_isActive (Bool.and_eq_true_iff.mp hp).2
    | renewOpenRunReservations now pendingGraceSec =>
      exact .of_update (Table.mapped_update (h := by intro _; rfl)) (fun _ => ⟨rfl, rfl, rfl⟩) fun _ _ h => h
    | reconcileFleetReservations now cycles =>
      exact reconcileFleetReservations_retires now cycles s
    | _ => cases hw

/-- The condition: when reserve_cycle admits a request, no draining reservation that outlives the
sweep has its host or its ticket, and the draining ones included, there are fewer than the
ceiling. -/
def NoDrainingRival (s : Store) : Op → Prop
  | .reserveCycle request id now =>
    Admits request id now s → (∀ r, r ∈ s.fleetReservations → r.status = .draining → outlives now r = true →
        r.hostId ≠ request.hostId ∧ ¬ (r.projectId = request.projectId ∧ r.ticketId = request.ticketId)) ∧
      ((s.fleetReservations.select fun r => r.status.isLive && outlives now r).length : Int) < request.maxFleetSlots
  | _ => True

theorem expireFleetReservations_retires (now : DateTime) (s : Store) :
    Retires s (expireFleetReservations now s) := by
  have hm : s.fleetReservations.Mapped (fun r => if isExpiring now r then expired r else r)
      (expireFleetReservations now s).fleetReservations := by
    rw [expireFleetReservations_reservations]
    exact Table.mapped_update (h := expired_id)
  exact .of_update hm (fun _ => ⟨rfl, rfl, rfl⟩) fun _ _ h => by cases h

theorem live_swept {now : DateTime} {r : FleetReservation} :
    r ∈ (expireFleetReservations now s).fleetReservations ∧ r.status.isLive = true ↔
      r ∈ s.fleetReservations ∧ outlives now r = true ∧ (r.isActive = true ∨ r.status = .draining) := by
  have hlive : r.status.isLive = true ↔ r.isActive = true ∨ r.status = .draining := by
    unfold FleetReservation.isActive
    cases r.status <;> decide
  rw [expireFleetReservations_reservations, outlives, Bool.not_eq_true']
  constructor
  · rintro ⟨hr, hl⟩
    rcases Table.mem_update_cases hr with ⟨hr, hp⟩ | ⟨q, -, -, rfl⟩
    · exact ⟨hr, hp, hlive.mp hl⟩
    · cases hl
  · rintro ⟨hr, hp, hl⟩
    exact ⟨Table.mem_update_of_neg hr hp, hlive.mpr hl⟩

/-- Inserting an active reservation into the swept table keeps exclusivity exactly when no live one
left by the sweep has its host or its ticket and there is room for it. -/
theorem exclusive_insert_iff {N : Nat} {s' : Store} {new : FleetReservation} (h : Exclusive N s)
    (hi : s.fleetReservations.insert? new = some s'.fleetReservations)
    (hn : new.status.isLive = true) :
    Exclusive N s' ↔ (∀ r, r ∈ s.fleetReservations → r.status.isLive = true → r.hostId ≠ new.hostId ∧
        ¬ (r.projectId = new.projectId ∧ r.ticketId = new.ticketId)) ∧
      (s.fleetReservations.select fun r => r.status.isLive).length < N := by
  have hold : ∀ r, r ∈ s.fleetReservations → r ≠ new := by
    rintro r hr rfl
    exact Table.get?_eq_none.mp (Table.insert?_fresh hi) r hr rfl
  have hlen := Table.length_select_insert? (p := fun r => r.status.isLive) hi hn
  constructor
  · intro hx
    have hnew : new ∈ s'.fleetReservations := (Table.mem_of_insert? hi).mpr (.inr rfl)
    refine ⟨fun r hr hl => ⟨fun hk => hold r hr ?_, fun hk => hold r hr ?_⟩, ?_⟩
    · exact hx.host r ((Table.mem_of_insert? hi).mpr (.inl hr)) new hnew hl hn hk
    · exact hx.ticket r ((Table.mem_of_insert? hi).mpr (.inl hr)) new hnew hl hn hk.1 hk.2
    · have := hx.ceiling
      omega
  · rintro ⟨hfree, hroom⟩
    constructor
    · intro r hr q hq hlr hlq hk
      rcases (Table.mem_of_insert? hi).mp hr with hr | rfl
      · rcases (Table.mem_of_insert? hi).mp hq with hq | rfl
        · exact h.host r hr q hq hlr hlq hk
        · exact absurd hk (hfree r hr hlr).1
      · rcases (Table.mem_of_insert? hi).mp hq with hq | rfl
        · exact absurd hk.symm (hfree q hq hlq).1
        · rfl
    · intro r hr q hq hlr hlq hp ht
      rcases (Table.mem_of_insert? hi).mp hr with hr | rfl
      · rcases (Table.mem_of_insert? hi).mp hq with hq | rfl
        · exact h.ticket r hr q hq hlr hlq hp ht
        · exact absurd ⟨hp, ht⟩ (hfree r hr hlr).2
      · rcases (Table.mem_of_insert? hi).mp hq with hq | rfl
        · exact absurd ⟨hp.symm, ht.symm⟩ (hfree q hq hlq).2
        · rfl
    · omega

theorem reserveCycle_exclusive_iff {env : Env} {N : Nat} {request : CycleRequest}
    {id : String} {now : DateTime} (hN : request.maxFleetSlots = N) (h : Exclusive N s) :
    Exclusive N (apply env s (.reserveCycle request id now)) ↔
      NoDrainingRival s (.reserveCycle request id now) := by
  have hsweep := (expireFleetReservations_retires now s).exclusive h
  simp only [apply]
  rcases reserveCycle_cases request id now s with
    ⟨ha, t, hins, e⟩ | ⟨ha, -, r, e⟩ | ⟨ha, -, e', e⟩
  · have hcount := congrArg List.length
      (select_swept (q := fun r => r.status.isLive) (fun _ h => h) now s)
    have hiff : Exclusive N { expireFleetReservations now s with fleetReservations := t } ↔ _ :=
      exclusive_insert_iff hsweep hins rfl
    rw [e, committed_ok, hiff, hcount]
    constructor
    · rintro ⟨hfree, hroom⟩ -
      refine ⟨fun r hr hd ho => ?_, ?_⟩
      · obtain ⟨hr', hl⟩ := live_swept.mpr ⟨hr, ho, .inr hd⟩
        exact hfree r hr' hl
      · rw [hN]
        exact Int.ofNat_lt.mpr hroom
    · intro hc
      obtain ⟨hfree, hroom⟩ := hc ha
      refine ⟨fun r hr hl => ?_, ?_⟩
      · obtain ⟨hr', ho, hact | hd⟩ := live_swept.mp ⟨hr, hl⟩
        · exact ⟨ha.host r hr' hact ho, ha.ticket r hr' hact ho⟩
        · exact hfree r hr' hd ho
      · rw [hN] at hroom
        exact Int.ofNat_lt.mp hroom
  · rw [e, committed_ok]
    exact iff_of_true hsweep fun h => absurd h ha
  · rw [e, committed_error]
    exact iff_of_true h fun h => absurd h ha

theorem exclusive_step {env : Env} {N : Nat} {op : Op} (h : Exclusive N s)
    (hop : FleetOp N op) : Exclusive N (apply env s op) ↔ NoDrainingRival s op := by
  by_cases hr : ∃ request id now, op = .reserveCycle request id now
  · obtain ⟨request, id, now, rfl⟩ := hr
    exact reserveCycle_exclusive_iff hop h
  · have hc : NoDrainingRival s op := by
      cases op <;> first | trivial | exact absurd ⟨_, _, _, rfl⟩ hr
    exact iff_of_true ((apply_retires env hop fun request id now e =>
      hr ⟨request, id, now, e⟩).exclusive h) hc

/-- In a run of the store with `N` fleet slots, the live reservations are exclusive after every
operation exactly when every request that reserve_cycle admits has no draining rival. -/
theorem fleet_exclusive_iff (env : Env) (N : Nat) (ops : List Op) (h : ∀ op ∈ ops, FleetOp N op) :
    (∀ m ∈ Runs.moves (apply env) .empty ops, Exclusive N m.post) ↔
      ∀ m ∈ Runs.moves (apply env) .empty ops, NoDrainingRival m.pre m.act :=
  Runs.moves_forall_iff_of (I := Exclusive N) (fun _ _ hs hop => exclusive_step hs hop)
    (fun _ _ hs hop hc => (exclusive_step hs hop).mpr hc) (.empty N) ops h

/-- A cycle is reserved on a fresh store and its host drained. -/
theorem fleet_exclusive_drain :
    Exclusive 3 (Runs.run (apply .sample) .empty
      [.sampleReserve "t1" "run-1" "host-1" "a" 0, .drainHost "host-1" "maintenance"]) := by
  refine (fleet_exclusive_iff .sample 3 [.sampleReserve "t1" "run-1" "host-1" "a" 0,
    .drainHost "host-1" "maintenance"] fun op hop => ?_).mpr (fun m hm => ?_)
    ⟨_, .drainHost "host-1" "maintenance", _⟩ (.tail _ (.head _))
  · simp only [List.mem_cons, List.not_mem_nil, or_false] at hop
    rcases hop with rfl | rfl
    · rfl
    · trivial
  · simp only [Runs.moves, List.mem_cons, List.not_mem_nil, or_false] at hm
    rcases hm with rfl | rfl
    · exact fun _ => ⟨fun r hr => absurd hr Table.not_mem_empty, by decide⟩
    · trivial

/-- A host that is drained takes a second cycle while the first still lives. -/
theorem drained_host_reserved_again :
    (∀ op ∈ [.sampleReserve "t1" "run-1" "host-1" "a" 0, .drainHost "host-1" "maintenance",
        .sampleReserve "t2" "run-2" "host-1" "b" 1], FleetOp 3 op) ∧
    ¬ Exclusive 3 (Runs.run (apply .sample) .empty
        [.sampleReserve "t1" "run-1" "host-1" "a" 0, .drainHost "host-1" "maintenance",
          .sampleReserve "t2" "run-2" "host-1" "b" 1]) := by
  refine ⟨?_, by decide +kernel⟩
  simp [FleetOp, Op.sampleReserve]

end Sqlite
end Control
end DarkFactory
