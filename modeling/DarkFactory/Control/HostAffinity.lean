import DarkFactory.Control.Spec
import DarkFactory.Control.Postgres

/-!
# DarkFactory.Control.HostAffinity

Which workers `claim` lets have the jobs of a run that is reserved for a host, on both backends.

* `WorkerOf` — the worker's id is the host's, or goes on after it with `-`. Case does not matter.
* `RefusedByAffinity` — the claim loop comes as far as the host names at a row, and they do not match.
* `Affine` — jobs of reserved runs go to no worker of another host, and their own workers are not turned away.
-/

namespace DarkFactory
namespace Control
namespace HostAffinity

inductive Backend where
  | sqlite
  | postgres
  deriving DecidableEq

/-- The `now` that a backend compares with. -/
def Backend.clock : Backend → DateTime → DateTime
  | .sqlite, now => now
  | .postgres, now => now.astimezoneUtc

def Backend.claim (b : Backend) (env : Env) (worker : String) (capabilities : List String) (now : DateTime)
    (readyAgeSec : Rat) (ids : Sqlite.ClaimIds) (s : Store) : Except Raised (Option Claim × Store) :=
  match b with
  | .sqlite => Sqlite.claim env worker capabilities now readyAgeSec ids s
  | .postgres => Postgres.claim env worker capabilities now readyAgeSec ids s

def Backend.claimable (b : Backend) (env : Env) (worker : String) (capabilities : List String) (now : DateTime)
    (readyAgeSec : Rat) (s : Store) (row : Job) : Option (Option String) :=
  match b with
  | .sqlite => Sqlite.claimable env worker capabilities now readyAgeSec s row
  | .postgres => Postgres.claimable env worker capabilities now.astimezoneUtc readyAgeSec s row

/-- The worker has the capabilities of the row, and its `not_before` has passed. -/
def Backend.offerable (b : Backend) (env : Env) (capabilities : List String) (now : DateTime) (row : Job) : Bool :=
  match b with
  | .sqlite => Sqlite.offerable env capabilities now row
  | .postgres =>
    row.requiredCapabilities.all (fun c => capabilities.contains c) && !Postgres.postponed env now.astimezoneUtc row

section

variable (env : Env)

def WorkerOf (host worker : String) : Prop :=
  env.lower worker = env.lower host ∨ Text.startsWith (env.lower worker) (env.lower host ++ "-") = true

/-- The worker belongs to a host of the fleet other than `host`. -/
def Foreign (hosts : Set String) (host worker : String) : Prop :=
  ∃ g ∈ hosts, env.lower g ≠ env.lower host ∧ WorkerOf env g worker

def RefusedByAffinity (b : Backend) (worker : String) (capabilities : List String) (now : DateTime) (s : Store)
    (row : Job) : Prop :=
  b.offerable env capabilities now row = true ∧
    ∃ q, Sqlite.liveReservation s row.key.runId = some q ∧ q.expiresAt.le (b.clock now) = false ∧
      Sqlite.hostMatches env q.hostId worker = false

structure Reserves (hosts : Set String) (s : Store) (r : FleetReservation) : Prop where
  mem : r ∈ s.fleetReservations
  live : r.status.isLive = true
  fleet : r.hostId ∈ hosts

structure Affine (hosts : Set String) (worker : String) (s : Store) : Prop where
  kept : ∀ (b : Backend) capabilities now readyAgeSec ids c s' r,
    b.claim env worker capabilities now readyAgeSec ids s = .ok (some c, s') →
    Reserves hosts s r → r.runId = c.jobKey.runId → ¬ Foreign env hosts r.hostId worker
  served : ∀ (b : Backend) capabilities now row r,
    row ∈ s.jobs → row.status = .pending → Reserves hosts s r → r.runId = row.key.runId →
    r.expiresAt.le (b.clock now) = false → WorkerOf env r.hostId worker →
    ¬ RefusedByAffinity env b worker capabilities now s row

/-- The reservation that is read for a run lets through the worker of a host the run is reserved for, and nobody who
is a worker of another host. -/
def NamesApart (hosts : Set String) (worker : String) (s : Store) : Prop :=
  ∀ r, Reserves hosts s r → ∀ q, Sqlite.liveReservation s r.runId = some q →
    (Foreign env hosts r.hostId worker → Sqlite.hostMatches env q.hostId worker = false) ∧
      (WorkerOf env r.hostId worker → Sqlite.hostMatches env q.hostId worker = true)

end

variable {env : Env} {worker : String} {hosts : Set String} {s : Store}

variable {capabilities : List String} {now : DateTime} {q : FleetReservation} {readyAgeSec : Rat}

theorem claimable_of_not_refused {b : Backend} {row : Job} (hoffer : b.offerable env capabilities now row = true)
    (hq : Sqlite.liveReservation s row.key.runId = some q) (hexpires : q.expiresAt.le (b.clock now) = false)
    (h : ¬ RefusedByAffinity env b worker capabilities now s row) (readyAgeSec : Rat) :
    b.claimable env worker capabilities now readyAgeSec s row = some (some q.reservationId) := by
  have hhost : Sqlite.hostMatches env q.hostId worker = true := by
    by_contra hhost
    exact h ⟨hoffer, q, hq, hexpires, Bool.eq_false_of_not_eq_true hhost⟩
  cases b with
  | sqlite =>
    simp only [Backend.offerable] at hoffer
    simp only [Backend.clock] at hexpires
    simp only [Backend.claimable, Sqlite.claimable, hoffer, hq, hexpires, hhost, Bool.not_true,
      Bool.false_eq_true, if_false]
  | postgres =>
    simp only [Backend.offerable, Bool.and_eq_true, Bool.not_eq_true'] at hoffer
    simp only [Backend.clock] at hexpires
    have hboth : (!Text.contains (env.lower q.hostId) (env.lower worker) &&
        !Text.contains (env.lower worker) (env.lower q.hostId)) = false := by
      rw [← Bool.not_or]
      exact congrArg not hhost
    simp only [Backend.claimable, Postgres.claimable, hoffer.1, hoffer.2, hq, hexpires, hboth, Bool.not_true,
      Bool.false_eq_true, if_false]

theorem postgres_chosenRow_some {rows : List Job} {row : Job} {matched : Option String}
    (h : Postgres.chosenRow env worker capabilities now readyAgeSec s rows = some (row, matched)) :
    Postgres.claimable env worker capabilities now readyAgeSec s row = some matched := by
  induction rows with
  | nil => cases h
  | cons first rows ih =>
    simp only [Postgres.chosenRow] at h
    split at h
    · rename_i hc
      cases h
      exact hc
    · exact ih h

theorem claim_row {b : Backend} {ids : Sqlite.ClaimIds} {c : Claim} {s' : Store}
    (h : b.claim env worker capabilities now readyAgeSec ids s = .ok (some c, s')) :
    ∃ row matched, c.jobKey = row.key ∧
      b.claimable env worker capabilities now readyAgeSec s row = some matched := by
  cases b with
  | sqlite =>
    obtain ⟨row, matched, claims, hrow, -, rfl, -⟩ := Sqlite.claim_ok h
    exact ⟨row, matched, rfl, (Sqlite.chosenRow_ok hrow).2⟩
  | postgres =>
    simp only [Backend.claim, Postgres.claim] at h
    split at h
    · cases h
    · rename_i row matched hrow
      split at h
      · cases h
      · cases h
        exact ⟨row, matched, rfl, postgres_chosenRow_some hrow⟩

theorem claimable_hostMatches {b : Backend} {row : Job} {matched : Option String}
    (h : b.claimable env worker capabilities now readyAgeSec s row = some matched)
    (hq : Sqlite.liveReservation s row.key.runId = some q) : Sqlite.hostMatches env q.hostId worker = true := by
  cases b with
  | sqlite =>
    simp only [Backend.claimable, Sqlite.claimable, hq] at h
    split at h
    · cases h
    · split at h
      · cases h
      · split at h
        · cases h
        · rename_i hhost
          simpa using hhost
  | postgres =>
    simp only [Backend.claimable, Postgres.claimable, hq] at h
    split at h
    · cases h
    · split at h
      · cases h
      · split at h
        · cases h
        · split at h
          · cases h
          · rename_i hhost
            rw [← Bool.not_or, Bool.not_eq_true, Bool.not_eq_false'] at hhost
            exact hhost

theorem exists_liveReservation {r : FleetReservation} (h : Reserves hosts s r) :
    ∃ q, Sqlite.liveReservation s r.runId = some q := by
  have hmem : r ∈ s.fleetReservations.select fun q => decide (q.runId = r.runId) && q.status.isLive := by
    rw [Table.mem_select]
    exact ⟨h.mem, by simp [h.live]⟩
  unfold Sqlite.liveReservation
  cases hrows : s.fleetReservations.select fun q => decide (q.runId = r.runId) && q.status.isLive with
  | nil =>
    rw [hrows] at hmem
    cases hmem
  | cons q rows => exact ⟨q, rfl⟩

theorem NamesApart.affine (h : NamesApart env hosts worker s) : Affine env hosts worker s := by
  constructor
  · intro b capabilities now readyAgeSec ids c s' r hclaim hr hrun hforeign
    obtain ⟨row, matched, hkey, hrow⟩ := claim_row hclaim
    obtain ⟨q, hq⟩ := exists_liveReservation hr
    have hno := (h r hr q hq).1 hforeign
    rw [hrun, hkey] at hq
    rw [claimable_hostMatches hrow hq] at hno
    cases hno
  · intro b capabilities now row r _ _ hr hrun _ hworker hrefused
    obtain ⟨-, q, hq, -, hno⟩ := hrefused
    have hyes := (h r hr q (hrun ▸ hq)).2 hworker
    rw [hyes] at hno
    cases hno

/-- A job without requirements that is waiting for a worker. -/
def probe (runId : String) (now : DateTime) : Job where
  key := ⟨runId, "t", "1.0", "grill", 0⟩
  status := .pending
  role := "agent"
  requiredCapabilities := []
  createdAt := now
  updatedAt := now

def probed (s : Store) (runId : String) (now : DateTime) : Store :=
  { s with jobs := ⟨[probe runId now], List.nodup_singleton _⟩, claims := .empty }

theorem exists_before (a b : DateTime) :
    ∃ now : DateTime, now.utcoffset = a.utcoffset ∧ a.le now = false ∧ b.le now = false := by
  obtain ⟨wa, oa⟩ := a
  obtain ⟨wb, ob⟩ := b
  refine ⟨⟨min wa (min wb (wb - ob.getD 0 + oa.getD 0)) - 1, oa⟩, rfl, ?_, ?_⟩
  · apply decide_eq_false
    cases oa with
    | none =>
      simp only [DateTime.since]
      omega
    | some x =>
      simp only [DateTime.since]
      omega
  · apply decide_eq_false
    cases oa with
    | none =>
      simp only [DateTime.since]
      omega
    | some x =>
      cases ob with
      | none =>
        simp only [DateTime.since]
        omega
      | some y =>
        simp only [DateTime.since, Option.getD_some]
        omega

theorem probe_offerable (runId : String) (now : DateTime) :
    Sqlite.offerable env [] now (probe runId now) = true := rfl

theorem claim_probed {runId : String}
    (hq : Sqlite.liveReservation s runId = some q) (hzone : now.utcoffset = q.expiresAt.utcoffset)
    (hexpires : q.expiresAt.le now = false) (hhost : Sqlite.hostMatches env q.hostId worker = true) :
    ∃ c s', Sqlite.claim env worker [] now 0 ⟨"l", "v"⟩ (probed s runId now) = .ok (some c, s') ∧
      c.jobKey.runId = runId := by
  have hlive : Sqlite.liveReservation (probed s runId now) runId = some q := hq
  have hrows : Sqlite.pendingByCreation (probed s runId now) = [probe runId now] := rfl
  have hread : Sqlite.readReservation env [] now (probed s runId now) (probe runId now) = some q := by
    rw [Sqlite.readReservation, probe_offerable, if_pos rfl]
    exact hlive
  have hbound : Sqlite.leavesUnbound q.expiresAt now = false := by
    rw [Sqlite.leavesUnbound, hzone]
    cases q.expiresAt.utcoffset with
    | none => rfl
    | some offset => rfl
  have htake : Sqlite.claimable env worker [] now 0 (probed s runId now) (probe runId now) =
      some (some q.reservationId) := by
    refine claimable_of_not_refused (b := .sqlite) (probe_offerable runId now) hlive hexpires ?_ 0
    rintro ⟨-, q', hq', -, hno⟩
    rw [show Sqlite.liveReservation (probed s runId now) (probe runId now).key.runId = some q from hq] at hq'
    cases hq'
    rw [hhost] at hno
    cases hno
  have hchosen : Sqlite.chosenRow env worker [] now 0 (probed s runId now) false [probe runId now] =
      .ok (some (probe runId now, some q.reservationId)) := by
    simp only [Sqlite.chosenRow, hread, hbound, htake, Bool.not_false, Bool.and_false, Bool.false_eq_true, if_false]
  refine ⟨Sqlite.claimOf (Sqlite.claimRow env worker now ⟨"l", "v"⟩ (probe runId now) (some q.reservationId)), ?_⟩
  unfold Sqlite.claim
  rw [hrows, hchosen]
  exact ⟨_, rfl, rfl⟩

theorem namesApart_of_affine (h : ∀ s', s'.fleetReservations = s.fleetReservations → Affine env hosts worker s') :
    NamesApart env hosts worker s := by
  intro r hr q hq
  obtain ⟨now, hzone, hqexpires, hrexpires⟩ := exists_before q.expiresAt r.expiresAt
  have haffine := h (probed s r.runId now) rfl
  have hr' : Reserves hosts (probed s r.runId now) r := ⟨hr.mem, hr.live, hr.fleet⟩
  constructor
  · intro hforeign
    by_contra hhost
    rw [Bool.not_eq_false] at hhost
    obtain ⟨c, s', hclaim, hrun⟩ : ∃ c s', Sqlite.claim env worker [] now 0 ⟨"l", "v"⟩ (probed s r.runId now) =
        .ok (some c, s') ∧ c.jobKey.runId = r.runId := claim_probed hq hzone hqexpires hhost
    exact haffine.kept .sqlite [] now 0 ⟨"l", "v"⟩ c s' r hclaim hr' hrun.symm hforeign
  · intro hworker
    by_contra hhost
    rw [Bool.not_eq_true] at hhost
    have hmem : probe r.runId now ∈ (probed s r.runId now).jobs := List.mem_singleton_self _
    exact haffine.served .sqlite [] now (probe r.runId now) r hmem rfl hr' rfl hrexpires hworker
      ⟨probe_offerable r.runId now, q, hq, hqexpires, hhost⟩

theorem hostMatches_of_workerOf {host : String} (h : WorkerOf env host worker) :
    Sqlite.hostMatches env host worker = true := by
  have hin : (env.lower host).toList <:+: (env.lower worker).toList := by
    rcases h with heq | hstarts
    · rw [heq]
    · rw [Text.startsWith, List.isPrefixOf_iff_prefix, String.toList_append] at hstarts
      exact ((List.prefix_append _ _).trans hstarts).isInfix
  rw [Sqlite.hostMatches, Bool.or_eq_true]
  exact .inl (Text.isInfixList_iff.mpr hin)

theorem namesApart_iff_of_single
    (hsingle : ∀ r q, Reserves hosts s r → Sqlite.liveReservation s r.runId = some q → q = r) :
    NamesApart env hosts worker s ↔
      ∀ r, Reserves hosts s r → Foreign env hosts r.hostId worker →
        ¬ (env.lower r.hostId).toList <:+: (env.lower worker).toList ∧
          ¬ (env.lower worker).toList <:+: (env.lower r.hostId).toList := by
  constructor
  · intro h r hr hforeign
    obtain ⟨q, hq⟩ := exists_liveReservation hr
    have hno := (h r hr q hq).1 hforeign
    rw [hsingle r q hr hq, Sqlite.hostMatches, Bool.or_eq_false_iff] at hno
    exact ⟨Text.contains_eq_false.mp hno.1, Text.contains_eq_false.mp hno.2⟩
  · intro h r hr q hq
    have heq := hsingle r q hr hq
    subst heq
    refine ⟨fun hforeign => ?_, hostMatches_of_workerOf⟩
    obtain ⟨hhost, hworker⟩ := h q hr hforeign
    rw [Sqlite.hostMatches, Bool.or_eq_false_iff]
    exact ⟨Text.contains_eq_false.mpr hhost, Text.contains_eq_false.mpr hworker⟩

/-- Over all jobs and all claims, on either backend, the reservations of a store keep a worker to its own host's runs
exactly if the names are apart. -/
theorem affinity_iff (env : Env) (hosts : Set String) (worker : String) (s : Store) :
    (∀ s', s'.fleetReservations = s.fleetReservations → Affine env hosts worker s') ↔
      NamesApart env hosts worker s := by
  constructor
  · exact namesApart_of_affine
  · intro h s' heq
    apply NamesApart.affine
    intro r hr q hq
    refine h r ⟨heq ▸ hr.mem, hr.live, hr.fleet⟩ q ?_
    rw [← hq, Sqlite.liveReservation, Sqlite.liveReservation, heq]

/-- A run of one waiting job that is reserved for the host `notebook`. -/
def reservedStore : Store :=
  Runs.run (Sqlite.apply .sample) .empty [.sampleAccept, .sampleReserve "t1" "run-r1" "notebook" "f1" 1]

/-- The run is reserved for `notebook`, and the worker `notebook2` of the host of that name gets its job. -/
theorem notebook2_claims :
    ¬ ∀ (env : Env) (hosts : Set String) (worker : String) (s : Store), Affine env hosts worker s := by
  intro h
  have hlive : (Sqlite.liveReservation reservedStore "run-r1").map (fun r => (r.runId, r.hostId, r.status)) =
      some ("run-r1", "notebook", .active) := rfl
  obtain ⟨r, hr, hrow⟩ := Option.map_eq_some_iff.mp hlive
  simp only [Prod.mk.injEq] at hrow
  obtain ⟨hrun, hhost, hstatus⟩ := hrow
  have hreserves : Reserves {"notebook", "notebook2"} reservedStore r := by
    refine ⟨(Table.mem_select.mp (List.mem_of_head? hr)).1, ?_, ?_⟩
    · rw [hstatus]
      rfl
    · rw [hhost]
      exact .inl rfl
  have hapart := namesApart_of_affine (s := reservedStore) fun s' _ =>
    h .sample {"notebook", "notebook2"} "notebook2" s'
  have hforeign : Foreign .sample {"notebook", "notebook2"} r.hostId "notebook2" := by
    rw [hhost]
    exact ⟨"notebook2", .inr rfl, (by decide : "notebook2" ≠ "notebook"), .inl rfl⟩
  have hno := (hapart r hreserves r (hrun ▸ hr)).1 hforeign
  rw [hhost] at hno
  exact absurd hno (by decide)

end HostAffinity
end Control
end DarkFactory
