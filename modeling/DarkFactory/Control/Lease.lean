import DarkFactory.Lib.Fencing
import DarkFactory.Control.Spec

/-!
# DarkFactory.Control.Lease

Leases and fencing tokens of the SQLite store. `book` reads a store as the abstract fencing book of
`Lib.Fencing`: the token and the lease of each job, and each row of `claims` as a lease that is live
while it is active. `Inv` adds what links the book to `jobs.status`; `Advance` is what a statement
or an operation may do to both: fencing steps on the book, from a good state to a good state.
-/

namespace DarkFactory
namespace Control

def Job.Leased (j : Job) : Prop := j.status = .running ↔ j.currentLeaseId ≠ none

theorem Job.Leased.free {j : Job} (h : j.Leased) (hs : j.status ≠ .running) : j.currentLeaseId = none := by
  by_contra hn
  exact hs (h.mpr hn)

theorem Job.leased_free {j : Job} (hs : j.status ≠ .running) (hl : j.currentLeaseId = none) : j.Leased := by
  simp [Job.Leased, hs, hl]

def leaseOf (c : ClaimRow) : Fencing.Lease JobKey :=
  ⟨c.jobKey, c.fencingToken, decide (c.status = .active)⟩

def book (s : Store) : Fencing.Book JobKey String where
  token k := (s.jobs.get? k).map Job.fencingToken
  holder k := (s.jobs.get? k).bind Job.currentLeaseId
  lease l := (s.claims.get? l).map leaseOf

structure Inv (s : Store) : Prop where
  fencing : Fencing.Inv (book s)
  leased : ∀ j, j ∈ s.jobs → j.Leased
  /-- A lease id is never the empty string, which the source reads as no lease. -/
  named : ∀ c, c ∈ s.claims → c.leaseId ≠ ""

namespace Inv

theorem empty : Inv Store.empty where
  fencing := Fencing.Inv.init
  leased _ h := absurd h Table.not_mem_empty
  named _ h := absurd h Table.not_mem_empty

variable {s : Store}

theorem running_claim (h : Inv s) {j : Job} (hj : j ∈ s.jobs) (hr : j.status = .running) :
    ∃ c, c ∈ s.claims ∧ c.status = .active ∧ c.jobKey = j.key ∧
      c.fencingToken = j.fencingToken ∧ j.currentLeaseId = some c.leaseId := by
  obtain ⟨l, hl⟩ := Option.ne_none_iff_exists'.mp ((h.leased j hj).mp hr)
  have hget := Table.get?_of_mem hj
  obtain ⟨n, hn, hc⟩ := h.fencing.held j.key l (by simp [book, hget, hl])
  simp only [book, hget, Option.map_some, Option.some.injEq] at hn
  simp only [book, Option.map_eq_some_iff] at hc
  obtain ⟨c, hcget, hc⟩ := hc
  obtain ⟨hcm, rfl⟩ := Table.get?_eq_some.mp hcget
  simp only [leaseOf, Fencing.Lease.mk.injEq, decide_eq_true_eq] at hc
  exact ⟨c, hcm, hc.2.2, hc.1, by rw [hc.2.1, hn], hl⟩

theorem active_job (h : Inv s) {c : ClaimRow} (hc : c ∈ s.claims) (ha : c.status = .active) :
    ∃ j, j ∈ s.jobs ∧ j.key = c.jobKey ∧ j.status = .running ∧
      j.fencingToken = c.fencingToken ∧ j.currentLeaseId = some c.leaseId := by
  have hlease : (book s).lease c.leaseId = some (leaseOf c) := by
    simp [book, Table.get?_of_mem hc]
  have hheld := h.fencing.live c.leaseId (leaseOf c) hlease (by simp [leaseOf, ha])
  obtain ⟨n, hn, hlease'⟩ := h.fencing.held _ _ hheld
  rw [hlease] at hlease'
  cases hj : s.jobs.get? c.jobKey with
  | none => simp [book, leaseOf, hj] at hheld
  | some j =>
    obtain ⟨hjm, hjk⟩ := Table.get?_eq_some.mp hj
    simp only [book, leaseOf, hj, Option.bind_some] at hheld
    simp only [book, leaseOf, hj, Option.map_some, Option.some.injEq] at hn
    simp only [leaseOf, Option.some.injEq, Fencing.Lease.mk.injEq] at hlease'
    refine ⟨j, hjm, hjk, ?_, by rw [hn, hlease'.2.1], hheld⟩
    exact (h.leased j hjm).mpr (by rw [hheld]; exact Option.some_ne_none _)

theorem active_unique (h : Inv s) {c d : ClaimRow} (hc : c ∈ s.claims)
    (hd : d ∈ s.claims) (hca : c.status = .active) (hda : d.status = .active)
    (hk : c.jobKey = d.jobKey) : c = d := by
  obtain ⟨j, hj, hjk, -, -, hjl⟩ := h.active_job hc hca
  obtain ⟨j', hj', hjk', -, -, hjl'⟩ := h.active_job hd hda
  have e : j = j' := Table.eq_of_key hj hj' (by rw [hjk, hjk', hk])
  rw [e, hjl', Option.some.injEq] at hjl
  exact Table.eq_of_key hc hd hjl.symm

theorem holds (h : Inv s) {c : Claim} {row : ClaimRow} {job : Job}
    (hh : c.Holds s row job) : row.jobKey = c.jobKey ∧ row.fencingToken = c.fencingToken ∧
      job.status = .running := by
  have hr : job.status = .running :=
    (h.leased job hh.job_mem).mpr (by rw [hh.lease]; exact Option.some_ne_none _)
  obtain ⟨d, hd, hda, hdk, hdt, hdl⟩ := h.running_claim hh.job_mem hr
  have e : d = row := Table.eq_of_key hd hh.row_mem (by
    rw [hh.lease, Option.some.injEq] at hdl
    rw [hh.leaseId]
    exact hdl.symm)
  subst e
  exact ⟨by rw [hdk, hh.key], by rw [hdt, hh.token], hr⟩

end Inv

structure Advance (s s' : Store) : Prop where
  steps : Fencing.Steps (book s) (book s')
  leased : ∀ j, j ∈ s'.jobs → j.Leased
  named : ∀ c, c ∈ s'.claims → c.leaseId ≠ ""
  /-- The row of a closed job never changes again. -/
  kept : ∀ j, j ∈ s.jobs → j.status.isOpen = false → j ∈ s'.jobs

variable {s s' : Store}

theorem Inv.advance (h : Inv s) (ha : Advance s s') : Inv s' :=
  ⟨h.fencing.steps ha.steps, ha.leased, ha.named⟩

theorem Advance.refl (h : Inv s) : Advance s s :=
  ⟨.refl, h.leased, h.named, fun _ hj _ => hj⟩

theorem Advance.trans {s'' : Store} (h₁ : Advance s s') (h₂ : Advance s' s'') : Advance s s'' :=
  ⟨h₁.steps.trans h₂.steps, h₂.leased, h₂.named, fun j hj ho => h₂.kept j (h₁.kept j hj ho) ho⟩

/-- Leases and tokens only depend on `jobs` and `claims`. -/
theorem Advance.of_eq {s'' : Store} (h : Advance s s') (hj : s''.jobs = s'.jobs)
    (hc : s''.claims = s'.claims) : Advance s s'' := by
  have e : book s'' = book s' := by simp [book, hj, hc]
  exact ⟨e ▸ h.steps, hj ▸ h.leased, hc ▸ h.named, hj ▸ h.kept⟩

section

variable {s s' : Store} {F : Job → Job} {G : ClaimRow → ClaimRow}

theorem leased_mapped (hj : s.jobs.Mapped F s'.jobs) (hF : ∀ j, j ∈ s.jobs → (F j).Leased) :
    ∀ j, j ∈ s'.jobs → j.Leased := by
  intro j hm
  obtain ⟨i, hi, rfl⟩ := hj.mem hm
  exact hF i hi

theorem named_mapped (h : Inv s) (hc : s.claims.Mapped G s'.claims) : ∀ c, c ∈ s'.claims → c.leaseId ≠ "" := by
  intro c hm
  obtain ⟨d, hd, rfl⟩ := hc.mem hm
  rw [hc.key_eq d hd]
  exact h.named d hd

theorem kept_mapped (hj : s.jobs.Mapped F s'.jobs) (hK : ∀ j, j ∈ s.jobs → j.status.isOpen = false → F j = j) :
    ∀ j, j ∈ s.jobs → j.status.isOpen = false → j ∈ s'.jobs := by
  intro j hm ho
  rw [← hK j hm ho]
  exact hj.mem_of hm

/-- UPDATEs of the two tables that free the jobs of `S`, raise their tokens by `d` and end the
active claims on them are a revocation of the book. -/
theorem Advance.revoke (h : Inv s) (hj : s.jobs.Mapped F s'.jobs) (hc : s.claims.Mapped G s'.claims)
    (S : JobKey → Bool) (d : JobKey → Nat)
    (hF : ∀ j, j ∈ s.jobs → (F j).fencingToken = (if S j.key then j.fencingToken + d j.key else j.fencingToken) ∧
        (F j).currentLeaseId = if S j.key then none else j.currentLeaseId)
    (hG : ∀ c, c ∈ s.claims → leaseOf (G c) = if S c.jobKey then { leaseOf c with live := false } else leaseOf c)
    (hL : ∀ j, j ∈ s.jobs → (F j).Leased)
    (hK : ∀ j, j ∈ s.jobs → j.status.isOpen = false → F j = j) : Advance s s' := by
  refine ⟨?_, leased_mapped hj hL, named_mapped h hc, kept_mapped hj hK⟩
  have e : book s' = (book s).revoke S d := by
    ext1
    · funext k
      simp only [book, Fencing.Book.revoke, hj.get?]
      cases hk : s.jobs.get? k with
      | none => simp
      | some j =>
        obtain ⟨hjm, rfl⟩ := Table.get?_eq_some.mp hk
        simp only [Option.map_some, (hF j hjm).1]
        split <;> rfl
    · funext k
      simp only [book, Fencing.Book.revoke, hj.get?]
      cases hk : s.jobs.get? k with
      | none => simp
      | some j =>
        obtain ⟨hjm, rfl⟩ := Table.get?_eq_some.mp hk
        simp only [Option.map_some, Option.bind_some, (hF j hjm).2]
    · funext l
      simp only [book, Fencing.Book.revoke, hc.get?]
      cases hk : s.claims.get? l with
      | none => rfl
      | some c =>
        simp only [Option.map_some, hG c (Table.mem_of_get? hk)]
        rfl
  rw [e]
  exact .single (.revoke S d)

theorem Advance.same (h : Inv s) (hj : s.jobs.Mapped F s'.jobs) (hc : s.claims.Mapped G s'.claims)
    (hF : ∀ j, j ∈ s.jobs → (F j).fencingToken = j.fencingToken ∧ (F j).currentLeaseId = j.currentLeaseId)
    (hG : ∀ c, c ∈ s.claims → leaseOf (G c) = leaseOf c) (hL : ∀ j, j ∈ s.jobs → (F j).Leased)
    (hK : ∀ j, j ∈ s.jobs → j.status.isOpen = false → F j = j) : Advance s s' := by
  refine ⟨?_, leased_mapped hj hL, named_mapped h hc, kept_mapped hj hK⟩
  have e : book s' = book s := by
    ext1
    · funext k
      simp only [book, hj.get?]
      cases hk : s.jobs.get? k with
      | none => rfl
      | some j => simp [hF j (Table.mem_of_get? hk)]
    · funext k
      simp only [book, hj.get?]
      cases hk : s.jobs.get? k with
      | none => rfl
      | some j => simp [hF j (Table.mem_of_get? hk)]
    · funext l
      simp only [book, hc.get?]
      cases hk : s.claims.get? l with
      | none => rfl
      | some c => simp [hG c (Table.mem_of_get? hk)]
  rw [e]

end

theorem advance_create (h : Inv s) {j : Job} (hj : s.jobs.insert? j = some s'.jobs)
    (hc : s'.claims = s.claims) (htok : j.fencingToken = 0) (hlease : j.currentLeaseId = none)
    (hs : j.status ≠ .running) : Advance s s' := by
  have hfresh := Table.insert?_fresh hj
  have e : book s' = (book s).create j.key := by
    ext1
    · funext k
      simp only [book, Fencing.Book.create, Table.get?_of_insert? hj, Function.update_apply, eq_comm (a := k)]
      split
      · simp [htok]
      · rfl
    · funext k
      simp only [book, Fencing.Book.create, Table.get?_of_insert? hj]
      split
      · rename_i hk
        simp [← hk, hlease, hfresh]
      · rfl
    · simp only [book, Fencing.Book.create, hc]
  refine ⟨?_, ?_, hc ▸ h.named, fun i hi _ => (Table.mem_of_insert? hj).mpr (.inl hi)⟩
  · rw [e]
    exact .single (.create (by simp [book, hfresh]))
  · intro i hi
    rcases (Table.mem_of_insert? hj).mp hi with hi | rfl
    · exact h.leased i hi
    · exact Job.leased_free hs hlease

/-- `ON CONFLICT DO NOTHING` creates the key or leaves the store. -/
theorem advance_insertIgnore (h : Inv s) {j : Job}
    (hj : s'.jobs = s.jobs.insertIgnore j) (hc : s'.claims = s.claims) (htok : j.fencingToken = 0)
    (hlease : j.currentLeaseId = none) (hs : j.status ≠ .running) : Advance s s' := by
  unfold Table.insertIgnore at hj
  cases hi : s.jobs.insert? j with
  | none =>
    rw [hi, Option.getD_none] at hj
    exact (Advance.refl h).of_eq hj hc
  | some jobs =>
    rw [hi, Option.getD_some] at hj
    exact advance_create h (hj ▸ hi) hc htok hlease hs

structure LeaseDiscipline (s : Store) : Prop where
  running_iff : ∀ j, j ∈ s.jobs → (j.status = .running ↔ ∃! c, c ∈ s.claims ∧ c.jobKey = j.key ∧ c.status = .active)
  owner : ∀ j c, j ∈ s.jobs → c ∈ s.claims → c.jobKey = j.key → c.status = .active →
    j.currentLeaseId = some c.leaseId ∧ j.fencingToken = c.fencingToken
  idle : ∀ j, j ∈ s.jobs → j.status ≠ .running → j.currentLeaseId = none
  token_bound : ∀ c, c ∈ s.claims → ∃ j, j ∈ s.jobs ∧ j.key = c.jobKey ∧ c.fencingToken ≤ j.fencingToken
  token_unique : ∀ c d, c ∈ s.claims → d ∈ s.claims → c.jobKey = d.jobKey → c.fencingToken = d.fencingToken → c = d

theorem Inv.leaseDiscipline (h : Inv s) : LeaseDiscipline s where
  running_iff j hj := by
    constructor
    · intro hr
      obtain ⟨c, hc, hca, hck, -, -⟩ := h.running_claim hj hr
      refine ⟨c, ⟨hc, hck, hca⟩, ?_⟩
      rintro d ⟨hd, hdk, hda⟩
      exact h.active_unique hd hc hda hca (hdk.trans hck.symm)
    · rintro ⟨c, ⟨hc, hck, hca⟩, -⟩
      obtain ⟨i, hi, hik, hir, -, -⟩ := h.active_job hc hca
      rw [Table.eq_of_key hj hi (hck.symm.trans hik.symm)]
      exact hir
  owner j c hj hc hk ha := by
    obtain ⟨i, hi, hik, -, hit, hil⟩ := h.active_job hc ha
    rw [Table.eq_of_key hj hi (hk.symm.trans hik.symm)]
    exact ⟨hil, hit⟩
  idle j hj hs := (h.leased j hj).free hs
  token_bound c hc := by
    obtain ⟨n, hn, hle⟩ := h.fencing.bound c.leaseId (leaseOf c) (by
      simp [book, Table.get?_of_mem hc])
    simp only [book, leaseOf, Option.map_eq_some_iff] at hn hle
    obtain ⟨j, hj, rfl⟩ := hn
    obtain ⟨hjm, hjk⟩ := Table.get?_eq_some.mp hj
    exact ⟨j, hjm, hjk, hle⟩
  token_unique c d hc hd hk ht := by
    refine Table.eq_of_key hc hd (h.fencing.unique _ _ (leaseOf c) (leaseOf d) ?_ ?_ hk ht)
    · simp [book, Table.get?_of_mem hc]
    · simp [book, Table.get?_of_mem hd]

/-- No job disappears and none of the fencing tokens gets smaller. -/
def TokensGrow (s s' : Store) : Prop :=
  ∀ j, j ∈ s.jobs → ∃ j', j' ∈ s'.jobs ∧ j'.key = j.key ∧ j.fencingToken ≤ j'.fencingToken

theorem Advance.tokensGrow (h : Advance s s') : TokensGrow s s' := by
  intro j hj
  obtain ⟨n, hn, hle⟩ := h.steps.le j.key j.fencingToken (by simp [book, Table.get?_of_mem hj])
  simp only [book, Option.map_eq_some_iff] at hn
  obtain ⟨j', hj', rfl⟩ := hn
  obtain ⟨hjm, hjk⟩ := Table.get?_eq_some.mp hj'
  exact ⟨j', hjm, hjk, hle⟩

theorem Inv.insertClaim (h : Inv s) {row : Job} (hrow : row ∈ s.jobs) {c : ClaimRow}
    (hk : c.jobKey = row.key) (ht : c.fencingToken = row.fencingToken + 1)
    (hfresh : s.claims.get? c.leaseId = none) : s.insertClaim c ≠ none := by
  unfold Store.insertClaim
  split
  · rename_i hany
    obtain ⟨d, hd, hdc⟩ := Table.any_eq_true.mp hany
    simp only [Bool.and_eq_true, decide_eq_true_eq] at hdc
    have hget : s.jobs.get? row.key = some row := Table.get?_of_mem hrow
    refine absurd (hdc.2.trans ht) (h.fencing.next_token_new (k := row.key) (l := d.leaseId)
      (c := leaseOf d) ?_ ?_ (hdc.1.trans hk))
    · simp [book, hget]
    · simp [book, Table.get?_of_mem hd]
  · obtain ⟨t, ht⟩ := Table.insert?_isSome hfresh
    simp [ht]

end Control
end DarkFactory
