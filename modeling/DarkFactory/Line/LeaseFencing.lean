import DarkFactory.Line.ResourceLease

/-!
# DarkFactory.Line.LeaseFencing

What the leases of a resource are worth over a history of calls at UTC times.

* `tokens_increase` — along a history the tokens of a resource never decrease, and grow with every
  grant that is not a refresh.
* `Fenced` — at each time one pair of holder and token at most is held; every other one is
  refused; another holder gets the lease exactly if there is none that is active and unexpired.
-/

namespace DarkFactory
namespace Line
namespace ResourceLeaseCoordinator

def Live (now : DateTime) (row : ResourceLease) : Prop :=
  row.status = .active ∧ now.lt row.expiresAt = true

def AllUtc (db : Leases) : Prop := ∀ r, r ∈ db → r.expiresAt.IsUtc

section

variable {backend : Backend} {db : Leases}

theorem expiredBy_utc {a b : DateTime} (ha : a.IsUtc) (hb : b.IsUtc) : backend.expiredBy a b = a.le b := by
  cases backend with
  | sqlite => exact DateTime.textLe_utc ha hb
  | postgres => rfl

theorem unexpiredBy_utc {a b : DateTime} (ha : a.IsUtc) (hb : b.IsUtc) : backend.unexpiredBy a b = b.lt a := by
  cases backend with
  | sqlite =>
    rw [DateTime.lt_eq_not_le, ← DateTime.textLe_utc ha hb]
    rfl
  | postgres => rfl

variable {now : DateTime} {resourceId holderId : String} {lease : ResourceLease}

theorem isLive_iff {row : ResourceLease} (hr : row.expiresAt.IsUtc)
    (hn : now.IsUtc) : isLive backend now row = true ↔ Live now row := by
  rw [isLive, Bool.and_eq_true, decide_eq_true_eq, unexpiredBy_utc hr hn]
  rfl

theorem get?_set {f : ResourceLease → ResourceLease} {hf : ∀ r, (f r).resourceId = r.resourceId} (k : String) :
    (set resourceId f hf db).get? k = (db.get? k).map fun r => if r.resourceId = resourceId then f r else r := by
  have h := Table.get?_update (t := db) (p := fun r => decide (r.resourceId = resourceId)) (f := f)
    (h := hf) k
  simp only [decide_eq_true_eq] at h
  exact h

/-- An `acquire` refreshes the live lease of its holder, or takes over one that is not live, or makes
the first. -/
theorem acquire_ok {resourceType : String} {ttlS : Int} {metadata : String} {db' : Leases}
    (h : acquire backend resourceId resourceType holderId ttlS metadata now db = (.ok lease, db')) :
    lease.resourceId = resourceId ∧
      (∃ row', db'.get? resourceId = some row' ∧ row'.fencingToken = lease.fencingToken) ∧
      ((∃ row, db.get? resourceId = some row ∧ isLive backend now row = true ∧
          row.holderId = holderId ∧ lease.fencingToken = row.fencingToken) ∨
        (∃ row, db.get? resourceId = some row ∧ isLive backend now row = false ∧
          lease.fencingToken = row.fencingToken + 1) ∨
        db.get? resourceId = none) := by
  unfold acquire at h
  simp only at h
  split at h
  · rename_i row hrow
    obtain ⟨-, hk⟩ := Table.get?_eq_some.mp hrow
    split at h
    · rename_i hlive
      split at h
      · rename_i hh
        cases h
        refine ⟨rfl, ⟨refreshed now (now.addSeconds ttlS) metadata row, ?_, rfl⟩, .inl ⟨row, hrow, hlive, hh, rfl⟩⟩
        rw [get?_set, hrow, Option.map_some, if_pos hk]
      · cases h
    · rename_i hlive
      cases h
      refine ⟨rfl, ⟨reclaimed resourceType holderId (row.fencingToken + 1) now
        (now.addSeconds ttlS) metadata row, ?_, rfl⟩,
        .inr (.inl ⟨row, hrow, Bool.eq_false_iff.mpr hlive, rfl⟩)⟩
      rw [get?_set, hrow, Option.map_some, if_pos hk]
  · rename_i hnone
    cases h
    refine ⟨rfl, ⟨_, ?_, rfl⟩, .inr (.inr hnone)⟩
    rw [Table.get?_insertIgnore]
    simp [hnone]

/-- An `acquire` fails exactly on the live lease of another holder. -/
theorem acquire_succeeds_iff {resourceType : String} {ttlS : Int} {metadata : String} :
    (∃ lease, (acquire backend resourceId resourceType holderId ttlS metadata now db).1 = .ok lease) ↔
      ∀ row, db.get? resourceId = some row → isLive backend now row = true → row.holderId = holderId := by
  unfold acquire
  simp only
  split
  · rename_i row hrow
    rw [hrow]
    split
    · rename_i hlive
      split
      · rename_i hh
        exact iff_of_true ⟨_, rfl⟩ fun r hr _ => by cases hr; exact hh
      · rename_i hh
        refine iff_of_false ?_ fun h => hh (h row rfl hlive)
        rintro ⟨_, h⟩
        cases h
    · rename_i hlive
      exact iff_of_true ⟨_, rfl⟩ fun r hr hl => by cases hr; exact absurd hl hlive
  · rename_i hnone
    rw [hnone]
    exact iff_of_true ⟨_, rfl⟩ fun _ h => by cases h

theorem isHeldBy_iff {token : Int} :
    isHeldBy backend resourceId holderId (some token) now db = true ↔
      ∃ row, db.get? resourceId = some row ∧ row.holderId = holderId ∧ row.fencingToken = token ∧
        row.status = .active ∧ backend.expiredBy row.expiresAt now = false := by
  unfold isHeldBy
  split
  · rename_i hnone
    rw [hnone]
    refine iff_of_false (by decide) ?_
    rintro ⟨_, h, -⟩
    cases h
  · rename_i row hrow
    rw [hrow]
    split
    · rename_i hno
      refine iff_of_false (by decide) ?_
      rintro ⟨r, hr, hh, -, hs, he⟩
      cases hr
      rcases hno with h | h | h
      · exact h hh
      · exact h hs
      · rw [he] at h
        cases h
    · rename_i hyes
      rw [not_or, not_or, not_not, not_not, Bool.not_eq_true] at hyes
      rw [decide_eq_true_eq]
      constructor
      · intro ht
        exact ⟨row, rfl, hyes.1, ht, hyes.2.1, hyes.2.2⟩
      · rintro ⟨r, hr, -, ht, -⟩
        cases hr
        exact ht

theorem owns_iff {row : ResourceLease} :
    owns backend lease now row = true ↔ row.holderId = lease.holderId ∧
      row.fencingToken = lease.fencingToken ∧ row.status = .active ∧
        backend.expiredBy row.expiresAt now = false := by
  simp only [owns, Bool.and_eq_true, decide_eq_true_eq, Bool.not_eq_true', and_assoc]

def AtLeast (resourceId : String) (token : Int) (db : Leases) : Prop :=
  ∃ row, db.get? resourceId = some row ∧ token ≤ row.fencingToken

theorem AtLeast.set {k : String} {token : Int} (h : AtLeast k token db) {resourceId : String}
    {f : ResourceLease → ResourceLease} (hf : ∀ r, (f r).resourceId = r.resourceId)
    (hle : ∀ row, db.get? resourceId = some row → row.fencingToken ≤ (f row).fencingToken) :
    AtLeast k token (set resourceId f hf db) := by
  obtain ⟨row, hrow, ht⟩ := h
  refine ⟨if row.resourceId = resourceId then f row else row, ?_, ?_⟩
  · rw [get?_set, hrow]
    rfl
  · split
    · rename_i hid
      obtain ⟨hm, -⟩ := Table.get?_eq_some.mp hrow
      exact ht.trans (hle row (hid ▸ Table.get?_of_mem hm))
    · exact ht

theorem AtLeast.step {k : String} {token : Int} (h : AtLeast k token db) (call : Call) :
    AtLeast k token (step backend db call) := by
  cases call with
  | acquire resourceId resourceType holderId ttlS metadata now =>
    simp only [ResourceLeaseCoordinator.step, acquire]
    split
    · rename_i row hrow
      split
      · split
        · exact h.set (fun r => refreshed_id r _ _ _) fun r _ => le_refl _
        · exact h
      · refine h.set (fun r => reclaimed_id r _ _ _ _ _ _) fun r hr => ?_
        rw [hrow] at hr
        cases hr
        show row.fencingToken ≤ row.fencingToken + 1
        omega
    · obtain ⟨row, hrow, ht⟩ := h
      refine ⟨row, ?_, ht⟩
      rw [Table.get?_insertIgnore, hrow]
      simp
  | heartbeat lease ttlS now =>
    simp only [ResourceLeaseCoordinator.step, heartbeat]
    split
    · exact h.set (fun r => renewed_id r _ _) fun r _ => le_refl _
    · exact h
  | release lease now =>
    simp only [ResourceLeaseCoordinator.step, release]
    split
    · exact h.set (fun r => ended_id r _) fun r _ => le_refl _
    · exact h

/-- The lease a call returns, if it is an `acquire` that returns. -/
def acquired (backend : Backend) (db : Leases) : Call → Option ResourceLease
  | .acquire resourceId resourceType holderId ttlS metadata now =>
    (acquire backend resourceId resourceType holderId ttlS metadata now db).1.toOption
  | _ => none

def LiveAt (db : Leases) (resourceId : String) (now : DateTime) : Prop :=
  ∃ row, db.get? resourceId = some row ∧ Live now row

theorem acquired_eq_some {call : Call} (h : acquired backend db call = some lease) :
    ∃ resourceId resourceType holderId ttlS metadata now,
      call = .acquire resourceId resourceType holderId ttlS metadata now ∧
      acquire backend resourceId resourceType holderId ttlS metadata now db =
        (.ok lease, step backend db call) := by
  cases call with
  | acquire resourceId resourceType holderId ttlS metadata now =>
    refine ⟨_, _, _, _, _, _, rfl, ?_⟩
    simp only [acquired] at h
    have hstep : step backend db (.acquire resourceId resourceType holderId ttlS metadata now) =
      (acquire backend resourceId resourceType holderId ttlS metadata now db).2 := rfl
    rw [hstep]
    cases ha : acquire backend resourceId resourceType holderId ttlS metadata now db with
    | mk answer db' =>
      rw [ha] at h
      cases answer with
      | error e => cases h
      | ok l =>
        cases h
        rfl
  | heartbeat lease ttlS now => cases h
  | release lease now => cases h

/-- After an `acquire` the row carries the token it has returned. -/
theorem acquired_atLeast {call : Call} (h : acquired backend db call = some lease) :
    AtLeast lease.resourceId lease.fencingToken (step backend db call) := by
  obtain ⟨_, _, _, _, _, _, rfl, ha⟩ := acquired_eq_some h
  obtain ⟨rfl, ⟨row', hrow', ht⟩, -⟩ := acquire_ok ha
  exact ⟨row', hrow', ht.ge⟩

/-- An `acquire` returns no smaller token than the row's, and a greater one unless the row is live. -/
theorem acquired_token (hdb : AllUtc db) {call : Call} (hn : call.now.IsUtc)
    {lease : ResourceLease} (h : acquired backend db call = some lease) {token : Int}
    (hle : AtLeast lease.resourceId token db) :
    token ≤ lease.fencingToken ∧ (¬ LiveAt db lease.resourceId call.now → token < lease.fencingToken) := by
  obtain ⟨resourceId, _, _, _, _, now, rfl, ha⟩ := acquired_eq_some h
  obtain ⟨row, hrow, ht⟩ := hle
  obtain ⟨rfl, -, ⟨r, hr, hlive, -, he⟩ | ⟨r, hr, -, he⟩ | hnone⟩ := acquire_ok ha
  · rw [hrow] at hr
    cases hr
    have hutc := hdb row (Table.get?_eq_some.mp hrow).1
    exact ⟨he ▸ ht, fun hno => absurd ⟨row, hrow, (isLive_iff hutc hn).mp hlive⟩ hno⟩
  · rw [hrow] at hr
    cases hr
    omega
  · rw [hrow] at hnone
    cases hnone

theorem AllUtc.set (h : AllUtc db) {resourceId : String} {f : ResourceLease → ResourceLease}
    (hf : ∀ r, (f r).resourceId = r.resourceId) (hutc : ∀ r, r ∈ db → (f r).expiresAt.IsUtc) :
    AllUtc (set resourceId f hf db) := by
  intro r hr
  rcases Table.mem_update_cases (h := hf) hr with ⟨hr, -⟩ | ⟨r₀, hr₀, -, rfl⟩
  · exact h r hr
  · exact hutc r₀ hr₀

theorem AllUtc.step (h : AllUtc db) {call : Call} (hn : call.now.IsUtc) : AllUtc (step backend db call) := by
  cases call with
  | acquire resourceId resourceType holderId ttlS metadata now =>
    have hexp : (now.addSeconds ttlS).IsUtc := hn.addSeconds ttlS
    simp only [ResourceLeaseCoordinator.step, acquire]
    split
    · split
      · split
        · exact h.set (fun r => refreshed_id r _ _ _) fun _ _ => hexp
        · exact h
      · exact h.set (fun r => reclaimed_id r _ _ _ _ _ _) fun _ _ => hexp
    · intro r hr
      rcases Table.mem_insertIgnore.mp hr with hr | ⟨rfl, -⟩
      · exact h r hr
      · exact hexp
  | heartbeat lease ttlS now =>
    simp only [ResourceLeaseCoordinator.step, heartbeat]
    split
    · exact h.set (fun r => renewed_id r _ _) fun _ _ => hn.addSeconds ttlS
    · exact h
  | release lease now =>
    simp only [ResourceLeaseCoordinator.step, release]
    split
    · exact h.set (fun r => ended_id r _) fun _ _ => hn
    · exact h

/-- What two calls of a history say about the tokens: `m` comes before `m'`. -/
def Ordered (backend : Backend) (m m' : Move Leases Call) : Prop :=
  ∀ lease lease', acquired backend m.pre m.act = some lease →
    acquired backend m'.pre m'.act = some lease' → lease.resourceId = lease'.resourceId →
    lease.fencingToken ≤ lease'.fencingToken ∧
      (¬ LiveAt m'.pre lease'.resourceId m'.act.now → lease.fencingToken < lease'.fencingToken)

theorem tokens_increase (hdb : AllUtc db) {calls : List Call} (hcalls : ∀ c ∈ calls, c.now.IsUtc) :
    (Runs.moves (step backend) db calls).Pairwise (Ordered backend) := by
  induction calls generalizing db with
  | nil => exact .nil
  | cons call calls ih =>
    rw [List.forall_mem_cons] at hcalls
    have hpost : AllUtc (step backend db call) := hdb.step hcalls.1
    refine .cons (fun m' hm' => ?_) (ih hpost hcalls.2)
    intro lease lease' hl hl' hid
    -- from the first of the two on the row carries at least its token
    have hinv := Runs.moves_invariant_of
      (I := fun d : Leases => AllUtc d ∧ AtLeast lease.resourceId lease.fencingToken d)
      (C := fun _ c => c.now.IsUtc) (fun d c hI hc => ⟨hI.1.step hc, hI.2.step c⟩)
      ⟨hpost, acquired_atLeast hl⟩ (fun m hm => hcalls.2 m.act (Runs.act_of_mem hm)) m' hm'
    exact acquired_token hinv.1 (hcalls.2 m'.act (Runs.act_of_mem hm')) hl' (hid ▸ hinv.2)

structure Fenced (backend : Backend) (db : Leases) : Prop where
  held_iff : ∀ resourceId holderId token now, now.IsUtc →
    (isHeldBy backend resourceId holderId (some token) now db = true ↔
      ∃ row, db.get? resourceId = some row ∧ Live now row ∧ row.holderId = holderId ∧ row.fencingToken = token)
  held_unique : ∀ resourceId holderId holderId' token token' now,
    isHeldBy backend resourceId holderId (some token) now db = true →
    isHeldBy backend resourceId holderId' (some token') now db = true →
    holderId = holderId' ∧ token = token'
  heartbeat_lost : ∀ lease ttlS now,
    isHeldBy backend lease.resourceId lease.holderId (some lease.fencingToken) now db = false →
    heartbeat backend lease ttlS now db =
      (.error (.leaseLost lease.resourceId lease.holderId lease.fencingToken), db)
  release_other : ∀ lease now, (∀ row, db.get? lease.resourceId = some row →
      row.status = .active → row.holderId = lease.holderId →
      row.fencingToken ≠ lease.fencingToken) →
    release lease now db = (false, db)
  acquire_iff : ∀ resourceId resourceType holderId ttlS metadata now, now.IsUtc →
    (∀ row, db.get? resourceId = some row → Live now row → row.holderId ≠ holderId) →
    ((∃ lease, (acquire backend resourceId resourceType holderId ttlS metadata now db).1 =
      .ok lease) ↔ ¬ LiveAt db resourceId now)

theorem AllUtc.fenced (hdb : AllUtc db) : Fenced backend db where
  held_iff resourceId holderId token now hn := by
    rw [isHeldBy_iff]
    refine exists_congr fun row => and_congr_right fun hrow => ?_
    have hutc := hdb row (Table.get?_eq_some.mp hrow).1
    rw [expiredBy_utc hutc hn, Live, DateTime.lt_eq_not_le, Bool.not_eq_true']
    constructor
    · rintro ⟨hh, ht, hs, he⟩
      exact ⟨⟨hs, he⟩, hh, ht⟩
    · rintro ⟨⟨hs, he⟩, hh, ht⟩
      exact ⟨hh, ht, hs, he⟩
  held_unique resourceId holderId holderId' token token' now h h' := by
    obtain ⟨row, hrow, rfl, rfl, -⟩ := isHeldBy_iff.mp h
    obtain ⟨row', hrow', rfl, rfl, -⟩ := isHeldBy_iff.mp h'
    rw [hrow] at hrow'
    cases hrow'
    exact ⟨rfl, rfl⟩
  heartbeat_lost lease ttlS now h := by
    have hno : (db.get? lease.resourceId).any (owns backend lease now) = false := by
      refine Bool.eq_false_iff.mpr fun hany => ?_
      rw [Option.any_eq_true] at hany
      obtain ⟨row, hrow, ho⟩ := hany
      rw [isHeldBy_iff.mpr ⟨row, hrow, owns_iff.mp ho⟩] at h
      cases h
    unfold heartbeat
    rw [hno]
    rfl
  release_other lease now h := by
    have hno : (db.get? lease.resourceId).any (releasable lease) = false := by
      refine Bool.eq_false_iff.mpr fun hany => ?_
      rw [Option.any_eq_true] at hany
      obtain ⟨row, hrow, ho⟩ := hany
      simp only [releasable, Bool.and_eq_true, decide_eq_true_eq] at ho
      exact h row hrow ho.2 ho.1.1 ho.1.2
    unfold release
    rw [hno]
    rfl
  acquire_iff resourceId resourceType holderId ttlS metadata now hn hother := by
    rw [acquire_succeeds_iff]
    constructor
    · rintro h ⟨row, hrow, hlive⟩
      have hutc := hdb row (Table.get?_eq_some.mp hrow).1
      exact hother row hrow hlive (h row hrow ((isLive_iff hutc hn).mpr hlive))
    · intro hno row hrow hlive
      have hutc := hdb row (Table.get?_eq_some.mp hrow).1
      exact absurd ⟨row, hrow, (isLive_iff hutc hn).mp hlive⟩ hno

theorem leases_fenced (hdb : AllUtc db) {calls : List Call} (hcalls : ∀ c ∈ calls, c.now.IsUtc) :
    (Runs.moves (step backend) db calls).Pairwise (Ordered backend) ∧
      Fenced backend (Runs.run (step backend) db calls) := by
  refine ⟨tokens_increase hdb hcalls, AllUtc.fenced ?_⟩
  exact Runs.run_invariant_of (I := AllUtc) (C := fun _ c => c.now.IsUtc)
    (fun _ _ hI hc => hI.step hc) hdb fun m hm => hcalls m.act (Runs.act_of_mem hm)

/-- Whatever the clocks say: a token below one that was granted holds nothing any more. -/
theorem superseded_not_held {lease : ResourceLease} {call : Call} (hl : acquired backend db call = some lease)
    {token : Int} (hlt : token < lease.fencingToken) (holderId : String) (now : DateTime) (calls : List Call) :
    isHeldBy backend lease.resourceId holderId (some token) now
      (Runs.run (step backend) (step backend db call) calls) = false := by
  refine Bool.eq_false_iff.mpr fun h => ?_
  obtain ⟨row, hrow, -, ht, -⟩ := isHeldBy_iff.mp h
  obtain ⟨row', hrow', hle⟩ := Runs.run_invariant (I := AtLeast lease.resourceId lease.fencingToken)
    (fun _ c hI => hI.step c) (acquired_atLeast hl) calls
  rw [hrow] at hrow'
  cases hrow'
  omega

end

/-! The second run waits until the lease of the first has expired. -/

def leaseClock (seconds : Int) : DateTime := ⟨seconds * DateTime.second, some 0⟩

def takeover : List Call :=
  [.acquire "repo:app:main" "repo" "run-1" 180 "{}" (leaseClock 0),
    .acquire "repo:app:main" "repo" "run-2" 180 "{}" (leaseClock 100),
    .acquire "repo:app:main" "repo" "run-2" 180 "{}" (leaseClock 180)]

theorem leases_fenced_takeover :
    (Runs.moves (step .sqlite) Table.empty takeover).Pairwise (Ordered .sqlite) ∧
      Fenced .sqlite (Runs.run (step .sqlite) Table.empty takeover) :=
  leases_fenced (fun _ h => absurd h Table.not_mem_empty) (by decide)

theorem superseded_not_held_takeover :
    ∃ lease, acquired .sqlite (Runs.run (step .sqlite) Table.empty (takeover.take 2)) takeover[2] = some lease ∧
      isHeldBy .sqlite lease.resourceId "run-1" (some 1) (leaseClock 200)
        (Runs.run (step .sqlite) Table.empty takeover) = false := by
  have hsome : (acquired .sqlite (Runs.run (step .sqlite) Table.empty (takeover.take 2)) takeover[2]).any
      (fun lease => 1 < lease.fencingToken) = true := by decide +kernel
  obtain ⟨lease, hl, htoken⟩ := (Option.any_eq_true _ _).mp hsome
  exact ⟨lease, hl, superseded_not_held hl (of_decide_eq_true htoken) "run-1" (leaseClock 200) []⟩

/-- It gets the token 2, and the first run holds nothing. -/
example : isHeldBy .sqlite "repo:app:main" "run-2" (some 2) (leaseClock 200)
    (Runs.run (step .sqlite) Table.empty takeover) = true := by decide +kernel

end ResourceLeaseCoordinator
end Line
end DarkFactory
