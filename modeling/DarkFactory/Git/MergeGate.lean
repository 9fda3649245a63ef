import DarkFactory.Git.CiChecks

/-!
# DarkFactory.Git.MergeGate

What a passing verdict of the CI gate rests on.

* `Gated` — the verdicts rest on the answers of one poll, and the waiting ends within the timeout.
-/

namespace DarkFactory
namespace Git
namespace CiChecks

open Python (JsonValue)

section

variable (py : Host)

/-- The call printed a list of checks, at least one, all of them settled without failure. -/
def AllSettled (answer : Answer) : Prop :=
  ∃ r checks, answer = .ok r ∧ py.json r.stdout = some (.arr checks) ∧ checks ≠ [] ∧
    ∀ check ∈ checks, ∃ fields bucket, check = .obj fields ∧ JsonValue.field fields "bucket" = some (.str bucket) ∧
      bucket ∈ SETTLED_BUCKETS

/-- The call printed nothing or an empty list, and succeeded or says that there are no checks. -/
def NoneReported (answer : Answer) : Prop :=
  ∃ r, answer = .ok r ∧ (Text.strip r.stdout = "" ∨ py.json r.stdout = some (.arr [])) ∧
    (r.returncode = 0 ∨ saysNoChecks py r.stdout r.stderr = true)

/-- A failed call whose output is neither empty nor JSON, and that speaks of no checks. -/
def Garbled (answer : Answer) : Prop :=
  ∃ r, answer = .ok r ∧ r.returncode ≠ 0 ∧ Text.strip r.stdout ≠ "" ∧ py.json r.stdout = none ∧
    saysNoChecks py r.stdout r.stderr = true

theorem objects_of_length {xs : List JsonValue} (h : (xs.filterMap objectOf).length = xs.length) :
    ∀ x ∈ xs, ∃ fields, x = .obj fields ∧ fields ∈ xs.filterMap objectOf := by
  induction xs with
  | nil => exact List.forall_mem_nil _
  | cons x xs ih =>
    have hle := List.length_filterMap_le objectOf xs
    rw [List.filterMap_cons] at h ⊢
    split at h
    · rw [List.length_cons] at h
      omega
    · rename_i fields hobject
      rw [List.length_cons, List.length_cons] at h
      have hx : x = .obj fields := by
        unfold objectOf at hobject
        split at hobject
        · rw [Option.some.inj hobject]
        · cases hobject
      rw [List.forall_mem_cons]
      refine ⟨⟨fields, hx, List.mem_cons_self⟩, ?_⟩
      intro y hy
      obtain ⟨fields', hfields', hmem⟩ := ih (Nat.succ.inj h) y hy
      exact ⟨fields', hfields', List.mem_cons_of_mem _ hmem⟩

theorem pendingOf_nil {checks : List Fields} (h : pendingOf checks = .ok []) :
    ∀ check ∈ checks, bucketPending check = .ok false := by
  induction checks with
  | nil => exact List.forall_mem_nil _
  | cons check checks ih =>
    rw [pendingOf] at h
    cases hcheck : bucketPending check with
    | error e => rw [hcheck] at h; cases h
    | ok isPending =>
      cases hrest : pendingOf checks with
      | error e => rw [hcheck, hrest] at h; cases h
      | ok pending =>
        rw [hcheck, hrest] at h
        cases isPending with
        | true => cases h
        | false =>
          cases h
          rw [List.forall_mem_cons]
          exact ⟨hcheck, ih hrest⟩

theorem settled_of_not_pending {check : Fields} (h : bucketPending check = .ok false) :
    ∃ bucket, JsonValue.field check "bucket" = some (.str bucket) ∧ bucket ∈ SETTLED_BUCKETS := by
  unfold bucketPending at h
  split at h
  · rename_i bucket hbucket
    cases hsettled : decide (bucket ∉ SETTLED_BUCKETS) with
    | true => rw [hsettled] at h; cases h
    | false => exact ⟨bucket, hbucket, not_not.mp (of_decide_eq_false hsettled)⟩
  all_goals cases h

theorem classifyChecks_green {decoded : JsonValue} {snapshot : CheckSnapshot}
    (h : classifyChecks decoded = .ok snapshot) (hgreen : snapshot.state = .green) :
    ∃ checks, decoded = .arr checks ∧ checks ≠ [] ∧ ∀ check ∈ checks, ∃ fields bucket, check = .obj fields ∧
      JsonValue.field fields "bucket" = some (.str bucket) ∧ bucket ∈ SETTLED_BUCKETS := by
  unfold classifyChecks at h
  split at h
  · cases h
    cases hgreen
  · rename_i checks hne
    dsimp only at h
    split at h
    · cases h
      cases hgreen
    · rename_i hlength
      split at h
      · cases h
        cases hgreen
      · cases hpending : pendingOf (checks.filterMap objectOf) with
        | error e => rw [hpending] at h; cases h
        | ok pending =>
          rw [hpending] at h
          simp only [bind, Except.bind] at h
          split at h
          · cases h
            cases hgreen
          · rename_i hempty
            rw [not_not.mp hempty] at hpending
            refine ⟨checks, rfl, fun h => hne h, ?_⟩
            intro check hcheck
            obtain ⟨fields, hfields, hmem⟩ := objects_of_length (not_not.mp hlength) check hcheck
            obtain ⟨bucket, hbucket, hsettled⟩ := settled_of_not_pending (pendingOf_nil hpending fields hmem)
            exact ⟨fields, bucket, hfields, hbucket, hsettled⟩
  · cases h
    cases hgreen

theorem classifyChecks_noChecks {decoded : JsonValue} {snapshot : CheckSnapshot}
    (h : classifyChecks decoded = .ok snapshot) (hnone : snapshot.state = .noChecks) : decoded = .arr [] := by
  unfold classifyChecks at h
  split at h
  · rfl
  · rename_i checks hne
    dsimp only at h
    split at h
    · cases h
      cases hnone
    · split at h
      · cases h
        cases hnone
      · cases hpending : pendingOf (checks.filterMap objectOf) with
        | error e => rw [hpending] at h; cases h
        | ok pending =>
          rw [hpending] at h
          simp only [bind, Except.bind] at h
          split at h <;> cases h <;> cases hnone
  · cases h
    cases hnone

theorem classifyChecks_failed {decoded : JsonValue} {snapshot : CheckSnapshot}
    (h : classifyChecks decoded = .ok snapshot) (hfailed : snapshot.state = .failed) :
    ∃ checks, decoded = .arr checks ∧ snapshot.failing = (checks.filterMap objectOf).filter bucketFails := by
  unfold classifyChecks at h
  split at h
  · cases h
    cases hfailed
  · rename_i checks hne
    dsimp only at h
    split at h
    · cases h
      cases hfailed
    · split at h
      · cases h
        exact ⟨checks, rfl, rfl⟩
      · cases hpending : pendingOf (checks.filterMap objectOf) with
        | error e => rw [hpending] at h; cases h
        | ok pending =>
          rw [hpending] at h
          simp only [bind, Except.bind] at h
          split at h <;> cases h <;> cases hfailed
  · cases h
    cases hfailed

theorem parseStatus_state (r : GhResult) : (parseStatus py r).state = .noChecks ∨ (parseStatus py r).state = .error := by
  unfold parseStatus
  split
  · split
    · exact Or.inl rfl
    · exact Or.inr rfl
  · split
    · exact Or.inl rfl
    · exact Or.inr rfl

theorem parseStatus_noChecks {r : GhResult} : (parseStatus py r).state = .noChecks ↔
    (r.returncode ≠ 0 ∧ saysNoChecks py r.stdout r.stderr = true) ∨ (r.returncode = 0 ∧ Text.strip r.stdout = "") := by
  unfold parseStatus
  by_cases hcode : r.returncode = 0
  · rw [if_neg (not_not.mpr hcode)]
    by_cases hblank : Text.strip r.stdout = ""
    · rw [if_pos hblank]
      exact iff_of_true rfl (Or.inr ⟨hcode, hblank⟩)
    · rw [if_neg hblank]
      refine iff_of_false nofun ?_
      rintro (⟨hne, -⟩ | ⟨-, h⟩)
      · exact hne hcode
      · exact hblank h
  · rw [if_pos hcode]
    split
    · rename_i hsays
      exact iff_of_true rfl (Or.inl ⟨hcode, hsays⟩)
    · rename_i hsays
      refine iff_of_false nofun ?_
      rintro (⟨-, h⟩ | ⟨h, -⟩)
      · exact hsays h
      · exact hcode h

theorem parseChecksOutput_cases {r : GhResult} {snapshot : CheckSnapshot}
    (h : parseChecksOutput py r = .ok snapshot) :
    (∃ decoded, Text.strip r.stdout ≠ "" ∧ py.json r.stdout = some decoded ∧ classifyChecks decoded = .ok snapshot ∧
        (r.returncode = 0 ∨ snapshot.state ≠ .noChecks)) ∨
      (snapshot = parseStatus py r ∧ (Text.strip r.stdout = "" ∨ py.json r.stdout = none ∨
        (r.returncode ≠ 0 ∧ py.json r.stdout = some (.arr [])))) := by
  unfold parseChecksOutput at h
  split at h
  · rename_i hblank
    exact Or.inr ⟨(Except.ok.inj h).symm, Or.inl hblank⟩
  · rename_i hblank
    split at h
    · rename_i hnone
      exact Or.inr ⟨(Except.ok.inj h).symm, Or.inr (Or.inl hnone)⟩
    · rename_i decoded hdecoded
      cases hclassify : classifyChecks decoded with
      | error e => rw [hclassify] at h; cases h
      | ok read =>
        rw [hclassify] at h
        simp only [bind, Except.bind] at h
        split at h
        · rename_i hused
          cases h
          exact Or.inl ⟨decoded, hblank, hdecoded, hclassify, hused⟩
        · rename_i hunused
          rw [not_or, not_not] at hunused
          rw [classifyChecks_noChecks hclassify hunused.2] at hdecoded
          exact Or.inr ⟨(Except.ok.inj h).symm, Or.inr (Or.inr ⟨hunused.1, hdecoded⟩)⟩

theorem pollChecks_read {answer : Answer} (h : (pollChecks py answer).state ≠ .error) :
    ∃ r, answer = .ok r ∧ parseChecksOutput py r = .ok (pollChecks py answer) := by
  unfold pollChecks at h ⊢
  cases answer with
  | error raised => exact absurd rfl h
  | ok r =>
    refine ⟨r, rfl, ?_⟩
    dsimp only at h ⊢
    cases hparse : parseChecksOutput py r with
    | error raised => rw [hparse] at h; exact absurd rfl h
    | ok snapshot => rfl

theorem pollChecks_green {answer : Answer} (h : (pollChecks py answer).state = .green) : AllSettled py answer := by
  obtain ⟨r, rfl, hparse⟩ := pollChecks_read py (by rw [h]; nofun)
  rcases parseChecksOutput_cases py hparse with ⟨decoded, -, hjson, hclassify, -⟩ | ⟨hstatus, -⟩
  · obtain ⟨checks, rfl, hne, hsettled⟩ := classifyChecks_green hclassify h
    exact ⟨r, checks, rfl, hjson, hne, hsettled⟩
  · rw [hstatus] at h
    rcases parseStatus_state py r with hstate | hstate <;> rw [hstate] at h <;> cases h

theorem pollChecks_failed {answer : Answer} (h : (pollChecks py answer).state = .failed) :
    ∃ r checks, answer = .ok r ∧ py.json r.stdout = some (.arr checks) ∧
      (pollChecks py answer).failing = (checks.filterMap objectOf).filter bucketFails := by
  obtain ⟨r, hanswer, hparse⟩ := pollChecks_read py (by rw [h]; nofun)
  rcases parseChecksOutput_cases py hparse with ⟨decoded, -, hjson, hclassify, -⟩ | ⟨hstatus, -⟩
  · obtain ⟨checks, rfl, hfailing⟩ := classifyChecks_failed hclassify h
    exact ⟨r, checks, hanswer, hjson, hfailing⟩
  · rw [hstatus] at h
    rcases parseStatus_state py r with hstate | hstate <;> rw [hstate] at h <;> cases h

theorem pollChecks_noChecks {answer : Answer} (h : (pollChecks py answer).state = .noChecks) :
    NoneReported py answer ∨ Garbled py answer := by
  obtain ⟨r, hanswer, hparse⟩ := pollChecks_read py (by rw [h]; nofun)
  rcases parseChecksOutput_cases py hparse with ⟨decoded, -, hjson, hclassify, hcode⟩ | ⟨hstatus, houtput⟩
  · rw [classifyChecks_noChecks hclassify h] at hjson
    exact Or.inl ⟨r, hanswer, Or.inr hjson, Or.inl (hcode.resolve_right fun hne => hne h)⟩
  · rw [hstatus] at h
    rcases (parseStatus_noChecks py).mp h with ⟨hcode, hsays⟩ | ⟨hcode, hblank⟩
    · rcases houtput with hblank | hnone | ⟨-, hempty⟩
      · exact Or.inl ⟨r, hanswer, Or.inl hblank, Or.inr hsays⟩
      · by_cases hblank : Text.strip r.stdout = ""
        · exact Or.inl ⟨r, hanswer, Or.inl hblank, Or.inr hsays⟩
        · exact Or.inr ⟨r, hanswer, hcode, hblank, hnone, hsays⟩
      · exact Or.inl ⟨r, hanswer, Or.inr hempty, Or.inr hsays⟩
    · exact Or.inl ⟨r, hanswer, Or.inl hblank, Or.inl hcode⟩

theorem pollChecks_garbled {answer : Answer} (h : Garbled py answer) : (pollChecks py answer).state = .noChecks := by
  obtain ⟨r, rfl, hcode, hblank, hnone, hsays⟩ := h
  have hparse : parseChecksOutput py r = .ok (parseStatus py r) := by
    unfold parseChecksOutput
    rw [if_neg hblank, hnone]
  unfold pollChecks
  dsimp only
  rw [hparse]
  exact (parseStatus_noChecks py).mpr (Or.inl ⟨hcode, hsays⟩)

theorem not_reported_of_garbled {answer : Answer} (h : Garbled py answer) : ¬ NoneReported py answer := by
  obtain ⟨r, rfl, -, hblank, hnone, -⟩ := h
  rintro ⟨r', ⟨⟩, houtput, -⟩
  rcases houtput with hblank' | hempty
  · exact hblank hblank'
  · rw [hnone] at hempty
    cases hempty

/-- A check is red in the last conclusive run of its workflow on the base branch, under its name or its alias there. -/
def FailsOnBase (base : BaseAnswers) (check : Fields) : Prop :=
  ∃ run jobs job, latestConclusiveRun py (base.runs (workflowOf py check)) = some run ∧ isRed py run = true ∧
    runJobs py (base.jobs (workflowOf py check)) = some jobs ∧ job ∈ jobs ∧ isRed py job = true ∧
      textOr py job "name" "" ∈ baseJobCandidates (textOr py check "name" "")

theorem groupIsRed_fails {base : BaseAnswers} {group : List Fields} {check : Fields}
    (h : groupIsRed py base (workflowOf py check) group = true) (hcheck : check ∈ group) :
    FailsOnBase py base check := by
  unfold groupIsRed at h
  split at h
  · cases h
  · rename_i run hrun
    rw [Bool.and_eq_true] at h
    obtain ⟨hred, h⟩ := h
    split at h
    · cases h
    · rename_i jobs hjobs
      obtain ⟨name, hname, hmem⟩ := List.any_eq_true.mp (List.all_eq_true.mp h check hcheck)
      obtain ⟨job, hjob, rfl⟩ := List.mem_map.mp (of_decide_eq_true hmem)
      obtain ⟨hjob, hjobRed⟩ := List.mem_filter.mp hjob
      exact ⟨run, jobs, job, hrun, hred, hjobs, hjob, hjobRed, hname⟩

theorem baseBranchIsRed_fails {base : BaseAnswers} {failing : List Fields}
    (h : baseBranchIsRed py base failing = true) : ∀ check ∈ failing, FailsOnBase py base check := by
  intro check hcheck
  unfold baseBranchIsRed at h
  rw [Bool.and_eq_true] at h
  have hgroup := List.all_eq_true.mp h.2 (workflowOf py check) (List.mem_dedup.mpr (List.mem_map_of_mem hcheck))
  exact groupIsRed_fails py hgroup (List.mem_filter.mpr ⟨hcheck, decide_eq_true rfl⟩)

variable (c : Call) (w : World)

def HeadIs (expected : String) (answer : Answer) : Prop :=
  ∃ r fields, answer = .ok r ∧ r.returncode = 0 ∧
    py.json (if r.stdout = "" then "\x7b\x7d" else r.stdout) = some (.obj fields) ∧
      JsonValue.field fields "headRefOid" = some (.str expected)

theorem prHeadMatches_iff {expected : String} {answer : Answer} :
    prHeadMatches py expected answer = true ↔ HeadIs py expected answer := by
  unfold prHeadMatches HeadIs
  constructor
  · intro h
    split at h
    · cases h
    · rename_i r
      split at h
      · cases h
      · rename_i hcode
        split at h
        · rename_i fields hjson
          split at h
          · rename_i sha hsha
            rw [of_decide_eq_true h] at hsha
            exact ⟨r, fields, rfl, not_not.mp hcode, hjson, hsha⟩
          · cases h
        · cases h
  · rintro ⟨r, fields, rfl, hcode, hjson, hsha⟩
    dsimp only
    rw [if_neg (not_not.mpr hcode), hjson]
    dsimp only
    rw [hsha]
    exact decide_eq_true rfl

/-- Both head reads of a poll show the expected commit, when one is given. -/
def HeadsMatch (n : Nat) : Prop :=
  ∀ expected, c.expectedHeadSha = some expected → HeadIs py expected (w.head n) ∧ HeadIs py expected (w.headAfter n)

theorem snapshotAt_read {n : Nat} (h : (snapshotAt py c w n).state ≠ .error) :
    HeadsMatch py c w n ∧ snapshotAt py c w n = pollChecks py (w.checks n) := by
  unfold snapshotAt HeadsMatch at *
  cases hexpected : c.expectedHeadSha with
  | none => exact ⟨nofun, rfl⟩
  | some expected =>
    rw [hexpected] at h
    dsimp only at h ⊢
    split at h
    · rename_i hhead
      split at h
      · rename_i hafter
        refine ⟨?_, by rw [if_pos hhead, if_pos hafter]⟩
        rintro _ ⟨⟩
        exact ⟨(prHeadMatches_iff py).mp hhead, (prHeadMatches_iff py).mp hafter⟩
      · exact absurd rfl h
    · exact absurd rfl h

theorem snapshotAt_of_heads {n : Nat} (h : HeadsMatch py c w n) : snapshotAt py c w n = pollChecks py (w.checks n) := by
  unfold snapshotAt
  cases hexpected : c.expectedHeadSha with
  | none => rfl
  | some expected =>
    obtain ⟨hhead, hafter⟩ := h expected hexpected
    dsimp only
    rw [if_pos ((prHeadMatches_iff py).mpr hhead), if_pos ((prHeadMatches_iff py).mpr hafter)]

def NoWorkflow (listing : Option (List String)) : Prop :=
  ∃ names, listing = some names ∧ ∀ name ∈ names, ¬ ".yml".toList <:+ name.toList ∧ ¬ ".yaml".toList <:+ name.toList

theorem hasCiWorkflow_iff {listing : Option (List String)} : ¬ hasCiWorkflow listing = true ↔ NoWorkflow listing := by
  unfold hasCiWorkflow NoWorkflow
  cases listing with
  | none => exact iff_of_false (fun h => h rfl) nofun
  | some names =>
    dsimp only
    simp only [List.any_eq_true, List.mem_cons, List.not_mem_nil, or_false, exists_eq_or_imp, exists_eq_left,
      List.isSuffixOf_iff_suffix, not_exists, not_and, not_or, Option.some.injEq, exists_eq_left']

/-- A poll that may answer that there are no checks, as far as the heads, the grace and the checkout go. -/
def Admits (s : Waiting) : Prop :=
  HeadsMatch py c w s.polls ∧ c.grace ≤ elapsedAt w s ∧
    (c.requireNoWorkflows = true → NoWorkflow (w.workflows s.polls))

structure Rested (v : CiVerdict) (s : Waiting) : Prop where
  heads : HeadsMatch py c w s.polls
  green : v.status = .green → AllSettled py (w.checks s.polls)
  noChecks : v.status = .noChecks → NoneReported py (w.checks s.polls) ∧ Admits py c w s

theorem admits_iff {s : Waiting} : Admits py c w s ↔ HeadsMatch py c w s.polls ∧ c.grace ≤ elapsedAt w s ∧
    ¬ (c.requireNoWorkflows = true ∧ hasCiWorkflow (w.workflows s.polls) = true) := by
  unfold Admits
  rw [not_and, hasCiWorkflow_iff]

inductive Polled (s : Waiting) : CiVerdict ⊕ Waiting → Prop where
  | failed : (snapshotAt py c w s.polls).state = .failed →
      Polled s (.inl (failedVerdict py w s.polls (snapshotAt py c w s.polls) (elapsedAt w s)))
  | green : (snapshotAt py c w s.polls).state = .green →
      Polled s (.inl { status := .green, waited := elapsedAt w s })
  | noChecks : (snapshotAt py c w s.polls).state = .noChecks → Admits py c w s →
      Polled s (.inl { status := .noChecks, waited := elapsedAt w s, detail := "gh reports no checks for the PR" })
  | timeout (lastError : String) : c.timeout ≤ elapsedAt w s →
      Polled s (.inl (timeoutVerdict py (snapshotAt py c w s.polls) lastError (elapsedAt w s)))
  | pause (lastError : String) : elapsedAt w s < c.timeout →
      Polled s (.inr ⟨s.polls + 1, s.slept + pauseOf c (snapshotAt py c w s.polls) (elapsedAt w s), lastError⟩)

theorem pollOnce_cases (s : Waiting) : Polled py c w s (pollOnce py c w s) := by
  unfold pollOnce
  dsimp only
  split
  · rename_i hstate
    exact .failed hstate
  · split
    · rename_i hstate
      exact .green hstate
    · split
      · rename_i hadmits
        refine .noChecks hadmits.1 ((admits_iff py c w).mpr ⟨?_, hadmits.2⟩)
        exact (snapshotAt_read py c w (by rw [hadmits.1]; nofun)).1
      · split
        · rename_i htimeout
          exact .timeout _ htimeout
        · rename_i htimeout
          exact .pause _ (Int.not_le.mp htimeout)

theorem pollOnce_noChecks {s : Waiting} (hstate : (snapshotAt py c w s.polls).state = .noChecks)
    (hadmits : Admits py c w s) : ∃ v, pollOnce py c w s = .inl v ∧ v.status = .noChecks := by
  have hopen := ((admits_iff py c w).mp hadmits).2
  unfold pollOnce
  dsimp only
  rw [if_neg (by rw [hstate]; nofun), if_neg (by rw [hstate]; nofun), if_pos ⟨hstate, hopen⟩]
  exact ⟨_, rfl, rfl⟩

def beginning : Waiting := ⟨0, 0, ""⟩

theorem resolveSeconds_nonneg (value env : Option Int) {default : Int} (h : 0 ≤ default) :
    0 ≤ resolveSeconds value env default := by
  unfold resolveSeconds
  cases value.or env with
  | none => exact h
  | some seconds => exact Int.le_max_left 0 seconds

theorem second_nonneg : 0 ≤ SECOND := Int.pow_nonneg (by decide)

theorem timeout_nonneg : 0 ≤ c.timeout :=
  resolveSeconds_nonneg _ _ (Int.mul_nonneg (by decide) second_nonneg)

theorem slept_le_elapsed (s : Waiting) : s.slept ≤ elapsedAt w s := Int.le_max_right ..

theorem pause_le (snapshot : CheckSnapshot) {elapsed : Int} (h : elapsed < c.timeout) :
    0 ≤ pauseOf c snapshot elapsed ∧ pauseOf c snapshot elapsed ≤ c.timeout - elapsed := by
  unfold pauseOf
  dsimp only
  split <;> omega

theorem pause_pos (snapshot : CheckSnapshot) {elapsed : Int} (hpoll : 0 < c.poll) (h : elapsed < c.timeout) :
    0 < pauseOf c snapshot elapsed := by
  unfold pauseOf
  dsimp only
  split
  · rename_i hgrace
    omega
  · omega

theorem slept_step {s s' : Waiting} (hstep : pollOnce py c w s = .inr s') : s'.slept ≤ c.timeout := by
  have hcases := pollOnce_cases py c w s
  rw [hstep] at hcases
  cases hcases with
  | pause lastError helapsed =>
    have hpause := (pause_le c (snapshotAt py c w s.polls) helapsed).2
    have hslept := slept_le_elapsed w s
    dsimp only
    omega

theorem slept_le {s : Waiting} (h : Loop.Reached (pollOnce py c w) beginning s) : s.slept ≤ c.timeout :=
  h.invariant (I := fun s => s.slept ≤ c.timeout) (fun _ _ _ => slept_step py c w) (timeout_nonneg c)

theorem ensureGreen_total (hpoll : 0 < c.poll) : ∃ fuel v s, ensureGreen py c w fuel = some (v, s) := by
  refine Loop.run_total (I := fun s => s.slept ≤ c.timeout) (fun _ _ _ => slept_step py c w)
    (fun s => (c.timeout - s.slept).toNat) ?_ (timeout_nonneg c)
  intro s s' _ hstep
  have hnext := slept_step py c w hstep
  have hcases := pollOnce_cases py c w s
  rw [hstep] at hcases
  cases hcases with
  | pause lastError helapsed =>
    have hpause := pause_pos c (snapshotAt py c w s.polls) hpoll helapsed
    dsimp only at hnext ⊢
    omega

structure Gated : Prop where
  passes : ∀ fuel v s, ensureGreen py c w fuel = some (v, s) → v.passed = true → Rested py c w v s
  baseRed : ∀ fuel v s, ensureGreen py c w fuel = some (v, s) → v.baseRed = true →
    ∃ r checks, w.checks s.polls = .ok r ∧ py.json r.stdout = some (.arr checks) ∧
      ∀ fields, .obj fields ∈ checks → JsonValue.field fields "bucket" = some (.str "fail") →
        FailsOnBase py (w.base s.polls) fields
  ends : 0 < c.poll → ∃ fuel v s, ensureGreen py c w fuel = some (v, s)
  slept : ∀ s, Loop.Reached (pollOnce py c w) beginning s → s.slept ≤ c.timeout

theorem reached_of_ensureGreen {fuel : Nat} {v : CiVerdict} {s : Waiting}
    (h : ensureGreen py c w fuel = some (v, s)) :
    Loop.Reached (pollOnce py c w) beginning s ∧ Polled py c w s (.inl v) := by
  obtain ⟨hreached, hresult⟩ := Loop.reached_of_run h
  have hcases := pollOnce_cases py c w s
  rw [hresult] at hcases
  exact ⟨hreached, hcases⟩

theorem baseRed_fails {s : Waiting} (hstate : (snapshotAt py c w s.polls).state = .failed)
    (hred : baseBranchIsRed py (w.base s.polls) (snapshotAt py c w s.polls).failing = true) :
    ∃ r checks, w.checks s.polls = .ok r ∧ py.json r.stdout = some (.arr checks) ∧
      ∀ fields, .obj fields ∈ checks → JsonValue.field fields "bucket" = some (.str "fail") →
        FailsOnBase py (w.base s.polls) fields := by
  obtain ⟨-, hsame⟩ := snapshotAt_read py c w (n := s.polls) (by rw [hstate]; nofun)
  rw [hsame] at hstate hred
  obtain ⟨r, checks, hanswer, hjson, hfailing⟩ := pollChecks_failed py hstate
  rw [hfailing] at hred
  refine ⟨r, checks, hanswer, hjson, ?_⟩
  intro fields hmem hbucket
  refine baseBranchIsRed_fails py hred fields (List.mem_filter.mpr ⟨?_, ?_⟩)
  · exact List.mem_filterMap.mpr ⟨.obj fields, hmem, rfl⟩
  · unfold bucketFails
    rw [hbucket]
    exact decide_eq_true rfl

theorem Gated.not_garbled {py : Host} {c : Call} {w : World} (h : Gated py c w) {s : Waiting}
    (hreached : Loop.Reached (pollOnce py c w) beginning s) (hadmits : Admits py c w s) :
    ¬ Garbled py (w.checks s.polls) := by
  intro hgarbled
  have hstate : (snapshotAt py c w s.polls).state = .noChecks := by
    rw [snapshotAt_of_heads py c w hadmits.1]
    exact pollChecks_garbled py hgarbled
  obtain ⟨v, hresult, hstatus⟩ := pollOnce_noChecks py c w hstate hadmits
  obtain ⟨fuel, hrun⟩ := Loop.run_iff.mpr ⟨hreached, hresult⟩
  have hpassed : v.passed = true := decide_eq_true (Or.inr hstatus)
  exact not_reported_of_garbled py hgarbled ((h.passes fuel v s hrun hpassed).noChecks hstatus).1

/-- The gate is sound and ends in time, exactly if no poll that it reaches and admits meets a failed call with an output
that is neither empty nor JSON, and that speaks of no checks. -/
theorem gated_iff : Gated py c w ↔ ∀ s, Loop.Reached (pollOnce py c w) beginning s → Admits py c w s →
    ¬ Garbled py (w.checks s.polls) := by
  constructor
  · exact fun h s => h.not_garbled
  · intro h
    refine ⟨?_, ?_, ensureGreen_total py c w, fun s => slept_le py c w⟩
    · intro fuel v s hrun hpassed
      obtain ⟨hreached, hpolled⟩ := reached_of_ensureGreen py c w hrun
      cases hpolled with
      | failed hstate => cases hpassed
      | green hstate =>
        obtain ⟨hheads, hsame⟩ := snapshotAt_read py c w (n := s.polls) (by rw [hstate]; nofun)
        rw [hsame] at hstate
        exact ⟨hheads, fun _ => pollChecks_green py hstate, nofun⟩
      | noChecks hstate hadmits =>
        obtain ⟨hheads, hsame⟩ := snapshotAt_read py c w (n := s.polls) (by rw [hstate]; nofun)
        rw [hsame] at hstate
        have hnone := (pollChecks_noChecks py hstate).resolve_right (h s hreached hadmits)
        exact ⟨hheads, nofun, fun _ => ⟨hnone, hadmits⟩⟩
      | timeout lastError htimeout => cases hpassed
    · intro fuel v s hrun hred
      obtain ⟨-, hpolled⟩ := reached_of_ensureGreen py c w hrun
      cases hpolled with
      | failed hstate => exact baseRed_fails py c w hstate hred
      | green hstate => cases hred
      | noChecks hstate hadmits => cases hred
      | timeout lastError htimeout => cases hred

end

/-- A host whose `json.loads` gives up on the text below. -/
def plainHost : Host := ⟨fun _ => none, Text.asciiLower, fun _ => "", id, fun _ => ""⟩

def cutOff : GhResult := ⟨1, "[\x7b\"bucket\": \"fail\", \"name\": \"no checks reported\"\x7d, ", ""⟩

def cutOffWorld : World where
  head _ := .error ""
  checks _ := .ok cutOff
  headAfter _ := .error ""
  workflows _ := some []
  base _ := ⟨fun _ => .error "", fun _ => .error ""⟩
  failedLog _ := ""
  clock n := n * (60 * SECOND)
  clock_le n := Int.mul_le_mul_of_nonneg_right (by omega) (Int.mul_nonneg (by decide) second_nonneg)

/-- The failing check of the list passes as a pull request without checks. -/
theorem cutOff_passes : ¬ Gated plainHost {} cutOffWorld := by
  intro h
  refine h.not_garbled .start ⟨nofun, ?_, nofun⟩ ⟨cutOff, rfl, ?_, ?_, rfl, ?_⟩
  · have hminute : 30 * SECOND ≤ 1 * (60 * SECOND) - 0 * (60 * SECOND) := by
      have hsecond := second_nonneg
      omega
    exact Int.le_trans hminute (Int.le_max_left ..)
  · decide
  · decide
  · decide

end CiChecks
end Git
end DarkFactory
