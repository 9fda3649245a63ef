import Mathlib.Data.List.Perm.Subperm
import Mathlib.Data.List.ProdSigma
import DarkFactory.Control.RunActivity

/-!
# DarkFactory.Control.Termination

Every run is finite. Three numbers feed each other around the line: a success copies the iteration of
its source, a retry in place adds one to it, and a retry of another stage goes one above the highest
iteration there.

* `planOf_bounded` — under the two caps none of them leaves the bound.
-/

namespace DarkFactory
namespace Control

/-- The keys of `STAGE_ROLES`. -/
def STAGES : List String :=
  ["grill", "planning", "research", "environment", "development", "validation",
    "independent_review", "integration", "build_deploy", "target_journey", "memory_observation",
    "learning_eval", "catalog_refresh", "retrospective"]

theorem mem_STAGES {stage : String} (h : STAGE_ROLES stage ≠ none) : stage ∈ STAGES := by
  unfold STAGE_ROLES at h
  split at h
  all_goals first
    | exact absurd rfl h
    | decide

theorem PRODUCTIVE_DAG_mem {stage next : String} (h : PRODUCTIVE_DAG stage = some next) : next ∈ STAGES := by
  unfold PRODUCTIVE_DAG at h
  split at h
  all_goals first
    | cases h
      done
    | (cases h; decide)

/-- The cause code of a retry names a known stage, and only a red base waits with `not_before`. -/
def BoundedCause (result : StageResult) : Prop :=
  result.outcome = .retry → (∀ stage ∈ (parseRetryCauseCode result.causeCode).1, STAGE_ROLES stage ≠ none) ∧
      ((parseRetryCauseCode result.causeCode).2 ≠ none → isBaseRedCause result.causeCode = true)

/-- `materialize_result` is called for a job of the store, under such a cause code. -/
def Op.Bounded (s : Store) : Op → Prop
  | .materializeResult key result _ => s.jobs.get? key ≠ none ∧ BoundedCause result
  | _ => True

def JobKey.Bounded (k : JobKey) : Prop :=
  k.iteration ≤ MAX_SAME_STAGE_RETRIES ∧ k.stage ∈ STAGES

namespace Sqlite

theorem planOf_bounded {env : Env} {k key : JobKey} {result : StageResult} {now : DateTime}
    {s : Store} (hk : k.Bounded) (hc : BoundedCause result)
    (h : key ∈ (planOf env k result now s).successors) :
    key.Bounded ∧ ∃ stage n, key = k.atStage stage n := by
  have hzero : ∀ stage, stage ∈ STAGES → (k.atStage stage 0).Bounded := fun _ hs =>
    ⟨Nat.zero_le _, hs⟩
  have hretro : (retrospectiveKey k).Bounded := hzero _ (by decide)
  unfold planOf at h
  split at h
  · -- a success copies the iteration of its source
    rcases List.mem_append.mp h with h | h
    · simp only [Option.mem_toList, Option.map_eq_some_iff] at h
      obtain ⟨next, hnext, rfl⟩ := h
      exact ⟨⟨hk.1, PRODUCTIVE_DAG_mem hnext⟩, _, _, rfl⟩
    · split at h
      · rw [List.mem_singleton.mp h]
        exact ⟨hretro, _, _, rfl⟩
      · cases h
  · rename_i ho
    split at h
    · rw [List.mem_singleton.mp h]
      exact ⟨hretro, _, _, rfl⟩
    · rename_i stage n hstep
      rw [List.mem_singleton.mp h]
      refine ⟨?_, _, _, rfl⟩
      obtain ⟨hknown, hwait⟩ := hc ho
      unfold retryStep at hstep
      split at hstep
      · -- the highest iteration of the target plus one, under the first cap
        rename_i target _ hp
        simp only [Prod.mk.injEq, decide_eq_false_iff_not, Nat.not_lt] at hstep
        obtain ⟨rfl, rfl, hle⟩ := hstep
        rw [hp] at hknown
        exact ⟨hle.trans (by decide), mem_STAGES (hknown _ rfl)⟩
      · -- the own iteration plus one, under the second
        rename_i notBefore hp
        simp only [Prod.mk.injEq] at hstep
        obtain ⟨rfl, rfl, hcap⟩ := hstep
        refine ⟨?_, hk.2⟩
        rw [hp] at hwait
        split at hcap
        · simpa using hcap
        · rename_i hred
          split at hcap
          · rename_i hsome
            exact absurd (hwait (Option.isSome_iff_ne_none.mp hsome)) hred
          · simpa using hcap
  · rw [List.mem_singleton.mp h]
    exact ⟨hzero _ (by decide), _, _, rfl⟩
  · rw [List.mem_singleton.mp h]
    exact ⟨hretro, _, _, rfl⟩
  all_goals cases h

theorem apply_key (env : Env) {s : Store} (op : Op) {j : Job} (hj : j ∈ (apply env s op).jobs) :
    (∃ j₀, j₀ ∈ s.jobs ∧ j₀.key = j.key) ∨
      (∃ command ids now, op = .accept command ids now ∧
        j = initialJob command ("run-" ++ ids.run) now ∧
        s.runs.get? ("run-" ++ ids.run) = none) ∨
      ∃ k result now, op = .materializeResult k result now ∧
        (j.key = k ∨ j.key ∈ (planOf env k result now s).successors) := by
  cases hi : op.insertsJobs with
  | false =>
    obtain ⟨F, hF⟩ := apply_mapped env s op hi
    obtain ⟨j₀, hj₀, rfl⟩ := hF.mem hj
    exact .inl ⟨j₀, hj₀, (hF.key_eq j₀ hj₀).symm⟩
  | true =>
    cases op with
    | accept command ids now =>
      cases hs : accept command ids now s with
      | error e =>
        rw [apply, hs, committed_error] at hj
        exact .inl ⟨j, hj, rfl⟩
      | ok r =>
        obtain ⟨receipt, s'⟩ := r
        rw [apply, hs, committed_ok] at hj
        rcases accept_ok hs with rfl | ⟨-, e, hins, -⟩ | ⟨-, -, hsame, -⟩
        · exact .inl ⟨j, hj, rfl⟩
        · rcases (Table.mem_of_insert? hins).mp hj with hj | rfl
          · exact .inl ⟨j, hj, rfl⟩
          · exact .inr (.inl ⟨command, ids, now, rfl, rfl, Table.insert?_fresh (insertRun_eq_some e)⟩)
        · exact .inl ⟨j, hsame ▸ hj, rfl⟩
    | materializeResult k result now =>
      cases hs : materializeResult env k result now s with
      | error e =>
        rw [apply, hs, committed_error] at hj
        exact .inl ⟨j, hj, rfl⟩
      | ok r =>
        obtain ⟨keys, s'⟩ := r
        rw [apply, hs, committed_ok] at hj
        obtain ⟨s₀, -, hs₀, -, rfl⟩ := materializeResult_ok hs
        rw [closeIfDone_jobs] at hj
        have hget := Table.get?_of_mem hj
        rw [materialized_get?] at hget
        split at hget
        · rename_i hk
          exact .inr (.inr ⟨k, result, now, rfl, .inl hk⟩)
        · cases hold : s₀.jobs.get? j.key with
          | some j₀ =>
            obtain ⟨hj₀, hk₀⟩ := Table.get?_eq_some.mp hold
            exact .inl ⟨j₀, (ensureRun_jobs hs₀).1 ▸ hj₀, hk₀⟩
          | none =>
            rw [hold, Option.none_or] at hget
            split at hget
            · rename_i hm
              exact .inr (.inr ⟨k, result, now, rfl, .inr hm⟩)
            · cases hget
    | _ => cases hi

def KeysKept (s s' : Store) : Prop :=
  ∀ key, s.jobs.get? key ≠ none → s'.jobs.get? key ≠ none

theorem apply_keysKept (env : Env) (s : Store) (op : Op) : KeysKept s (apply env s op) := by
  intro key hkey
  cases hi : op.insertsJobs with
  | false =>
    obtain ⟨F, hF⟩ := apply_mapped env s op hi
    rw [hF.get?]
    simpa using hkey
  | true =>
    cases op with
    | accept command ids now =>
      cases hs : accept command ids now s with
      | error e => rwa [apply, hs, committed_error]
      | ok r =>
        obtain ⟨receipt, s'⟩ := r
        rw [apply, hs, committed_ok]
        rcases accept_ok hs with rfl | ⟨-, -, hins, -⟩ | ⟨-, -, hsame, -⟩
        · exact hkey
        · rw [Table.get?_of_insert? hins]
          split
          · exact Option.some_ne_none _
          · exact hkey
        · rwa [hsame]
    | materializeResult k result now =>
      cases hs : materializeResult env k result now s with
      | error e => rwa [apply, hs, committed_error]
      | ok r =>
        obtain ⟨keys, s'⟩ := r
        rw [apply, hs, committed_ok]
        obtain ⟨s₀, -, hs₀, -, rfl⟩ := materializeResult_ok hs
        rw [closeIfDone_jobs, materialized_get?, (ensureRun_jobs hs₀).1]
        split
        · exact Option.some_ne_none _
        · obtain ⟨j, hj⟩ := Option.ne_none_iff_exists'.mp hkey
          rw [hj, Option.some_or]
          exact Option.some_ne_none _
    | _ => cases hi

structure LineBound (s : Store) : Prop where
  owned : Owned s
  bounded : ∀ j, j ∈ s.jobs → j.key.Bounded
  /-- The jobs of a run differ in stage and iteration only. -/
  line : ∀ j j', j ∈ s.jobs → j' ∈ s.jobs → j.key.runId = j'.key.runId →
    j'.key = j.key.atStage j'.key.stage j'.key.iteration

theorem lineBound_empty : LineBound .empty where
  owned _ hj := absurd hj Table.not_mem_empty
  bounded _ hj := absurd hj Table.not_mem_empty
  line _ _ hj := absurd hj Table.not_mem_empty

/-- The key of a job of the next store is that of an old job, of the same line and within the bound,
or the first one of a new run. -/
theorem LineBound.key_cases {env : Env} {s : Store} {op : Op} (h : LineBound s)
    (hop : op.Bounded s) {j : Job} (hj : j ∈ (apply env s op).jobs) :
    j.key.Bounded ∧
      ((∃ j₀, j₀ ∈ s.jobs ∧ j.key = j₀.key.atStage j.key.stage j.key.iteration) ∨
        (s.runs.get? j.key.runId = none ∧
          ∃ command ids now, op = .accept command ids now ∧ j = initialJob command ("run-" ++ ids.run) now)) := by
  rcases apply_key env op hj with ⟨j₀, hj₀, hk⟩ | ⟨command, ids, now, rfl, rfl, hfresh⟩ |
    ⟨k, result, now, rfl, hk⟩
  · rw [← hk]
    exact ⟨h.bounded j₀ hj₀, .inl ⟨j₀, hj₀, rfl⟩⟩
  · have hkey : (initialJob command ("run-" ++ ids.run) now).key.Bounded :=
      ⟨Nat.zero_le _, by show "grill" ∈ STAGES; decide⟩
    exact ⟨hkey, .inr ⟨hfresh, command, ids, now, rfl, rfl⟩⟩
  · obtain ⟨hsome, hcause⟩ := hop
    obtain ⟨j₀, hget⟩ := Option.ne_none_iff_exists'.mp hsome
    obtain ⟨hj₀, rfl⟩ := Table.get?_eq_some.mp hget
    rcases hk with hk | hk
    · rw [hk]
      exact ⟨h.bounded j₀ hj₀, .inl ⟨j₀, hj₀, rfl⟩⟩
    · obtain ⟨hb, stage, n, hkey⟩ := planOf_bounded (h.bounded j₀ hj₀) hcause hk
      refine ⟨hb, .inl ⟨j₀, hj₀, ?_⟩⟩
      rw [hkey]
      rfl

theorem lineBound_step (env : Env) (s : Store) (op : Op) (h : LineBound s) (hop : op.Bounded s) :
    LineBound (apply env s op) where
  owned := owned_step env s op h.owned
  bounded j hj := (h.key_cases hop hj).1
  line j j' hj hj' hr := by
    obtain ⟨-, hk⟩ := h.key_cases hop hj
    obtain ⟨-, hk'⟩ := h.key_cases hop hj'
    rcases hk with ⟨j₀, hj₀, hk⟩ | ⟨hnone, command, ids, now, hacc, hnew⟩
    · rcases hk' with ⟨j₁, hj₁, hk'⟩ | ⟨hnone, -⟩
      · have hr₀ : j₀.key.runId = j₁.key.runId := by rw [hk, hk'] at hr; exact hr
        rw [hk, hk', h.line j₀ j₁ hj₀ hj₁ hr₀]
        rfl
      · rw [← hr, hk] at hnone
        exact absurd hnone (h.owned j₀ hj₀)
    · rcases hk' with ⟨j₁, hj₁, hk'⟩ | ⟨-, command', ids', now', hacc', hnew'⟩
      · rw [hr, hk'] at hnone
        exact absurd hnone (h.owned j₁ hj₁)
      · rw [hacc] at hacc'
        cases hacc'
        rw [hnew, hnew']
        rfl

theorem LineBound.length_le {s : Store} (h : LineBound s) (runId : String) (stages : List String)
    {keys : List JobKey} (hnodup : keys.Nodup)
    (hkeys : ∀ k ∈ keys, s.jobs.get? k ≠ none ∧ k.runId = runId ∧ k.stage ∈ stages) :
    keys.length ≤ stages.length * (MAX_SAME_STAGE_RETRIES + 1) := by
  have hjob : ∀ k ∈ keys, ∃ j, j ∈ s.jobs ∧ j.key = k := fun k hk => by
    obtain ⟨j, hj⟩ := Option.ne_none_iff_exists'.mp (hkeys k hk).1
    exact ⟨j, Table.get?_eq_some.mp hj⟩
  have hinj : ∀ k ∈ keys, ∀ k' ∈ keys, (k.stage, k.iteration) = (k'.stage, k'.iteration) → k = k' := by
    intro k hk k' hk' e
    obtain ⟨j, hj, rfl⟩ := hjob k hk
    obtain ⟨j', hj', rfl⟩ := hjob k' hk'
    have hr := (hkeys _ hk).2.1.trans (hkeys _ hk').2.1.symm
    rw [Prod.mk.injEq] at e
    rw [h.line j j' hj hj' hr, ← e.1, ← e.2]
    rfl
  have hsub : keys.map (fun k => (k.stage, k.iteration)) ⊆
      stages ×ˢ List.range (MAX_SAME_STAGE_RETRIES + 1) := by
    intro p hp
    obtain ⟨k, hk, rfl⟩ := List.mem_map.mp hp
    obtain ⟨j, hj, rfl⟩ := hjob k hk
    exact List.mem_product.mpr ⟨(hkeys _ hk).2.2, List.mem_range.mpr (Nat.lt_succ_of_le (h.bounded j hj).1)⟩
  have hle := ((hnodup.map_on hinj).subperm hsub).length_le
  rwa [List.length_map, List.length_product, List.length_range] at hle

/-- The results of a run that `materialize_result` recorded: the job and the successors returned. -/
def materializations (env : Env) (runId : String) (ms : List (Move Store Op)) : List (JobKey × List JobKey) :=
  ms.filterMap fun m =>
    match m.act with
    | .materializeResult key result now =>
      if key.runId = runId then
        (materializeResult env key result now m.pre).toOption.map fun r => (key, r.1)
      else none
    | _ => none

theorem mem_materializations {env : Env} {runId : String} {ops : List Op}
    (h : ∀ m ∈ Runs.moves (apply env) .empty ops, m.act.Bounded m.pre)
    {c : JobKey × List JobKey}
    (hc : c ∈ materializations env runId (Runs.moves (apply env) .empty ops)) :
    (Runs.run (apply env) .empty ops).jobs.get? c.1 ≠ none ∧ c.1.runId = runId := by
  obtain ⟨m, hm, hcm⟩ := List.mem_filterMap.mp hc
  have hb := h m hm
  split at hcm
  · rename_i key result now hact
    split at hcm
    · rename_i hr
      rw [Option.map_eq_some_iff] at hcm
      obtain ⟨r, -, rfl⟩ := hcm
      refine ⟨?_, hr⟩
      obtain ⟨before, after, hops, hpre, hpost⟩ := Runs.mem_moves hm
      rw [hact] at hb
      -- the job was there at the call, and no key is lost
      have hkept : KeysKept m.pre (Runs.run (apply env) m.pre (m.act :: after)) :=
        Runs.run_rel (I := fun _ => True) (fun _ _ hk => hk)
          (fun h₁ h₂ key hk => h₂ key (h₁ key hk)) (fun _ _ _ => trivial)
          (fun s op _ => apply_keysKept env s op) trivial _
      rw [hops, Runs.run_append, ← hpre]
      exact hkept key hb.1
    · cases hcm
  · cases hcm

instance (result : StageResult) : Decidable (BoundedCause result) :=
  inferInstanceAs (Decidable (_ → (∀ stage ∈ (parseRetryCauseCode result.causeCode).1, _) ∧ _))

instance (s : Store) : (op : Op) → Decidable (op.Bounded s)
  | .materializeResult key result _ =>
    inferInstanceAs (Decidable (s.jobs.get? key ≠ none ∧ BoundedCause result))
  | .accept .. | .claim .. | .heartbeat .. | .finish .. | .reconcile .. | .resumeJob ..
  | .cancelRun .. | .recordOperation .. | .reserveCycle .. | .heartbeatReservation ..
  | .releaseReservation .. | .drainHost .. | .renewOpenRunReservations ..
  | .reconcileFleetReservations .. => inferInstanceAs (Decidable True)

def sentBackRun : List Op :=
  [.sampleAccept, .materializeResult (.sample "grill" 0) .sampleSuccess (utc 10),
    .materializeResult (.sample "planning" 0) (.sampleRetry (some "retry:grill")) (utc 20)]

end Sqlite
end Control
end DarkFactory
