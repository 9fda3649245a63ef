import DarkFactory.Lib.Numbering
import DarkFactory.Control.Delivery
import DarkFactory.Control.RunActivity

/-!
# DarkFactory.Control.Line

The line of a run: the iterations its jobs have used at each stage. A success is followed by the next
stage under the iteration of its source, a retry by the next iteration of its own or of another stage,
and a successor whose key is taken is dropped.

* `LineInv` — one open job per run, under the last iteration of its stage, in a dense numbering.
-/

namespace DarkFactory
namespace Control

theorem lt_nextIteration {s : Store} {k : JobKey} {stage : String} {n : Nat}
    (h : s.jobs.get? (k.atStage stage n) ≠ none) : n < nextIteration s k stage := by
  obtain ⟨j, hj⟩ := Option.ne_none_iff_exists'.mp h
  obtain ⟨hjm, hk⟩ := Table.get?_eq_some.mp hj
  have hn : j.key.iteration = n := congrArg JobKey.iteration hk
  refine Numbering.le_foldl_max (List.mem_map.mpr ⟨j, Table.mem_select.mpr ⟨hjm, ?_⟩, ?_⟩)
  · rw [decide_eq_true_eq, hn, hk]
  · rw [hn]

theorem nextIteration_used {s : Store} {k : JobKey} {stage : String} {n : Nat}
    (h : nextIteration s k stage = n + 1) : s.jobs.get? (k.atStage stage n) ≠ none := by
  obtain ⟨j, hj, hn⟩ := List.mem_map.mp (Numbering.mem_of_foldl_max h)
  rw [Nat.add_right_cancel_iff] at hn
  rw [Table.mem_select, decide_eq_true_eq, hn] at hj
  rw [← hj.2, Table.get?_of_mem hj.1]
  exact Option.some_ne_none _

/-- The iterations the line of `k` has used: its run, ticket and plan. -/
def numbering (s : Store) (k : JobKey) : Numbering String where
  used stage n := s.jobs.get? (k.atStage stage n) ≠ none
  next := nextIteration s k
  lt_next _ _ := lt_nextIteration
  used_pred _ _ := nextIteration_used

theorem nextIteration_congr {s s' : Store}
    (h : ∀ key, s'.jobs.get? key ≠ none ↔ s.jobs.get? key ≠ none) (k : JobKey) (stage : String) :
    nextIteration s' k stage = nextIteration s k stage :=
  Nat.le_antisymm
    (Numbering.next_le (numbering s' k) (numbering s k) fun _ => (h _).mp)
    (Numbering.next_le (numbering s k) (numbering s' k) fun _ => (h _).mpr)

theorem PRODUCTIVE_DAG_ne_self (stage : String) : PRODUCTIVE_DAG stage ≠ some stage := by
  unfold PRODUCTIVE_DAG
  split <;> simp

theorem PRODUCTIVE_DAG_ne_retrospective (stage : String) : PRODUCTIVE_DAG stage ≠ some "retrospective" := by
  unfold PRODUCTIVE_DAG
  split <;> simp

theorem PRODUCTIVE_DAG_inj {s s' t : String} (h : PRODUCTIVE_DAG s = some t)
    (h' : PRODUCTIVE_DAG s' = some t) : s = s' := by
  unfold PRODUCTIVE_DAG at h
  split at h <;> cases h
  all_goals
    unfold PRODUCTIVE_DAG at h'
    split at h' <;> simp_all

def LineDone (s : Store) (runId : String) : Prop :=
  Delivered s runId ∨ ∃ j, j ∈ s.jobs ∧ j.key.runId = runId ∧ j.status = .failed

/-- Every run of the line keeps an open job until `build_deploy` succeeds or a stage fails. -/
def LineOpen (s : Store) : Prop :=
  ∀ j, j ∈ s.jobs → HasOpen s j.key.runId ∨ LineDone s j.key.runId

structure LineInv (s : Store) : Prop where
  owned : Owned s
  single : ∀ j j', j ∈ s.jobs → j' ∈ s.jobs → j.key.runId = j'.key.runId →
    j.status.isOpen = true → j'.status.isOpen = true → j.key = j'.key
  last : ∀ j, j ∈ s.jobs → j.status.isOpen = true → nextIteration s j.key j.key.stage = j.key.iteration + 1
  dense : ∀ k, (numbering s k).Dense PRODUCTIVE_DAG
  /-- The retrospective of a delivery has iteration 0, and no other one comes before it. -/
  anchored : ∀ k, nextIteration s k "retrospective" ≠ 0 → (numbering s k).used "retrospective" 0
  going : LineOpen s

theorem LineInv.of_jobs {s s' : Store} (hi : LineInv s) (hj : s'.jobs = s.jobs) (ho : Owned s') : LineInv s' := by
  obtain ⟨runs, jobs, _⟩ := s
  obtain ⟨runs', jobs', _⟩ := s'
  cases hj
  exact ⟨ho, hi.single, hi.last, hi.dense, hi.anchored, hi.going⟩

/-- A key that continues its line: the next iteration of its stage, or a pass that follows the last
one of the stage before. -/
def NextPass (s : Store) (key : JobKey) : Prop :=
  nextIteration s key key.stage ≤ key.iteration ∧
    (key.iteration = nextIteration s key key.stage ∨
      ∃ stage, PRODUCTIVE_DAG stage = some key.stage ∧ nextIteration s key stage = key.iteration + 1)

/-- From `s` to `s'` the run closed its open jobs and inserted the key `new`, if any, as its open job.
The jobs of other runs are as before. -/
structure OpensPass (s s' : Store) (runId : String) (new : Option JobKey) : Prop where
  keys : ∀ key, s'.jobs.get? key ≠ none ↔ s.jobs.get? key ≠ none ∨ new = some key
  others : ∀ j, j.key.runId ≠ runId → (j ∈ s'.jobs ↔ j ∈ s.jobs)
  only : ∀ j, j ∈ s'.jobs → j.key.runId = runId → j.status.isOpen = true → new = some j.key
  runId_eq : ∀ key, new = some key → key.runId = runId

namespace OpensPass

variable {s s' : Store} {runId : String} {new : Option JobKey}

theorem opens (h : OpensPass s s' runId new) {k : JobKey} {stage : String} {n : Nat}
    (hk : new = some (k.atStage stage n)) (hn : nextIteration s k stage ≤ n) :
    Numbering.Opens (numbering s k) (numbering s' k) stage n where
  used t m := by
    show s'.jobs.get? _ ≠ none ↔ s.jobs.get? _ ≠ none ∨ _
    rw [h.keys, hk, Option.some.injEq]
    refine or_congr_right ⟨fun e => ?_, fun e => ?_⟩
    · exact ⟨(congrArg JobKey.stage e).symm, (congrArg JobKey.iteration e).symm⟩
    · rw [e.1, e.2]
  le := hn

theorem used_iff (h : OpensPass s s' runId new) {k : JobKey}
    (hk : ∀ stage n, new ≠ some (k.atStage stage n)) (stage : String) (n : Nat) :
    (numbering s' k).used stage n ↔ (numbering s k).used stage n := by
  show s'.jobs.get? _ ≠ none ↔ s.jobs.get? _ ≠ none
  rw [h.keys, or_iff_left (hk stage n)]

theorem next_eq (h : OpensPass s s' runId new) {k : JobKey}
    (hk : ∀ stage n, new ≠ some (k.atStage stage n)) (stage : String) :
    nextIteration s' k stage = nextIteration s k stage :=
  Nat.le_antisymm
    (Numbering.next_le (numbering s' k) (numbering s k)
      fun n => (h.used_iff hk stage n).mp)
    (Numbering.next_le (numbering s k) (numbering s' k)
      fun n => (h.used_iff hk stage n).mpr)

theorem dense (h : OpensPass s s' runId new) (hp : ∀ key, new = some key → NextPass s key)
    (hd : ∀ k, (numbering s k).Dense PRODUCTIVE_DAG) (k : JobKey) :
    (numbering s' k).Dense PRODUCTIVE_DAG := by
  by_cases hk : ∃ stage n, new = some (k.atStage stage n)
  · obtain ⟨stage, n, hk⟩ := hk
    obtain ⟨hle, hnext⟩ := hp _ hk
    have ho := h.opens hk hle
    have hloop := PRODUCTIVE_DAG_ne_self stage
    rcases hnext with hn | ⟨before, hst, hn⟩
    · have hn : n = (numbering s k).next stage := hn
      rw [hn] at ho
      exact (hd k).opens_next ho hloop
    · exact (hd k).opens_following ho hn hloop fun _ hs => PRODUCTIVE_DAG_inj hs hst
  · simp only [not_exists] at hk
    intro stage t hst n hle hlt
    have hle : nextIteration s' k stage ≤ n + 1 := hle
    have hlt : n < nextIteration s' k t := hlt
    rw [h.next_eq hk] at hle hlt
    exact (h.used_iff hk t n).mpr (hd k stage t hst n hle hlt)

theorem anchored (h : OpensPass s s' runId new) (hp : ∀ key, new = some key → NextPass s key)
    (ha : ∀ k, nextIteration s k "retrospective" ≠ 0 → (numbering s k).used "retrospective" 0)
    (k : JobKey) (hk' : nextIteration s' k "retrospective" ≠ 0) :
    (numbering s' k).used "retrospective" 0 := by
  show s'.jobs.get? _ ≠ none
  rw [h.keys]
  by_cases hk : ∃ n, new = some (k.atStage "retrospective" n)
  · obtain ⟨n, hk⟩ := hk
    by_cases hz : nextIteration s k "retrospective" = 0
    · -- the first retrospective of its line
      obtain ⟨-, hn | ⟨before, hst, -⟩⟩ := hp _ hk
      · have hn : n = nextIteration s k "retrospective" := hn
        rw [hk, hn, hz]
        exact .inr rfl
      · exact absurd hst (PRODUCTIVE_DAG_ne_retrospective before)
    · exact .inl (ha k hz)
  · refine .inl (ha k ?_)
    obtain ⟨n, hn⟩ := Nat.exists_eq_succ_of_ne_zero hk'
    have hu := nextIteration_used hn
    rw [h.keys, or_iff_left fun e => hk ⟨n, e⟩] at hu
    have := lt_nextIteration hu
    omega

theorem lineInv (h : OpensPass s s' runId new) (hi : LineInv s) (ho : Owned s')
    (hp : ∀ key, new = some key → NextPass s key)
    (hopen : ∀ key, new = some key → HasOpen s' runId)
    (hdone : ∀ ρ, LineDone s ρ → LineDone s' ρ) (hend : new = none → LineDone s' runId) :
    LineInv s' where
  owned := ho
  single j j' hj hj' hr hs hs' := by
    by_cases hid : j.key.runId = runId
    · have h₁ := h.only j hj hid hs
      have h₂ := h.only j' hj' (hr ▸ hid) hs'
      exact Option.some.inj (h₁.symm.trans h₂)
    · exact hi.single j j' ((h.others j hid).mp hj) ((h.others j' (hr ▸ hid)).mp hj') hr hs hs'
  last j hj hs := by
    by_cases hid : j.key.runId = runId
    · have hn := h.only j hj hid hs
      exact (h.opens hn (hp _ hn).1).next_self
    · rw [h.next_eq fun stage n e => hid (h.runId_eq (j.key.atStage stage n) e)]
      exact hi.last j ((h.others j hid).mp hj) hs
  dense := h.dense hp hi.dense
  anchored := h.anchored hp hi.anchored
  going j hj := by
    by_cases hid : j.key.runId = runId
    · rw [hid]
      cases hn : new with
      | none => exact .inr (hend hn)
      | some key => exact .inl (hopen key hn)
    · rcases hi.going j ((h.others j hid).mp hj) with ⟨j₀, hj₀, hr₀, hs₀⟩ | hd
      · exact .inl ⟨j₀, (h.others j₀ (hr₀ ▸ hid)).mpr hj₀, hr₀, hs₀⟩
      · exact .inr (hdone _ hd)

end OpensPass

end Control
end DarkFactory
