import DarkFactory.Lib.Runs
import DarkFactory.Portfolio.BudgetManager

/-!
# DarkFactory.Portfolio.BudgetGate

Several budget managers on one file.

* `World` — the file, the live instances and the exact sums of what was recorded.
* `step` — an instance is made, dropped, records a spend or is asked; or the file is left unreadable.
* `Kept` — the file holds the sums, and no instance lets a project spend whose sum reached its limit.
* `Careful` — the steps that keep this: no stale instance writes, no amount is lost to rounding, nobody else still
  allows a project whose limit is reached, and no instance is made from a file that lost a project's spend.

Every write is the whole memory of one instance, so `Agrees` is about all projects at once.
-/

namespace DarkFactory
namespace Portfolio
namespace Budget

/-- The limits the file holds at the start, none where there is no file. -/
abbrev Start := Option (String → Option {limit : Rat // 0 ≤ limit})

def Start.file : Start → BudgetFile
  | none => .absent
  | some limits => .saved fun project => (limits project).map fun limit => .fresh limit

def Start.limit (start : Start) (project : String) : Rat := limitOf start.file.entries project

structure World (ι : Type) where
  file : BudgetFile
  memory : ι → Option Budgets
  total : String → Rat

inductive Op (ι : Type) where
  | construct (i : ι)
  | drop (i : ι)
  | recordSpend (i : ι) (project : String) (amount : {amount : Rat // 0 ≤ amount})
  | isPaidCloudAllowed (i : ι) (project : String)
  | corrupt (readBefore : String → Bool)

variable {ι : Type}

def World.start (start : Start) : World ι := ⟨start.file, fun _ => none, fun _ => 0⟩

/-- The file when `_load` gets no further than the entries `readBefore` has. -/
def BudgetFile.corrupt (file : BudgetFile) (readBefore : String → Bool) : BudgetFile :=
  .unreadable fun project => if readBefore project then file.entries project else none

variable [DecidableEq ι]

def World.hold (w : World ι) (i : ι) (budgets : Option Budgets) : World ι :=
  { w with memory := Function.update w.memory i budgets }

def World.save (w : World ι) (i : ι) (budgets : Budgets) : World ι :=
  { w.hold i (some budgets) with file := .saved budgets }

def step (w : World ι) : Op ι → World ι
  | .construct i => w.hold i (some (load w.file))
  | .drop i => w.hold i none
  | .recordSpend i project amount =>
    match w.memory i with
    | none => w
    | some budgets =>
      { w.save i (recordSpend budgets project amount).2.1 with
        total := Function.update w.total project (w.total project + amount) }
  | .isPaidCloudAllowed i project =>
    match w.memory i with
    | none => w
    | some budgets =>
      let (_, budgets, saved) := Budget.isPaidCloudAllowed budgets project
      if saved then w.save i budgets else w.hold i (some budgets)
  | .corrupt readBefore => { w with file := w.file.corrupt readBefore }

/-- The budgets have the exact sum of every project. -/
def Agrees (total : String → Rat) (budgets : Budgets) : Prop :=
  ∀ project, spentOf budgets project = total project

def Stored (w : World ι) : Prop :=
  match w.file with
  | .unreadable _ => True
  | file => Agrees w.total file.entries

/-- Every live instance refuses a project whose sum has reached its limit. -/
def Gated (limit : String → Rat) (w : World ι) : Prop :=
  ∀ i budgets, w.memory i = some budgets → ∀ project, limit project ≤ w.total project →
    (isPaidCloudAllowed budgets project).1 = false

def Kept (limit : String → Rat) (w : World ι) : Prop := Stored w ∧ Gated limit w

def NothingLost (limit total : String → Rat) : BudgetFile → Prop
  | .unreadable readBefore =>
    ∀ project, readBefore project = none → total project = 0 ∧ limit project = defaultLimit project
  | _ => True

def Careful (limit : String → Rat) (w : World ι) : Op ι → Prop
  | .construct _ => (∀ project, 0 < limit project) ∧ NothingLost limit w.total w.file
  | .drop _ => True
  | .recordSpend i project amount => ∀ budgets, w.memory i = some budgets →
    Agrees w.total budgets ∧ round4 (w.total project + amount) = w.total project + amount ∧
      (limit project ≤ w.total project + amount →
        ∀ j others, j ≠ i → w.memory j = some others → statusOf others project = .localOnly)
  | .isPaidCloudAllowed i project => ∀ budgets, w.memory i = some budgets → budgets project = none →
    Agrees w.total budgets
  | .corrupt _ => True

structure Holds (limit total : String → Rat) (budgets : Budgets) (project : String) : Prop where
  limitOf_eq : limitOf budgets project = limit project
  shut : 0 < limit project → limit project ≤ total project → statusOf budgets project = .localOnly

/-- An entry the file still has is exact. -/
def FileHolds (limit total : String → Rat) : BudgetFile → Prop
  | .unreadable readBefore => ∀ project b, readBefore project = some b →
    Holds limit total readBefore project ∧ spentOf readBefore project = total project
  | file => ∀ project, Holds limit total file.entries project ∧ spentOf file.entries project = total project

structure Inv (limit : String → Rat) (w : World ι) : Prop where
  file : FileHolds limit w.total w.file
  memory : ∀ i budgets, w.memory i = some budgets →
    (∀ project, 0 < limit project) ∧ ∀ project, Holds limit w.total budgets project

variable {limit total : String → Rat}

theorem Holds.of_budgetOf {budgets budgets' : Budgets} {project : String}
    (heq : budgetOf budgets' project = budgetOf budgets project) (h : Holds limit total budgets project) :
    Holds limit total budgets' project := by
  refine ⟨?_, fun hpos hfull => ?_⟩
  · rw [limitOf, heq]
    exact h.limitOf_eq
  · rw [statusOf, heq]
    exact h.shut hpos hfull

omit [DecidableEq ι] in
theorem Inv.kept {w : World ι} (h : Inv limit w) : Kept limit w := by
  obtain ⟨file, memory, total⟩ := w
  refine ⟨?_, fun i budgets hi project hfull => ?_⟩
  · have hfile := h.file
    cases file with
    | unreadable readBefore => trivial
    | absent => exact fun project => (hfile project).2
    | saved budgets => exact fun project => (hfile project).2
  · obtain ⟨hpos, hmemory⟩ := h.memory i budgets hi
    have hshut := (hmemory project).shut (hpos project) hfull
    rw [isPaidCloudAllowed_fst, hshut]
    rfl

omit [DecidableEq ι] in
theorem inv_start (start : Start) : Inv start.limit (World.start start : World ι) := by
  refine ⟨?_, fun i budgets hi => by cases hi⟩
  have hzero : ∀ project, spentOf start.file.entries project = 0 := by
    intro project
    cases start with
    | none => rfl
    | some limits =>
      simp only [Start.file, BudgetFile.entries, spentOf, budgetOf]
      cases limits project with
      | none => rfl
      | some limit => rfl
  have hfile : ∀ project, Holds start.limit (fun _ => 0) start.file.entries project ∧
      spentOf start.file.entries project = 0 := by
    intro project
    exact ⟨⟨rfl, fun hpos hfull => absurd hpos (not_lt.mpr hfull)⟩, hzero project⟩
  cases start with
  | none => exact hfile
  | some limits => exact hfile

theorem FileHolds.load {file : BudgetFile} (h : FileHolds limit total file) (hlost : NothingLost limit total file)
    (project : String) : Holds limit total (Budget.load file) project := by
  apply Holds.of_budgetOf (budgetOf_load file project)
  cases file with
  | absent => exact (h project).1
  | saved budgets => exact (h project).1
  | unreadable readBefore =>
    cases hread : readBefore project with
    | some b => exact (h project b hread).1
    | none =>
      obtain ⟨htotal, hlimit⟩ := hlost project hread
      have hfresh : budgetOf readBefore project = .fresh (defaultLimit project) := by
        rw [budgetOf, hread]
        rfl
      refine ⟨?_, fun hpos hfull => ?_⟩
      · rw [limitOf, BudgetFile.entries, hfresh, hlimit]
        rfl
      · rw [htotal] at hfull
        exact absurd hpos (not_lt.mpr hfull)

theorem FileHolds.corrupt {file : BudgetFile} (h : FileHolds limit total file) (readBefore : String → Bool) :
    FileHolds limit total (file.corrupt readBefore) := by
  intro project b hb
  simp only at hb
  have hread : readBefore project = true := by
    by_contra hread
    rw [if_neg hread] at hb
    cases hb
  rw [if_pos hread] at hb
  have heq : budgetOf (file.corrupt readBefore).entries project = budgetOf file.entries project := by
    simp only [budgetOf, BudgetFile.corrupt, BudgetFile.entries]
    rw [if_pos hread]
  have hentry : Holds limit total file.entries project ∧ spentOf file.entries project = total project := by
    cases file with
    | absent => cases hb
    | saved budgets => exact h project
    | unreadable before => exact h project b hb
  refine ⟨hentry.1.of_budgetOf heq, ?_⟩
  rw [← hentry.2]
  exact congrArg ProjectBudgetConfig.currentSpentUsd heq

variable {w : World ι}

theorem Inv.hold (h : Inv limit w) (i : ι) {budgets : Option Budgets}
    (hnew : ∀ b, budgets = some b → (∀ project, 0 < limit project) ∧ ∀ project, Holds limit w.total b project) :
    Inv limit (w.hold i budgets) := by
  refine ⟨h.file, fun j b hj => ?_⟩
  by_cases heq : j = i
  · subst heq
    simp only [World.hold, Function.update_self] at hj
    exact hnew b hj
  · simp only [World.hold, Function.update_of_ne heq] at hj
    exact h.memory j b hj

theorem Inv.save (h : Inv limit w) (i : ι) {budgets : Budgets} (hpos : ∀ project, 0 < limit project)
    (hholds : ∀ project, Holds limit w.total budgets project) (hagrees : Agrees w.total budgets) :
    Inv limit (w.save i budgets) := by
  refine ⟨fun project => ⟨hholds project, hagrees project⟩, ?_⟩
  have hheld : ∀ b, some budgets = some b → (∀ project, 0 < limit project) ∧ ∀ project, Holds limit w.total b project := by
    intro b hb
    cases hb
    exact ⟨hpos, hholds⟩
  exact (h.hold i hheld).memory

theorem inv_recordSpend (h : Inv limit w) {i : ι} {project : String} {amount : {amount : Rat // 0 ≤ amount}}
    (hcareful : Careful limit w (.recordSpend i project amount)) :
    Inv limit (step w (.recordSpend i project amount)) := by
  cases hi : w.memory i with
  | none =>
    simp only [step, hi]
    exact h
  | some budgets =>
    obtain ⟨hagrees, hround, hothers⟩ := hcareful budgets hi
    obtain ⟨hpos, hholds⟩ := h.memory i budgets hi
    obtain ⟨amount, hamount⟩ := amount
    simp only [step, hi]
    simp only at hround hothers
    generalize hsums : Function.update w.total project (w.total project + amount) = sums
    have hself : sums project = w.total project + amount := by
      rw [← hsums, Function.update_self]
    have hother : ∀ other, other ≠ project → sums other = w.total other := by
      intro other hne
      rw [← hsums, Function.update_of_ne hne]
    have hspent : Agrees sums (recordSpend budgets project amount).2.1 := by
      intro other
      by_cases heq : other = project
      · rw [heq, hself, spentOf_recordSpend budgets project hamount, hagrees project]
        exact hround
      · rw [spentOf, budgetOf_recordSpend_other amount heq, hother other heq]
        exact hagrees other
    have hown : ∀ other, Holds limit sums (recordSpend budgets project amount).2.1 other := by
      intro other
      have hlimit := (hholds other).limitOf_eq
      refine ⟨(limitOf_recordSpend budgets project other hamount).trans hlimit, fun hpos hfull => ?_⟩
      by_cases heq : other = project
      · subst heq
        rw [hself, ← hround, ← hagrees other] at hfull
        rw [← hlimit] at hpos hfull
        exact statusOf_recordSpend hamount hpos hfull
      · rw [hother other heq] at hfull
        rw [statusOf, budgetOf_recordSpend_other amount heq]
        exact (hholds other).shut hpos hfull
    refine ⟨fun other => ⟨hown other, hspent other⟩, fun j b hj => ?_⟩
    simp only [World.save, World.hold] at hj
    by_cases heq : j = i
    · subst heq
      rw [Function.update_self, Option.some.injEq] at hj
      subst hj
      exact ⟨hpos, hown⟩
    · rw [Function.update_of_ne heq] at hj
      have hb := (h.memory j b hj).2
      refine ⟨hpos, fun other => ⟨(hb other).limitOf_eq, fun hlimit hfull => ?_⟩⟩
      simp only at hfull
      -- the others keep their status, and must have shut the project before its sum got there
      by_cases hp : other = project
      · subst hp
        rw [hself] at hfull
        exact hothers hfull j b heq hj
      · rw [hother other hp] at hfull
        exact (hb other).shut hlimit hfull

theorem inv_isPaidCloudAllowed (h : Inv limit w) {i : ι} {project : String}
    (hcareful : Careful limit w (.isPaidCloudAllowed i project)) :
    Inv limit (step w (.isPaidCloudAllowed i project)) := by
  cases hi : w.memory i with
  | none =>
    simp only [step, hi]
    exact h
  | some budgets =>
    obtain ⟨hpos, hholds⟩ := h.memory i budgets hi
    have hsame := budgetOf_isPaidCloudAllowed budgets project
    have hholds' : ∀ other, Holds limit w.total (isPaidCloudAllowed budgets project).2.1 other :=
      fun other => (hholds other).of_budgetOf (hsame other)
    simp only [step, hi]
    cases hknown : budgets project with
    | some b =>
      rw [isPaidCloudAllowed_not_saved hknown, if_neg Bool.false_ne_true]
      exact h.hold i fun b hb => by
        cases hb
        exact ⟨hpos, hholds'⟩
    | none =>
      rw [isPaidCloudAllowed_saved hknown, if_pos rfl]
      refine h.save i hpos hholds' fun other => ?_
      rw [spentOf, hsame other]
      exact hcareful budgets hi hknown other

theorem inv_step (w : World ι) (op : Op ι) (h : Inv limit w) (hcareful : Careful limit w op) :
    Inv limit (step w op) := by
  cases op with
  | construct i =>
    refine h.hold i fun b hb => ?_
    cases hb
    exact ⟨hcareful.1, h.file.load hcareful.2⟩
  | drop i => exact h.hold i fun b hb => by cases hb
  | recordSpend i project amount => exact inv_recordSpend h hcareful
  | isPaidCloudAllowed i project => exact inv_isPaidCloudAllowed h hcareful
  | corrupt readBefore => exact ⟨h.file.corrupt readBefore, h.memory⟩

end Budget
end Portfolio
end DarkFactory
