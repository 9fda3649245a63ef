import DarkFactory.Python.Round

/-!
# DarkFactory.Portfolio.BudgetManager

The project budgets of `core/portfolio/budget_manager.py`, with exact amounts.

* `ProjectBudgetConfig`, `Budgets` — one budget, and the budgets an instance or a file holds, by project.
* `BudgetFile`, `load` — the file and what a new instance makes of it. A file on which `_load` stops with an
  exception keeps the entries read before it.
* `getBudget`, `recordSpend`, `isPaidCloudAllowed` — the operations; a flag says whether the memory was saved.
* `limitOf`, `spentOf`, `statusOf` — what an instance would say of a project, known to it or not.
-/

namespace DarkFactory
namespace Portfolio
namespace Budget

inductive BudgetStatus where
  | active
  | warning
  | localOnly
  deriving DecidableEq

structure ProjectBudgetConfig where
  monthlyLimitUsd : Rat
  currentSpentUsd : Rat
  status : BudgetStatus
  deriving DecidableEq

abbrev Budgets := String → Option ProjectBudgetConfig

inductive BudgetFile where
  | absent
  | saved (budgets : Budgets)
  | unreadable (readBefore : Budgets)

/-- The Telegram message of `_evaluate_thresholds`. -/
inductive Alert where
  | ceilingReached
  | warning
  deriving DecidableEq

def defaultBudgetsUsd : String → Option Rat
  | "atrium" => some 25
  | "jarvis" => some 35
  | "darkfac" => some 50
  | _ => none

/-- `DEFAULT_BUDGETS_USD.get(project_id, 25.0)` -/
def defaultLimit (project : String) : Rat := (defaultBudgetsUsd project).getD 25

def ProjectBudgetConfig.fresh (limit : Rat) : ProjectBudgetConfig := ⟨limit, 0, .active⟩

def ProjectBudgetConfig.utilizationPct (b : ProjectBudgetConfig) : Rat :=
  if b.monthlyLimitUsd ≤ 0 then 0
  else round2 (b.currentSpentUsd / b.monthlyLimitUsd * 100)

def BudgetFile.entries : BudgetFile → Budgets
  | .absent => fun _ => none
  | .saved budgets => budgets
  | .unreadable readBefore => readBefore

def load (file : BudgetFile) : Budgets := fun project =>
  match file.entries project with
  | some budget => some budget
  | none => (defaultBudgetsUsd project).map .fresh

def getBudget (budgets : Budgets) (project : String) : ProjectBudgetConfig × Budgets × Bool :=
  match budgets project with
  | some budget => (budget, budgets, false)
  | none =>
    let budget := .fresh (defaultLimit project)
    (budget, Function.update budgets project (some budget), true)

def evaluateThresholds (b : ProjectBudgetConfig) : ProjectBudgetConfig × Option Alert :=
  if 100 ≤ b.utilizationPct then
    ({ b with status := .localOnly }, if b.status ≠ .localOnly then some .ceilingReached else none)
  else if 80 ≤ b.utilizationPct then
    ({ b with status := .warning }, if b.status = .active then some .warning else none)
  else ({ b with status := .active }, none)

def recordSpend (budgets : Budgets) (project : String) (amount : Rat) : ProjectBudgetConfig × Budgets × Option Alert :=
  let (budget, budgets, _) := getBudget budgets project
  let spent := round4 (budget.currentSpentUsd + max 0 amount)
  let (budget, alert) := evaluateThresholds { budget with currentSpentUsd := spent }
  (budget, Function.update budgets project (some budget), alert)

def isPaidCloudAllowed (budgets : Budgets) (project : String) : Bool × Budgets × Bool :=
  let (budget, budgets, saved) := getBudget budgets project
  (decide (budget.status ≠ .localOnly), budgets, saved)

def budgetOf (budgets : Budgets) (project : String) : ProjectBudgetConfig :=
  (budgets project).getD (.fresh (defaultLimit project))

def limitOf (budgets : Budgets) (project : String) : Rat := (budgetOf budgets project).monthlyLimitUsd

def spentOf (budgets : Budgets) (project : String) : Rat := (budgetOf budgets project).currentSpentUsd

def statusOf (budgets : Budgets) (project : String) : BudgetStatus := (budgetOf budgets project).status

theorem budgetOf_load (file : BudgetFile) (project : String) :
    budgetOf (load file) project = budgetOf file.entries project := by
  unfold budgetOf load
  cases file.entries project with
  | some budget => rfl
  | none =>
    unfold defaultLimit
    cases defaultBudgetsUsd project with
    | none => rfl
    | some limit => rfl

theorem budgetOf_update (budgets : Budgets) (project other : String) (b : ProjectBudgetConfig) :
    budgetOf (Function.update budgets project (some b)) other =
      if other = project then b else budgetOf budgets other := by
  unfold budgetOf
  by_cases h : other = project
  · rw [if_pos h, h, Function.update_self]
    rfl
  · rw [if_neg h, Function.update_of_ne h]

theorem getBudget_fst (budgets : Budgets) (project : String) :
    (getBudget budgets project).1 = budgetOf budgets project := by
  unfold getBudget budgetOf
  cases budgets project with
  | none => rfl
  | some budget => rfl

theorem budgetOf_getBudget (budgets : Budgets) (project other : String) :
    budgetOf (getBudget budgets project).2.1 other = budgetOf budgets other := by
  unfold getBudget
  cases h : budgets project with
  | some budget => rfl
  | none =>
    simp only
    rw [budgetOf_update]
    split
    · rename_i heq
      rw [heq, budgetOf, h]
      rfl
    · rfl

theorem budgetOf_isPaidCloudAllowed (budgets : Budgets) (project other : String) :
    budgetOf (isPaidCloudAllowed budgets project).2.1 other = budgetOf budgets other :=
  budgetOf_getBudget budgets project other

theorem isPaidCloudAllowed_fst (budgets : Budgets) (project : String) :
    (isPaidCloudAllowed budgets project).1 = decide (statusOf budgets project ≠ .localOnly) := by
  unfold isPaidCloudAllowed statusOf
  rw [← getBudget_fst]

variable {budgets : Budgets} {project : String} {b : ProjectBudgetConfig}

theorem isPaidCloudAllowed_not_saved
    (h : budgets project = some b) : (isPaidCloudAllowed budgets project).2.2 = false := by
  unfold isPaidCloudAllowed getBudget
  rw [h]

theorem isPaidCloudAllowed_saved (h : budgets project = none) :
    (isPaidCloudAllowed budgets project).2.2 = true := by
  unfold isPaidCloudAllowed getBudget
  rw [h]

theorem evaluateThresholds_limit (b : ProjectBudgetConfig) :
    (evaluateThresholds b).1.monthlyLimitUsd = b.monthlyLimitUsd := by
  unfold evaluateThresholds
  split
  · rfl
  · split <;> rfl

theorem evaluateThresholds_spent (b : ProjectBudgetConfig) :
    (evaluateThresholds b).1.currentSpentUsd = b.currentSpentUsd := by
  unfold evaluateThresholds
  split
  · rfl
  · split <;> rfl

theorem utilizationPct_full (hpos : 0 < b.monthlyLimitUsd)
    (hfull : b.monthlyLimitUsd ≤ b.currentSpentUsd) : 100 ≤ b.utilizationPct := by
  unfold ProjectBudgetConfig.utilizationPct
  rw [if_neg (not_le.mpr hpos)]
  have hratio : 1 ≤ b.currentSpentUsd / b.monthlyLimitUsd := by
    rw [le_div_iff₀ hpos, one_mul]
    exact hfull
  have h := le_round2 (n := 100) (q := b.currentSpentUsd / b.monthlyLimitUsd * 100) (by
    push_cast
    linarith)
  exact_mod_cast h

theorem evaluateThresholds_full (hpos : 0 < b.monthlyLimitUsd)
    (hfull : b.monthlyLimitUsd ≤ b.currentSpentUsd) : (evaluateThresholds b).1.status = .localOnly := by
  unfold evaluateThresholds
  rw [if_pos (utilizationPct_full hpos hfull)]

theorem budgetOf_recordSpend_other {other : String} (amount : Rat) (h : other ≠ project) :
    budgetOf (recordSpend budgets project amount).2.1 other = budgetOf budgets other := by
  unfold recordSpend
  dsimp only
  rw [budgetOf_update, if_neg h, budgetOf_getBudget]

theorem budgetOf_recordSpend (budgets : Budgets) (project : String) {amount : Rat} (h : 0 ≤ amount) :
    budgetOf (recordSpend budgets project amount).2.1 project = (evaluateThresholds { budgetOf budgets project with
        currentSpentUsd := round4 (spentOf budgets project + amount) }).1 := by
  unfold recordSpend
  dsimp only
  rw [budgetOf_update, if_pos rfl, getBudget_fst, max_eq_right h]
  rfl

theorem limitOf_recordSpend (budgets : Budgets) (project other : String) {amount : Rat} (h : 0 ≤ amount) :
    limitOf (recordSpend budgets project amount).2.1 other = limitOf budgets other := by
  unfold limitOf
  by_cases heq : other = project
  · rw [heq, budgetOf_recordSpend budgets project h, evaluateThresholds_limit]
  · rw [budgetOf_recordSpend_other amount heq]

theorem spentOf_recordSpend (budgets : Budgets) (project : String) {amount : Rat} (h : 0 ≤ amount) :
    spentOf (recordSpend budgets project amount).2.1 project = round4 (spentOf budgets project + amount) := by
  rw [spentOf, budgetOf_recordSpend budgets project h, evaluateThresholds_spent]

theorem statusOf_recordSpend {amount : Rat} (h : 0 ≤ amount) (hpos : 0 < limitOf budgets project)
    (hfull : limitOf budgets project ≤ round4 (spentOf budgets project + amount)) :
    statusOf (recordSpend budgets project amount).2.1 project = .localOnly := by
  rw [statusOf, budgetOf_recordSpend budgets project h]
  exact evaluateThresholds_full hpos hfull

end Budget
end Portfolio
end DarkFactory
