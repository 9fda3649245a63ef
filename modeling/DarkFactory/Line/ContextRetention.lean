import Mathlib.Algebra.Order.Field.Rat
import Mathlib.Data.String.Basic
import DarkFactory.Lib.Table
import DarkFactory.Python.Digits
import DarkFactory.Python.Sort
import DarkFactory.Python.Text

/-!
# DarkFactory.Line.ContextRetention

The sweep of `core/line/context_retention.py` over the recovery refs of runs.

* `Env` — what each call of a sweep is told, and what others do to the remotes before it.
* `decideRef`, `deleteIfUnchanged`, `sweepRef`, `sweepRecoveryContexts` — the sweep, with a `Scan` of each ref beside
  its report.
* `Old`, `Sound` — what may be removed, and what the reports have to tell.
* `sweep_recovery_contexts_sound` — a sweep is sound when no look finds a run that ended at the epoch itself.
-/

namespace DarkFactory
namespace Line
namespace ContextRetention

open Text

def CONTEXT_REF_PREFIX : String := "refs/heads/darkfac-context/"

def TERMINAL_RUN_STATUSES : List String := ["completed", "cancelled", "failed", "succeeded"]

def LIVE_JOB_STATUSES : List String :=
  ["pending", "running", "retry", "replan", "waiting_dependency", "waiting_human"]

def RUN_OPEN_JOB_STATUSES : List String := ["pending", "running", "waiting_human", "waiting_dependency"]

/-- `datetime.fromisoformat(text)` as a time since the epoch, and a number in the format `g`. -/
structure Python where
  timestamp : String → Option Rat
  general : Rat → String

structure Config where
  terminalMaxAgeDays : Rat
  dryRun : Bool

structure Setting where
  py : Python
  protectedRunIds : List String
  cfg : Config
  moment : Rat

structure Project where
  id : String
  repoUrl : String

inductive KeepReason where
  | protectedRun
  | statusLookupFailed
  | unknownRun
  | projectMismatch
  | liveJob
  | notTerminal
  | noTimestamp
  | tooRecent
  | invalidRefName
  | alreadyAbsent
  | leaseLost
  | removeFailed
  | sweepError
deriving DecidableEq

/-- A status mapping, with `str` of what is read in it. No or an empty project id, a false time and a job that is no
mapping are none. -/
structure RunStatus where
  projectId : Option String
  jobs : Except String (List (Option String))
  status : String
  completedAt : Option String
  updatedAt : Option String

inductive Answer where
  | failed (error : String)
  | unknown
  /-- Neither a mapping nor `None`. -/
  | malformed
  | run (status : RunStatus)

inductive Decision where
  | keep (reason : KeepReason)
  | remove (reason : String)

def parseTs (py : Python) (value : Option String) : Option Rat :=
  value.bind fun text =>
    py.timestamp (String.ofList (text.toList.flatMap fun c => if c = 'Z' then "+00:00".toList else [c]))

/-- `_parse_ts(completed_at) or _parse_ts(updated_at)`, where `0.0` is false. -/
def finishedAt (py : Python) (st : RunStatus) : Option Rat :=
  if (parseTs py st.completedAt).getD 0 = 0 then parseTs py st.updatedAt else parseTs py st.completedAt

def decideRef (set : Setting) (projectId runId : String) (answer : Answer) : Except String Decision :=
  if runId ∈ set.protectedRunIds then .ok (.keep .protectedRun)
  else
    match answer with
    | .failed _ | .malformed => .ok (.keep .statusLookupFailed)
    | .unknown => .ok (.keep .unknownRun)
    | .run st =>
      if (st.projectId.any fun owner => owner ≠ projectId) = true then .ok (.keep .projectMismatch)
      else
        match st.jobs with
        | .error error => .error error
        | .ok jobs =>
          if (jobs.any fun job => job.any fun status => status ∈ LIVE_JOB_STATUSES) = true then
            .ok (.keep .liveJob)
          else if st.status ∉ TERMINAL_RUN_STATUSES then .ok (.keep .notTerminal)
          else
            match finishedAt set.py st with
            | none => .ok (.keep .noTimestamp)
            | some finished =>
              if (set.moment - finished) / 86400 < set.cfg.terminalMaxAgeDays then .ok (.keep .tooRecent)
              else .ok (.remove ("terminal_older_than_" ++ set.py.general set.cfg.terminalMaxAgeDays ++ "d"))

/-- `[A-Za-z0-9][A-Za-z0-9._-]*` -/
def isRunId : List Char → Bool
  | [] => false
  | c :: cs => c.isAlphanum && cs.all fun c => c.isAlphanum || c ∈ ['.', '_', '-']

def contextRef (runId : String) : String := CONTEXT_REF_PREFIX ++ runId

def runIdOf (ref : String) : Option String :=
  (afterList CONTEXT_REF_PREFIX.toList ref.toList).bind fun cs =>
    if isRunId cs = true ∧ contextRef (String.ofList cs) = ref then some (String.ofList cs) else none

abbrev Refs := Table (Prod.fst : String × String → String)

abbrev Remotes := String → Refs

def Refs.erase (refs : Refs) (ref : String) : Refs where
  rows := refs.rows.filter fun row => row.1 ≠ ref
  unique := refs.unique.sublist (List.filter_sublist.map _)

structure Push where
  /-- It gets to the remote. -/
  reached : Bool
  /-- Its exit status tells what has become of it there. -/
  answered : Bool
  raised : Bool
  text : String

structure Env where
  runStatus : Nat → String → Answer
  /-- What others do to the remotes before the call. -/
  meanwhile : Nat → Remotes → Remotes
  /-- The pattern that `ls-remote` is asked for. -/
  listed : String → Bool
  listing : Nat → Option String
  push : Nat → Push
  look : Nat → Option String

structure SweepEntry where
  projectId : String
  runId : String
  ref : String
  sha : String
  reason : String

inductive Verdict where
  | kept (reason : KeepReason)
  | removed (entry : SweepEntry)
  | wouldRemove (entry : SweepEntry)

structure Scan where
  projectId : String
  repoUrl : String
  ref : String
  sha : String
  looks : List Answer := []
  /-- The object id that the push met, if it reached the remote. -/
  leased : Option String := none
  deleted : Bool := false
  /-- The object id that was found after a push that failed. -/
  found : Option String := none
  verdict : Except String Verdict

structure SweepReport where
  scanned : Nat := 0
  kept : Nat := 0
  keptReasons : KeepReason → Nat := fun _ => 0
  removed : List SweepEntry := []
  wouldRemove : List SweepEntry := []
  leaseLost : Nat := 0

structure World where
  clock : Nat := 0
  remotes : Remotes
  errors : List String := []

structure State where
  world : World
  report : SweepReport := {}
  scans : List Scan := []

def World.error (w : World) (error : String) : World := { w with errors := w.errors ++ [error] }

/-- `_record_keep` -/
def SweepReport.keep (r : SweepReport) (reason : KeepReason) : SweepReport :=
  { r with kept := r.kept + 1, keptReasons := Function.update r.keptReasons reason (r.keptReasons reason + 1) }

inductive DeleteOutcome where
  | removed
  | alreadyAbsent
  | leaseLost
  | failed (detail : String)

/-- What `_delete_if_unchanged` returns or raises, and what the remote saw of it. -/
structure Deletion where
  leased : Option String
  deleted : Bool
  found : Option String := none
  outcome : Except String DeleteOutcome

def pushDelete (env : Env) (w : World) (repoUrl ref sha : String) : Option String × Remotes :=
  let remotes := env.meanwhile w.clock w.remotes
  let leased := if (env.push w.clock).reached = true then ((remotes repoUrl).get? ref).map Prod.snd else none
  (leased, if leased = some sha then Function.update remotes repoUrl (Refs.erase (remotes repoUrl) ref) else remotes)

def deleteIfUnchanged (env : Env) (w : World) (repoUrl ref sha : String) : Deletion × World :=
  let push := env.push w.clock
  let pushed := pushDelete env w repoUrl ref sha
  let deleted := decide (pushed.1 = some sha)
  if push.raised = true then
    (⟨pushed.1, deleted, none, .error push.text⟩, { w with clock := w.clock + 1, remotes := pushed.2 })
  else if deleted = true ∧ push.answered = true then
    (⟨pushed.1, deleted, none, .ok .removed⟩, { w with clock := w.clock + 1, remotes := pushed.2 })
  else
    let remotes := env.meanwhile (w.clock + 1) pushed.2
    let current := ((remotes repoUrl).get? ref).map Prod.snd
    let outcome := match env.look (w.clock + 1), current with
      | some error, _ => .error error
      | none, none => .ok .alreadyAbsent
      | none, some current => .ok (if current ≠ sha then .leaseLost else .failed push.text)
    (⟨pushed.1, deleted, current, outcome⟩, { w with clock := w.clock + 2, remotes })

def lookup (env : Env) (w : World) (label runId : String) : Answer × World :=
  let answer := env.runStatus w.clock runId
  let w := { w with clock := w.clock + 1 }
  (answer, match answer with
    | .failed error => w.error (label ++ ": status lookup failed: " ++ error)
    | _ => w)

/-- `_sweep_ref` from the deletion on. -/
def removeRef (env : Env) (label : String) (entry : SweepEntry) (scan : Scan) (w : World) : Scan × World :=
  let d := deleteIfUnchanged env w scan.repoUrl scan.ref scan.sha
  let scan := { scan with leased := d.1.leased, deleted := d.1.deleted, found := d.1.found }
  match d.1.outcome with
  | .error error => ({ scan with verdict := .error error }, d.2)
  | .ok .removed => ({ scan with verdict := .ok (.removed entry) }, d.2)
  | .ok .alreadyAbsent => ({ scan with verdict := .ok (.kept .alreadyAbsent) }, d.2)
  | .ok .leaseLost => ({ scan with verdict := .ok (.kept .leaseLost) }, d.2)
  | .ok (.failed detail) =>
    ({ scan with verdict := .ok (.kept .removeFailed) }, d.2.error (label ++ ": remove failed: " ++ detail))

def sweepRef (env : Env) (set : Setting) (projectId repoUrl : String) (row : String × String) (w : World) :
    Scan × World :=
  let scan : Scan :=
    { projectId, repoUrl, ref := row.1, sha := row.2, verdict := .ok (.kept .invalidRefName) }
  match runIdOf row.1 with
  | none => (scan, w)
  | some runId =>
    if runId ∈ set.protectedRunIds then ({ scan with verdict := .ok (.kept .protectedRun) }, w)
    else
      let label := projectId ++ "/" ++ runId
      let first := lookup env w label runId
      let scan := { scan with looks := [first.1] }
      match decideRef set projectId runId first.1 with
      | .error error => ({ scan with verdict := .error error }, first.2)
      | .ok (.keep reason) => ({ scan with verdict := .ok (.kept reason) }, first.2)
      | .ok (.remove reason) =>
        let entry : SweepEntry := ⟨projectId, runId, row.1, row.2, reason⟩
        if set.cfg.dryRun = true then ({ scan with verdict := .ok (.wouldRemove entry) }, first.2)
        else
          let second := lookup env first.2 label runId
          let scan := { scan with looks := [first.1, second.1] }
          match decideRef set projectId runId second.1 with
          | .error error => ({ scan with verdict := .error error }, second.2)
          | .ok (.keep reason) => ({ scan with verdict := .ok (.kept reason) }, second.2)
          | .ok (.remove _) => removeRef env label entry scan second.2

def SweepReport.count (r : SweepReport) (scan : Scan) : SweepReport :=
  let r := { r with scanned := r.scanned + 1 }
  match scan.verdict with
  | .ok (.kept reason) =>
    { r.keep reason with leaseLost := if reason = .leaseLost then r.leaseLost + 1 else r.leaseLost }
  | .ok (.removed entry) => { r with removed := r.removed ++ [entry] }
  | .ok (.wouldRemove entry) => { r with wouldRemove := r.wouldRemove ++ [entry] }
  | .error _ => r.keep .sweepError

def World.after (w : World) (scan : Scan) : World :=
  match scan.verdict with
  | .error error => w.error (scan.projectId ++ "/" ++ scan.ref ++ ": " ++ error)
  | .ok _ => w

def sweepRefs (env : Env) (set : Setting) (projectId repoUrl : String) : List (String × String) → State → State
  | [], s => s
  | row :: rows, s =>
    let scanned := sweepRef env set projectId repoUrl row s.world
    sweepRefs env set projectId repoUrl rows
      ⟨scanned.2.after scanned.1, s.report.count scanned.1, s.scans ++ [scanned.1]⟩

/-- `^git@([^:]+):(.+)$` becomes a URL. -/
def normalizeRepoUrl (url : String) : String :=
  match afterList "git@".toList url.toList with
  | none => url
  | some rest =>
    let host := rest.takeWhile (· ≠ ':')
    let line := rest.drop (host.length + 1)
    let path := if line.getLast? = some '\n' then line.dropLast else line
    if host = [] ∨ path = [] ∨ '\n' ∈ path then url else String.ofList ("https://".toList ++ host ++ '/' :: path)

def listContextRefs (env : Env) (refs : Refs) : List (String × String) :=
  sortAsc Prod.fst (refs.rows.filter fun row => env.listed row.1)

def sweepProject (env : Env) (set : Setting) (project : Project) (s : State) : State :=
  let repoUrl := normalizeRepoUrl project.repoUrl
  if project.repoUrl = "" then s
  else if repoUrl = "" ∨ repoUrl.toList.head? = some '-' then
    { s with world := s.world.error (project.id ++ ": unusable repo_url; skipped") }
  else
    let remotes := env.meanwhile s.world.clock s.world.remotes
    let listed := { s.world with clock := s.world.clock + 1, remotes }
    match env.listing s.world.clock with
    | some error => { s with world := listed.error (project.id ++ ": " ++ error) }
    | none => sweepRefs env set project.id repoUrl (listContextRefs env (remotes repoUrl)) { s with world := listed }

def sweepRecoveryContexts (env : Env) (set : Setting) (projects : List Project) (remotes : Remotes) : State :=
  if 0 < set.cfg.terminalMaxAgeDays then
    projects.foldl (fun s project => sweepProject env set project s) { world := { remotes } }
  else { world := { remotes } }

/-- When the run was over: `completed_at`, else `updated_at`. -/
def terminalAt (py : Python) (st : RunStatus) : Option Rat := (parseTs py st.completedAt).or (parseTs py st.updatedAt)

structure Old (set : Setting) (projectId runId : String) (st : RunStatus) : Prop where
  free : runId ∉ set.protectedRunIds
  project : ∀ owner ∈ st.projectId, owner = projectId
  idle : ∃ jobs, st.jobs = .ok jobs ∧ ∀ status, some status ∈ jobs → status ∉ RUN_OPEN_JOB_STATUSES
  terminal : st.status ∈ TERMINAL_RUN_STATUSES
  age : ∃ t, terminalAt set.py st = some t ∧ set.cfg.terminalMaxAgeDays ≤ (set.moment - t) / 86400

/-- The run ended at the epoch itself, less than the retention ago, and was updated before that. -/
def epochHides (set : Setting) : Answer → Bool
  | .run st => decide (parseTs set.py st.completedAt = some 0 ∧ set.moment / 86400 < set.cfg.terminalMaxAgeDays) &&
      (parseTs set.py st.updatedAt).any fun t => set.cfg.terminalMaxAgeDays ≤ (set.moment - t) / 86400
  | _ => false

def Scan.reason (scan : Scan) : Option KeepReason :=
  match scan.verdict with
  | .ok (.kept reason) => some reason
  | .error _ => some .sweepError
  | _ => none

def Scan.removed (scan : Scan) : Option SweepEntry :=
  match scan.verdict with
  | .ok (.removed entry) => some entry
  | _ => none

def Scan.wouldRemove (scan : Scan) : Option SweepEntry :=
  match scan.verdict with
  | .ok (.wouldRemove entry) => some entry
  | _ => none

structure Tallied (r : SweepReport) (scans : List Scan) : Prop where
  scanned : r.scanned = scans.length
  kept : r.kept = (scans.filterMap Scan.reason).length
  reasons : ∀ reason, r.keptReasons reason = (scans.filterMap Scan.reason).count reason
  removed : r.removed = scans.filterMap Scan.removed
  wouldRemove : r.wouldRemove = scans.filterMap Scan.wouldRemove
  leaseLost : r.leaseLost = (scans.filterMap Scan.reason).count .leaseLost

/-- A deletion hits the object that was scanned, of a run that both looks find old. -/
structure Safe (set : Setting) (scan : Scan) : Prop where
  real : set.cfg.dryRun = false
  leased : scan.leased = some scan.sha
  old : ∃ runId first second, isRunId runId.toList = true ∧ scan.ref = contextRef runId ∧
    scan.looks = [.run first, .run second] ∧ Old set scan.projectId runId first ∧ Old set scan.projectId runId second

structure Unchanged (env : Env) : Prop where
  runStatus : ∀ n m, env.runStatus n = env.runStatus m
  meanwhile : ∀ n remotes, env.meanwhile n remotes = remotes
  listing : ∀ n, env.listing n = none
  push : ∀ n, (env.push n).reached = true ∧ (env.push n).answered = true ∧ (env.push n).raised = false

def Setting.withDryRun (set : Setting) (dryRun : Bool) : Setting := { set with cfg := { set.cfg with dryRun } }

structure Sound (env : Env) (set : Setting) (projects : List Project) (remotes : Remotes) (s : State) : Prop where
  safe : ∀ scan ∈ s.scans, scan.deleted = true → Safe set scan
  tallied : Tallied s.report s.scans
  total : s.report.scanned = s.report.kept + s.report.removed.length + s.report.wouldRemove.length
  removed : ∀ scan ∈ s.scans, ∀ entry ∈ scan.removed,
    scan.deleted = true ∧ entry.ref = scan.ref ∧ entry.sha = scan.sha
  wouldRemove : ∀ scan ∈ s.scans, scan.wouldRemove ≠ none → set.cfg.dryRun = true
  present : ∀ scan ∈ s.scans, scan.reason = some .removeFailed → scan.found = some scan.sha
  predicted : Unchanged env → ∀ repoUrl ref,
    (∃ scan ∈ (sweepRecoveryContexts env (set.withDryRun true) projects remotes).scans,
      scan.repoUrl = repoUrl ∧ scan.ref = ref ∧ scan.wouldRemove ≠ none) ↔
    ∃ scan ∈ (sweepRecoveryContexts env (set.withDryRun false) projects remotes).scans,
      scan.repoUrl = repoUrl ∧ scan.ref = ref ∧ scan.removed ≠ none

variable {env : Env} {set : Setting} {projectId repoUrl : String} {row : String × String} {w : World} {s : State}
  {scan : Scan}

theorem runIdOf_some {ref runId : String} (h : runIdOf ref = some runId) :
    isRunId runId.toList = true ∧ ref = contextRef runId := by
  unfold runIdOf at h
  obtain ⟨cs, -, h⟩ := Option.bind_eq_some_iff.mp h
  split at h
  · rename_i hvalid
    cases h
    exact ⟨by rw [String.toList_ofList]; exact hvalid.1, hvalid.2.symm⟩
  · cases h

/-- What `decideRef` has seen of a run whose ref it removes. -/
structure Passes (set : Setting) (projectId runId : String) (st : RunStatus) : Prop where
  free : runId ∉ set.protectedRunIds
  project : ∀ owner ∈ st.projectId, owner = projectId
  idle : ∃ jobs, st.jobs = .ok jobs ∧ ∀ status, some status ∈ jobs → status ∉ LIVE_JOB_STATUSES
  terminal : st.status ∈ TERMINAL_RUN_STATUSES
  age : ∃ t, finishedAt set.py st = some t ∧ set.cfg.terminalMaxAgeDays ≤ (set.moment - t) / 86400

theorem decideRef_cases {runId : String} {answer : Answer} {decision : Decision}
    (h : decideRef set projectId runId answer = .ok decision) :
    match decision with
    | .keep reason => reason ≠ .removeFailed
    | .remove _ => ∃ st, answer = .run st ∧ Passes set projectId runId st := by
  unfold decideRef at h
  split at h
  · cases h
    exact nofun
  · rename_i hfree
    cases answer with
    | failed error =>
      cases h
      exact nofun
    | unknown =>
      cases h
      exact nofun
    | malformed =>
      cases h
      exact nofun
    | run st =>
      dsimp only at h
      split at h
      · cases h
        exact nofun
      · rename_i hproject
        split at h
        · cases h
        · rename_i jobs hjobs
          split at h
          · cases h
            exact nofun
          · rename_i hlive
            split at h
            · cases h
              exact nofun
            · rename_i hterminal
              split at h
              · cases h
                exact nofun
              · rename_i finished hfinished
                split at h
                · cases h
                  exact nofun
                · rename_i hage
                  cases h
                  refine ⟨st, rfl, hfree, fun owner howner => ?_, ⟨jobs, hjobs, fun status hmem hopen => ?_⟩,
                    not_not.mp hterminal, finished, hfinished, not_lt.mp hage⟩
                  · by_contra hne
                    refine hproject ?_
                    rw [show st.projectId = some owner from howner]
                    exact decide_eq_true hne
                  · exact hlive (List.any_eq_true.mpr ⟨some status, hmem, decide_eq_true hopen⟩)

theorem Passes.old {runId : String} {st : RunStatus} (h : Passes set projectId runId st)
    (hepoch : epochHides set (.run st) = false) : Old set projectId runId st := by
  obtain ⟨jobs, hjobs, hlive⟩ := h.idle
  obtain ⟨t, ht, hage⟩ := h.age
  refine ⟨h.free, h.project, ⟨jobs, hjobs, fun status hmem hopen => hlive status hmem ?_⟩, h.terminal, ?_⟩
  · exact (by decide : RUN_OPEN_JOB_STATUSES ⊆ LIVE_JOB_STATUSES) hopen
  · unfold finishedAt at ht
    unfold terminalAt
    cases hcompleted : parseTs set.py st.completedAt with
    | none =>
      rw [hcompleted, Option.getD_none, if_pos rfl] at ht
      exact ⟨t, ht, hage⟩
    | some c =>
      refine ⟨c, rfl, ?_⟩
      rw [hcompleted, Option.getD_some] at ht
      split at ht
      · rename_i hzero
        -- the time of the end is taken for none, and the update decides
        rw [epochHides, hcompleted, hzero, ht, Option.any_some, decide_eq_true hage, Bool.and_true,
          decide_eq_false_iff_not, not_and, not_lt] at hepoch
        rw [hzero, sub_zero]
        exact hepoch rfl
      · cases ht
        exact hage

structure Deleting (sha : String) (d : Deletion) : Prop where
  deleted : d.deleted = true → d.leased = some sha
  removed : d.outcome = .ok .removed → d.deleted = true
  failed : ∀ detail, d.outcome = .ok (.failed detail) → d.found = some sha

theorem deleteIfUnchanged_deleting (env : Env) (w : World) (repoUrl ref sha : String) :
    Deleting sha (deleteIfUnchanged env w repoUrl ref sha).1 := by
  unfold deleteIfUnchanged
  generalize pushDelete env w repoUrl ref sha = pushed
  dsimp only
  split
  · exact ⟨of_decide_eq_true, (fun h => by cases h), fun _ h => by cases h⟩
  · split
    · rename_i hdone
      exact ⟨of_decide_eq_true, fun _ => hdone.1, fun _ h => by cases h⟩
    · refine ⟨of_decide_eq_true, fun h => ?_, fun detail h => ?_⟩
      · dsimp only at h
        split at h
        · cases h
        · cases h
        · split at h
          · cases h
          · cases h
      · dsimp only at h ⊢
        split at h
        · cases h
        · cases h
        · rename_i current _ hcurrent
          split at h
          · cases h
          · rename_i hsame
            rw [hcurrent, not_not.mp hsame]

structure Looked (set : Setting) (scan : Scan) (runId : String) (first second : RunStatus) : Prop where
  valid : isRunId runId.toList = true
  ref : scan.ref = contextRef runId
  looks : scan.looks = [.run first, .run second]
  first : Passes set scan.projectId runId first
  second : Passes set scan.projectId runId second

structure Fair (set : Setting) (projectId repoUrl : String) (row : String × String) (scan : Scan) : Prop where
  project : scan.projectId = projectId
  repo : scan.repoUrl = repoUrl
  row : (scan.ref, scan.sha) = row
  deleted : scan.deleted = true →
    set.cfg.dryRun = false ∧ scan.leased = some scan.sha ∧ ∃ runId first second, Looked set scan runId first second
  removed : ∀ entry ∈ scan.removed, scan.deleted = true ∧ entry.ref = scan.ref ∧ entry.sha = scan.sha
  wouldRemove : scan.wouldRemove ≠ none → set.cfg.dryRun = true
  present : scan.reason = some .removeFailed → scan.found = some scan.sha

theorem fair_kept {looks : List Answer} {verdict : Except String Verdict}
    (hremoved : ∀ entry, verdict ≠ .ok (.removed entry))
    (hwould : ∀ entry, verdict = .ok (.wouldRemove entry) → set.cfg.dryRun = true)
    (hfailed : verdict ≠ .ok (.kept .removeFailed)) :
    Fair set projectId repoUrl row { projectId, repoUrl, ref := row.1, sha := row.2, looks, verdict } := by
  refine ⟨rfl, rfl, rfl, nofun, fun entry h => ?_, fun h => ?_, fun h => ?_⟩
  · unfold Scan.removed at h
    split at h
    · rename_i hverdict
      exact absurd hverdict (hremoved _)
    · cases h
  · unfold Scan.wouldRemove at h
    split at h
    · rename_i hverdict
      exact hwould _ hverdict
    · exact absurd rfl h
  · unfold Scan.reason at h
    split at h
    · rename_i hverdict
      cases h
      exact absurd hverdict hfailed
    · cases h
    · cases h

theorem removeRef_fair {label : String} {entry : SweepEntry} (hproject : scan.projectId = projectId)
    (hrepo : scan.repoUrl = repoUrl) (hrow : (scan.ref, scan.sha) = row) (hentry : (entry.ref, entry.sha) = row)
    (hreal : set.cfg.dryRun = false) {runId : String} {first second : RunStatus}
    (hlooked : Looked set scan runId first second) :
    Fair set projectId repoUrl row (removeRef env label entry scan w).1 := by
  obtain ⟨hdeleted, hremoved, hfailed⟩ := deleteIfUnchanged_deleting env w scan.repoUrl scan.ref scan.sha
  obtain ⟨href, hsha⟩ := Prod.mk.inj (hentry.trans hrow.symm)
  unfold removeRef
  generalize deleteIfUnchanged env w scan.repoUrl scan.ref scan.sha = d at hdeleted hremoved hfailed ⊢
  dsimp only
  have hsafe : ∀ told : Scan, told.projectId = scan.projectId → told.ref = scan.ref → told.sha = scan.sha →
      told.looks = scan.looks → told.leased = d.1.leased → d.1.deleted = true →
      set.cfg.dryRun = false ∧ told.leased = some told.sha ∧
        ∃ runId first second, Looked set told runId first second := by
    intro told hp hr hs hl hd h
    refine ⟨hreal, by rw [hd, hs, hdeleted h], runId, first, second, hlooked.valid, hr.trans hlooked.ref,
      hl.trans hlooked.looks, ?_, ?_⟩
    · rw [hp]
      exact hlooked.first
    · rw [hp]
      exact hlooked.second
  split
  · exact ⟨hproject, hrepo, hrow, hsafe _ rfl rfl rfl rfl rfl, nofun, fun h => absurd rfl h, nofun⟩
  · rename_i houtcome
    refine ⟨hproject, hrepo, hrow, hsafe _ rfl rfl rfl rfl rfl, fun e he => ?_, fun h => absurd rfl h, nofun⟩
    cases he
    exact ⟨hremoved houtcome, href, hsha⟩
  · exact ⟨hproject, hrepo, hrow, hsafe _ rfl rfl rfl rfl rfl, nofun, fun h => absurd rfl h, nofun⟩
  · exact ⟨hproject, hrepo, hrow, hsafe _ rfl rfl rfl rfl rfl, nofun, fun h => absurd rfl h, nofun⟩
  · rename_i detail houtcome
    exact ⟨hproject, hrepo, hrow, hsafe _ rfl rfl rfl rfl rfl, nofun, fun h => absurd rfl h,
      fun _ => hfailed detail houtcome⟩

theorem sweepRef_fair (env : Env) (set : Setting) (projectId repoUrl : String) (row : String × String) (w : World) :
    Fair set projectId repoUrl row (sweepRef env set projectId repoUrl row w).1 := by
  unfold sweepRef
  dsimp only
  split
  · exact fair_kept nofun nofun nofun
  · rename_i runId hrun
    split
    · exact fair_kept nofun nofun nofun
    · generalize lookup env w (projectId ++ "/" ++ runId) runId = first
      split
      · exact fair_kept nofun nofun nofun
      · rename_i reason hfirst
        refine fair_kept nofun nofun fun h => decideRef_cases hfirst ?_
        cases h
        rfl
      · rename_i reason hfirst
        obtain ⟨a, hlook, ha⟩ := decideRef_cases hfirst
        split
        · rename_i hdry
          exact fair_kept nofun (fun _ _ => hdry) nofun
        · rename_i hdry
          generalize lookup env first.2 (projectId ++ "/" ++ runId) runId = second
          split
          · exact fair_kept nofun nofun nofun
          · rename_i reason hsecond
            refine fair_kept nofun nofun fun h => decideRef_cases hsecond ?_
            cases h
            rfl
          · rename_i hsecond
            obtain ⟨b, hlook', hb⟩ := decideRef_cases hsecond
            obtain ⟨hvalid, href⟩ := runIdOf_some hrun
            rw [hlook, hlook']
            exact removeRef_fair rfl rfl rfl rfl (Bool.eq_false_iff.mpr hdry) ⟨hvalid, href, rfl, ha, hb⟩

theorem Tallied.count {r : SweepReport} {scans : List Scan} (h : Tallied r scans) (scan : Scan) :
    Tallied (r.count scan) (scans ++ [scan]) := by
  obtain ⟨projectId, repoUrl, ref, sha, looks, leased, deleted, found, verdict⟩ := scan
  have hcount : ∀ reason reason' : KeepReason,
      Function.update r.keptReasons reason (r.keptReasons reason + 1) reason' =
        (scans.filterMap Scan.reason ++ [reason]).count reason' := by
    intro reason reason'
    rw [List.count_append, ← h.reasons, List.count_singleton, Function.update_apply]
    by_cases heq : reason' = reason
    · rw [if_pos heq, heq, beq_self_eq_true, if_pos rfl]
    · rw [if_neg heq, if_neg (by rw [beq_iff_eq]; exact fun h => heq h.symm), Nat.add_zero]
  constructor
  · cases verdict with
    | error error => simp [SweepReport.count, SweepReport.keep, h.scanned]
    | ok verdict => cases verdict <;> simp [SweepReport.count, SweepReport.keep, h.scanned]
  · cases verdict with
    | error error => simp [SweepReport.count, SweepReport.keep, Scan.reason, h.kept]
    | ok verdict => cases verdict <;> simp [SweepReport.count, SweepReport.keep, Scan.reason, h.kept]
  · intro reason'
    rw [List.filterMap_append]
    cases verdict with
    | error error => exact hcount .sweepError reason'
    | ok verdict =>
      cases verdict with
      | kept reason => exact hcount reason reason'
      | removed entry => exact (h.reasons reason').trans (congrArg _ (List.append_nil _).symm)
      | wouldRemove entry => exact (h.reasons reason').trans (congrArg _ (List.append_nil _).symm)
  · cases verdict with
    | error error => simp [SweepReport.count, SweepReport.keep, Scan.removed, h.removed]
    | ok verdict => cases verdict <;> simp [SweepReport.count, SweepReport.keep, Scan.removed, h.removed]
  · cases verdict with
    | error error => simp [SweepReport.count, SweepReport.keep, Scan.wouldRemove, h.wouldRemove]
    | ok verdict => cases verdict <;> simp [SweepReport.count, SweepReport.keep, Scan.wouldRemove, h.wouldRemove]
  · rw [List.filterMap_append, List.count_append, ← h.leaseLost]
    cases verdict with
    | error error => simp [SweepReport.count, SweepReport.keep, Scan.reason]
    | ok verdict =>
      cases verdict with
      | kept reason => by_cases hlost : reason = .leaseLost <;> simp [SweepReport.count, Scan.reason, hlost]
      | removed entry => rfl
      | wouldRemove entry => rfl

theorem length_scans (scans : List Scan) : scans.length = (scans.filterMap Scan.reason).length +
    (scans.filterMap Scan.removed).length + (scans.filterMap Scan.wouldRemove).length := by
  induction scans with
  | nil => rfl
  | cons scan scans ih =>
    obtain ⟨projectId, repoUrl, ref, sha, looks, leased, deleted, found, verdict⟩ := scan
    rw [List.length_cons, ih]
    cases verdict with
    | error error =>
      simp only [List.filterMap_cons, Scan.reason, Scan.removed, Scan.wouldRemove, List.length_cons]
      omega
    | ok verdict =>
      cases verdict <;>
        simp only [List.filterMap_cons, Scan.reason, Scan.removed, Scan.wouldRemove, List.length_cons] <;> omega

/-- What holds of the report and of every scan at any moment of a sweep. -/
structure Kept (set : Setting) (s : State) : Prop where
  tallied : Tallied s.report s.scans
  fair : ∀ scan ∈ s.scans, Fair set scan.projectId scan.repoUrl (scan.ref, scan.sha) scan

theorem sweepRefs_kept (env : Env) (projectId repoUrl : String) (rows : List (String × String)) (h : Kept set s) :
    Kept set (sweepRefs env set projectId repoUrl rows s) := by
  induction rows generalizing s with
  | nil => exact h
  | cons row rows ih =>
    have hfair := sweepRef_fair env set projectId repoUrl row s.world
    refine ih ⟨h.tallied.count _, fun scan hscan => ?_⟩
    rcases List.mem_append.mp hscan with hscan | hscan
    · exact h.fair scan hscan
    · cases List.mem_singleton.mp hscan
      rw [hfair.project, hfair.repo, hfair.row]
      exact hfair

theorem sweepProject_kept (env : Env) (project : Project) (h : Kept set s) :
    Kept set (sweepProject env set project s) := by
  have hworld : ∀ world, Kept set { s with world } := fun _ => ⟨h.tallied, h.fair⟩
  unfold sweepProject
  dsimp only
  split
  · exact h
  · split
    · exact hworld _
    · split
      · exact hworld _
      · exact sweepRefs_kept env _ _ _ (hworld _)

theorem sweep_kept (env : Env) (set : Setting) (projects : List Project) (remotes : Remotes) :
    Kept set (sweepRecoveryContexts env set projects remotes) := by
  have hstart : Kept set { world := { remotes } } :=
    ⟨⟨rfl, rfl, fun _ => rfl, rfl, rfl, rfl⟩, List.forall_mem_nil _⟩
  unfold sweepRecoveryContexts
  split
  · generalize ({ world := { remotes } } : State) = s at hstart ⊢
    induction projects generalizing s with
    | nil => exact hstart
    | cons project projects ih => exact ih _ (sweepProject_kept env project hstart)
  · exact hstart

/-- The policy lets the ref go, as the control store is all the time. -/
def Goes (env : Env) (set : Setting) (projectId ref : String) : Prop :=
  ∃ runId reason, runIdOf ref = some runId ∧
    decideRef set projectId runId (env.runStatus 0 runId) = .ok (.remove reason)

def Scan.Taken (scan : Scan) : Prop := scan.removed ≠ none ∨ scan.wouldRemove ≠ none

theorem lookup_unchanged (h : Unchanged env) (label runId : String) :
    (lookup env w label runId).1 = env.runStatus 0 runId ∧ (lookup env w label runId).2.remotes = w.remotes := by
  refine ⟨congrFun (h.runStatus _ _) _, ?_⟩
  unfold lookup
  dsimp only
  split
  · rfl
  · rfl

theorem removeRef_unchanged (h : Unchanged env) (label : String) (entry : SweepEntry) (scan : Scan)
    (hrow : (scan.ref, scan.sha) ∈ w.remotes scan.repoUrl) :
    (removeRef env label entry scan w).1.removed = some entry ∧ (removeRef env label entry scan w).2.remotes =
      Function.update w.remotes scan.repoUrl (Refs.erase (w.remotes scan.repoUrl) scan.ref) := by
  obtain ⟨hreached, hanswered, hraised⟩ := h.push w.clock
  have hget : (w.remotes scan.repoUrl).get? scan.ref = some (scan.ref, scan.sha) := Table.get?_of_mem hrow
  have hpush : pushDelete env w scan.repoUrl scan.ref scan.sha = (some scan.sha,
      Function.update w.remotes scan.repoUrl (Refs.erase (w.remotes scan.repoUrl) scan.ref)) := by
    simp only [pushDelete, h.meanwhile, hreached, hget, Option.map_some, if_true]
  have hdelete : deleteIfUnchanged env w scan.repoUrl scan.ref scan.sha =
      (⟨some scan.sha, true, none, .ok .removed⟩, { w with
        clock := w.clock + 1
        remotes := Function.update w.remotes scan.repoUrl (Refs.erase (w.remotes scan.repoUrl) scan.ref) }) := by
    simp only [deleteIfUnchanged, hpush, hraised, hanswered, decide_true, Bool.false_eq_true, and_self, if_false,
      if_true]
  unfold removeRef
  rw [hdelete]
  exact ⟨rfl, rfl⟩

theorem sweepRef_unchanged (h : Unchanged env) (set : Setting) (projectId : String) (hrow : row ∈ w.remotes repoUrl) :
    ((sweepRef env set projectId repoUrl row w).1.Taken ↔ Goes env set projectId row.1) ∧
      ((sweepRef env set projectId repoUrl row w).2.remotes = w.remotes ∨
        Goes env set projectId row.1 ∧ (sweepRef env set projectId repoUrl row w).2.remotes =
          Function.update w.remotes repoUrl (Refs.erase (w.remotes repoUrl) row.1)) := by
  have hkept : ∀ (scan : Scan) (w' : World), scan.removed = none → scan.wouldRemove = none → w'.remotes = w.remotes →
      ¬ Goes env set projectId row.1 → (scan.Taken ↔ Goes env set projectId row.1) ∧
        (w'.remotes = w.remotes ∨ Goes env set projectId row.1 ∧ w'.remotes =
          Function.update w.remotes repoUrl (Refs.erase (w.remotes repoUrl) row.1)) :=
    fun scan w' hr hw hs hgoes => ⟨iff_of_false (fun ht => ht.elim (· hr) (· hw)) hgoes, .inl hs⟩
  unfold sweepRef
  dsimp only
  split
  · rename_i hrun
    refine hkept _ _ rfl rfl rfl ?_
    rintro ⟨runId, reason, hrun', -⟩
    rw [hrun] at hrun'
    cases hrun'
  · rename_i runId hrun
    have hgoes : Goes env set projectId row.1 →
        ∃ reason, decideRef set projectId runId (env.runStatus 0 runId) = .ok (.remove reason) := by
      rintro ⟨runId', reason, hrun', hremove⟩
      rw [hrun] at hrun'
      cases hrun'
      exact ⟨reason, hremove⟩
    split
    · rename_i hprotected
      refine hkept _ _ rfl rfl rfl fun hg => ?_
      obtain ⟨reason, hremove⟩ := hgoes hg
      unfold decideRef at hremove
      rw [if_pos hprotected] at hremove
      cases hremove
    · obtain ⟨hfirst, hremotes⟩ := lookup_unchanged (w := w) h (projectId ++ "/" ++ runId) runId
      generalize lookup env w (projectId ++ "/" ++ runId) runId = first at hfirst hremotes
      rw [hfirst]
      split
      · rename_i hdecide
        refine hkept _ _ rfl rfl hremotes fun hg => ?_
        obtain ⟨reason, hremove⟩ := hgoes hg
        rw [hdecide] at hremove
        cases hremove
      · rename_i hdecide
        refine hkept _ _ rfl rfl hremotes fun hg => ?_
        obtain ⟨reason, hremove⟩ := hgoes hg
        rw [hdecide] at hremove
        cases hremove
      · rename_i reason hdecide
        have hg : Goes env set projectId row.1 := ⟨runId, reason, hrun, hdecide⟩
        split
        · exact ⟨iff_of_true (.inr nofun) hg, .inl hremotes⟩
        · obtain ⟨hsecond, hremotes'⟩ := lookup_unchanged (w := first.2) h (projectId ++ "/" ++ runId) runId
          generalize lookup env first.2 (projectId ++ "/" ++ runId) runId = second at hsecond hremotes'
          rw [hsecond, hdecide]
          dsimp only
          have hsame : second.2.remotes = w.remotes := hremotes'.trans hremotes
          obtain ⟨hremoved, herased⟩ := removeRef_unchanged h (projectId ++ "/" ++ runId)
            ⟨projectId, runId, row.1, row.2, reason⟩
            { projectId, repoUrl, ref := row.1, sha := row.2, looks := [env.runStatus 0 runId, env.runStatus 0 runId],
              verdict := .ok (.kept .invalidRefName) } (hsame ▸ hrow)
          rw [hsame] at herased
          exact ⟨iff_of_true (.inl (by rw [hremoved]; exact nofun)) hg, .inr ⟨hg, herased⟩⟩

def State.Took (s : State) (repoUrl ref : String) : Prop :=
  ∃ scan ∈ s.scans, scan.repoUrl = repoUrl ∧ scan.ref = ref ∧ scan.Taken

structure Upto (remotes : Remotes) (due : String → String → Prop) (s : State) : Prop where
  took : ∀ repoUrl ref, s.Took repoUrl ref ↔ due repoUrl ref
  below : ∀ repoUrl row, row ∈ s.world.remotes repoUrl → row ∈ remotes repoUrl
  left : ∀ repoUrl row, row ∈ remotes repoUrl → row ∈ s.world.remotes repoUrl ∨ due repoUrl row.1

variable {remotes : Remotes} {due : String → String → Prop}

theorem Upto.congr {due' : String → String → Prop} (h : Upto remotes due s)
    (hdue : ∀ repoUrl ref, due repoUrl ref ↔ due' repoUrl ref) : Upto remotes due' s where
  took repoUrl ref := (h.took repoUrl ref).trans (hdue repoUrl ref)
  below := h.below
  left repoUrl row hrow := (h.left repoUrl row hrow).imp_right (hdue _ _).mp

theorem mem_erase {refs : Refs} {ref : String} : row ∈ refs.erase ref ↔ row ∈ refs ∧ row.1 ≠ ref := by
  simp [Refs.erase, Table.mem_def]

@[simp] theorem after_remotes (w : World) (scan : Scan) : (w.after scan).remotes = w.remotes := by
  unfold World.after
  split
  · rfl
  · rfl

theorem sweepRef_upto (h : Unchanged env) (set : Setting) (projectId : String) (hupto : Upto remotes due s)
    (hrow : row ∈ s.world.remotes repoUrl) :
    Upto remotes (fun r ref => due r ref ∨ r = repoUrl ∧ ref = row.1 ∧ Goes env set projectId ref)
      ⟨(sweepRef env set projectId repoUrl row s.world).2.after (sweepRef env set projectId repoUrl row s.world).1,
        s.report.count (sweepRef env set projectId repoUrl row s.world).1,
        s.scans ++ [(sweepRef env set projectId repoUrl row s.world).1]⟩ := by
  obtain ⟨htaken, hremotes⟩ := sweepRef_unchanged h set projectId hrow
  have hfair := sweepRef_fair env set projectId repoUrl row s.world
  generalize sweepRef env set projectId repoUrl row s.world = n at htaken hremotes hfair ⊢
  have href : n.1.ref = row.1 := congrArg Prod.fst hfair.row
  rw [← after_remotes n.2 n.1] at hremotes
  refine ⟨fun r ref => ?_, fun r row' hrow' => ?_, fun r row' hrow' => ?_⟩
  · rw [← hupto.took]
    constructor
    · rintro ⟨scan, hscan, rfl, rfl, ht⟩
      rcases List.mem_append.mp hscan with hscan | hscan
      · exact .inl ⟨scan, hscan, rfl, rfl, ht⟩
      · cases List.mem_singleton.mp hscan
        exact .inr ⟨hfair.repo, href, href ▸ htaken.mp ht⟩
    · rintro (⟨scan, hscan, hr, hf, ht⟩ | ⟨rfl, rfl, hg⟩)
      · exact ⟨scan, List.mem_append_left _ (hscan), hr, hf, ht⟩
      · exact ⟨n.1, List.mem_append_right _ (List.mem_singleton_self _), hfair.repo, href, htaken.mpr hg⟩
  · refine hupto.below r row' ?_
    rcases hremotes with heq | ⟨-, heq⟩
    · exact heq ▸ hrow'
    · dsimp only at hrow'
      rw [heq, Function.update_apply] at hrow'
      split at hrow'
      · rename_i hr
        exact hr ▸ (mem_erase.mp hrow').1
      · exact hrow'
  · rcases hupto.left r row' hrow' with hleft | hdue
    · rcases hremotes with heq | ⟨hg, heq⟩
      · exact .inl (by rw [heq]; exact hleft)
      · dsimp only
        rw [heq, Function.update_apply]
        split
        · rename_i hr
          by_cases hname : row'.1 = row.1
          · exact .inr (.inr ⟨hr, hname, hname ▸ hg⟩)
          · exact .inl (mem_erase.mpr ⟨hr ▸ hleft, hname⟩)
        · exact .inl hleft
    · exact .inr (.inl hdue)

theorem sweepRef_spares (h : Unchanged env) {row' : String × String} (hrow : row ∈ s.world.remotes repoUrl)
    (hrow' : row' ∈ s.world.remotes repoUrl) (hname : row'.1 ≠ row.1) :
    row' ∈ ((sweepRef env set projectId repoUrl row s.world).2.after
      (sweepRef env set projectId repoUrl row s.world).1).remotes repoUrl := by
  rw [after_remotes]
  rcases (sweepRef_unchanged h set projectId hrow).2 with heq | ⟨-, heq⟩
  · rw [heq]
    exact hrow'
  · rw [heq, Function.update_self]
    exact mem_erase.mpr ⟨hrow', hname⟩

theorem sweepRefs_upto (h : Unchanged env) (rows : List (String × String))
    (hrows : ∀ row ∈ rows, row ∈ s.world.remotes repoUrl) (hnames : (rows.map Prod.fst).Nodup)
    (hupto : Upto remotes due s) :
    Upto remotes (fun r ref => due r ref ∨ r = repoUrl ∧ ref ∈ rows.map Prod.fst ∧ Goes env set projectId ref)
      (sweepRefs env set projectId repoUrl rows s) := by
  induction rows generalizing s due with
  | nil => exact hupto.congr fun r ref => ⟨.inl, fun hd => hd.elim id fun hd => (List.not_mem_nil hd.2.1).elim⟩
  | cons row rows ih =>
    rw [List.map_cons, List.nodup_cons] at hnames
    have hrow := hrows row List.mem_cons_self
    have hnext := sweepRef_upto h set projectId hupto hrow
    refine (ih (fun row' hrow' => ?_) hnames.2 hnext).congr fun r ref => ?_
    · refine sweepRef_spares h hrow (hrows row' (List.mem_cons_of_mem _ hrow')) fun heq => ?_
      exact hnames.1 (heq ▸ List.mem_map_of_mem hrow')
    · rw [List.map_cons, List.mem_cons, or_assoc, ← and_or_left, ← or_and_right]

def Due (env : Env) (set : Setting) (remotes : Remotes) (project : Project) (repoUrl ref : String) : Prop :=
  project.repoUrl ≠ "" ∧ repoUrl ≠ "" ∧ repoUrl.toList.head? ≠ some '-' ∧
    repoUrl = normalizeRepoUrl project.repoUrl ∧
    (∃ row ∈ remotes repoUrl, row.1 = ref ∧ env.listed ref = true) ∧ Goes env set project.id ref

theorem mem_listContextRefs {refs : Refs} :
    row ∈ listContextRefs env refs ↔ row ∈ refs ∧ env.listed row.1 = true := by
  rw [listContextRefs, (sortAsc_perm _ _).mem_iff, List.mem_filter, Table.mem_def]

theorem listContextRefs_nodup (env : Env) (refs : Refs) : ((listContextRefs env refs).map Prod.fst).Nodup :=
  ((sortAsc_perm _ _).map _).nodup_iff.mpr (refs.unique.sublist (List.filter_sublist.map _))

theorem sweepProject_upto (h : Unchanged env) (project : Project) (hupto : Upto remotes due s) :
    Upto remotes (fun r ref => due r ref ∨ Due env set remotes project r ref) (sweepProject env set project s) := by
  unfold sweepProject
  dsimp only
  split
  · rename_i hnone
    exact hupto.congr fun r ref => ⟨.inl, fun hd => hd.elim id fun hd => absurd hnone hd.1⟩
  · rename_i hsome
    split
    · rename_i hbad
      have hstill : Upto remotes due { s with
          world := s.world.error (project.id ++ ": unusable repo_url; skipped") } :=
        ⟨hupto.took, hupto.below, hupto.left⟩
      refine hstill.congr fun r ref => ⟨.inl, fun hd => hd.elim id ?_⟩
      rintro ⟨-, hempty, hdash, rfl, -⟩
      exact (hbad.elim hempty hdash).elim
    · rename_i hgood
      rw [not_or] at hgood
      rw [h.listing]
      dsimp only
      have hlisted : Upto remotes due { s with world := { s.world with
          clock := s.world.clock + 1, remotes := env.meanwhile s.world.clock s.world.remotes } } := by
        rw [h.meanwhile]
        exact ⟨hupto.took, hupto.below, hupto.left⟩
      refine (sweepRefs_upto h _ (fun row hrow => (mem_listContextRefs.mp hrow).1) (listContextRefs_nodup _ _)
        hlisted).congr fun r ref => ⟨fun hd => hd.imp_right ?_, fun hd => ?_⟩
      · rintro ⟨rfl, hmem, hg⟩
        obtain ⟨row, hrow, rfl⟩ := List.mem_map.mp hmem
        obtain ⟨hrow, hpattern⟩ := mem_listContextRefs.mp hrow
        exact ⟨hsome, hgood.1, hgood.2, rfl, ⟨row, hlisted.below _ _ hrow, rfl, hpattern⟩, hg⟩
      · rcases hd with hd | ⟨-, -, -, rfl, ⟨row, hrow, rfl, hpattern⟩, hg⟩
        · exact .inl hd
        · -- the ref is still listed, or an earlier project has taken it
          rcases hlisted.left _ row hrow with hleft | hdue
          · exact .inr ⟨rfl, List.mem_map_of_mem (mem_listContextRefs.mpr ⟨hleft, hpattern⟩), hg⟩
          · exact .inl hdue

theorem sweep_took (h : Unchanged env) (set : Setting) (hdays : 0 < set.cfg.terminalMaxAgeDays)
    (projects : List Project) (remotes : Remotes) (repoUrl ref : String) :
    (sweepRecoveryContexts env set projects remotes).Took repoUrl ref ↔
      ∃ project ∈ projects, Due env set remotes project repoUrl ref := by
  have hstart : Upto remotes (fun _ _ => False) { world := { remotes } } :=
    ⟨fun _ _ => iff_of_false (fun ⟨_, hmem, _⟩ => List.not_mem_nil hmem) id, fun _ _ => id, fun _ _ => .inl⟩
  have hrun : ∀ (due : String → String → Prop) (s : State), Upto remotes due s →
      Upto remotes (fun r ref => due r ref ∨ ∃ project ∈ projects, Due env set remotes project r ref)
        (projects.foldl (fun s project => sweepProject env set project s) s) := by
    induction projects with
    | nil => exact fun due s hs => hs.congr fun r ref => by simp
    | cons project projects ih =>
      intro due s hs
      refine (ih _ _ (sweepProject_upto h project hs)).congr fun r ref => ?_
      rw [or_assoc, List.exists_mem_cons_iff]
  unfold sweepRecoveryContexts
  rw [if_pos hdays, (hrun _ _ hstart).took, false_or]

theorem sweep_predicted (h : Unchanged env) (set : Setting) (projects : List Project) (remotes : Remotes)
    (repoUrl ref : String) :
    (sweepRecoveryContexts env (set.withDryRun true) projects remotes).Took repoUrl ref ↔
      (sweepRecoveryContexts env (set.withDryRun false) projects remotes).Took repoUrl ref := by
  by_cases hdays : 0 < set.cfg.terminalMaxAgeDays
  · have htook : ∀ dryRun, (sweepRecoveryContexts env (set.withDryRun dryRun) projects remotes).Took repoUrl ref ↔
        ∃ project ∈ projects, Due env set remotes project repoUrl ref := by
      intro dryRun
      exact sweep_took h (set.withDryRun dryRun) hdays projects remotes repoUrl ref
    exact (htook true).trans (htook false).symm
  · have hoff : ∀ dryRun,
        sweepRecoveryContexts env (set.withDryRun dryRun) projects remotes = { world := { remotes } } :=
      fun _ => if_neg hdays
    rw [hoff, hoff]

theorem sweep_recovery_contexts_sound (env : Env) (set : Setting) (projects : List Project) (remotes : Remotes)
    (hepoch : ∀ scan ∈ (sweepRecoveryContexts env set projects remotes).scans, ∀ look ∈ scan.looks,
      epochHides set look = false) :
    Sound env set projects remotes (sweepRecoveryContexts env set projects remotes) := by
  have hkept := sweep_kept env set projects remotes
  generalize sweepRecoveryContexts env set projects remotes = s at hepoch hkept ⊢
  obtain ⟨htallied, hfair⟩ := hkept
  refine ⟨fun scan hscan hdeleted => ?_, htallied, ?_, fun scan hscan => (hfair scan hscan).removed,
    fun scan hscan => (hfair scan hscan).wouldRemove, fun scan hscan => (hfair scan hscan).present,
    fun h repoUrl ref => ?_⟩
  · obtain ⟨hreal, hleased, runId, first, second, hlooked⟩ := (hfair scan hscan).deleted hdeleted
    have hlooks := hepoch scan hscan
    rw [hlooked.looks] at hlooks
    exact ⟨hreal, hleased, runId, first, second, hlooked.valid, hlooked.ref, hlooked.looks,
      hlooked.first.old (hlooks _ List.mem_cons_self),
      hlooked.second.old (hlooks _ (List.mem_cons_of_mem _ (List.mem_singleton_self _)))⟩
  · rw [htallied.scanned, htallied.kept, htallied.removed, htallied.wouldRemove]
    exact length_scans s.scans
  · have hdry := (sweep_kept env (set.withDryRun true) projects remotes).fair
    have hreal := (sweep_kept env (set.withDryRun false) projects remotes).fair
    constructor
    · rintro ⟨scan, hscan, hr, hf, hwould⟩
      obtain ⟨scan', hscan', hr', hf', ht⟩ :=
        (sweep_predicted h set projects remotes repoUrl ref).mp ⟨scan, hscan, hr, hf, .inr hwould⟩
      exact ⟨scan', hscan', hr', hf', ht.elim id fun hw => absurd ((hreal scan' hscan').wouldRemove hw) nofun⟩
    · rintro ⟨scan, hscan, hr, hf, hremoved⟩
      obtain ⟨scan', hscan', hr', hf', ht⟩ :=
        (sweep_predicted h set projects remotes repoUrl ref).mpr ⟨scan, hscan, hr, hf, .inl hremoved⟩
      refine ⟨scan', hscan', hr', hf', ht.elim (fun hr => ?_) id⟩
      obtain ⟨entry, hentry⟩ := Option.ne_none_iff_exists'.mp hr
      have hdeleted := ((hdry scan' hscan').removed entry hentry).1
      exact absurd ((hdry scan' hscan').deleted hdeleted).1 nofun

def remote : Remotes := fun _ =>
  ⟨[(contextRef "r1", String.ofList (List.replicate 40 'a')),
      (contextRef "r2", String.ofList (List.replicate 40 'b'))],
    by decide⟩

def quiet : Env where
  runStatus _ runId :=
    if runId = "r1" then
      .run ⟨some "p", .ok [some "succeeded"], "completed", some "1970-01-01T00:00:00+00:00",
        some "1969-12-30T00:00:00+00:00"⟩
    else .unknown
  meanwhile _ remotes := remotes
  listed _ := true
  listing _ := none
  push _ := ⟨true, true, false, ""⟩
  look _ := none

def secondDay (days : Rat) : Setting where
  py.timestamp text :=
    if text = "1970-01-01T00:00:00+00:00" then some 0
    else if text = "1969-12-30T00:00:00+00:00" then some (-172800)
    else none
  py.general days := if days = 1 then "1" else "2"
  protectedRunIds := []
  cfg := ⟨days, false⟩
  moment := 86400

theorem sweep_recovery_contexts_sound_day : Sound quiet (secondDay 1) [⟨"p", "https://host/p.git"⟩] remote
    (sweepRecoveryContexts quiet (secondDay 1) [⟨"p", "https://host/p.git"⟩] remote) :=
  sweep_recovery_contexts_sound quiet (secondDay 1) [⟨"p", "https://host/p.git"⟩] remote (by decide +kernel)

theorem epoch_removed_early : ¬ Sound quiet (secondDay 2) [⟨"p", "https://host/p.git"⟩] remote
    (sweepRecoveryContexts quiet (secondDay 2) [⟨"p", "https://host/p.git"⟩] remote) := by
  intro h
  have hearly : ∃ scan ∈ (sweepRecoveryContexts quiet (secondDay 2) [⟨"p", "https://host/p.git"⟩] remote).scans,
      scan.deleted = true ∧ ∀ look ∈ scan.looks, epochHides (secondDay 2) look = true := by decide +kernel
  obtain ⟨scan, hscan, hdeleted, hhidden⟩ := hearly
  obtain ⟨runId, first, second, -, -, hlooks, hold, -⟩ := (h.safe scan hscan hdeleted).old
  obtain ⟨t, ht, hage⟩ := hold.age
  have hfirst := hhidden (.run first) (hlooks ▸ List.mem_cons_self)
  rw [epochHides, Bool.and_eq_true, decide_eq_true_eq] at hfirst
  rw [terminalAt, hfirst.1.1, Option.some_or, Option.some.injEq] at ht
  rw [← ht, sub_zero] at hage
  exact absurd hfirst.1.2 (not_lt.mpr hage)

end ContextRetention
end Line
end DarkFactory
