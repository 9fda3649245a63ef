import DarkFactory.Harness.Markers
import DarkFactory.Python.Sort
import Mathlib.Data.String.Basic

/-!
# DarkFactory.Harness.VerdictCache

The keys and the records of passed runs of `core/harness/cache.py`.

* A key is the payload it is the digest of.
* `VerdictStore.All` — what holds of every stored verdict, kept by the writes and handed out by the reads.
* `created_at`, from which only the printed age is computed, is left out.
-/

namespace DarkFactory
namespace Harness

structure Record where
  treeSha : String
  candidateSha : String
  configHash : String
  osFamily : String
  pyVersion : String
  host : String
  result : HarnessResult
deriving DecidableEq

/-- The row of the key in `harness_verdicts` after `set_remote_verdict`. -/
def setRemoteVerdict (row : Option Record) (record : Record) : Record :=
  match row with
  | none => record
  | some old =>
    { old with candidateSha := record.candidateSha, host := record.host, result := record.result }

/-- What `cache.py` reads of the process: its interpreter and its environment. -/
structure Platform where
  platformFamily : String := "posix"
  /-- `python_version_tag()`. -/
  pythonVersion : String := "3.12"
  ci : String := ""
  /-- `DARKFAC_HARNESS_CACHE`. -/
  harnessCache : String := ""
deriving DecidableEq

/-- `_env_truthy` of a value. -/
def envTruthy (value : String) : Bool :=
  ["1", "true", "yes", "on"].contains (Text.asciiLower (Text.strip value))

def cacheDisabled (p : Platform) : Bool :=
  envTruthy p.ci || decide (Text.asciiLower (Text.strip p.harnessCache) = "off")

structure CacheKey where
  treeSha : String
  configHash : String
  /-- Sorted. -/
  stepNames : List String
  quick : Bool
  includeHoldout : Bool
  platformFamily : String
  pythonVersion : String
deriving DecidableEq

/-- `sorted(step_names)`. -/
def sortedNames (stepNames : List String) : List String := sortAsc (fun name => name) stepNames

/-- `override or default`. -/
def orDefault (override : Option String) (default : String) : String :=
  match override with
  | some value => if value = "" then default else value
  | none => default

def computeCacheKey (p : Platform) (treeHash configHash : String) (stepNames : List String)
    (quick includeHoldout : Bool) (platformFamilyOverride pythonVersionOverride : Option String) :
    CacheKey where
  treeSha := treeHash
  configHash := configHash
  stepNames := sortedNames stepNames
  quick := quick
  includeHoldout := includeHoldout
  platformFamily := orDefault platformFamilyOverride p.platformFamily
  pythonVersion := orDefault pythonVersionOverride p.pythonVersion

def buildRecord (p : Platform) (host treeHash candidateSha configHash : String)
    (result : HarnessResult) : Record where
  treeSha := treeHash
  candidateSha := candidateSha
  configHash := configHash
  osFamily := p.platformFamily
  pyVersion := p.pythonVersion
  host := host
  result := result

structure Verdict (α : Type) where
  record : Record
  origin : α
deriving DecidableEq

structure VerdictStore (α : Type) where
  /-- The verdict file of each host. -/
  locals : String → CacheKey → Option (Verdict α) := fun _ _ => none
  /-- `harness_verdicts`. -/
  remote : CacheKey → Option (Verdict α) := fun _ => none

/-- A write, by a call of `cache.py`. -/
inductive Write (α : Type) where
  /-- `set_local_verdict`. -/
  | setLocal (key : CacheKey) (v : Verdict α)
  /-- `store_verdict`; `online`: the database has answered. -/
  | store (key : CacheKey) (v : Verdict α) (online : Bool)

namespace VerdictStore

section

variable {α : Type}

def setLocal (s : VerdictStore α) (host : String) (key : CacheKey) (v : Option (Verdict α)) : VerdictStore α :=
  { s with locals := fun h k => if h = host ∧ k = key then v else s.locals h k }

def setRemote (s : VerdictStore α) (key : CacheKey) (v : Verdict α) : VerdictStore α :=
  let row := ⟨setRemoteVerdict ((s.remote key).map Verdict.record) v.record, v.origin⟩
  { s with remote := fun k => if k = key then some row else s.remote k }

def write (s : VerdictStore α) (host : String) : Write α → VerdictStore α
  | .setLocal key v => s.setLocal host key (some v)
  | .store key v online =>
    let s := s.setLocal host key (some v)
    if online then s.setRemote key v else s

def getRemoteVerdict (s : VerdictStore α) (key : CacheKey) (online : Bool) : Option (Verdict α) :=
  if online then s.remote key else none

def getVerdict (s : VerdictStore α) (host : String) (key : CacheKey) (online : Bool) :
    Option (Verdict α) × Option (Write α) :=
  match s.locals host key with
  | some v => (some v, none)
  | none =>
    match s.getRemoteVerdict key online with
    | some v => (some v, some (.setLocal key v))
    | none => (none, none)

structure All (P : CacheKey → HarnessResult → α → Prop) (s : VerdictStore α) : Prop where
  locals : ∀ host key v, s.locals host key = some v → P key v.record.result v.origin
  remote : ∀ key v, s.remote key = some v → P key v.record.result v.origin

variable {P : CacheKey → HarnessResult → α → Prop} {s : VerdictStore α}

theorem all_setLocal (h : s.All P) {host : String} {key : CacheKey} {v : Option (Verdict α)}
    (hv : ∀ v', v = some v' → P key v'.record.result v'.origin) : (s.setLocal host key v).All P := by
  refine ⟨fun host' key' v' hv' => ?_, h.remote⟩
  simp only [setLocal] at hv'
  split at hv'
  · rename_i heq
    rw [heq.2]
    exact hv v' hv'
  · exact h.locals host' key' v' hv'

theorem all_setRemote (h : s.All P) {key : CacheKey} {v : Verdict α}
    (hv : P key v.record.result v.origin) : (s.setRemote key v).All P := by
  refine ⟨h.locals, fun key' v' hv' => ?_⟩
  simp only [setRemote] at hv'
  split at hv'
  · rename_i heq
    cases hv'
    -- A row that was there keeps its tree and its host family, not its result.
    have hresult : ∀ row, (setRemoteVerdict row v.record).result = v.record.result := by
      intro row
      cases row <;> rfl
    rw [heq, hresult]
    exact hv
  · exact h.remote key' v' hv'

/-- The write is of a verdict of which `P` holds. -/
def WriteOk (P : CacheKey → HarnessResult → α → Prop) : Write α → Prop
  | .setLocal key v | .store key v _ => P key v.record.result v.origin

theorem all_write (h : s.All P) {w : Write α} (hw : WriteOk P w) (host : String) : (s.write host w).All P := by
  cases w with
  | setLocal key v => exact all_setLocal h fun v' hv' => by cases hv'; exact hw
  | store key v online =>
    have hlocal : (s.setLocal host key (some v)).All P :=
      all_setLocal h fun v' hv' => by cases hv'; exact hw
    simp only [write]
    split
    · exact all_setRemote hlocal hw
    · exact hlocal

theorem getRemoteVerdict_all (h : s.All P) {key : CacheKey} {online : Bool} {v : Verdict α}
    (hv : s.getRemoteVerdict key online = some v) : P key v.record.result v.origin := by
  unfold getRemoteVerdict at hv
  split at hv
  · exact h.remote key v hv
  · cases hv

theorem getVerdict_all (h : s.All P) (host : String) (key : CacheKey) (online : Bool) :
    (∀ v, (s.getVerdict host key online).1 = some v → P key v.record.result v.origin) ∧
      ∀ w, (s.getVerdict host key online).2 = some w → WriteOk P w := by
  unfold getVerdict
  split
  · rename_i v hv
    refine ⟨fun v' hv' => ?_, nofun⟩
    cases hv'
    exact h.locals host key v hv
  · split
    · rename_i v hv
      have hsound := getRemoteVerdict_all h hv
      exact ⟨fun v' hv' => by cases hv'; exact hsound, fun w hw => by cases hw; exact hsound⟩
    · exact ⟨nofun, nofun⟩

theorem all_empty : ({} : VerdictStore α).All P := ⟨nofun, nofun⟩

end

end VerdictStore

end Harness
end DarkFactory
