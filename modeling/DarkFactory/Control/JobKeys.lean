import DarkFactory.Python.Parsing
import DarkFactory.Control.Contracts

/-!
# DarkFactory.Control.JobKeys

The canonical text of a `JobKey`, and what `from_string` makes of it.

* `JobKey.fromString` — `from_string`.
-/

namespace DarkFactory
namespace Control
namespace JobKey

inductive KeyError where
  | format (keyStr : String)
  | iteration (part : String)
  | validation
  deriving DecidableEq

/-- The text of the exception; that of a `ValidationError` is pydantic's. -/
def KeyError.message : KeyError → Option String
  | .format keyStr =>
    some ("Invalid canonical JobKey string format: '" ++ keyStr ++ "' (expected 5 colon-separated parts)")
  | .iteration part => some ("JobKey iteration must be an integer, got '" ++ part ++ "'")
  | .validation => none

/-- `Annotated[str, Field(min_length=1, max_length=...)]`, with the blanks around it stripped. -/
def field (maxLength : Nat) (s : String) : Option String :=
  let t := Text.trim s
  if 1 ≤ t.length ∧ t.length ≤ maxLength then some t else none

/-- `JobKey(run_id=..., ticket_id=..., plan_version=..., stage=..., iteration=...)` -/
def construct (runId ticketId planVersion stage : String) (iteration : Int) : Except KeyError JobKey :=
  match field 160 runId, field 64 ticketId, field 64 planVersion, field 64 stage with
  | some runId, some ticketId, some planVersion, some stage =>
    if 0 ≤ iteration then .ok ⟨runId, ticketId, planVersion, stage, iteration.toNat⟩ else .error .validation
  | _, _, _, _ => .error .validation

def texts (k : JobKey) : List String := [k.runId, k.ticketId, k.planVersion, k.stage]

/-- The key passes the checks of its constructor and is what the constructor leaves. -/
structure Valid (k : JobKey) : Prop where
  run : field 160 k.runId = some k.runId
  rest : ∀ s ∈ [k.ticketId, k.planVersion, k.stage], field 64 s = some s

def Key : Type := {k : JobKey // k.Valid}

/-- `canonical_key()` -/
def canonicalText (k : JobKey) : Option String := (Text.str k.iteration).map fun _ => k.canonicalKey

def fromString (keyStr : String) : Except KeyError JobKey :=
  match Text.split ':' keyStr with
  | [runId, ticketId, planVersion, stage, last] =>
    match Text.int last with
    | none => .error (.iteration last)
    | some iteration => construct runId ticketId planVersion stage iteration
  | _ => .error (.format keyStr)

/-- `from_string` reads the canonical text of the key as the key. -/
def RoundTrips (k : JobKey) : Prop := ∃ text, k.canonicalText = some text ∧ fromString text = .ok k

/-- No other key of the contract has the canonical text of this one. -/
def Alone (k : JobKey) : Prop :=
  ∀ (k' : Key) text, k.canonicalText = some text → k'.1.canonicalText = some text → k'.1 = k

/-- None of the texts has a `:`, and the iteration can be printed. -/
structure Plain (k : JobKey) : Prop where
  noColon : ∀ s ∈ k.texts, ':' ∉ s.toList
  printable : (Nat.toDigits 10 k.iteration).length ≤ Text.INT_MAX_STR_DIGITS

variable {k : JobKey}

theorem construct_valid (h : k.Valid) : construct k.runId k.ticketId k.planVersion k.stage k.iteration = .ok k := by
  have hticket := h.rest k.ticketId (by simp)
  have hplan := h.rest k.planVersion (by simp)
  have hstage := h.rest k.stage (by simp)
  simp only [construct, h.run, hticket, hplan, hstage, Int.natCast_nonneg, if_true, Int.toNat_natCast]

theorem canonicalText_eq_some {text : String} :
    k.canonicalText = some text ↔
      (Nat.toDigits 10 k.iteration).length ≤ Text.INT_MAX_STR_DIGITS ∧ text = k.canonicalKey := by
  unfold canonicalText Text.str
  split
  · rename_i hlong
    simp only [Option.map_none, reduceCtorEq, false_iff, not_and]
    intro hle
    omega
  · rename_i hshort
    simp only [Option.map_some, Option.some.injEq, eq_comm (a := text), iff_and_self]
    exact fun _ => Nat.not_lt.mp hshort

theorem canonicalKey_toList (k : JobKey) :
    k.canonicalKey.toList = k.runId.toList ++ ':' :: (k.ticketId.toList ++ ':' :: (k.planVersion.toList ++
      ':' :: (k.stage.toList ++ ':' :: Nat.toDigits 10 k.iteration))) := by
  have hdigits : (toString k.iteration).toList = Nat.toDigits 10 k.iteration := Nat.toList_repr
  have hcolon : (":" : String).toList = [':'] := rfl
  simp only [canonicalKey, String.toList_append, hdigits, hcolon, List.append_assoc, List.nil_append,
    List.cons_append]

theorem colon_not_mem_digits (n : Nat) : ':' ∉ Nat.toDigits 10 n := by
  intro hmem
  have hdigit := Nat.isDigit_of_mem_toDigits (by omega) (by omega) hmem
  exact absurd hdigit (by decide)

theorem count_canonicalKey (k : JobKey) :
    k.canonicalKey.toList.count ':' = (k.texts.map fun s => s.toList.count ':').sum + 4 := by
  rw [canonicalKey_toList]
  simp only [List.count_append, List.count_cons_self, List.count_eq_zero_of_not_mem (colon_not_mem_digits k.iteration),
    texts, List.map_cons, List.map_nil, List.sum_cons, List.sum_nil]
  omega

theorem length_split_iff (k : JobKey) :
    (Text.split ':' k.canonicalKey).length = 5 ↔ ∀ s ∈ k.texts, ':' ∉ s.toList := by
  rw [Text.split, List.length_map, Text.length_splitList, count_canonicalKey]
  have hsum : (k.texts.map fun s => s.toList.count ':').sum = 0 ↔ ∀ s ∈ k.texts, ':' ∉ s.toList := by
    simp only [texts, List.map_cons, List.map_nil, List.sum_cons, List.sum_nil, Nat.add_eq_zero_iff, and_true,
      List.count_eq_zero, List.forall_mem_cons, List.not_mem_nil, false_implies, implies_true]
  rw [← hsum]
  omega

theorem split_plain (h : ∀ s ∈ k.texts, ':' ∉ s.toList) :
    Text.split ':' k.canonicalKey = [k.runId, k.ticketId, k.planVersion, k.stage, toString k.iteration] := by
  simp only [texts, List.forall_mem_cons] at h
  obtain ⟨hrun, hticket, hplan, hstage, -⟩ := h
  rw [Text.split, canonicalKey_toList, Text.splitList_append hrun, Text.splitList_append hticket,
    Text.splitList_append hplan, Text.splitList_append hstage, Text.splitList_self (colon_not_mem_digits k.iteration)]
  simp only [List.map_cons, List.map_nil, String.ofList_toList]
  rw [show toString k.iteration = String.ofList (Nat.toDigits 10 k.iteration) from Nat.repr_eq_ofList_toDigits]

/-- `from_string` wants five parts. -/
theorem length_of_fromString {text : String} (h : fromString text = .ok k) : (Text.split ':' text).length = 5 := by
  unfold fromString at h
  split at h
  · rename_i heq
    rw [heq]
    rfl
  · cases h

theorem roundTrips_iff (hvalid : k.Valid) : RoundTrips k ↔ Plain k := by
  constructor
  · rintro ⟨text, htext, hread⟩
    obtain ⟨hprintable, rfl⟩ := canonicalText_eq_some.mp htext
    exact ⟨(length_split_iff k).mp (length_of_fromString hread), hprintable⟩
  · intro h
    refine ⟨k.canonicalKey, canonicalText_eq_some.mpr ⟨h.printable, rfl⟩, ?_⟩
    have hint : Text.int (toString k.iteration) = some (k.iteration : Int) := by
      apply Text.int_str
      rw [Text.str, if_neg (Nat.not_lt.mpr h.printable)]
    simp only [fromString, split_plain h.noColon, hint]
    exact construct_valid hvalid

theorem Plain.alone (h : k.Plain) : Alone k := by
  intro k' text htext htext'
  obtain ⟨-, rfl⟩ := canonicalText_eq_some.mp htext
  obtain ⟨-, heq⟩ := canonicalText_eq_some.mp htext'
  have hplain' : ∀ s ∈ k'.1.texts, ':' ∉ s.toList := by
    rw [← length_split_iff, ← heq]
    exact (length_split_iff k).mpr h.noColon
  have hparts := split_plain hplain'
  rw [← heq, split_plain h.noColon] at hparts
  simp only [List.cons.injEq, and_true] at hparts
  obtain ⟨hrun, hticket, hplan, hstage, hiteration⟩ := hparts
  have hnumber : k.iteration = k'.1.iteration := by
    have hdigits := congrArg String.toList hiteration
    rw [show (toString k.iteration).toList = Nat.toDigits 10 k.iteration from Nat.toList_repr,
      show (toString k'.1.iteration).toList = Nat.toDigits 10 k'.1.iteration from Nat.toList_repr] at hdigits
    rw [← @Nat.ofDigitChars_ten_toDigits k.iteration, hdigits, Nat.ofDigitChars_ten_toDigits]
  cases hk : k'.1 with
  | mk run ticket plan stage iteration =>
    rw [hk] at hrun hticket hplan hstage hnumber
    cases k with
    | mk run' ticket' plan' stage' iteration' =>
      simp only at hrun hticket hplan hstage hnumber
      rw [hrun, hticket, hplan, hstage, hnumber]

/-- A key of the contract is read back from its canonical text and shares it with no other key exactly if none of its
texts has a `:` and its iteration can be printed. -/
theorem roundtrip_iff (k : Key) : (RoundTrips k.1 ∧ Alone k.1) ↔ Plain k.1 := by
  constructor
  · intro h
    exact (roundTrips_iff k.2).mp h.1
  · intro h
    exact ⟨(roundTrips_iff k.2).mpr h, h.alone⟩

/-- The ticket of a project `a:b` is not read back from the key of its first job. -/
theorem colon_project_not_read : ¬ ∀ k : Key, RoundTrips k.1 ∧ Alone k.1 := by
  intro h
  have hvalid : Valid ⟨"run-1", "a:b", "1.0", "grill", 0⟩ := ⟨by decide, by decide⟩
  have hplain := (roundTrips_iff hvalid).mp (h ⟨_, hvalid⟩).1
  exact hplain.noColon "a:b" (by decide) (by decide)

end JobKey
end Control
end DarkFactory
