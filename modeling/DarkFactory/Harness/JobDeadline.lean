import Mathlib.Tactic.Linarith
import DarkFactory.Lib.Runs
import DarkFactory.OwnerActions.Secrets

/-!
# DarkFactory.Harness.JobDeadline

`_JobDeadline` of `core/harness/remote_worker.py`, and the suite lock lines that it reads.

* `isWaiting`, `parseSuiteLockWaitSec` — the two patterns; seconds are exact rationals.
* `extendForLine`, `expired` — `expired` reads the clock a second time when the job waits.
* `Waits` — the queue time by the clock, kept beside the deadline.
* `deadline_law_iff` — the accounting is exact when no query straddles the timeout with its two readings.
-/

namespace DarkFactory
namespace Harness
namespace JobDeadline

open Text OwnerActions.Secrets

/-- `\[SUITE_LOCK\]\s+word\b` -/
def afterMark (al : Alphabet) (word : String) (cs : List Char) : Option (List Char) :=
  (((afterList "[SUITE_LOCK]".toList cs).bind (many isSpace 1)).bind (afterList word.toList)).filter fun rest =>
    al.boundary word.toList.getLast? rest.head?

/-- `_SUITE_LOCK_WAITING_RE.search(line)` -/
def isWaiting (al : Alphabet) : List Char → Bool
  | [] => false
  | c :: cs => (afterMark al "waiting" (c :: cs)).isSome || isWaiting al cs

/-- `[0-9]+`, and what follows it. -/
def decimals (cs : List Char) : Option (Nat × List Char) :=
  (parseDigits (cs.takeWhile Char.isDigit)).map fun n => (n, cs.dropWhile Char.isDigit)

/-- `([0-9]+(?:\.[0-9]+)?)`, and what follows it. -/
def seconds (cs : List Char) : Option (Rat × List Char) :=
  (decimals cs).bind fun whole =>
    match whole.2 with
    | '.' :: rest => (decimals rest).map fun fraction =>
        (whole.1 + fraction.1 / 10 ^ (rest.length - fraction.2.length), fraction.2)
    | rest => some (whole.1, rest)

/-- `after\s+waiting\s+([0-9]+(?:\.[0-9]+)?)\s*s\b` -/
def afterWaiting (al : Alphabet) (cs : List Char) : Option Rat := do
  let rest ← (afterList "after".toList cs).bind (many isSpace 1)
  let rest ← (afterList "waiting".toList rest).bind (many isSpace 1)
  let (waited, rest) ← seconds rest
  let rest ← afterList ['s'] (rest.dropWhile isSpace)
  if al.boundary (some 's') rest.head? then some waited else none

/-- `.*?\bafter`, within the line. -/
def lazily (al : Alphabet) : Option Char → List Char → Option Rat
  | _, [] => none
  | before, c :: cs =>
    (if al.boundary before (some c) then afterWaiting al (c :: cs) else none).or
      (if c = '\n' then none else lazily al (some c) cs)

def parseSuiteLockWaitSec (al : Alphabet) : List Char → Option Rat
  | [] => none
  | c :: cs => ((afterMark al "acquired" (c :: cs)).bind (lazily al (some 'd'))).or (parseSuiteLockWaitSec al cs)

/-- `_suite_lock_wait_cap_sec` gives no negative cap. -/
abbrev Cap := {cap : Rat // 0 ≤ cap}

structure Deadline where
  deadline : Rat
  capSec : Cap
  extendedSec : Rat
  waitingSince : Option Rat

/-- `__init__`, at a reading of the clock. -/
def init (timeoutSec : Rat) (cap : Cap) (clock : Rat) : Deadline := ⟨clock + timeoutSec, cap, 0, none⟩

def extendForLine (al : Alphabet) (d : Deadline) (line : List Char) (clock : Rat) : Rat × Deadline :=
  if isWaiting al line then (0, { d with waitingSince := d.waitingSince.or (some clock) })
  else
    match parseSuiteLockWaitSec al line with
    | none => (0, d)
    | some waited =>
      let add := max 0 (min waited (d.capSec - d.extendedSec))
      (add, { d with waitingSince := none, deadline := d.deadline + add, extendedSec := d.extendedSec + add })

def pending (d : Deadline) (clock : Rat) : Rat :=
  match d.waitingSince with
  | none => 0
  | some since => max 0 (min (clock - since) (d.capSec - d.extendedSec))

/-- The pause is taken at the first reading of the clock, which is made in a wait only, and compared at the second. -/
def expired (d : Deadline) (first second : Rat) : Bool := decide (d.deadline + pending d first < second)

inductive Event where
  | line (text : List Char) (clock : Rat)
  | query (first second : Rat)

structure Waits where
  total : Rat := 0
  since : Option Rat := none

def Waits.until (w : Waits) (clock : Rat) : Rat := w.total + (w.since.map fun since => clock - since).getD 0

def Waits.next (al : Alphabet) (w : Waits) (line : List Char) (clock : Rat) : Waits :=
  if isWaiting al line then { w with since := w.since.or (some clock) }
  else if (parseSuiteLockWaitSec al line).isSome then ⟨w.until clock, none⟩
  else w

structure World where
  d : Deadline
  waits : Waits := {}

def step (al : Alphabet) (w : World) : Event → World
  | .line text clock => ⟨(extendForLine al w.d text clock).2, w.waits.next al text clock⟩
  | .query _ _ => w

/-- The clock never goes back, from a reading on. -/
def Clocked : Rat → List Event → Prop
  | _, [] => True
  | now, .line _ clock :: events => now ≤ clock ∧ Clocked clock events
  | now, .query first second :: events => now ≤ first ∧ first ≤ second ∧ Clocked second events

def busy (start : Rat) (w : World) (clock : Rat) : Rat := clock - start - w.waits.until clock

/-- An acquired line ends a wait and tells its length, and all waits together stay within the cap. -/
def Matched (al : Alphabet) (m : Move World Event) : Prop :=
  match m.act with
  | .line text clock => isWaiting al text = false → ∀ waited, parseSuiteLockWaitSec al text = some waited →
      (∃ since, m.pre.waits.since = some since ∧ waited = clock - since) ∧ m.pre.waits.until clock ≤ m.pre.d.capSec
  | .query _ second => m.pre.waits.until second ≤ m.pre.d.capSec

def Lenient (al : Alphabet) (w : World) (line : List Char) : Prop := isWaiting al line = true ∨ w.waits.since = none

abbrev movesOf (al : Alphabet) (timeout : Rat) (cap : Cap) (start : Rat) (events : List Event) :
    List (Move World Event) := Runs.moves (step al) ⟨init timeout cap start, {}⟩ events

structure DeadlineLaw (al : Alphabet) (timeout : Rat) (cap : Cap) (start : Rat) (events : List Event) : Prop where
  bounded : ∀ m ∈ movesOf al timeout cap start events, ∀ first second, m.act = .query first second →
    start + timeout + cap < second → expired m.pre.d first second = true
  extension : ∀ m ∈ movesOf al timeout cap start events, 0 ≤ m.post.d.extendedSec ∧ m.post.d.extendedSec ≤ cap
  exact : (∀ m ∈ movesOf al timeout cap start events, Matched al m) →
    ∀ m ∈ movesOf al timeout cap start events, ∀ first second, m.act = .query first second →
      (expired m.pre.d first second = true ↔ timeout < busy start m.pre second)
  lenient : ∀ m ∈ movesOf al timeout cap start events, ∀ text clock, m.act = .line text clock →
    Lenient al m.pre text → ∀ reading, m.pre.d.deadline + pending m.pre.d reading ≤
      m.post.d.deadline + pending m.post.d reading

/-- In a wait, no query finds the timeout between the time worked and that time with what the clock moved on between
its two readings. -/
def Straddles (timeout start : Rat) (m : Move World Event) : Prop :=
  ∃ first second, m.act = .query first second ∧ m.pre.waits.since ≠ none ∧
    busy start m.pre second ≤ timeout ∧ timeout < busy start m.pre second + (second - first)

variable {al : Alphabet} {timeout start : Rat} {cap : Cap} {w : World} {events : List Event}

structure Inv (timeout : Rat) (cap : Cap) (start : Rat) (w : World) : Prop where
  capSec : w.d.capSec = cap
  extended : 0 ≤ w.d.extendedSec ∧ w.d.extendedSec ≤ cap
  deadline : w.d.deadline = start + timeout + w.d.extendedSec
  since : w.waits.since = w.d.waitingSince

theorem inv_step (h : Inv timeout cap start w) (e : Event) : Inv timeout cap start (step al w e) := by
  cases e with
  | query first second => exact h
  | line text clock =>
    obtain ⟨hcap, ⟨hpos, hle⟩, hdeadline, hsince⟩ := h
    unfold step extendForLine Waits.next
    by_cases hwaiting : isWaiting al text = true
    · simp only [hwaiting, if_true]
      exact ⟨hcap, ⟨hpos, hle⟩, hdeadline, by rw [hsince]⟩
    · simp only [hwaiting, Bool.false_eq_true, if_false]
      cases parseSuiteLockWaitSec al text with
      | none => exact ⟨hcap, ⟨hpos, hle⟩, hdeadline, hsince⟩
      | some waited =>
        have hadd : max 0 (min waited (w.d.capSec - w.d.extendedSec)) ≤ cap - w.d.extendedSec := by
          rw [hcap]
          exact max_le (sub_nonneg.mpr hle) (min_le_right _ _)
        have hnonneg := le_max_left 0 (min waited ((w.d.capSec : Rat) - w.d.extendedSec))
        refine ⟨hcap, ⟨add_nonneg hpos hnonneg, ?_⟩, ?_, rfl⟩
        · dsimp only
          linarith
        · dsimp only
          rw [hdeadline, add_assoc]

theorem pending_le (h : Inv timeout cap start w) (clock : Rat) : pending w.d clock ≤ cap - w.d.extendedSec := by
  unfold pending
  have hroom := sub_nonneg.mpr h.extended.2
  split
  · exact hroom
  · rw [h.capSec]
    exact max_le hroom (min_le_right _ _)

theorem bounded_step (h : Inv timeout cap start w) {first second : Rat} (hlate : start + timeout + cap < second) :
    expired w.d first second = true := by
  refine decide_eq_true ?_
  have hpending := pending_le h first
  rw [h.deadline]
  linarith

theorem pending_nonneg (d : Deadline) (clock : Rat) : 0 ≤ pending d clock := by
  unfold pending
  split
  · exact le_refl 0
  · exact le_max_left _ _

theorem lenient_step (h : Inv timeout cap start w) {text : List Char} (clock : Rat) (hlenient : Lenient al w text)
    (reading : Rat) : w.d.deadline + pending w.d reading ≤
      (step al w (.line text clock)).d.deadline + pending (step al w (.line text clock)).d reading := by
  have hidle : w.waits.since = none → pending w.d reading = 0 := by
    intro hnone
    rw [pending, ← h.since, hnone]
  unfold step extendForLine
  by_cases hwaiting : isWaiting al text = true
  · simp only [hwaiting, if_true]
    cases hsince : w.waits.since with
    | none =>
      rw [hidle hsince]
      exact add_le_add_right (pending_nonneg _ _) _
    | some since =>
      have hsame : w.d.waitingSince.or (some clock) = w.d.waitingSince := by
        rw [← h.since, hsince]
        rfl
      rw [hsame]
  · have hnone := hlenient.resolve_left hwaiting
    simp only [hwaiting, Bool.false_eq_true, if_false]
    rw [hidle hnone]
    cases parseSuiteLockWaitSec al text with
    | none => exact add_le_add_right (pending_nonneg _ _) _
    | some waited =>
      have hadd := le_max_left 0 (min waited ((w.d.capSec : Rat) - w.d.extendedSec))
      have hpending := pending_nonneg { w.d with
        waitingSince := none
        deadline := w.d.deadline + max 0 (min waited (w.d.capSec - w.d.extendedSec))
        extendedSec := w.d.extendedSec + max 0 (min waited (w.d.capSec - w.d.extendedSec)) } reading
      dsimp only
      linarith

structure Even (now : Rat) (w : World) : Prop where
  extended : w.d.extendedSec = w.waits.total
  began : ∀ since, w.waits.since = some since → since ≤ now

theorem expired_iff (h : Inv timeout cap start w) {now first second : Rat} (heven : Even now w) (hnow : now ≤ first)
    (hclock : first ≤ second) (hcap : w.waits.until second ≤ cap) :
    expired w.d first second = true ↔
      timeout < busy start w second + (if w.waits.since = none then 0 else second - first) := by
  unfold expired busy pending Waits.until
  unfold Waits.until at hcap
  rw [decide_eq_true_eq, h.deadline, heven.extended, ← h.since]
  cases hsince : w.waits.since with
  | none =>
    simp only [Option.map_none, Option.getD_none, if_true]
    constructor <;> intro hless <;> linarith
  | some since =>
    rw [hsince] at hcap
    simp only [Option.map_some, Option.getD_some] at hcap
    have hbegan := heven.began since hsince
    have hpause : max 0 (min (first - since) ((w.d.capSec : Rat) - w.waits.total)) = first - since := by
      rw [h.capSec, min_eq_left (by linarith), max_eq_right (by linarith)]
    simp only [hpause, Option.map_some, Option.getD_some, reduceCtorEq, if_false]
    constructor <;> intro hless <;> linarith

theorem even_line {now clock : Rat} {text : List Char} (heven : Even now w) (hnow : now ≤ clock)
    (hmatched : Matched al ⟨w, .line text clock, step al w (.line text clock)⟩) :
    Even clock (step al w (.line text clock)) := by
  have hkeep : ∀ since, w.waits.since = some since → since ≤ clock := fun since hs => (heven.began since hs).trans hnow
  unfold Matched at hmatched
  unfold step extendForLine Waits.next
  by_cases hwaiting : isWaiting al text = true
  · simp only [hwaiting, if_true]
    refine ⟨heven.extended, fun since hs => ?_⟩
    rcases Option.or_eq_some_iff.mp hs with hs | ⟨-, hs⟩
    · exact hkeep since hs
    · exact (Option.some.inj hs).ge
  · dsimp only at hmatched
    rw [Bool.not_eq_true] at hwaiting
    simp only [hwaiting, Bool.false_eq_true, if_false]
    cases hwaited : parseSuiteLockWaitSec al text with
    | none => exact ⟨heven.extended, hkeep⟩
    | some waited =>
      obtain ⟨⟨since, hsince, hlength⟩, hcap⟩ := hmatched hwaiting waited hwaited
      have hnonneg : 0 ≤ waited := by
        rw [hlength]
        exact sub_nonneg.mpr (hkeep since hsince)
      unfold Waits.until at hcap
      rw [hsince, Option.map_some, Option.getD_some, ← hlength] at hcap
      have hadd : max 0 (min waited ((w.d.capSec : Rat) - w.d.extendedSec)) = waited := by
        rw [heven.extended, min_eq_left (by linarith), max_eq_right hnonneg]
      simp only [Option.isSome_some, if_true, hadd]
      refine ⟨?_, fun since hs => by cases hs⟩
      unfold Waits.until
      rw [heven.extended, hsince, hlength]
      rfl

theorem inv_start : Inv timeout cap start ⟨init timeout cap start, {}⟩ :=
  ⟨rfl, ⟨le_refl 0, cap.2⟩, (add_zero (start + timeout)).symm, rfl⟩

theorem even_run {now : Rat} (h : Inv timeout cap start w) (heven : Even now w) (hclock : Clocked now events)
    (hmatched : ∀ m ∈ Runs.moves (step al) w events, Matched al m) :
    ∀ m ∈ Runs.moves (step al) w events, ∀ first second, m.act = .query first second →
      Inv timeout cap start m.pre ∧ first ≤ second ∧ ∃ now, now ≤ first ∧ Even now m.pre := by
  induction events generalizing w now with
  | nil => exact fun m hm => by cases hm
  | cons e events ih =>
    rw [Runs.moves, List.forall_mem_cons] at hmatched ⊢
    cases e with
    | line text clock =>
      refine ⟨fun first second hact => (by cases hact), ?_⟩
      exact ih (inv_step h _) (even_line heven hclock.1 hmatched.1) hclock.2 hmatched.2
    | query first second =>
      refine ⟨fun _ _ hact => ?_, ?_⟩
      · cases hact
        exact ⟨h, hclock.2.1, now, hclock.1, heven⟩
      · refine ih h ⟨heven.extended, fun since hs => ?_⟩ hclock.2.2 hmatched.2
        exact (heven.began since hs).trans (hclock.1.trans hclock.2.1)

theorem deadline_law_iff (al : Alphabet) (timeout : Rat) (cap : Cap) (start : Rat) (events : List Event)
    (hclock : Clocked start events) :
    DeadlineLaw al timeout cap start events ↔
      ((∀ m ∈ movesOf al timeout cap start events, Matched al m) →
        ∀ m ∈ movesOf al timeout cap start events, ¬ Straddles timeout start m) := by
  have hinv : ∀ m ∈ movesOf al timeout cap start events, Inv timeout cap start m.pre ∧ Inv timeout cap start m.post :=
    fun m hm => Runs.moves_invariant (I := Inv timeout cap start) (fun _ e h => inv_step h e) inv_start hm
  have hquery : (∀ m ∈ movesOf al timeout cap start events, Matched al m) →
      ∀ m ∈ movesOf al timeout cap start events, ∀ first second, m.act = .query first second →
        (expired m.pre.d first second = true ↔
          timeout < busy start m.pre second + (if m.pre.waits.since = none then 0 else second - first)) ∧
          first ≤ second := by
    intro hmatched m hm first second hact
    obtain ⟨h, hle, now, hnow, heven⟩ := even_run inv_start ⟨rfl, fun _ hs => by cases hs⟩ hclock hmatched m hm
      first second hact
    have hcap := hmatched m hm
    rw [Matched, hact] at hcap
    dsimp only at hcap
    rw [h.capSec] at hcap
    exact ⟨expired_iff h heven hnow hle hcap, hle⟩
  constructor
  · rintro hlaw hmatched m hm ⟨first, second, hact, hwaits, hless, hmore⟩
    have hexact := hlaw.exact hmatched m hm first second hact
    rw [(hquery hmatched m hm first second hact).1, if_neg hwaits] at hexact
    exact absurd (hexact.mp hmore) (not_lt.mpr hless)
  · intro hsteady
    refine ⟨fun m hm first second _ hlate => bounded_step (hinv m hm).1 hlate, fun m hm => (hinv m hm).2.extended,
      fun hmatched m hm first second hact => ?_, fun m hm text clock hact hlenient reading => ?_⟩
    · obtain ⟨hiff, hle⟩ := hquery hmatched m hm first second hact
      rw [hiff]
      split
      · rw [add_zero]
      · rename_i hwaits
        constructor
        · intro hmore
          by_contra hless
          exact hsteady hmatched m hm ⟨first, second, hact, hwaits, not_lt.mp hless, hmore⟩
        · intro hmore
          linarith
    · have hpost := Runs.post_of_mem hm
      rw [hact] at hpost
      rw [hpost]
      exact lenient_step (hinv m hm).1 clock hlenient reading

def slotTaken : List Char := "[SUITE_LOCK] waiting: slot 0\n".toList

/-- A wait that begins when the time is up, and a query in it whose clock moves on. -/
def readTwice : List Event := [.line slotTaken 10, .query 11 12]

theorem read_twice_expires : ¬ DeadlineLaw ⟨fun _ => false⟩ 10 ⟨3600, by decide⟩ 0 readTwice := by
  intro h
  have hwaiting : isWaiting ⟨fun _ => false⟩ slotTaken = true := by decide +kernel
  have hexact := h.exact
  simp only [movesOf, readTwice, Runs.moves, step, extendForLine, Waits.next, hwaiting, init, if_true,
    List.forall_mem_cons, Option.none_or] at hexact
  obtain ⟨-, hquery, -⟩ := hexact ⟨fun hnot => (by rw [hwaiting] at hnot; cases hnot),
    (by simp only [Matched, Waits.until, Option.map_some, Option.getD_some]; norm_num), fun _ hm => (by cases hm)⟩
  have hlate := (hquery 11 12 rfl).mp
  simp only [expired, pending, busy, Waits.until, Option.map_some, Option.getD_some] at hlate
  norm_num at hlate

theorem deadline_law_read_once : DeadlineLaw ⟨fun _ => false⟩ 10 ⟨3600, by decide⟩ 0 [.query 4 4] := by
  refine (deadline_law_iff _ 10 _ 0 [.query 4 4] ⟨by norm_num, le_refl 4, trivial⟩).mpr ?_
  rintro - m hm ⟨first, second, hact, hwaits, -, -⟩
  rw [movesOf, Runs.moves, Runs.moves, List.mem_singleton] at hm
  rw [hm] at hwaits
  exact hwaits rfl

end JobDeadline
end Harness
end DarkFactory
