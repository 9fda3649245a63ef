import DarkFactory.Demands.Ledger
import DarkFactory.Python.Digits
import DarkFactory.Python.Text

/-!
# DarkFactory.Demands.IdAllocator

`reserve_ticket_id` of `core/demands/id_allocator.py`: calls by any number of processes and worktrees.

* A directory (the common directory of a repository, or the ledger's own outside of one) has a lock and a
  counter file. The lock is exclusive, and taken away from a process that ends.
* Ledgers, worktrees and refs are what they are when a call reads them: each read is one move, and
  anything may change them between two moves.
* A call returns when it gives back the lock.
-/

namespace DarkFactory
namespace Demands
namespace IdAllocator

section

variable {ρ : Type}

/-- `_ledger_rows`, or none where it raises. -/
def ledgerRows : LedgerText ρ → Option (List (Row ρ))
  | .json (.list items) | .json (.demands items) => items.mapM Item.row?
  | .blank | .malformed _ | .json (.otherDemands _) | .json .object | .json .scalar => none

/-- The number of an id that `^p-(\d+)$` matches. -/
def patternNumber (p id : String) : Option Nat :=
  (Text.afterList (p ++ "-").toList id.toList).bind Text.parseDigits

/-- The number of an id that `_id_pattern` matches. -/
def idNumber (ticketPrefix id : String) : Option Nat :=
  if ticketPrefix = "USR" then (patternNumber ticketPrefix id).or (patternNumber "DF" id)
  else patternNumber ticketPrefix id

/-- `_numbers`. -/
def numbersOf (ticketPrefix : String) (text : LedgerText ρ) : Option (List Nat) :=
  (ledgerRows text).map fun rows => (ids rows).filterMap (idNumber ticketPrefix)

def matchingIds (ticketPrefix : String) (text : LedgerText ρ) : Option (List String) :=
  (ledgerRows text).map fun rows => (ids rows).filter fun id => (idNumber ticketPrefix id).isSome

def candidateId (ticketPrefix : String) (n : Nat) : String := ticketPrefix ++ "-" ++ Text.decimal 2 n

/-- `_origin_contains_id`, or none where it raises. -/
def originContainsId (ticketPrefix candidate : String) : Option (LedgerText ρ) → Option Bool
  | none => some false
  | some text =>
    (matchingIds ticketPrefix text).bind fun found =>
      if candidate ∈ found then some true
      else
        match patternNumber ticketPrefix candidate with
        | none => some false
        | some n => (numbersOf ticketPrefix text).map fun numbers => decide (n ∈ numbers)

theorem patternNumber_candidateId (p : String) (n : Nat) : patternNumber p (candidateId p n) = some n := by
  have htext : (candidateId p n).toList = (p ++ "-").toList ++ (Text.decimal 2 n).toList :=
    String.toList_append
  rw [patternNumber, htext, Text.afterList_append, Option.bind_some, Text.parseDigits_decimal]

theorem idNumber_candidateId (p : String) (n : Nat) : idNumber p (candidateId p n) = some n := by
  rw [idNumber, patternNumber_candidateId]
  split <;> rfl

end

/-- The object of a counter file: the value of a key, which `int` may refuse. -/
abbrev Counters := String → Option (Option Nat)

inductive CounterFile where
  | absent
  /-- Not an object. -/
  | malformed
  | object (counters : Counters)

/-- What a call reads, or none where it raises. -/
def CounterFile.read : CounterFile → Option Counters
  | .absent => some fun _ => none
  | .malformed => none
  | .object counters => some counters

/-- `int(counters.get(prefix, 0))`. -/
def Counters.floor (counters : Counters) (ticketPrefix : String) : Option Nat :=
  (counters ticketPrefix).getD (some 0)

def Counters.set (counters : Counters) (ticketPrefix : String) (n : Nat) : Counters :=
  fun p => if p = ticketPrefix then some (some n) else counters p

structure Call where
  /-- The ledger. -/
  path : String
  parent : String
  ticketPrefix : String
  /-- The common directory of the repository that the ledger is in. -/
  repository : Option String
  /-- An ancestor has a `.git`. -/
  gitAncestor : Bool

def Call.home (call : Call) : String := call.repository.getD call.parent

/-- What `git rev-parse --git-common-dir` does. -/
inductive RevParse where
  | answers
  /-- Exit code 127. -/
  | missing
  /-- Any other exit code. -/
  | fails
deriving DecidableEq

structure Repo (ρ : Type) where
  /-- `git worktree list`, or none where it fails. -/
  worktrees : Option (List String)
  /-- `git show` of the ledger at a ref. -/
  show? : String → Option (LedgerText ρ)
  /-- The lines of `git for-each-ref`, or none where it fails. -/
  ticketRefs : Option (List String)

inductive Event (ρ : Type) where
  | revParse (r : RevParse)
  /-- `git fetch` leaves the repository like this. -/
  | fetched (repo : Repo ρ)
  | proceed
  /-- What is under way fails: a deadline, a command of git, a read or a write. -/
  | raise

inductive Phase where
  | fetching
  | own
  | listing
  | worktrees (rest : List String)
  | main
  | listingRefs
  | ticketRefs (rest : List String)
  | choosing
  | writing (next : Nat)
deriving DecidableEq

/-- A call inside the loop of `reserve_ticket_id`. -/
structure Attempt where
  inGit : Bool
  dir : String
  counters : Counters
  floor : Nat
  /-- The attempts after this one. -/
  left : Nat
  /-- What `_occupied_numbers` has so far. -/
  numbers : List Nat
  phase : Phase

def maxReservationAttempts : Nat := 5

def ledgerOf (worktree : String) : String := worktree ++ "/.factory/demands/demands.json"

def originMain : String := "origin/main"

/-- The refs among the lines of `git for-each-ref`. -/
def refsOf (lines : List String) : List String := (lines.map Text.strip).filter fun r => decide (r ≠ "")

inductive Advance where
  | raises
  | goOn (a : Attempt)
  | reserves (n : Nat)

section

variable {ρ : Type}

namespace Attempt

def collect (call : Call) (text : Option (LedgerText ρ)) (phase : Phase) (a : Attempt) : Advance :=
  match text with
  | none => .goOn { a with phase := phase }
  | some text =>
    match numbersOf call.ticketPrefix text with
    | none => .raises
    | some numbers => .goOn { a with numbers := a.numbers ++ numbers, phase := phase }

/-- `max([*numbers, floor], default=0) + 1`. -/
def nextNumber (a : Attempt) : Nat := a.numbers.foldr max a.floor + 1

/-- The candidate is on `origin/main` already. -/
def retry (a : Attempt) : Advance :=
  match a.left with
  | 0 => .raises
  | left + 1 =>
    .goOn { a with floor := max a.floor a.nextNumber, left := left, numbers := [], phase := .fetching }

/-- The next move of an attempt; a fetch finds no `origin` here. -/
def advance (call : Call) (files : String → Option (LedgerText ρ)) (repo : Repo ρ) (a : Attempt) : Advance :=
  match a.phase with
  | .fetching => .goOn { a with phase := .own }
  | .own => a.collect call (files call.path) (if a.inGit then .listing else .choosing)
  | .listing =>
    match repo.worktrees with
    | none => .raises
    | some worktrees => .goOn { a with phase := .worktrees worktrees }
  | .worktrees [] => .goOn { a with phase := .main }
  | .worktrees (w :: rest) => a.collect call (files (ledgerOf w)) (.worktrees rest)
  | .main => a.collect call (repo.show? originMain) .listingRefs
  | .listingRefs =>
    match repo.ticketRefs with
    | none => .raises
    | some lines => .goOn { a with phase := .ticketRefs (refsOf lines) }
  | .ticketRefs [] => .goOn { a with phase := .choosing }
  | .ticketRefs (r :: rest) => a.collect call (repo.show? r) (.ticketRefs rest)
  | .choosing =>
    if a.inGit then
      match originContainsId call.ticketPrefix (candidateId call.ticketPrefix a.nextNumber)
        (repo.show? originMain) with
      | none => .raises
      | some true => a.retry
      | some false => .goOn { a with phase := .writing a.nextNumber }
    else .goOn { a with phase := .writing a.nextNumber }
  | .writing next => .reserves next

end Attempt

inductive Pc where
  | entered
  | acquiring (inGit : Bool) (dir : String)
  | locked (inGit : Bool) (dir : String)
  | reserving (a : Attempt)
  /-- The counter is written. -/
  | leaving (dir : String) (n : Nat)
  /-- With `candidateId` of the number. -/
  | returned (n : Nat)
  | raised
  /-- Its process has ended. -/
  | dead

def Pc.over : Pc → Bool
  | .returned _ | .raised | .dead => true
  | .entered | .acquiring _ _ | .locked _ _ | .reserving _ | .leaving _ _ => false

def Pc.lockDir : Pc → Option String
  | .locked _ dir | .leaving dir _ => some dir
  | .reserving a => some a.dir
  | .entered | .acquiring _ _ | .returned _ | .raised | .dead => none

structure State (ρ : Type) where
  files : String → Option (LedgerText ρ)
  repos : String → Repo ρ
  counters : String → CounterFile
  /-- The call that has the lock of a directory. -/
  locks : String → Option Nat := fun _ => none
  pcs : Nat → Pc := fun _ => .entered

namespace State

def setPc (s : State ρ) (t : Nat) (pc : Pc) : State ρ :=
  { s with pcs := fun t' => if t' = t then pc else s.pcs t' }

def setLock (s : State ρ) (dir : String) (holder : Option Nat) : State ρ :=
  { s with locks := fun d => if d = dir then holder else s.locks d }

def setRepo (s : State ρ) (dir : String) (repo : Repo ρ) : State ρ :=
  { s with repos := fun d => if d = dir then repo else s.repos d }

def writeCounter (s : State ρ) (dir : String) (counters : Counters) : State ρ :=
  { s with counters := fun d => if d = dir then .object counters else s.counters d }

def leave (s : State ρ) (t : Nat) (dir : String) (pc : Pc) : State ρ := (s.setLock dir none).setPc t pc

/-- `git rev-parse`, and what the call makes of it. -/
def locate (call : Call) (s : State ρ) (t : Nat) : RevParse → State ρ
  | .answers =>
    match call.repository with
    | some dir => s.setPc t (.acquiring true dir)
    | none => s
  | .missing => if call.gitAncestor then s.setPc t .raised else s.setPc t (.acquiring false call.parent)
  | .fails => s.setPc t (.acquiring false call.parent)

def start (call : Call) (s : State ρ) (t : Nat) (inGit : Bool) (dir : String) : State ρ :=
  match (s.counters dir).read with
  | none => s.leave t dir .raised
  | some counters =>
    match counters.floor call.ticketPrefix with
    | none => s.leave t dir .raised
    | some floor =>
      s.setPc t (.reserving {
        inGit := inGit
        dir := dir
        counters := counters
        floor := floor
        left := maxReservationAttempts - 1
        numbers := []
        phase := if inGit then .fetching else .own })

def reserve (call : Call) (s : State ρ) (t : Nat) (a : Attempt) : State ρ :=
  match a.advance call s.files (s.repos a.dir) with
  | .raises => s.leave t a.dir .raised
  | .goOn a' => s.setPc t (.reserving a')
  | .reserves n => (s.writeCounter a.dir (a.counters.set call.ticketPrefix n)).setPc t (.leaving a.dir n)

def go (c : Nat → Call) (s : State ρ) (t : Nat) (e : Event ρ) : State ρ :=
  match s.pcs t with
  | .entered =>
    match e with
    | .revParse r => s.locate (c t) t r
    | .raise => s.setPc t .raised
    | .fetched _ | .proceed => s
  | .acquiring inGit dir =>
    match e with
    | .raise => s.setPc t .raised
    | .revParse _ | .fetched _ | .proceed =>
      if s.locks dir = none then (s.setLock dir (some t)).setPc t (.locked inGit dir) else s
  | .locked inGit dir =>
    match e with
    | .raise => s.leave t dir .raised
    | .revParse _ | .fetched _ | .proceed => s.start (c t) t inGit dir
  | .reserving a =>
    match e with
    | .raise => s.leave t a.dir .raised
    | .fetched repo =>
      if a.phase = .fetching then (s.setRepo a.dir repo).setPc t (.reserving { a with phase := .own }) else s
    | .revParse _ | .proceed => s.reserve (c t) t a
  | .leaving dir n => s.leave t dir (.returned n)
  | .returned _ | .raised | .dead => s

def kill (s : State ρ) (t : Nat) : State ρ :=
  match (s.pcs t).lockDir with
  | some dir => s.leave t dir .dead
  | none => if (s.pcs t).over then s else s.setPc t .dead

end State

inductive Act (ρ : Type) where
  | go (t : Nat) (e : Event ρ)
  | kill (t : Nat)
  /-- Ledgers, branches and refs change. -/
  | outside (files : String → Option (LedgerText ρ)) (repos : String → Repo ρ)

def step (c : Nat → Call) (s : State ρ) : Act ρ → State ρ
  | .go t e => s.go c t e
  | .kill t => s.kill t
  | .outside files repos => { s with files := files, repos := repos }

end

end IdAllocator
end Demands
end DarkFactory
