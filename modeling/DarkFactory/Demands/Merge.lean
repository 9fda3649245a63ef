import DarkFactory.Demands.Ledger
import DarkFactory.Lib.ThreeWay
import DarkFactory.Python.Sort

/-!
# DarkFactory.Demands.Merge

`merge_demands_3way` of `core/demands/merge.py`, with the `title_collisions` of
`core/demands/id_allocator.py`.

* The merged text is the rows it is dumped from, an error the values that its text is made of.
* `resultOf` — the row that the two loops leave under an id.
-/

namespace DarkFactory
namespace Demands

section

variable {ρ : Type}

/-- `row["id"]` and `row["title"]`, or none where one of them raises. -/
def Item.titled : Item ρ → Option (String × String)
  | .row r => r.id.bind fun id => r.title.map fun title => (id, title)
  | .other => none

/-- `titles`, the entries before they become a dict. -/
def titles : LedgerText ρ → Option (List (String × String))
  | .json (.list items) | .json (.demands items) => items.mapM Item.titled
  | _ => none

def titleOf (entries : List (String × String)) (id : String) : Option String :=
  (entries.reverse.find? fun e => decide (e.1 = id)).map Prod.snd

def titleCollisions (base candidate : LedgerText ρ) : Option (List (String × String × String)) :=
  (titles base).bind fun base => (titles candidate).map fun candidate =>
    (candidate.map Prod.fst).eraseDups.filterMap fun id =>
      match titleOf base id, titleOf candidate id with
      | some old, some new => if old ≠ new then some (id, old, new) else none
      | _, _ => none

inductive MergeError where
  /-- Failed to parse demands JSON for 3-way merge. -/
  | unparsable (exc : String)
  /-- demands.json ticket ID collision; merge blocked. -/
  | collisions (collisions : List (String × String × String))
  /-- removed in branch but modified in base. -/
  | removedInBranch (id : String)
  /-- removed in base but modified in branch. -/
  | removedInBase (id : String)
  /-- modified in both branches with different values. -/
  | modifiedInBoth (id : String)
  /-- added in both branches with different values. -/
  | addedInBoth (id : String)
deriving DecidableEq

def parseDemandsPayload : LedgerText ρ → Except String (List (Row ρ))
  | .blank => .ok []
  | .malformed exc => .error exc
  | .json (.list items) | .json (.demands items) => .ok (rowsOf items)
  | .json _ => .error "Demands payload must be a list of dicts or a dict with a 'demands' list"

variable [DecidableEq ρ]

def conflictOf (id : String) (base ours theirs : Option (Row ρ)) : Option MergeError :=
  match base with
  | some b =>
    match ours, theirs with
    | none, none => none
    | none, some t => if t ≠ b then some (.removedInBranch id) else none
    | some o, none => if o ≠ b then some (.removedInBase id) else none
    | some o, some t => if (o ≠ b ∧ t ≠ b) ∧ o ≠ t then some (.modifiedInBoth id) else none
  | none =>
    match ours, theirs with
    | some o, some t => if o ≠ t then some (.addedInBoth id) else none
    | _, _ => none

/-- `sorted(all_ids)`. -/
def allIds (base ours theirs : List (Row ρ)) : List String :=
  sortAsc (fun id => id) (ids base ++ ids ours ++ ids theirs).eraseDups

def findConflict (base ours theirs : List (Row ρ)) : Option MergeError :=
  (allIds base ours theirs).findSome? fun id => conflictOf id (byId base id) (byId ours id) (byId theirs id)

/-- `row.get("id")`, when it is truthy. -/
def Row.key (r : Row ρ) : Option String := r.id.filter fun id => decide (id ≠ "")

/-- The row of `theirs` in the result, with the changes of `ours`. -/
def mergeRow (base ours : List (Row ρ)) (t : Row ρ) : Option (Row ρ) :=
  t.key.bind fun id =>
    match byId ours id with
    | some o => if some o ≠ byId base id then some o else some t
    | none => if (byId base id).isSome then none else some t

/-- The rows of `ours` whose ids have not been seen. -/
def appendOurs : List String → List (Row ρ) → List (Row ρ)
  | _, [] => []
  | seen, o :: rest =>
    match o.key with
    | none => appendOurs seen rest
    | some id => if id ∈ seen then appendOurs seen rest else o :: appendOurs (id :: seen) rest

def mergedRows (base ours theirs : List (Row ρ)) : List (Row ρ) :=
  theirs.filterMap (mergeRow base ours) ++ appendOurs (theirs.filterMap Row.key) ours

def mergeDemands3way (baseRaw oursRaw theirsRaw : LedgerText ρ) : Except MergeError (List (Row ρ)) :=
  match parseDemandsPayload baseRaw, parseDemandsPayload oursRaw, parseDemandsPayload theirsRaw with
  | .error exc, _, _ | _, .error exc, _ | _, _, .error exc => .error (.unparsable exc)
  | .ok base, .ok ours, .ok theirs =>
    match titleCollisions theirsRaw oursRaw with
    | some (c :: rest) => .error (.collisions (c :: rest))
    | _ =>
      match findConflict base ours theirs with
      | some e => .error e
      | none => .ok (mergedRows base ours theirs)

end

end Demands
end DarkFactory
