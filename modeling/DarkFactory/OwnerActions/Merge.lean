import DarkFactory.Lib.ThreeWay
import DarkFactory.Python.Digits

/-!
# DarkFactory.OwnerActions.Merge

`merge_owner_actions_3way` of `core/owner_actions/merge.py` and `renumber_duplicate_owner_actions` of
`core/owner_actions/dedupe.py`.

* A row has its id and its references apart from the `rest` of its object. Rows are equal when their objects are.
* A text is what its JSON is. The file that is written is the document it is dumped from.
* The key `actions` of a document is apart from its other keys.
-/

namespace DarkFactory
namespace OwnerActions

structure Row (ρ : Type) where
  /-- `str(row.get("id", ""))`. -/
  id : String
  blocks : List String := []
  dependsOn : List String := []
  rest : ρ
deriving DecidableEq

def Row.refs {ρ : Type} (r : Row ρ) : List String := r.dependsOn ++ r.blocks

def Row.withId {ρ : Type} (r : Row ρ) (id : String) : Row ρ := { r with id := id }

/-- An element of `actions`. -/
inductive Item (ρ : Type) where
  | row (r : Row ρ)
  /-- Not an object. -/
  | other (value : ρ)
deriving DecidableEq

structure Document (ρ : Type) where
  /-- `document.get("actions")`. -/
  actions : Option (List (Item ρ))
  /-- The other keys, in their order. -/
  fields : List (String × ρ) := []

inductive Raw (ρ : Type) where
  | blank
  | malformed (exc : String)
  /-- Neither an object nor a list. -/
  | scalar
  | list (items : List (Item ρ))
  /-- An object whose `actions` are no list. -/
  | otherActions
  | document (d : Document ρ)

inductive MergeError where
  /-- `JSON invalido`. -/
  | invalid (label exc : String)
  /-- `formato inesperado`. -/
  | unexpected (label : String)
  /-- `alterado nos dois lados com conteudo diferente`. -/
  | changedOnBothSides (id : String)
  /-- `removido em main e alterado na branch`. -/
  | removedInMain (id : String)
  /-- `campo alterado nos dois lados`. -/
  | field (key : String)
deriving DecidableEq

section

variable {ρ : Type}

def parse (label : String) : Raw ρ → Except MergeError (Document ρ)
  | .blank => .ok { actions := some [] }
  | .malformed exc => .error (.invalid label exc)
  | .scalar | .list _ | .otherActions => .error (.unexpected label)
  | .document d => .ok d

/-- The rows of `_by_id` that follow rows with the ids `seen`. -/
def byIdFrom : List String → List (Item ρ) → List (Row ρ)
  | _, [] => []
  | seen, .other _ :: items => byIdFrom seen items
  | seen, .row r :: items =>
    if r.id = "" ∨ r.id ∈ seen then byIdFrom seen items else r :: byIdFrom (r.id :: seen) items

/-- `_by_id`: the rows in their order, the first one of each id. -/
def byId (d : Document ρ) : List (Row ρ) := byIdFrom [] (d.actions.getD [])

/-- `rows.get(id)`. -/
def find (rows : List (Row ρ)) (id : String) : Option (Row ρ) := rows.find? fun r => decide (r.id = id)

def collect (f : Row ρ → Except MergeError (List (Row ρ))) : List (Row ρ) → Except MergeError (List (Row ρ))
  | [] => .ok []
  | r :: rows => do
    let here ← f r
    let more ← collect f rows
    return here ++ more

variable [DecidableEq ρ]

/-- A row of `theirs`. -/
def mergeTheirs (base ours : List (Row ρ)) (t : Row ρ) : Except MergeError (List (Row ρ)) :=
  match find base t.id with
  | none =>
    match find ours t.id with
    | none => .ok [t]
    -- an id collision: renumbered by the caller
    | some o => if o ≠ t then .ok [t, o] else .ok [t]
  | some b =>
    match ThreeWay.pick (some b) (find ours t.id) (some t) with
    | none => .error (.changedOnBothSides t.id)
    | some value => .ok value.toList

/-- A row of `ours`. -/
def mergeOurs (base theirs : List (Row ρ)) (o : Row ρ) : Except MergeError (List (Row ρ)) :=
  if (find theirs o.id).isSome then .ok []
  else
    match find base o.id with
    | none => .ok [o]
    | some b => if o ≠ b then .error (.removedInMain o.id) else .ok []

def mergeRows (base ours theirs : List (Row ρ)) : Except MergeError (List (Row ρ)) := do
  let kept ← collect (mergeTheirs base ours) theirs
  let added ← collect (mergeOurs base theirs) ours
  return kept ++ added

def Document.get? (d : Document ρ) (key : String) : Option ρ :=
  (d.fields.find? fun field => decide (field.1 = key)).map Prod.snd

def mergeFields (base ours theirs : Document ρ) : List String → Except MergeError (List (String × ρ))
  | [] => .ok []
  | key :: keys =>
    match ThreeWay.pick (base.get? key) (ours.get? key) (theirs.get? key) with
    | none => .error (.field key)
    | some value => do
      let more ← mergeFields base ours theirs keys
      return (value.map fun v => (key, v)).toList ++ more

def mergeOwnerActions3way (baseRaw oursRaw theirsRaw : Raw ρ) : Except MergeError (Document ρ) := do
  let base ← parse "base" baseRaw
  let ours ← parse "ours" oursRaw
  let theirs ← parse "theirs" theirsRaw
  let rows ← mergeRows (byId base) (byId ours) (byId theirs)
  let keys := ((theirs.fields ++ ours.fields ++ base.fields).map Prod.fst).eraseDups
  let fields ← mergeFields base ours theirs keys
  return { actions := some (rows.map .row), fields := fields }

def extractRows : Raw ρ → List (Item ρ)
  | .list items => items
  | .document d => d.actions.getD []
  | .blank | .malformed _ | .scalar | .otherActions => []

/-- `_remote_rows`, from the remote's text, if there is one. -/
def remoteRows (remote : Option (Raw ρ)) : List (Row ρ) :=
  ((remote.map extractRows).getD []).filterMap fun
    | .row r => some r
    | .other _ => none

/-- The number of an id that `SEQUENTIAL_ID_PATTERN` matches. -/
def sequentialNumber (id : String) : Option Nat :=
  (Text.afterList "OA-".toList id.toList).bind fun cs =>
    -- `$` matches before a last newline too
    (Text.parseDigits cs).or (if cs.getLast? = some '\n' then Text.parseDigits cs.dropLast else none)

def freshId (n : Nat) : String := "OA-" ++ Text.decimal 3 n

def Item.key : Item ρ → Option String
  | .row r => if r.id = "" then none else some r.id
  | .other _ => none

def Item.withId (id : String) : Item ρ → Item ρ
  | .row r => .row (r.withId id)
  | .other value => .other value

/-- The keys of `groups`, in their order. -/
def groupIds (items : List (Item ρ)) : List String := (items.filterMap Item.key).eraseDups

/-- `groups[id]`. -/
def groupOf (items : List (Item ρ)) (id : String) : List Nat :=
  (List.range items.length).filter fun index => decide (items[index]?.bind Item.key = some id)

/-- `keep_index`. No row of the group has been renumbered before. -/
def keepIndex (items : List (Item ρ)) (remote : List (Row ρ)) (id : String) : Nat :=
  let indices := groupOf items id
  let first := indices.headD 0
  match find remote id with
  | none => first
  | some r => (indices.find? fun index => decide (items[index]? = some (.row r))).getD first

def duplicates (items : List (Item ρ)) (remote : List (Row ρ)) : List Nat :=
  (groupIds items).flatMap fun id =>
    if (groupOf items id).length < 2 then []
    else (groupOf items id).filter fun index => decide (index ≠ keepIndex items remote id)

/-- `used_numbers`, before the loop. -/
def usedNumbers (items : List (Item ρ)) (remote : List (Row ρ)) : List Nat :=
  (groupIds items ++ remote.map Row.id).filterMap sequentialNumber

/-- `max(used_numbers, default=0) + 1`. -/
def nextNumber (used : List Nat) : Nat := used.foldr max 0 + 1

def assign : List Nat → List Nat → List (Nat × Nat)
  | _, [] => []
  | used, index :: indices => (index, nextNumber used) :: assign (nextNumber used :: used) indices

def numberOf (assigned : List (Nat × Nat)) (index : Nat) : Option Nat :=
  (assigned.find? fun p => decide (p.1 = index)).map Prod.snd

def renumbered (items : List (Item ρ)) (remote : List (Row ρ)) : List (Item ρ) :=
  let assigned := assign (usedNumbers items remote) (duplicates items remote)
  items.mapIdx fun index item =>
    match numberOf assigned index with
    | some n => item.withId (freshId n)
    | none => item

def changesOf (items : List (Item ρ)) (remote : List (Row ρ)) : List (String × String) :=
  (assign (usedNumbers items remote) (duplicates items remote)).filterMap fun p =>
    (items[p.1]?.bind Item.key).map fun id => (id, freshId p.2)

def renumberDuplicateOwnerActions (target : Raw ρ) (remote : Option (Raw ρ)) : Raw ρ × List (String × String) :=
  let items := extractRows target
  let rows := remoteRows remote
  match changesOf items rows with
  | [] => (target, [])
  | changes =>
    match target with
    | .list _ => (.list (renumbered items rows), changes)
    | .document d => (.document { d with actions := some (renumbered items rows) }, changes)
    | other => (other, [])

end

end OwnerActions
end DarkFactory
