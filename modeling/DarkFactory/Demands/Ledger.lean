import Mathlib.Data.List.Nodup
import Mathlib.Data.String.Basic

/-!
# DarkFactory.Demands.Ledger

The text of a demand ledger, as the readers of `core/demands` take it apart.

* Values that compare equal are one value. `ρ` is what a row holds beside its id and its title.
* An id that is not a string is none: no reader takes it for the id of a ticket.
-/

namespace DarkFactory
namespace Demands

structure Row (ρ : Type) where
  id : Option String
  /-- `str(row["title"])`. -/
  title : Option String
  rest : ρ
deriving DecidableEq

inductive Item (ρ : Type) where
  | row (r : Row ρ)
  /-- Not an object. -/
  | other
deriving DecidableEq

inductive Payload (ρ : Type) where
  | list (items : List (Item ρ))
  /-- An object with the list under `demands`. -/
  | demands (items : List (Item ρ))
  /-- An object with something else there, and how many elements that has to iterate over, if any can. -/
  | otherDemands (elements : Option Nat)
  /-- An object without the key. -/
  | object
  | scalar
deriving DecidableEq

inductive LedgerText (ρ : Type) where
  /-- Nothing but blanks. -/
  | blank
  /-- What `json.loads` says of it. -/
  | malformed (exc : String)
  | json (payload : Payload ρ)
deriving DecidableEq

section

variable {ρ : Type}

def Item.row? : Item ρ → Option (Row ρ)
  | .row r => some r
  | .other => none

def rowsOf (items : List (Item ρ)) : List (Row ρ) := items.filterMap Item.row?

def ids (rows : List (Row ρ)) : List String := rows.filterMap Row.id

/-- `{row["id"]: row for row in rows if "id" in row}`. -/
def byId (rows : List (Row ρ)) (id : String) : Option (Row ρ) :=
  rows.reverse.find? fun r => decide (r.id = some id)

structure UniqueIds (rows : List (Row ρ)) : Prop where
  some : ∀ r ∈ rows, r.id.isSome = true
  unique : (rows.map Row.id).Nodup

variable {rows : List (Row ρ)} {id : String}

theorem mem_ids : id ∈ ids rows ↔ ∃ r ∈ rows, r.id = some id :=
  List.mem_filterMap

theorem byId_some {r : Row ρ} (h : byId rows id = some r) : r ∈ rows ∧ r.id = some id := by
  have hid := List.find?_some h
  exact ⟨List.mem_reverse.mp (List.mem_of_find?_eq_some h), of_decide_eq_true hid⟩

theorem byId_eq_none : byId rows id = none ↔ ∀ r ∈ rows, r.id ≠ some id := by
  rw [byId, List.find?_eq_none]
  simp

theorem byId_eq_some (h : (rows.map Row.id).Nodup) {id : String} {r : Row ρ} :
    byId rows id = some r ↔ r ∈ rows ∧ r.id = some id := by
  refine ⟨byId_some, ?_⟩
  rintro ⟨hr, hid⟩
  cases hfound : byId rows id with
  | none => exact absurd hid (byId_eq_none.mp hfound r hr)
  | some r' =>
    obtain ⟨hr', hid'⟩ := byId_some hfound
    rw [List.inj_on_of_nodup_map h hr' hr (hid'.trans hid.symm)]

theorem byId_eq_none_iff : byId rows id = none ↔ id ∉ ids rows := by
  rw [byId_eq_none, mem_ids]
  simp

end

end Demands
end DarkFactory
