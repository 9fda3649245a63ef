import Mathlib.Algebra.Order.Ring.Rat
import DarkFactory.Python.Text

/-!
# DarkFactory.Models.Registry

The model registry: which model a role, an alias or an id stands for.
-/

namespace DarkFactory
namespace Models

def QUOTA_FLOOR_MIN : Rat := 15

inductive ModelStatus where
  | candidate | active | deprecated | retired
deriving DecidableEq

structure ModelEntry where
  id : String
  family : String
  tier : String
  aliases : List String := []
  gatewayIds : List String := []
  status : ModelStatus
  forbiddenAutonomous : Bool := false
deriving DecidableEq

def ModelEntry.names (entry : ModelEntry) : List String :=
  entry.id :: (entry.aliases ++ entry.gatewayIds)

structure ModelRegistry where
  forbiddenAutonomousMarkers : List String := []
  models : List ModelEntry
  roles : List (String × String) := []

namespace ModelRegistry

def entry? (reg : ModelRegistry) (id : String) : Option ModelEntry :=
  reg.models.find? fun entry => decide (entry.id = id)

def find (lower : String → String) (reg : ModelRegistry) (name : String) : Option ModelEntry :=
  let low := lower (Text.strip name)
  reg.models.find? fun entry =>
    decide (low = lower entry.id) ||
      (entry.aliases ++ entry.gatewayIds).any fun a => decide (low = lower (Text.strip a))

/-- The id that a role or a name stands for, where its entry has one of the statuses; none is the
`KeyError`. -/
def resolveTo (statuses : List ModelStatus) (lower : String → String) (reg : ModelRegistry)
    (aliasOrRole : String) : Option String :=
  let key := Text.strip aliasOrRole
  match reg.roles.lookup key with
  | some id => some id
  | none =>
    match find lower reg key with
    | some entry =>
      if entry.status ∉ statuses ∨ entry.forbiddenAutonomous = true then none else some entry.id
    | none => none

def resolve : (String → String) → ModelRegistry → String → Option String := resolveTo [.active]

def resolveKnown : (String → String) → ModelRegistry → String → Option String :=
  resolveTo [.active, .deprecated]

end ModelRegistry

end Models
end DarkFactory
