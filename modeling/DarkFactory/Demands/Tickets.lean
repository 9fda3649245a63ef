import DarkFactory.Demands.Ledger
import DarkFactory.Python.Text

/-!
# DarkFactory.Demands.Tickets

`UserTicket` of `core/demands/models.py`, and the state of its delivery.

* `τ` is what a ticket holds beside the fields that the stores read.
* `Codec` is the part of pydantic: reading a row, at an instant for the fields it lacks, and dumping one.
-/

namespace DarkFactory
namespace Demands

inductive DeliveryStatus where
  | discovered | accepted | planned | implementing | validating | completed | cancelled | waitingHuman
deriving DecidableEq

structure UserTicket (τ : Type) where
  id : String
  projectId : String := "darkfac"
  title : String
  status : DeliveryStatus := .planned
  deliveryEvidence : Option String := none
  tags : List String := ["user-demand"]
  problemStatement : String := ""
  acceptanceCriteria : List String := []
  updatedAt : Nat := 0
  rest : τ
deriving DecidableEq

section

variable {τ : Type}

def UserTicket.isLiveDeploy (t : UserTicket τ) : Bool :=
  if t.tags.contains "deploy-live" then true
  else
    t.acceptanceCriteria.any (fun c => Text.contains "live" (Text.asciiLower c)) &&
      ["deploy", "infra", "deploy-live", "wave-3"].any t.tags.contains

/-- `(project_id, ticket_id)`. -/
def UserTicket.pair (t : UserTicket τ) : String × String := (t.projectId, t.id)

/-- `is_terminal_ticket`. -/
def UserTicket.isTerminal (t : UserTicket τ) : Bool :=
  decide (t.status = .completed ∨ t.status = .cancelled)

end

structure Codec (ρ τ : Type) where
  /-- `UserTicket.model_validate`, or none where it raises. -/
  validate : Nat → Row ρ → Option (UserTicket τ)
  dumpRest : UserTicket τ → ρ

/-- `model_dump`. -/
def Codec.dump {ρ τ : Type} (codec : Codec ρ τ) (t : UserTicket τ) : Row ρ :=
  ⟨some t.id, some t.title, codec.dumpRest t⟩

end Demands
end DarkFactory
