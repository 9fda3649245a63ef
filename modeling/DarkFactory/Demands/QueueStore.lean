import DarkFactory.Demands.Tickets
import DarkFactory.Lib.Grouping
import DarkFactory.Python.Sort

/-!
# DarkFactory.Demands.QueueStore

`core/demands/queue_store.py` and the readers of `core/demands/store.py` that merge its rows.
-/

namespace DarkFactory
namespace Demands

/-- `list_queue_tickets`. -/
abbrev Queue (τ : Type) : Type := Table (UserTicket.pair : UserTicket τ → String × String)

section

variable {τ : Type}

/-- `get_ticket` of the control store. -/
def Queue.getTicket (queue : Queue τ) (ticketId : String) : Option (UserTicket τ) :=
  if ticketId = "" then none else queue.rows.find? fun t => decide (t.id = ticketId)

/-- `{t.id: t for t in file_rows}`. -/
def ticketsById (fileRows : List (UserTicket τ)) : Groups String (UserTicket τ) :=
  fileRows.foldl (fun merged t => merged.put t.id t) Table.empty

def mergeControl (merged : Groups String (UserTicket τ)) (t : UserTicket τ) : Groups String (UserTicket τ) :=
  if (merged.find t.id).any UserTicket.isTerminal then merged else merged.put t.id t

def mergeTickets (fileRows controlRows : List (UserTicket τ)) : List (UserTicket τ) :=
  sortAsc UserTicket.id (controlRows.foldl mergeControl (ticketsById fileRows)).values

/-- `project_id` and `status` of `list_tickets`. -/
structure Filter where
  projectId : Option String := none
  status : Option DeliveryStatus := none
deriving DecidableEq

def Filter.admits (f : Filter) (t : UserTicket τ) : Bool :=
  (f.projectId.all fun p => decide (p = "") || decide (t.projectId = p)) &&
    f.status.all fun s => decide (t.status = s)

def withControlQueue (projectLedger : Bool) (f : Filter) (queue : Queue τ) (tickets : List (UserTicket τ)) :
    List (UserTicket τ) :=
  if projectLedger then (mergeTickets tickets queue.rows).filter f.admits else tickets

/-- `list_tickets` of a ledger with these valid rows. -/
def listTickets (projectLedger : Bool) (f : Filter) (queue : Queue τ) (fileRows : List (UserTicket τ)) :
    List (UserTicket τ) :=
  sortAsc UserTicket.id (withControlQueue projectLedger f queue (fileRows.filter f.admits))

end

end Demands
end DarkFactory
