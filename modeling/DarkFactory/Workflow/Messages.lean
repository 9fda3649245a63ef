import DarkFactory.Workflow.Executions

/-!
# DarkFactory.Workflow.Messages

What the reader finds in the message of an event.

* `Fits` — the metadata has room in the message when nothing is left of the evidence.
* `loads_encodeFrom_fits`, `loads_encodeFrom_cut` — a message that fits reads back with its metadata, one that does not
  cannot be read at all.
* `value_metadataOf` — the values under the keys of the context are those of the context, or none.
-/

namespace DarkFactory
namespace Workflow
namespace Executions

variable {m : Machine} {executionId : String}

def Fits (metadata : Json.Body) (text : String) : Prop :=
  (Json.dumps (bodyAt metadata text 0)).length ≤ messageBudget

instance (metadata : Json.Body) (text : String) : Decidable (Fits metadata text) :=
  inferInstanceAs (Decidable (_ ≤ _))

theorem cut_toList (n : Nat) (s : String) : (cut n s).toList = s.toList.take n := by simp [cut]

variable {metadata : Json.Body}

theorem bodyAt_ne_nil (h : metadata ≠ []) (text : String) (limit : Nat) : bodyAt metadata text limit ≠ [] := by
  unfold bodyAt
  split
  · exact h
  · exact List.append_ne_nil_of_left_ne_nil h _

theorem length_bodyAt (h : metadata ≠ []) (text : String) (limit : Nat) :
    (Json.dumps (bodyAt metadata text 0)).length ≤ (Json.dumps (bodyAt metadata text limit)).length := by
  rw [Json.length_dumps (bodyAt_ne_nil h text 0), Json.length_dumps (bodyAt_ne_nil h text limit)]
  unfold bodyAt
  split
  · exact Nat.le_refl _
  · have hprefix : (cut 0 text).toList <+: (cut limit text).toList := by
      rw [cut_toList, List.take_zero]
      exact List.nil_prefix
    have hmember := Json.length_member_prefix "e" hprefix
    rw [Json.size_append, Json.size_append]
    simp only [Json.size, List.map_cons, List.map_nil, List.sum_cons, List.sum_nil]
    omega

theorem cut_of_length {n : Nat} {s : String} (h : s.length ≤ n) : cut n s = s := by
  unfold cut
  rw [List.take_of_length_le (by rwa [String.length_toList]), String.ofList_toList]

theorem loads_cut {body : Json.Body} {n : Nat} (h : n < (Json.dumps body).length) :
    Json.loads (cut n (Json.dumps body)) = none := by
  have hlist : (Json.dumps body).toList = Json.dumpsList body := String.toList_ofList
  have hlength : (Json.dumpsList body).length = (Json.dumps body).length := by
    rw [← hlist, String.length_toList]
  have hprefix : (cut n (Json.dumps body)).toList <+: Json.dumpsList body := by
    rw [cut_toList, hlist]
    exact List.take_prefix n _
  refine Json.loads_of_prefix hprefix ?_
  intro hsame
  have hlen := congrArg List.length hsame
  rw [cut_toList, hlist, List.length_take] at hlen
  omega

theorem loads_encodeFrom_fits {text : String} (hfits : Fits metadata text) (steps : Nat) :
    ∃ limit, Json.loads (encodeFrom metadata text steps) = some (bodyAt metadata text limit) := by
  induction steps with
  | zero =>
    refine ⟨0, ?_⟩
    rw [encodeFrom, cut_of_length hfits, Json.loads_dumps]
  | succ steps ih =>
    unfold encodeFrom
    dsimp only
    split
    · exact ⟨40 * (steps + 1), Json.loads_dumps _⟩
    · exact ih

theorem loads_encodeFrom_cut {text : String} (hne : metadata ≠ []) (hlong : ¬ Fits metadata text)
    (steps : Nat) : Json.loads (encodeFrom metadata text steps) = none := by
  have hlong : messageBudget < (Json.dumps (bodyAt metadata text 0)).length := Nat.lt_of_not_le hlong
  induction steps with
  | zero => exact loads_cut hlong
  | succ steps ih =>
    have hlength := length_bodyAt hne text (40 * (steps + 1))
    rw [encodeFrom, if_neg (by omega)]
    exact ih

/-- What `_encode` makes of the evidence. -/
def Publication.text (m : Machine) (p : Publication) : String := m.redact (flat p.evidence)

def Publication.fits (m : Machine) (p : Publication) : Prop := Fits p.metadata (p.text m)

instance (p : Publication) : Decidable (p.fits m) := inferInstanceAs (Decidable (Fits _ _))

theorem metadata_ne_nil (p : Publication) : p.metadata ≠ [] := List.append_ne_nil_of_right_ne_nil _ (List.cons_ne_nil _ _)

/-- The keys that `start` writes. -/
def OwnKey (key : String) : Prop := key ≠ "x" ∧ key ≠ "e"

theorem value_append {body : Json.Body} {k key v : String} (h : key ≠ k) :
    value (body ++ [(k, v)]) key = value body key := by
  unfold value
  rw [Lookup.get_append]
  have hnone : Lookup.get Prod.fst [(k, v)] key = none := by
    rw [Lookup.get_eq_none]
    intro r hr
    rw [List.mem_singleton.mp hr]
    exact Ne.symm h
  rw [hnone, Option.or_none]

theorem value_metadataOf {p : Publication} {key : String} (hkey : OwnKey key) :
    value (metadataOf (p.event m executionId)) key = if p.fits m then value p.context.metadata key else "" := by
  have hmessage : (p.event m executionId).message = encodeFrom p.metadata (p.text m) 4 := by
    simp only [Publication.event, encode, Publication.text]
  unfold metadataOf
  rw [hmessage]
  split
  · rename_i hfits
    obtain ⟨limit, hloads⟩ := loads_encodeFrom_fits hfits 4
    rw [hloads, Option.getD_some]
    have hmetadata : value p.metadata key = value p.context.metadata key := value_append hkey.1
    unfold bodyAt
    split
    · exact hmetadata
    · rw [value_append hkey.2, hmetadata]
  · rename_i hlong
    rw [loads_encodeFrom_cut (metadata_ne_nil p) hlong]
    rfl

theorem unknown_fits {p : Publication} (hcontext : p.context = unknownContext) : p.fits m := by
  have hroom : ∀ kind : Kind, ∀ text : String,
      (Json.dumps (bodyAt (unknownContext.metadata ++ [("x", kind.value)]) text 0)).length ≤ messageBudget := by
    intro kind text
    have hcut : cut 0 text = "" := rfl
    unfold bodyAt Json.dumps
    rw [hcut, String.length_ofList]
    split
    all_goals
      cases kind
      all_goals
        simp only [unknownContext, Kind.value, List.cons_append, List.nil_append, Json.dumpsList, Json.membersFrom,
          Json.member, Json.quoted]
        repeat rw [String.toList_ofList]
        decide
  unfold Publication.fits Fits Publication.metadata
  rw [hcontext]
  exact hroom p.kind (p.text m)

end Executions
end Workflow
end DarkFactory
