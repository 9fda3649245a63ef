import Mathlib.Data.List.Forall2
import Mathlib.Data.List.Count

/-!
# DarkFactory.Lib.HashChain

Records chained by the digest of the record before, and pre-images that join fields with a separator.

* `Linked` — every record names the digest before it and carries that of its own pre-image.
* `Linked.binds` — with a collision-free hash the last digest determines all the pre-images, if a
  pre-image determines the digest it names.
* `joined_inj` — joined fields are determined by the whole once the separators in each are counted.
-/

namespace DarkFactory

namespace HashChain

section

variable {α δ π : Type} {pre : α → π} {prev digest : α → δ} {hash : π → δ}

def Linked (pre : α → π) (prev digest : α → δ) (hash : π → δ) : δ → List α → Prop
  | _, [] => True
  | d, a :: rest =>
    prev a = d ∧ hash (pre a) = digest a ∧ Linked pre prev digest hash (digest a) rest

/-- The digest at the end of a chain that begins after `d`. -/
def lastDigest (digest : α → δ) : δ → List α → δ
  | d, [] => d
  | _, a :: rest => lastDigest digest (digest a) rest

theorem lastDigest_eq (d : δ) (l : List α) : lastDigest digest d l = (l.getLast?.map digest).getD d := by
  induction l generalizing d with
  | nil => rfl
  | cons a l ih =>
    rw [lastDigest, ih]
    cases l with
    | nil => rfl
    | cons b l => rfl

theorem Linked.binds (hhash : Function.Injective hash) {d d' : δ} {l l' : List α}
    (h : Linked pre prev digest hash d l) (h' : Linked pre prev digest hash d' l')
    (hprev : List.Forall₂ (fun a b => pre a = pre b → prev a = prev b) l l')
    (hlast : lastDigest digest d l = lastDigest digest d' l') :
    d = d' ∧ List.Forall₂ (fun a b => pre a = pre b) l l' := by
  induction hprev generalizing d d' with
  | nil => exact ⟨hlast, .nil⟩
  | cons hab _ ih =>
    obtain ⟨hd, hpre⟩ := ih h.2.2 h'.2.2 hlast
    have he := hhash ((h.2.1.trans hd).trans h'.2.1.symm)
    exact ⟨h.1.symm.trans ((hab he).trans h'.1), .cons he hpre⟩

end

end HashChain

section

variable {α : Type}

def joined (sep : α) : List (List α) → List α → List α
  | [], last => last
  | field :: fields, last => field ++ sep :: joined sep fields last

variable [DecidableEq α] {sep : α}

theorem append_cons_inj {a b x y : List α} (hc : a.count sep = b.count sep)
    (h : a ++ sep :: x = b ++ sep :: y) : a = b ∧ x = y := by
  induction a generalizing b with
  | nil =>
    cases b with
    | nil => exact ⟨rfl, (List.cons.inj h).2⟩
    | cons d b =>
      obtain ⟨rfl, -⟩ := List.cons.inj h
      simp at hc
  | cons c a ih =>
    cases b with
    | nil =>
      obtain ⟨rfl, -⟩ := List.cons.inj h
      simp at hc
    | cons d b =>
      obtain ⟨rfl, ht⟩ := List.cons.inj h
      rw [List.count_cons, List.count_cons] at hc
      obtain ⟨rfl, rfl⟩ := ih (Nat.add_right_cancel hc) ht
      exact ⟨rfl, rfl⟩

theorem joined_inj {fields fields' : List (List α)} {last last' : List α}
    (hc : List.Forall₂ (fun a b => a.count sep = b.count sep) fields fields')
    (h : joined sep fields last = joined sep fields' last') : fields = fields' ∧ last = last' := by
  induction hc with
  | nil => exact ⟨rfl, h⟩
  | cons hab _ ih =>
    obtain ⟨rfl, ht⟩ := append_cons_inj hab h
    obtain ⟨rfl, rfl⟩ := ih ht
    exact ⟨rfl, rfl⟩

end

end DarkFactory
