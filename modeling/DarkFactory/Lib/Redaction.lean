import Mathlib.Data.List.Nodup

/-!
# DarkFactory.Lib.Redaction

Replacing what patterns match in a text by a marker, one pattern after the other, and where the rest comes from.

* `sub` — one pass: from left to right, each match is replaced. `taken` is what it replaces.
* `redact`, `hidden` — all passes, and what they take together.
* `redact_map` — the passes look at the characters only, so the text may carry its positions along.
* `redact_hidden` — nothing that a pass takes is left: of a text with positions, a position is either kept or hidden.
-/

namespace DarkFactory
namespace Redaction

/-- How many characters a match takes that begins here, after a character; none is zero. -/
abbrev Pattern := Option Char → List Char → Nat

section

variable {α : Type} (char : α → Char)

/-- A pass over a text of which the next `skip` symbols belong to a match. -/
def sub (marker : List α) (pattern : Pattern) : Nat → Option Char → List α → List α
  | _, _, [] => []
  | skip + 1, _, x :: xs => sub marker pattern skip (some (char x)) xs
  | 0, before, x :: xs =>
    match pattern before ((x :: xs).map char) with
    | 0 => x :: sub marker pattern 0 (some (char x)) xs
    | n + 1 => marker ++ sub marker pattern n (some (char x)) xs

def taken (pattern : Pattern) : Nat → Option Char → List α → List α
  | _, _, [] => []
  | skip + 1, _, x :: xs => x :: taken pattern skip (some (char x)) xs
  | 0, before, x :: xs =>
    match pattern before ((x :: xs).map char) with
    | 0 => taken pattern 0 (some (char x)) xs
    | n + 1 => x :: taken pattern n (some (char x)) xs

def redact (marker : List α) : List Pattern → List α → List α
  | [], xs => xs
  | pattern :: patterns, xs => redact marker patterns (sub char marker pattern 0 none xs)

def hidden (marker : List α) : List Pattern → List α → List α
  | [], _ => []
  | pattern :: patterns, xs =>
    taken char pattern 0 none xs ++ hidden marker patterns (sub char marker pattern 0 none xs)

end

section

variable {α β : Type} {char : α → Char} {char' : β → Char} (f : α → β)

theorem sub_map (hchar : ∀ x, char' (f x) = char x) (marker : List α) (pattern : Pattern) (skip : Nat)
    (before : Option Char) (xs : List α) :
    sub char' (marker.map f) pattern skip before (xs.map f) = (sub char marker pattern skip before xs).map f := by
  have hmap : ∀ ys : List α, (ys.map f).map char' = ys.map char := by
    intro ys
    rw [List.map_map]
    exact List.map_congr_left fun y _ => hchar y
  induction xs generalizing skip before with
  | nil => cases skip <;> rfl
  | cons x xs ih =>
    cases skip with
    | succ skip =>
      rw [List.map_cons, sub, sub, hchar]
      exact ih skip _
    | zero =>
      rw [List.map_cons, sub, sub, ← List.map_cons, hmap, hchar]
      split
      · rw [List.map_cons, ih]
      · rw [List.map_append, ih]

theorem redact_map (hchar : ∀ x, char' (f x) = char x) (marker : List α) (patterns : List Pattern) (xs : List α) :
    redact char' (marker.map f) patterns (xs.map f) = (redact char marker patterns xs).map f := by
  induction patterns generalizing xs with
  | nil => rfl
  | cons pattern patterns ih =>
    rw [redact, redact, sub_map f hchar]
    exact ih _

end

abbrev Symbol := Char × Option Nat

def positions (text : List Char) : List Symbol := text.zipIdx.map fun p => (p.1, some p.2)

def marked (marker : List Char) : List Symbol := marker.map fun c => (c, none)

theorem positions_chars (text : List Char) : (positions text).map Prod.fst = text := by
  unfold positions
  rw [List.map_map]
  exact List.zipIdx_map_fst 0 text

theorem marked_chars (marker : List Char) : (marked marker).map Prod.fst = marker := by
  unfold marked
  rw [List.map_map]
  exact List.map_id _

def origins (xs : List Symbol) : List Nat := xs.filterMap Prod.snd

theorem origins_positions (text : List Char) : (origins (positions text)).Nodup := by
  have hrange : origins (positions text) = List.range' 0 text.length := by
    rw [← List.zipIdx_map_snd]
    unfold origins positions
    rw [List.filterMap_map]
    exact congrFun List.filterMap_eq_map _
  rw [hrange]
  exact List.nodup_range'

theorem origins_append (xs ys : List Symbol) : origins (xs ++ ys) = origins xs ++ origins ys := List.filterMap_append ..

theorem origins_cons (x : Symbol) (xs : List Symbol) : origins (x :: xs) = x.2.toList ++ origins xs := by
  obtain ⟨c, _ | i⟩ := x <;> rfl

theorem origins_marked (marker : List Char) : origins (marked marker) = [] := by
  unfold origins marked
  rw [List.filterMap_map]
  exact List.filterMap_eq_nil_iff.mpr fun _ _ => rfl

theorem origins_sub (marker : List Char) (pattern : Pattern) (skip : Nat) (before : Option Char) (xs : List Symbol) :
    (origins (sub Prod.fst (marked marker) pattern skip before xs) ++
      origins (taken Prod.fst pattern skip before xs)).Perm (origins xs) := by
  induction xs generalizing skip before with
  | nil => cases skip <;> exact List.Perm.refl _
  | cons x xs ih =>
    have htake : ∀ skip', (origins (sub Prod.fst (marked marker) pattern skip' (some x.1) xs) ++
        origins (x :: taken Prod.fst pattern skip' (some x.1) xs)).Perm (origins (x :: xs)) := by
      intro skip'
      rw [origins_cons, origins_cons]
      exact List.perm_append_comm_assoc .. |>.trans ((ih skip' _).append_left _)
    cases skip with
    | succ skip => exact htake skip
    | zero =>
      rw [sub, taken]
      split
      · rw [origins_cons, origins_cons, List.append_assoc]
        exact (ih 0 _).append_left _
      · rename_i n hmatch
        rw [origins_append, origins_marked, List.nil_append]
        exact htake n

theorem origins_redact (marker : List Char) (patterns : List Pattern) (xs : List Symbol) :
    (origins (redact Prod.fst (marked marker) patterns xs) ++
      origins (hidden Prod.fst (marked marker) patterns xs)).Perm (origins xs) := by
  induction patterns generalizing xs with
  | nil =>
    rw [redact, hidden]
    exact List.Perm.of_eq (List.append_nil _)
  | cons pattern patterns ih =>
    rw [redact, hidden, origins_append]
    refine (List.perm_append_comm_assoc ..).trans ?_
    refine ((ih _).append_left _).trans ?_
    exact List.perm_append_comm.trans (origins_sub marker pattern 0 none xs)

theorem mem_origins {c : Char} {i : Nat} {xs : List Symbol} (h : (c, some i) ∈ xs) : i ∈ origins xs :=
  List.mem_filterMap.mpr ⟨_, h, rfl⟩

theorem redact_hidden (marker : List Char) (patterns : List Pattern) (text : List Char) {c : Char} {i : Nat}
    (h : (c, some i) ∈ hidden Prod.fst (marked marker) patterns (positions text)) :
    ∀ c', (c', some i) ∉ redact Prod.fst (marked marker) patterns (positions text) := by
  intro c' hleft
  have hnodup := (origins_redact marker patterns (positions text)).nodup_iff.mpr (origins_positions text)
  exact (List.nodup_append.mp hnodup).2.2 i (mem_origins hleft) i (mem_origins h) rfl

end Redaction
end DarkFactory
