import DarkFactory.Python.Text
import DarkFactory.Python.Digits

/-!
# DarkFactory.Python.Parsing

Texts that are split, trimmed and read as numbers.

* `trim` — what pydantic's `str_strip_whitespace` leaves; it knows fewer blanks than `str.strip`.
* `int` — `int(text)`, which is none where it raises. Both ways between numbers and texts stop at 4300 digits.
* `splitList_append`, `length_splitList` — where `str.split` cuts, and how often.
-/

namespace DarkFactory
namespace Text

def isWhite (c : Char) : Bool := isSpace c && !(28 ≤ c.toNat && c.toNat ≤ 31)

def trim (s : String) : String := String.ofList ((s.toList.dropWhile isWhite).reverse.dropWhile isWhite).reverse

/-- `sys.get_int_max_str_digits()` -/
def INT_MAX_STR_DIGITS : Nat := 4300

/-- Digits with single underscores between them: their value and number. `under` says that a digit has to follow. -/
def intFrom (value count : Nat) : Bool → List Char → Option (Nat × Nat)
  | under, [] => if under then none else some (value, count)
  | under, c :: cs =>
    if c = '_' then if under then none else intFrom value count true cs
    else (digitValue c).bind fun digit => intFrom (10 * value + digit) (count + 1) false cs

/-- A text without its sign, and whether that is a minus. -/
def unsigned : List Char → Bool × List Char
  | '-' :: cs => (true, cs)
  | '+' :: cs => (false, cs)
  | cs => (false, cs)

def int (s : String) : Option Int :=
  let (negative, cs) := unsigned (stripList s.toList)
  match intFrom 0 0 true cs with
  | none => none
  | some (value, count) =>
    if INT_MAX_STR_DIGITS < count then none
    else some (if negative then -value else value)

/-- `str(n)`, none where it raises. -/
def str (n : Nat) : Option String :=
  if INT_MAX_STR_DIGITS < (Nat.toDigits 10 n).length then none else some (toString n)

theorem intFrom_digits {cs : List Char} (h : ∀ c ∈ cs, c.isDigit = true) (value count : Nat) :
    intFrom value count false cs = some (Nat.ofDigitChars 10 cs value, count + cs.length) := by
  induction cs generalizing value count with
  | nil => rfl
  | cons c cs ih =>
    rw [List.forall_mem_cons] at h
    have hunder : c ≠ '_' := by
      rintro rfl
      exact absurd h.1 (by decide)
    rw [intFrom, if_neg hunder, digitValue_ascii h.1, Option.bind_some, ih h.2, Nat.ofDigitChars_cons]
    simp only [List.length_cons]
    congr 2
    omega

theorem not_isSpace_of_isDigit {c : Char} (h : c.isDigit = true) : isSpace c = false := by
  simp only [Char.isDigit, Bool.and_eq_true, decide_eq_true_eq] at h
  have hlow : 48 ≤ c.toNat := h.1
  have hhigh : c.toNat ≤ 57 := h.2
  simp only [isSpace, Bool.or_eq_false_iff, Bool.and_eq_false_iff, decide_eq_false_iff_not, beq_eq_false_iff_ne]
  omega

theorem stripList_of_not_isSpace {cs : List Char} (h : ∀ c ∈ cs, isSpace c = false) : stripList cs = cs := by
  have hdrop : ∀ l : List Char, (∀ c ∈ l, isSpace c = false) → l.dropWhile isSpace = l := by
    intro l hl
    cases l with
    | nil => rfl
    | cons c l =>
      rw [List.dropWhile_cons, hl c List.mem_cons_self]
      rfl
  rw [stripList, hdrop cs h, hdrop _ fun c hc => h c (List.mem_reverse.mp hc), List.reverse_reverse]

theorem int_str {n : Nat} {s : String} (h : str n = some s) : int s = some (n : Int) := by
  unfold str at h
  split at h
  · cases h
  · rename_i hlength
    cases h
    have hdigits : ∀ c ∈ Nat.toDigits 10 n, c.isDigit = true := fun c hc =>
      Nat.isDigit_of_mem_toDigits (by omega) (by omega) hc
    have hstrip : stripList (toString n).toList = Nat.toDigits 10 n := by
      rw [show (toString n).toList = Nat.toDigits 10 n from Nat.toList_repr]
      exact stripList_of_not_isSpace fun c hc => not_isSpace_of_isDigit (hdigits c hc)
    rw [int, hstrip]
    cases hall : Nat.toDigits 10 n with
    | nil => exact absurd hall Nat.toDigits_ne_nil
    | cons c cs =>
      rw [hall] at hdigits hlength
      have hc := hdigits c List.mem_cons_self
      have hunsigned : unsigned (c :: cs) = (false, c :: cs) := by
        unfold unsigned
        split
        · rename_i heq
          cases heq
          exact absurd hc (by decide)
        · rename_i heq
          cases heq
          exact absurd hc (by decide)
        · rfl
      have hunder : c ≠ '_' := by
        rintro rfl
        exact absurd hc (by decide)
      have hfrom : intFrom 0 0 true (c :: cs) = some (n, (c :: cs).length) := by
        have h := intFrom_digits hdigits 0 0
        rw [intFrom, if_neg hunder] at h ⊢
        rw [h, Nat.zero_add, ← hall, Nat.ofDigitChars_ten_toDigits]
      simp only [hunsigned, hfrom, if_neg hlength, Bool.false_eq_true, if_false]

theorem splitList_append {sep : Char} {p : List Char} (h : sep ∉ p) (cs : List Char) :
    splitList sep (p ++ sep :: cs) = p :: splitList sep cs := by
  induction p with
  | nil => simp [splitList]
  | cons c p ih =>
    rw [List.mem_cons, not_or] at h
    rw [List.cons_append, splitList, if_neg (Ne.symm h.1), ih h.2]

theorem splitList_self {sep : Char} {p : List Char} (h : sep ∉ p) : splitList sep p = [p] := by
  induction p with
  | nil => rfl
  | cons c p ih =>
    rw [List.mem_cons, not_or] at h
    rw [splitList, if_neg (Ne.symm h.1), ih h.2]

theorem length_splitList (sep : Char) (cs : List Char) : (splitList sep cs).length = cs.count sep + 1 := by
  induction cs with
  | nil => rfl
  | cons c cs ih =>
    rw [splitList]
    split
    · rename_i heq
      rw [heq, List.length_cons, ih, List.count_cons_self]
    · rename_i hne
      rw [List.count_cons_of_ne hne]
      split
      · rename_i hnil
        rw [hnil] at ih
        simp at ih
      · rename_i hcons
        rw [hcons] at ih
        rw [← ih]
        rfl

end Text
end DarkFactory
