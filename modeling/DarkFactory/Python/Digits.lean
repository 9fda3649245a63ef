import Mathlib.Tactic.Common

/-!
# DarkFactory.Python.Digits

Decimal numbers in texts.

* `parseDigits_decimal` — what is printed is read back.
-/

namespace DarkFactory
namespace Text

def digitZeros : List Nat :=
  [0x30, 0x660, 0x6f0, 0x7c0, 0x966, 0x9e6, 0xa66, 0xae6, 0xb66, 0xbe6, 0xc66, 0xce6, 0xd66, 0xde6,
    0xe50, 0xed0, 0xf20, 0x1040, 0x1090, 0x17e0, 0x1810, 0x1946, 0x19d0, 0x1a80, 0x1a90, 0x1b50,
    0x1bb0, 0x1c40, 0x1c50, 0xa620, 0xa8d0, 0xa900, 0xa9d0, 0xa9f0, 0xaa50, 0xabf0, 0xff10, 0x104a0,
    0x10d30, 0x11066, 0x110f0, 0x11136, 0x111d0, 0x112f0, 0x11450, 0x114d0, 0x11650, 0x116c0,
    0x11730, 0x118e0, 0x11950, 0x11c50, 0x11d50, 0x11da0, 0x11f50, 0x16a60, 0x16ac0, 0x16b50,
    0x1d7ce, 0x1d7d8, 0x1d7e2, 0x1d7ec, 0x1d7f6, 0x1e140, 0x1e2f0, 0x1e4f0, 0x1e950, 0x1fbf0]

/-- The value of a character that `\d` matches. -/
def digitValue (c : Char) : Option Nat :=
  (digitZeros.find? fun z => decide (z ≤ c.toNat ∧ c.toNat < z + 10)).map fun z => c.toNat - z

def digitsFrom : Nat → List Char → Option Nat
  | value, [] => some value
  | value, c :: cs => (digitValue c).bind fun digit => digitsFrom (10 * value + digit) cs

/-- `int` of a text that `\d+` matches as a whole. -/
def parseDigits (cs : List Char) : Option Nat := if cs = [] then none else digitsFrom 0 cs

/-- `f"{n:0{width}d}"`. -/
def decimal (width n : Nat) : String :=
  String.ofList (List.replicate (width - (Nat.toDigits 10 n).length) '0' ++ Nat.toDigits 10 n)

/-- What follows `p` at the start of a text. -/
def afterList (p cs : List Char) : Option (List Char) :=
  if p.isPrefixOf cs then some (cs.drop p.length) else none

theorem afterList_append (p cs : List Char) : afterList p (p ++ cs) = some cs := by
  have hp : p.isPrefixOf (p ++ cs) = true := List.isPrefixOf_iff_prefix.mpr (List.prefix_append p cs)
  rw [afterList, if_pos hp, List.drop_left]

theorem digitValue_ascii {c : Char} (h : c.isDigit = true) : digitValue c = some (c.toNat - 48) := by
  have hrange : 48 ≤ c.toNat ∧ c.toNat < 58 := by
    simp only [Char.isDigit, Bool.and_eq_true, decide_eq_true_eq] at h
    obtain ⟨hlow, hhigh⟩ := h
    have hlow' : 48 ≤ c.val.toNat := hlow
    have hhigh' : c.val.toNat ≤ 57 := hhigh
    exact ⟨hlow', Nat.lt_succ_of_le hhigh'⟩
  simp [digitValue, digitZeros, hrange]

theorem digitsFrom_ascii {cs : List Char} (h : ∀ c ∈ cs, c.isDigit = true) (value : Nat) :
    digitsFrom value cs = some (Nat.ofDigitChars 10 cs value) := by
  induction cs generalizing value with
  | nil => rfl
  | cons c cs ih =>
    rw [digitsFrom, digitValue_ascii (h c List.mem_cons_self), Option.bind_some,
      ih fun c' hc' => h c' (List.mem_cons_of_mem _ hc'), Nat.ofDigitChars_cons]
    rfl

theorem parseDigits_decimal (width n : Nat) : parseDigits (decimal width n).toList = some n := by
  have hdigits : ∀ c ∈ List.replicate (width - (Nat.toDigits 10 n).length) '0' ++ Nat.toDigits 10 n,
      c.isDigit = true := by
    intro c hc
    rcases List.mem_append.mp hc with hc | hc
    · rw [List.eq_of_mem_replicate hc]
      rfl
    · exact Nat.isDigit_of_mem_toDigits (by omega) (by omega) hc
  have hne : List.replicate (width - (Nat.toDigits 10 n).length) '0' ++ Nat.toDigits 10 n ≠ [] := by
    intro hnil
    exact Nat.toDigits_ne_nil (List.append_eq_nil_iff.mp hnil).2
  rw [decimal, String.toList_ofList, parseDigits, if_neg hne, digitsFrom_ascii hdigits,
    Nat.ofDigitChars_append, Nat.ofDigitChars_replicate_zero, Nat.mul_zero, Nat.ofDigitChars_ten_toDigits]

end Text
end DarkFactory
