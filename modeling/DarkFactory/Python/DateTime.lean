import Mathlib.Algebra.GroupWithZero.Nat
import Mathlib.Algebra.Order.Ring.Rat
import DarkFactory.Python.Digits

/-!
# DarkFactory.Python.DateTime

The `datetime` values the control store works with, and the three ways it compares them.

A `DateTime` is a wall clock, in microseconds since 0001-01-01T00:00:00, and the UTC offset it was
written with (`none`: naive), also in microseconds. The store keeps times as the text of
`isoformat()` and compares them in two ways that need not agree:


`textLe_utc` is the case the callers live in: on UTC values the two agree.
-/

namespace DarkFactory

/-- An aware `datetime` that is only compared, as the microseconds to its instant. -/
abbrev Instant := Int

structure DateTime where
  wall : Int
  utcoffset : Option Int
deriving DecidableEq

namespace DateTime

def second : Int := 1000000

/-- `d + timedelta(seconds=n)`. -/
def addSeconds (d : DateTime) (n : Int) : DateTime := { d with wall := d.wall + n * second }

/-- `(a - b)` in microseconds, with a naive side read in the other side's zone. -/
def since (a b : DateTime) : Int :=
  match a.utcoffset, b.utcoffset with
  | some x, some y => (a.wall - x) - (b.wall - y)
  | _, _ => a.wall - b.wall

/-- `a <= b` on datetimes, naive/aware tolerant. -/
def le (a b : DateTime) : Bool := decide (0 ≤ b.since a)

/-- `a < b` on datetimes, naive/aware tolerant. -/
def lt (a b : DateTime) : Bool := decide (0 < b.since a)

/-- Sort key of the offset text: none, then `+HH:MM...` by size, then `-HH:MM...` by size. -/
def offsetRank : Option Int → Int × Int
  | none => (0, 0)
  | some o => if 0 ≤ o then (1, o) else (2, -o)

/-- `a <= b` on the texts of `isoformat()`, as SQL compares them. -/
def textLe (a b : DateTime) : Bool :=
  decide (a.wall < b.wall) ||
    (decide (a.wall = b.wall) &&
      (decide ((offsetRank a.utcoffset).1 < (offsetRank b.utcoffset).1) ||
        (decide ((offsetRank a.utcoffset).1 = (offsetRank b.utcoffset).1) &&
          decide ((offsetRank a.utcoffset).2 ≤ (offsetRank b.utcoffset).2))))

/-- `d.astimezone(UTC)`; a naive `d` is read as UTC. -/
def astimezoneUtc (d : DateTime) : DateTime := ⟨d.wall - d.utcoffset.getD 0, some 0⟩

def IsUtc (d : DateTime) : Prop := d.utcoffset = some 0

instance (d : DateTime) : Decidable d.IsUtc := inferInstanceAs (Decidable (_ = _))

@[simp] theorem addSeconds_utcoffset (d : DateTime) (n : Int) : (d.addSeconds n).utcoffset = d.utcoffset := rfl

theorem IsUtc.addSeconds {d : DateTime} (h : d.IsUtc) (n : Int) : (d.addSeconds n).IsUtc := h

theorem lt_eq_not_le (a b : DateTime) : a.lt b = !b.le a := by
  have h : b.since a = -(a.since b) := by
    unfold since
    cases a.utcoffset <;> cases b.utcoffset <;> simp only [neg_sub]
  rw [lt, le, ← decide_not, h]
  congr 1
  exact propext ⟨fun _ => by omega, fun _ => by omega⟩

theorem le_refl (a : DateTime) : a.le a = true := by
  unfold le since
  cases a.utcoffset <;> simp

theorem le_utc {a b : DateTime} (ha : a.IsUtc) (hb : b.IsUtc) : a.le b = decide (a.wall ≤ b.wall) := by
  unfold IsUtc at ha hb
  simp [le, since, ha, hb]

theorem textLe_utc {a b : DateTime} (ha : a.IsUtc) (hb : b.IsUtc) : a.textLe b = a.le b := by
  rw [le_utc ha hb]
  unfold IsUtc at ha hb
  rw [textLe, ha, hb, Bool.eq_iff_iff]
  simp only [Bool.or_eq_true, Bool.and_eq_true, decide_eq_true_eq, Int.le_refl, and_self, or_true, and_true]
  exact Int.le_iff_lt_or_eq.symm

theorem IsUtc.ext {a b : DateTime} (ha : a.IsUtc) (hb : b.IsUtc) (h : a.wall = b.wall) : a = b := by
  cases a
  cases b
  simp only [IsUtc] at ha hb h
  rw [ha, hb, h]

theorem IsUtc.astimezoneUtc {d : DateTime} (h : d.IsUtc) : d.astimezoneUtc = d :=
  IsUtc.ext rfl h (by unfold IsUtc at h; simp [DateTime.astimezoneUtc, h])

/-- Days before 1 January of year `y`, counted from 0001-01-01. -/
def daysBeforeYear (y : Nat) : Nat := (y - 1) * 365 + (y - 1) / 4 - (y - 1) / 100 + (y - 1) / 400

def isLeap (y : Nat) : Bool := y % 4 == 0 && (y % 100 != 0 || y % 400 == 0)

def daysInMonth (y : Nat) : Nat → Nat
  | 2 => if isLeap y then 29 else 28
  | 4 | 6 | 9 | 11 => 30
  | _ => 31

/-- Year and day of the year (from 0) of day `n` (from 0), as `_ord2ymd` finds them. -/
def yearOfDay (n : Nat) : Nat × Nat :=
  let n400 := n / 146097
  let r400 := n % 146097
  let n100 := r400 / 36524
  let r100 := r400 % 36524
  let n4 := r100 / 1461
  let r4 := r100 % 1461
  let n1 := r4 / 365
  -- the last day of a 4-year or 400-year cycle would start a year that is not there
  if n1 = 4 ∨ n100 = 4 then
    let y := n400 * 400 + n100 * 100 + n4 * 4 + n1
    (y, n - daysBeforeYear y)
  else
    (n400 * 400 + n100 * 100 + n4 * 4 + n1 + 1, r4 % 365)

/-- Month and day (both from 1) of day `d` (from 0) of year `y`. -/
def monthDay (y d : Nat) : Nat × Nat :=
  go 12 1 d
where
  go : Nat → Nat → Nat → Nat × Nat
    | 0, m, d => (m, d + 1)
    | fuel + 1, m, d =>
      if d < daysInMonth y m then (m, d + 1) else go fuel (m + 1) (d - daysInMonth y m)

def padded (width n : Nat) : String :=
  let s := toString n
  String.ofList (List.replicate (width - s.length) '0') ++ s

/-- `+HH:MM[:SS[.ffffff]]`. -/
def offsetText (o : Int) : String :=
  let us := o.natAbs
  let s := us / 1000000
  (if o < 0 then "-" else "+") ++ padded 2 (s / 3600) ++ ":" ++ padded 2 (s / 60 % 60) ++
    (if us % 60000000 = 0 then "" else ":" ++ padded 2 (s % 60)) ++
    (if us % 1000000 = 0 then "" else "." ++ padded 6 (us % 1000000))

def isoformat (d : DateTime) : String :=
  let us := d.wall.toNat
  let s := us / 1000000
  let day := yearOfDay (s / 86400)
  let md := monthDay day.1 day.2
  padded 4 day.1 ++ "-" ++ padded 2 md.1 ++ "-" ++ padded 2 md.2 ++ "T" ++
    padded 2 (s / 3600 % 24) ++ ":" ++ padded 2 (s / 60 % 60) ++ ":" ++ padded 2 (s % 60) ++
    (if us % 1000000 = 0 then "" else "." ++ padded 6 (us % 1000000)) ++
    (match d.utcoffset with
      | none => ""
      | some o => offsetText o)

def digits (width : Nat) (cs : List Char) : Option (Nat × List Char) :=
  let ds := cs.take width
  if ds.length = width ∧ (ds.all Char.isDigit) = true then
    (Text.parseDigits ds).map fun n => (n, cs.drop width)
  else none

def digitsAfter (sign : String) (width : Nat) (cs : List Char) : Option (Nat × List Char) :=
  (Text.afterList sign.toList cs).bind (digits width)

/-- `.ffffff`, which may be missing. -/
def microseconds (cs : List Char) : Option (Nat × List Char) :=
  if cs.head? = some '.' then digitsAfter "." 6 cs else some (0, cs)

/-- `HH:MM[:SS[.ffffff]]` after `sign`, in microseconds. -/
def offsetAfter (sign : String) (cs : List Char) : Option (Nat × List Char) := do
  let (h, cs) ← digitsAfter sign 2 cs
  let (m, cs) ← digitsAfter ":" 2 cs
  if 24 ≤ h ∨ 60 ≤ m then none
  if cs.head? ≠ some ':' then return ((h * 3600 + m * 60) * 1000000, cs)
  let (s, cs) ← digitsAfter ":" 2 cs
  if 60 ≤ s then none
  let (us, cs) ← microseconds cs
  return ((h * 3600 + m * 60 + s) * 1000000 + us, cs)

def utcoffsetOf : List Char → Option (Option Int × List Char)
  | [] => some (none, [])
  | c :: cs =>
    if c = '-' then (offsetAfter "-" (c :: cs)).map fun o => (some (-(o.1 : Int)), o.2)
    else (offsetAfter "+" (c :: cs)).map fun o => (some (o.1 : Int), o.2)

def daysBeforeMonth (y m : Nat) : Nat := ((List.range (m - 1)).map fun i => daysInMonth y (i + 1)).sum

def fromisoformat (text : String) : Option DateTime := do
  let (y, cs) ← digits 4 text.toList
  let (m, cs) ← digitsAfter "-" 2 cs
  let (d, cs) ← digitsAfter "-" 2 cs
  if y = 0 ∨ m = 0 ∨ 12 < m ∨ d = 0 ∨ daysInMonth y m < d then none
  let (hh, cs) ← digitsAfter "T" 2 cs
  let (mm, cs) ← digitsAfter ":" 2 cs
  let (ss, cs) ← digitsAfter ":" 2 cs
  if 24 ≤ hh ∨ 60 ≤ mm ∨ 60 ≤ ss then none
  let (us, cs) ← microseconds cs
  let (offset, cs) ← utcoffsetOf cs
  if cs ≠ [] then none
  let day := daysBeforeYear y + daysBeforeMonth y m + (d - 1)
  return ⟨(((day * 24 + hh) * 60 + mm) * 60 + ss) * 1000000 + us, offset⟩

example : fromisoformat "0001-03-01T00:00:01.000250-03:30" = some ⟨5097601000250, some (-12600000000)⟩ := by
  decide +kernel

end DateTime
end DarkFactory
