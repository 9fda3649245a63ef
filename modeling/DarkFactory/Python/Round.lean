import Mathlib.Data.Rat.Floor

/-!
# DarkFactory.Python.Round

`round` on exact numbers: to the nearest, ties to the even one. `round8 x` is `round(x, 8)`; it leaves
multiples of 1e-8 (`InUnits`) alone, and these are closed under the sums an account makes.
-/

namespace DarkFactory

/-- `round(q)`. -/
def roundHalfEven (q : Rat) : Int :=
  let below := ⌊q⌋
  if q - below < 1 / 2 then below
  else if 1 / 2 < q - below then below + 1
  else if below % 2 = 0 then below
  else below + 1

/-- `round(q, 2)`. -/
def round2 (q : Rat) : Rat := roundHalfEven (q * 100) / 100

/-- `round(q, 3)`. -/
def round3 (q : Rat) : Rat := roundHalfEven (q * 1000) / 1000

/-- `round(q, 4)`. -/
def round4 (q : Rat) : Rat := roundHalfEven (q * 10000) / 10000

/-- `round(q, 8)`. -/
def round8 (q : Rat) : Rat := roundHalfEven (q * 100000000) / 100000000

theorem roundHalfEven_int (n : Int) : roundHalfEven n = n := by
  simp [roundHalfEven]

theorem roundHalfEven_nonneg {q : Rat} (h : 0 ≤ q) : 0 ≤ roundHalfEven q := by
  have hf : 0 ≤ ⌊q⌋ := Int.floor_nonneg.mpr h
  unfold roundHalfEven
  simp only
  split
  · exact hf
  · split
    · omega
    · split
      · exact hf
      · omega

theorem le_roundHalfEven {n : Int} {q : Rat} (h : (n : Rat) ≤ q) : n ≤ roundHalfEven q := by
  have hf : n ≤ ⌊q⌋ := Int.le_floor.mpr h
  unfold roundHalfEven
  simp only
  split
  · exact hf
  · split
    · omega
    · split
      · exact hf
      · omega

theorem le_round2 {n : Int} {q : Rat} (h : (n : Rat) ≤ q) : (n : Rat) ≤ round2 q := by
  have hn : n * 100 ≤ roundHalfEven (q * 100) := by
    apply le_roundHalfEven
    push_cast
    linarith
  have hc : (n : Rat) * 100 ≤ (roundHalfEven (q * 100) : Rat) := by exact_mod_cast hn
  rw [round2]
  linarith

def InUnits (x : Rat) : Prop := ∃ n : Int, x * 100000000 = n

namespace InUnits

theorem zero : InUnits 0 := ⟨0, by norm_num⟩

theorem add {x y : Rat} (hx : InUnits x) (hy : InUnits y) : InUnits (x + y) := by
  obtain ⟨n, hn⟩ := hx
  obtain ⟨m, hm⟩ := hy
  refine ⟨n + m, ?_⟩
  push_cast
  rw [add_mul, hn, hm]

theorem neg {x : Rat} (hx : InUnits x) : InUnits (-x) := by
  obtain ⟨n, hn⟩ := hx
  refine ⟨-n, ?_⟩
  push_cast
  rw [neg_mul, hn]

theorem sub {x y : Rat} (hx : InUnits x) (hy : InUnits y) : InUnits (x - y) := by
  rw [sub_eq_add_neg]
  exact hx.add hy.neg

theorem max {x y : Rat} (hx : InUnits x) (hy : InUnits y) : InUnits (max x y) := by
  rcases le_total x y with h | h
  · rwa [max_eq_right h]
  · rwa [max_eq_left h]

theorem sum {l : List Rat} (h : ∀ x ∈ l, InUnits x) : InUnits l.sum := by
  induction l with
  | nil => exact zero
  | cons x l ih =>
    rw [List.forall_mem_cons] at h
    rw [List.sum_cons]
    exact h.1.add (ih h.2)

end InUnits

theorem round8_of_units {x : Rat} (h : InUnits x) : round8 x = x := by
  obtain ⟨n, hn⟩ := h
  rw [round8, hn, roundHalfEven_int, ← hn]
  ring

theorem round8_units (x : Rat) : InUnits (round8 x) := by
  refine ⟨roundHalfEven (x * 100000000), ?_⟩
  rw [round8]
  ring

theorem round8_nonneg {x : Rat} (h : 0 ≤ x) : 0 ≤ round8 x := by
  have hn : 0 ≤ roundHalfEven (x * 100000000) := roundHalfEven_nonneg (by linarith)
  have hc : (0 : Rat) ≤ (roundHalfEven (x * 100000000) : Rat) := by exact_mod_cast hn
  rw [round8]
  linarith

end DarkFactory
