import Mathlib.Algebra.Order.Field.Rat
import Mathlib.Tactic.Ring
import Mathlib.Tactic.Positivity
import Mathlib.Tactic.GCongr
import Mathlib.Tactic.NormNum
import LogBridge.Go.Value

/-!
# Numeric representations

Two readings of machine words that the bridge's field conversion has to agree with:
`Time.UnixNano` as the wrapping `int64` computation it is, against the exact nanosecond
count of an instant; and IEEE 754 binary32/binary64 bit patterns as the exact rationals
they denote.
-/

namespace LogBridge

/-- `Int.bmod` is the identity on the balanced range `[-m/2, m/2)` it maps into. -/
theorem bmod_eq_self_of_range {x : Int} {m : Nat} (low : -((m : Int) / 2) ≤ x)
    (high : x < ((m : Int) + 1) / 2) : x.bmod m = x := by
  rw [Int.bmod_def]
  rcases Int.lt_or_le x 0 with negative | nonnegative
  · have wrap : x % m = x + m := by
      rw [← Int.add_emod_self, Int.emod_eq_of_lt (by omega) (by omega)]
    rw [wrap]
    split <;> omega
  · rw [Int.emod_eq_of_lt nonnegative (by omega)]
    simp [high]

/-- A 64-bit pattern's signed value is its unsigned value exactly below `2^63`. -/
theorem toInt_eq_toNat_iff_lt (x : BitVec 64) : x.toInt = x.toNat ↔ x.toNat < 2 ^ 63 := by
  have := x.isLt
  rw [BitVec.toInt_eq_toNat_cond]
  split <;> omega

/-- Go's conversion of a signed integer of at most 64 bits to `int64` keeps its value. -/
theorem toInt_signExtend_64 {w : Nat} (narrow : w ≤ 64) (x : BitVec w) :
    (x.signExtend 64).toInt = x.toInt := by
  have bound : 2 ^ w ≤ 2 ^ 64 := Nat.pow_le_pow_right two_pos narrow
  have := x.isLt
  rw [BitVec.signExtend, BitVec.toInt_ofInt, BitVec.toInt_eq_toNat_cond]
  apply bmod_eq_self_of_range <;> split <;> omega

/-- Go's conversion of an unsigned integer narrower than 64 bits to `int64` gives its value. -/
theorem toInt_setWidth_64 {w : Nat} (narrow : w < 64) (x : BitVec w) :
    (x.setWidth 64).toInt = x.toNat := by
  have bound : 2 ^ w ≤ 2 ^ 63 := Nat.pow_le_pow_right two_pos (by omega)
  have := x.isLt
  rw [BitVec.toInt_eq_toNat_cond, BitVec.toNat_setWidth, Nat.mod_eq_of_lt (by omega),
    if_pos (by omega)]

namespace GoTime

/-- `UnixNano` is the exact nanosecond count reduced into the `int64` range: wrapping
arithmetic commutes with the reduction. -/
theorem unixNano_eq_ofInt (t : GoTime) : t.unixNano = BitVec.ofInt 64 t.exactNanos := by
  apply BitVec.eq_of_toInt_eq
  simp only [unixNano, exactNanos, BitVec.toInt_add, BitVec.toInt_mul, BitVec.toInt_ofInt,
    BitVec.toInt_ofNat, Int.bmod_add_bmod_congr, Int.bmod_mul_bmod, Int.add_bmod_bmod,
    Int.mul_bmod_bmod]
  congr 1

/-- The signed value of `UnixNano` is the exact count modulo `2^64`, balanced. -/
theorem unixNano_toInt (t : GoTime) : t.unixNano.toInt = t.exactNanos.bmod (2 ^ 64) := by
  rw [unixNano_eq_ofInt, BitVec.toInt_ofInt]

/-- `UnixNano` is exact precisely on the instants whose nanosecond count fits an `int64`. -/
theorem unixNano_toInt_eq_iff (t : GoTime) :
    t.unixNano.toInt = t.exactNanos ↔
      -2 ^ 63 ≤ t.exactNanos ∧ t.exactNanos < 2 ^ 63 := by
  rw [unixNano_toInt]
  constructor
  · intro exact
    have low := @Int.le_bmod t.exactNanos (2 ^ 64) (by norm_num)
    have high := @Int.bmod_lt t.exactNanos (2 ^ 64) (by norm_num)
    rw [exact] at low high
    norm_num at low high
    omega
  · rintro ⟨low, high⟩
    exact bmod_eq_self_of_range (by norm_num; omega) (by norm_num; omega)

/-- `Before` orders instants as their exact nanosecond counts do. -/
theorem before_eq_true_iff (t u : GoTime) : t.before u = true ↔ t.exactNanos < u.exactNanos := by
  have := t.nsec_lt
  have := u.nsec_lt
  simp only [before, exactNanos, Bool.or_eq_true, Bool.and_eq_true, decide_eq_true_eq]
  omega

/-- `After` orders instants as their exact nanosecond counts do. -/
theorem after_eq_true_iff (t u : GoTime) : t.after u = true ↔ u.exactNanos < t.exactNanos := by
  have := t.nsec_lt
  have := u.nsec_lt
  simp only [after, exactNanos, Bool.or_eq_true, Bool.and_eq_true, decide_eq_true_eq]
  omega

end GoTime

/-- The exact value of an IEEE 754 binary number with `e` exponent bits and `f` fraction
bits stored in `bits`; `none` for the infinities and NaNs (all exponent bits set). -/
def ieeeValue (e f bits : Nat) : Option ℚ :=
  let fraction := bits % 2 ^ f
  let exponent := bits / 2 ^ f % 2 ^ e
  let bias : Int := 2 ^ (e - 1) - 1
  let magnitude : ℚ :=
    if exponent = 0 then fraction * 2 ^ (1 - bias - f)
    else (2 ^ f + fraction) * 2 ^ ((exponent : Int) - bias - f)
  if exponent = 2 ^ e - 1 then none
  else some (if bits / 2 ^ (e + f) % 2 = 1 then -magnitude else magnitude)

/-- A `float64`'s value, read from its binary64 bits. -/
def float64Value (bits : BitVec 64) : Option ℚ := ieeeValue 11 52 bits.toNat

/-- A `float32`'s value, read from its binary32 bits. -/
def float32Value (bits : BitVec 32) : Option ℚ := ieeeValue 8 23 bits.toNat

/-- A 32-bit pattern zero-extended to 64 bits reads as a binary64 subnormal: sign and exponent
fields clear, the pattern itself as the fraction. -/
theorem float64Value_setWidth (b : BitVec 32) :
    float64Value (b.setWidth 64) = some ((b.toNat : ℚ) * 2 ^ (-1074 : ℤ)) := by
  have small : b.toNat < 2 ^ 32 := b.isLt
  simp only [float64Value, ieeeValue, BitVec.toNat_setWidth,
    Nat.mod_eq_of_lt (by omega : b.toNat < 2 ^ 64), Nat.mod_eq_of_lt (by omega : b.toNat < 2 ^ 52),
    Nat.div_eq_of_lt (by omega : b.toNat < 2 ^ 52),
    Nat.div_eq_of_lt (by omega : b.toNat < 2 ^ (11 + 52))]
  norm_num

/-- A nonzero 32-bit pattern read as a binary64 subnormal is positive and below `2^-126`, the
least positive binary32 normal. -/
theorem bits_mul_subnormal_bounds {n : Nat} (positive : 0 < n) (small : n < 2 ^ 32) :
    0 < (n : ℚ) * 2 ^ (-1074 : ℤ) ∧ (n : ℚ) * 2 ^ (-1074 : ℤ) < 2 ^ (-126 : ℤ) := by
  refine ⟨by positivity, ?_⟩
  calc (n : ℚ) * 2 ^ (-1074 : ℤ) < 2 ^ (32 : ℤ) * 2 ^ (-1074 : ℤ) := by
        gcongr
        exact_mod_cast small
    _ = 2 ^ (-1042 : ℤ) := by rw [← zpow_add₀ two_ne_zero]; norm_num
    _ ≤ 2 ^ (-126 : ℤ) := zpow_le_zpow_right₀ one_le_two (by norm_num)

/-- A binary32 normal, of a nonzero exponent field, has magnitude at least `2^-126`. -/
theorem binary32_normal_ge {exponent fraction : Nat} (normal : ¬exponent = 0) :
    (2 : ℚ) ^ (-126 : ℤ) ≤
      (2 ^ 23 + (fraction : ℚ)) * 2 ^ ((exponent : ℤ) - (2 ^ (8 - 1) - 1) - 23) := by
  calc (2 : ℚ) ^ (-126 : ℤ) = 2 ^ 23 * 2 ^ (-149 : ℤ) := by norm_num
    _ ≤ _ := by
      gcongr
      · exact le_add_of_nonneg_right (by positivity)
      · exact one_le_two
      · norm_num
        omega

/-- The only binary32 pattern whose value is that of the binary64 subnormal with the same bits
is `+0`: a negative pattern has a value of the other sign, a positive subnormal one is `2^925`
times larger, and a normal one is at least `2^-126`, far above every such subnormal. -/
theorem float32Value_eq_subnormal_iff (b : BitVec 32) :
    float32Value b = some ((b.toNat : ℚ) * 2 ^ (-1074 : ℤ)) ↔ b = 0 := by
  constructor
  · intro read
    by_contra nonzero
    have positive : 0 < b.toNat :=
      Nat.pos_of_ne_zero fun zero => nonzero (BitVec.eq_of_toNat_eq (by simpa using zero))
    obtain ⟨above, tiny⟩ := bits_mul_subnormal_bounds positive b.isLt
    simp only [float32Value, ieeeValue] at read
    split_ifs at read with infinite negative subnormal subnormal <;>
      simp only [Option.some.injEq] at read
    case pos | neg =>
      rw [← read, neg_pos] at above
      exact not_lt.2 (mul_nonneg (by positivity) (zpow_nonneg zero_le_two _)) above
    case pos =>
      rw [Nat.mod_eq_of_lt (by omega : b.toNat < 2 ^ 23)] at read
      norm_num at read
      omega
    case neg => exact (not_lt.2 (binary32_normal_ge subnormal)) (read ▸ tiny)
  · rintro rfl
    simp [float32Value, ieeeValue]

end LogBridge
