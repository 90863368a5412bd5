import Mathlib.Algebra.Ring.Int.Defs
import Mathlib.Algebra.Ring.Nat
import Mathlib.Tactic.Common

/-!
# Integers of a width

Numbers below a power of two as unsigned and signed integers, and what the operations on
bit vectors do to them.
-/

set_option autoImplicit false

namespace WasmToLlvm.Library

/-- The signed integer that a number below `2 ^ width` stands for. -/
def signed (width value : Nat) : Int :=
  if 2 * value < 2 ^ width then value else value - 2 ^ width

/-- The number below `2 ^ width` that stands for an integer. -/
def wrap (width : Nat) (number : Int) : Nat := (number % 2 ^ width).toNat

/-- The signed integer of a width that is nearest to an integer. -/
def clamp (width : Nat) (number : Int) : Int :=
  max (-2 ^ (width - 1)) (min number (2 ^ (width - 1) - 1))

/-- The bits above the highest one that is set. -/
def leadingZeros (width value : Nat) : Nat :=
  (List.range width).findIdx fun index => value.testBit (width - 1 - index)

/-- The bits below the lowest one that is set. -/
def trailingZeros (width value : Nat) : Nat :=
  (List.range width).findIdx value.testBit

def countOnes (width value : Nat) : Nat :=
  (List.range width).countP value.testBit

def rotateLeft (width value count : Nat) : Nat :=
  (value * 2 ^ count + value / 2 ^ (width - count)) % 2 ^ width

def rotateRight (width value count : Nat) : Nat :=
  (value / 2 ^ count + value * 2 ^ (width - count)) % 2 ^ width

section Integers

variable {width value other count : Nat} {number : Int}

theorem wrap_lt : wrap width number < 2 ^ width := by
  have positive : (0 : Int) < 2 ^ width := Int.pow_pos (by decide)
  have bound := Int.emod_lt_of_pos number positive
  have low := Int.emod_nonneg number (Int.ne_of_gt positive)
  have back : (wrap width number : Int) = number % 2 ^ width := Int.toNat_of_nonneg low
  have smaller : (wrap width number : Int) < 2 ^ width := back ▸ bound
  exact_mod_cast smaller

theorem wrap_natCast : wrap width value = value % 2 ^ width := by
  rw [wrap]
  norm_cast

theorem wrap_eq_iff {number' : Int} :
    wrap width number = wrap width number' ↔ number % 2 ^ width = number' % 2 ^ width := by
  have positive : (0 : Int) < 2 ^ width := Int.pow_pos (by decide)
  have low := Int.emod_nonneg number (Int.ne_of_gt positive)
  have low' := Int.emod_nonneg number' (Int.ne_of_gt positive)
  rw [wrap, wrap]
  omega

/-- Wrapping undoes the signed reading. -/
theorem wrap_signed (small : value < 2 ^ width) : wrap width (signed width value) = value := by
  unfold signed
  split
  · rw [wrap_natCast, Nat.mod_eq_of_lt small]
  · have same : ((value : Int) - 2 ^ width) % 2 ^ width = (value : Int) % 2 ^ width :=
      Int.sub_emod_right ..
    rw [wrap, same, ← wrap, wrap_natCast, Nat.mod_eq_of_lt small]

theorem wrap_toInt : (wrap width number : Int) = number % 2 ^ width :=
  Int.toNat_of_nonneg (Int.emod_nonneg number (Int.ne_of_gt (Int.pow_pos (by decide))))

theorem wrap_add_wrap {number' : Int} :
    (wrap width number + wrap width number') % 2 ^ width = wrap width (number + number') := by
  have whole : (((wrap width number + wrap width number') % 2 ^ width : Nat) : Int) = wrap width (number + number') := by
    rw [Int.natCast_emod, Int.natCast_add, wrap_toInt, wrap_toInt, wrap_toInt, Int.natCast_pow]
    exact (Int.add_emod ..).symm
  exact Int.ofNat.inj whole

theorem wrap_mul_wrap {number' : Int} :
    wrap width number * wrap width number' % 2 ^ width = wrap width (number * number') := by
  have whole : ((wrap width number * wrap width number' % 2 ^ width : Nat) : Int) = wrap width (number * number') := by
    rw [Int.natCast_emod, Int.natCast_mul, wrap_toInt, wrap_toInt, wrap_toInt, Int.natCast_pow]
    exact (Int.mul_emod ..).symm
  exact Int.ofNat.inj whole

theorem wrap_sub_signed : wrap width ((0 : Nat) - (value : Int)) = wrap width (0 - signed width value) := by
  rw [wrap_eq_iff]
  unfold signed
  split
  · rfl
  · have shifted : 0 - ((value : Int) - 2 ^ width) = ((0 : Nat) - (value : Int)) + 2 ^ width := by omega
    rw [shifted, Int.add_emod_right]

theorem signed_inj (small : value < 2 ^ width) (small' : other < 2 ^ width) :
    signed width value = signed width other ↔ value = other := by
  constructor
  · intro same
    rw [← wrap_signed small, same, wrap_signed small']
  · intro same
    rw [same]

/-! ## Bit vectors -/

theorem toNat_ofNat (small : value < 2 ^ width) : (BitVec.ofNat width value).toNat = value := by
  rw [BitVec.toNat_ofNat, Nat.mod_eq_of_lt small]

theorem toInt_ofNat (small : value < 2 ^ width) :
    (BitVec.ofNat width value).toInt = signed width value := by
  rw [BitVec.toInt_eq_toNat_cond, toNat_ofNat small, signed]
  norm_cast

theorem toNat_eq_wrap (x : BitVec width) : x.toNat = wrap width x.toInt := by
  have back := congrArg BitVec.toNat (BitVec.ofInt_toInt (x := x))
  rw [BitVec.toNat_ofInt] at back
  rw [← back, wrap]
  norm_cast

theorem toNat_ofInt : (BitVec.ofInt width number).toNat = wrap width number := by
  rw [BitVec.toNat_ofInt, wrap]
  norm_cast

theorem wrap_bmod : wrap width (number.bmod (2 ^ width)) = wrap width number := by
  have same := Int.bmod_emod (x := number) (m := 2 ^ width)
  rw [wrap, wrap]
  push_cast at same
  rw [same]

theorem toNat_add_ofNat (small : value < 2 ^ width) (small' : other < 2 ^ width) :
    (BitVec.ofNat width value + BitVec.ofNat width other).toNat = (value + other) % 2 ^ width := by
  rw [BitVec.toNat_add, toNat_ofNat small, toNat_ofNat small']

theorem toNat_mul_ofNat (small : value < 2 ^ width) (small' : other < 2 ^ width) :
    (BitVec.ofNat width value * BitVec.ofNat width other).toNat = value * other % 2 ^ width := by
  rw [BitVec.toNat_mul, toNat_ofNat small, toNat_ofNat small']

theorem toNat_sub_ofNat (small : value < 2 ^ width) (small' : other < 2 ^ width) :
    (BitVec.ofNat width value - BitVec.ofNat width other).toNat =
      wrap width ((value : Int) - other) := by
  have shifted : ((2 ^ width - other + value : Nat) : Int) = (value : Int) - other + 2 ^ width := by
    have power : ((2 ^ width : Nat) : Int) = 2 ^ width := by norm_cast
    omega
  rw [BitVec.toNat_sub, toNat_ofNat small, toNat_ofNat small', ← wrap_natCast, shifted, wrap, wrap,
    Int.add_emod_right]

theorem toNat_sdiv_ofNat (small : value < 2 ^ width) (small' : other < 2 ^ width) :
    ((BitVec.ofNat width value).sdiv (BitVec.ofNat width other)).toNat =
      wrap width ((signed width value).tdiv (signed width other)) := by
  rw [toNat_eq_wrap, BitVec.toInt_sdiv, wrap_bmod, toInt_ofNat small, toInt_ofNat small']

theorem toNat_srem_ofNat (small : value < 2 ^ width) (small' : other < 2 ^ width) :
    ((BitVec.ofNat width value).srem (BitVec.ofNat width other)).toNat =
      wrap width ((signed width value).tmod (signed width other)) := by
  rw [toNat_eq_wrap, BitVec.toInt_srem, toInt_ofNat small, toInt_ofNat small']

theorem toNat_sshiftRight_ofNat (small : value < 2 ^ width) :
    ((BitVec.ofNat width value).sshiftRight count).toNat =
      wrap width (signed width value / 2 ^ count) := by
  rw [toNat_eq_wrap, BitVec.toInt_sshiftRight, toInt_ofNat small, Int.shiftRight_eq_div_pow]
  norm_cast

theorem toNat_signExtend_ofNat {wide : Nat} (small : value < 2 ^ width) (wider : width ≤ wide) :
    ((BitVec.ofNat width value).signExtend wide).toNat = wrap wide (signed width value) := by
  rw [toNat_eq_wrap, BitVec.toInt_signExtend_of_le wider, toInt_ofNat small]

theorem ofNat_eq_intMin (positive : 0 < width) (small : value < 2 ^ width) :
    BitVec.ofNat width value = BitVec.intMin width ↔ value = 2 ^ (width - 1) := by
  rw [← BitVec.toNat_inj, toNat_ofNat small, BitVec.toNat_intMin_of_pos positive]

theorem ofNat_eq_neg_one (small : value < 2 ^ width) :
    BitVec.ofNat width value = -1 ↔ value = 2 ^ width - 1 := by
  rw [← BitVec.toNat_inj, toNat_ofNat small, show (-1 : BitVec width) = BitVec.allOnes width from
    BitVec.neg_one_eq_allOnes, BitVec.toNat_allOnes]

theorem ofNat_eq_zero (small : value < 2 ^ width) : BitVec.ofNat width value = 0 ↔ value = 0 := by
  rw [← BitVec.toNat_inj, toNat_ofNat small, show (0 : BitVec width).toNat = 0 from BitVec.toNat_zero]

/-! ## Differences in both directions -/

theorem wrap_sub_comm :
    wrap width ((other : Int) - value) = wrap width ((value : Int) - other) ↔
      2 * value % 2 ^ width = 2 * other % 2 ^ width := by
  have doubled : (2 * (value : Int)) - 2 * other = ((value : Int) - other) - ((other : Int) - value) := by
    omega
  rw [wrap_eq_iff, eq_comm, Int.emod_eq_emod_iff_emod_sub_eq_zero, ← doubled,
    ← Int.emod_eq_emod_iff_emod_sub_eq_zero]
  norm_cast

/-- A saturated difference tells which number is larger. -/
theorem wrap_clamp_sub_comm (positive : 0 < width) (small : value < 2 ^ width)
    (small' : other < 2 ^ width) :
    wrap width (clamp width (signed width other - signed width value)) =
      wrap width (clamp width (signed width value - signed width other)) ↔ value = other := by
  have double : (2 : Int) ^ width = 2 ^ (width - 1) + 2 ^ (width - 1) := by
    have whole : 2 ^ width = 2 ^ (width - 1) + 2 ^ (width - 1) := by
      rw [← Nat.two_mul, ← Nat.pow_succ', Nat.succ_eq_add_one, Nat.sub_add_cancel positive]
    exact_mod_cast whole
  have half : (0 : Int) < 2 ^ (width - 1) := Int.pow_pos (by decide)
  rw [← signed_inj small small']
  generalize signed width value = x
  generalize signed width other = y
  rw [wrap_eq_iff, Int.emod_eq_emod_iff_emod_sub_eq_zero]
  constructor
  · intro same
    have bounds : ∀ number, -2 ^ (width - 1) ≤ clamp width number ∧ clamp width number < 2 ^ (width - 1) := by
      intro number
      unfold clamp
      omega
    have close := bounds (y - x)
    have close' := bounds (x - y)
    have zero : clamp width (y - x) - clamp width (x - y) = 0 :=
      Int.eq_zero_of_dvd_of_natAbs_lt_natAbs (Int.dvd_of_emod_eq_zero same) (by omega)
    unfold clamp at zero
    omega
  · intro same
    rw [same]
    simp

/-! ## Counting bits -/

theorem getLsbD_ofNat {index : Nat} (inside : index < width) :
    (BitVec.ofNat width value).getLsbD index = value.testBit index := by
  rw [BitVec.getLsbD_ofNat, decide_eq_true inside, Bool.true_and]

theorem toNat_cpop_ofNat : (BitVec.ofNat width value).cpop.toNat = countOnes width value := by
  have counted : ∀ count ≤ width, ∀ sum, (BitVec.ofNat width value).cpopNatRec count sum =
      sum + (List.range count).countP value.testBit := by
    intro count inside
    induction count with
    | zero =>
        intro sum
        rfl
    | succ count ih =>
        intro sum
        have last : (value.testBit count).toNat = [count].countP value.testBit := by
          rw [List.countP_singleton]
          cases value.testBit count <;> rfl
        rw [BitVec.cpopNatRec_succ, ih (Nat.le_of_succ_le inside),
          getLsbD_ofNat (Nat.lt_of_succ_le inside), List.range_succ, List.countP_append, last,
          Nat.add_assoc, Nat.add_comm (List.countP _ [count])]
  rw [BitVec.toNat_cpop, counted width (Nat.le_refl _), Nat.zero_add, countOnes]

theorem findIdx_range {test : Nat → Bool} (inside : count < width) (here : test count = true)
    (below : ∀ index < count, test index = false) : (List.range width).findIdx test = count := by
  have bound : count < (List.range width).length := by rwa [List.length_range]
  rw [List.findIdx_eq bound]
  refine ⟨by rwa [List.getElem_range], fun index before => ?_⟩
  rw [List.getElem_range]
  exact below index before

theorem findIdx_range_none {test : Nat → Bool} (nowhere : ∀ index, test index = false) :
    (List.range width).findIdx test = width := by
  have none_ : (List.range width).findIdx test = (List.range width).length :=
    List.findIdx_eq_length.mpr fun index _ => nowhere index
  rwa [List.length_range] at none_

theorem toNat_width : (BitVec.ofNat width width).toNat = width :=
  toNat_ofNat Nat.lt_two_pow_self

theorem toNat_ctz_ofNat (small : value < 2 ^ width) :
    (BitVec.ofNat width value).ctz.toNat = trailingZeros width value := by
  by_cases zero : value = 0
  · have all : (BitVec.ofNat width value).reverse = BitVec.ofNat width 0 := by
      rw [zero, BitVec.reverse_eq_zero_iff]
    have count : (BitVec.ofNat width value).ctz = BitVec.ofNat width width := by
      rw [BitVec.ctz_eq_reverse_clz]
      exact BitVec.clz_eq_iff_eq_zero.mpr all
    rw [count, toNat_width, trailingZeros, findIdx_range_none fun index => by rw [zero, Nat.zero_testBit]]
  · have nonzero : BitVec.ofNat width value ≠ BitVec.ofNat width 0 := fun same => zero ((ofNat_eq_zero small).mp same)
    have inside : (BitVec.ofNat width value).ctz.toNat < width := by
      have before := BitVec.lt_def.mp (BitVec.ctz_lt_iff_ne_zero.mpr nonzero)
      rwa [show ((width : BitVec width)).toNat = width from toNat_width] at before
    refine (findIdx_range inside ?_ fun index before => ?_).symm
    · rw [← getLsbD_ofNat inside]
      exact BitVec.getLsbD_true_ctz_of_ne_zero nonzero
    · rw [← getLsbD_ofNat (Nat.lt_trans before inside)]
      exact BitVec.getLsbD_false_of_lt_ctz before

theorem toNat_clz_ofNat (positive : 0 < width) (small : value < 2 ^ width) :
    (BitVec.ofNat width value).clz.toNat = leadingZeros width value := by
  by_cases zero : value = 0
  · have count : (BitVec.ofNat width value).clz = BitVec.ofNat width width :=
      BitVec.clz_eq_iff_eq_zero.mpr (by rw [zero])
    rw [count, toNat_width, leadingZeros, findIdx_range_none fun index => by rw [zero, Nat.zero_testBit]]
  · have nonzero : BitVec.ofNat width value ≠ BitVec.ofNat width 0 := fun same => zero ((ofNat_eq_zero small).mp same)
    have inside : (BitVec.ofNat width value).clz.toNat < width := by
      have before := BitVec.lt_def.mp (BitVec.clz_lt_iff_ne_zero.mpr nonzero)
      rwa [show ((width : BitVec width)).toNat = width from toNat_width] at before
    refine (findIdx_range inside ?_ fun index before => ?_).symm
    · have place : width - 1 - (BitVec.ofNat width value).clz.toNat < width := by omega
      rw [← getLsbD_ofNat place]
      exact BitVec.getLsbD_true_clz_of_ne_zero positive nonzero
    · have bound := BitVec.toNat_lt_two_pow_sub_clz (x := BitVec.ofNat width value)
      rw [toNat_ofNat small] at bound
      exact Nat.testBit_lt_two_pow (Nat.lt_of_lt_of_le bound
        (Nat.pow_le_pow_right (by decide) (by omega)))

/-! ## Rotation

A rotation takes a window of the number written twice. -/

theorem toNat_append_self (small : value < 2 ^ width) :
    (BitVec.ofNat width value ++ BitVec.ofNat width value).toNat = value * 2 ^ width + value := by
  rw [BitVec.toNat_append, toNat_ofNat small, ← Nat.shiftLeft_add_eq_or_of_lt small, Nat.shiftLeft_eq]

theorem toNat_rotateLeft (small : value < 2 ^ width) (inside : count < width) :
    (((BitVec.ofNat width value ++ BitVec.ofNat width value) <<< count).extractLsb' width width).toNat =
      rotateLeft width value count := by
  have power : 2 ^ width = 2 ^ (width - count) * 2 ^ count := by
    rw [← Nat.pow_add, Nat.sub_add_cancel (Nat.le_of_lt inside)]
  have window : (value * 2 ^ width + value) * 2 ^ count / 2 ^ width =
      value * 2 ^ count + value / 2 ^ (width - count) := by
    calc (value * 2 ^ width + value) * 2 ^ count / 2 ^ width
        = (2 ^ width * (value * 2 ^ count) + value * 2 ^ count) / 2 ^ width := by
          rw [Nat.add_mul, Nat.mul_right_comm, Nat.mul_comm (2 ^ width)]
      _ = value * 2 ^ count + value * 2 ^ count / 2 ^ width :=
          Nat.mul_add_div (Nat.two_pow_pos width) _ _
      _ = value * 2 ^ count + value / 2 ^ (width - count) := by
          rw [power, Nat.mul_div_mul_right _ _ (Nat.two_pow_pos count)]
  rw [BitVec.extractLsb'_toNat, BitVec.toNat_shiftLeft, toNat_append_self small, Nat.shiftLeft_eq,
    Nat.shiftRight_eq_div_pow, Nat.pow_add, Nat.mod_mul_right_div_self, Nat.mod_mod, window, rotateLeft]

theorem toNat_rotateRight (small : value < 2 ^ width) (inside : count < width) :
    (((BitVec.ofNat width value ++ BitVec.ofNat width value) >>> count).extractLsb' 0 width).toNat =
      rotateRight width value count := by
  have power : 2 ^ width = 2 ^ (width - count) * 2 ^ count := by
    rw [← Nat.pow_add, Nat.sub_add_cancel (Nat.le_of_lt inside)]
  have window : (value * 2 ^ width + value) / 2 ^ count =
      value / 2 ^ count + value * 2 ^ (width - count) := by
    calc (value * 2 ^ width + value) / 2 ^ count
        = (2 ^ count * (value * 2 ^ (width - count)) + value) / 2 ^ count := by
          rw [power, ← Nat.mul_assoc, Nat.mul_comm (2 ^ count)]
      _ = value / 2 ^ count + value * 2 ^ (width - count) := by
          rw [Nat.mul_add_div (Nat.two_pow_pos count), Nat.add_comm]
  rw [BitVec.extractLsb'_toNat, BitVec.toNat_ushiftRight, toNat_append_self small,
    Nat.shiftRight_zero, Nat.shiftRight_eq_div_pow, window, rotateRight]

end Integers

end WasmToLlvm.Library
