import Mathlib
import Skirmish.Battle.Status

/-!
# When something ends

A duration is a number of seconds, and the end of what has one is found in whole milliseconds. A
positive number stays unsigned under the multiplication, whatever is rounded, and cutting it to a
whole number in the 64-bit range does not take it below zero. So nothing ends before it begins
(`isExpired_of_removalTime`).
-/

namespace Skirmish.Battle

open Float.Model (Format UnpackedFloat)
open Float.Model.UnpackedFloat

/-! ## Signs -/

/-- The float carries no minus sign. -/
def Unsigned : UnpackedFloat → Prop
  | .notANumber => True
  | .infinity s | .zero s | .finite s _ _ _ => s = .positive

theorem unsigned_unpack {S : Format} {b : BitVec S.numBits}
    (h : unpackSign b = Sign.positive.toBitVec) : Unsigned (unpack S b) := by
  unfold unpack
  rw [h]
  simp only [Sign.ofBitVec_toBitVec]
  split
  · split
    · rfl
    · trivial
  · split
    · split <;> rfl
    · rfl

theorem unsigned_unpack_pack {S : Format} {x : UnpackedFloat} (h : Unsigned x) :
    Unsigned (unpack S (pack S x)) := by
  cases x with
  | notANumber =>
    unfold pack
    rw [unpack_packedNaN]
    trivial
  | infinity s | zero s =>
    obtain rfl : s = .positive := h
    exact unsigned_unpack (unpackSign_packComponents ..)
  | finite s m e hm =>
    obtain rfl : s = .positive := h
    refine unsigned_unpack ?_
    unfold pack
    dsimp only
    split
    · exact unpackSign_packComponents ..
    · split <;> exact unpackSign_packComponents ..

theorem unsigned_roundWithAccuracy (S : Format) (m : Nat) (e : Int) (accuracy : Accuracy) :
    Unsigned (roundWithAccuracy S .positive m e accuracy) := by
  unfold roundWithAccuracy
  dsimp only
  split <;> rfl

theorem unsigned_mul {S : Format} {x y : UnpackedFloat} (hx : Unsigned x) (hy : Unsigned y) :
    Unsigned (UnpackedFloat.mul S x y) := by
  cases x <;> cases y <;> try trivial
  all_goals
    cases hx
    cases hy
    first
      | rfl
      | exact unsigned_roundWithAccuracy ..

theorem Unsigned.not_lt_zero {x : UnpackedFloat} (h : Unsigned x) :
    x.lt (.zero .positive) = false := by
  cases x with
  | notANumber => rfl
  | infinity s | zero s | finite s m e hm =>
    cases h
    rfl

theorem unsigned_of_zero_lt {x : UnpackedFloat} (h : (UnpackedFloat.zero .positive).lt x = true) :
    Unsigned x := by
  cases x with
  | notANumber => trivial
  | infinity s | finite s m e hm =>
    cases s with
    | positive => rfl
    | negative => cases h
  | zero s => cases h

theorem unpack_zero : (0 : Float).toModel.unpack = .zero .positive := by rfl

/-- A positive number is not negative when it is counted in thousandths. -/
theorem not_mul_thousand_lt_zero {x : Float} (h : 0 < x) : ¬x * 1000 < 0 := by
  have hx : Unsigned x.toModel.unpack := by
    refine unsigned_of_zero_lt ?_
    rw [← unpack_zero]
    exact of_decide_eq_true h
  have hthousand : Unsigned (1000 : Float).toModel.unpack := by rfl
  have hproduct : Unsigned (x * 1000).toModel.unpack :=
    unsigned_unpack_pack (unsigned_mul hx hthousand)
  intro hneg
  have hlt : (x * 1000).toModel.unpack.lt (0 : Float).toModel.unpack = true :=
    of_decide_eq_true hneg
  rw [unpack_zero, hproduct.not_lt_zero] at hlt
  cases hlt

/-! ## Whole milliseconds -/

/-- What is at least a whole number in the 64-bit range stays so when it is cut to that range. -/
theorem le_toInt_ofIntClamp {a : Int64} {i : Int} (h : a.toInt ≤ i) :
    a.toInt ≤ (Int64.ofIntClamp i).toInt := by
  by_cases hi : i ≤ Int64.maxValue.toInt
  · rw [Int64.toInt_ofIntClamp (Int.le_trans a.minValue_le_toInt h) hi]
    exact h
  · unfold Int64.ofIntClamp
    rw [dif_pos (Int.le_trans a.minValue_le_toInt h), dif_neg hi]
    exact a.toInt_le

theorem wholeMillis_nonneg {x : Float} (h : ¬x < 0) : 0 ≤ (wholeMillis x).toInt := by
  unfold wholeMillis
  rw [if_neg h]
  exact le_toInt_ofIntClamp (a := 0) (Int.natCast_nonneg _)

/-- Nothing ends before it begins, whatever its duration. -/
theorem isExpired_of_removalTime {s : ActiveStatus} {now : Timestamp} {duration : Float}
    (h : s.removal = removalTime now duration) : s.isExpired now = false := by
  unfold ActiveStatus.isExpired
  rw [h]
  unfold removalTime
  split
  · next hduration =>
    have hpos : 0 < duration := of_decide_eq_true (Bool.and_eq_true _ _ ▸ hduration).1
    have hlater := wholeMillis_nonneg (not_mul_thousand_lt_zero hpos)
    rw [Option.any_some, decide_eq_false_iff_not, Int64.lt_iff_toInt_lt, Int.not_lt]
    exact le_toInt_ofIntClamp (by omega)
  · rfl

end Skirmish.Battle
