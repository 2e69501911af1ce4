import TankArena.Proofs.Decimal.Numeral

/-!
# A whole number below `2 ^ 64` is within the doubles

A whole number that fits into a word is read by converting the word and multiplying the result by
one.  Neither step can leave the doubles (`isSome_float?_ofNat`).  Nothing is said about the double
that is read: the proof follows the exponents alone, with room to spare, through the rounding of the
conversion, its packing into 64 bits, and the rounding of the product.
-/

namespace TankArena

open Float.Model (Format UnpackedFloat totalExponent)
open Float.Model.UnpackedFloat (roundWithAccuracy shiftToTargetExponent ExtendedMantissa Accuracy)

/-! ## 1. Rounding -/

/-- A number whose mantissa has some bits and whose exponent is bounded: neither infinite nor
undefined. -/
def Moderate (bits : Nat) (greatest : Int) : UnpackedFloat → Prop
  | .zero _ => True
  | .finite _ mantissa exponent _ => mantissa < 2 ^ bits ∧ exponent ≤ greatest
  | _ => False

/-- A finite number whose exponent is bounded. -/
def ExponentLe (greatest : Int) : UnpackedFloat → Prop
  | .zero _ => True
  | .finite _ _ exponent _ => exponent ≤ greatest
  | _ => False

theorem Moderate.mono {bits : Nat} {greatest greatest' : Int} {u : UnpackedFloat}
    (h : Moderate bits greatest u) (hle : greatest ≤ greatest') : Moderate bits greatest' u := by
  cases u with
  | zero sign => exact trivial
  | finite sign mantissa exponent hpos => exact ⟨h.1, Int.le_trans h.2 hle⟩
  | infinity sign => exact h
  | notANumber => exact h

theorem ExponentLe.mono {greatest greatest' : Int} {u : UnpackedFloat}
    (h : ExponentLe greatest u) (hle : greatest ≤ greatest') : ExponentLe greatest' u := by
  cases u with
  | zero sign => exact trivial
  | finite sign mantissa exponent hpos => exact Int.le_trans h hle
  | infinity sign => exact h
  | notANumber => exact h

theorem shiftRight_mantissa_le (em : ExtendedMantissa) (n : Nat) :
    (em >>> n).mantissa ≤ em.mantissa := by
  change (n.repeat ExtendedMantissa.shiftRightOne em).mantissa ≤ em.mantissa
  induction n with
  | zero => exact Nat.le_refl _
  | succ n ih => exact (Nat.div_le_self _ 2).trans ih

theorem roundedMantissa_le (em : ExtendedMantissa) : em.roundedMantissa ≤ em.mantissa + 1 := by
  have hparity := Nat.mod_lt em.mantissa (by decide : 0 < 2)
  unfold ExtendedMantissa.roundedMantissa
  rcases em.accuracy with _ | _ | _ | _ <;>
    simp only [Accuracy.roundToNearestEven] <;>
    omega

theorem ofMantissaAndAccuracy_mantissa (mantissa : Nat) (accuracy : Accuracy) :
    (ExtendedMantissa.ofMantissaAndAccuracy mantissa accuracy).mantissa = mantissa := by
  rcases accuracy with _ | _ | _ | _ <;> rfl

/-- Shifting a mantissa of some bits to its place makes it no larger, and raises the exponent by at
most the bits that are too many. -/
theorem shift_le {mantissa bits : Nat} {exponent greatest : Int} (accuracy : Accuracy)
    (hmantissa : mantissa < 2 ^ bits) (hbits : 53 ≤ bits) (hexponent : exponent ≤ greatest)
    (hgreatest : -1074 ≤ greatest) :
    (shiftToTargetExponent Format.binary64 mantissa exponent accuracy).1.mantissa ≤ mantissa ∧
      (shiftToTargetExponent Format.binary64 mantissa exponent accuracy).2
        ≤ greatest + (bits - 53 : Nat) := by
  have hlog : mantissa.log2 < bits := by
    rcases Nat.eq_zero_or_pos mantissa with rfl | hpos
    · exact Nat.lt_of_lt_of_le (by decide) hbits
    · exact (Nat.log2_lt (Nat.ne_of_gt hpos)).mpr hmantissa
  have htarget : Format.binary64.targetExponent (totalExponent mantissa exponent)
      = max (mantissa.log2 + 1 + exponent - 53) (-1074) := rfl
  unfold shiftToTargetExponent UnpackedFloat.shiftToExponent
  rw [htarget]
  refine ⟨?_, ?_⟩
  · exact (shiftRight_mantissa_le _ _).trans
      (ofMantissaAndAccuracy_mantissa mantissa accuracy).le
  · dsimp only
    omega

/-- **Rounding raises the exponent by the bits that are too many**, and by one more where the
mantissa carries over; both are counted twice here. -/
theorem roundWithAccuracy_le (sign : UnpackedFloat.Sign) {mantissa bits : Nat}
    {exponent greatest : Int} (accuracy : Accuracy) (hmantissa : mantissa < 2 ^ bits)
    (hbits : 53 ≤ bits) (hexponent : exponent ≤ greatest) (hgreatest : -1074 ≤ greatest) :
    ExponentLe (greatest + (2 * bits - 105 : Nat))
      (roundWithAccuracy Format.binary64 sign mantissa exponent accuracy) := by
  obtain ⟨hless, hfirst⟩ := shift_le accuracy hmantissa hbits hexponent hgreatest
  unfold roundWithAccuracy
  generalize shiftToTargetExponent Format.binary64 mantissa exponent accuracy = first at *
  obtain ⟨em, e⟩ := first
  dsimp only at *
  have hrounded : em.roundedMantissa < 2 ^ (bits + 1) := by
    have hle := roundedMantissa_le em
    have hpow : 2 ^ (bits + 1) = 2 * 2 ^ bits := Nat.pow_succ'
    omega
  obtain ⟨-, hsecond⟩ := shift_le .exact hrounded (Nat.le_succ_of_le hbits) hfirst (by omega)
  by_cases hzero :
      (shiftToTargetExponent Format.binary64 em.roundedMantissa e .exact).1.mantissa = 0
  · rw [dif_pos hzero]
    exact trivial
  · rw [dif_neg hzero]
    change (shiftToTargetExponent _ _ _ _).2 ≤ _
    omega

/-! ## 2. Packing -/

/-- What is unpacked is finite unless all bits of the exponent are set. -/
theorem unpack_moderate {spec : Format} {b : BitVec spec.numBits}
    (hexponent : UnpackedFloat.unpackExponent b ≠ -1#_) :
    Moderate spec.mantissaBits
      (max ((UnpackedFloat.unpackExponent b).toNat : Int) 1
        - (spec.exponentBias + spec.mantissaBitsWithoutImplicit))
      (UnpackedFloat.unpack spec b) := by
  have hmantissa := (UnpackedFloat.unpackMantissa b).isLt
  have hbits : 2 ^ spec.mantissaBits = 2 ^ 1 * 2 ^ spec.mantissaBitsWithoutImplicit :=
    Nat.pow_add 2 1 _
  unfold UnpackedFloat.unpack
  dsimp only
  rw [if_neg hexponent]
  by_cases hzero : UnpackedFloat.unpackExponent b = 0#_
  · rw [if_pos hzero, hzero, BitVec.toNat_zero]
    by_cases hnone : UnpackedFloat.unpackMantissa b = 0#_
    · rw [dif_pos hnone]
      exact trivial
    · rw [dif_neg hnone]
      refine ⟨?_, ?_⟩ <;> omega
  · rw [if_neg hzero]
    refine ⟨(1#1 ++ UnpackedFloat.unpackMantissa b).isLt, ?_⟩
    omega

/-- **What is not too large stays finite when it is packed.** -/
theorem unpack_pack {greatest : Int} {u : UnpackedFloat} (hu : ExponentLe greatest u)
    (hleast : -1074 ≤ greatest) (hgreatest : greatest ≤ 971) :
    Moderate 53 greatest (UnpackedFloat.unpack Format.binary64
      (UnpackedFloat.pack Format.binary64 u)) := by
  have hpacked : ∃ n ≤ (greatest + 1075).toNat,
      UnpackedFloat.unpackExponent (UnpackedFloat.pack Format.binary64 u) = BitVec.ofNat 11 n := by
    rcases u with _ | _ | sign | ⟨sign, mantissa, exponent, hpos⟩
    · exact hu.elim
    · exact hu.elim
    · exact ⟨0, Nat.zero_le _, UnpackedFloat.unpackExponent_packComponents⟩
    · have hexponent : exponent ≤ greatest := hu
      have hbias : Format.binary64.exponentBias = 1023 := by decide
      unfold UnpackedFloat.pack
      dsimp only
      rw [hbias, if_neg (by omega)]
      split
      · exact ⟨_, by omega, UnpackedFloat.unpackExponent_packComponents⟩
      · exact ⟨0, Nat.zero_le _, UnpackedFloat.unpackExponent_packComponents⟩
  obtain ⟨n, hn, heq⟩ := hpacked
  have htoNat : (BitVec.ofNat 11 n).toNat = n := by
    rw [BitVec.toNat_ofNat, Nat.mod_eq_of_lt (by omega)]
  have hne : UnpackedFloat.unpackExponent (UnpackedFloat.pack Format.binary64 u) ≠ -1#_ := by
    rw [heq]
    intro hall
    have hval := congrArg BitVec.toNat hall
    rw [htoNat] at hval
    change n = 2047 at hval
    omega
  have hmoderate := unpack_moderate hne
  rw [heq] at hmoderate
  change Moderate 53 (max ((BitVec.ofNat 11 n).toNat : Int) 1 - (1023 + 52)) _ at hmoderate
  rw [htoNat] at hmoderate
  exact hmoderate.mono (by omega)

/-! ## 3. Conversion and product -/

/-- A converted word is far below the largest double. -/
theorem moderate_ofUInt64 (n : UInt64) :
    Moderate 53 127 (UnpackedFloat.unpack Format.binary64
      (UnpackedFloat.pack Format.binary64 (UnpackedFloat.ofUInt64 Format.binary64 n))) := by
  refine unpack_pack ?_ (by decide) (by decide)
  have hlt : n.toNat < 2 ^ 64 := n.toNat_lt
  unfold UnpackedFloat.ofUInt64 UnpackedFloat.ofNat UnpackedFloat.ofInt UnpackedFloat.normalize
  split
  · rename_i hcompare
    have hneg : (n.toNat : Int) < 0 := Int.compare_eq_lt.mp hcompare
    omega
  · exact trivial
  · have htarget : -52 ≤ Format.binary64.targetExponent (totalExponent n.toNat 0) := by
      have heq : Format.binary64.targetExponent (totalExponent n.toNat 0)
          = max ((n.toNat.log2 : Int) + 1 + 0 - 53) (-1074) := rfl
      omega
    unfold UnpackedFloat.round UnpackedFloat.decreaseExponent
    dsimp only
    rw [Int.toNat_natCast]
    generalize Format.binary64.targetExponent (totalExponent n.toNat 0) = target at htarget
    have hshifted : n.toNat <<< (0 - target).toNat < 2 ^ 116 := by
      rw [Nat.shiftLeft_eq]
      calc n.toNat * 2 ^ (0 - target).toNat
          < 2 ^ 64 * 2 ^ (0 - target).toNat :=
            Nat.mul_lt_mul_of_pos_right hlt (Nat.two_pow_pos _)
        _ = 2 ^ (64 + (0 - target).toNat) := (Nat.pow_add 2 _ _).symm
        _ ≤ 2 ^ 116 := Nat.pow_le_pow_right (by decide) (by omega)
    have hexponent : 0 - ((0 - target).toNat : Int) ≤ 0 := by omega
    exact roundWithAccuracy_le .positive .exact hshifted (by decide) hexponent (by decide)

/-- A product has the exponents of both factors and no more bits than both together. -/
theorem mul_le {a b : UnpackedFloat} {greatest greatest' : Int} (ha : Moderate 53 greatest a)
    (hb : Moderate 53 greatest' b) (hleast : -1074 ≤ greatest + greatest') :
    ExponentLe (greatest + greatest' + 107) (UnpackedFloat.mul Format.binary64 a b) := by
  rcases a with _ | _ | sign | ⟨sign, mantissa, exponent, hpos⟩
  · exact ha.elim
  · exact ha.elim
  · rcases b with _ | _ | sign' | ⟨sign', mantissa', exponent', hpos'⟩
    · exact hb.elim
    · exact hb.elim
    · exact trivial
    · exact trivial
  · rcases b with _ | _ | sign' | ⟨sign', mantissa', exponent', hpos'⟩
    · exact hb.elim
    · exact hb.elim
    · exact trivial
    · have hmantissa : mantissa * mantissa' < 2 ^ 106 := by
        calc mantissa * mantissa' < 2 ^ 53 * 2 ^ 53 :=
              Nat.mul_lt_mul_of_lt_of_lt ha.1 hb.1
          _ = 2 ^ 106 := by decide
      exact roundWithAccuracy_le (sign * sign') .exact hmantissa (by decide)
        (Int.add_le_add ha.2 hb.2) hleast

theorem Moderate.isInf_eq_false {bits : Nat} {greatest : Int} {u : UnpackedFloat}
    (h : Moderate bits greatest u) : u.isInf = false := by
  cases u with
  | zero sign => rfl
  | finite sign mantissa exponent hpos => rfl
  | infinity sign => exact h.elim
  | notANumber => rfl

/-- **A word is read as a double.** -/
theorem isSome_scaled?_toFloat (n : UInt64) :
    (Numeral.scaled? n.toFloat 0).isSome = true := by
  have hone : Moderate 53 0 (Numeral.powerOfTen 0).toModel.unpack := by
    have heq : (Numeral.powerOfTen 0).toModel.unpack
        = .finite .positive 4503599627370496 (-52) (by decide) := rfl
    rw [heq]
    exact ⟨by decide, by decide⟩
  have hproduct := mul_le (moderate_ofUInt64 n) hone (by decide)
  have hpacked := (unpack_pack hproduct (by decide) (by decide)).isInf_eq_false
  have hfinite : (n.toFloat * Numeral.powerOfTen 0).isInf = false := hpacked
  unfold Numeral.scaled?
  simp [hfinite]

/-! ## 4. Digits -/

namespace Numeral

theorem le_foldl_digits (ds : List Digit) (s : Nat) :
    s ≤ ds.foldl (fun n d => 10 * n + d.val) s := by
  induction ds generalizing s with
  | nil => exact Nat.le_refl s
  | cons d ds ih =>
    have hle := ih (10 * s + d.val)
    rw [List.foldl_cons]
    omega

/-- Digits whose number fits into a word are all taken. -/
theorem fill_eq {ds : List Digit} {s : Nat}
    (h : ds.foldl (fun n d => 10 * n + d.val) s < UInt64.size) :
    fill s ds = (ds.foldl (fun n d => 10 * n + d.val) s, 0) := by
  induction ds generalizing s with
  | nil => rfl
  | cons d ds ih =>
    rw [List.foldl_cons] at h ⊢
    have hnext : 10 * s + d.val < UInt64.size := Nat.lt_of_le_of_lt (le_foldl_digits ds _) h
    unfold fill
    dsimp only
    rw [if_pos hnext]
    exact ih h

/-- **Every word is within the doubles.** -/
theorem isSome_float?_ofNat {n : Nat} (hn : n < UInt64.size) :
    (ofNat n).float?.isSome = true := by
  have hvalue : (Digit.digits n).foldl (fun n d => 10 * n + d.val) 0 = n := Digit.value_digits n
  have hfill : fill 0 (Digit.digits n) = (n, 0) := by
    rw [fill_eq (by rwa [hvalue]), hvalue]
  have hsignificand : (ofNat n).significand = (n, 0) := by
    unfold significand ofNat
    rw [hfill]
    rfl
  unfold float? magnitude?
  rw [Option.isSome_map, hsignificand]
  exact isSome_scaled?_toFloat (UInt64.ofNat n)

end Numeral

end TankArena
