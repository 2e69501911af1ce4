import Mathlib.Tactic.NormNum
import Mathlib.Tactic.Ring
import TankArena.Decimal.Layout
import TankArena.Proofs.Decimal.Numeral

/-!
# Every double has a short numeral of the grammar

`Layout.numeral` lays out the digits that `Dyadic.shortest` chooses.  This file says nothing about
which number they stand for; it says that they are digits of a written number, and not many:

* the chosen coefficient is positive (`shortest_spec`), so its digits do not start with a zero, and
  the numeral is of the grammar whatever the layout (`proper_numeral`);
* the coefficient is bounded by what the exponent field of a double allows, so that the numeral of
  any double has at most 5500 characters (`length_numeral_le`).  Seventeen digits are
  what a sharp count would give; any bound below the length of an unfinished line is enough here.

The one place where numbers matter is a search without a hit: there the coefficient is positive
because the magnitude found from the binary logarithm is almost right (`reaches_low`).
-/

namespace TankArena

theorem tenTo_pos (n : Nat) : 0 < tenTo n := Nat.pow_pos (by decide)

theorem tenTo_add (a b : Nat) : tenTo (a + b) = tenTo a * tenTo b := Nat.pow_add 10 a b

theorem tenTo_le {a b : Nat} (h : a ≤ b) : tenTo a ≤ tenTo b :=
  Nat.pow_le_pow_right (by decide) h

/-! ## 1. Powers of two and of ten -/

/-- A power of ten is at most a power of two if the exponents are a little less than
`log 2 / log 10` apart. -/
theorem ten_pow_le_two_pow {a b : Nat} (h : 196 * a ≤ 59 * b) : 10 ^ a ≤ 2 ^ b := by
  have hbase : 10 ^ 59 ≤ 2 ^ 196 := by norm_num
  have hpow : (10 ^ a) ^ 196 ≤ (2 ^ b) ^ 196 := by
    calc (10 ^ a) ^ 196 = 10 ^ (196 * a) := by rw [← Nat.pow_mul, Nat.mul_comm]
      _ ≤ 10 ^ (59 * b) := Nat.pow_le_pow_right (by decide) h
      _ = (10 ^ 59) ^ b := Nat.pow_mul 10 59 b
      _ ≤ (2 ^ 196) ^ b := Nat.pow_le_pow_left hbase b
      _ = (2 ^ b) ^ 196 := by rw [← Nat.pow_mul, ← Nat.pow_mul, Nat.mul_comm]
  exact (Nat.pow_le_pow_iff_left (by decide)).mp hpow

/-- A power of two is at most a power of ten if the exponents are a little more than
`log 2 / log 10` apart. -/
theorem two_pow_le_ten_pow {a b : Nat} (h : 28 * b ≤ 93 * a) : 2 ^ b ≤ 10 ^ a := by
  have hbase : 2 ^ 93 ≤ 10 ^ 28 := by norm_num
  have hpow : (2 ^ b) ^ 93 ≤ (10 ^ a) ^ 93 := by
    calc (2 ^ b) ^ 93 = (2 ^ 93) ^ b := by rw [← Nat.pow_mul, ← Nat.pow_mul, Nat.mul_comm]
      _ ≤ (10 ^ 28) ^ b := Nat.pow_le_pow_left hbase b
      _ = 10 ^ (28 * b) := (Nat.pow_mul 10 28 b).symm
      _ ≤ 10 ^ (93 * a) := Nat.pow_le_pow_right (by decide) h
      _ = (10 ^ a) ^ 93 := by rw [← Nat.pow_mul, Nat.mul_comm]
  exact (Nat.pow_le_pow_iff_left (by decide)).mp hpow

/-! ## 2. The magnitude of a number -/

namespace Rounding

/-- A rounding interval of a positive number over a power of two, all within some power of two. -/
structure Bounded (r : Rounding) (bits : Nat) : Prop where
  low_pos : 0 < r.low
  mid_pos : 0 < r.mid
  mid_lt : r.mid < 2 ^ bits
  unit : ∃ u ≤ bits, r.unit = 2 ^ u

theorem reaches_iff (r : Rounding) (e : Int) :
    r.reaches e = true ↔ tenTo e.toNat * r.unit ≤ r.mid * tenTo (-e).toNat := decide_eq_true_iff

/-- What reaches a power of ten reaches the lower ones. -/
theorem reaches_of_le {r : Rounding} {e e' : Int} (h : r.reaches e = true) (hle : e' ≤ e) :
    r.reaches e' = true := by
  rw [reaches_iff] at h ⊢
  have hexp : e'.toNat + (-e).toNat ≤ e.toNat + (-e').toNat := by omega
  have hstep : tenTo e'.toNat * r.unit * tenTo (-e).toNat
      ≤ r.mid * tenTo (-e').toNat * tenTo (-e).toNat := by
    calc tenTo e'.toNat * r.unit * tenTo (-e).toNat
        = tenTo (e'.toNat + (-e).toNat) * r.unit := by rw [tenTo_add]; ring
      _ ≤ tenTo (e.toNat + (-e').toNat) * r.unit := Nat.mul_le_mul_right _ (tenTo_le hexp)
      _ = tenTo e.toNat * r.unit * tenTo (-e').toNat := by rw [tenTo_add]; ring
      _ ≤ r.mid * tenTo (-e).toNat * tenTo (-e').toNat := Nat.mul_le_mul_right _ h
      _ = r.mid * tenTo (-e').toNat * tenTo (-e).toNat := by ring
  exact Nat.le_of_mul_le_mul_right hstep (tenTo_pos _)

/-- The estimate of the magnitude from the binary logarithms. -/
def guess (r : Rounding) : Int := ((Nat.log2 r.mid : Int) - (Nat.log2 r.unit : Int)) * 1233 / 4096

theorem magnitude_eq (r : Rounding) :
    r.magnitude = if r.reaches (r.guess + 1) then r.guess + 1
      else if r.reaches r.guess then r.guess else r.guess - 1 := rfl

variable {r : Rounding} {bits : Nat}

theorem Bounded.log2_mid (h : r.Bounded bits) :
    2 ^ r.mid.log2 ≤ r.mid ∧ r.mid.log2 < bits :=
  have hne : r.mid ≠ 0 := Nat.ne_of_gt h.mid_pos
  ⟨Nat.log2_self_le hne, (Nat.log2_lt hne).mpr h.mid_lt⟩

/-- The estimate is not far from zero. -/
theorem Bounded.guess_mem (h : r.Bounded bits) : -(bits : Int) ≤ r.guess ∧ r.guess ≤ bits := by
  obtain ⟨u, hu, hunit⟩ := h.unit
  have hmid := h.log2_mid.2
  unfold guess
  rw [hunit, Nat.log2_two_pow]
  omega

/-- **The estimate is not much too high.**  Seventeen powers of ten below it are reached. -/
theorem reaches_low (h : r.Bounded bits) (hbits : bits ≤ 4096) :
    r.reaches (r.guess - 17) = true := by
  obtain ⟨u, hu, hunit⟩ := h.unit
  obtain ⟨hle, hlt⟩ := h.log2_mid
  have hguess : r.guess = ((r.mid.log2 : Int) - (u : Int)) * 1233 / 4096 := by
    rw [guess, hunit, Nat.log2_two_pow]
  rw [reaches_iff, hunit]
  change 10 ^ _ * 2 ^ u ≤ r.mid * 10 ^ _
  rcases Int.le_total 17 r.guess with hhigh | hlow
  · -- Above one: the power of ten is at most what the mantissa has more than the denominator.
    have hten : 10 ^ (r.guess - 17).toNat ≤ 2 ^ (r.mid.log2 - u) :=
      ten_pow_le_two_pow (by omega)
    have hnone : (-(r.guess - 17)).toNat = 0 := by omega
    rw [hnone, Nat.pow_zero, Nat.mul_one]
    calc 10 ^ (r.guess - 17).toNat * 2 ^ u
        ≤ 2 ^ (r.mid.log2 - u) * 2 ^ u := Nat.mul_le_mul_right _ hten
      _ = 2 ^ r.mid.log2 := by rw [← Nat.pow_add, Nat.sub_add_cancel (by omega)]
      _ ≤ r.mid := hle
  · -- Below one: the power of ten makes up for what the denominator has more.
    have hten : 2 ^ (u - r.mid.log2) ≤ 10 ^ (-(r.guess - 17)).toNat :=
      two_pow_le_ten_pow (by omega)
    have hnone : (r.guess - 17).toNat = 0 := by omega
    rw [hnone, Nat.pow_zero, Nat.one_mul]
    calc 2 ^ u ≤ 2 ^ (r.mid.log2 + (u - r.mid.log2)) :=
          Nat.pow_le_pow_right (by decide) (by omega)
      _ = 2 ^ r.mid.log2 * 2 ^ (u - r.mid.log2) := Nat.pow_add 2 _ _
      _ ≤ r.mid * 10 ^ (-(r.guess - 17)).toNat := Nat.mul_le_mul hle hten

theorem magnitude_mem (r : Rounding) :
    r.guess - 1 ≤ r.magnitude ∧ r.magnitude ≤ r.guess + 1 := by
  rw [magnitude_eq]
  split
  · omega
  · split <;> omega

theorem reaches_magnitude (h : r.Bounded bits) (hbits : bits ≤ 4096) :
    r.reaches (r.magnitude - 16) = true := by
  rw [magnitude_eq]
  split
  · rename_i hreach
    exact reaches_of_le hreach (by omega)
  · split
    · rename_i hreach
      exact reaches_of_le hreach (by omega)
    · exact reaches_of_le (reaches_low h hbits) (by omega)

/-! ## 3. The chosen decimal -/

/-- A multiple in the interval is positive and bounded by the number. -/
theorem onGrid?_some {tie : Tie} {power : Int} {d : Decimal} (h : r.Bounded bits)
    (hd : r.onGrid? tie power = some d) :
    d.power = power ∧ 0 < d.coefficient ∧
      d.coefficient ≤ r.mid * tenTo (-power).toNat + 1 := by
  have hlow : 0 < r.low * tenTo (-power).toNat := Nat.mul_pos h.low_pos (tenTo_pos _)
  have hle : r.mid * tenTo (-power).toNat / (tenTo power.toNat * r.unit)
      ≤ r.mid * tenTo (-power).toNat := Nat.div_le_self _ _
  unfold onGrid? at hd
  dsimp only at hd
  generalize r.mid * tenTo (-power).toNat = mid at hd hle ⊢
  generalize r.low * tenTo (-power).toNat = low at hd hlow
  generalize tenTo power.toNat * r.unit = step at hd hle
  generalize mid / step = c at hd hle
  have hfloor : (decide (low < c * step) || r.closed && low == c * step) = true → 0 < c := by
    intro hin
    rcases Nat.eq_zero_or_pos c with rfl | hpos
    · simp at hin
      omega
    · exact hpos
  split at hd
  · rename_i hin
    have hpos := hfloor (Bool.and_eq_true_iff.mp hin).1
    cases hd
    dsimp only
    refine ⟨rfl, ?_⟩
    split
    · omega
    · split
      · omega
      · split
        · split <;> omega
        · omega
  · split at hd
    · rename_i hin
      have hpos := hfloor hin
      cases hd
      dsimp only
      omega
    · split at hd
      · cases hd
        dsimp only
        omega
      · cases hd

/-- **The chosen coefficient is positive**, and bounded by the size of the interval. -/
theorem shortest_spec (tie : Tie) (h : r.Bounded bits) (hbits : bits ≤ 4096) :
    (r.magnitude - 16 ≤ (r.shortest tie).power ∧ (r.shortest tie).power ≤ r.magnitude) ∧
      0 < (r.shortest tie).coefficient ∧
      (r.shortest tie).coefficient ≤ r.mid * tenTo (16 - r.magnitude).toNat + 1 := by
  unfold shortest
  dsimp only
  split
  · rename_i d hfound
    obtain ⟨n, hn, hd⟩ := List.exists_of_findSome?_eq_some hfound
    obtain ⟨hpower, hpos, hle⟩ := onGrid?_some h hd
    have hn := List.mem_range.mp hn
    have hscale : r.mid * tenTo (-(r.magnitude - (n : Int))).toNat
        ≤ r.mid * tenTo (16 - r.magnitude).toNat :=
      Nat.mul_le_mul_left _ (tenTo_le (by omega))
    exact ⟨by omega, hpos, by omega⟩
  · have hreach := (reaches_iff r _).mp (reaches_magnitude h hbits)
    obtain ⟨u, -, hunit⟩ := h.unit
    have hstep : 0 < tenTo (r.magnitude - 16).toNat * r.unit :=
      Nat.mul_pos (tenTo_pos _) (hunit ▸ Nat.two_pow_pos u)
    have hscale : (-(r.magnitude - 16)).toNat = (16 - r.magnitude).toNat := by omega
    rw [hscale] at hreach ⊢
    exact ⟨⟨Int.le_refl _, Int.sub_le_self _ (by decide)⟩, Nat.div_pos hreach hstep,
      Nat.le_succ_of_le (Nat.div_le_self _ _)⟩

end Rounding

/-! ## 4. The digits of a double -/

/-- The parts of a double. -/
theorem Dyadic.ofBits_bounds (bits : UInt64) :
    (Dyadic.ofBits bits).mantissa < 2 ^ 53 ∧ -1074 ≤ (Dyadic.ofBits bits).exponent ∧
      (Dyadic.ofBits bits).exponent ≤ 972 := by
  have hfraction : bits.toNat % twoTo 52 < twoTo 52 := Nat.mod_lt _ (Nat.two_pow_pos 52)
  have hfield : bits.toNat / twoTo 52 % twoTo 11 < twoTo 11 := Nat.mod_lt _ (Nat.two_pow_pos 11)
  have htwo : twoTo 11 = 2048 ∧ 2 ^ 53 = 2 * twoTo 52 := ⟨rfl, rfl⟩
  unfold Dyadic.ofBits
  dsimp only
  split
  · dsimp only
    omega
  · dsimp only
    omega

theorem Dyadic.rounding_bounded {v : Dyadic} (hpos : 0 < v.mantissa) (hlt : v.mantissa < 2 ^ 53)
    (hleast : -1074 ≤ v.exponent) (hgreatest : v.exponent ≤ 972) {bits : Nat}
    (hbits : 1076 ≤ bits) : v.rounding.Bounded bits where
  low_pos := by
    unfold Dyadic.rounding
    dsimp only
    refine Nat.mul_pos ?_ (Nat.two_pow_pos _)
    split <;> omega
  mid_pos := Nat.mul_pos (Nat.mul_pos (by decide) hpos) (Nat.two_pow_pos _)
  mid_lt := by
    have hmantissa : 4 * v.mantissa < 2 ^ 55 := by omega
    calc 4 * v.mantissa * 2 ^ (v.exponent - 2).toNat
        < 2 ^ 55 * 2 ^ (v.exponent - 2).toNat :=
          Nat.mul_lt_mul_of_pos_right hmantissa (Nat.two_pow_pos _)
      _ = 2 ^ (55 + (v.exponent - 2).toNat) := (Nat.pow_add 2 _ _).symm
      _ ≤ 2 ^ bits := Nat.pow_le_pow_right (by decide) (by omega)
  unit := ⟨(2 - v.exponent).toNat, by omega, rfl⟩

/-- A coefficient below a bound has few digits. -/
theorem Rounding.length_digits_shortest_le {r : Rounding} {bits : Nat} (tie : Tie)
    (h : r.Bounded bits) (hbits : bits ≤ 4096) :
    (Digit.digits (r.shortest tie).coefficient).length ≤ 5 * bits + 69 := by
  obtain ⟨-, -, hle⟩ := r.shortest_spec tie h hbits
  have hmagnitude : (16 - r.magnitude).toNat ≤ bits + 17 := by
    have hmem := magnitude_mem r
    have hguess := h.guess_mem
    omega
  have hten : tenTo (16 - r.magnitude).toNat ≤ 2 ^ (4 * (bits + 17)) :=
    ten_pow_le_two_pow (by omega)
  have hproduct : r.mid * tenTo (16 - r.magnitude).toNat < 2 ^ bits * 2 ^ (4 * (bits + 17)) :=
    Nat.mul_lt_mul_of_lt_of_le h.mid_lt hten (Nat.two_pow_pos _)
  have hall : 2 ^ bits * 2 ^ (4 * (bits + 17)) = 2 ^ (5 * bits + 68) := by
    rw [← Nat.pow_add]
    congr 1
    omega
  have hnext : 2 ^ (5 * bits + 68) < 2 ^ (5 * bits + 69) :=
    Nat.pow_lt_pow_right (by decide) (Nat.lt_succ_self _)
  exact Digit.length_digits_le (Nat.succ_pos _) (by omega)

/-- Trailing zeros are left out; the first digit stays. -/
theorem Decimal.significant_spec {d : Decimal} (hpos : 0 < d.coefficient) :
    (∃ first more, d.significant.1 = first :: more ∧ first ≠ Digit.zero) ∧
      d.significant.1.length ≤ (Digit.digits d.coefficient).length := by
  have hlength : d.significant.1.length ≤ (Digit.digits d.coefficient).length := by
    unfold significant
    rw [List.length_reverse]
    exact (List.dropWhile_sublist _).length_le.trans (List.length_reverse).le
  refine ⟨?_, hlength⟩
  rcases Digit.digits_eq d.coefficient with h | ⟨first, more, h, hfirst⟩
  · have hvalue := Digit.value_digits d.coefficient
    rw [h] at hvalue
    exact absurd hvalue (Nat.ne_of_lt hpos)
  · refine ⟨first, (more.reverse.dropWhile (· == Digit.zero)).reverse, ?_, hfirst⟩
    unfold significant
    rw [h]
    dsimp only
    rw [List.reverse_cons, List.dropWhile_append]
    split
    · rename_i hnone
      rw [List.isEmpty_iff.mp hnone]
      simp [hfirst]
    · rw [List.reverse_append]
      rfl

/-! ## 5. The numeral of a double -/

namespace Layout

/-- The digits of a finite double and the place of its point. -/
def placed (layout : Layout) (x : Float) : List Digit × Int :=
  let v := Dyadic.ofBits x.toBits
  if v.mantissa = 0 then ([Digit.zero], 1) else (v.shortest layout.tie).significant

theorem numeral_eq (layout : Layout) (x : Float) :
    layout.numeral x
      = if layout.isPositional (layout.placed x).2 then
          layout.positionalNumeral (decide (twoTo 63 ≤ x.toBits.toNat))
            (layout.placed x).1 (layout.placed x).2
        else
          exponentNumeral (decide (twoTo 63 ≤ x.toBits.toNat)) (layout.placed x).1
            (layout.placed x).2 := rfl

/-- The digits of a double start with another digit than zero, but for zero itself; they are
bounded in number, and so is the place of the point. -/
theorem placed_spec (layout : Layout) (x : Float) :
    ((layout.placed x = ([Digit.zero], 1)) ∨
      ∃ first more, (layout.placed x).1 = first :: more ∧ first ≠ Digit.zero) ∧
      (layout.placed x).1.length ≤ 5449 ∧ (layout.placed x).2.natAbs ≤ 7000 := by
  obtain ⟨hlt, hleast, hgreatest⟩ := Dyadic.ofBits_bounds x.toBits
  unfold placed
  dsimp only
  split
  · exact ⟨Or.inl rfl, by decide, by decide⟩
  · rename_i hne
    have hbounded := Dyadic.rounding_bounded (Nat.pos_of_ne_zero hne) hlt hleast hgreatest
      (Nat.le_refl 1076)
    have hfew := Rounding.length_digits_shortest_le layout.tie hbounded (by decide)
    obtain ⟨hpower, hpos, -⟩ := Rounding.shortest_spec layout.tie hbounded (by decide)
    obtain ⟨hfirst, hlength⟩ := Decimal.significant_spec hpos
    have hmagnitude := Rounding.magnitude_mem (Dyadic.ofBits x.toBits).rounding
    have hguess := hbounded.guess_mem
    refine ⟨Or.inr hfirst, hlength.trans hfew, ?_⟩
    unfold Decimal.significant Dyadic.shortest
    dsimp only
    omega

theorem proper_positional (layout : Layout) (negative : Bool) {ds : List Digit} {point : Int}
    (h : (ds, point) = ([Digit.zero], 1) ∨ ∃ first more, ds = first :: more ∧ first ≠ Digit.zero) :
    (layout.positionalNumeral negative ds point).Proper where
  whole := by
    unfold positionalNumeral
    dsimp only
    split
    · exact Or.inl rfl
    · rename_i hpoint
      rcases h with h | ⟨first, more, rfl, hfirst⟩
      · cases h
        exact Or.inl rfl
      · obtain ⟨n, hn⟩ : ∃ n, point.toNat = n + 1 := ⟨point.toNat - 1, by omega⟩
        rw [hn, List.take_succ_cons, List.cons_append]
        exact Or.inr ⟨first, _, rfl, hfirst⟩
  exponent := by
    intro e he
    cases he

theorem proper_exponent (negative : Bool) {ds : List Digit} {point : Int}
    (h : ds = [Digit.zero] ∨ ∃ first more, ds = first :: more ∧ first ≠ Digit.zero) :
    (exponentNumeral negative ds point).Proper where
  whole := by
    rcases h with rfl | ⟨first, more, rfl, hfirst⟩
    · exact Or.inl rfl
    · exact Or.inr ⟨first, [], rfl, hfirst⟩
  exponent := by
    intro e he
    cases he
    exact Digit.digits_ne_nil _

/-- **The numeral of a double is of the grammar**, whatever the layout. -/
theorem proper_numeral (layout : Layout) (x : Float) : (layout.numeral x).Proper := by
  obtain ⟨hplaced, -, -⟩ := layout.placed_spec x
  rw [numeral_eq]
  split
  · exact layout.proper_positional _ hplaced
  · exact proper_exponent _ (hplaced.imp (congrArg Prod.fst) id)

theorem isPositional_data {point : Int} (h : data.isPositional point = true) :
    -4 ≤ point ∧ point ≤ 16 := by
  unfold isPositional data at h
  simpa using h

theorem length_positional_le (negative : Bool) (ds : List Digit) {point : Int}
    (hleast : -4 ≤ point) (hgreatest : point ≤ 16) :
    (data.positionalNumeral negative ds point).text.length ≤ ds.length + 24 := by
  have hwhole : (data.positionalNumeral negative ds point).whole.length ≤ 16 := by
    unfold positionalNumeral
    dsimp only
    split
    · exact (by decide : 1 ≤ 16)
    · rw [List.length_append, List.length_take, List.length_replicate]
      omega
  have hfraction : (data.positionalNumeral negative ds point).fraction.length ≤ ds.length + 4 := by
    have hzero : [Digit.zero].length ≤ ds.length + 4 := Nat.le_add_left 1 _
    unfold positionalNumeral
    dsimp only
    split
    · split
      · exact hzero
      · rw [List.length_append, List.length_replicate]
        omega
    · split
      · exact hzero
      · rw [List.length_drop]
        omega
  have hlength := Numeral.length_text_le (data.positionalNumeral negative ds point)
  have hexponent : (Numeral.exponentText
      (data.positionalNumeral negative ds point).exponent).length = 0 := rfl
  omega

theorem length_exponent_le (negative : Bool) (ds : List Digit) {point : Int}
    (hpoint : point.natAbs ≤ 7000) :
    (exponentNumeral negative ds point).text.length ≤ ds.length + 24 := by
  have hwhole : (exponentNumeral negative ds point).whole.length ≤ 1 := List.length_take_le 1 ds
  have hfraction : (exponentNumeral negative ds point).fraction.length ≤ ds.length :=
    (List.drop_sublist 1 ds).length_le
  have hdigits : (Digit.digits (point - 1).natAbs).length ≤ 13 :=
    Digit.length_digits_le (by decide) (by omega)
  have hexponent : (Numeral.exponentText (exponentNumeral negative ds point).exponent).length
      ≤ 15 := by
    unfold exponentNumeral Numeral.exponentText
    cases decide (point < 1) <;>
      simp only [Numeral.signText, List.length_cons, List.length_append, List.length_nil,
        List.length_map] <;>
      omega
  have hlength := Numeral.length_text_le (exponentNumeral negative ds point)
  omega

/-- **The numeral of a double is bounded in length.** -/
theorem length_numeral_le (x : Float) : (data.numeral x).text.length ≤ 5500 := by
  obtain ⟨-, hfew, hpoint⟩ := data.placed_spec x
  rw [numeral_eq]
  split
  · rename_i hpositional
    obtain ⟨hleast, hgreatest⟩ := isPositional_data hpositional
    have hlength := length_positional_le (decide (twoTo 63 ≤ x.toBits.toNat))
      (data.placed x).1 hleast hgreatest
    omega
  · have hlength := length_exponent_le (decide (twoTo 63 ≤ x.toBits.toNat))
      (data.placed x).1 hpoint
    omega

end Layout

end TankArena
