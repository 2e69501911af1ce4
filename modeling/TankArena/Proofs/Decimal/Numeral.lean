import Mathlib.Algebra.Ring.Nat
import Mathlib.Data.List.TakeWhile
import TankArena.Decimal.Numeral

/-!
# Numbers are read as they were written

A written number ends where a character follows that cannot belong to it.  On the numbers of the
grammar `Numeral.scan?` then takes exactly the characters that `Numeral.text` gives and finds every
sign, digit and mark again (`scan?_text`).  It finds nothing else: what is read as a number is of
the grammar and was written as the number (`eq_of_scan?`).

The same holds one level below: digits that no digit follows are found by `Digit.span`
(`Digit.span_append`), and the digits of a number are those that the standard library writes
(`Digit.map_char_digits`).
-/

namespace TankArena

/-! ## 1. Digits as characters -/

namespace Digit

theorem isDigit_char (d : Digit) : (char d).isDigit = true := by
  revert d
  decide

theorem ofChar_char (d : Digit) : ofChar (char d) = d := by
  revert d
  decide

theorem char_eq_zero_iff (d : Digit) : char d = '0' ↔ d = zero := by
  revert d
  decide

/-- A digit is none of the other characters of a number. -/
theorem ne_of_isDigit {c mark : Char} (hc : c.isDigit = true) (hmark : mark.isDigit = false) :
    c ≠ mark := by
  rintro rfl
  rw [hc] at hmark
  exact Bool.false_ne_true hmark.symm

/-- Whether a text goes on with something else than a digit. -/
def NoneAhead (rest : List Char) : Prop := ∀ c ∈ rest.head?, c.isDigit = false

/-- **Digits end where none is ahead.** -/
theorem span_append (ds : List Digit) {rest : List Char} (hrest : NoneAhead rest) :
    span (ds.map char ++ rest) = (ds, rest) := by
  have hall : ∀ c ∈ ds.map char, c.isDigit = true := by
    intro c hc
    obtain ⟨d, -, rfl⟩ := List.mem_map.mp hc
    exact isDigit_char d
  have hnone : rest.takeWhile Char.isDigit = [] ∧ rest.dropWhile Char.isDigit = rest := by
    cases rest with
    | nil => exact ⟨rfl, rfl⟩
    | cons c rest => simp [hrest c rfl]
  unfold span
  rw [List.takeWhile_append_of_pos hall, List.dropWhile_append_of_pos hall, hnone.1, hnone.2,
    List.append_nil, List.map_map]
  simp [Function.comp_def, ofChar_char]

theorem char_ofChar {c : Char} (hc : c.isDigit = true) : char (ofChar c) = c := by
  have hrange : 48 ≤ c.toNat ∧ c.toNat ≤ 57 := by
    simpa [Char.isDigit, UInt32.le_iff_toNat_le] using hc
  have hval : (c.toNat - 48) % 10 + 48 = c.toNat := by omega
  unfold char ofChar
  rw [Fin.val_ofNat, hval, Char.ofNat_toNat]

/-- The digits found and the rest make the text. -/
theorem eq_of_span {cs rest : List Char} {ds : List Digit} (h : span cs = (ds, rest)) :
    cs = ds.map char ++ rest := by
  obtain ⟨rfl, rfl⟩ := Prod.mk.inj h
  have hback : (cs.takeWhile Char.isDigit).map (char ∘ ofChar) = cs.takeWhile Char.isDigit :=
    (List.map_congr_left fun c hc => char_ofChar (List.mem_takeWhile_imp hc)).trans
      (List.map_id _)
  rw [List.map_map, hback, List.takeWhile_append_dropWhile]

/-! ## 2. Digits of a number -/

/-- Only zero starts with a zero. -/
theorem digits_eq (n : Nat) :
    digits n = [zero] ∨ ∃ d ds, digits n = d :: ds ∧ d ≠ zero := by
  induction n using Nat.strongRecOn with
  | _ n ih =>
    rw [digits]
    split
    · rename_i hsmall
      by_cases hzero : n = 0
      · exact Or.inl (by rw [hzero]; rfl)
      · have hne : Fin.ofNat 10 n ≠ zero := by
          intro h
          have hval : n % 10 = 0 := congrArg Fin.val h
          omega
        exact Or.inr ⟨_, [], rfl, hne⟩
    · rename_i hlarge
      rcases ih (n / 10) (by omega) with h | ⟨d, ds, h, hd⟩
      · have hval := value_digits (n / 10)
        rw [h] at hval
        have hzero : n / 10 = 0 := hval.symm
        omega
      · exact Or.inr ⟨d, ds ++ [Fin.ofNat 10 n], by rw [h, List.cons_append], hd⟩

/-- A number below a power of two has no more digits than bits. -/
theorem length_digits_le {n k : Nat} (hk : 0 < k) (h : n < 2 ^ k) : (digits n).length ≤ k := by
  induction k generalizing n with
  | zero => exact absurd hk (Nat.lt_irrefl 0)
  | succ k ih =>
    rw [digits]
    split
    · exact Nat.succ_le_succ (Nat.zero_le k)
    · rename_i hlarge
      have hpow : 2 ^ (k + 1) = 2 * 2 ^ k := Nat.pow_succ'
      have hpos : 0 < k := by
        rcases Nat.eq_zero_or_pos k with rfl | hpos
        · omega
        · exact hpos
      have hfew := ih hpos (n := n / 10) (by omega)
      rw [List.length_append, List.length_singleton]
      omega

/-- **Decimal notation.**  The digits of a number are those of the standard library. -/
theorem map_char_digits (n : Nat) : (digits n).map char = (Nat.repr n).toList := by
  rw [Nat.toList_repr]
  induction n using Nat.strongRecOn with
  | _ n ih =>
    have hchar : ∀ d : Digit, char d = Nat.digitChar d.val := by decide
    have hlast : char (Fin.ofNat 10 n) = Nat.digitChar (n % 10) := hchar _
    rw [digits, Nat.toDigits_eq_if (by decide)]
    split
    · rename_i hsmall
      rw [List.map_singleton, hlast, Nat.mod_eq_of_lt hsmall]
    · rename_i hlarge
      rw [List.map_append, ih (n / 10) (by omega), List.map_singleton, hlast]

end Digit

/-! ## 3. Numbers of the grammar -/

namespace Numeral

/-- **A number of the grammar.**  Before the point stands a zero alone or digits that start with
another one, and an exponent has digits. -/
structure Proper (n : Numeral) : Prop where
  whole : n.whole = [Digit.zero] ∨ ∃ d ds, n.whole = d :: ds ∧ d ≠ Digit.zero
  exponent : ∀ e ∈ n.exponent, e.digits ≠ []

/-- Whole numbers are of the grammar. -/
theorem proper_ofNat (n : Nat) : (ofNat n).Proper where
  whole := Digit.digits_eq n
  exponent := by
    intro e he
    cases he

/-- Whether a text goes on with something that cannot belong to a number. -/
def Ends (rest : List Char) : Prop :=
  ∀ c ∈ rest.head?, c.isDigit = false ∧ c ≠ '.' ∧ c ≠ 'e' ∧ c ≠ 'E'

theorem Ends.noneAhead {rest : List Char} (h : Ends rest) : Digit.NoneAhead rest :=
  fun c hc => (h c hc).1

theorem ends_nil : Ends [] := by
  intro c hc
  cases hc

theorem ends_cons {c : Char} {rest : List Char}
    (h : c.isDigit = false ∧ c ≠ '.' ∧ c ≠ 'e' ∧ c ≠ 'E') : Ends (c :: rest) := by
  intro d hd
  cases hd
  exact h

/-! ## 4. The parts of a number -/

theorem scanDigits?_append {ds : List Digit} (hds : ds ≠ []) {rest : List Char}
    (hrest : Digit.NoneAhead rest) : scanDigits? (ds.map Digit.char ++ rest) = some (ds, rest) := by
  unfold scanDigits?
  rw [Digit.span_append ds hrest]
  dsimp only
  rw [if_neg (by rwa [List.isEmpty_iff])]

/-- The characters of the sign of an exponent, if it has one. -/
def signText : Option Bool → List Char
  | none => []
  | some true => ['-']
  | some false => ['+']

/-- The characters of an exponent, if there is one. -/
def exponentText : Option Exponent → List Char
  | none => []
  | some e => (if e.capital then 'E' else 'e') :: (signText e.sign ++ e.digits.map Digit.char)

/-- The characters of a fraction, if there is one. -/
def fractionText (ds : List Digit) : List Char :=
  if ds.isEmpty then [] else '.' :: ds.map Digit.char

theorem text_eq (n : Numeral) :
    n.text = (if n.negative then ['-'] else []) ++ (n.whole.map Digit.char ++
      (fractionText n.fraction ++ exponentText n.exponent)) := by
  obtain ⟨negative, whole, fraction, exponent⟩ := n
  rcases exponent with _ | ⟨capital, _ | _ | _, ds⟩ <;>
    simp [text, fractionText, exponentText, signText, Exponent.text]

/-- A numeral has no more characters than digits and marks. -/
theorem length_text_le (n : Numeral) :
    n.text.length ≤ n.whole.length + n.fraction.length + 2 + (exponentText n.exponent).length := by
  have hsign : (if n.negative then ['-'] else []).length ≤ 1 := by
    split <;> decide
  have hfraction : (fractionText n.fraction).length ≤ n.fraction.length + 1 := by
    unfold fractionText
    split
    · exact Nat.zero_le _
    · rw [List.length_cons, List.length_map]
  rw [text_eq]
  simp only [List.length_append, List.length_map]
  omega

/-- The mark of an exponent is followed by its sign, if one is written, and its digits. -/
theorem scanSigned?_text (capital : Bool) (sign : Option Bool) {ds : List Digit} (hds : ds ≠ [])
    {rest : List Char} (hrest : Digit.NoneAhead rest) :
    Exponent.scan? capital (signText sign ++ (ds.map Digit.char ++ rest))
      = some (⟨capital, sign, ds⟩, rest) := by
  have hspan := Digit.span_append ds hrest
  unfold Exponent.scan?
  rcases sign with _ | _ | _
  · obtain ⟨d, more, rfl⟩ := List.exists_cons_of_ne_nil hds
    have hplus : Digit.char d ≠ '+' := Digit.ne_of_isDigit (Digit.isDigit_char d) rfl
    have hminus : Digit.char d ≠ '-' := Digit.ne_of_isDigit (Digit.isDigit_char d) rfl
    rw [List.map_cons, List.cons_append] at hspan
    simp [signText, hplus, hminus, hspan]
  · simp [signText, hspan, hds]
  · simp [signText, hspan, hds]

theorem scanExponent?_text {e : Option Exponent} (he : ∀ x ∈ e, x.digits ≠ [])
    {rest : List Char} (hrest : Ends rest) :
    scanExponent? (exponentText e ++ rest) = some (e, rest) := by
  rcases e with _ | ⟨capital, sign, ds⟩
  · rcases rest with _ | ⟨c, rest⟩
    · rfl
    · obtain ⟨-, -, hsmall, hcapital⟩ := hrest c rfl
      simp [exponentText, scanExponent?, hsmall, hcapital]
  · have hsigned := fun capital =>
      scanSigned?_text capital sign (he _ rfl) hrest.noneAhead
    cases capital <;> simp [exponentText, scanExponent?, hsigned]

theorem scanFraction?_text (ds : List Digit) {rest : List Char}
    (hrest : ∀ c ∈ rest.head?, c.isDigit = false ∧ c ≠ '.') :
    scanFraction? (fractionText ds ++ rest) = some (ds, rest) := by
  unfold fractionText
  by_cases hds : ds = []
  · subst hds
    rcases rest with _ | ⟨c, rest⟩
    · rfl
    · simp [scanFraction?, (hrest c rfl).2]
  · have hsome := scanDigits?_append hds fun c hc => (hrest c hc).1
    simp [hds, scanFraction?, hsome]

theorem scanWhole?_text {ds : List Digit}
    (hds : ds = [Digit.zero] ∨ ∃ d more, ds = d :: more ∧ d ≠ Digit.zero) {rest : List Char}
    (hrest : Digit.NoneAhead rest) :
    scanWhole? (ds.map Digit.char ++ rest) = some (ds, rest) := by
  rcases hds with rfl | ⟨d, more, rfl, hd⟩
  · rfl
  · have hzero : Digit.char d ≠ '0' := mt (Digit.char_eq_zero_iff d).mp hd
    have hsome := scanDigits?_append (List.cons_ne_nil d more) hrest
    rw [List.map_cons, List.cons_append] at hsome ⊢
    simp [scanWhole?, hzero, hsome]

theorem scanSign_text (negative : Bool) {c : Char} (hc : c.isDigit = true) (rest : List Char) :
    scanSign ((if negative then ['-'] else []) ++ c :: rest) = (negative, c :: rest) := by
  have hminus : c ≠ '-' := Digit.ne_of_isDigit hc rfl
  cases negative with
  | true => rfl
  | false => simp [scanSign, hminus]

/-! ## 5. Numbers -/

theorem Proper.exists_digit {n : Numeral} (hn : n.Proper) : ∃ d ds, n.whole = d :: ds := by
  rcases hn.whole with h | ⟨d, ds, h, -⟩
  · exact ⟨_, _, h⟩
  · exact ⟨d, ds, h⟩

/-- What follows the digits after the point. -/
theorem head_exponentText (e : Option Exponent) {rest : List Char} (hrest : Ends rest) :
    ∀ c ∈ (exponentText e ++ rest).head?, c.isDigit = false ∧ c ≠ '.' := by
  intro c hc
  rcases e with _ | ⟨_ | _, sign, ds⟩
  · exact ⟨(hrest c hc).1, (hrest c hc).2.1⟩
  · cases hc
    exact ⟨rfl, (by decide : 'e' ≠ '.')⟩
  · cases hc
    exact ⟨rfl, (by decide : 'E' ≠ '.')⟩

/-- What follows the digits before the point. -/
theorem noneAhead_fractionText (ds : List Digit) {rest : List Char}
    (hrest : ∀ c ∈ rest.head?, c.isDigit = false ∧ c ≠ '.') :
    Digit.NoneAhead (fractionText ds ++ rest) := by
  intro c hc
  unfold fractionText at hc
  split at hc
  · exact (hrest c hc).1
  · cases hc
    rfl

/-- **Numbers are read as they were written.** -/
theorem scan?_text {n : Numeral} (hn : n.Proper) {rest : List Char} (hrest : Ends rest) :
    scan? (n.text ++ rest) = some (n, rest) := by
  have hexponent := head_exponentText n.exponent hrest
  have hfraction := noneAhead_fractionText n.fraction hexponent
  have hsign : scanSign (n.text ++ rest) = (n.negative, n.whole.map Digit.char ++
      (fractionText n.fraction ++ (exponentText n.exponent ++ rest))) := by
    obtain ⟨d, ds, hwhole⟩ := hn.exists_digit
    rw [text_eq, hwhole, List.map_cons]
    simp only [List.append_assoc, List.cons_append]
    exact scanSign_text n.negative (Digit.isDigit_char d) _
  unfold scan?
  rw [hsign]
  simp [scanWhole?_text hn.whole hfraction, scanFraction?_text n.fraction hexponent,
    scanExponent?_text hn.exponent hrest]

/-- A number starts with a minus or a digit. -/
theorem head_text {n : Numeral} (hn : n.Proper) :
    ∃ c cs, n.text = c :: cs ∧ (c = '-' ∨ c.isDigit = true) := by
  obtain ⟨d, ds, hwhole⟩ := hn.exists_digit
  rw [text_eq, hwhole]
  cases n.negative with
  | true => exact ⟨'-', _, rfl, Or.inl rfl⟩
  | false => exact ⟨Digit.char d, _, rfl, Or.inr (Digit.isDigit_char d)⟩

/-! ## 6. What is read was written -/

theorem eq_of_scanDigits? {cs rest : List Char} {ds : List Digit}
    (h : scanDigits? cs = some (ds, rest)) : ds ≠ [] ∧ cs = ds.map Digit.char ++ rest := by
  unfold scanDigits? at h
  rcases hspan : Digit.span cs with ⟨ds', rest'⟩
  rw [hspan] at h
  dsimp only at h
  split at h
  · cases h
  · rename_i hsome
    cases h
    exact ⟨mt List.isEmpty_iff.mpr hsome, Digit.eq_of_span hspan⟩

theorem eq_of_scanWhole? {cs rest : List Char} {ds : List Digit}
    (h : scanWhole? cs = some (ds, rest)) :
    (ds = [Digit.zero] ∨ ∃ d more, ds = d :: more ∧ d ≠ Digit.zero) ∧
      cs = ds.map Digit.char ++ rest := by
  unfold scanWhole? at h
  split at h
  · cases h
    exact ⟨Or.inl rfl, rfl⟩
  · rename_i hzero
    obtain ⟨hsome, rfl⟩ := eq_of_scanDigits? h
    obtain ⟨d, more, rfl⟩ := List.exists_cons_of_ne_nil hsome
    refine ⟨Or.inr ⟨d, more, rfl, ?_⟩, rfl⟩
    rintro rfl
    exact hzero _ rfl

theorem eq_of_scanFraction? {cs rest : List Char} {ds : List Digit}
    (h : scanFraction? cs = some (ds, rest)) : cs = fractionText ds ++ rest := by
  unfold scanFraction? at h
  split at h
  · obtain ⟨hsome, rfl⟩ := eq_of_scanDigits? h
    simp [fractionText, hsome]
  · cases h
    rfl

theorem eq_of_scanSigned? {capital : Bool} {cs rest : List Char} {e : Exponent}
    (h : Exponent.scan? capital cs = some (e, rest)) :
    e.capital = capital ∧ e.digits ≠ [] ∧
      cs = signText e.sign ++ (e.digits.map Digit.char ++ rest) := by
  unfold Exponent.scan? at h
  split at h
  rename_i sign cs' hsign
  rcases hspan : Digit.span cs' with ⟨ds, rest'⟩
  rw [hspan] at h
  dsimp only at h
  split at h
  · cases h
  · rename_i hsome
    cases h
    have hcs := Digit.eq_of_span hspan
    subst hcs
    refine ⟨rfl, mt List.isEmpty_iff.mpr hsome, ?_⟩
    split at hsign <;> cases hsign <;> rfl

theorem eq_of_scanExponent? {cs rest : List Char} {e : Option Exponent}
    (h : scanExponent? cs = some (e, rest)) :
    (∀ x ∈ e, x.digits ≠ []) ∧ cs = exponentText e ++ rest := by
  unfold scanExponent? at h
  split at h
  · obtain ⟨⟨x, rest'⟩, hscan, heq⟩ := Option.map_eq_some_iff.mp h
    cases heq
    obtain ⟨hcapital, hsome, rfl⟩ := eq_of_scanSigned? hscan
    simp [exponentText, hcapital, hsome]
  · obtain ⟨⟨x, rest'⟩, hscan, heq⟩ := Option.map_eq_some_iff.mp h
    cases heq
    obtain ⟨hcapital, hsome, rfl⟩ := eq_of_scanSigned? hscan
    simp [exponentText, hcapital, hsome]
  · cases h
    refine ⟨?_, rfl⟩
    intro x hx
    cases hx

theorem eq_of_scanSign {cs rest : List Char} {negative : Bool}
    (h : scanSign cs = (negative, rest)) : cs = (if negative then ['-'] else []) ++ rest := by
  unfold scanSign at h
  split at h <;> cases h <;> rfl

/-- **What is read as a number was written as it.** -/
theorem eq_of_scan? {cs rest : List Char} {n : Numeral} (h : scan? cs = some (n, rest)) :
    n.Proper ∧ cs = n.text ++ rest := by
  unfold scan? at h
  rcases hsign : scanSign cs with ⟨negative, cs₁⟩
  simp only [hsign, Option.bind_eq_bind, Option.bind_eq_some_iff, Option.pure_def,
    Option.some.injEq, Prod.exists, Prod.mk.injEq] at h
  obtain ⟨whole, cs₂, hwhole, fraction, cs₃, hfraction, exponent, _, hexponent, rfl, rfl⟩ := h
  obtain rfl := eq_of_scanSign hsign
  obtain ⟨hproper, rfl⟩ := eq_of_scanWhole? hwhole
  obtain rfl := eq_of_scanFraction? hfraction
  obtain ⟨hdigits, rfl⟩ := eq_of_scanExponent? hexponent
  refine ⟨⟨hproper, hdigits⟩, ?_⟩
  rw [text_eq]
  simp only [List.append_assoc]

end Numeral

end TankArena
