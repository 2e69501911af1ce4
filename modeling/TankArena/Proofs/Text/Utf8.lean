import TankArena.Text.Utf8

/-!
# The bytes of a text are read as the text

`Utf8.decodeLossy` puts replacement characters for what is no text.  Among the bytes of a text there
is nothing of that kind, so lossy reading gives the text back (`decodeLossy_encode`).  The proof
follows one character: each of its bytes lies in the range that the bytes before it allow
(`foldl_push_char`).

A byte below `0x80` stands for itself: no other character has it among its bytes
(`toNat_eq_of_mem`), so a byte that ends a line is in the bytes of a text only where the text
has that character.
-/

namespace TankArena.Utf8

/-! ## 1. The bytes of a text -/

theorem toList_loop_eq (bytes : ByteArray) (i : Nat) (out : List UInt8) :
    ByteArray.toList.loop bytes i out = out.reverse ++ bytes.data.toList.drop i := by
  fun_induction ByteArray.toList.loop bytes i out with
  | case1 i out h ih =>
    have hi : i < bytes.data.toList.length := by simpa using h
    rw [ih, List.drop_eq_getElem_cons hi]
    simp [ByteArray.get!, h]
  | case2 i out h =>
    have hi : bytes.data.toList.length ≤ i := by simpa using Nat.le_of_not_lt h
    rw [List.drop_eq_nil_of_le hi, List.append_nil]

/-- The bytes of a text are those of its characters. -/
theorem encode_eq (s : String) : encode s = s.toList.flatMap String.utf8EncodeChar := by
  unfold encode
  rw [String.toUTF8_eq_toByteArray, ByteArray.toList, toList_loop_eq, ← String.utf8Encode_toList,
    List.utf8Encode, List.toList_data_toByteArray]
  rfl

/-! ## 2. One character -/

/-- The numbers of characters. -/
theorem toNat_cases (c : Char) : c.toNat < 0xD800 ∨ (0xDFFF < c.toNat ∧ c.toNat < 0x110000) :=
  c.valid

theorem toNat_byte {n : Nat} (h : n < 256) : (UInt8.ofNat n).toNat = n := by
  rw [UInt8.toNat_ofNat', Nat.mod_eq_of_lt h]

theorem push_more {out : List Char} {code more least greatest : Nat} {b : UInt8}
    (hleast : least ≤ b.toNat) (hgreatest : b.toNat ≤ greatest) (hmore : 1 < more) :
    Reading.push ⟨out, some ⟨code, more, least, greatest⟩⟩ b
      = ⟨out, some ⟨64 * code + (b.toNat - 0x80), more - 1, 0x80, 0xBF⟩⟩ := by
  unfold Reading.push
  dsimp only
  rw [if_pos ⟨hleast, hgreatest⟩, if_neg (Nat.not_le_of_lt hmore)]

theorem push_last {out : List Char} {code least greatest : Nat} {b : UInt8}
    (hleast : least ≤ b.toNat) (hgreatest : b.toNat ≤ greatest) :
    Reading.push ⟨out, some ⟨code, 1, least, greatest⟩⟩ b
      = ⟨Char.ofNat (64 * code + (b.toNat - 0x80)) :: out, none⟩ := by
  unfold Reading.push
  dsimp only
  rw [if_pos ⟨hleast, hgreatest⟩]
  rfl

theorem push_two {out : List Char} {b : UInt8} (hleast : 0xC2 ≤ b.toNat)
    (hgreatest : b.toNat < 0xE0) :
    Reading.push ⟨out, none⟩ b = ⟨out, some ⟨b.toNat - 0xC0, 1, 0x80, 0xBF⟩⟩ := by
  unfold Reading.push Reading.start
  dsimp only
  rw [if_neg (by omega), if_neg (by omega), if_pos hgreatest]

theorem push_three {out : List Char} {b : UInt8} (hleast : 0xE0 ≤ b.toNat)
    (hgreatest : b.toNat < 0xF0) :
    Reading.push ⟨out, none⟩ b
      = ⟨out, some ⟨b.toNat - 0xE0, 2, if b.toNat = 0xE0 then 0xA0 else 0x80,
          if b.toNat = 0xED then 0x9F else 0xBF⟩⟩ := by
  unfold Reading.push Reading.start
  dsimp only
  rw [if_neg (by omega), if_neg (by omega), if_neg (by omega)]
  by_cases hfirst : b.toNat = 0xE0
  · simp [hfirst]
  · by_cases hsurrogate : b.toNat = 0xED
    · simp [hsurrogate]
    · simp [hfirst, hsurrogate, hgreatest]

theorem push_four {out : List Char} {b : UInt8} (hleast : 0xF0 ≤ b.toNat)
    (hgreatest : b.toNat ≤ 0xF4) :
    Reading.push ⟨out, none⟩ b
      = ⟨out, some ⟨b.toNat - 0xF0, 3, if b.toNat = 0xF0 then 0x90 else 0x80,
          if b.toNat = 0xF4 then 0x8F else 0xBF⟩⟩ := by
  unfold Reading.push Reading.start
  dsimp only
  rw [if_neg (by omega), if_neg (by omega), if_neg (by omega), if_neg (by omega),
    if_neg (by omega), if_neg (by omega)]
  by_cases hfirst : b.toNat = 0xF0
  · simp [hfirst]
  · by_cases hlast : b.toNat = 0xF4
    · simp [hlast]
    · have hlt : b.toNat < 0xF4 := by omega
      simp [hfirst, hlast, hlt]

/-- **The bytes of a character are read as the character.**  One case for each number of bytes. -/
theorem foldl_push_char (out : List Char) (c : Char) :
    (String.utf8EncodeChar c).foldl Reading.push ⟨out, none⟩ = ⟨c :: out, none⟩ := by
  have hvalid := toNat_cases c
  have hnat : c.val.toNat = c.toNat := rfl
  have hchar : Char.ofNat c.toNat = c := Char.ofNat_toNat c
  unfold String.utf8EncodeChar
  rw [hnat]
  generalize c.toNat = v at *
  dsimp only
  split
  · rename_i hone
    have hfirst := toNat_byte (n := v) (by omega)
    rw [List.foldl_cons, List.foldl_nil]
    unfold Reading.push Reading.start
    dsimp only
    rw [if_pos (by omega), hfirst, hchar]
    rfl
  split
  · rename_i htwo
    have hfirst := toNat_byte (n := v / 64 % 0x20 + 0xC0) (by omega)
    have hsecond := toNat_byte (n := v % 0x40 + 0x80) (by omega)
    have hcode : 64 * (v / 64 % 0x20 + 0xC0 - 0xC0) + (v % 0x40 + 0x80 - 0x80) = v := by omega
    simp only [List.foldl_cons, List.foldl_nil]
    rw [push_two (by omega) (by omega), push_last (by omega) (by omega), hfirst, hsecond, hcode,
      hchar]
  split
  · rename_i hthree
    have hfirst := toNat_byte (n := v / 4096 % 0x10 + 0xE0) (by omega)
    have hsecond := toNat_byte (n := v / 64 % 0x40 + 0x80) (by omega)
    have hthird := toNat_byte (n := v % 0x40 + 0x80) (by omega)
    have hcode : 64 * (64 * (v / 4096 % 0x10 + 0xE0 - 0xE0) + (v / 64 % 0x40 + 0x80 - 0x80))
        + (v % 0x40 + 0x80 - 0x80) = v := by omega
    simp only [List.foldl_cons, List.foldl_nil]
    rw [push_three (by omega) (by omega), push_more (by split <;> omega) (by split <;> omega)
      (by decide), push_last (by omega) (by omega), hfirst, hsecond, hthird, hcode, hchar]
  · rename_i hfour
    have hfirst := toNat_byte (n := v / 262144 % 0x08 + 0xF0) (by omega)
    have hsecond := toNat_byte (n := v / 4096 % 0x40 + 0x80) (by omega)
    have hthird := toNat_byte (n := v / 64 % 0x40 + 0x80) (by omega)
    have hfourth := toNat_byte (n := v % 0x40 + 0x80) (by omega)
    have hcode : 64 * (64 * (64 * (v / 262144 % 0x08 + 0xF0 - 0xF0)
        + (v / 4096 % 0x40 + 0x80 - 0x80)) + (v / 64 % 0x40 + 0x80 - 0x80))
        + (v % 0x40 + 0x80 - 0x80) = v := by omega
    simp only [List.foldl_cons, List.foldl_nil]
    rw [push_four (by omega) (by omega), push_more (by split <;> omega) (by split <;> omega)
      (by decide), push_more (by omega) (by omega) (by decide), push_last (by omega) (by omega),
      hfirst, hsecond, hthird, hfourth, hcode, hchar]

/-! ## 3. All characters -/

/-- **The bytes of a text are read as the text.** -/
theorem decodeLossy_encode (s : String) : decodeLossy (encode s) = s := by
  have hfold : ∀ (cs out : List Char),
      (cs.flatMap String.utf8EncodeChar).foldl Reading.push ⟨out, none⟩
        = ⟨cs.reverse ++ out, none⟩ := by
    intro cs
    induction cs with
    | nil => exact fun out => rfl
    | cons c cs ih =>
      intro out
      rw [List.flatMap_cons, List.foldl_append, foldl_push_char, ih, List.reverse_cons,
        List.append_assoc, List.singleton_append]
  unfold decodeLossy
  rw [encode_eq, hfold]
  unfold Reading.finish
  simp

theorem encode_append (s t : String) : encode (s ++ t) = encode s ++ encode t := by
  rw [encode_eq, encode_eq, encode_eq, String.toList_append, List.flatMap_append]

/-- No character has more than four bytes. -/
theorem length_encode_le (s : String) : (encode s).length ≤ 4 * s.toList.length := by
  rw [encode_eq]
  induction s.toList with
  | nil => exact Nat.le_refl 0
  | cons c cs ih =>
    have hsize := Char.utf8Size_le_four c
    rw [List.flatMap_cons, List.length_append, String.length_utf8EncodeChar, List.length_cons]
    omega

/-- **A byte below `0x80` stands for itself.** -/
theorem toNat_eq_of_mem {c : Char} {b : UInt8} (hb : b ∈ String.utf8EncodeChar c)
    (hlt : b.toNat < 0x80) : c.toNat = b.toNat := by
  have hvalid := toNat_cases c
  have hnat : c.val.toNat = c.toNat := rfl
  have hcontinued : ∀ n, b ≠ UInt8.ofNat (n % 0x40 + 0x80) := by
    rintro n rfl
    rw [toNat_byte (by omega)] at hlt
    omega
  unfold String.utf8EncodeChar at hb
  rw [hnat] at hb
  dsimp only at hb
  split at hb
  · rw [List.mem_singleton.mp hb, toNat_byte (by omega)]
  split at hb
  · simp only [List.mem_cons, List.not_mem_nil, or_false, hcontinued] at hb
    rw [hb, toNat_byte (by omega)] at hlt
    omega
  split at hb
  · simp only [List.mem_cons, List.not_mem_nil, or_false, hcontinued] at hb
    rw [hb, toNat_byte (by omega)] at hlt
    omega
  · simp only [List.mem_cons, List.not_mem_nil, or_false, hcontinued] at hb
    rw [hb, toNat_byte (by omega)] at hlt
    omega

/-- Such a byte is in the bytes of a text only where the text has its character. -/
theorem exists_of_mem_encode {s : String} {b : UInt8} (hb : b ∈ encode s)
    (hlt : b.toNat < 0x80) : ∃ c ∈ s.toList, c.toNat = b.toNat := by
  rw [encode_eq, List.mem_flatMap] at hb
  obtain ⟨c, hc, hb⟩ := hb
  exact ⟨c, hc, toNat_eq_of_mem hb hlt⟩

end TankArena.Utf8
