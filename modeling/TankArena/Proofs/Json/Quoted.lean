import TankArena.Json.Token

/-!
# Quoted texts say what was quoted

Quoting is inverse to unquoting on every text, whatever characters it holds:

* a quoted text is read up to its own closing mark and no further, piece by piece as it was written
  (`scanPieces_text`), and nothing else is read (`eq_of_scanPieces`);
* what is read says the text that was quoted (`text?_ofString`);
* no control character stands in it, whatever stood in the text (`printable_text`).

The first and the last hold for all quoted texts of the grammar (`Quoted.Legible`), whoever wrote
them; the second for those that `Quoted.ofString` writes.
-/

namespace TankArena.Json

/-! ## 1. Pieces of the grammar -/

/-- A piece that can stand in a quoted text. -/
def Piece.Legible : Piece → Prop
  | .plain c => c ≠ '"' ∧ c ≠ '\\' ∧ 0x20 ≤ c.toNat
  | .short c => (shortChar? c).isSome = true
  | .unit a b c d => (unit? a b c d).isSome = true

/-- A quoted text of the grammar. -/
def Quoted.Legible (q : Quoted) : Prop := ∀ p ∈ q.pieces, p.Legible

theorem hexDigit?_hexChar {n : Nat} (hn : n < 16) : hexDigit? (Quoted.hexChar n) = some n := by
  have hall : ∀ n < 16, hexDigit? (Quoted.hexChar n) = some n := by decide
  exact hall n hn

/-- **How a character is quoted**: by a short escape for it, by its unit, or as it is. -/
theorem Quoted.piece_cases (c : Char) :
    (∃ e, piece c = .short e ∧ Piece.shortChar? e = some c) ∨
      (∃ a b, piece c = .unit '0' '0' a b ∧ Piece.unit? '0' '0' a b = some c.toNat ∧
        c.toNat < 0x20) ∨
      (piece c = .plain c ∧ Piece.Legible (.plain c)) := by
  unfold piece
  split
  · rename_i h
    rcases h with rfl | rfl
    · exact Or.inl ⟨_, rfl, rfl⟩
    · exact Or.inl ⟨_, rfl, rfl⟩
  rename_i hmarks
  obtain ⟨hquote, hslash⟩ := not_or.mp hmarks
  split
  · rename_i h
    exact Or.inl ⟨_, rfl, h ▸ rfl⟩
  split
  · rename_i h
    exact Or.inl ⟨_, rfl, h ▸ rfl⟩
  split
  · rename_i h
    exact Or.inl ⟨_, rfl, h ▸ rfl⟩
  split
  · rename_i h
    exact Or.inl ⟨_, rfl, h ▸ rfl⟩
  split
  · rename_i h
    exact Or.inl ⟨_, rfl, h ▸ rfl⟩
  split
  · rename_i hcontrol
    refine Or.inr (Or.inl ⟨_, _, rfl, ?_, hcontrol⟩)
    have hzero : hexDigit? '0' = some 0 := rfl
    have hhigh := hexDigit?_hexChar (n := c.toNat / 16) (by omega)
    have hlow := hexDigit?_hexChar (n := c.toNat % 16) (by omega)
    simp only [Piece.unit?, hzero, hhigh, hlow, Option.bind_eq_bind, Option.bind_some,
      Option.pure_def]
    congr 1
    omega
  · rename_i hcontrol
    exact Or.inr (Or.inr ⟨rfl, hquote, hslash, Nat.le_of_not_lt hcontrol⟩)

theorem Quoted.legible_piece (c : Char) : (piece c).Legible := by
  rcases piece_cases c with ⟨e, h, he⟩ | ⟨a, b, h, hab, -⟩ | ⟨h, hc⟩
  · rw [h]
    exact Option.isSome_of_eq_some he
  · rw [h]
    exact Option.isSome_of_eq_some hab
  · rw [h]
    exact hc

theorem Quoted.legible_ofString (s : String) : (ofString s).Legible := by
  intro p hp
  obtain ⟨c, -, rfl⟩ := List.mem_map.mp hp
  exact legible_piece c

/-! ## 2. Reading a quoted text -/

/-- A piece is read as it was written. -/
theorem Quoted.scanPieces_piece {p : Piece} (hp : p.Legible) (rest : List Char)
    (out : List Piece) : scanPieces (p.text ++ rest) out = scanPieces rest (p :: out) := by
  cases p with
  | plain c =>
    obtain ⟨hquote, hslash, hcontrol⟩ := hp
    rw [Piece.text, List.singleton_append, scanPieces.eq_def]
    simp [hquote, hslash, Nat.not_lt_of_le hcontrol]
  | short c =>
    have hu : c ≠ 'u' := by
      rintro rfl
      cases hp
    have hp' : (Piece.shortChar? c).isSome = true := hp
    rw [Piece.text, scanPieces.eq_def]
    simp [hu, hp']
  | unit a b c d =>
    have hp' : (Piece.unit? a b c d).isSome = true := hp
    rw [Piece.text, scanPieces.eq_def]
    simp [hp']

/-- **A quoted text is read up to its closing mark.** -/
theorem Quoted.scanPieces_text {ps : List Piece} (hps : ∀ p ∈ ps, p.Legible) (rest : List Char)
    (out : List Piece) :
    scanPieces (ps.flatMap Piece.text ++ '"' :: rest) out = some (⟨out.reverse ++ ps⟩, rest) := by
  induction ps generalizing out with
  | nil =>
    rw [List.flatMap_nil, List.nil_append, scanPieces.eq_def]
    simp
  | cons p ps ih =>
    have hp := hps p List.mem_cons_self
    rw [List.flatMap_cons, List.append_assoc, scanPieces_piece hp,
      ih fun p hp => hps p (List.mem_cons_of_mem _ hp), List.reverse_cons, List.append_assoc,
      List.singleton_append]

/-- One more piece in front of what was read. -/
theorem Quoted.pieces_cons {q : Quoted} {p : Piece} (hp : p.Legible) {out : List Piece}
    {cs rest : List Char}
    (h : ∃ ps, q.pieces = (p :: out).reverse ++ ps ∧ (∀ p ∈ ps, p.Legible) ∧
      cs = ps.flatMap Piece.text ++ '"' :: rest) :
    ∃ ps, q.pieces = out.reverse ++ ps ∧ (∀ p ∈ ps, p.Legible) ∧
      p.text ++ cs = ps.flatMap Piece.text ++ '"' :: rest := by
  obtain ⟨ps, hpieces, hlegible, rfl⟩ := h
  refine ⟨p :: ps, ?_, List.forall_mem_cons.mpr ⟨hp, hlegible⟩, ?_⟩
  · rw [hpieces, List.reverse_cons, List.append_assoc, List.singleton_append]
  · rw [List.flatMap_cons, List.append_assoc]

/-- **What is read as a quoted text was written as it**, piece by piece. -/
theorem Quoted.eq_of_scanPieces {cs rest : List Char} {out : List Piece} {q : Quoted}
    (h : scanPieces cs out = some (q, rest)) :
    ∃ ps, q.pieces = out.reverse ++ ps ∧ (∀ p ∈ ps, p.Legible) ∧
      cs = ps.flatMap Piece.text ++ '"' :: rest := by
  fun_induction scanPieces cs out with
  | case1 => cases h
  | case2 => 
    cases h
    exact ⟨[], by simp, by simp, rfl⟩
  | case3 => cases h
  | case4 out a b c d more hunit _ ih => exact pieces_cons (p := .unit a b c d) hunit (ih h)
  | case5 => cases h
  | case6 => cases h
  | case7 out e more _ hshort _ ih => exact pieces_cons (p := .short e) hshort (ih h)
  | case8 => cases h
  | case9 => cases h
  | case10 c more out hquote hslash hcontrol ih =>
    exact pieces_cons (p := .plain c) ⟨hquote, hslash, Nat.le_of_not_lt hcontrol⟩ (ih h)

/-! ## 3. What a quoted text says -/

theorem Quoted.decode_piece (c : Char) (ps : List Piece) (out : List Char) :
    decode (piece c :: ps) out = decode ps (c :: out) := by
  rcases piece_cases c with ⟨e, h, he⟩ | ⟨a, b, h, hab, hcontrol⟩ | ⟨h, -⟩
  · rw [h, decode.eq_def]
    simp [he]
  · have hhigh : isHigh c.toNat = false := by
      unfold isHigh
      simp
      omega
    have hlow : isLow c.toNat = false := by
      unfold isLow
      simp
      omega
    rw [h, decode.eq_def]
    simp [hab, hhigh, hlow]
  · rw [h, decode]

/-- **What is quoted says what it was.** -/
theorem Quoted.text?_ofString (s : String) : (ofString s).text? = some s := by
  have hdecode : ∀ (cs out : List Char),
      decode (cs.map piece) out = some (out.reverse ++ cs) := by
    intro cs
    induction cs with
    | nil => simp [decode]
    | cons c cs ih =>
      intro out
      rw [List.map_cons, decode_piece, ih, List.reverse_cons, List.append_assoc,
        List.singleton_append]
  unfold text? ofString
  rw [hdecode]
  simp

/-- Units are written with digits of either case, and two of them may stand for one character. -/
example : (⟨[.unit '0' '0' 'f' 'C', .unit 'D' '8' '3' 'd', .unit 'd' 'E' '0' '0']⟩ : Quoted).text?
    = some "ü😀" := by decide

/-! ## 4. No control characters -/

/-- No control character is a hexadecimal digit or the letter of a short escape. -/
theorem none_of_control {c : Char} (hc : c.toNat < 0x20) :
    hexDigit? c = none ∧ Piece.shortChar? c = none := by
  have hall : ∀ n < 0x20, hexDigit? (Char.ofNat n) = none ∧
      Piece.shortChar? (Char.ofNat n) = none := by decide
  have h := hall c.toNat hc
  rwa [Char.ofNat_toNat] at h

/-- Characters none of which is a control character. -/
def Printable (cs : List Char) : Prop := ∀ c ∈ cs, 0x20 ≤ c.toNat

instance (cs : List Char) : Decidable (Printable cs) :=
  List.decidableBAll (fun c : Char => 0x20 ≤ c.toNat) cs

theorem Printable.cons {c : Char} {cs : List Char} (hc : 0x20 ≤ c.toNat) (hcs : Printable cs) :
    Printable (c :: cs) := List.forall_mem_cons.mpr ⟨hc, hcs⟩

theorem Printable.append {cs ds : List Char} (hcs : Printable cs) (hds : Printable ds) :
    Printable (cs ++ ds) := List.forall_mem_append.mpr ⟨hcs, hds⟩

theorem Piece.printable_text {p : Piece} (hp : p.Legible) : Printable p.text := by
  refine fun c hc => Nat.le_of_not_lt fun hcontrol => ?_
  obtain ⟨hhex, hshort⟩ := none_of_control hcontrol
  cases p with
  | plain d =>
    rw [text, List.mem_singleton] at hc
    subst hc
    exact Nat.not_lt_of_le hp.2.2 hcontrol
  | short d =>
    rw [text, List.mem_cons, List.mem_singleton] at hc
    rcases hc with rfl | rfl
    · exact absurd hcontrol (by decide)
    · rw [Legible, hshort] at hp
      cases hp
  | unit h₁ h₂ h₃ h₄ =>
    have hfour : (hexDigit? h₁).isSome ∧ (hexDigit? h₂).isSome ∧ (hexDigit? h₃).isSome ∧
        (hexDigit? h₄).isSome := by
      rw [Legible, unit?] at hp
      cases h1 : hexDigit? h₁ <;> cases h2 : hexDigit? h₂ <;> cases h3 : hexDigit? h₃ <;>
        cases h4 : hexDigit? h₄ <;> simp [h1, h2, h3, h4] at hp ⊢
    rw [text] at hc
    simp only [List.mem_cons, List.not_mem_nil, or_false] at hc
    rcases hc with rfl | rfl | rfl | rfl | rfl | rfl
    · exact absurd hcontrol (by decide)
    · exact absurd hcontrol (by decide)
    all_goals simp [hhex] at hfour

/-- **No control character stands in a quoted text**, whatever it says. -/
theorem Quoted.printable_text {q : Quoted} (hq : q.Legible) : Printable q.text := by
  have hpieces : Printable (q.pieces.flatMap Piece.text) := by
    intro c hc
    obtain ⟨p, hp, hc⟩ := List.mem_flatMap.mp hc
    exact Piece.printable_text (hq p hp) c hc
  have hmark : Printable ['"'] := by
    intro c hc
    rw [List.mem_singleton.mp hc]
    decide
  exact Printable.cons (by decide) (hpieces.append hmark)

end TankArena.Json
