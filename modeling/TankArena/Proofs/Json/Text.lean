import TankArena.Json.Reader
import TankArena.Proofs.Decimal.Numeral
import TankArena.Proofs.Json.Quoted

/-!
# Values are read as they were written

Reading goes in two stages, and so does this file.

* A text that spells a list of tokens, with blanks anywhere between them, is cut into these tokens
  (`ofText?_of_spelled`).  `Spelled` asks for nothing else than that no token runs into the next:
  after a number something has to follow that cannot belong to it.
* The machine that builds values takes the tokens of a value to the value, whatever containers are
  open around it (`Building.builds`).

So every text that spells the tokens of a value is read as the value (`ofChars?_of_spelled`), the
one that is written without blanks among them (`ofChars?_text`).
-/

namespace TankArena.Json

/-! ## 1. Values -/

/-- **Induction over a value**, through the items and members inside it. -/
@[elab_as_elim, induction_eliminator]
theorem ind {motive : Json → Prop} (null : motive .null) (bool : ∀ b, motive (.bool b))
    (number : ∀ n, motive (.number n)) (string : ∀ q, motive (.string q))
    (array : ∀ items, (∀ v ∈ items, motive v) → motive (.array items))
    (object : ∀ members, (∀ m ∈ members, motive m.2) → motive (.object members)) (v : Json) :
    motive v := by
  refine @Json.rec motive (fun items => ∀ v ∈ items, motive v)
    (fun members => ∀ m ∈ members, motive m.2) (fun m => motive m.2)
    null bool number string array object ?_ ?_ ?_ ?_ ?_ v
  · intro v hv
    cases hv
  · intro w items hw hitems v hv
    rcases List.mem_cons.mp hv with rfl | hv
    · exact hw
    · exact hitems v hv
  · intro m hm
    cases hm
  · intro w members hw hmembers m hm
    rcases List.mem_cons.mp hm with rfl | hm
    · exact hw
    · exact hmembers m hm
  · intro q v hv
    exact hv

/-- A value whose numbers and quoted texts are of the grammar. -/
inductive Legible : Json → Prop
  | null : Legible .null
  | bool (b : Bool) : Legible (.bool b)
  | number {n : Numeral} (h : n.Proper) : Legible (.number n)
  | string {q : Quoted} (h : q.Legible) : Legible (.string q)
  | array {items : List Json} (h : ∀ v ∈ items, Legible v) : Legible (.array items)
  | object {members : List (Quoted × Json)} (names : ∀ m ∈ members, m.1.Legible)
      (values : ∀ m ∈ members, Legible m.2) : Legible (.object members)

mutual

/-- The tokens of a value. -/
def tokens : Json → List Token
  | .null => [.null]
  | .bool b => [.bool b]
  | .number n => [.number n]
  | .string q => [.quoted q]
  | .array [] => [.openArray, .closeArray]
  | .array (v :: items) => .openArray :: (tokens v ++ itemsTokens items)
  | .object [] => [.openObject, .closeObject]
  | .object (m :: members) => .openObject :: (memberTokens m ++ membersTokens members)

/-- The tokens of the further items of an array, and its closing bracket. -/
def itemsTokens : List Json → List Token
  | [] => [.closeArray]
  | v :: items => .comma :: (tokens v ++ itemsTokens items)

/-- The tokens of a member. -/
def memberTokens : Quoted × Json → List Token
  | (name, v) => .quoted name :: .colon :: tokens v

/-- The tokens of the further members of an object, and its closing brace. -/
def membersTokens : List (Quoted × Json) → List Token
  | [] => [.closeObject]
  | m :: members => .comma :: (memberTokens m ++ membersTokens members)

end

/-! ## 2. From tokens to values -/

namespace Building

/-- The machine after some tokens. -/
def run (b : Building) (ts : List Token) : Option Building := ts.foldlM step b

theorem run_cons {b b' : Building} {t : Token} (h : b.step t = some b') (ts : List Token) :
    b.run (t :: ts) = b'.run ts := by
  unfold run
  rw [List.foldlM_cons, h]
  rfl

/-- The machine takes the tokens of a value to the value, whatever is open around it. -/
def Builds (v : Json) : Prop :=
  ∀ outer ts, (Building.value outer).run (v.tokens ++ ts) = (Building.done v outer).run ts

/-- No value starts with a closing bracket. -/
theorem tokens_eq_cons (v : Json) : ∃ t ts, v.tokens = t :: ts ∧ t ≠ .closeArray := by
  rcases v with _ | b | n | q | ⟨_ | ⟨v, items⟩⟩ | ⟨_ | ⟨m, members⟩⟩ <;>
    exact ⟨_, _, by rw [tokens], Token.noConfusion⟩

theorem run_firstItem (v : Json) (outer : List Level) (ts : List Token) :
    (firstItem outer).run (v.tokens ++ ts)
      = (value (.array [] :: outer)).run (v.tokens ++ ts) := by
  obtain ⟨t, more, htokens, hne⟩ := tokens_eq_cons v
  have hstep : (firstItem outer).step t = (value (.array [] :: outer)).step t := by
    cases t <;> first | rfl | exact absurd rfl hne
  unfold run
  rw [htokens, List.cons_append, List.foldlM_cons, List.foldlM_cons, hstep]

/-- The further items of an array go into the level that is open for it. -/
theorem run_items {items : List Json} (h : ∀ v ∈ items, Builds v) (v : Json)
    (before : List Json) (outer : List Level) (ts : List Token) :
    (done v (.array before :: outer)).run (itemsTokens items ++ ts)
      = (done (.array ((v :: before).reverse ++ items)) outer).run ts := by
  induction items generalizing v before with
  | nil =>
    rw [itemsTokens, List.singleton_append, run_cons rfl, List.append_nil]
  | cons w items ih =>
    have hw := h w List.mem_cons_self
    rw [itemsTokens, List.cons_append, run_cons rfl, List.append_assoc, hw,
      ih fun v hv => h v (List.mem_cons_of_mem w hv)]
    simp

theorem run_members {members : List (Quoted × Json)} (h : ∀ m ∈ members, Builds m.2)
    (v : Json) (name : Quoted) (before : List (Quoted × Json)) (outer : List Level)
    (ts : List Token) :
    (done v (.object before name :: outer)).run (membersTokens members ++ ts)
      = (done (.object (((name, v) :: before).reverse ++ members)) outer).run ts := by
  induction members generalizing v name before with
  | nil =>
    rw [membersTokens, List.singleton_append, run_cons rfl, List.append_nil]
  | cons m members ih =>
    obtain ⟨q, w⟩ := m
    have hw : Builds w := h (q, w) List.mem_cons_self
    rw [membersTokens, memberTokens]
    simp only [List.cons_append, List.append_assoc]
    rw [run_cons rfl, run_cons rfl, run_cons rfl, hw,
      ih fun m hm => h m (List.mem_cons_of_mem _ hm)]
    simp

/-- **The tokens of a value build the value.** -/
theorem builds (v : Json) : Builds v := by
  induction v with
  | null => exact fun outer ts => rfl
  | bool b => exact fun outer ts => rfl
  | number n => exact fun outer ts => rfl
  | string q => exact fun outer ts => rfl
  | array items ih =>
    intro outer ts
    cases items with
    | nil => rfl
    | cons v items =>
      have hv := ih v List.mem_cons_self
      rw [tokens, List.cons_append, run_cons rfl, List.append_assoc, run_firstItem, hv,
        run_items fun w hw => ih w (List.mem_cons_of_mem v hw)]
      rfl
  | object members ih =>
    intro outer ts
    cases members with
    | nil => rfl
    | cons m members =>
      obtain ⟨q, v⟩ := m
      have hv : Builds v := ih (q, v) List.mem_cons_self
      rw [tokens, memberTokens]
      simp only [List.cons_append, List.append_assoc]
      rw [run_cons rfl, run_cons rfl, run_cons rfl, hv,
        run_members fun m hm => ih m (List.mem_cons_of_mem _ hm)]
      rfl

end Building

/-- A list of tokens that are those of a value makes the value. -/
theorem ofTokens?_tokens (v : Json) : ofTokens? v.tokens = some v := by
  have hrun := Building.builds v [] []
  rw [List.append_nil] at hrun
  unfold ofTokens?
  unfold Building.run at hrun
  rw [hrun]
  rfl

/-! ## 3. From texts to tokens -/

namespace Token

/-- The characters of a token. -/
def text : Token → List Char
  | openArray => ['[']
  | closeArray => [']']
  | openObject => ['\x7b']
  | closeObject => ['\x7d']
  | comma => [',']
  | colon => [':']
  | null => word "null"
  | bool true => word "true"
  | bool false => word "false"
  | number n => n.text
  | quoted q => q.text

/-- Whether a token is of the grammar and the rest of a text does not go on with it. -/
def StandsBefore (rest : List Char) : Token → Prop
  | number n => n.Proper ∧ Numeral.Ends rest
  | quoted q => q.Legible
  | _ => True

end Token

/-- A text that spells some tokens, with blanks anywhere between them. -/
inductive Spelled : List Token → List Char → Prop
  | nil {blanks : List Char} (h : ∀ c ∈ blanks, isBlank c = true) : Spelled [] blanks
  | cons {blanks : List Char} (h : ∀ c ∈ blanks, isBlank c = true) {t : Token}
      {rest : List Char} (ht : t.StandsBefore rest) {ts : List Token} (hts : Spelled ts rest) :
      Spelled (t :: ts) (blanks ++ (t.text ++ rest))

namespace Token

/-- A number does not start as another token does. -/
theorem scan?_number {n : Numeral} (hn : n.Proper) {rest : List Char}
    (hrest : Numeral.Ends rest) : scan? (n.text ++ rest) = some (number n, rest) := by
  obtain ⟨c, cs, htext, hc⟩ := Numeral.head_text hn
  have hscan := Numeral.scan?_text hn hrest
  have hmark : ∀ mark : Char, mark.isDigit = false → mark ≠ '-' → c ≠ mark := by
    rintro mark hdigit hminus rfl
    rcases hc with h | h
    · exact hminus h
    · rw [h] at hdigit
      cases hdigit
  rw [htext, List.cons_append] at hscan ⊢
  simp [scan?, hmark, hscan]

theorem scan?_text {t : Token} {rest : List Char} (ht : t.StandsBefore rest) :
    scan? (t.text ++ rest) = some (t, rest) := by
  cases t with
  | number n => exact scan?_number ht.1 ht.2
  | quoted q =>
    have hscan := Quoted.scanPieces_text ht rest []
    rw [List.reverse_nil, List.nil_append] at hscan
    simp [text, Quoted.text, scan?, hscan]
  | bool b => cases b <;> rfl
  | _ => rfl

theorem head_text {t : Token} {rest : List Char} (ht : t.StandsBefore rest) :
    ∃ c cs, t.text = c :: cs ∧ isBlank c = false := by
  cases t with
  | number n =>
    obtain ⟨c, cs, htext, hc⟩ := Numeral.head_text ht.1
    refine ⟨c, cs, htext, ?_⟩
    rcases hc with rfl | hc
    · rfl
    · have hne : ∀ mark : Char, mark.isDigit = false → c ≠ mark :=
        fun mark hmark => Digit.ne_of_isDigit hc hmark
      simp [isBlank, hne]
  | bool b => cases b <;> exact ⟨_, _, rfl, rfl⟩
  | _ => exact ⟨_, _, rfl, rfl⟩

theorem text_ne_nil {t : Token} {rest : List Char} (ht : t.StandsBefore rest) : t.text ≠ [] := by
  obtain ⟨c, cs, htext, -⟩ := head_text ht
  rw [htext]
  exact List.cons_ne_nil c cs

/-- No token starts with a blank. -/
theorem dropWhile_text {blanks rest : List Char} (hblanks : ∀ c ∈ blanks, isBlank c = true)
    {t : Token} (ht : t.StandsBefore rest) :
    (blanks ++ (t.text ++ rest)).dropWhile isBlank = t.text ++ rest := by
  obtain ⟨c, cs, htext, hc⟩ := head_text ht
  rw [List.dropWhile_append_of_pos hblanks, htext, List.cons_append, List.dropWhile_cons, hc]
  rfl

theorem scanAll_of_spelled {ts : List Token} {cs : List Char} (h : Spelled ts cs) {fuel : Nat}
    (hfuel : cs.length < fuel) (out : List Token) :
    scanAll fuel cs out = some (out.reverse ++ ts) := by
  induction h generalizing fuel out with
  | @nil blanks hblanks =>
    obtain ⟨fuel, rfl⟩ : ∃ n, fuel = n + 1 := ⟨fuel - 1, by omega⟩
    have hnone : blanks.dropWhile isBlank = [] := by
      rw [← List.append_nil blanks, List.dropWhile_append_of_pos hblanks]
      rfl
    rw [scanAll, hnone, List.append_nil]
  | @cons blanks hblanks t rest ht ts hts ih =>
    obtain ⟨fuel, rfl⟩ : ∃ n, fuel = n + 1 := ⟨fuel - 1, by omega⟩
    have hscan := scan?_text ht
    have hdrop := dropWhile_text hblanks ht
    obtain ⟨c, more, htext⟩ := List.exists_cons_of_ne_nil (text_ne_nil ht)
    rw [htext, List.cons_append] at hscan hdrop
    have hless : rest.length < fuel := by
      rw [htext] at hfuel
      simp only [List.length_append, List.length_cons] at hfuel
      omega
    rw [scanAll, htext, List.cons_append, hdrop]
    dsimp only
    rw [hscan]
    dsimp only
    rw [ih hless, List.reverse_cons, List.append_assoc, List.singleton_append]

/-- **A text is cut into the tokens that it spells.** -/
theorem ofText?_of_spelled {ts : List Token} {cs : List Char} (h : Spelled ts cs) :
    ofText? cs = some ts := by
  unfold ofText?
  rw [scanAll_of_spelled h (Nat.lt_succ_self _)]
  rfl

end Token

/-- A text that is cut into the tokens of a value is read as the value. -/
theorem ofChars?_of_ofText? {v : Json} {cs : List Char} (h : Token.ofText? cs = some v.tokens) :
    ofChars? cs = some v := by
  unfold ofChars?
  rw [h]
  exact ofTokens?_tokens v

/-- **A text that spells a value is read as the value.** -/
theorem ofChars?_of_spelled {v : Json} {cs : List Char} (h : Spelled v.tokens cs) :
    ofChars? cs = some v := ofChars?_of_ofText? (Token.ofText?_of_spelled h)

/-! ## 4. Written values -/

theorem Spelled.head {t : Token} {ts : List Token} {rest : List Char}
    (ht : t.StandsBefore rest) (hts : Spelled ts rest) : Spelled (t :: ts) (t.text ++ rest) := by
  have hnone : ∀ c ∈ ([] : List Char), isBlank c = true := fun _ h => by cases h
  exact .cons hnone ht hts

/-- A value spells its tokens before whatever does not go on with a number. -/
def Spells (v : Json) : Prop :=
  ∀ {ts : List Token} {rest : List Char}, Spelled ts rest → Numeral.Ends rest →
    Spelled (v.tokens ++ ts) (v.text ++ rest)

theorem ends_itemsText (items : List Json) (rest : List Char) :
    Numeral.Ends (itemsText items ++ rest) := by
  cases items <;> exact Numeral.ends_cons (by decide)

theorem ends_membersText (members : List (Quoted × Json)) (rest : List Char) :
    Numeral.Ends (membersText members ++ rest) := by
  cases members <;> exact Numeral.ends_cons (by decide)

theorem spelled_itemsText {items : List Json} (h : ∀ v ∈ items, Spells v) {ts : List Token}
    {rest : List Char} (hts : Spelled ts rest) :
    Spelled (itemsTokens items ++ ts) (itemsText items ++ rest) := by
  induction items with
  | nil => exact Spelled.head (t := .closeArray) trivial hts
  | cons v items ih =>
    have hmore := ih fun v hv => h v (List.mem_cons_of_mem _ hv)
    have hv := h v List.mem_cons_self hmore (ends_itemsText items rest)
    rw [itemsTokens, itemsText]
    simp only [List.cons_append, List.append_assoc]
    exact Spelled.head (t := .comma) trivial hv

theorem spelled_memberText {m : Quoted × Json} (hname : m.1.Legible) (hv : Spells m.2)
    {ts : List Token} {rest : List Char} (hts : Spelled ts rest) (hrest : Numeral.Ends rest) :
    Spelled (memberTokens m ++ ts) (memberText m ++ rest) := by
  obtain ⟨name, v⟩ := m
  have hcolon : Spelled (.colon :: (v.tokens ++ ts)) (':' :: (v.text ++ rest)) :=
    Spelled.head (t := .colon) trivial (hv hts hrest)
  have hquoted := Spelled.head (t := .quoted name) hname hcolon
  rw [memberTokens, memberText]
  simp only [List.cons_append, List.append_assoc]
  exact hquoted

theorem spelled_membersText {members : List (Quoted × Json)}
    (names : ∀ m ∈ members, m.1.Legible) (h : ∀ m ∈ members, Spells m.2) {ts : List Token}
    {rest : List Char} (hts : Spelled ts rest) :
    Spelled (membersTokens members ++ ts) (membersText members ++ rest) := by
  induction members with
  | nil => exact Spelled.head (t := .closeObject) trivial hts
  | cons m members ih =>
    have hmore := ih (fun m hm => names m (List.mem_cons_of_mem _ hm))
      fun m hm => h m (List.mem_cons_of_mem _ hm)
    have hm := spelled_memberText (names m List.mem_cons_self) (h m List.mem_cons_self) hmore
      (ends_membersText members rest)
    rw [membersTokens, membersText]
    simp only [List.cons_append, List.append_assoc]
    exact Spelled.head (t := .comma) trivial hm

/-- **A value of the grammar spells its tokens.** -/
theorem Legible.spells {v : Json} (h : v.Legible) : Spells v := by
  induction h with
  | null => exact fun hts _ => Spelled.head (t := .null) trivial hts
  | bool b =>
    intro ts rest hts _
    cases b
    · exact Spelled.head (t := .bool false) trivial hts
    · exact Spelled.head (t := .bool true) trivial hts
  | number hn => exact fun hts hrest => Spelled.head (t := .number _) ⟨hn, hrest⟩ hts
  | string hq => exact fun hts _ => Spelled.head (t := .quoted _) hq hts
  | @array items _ ih =>
    intro ts rest hts _
    cases items with
    | nil =>
      exact Spelled.head (t := .openArray) trivial (Spelled.head (t := .closeArray) trivial hts)
    | cons v items =>
      have hitems := spelled_itemsText (fun w hw => ih w (List.mem_cons_of_mem _ hw)) hts
      have hv := ih v List.mem_cons_self hitems (ends_itemsText items rest)
      rw [tokens, text]
      simp only [List.cons_append, List.append_assoc]
      exact Spelled.head (t := .openArray) trivial hv
  | @object members names _ ih =>
    intro ts rest hts _
    cases members with
    | nil =>
      exact Spelled.head (t := .openObject) trivial
        (Spelled.head (t := .closeObject) trivial hts)
    | cons m members =>
      have hmembers := spelled_membersText (fun m hm => names m (List.mem_cons_of_mem _ hm))
        (fun m hm => ih m (List.mem_cons_of_mem _ hm)) hts
      have hm := spelled_memberText (names m List.mem_cons_self) (ih m List.mem_cons_self)
        hmembers (ends_membersText members rest)
      rw [tokens, text]
      simp only [List.cons_append, List.append_assoc]
      exact Spelled.head (t := .openObject) trivial hm

/-- **A written value is read as the value.** -/
theorem Legible.ofChars?_text {v : Json} (h : v.Legible) : ofChars? v.text = some v := by
  have hspelled := h.spells (.nil fun _ h => by cases h) Numeral.ends_nil
  rw [List.append_nil, List.append_nil] at hspelled
  exact ofChars?_of_spelled hspelled

/-! ## 5. No control characters -/

theorem printable_nil : Printable [] := fun c hc => by cases hc

theorem printable_digits (ds : List Digit) : Printable (ds.map Digit.char) := by
  intro c hc
  obtain ⟨d, -, rfl⟩ := List.mem_map.mp hc
  exact (by decide : ∀ d : Digit, 0x20 ≤ (Digit.char d).toNat) d

theorem printable_exponentText (e : Option Exponent) : Printable (Numeral.exponentText e) := by
  rcases e with _ | ⟨capital, sign, ds⟩
  · exact printable_nil
  · have hsign : Printable (Numeral.signText sign) := by
      rcases sign with _ | _ | _
      · exact printable_nil
      · exact Printable.cons (by decide) printable_nil
      · exact Printable.cons (by decide) printable_nil
    have hmore := hsign.append (printable_digits ds)
    cases capital
    · exact Printable.cons (by decide : 0x20 ≤ 'e'.toNat) hmore
    · exact Printable.cons (by decide : 0x20 ≤ 'E'.toNat) hmore

theorem printable_numeral (n : Numeral) : Printable n.text := by
  rw [Numeral.text_eq]
  refine Printable.append ?_ ((printable_digits _).append
    (Printable.append ?_ (printable_exponentText _)))
  · split
    · exact Printable.cons (by decide) printable_nil
    · exact printable_nil
  · unfold Numeral.fractionText
    split
    · exact printable_nil
    · exact Printable.cons (by decide) (printable_digits _)

theorem printable_itemsText {items : List Json} (h : ∀ v ∈ items, Printable v.text) :
    Printable (itemsText items) := by
  induction items with
  | nil => exact Printable.cons (by decide) printable_nil
  | cons v items ih =>
    rw [itemsText]
    exact Printable.cons (by decide) ((h v List.mem_cons_self).append
      (ih fun w hw => h w (List.mem_cons_of_mem v hw)))

theorem printable_memberText {m : Quoted × Json} (hname : m.1.Legible)
    (hv : Printable m.2.text) : Printable (memberText m) := by
  obtain ⟨name, v⟩ := m
  exact (Quoted.printable_text hname).append (Printable.cons (by decide) hv)

theorem printable_membersText {members : List (Quoted × Json)}
    (names : ∀ m ∈ members, m.1.Legible) (h : ∀ m ∈ members, Printable m.2.text) :
    Printable (membersText members) := by
  induction members with
  | nil => exact Printable.cons (by decide) printable_nil
  | cons m members ih =>
    rw [membersText]
    exact Printable.cons (by decide)
      ((printable_memberText (names m List.mem_cons_self) (h m List.mem_cons_self)).append
        (ih (fun m hm => names m (List.mem_cons_of_mem _ hm))
          fun m hm => h m (List.mem_cons_of_mem _ hm)))

/-- **No control character stands in a written value**, whatever its texts say. -/
theorem Legible.printable_text {v : Json} (h : v.Legible) : Printable v.text := by
  induction h with
  | null => decide
  | bool b => cases b <;> decide
  | @number n _ => exact printable_numeral n
  | string hq => exact Quoted.printable_text hq
  | @array items _ ih =>
    cases items with
    | nil => decide
    | cons v items =>
      exact Printable.cons (by decide) ((ih v List.mem_cons_self).append
        (printable_itemsText fun w hw => ih w (List.mem_cons_of_mem v hw)))
  | @object members names _ ih =>
    cases members with
    | nil => decide
    | cons m members =>
      exact Printable.cons (by decide)
        ((printable_memberText (names m List.mem_cons_self) (ih m List.mem_cons_self)).append
          (printable_membersText (fun m hm => names m (List.mem_cons_of_mem _ hm))
            fun m hm => ih m (List.mem_cons_of_mem _ hm)))

end TankArena.Json
