import TankArena.Proofs.Json.Text

/-!
# The texts that write a value

`Spelled v.tokens cs` says, without a word about reading, that a text writes a value: the tokens of
the value in their order, each a token of the grammar, with blanks anywhere between them.  That such
a text is read as the value is shown where values are read.  Here is the converse, so the two are
the same (`ofChars?_eq_some_iff`).  It goes in the same two stages.

* What is cut off the front of a text as a token was written as that token (`Token.eq_of_scan?`).
  Cutting alone does not know where a number ends: `01` is cut into two numbers.  It is the machine
  that refuses the second one, so a text is shown to spell its tokens for tokens that the machine
  takes (`Token.spelled_of_scanAll`).
* The machine drops nothing: every state determines the tokens that led to it
  (`Building.spent_run`), and a finished value the tokens that it was built from.

So nothing can be added to an object that is complete (`ofChars?_append_eq_none`).
-/

namespace TankArena.Json

/-! ## 1. Tokens are read as they were written -/

namespace Token

/-- Whether a token is of the grammar. -/
def Legible : Token → Prop
  | number n => n.Proper
  | quoted q => q.Legible
  | _ => True

theorem eq_of_afterWord? {s : String} {cs rest : List Char} (h : afterWord? s cs = some rest) :
    cs = word s ++ rest := by
  unfold afterWord? at h
  split at h
  · rename_i hword
    obtain ⟨more, rfl⟩ := List.isPrefixOf_iff_prefix.mp hword
    rw [List.drop_left] at h
    rw [Option.some.inj h]
  · cases h

/-- **What is cut off a text is what was written there.** -/
theorem eq_of_scan? {cs rest : List Char} {t : Token} (h : scan? cs = some (t, rest)) :
    t.Legible ∧ cs = t.text ++ rest := by
  rcases cs with _ | ⟨c, cs⟩
  · cases h
  unfold scan? at h
  dsimp only at h
  split_ifs at h with h₁ h₂ h₃ h₄ h₅ h₆ hquote
  -- Brackets and marks are what they look like.
  all_goals try (cases h; subst c; exact ⟨trivial, rfl⟩)
  · obtain ⟨⟨q, rest'⟩, hscan, heq⟩ := Option.map_eq_some_iff.mp h
    cases heq
    obtain ⟨ps, hpieces, hlegible, rfl⟩ := Quoted.eq_of_scanPieces hscan
    rw [List.reverse_nil, List.nil_append] at hpieces
    subst hpieces hquote
    exact ⟨hlegible, by simp [text, Quoted.text]⟩
  · obtain ⟨rest', hword, heq⟩ := Option.map_eq_some_iff.mp h
    cases heq
    exact ⟨trivial, eq_of_afterWord? hword⟩
  · obtain ⟨rest', hword, heq⟩ := Option.map_eq_some_iff.mp h
    cases heq
    exact ⟨trivial, eq_of_afterWord? hword⟩
  · obtain ⟨rest', hword, heq⟩ := Option.map_eq_some_iff.mp h
    cases heq
    exact ⟨trivial, eq_of_afterWord? hword⟩
  · obtain ⟨⟨n, rest'⟩, hscan, heq⟩ := Option.map_eq_some_iff.mp h
    cases heq
    exact Numeral.eq_of_scan? hscan

/-- A token of the grammar stands before everything, a number before what cannot belong to it. -/
theorem standsBefore_iff {t : Token} {rest : List Char} :
    t.StandsBefore rest ↔ t.Legible ∧ ∀ n, t = number n → Numeral.Ends rest := by
  cases t <;> simp [StandsBefore, Legible]

/-- Only the next character matters to a token. -/
theorem StandsBefore.congr {t : Token} {rest rest' : List Char} (h : t.StandsBefore rest)
    (hhead : rest'.head? = rest.head?) : t.StandsBefore rest' := by
  obtain ⟨hlegible, hends⟩ := standsBefore_iff.mp h
  refine standsBefore_iff.mpr ⟨hlegible, fun n hn => ?_⟩
  unfold Numeral.Ends
  rw [hhead]
  exact hends n hn

end Token

/-! ## 2. Values are built from their own tokens -/

/-- The tokens of an array that is still open, up to the comma after the last of some items; the
items are in reverse. -/
def openItems : List Json → List Token
  | [] => [.openArray]
  | v :: items => openItems items ++ (v.tokens ++ [.comma])

/-- The tokens of an object that is still open, up to the comma after the last of some members; the
members are in reverse. -/
def openMembers : List (Quoted × Json) → List Token
  | [] => [.openObject]
  | m :: members => openMembers members ++ (memberTokens m ++ [.comma])

theorem openItems_append (before : List Json) (v : Json) (more : List Json) :
    openItems before ++ (v.tokens ++ itemsTokens more)
      = (array (before.reverse ++ v :: more)).tokens := by
  induction before generalizing v more with
  | nil => rw [List.reverse_nil, List.nil_append, tokens, openItems, List.singleton_append]
  | cons w before ih =>
    have hw := ih w (v :: more)
    rw [itemsTokens] at hw
    rw [openItems, List.reverse_cons]
    simpa using hw

theorem openMembers_append (before : List (Quoted × Json)) (m : Quoted × Json)
    (more : List (Quoted × Json)) :
    openMembers before ++ (memberTokens m ++ membersTokens more)
      = (object (before.reverse ++ m :: more)).tokens := by
  induction before generalizing m more with
  | nil => rw [List.reverse_nil, List.nil_append, tokens, openMembers, List.singleton_append]
  | cons w before ih =>
    have hw := ih w (m :: more)
    rw [membersTokens] at hw
    rw [openMembers, List.reverse_cons]
    simpa using hw

namespace Building

/-- The tokens of an open container, up to where its next value has to come. -/
def levelTokens : Level → List Token
  | .array items => openItems items
  | .object members name => openMembers members ++ [.quoted name, .colon]

/-- The tokens of all open containers. -/
def outerTokens : List Level → List Token
  | [] => []
  | level :: outer => outerTokens outer ++ levelTokens level

/-- The tokens that lead to a state. -/
def spent : Building → List Token
  | value outer => outerTokens outer
  | firstItem outer => outerTokens outer ++ [.openArray]
  | firstName outer => outerTokens outer ++ [.openObject]
  | nextName members outer => outerTokens outer ++ openMembers members
  | colon members name outer => outerTokens outer ++ (openMembers members ++ [.quoted name])
  | done v outer => outerTokens outer ++ v.tokens

theorem spent_start {outer : List Level} {t : Token} {b : Building}
    (h : start outer t = some b) : b.spent = outerTokens outer ++ [t] := by
  cases t <;> cases h <;> rfl

theorem spent_after {v : Json} {outer : List Level} {t : Token} {b : Building}
    (h : after v outer t = some b) : b.spent = outerTokens outer ++ (v.tokens ++ [t]) := by
  unfold after at h
  split at h <;> cases h
  · simp [spent, outerTokens, levelTokens, openItems]
  · rename_i items outer
    have hclose := openItems_append items v []
    simp [spent, outerTokens, levelTokens, ← hclose, itemsTokens]
  · simp [spent, outerTokens, levelTokens, openMembers, memberTokens]
  · rename_i members name outer
    have hclose := openMembers_append members (name, v) []
    simp [spent, outerTokens, levelTokens, ← hclose, membersTokens, memberTokens]

/-- **One step spends one token.** -/
theorem spent_step {b b' : Building} {t : Token} (h : b.step t = some b') :
    b'.spent = b.spent ++ [t] := by
  cases b with
  | value outer => exact spent_start h
  | firstItem outer =>
    by_cases hclose : t = .closeArray
    · subst hclose
      cases h
      simp [spent, tokens]
    · have hstart : start (.array [] :: outer) t = some b' := by
        cases t <;> first | exact h | exact absurd rfl hclose
      exact spent_start hstart
  | firstName outer =>
    cases t <;> cases h
    · simp [spent, tokens]
    · simp [spent, openMembers]
  | nextName members outer =>
    cases t <;> cases h
    simp [spent]
  | colon members name outer =>
    cases t <;> cases h
    simp [spent, outerTokens, levelTokens]
  | done v outer =>
    have hafter := spent_after h
    rw [hafter, spent, List.append_assoc]

/-- **No token is dropped.** -/
theorem spent_run {b b' : Building} {ts : List Token} (h : b.run ts = some b') :
    b'.spent = b.spent ++ ts := by
  induction ts generalizing b with
  | nil =>
    cases h
    rw [List.append_nil]
  | cons t ts ih =>
    cases hstep : b.step t with
    | none =>
      rw [run, List.foldlM_cons, hstep] at h
      cases h
    | some next =>
      rw [run_cons hstep] at h
      rw [ih h, spent_step hstep, List.append_assoc, List.singleton_append]

/-- A number is a complete value. -/
theorem step_number {b b' : Building} {n : Numeral} (h : b.step (.number n) = some b') :
    ∃ outer, b' = done (.number n) outer := by
  cases b with
  | value outer => exact ⟨outer, (Option.some.inj h).symm⟩
  | firstItem outer => exact ⟨_, (Option.some.inj h).symm⟩
  | firstName outer => cases h
  | nextName members outer => cases h
  | colon members name outer => cases h
  | done v outer =>
    have hnone : after v outer (.number n) = none := by
      unfold after
      split <;> simp_all
    have hsome : after v outer (.number n) = some b' := h
    rw [hnone] at hsome
    cases hsome

/-- After a complete value comes a comma, a closing bracket or nothing. -/
theorem head_of_run_done {v w : Json} {outer : List Level} {ts : List Token}
    (h : (done v outer).run ts = some (done w [])) :
    ∀ t ∈ ts.head?, t = .comma ∨ t = .closeArray ∨ t = .closeObject := by
  intro t ht
  obtain ⟨ts, rfl⟩ := List.head?_eq_some_iff.mp ht
  cases hstep : after v outer t with
  | none =>
    have hnone : (done v outer).step t = none := hstep
    rw [run, List.foldlM_cons, hnone] at h
    cases h
  | some next =>
    unfold after at hstep
    split at hstep <;> simp_all

end Building

theorem run_eq_of_ofTokens? {ts : List Token} {v : Json} (h : ofTokens? ts = some v) :
    (Building.value []).run ts = some (.done v []) := by
  unfold ofTokens? at h
  split at h
  · rename_i w hrun
    rw [← Option.some.inj h]
    exact hrun
  · cases h

/-- **A value is made of its own tokens.** -/
theorem tokens_eq_of_ofTokens? {ts : List Token} {v : Json} (h : ofTokens? ts = some v) :
    v.tokens = ts := Building.spent_run (run_eq_of_ofTokens? h)

/-! ## 3. Texts that are read -/

/-- What follows a number is no part of it if it spells something that may follow a value. -/
theorem Spelled.ends {ts : List Token} {cs : List Char} (h : Spelled ts cs)
    (hts : ∀ t ∈ ts.head?, t = .comma ∨ t = .closeArray ∨ t = .closeObject) :
    Numeral.Ends cs := by
  have hblank : ∀ c, isBlank c = true → c.isDigit = false ∧ c ≠ '.' ∧ c ≠ 'e' ∧ c ≠ 'E' := by
    intro c hc
    simp only [isBlank, Bool.or_eq_true, beq_iff_eq] at hc
    rcases hc with ((rfl | rfl) | rfl) | rfl <;> decide
  cases h with
  | nil hblanks =>
    intro c hc
    exact hblank c (hblanks c (List.mem_of_mem_head? hc))
  | @cons blanks hblanks t rest _ ts _ =>
    rcases blanks with _ | ⟨c, blanks⟩
    · rcases hts t rfl with rfl | rfl | rfl <;> exact Numeral.ends_cons (by decide)
    · exact Numeral.ends_cons (hblank c (hblanks c List.mem_cons_self))

namespace Token

/-- The tokens that a text is cut into are spelled by it, if they make a value. -/
theorem spelled_of_scanAll {fuel : Nat} {cs : List Char} {out us : List Token}
    (h : scanAll fuel cs out = some us) :
    ∃ ts, us = out.reverse ++ ts ∧
      ∀ (b : Building) (v : Json), b.run ts = some (.done v []) → Spelled ts cs := by
  induction fuel generalizing cs out with
  | zero => cases h
  | succ fuel ih =>
    have hsplit := List.takeWhile_append_dropWhile (p := isBlank) (l := cs)
    have hblanks : ∀ c ∈ cs.takeWhile isBlank, isBlank c = true :=
      fun c hc => List.mem_takeWhile_imp hc
    unfold scanAll at h
    split at h
    · rename_i hnone
      refine ⟨[], by rw [← Option.some.inj h, List.append_nil], fun b v _ => ?_⟩
      rw [← hsplit, hnone, List.append_nil]
      exact .nil hblanks
    · split at h
      · cases h
      · rename_i t rest hscan
        obtain ⟨hlegible, hcs⟩ := eq_of_scan? hscan
        obtain ⟨ts, rfl, hts⟩ := ih h
        refine ⟨t :: ts, by simp, fun b v hrun => ?_⟩
        cases hstep : b.step t with
        | none =>
          rw [Building.run, List.foldlM_cons, hstep] at hrun
          cases hrun
        | some next =>
          rw [Building.run_cons hstep] at hrun
          have hrest := hts next v hrun
          rw [← hsplit, hcs]
          refine .cons hblanks (standsBefore_iff.mpr ⟨hlegible, ?_⟩) hrest
          -- After a number the machine holds a complete value.
          rintro n rfl
          obtain ⟨outer, rfl⟩ := Building.step_number hstep
          exact hrest.ends (Building.head_of_run_done hrun)

end Token

/-- **A text is read as a value exactly if it writes the value.** -/
theorem ofChars?_eq_some_iff {cs : List Char} {v : Json} :
    ofChars? cs = some v ↔ Spelled v.tokens cs := by
  refine ⟨fun h => ?_, ofChars?_of_spelled⟩
  obtain ⟨ts, hts, hv⟩ := Option.bind_eq_some_iff.mp h
  obtain ⟨ts', hts', hspelled⟩ := Token.spelled_of_scanAll hts
  obtain rfl : ts = ts' := hts'
  rw [tokens_eq_of_ofTokens? hv]
  exact hspelled _ _ (run_eq_of_ofTokens? hv)

/-! ## 4. Objects are complete -/

namespace Spelled

theorem ne_nil {t : Token} {ts : List Token} {cs : List Char} (h : Spelled (t :: ts) cs) :
    cs ≠ [] := by
  cases h with
  | cons _ ht _ => simp [Token.text_ne_nil ht]

/-- **A text starts with one token only**, whatever it spells. -/
theorem of_cons {blanks rest : List Char} (hblanks : ∀ c ∈ blanks, isBlank c = true) {t : Token}
    (ht : t.StandsBefore rest) {us : List Token} (h : Spelled us (blanks ++ (t.text ++ rest))) :
    ∃ us', us = t :: us' ∧ Spelled us' rest := by
  have hdrop := Token.dropWhile_text hblanks ht
  generalize blanks ++ (t.text ++ rest) = cs at h hdrop
  cases h with
  | nil hall =>
    have hnone : cs.dropWhile isBlank = [] := List.dropWhile_eq_nil_iff.mpr hall
    rw [hnone] at hdrop
    exact absurd hdrop.symm (by simp [Token.text_ne_nil ht])
  | @cons blanks' hblanks' t' rest' ht' us' hus' =>
    have hscan := Token.scan?_text ht'
    rw [← Token.dropWhile_text hblanks' ht', hdrop, Token.scan?_text ht] at hscan
    cases hscan
    exact ⟨us', rfl, hus'⟩

/-- A text that starts with a brace opens an object. -/
theorem exists_object {v : Json} {cs : List Char} (h : Spelled v.tokens cs)
    (hhead : cs.head? = some '\x7b') : ∃ members, v = object members := by
  obtain ⟨t, ts, htokens, -⟩ := Building.tokens_eq_cons v
  rw [htokens] at h
  have ht : t = .openObject := by
    cases h with
    | @cons blanks hblanks t rest ht ts hts =>
      obtain ⟨more, hmore⟩ := List.head?_eq_some_iff.mp hhead
      have hdrop := Token.dropWhile_text hblanks ht
      have hscan := Token.scan?_text ht
      rw [hmore] at hdrop
      rw [← hdrop] at hscan
      exact (congrArg Prod.fst (Option.some.inj hscan)).symm
  subst ht
  cases v with
  | object members => exact ⟨members, rfl⟩
  | array items => cases items <;> cases htokens
  | _ => cases htokens

/-- A text that goes on after a closing brace spells the tokens up to the brace and further ones. -/
theorem of_append {ts us : List Token} {cs extra : List Char}
    (h : Spelled (ts ++ [.closeObject]) cs) (hus : Spelled us (cs ++ extra)) :
    ∃ more blanks, us = ts ++ [.closeObject] ++ more ∧ Spelled more (blanks ++ extra) := by
  induction ts generalizing us cs with
  | nil =>
    cases h with
    | @cons blanks hblanks t rest ht ts hts =>
      rw [List.append_assoc, List.append_assoc] at hus
      obtain ⟨more, rfl, hmore⟩ := of_cons (t := .closeObject) hblanks trivial hus
      exact ⟨more, rest, rfl, hmore⟩
  | cons t ts ih =>
    cases h with
    | @cons blanks hblanks t rest ht ts' hts =>
      have hrest : rest ≠ [] := by
        rcases ts with _ | ⟨u, ts⟩ <;> exact hts.ne_nil
      obtain ⟨c, rest, rfl⟩ := List.exists_cons_of_ne_nil hrest
      have ht' : t.StandsBefore (c :: rest ++ extra) := ht.congr rfl
      rw [List.append_assoc, List.append_assoc] at hus
      obtain ⟨us, rfl, hus'⟩ := of_cons hblanks ht' hus
      obtain ⟨more, blanks, rfl, hmore⟩ := ih hts hus'
      exact ⟨more, blanks, rfl, hmore⟩

/-- The blanks after a closing brace do not matter. -/
theorem of_close {ts : List Token} {cs : List Char} (h : Spelled (ts ++ [.closeObject]) cs) :
    ∃ inner blanks, (∀ c ∈ blanks, isBlank c = true) ∧ cs = inner ++ '\x7d' :: blanks ∧
      Spelled (ts ++ [.closeObject]) (inner ++ ['\x7d']) := by
  induction ts generalizing cs with
  | nil =>
    cases h with
    | @cons blanks hblanks t rest ht ts hts =>
      cases hts with
      | nil hrest =>
        exact ⟨blanks, rest, hrest, rfl, .cons (t := .closeObject) hblanks trivial
          (.nil fun _ hc => by cases hc)⟩
  | cons t ts ih =>
    cases h with
    | @cons blanks hblanks t rest ht ts' hts =>
      obtain ⟨inner, after, hafter, rfl, hinner⟩ := ih hts
      have ht' : t.StandsBefore (inner ++ ['\x7d']) := ht.congr (by cases inner <;> rfl)
      refine ⟨blanks ++ (t.text ++ inner), after, hafter, by simp, ?_⟩
      have hcons := Spelled.cons hblanks ht' hinner
      simpa using hcons

end Spelled

/-- The last token of an object is its closing brace. -/
theorem exists_tokens_object (members : List (Quoted × Json)) :
    ∃ ts, (object members).tokens = .openObject :: (ts ++ [.closeObject]) := by
  have hmore : ∀ members, ∃ ts, membersTokens members = ts ++ [.closeObject] := by
    intro members
    induction members with
    | nil => exact ⟨[], rfl⟩
    | cons m members ih =>
      obtain ⟨ts, hts⟩ := ih
      exact ⟨.comma :: (memberTokens m ++ ts), by simp [membersTokens, hts]⟩
  cases members with
  | nil => exact ⟨[], rfl⟩
  | cons m members =>
    obtain ⟨ts, hts⟩ := hmore members
    exact ⟨memberTokens m ++ ts, by simp [tokens, hts]⟩

/-- **Nothing but blanks can follow an object.** -/
theorem ofChars?_append_eq_none {members : List (Quoted × Json)} {cs extra : List Char}
    (h : Spelled (object members).tokens cs) (hextra : ∃ c ∈ extra, isBlank c = false) :
    ofChars? (cs ++ extra) = none := by
  obtain ⟨ts, hts⟩ := exists_tokens_object members
  rw [Option.eq_none_iff_forall_ne_some]
  intro v hv
  have hspelled := ofChars?_eq_some_iff.mp hv
  rw [hts, ← List.cons_append] at h
  obtain ⟨more, blanks, htokens, hmore⟩ := h.of_append hspelled
  rw [List.cons_append, ← hts] at htokens
  -- The machine has a complete value once the brace is closed.
  have hrun := run_eq_of_ofTokens? (ofTokens?_tokens v)
  rw [htokens, Building.builds] at hrun
  have hnone : more = [] := by
    rcases more with _ | ⟨t, more⟩
    · rfl
    · cases hrun
  subst hnone
  cases hmore with
  | nil hall =>
    obtain ⟨c, hc, hblank⟩ := hextra
    rw [hall c (List.mem_append_right _ hc)] at hblank
    cases hblank

end TankArena.Json
