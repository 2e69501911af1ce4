import Mathlib.Data.List.Forall2
import TankArena.Proofs.Json.Fields
import TankArena.Proofs.Json.Grammar
import TankArena.Text.Blank

/-!
# Objects, whoever wrote them

A reader of objects asks for values by name and does not look at anything else.  To say what it
accepts, without saying how it looks for it, takes three notions.

* A text *writes* a list of members (`Writes`): it is an object of these members in this order,
  their names and values spelled in any way, with blanks anywhere between the tokens and white space
  around.
* A *schema* lists the fields that a type of things is written with, and for each the values that
  write it (`Schema`).
* Members *fit* a thing if they have each field of its schema once, with a value that writes what
  the thing has there (`Schema.Fits`).

The order of the members does not occur here, nor do members without a field: only the values under
the names of the fields count (`under`).
-/

namespace TankArena

namespace Json

/-! ## 1. Members by name -/

/-- The values of the members with a name. -/
def under (name : String) (ms : List (String × Json)) : List Json :=
  (ms.filter fun m => m.1 == name).map Prod.snd

/-- Quoted names that say the names of some members, with the values of these.  A quoted text that
says nothing, half of a pair alone, names no member. -/
def Named (members : List (Quoted × Json)) (ms : List (String × Json)) : Prop :=
  List.Forall₂ (fun m n => m.1.text? = some n.1 ∧ m.2 = n.2) members ms

theorem under_cons (name : String) (m : String × Json) (ms : List (String × Json)) :
    under name (m :: ms) = if m.1 = name then m.2 :: under name ms else under name ms := by
  unfold under
  rw [List.filter_cons]
  by_cases h : m.1 = name <;> simp [h]

theorem under_append (name : String) (ms ms' : List (String × Json)) :
    under name (ms ++ ms') = under name ms ++ under name ms' := by
  unfold under
  rw [List.filter_append, List.map_append]

theorem under_eq_nil_iff {name : String} {ms : List (String × Json)} :
    under name ms = [] ↔ name ∉ ms.map Prod.fst := by
  unfold under
  rw [List.map_eq_nil_iff, List.filter_eq_nil_iff]
  simp only [beq_iff_eq, List.mem_map, not_exists, not_and]

/-- Members in another order have the same values under each name, in another order. -/
theorem under_perm {ms ms' : List (String × Json)} (h : ms.Perm ms') (name : String) :
    (under name ms).Perm (under name ms') := (h.filter _).map _

/-- A single value, and no value, stay so in any order. -/
theorem eq_toList_of_perm {vs vs' : List Json} (h : vs.Perm vs') {v : Option Json}
    (hv : vs' = v.toList) : vs = v.toList := by
  subst hv
  cases v with
  | none => exact h.eq_nil
  | some v => exact List.perm_singleton.mp h

theorem mapM_eq_some_iff {α β : Type} {f : α → Option β} {as : List α} {bs : List β} :
    as.mapM f = some bs ↔ List.Forall₂ (fun a b => f a = some b) as bs := by
  induction as generalizing bs with
  | nil =>
    rw [List.mapM_nil, List.forall₂_nil_left_iff]
    exact ⟨fun h => (Option.some.inj h).symm, fun h => congrArg some h.symm⟩
  | cons a as ih =>
    rw [List.mapM_cons, List.forall₂_cons_left_iff]
    simp only [Option.bind_eq_bind, Option.bind_eq_some_iff, Option.pure_def, Option.some.injEq,
      ih, ← exists_and_left, @eq_comm _ bs]

/-- Things can be found for a whole list if one can be found for each element. -/
theorem exists_forall₂_iff {α β : Type} {P Q : α → β → Prop} {as : List α} :
    (∃ bs, List.Forall₂ P as bs ∧ List.Forall₂ Q as bs) ↔ ∀ a ∈ as, ∃ b, P a b ∧ Q a b := by
  induction as with
  | nil => simp
  | cons a as ih =>
    simp only [List.forall_mem_cons, ← ih, List.forall₂_cons_left_iff]
    constructor
    · rintro ⟨_, ⟨b, bs, hb, hbs, rfl⟩, b', bs', hb', hbs', heq⟩
      cases heq
      exact ⟨⟨b, hb, hb'⟩, bs, hbs, hbs'⟩
    · rintro ⟨⟨b, hb, hb'⟩, bs, hbs, hbs'⟩
      exact ⟨b :: bs, ⟨b, bs, hb, hbs, rfl⟩, b, bs, hb', hbs', rfl⟩

/-- All fields are there if none is absent. -/
theorem allFields?_eq_some_iff {names : List String} {v : Json} {vs : List Json} :
    v.allFields? names = some vs ↔ v.fields? names = some (vs.map some) := by
  have hall : ∀ values : List (Option Json), values.mapM id = some vs ↔ values = vs.map some := by
    intro values
    rw [mapM_eq_some_iff, ← List.forall₂_eq_eq_eq, List.forall₂_map_right_iff]
    rfl
  unfold allFields?
  simp only [Option.bind_eq_some_iff, hall, exists_eq_right]

namespace Named

variable {members : List (Quoted × Json)} {ms : List (String × Json)}

theorem filter (h : Named members ms) (name : String) :
    (members.filter fun m => m.1.text? == some name).map Prod.snd = under name ms := by
  induction h with
  | nil => rfl
  | @cons m n members ms hm _ ih =>
    obtain ⟨htext, hvalue⟩ := hm
    rw [List.filter_cons, under_cons, htext]
    by_cases hname : n.1 = name
    · simp [hname, ih, hvalue]
    · simp [hname, ih]

/-- Members can be named if each of their names says something. -/
theorem exists_iff : (∃ ms, Named members ms) ↔ ∀ m ∈ members, m.1.text?.isSome = true := by
  constructor
  · rintro ⟨ms, h⟩
    induction h with
    | nil => simp
    | cons hm _ ih => exact List.forall_mem_cons.mpr ⟨Option.isSome_of_eq_some hm.1, ih⟩
  · intro h
    induction members with
    | nil => exact ⟨[], .nil⟩
    | cons m members ih =>
      rw [List.forall_mem_cons] at h
      obtain ⟨name, hname⟩ := Option.isSome_iff_exists.mp h.1
      obtain ⟨ms, hms⟩ := ih h.2
      exact ⟨(name, m.2) :: ms, .cons ⟨hname, rfl⟩ hms⟩

/-- **A member is found** if it is the only one with its name. -/
theorem only?_eq_some_iff (h : Named members ms) {name : String} {v : Option Json} :
    only? members name = some v ↔ under name ms = v.toList := by
  unfold only?
  rw [← h.filter name]
  generalize members.filter (fun m => m.1.text? == some name) = found
  rcases found with _ | ⟨m, _ | ⟨m', more⟩⟩ <;> cases v <;> simp

/-- Fields are looked up in members all of whose names say something. -/
theorem exists_of_fields? {names : List String} {vs : List (Option Json)}
    (h : (object members).fields? names = some vs) : ∃ ms, Named members ms := by
  rw [fields?] at h
  split at h
  · rename_i hall
    exact exists_iff.mpr (List.all_eq_true.mp hall)
  · cases h

/-- **The fields of an object** are known if none of their names has two values. -/
theorem fields?_eq_some_iff (h : Named members ms) {names : List String}
    {vs : List (Option Json)} :
    (object members).fields? names = some vs
      ↔ List.Forall₂ (fun name v => under name ms = v.toList) names vs := by
  have hall : (members.all fun m => m.1.text?.isSome) = true := by
    rw [List.all_eq_true]
    exact exists_iff.mp ⟨ms, h⟩
  rw [fields?, if_pos hall, mapM_eq_some_iff]
  simp only [h.only?_eq_some_iff]

/-- **The fields of an object** are all there if each of their names has exactly one value. -/
theorem allFields?_eq_some_iff (h : Named members ms) {names : List String} {vs : List Json} :
    (object members).allFields? names = some vs
      ↔ List.Forall₂ (fun name v => under name ms = [v]) names vs := by
  rw [Json.allFields?_eq_some_iff, h.fields?_eq_some_iff, List.forall₂_map_right_iff]
  rfl

end Named

/-- Quoting a name says it. -/
theorem named_quoted (ms : List (String × Json)) : Named (quoted ms) ms := by
  unfold Named quoted
  rw [List.forall₂_map_left_iff, List.forall₂_same]
  exact fun m _ => ⟨Quoted.text?_ofString m.1, rfl⟩

/-- Quoting keeps members apart. -/
theorem ofMembers_injective {ms ms' : List (String × Json)} (h : ofMembers ms = ofMembers ms') :
    ms = ms' := by
  have hquoted : quoted ms = quoted ms' := Json.object.inj h
  refine List.map_injective_iff.mpr ?_ hquoted
  intro m m' heq
  obtain ⟨hname, hvalue⟩ := Prod.mk.inj heq
  have htext := congrArg Quoted.text? hname
  rw [Quoted.text?_ofString, Quoted.text?_ofString, Option.some.injEq] at htext
  exact Prod.ext htext hvalue

/-- An object can be built if the values of its members can be, one level further in. -/
theorem Named.buildable_iff {members : List (Quoted × Json)} {ms : List (String × Json)}
    (h : Named members ms) (depth : Nat) :
    (object members).buildable (depth + 1) = true ↔ ∀ m ∈ ms, m.2.buildable depth = true := by
  rw [buildable]
  induction h with
  | nil => simp
  | cons hm _ ih => simp [hm.1, hm.2, ih]

/-- The fields of an array are its items, if there are as many as names. -/
theorem allFields?_array {names : List String} {items vs : List Json} :
    (array items).allFields? names = some vs ↔ items.length = names.length ∧ items = vs := by
  rw [allFields?_eq_some_iff, Json.fields?]
  by_cases hle : items.length ≤ names.length
  · rw [if_pos hle, Option.some.injEq]
    constructor
    · intro h
      have hfull : names.length - items.length = 0 := by
        by_contra hne
        have hnone : none ∈ vs.map some :=
          h ▸ List.mem_append_right _ (List.mem_replicate.mpr ⟨hne, rfl⟩)
        simp at hnone
      rw [hfull, List.replicate_zero, List.append_nil] at h
      exact ⟨by omega, List.map_injective_iff.mpr (fun _ _ => Option.some.inj) h⟩
    · rintro ⟨hlength, rfl⟩
      rw [hlength, Nat.sub_self, List.replicate_zero, List.append_nil]
  · rw [if_neg hle]
    constructor
    · intro h
      cases h
    · rintro ⟨h, -⟩
      exact absurd h.le hle

/-! ## 2. Plain values -/

/-- The values that write a double. -/
def IsNumber (x : Float) (v : Json) : Prop := ∃ n : Numeral, v = .number n ∧ n.float? = some x

/-- The values that write a whole number: its digits alone. -/
def IsWord (k : Nat) (v : Json) : Prop :=
  ∃ ds, v = .number ⟨false, ds, [], none⟩ ∧ Digit.value ds = k

/-- The values that write a truth value. -/
def IsFlag (b : Bool) (v : Json) : Prop := v = .bool b

/-- The values that write a text. -/
def IsText (s : String) (v : Json) : Prop := ∃ q : Quoted, v = .string q ∧ q.text? = some s

/-- The values that name a choice: its name as a text, or as the only member of an object, with the
value `null`. -/
inductive IsName (name : String) : Json → Prop
  | text {q : Quoted} (h : q.text? = some name) : IsName name (.string q)
  | member {q : Quoted} (h : q.text? = some name) : IsName name (.object [(q, .null)])

theorem float?_eq_some_iff {v : Json} {x : Float} : v.float? = some x ↔ IsNumber x v := by
  unfold IsNumber
  cases v <;> simp [float?]

theorem bool?_eq_some_iff {v : Json} {b : Bool} : v.bool? = some b ↔ IsFlag b v := by
  unfold IsFlag
  cases v <;> simp [bool?]

theorem string?_eq_some_iff {v : Json} {s : String} : v.string? = some s ↔ IsText s v := by
  unfold IsText
  cases v <;> simp [string?]

theorem natBelow?_eq_some_iff {bound k : Nat} {v : Json} :
    v.natBelow? bound = some k ↔ IsWord k v ∧ k < bound := by
  unfold IsWord
  cases v with
  | number n =>
    obtain ⟨negative, whole, fraction, exponent⟩ := n
    cases negative <;> cases fraction <;> cases exponent <;>
      simp [natBelow?, Numeral.natural?, Option.filter_eq_some_iff]
  | _ => simp [natBelow?]

theorem uint32?_eq_some_iff {v : Json} {k : UInt32} : v.uint32? = some k ↔ IsWord k.toNat v := by
  unfold uint32?
  simp only [Option.map_eq_some_iff, natBelow?_eq_some_iff]
  constructor
  · rintro ⟨n, ⟨hn, hlt⟩, rfl⟩
    rwa [UInt32.toNat_ofNat_of_lt' hlt]
  · intro h
    exact ⟨k.toNat, ⟨h, k.toNat_lt⟩, UInt32.ofNat_toNat⟩

theorem uint8?_eq_some_iff {v : Json} {k : UInt8} : v.uint8? = some k ↔ IsWord k.toNat v := by
  unfold uint8?
  simp only [Option.map_eq_some_iff, natBelow?_eq_some_iff]
  constructor
  · rintro ⟨n, ⟨hn, hlt⟩, rfl⟩
    rwa [UInt8.toNat_ofNat_of_lt' hlt]
  · intro h
    exact ⟨k.toNat, ⟨h, k.toNat_lt⟩, UInt8.ofNat_toNat⟩

/-- A value names a choice if no other choice has its name. -/
theorem oneOf?_eq_some_iff {α : Type} {name : α → String} (hname : ∀ a b, name a = name b → a = b)
    {choices : List α} {a : α} (ha : a ∈ choices) {v : Json} :
    v.oneOf? name choices = some a ↔ IsName (name a) v := by
  have hfind : ∀ q : Quoted, (choices.find? fun b => q.text? == some (name b)) = some a ↔
      q.text? = some (name a) := by
    intro q
    constructor
    · intro h
      simpa using List.find?_some h
    · intro h
      cases hfound : choices.find? fun b => q.text? == some (name b) with
      | none => exact absurd h (by simpa using List.find?_eq_none.mp hfound a ha)
      | some b =>
        have hb := List.find?_some hfound
        rw [h, beq_iff_eq, Option.some.injEq] at hb
        rw [hname a b hb]
  constructor
  · intro h
    unfold oneOf? at h
    split at h
    · exact .text ((hfind _).mp h)
    · exact .member ((hfind _).mp h)
    · cases h
  · intro h
    cases h with
    | text h => exact (hfind _).mpr h
    | member h => exact (hfind _).mpr h

/-! ## 3. Schemas -/

/-- The fields that a type of things is written with: the name of each and, for every thing, the
values that write what the thing has there. -/
abbrev Schema (α : Type) := List (String × (α → Json → Prop))

namespace Schema

variable {α : Type}

/-- The names of the fields. -/
def names (S : Schema α) : List String := S.map Prod.fst

/-- Members that write a thing: each field occurs once, with a value that writes what the thing has
there. -/
def Fits (S : Schema α) (a : α) (ms : List (String × Json)) : Prop :=
  ∀ field ∈ S, ∃ v, under field.1 ms = [v] ∧ field.2 a v

/-- Members among which each field occurs once, with a value of its type. -/
def Complete (S : Schema α) (ms : List (String × Json)) : Prop :=
  ∀ field ∈ S, ∃ v, under field.1 ms = [v] ∧ ∃ a, field.2 a v

theorem Fits.complete {S : Schema α} {a : α} {ms : List (String × Json)} (h : S.Fits a ms) :
    S.Complete ms := by
  intro field hfield
  obtain ⟨v, hv, hwrites⟩ := h field hfield
  exact ⟨v, hv, a, hwrites⟩

/-- Whether a value is read as a thing, field by field. -/
def Reads (S : Schema α) (a : α) (v : Json) : Prop :=
  ∃ vs, v.allFields? S.names = some vs ∧ List.Forall₂ (fun field w => field.2 a w) S vs

/-- A reader that asks for the fields of a schema and makes a thing of their values. -/
theorem bind_allFields?_iff {S : Schema α} {make : List Json → Option α} {a : α}
    (h : ∀ vs, make vs = some a ↔ List.Forall₂ (fun field w => field.2 a w) S vs) {v : Json} :
    (v.allFields? S.names).bind make = some a ↔ S.Reads a v := by
  rw [Option.bind_eq_some_iff]
  exact exists_congr fun vs => and_congr_right fun _ => h vs

/-- Members whose fields are read have names that say something. -/
theorem Reads.exists_named {S : Schema α} {a : α} {members : List (Quoted × Json)}
    (h : S.Reads a (.object members)) : ∃ ms, Named members ms := by
  obtain ⟨vs, hvs, -⟩ := h
  exact Named.exists_of_fields? (allFields?_eq_some_iff.mp hvs)

/-- An object is read as a thing if its members fit the thing. -/
theorem reads_object_iff {S : Schema α} {a : α} {members : List (Quoted × Json)}
    {ms : List (String × Json)} (h : Named members ms) :
    S.Reads a (.object members) ↔ S.Fits a ms := by
  unfold Reads Fits names
  simp only [h.allFields?_eq_some_iff, List.forall₂_map_left_iff]
  exact exists_forall₂_iff

/-- An array is read as a thing if its items are the fields in their order. -/
theorem reads_array_iff {S : Schema α} {a : α} {items : List Json} :
    S.Reads a (.array items) ↔ List.Forall₂ (fun field v => field.2 a v) S items := by
  unfold Reads
  simp only [allFields?_array]
  constructor
  · rintro ⟨_, ⟨-, rfl⟩, h⟩
    exact h
  · intro h
    refine ⟨items, ⟨?_, rfl⟩, h⟩
    rw [names, List.length_map, h.length_eq]

/-- The values that write a thing: an object whose members fit it, or the array of its fields. -/
inductive Written (S : Schema α) (a : α) : Json → Prop
  | object {members : List (Quoted × Json)} {ms : List (String × Json)} (names : Named members ms)
      (fields : S.Fits a ms) : S.Written a (.object members)
  | array {items : List Json} (fields : List.Forall₂ (fun field v => field.2 a v) S items) :
      S.Written a (.array items)

theorem reads_iff_written {S : Schema α} {a : α} {v : Json} : S.Reads a v ↔ S.Written a v := by
  constructor
  · intro h
    cases v with
    | object members =>
      obtain ⟨ms, hms⟩ := h.exists_named
      exact .object hms ((reads_object_iff hms).mp h)
    | array items => exact .array (reads_array_iff.mp h)
    | _ =>
      obtain ⟨vs, hvs, -⟩ := h
      cases hvs
  · intro h
    cases h with
    | object hms hfits => exact (reads_object_iff hms).mpr hfits
    | array hitems => exact reads_array_iff.mpr hitems

/-- A field that fits is there. -/
theorem Fits.mem_names {S : Schema α} {a : α} {ms : List (String × Json)} (h : S.Fits a ms)
    {name : String} (hname : name ∈ S.names) : name ∈ ms.map Prod.fst := by
  obtain ⟨field, hfield, rfl⟩ := List.mem_map.mp hname
  obtain ⟨v, hv, -⟩ := h field hfield
  by_contra habsent
  rw [under_eq_nil_iff.mpr habsent] at hv
  cases hv

/-- Only what is under the names of the fields counts. -/
theorem Fits.congr {S : Schema α} {a : α} {ms ms' : List (String × Json)} (h : S.Fits a ms)
    (hsame : ∀ name ∈ S.names, under name ms' = under name ms) : S.Fits a ms' := by
  intro field hfield
  rw [hsame field.1 (List.mem_map_of_mem hfield)]
  exact h field hfield

/-- Members in another order, with others among them, fit the same things. -/
theorem Fits.of_perm {S : Schema α} {a : α} {own extra ms : List (String × Json)} (h : S.Fits a own)
    (hperm : ms.Perm (own ++ extra)) (hextra : ∀ m ∈ extra, m.1 ∉ S.names) : S.Fits a ms := by
  intro field hfield
  obtain ⟨v, hv, hwrites⟩ := h field hfield
  have hnone : under field.1 extra = [] := by
    rw [under_eq_nil_iff]
    intro hmem
    obtain ⟨m, hm, hname⟩ := List.mem_map.mp hmem
    exact hextra m hm (hname ▸ List.mem_map_of_mem hfield)
  have hunder := under_perm hperm field.1
  rw [under_append, hv, hnone, List.append_nil, List.perm_singleton] at hunder
  exact ⟨v, hunder, hwrites⟩

end Schema

/-! ## 4. Texts that write objects -/

end Json

namespace Text

/-- A text without the white space at its end. -/
def trimEnd (cs : List Char) : List Char := (cs.reverse.dropWhile isBlank).reverse

theorem trimEnd_eq_nil {cs : List Char} (h : ∀ c ∈ cs, isBlank c = true) : trimEnd cs = [] := by
  have hnone : cs.reverse.dropWhile isBlank = [] :=
    List.dropWhile_eq_nil_iff.mpr fun c hc => h c (List.mem_reverse.mp hc)
  rw [trimEnd, hnone, List.reverse_nil]

theorem mem_trimEnd {cs : List Char} {c : Char} (hc : c ∈ cs) (hblank : isBlank c = false) :
    c ∈ trimEnd cs := by
  rw [← List.mem_reverse, ← List.takeWhile_append_dropWhile (p := isBlank) (l := cs.reverse)] at hc
  rcases List.mem_append.mp hc with hc | hc
  · rw [List.mem_takeWhile_imp hc] at hblank
    cases hblank
  · exact List.mem_reverse.mpr hc

/-- What stands in braces is not trimmed. -/
theorem trimChars_braces {before inner after : List Char}
    (hbefore : ∀ c ∈ before, isBlank c = true) :
    trimChars (before ++ '\x7b' :: (inner ++ '\x7d' :: after))
      = '\x7b' :: (inner ++ ['\x7d']) ++ trimEnd after := by
  have hopen : isBlank '\x7b' = false := by decide
  have hclose : isBlank '\x7d' = false := by decide
  unfold trimChars trimEnd
  rw [List.dropWhile_append_of_pos hbefore, List.dropWhile_cons, hopen]
  have hend : (after.reverse ++ '\x7d' :: (inner.reverse ++ ['\x7b'])).dropWhile isBlank
      = after.reverse.dropWhile isBlank ++ '\x7d' :: (inner.reverse ++ ['\x7b']) := by
    rw [List.dropWhile_append, List.dropWhile_cons, hclose]
    split
    · rename_i hnone
      rw [List.isEmpty_iff.mp hnone]
      rfl
    · rfl
  simp [hend]

/-- What is trimmed is white space. -/
theorem exists_trimChars (cs : List Char) :
    ∃ before after, (∀ c ∈ before ++ after, isBlank c = true) ∧
      cs = before ++ (trimChars cs ++ after) := by
  have hstart := List.takeWhile_append_dropWhile (p := isBlank) (l := cs)
  have hend := List.takeWhile_append_dropWhile (p := isBlank) (l := (cs.dropWhile isBlank).reverse)
  refine ⟨cs.takeWhile isBlank, ((cs.dropWhile isBlank).reverse.takeWhile isBlank).reverse, ?_, ?_⟩
  · intro c hc
    rcases List.mem_append.mp hc with hc | hc
    · exact List.mem_takeWhile_imp hc
    · exact List.mem_takeWhile_imp (List.mem_reverse.mp hc)
  · unfold trimChars
    rw [← List.reverse_append, hend, List.reverse_reverse, hstart]

end Text

namespace Json

theorem isBlank_of_isBlank {c : Char} (h : isBlank c = true) : Text.isBlank c = true := by
  simp only [isBlank, Bool.or_eq_true, beq_iff_eq] at h
  rcases h with ((rfl | rfl) | rfl) | rfl <;> decide

/-- **A text that writes some members**: an object of them, with white space around it. -/
def Writes (s : String) (ms : List (String × Json)) : Prop :=
  ∃ members before cs after, Named members ms ∧ Spelled (object members).tokens cs ∧
    (∀ c ∈ before ++ after, Text.isBlank c = true) ∧ s.toList = before ++ (cs ++ after)

/-- Where the braces of the object stand in a text that writes members. -/
theorem Writes.exists_braces {s : String} {ms : List (String × Json)} (h : Writes s ms) :
    ∃ members before inner after, Named members ms ∧
      Spelled (object members).tokens ('\x7b' :: (inner ++ ['\x7d'])) ∧
      (∀ c ∈ before, Text.isBlank c = true) ∧ (∀ c ∈ after, Text.isBlank c = true) ∧
      s.toList = before ++ '\x7b' :: (inner ++ '\x7d' :: after) := by
  obtain ⟨members, before, cs, after, hnamed, hspelled, hblanks, hs⟩ := h
  obtain ⟨ts, hts⟩ := exists_tokens_object members
  obtain ⟨hbefore, hafter⟩ := List.forall_mem_append.mp hblanks
  rw [hts] at hspelled
  cases hspelled with
  | @cons blanks hblanks' t rest ht ts hrest =>
    obtain ⟨inner, blanks', hblanks'', rfl, hinner⟩ := hrest.of_close
    refine ⟨members, before ++ blanks, inner, blanks' ++ after, hnamed, ?_, ?_, ?_, ?_⟩
    · rw [hts]
      exact Spelled.head (t := .openObject) trivial hinner
    · exact List.forall_mem_append.mpr
        ⟨hbefore, fun c hc => isBlank_of_isBlank (hblanks' c hc)⟩
    · exact List.forall_mem_append.mpr
        ⟨fun c hc => isBlank_of_isBlank (hblanks'' c hc), hafter⟩
    · simp [hs, Token.text]

/-- **A text that writes members is read as an object of them.** -/
theorem Writes.ofChars? {s : String} {ms : List (String × Json)} (h : Writes s ms) :
    ∃ members, Named members ms ∧ Json.ofChars? (Text.trimChars s.toList) = some (object members) ∧
      (Text.trimChars s.toList).head? = some '\x7b' := by
  obtain ⟨members, before, inner, after, hnamed, hspelled, hbefore, hafter, hs⟩ := h.exists_braces
  refine ⟨members, hnamed, ?_⟩
  rw [hs, Text.trimChars_braces hbefore, Text.trimEnd_eq_nil hafter, List.append_nil]
  exact ⟨ofChars?_of_spelled hspelled, rfl⟩

/-- **Nothing is read if more than white space follows the object.** -/
theorem Writes.ofChars?_append {s : String} {ms : List (String × Json)} (h : Writes s ms)
    {more : String} (hmore : ∃ c ∈ more.toList, Text.isBlank c = false) :
    Json.ofChars? (Text.trimChars (s ++ more).toList) = none := by
  obtain ⟨members, before, inner, after, -, hspelled, hbefore, hafter, hs⟩ := h.exists_braces
  obtain ⟨c, hc, hblank⟩ := hmore
  have hall : (s ++ more).toList
      = before ++ '\x7b' :: (inner ++ '\x7d' :: (after ++ more.toList)) := by simp [hs]
  rw [hall, Text.trimChars_braces hbefore]
  refine ofChars?_append_eq_none hspelled ⟨c, ?_, ?_⟩
  · exact Text.mem_trimEnd (List.mem_append_right after hc) hblank
  · exact Bool.eq_false_iff.mpr fun h => by simp [isBlank_of_isBlank h] at hblank

/-- **What is read from a text that starts with a brace is an object**, and the text writes its
members. -/
theorem exists_object_of_ofChars? {s : String} {v : Json}
    (hhead : (Text.trimChars s.toList).head? = some '\x7b')
    (h : Json.ofChars? (Text.trimChars s.toList) = some v) :
    ∃ members, v = object members ∧ ∀ ms, Named members ms → Writes s ms := by
  have hspelled := ofChars?_eq_some_iff.mp h
  obtain ⟨before, after, hblanks, hs⟩ := Text.exists_trimChars s.toList
  generalize Text.trimChars s.toList = cs at hhead hspelled hs
  obtain ⟨members, rfl⟩ := hspelled.exists_object hhead
  exact ⟨members, rfl, fun ms hms => ⟨members, before, cs, after, hms, hspelled, hblanks, hs⟩⟩

/-- A written object writes its members. -/
theorem writes_render {ms : List (String × Json)} (h : ∀ m ∈ ms, m.2.Legible) :
    Writes (ofMembers ms).render ms := by
  have hspelled : Spelled (ofMembers ms).tokens (ofMembers ms).text :=
    ofChars?_eq_some_iff.mp (legible_ofMembers h).ofChars?_text
  exact ⟨quoted ms, [], _, [], named_quoted ms, hspelled, by simp, by simp [render]⟩

end Json

end TankArena
