import TankArena.Proofs.Json.Members

/-!
# Objects whose fields may be absent

A reader of settings asks for fields by name as other readers do, but it goes on without those that
are not there.  What it accepts is said in the same terms as for objects all of whose fields have to
be there, with one more choice for each field.

* A *form* lists the fields that may be given of a type of things, and for each what may stand
  there, `none` for a field that is left out (`Form`).
* Members *fill in* the form of a thing if each field occurs once or not at all, and says what the
  thing has there (`Form.Fills`).

Items without names fill in a form too, as values of its first fields: an array is read as the
object with these fields is (`fields?_array_eq`).

The texts of this file are whole documents: an object or an array with nothing around it but the
blanks of JSON (`ObjectText`, `ArrayText`).
-/

namespace TankArena.Json

/-! ## 1. Forms -/

/-- The fields that may be given of a type of things: the name of each and, for every thing, what
may stand there, `none` if the field is left out. -/
abbrev Form (α : Type) := List (String × (α → Option Json → Prop))

/-- What may stand in a field that has a standard: a value that writes what the thing has, or
nothing if the thing has the standard. -/
def OrStandard {β : Type} (standard : β) (writes : β → Json → Prop) (b : β) : Option Json → Prop
  | none => b = standard
  | some v => writes b v

namespace Form

variable {α : Type}

/-- The names of the fields. -/
def names (F : Form α) : List String := F.map Prod.fst

/-- Members that fill in the form of a thing: each field occurs once, with a value that writes what
the thing has there, or is left out as it may be for this thing. -/
def Fills (F : Form α) (a : α) (ms : List (String × Json)) : Prop :=
  ∀ field ∈ F, ∃ v : Option Json, under field.1 ms = v.toList ∧ field.2 a v

/-- Members among which no field occurs twice, and each that occurs has a value of its type. -/
def Readable (F : Form α) (ms : List (String × Json)) : Prop :=
  ∀ field ∈ F, ∃ v : Option Json, under field.1 ms = v.toList ∧ ∃ a, field.2 a v

theorem Fills.readable {F : Form α} {a : α} {ms : List (String × Json)} (h : F.Fills a ms) :
    F.Readable ms := by
  intro field hfield
  obtain ⟨v, hv, hwrites⟩ := h field hfield
  exact ⟨v, hv, a, hwrites⟩

/-- Only what is under the names of the fields counts, in whatever order. -/
theorem Fills.congr {F : Form α} {a : α} {ms ms' : List (String × Json)} (h : F.Fills a ms)
    (hsame : ∀ name ∈ F.names, (under name ms').Perm (under name ms)) : F.Fills a ms' := by
  intro field hfield
  obtain ⟨v, hv, hwrites⟩ := h field hfield
  exact ⟨v, eq_toList_of_perm (hsame field.1 (List.mem_map_of_mem hfield)) hv, hwrites⟩

/-- Whether a value is read as a thing, field by field. -/
def Reads (F : Form α) (a : α) (v : Json) : Prop :=
  ∃ vs, v.fields? F.names = some vs ∧ List.Forall₂ (fun field w => field.2 a w) F vs

/-- A reader that asks for the fields of a form and makes a thing of what it gets. -/
theorem bind_fields?_iff {F : Form α} {make : List (Option Json) → Option α} {a : α}
    (h : ∀ vs, make vs = some a ↔ List.Forall₂ (fun field w => field.2 a w) F vs) {v : Json} :
    (v.fields? F.names).bind make = some a ↔ F.Reads a v := by
  rw [Option.bind_eq_some_iff]
  exact exists_congr fun vs => and_congr_right fun _ => h vs

/-- **An object is read as a thing** if its members fill in the form of the thing. -/
theorem reads_object_iff {F : Form α} {a : α} {members : List (Quoted × Json)}
    {ms : List (String × Json)} (h : Named members ms) :
    F.Reads a (.object members) ↔ F.Fills a ms := by
  unfold Reads Fills names
  simp only [h.fields?_eq_some_iff, List.forall₂_map_left_iff]
  exact exists_forall₂_iff

/-- Members that are read as a thing have names that say something. -/
theorem Reads.exists_named {F : Form α} {a : α} {members : List (Quoted × Json)}
    (h : F.Reads a (.object members)) : ∃ ms, Named members ms := by
  obtain ⟨vs, hvs, -⟩ := h
  exact Named.exists_of_fields? hvs

/-- **What is read as a thing** is an object, or an array of no more items than there are fields. -/
theorem Reads.object_or_array {F : Form α} {a : α} {v : Json} (h : F.Reads a v) :
    (∃ members ms, v = .object members ∧ Named members ms) ∨
      ∃ items, v = .array items ∧ items.length ≤ F.length := by
  cases v with
  | object members =>
    obtain ⟨ms, hms⟩ := h.exists_named
    exact Or.inl ⟨members, ms, rfl, hms⟩
  | array items =>
    obtain ⟨vs, hvs, -⟩ := h
    rw [fields?, names, List.length_map] at hvs
    split at hvs
    · rename_i hle
      exact Or.inr ⟨items, rfl, hle⟩
    · cases hvs
  | _ =>
    obtain ⟨vs, hvs, -⟩ := h
    cases hvs

end Form

/-! ## 2. Items as fields -/

theorem under_zip_of_not_mem {name : String} {names : List String} (h : name ∉ names)
    (items : List Json) : under name (names.zip items) = [] := by
  rw [under_eq_nil_iff]
  intro hmem
  obtain ⟨m, hm, rfl⟩ := List.mem_map.mp hmem
  exact h (List.of_mem_zip hm).1

/-- Items that are named in order leave the later fields out. -/
theorem forall₂_under_zip {names : List String} (hnodup : names.Nodup) {items : List Json}
    (hle : items.length ≤ names.length) :
    List.Forall₂ (fun name (v : Option Json) => under name (names.zip items) = v.toList) names
      (items.map some ++ List.replicate (names.length - items.length) none) := by
  induction names generalizing items with
  | nil =>
    obtain rfl : items = [] := List.length_eq_zero_iff.mp (by simpa using hle)
    exact .nil
  | cons name names ih =>
    obtain ⟨hnew, hnodup⟩ := List.nodup_cons.mp hnodup
    cases items with
    | nil =>
      have hshort : ([] : List Json).length ≤ names.length := Nat.zero_le _
      have hnone := ih hnodup hshort
      simp only [List.zip_nil_right, List.map_nil, List.length_nil, Nat.sub_zero,
        List.nil_append, List.length_cons, List.replicate_succ] at hnone ⊢
      exact .cons rfl hnone
    | cons v items =>
      have hmore := ih hnodup (Nat.le_of_succ_le_succ hle)
      rw [List.zip_cons_cons, List.map_cons, List.cons_append, List.length_cons,
        List.length_cons, Nat.succ_sub_succ]
      refine .cons ?_ ?_
      · rw [under_cons, if_pos rfl, under_zip_of_not_mem hnew]
        rfl
      · -- The first name is not among the others, so its member does not count there.
        rw [List.forall₂_iff_zip] at hmore ⊢
        refine ⟨hmore.1, fun {other v'} hmem => ?_⟩
        have hne : name ≠ other := fun heq => hnew (heq ▸ (List.of_mem_zip hmem).1)
        rw [under_cons, if_neg hne]
        exact hmore.2 hmem

/-- **An array is read as the object with the first fields**, in whatever order these stand. -/
theorem fields?_array_eq {names : List String} (hnodup : names.Nodup) {items : List Json}
    (hle : items.length ≤ names.length) {members : List (Quoted × Json)}
    {ms : List (String × Json)} (h : Named members ms) (hperm : ms.Perm (names.zip items)) :
    (array items).fields? names = (object members).fields? names := by
  have hobject := h.fields?_eq_some_iff.mpr <|
    (forall₂_under_zip hnodup hle).imp fun name v hv =>
      eq_toList_of_perm (under_perm hperm name) hv
  rw [hobject, fields?, if_pos hle]

/-! ## 3. Whole texts -/

/-- A text that is an object of some members, with nothing but the blanks of JSON around it. -/
def ObjectText (s : String) (ms : List (String × Json)) : Prop :=
  ∃ members, Named members ms ∧ Spelled (object members).tokens s.toList

/-- A text that is an array of some items, with nothing but the blanks of JSON around it. -/
def ArrayText (s : String) (items : List Json) : Prop := Spelled (array items).tokens s.toList

theorem parse?_eq_some_iff {s : String} {v : Json} :
    parse? s = some v ↔ Spelled v.tokens s.toList := ofChars?_eq_some_iff

/-- A text that is cut into the tokens of a value spells the value. -/
theorem spelled_of_ofText? {cs : List Char} {v : Json} (h : Token.ofText? cs = some v.tokens) :
    Spelled v.tokens cs := ofChars?_eq_some_iff.mp (ofChars?_of_ofText? h)

theorem ObjectText.exists_parse? {s : String} {ms : List (String × Json)} (h : ObjectText s ms) :
    ∃ members, Named members ms ∧ parse? s = some (object members) := by
  obtain ⟨members, hnamed, hspelled⟩ := h
  exact ⟨members, hnamed, parse?_eq_some_iff.mpr hspelled⟩

theorem ArrayText.parse? {s : String} {items : List Json} (h : ArrayText s items) :
    Json.parse? s = some (array items) := parse?_eq_some_iff.mpr h

end TankArena.Json
