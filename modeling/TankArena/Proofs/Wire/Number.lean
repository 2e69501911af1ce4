import TankArena.Proofs.Decimal.Layout
import TankArena.Proofs.Json.Fields
import TankArena.Proofs.Json.Members
import TankArena.Text.Blank
import TankArena.Wire.Number

/-!
# Doubles and vectors on the wire

Writing a double chooses digits, reading it computes with doubles, and the two are not inverse to
each other on every double: the reader rounds more than once.  So what is proved of written numbers
depends on the number in one respect only, whether it *survives* (`Survives`): whether the digits
that are written for it read as the same double.  That can be computed for each double.

* A finite double that survives is read back, and so is a vector of two of them
  (`Vec.ofJson?_toJson`).
* A double that is not finite is written as `null`, and a vector with such a component reads as no
  vector (`Vec.ofJson?_eq_none`).

Others may write a vector otherwise: as an array, with further members, with other digits.
`Json.IsVector` says which values write a vector, and these are the ones that are read as it
(`Vec.ofJson?_eq_some_iff`).

The last section is about objects of any kind: their braces stand at both ends of the text, so that
trimming finds nothing to do.
-/

namespace TankArena

/-! ## 1. Doubles -/

/-- Whether the digits that are written for a double read as the same double. -/
def Survives (x : Float) : Prop := (Layout.data.numeral x).float? = some x

instance (x : Float) : Decidable (Survives x) :=
  inferInstanceAs (Decidable ((Layout.data.numeral x).float? = some x))

namespace Json

@[simp] theorem bool?_ofBool (b : Bool) : (ofBool b).bool? = some b := rfl

theorem legible_ofBool (b : Bool) : (ofBool b).Legible := .bool b

theorem buildable_ofBool (depth : Nat) (b : Bool) : buildable depth (ofBool b) = true := by
  rw [ofBool, buildable]

theorem legible_ofFloat (x : Float) : (ofFloat x).Legible := by
  unfold ofFloat
  split
  · exact .number (Layout.data.proper_numeral x)
  · exact .null

theorem float?_ofFloat {x : Float} (hfinite : x.isFinite = true) (hx : Survives x) :
    (ofFloat x).float? = some x := by
  unfold ofFloat
  rw [if_pos hfinite]
  exact hx

theorem float?_ofFloat_eq_none {x : Float} (h : ¬ x.isFinite = true) :
    (ofFloat x).float? = none := by
  unfold ofFloat
  rw [if_neg h]
  rfl

theorem buildable_ofFloat (depth : Nat) {x : Float} (hfinite : x.isFinite = true)
    (hx : Survives x) : buildable depth (ofFloat x) = true := by
  unfold ofFloat
  rw [if_pos hfinite, buildable, hx]
  rfl

theorem length_ofFloat_le (x : Float) : (ofFloat x).text.length ≤ 5500 := by
  unfold ofFloat
  split
  · exact Layout.length_numeral_le x
  · decide

end Json

/-! ## 2. Vectors -/

namespace Vec

/-- Whether both components are finite. -/
def Finite (v : Vec Float) : Prop := v.x.isFinite = true ∧ v.y.isFinite = true

instance (v : Vec Float) : Decidable v.Finite :=
  inferInstanceAs (Decidable (v.x.isFinite = true ∧ v.y.isFinite = true))

/-- Whether both components survive being written. -/
def Survives (v : Vec Float) : Prop := TankArena.Survives v.x ∧ TankArena.Survives v.y

instance (v : Vec Float) : Decidable v.Survives :=
  inferInstanceAs (Decidable (TankArena.Survives v.x ∧ TankArena.Survives v.y))

theorem legible_toJson (v : Vec Float) : v.toJson.Legible := by
  refine Json.legible_ofMembers ?_
  simp [Json.legible_ofFloat]

/-- A vector is read component by component. -/
theorem ofJson?_toJson_eq (v : Vec Float) :
    ofJson? v.toJson
      = (Json.ofFloat v.x).float?.bind fun x =>
          (Json.ofFloat v.y).float?.bind fun y => some ⟨x, y⟩ := by
  have hfields : v.toJson.allFields? ["x", "y"] = some [.ofFloat v.x, .ofFloat v.y] :=
    Json.allFields?_ofMembers rfl (by decide)
  unfold ofJson?
  rw [hfields]
  rfl

/-- **Vectors are read back.** -/
theorem ofJson?_toJson {v : Vec Float} (hfinite : v.Finite) (hv : v.Survives) :
    ofJson? v.toJson = some v := by
  rw [ofJson?_toJson_eq, Json.float?_ofFloat hfinite.1 hv.1, Json.float?_ofFloat hfinite.2 hv.2]
  rfl

/-- **What is not finite reads as no vector.** -/
theorem ofJson?_eq_none {v : Vec Float} (h : ¬ v.Finite) : ofJson? v.toJson = none := by
  rw [ofJson?_toJson_eq]
  by_cases hx : v.x.isFinite = true
  · have hy : ¬ v.y.isFinite = true := fun hy => h ⟨hx, hy⟩
    rw [Json.float?_ofFloat_eq_none hy]
    cases (Json.ofFloat v.x).float? <;> rfl
  · rw [Json.float?_ofFloat_eq_none hx]
    rfl

theorem buildable_toJson (depth : Nat) {v : Vec Float} (hfinite : v.Finite) (hv : v.Survives) :
    v.toJson.buildable (depth + 1) = true := by
  refine Json.buildable_ofMembers ?_
  simp [Json.buildable_ofFloat depth hfinite.1 hv.1, Json.buildable_ofFloat depth hfinite.2 hv.2]

end Vec

/-! ## 3. Vectors, whoever wrote them -/

/-- The fields of a vector. -/
def Vec.schema : Json.Schema (Vec Float) :=
  [("x", fun v => Json.IsNumber v.x), ("y", fun v => Json.IsNumber v.y)]

/-- The values that write a vector: an object with both components, or the array of the two. -/
inductive Json.IsVector (w : Vec Float) : Json → Prop
  | object {members : List (Quoted × Json)} {ms : List (String × Json)} (names : Named members ms)
      (fields : Vec.schema.Fits w ms) : IsVector w (.object members)
  | array {x y : Json} (hx : IsNumber w.x x) (hy : IsNumber w.y y) : IsVector w (.array [x, y])

namespace Vec

/-- A vector is read field by field. -/
theorem ofJson?_iff_reads {v : Json} {w : Vec Float} : ofJson? v = some w ↔ schema.Reads w v := by
  unfold ofJson?
  refine Json.Schema.bind_allFields?_iff (S := schema) fun vs => ?_
  split
  · obtain ⟨x, y⟩ := w
    simp [schema, Option.bind_eq_some_iff, Json.float?_eq_some_iff]
  · rename_i hother
    refine iff_of_false (by simp) fun h => ?_
    iterate 2 obtain _ | ⟨_, h⟩ := h
    cases h
    exact hother _ _ rfl

/-- **A value is read as a vector exactly if it writes the vector.** -/
theorem ofJson?_eq_some_iff {v : Json} {w : Vec Float} :
    ofJson? v = some w ↔ Json.IsVector w v := by
  rw [ofJson?_iff_reads, Json.Schema.reads_iff_written]
  constructor
  · intro h
    cases h with
    | object hms hfits => exact .object hms hfits
    | array hitems =>
      obtain _ | ⟨hx, _ | ⟨hy, _ | _⟩⟩ := hitems
      exact .array hx hy
  · intro h
    cases h with
    | object hms hfits => exact .object hms hfits
    | array hx hy => exact .array (.cons hx (.cons hy .nil))

end Vec

/-! ## 4. Objects as texts -/

namespace Json

theorem exists_membersText (members : List (Quoted × Json)) :
    ∃ inner, membersText members = inner ++ ['\x7d'] := by
  induction members with
  | nil => exact ⟨[], rfl⟩
  | cons m members ih =>
    obtain ⟨inner, h⟩ := ih
    exact ⟨',' :: (memberText m ++ inner), by rw [membersText, h, List.cons_append,
      List.append_assoc]⟩

/-- An object has its braces at both ends. -/
theorem exists_text_object (members : List (Quoted × Json)) :
    ∃ inner, (Json.object members).text = '\x7b' :: (inner ++ ['\x7d']) := by
  cases members with
  | nil => exact ⟨[], rfl⟩
  | cons m members =>
    obtain ⟨inner, h⟩ := exists_membersText members
    exact ⟨memberText m ++ inner, by rw [text, h, List.append_assoc]⟩

theorem head?_text_object (members : List (Quoted × Json)) :
    (Json.object members).text.head? = some '\x7b' := by
  obtain ⟨inner, h⟩ := exists_text_object members
  rw [h, List.head?_cons]

/-- Trimming finds nothing to do, not even with white space at the end. -/
theorem trimChars_text_object (members : List (Quoted × Json)) (blanks : List Char)
    (h : ∀ c ∈ blanks, Text.isBlank c = true) :
    Text.trimChars ((Json.object members).text ++ blanks) = (Json.object members).text := by
  obtain ⟨inner, htext⟩ := exists_text_object members
  have hnone : ∀ c ∈ ([] : List Char), Text.isBlank c = true := fun _ hc => by cases hc
  have htrim := @Text.trimChars_braces [] inner blanks hnone
  rw [Text.trimEnd_eq_nil h, List.append_nil] at htrim
  simpa [htext] using htrim

end Json

end TankArena
