import TankArena.Proofs.Json.Forms
import TankArena.Proofs.Wire.Number
import TankArena.Settings.Reader

/-!
# The texts that give settings

Settings are given by whoever runs an arena, in a file written by hand.  Each of the six fields may
be left out, an array of values may stand for an object, for the whole as for each wall and each end
of a wall, and there may be members that no field is for.

* A text gives settings exactly if it is an object whose members fill in the form of the settings
  (`form`), or an array of at most six items that do so as values of the first fields
  (`given?_eq_some_iff`).
* Members are read as some settings if no field occurs twice and each that occurs has a value of its
  type (`readable_iff`): what one field says does not depend on the others.

Whether the settings are accepted is another question.
-/

namespace TankArena

open Json (ArrayText Form IsVector IsWord Named ObjectText OrStandard Schema under)

/-! ## 1. Walls -/

namespace Json

/-- The values that write a list: an array of values that write its items. -/
def IsList {α : Type} (writes : α → Json → Prop) (as : List α) (v : Json) : Prop :=
  ∃ items, v = .array items ∧ List.Forall₂ (fun item a => writes a item) items as

theorem list?_eq_some_iff {α : Type} {item? : Json → Option α} {writes : α → Json → Prop}
    (h : ∀ v a, item? v = some a ↔ writes a v) {v : Json} {as : List α} :
    v.list? item? = some as ↔ IsList writes as v := by
  unfold IsList
  cases v <;> simp [list?, mapM_eq_some_iff, h]

/-- The values that write a whole number below a bound. -/
def IsWordBelow (bound k : Nat) (v : Json) : Prop := IsWord k v ∧ k < bound

theorem isWordBelow_ofNat {bound n : Nat} (h : n < bound) : IsWordBelow bound n (ofNat n) :=
  natBelow?_eq_some_iff.mp (natBelow?_ofNat h)

end Json

namespace Segment

/-- The fields of a wall in the settings. -/
def schema : Schema (Segment Float) :=
  [("p1", fun wall => IsVector wall.p1), ("p2", fun wall => IsVector wall.p2)]

/-- A wall is read end by end. -/
theorem ofJson?_iff_reads {v : Json} {wall : Segment Float} :
    ofJson? v = some wall ↔ schema.Reads wall v := by
  unfold ofJson?
  refine Schema.bind_allFields?_iff (S := schema) fun vs => ?_
  split
  · obtain ⟨p1, p2⟩ := wall
    simp [schema, Option.bind_eq_some_iff, Vec.ofJson?_eq_some_iff]
  · rename_i hother
    refine iff_of_false (by simp) fun h => ?_
    iterate 2 obtain _ | ⟨_, h⟩ := h
    cases h
    exact hother _ _ rfl

theorem ofJson?_eq_some_iff {v : Json} {wall : Segment Float} :
    ofJson? v = some wall ↔ schema.Written wall v :=
  ofJson?_iff_reads.trans Schema.reads_iff_written

end Segment

namespace Settings

/-! ## 2. The fields of settings -/

theorem orDefault_eq_some_iff {β : Type} {standard b : β} {read? : Json → Option β}
    {writes : β → Json → Prop} (h : ∀ v b, read? v = some b ↔ writes b v) {v : Option Json} :
    orDefault standard read? v = some b ↔ OrStandard standard writes b v := by
  cases v with
  | none => exact Option.some_inj.trans eq_comm
  | some v => exact h v b

/-- The fields of settings, and what settings have where a field is left out. -/
def form : Form (Settings Float) :=
  [("universe_size", fun s => OrStandard 2000 (Json.IsWordBelow (2 ^ 32)) s.universeSize),
    ("ms_per_frame", fun s => OrStandard 17 (Json.IsWordBelow (2 ^ 64)) s.msPerFrame),
    ("fire_cooldown_ms", fun s => OrStandard 250 (Json.IsWordBelow (2 ^ 64)) s.fireCooldownMs),
    ("respawn_rate_ms", fun s => OrStandard 3000 (Json.IsWordBelow (2 ^ 64)) s.respawnRateMs),
    ("max_powerups", fun s => OrStandard 5 (Json.IsWordBelow (2 ^ 64)) s.maxPowerUps),
    ("walls", fun s => OrStandard [] (Json.IsList Segment.schema.Written) s.walls)]

theorem nodup_names_form : form.names.Nodup := by decide

/-- Settings are read field by field. -/
theorem ofJson?_iff_reads {v : Json} {s : Settings Float} :
    ofJson? v = some s ↔ form.Reads s v := by
  have hword : ∀ (bound standard k : Nat) (v : Option Json),
      orDefault standard (Json.natBelow? bound) v = some k
        ↔ OrStandard standard (Json.IsWordBelow bound) k v :=
    fun _ _ _ _ => orDefault_eq_some_iff fun _ _ => Json.natBelow?_eq_some_iff
  have hwalls : ∀ (walls : List (Segment Float)) (v : Option Json),
      orDefault [] (Json.list? Segment.ofJson?) v = some walls
        ↔ OrStandard [] (Json.IsList Segment.schema.Written) walls v :=
    fun _ _ => orDefault_eq_some_iff fun _ _ =>
      Json.list?_eq_some_iff fun _ _ => Segment.ofJson?_eq_some_iff
  unfold ofJson?
  refine Form.bind_fields?_iff (F := form) fun vs => ?_
  split
  · obtain ⟨size, frame, cooldown, respawn, powerUps, walls⟩ := s
    simp [form, Option.bind_eq_some_iff, hword, hwalls]
  · rename_i hother
    refine iff_of_false (by simp) fun h => ?_
    iterate 6 obtain _ | ⟨_, h⟩ := h
    cases h
    exact hother _ _ _ _ _ _ rfl

/-- **What one field says does not depend on the others**: members that can be read field by field
are read as settings. -/
theorem readable_iff {ms : List (String × Json)} :
    form.Readable ms ↔ ∃ s, form.Fills s ms := by
  constructor
  · intro h
    simp only [Form.Readable, form, List.forall_mem_cons] at h
    obtain ⟨⟨size, hsize, s₁, h₁⟩, ⟨frame, hframe, s₂, h₂⟩, ⟨cooldown, hcooldown, s₃, h₃⟩,
      ⟨respawn, hrespawn, s₄, h₄⟩, ⟨powerUps, hpowerUps, s₅, h₅⟩, ⟨walls, hwalls, s₆, h₆⟩, -⟩ := h
    refine ⟨⟨s₁.universeSize, s₂.msPerFrame, s₃.fireCooldownMs, s₄.respawnRateMs, s₅.maxPowerUps,
      s₆.walls⟩, ?_⟩
    simp only [Form.Fills, form, List.forall_mem_cons]
    exact ⟨⟨size, hsize, h₁⟩, ⟨frame, hframe, h₂⟩, ⟨cooldown, hcooldown, h₃⟩,
      ⟨respawn, hrespawn, h₄⟩, ⟨powerUps, hpowerUps, h₅⟩, ⟨walls, hwalls, h₆⟩,
      fun _ hfield => by cases hfield⟩
  · rintro ⟨s, hs⟩
    exact hs.readable

/-! ## 3. Texts -/

/-- The settings that a text gives, accepted or not. -/
def given? (text : String) : Option (Settings Float) := (Json.parse? text).bind ofJson?

/-- An object gives the settings whose form its members fill in. -/
theorem given?_object {text : String} {ms : List (String × Json)} (h : ObjectText text ms)
    {s : Settings Float} : given? text = some s ↔ form.Fills s ms := by
  obtain ⟨members, hnamed, hparse⟩ := h.exists_parse?
  rw [given?, hparse, Option.bind_some, ofJson?_iff_reads]
  exact Form.reads_object_iff hnamed

/-- Objects with the same values under the names of the fields give the same settings. -/
theorem given?_congr {text text' : String} {ms ms' : List (String × Json)}
    (h : ObjectText text ms) (h' : ObjectText text' ms')
    (hsame : ∀ name ∈ form.names, (under name ms).Perm (under name ms')) :
    given? text = given? text' := by
  refine Option.ext fun s => ?_
  rw [given?_object h, given?_object h']
  exact ⟨fun hfills => hfills.congr fun name hname => (hsame name hname).symm,
    fun hfills => hfills.congr hsame⟩

/-- An array gives the settings of the object with its items as the first fields. -/
theorem given?_array {text text' : String} {items : List Json} {ms : List (String × Json)}
    (h : ArrayText text items) (hle : items.length ≤ form.length) (h' : ObjectText text' ms)
    (hperm : ms.Perm (form.names.zip items)) : given? text = given? text' := by
  obtain ⟨members, hnamed, hparse⟩ := h'.exists_parse?
  rw [given?, given?, h.parse?, hparse, Option.bind_some, Option.bind_some]
  refine Option.ext fun s => ?_
  have hfields := Json.fields?_array_eq nodup_names_form hle hnamed hperm
  rw [ofJson?_iff_reads, ofJson?_iff_reads, Form.Reads, Form.Reads, hfields]

/-- **Only objects and short arrays give settings.** -/
theorem exists_text_of_given? {text : String} {s : Settings Float} (h : given? text = some s) :
    (∃ ms, ObjectText text ms) ∨ ∃ items, ArrayText text items ∧ items.length ≤ form.length := by
  obtain ⟨v, hparse, hs⟩ := Option.bind_eq_some_iff.mp h
  have hspelled := Json.parse?_eq_some_iff.mp hparse
  rcases (ofJson?_iff_reads.mp hs).object_or_array with ⟨members, ms, rfl, hms⟩ | ⟨items, rfl, hle⟩
  · exact Or.inl ⟨ms, members, hms, hspelled⟩
  · exact Or.inr ⟨items, hspelled, hle⟩

end Settings

end TankArena
