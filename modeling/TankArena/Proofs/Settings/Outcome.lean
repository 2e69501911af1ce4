import TankArena.Proofs.Settings.Checks
import TankArena.Proofs.Settings.Grammar
import TankArena.Proofs.World.Beginning

/-!
# From a text to a world

What becomes of a text that is to give the settings of an arena (`read_checked_and_built`):

* It is read, if it is an object whose members fill in the form of some settings.  The order of the
  members does not count, nor do members that no field is for; an array is read as the object with
  its items as the first fields; and anything else is malformed.
* It is checked.  Settings that are not accepted are refused with the first fault, and the message
  tells which one it is.
* A world is built from what is left.  It has the walls of the settings, numbered in their order,
  and zones that places can be drawn from.
-/

namespace TankArena.Settings

open Json (ArrayText ObjectText under)

/-! ## 1. Outcomes -/

/-- Settings are accepted or have a first fault. -/
theorem accepted_or_firstFault (s : Settings Float) :
    s.Accepted ∨ ∃ fault, s.FirstFault fault := by
  cases h : s.fault? with
  | none => exact Or.inl (fault?_eq_none_iff.mp h)
  | some fault => exact Or.inr ⟨fault, fault?_eq_some_iff.mp h⟩

theorem accept_of_firstFault {s : Settings Float} {fault : Fault Float} (h : s.FirstFault fault) :
    s.accept = .error (.invalid fault) := by
  rw [accept, fault?_eq_some_iff.mpr h]

theorem accept_eq_ok_iff {s s' : Settings Float} : s.accept = .ok s' ↔ s = s' ∧ s.Accepted := by
  rw [accept, ← fault?_eq_none_iff]
  cases s.fault? <;> simp

theorem accept_ne_malformed (s : Settings Float) : s.accept ≠ .error .malformed := by
  rw [accept]
  cases s.fault? <;> simp

/-- A text is read, and what was read is looked at. -/
theorem ofText_eq (text : String) :
    ofText text = (given? text).elim (.error .malformed) accept := by
  rw [ofText, given?]
  cases Json.parse? text with
  | none => rfl
  | some v =>
    rw [Option.bind_some]
    dsimp only
    rw [ofJson]
    cases ofJson? v <;> rfl

theorem ofText_congr {text text' : String} (h : given? text = given? text') :
    ofText text = ofText text' := by
  rw [ofText_eq, ofText_eq, h]

/-- **A text is malformed** if it gives no settings. -/
theorem ofText_eq_malformed_iff {text : String} :
    ofText text = .error .malformed ↔ given? text = none := by
  rw [ofText_eq]
  cases given? text <;> simp [accept_ne_malformed]

/-- **There are settings** exactly if the text gives them and they are accepted. -/
theorem ofText_eq_ok_iff {text : String} {s : Settings Float} :
    ofText text = .ok s ↔ given? text = some s ∧ s.Accepted := by
  rw [ofText_eq]
  cases given? text with
  | none => simp
  | some s' =>
    rw [Option.elim_some, accept_eq_ok_iff, Option.some_inj]
    exact and_congr_right fun h => by rw [h]

/-! ## 2. Texts that are objects -/

section Objects

variable {text : String} {ms : List (String × Json)}

theorem ofText_object (h : ObjectText text ms) {s : Settings Float} :
    ofText text = .ok s ↔ form.Fills s ms ∧ s.Accepted := by
  rw [ofText_eq_ok_iff, given?_object h]

/-- **Settings that are read and not accepted** are refused with their first fault. -/
theorem exists_fault_of_object (h : ObjectText text ms) {s : Settings Float}
    (hs : form.Fills s ms) (hrefused : ¬ s.Accepted) :
    ∃ fault, s.FirstFault fault ∧ ofText text = .error (.invalid fault) := by
  obtain ⟨fault, hfault⟩ := s.accepted_or_firstFault.resolve_left hrefused
  refine ⟨fault, hfault, ?_⟩
  rw [ofText_eq, (given?_object h).mpr hs, Option.elim_some, accept_of_firstFault hfault]

/-- **An object is malformed** if a field occurs twice or has no value of its type. -/
theorem ofText_object_eq_malformed_iff (h : ObjectText text ms) :
    ofText text = .error .malformed ↔ ¬ form.Readable ms := by
  rw [ofText_eq_malformed_iff, readable_iff, Option.eq_none_iff_forall_ne_some, not_exists]
  simp only [ne_eq, given?_object h]

end Objects

/-! ## 3. What becomes of a text -/

/-- **From a text to a world.**  An object gives the settings whose form its members fill in, if
these are accepted; else it is refused with the first fault of what was read, or as malformed if a
field occurs twice or has no value of its type.  Neither the order of the members nor members
without a field make a difference, and an array has the outcome of an object with its items as the
first fields.  What is neither an object nor an array of that kind is malformed.  Messages tell
faults apart.

A world built from settings that were given has their walls, in their order and numbered from zero
by 32-bit words.  Over exact arithmetic none of its spawn zones is empty, and no draw fails when it
is built. -/
theorem read_checked_and_built :
    (∀ (text : String) (ms : List (String × Json)), ObjectText text ms →
      (∀ s, ofText text = .ok s ↔ form.Fills s ms ∧ s.Accepted) ∧
      ((∃ s, form.Fills s ms) ↔ form.Readable ms) ∧
      (∀ s, form.Fills s ms → ¬ s.Accepted →
        ∃ fault, s.FirstFault fault ∧ ofText text = .error (.invalid fault)) ∧
      (ofText text = .error .malformed ↔ ¬ form.Readable ms) ∧
      (∀ (text' : String) (ms' : List (String × Json)), ObjectText text' ms' →
        (∀ name ∈ form.names, (under name ms).Perm (under name ms')) →
        ofText text = ofText text')) ∧
    (∀ (text text' : String) (items : List Json) (ms : List (String × Json)),
      ArrayText text items → items.length ≤ form.length → ObjectText text' ms →
      ms.Perm (form.names.zip items) → ofText text = ofText text') ∧
    (∀ text : String, (∀ ms, ¬ ObjectText text ms) →
      (∀ items, ArrayText text items → form.length < items.length) →
      ofText text = .error .malformed) ∧
    (∀ fault fault' : Fault Float,
      (Error.invalid fault).message = (Error.invalid fault').message →
      fault.check = fault'.check) ∧
    (∀ (text : String) (s : Settings Float) (source : Source), ofText text = .ok s →
      (World.ofSettings s source).walls
          = s.walls.mapIdx (fun i wall => ⟨UInt32.ofNat i, wall.p1, wall.p2⟩) ∧
        ∀ exact : Settings ℝ, exact.universeSize = s.universeSize →
          (∀ i, (Zone.spawn (World.ofSettings exact source).half i).NonEmpty) ∧
          World.ofSettings? exact source = some (World.ofSettings exact source)) := by
  refine ⟨?_, ?_, ?_, ?_, ?_⟩
  · intro text ms h
    refine ⟨fun s => ofText_object h, readable_iff.symm, fun s => exists_fault_of_object h,
      ofText_object_eq_malformed_iff h, ?_⟩
    intro text' ms' h' hsame
    exact ofText_congr (given?_congr h h' hsame)
  · intro text text' items ms h hle h' hperm
    exact ofText_congr (given?_array h hle h' hperm)
  · intro text hobject harray
    rw [ofText_eq_malformed_iff, Option.eq_none_iff_forall_ne_some]
    intro s hs
    rcases exists_text_of_given? hs with ⟨ms, hms⟩ | ⟨items, hitems, hle⟩
    · exact hobject ms hms
    · exact absurd hle (Nat.not_le.mpr (harray items hitems))
  · intro fault fault' h
    exact Fault.check_eq_of_message (String.append_right_inj _ |>.mp h)
  · intro text s source h
    obtain ⟨-, haccepted⟩ := ofText_eq_ok_iff.mp h
    refine ⟨World.ofSettings_walls s source, fun exact hsize => ?_⟩
    have hedge : exact.universeSize ≠ 0 := hsize ▸ haccepted.size
    exact ⟨World.zones_ofSettings hedge source, World.ofSettings?_eq_some hedge source⟩

/-! ## 4. Files written by hand -/

/-- Two walls, one as an array and one as an object with a remark, a name in escapes, and a member
that no field is for, with half of a pair in it. -/
def handwritten : String :=
  "\x7b\"walls\": [[[0, 1], [0, 9]],\n  \x7b\"p2\": \x7b\"y\": 3, \"x\": 7\x7d, \"note\": null, " ++
    "\"p1\": [4, 3]\x7d],\n\t\"ms\\u005fper_frame\": 20, \"hint\": [[], \"\\ud800\"]\x7d\r\n"

/-- The members of the file. -/
def handwrittenMembers : List (String × Json) :=
  [("walls", .array
      [.array [.array [.ofNat 0, .ofNat 1], .array [.ofNat 0, .ofNat 9]],
        .ofMembers
          [("p2", .ofMembers [("y", .ofNat 3), ("x", .ofNat 7)]), ("note", .null),
            ("p1", .array [.ofNat 4, .ofNat 3])]]),
    ("ms_per_frame", .ofNat 20),
    ("hint", .array [.array [], .string ⟨[.unit 'd' '8' '0' '0']⟩])]

/-- The settings that the file gives. -/
def handwrittenSettings : Settings Float where
  msPerFrame := 20
  walls := [⟨⟨0.0, 1.0⟩, ⟨0.0, 9.0⟩⟩, ⟨⟨4.0, 3.0⟩, ⟨7.0, 3.0⟩⟩]

theorem objectText_handwritten : ObjectText handwritten handwrittenMembers := by
  let members : List (Json.Quoted × Json) :=
    Json.quoted (handwrittenMembers.take 1) ++
      (⟨"ms".toList.map .plain ++ .unit '0' '0' '5' 'f' :: "per_frame".toList.map .plain⟩,
        Json.ofNat 20) :: Json.quoted (handwrittenMembers.drop 2)
  refine ⟨members, ?_, ?_⟩
  · refine .cons ⟨by decide +kernel, rfl⟩ (.cons ⟨by decide +kernel, rfl⟩ ?_)
    exact Json.named_quoted _
  · refine Json.spelled_of_ofText? ?_
    decide +kernel

theorem fills_handwritten : form.Fills handwrittenSettings handwrittenMembers := by
  have hfirst : Segment.schema.Written ⟨⟨0.0, 1.0⟩, ⟨0.0, 9.0⟩⟩
      (.array [.array [.ofNat 0, .ofNat 1], .array [.ofNat 0, .ofNat 9]]) := by
    refine .array (.cons (.array ?_ ?_) (.cons (.array ?_ ?_) .nil)) <;>
      exact ⟨_, rfl, by decide +kernel⟩
  have hsecond : Segment.schema.Written ⟨⟨4.0, 3.0⟩, ⟨7.0, 3.0⟩⟩
      (.ofMembers [("p2", .ofMembers [("y", .ofNat 3), ("x", .ofNat 7)]), ("note", .null),
        ("p1", .array [.ofNat 4, .ofNat 3])]) := by
    refine .object (Json.named_quoted _) ?_
    simp only [Segment.schema, Json.Schema.Fits, List.forall_mem_cons]
    refine ⟨⟨_, rfl, .array ⟨_, rfl, by decide +kernel⟩ ⟨_, rfl, by decide +kernel⟩⟩,
      ⟨_, rfl, .object (Json.named_quoted _) ?_⟩, fun _ hfield => by cases hfield⟩
    simp only [Vec.schema, Json.Schema.Fits, List.forall_mem_cons]
    exact ⟨⟨_, rfl, _, rfl, by decide +kernel⟩, ⟨_, rfl, _, rfl, by decide +kernel⟩,
      fun _ hfield => by cases hfield⟩
  simp only [form, Json.Form.Fills, List.forall_mem_cons]
  exact ⟨⟨none, rfl, rfl⟩, ⟨some _, rfl, Json.isWordBelow_ofNat (by decide)⟩, ⟨none, rfl, rfl⟩,
    ⟨none, rfl, rfl⟩, ⟨none, rfl, rfl⟩,
    ⟨some _, rfl, _, rfl, .cons hfirst (.cons hsecond .nil)⟩, fun _ hfield => by cases hfield⟩

theorem accepted_handwritten : handwrittenSettings.Accepted where
  size := by decide
  tick := by decide
  walls := by
    have hfirst : AlongAxis (⟨⟨0.0, 1.0⟩, ⟨0.0, 9.0⟩⟩ : Segment Float) :=
      Or.inl (by decide +kernel)
    have hsecond : AlongAxis (⟨⟨4.0, 3.0⟩, ⟨7.0, 3.0⟩⟩ : Segment Float) :=
      Or.inr (by decide +kernel)
    exact List.forall_mem_cons.mpr ⟨hfirst, List.forall_mem_singleton.mpr hsecond⟩

/-- The members of a file of a world without an edge. -/
def edgeless : List (String × Json) := [("ms_per_frame", .ofNat 20), ("universe_size", .ofNat 0)]

theorem fills_edgeless : form.Fills { universeSize := 0, msPerFrame := 20 } edgeless := by
  simp only [form, Json.Form.Fills, List.forall_mem_cons]
  exact ⟨⟨some _, rfl, Json.isWordBelow_ofNat (by decide)⟩,
    ⟨some _, rfl, Json.isWordBelow_ofNat (by decide)⟩, ⟨none, rfl, rfl⟩, ⟨none, rfl, rfl⟩,
    ⟨none, rfl, rfl⟩, ⟨none, rfl, rfl⟩, fun _ hfield => by cases hfield⟩

theorem read_checked_and_built_handwritten :
    ofText handwritten = .ok handwrittenSettings ∧
      (World.ofSettings handwrittenSettings (Source.ofSeed 1)).walls
        = [⟨0, ⟨0.0, 1.0⟩, ⟨0.0, 9.0⟩⟩, ⟨1, ⟨4.0, 3.0⟩, ⟨7.0, 3.0⟩⟩] ∧
      ofText "[0, 20]" = .error (.invalid .noSize) := by
  obtain ⟨hobject, harray, -, -, hbuilt⟩ := read_checked_and_built
  have hread : ofText handwritten = .ok handwrittenSettings :=
    ((hobject _ _ objectText_handwritten).1 _).mpr ⟨fills_handwritten, accepted_handwritten⟩
  refine ⟨hread, (hbuilt _ _ _ hread).1, ?_⟩
  have hrendered : ObjectText (Json.ofMembers edgeless).render edgeless :=
    ⟨Json.quoted edgeless, Json.named_quoted _, Json.spelled_of_ofText? (by decide +kernel)⟩
  have hitems : ArrayText "[0, 20]" [.ofNat 0, .ofNat 20] :=
    Json.spelled_of_ofText? (by decide +kernel)
  obtain ⟨fault, hfault, hrefused⟩ :=
    (hobject _ _ hrendered).2.2.1 _ fills_edgeless fun haccepted => haccepted.size rfl
  have hsame := harray "[0, 20]" _ _ edgeless hitems (by decide) hrendered (.swap _ _ _)
  cases hfault with
  | noSize => exact hsame.trans hrefused
  | noTick hsize => exact absurd rfl hsize
  | slanted hsize => exact absurd rfl hsize

end TankArena.Settings
