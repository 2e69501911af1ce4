import TankArena.Proofs.Wire.Number
import TankArena.Wire.Command

/-!
# The frames that are commands

Clients are not trusted, and a frame may be any text at all.  This is exactly when it is a command
(`decode?_follows_grammar`): it writes an object, in whatever order, spelling and spacing, and among
the members of the object each of the three fields occurs once, with a value that writes what the
command has there (`Command.schema`).  Which members there are besides, and what their values are,
makes no difference as long as the text is of the grammar.

Four kinds of frames are refused therefore: those that do not start with a brace, those that go on
after the object, those in which a field is missing and those in which one is repeated.
-/

namespace TankArena

/-! ## 1. The two kinds -/

theorem Drive.ofJson?_eq_some_iff {v : Json} {d : Drive} :
    Drive.ofJson? v = some d ↔ Json.IsName d.name v := by
  refine Json.oneOf?_eq_some_iff ?_ d.mem_all
  intro a b h
  cases a <;> cases b <;> first | rfl | exact absurd h (by decide)

theorem Trigger.ofJson?_eq_some_iff {v : Json} {t : Trigger} :
    Trigger.ofJson? v = some t ↔ Json.IsName t.name v := by
  refine Json.oneOf?_eq_some_iff ?_ t.mem_all
  intro a b h
  cases a <;> cases b <;> first | rfl | exact absurd h (by decide)

namespace Command

open Json (Named Writes under)

/-! ## 2. The fields of a command -/

/-- The fields of a command. -/
def schema : Json.Schema (Command Float) :=
  [("moving", fun c => Json.IsName c.drive.name), ("fire", fun c => Json.IsName c.trigger.name),
    ("tdir", fun c => Json.IsVector c.aim)]

/-- A command is read field by field. -/
theorem ofJson?_iff_reads {v : Json} {c : Command Float} :
    ofJson? v = some c ↔ schema.Reads c v := by
  unfold ofJson?
  refine Json.Schema.bind_allFields?_iff (S := schema) fun vs => ?_
  split
  · obtain ⟨drive, trigger, aim⟩ := c
    simp [schema, Option.bind_eq_some_iff, Drive.ofJson?_eq_some_iff,
      Trigger.ofJson?_eq_some_iff, Vec.ofJson?_eq_some_iff]
  · rename_i hother
    refine iff_of_false (by simp) fun h => ?_
    iterate 3 obtain _ | ⟨_, h⟩ := h
    cases h
    exact hother _ _ _ rfl

/-! ## 3. Frames -/

/-- A frame that writes an object is decoded by the members of the object. -/
theorem decode?_of_writes {frame : String} {ms : List (String × Json)} (h : Writes frame ms)
    {c : Command Float} : decode? frame = some c ↔ schema.Fits c ms := by
  obtain ⟨members, hnamed, hread, hhead⟩ := h.ofChars?
  unfold decode?
  dsimp only
  rw [if_pos hhead, hread, Option.bind_some, ofJson?_iff_reads]
  exact Json.Schema.reads_object_iff hnamed

/-- Only a frame that writes an object is a command. -/
theorem exists_writes_of_decode? {frame : String} {c : Command Float}
    (h : decode? frame = some c) : ∃ ms, Writes frame ms := by
  unfold decode? at h
  dsimp only at h
  split at h
  · rename_i hhead
    obtain ⟨v, hv, hc⟩ := Option.bind_eq_some_iff.mp h
    obtain ⟨members, rfl, hwrites⟩ := Json.exists_object_of_ofChars? hhead hv
    obtain ⟨ms, hms⟩ := (ofJson?_iff_reads.mp hc).exists_named
    exact ⟨ms, hwrites ms hms⟩
  · cases h

/-- A field that does not occur exactly once makes a frame no command. -/
theorem decode?_eq_none_of_length {frame : String} {ms : List (String × Json)}
    (h : Writes frame ms) {name : String} (hname : name ∈ schema.names)
    (hlength : (under name ms).length ≠ 1) : decode? frame = none := by
  rw [Option.eq_none_iff_forall_ne_some]
  intro c hc
  obtain ⟨field, hfield, rfl⟩ := List.mem_map.mp hname
  obtain ⟨v, hv, -⟩ := (decode?_of_writes h).mp hc field hfield
  exact hlength (by rw [hv, List.length_singleton])

/-- Frames with the same values under the names of the fields are the same to the decoder. -/
theorem decode?_congr {frame frame' : String} {ms ms' : List (String × Json)}
    (h : Writes frame ms) (h' : Writes frame' ms')
    (hsame : ∀ name ∈ schema.names, under name ms = under name ms') :
    decode? frame = decode? frame' := by
  refine Option.ext fun c => ?_
  rw [decode?_of_writes h, decode?_of_writes h']
  exact ⟨fun hfits => hfits.congr fun name hname => (hsame name hname).symm,
    fun hfits => hfits.congr hsame⟩

/-- **The decoder accepts exactly its grammar.**  A frame is a command if it writes an object whose
members fit the command, and not otherwise.  A frame that writes an object is judged by the values
under the names of the fields, of which there must be one each; the order of the members, the other
members and the spelling do not count.  What does not start with a brace is no command, and what
goes on after an object is none. -/
theorem decode?_follows_grammar :
    (∀ (frame : String) (c : Command Float),
      decode? frame = some c ↔ ∃ ms, Writes frame ms ∧ schema.Fits c ms) ∧
    (∀ (frame : String) (ms : List (String × Json)), Writes frame ms →
      (∀ c, decode? frame = some c ↔ schema.Fits c ms) ∧
      (∀ name ∈ schema.names, (under name ms).length ≠ 1 → decode? frame = none) ∧
      (∀ (frame' : String) (ms' : List (String × Json)), Writes frame' ms' →
        (∀ name ∈ schema.names, under name ms = under name ms') →
        decode? frame = decode? frame') ∧
      (∀ more : String, (∃ ch ∈ more.toList, Text.isBlank ch = false) →
        decode? (frame ++ more) = none)) ∧
    (∀ frame : String, (Text.trimChars frame.toList).head? ≠ some '\x7b' →
      decode? frame = none) := by
  refine ⟨?_, ?_, ?_⟩
  · intro frame c
    constructor
    · intro h
      obtain ⟨ms, hms⟩ := exists_writes_of_decode? h
      exact ⟨ms, hms, (decode?_of_writes hms).mp h⟩
    · rintro ⟨ms, hms, hfits⟩
      exact (decode?_of_writes hms).mpr hfits
  · intro frame ms h
    refine ⟨fun c => decode?_of_writes h, fun name => decode?_eq_none_of_length h,
      fun frame' ms' => decode?_congr h, ?_⟩
    intro more hmore
    unfold decode?
    dsimp only
    rw [h.ofChars?_append hmore, Option.bind_none, ite_self]
  · intro frame hhead
    exact if_neg hhead

/-- A frame with its members out of order, a name in escapes, a kind as a member, a member that no
command has, and white space of several sorts. -/
def roundabout : String :=
  "\u2003\x7b\"fi\\u0072e\":\x7b\"alt\":null\x7d,\n\"x\" : [[],1e999]," ++
    " \"tdir\":[-0.5 ,2E0] ,\"moving\":\"up\"\x7d\u0085"

/-- `-0.5`, as it is written. -/
def minusHalf : Numeral := ⟨true, [Digit.zero], [Digit.ofChar '5'], none⟩

/-- `2E0`, as it is written. -/
def twoFold : Numeral := ⟨false, [Digit.ofChar '2'], [], some ⟨true, none, [Digit.zero]⟩⟩

/-- `1e999`, as it is written: a number that is no double. -/
def beyond : Numeral :=
  ⟨false, [Digit.ofChar '1'], [], some ⟨false, none, ['9', '9', '9'].map Digit.ofChar⟩⟩

/-- The members of the frame. -/
def roundaboutMembers : List (String × Json) :=
  [("fire", .object [(.ofString "alt", .null)]),
    ("x", .array [.array [], .number beyond]),
    ("tdir", .array [.number minusHalf, .number twoFold]),
    ("moving", .ofString "up")]

theorem writes_roundabout : Writes roundabout roundaboutMembers := by
  let members : List (Json.Quoted × Json) :=
    (⟨[.plain 'f', .plain 'i', .unit '0' '0' '7' '2', .plain 'e']⟩,
        .object [(.ofString "alt", .null)]) :: Json.quoted roundaboutMembers.tail
  have htokens : Json.Token.ofText? (Text.trimChars roundabout.toList)
      = some (Json.object members).tokens := by decide +kernel
  have hhead : (Text.trimChars roundabout.toList).head? = some '\x7b' := by decide +kernel
  have hread := Json.ofChars?_of_ofText? htokens
  have hnamed : Named members roundaboutMembers := by
    refine .cons ⟨by decide +kernel, rfl⟩ ?_
    exact Json.named_quoted _
  obtain ⟨_, hmembers, hwrites⟩ := Json.exists_object_of_ofChars? hhead hread
  cases hmembers
  exact hwrites _ hnamed

theorem fits_roundabout : schema.Fits ⟨.up, .alt, ⟨-0.5, 2.0⟩⟩ roundaboutMembers := by
  have hx : minusHalf.float? = some (-0.5) := by decide +kernel
  have hy : twoFold.float? = some 2.0 := by decide +kernel
  simp only [schema, Json.Schema.Fits, List.forall_mem_cons, List.not_mem_nil, false_implies,
    implies_true, and_true]
  refine ⟨⟨_, rfl, .text (Json.Quoted.text?_ofString _)⟩,
    ⟨_, rfl, .member (Json.Quoted.text?_ofString _)⟩, ⟨_, rfl, .array ⟨_, rfl, hx⟩ ⟨_, rfl, hy⟩⟩⟩

theorem decode?_follows_grammar_roundabout :
    Writes roundabout roundaboutMembers ∧
      decode? roundabout = some ⟨.up, .alt, ⟨-0.5, 2.0⟩⟩ ∧ decode? (roundabout ++ "0") = none := by
  obtain ⟨hfits, -, -, hafter⟩ :=
    decode?_follows_grammar.2.1 roundabout roundaboutMembers writes_roundabout
  refine ⟨writes_roundabout, (hfits _).mpr fits_roundabout, hafter "0" ⟨'0', ?_, ?_⟩⟩
  · decide +kernel
  · decide

end Command

end TankArena
