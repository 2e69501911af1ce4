import TankArena.Proofs.Wire.Lines
import TankArena.Proofs.Wire.Number
import TankArena.Wire.Command

/-!
# Commands survive the wire

A command that is written as a line, sent through a framer and decoded is the same command
(`commands_survive`).  Four parts of the library meet here, and each does its share:

* the written value is read as itself (`Json.Legible.ofChars?_text`), and its fields are the names
  of the two kinds and the vector (`ofJson?_toJson_eq`);
* the line has no line feed but its own and is short enough to be kept (`length_line_le`), so the
  framer hands it out whole wherever the reads end (`Framer.pushAll_texts`);
* trimming leaves an object alone, with or without the line feed (`decode?_line`).

A command whose aim is not finite is written as well, since nothing stops it, but as a line that is
no command: it is dropped, and it is not taken for another one.
-/

namespace TankArena

/-! ## 1. The two kinds -/

theorem Drive.ofJson?_name (d : Drive) : Drive.ofJson? (.ofString d.name) = some d := by
  unfold Drive.ofJson?
  rw [Json.oneOf?_ofString]
  cases d <;> rfl

theorem Trigger.ofJson?_name (t : Trigger) : Trigger.ofJson? (.ofString t.name) = some t := by
  unfold Trigger.ofJson?
  rw [Json.oneOf?_ofString]
  cases t <;> rfl

namespace Command

/-! ## 2. A command as a value -/

theorem legible_toJson (c : Command Float) : c.toJson.Legible := by
  refine Json.legible_ofMembers ?_
  simp [Json.legible_ofString, Vec.legible_toJson]

/-- A command is read as far as its aim is. -/
theorem ofJson?_toJson_eq (c : Command Float) :
    ofJson? c.toJson
      = (Vec.ofJson? c.aim.toJson).bind fun aim => some ⟨c.drive, c.trigger, aim⟩ := by
  have hfields : c.toJson.allFields? ["moving", "fire", "tdir"]
      = some [.ofString c.drive.name, .ofString c.trigger.name, c.aim.toJson] :=
    Json.allFields?_ofMembers rfl (by decide)
  unfold ofJson?
  simp only [hfields, Drive.ofJson?_name, Trigger.ofJson?_name, Option.bind_eq_bind,
    Option.bind_some, Option.pure_def]

/-! ## 3. A command as a line -/

/-- A command as a line, without its line feed. -/
def line (c : Command Float) : String := c.toJson.render

theorem toList_line (c : Command Float) : c.line.toList = c.toJson.text := String.toList_ofList

theorem encode_eq (c : Command Float) : c.encode = c.line ++ "\n" := by
  unfold encode line Json.render
  rw [String.ofList_append]

theorem printable_line (c : Command Float) : Json.Printable c.line.toList := by
  rw [toList_line]
  exact c.legible_toJson.printable_text

/-- Nearly all of a line are the two numbers of the aim.  The bound is generous, and its fourfold is
still below what a framer keeps. -/
theorem length_line_le (c : Command Float) : c.line.toList.length ≤ 11100 := by
  have hdrive : (Json.ofString c.drive.name).text.length ≤ 7 := by
    cases c.drive <;> decide
  have htrigger : (Json.ofString c.trigger.name).text.length ≤ 6 := by
    cases c.trigger <;> decide
  have hnames : (Json.Quoted.ofString "moving").text.length
      + (Json.Quoted.ofString "fire").text.length + (Json.Quoted.ofString "tdir").text.length
      + (Json.Quoted.ofString "x").text.length + (Json.Quoted.ofString "y").text.length = 26 := by
    decide
  have hx := Json.length_ofFloat_le c.aim.x
  have hy := Json.length_ofFloat_le c.aim.y
  rw [toList_line]
  unfold toJson Vec.toJson Json.ofMembers
  simp only [List.map_cons, List.map_nil, Json.text, Json.memberText, Json.membersText,
    List.length_cons, List.length_append, List.length_nil]
  omega

/-- **A frame of a command is decoded as its value is**, whatever white space follows. -/
theorem decode?_line (c : Command Float) (blanks : List Char)
    (h : ∀ b ∈ blanks, Text.isBlank b = true) :
    decode? (c.line ++ String.ofList blanks) = ofJson? c.toJson := by
  have htrim : Text.trimChars (c.line ++ String.ofList blanks).toList = c.toJson.text := by
    rw [String.toList_append, String.toList_ofList, toList_line]
    exact Json.trimChars_text_object _ blanks h
  have hopen : c.toJson.text.head? = some '\x7b' := Json.head?_text_object _
  unfold decode?
  rw [htrim]
  dsimp only
  rw [if_pos hopen, c.legible_toJson.ofChars?_text]
  rfl

/-- The command that the line of a command is decoded as. -/
def decoded? (c : Command Float) : Option (Command Float) :=
  if c.aim.Finite then some c else none

theorem ofJson?_toJson {c : Command Float} (hc : c.aim.Finite → c.aim.Survives) :
    ofJson? c.toJson = c.decoded? := by
  unfold decoded?
  rw [ofJson?_toJson_eq]
  split
  · rename_i hfinite
    rw [Vec.ofJson?_toJson hfinite (hc hfinite)]
    rfl
  · rename_i hinfinite
    rw [Vec.ofJson?_eq_none hinfinite]
    rfl

/-- Neither the line feed nor its absence matters to the decoder. -/
theorem decode?_line_eq (c : Command Float) : decode? c.line = ofJson? c.toJson := by
  have h := c.decode?_line [] (by simp)
  rwa [String.ofList_nil, String.append_empty] at h

theorem decode?_encode_eq (c : Command Float) : decode? c.encode = ofJson? c.toJson := by
  rw [encode_eq]
  exact c.decode?_line ['\n'] (List.forall_mem_singleton.mpr (by decide))

/-! ## 4. Commands on a stream -/

theorem encode_bytes (c : Command Float) :
    Utf8.encode c.encode = Utf8.encode c.line ++ [Framer.lineFeed] := by
  have hfeed : Utf8.encode "\n" = [Framer.lineFeed] := by decide +kernel
  rw [encode_eq, Utf8.encode_append, hfeed]

/-- The frames of a stream of commands are their lines. -/
theorem pushAll_lines {cs : List (Command Float)} {reads : List (List UInt8)}
    (hreads : reads.flatten = cs.flatMap fun c => Utf8.encode c.encode) :
    (Framer.fresh Rules.maxPendingBytes).pushAll reads
      = (Framer.fresh Rules.maxPendingBytes, cs.map line) := by
  refine Framer.pushAll_texts ?_ ?_ ?_ ?_
  · intro s hs
    obtain ⟨c, -, rfl⟩ := List.mem_map.mp hs
    exact c.printable_line
  · intro s hs hempty
    obtain ⟨c, -, rfl⟩ := List.mem_map.mp hs
    have hopen : c.toJson.text.head? = some '\x7b' := Json.head?_text_object _
    rw [← toList_line, hempty] at hopen
    cases hopen
  · intro s hs
    obtain ⟨c, -, rfl⟩ := List.mem_map.mp hs
    have hbytes := Utf8.length_encode_le c.line
    have hchars := c.length_line_le
    have hlimit : Rules.maxPendingBytes = 65536 := rfl
    omega
  · rw [hreads, List.flatMap_map]
    exact List.flatMap_congr fun c _ => c.encode_bytes

/-- **Commands survive the wire.**  However the lines of some commands are cut into reads, nothing
is left waiting, and the frames decode to the commands themselves, in order; where the aim of a
command is not finite, its frame decodes to no command. -/
theorem commands_survive {cs : List (Command Float)} {reads : List (List UInt8)}
    (hreads : reads.flatten = cs.flatMap fun c => Utf8.encode c.encode)
    (hcs : ∀ c ∈ cs, c.aim.Finite → c.aim.Survives) :
    let (framer, frames) := (Framer.fresh Rules.maxPendingBytes).pushAll reads
    framer.pendingLength = 0 ∧
      frames.map decode? = cs.map decoded? ∧
      ((∀ c ∈ cs, c.aim.Finite) → frames.map decode? = cs.map some) ∧
      ∀ c : Command Float, ¬ c.aim.Finite → decode? c.encode = none := by
  rw [pushAll_lines hreads]
  have hdecoded : (cs.map line).map decode? = cs.map decoded? := by
    rw [List.map_map]
    refine List.map_congr_left fun c hc => ?_
    rw [Function.comp_apply, decode?_line_eq, ofJson?_toJson (hcs c hc)]
  refine ⟨rfl, hdecoded, ?_, ?_⟩
  · intro hfinite
    rw [hdecoded]
    exact List.map_congr_left fun c hc => if_pos (hfinite c hc)
  · intro c hinfinite
    rw [decode?_encode_eq, ofJson?_toJson fun hfinite => absurd hfinite hinfinite]
    exact if_neg hinfinite

/-- Three commands, the second of which aims nowhere. -/
def threeAims : List (Command Float) :=
  [⟨.up, .main, ⟨0.1, -0.8⟩⟩, ⟨.hold, .alt, ⟨1.0, 1.0 / 0.0⟩⟩, ⟨.left, .idle, ⟨1.0e-300, 2.5⟩⟩]

theorem commands_survive_threeAims :
    let stream := threeAims.flatMap fun c => Utf8.encode c.encode
    let (framer, frames) :=
      (Framer.fresh Rules.maxPendingBytes).pushAll [stream.take 7, [], stream.drop 7]
    (∀ c ∈ threeAims, c.aim.Finite → c.aim.Survives) ∧ framer.pendingLength = 0 ∧
      frames.map decode? = [threeAims[0]?, none, threeAims[2]?] := by
  intro stream
  have hreads : [stream.take 7, [], stream.drop 7].flatten = stream := by simp
  have hcs : ∀ c ∈ threeAims, c.aim.Finite → c.aim.Survives := by decide +kernel
  obtain ⟨hpending, hframes, -⟩ := commands_survive hreads hcs
  have hfirst : (⟨0.1, -0.8⟩ : Vec Float).Finite := by decide +kernel
  have hsecond : ¬ (⟨1.0, 1.0 / 0.0⟩ : Vec Float).Finite := by decide +kernel
  have hthird : (⟨1.0e-300, 2.5⟩ : Vec Float).Finite := by decide +kernel
  refine ⟨hcs, hpending, hframes.trans ?_⟩
  simp [threeAims, decoded?, hfirst, hsecond, hthird]

end Command

end TankArena
