import TankArena.Proofs.Wire.Lines
import TankArena.Proofs.Wire.Record
import TankArena.Wire.Snapshot
import TankArena.World.Tick

/-!
# Every line is one record

What the arena sends is a sequence of lines, one for each thing that it tells of, and each line is
read as the record of that thing (`every_line_is_one_record`).  Names are what a player has a say
in, and they have no say in the lines: a name is quoted without a control character
(`Record.printable_line`), so no line ends within it.
-/

namespace TankArena

/-! ## 1. Texts as lines -/

/-- The digits of a number, as a line. -/
theorem numberLine_eq (n : Nat) : numberLine n = (toString n).toList ++ ['\n'] := by
  unfold numberLine
  rw [Digit.map_char_digits]
  rfl

theorem not_mem_number (n : Nat) : '\n' ∉ (toString n).toList := by
  intro h
  have hdigits : (toString n).toList = (Digit.digits n).map Digit.char :=
    (Digit.map_char_digits n).symm
  rw [hdigits] at h
  obtain ⟨d, -, hd⟩ := List.mem_map.mp h
  exact Digit.ne_of_isDigit (Digit.isDigit_char d) (by decide) hd

namespace Record

theorem lineText_eq (r : Record Float) : r.lineText = r.line.toList ++ ['\n'] := by
  unfold lineText
  rw [toList_line]

theorem not_mem_line (r : Record Float) : '\n' ∉ r.line.toList := by
  intro h
  exact absurd (r.printable_line _ h) (by decide)

end Record

/-- Records in a row are their lines, and nothing after them. -/
theorem splitOn_lineTexts (records : List (Record Float)) :
    (records.flatMap Record.lineText).splitOn '\n'
      = (records.map fun r => r.line.toList) ++ [[]] := by
  have hlines : records.flatMap Record.lineText
      = (records.map fun r => r.line.toList).flatMap fun l => l ++ ['\n'] := by
    rw [List.flatMap_map]
    exact List.flatMap_congr fun r _ => r.lineText_eq
  rw [hlines]
  refine splitOn_terminated fun l hl => ?_
  obtain ⟨r, -, rfl⟩ := List.mem_map.mp hl
  exact r.not_mem_line

theorem splitOn_snapshotText (records : List (Record Float)) :
    (snapshotText records).toList.splitOn '\n'
      = (records.map fun r => r.line.toList) ++ [[]] := by
  unfold snapshotText
  rw [String.toList_ofList, splitOn_lineTexts]

/-- A handshake is two numbers and then the lines of the walls. -/
theorem splitOn_handshakeText (id : UInt32) (size : Nat) (walls : List (Wall Float)) :
    (handshakeText id size walls).toList.splitOn '\n'
      = (toString id.toNat).toList :: (toString size).toList
          :: ((walls.map Record.wall).map fun r => r.line.toList) ++ [[]] := by
  have hwalls := splitOn_lineTexts (walls.map Record.wall)
  rw [List.flatMap_map] at hwalls
  unfold handshakeText
  rw [String.toList_ofList, numberLine_eq, numberLine_eq]
  simp only [List.append_assoc, List.cons_append, List.nil_append]
  rw [List.splitOn_append_cons_self_of_not_mem (not_mem_number _),
    List.splitOn_append_cons_self_of_not_mem (not_mem_number _), hwalls]

/-! ## 2. Lines as records -/

theorem map_parse?_line {records : List (Record Float)} (hfinite : ∀ r ∈ records, r.Finite)
    (hsurvive : ∀ r ∈ records, r.Survives) :
    (records.map Record.line).map Record.parse? = records.map some := by
  rw [List.map_map]
  exact List.map_congr_left fun r hr => Record.parse?_line (hfinite r hr) (hsurvive r hr)

/-- **Every line is one record.**  A snapshot is one line for each tank, projectile, power-up and
beam, in this order, and a handshake is the digits of the id, the digits of the size and one line
for each wall; each of these lines is read as the record of its thing, field by field, and nothing
stands between them or after them. -/
theorem every_line_is_one_record :
    (∀ w : World Float, (∀ r ∈ w.records, r.Finite) → (∀ r ∈ w.records, r.Survives) →
      ∃ lines : List String,
        (snapshotText w.snapshot.2).toList.splitOn '\n' = lines.map String.toList ++ [[]] ∧
        lines.map Record.parse?
          = w.tanks.map (fun t => some (.tank
              { id := t.id
                location := t.location
                body := t.orientation
                turret := t.aim
                name := t.name
                hitPoints := t.hitPoints
                score := t.score
                died := t.died
                disconnected := t.disconnected
                joined := t.joined }))
            ++ w.projectiles.map (fun p => some (.projectile
              { id := p.id
                location := p.location
                direction := p.direction
                died := p.died
                owner := p.owner }))
            ++ w.powerUps.map (fun p => some (.powerUp
              { id := p.id, location := p.location, died := p.died }))
            ++ w.beams.map (fun b => some (.beam
              { id := b.id, origin := b.origin, direction := b.direction, owner := b.owner }))) ∧
    ∀ (id : UInt32) (size : Nat) (walls : List (Wall Float)),
      (∀ r ∈ walls, (Record.wall r).Finite) → (∀ r ∈ walls, (Record.wall r).Survives) →
      ∃ lines : List String,
        (handshakeText id size walls).toList.splitOn '\n'
          = (toString id.toNat).toList :: (toString size).toList
              :: lines.map String.toList ++ [[]] ∧
        lines.map Record.parse? = walls.map fun r => some (.wall r) := by
  refine ⟨fun w hfinite hsurvive => ?_, fun id size walls hfinite hsurvive => ?_⟩
  · refine ⟨w.records.map Record.line, ?_, ?_⟩
    · rw [List.map_map]
      exact splitOn_snapshotText w.records
    · rw [map_parse?_line hfinite hsurvive]
      unfold World.records
      simp only [List.map_append, List.map_map, Function.comp_def, Tank.record, Projectile.record,
        PowerUp.record, Beam.record]
  · refine ⟨(walls.map Record.wall).map Record.line, ?_, ?_⟩
    · rw [List.map_map]
      exact splitOn_handshakeText id size walls
    · rw [map_parse?_line (List.forall_mem_map.mpr hfinite) (List.forall_mem_map.mpr hsurvive),
        List.map_map]
      rfl

/-- A world with a tank whose name looks like a record of its own. -/
def disguised : World Float :=
  { World.empty {} (Source.ofSeed 0) with
    tanks := [Tank.fresh 7 "a\n\x7b\"beam\":1\x7d\n\u0000ü" ⟨0.1, -0.8⟩]
    projectiles := [⟨1, ⟨1.0e-300, 2.5⟩, ⟨0.0, -1.0⟩, 7, false⟩]
    powerUps := [PowerUp.fresh 2 ⟨-3.0, 0.3⟩]
    beams := [⟨3, ⟨1.0, 1.0⟩, ⟨-1.0, 0.0⟩, 7, 0⟩] }

theorem every_line_is_one_record_disguised :
    (∀ r ∈ disguised.records, r.Finite ∧ r.Survives) ∧
    (∃ lines : List String,
      (snapshotText disguised.snapshot.2).toList.splitOn '\n' = lines.map String.toList ++ [[]] ∧
      lines.length = 4 ∧ lines.map Record.parse? = disguised.records.map some) ∧
    ∃ line : String,
      (handshakeText 7 2000 [⟨0, ⟨-100.0, 0.5⟩, ⟨100.0, 0.5⟩⟩]).toList.splitOn '\n'
        = ["7".toList, "2000".toList, line.toList, []] ∧
      Record.parse? line = some (.wall ⟨0, ⟨-100.0, 0.5⟩, ⟨100.0, 0.5⟩⟩) := by
  have hfinite : ∀ r ∈ disguised.records, r.Finite := by decide +kernel
  have hsurvive : ∀ r ∈ disguised.records, r.Survives := by decide +kernel
  have hwall : (Record.wall ⟨0, ⟨-100.0, 0.5⟩, ⟨100.0, 0.5⟩⟩).Finite := by decide +kernel
  have hwritten : (Record.wall ⟨0, ⟨-100.0, 0.5⟩, ⟨100.0, 0.5⟩⟩).Survives := by decide +kernel
  refine ⟨fun r hr => ⟨hfinite r hr, hsurvive r hr⟩, ?_, ?_⟩
  · obtain ⟨lines, hlines, hparsed⟩ := every_line_is_one_record.1 disguised hfinite hsurvive
    have hlength : lines.length = 4 := by
      rw [← List.length_map Record.parse?, hparsed]
      rfl
    exact ⟨lines, hlines, hlength, hparsed⟩
  · obtain ⟨lines, hlines, hparsed⟩ := every_line_is_one_record.2 7 2000
      [⟨0, ⟨-100.0, 0.5⟩, ⟨100.0, 0.5⟩⟩] (by simpa using hwall) (by simpa using hwritten)
    obtain ⟨line, rfl, hline⟩ := List.map_eq_singleton_iff.mp hparsed
    exact ⟨line, hlines, hline⟩

end TankArena
