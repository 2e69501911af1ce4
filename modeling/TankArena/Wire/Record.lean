import TankArena.Record
import TankArena.Text.Blank
import TankArena.Wire.Number

/-!
# Records on the wire

A record is one line: an object whose first member names the kind of thing by its key and the
thing by its value.  A reader goes by the fields alone: it builds the whole value first and then
takes the first kind of record, in the order wall, tank, projectile, power-up, beam, whose fields
are all there.
-/

namespace TankArena

open Json (ofFloat ofNat ofBool ofString ofMembers)

/-! ## 1. The kinds of records -/

namespace Wall

/-- A wall as a value. -/
def toJson (r : Wall Float) : Json :=
  ofMembers [("wall", ofNat r.id.toNat), ("p1", r.p1.toJson), ("p2", r.p2.toJson)]

/-- The wall that a value is. -/
def ofJson? (v : Json) : Option (Wall Float) := do
  match ← v.allFields? ["wall", "p1", "p2"] with
  | [id, p1, p2] => return ⟨← id.uint32?, ← Vec.ofJson? p1, ← Vec.ofJson? p2⟩
  | _ => none

end Wall

namespace TankRecord

/-- A tank as a value. -/
def toJson (r : TankRecord Float) : Json :=
  ofMembers
    [("tank", ofNat r.id.toNat), ("loc", r.location.toJson), ("bdir", r.body.toJson),
      ("tdir", r.turret.toJson), ("name", ofString r.name), ("hp", ofNat r.hitPoints.toNat),
      ("score", ofNat r.score.toNat), ("died", ofBool r.died), ("dc", ofBool r.disconnected),
      ("join", ofBool r.joined)]

/-- The tank that a value is. -/
def ofJson? (v : Json) : Option (TankRecord Float) := do
  match ← v.allFields?
      ["tank", "loc", "bdir", "tdir", "name", "hp", "score", "died", "dc", "join"] with
  | [id, loc, bdir, tdir, name, hp, score, died, dc, join] =>
    return {
      id := ← id.uint32?
      location := ← Vec.ofJson? loc
      body := ← Vec.ofJson? bdir
      turret := ← Vec.ofJson? tdir
      name := ← name.string?
      hitPoints := ← hp.uint8?
      score := ← score.uint32?
      died := ← died.bool?
      disconnected := ← dc.bool?
      joined := ← join.bool? }
  | _ => none

end TankRecord

namespace ProjectileRecord

/-- A projectile as a value. -/
def toJson (r : ProjectileRecord Float) : Json :=
  ofMembers
    [("proj", ofNat r.id.toNat), ("loc", r.location.toJson), ("dir", r.direction.toJson),
      ("died", ofBool r.died), ("owner", ofNat r.owner.toNat)]

/-- The projectile that a value is. -/
def ofJson? (v : Json) : Option (ProjectileRecord Float) := do
  match ← v.allFields? ["proj", "loc", "dir", "died", "owner"] with
  | [id, loc, dir, died, owner] =>
    return ⟨← id.uint32?, ← Vec.ofJson? loc, ← Vec.ofJson? dir, ← died.bool?, ← owner.uint32?⟩
  | _ => none

end ProjectileRecord

namespace PowerUpRecord

/-- A power-up as a value. -/
def toJson (r : PowerUpRecord Float) : Json :=
  ofMembers [("power", ofNat r.id.toNat), ("loc", r.location.toJson), ("died", ofBool r.died)]

/-- The power-up that a value is. -/
def ofJson? (v : Json) : Option (PowerUpRecord Float) := do
  match ← v.allFields? ["power", "loc", "died"] with
  | [id, loc, died] => return ⟨← id.uint32?, ← Vec.ofJson? loc, ← died.bool?⟩
  | _ => none

end PowerUpRecord

namespace BeamRecord

/-- A beam as a value. -/
def toJson (r : BeamRecord Float) : Json :=
  ofMembers
    [("beam", ofNat r.id.toNat), ("org", r.origin.toJson), ("dir", r.direction.toJson),
      ("owner", ofNat r.owner.toNat)]

/-- The beam that a value is. -/
def ofJson? (v : Json) : Option (BeamRecord Float) := do
  match ← v.allFields? ["beam", "org", "dir", "owner"] with
  | [id, org, dir, owner] =>
    return ⟨← id.uint32?, ← Vec.ofJson? org, ← Vec.ofJson? dir, ← owner.uint32?⟩
  | _ => none

end BeamRecord

/-! ## 2. Records of any kind -/

namespace Record

/-- A record as a value. -/
def toJson : Record Float → Json
  | wall r => r.toJson
  | tank r => r.toJson
  | projectile r => r.toJson
  | powerUp r => r.toJson
  | beam r => r.toJson

/-- The record that a value is. -/
def ofJson? (v : Json) : Option (Record Float) :=
  (Wall.ofJson? v).map wall <|>
    (TankRecord.ofJson? v).map tank <|>
    (ProjectileRecord.ofJson? v).map projectile <|>
    (PowerUpRecord.ofJson? v).map powerUp <|>
    (BeamRecord.ofJson? v).map beam

/-- A record as a line, without its line feed. -/
def line (r : Record Float) : String := r.toJson.render

/-- The record of a line, if it is one.  White space around it does not matter. -/
def parse? (line : String) : Option (Record Float) :=
  match Json.ofChars? (Text.trimChars line.toList) with
  | some v => if v.buildable Json.maxDepth then ofJson? v else none
  | none => none

end Record

end TankArena
