import TankArena.Proofs.Wire.Number
import TankArena.Wire.Record

/-!
# Records survive the wire

The line of a record is read as the record, of the same kind and with the same fields, if its
vectors are (`Record.parse?_line`).

A reader does not ask for the kind first: it tries the five kinds in turn and takes the first whose
fields are all there.  So no record may have all the fields of an earlier kind.  The first field of
each kind is enough for that, since no other kind has a field of that name
(`Record.ofJson?_toJson`).

What a tank is called matters nowhere.  A name is a quoted text, which reads as what was quoted, and
its quotation has no control character, whatever the name is.
-/

namespace TankArena

open Json (ofNat ofBool ofString ofMembers)

/-! ## 1. The kinds of records -/

namespace Wall

/-- A wall is read as far as its ends are. -/
theorem ofJson?_toJson {r : Wall Float} (hp1 : Vec.ofJson? r.p1.toJson = some r.p1)
    (hp2 : Vec.ofJson? r.p2.toJson = some r.p2) : ofJson? r.toJson = some r := by
  have hfields : r.toJson.allFields? ["wall", "p1", "p2"]
      = some [ofNat r.id.toNat, r.p1.toJson, r.p2.toJson] :=
    Json.allFields?_ofMembers rfl (by decide)
  unfold ofJson?
  simp only [hfields, hp1, hp2, Json.uint32?_ofNat, Option.bind_eq_bind, Option.bind_some,
    Option.pure_def]

theorem ofJson?_eq_none {ms : List (String × Json)} (h : "wall" ∉ ms.map Prod.fst) :
    ofJson? (ofMembers ms) = none := by
  unfold ofJson?
  rw [Json.allFields?_eq_none List.mem_cons_self h]
  rfl

end Wall

namespace TankRecord

/-- A tank is read as far as its vectors are. -/
theorem ofJson?_toJson {r : TankRecord Float}
    (hlocation : Vec.ofJson? r.location.toJson = some r.location)
    (hbody : Vec.ofJson? r.body.toJson = some r.body)
    (hturret : Vec.ofJson? r.turret.toJson = some r.turret) : ofJson? r.toJson = some r := by
  have hfields : r.toJson.allFields?
        ["tank", "loc", "bdir", "tdir", "name", "hp", "score", "died", "dc", "join"]
      = some [ofNat r.id.toNat, r.location.toJson, r.body.toJson, r.turret.toJson,
          ofString r.name, ofNat r.hitPoints.toNat, ofNat r.score.toNat, ofBool r.died,
          ofBool r.disconnected, ofBool r.joined] :=
    Json.allFields?_ofMembers rfl (by decide)
  unfold ofJson?
  simp only [hfields, hlocation, hbody, hturret, Json.uint32?_ofNat, Json.uint8?_ofNat,
    Json.string?_ofString, Json.bool?_ofBool, Option.bind_eq_bind, Option.bind_some,
    Option.pure_def]

theorem ofJson?_eq_none {ms : List (String × Json)} (h : "tank" ∉ ms.map Prod.fst) :
    ofJson? (ofMembers ms) = none := by
  unfold ofJson?
  rw [Json.allFields?_eq_none List.mem_cons_self h]
  rfl

end TankRecord

namespace ProjectileRecord

/-- A projectile is read as far as its vectors are. -/
theorem ofJson?_toJson {r : ProjectileRecord Float}
    (hlocation : Vec.ofJson? r.location.toJson = some r.location)
    (hdirection : Vec.ofJson? r.direction.toJson = some r.direction) :
    ofJson? r.toJson = some r := by
  have hfields : r.toJson.allFields? ["proj", "loc", "dir", "died", "owner"]
      = some [ofNat r.id.toNat, r.location.toJson, r.direction.toJson, ofBool r.died,
          ofNat r.owner.toNat] :=
    Json.allFields?_ofMembers rfl (by decide)
  unfold ofJson?
  simp only [hfields, hlocation, hdirection, Json.uint32?_ofNat, Json.bool?_ofBool,
    Option.bind_eq_bind, Option.bind_some, Option.pure_def]

theorem ofJson?_eq_none {ms : List (String × Json)} (h : "proj" ∉ ms.map Prod.fst) :
    ofJson? (ofMembers ms) = none := by
  unfold ofJson?
  rw [Json.allFields?_eq_none List.mem_cons_self h]
  rfl

end ProjectileRecord

namespace PowerUpRecord

/-- A power-up is read as far as its place is. -/
theorem ofJson?_toJson {r : PowerUpRecord Float}
    (hlocation : Vec.ofJson? r.location.toJson = some r.location) :
    ofJson? r.toJson = some r := by
  have hfields : r.toJson.allFields? ["power", "loc", "died"]
      = some [ofNat r.id.toNat, r.location.toJson, ofBool r.died] :=
    Json.allFields?_ofMembers rfl (by decide)
  unfold ofJson?
  simp only [hfields, hlocation, Json.uint32?_ofNat, Json.bool?_ofBool, Option.bind_eq_bind,
    Option.bind_some, Option.pure_def]

theorem ofJson?_eq_none {ms : List (String × Json)} (h : "power" ∉ ms.map Prod.fst) :
    ofJson? (ofMembers ms) = none := by
  unfold ofJson?
  rw [Json.allFields?_eq_none List.mem_cons_self h]
  rfl

end PowerUpRecord

namespace BeamRecord

/-- A beam is read as far as its vectors are. -/
theorem ofJson?_toJson {r : BeamRecord Float}
    (horigin : Vec.ofJson? r.origin.toJson = some r.origin)
    (hdirection : Vec.ofJson? r.direction.toJson = some r.direction) :
    ofJson? r.toJson = some r := by
  have hfields : r.toJson.allFields? ["beam", "org", "dir", "owner"]
      = some [ofNat r.id.toNat, r.origin.toJson, r.direction.toJson, ofNat r.owner.toNat] :=
    Json.allFields?_ofMembers rfl (by decide)
  unfold ofJson?
  simp only [hfields, horigin, hdirection, Json.uint32?_ofNat, Option.bind_eq_bind,
    Option.bind_some, Option.pure_def]

end BeamRecord

/-! ## 2. Records of any kind -/

namespace Record

/-- The vectors of a record. -/
def vectors {K : Type} : Record K → List (Vec K)
  | wall r => [r.p1, r.p2]
  | tank r => [r.location, r.body, r.turret]
  | projectile r => [r.location, r.direction]
  | powerUp r => [r.location]
  | beam r => [r.origin, r.direction]

/-- **Each kind is told from those that are tried before it.**  Every case goes through the kinds in
their order: the earlier ones find no member of the name of their first field. -/
theorem ofJson?_toJson {r : Record Float}
    (h : ∀ v ∈ r.vectors, Vec.ofJson? v.toJson = some v) : ofJson? r.toJson = some r := by
  unfold ofJson? toJson
  cases r with
  | wall r =>
    simp only [vectors, List.forall_mem_cons] at h
    rw [Wall.ofJson?_toJson h.1 h.2.1]
    rfl
  | tank r =>
    simp only [vectors, List.forall_mem_cons] at h
    have hwall : Wall.ofJson? r.toJson = none := Wall.ofJson?_eq_none (by simp)
    dsimp only
    rw [hwall, TankRecord.ofJson?_toJson h.1 h.2.1 h.2.2.1]
    rfl
  | projectile r =>
    simp only [vectors, List.forall_mem_cons] at h
    have hwall : Wall.ofJson? r.toJson = none := Wall.ofJson?_eq_none (by simp)
    have htank : TankRecord.ofJson? r.toJson = none := TankRecord.ofJson?_eq_none (by simp)
    dsimp only
    rw [hwall, htank, ProjectileRecord.ofJson?_toJson h.1 h.2.1]
    rfl
  | powerUp r =>
    simp only [vectors, List.forall_mem_cons] at h
    have hwall : Wall.ofJson? r.toJson = none := Wall.ofJson?_eq_none (by simp)
    have htank : TankRecord.ofJson? r.toJson = none := TankRecord.ofJson?_eq_none (by simp)
    have hprojectile : ProjectileRecord.ofJson? r.toJson = none :=
      ProjectileRecord.ofJson?_eq_none (by simp)
    dsimp only
    rw [hwall, htank, hprojectile, PowerUpRecord.ofJson?_toJson h.1]
    rfl
  | beam r =>
    simp only [vectors, List.forall_mem_cons] at h
    have hwall : Wall.ofJson? r.toJson = none := Wall.ofJson?_eq_none (by simp)
    have htank : TankRecord.ofJson? r.toJson = none := TankRecord.ofJson?_eq_none (by simp)
    have hprojectile : ProjectileRecord.ofJson? r.toJson = none :=
      ProjectileRecord.ofJson?_eq_none (by simp)
    have hpowerUp : PowerUpRecord.ofJson? r.toJson = none := PowerUpRecord.ofJson?_eq_none (by simp)
    dsimp only
    rw [hwall, htank, hprojectile, hpowerUp, BeamRecord.ofJson?_toJson h.1 h.2.1]
    rfl

/-! ## 3. Lines -/

/-- Whether the vectors of a record are finite. -/
def Finite (r : Record Float) : Prop := ∀ v ∈ r.vectors, v.Finite

instance (r : Record Float) : Decidable r.Finite :=
  inferInstanceAs (Decidable (∀ v ∈ r.vectors, v.Finite))

/-- Whether the vectors of a record survive being written. -/
def Survives (r : Record Float) : Prop := ∀ v ∈ r.vectors, v.Survives

instance (r : Record Float) : Decidable r.Survives :=
  inferInstanceAs (Decidable (∀ v ∈ r.vectors, v.Survives))

theorem legible_toJson (r : Record Float) : r.toJson.Legible := by
  cases r <;> refine Json.legible_ofMembers ?_ <;>
    simp [Json.legible_ofNat, Json.legible_ofString, Json.legible_ofBool, Vec.legible_toJson]

theorem buildable_toJson {r : Record Float} (hfinite : r.Finite) (hr : r.Survives) (depth : Nat) :
    r.toJson.buildable (depth + 2) = true := by
  have hvector : ∀ v ∈ r.vectors, v.toJson.buildable (depth + 1) = true :=
    fun v hv => Vec.buildable_toJson depth (hfinite v hv) (hr v hv)
  cases r <;> refine Json.buildable_ofMembers ?_ <;>
    simp_all [vectors, Json.buildable_uint32, Json.buildable_uint8, Json.buildable_ofString,
      Json.buildable_ofBool]

theorem exists_toJson_eq (r : Record Float) : ∃ members, r.toJson = .object members := by
  cases r <;> exact ⟨_, rfl⟩

theorem toList_line (r : Record Float) : r.line.toList = r.toJson.text := String.toList_ofList

/-- A line has no control character in it, a line feed for instance. -/
theorem printable_line (r : Record Float) : Json.Printable r.line.toList := by
  rw [toList_line]
  exact r.legible_toJson.printable_text

/-- **Records survive the wire.** -/
theorem parse?_line {r : Record Float} (hfinite : r.Finite) (hr : r.Survives) :
    parse? r.line = some r := by
  have htrim : Text.trimChars r.line.toList = r.toJson.text := by
    obtain ⟨members, hmembers⟩ := r.exists_toJson_eq
    have h := Json.trimChars_text_object members [] (by simp)
    rw [toList_line, hmembers]
    rwa [List.append_nil] at h
  have hvectors : ∀ v ∈ r.vectors, Vec.ofJson? v.toJson = some v :=
    fun v hv => Vec.ofJson?_toJson (hfinite v hv) (hr v hv)
  have hbuildable : r.toJson.buildable Json.maxDepth = true := buildable_toJson hfinite hr 125
  unfold parse?
  rw [htrim, r.legible_toJson.ofChars?_text]
  dsimp only
  rw [if_pos hbuildable, ofJson?_toJson hvectors]

end Record

end TankArena
