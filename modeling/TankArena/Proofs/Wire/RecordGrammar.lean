import TankArena.Proofs.Wire.Record

/-!
# The lines that are records

Five kinds of records share names of fields, a line does not say which kind it is, and a reader
tries one kind after the other and skips the members that it does not ask for.  Still no record is
ever read as one of another kind, however it is written (`parse?_by_kind`): each kind has a field
that no other kind has (`Kind.eq_of_key_mem`), and without it a line is not of the kind.

So among lines whose members are fields of one kind and members that are no field of any kind,

* a line is read as a record of this kind, and as which one, by the values under the names of its
  fields alone (`parse?_of_writes`);
* a line is no record if one of the fields is missing, occurs twice or has a value that its type
  does not accept.

Here a line may be written by anyone: with its members in any order, with other digits for a number
and other escapes for a text.  What is asked of the other members is that they can be built.
-/

namespace TankArena

open Json (IsFlag IsText IsVector IsWord Named Writes)

/-! ## 1. The fields of each kind -/

namespace Wall

/-- The fields of a wall. -/
def schema : Json.Schema (Wall Float) :=
  [("wall", fun r => IsWord r.id.toNat), ("p1", fun r => IsVector r.p1),
    ("p2", fun r => IsVector r.p2)]

theorem ofJson?_iff_reads {v : Json} {r : Wall Float} : ofJson? v = some r ↔ schema.Reads r v := by
  unfold ofJson?
  refine Json.Schema.bind_allFields?_iff (S := schema) fun vs => ?_
  split
  · obtain ⟨id, p1, p2⟩ := r
    simp [schema, Option.bind_eq_some_iff, Json.uint32?_eq_some_iff, Vec.ofJson?_eq_some_iff]
  · rename_i hother
    refine iff_of_false (by simp) fun h => ?_
    iterate 3 obtain _ | ⟨_, h⟩ := h
    cases h
    exact hother _ _ _ rfl

end Wall

namespace TankRecord

/-- The fields of a tank. -/
def schema : Json.Schema (TankRecord Float) :=
  [("tank", fun r => IsWord r.id.toNat), ("loc", fun r => IsVector r.location),
    ("bdir", fun r => IsVector r.body), ("tdir", fun r => IsVector r.turret),
    ("name", fun r => IsText r.name), ("hp", fun r => IsWord r.hitPoints.toNat),
    ("score", fun r => IsWord r.score.toNat), ("died", fun r => IsFlag r.died),
    ("dc", fun r => IsFlag r.disconnected), ("join", fun r => IsFlag r.joined)]

theorem ofJson?_iff_reads {v : Json} {r : TankRecord Float} :
    ofJson? v = some r ↔ schema.Reads r v := by
  unfold ofJson?
  refine Json.Schema.bind_allFields?_iff (S := schema) fun vs => ?_
  split
  · obtain ⟨id, location, body, turret, name, hitPoints, score, died, disconnected, joined⟩ := r
    simp [schema, Option.bind_eq_some_iff, Json.uint32?_eq_some_iff, Json.uint8?_eq_some_iff,
      Json.string?_eq_some_iff, Json.bool?_eq_some_iff, Vec.ofJson?_eq_some_iff, -Bool.exists_bool]
  · rename_i hother
    refine iff_of_false (by simp) fun h => ?_
    iterate 10 obtain _ | ⟨_, h⟩ := h
    cases h
    exact hother _ _ _ _ _ _ _ _ _ _ rfl

end TankRecord

namespace ProjectileRecord

/-- The fields of a projectile. -/
def schema : Json.Schema (ProjectileRecord Float) :=
  [("proj", fun r => IsWord r.id.toNat), ("loc", fun r => IsVector r.location),
    ("dir", fun r => IsVector r.direction), ("died", fun r => IsFlag r.died),
    ("owner", fun r => IsWord r.owner.toNat)]

theorem ofJson?_iff_reads {v : Json} {r : ProjectileRecord Float} :
    ofJson? v = some r ↔ schema.Reads r v := by
  unfold ofJson?
  refine Json.Schema.bind_allFields?_iff (S := schema) fun vs => ?_
  split
  · obtain ⟨id, location, direction, died, owner⟩ := r
    simp [schema, Option.bind_eq_some_iff, Json.uint32?_eq_some_iff, Json.bool?_eq_some_iff,
      Vec.ofJson?_eq_some_iff, -Bool.exists_bool]
  · rename_i hother
    refine iff_of_false (by simp) fun h => ?_
    iterate 5 obtain _ | ⟨_, h⟩ := h
    cases h
    exact hother _ _ _ _ _ rfl

end ProjectileRecord

namespace PowerUpRecord

/-- The fields of a power-up. -/
def schema : Json.Schema (PowerUpRecord Float) :=
  [("power", fun r => IsWord r.id.toNat), ("loc", fun r => IsVector r.location),
    ("died", fun r => IsFlag r.died)]

theorem ofJson?_iff_reads {v : Json} {r : PowerUpRecord Float} :
    ofJson? v = some r ↔ schema.Reads r v := by
  unfold ofJson?
  refine Json.Schema.bind_allFields?_iff (S := schema) fun vs => ?_
  split
  · obtain ⟨id, location, died⟩ := r
    simp [schema, Option.bind_eq_some_iff, Json.uint32?_eq_some_iff, Json.bool?_eq_some_iff,
      Vec.ofJson?_eq_some_iff, -Bool.exists_bool]
  · rename_i hother
    refine iff_of_false (by simp) fun h => ?_
    iterate 3 obtain _ | ⟨_, h⟩ := h
    cases h
    exact hother _ _ _ rfl

end PowerUpRecord

namespace BeamRecord

/-- The fields of a beam. -/
def schema : Json.Schema (BeamRecord Float) :=
  [("beam", fun r => IsWord r.id.toNat), ("org", fun r => IsVector r.origin),
    ("dir", fun r => IsVector r.direction), ("owner", fun r => IsWord r.owner.toNat)]

theorem ofJson?_iff_reads {v : Json} {r : BeamRecord Float} :
    ofJson? v = some r ↔ schema.Reads r v := by
  unfold ofJson?
  refine Json.Schema.bind_allFields?_iff (S := schema) fun vs => ?_
  split
  · obtain ⟨id, origin, direction, owner⟩ := r
    simp [schema, Option.bind_eq_some_iff, Json.uint32?_eq_some_iff, Vec.ofJson?_eq_some_iff]
  · rename_i hother
    refine iff_of_false (by simp) fun h => ?_
    iterate 4 obtain _ | ⟨_, h⟩ := h
    cases h
    exact hother _ _ _ _ rfl

end BeamRecord

namespace Record

/-! ## 2. Kinds -/

/-- The kinds of records. -/
inductive Kind where
  | wall
  | tank
  | projectile
  | powerUp
  | beam
  deriving DecidableEq

/-- The kind of a record. -/
def kind {K : Type} : Record K → Kind
  | wall _ => .wall
  | tank _ => .tank
  | projectile _ => .projectile
  | powerUp _ => .powerUp
  | beam _ => .beam

/-- Members that write a record: each of its fields once, with a value that writes what the record
has there. -/
def Fits : Record Float → List (String × Json) → Prop
  | wall r => Wall.schema.Fits r
  | tank r => TankRecord.schema.Fits r
  | projectile r => ProjectileRecord.schema.Fits r
  | powerUp r => PowerUpRecord.schema.Fits r
  | beam r => BeamRecord.schema.Fits r

namespace Kind

/-- The kinds in the order in which a reader tries them. -/
def all : List Kind := [wall, tank, projectile, powerUp, beam]

/-- The names of the fields of a kind. -/
def names : Kind → List String
  | wall => Wall.schema.names
  | tank => TankRecord.schema.names
  | projectile => ProjectileRecord.schema.names
  | powerUp => PowerUpRecord.schema.names
  | beam => BeamRecord.schema.names

/-- Members among which each field of a kind occurs once, with a value of its type. -/
def Complete : Kind → List (String × Json) → Prop
  | wall => Wall.schema.Complete
  | tank => TankRecord.schema.Complete
  | projectile => ProjectileRecord.schema.Complete
  | powerUp => PowerUpRecord.schema.Complete
  | beam => BeamRecord.schema.Complete

/-- Members that are fields of this kind or of none. -/
def Alone (k : Kind) (ms : List (String × Json)) : Prop :=
  ∀ m ∈ ms, ∀ k' : Kind, m.1 ∈ k'.names → m.1 ∈ k.names

/-- The field that a kind is told by. -/
def key : Kind → String
  | wall => "wall"
  | tank => "tank"
  | projectile => "proj"
  | powerUp => "power"
  | beam => "beam"

theorem key_mem_names (k : Kind) : k.key ∈ k.names := by
  cases k <;> exact List.mem_cons_self

/-- **No other kind has the key of a kind.** -/
theorem eq_of_key_mem {k k' : Kind} (h : k'.key ∈ k.names) : k' = k := by
  revert h
  cases k <;> cases k' <;> decide

/-- The record of one kind that a value is. -/
def read? (v : Json) : Kind → Option (Record Float)
  | wall => (Wall.ofJson? v).map .wall
  | tank => (TankRecord.ofJson? v).map .tank
  | projectile => (ProjectileRecord.ofJson? v).map .projectile
  | powerUp => (PowerUpRecord.ofJson? v).map .powerUp
  | beam => (BeamRecord.ofJson? v).map .beam

/-- **A kind reads the records of its kind** that the members fit. -/
theorem read?_object_iff {members : List (Json.Quoted × Json)} {ms : List (String × Json)}
    (h : Named members ms) {k : Kind} {r : Record Float} :
    read? (.object members) k = some r ↔ r.kind = k ∧ r.Fits ms := by
  cases k <;> cases r <;>
    simp [read?, kind, Fits, Wall.ofJson?_iff_reads, TankRecord.ofJson?_iff_reads,
      ProjectileRecord.ofJson?_iff_reads, PowerUpRecord.ofJson?_iff_reads,
      BeamRecord.ofJson?_iff_reads, Json.Schema.reads_object_iff h]

end Kind

/-- A reader tries the kinds in their order. -/
theorem ofJson?_eq_findSome? (v : Json) : ofJson? v = Kind.all.findSome? (Kind.read? v) := by
  have hfirst : ∀ (k : Kind) (later : List Kind),
      (k :: later).findSome? (Kind.read? v) = (k.read? v <|> later.findSome? (Kind.read? v)) := by
    intro k later
    rw [List.findSome?_cons]
    cases k.read? v <;> rfl
  simp [ofJson?, Kind.all, hfirst, Kind.read?]

namespace Fits

variable {r : Record Float} {ms : List (String × Json)}

theorem complete (h : r.Fits ms) : r.kind.Complete ms := by
  cases r <;> exact Json.Schema.Fits.complete h

theorem mem_names (h : r.Fits ms) {name : String} (hname : name ∈ r.kind.names) :
    name ∈ ms.map Prod.fst := by
  cases r <;> exact Json.Schema.Fits.mem_names h hname

theorem of_perm {own extra : List (String × Json)} (h : r.Fits own)
    (hperm : ms.Perm (own ++ extra)) (hextra : ∀ m ∈ extra, m.1 ∉ r.kind.names) : r.Fits ms := by
  cases r <;> exact Json.Schema.Fits.of_perm h hperm hextra

end Fits

/-- **Members of one kind are read as a record of this kind**, if at all. -/
theorem ofJson?_object_iff {members : List (Json.Quoted × Json)} {ms : List (String × Json)}
    (h : Named members ms) {k : Kind} (halone : k.Alone ms) {r : Record Float} :
    ofJson? (.object members) = some r ↔ r.kind = k ∧ r.Fits ms := by
  have hothers : ∀ k' : Kind, k' ≠ k → k'.read? (.object members) = none := by
    intro k' hne
    rw [Option.eq_none_iff_forall_ne_some]
    intro r' hr'
    obtain ⟨rfl, hfits⟩ := (Kind.read?_object_iff h).mp hr'
    obtain ⟨m, hm, hkey⟩ := List.mem_map.mp (hfits.mem_names r'.kind.key_mem_names)
    have hmem := halone m hm r'.kind (hkey ▸ r'.kind.key_mem_names)
    exact hne (Kind.eq_of_key_mem (hkey ▸ hmem))
  have honly : ofJson? (.object members) = k.read? (.object members) := by
    rw [ofJson?_eq_findSome?]
    cases hread : k.read? (.object members) <;> cases k <;>
      simp [Kind.all, hothers, hread]
  rw [honly]
  exact Kind.read?_object_iff h

/-! ## 3. Lines -/

/-- **A line is read by the fields of one kind.** -/
theorem parse?_of_writes {line : String} {ms : List (String × Json)} (h : Writes line ms)
    {k : Kind} (halone : k.Alone ms) {r : Record Float} :
    parse? line = some r
      ↔ r.kind = k ∧ r.Fits ms ∧ ∀ m ∈ ms, m.2.buildable (Json.maxDepth - 1) = true := by
  obtain ⟨members, hnamed, hread, -⟩ := h.ofChars?
  unfold parse?
  rw [hread]
  dsimp only
  have hbuildable := hnamed.buildable_iff (Json.maxDepth - 1)
  split
  · rename_i hall
    have hms := hbuildable.mp hall
    rw [ofJson?_object_iff hnamed halone]
    exact ⟨fun ⟨hkind, hfits⟩ => ⟨hkind, hfits, hms⟩, fun ⟨hkind, hfits, _⟩ => ⟨hkind, hfits⟩⟩
  · rename_i hnot
    exact iff_of_false (by simp) fun ⟨_, _, hms⟩ => hnot (hbuildable.mpr hms)

/-- The members that a record is written with are the fields of its kind. -/
theorem map_fst_own {r : Record Float} {own : List (String × Json)}
    (hown : Json.ofMembers own = r.toJson) : own.map Prod.fst = r.kind.names := by
  have hmembers : ∃ ms, Json.ofMembers ms = r.toJson ∧ ms.map Prod.fst = r.kind.names := by
    cases r <;> exact ⟨_, rfl, rfl⟩
  obtain ⟨ms, hms, hnames⟩ := hmembers
  rw [Json.ofMembers_injective (hown.trans hms.symm), hnames]

/-- A record fits the members that it is written with. -/
theorem fits_own {r : Record Float} (hfinite : r.Finite) (hr : r.Survives)
    {own : List (String × Json)} (hown : Json.ofMembers own = r.toJson) : r.Fits own := by
  have halone : r.kind.Alone own :=
    fun m hm _ _ => map_fst_own hown ▸ List.mem_map_of_mem hm
  have hread := ofJson?_toJson fun v hv => Vec.ofJson?_toJson (hfinite v hv) (hr v hv)
  rw [← hown] at hread
  exact ((ofJson?_object_iff (Json.named_quoted own) halone).mp hread).2

/-- A record is read from its own members in any order, with any others among them that can be built
and are no fields. -/
theorem parse?_of_perm {r : Record Float} (hfinite : r.Finite) (hr : r.Survives)
    {own extra ms : List (String × Json)} (hown : Json.ofMembers own = r.toJson)
    (hextra : ∀ m ∈ extra, m.2.buildable (Json.maxDepth - 1) = true ∧ ∀ k : Kind, m.1 ∉ k.names)
    (hperm : ms.Perm (own ++ extra)) {line : String} (h : Writes line ms) :
    parse? line = some r := by
  have halone : r.kind.Alone ms := by
    intro m hm k hk
    rcases List.mem_append.mp (hperm.subset hm) with hm | hm
    · exact map_fst_own hown ▸ List.mem_map_of_mem hm
    · exact absurd hk ((hextra m hm).2 k)
  have hbuildable : ∀ m ∈ own, m.2.buildable (Json.maxDepth - 1) = true := by
    have hall := buildable_toJson hfinite hr 125
    rw [← hown] at hall
    exact ((Json.named_quoted own).buildable_iff _).mp hall
  refine (parse?_of_writes h halone).mpr ⟨rfl, ?_, ?_⟩
  · exact (fits_own hfinite hr hown).of_perm hperm fun m hm => (hextra m hm).2 _
  · intro m hm
    rcases List.mem_append.mp (hperm.subset hm) with hm | hm
    · exact hbuildable m hm
    · exact (hextra m hm).1

/-- **Records are told apart however they are written.**  A line of fields of one kind and of
members that are no field of any kind is read as a record exactly if it is a record of this kind,
its members write the record and all of them can be built.  It is no record if one of the fields is
missing, is repeated or has a value that its type does not accept.  So a record is read from the
members that it is written with, in any order and with any such members among them. -/
theorem parse?_by_kind :
    (∀ (k : Kind) (line : String) (ms : List (String × Json)), Writes line ms → k.Alone ms →
      (∀ r : Record Float, parse? line = some r
        ↔ r.kind = k ∧ r.Fits ms ∧ ∀ m ∈ ms, m.2.buildable (Json.maxDepth - 1) = true) ∧
      (¬ k.Complete ms → parse? line = none)) ∧
    (∀ (r : Record Float) (own extra ms : List (String × Json)) (line : String), r.Finite →
      r.Survives → Json.ofMembers own = r.toJson →
      (∀ m ∈ extra, m.2.buildable (Json.maxDepth - 1) = true ∧ ∀ k : Kind, m.1 ∉ k.names) →
      ms.Perm (own ++ extra) → Writes line ms → parse? line = some r) := by
  refine ⟨?_, ?_⟩
  · intro k line ms h halone
    refine ⟨fun r => parse?_of_writes h halone, fun hdamaged => ?_⟩
    rw [Option.eq_none_iff_forall_ne_some]
    intro r hr
    obtain ⟨rfl, hfits, -⟩ := (parse?_of_writes h halone).mp hr
    exact hdamaged hfits.complete
  · intro r own extra ms line hfinite hr hown hextra hperm h
    exact parse?_of_perm hfinite hr hown hextra hperm h

/-- A projectile on its way. -/
def stray : Record Float := .projectile ⟨4, ⟨0.5, -1.0e-3⟩, ⟨0.6, -0.8⟩, false, 4294967295⟩

/-- The members that the projectile is written with. -/
def strayMembers : List (String × Json) :=
  [("proj", .ofNat 4), ("loc", (⟨0.5, -1.0e-3⟩ : Vec Float).toJson),
    ("dir", (⟨0.6, -0.8⟩ : Vec Float).toJson), ("died", .ofBool false),
    ("owner", .ofNat 4294967295)]

/-- The members in reverse, and one that no record has. -/
def strayReversed : List (String × Json) :=
  (strayMembers ++ [("note", Json.array [.null])]).reverse

theorem legible_strayMembers : ∀ m ∈ strayMembers, m.2.Legible := by
  simp [strayMembers, Json.legible_ofNat, Json.legible_ofBool, Vec.legible_toJson]

theorem writes_strayReversed : Writes (Json.ofMembers strayReversed).render strayReversed := by
  refine Json.writes_render fun m hm => ?_
  rcases List.mem_append.mp (List.mem_reverse.mp hm) with hm | hm
  · exact legible_strayMembers m hm
  · rw [List.mem_singleton.mp hm]
    exact .array fun v hv => List.mem_singleton.mp hv ▸ .null

/-- Without the last member there is no owner. -/
theorem not_complete_strayMembers : ¬ Kind.projectile.Complete strayMembers.dropLast := by
  intro h
  have howner : ("owner", fun r : ProjectileRecord Float => IsWord r.owner.toNat)
      ∈ ProjectileRecord.schema := by simp [ProjectileRecord.schema]
  obtain ⟨v, hv, -⟩ := h _ howner
  cases hv

theorem parse?_by_kind_stray :
    parse? (Json.ofMembers strayReversed).render = some stray ∧
      parse? (Json.ofMembers strayMembers.dropLast).render = none := by
  refine ⟨?_, ?_⟩
  · have hnote : ∀ m ∈ [("note", Json.array [.null])],
        m.2.buildable (Json.maxDepth - 1) = true ∧ ∀ k : Kind, m.1 ∉ k.names := by
      intro m hm
      rw [List.mem_singleton.mp hm]
      exact ⟨rfl, fun k => by cases k <;> decide⟩
    exact parse?_by_kind.2 stray strayMembers _ strayReversed _ (by decide +kernel)
      (by decide +kernel) rfl hnote (List.reverse_perm _) writes_strayReversed
  · have hsub : strayMembers.dropLast ⊆ strayMembers := List.dropLast_subset _
    have halone : Kind.projectile.Alone strayMembers.dropLast :=
      fun m hm _ _ => List.mem_map_of_mem (f := Prod.fst) (hsub hm)
    have hwrites := Json.writes_render fun m hm => legible_strayMembers m (hsub hm)
    exact (parse?_by_kind.1 .projectile _ _ hwrites halone).2 not_complete_strayMembers

end Record

end TankArena
