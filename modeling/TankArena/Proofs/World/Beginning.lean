import TankArena.Proofs.Exact
import TankArena.Proofs.World.Course

/-!
# How a world begins

A world is built from its settings: its walls are numbered, and each power-up is put at a place that
is drawn from one of the spawn zones.

* The walls are those of the settings, in the same order, numbered from zero (`ofSettings_walls`).
* A zone without an inside has no place to draw, and a generator that is asked for one gives up.
  The draws are stated here with that failure (`place?`), and so is the building of a world
  (`ofSettings?`).  Over exact arithmetic no draw fails in a world that has an edge
  (`ofSettings?_eq_some`); one without an edge cannot have even one power-up
  (`ofSettings?_eq_none`).
-/

namespace TankArena

/-! ## 1. Walls -/

namespace Settings

variable {K : Type}

theorem numberFrom_eq (i : Nat) (walls : List (Segment K)) :
    numberFrom i walls
      = walls.mapIdx fun j wall => ⟨UInt32.ofNat (i + j), wall.p1, wall.p2⟩ := by
  induction walls generalizing i with
  | nil => rfl
  | cons wall walls ih =>
    rw [numberFrom, ih (i + 1), List.mapIdx_cons]
    simp only [Nat.add_zero, Nat.add_assoc, Nat.add_comm 1]

theorem wallRecords_eq (s : Settings K) :
    s.wallRecords = s.walls.mapIdx fun i wall => ⟨UInt32.ofNat i, wall.p1, wall.p2⟩ := by
  simp only [wallRecords, numberFrom_eq, Nat.zero_add]

end Settings

/-- **The walls of a world** are those of its settings, in their order and numbered from zero. -/
theorem World.ofSettings_walls {K : Type} [Scalar K] (settings : Settings K) (source : Source) :
    (ofSettings settings source).walls
      = settings.walls.mapIdx fun i wall => ⟨UInt32.ofNat i, wall.p1, wall.p2⟩ := by
  rw [(ofSettings_fixed settings source).2.2.1, Settings.wallRecords_eq]

/-! ## 2. Draws that can fail -/

/-- A zone that is not empty. -/
structure Zone.NonEmpty {K : Type} [Scalar K] (zone : Zone K) : Prop where
  x_lt : zone.xMin < zone.xMax
  y_lt : zone.yMin < zone.yMax

section Draws

variable {K : Type} [Scalar K]

namespace Source

/-- A number of an interval; an empty interval has none. -/
def numberIn? (low high : K) (s : Source) : Option (K × Source) :=
  if low < high then some (numberIn low high maxTries s) else none

/-- A place in one of the spawn zones of a world, if the zone is not empty. -/
def place? (half : K) (s : Source) : Option (Vec K × Source) := do
  let (index, s) := indexIn maxTries s
  let zone := Zone.spawn half index
  let (x, s) ← numberIn? zone.xMin zone.xMax s
  let (y, s) ← numberIn? zone.yMin zone.yMax s
  return (⟨x, y⟩, s)

/-- A place is drawn where no spawn zone is empty. -/
theorem place?_eq_some {half : K} (hzones : ∀ i, (Zone.spawn half i).NonEmpty) (s : Source) :
    s.place? half = some (s.place half) := by
  have hzone := hzones (indexIn maxTries s).1
  simp only [place?, numberIn?, if_pos hzone.x_lt, if_pos hzone.y_lt, place]
  rfl

/-- No place is drawn where every spawn zone is empty. -/
theorem place?_eq_none {half : K}
    (hzones : ∀ i, ¬ (Zone.spawn half i).xMin < (Zone.spawn half i).xMax) (s : Source) :
    s.place? half = none := by
  simp only [place?, numberIn?, if_neg (hzones _)]
  rfl

end Source

namespace World

/-- The world with one more power-up, if a place is drawn for it. -/
def addPowerUp? (w : World K) : Option (World K) := do
  let (location, source) ← w.source.place? w.half
  return { w with
    powerUps := Table.put (PowerUp.fresh w.nextObject location) w.powerUps
    source := source
    nextObject := idAfter w.nextObject }

/-- The world with several more power-ups, if places are drawn for all of them. -/
def addPowerUps? : Nat → World K → Option (World K)
  | 0, w => some w
  | n + 1, w => w.addPowerUp?.bind (addPowerUps? n)

/-- The world of some settings at its beginning, if places are drawn for all its power-ups. -/
def ofSettings? (settings : Settings K) (source : Source) : Option (World K) :=
  (empty settings source).addPowerUps? settings.maxPowerUps

theorem addPowerUp?_eq_some {w : World K} (hzones : ∀ i, (Zone.spawn w.half i).NonEmpty) :
    w.addPowerUp? = some w.addPowerUp := by
  rw [addPowerUp?, Source.place?_eq_some hzones]
  rfl

/-- **Power-ups are put in place** where no spawn zone is empty.  A power-up more does not change
the zones. -/
theorem addPowerUps?_eq_some {w : World K} (hzones : ∀ i, (Zone.spawn w.half i).NonEmpty)
    (n : Nat) : w.addPowerUps? n = some (w.addPowerUps n) := by
  induction n generalizing w with
  | zero => rfl
  | succ n ih =>
    rw [addPowerUps?, addPowerUp?_eq_some hzones, Option.bind_some]
    exact ih hzones

end World

end Draws

/-! ## 3. Exact arithmetic -/

theorem Zone.spawn_nonEmpty {half : ℝ} (hhalf : 0 < half) (i : Fin 5) :
    (Zone.spawn half i).NonEmpty := by
  have hfits := Zone.spawn_fits hhalf i
  exact ⟨hfits.x_lt, hfits.y_lt⟩

namespace World

variable {settings : Settings ℝ}

theorem half_eq (w : World ℝ) : w.half = w.size / 2 := by
  unfold half
  norm_num

/-- **No spawn zone is empty in a world with an edge.** -/
theorem zones_nonEmpty {w : World ℝ} (hsize : w.size ≠ 0) (i : Fin 5) :
    (Zone.spawn w.half i).NonEmpty := by
  have hpos : (0 : ℝ) < w.size := by exact_mod_cast Nat.pos_of_ne_zero hsize
  have hhalf : 0 < w.half := by
    rw [half_eq]
    exact half_pos hpos
  exact Zone.spawn_nonEmpty hhalf i

theorem zones_ofSettings (hsize : settings.universeSize ≠ 0) (source : Source) (i : Fin 5) :
    (Zone.spawn (ofSettings settings source).half i).NonEmpty :=
  zones_nonEmpty (by rwa [(ofSettings_fixed settings source).2.2.2]) i

/-- **A world with an edge can be built.** -/
theorem ofSettings?_eq_some (hsize : settings.universeSize ≠ 0) (source : Source) :
    ofSettings? settings source = some (ofSettings settings source) := by
  have hempty : (empty settings source).size ≠ 0 := hsize
  exact addPowerUps?_eq_some (zones_nonEmpty hempty) settings.maxPowerUps

/-- Without an edge every spawn zone is empty, and no place is drawn for the first power-up. -/
theorem ofSettings?_eq_none (hsize : settings.universeSize = 0) (hsome : settings.maxPowerUps ≠ 0)
    (source : Source) : ofSettings? settings source = none := by
  have hhalf : (empty settings source).half = 0 := by
    rw [half_eq]
    simp [empty, hsize]
  have hzones : ∀ i, ¬ (Zone.spawn (0 : ℝ) i).xMin < (Zone.spawn (0 : ℝ) i).xMax := by
    intro i
    match i with
    | 0 | 1 | 2 | 3 | 4 => simp [Zone.spawn, Zone.scaled]
  obtain ⟨n, hn⟩ := Nat.exists_eq_succ_of_ne_zero hsome
  rw [ofSettings?, hn, addPowerUps?, addPowerUp?, hhalf, Source.place?_eq_none hzones]
  rfl

end World

end TankArena
