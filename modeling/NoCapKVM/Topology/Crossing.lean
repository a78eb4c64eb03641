import NoCapKVM.Discovery.Messages

/-! `topology/crossing.cpp`: where the pointer leaves one machine's screens and
where it enters the other's. Coordinates are integers: the program's `int32_t`
as long as no sum overflows. -/
namespace NoCapKVM.Topology

open Discovery (MonitorInfo)

inductive Direction where
  | left
  | right
  | up
  | down
  deriving DecidableEq

/-- The peer's screens sit in `direction` of Master's, shifted by `offset`. -/
structure ArrangementEntry where
  deviceId : UInt64
  direction : Direction
  offset : Int

def clamp (value lo hi : Int) : Int :=
  min (max value lo) hi

structure ClusterBounds where
  minX : Int
  maxX : Int
  minY : Int
  maxY : Int
  deriving DecidableEq

def computeBounds (monitors : List MonitorInfo) : ClusterBounds :=
  monitors.foldl (fun b m =>
    { minX := min b.minX m.x.toInt, maxX := max b.maxX (m.x.toInt + m.width.toInt),
      minY := min b.minY m.y.toInt, maxY := max b.maxY (m.y.toInt + m.height.toInt) })
    ⟨2147483647, -2147483648, 2147483647, -2147483648⟩

structure CrossingResult where
  hasTarget : Bool := false
  x : Int := 0
  y : Int := 0

def Direction.horizontal (d : Direction) : Bool :=
  d = .left || d = .right

def computeCrossing (peerMonitors : List MonitorInfo) (direction : Direction) (offset masterPerpPos : Int) :
    CrossingResult :=
  if peerMonitors = [] then {}
  else
    let b := computeBounds peerMonitors
    if direction.horizontal then
      let extent := b.maxY - b.minY
      let shared := clamp masterPerpPos offset (offset + extent)
      { hasTarget := true, y := shared - offset + b.minY,
        x := if direction = .right then b.minX else b.maxX }
    else
      let extent := b.maxX - b.minX
      let shared := clamp masterPerpPos offset (offset + extent)
      { hasTarget := true, x := shared - offset + b.minX,
        y := if direction = .down then b.minY else b.maxY }

/-- `direction` has no meaning unless `crossed` holds. -/
structure BoundaryCheck where
  crossed : Bool := false
  direction : Direction := .left
  clampedX : Int
  clampedY : Int
  perpPos : Int := 0

def checkBoundary (bounds : ClusterBounds) (x y : Int) : BoundaryCheck :=
  let clampedX := clamp x bounds.minX bounds.maxX
  let clampedY := clamp y bounds.minY bounds.maxY
  if x ≤ bounds.minX then
    { crossed := true, direction := .left, clampedX, clampedY, perpPos := clampedY }
  else if x ≥ bounds.maxX then
    { crossed := true, direction := .right, clampedX, clampedY, perpPos := clampedY }
  else if y ≤ bounds.minY then
    { crossed := true, direction := .up, clampedX, clampedY, perpPos := clampedX }
  else if y ≥ bounds.maxY then
    { crossed := true, direction := .down, clampedX, clampedY, perpPos := clampedX }
  else { clampedX, clampedY }

def opposite : Direction → Direction
  | .left => .right
  | .right => .left
  | .up => .down
  | .down => .up

def invertEntry (entry : ArrangementEntry) (masterBounds peerBounds : ClusterBounds) : ArrangementEntry where
  deviceId := entry.deviceId
  direction := opposite entry.direction
  offset :=
    if entry.direction.horizontal then peerBounds.minY + masterBounds.minY - entry.offset
    else peerBounds.minX + masterBounds.minX - entry.offset

/-- A position of the pointer. A direction splits it into the coordinate along
the axis that is crossed and the one across it, and in these terms all
directions behave alike. -/
structure Point where
  x : Int
  y : Int
  deriving DecidableEq

def Direction.along (d : Direction) (p : Point) : Int :=
  if d.horizontal then p.x else p.y

def Direction.across (d : Direction) (p : Point) : Int :=
  if d.horizontal then p.y else p.x

namespace ClusterBounds

/-- A box with room for the pointer. -/
def Proper (b : ClusterBounds) : Prop :=
  b.minX ≤ b.maxX ∧ b.minY ≤ b.maxY

instance (b : ClusterBounds) : Decidable b.Proper :=
  inferInstanceAs (Decidable (_ ∧ _))

/-- The edge of the box on its side `d`. -/
def edge (b : ClusterBounds) : Direction → Int
  | .left => b.minX
  | .right => b.maxX
  | .up => b.minY
  | .down => b.maxY

def acrossMin (b : ClusterBounds) (d : Direction) : Int :=
  if d.horizontal then b.minY else b.minX

def acrossMax (b : ClusterBounds) (d : Direction) : Int :=
  if d.horizontal then b.maxY else b.maxX

/-- The nearest position to `v` across the seam that the box covers. -/
def cover (b : ClusterBounds) (d : Direction) (v : Int) : Int :=
  clamp v (b.acrossMin d) (b.acrossMax d)

end ClusterBounds

@[simp] theorem opposite_opposite (d : Direction) : opposite (opposite d) = d := by
  cases d <;> rfl

@[simp] theorem opposite_horizontal (d : Direction) : (opposite d).horizontal = d.horizontal := by
  cases d <;> rfl

@[simp] theorem opposite_along (d : Direction) (p : Point) : (opposite d).along p = d.along p := by
  simp [Direction.along]

@[simp] theorem opposite_across (d : Direction) (p : Point) : (opposite d).across p = d.across p := by
  simp [Direction.across]

@[simp] theorem acrossMin_opposite (b : ClusterBounds) (d : Direction) :
    b.acrossMin (opposite d) = b.acrossMin d := by
  simp [ClusterBounds.acrossMin]

@[simp] theorem acrossMax_opposite (b : ClusterBounds) (d : Direction) :
    b.acrossMax (opposite d) = b.acrossMax d := by
  simp [ClusterBounds.acrossMax]

@[simp] theorem cover_opposite (b : ClusterBounds) (d : Direction) (v : Int) :
    b.cover (opposite d) v = b.cover d v := by
  simp [ClusterBounds.cover]

/-- A value within the limits is not clamped. -/
theorem clamp_of_mem {value lo hi : Int} (hLo : lo ≤ value) (hHi : value ≤ hi) : clamp value lo hi = value := by
  unfold clamp
  omega

/-- Limits and value can be shifted together. -/
theorem clamp_add (value lo hi c : Int) : clamp (value + c) (lo + c) (hi + c) = clamp value lo hi + c := by
  unfold clamp
  omega

/-- A boundary check that reports `d` has the pointer on or past
the edge `d`. -/
theorem checkBoundary_crossed {b : ClusterBounds} (hProper : b.Proper) (p : Point)
    (h : (checkBoundary b p.x p.y).crossed = true) :
    let bc := checkBoundary b p.x p.y
    bc.direction.along ⟨bc.clampedX, bc.clampedY⟩ = b.edge bc.direction ∧
      bc.perpPos = b.cover bc.direction (bc.direction.across p) := by
  obtain ⟨hX, hY⟩ := hProper
  unfold checkBoundary at h ⊢
  simp only at h ⊢
  split
  · exact ⟨by simp [Direction.along, Direction.horizontal, ClusterBounds.edge, clamp]; omega, rfl⟩
  · split
    · exact ⟨by simp [Direction.along, Direction.horizontal, ClusterBounds.edge, clamp]; omega, rfl⟩
    · split
      · exact ⟨by simp [Direction.along, Direction.horizontal, ClusterBounds.edge, clamp]; omega, rfl⟩
      · split
        · exact ⟨by simp [Direction.along, Direction.horizontal, ClusterBounds.edge, clamp]; omega, rfl⟩
        · simp_all

/-- The landing point lies on the edge that faces the machine left behind. -/
theorem computeCrossing_target {monitors : List MonitorInfo} (hTarget : monitors ≠ []) (d : Direction)
    (offset pos : Int) :
    let b := computeBounds monitors
    let cross := computeCrossing monitors d offset pos
    cross.hasTarget = true ∧ d.along ⟨cross.x, cross.y⟩ = b.edge (opposite d) ∧
      d.across ⟨cross.x, cross.y⟩ =
        clamp pos offset (offset + (b.acrossMax d - b.acrossMin d)) - offset + b.acrossMin d := by
  rw [computeCrossing, if_neg hTarget]
  cases d <;> exact ⟨rfl, rfl, rfl⟩

@[simp] theorem computeCrossing_headless (d : Direction) (offset pos : Int) :
    (computeCrossing [] d offset pos).hasTarget = false := rfl

/-- Clamping in the shared range and moving it to the peer's is moving and
clamping there. -/
theorem computeCrossing_across {monitors : List MonitorInfo} (hTarget : monitors ≠ []) (d : Direction)
    (offset pos : Int) :
    let b := computeBounds monitors
    let cross := computeCrossing monitors d offset pos
    d.across ⟨cross.x, cross.y⟩ = b.cover d (pos - offset + b.acrossMin d) := by
  intro b cross
  have hPos : pos - offset + b.acrossMin d = pos + (b.acrossMin d - offset) := by omega
  have hLo : b.acrossMin d = offset + (b.acrossMin d - offset) := by omega
  have hHi : b.acrossMax d =
      offset + (b.acrossMax d - b.acrossMin d) + (b.acrossMin d - offset) := by omega
  calc d.across ⟨cross.x, cross.y⟩
      = clamp pos offset (offset + (b.acrossMax d - b.acrossMin d)) - offset + b.acrossMin d :=
        (computeCrossing_target hTarget d offset pos).2.2
    _ = clamp pos offset (offset + (b.acrossMax d - b.acrossMin d)) + (b.acrossMin d - offset) := by
        omega
    _ = clamp (pos - offset + b.acrossMin d) (b.acrossMin d) (b.acrossMax d) := by
        rw [← clamp_add, ← hHi, ← hLo, hPos]

/-- The inverted arrangement is shifted by the sum of both origins
less the offset. -/
theorem invertEntry_offset (entry : ArrangementEntry) (m s : ClusterBounds) :
    (invertEntry entry m s).offset =
      s.acrossMin entry.direction + m.acrossMin entry.direction - entry.offset := by
  unfold invertEntry ClusterBounds.acrossMin
  cases entry.direction.horizontal <;> rfl

end NoCapKVM.Topology
