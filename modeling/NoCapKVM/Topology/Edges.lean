import NoCapKVM.Topology.BoundingBox

/-! The four edges of a box, and which of them `check_boundary` reports for a position. -/
namespace NoCapKVM.Topology

namespace ClusterBounds

/-- How far a position lies past the edge of the box on its side `d`;
negative inside. -/
def past (b : ClusterBounds) (d : Direction) (p : Point) : Int :=
  match d with
  | .left => b.minX - p.x
  | .right => p.x - b.maxX
  | .up => b.minY - p.y
  | .down => p.y - b.maxY

/-- The position is on the screens. -/
def Contains (b : ClusterBounds) (p : Point) : Prop :=
  (b.minX ≤ p.x ∧ p.x ≤ b.maxX) ∧ b.minY ≤ p.y ∧ p.y ≤ b.maxY

instance (b : ClusterBounds) (p : Point) : Decidable (b.Contains p) :=
  inferInstanceAs (Decidable (_ ∧ _))

/-- The distance between the edges on the sides `d` and its opposite. -/
def extent (b : ClusterBounds) (d : Direction) : Int :=
  if d.horizontal then b.maxX - b.minX else b.maxY - b.minY

/-- Along the edge the position is on it, with its end points. -/
def Covers (b : ClusterBounds) (d : Direction) (p : Point) : Prop :=
  b.acrossMin d ≤ d.across p ∧ d.across p ≤ b.acrossMax d

/-- Along the edge the position is on it, without its end points. -/
def Between (b : ClusterBounds) (d : Direction) (p : Point) : Prop :=
  b.acrossMin d < d.across p ∧ d.across p < b.acrossMax d

instance (b : ClusterBounds) (d : Direction) (p : Point) : Decidable (b.Covers d p) :=
  inferInstanceAs (Decidable (_ ∧ _))

instance (b : ClusterBounds) (d : Direction) (p : Point) : Decidable (b.Between d p) :=
  inferInstanceAs (Decidable (_ ∧ _))

end ClusterBounds

attribute [local simp] ClusterBounds.past ClusterBounds.extent ClusterBounds.edge ClusterBounds.acrossMin
  ClusterBounds.acrossMax Direction.along Direction.across Direction.horizontal opposite

@[simp] theorem between_opposite (b : ClusterBounds) (d : Direction) (p : Point) :
    b.Between (opposite d) p ↔ b.Between d p := by
  cases d <;> rfl

/-- What is inside of one side is what is left of the extent
from the other. -/
theorem past_opposite (b : ClusterBounds) (d : Direction) (p : Point) :
    b.past (opposite d) p = - b.extent d - b.past d p := by
  cases d with
  | left =>
      show p.x - b.maxX = - (b.maxX - b.minX) - (b.minX - p.x)
      omega
  | right =>
      show b.minX - p.x = - (b.maxX - b.minX) - (p.x - b.maxX)
      omega
  | up =>
      show p.y - b.maxY = - (b.maxY - b.minY) - (b.minY - p.y)
      omega
  | down =>
      show b.minY - p.y = - (b.maxY - b.minY) - (p.y - b.maxY)
      omega

/-- A wide box has its edges apart in every direction. -/
theorem extent_pos {b : ClusterBounds} (hWide : b.Wide) (d : Direction) : 0 < b.extent d := by
  obtain ⟨hX, hY⟩ := hWide
  cases d <;> simp <;> assumption

/-- A position past one edge is not past the opposite one. -/
theorem past_opposite_neg {b : ClusterBounds} (hWide : b.Wide) {d : Direction} {p : Point} (h : 0 ≤ b.past d p) :
    b.past (opposite d) p < 0 := by
  have hExtent := extent_pos hWide d
  rw [past_opposite]
  omega

/-- A position is inside if it is past neither of two opposite edges and is
covered along them. -/
theorem contains_iff_sides {b : ClusterBounds} (d : Direction) {p : Point} :
    b.Contains p ↔ (b.past d p ≤ 0 ∧ b.past (opposite d) p ≤ 0) ∧ b.Covers d p := by
  unfold ClusterBounds.Contains ClusterBounds.Covers
  cases d <;> simp <;> omega

/-- It is inside exactly when it is past none of the four edges. -/
theorem contains_iff_past {b : ClusterBounds} {p : Point} : b.Contains p ↔ ∀ d, b.past d p ≤ 0 := by
  unfold ClusterBounds.Contains
  constructor
  · intro h d
    cases d <;> simp <;> omega
  · intro h
    have hLeft := h .left
    have hRight := h .right
    have hUp := h .up
    have hDown := h .down
    simp at hLeft hRight hUp hDown
    omega

/-- Between the other two edges a position is past none of them. -/
theorem past_of_between {b : ClusterBounds} {d : Direction} {p : Point} (h : b.Between d p) {e : Direction}
    (hAxis : e.horizontal ≠ d.horizontal) : b.past e p < 0 := by
  obtain ⟨hLo, hHi⟩ := h
  cases d <;> cases e <;> simp at hAxis hLo hHi ⊢ <;> omega

/-- The nearest position that a box covers is covered. -/
theorem covers_of_across {b : ClusterBounds} (hProper : b.Proper) {d : Direction} {v : Int} {p : Point}
    (h : d.across p = b.cover d v) : b.Covers d p := by
  have hLe : b.acrossMin d ≤ b.acrossMax d := by
    cases d with
    | left | right => exact hProper.2
    | up | down => exact hProper.1
  unfold ClusterBounds.Covers
  rw [h]
  unfold ClusterBounds.cover clamp
  omega

/-- Where another box is entered, the position is as far inside as it was
outside. -/
theorem past_of_entry {b c : ClusterBounds} {d : Direction} {p q : Point}
    (hAlong : d.along q = c.edge (opposite d) + (d.along p - b.edge d)) : c.past (opposite d) q = - b.past d p := by
  cases d <;> simp at hAlong ⊢ <;> omega

/-- A position that has come in over an edge is inside, if it comes no farther
than the box reaches. -/
theorem contains_of_entry {b c : ClusterBounds} {d : Direction} {p q : Point} (hPast : 0 ≤ b.past d p)
    (hShort : b.past d p ≤ c.extent d) (hAlong : d.along q = c.edge (opposite d) + (d.along p - b.edge d))
    (hAcross : c.Covers d q) : c.Contains q := by
  have hEntry := past_of_entry hAlong
  have hFar := past_opposite c d q
  rw [contains_iff_sides d]
  refine ⟨⟨?_, ?_⟩, hAcross⟩
  · omega
  · omega

@[simp] theorem checkBoundary_clampedX (b : ClusterBounds) (x y : Int) :
    (checkBoundary b x y).clampedX = clamp x b.minX b.maxX := by
  unfold checkBoundary
  simp only
  split_ifs <;> rfl

@[simp] theorem checkBoundary_clampedY (b : ClusterBounds) (x y : Int) :
    (checkBoundary b x y).clampedY = clamp y b.minY b.maxY := by
  unfold checkBoundary
  simp only
  split_ifs <;> rfl

/-- The boundary check reports the edge `d`. -/
def Reports (b : ClusterBounds) (p : Point) (d : Direction) : Prop :=
  (checkBoundary b p.x p.y).crossed = true ∧ (checkBoundary b p.x p.y).direction = d

instance (b : ClusterBounds) (p : Point) (d : Direction) : Decidable (Reports b p d) :=
  inferInstanceAs (Decidable (_ ∧ _))

/-- The edges on the left and right are reported when they are touched.
Those above and below are reported only for positions strictly between
the other two. -/
theorem reports_iff {b : ClusterBounds} (hWide : b.Wide) (p : Point) (d : Direction) :
    Reports b p d ↔ 0 ≤ b.past d p ∧ (d.horizontal = true ∨ b.Between d p) := by
  obtain ⟨hX, hY⟩ := hWide
  unfold Reports checkBoundary
  simp only
  split_ifs <;> cases d <;> simp [ClusterBounds.Between] <;> omega

/-- An edge that is reported has been reached. -/
theorem past_of_reports {b : ClusterBounds} {p : Point} {d : Direction} (h : Reports b p d) : 0 ≤ b.past d p := by
  obtain ⟨hCrossed, hDirection⟩ := h
  unfold checkBoundary at hCrossed hDirection
  simp only at hCrossed hDirection
  split_ifs at hCrossed hDirection <;> subst hDirection <;> simp <;> omega

/-- The clamped position of a boundary check is inside. -/
theorem contains_clamped {b : ClusterBounds} (hProper : b.Proper) (x y : Int) :
    b.Contains ⟨(checkBoundary b x y).clampedX, (checkBoundary b x y).clampedY⟩ := by
  obtain ⟨hX, hY⟩ := hProper
  simp only [ClusterBounds.Contains, checkBoundary_clampedX, checkBoundary_clampedY, clamp]
  omega

/-- Clamping does not bring a position to an edge that it is not at. -/
theorem past_clamped_neg {b : ClusterBounds} (hWide : b.Wide) {d : Direction} {p : Point} (h : b.past d p < 0) :
    b.past d ⟨(checkBoundary b p.x p.y).clampedX, (checkBoundary b p.x p.y).clampedY⟩ < 0 := by
  obtain ⟨hX, hY⟩ := hWide
  rw [checkBoundary_clampedX, checkBoundary_clampedY]
  cases d <;> simp [clamp] at h ⊢ <;> omega

/-- With the coordinate along the reported edge's axis kept, only that
edge is passed. -/
theorem past_kept {b : ClusterBounds} (hProper : b.Proper) (p : Point)
    (hCrossed : (checkBoundary b p.x p.y).crossed = true) (d : Direction) :
    let bc := checkBoundary b p.x p.y
    let kept : Point := ⟨if bc.direction.horizontal then p.x else bc.clampedX,
      if bc.direction.horizontal then bc.clampedY else p.y⟩
    b.past d kept ≤ 0 ∨ d = bc.direction ∧ b.past d kept = b.past d p := by
  obtain ⟨hX, hY⟩ := hProper
  simp only [checkBoundary_clampedX, checkBoundary_clampedY]
  unfold checkBoundary at hCrossed ⊢
  simp only at hCrossed ⊢
  split_ifs at hCrossed ⊢ <;> cases d <;> simp_all [clamp] <;> omega

end NoCapKVM.Topology
