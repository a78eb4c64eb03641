import NoCapKVM.Container.FoldExtrema
import NoCapKVM.Topology.Crossing

/-! What `compute_bounds` is for: the bounding box of a set of monitors. -/

namespace NoCapKVM.Discovery.MonitorInfo

def left (m : MonitorInfo) : Int := m.x.toInt

def right (m : MonitorInfo) : Int := m.x.toInt + m.width.toInt

def top (m : MonitorInfo) : Int := m.y.toInt

def bottom (m : MonitorInfo) : Int := m.y.toInt + m.height.toInt

/-- It shows something. -/
def Visible (m : MonitorInfo) : Prop :=
  0 < m.width.toInt ∧ 0 < m.height.toInt

instance (m : MonitorInfo) : Decidable m.Visible :=
  inferInstanceAs (Decidable (_ ∧ _))

end NoCapKVM.Discovery.MonitorInfo

namespace NoCapKVM.Topology

open Discovery (MonitorInfo)

/-- The box reaches just to the outermost edges of the monitors. -/
structure IsBoundingBox (monitors : List MonitorInfo) (b : ClusterBounds) : Prop where
  minX : IsLeast {v | v ∈ monitors.map MonitorInfo.left} b.minX
  maxX : IsGreatest {v | v ∈ monitors.map MonitorInfo.right} b.maxX
  minY : IsLeast {v | v ∈ monitors.map MonitorInfo.top} b.minY
  maxY : IsGreatest {v | v ∈ monitors.map MonitorInfo.bottom} b.maxY

theorem IsBoundingBox.unique {monitors : List MonitorInfo} {b c : ClusterBounds} (hB : IsBoundingBox monitors b)
    (hC : IsBoundingBox monitors c) : b = c := by
  obtain ⟨_, _, _, _⟩ := b
  obtain ⟨_, _, _, _⟩ := c
  simp only [ClusterBounds.mk.injEq]
  exact ⟨hB.minX.unique hC.minX, hB.maxX.unique hC.maxX, hB.minY.unique hC.minY, hB.maxY.unique hC.maxY⟩

theorem computeBounds_fold (monitors : List MonitorInfo) (b : ClusterBounds) :
    monitors.foldl (fun b m =>
      { minX := min b.minX m.x.toInt, maxX := max b.maxX (m.x.toInt + m.width.toInt),
        minY := min b.minY m.y.toInt, maxY := max b.maxY (m.y.toInt + m.height.toInt) }) b =
      ⟨(monitors.map MonitorInfo.left).foldl min b.minX, (monitors.map MonitorInfo.right).foldl max b.maxX,
        (monitors.map MonitorInfo.top).foldl min b.minY, (monitors.map MonitorInfo.bottom).foldl max b.maxY⟩ := by
  induction monitors generalizing b with
  | nil => rfl
  | cons m monitors ih => exact ih _

/-- The edges that the fold starts from do not count, as no monitor
ends below them. -/
theorem computeBounds_isBoundingBox {monitors : List MonitorInfo} (hNe : monitors ≠ [])
    (hRight : ∀ m ∈ monitors, -2147483648 ≤ m.right) (hBottom : ∀ m ∈ monitors, -2147483648 ≤ m.bottom) :
    IsBoundingBox monitors (computeBounds monitors) := by
  have hMap : ∀ f : MonitorInfo → Int, monitors.map f ≠ [] := fun f hNil => hNe (List.map_eq_nil_iff.mp hNil)
  rw [computeBounds, computeBounds_fold]
  constructor
  · refine List.foldl_min_isLeast (hMap _) fun v hMem => ?_
    obtain ⟨m, -, rfl⟩ := List.mem_map.mp hMem
    exact m.x.toInt_le
  · exact List.foldl_max_isGreatest (hMap _) (List.forall_mem_map.mpr hRight)
  · refine List.foldl_min_isLeast (hMap _) fun v hMem => ?_
    obtain ⟨m, -, rfl⟩ := List.mem_map.mp hMem
    exact m.y.toInt_le
  · exact List.foldl_max_isGreatest (hMap _) (List.forall_mem_map.mpr hBottom)

/-- A box with room for the pointer to move. -/
def ClusterBounds.Wide (b : ClusterBounds) : Prop :=
  b.minX < b.maxX ∧ b.minY < b.maxY

instance (b : ClusterBounds) : Decidable b.Wide :=
  inferInstanceAs (Decidable (_ ∧ _))

theorem ClusterBounds.Wide.proper {b : ClusterBounds} (h : b.Wide) : b.Proper :=
  ⟨h.1.le, h.2.le⟩

theorem computeBounds_wide {monitors : List MonitorInfo} (hNe : monitors ≠ [])
    (hVisible : ∀ m ∈ monitors, m.Visible) : (computeBounds monitors).Wide := by
  have hBox : IsBoundingBox monitors (computeBounds monitors) := by
    apply computeBounds_isBoundingBox hNe
    · intro m hMem
      exact m.x.le_toInt.trans (Int.le_add_of_nonneg_right (hVisible m hMem).1.le)
    · intro m hMem
      exact m.y.le_toInt.trans (Int.le_add_of_nonneg_right (hVisible m hMem).2.le)
  obtain ⟨m, hMem⟩ := List.exists_mem_of_ne_nil monitors hNe
  have hWidth := (hVisible m hMem).1
  have hHeight := (hVisible m hMem).2
  have hLeft := hBox.minX.2 (List.mem_map_of_mem hMem)
  have hRight := hBox.maxX.2 (List.mem_map_of_mem hMem)
  have hTop := hBox.minY.2 (List.mem_map_of_mem hMem)
  have hBottom := hBox.maxY.2 (List.mem_map_of_mem hMem)
  simp only [MonitorInfo.left, MonitorInfo.right, MonitorInfo.top, MonitorInfo.bottom] at hLeft hRight hTop hBottom
  constructor <;> omega

end NoCapKVM.Topology
