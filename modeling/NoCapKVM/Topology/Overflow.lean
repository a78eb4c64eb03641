import NoCapKVM.Topology.BoundingBox

/-! `topology/crossing.cpp` with its 32-bit sums: which screens the three functions can
take without a signed overflow, which has no meaning in the program. -/
namespace NoCapKVM.Topology

open Discovery (MonitorInfo decodeMonitorList encodeMonitorList)

def Fits (n : Int) : Prop :=
  -2147483648 ≤ n ∧ n ≤ 2147483647

instance (n : Int) : Decidable (Fits n) :=
  inferInstanceAs (Decidable (_ ∧ _))

/-- The value of an expression of type `int32_t`, if it has one. -/
def int32 (n : Int) : Option Int :=
  if Fits n then some n else none

/-- An expression has a value if that is a number of its type. -/
theorem int32_eq_some {n v : Int} : int32 n = some v ↔ Fits n ∧ v = n := by
  unfold int32
  split <;> simp_all [eq_comm]

theorem fits_toInt (v : Int32) : Fits v.toInt :=
  ⟨v.le_toInt, v.toInt_le⟩

def computeBounds32 (monitors : List MonitorInfo) : Option ClusterBounds :=
  monitors.foldlM (fun b m => do
    let right ← int32 (m.x.toInt + m.width.toInt)
    let bottom ← int32 (m.y.toInt + m.height.toInt)
    return { minX := min b.minX m.x.toInt, maxX := max b.maxX right,
             minY := min b.minY m.y.toInt, maxY := max b.maxY bottom })
    ⟨2147483647, -2147483648, 2147483647, -2147483648⟩

/-- The coordinate across the seam, on screens from `lo` to `hi`. -/
def landing32 (lo hi offset masterPerpPos : Int) : Option Int := do
  let extent ← int32 (hi - lo)
  let last ← int32 (offset + extent)
  let shared ← int32 (clamp masterPerpPos offset last - offset)
  int32 (shared + lo)

def computeCrossing32 (peerMonitors : List MonitorInfo) (direction : Direction) (offset masterPerpPos : Int) :
    Option CrossingResult :=
  if peerMonitors = [] then some {}
  else do
    let b ← computeBounds32 peerMonitors
    if direction.horizontal then
      let y ← landing32 b.minY b.maxY offset masterPerpPos
      return { hasTarget := true, y := y, x := if direction = .right then b.minX else b.maxX }
    else
      let x ← landing32 b.minX b.maxX offset masterPerpPos
      return { hasTarget := true, x := x, y := if direction = .down then b.minY else b.maxY }

def invertEntry32 (entry : ArrangementEntry) (masterBounds peerBounds : ClusterBounds) : Option ArrangementEntry := do
  let origins ←
    if entry.direction.horizontal then int32 (peerBounds.minY + masterBounds.minY)
    else int32 (peerBounds.minX + masterBounds.minX)
  let offset ← int32 (origins - entry.offset)
  return { deviceId := entry.deviceId, direction := opposite entry.direction, offset := offset }

/-- The box has a value exactly when the outer edges of all monitors are
numbers, and it is then the box without overflow. -/
theorem computeBounds32_eq_some {monitors : List MonitorInfo} {b : ClusterBounds} :
    computeBounds32 monitors = some b ↔
      (∀ m ∈ monitors, Fits m.right ∧ Fits m.bottom) ∧ b = computeBounds monitors := by
  unfold computeBounds32 computeBounds
  generalize (⟨2147483647, -2147483648, 2147483647, -2147483648⟩ : ClusterBounds) = start
  induction monitors generalizing start with
  | nil => simp [eq_comm]
  | cons m monitors ih =>
      rw [List.foldlM_cons, List.forall_mem_cons, and_assoc]
      by_cases hRight : Fits m.right
      · by_cases hBottom : Fits m.bottom
        · have hR : int32 (m.x.toInt + m.width.toInt) = some m.right := int32_eq_some.mpr ⟨hRight, rfl⟩
          have hB : int32 (m.y.toInt + m.height.toInt) = some m.bottom := int32_eq_some.mpr ⟨hBottom, rfl⟩
          rw [hR, hB, and_iff_right (And.intro hRight hBottom)]
          exact ih _
        · have hR : int32 (m.x.toInt + m.width.toInt) = some m.right := int32_eq_some.mpr ⟨hRight, rfl⟩
          have hB : int32 (m.y.toInt + m.height.toInt) = none := if_neg hBottom
          simp [hR, hB, hBottom]
      · have hR : int32 (m.x.toInt + m.width.toInt) = none := if_neg hRight
        simp [hR, hRight]

/-- Past the two sums in the shared range, no step leaves the screens. -/
theorem landing32_isSome {lo hi : Int} (hLe : lo ≤ hi) (hLo : Fits lo) (hHi : Fits hi) (offset pos : Int) :
    (landing32 lo hi offset pos).isSome ↔ Fits (hi - lo) ∧ Fits (offset + (hi - lo)) := by
  unfold landing32
  by_cases hExtent : Fits (hi - lo)
  · by_cases hLast : Fits (offset + (hi - lo))
    · have hShared : Fits (clamp pos offset (offset + (hi - lo)) - offset) := by
        unfold Fits clamp at *
        omega
      have hSum : Fits (clamp pos offset (offset + (hi - lo)) - offset + lo) := by
        unfold Fits clamp at *
        omega
      simp [int32, hExtent, hLast, hShared, hSum]
    · simp [int32, hExtent, hLast]
  · simp [int32, hExtent]

/-- Where the sums have values, they are those without overflow. -/
theorem landing32_eq_some {lo hi offset pos v : Int} (h : landing32 lo hi offset pos = some v) :
    v = clamp pos offset (offset + (hi - lo)) - offset + lo := by
  simp only [landing32, Option.bind_eq_bind, Option.bind_eq_some_iff, int32_eq_some] at h
  obtain ⟨_, ⟨-, rfl⟩, _, ⟨-, rfl⟩, _, ⟨-, rfl⟩, -, rfl⟩ := h
  rfl

/-- So a crossing that has a value is the one without overflow. -/
theorem computeCrossing32_eq_some {monitors : List MonitorInfo} {d : Direction} {offset pos : Int} {r : CrossingResult}
    (h : computeCrossing32 monitors d offset pos = some r) : r = computeCrossing monitors d offset pos := by
  unfold computeCrossing32 at h
  unfold computeCrossing
  split at h
  case isTrue hNil =>
    rw [if_pos hNil]
    exact (Option.some.inj h).symm
  case isFalse hNil =>
    rw [if_neg hNil]
    simp only [Option.bind_eq_bind, Option.bind_eq_some_iff] at h
    obtain ⟨b, hBounds, h⟩ := h
    obtain ⟨-, rfl⟩ := computeBounds32_eq_some.mp hBounds
    cases hHorizontal : d.horizontal with
    | true =>
        rw [hHorizontal, if_pos rfl] at h
        obtain ⟨v, hLanding, hResult⟩ := Option.bind_eq_some_iff.mp h
        rw [landing32_eq_some hLanding] at hResult
        exact (Option.some.inj hResult).symm
    | false =>
        rw [hHorizontal, if_neg Bool.false_ne_true] at h
        obtain ⟨v, hLanding, hResult⟩ := Option.bind_eq_some_iff.mp h
        rw [landing32_eq_some hLanding] at hResult
        exact (Option.some.inj hResult).symm

/-- And so is an inverted arrangement. -/
theorem invertEntry32_eq_some {entry inv : ArrangementEntry} {m s : ClusterBounds}
    (h : invertEntry32 entry m s = some inv) : inv = invertEntry entry m s := by
  unfold invertEntry32 at h
  unfold invertEntry
  cases hHorizontal : entry.direction.horizontal with
  | true =>
      simp only [hHorizontal, if_true, Option.bind_eq_bind, Option.bind_eq_some_iff, int32_eq_some] at h
      obtain ⟨_, ⟨-, rfl⟩, _, ⟨-, rfl⟩, hEntry⟩ := h
      exact (Option.some.inj hEntry).symm
  | false =>
      simp only [hHorizontal, Bool.false_eq_true, if_false, Option.bind_eq_bind, Option.bind_eq_some_iff,
        int32_eq_some] at h
      obtain ⟨_, ⟨-, rfl⟩, _, ⟨-, rfl⟩, hEntry⟩ := h
      exact (Option.some.inj hEntry).symm

/-- The coordinates of a box are those of the monitors' edges. -/
theorem IsBoundingBox.fits {monitors : List MonitorInfo} {b : ClusterBounds} (h : IsBoundingBox monitors b)
    (hEdges : ∀ m ∈ monitors, Fits m.right ∧ Fits m.bottom) (d : Direction) :
    Fits (b.acrossMin d) ∧ Fits (b.acrossMax d) := by
  obtain ⟨left, -, hLeft⟩ := List.mem_map.mp h.minX.1
  obtain ⟨right, hRightMem, hRight⟩ := List.mem_map.mp h.maxX.1
  obtain ⟨top, -, hTop⟩ := List.mem_map.mp h.minY.1
  obtain ⟨bottom, hBottomMem, hBottom⟩ := List.mem_map.mp h.maxY.1
  unfold ClusterBounds.acrossMin ClusterBounds.acrossMax
  cases d.horizontal with
  | true =>
      simp only [if_true]
      exact ⟨hTop ▸ fits_toInt top.y, hBottom ▸ (hEdges bottom hBottomMem).2⟩
  | false =>
      simp only [Bool.false_eq_true, if_false]
      exact ⟨hLeft ▸ fits_toInt left.x, hRight ▸ (hEdges right hRightMem).1⟩

/-- A crossing has a value if the box does and its edges across the seam are
numbers. -/
theorem computeCrossing32_isSome {monitors : List MonitorInfo} (hNe : monitors ≠ []) {b : ClusterBounds}
    (hBounds : computeBounds32 monitors = some b) (hProper : b.Proper) (d : Direction)
    (hFits : Fits (b.acrossMin d) ∧ Fits (b.acrossMax d)) (offset pos : Int) :
    (computeCrossing32 monitors d offset pos).isSome ↔
      Fits (b.acrossMax d - b.acrossMin d) ∧ Fits (offset + (b.acrossMax d - b.acrossMin d)) := by
  have hPure : ∀ (o : Option Int) (f : Int → CrossingResult),
      (o >>= fun v => pure (f v)).isSome = o.isSome := by
    intro o f
    cases o <;> rfl
  rw [computeCrossing32, if_neg hNe, hBounds]
  unfold ClusterBounds.acrossMin ClusterBounds.acrossMax at *
  cases hHorizontal : d.horizontal with
  | true =>
      simp only [hHorizontal, if_true] at hFits ⊢
      rw [← landing32_isSome hProper.2 hFits.1 hFits.2 offset pos]
      exact Bool.eq_iff_iff.mp (hPure _ _)
  | false =>
      simp only [hHorizontal, Bool.false_eq_true, if_false] at hFits ⊢
      rw [← landing32_isSome hProper.1 hFits.1 hFits.2 offset pos]
      exact Bool.eq_iff_iff.mp (hPure _ _)

/-- An inverted arrangement has a value exactly when both of its sums are
numbers. -/
theorem invertEntry32_isSome (entry : ArrangementEntry) (m s : ClusterBounds) :
    (invertEntry32 entry m s).isSome ↔
      Fits (s.acrossMin entry.direction + m.acrossMin entry.direction) ∧
        Fits (s.acrossMin entry.direction + m.acrossMin entry.direction - entry.offset) := by
  have hSum : ∀ origins : Int, ((int32 origins).bind fun sum => (int32 (sum - entry.offset)).bind fun offset =>
      some ({ deviceId := entry.deviceId, direction := opposite entry.direction, offset } : ArrangementEntry)).isSome ↔
        Fits origins ∧ Fits (origins - entry.offset) := by
    intro origins
    by_cases hFirst : Fits origins
    · by_cases hSecond : Fits (origins - entry.offset)
      · simp [int32, hFirst, hSecond]
      · simp [int32, hFirst, hSecond]
    · simp [int32, hFirst]
  unfold invertEntry32 ClusterBounds.acrossMin
  cases entry.direction.horizontal with
  | true => exact hSum _
  | false => exact hSum _

/-- The functions have values on these screens, and the box that they work
with is one. -/
def GeometrySafe (monitors : List MonitorInfo) (entry : ArrangementEntry) (masterBounds : ClusterBounds)
    (masterPerpPos : Int) : Prop :=
  ∃ b, computeBounds32 monitors = some b ∧ b.Proper ∧
    (computeCrossing32 monitors entry.direction entry.offset masterPerpPos).isSome ∧
      (invertEntry32 entry masterBounds b).isSome

/-- Then they compute what the functions over the integers do. -/
theorem GeometrySafe.exact {monitors : List MonitorInfo} {entry : ArrangementEntry} {m : ClusterBounds} {pos : Int}
    (h : GeometrySafe monitors entry m pos) :
    computeBounds32 monitors = some (computeBounds monitors) ∧
      computeCrossing32 monitors entry.direction entry.offset pos =
        some (computeCrossing monitors entry.direction entry.offset pos) ∧
      invertEntry32 entry m (computeBounds monitors) = some (invertEntry entry m (computeBounds monitors)) := by
  obtain ⟨b, hBounds, -, hCrossing, hInverse⟩ := h
  obtain ⟨hEdges, rfl⟩ := computeBounds32_eq_some.mp hBounds
  obtain ⟨r, hR⟩ := Option.isSome_iff_exists.mp hCrossing
  obtain ⟨inv, hInv⟩ := Option.isSome_iff_exists.mp hInverse
  exact ⟨hBounds, computeCrossing32_eq_some hR ▸ hR, invertEntry32_eq_some hInv ▸ hInv⟩

/-- The edges of the monitors are numbers, their outer ones stand the right
way round, and so are the sums that carry a position across the seam. -/
def Representable (monitors : List MonitorInfo) (entry : ArrangementEntry) (masterBounds : ClusterBounds) : Prop :=
  let d := entry.direction
  (∀ m ∈ monitors, Fits m.right ∧ Fits m.bottom) ∧
    ∃ b, IsBoundingBox monitors b ∧ b.Proper ∧
      (Fits (b.acrossMax d - b.acrossMin d) ∧ Fits (entry.offset + (b.acrossMax d - b.acrossMin d))) ∧
        Fits (b.acrossMin d + masterBounds.acrossMin d) ∧
          Fits (b.acrossMin d + masterBounds.acrossMin d - entry.offset)

/-- So all of it has values exactly for the screens whose edges and sums are
numbers. -/
theorem geometrySafe_iff_representable {monitors : List MonitorInfo} (hNe : monitors ≠ [])
    (entry : ArrangementEntry) (m : ClusterBounds) (pos : Int) :
    GeometrySafe monitors entry m pos ↔ Representable monitors entry m := by
  constructor
  · rintro ⟨b, hBounds, hProper, hCrossing, hInverse⟩
    obtain ⟨hEdges, rfl⟩ := computeBounds32_eq_some.mp hBounds
    have hBox : IsBoundingBox monitors (computeBounds monitors) :=
      computeBounds_isBoundingBox hNe (fun mon hMem => (hEdges mon hMem).1.1) fun mon hMem => (hEdges mon hMem).2.1
    rw [computeCrossing32_isSome hNe hBounds hProper _ (hBox.fits hEdges _)] at hCrossing
    exact ⟨hEdges, _, hBox, hProper, hCrossing, (invertEntry32_isSome entry m _).mp hInverse⟩
  · rintro ⟨hEdges, b, hBox, hProper, hCrossing, hInverse⟩
    have hComputed : IsBoundingBox monitors (computeBounds monitors) :=
      computeBounds_isBoundingBox hNe (fun mon hMem => (hEdges mon hMem).1.1) fun mon hMem => (hEdges mon hMem).2.1
    have hBounds : computeBounds32 monitors = some b :=
      computeBounds32_eq_some.mpr ⟨hEdges, hBox.unique hComputed⟩
    exact ⟨b, hBounds, hProper, (computeCrossing32_isSome hNe hBounds hProper _ (hBox.fits hEdges _) _ _).mpr hCrossing,
      (invertEntry32_isSome entry m b).mpr hInverse⟩

/-- On screens that a peer sends, the functions are safe just when the screens
can be represented. -/
theorem peer_geometry_safe_iff (payload : List UInt8) (monitors : List MonitorInfo) :
    decodeMonitorList payload = some monitors → monitors ≠ [] →
      ∀ (entry : ArrangementEntry) (masterBounds : ClusterBounds) (masterPerpPos : Int),
        GeometrySafe monitors entry masterBounds masterPerpPos ↔ Representable monitors entry masterBounds :=
  fun _ hNe entry m pos => geometrySafe_iff_representable hNe entry m pos

def fullHd : MonitorInfo := { width := 1920, height := 1080 }

def aboveMaster : ArrangementEntry := ⟨2, .up, 0⟩

theorem full_hd_geometry_safe :
    decodeMonitorList (encodeMonitorList [fullHd]) = some [fullHd] ∧
      (GeometrySafe [fullHd] aboveMaster ⟨0, 1920, 0, 1080⟩ 960 ↔
        Representable [fullHd] aboveMaster ⟨0, 1920, 0, 1080⟩) :=
  ⟨rfl, peer_geometry_safe_iff (encodeMonitorList [fullHd]) [fullHd] rfl (by decide) aboveMaster _ _⟩

def leftward : MonitorInfo := { width := -1, height := 1080 }

def outermost : MonitorInfo := { x := 2147483647, width := 1, height := 1080 }

/-- The first has its right edge left of its left edge, the
second has none. -/
theorem peer_geometry_unsafe :
    decodeMonitorList (encodeMonitorList [leftward]) = some [leftward] ∧
      ¬ GeometrySafe [leftward] aboveMaster ⟨0, 1920, 0, 1080⟩ 960 ∧
      decodeMonitorList (encodeMonitorList [outermost]) = some [outermost] ∧
      ¬ GeometrySafe [outermost] aboveMaster ⟨0, 1920, 0, 1080⟩ 960 := by
  refine ⟨rfl, ?_, rfl, ?_⟩
  · rintro ⟨b, hBounds, hProper, -⟩
    cases Option.some.inj hBounds
    exact absurd hProper (by decide)
  · rintro ⟨b, hBounds, -⟩
    cases hBounds

end NoCapKVM.Topology
