import NoCapKVM.Memory.Buffer

/-! Little-endian integers on a buffer. -/
namespace Codec

open Memory

def loadLe16 (data : List UInt8) (offset : Nat) : Option UInt16 := do
  return (← load data offset).toUInt16 ||| (← load data (offset + 1)).toUInt16 <<< 8

def loadLe32 (data : List UInt8) (offset : Nat) : Option UInt32 := do
  return (← load data offset).toUInt32 ||| (← load data (offset + 1)).toUInt32 <<< 8 |||
    (← load data (offset + 2)).toUInt32 <<< 16 ||| (← load data (offset + 3)).toUInt32 <<< 24

variable {data : List UInt8} {offset : Nat}

theorem loadLe16_inside (h : offset + 2 ≤ data.length) : ∃ v, loadLe16 data offset = some v := by
  simp only [loadLe16, load]
  rw [List.getElem?_eq_getElem (by omega), List.getElem?_eq_getElem (by omega)]
  exact ⟨_, rfl⟩

theorem loadLe32_inside (h : offset + 4 ≤ data.length) : ∃ v, loadLe32 data offset = some v := by
  simp only [loadLe32, load]
  rw [List.getElem?_eq_getElem (by omega), List.getElem?_eq_getElem (by omega), List.getElem?_eq_getElem (by omega),
    List.getElem?_eq_getElem (by omega)]
  exact ⟨_, rfl⟩

end Codec
