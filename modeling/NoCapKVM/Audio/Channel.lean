import Mathlib.Algebra.Order.Ring.Nat
import Mathlib.Data.List.Nodup
import NoCapKVM.Codec.BigEndian
import NoCapKVM.Discovery.NoisePrimitives

/-! `audio/protocol.cpp` and `audio/channel.cpp`: encrypted packets on a socket that
may lose or reorder them. -/
namespace NoCapKVM.Audio

open Codec Discovery

structure AudioFormat where
  sampleRate : UInt32 := 48000
  bitDepth : UInt8 := 16
  deriving DecidableEq

section Protocol

variable (na : Sodium UInt8)

def kLabel : List UInt8 :=
  "nockvm-audio-v1".toList.map fun c => c.toNat.toUInt8

/-- A key of its own for the audio stream, from the transport key of the
session. -/
def deriveAudioKey (transportKey : Key32 UInt8) : Key32 UInt8 :=
  na.genericHash (transportKey.val ++ kLabel)

def encodeFrame (key : Key32 UInt8) (seq : UInt32) (data : List UInt8) : List UInt8 :=
  be32 seq ++ aeadEncrypt na key seq.toUInt64 [] data

def decodeFrame (key : Key32 UInt8) : List UInt8 → Option (UInt32 × List UInt8)
  | a :: b :: c :: d :: ciphertext =>
      let seq := readBe32 a b c d
      (aeadDecrypt na key seq.toUInt64 [] ciphertext).map fun data => (seq, data)
  | _ => none

variable {na}

theorem decodeFrame_encodeFrame (hNa : na.AeadContract) (key : Key32 UInt8) (seq : UInt32) (data : List UInt8) :
    decodeFrame na key (encodeFrame na key seq data) = some (seq, data) := by
  have hDecrypt : aeadDecrypt na key seq.toUInt64 [] (aeadEncrypt na key seq.toUInt64 [] data) = some data :=
    hNa.decrypt_encrypt ..
  simp only [encodeFrame, be32, List.cons_append, List.nil_append, decodeFrame, readBe32_be32, hDecrypt,
    Option.map_some]

end Protocol

/-- The key and the counter of an `AudioChannel`. -/
structure AudioChannel where
  key : Key32 UInt8
  sendSeq : UInt32 := 0

/-- The arguments of a call of `encode_frame`. -/
structure Packet where
  key : Key32 UInt8
  seq : UInt32
  data : List UInt8
  deriving DecidableEq

def Packet.bytes (na : Sodium UInt8) (p : Packet) : List UInt8 :=
  encodeFrame na p.key p.seq p.data

def AudioChannel.sendTo (channel : AudioChannel) (data : List UInt8) : Packet × AudioChannel :=
  (⟨channel.key, channel.sendSeq, data⟩, { channel with sendSeq := channel.sendSeq + 1 })

/-- The last `n` values of a counter that started at 0, newest first. -/
def countdown (n : Nat) : List UInt32 :=
  (List.range n).reverse.map UInt32.ofNat

theorem countdown_succ (n : Nat) : countdown (n + 1) = UInt32.ofNat n :: countdown n := by
  simp [countdown, List.range_succ]

/-- They are distinct as long as its 32 bits have not wrapped. -/
theorem nodup_countdown_iff (n : Nat) : (countdown n).Nodup ↔ n ≤ 2 ^ 32 := by
  have hRange : (List.range n).reverse.Nodup := List.nodup_reverse.mpr List.nodup_range
  rw [countdown, List.nodup_map_iff_inj_on hRange]
  simp only [List.mem_reverse, List.mem_range]
  constructor
  · intro hInj
    by_contra hLt
    have hWrap : (0 : Nat) = 2 ^ 32 := hInj 0 (by omega) (2 ^ 32) (by omega) rfl
    cases hWrap
  · intro hLe a hA b hB hEq
    have hNat := congrArg UInt32.toNat hEq
    rw [UInt32.toNat_ofNat_of_lt' (Nat.lt_of_lt_of_le hA hLe),
      UInt32.toNat_ofNat_of_lt' (Nat.lt_of_lt_of_le hB hLe)] at hNat
    exact hNat

end NoCapKVM.Audio
