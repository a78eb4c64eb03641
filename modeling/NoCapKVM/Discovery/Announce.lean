import NoCapKVM.Codec.BigEndian

/-! The announcement that a device broadcasts on the network: `encode_announce` and
`decode_announce` of `protocol.cpp`. -/
namespace NoCapKVM.Discovery

open Codec Memory

inductive Role where
  | master
  | slave
  deriving DecidableEq

def kProtocolMagic : UInt32 := 0x4E4B564D
def kProtocolVersion : UInt16 := 1
def kAnnouncePacketSize : Nat := 50
def kMaxHostnameLen : Nat := 32

def kOffMagic : Nat := 0
def kOffVersion : Nat := 4
def kOffDeviceId : Nat := 6
def kOffRole : Nat := 14
def kOffTcpPort : Nat := 15
def kOffHostnameLen : Nat := 17
def kOffHostname : Nat := 18

/-- `static_cast<uint8_t>` -/
def Role.byte : Role → UInt8
  | .master => 0
  | .slave => 1

/-- `static_cast<Role>` of a byte that one of the roles has. -/
def Role.ofByte (b : UInt8) : Role := if b = Role.master.byte then .master else .slave

structure DecodedAnnounce where
  deviceId : UInt64
  role : Role
  tcpPort : UInt16
  hostname : List UInt8
  deriving DecidableEq

/-- A write outside of the packet has no result. -/
def encodeAnnounce (deviceId : UInt64) (role : Role) (tcpPort : UInt16) (hostname : List UInt8) :
    Option (List UInt8) := do
  let packet := List.replicate kAnnouncePacketSize 0
  let packet ← stores packet kOffMagic (be32 kProtocolMagic)
  let packet ← stores packet kOffVersion (be16 kProtocolVersion)
  let packet ← stores packet kOffDeviceId (be32 (deviceId >>> 32).toUInt32)
  let packet ← stores packet (kOffDeviceId + 4) (be32 deviceId.toUInt32)
  let packet ← store packet kOffRole role.byte
  let packet ← stores packet kOffTcpPort (be16 tcpPort)
  let hostnameLen := (min hostname.length kMaxHostnameLen).toUInt8
  let packet ← store packet kOffHostnameLen hostnameLen
  stores packet kOffHostname (hostname.take hostnameLen.toNat)

/-- A read outside of the buffer has no result, a packet that is not accepted
the result `none`. -/
def decodeAnnounce (data : List UInt8) : Option (Option DecodedAnnounce) := do
  if data.length ≠ kAnnouncePacketSize then return none
  if (← loadBe32 data kOffMagic) ≠ kProtocolMagic then return none
  if (← loadBe16 data kOffVersion) ≠ kProtocolVersion then return none
  let roleByte ← load data kOffRole
  if roleByte ≠ Role.master.byte ∧ roleByte ≠ Role.slave.byte then return none
  let hostnameLen ← load data kOffHostnameLen
  if hostnameLen.toNat > kMaxHostnameLen then return none
  let high ← loadBe32 data kOffDeviceId
  let low ← loadBe32 data (kOffDeviceId + 4)
  let tcpPort ← loadBe16 data kOffTcpPort
  let hostname ← loads data kOffHostname hostnameLen.toNat
  return some { deviceId := high.toUInt64 <<< 32 ||| low.toUInt64, role := .ofByte roleByte, tcpPort := tcpPort,
                hostname := hostname }

/-- The bytes in front of the hostname. -/
def announceHeader (deviceId : UInt64) (role : Role) (tcpPort : UInt16) (hostnameLen : UInt8) : List UInt8 :=
  be32 kProtocolMagic ++ be16 kProtocolVersion ++ be32 (deviceId >>> 32).toUInt32 ++ be32 deviceId.toUInt32 ++
    [role.byte] ++ be16 tcpPort ++ [hostnameLen]

/-- The bytes behind the hostname are zero. -/
theorem encodeAnnounce_eq (deviceId : UInt64) (role : Role) (tcpPort : UInt16) (hostname : List UInt8) :
    encodeAnnounce deviceId role tcpPort hostname =
      some (announceHeader deviceId role tcpPort (min hostname.length kMaxHostnameLen).toUInt8 ++
        (hostname.take kMaxHostnameLen ++ List.replicate (kMaxHostnameLen - hostname.length) 0)) := by
  have hCap : (min hostname.length kMaxHostnameLen).toUInt8.toNat = min hostname.length kMaxHostnameLen :=
    toNat_toUInt8_min (by decide)
  have hTake : hostname.take (min hostname.length kMaxHostnameLen) = hostname.take kMaxHostnameLen := by
    rw [← List.take_take, List.take_of_length_le (List.length_take_le' _ _)]
  have hZeros : List.replicate kMaxHostnameLen (0 : UInt8) =
      List.replicate (hostname.take kMaxHostnameLen).length 0 ++ List.replicate (kMaxHostnameLen - hostname.length) 0 := by
    rw [← List.replicate_add, List.length_take]
    congr 1
    omega
  have hHeader : encodeAnnounce deviceId role tcpPort hostname =
      stores (announceHeader deviceId role tcpPort (min hostname.length kMaxHostnameLen).toUInt8 ++
          List.replicate kMaxHostnameLen 0) kOffHostname
        (hostname.take (min hostname.length kMaxHostnameLen).toUInt8.toNat) := by
    simp [encodeAnnounce, announceHeader, stores, store, be32, be16, kAnnouncePacketSize, kOffMagic, kOffVersion,
      kOffDeviceId, kOffRole, kOffTcpPort, kOffHostname, kOffHostnameLen, kMaxHostnameLen, List.replicate]
  rw [hHeader, hCap, hTake, hZeros]
  exact stores_next (by rw [List.length_replicate])

theorem packet_of_length {data : List UInt8} (h : data.length = kAnnouncePacketSize) :
    ∃ m₀ m₁ m₂ m₃ v₀ v₁ d₀ d₁ d₂ d₃ d₄ d₅ d₆ d₇ r p₀ p₁ n tail,
      data = m₀ :: m₁ :: m₂ :: m₃ :: v₀ :: v₁ :: d₀ :: d₁ :: d₂ :: d₃ :: d₄ :: d₅ :: d₆ :: d₇ :: r :: p₀ :: p₁ :: n ::
        tail ∧ tail.length = kMaxHostnameLen := by
  obtain ⟨m₀, m₁, m₂, m₃, v₀, v₁, d₀, d₁, d₂, d₃, d₄, d₅, d₆, d₇, r, p₀, p₁, n, tail, rfl⟩ :=
    first_eighteen (by rw [h]; decide : 18 ≤ data.length)
  refine ⟨m₀, m₁, m₂, m₃, v₀, v₁, d₀, d₁, d₂, d₃, d₄, d₅, d₆, d₇, r, p₀, p₁, n, tail, rfl, ?_⟩
  simp only [List.length_cons, kAnnouncePacketSize] at h
  unfold kMaxHostnameLen
  omega

/-- A byte string of the right length, with the right magic and version, a
role, and a hostname that is not too long. -/
structure Announced (data : List UInt8) : Prop where
  length : data.length = kAnnouncePacketSize
  magic : (data.drop kOffMagic).take 4 = be32 kProtocolMagic
  version : (data.drop kOffVersion).take 2 = be16 kProtocolVersion
  role : data[kOffRole]? = some 0 ∨ data[kOffRole]? = some 1
  hostnameLen : ∃ n, data[kOffHostnameLen]? = some n ∧ n.toNat ≤ kMaxHostnameLen

section Packet

variable {m₀ m₁ m₂ m₃ v₀ v₁ d₀ d₁ d₂ d₃ d₄ d₅ d₆ d₇ r p₀ p₁ n : UInt8} {tail : List UInt8}

/-- A packet of the right length, byte by byte. -/
theorem decodeAnnounce_packet (hTail : tail.length = kMaxHostnameLen) :
    decodeAnnounce (m₀ :: m₁ :: m₂ :: m₃ :: v₀ :: v₁ :: d₀ :: d₁ :: d₂ :: d₃ :: d₄ :: d₅ :: d₆ :: d₇ :: r :: p₀ :: p₁ ::
        n :: tail) =
      some (if readBe32 m₀ m₁ m₂ m₃ = kProtocolMagic ∧ readBe16 v₀ v₁ = kProtocolVersion ∧ (r = 0 ∨ r = 1) ∧
          n.toNat ≤ kMaxHostnameLen then
        some { deviceId := (readBe32 d₀ d₁ d₂ d₃).toUInt64 <<< 32 ||| (readBe32 d₄ d₅ d₆ d₇).toUInt64,
               role := .ofByte r, tcpPort := readBe16 p₀ p₁, hostname := tail.take n.toNat }
      else none) := by
  rw [decodeAnnounce]
  set packet := m₀ :: m₁ :: m₂ :: m₃ :: v₀ :: v₁ :: d₀ :: d₁ :: d₂ :: d₃ :: d₄ :: d₅ :: d₆ :: d₇ :: r :: p₀ :: p₁ ::
    n :: tail with hPacket
  have hLength : packet.length = kAnnouncePacketSize := by
    simp only [hPacket, List.length_cons, hTail, kMaxHostnameLen, kAnnouncePacketSize]
  have hMagic : loadBe32 packet kOffMagic = some (readBe32 m₀ m₁ m₂ m₃) := rfl
  have hVersion : loadBe16 packet kOffVersion = some (readBe16 v₀ v₁) := rfl
  have hRole : load packet kOffRole = some r := rfl
  have hHostnameLen : load packet kOffHostnameLen = some n := rfl
  have hHigh : loadBe32 packet kOffDeviceId = some (readBe32 d₀ d₁ d₂ d₃) := rfl
  have hLow : loadBe32 packet (kOffDeviceId + 4) = some (readBe32 d₄ d₅ d₆ d₇) := rfl
  have hPort : loadBe16 packet kOffTcpPort = some (readBe16 p₀ p₁) := rfl
  have hRejected : (r ≠ Role.master.byte ∧ r ≠ Role.slave.byte) ↔ ¬(r = 0 ∨ r = 1) := not_or.symm
  simp only [hMagic, hVersion, hRole, hHostnameLen, hHigh, hLow, hPort, hRejected, Option.bind_eq_bind, Option.bind_some]
  rw [if_neg (not_not_intro hLength)]
  by_cases hSameMagic : readBe32 m₀ m₁ m₂ m₃ = kProtocolMagic
  · by_cases hSameVersion : readBe16 v₀ v₁ = kProtocolVersion
    · by_cases hKnown : r = 0 ∨ r = 1
      · by_cases hFits : n.toNat ≤ kMaxHostnameLen
        · have hInside : kOffHostname + n.toNat ≤ packet.length := by
            change 18 + n.toNat ≤ packet.length
            rw [hLength]
            exact Nat.add_le_add_left hFits 18
          rw [if_neg (not_not_intro hSameMagic), if_neg (not_not_intro hSameVersion),
            if_neg (not_not_intro hKnown), if_neg (Nat.not_lt.mpr hFits), loads_inside hInside,
            if_pos ⟨hSameMagic, hSameVersion, hKnown, hFits⟩]
          rfl
        · rw [if_neg (not_not_intro hSameMagic), if_neg (not_not_intro hSameVersion),
            if_neg (not_not_intro hKnown), if_pos (Nat.lt_of_not_le hFits), if_neg fun h => hFits h.2.2.2]
          rfl
      · rw [if_neg (not_not_intro hSameMagic), if_neg (not_not_intro hSameVersion), if_pos hKnown,
          if_neg fun h => hKnown h.2.2.1]
        rfl
    · rw [if_neg (not_not_intro hSameMagic), if_pos hSameVersion, if_neg fun h => hSameVersion h.2.1]
      rfl
  · rw [if_pos hSameMagic, if_neg fun h => hSameMagic h.1]
    rfl

theorem be32_inj {v w : UInt32} (h : be32 v = be32 w) : v = w := by
  simp only [be32, List.cons.injEq, and_true] at h
  obtain ⟨h₀, h₁, h₂, h₃⟩ := h
  rw [← readBe32_be32 v, ← readBe32_be32 w, h₀, h₁, h₂, h₃]

theorem be16_inj {v w : UInt16} (h : be16 v = be16 w) : v = w := by
  simp only [be16, List.cons.injEq, and_true] at h
  obtain ⟨h₀, h₁⟩ := h
  rw [← readBe16_be16 v, ← readBe16_be16 w, h₀, h₁]

theorem announced_packet (hTail : tail.length = kMaxHostnameLen) :
    Announced (m₀ :: m₁ :: m₂ :: m₃ :: v₀ :: v₁ :: d₀ :: d₁ :: d₂ :: d₃ :: d₄ :: d₅ :: d₆ :: d₇ :: r :: p₀ :: p₁ :: n ::
        tail) ↔
      readBe32 m₀ m₁ m₂ m₃ = kProtocolMagic ∧ readBe16 v₀ v₁ = kProtocolVersion ∧ (r = 0 ∨ r = 1) ∧
        n.toNat ≤ kMaxHostnameLen := by
  constructor
  · rintro ⟨-, hMagic, hVersion, hRole, n', hN, hFits⟩
    cases hN
    refine ⟨be32_inj ?_, be16_inj ?_, ?_, hFits⟩
    · rw [be32_readBe32]
      exact hMagic
    · rw [be16_readBe16]
      exact hVersion
    · exact hRole.imp Option.some.inj Option.some.inj
  · rintro ⟨hMagic, hVersion, hRole, hFits⟩
    refine ⟨?_, ?_, ?_, ?_, n, rfl, hFits⟩
    · simp only [List.length_cons, hTail, kMaxHostnameLen, kAnnouncePacketSize]
    · rw [← hMagic, be32_readBe32]
      rfl
    · rw [← hVersion, be16_readBe16]
      rfl
    · exact hRole.imp (congrArg some) (congrArg some)

end Packet

theorem Role.ofByte_byte (role : Role) : Role.ofByte role.byte = role := by
  cases role <;> rfl

theorem Role.byte_ofByte {r : UInt8} (h : r = 0 ∨ r = 1) : (Role.ofByte r).byte = r := by
  rcases h with rfl | rfl <;> rfl

theorem decodeAnnounce_encoded (deviceId : UInt64) (role : Role) (tcpPort : UInt16) (hostname : List UInt8) :
    decodeAnnounce (announceHeader deviceId role tcpPort (min hostname.length kMaxHostnameLen).toUInt8 ++
        (hostname.take kMaxHostnameLen ++ List.replicate (kMaxHostnameLen - hostname.length) 0)) =
      some (some ⟨deviceId, role, tcpPort, hostname.take kMaxHostnameLen⟩) := by
  have hCap : (min hostname.length kMaxHostnameLen).toUInt8.toNat = (hostname.take kMaxHostnameLen).length := by
    rw [toNat_toUInt8_min (by decide), List.length_take, Nat.min_comm]
  have hTail : (hostname.take kMaxHostnameLen ++ List.replicate (kMaxHostnameLen - hostname.length) 0).length =
      kMaxHostnameLen := by
    rw [List.length_append, List.length_take, List.length_replicate]
    omega
  have hRole : role.byte = 0 ∨ role.byte = 1 := by cases role <;> decide
  have hFits : (hostname.take kMaxHostnameLen).length ≤ kMaxHostnameLen := List.length_take_le _ _
  simp only [announceHeader, be32, be16, List.cons_append, List.nil_append]
  rw [decodeAnnounce_packet hTail, hCap, if_pos ⟨readBe32_be32 _, readBe16_be16 _, hRole, hFits⟩, List.take_left]
  simp only [readBe32_be32, readBe16_be16, high_or_low, Role.ofByte_byte]

/-- An announcement comes back with its hostname cut off, the decoder accepts
what it should and reads nothing outside, and a packet that it accepts differs
from what is encoded again only behind the hostname. -/
theorem announce_codec :
    (∀ deviceId role tcpPort hostname, ∃ packet, encodeAnnounce deviceId role tcpPort hostname = some packet ∧
      packet.length = kAnnouncePacketSize ∧
      decodeAnnounce packet = some (some ⟨deviceId, role, tcpPort, hostname.take kMaxHostnameLen⟩)) ∧
    (∀ data, ∃ result, decodeAnnounce data = some result ∧ (result.isSome ↔ Announced data)) ∧
    ∀ data d, decodeAnnounce data = some (some d) →
      encodeAnnounce d.deviceId d.role d.tcpPort d.hostname =
        some (data.take (kOffHostname + d.hostname.length) ++ List.replicate (kMaxHostnameLen - d.hostname.length) 0) := by
  refine ⟨?_, ?_, ?_⟩
  · intro deviceId role tcpPort hostname
    refine ⟨_, encodeAnnounce_eq deviceId role tcpPort hostname, ?_, decodeAnnounce_encoded deviceId role tcpPort hostname⟩
    simp only [announceHeader, List.length_append, be32_length, be16_length, List.length_singleton, List.length_take,
      List.length_replicate, kMaxHostnameLen, kAnnouncePacketSize]
    omega
  · intro data
    by_cases hLength : data.length = kAnnouncePacketSize
    · obtain ⟨m₀, m₁, m₂, m₃, v₀, v₁, d₀, d₁, d₂, d₃, d₄, d₅, d₆, d₇, r, p₀, p₁, n, tail, rfl, hTail⟩ :=
        packet_of_length hLength
      refine ⟨_, decodeAnnounce_packet hTail, ?_⟩
      rw [announced_packet hTail]
      split
      · rename_i hAccepted
        exact ⟨fun _ => hAccepted, fun _ => rfl⟩
      · rename_i hRejected
        exact ⟨nofun, fun h => absurd h hRejected⟩
    · refine ⟨none, ?_, ⟨nofun, fun h => absurd h.length hLength⟩⟩
      rw [decodeAnnounce, if_pos hLength]
      rfl
  · intro data d h
    have hLength : data.length = kAnnouncePacketSize := by
      by_contra hLength
      rw [decodeAnnounce, if_pos hLength] at h
      cases h
    obtain ⟨m₀, m₁, m₂, m₃, v₀, v₁, d₀, d₁, d₂, d₃, d₄, d₅, d₆, d₇, r, p₀, p₁, n, tail, rfl, hTail⟩ :=
      packet_of_length hLength
    rw [decodeAnnounce_packet hTail, Option.some.injEq] at h
    split at h
    · rename_i hAccepted
      obtain ⟨hMagic, hVersion, hRole, hFits⟩ := hAccepted
      cases h
      have hName : (tail.take n.toNat).length = n.toNat := by
        rw [List.length_take, hTail]
        exact Nat.min_eq_left hFits
      have hHeader : announceHeader ((readBe32 d₀ d₁ d₂ d₃).toUInt64 <<< 32 ||| (readBe32 d₄ d₅ d₆ d₇).toUInt64)
          (.ofByte r) (readBe16 p₀ p₁) (min n.toNat kMaxHostnameLen).toUInt8 =
          [m₀, m₁, m₂, m₃, v₀, v₁, d₀, d₁, d₂, d₃, d₄, d₅, d₆, d₇, r, p₀, p₁, n] := by
        rw [announceHeader, (halves_of_or _ _).1, (halves_of_or _ _).2, ← hMagic, ← hVersion]
        rw [be32_readBe32, be32_readBe32, be32_readBe32, be16_readBe16, be16_readBe16, Role.byte_ofByte hRole,
          Nat.min_eq_left hFits]
        simp
      rw [encodeAnnounce_eq, hName, hHeader, List.take_take, Nat.min_eq_right hFits]
      simp [kOffHostname, Nat.add_comm 18]
    · cases h

end NoCapKVM.Discovery
