import NoCapKVM.Clipboard.JpegCodec
import NoCapKVM.Discovery.Messages
import NoCapKVM.Discovery.PlainSodium
import NoCapKVM.Discovery.SecureChannel

/-! Which messages fit the frames that a receiver accepts. -/
namespace NoCapKVM.Discovery.FrameSize

open Codec Thread SecureChannel Clipboard Input

/-- If a send succeeds, the next receive of the peer delivers exactly its
message, with the counters of both sides in step before and after. -/
def Agrees (na : Sodium UInt8) (key : Key32 UInt8) (msgType : UInt8) (payload : List UInt8) : Prop :=
  ∀ (past : List (Label ChannelOp ChannelAns Empty)) (sender sent receiver : Socket)
    (wire later : List UInt8) (deadline : Time),
    Run (alone Socket.exec) (send na key msgType payload) sender past (.ret true) sent →
    sent.outgoing = sender.outgoing ++ wire → receiver.incoming = wire ++ later →
    receiver.recvNonce = sender.sendNonce → receiver.reading = .idle →
    Returns intact (fun r s' => r = .ok msgType payload ∧ s'.incoming = later ∧
      s'.recvNonce = sent.sendNonce) (receive na key deadline) receiver

/-- What the senders pass to `send`. `write` is stb_image_write
on some image. -/
inductive Sends (na : Sodium UInt8) : UInt8 → List UInt8 → Prop where
  | mouseAbsolute (x y : Int32) : Sends na kMsgMouseAbsolute (encodeMouseAbsolute x y)
  | mouseButton (button : UInt8) (down : Bool) : Sends na kMsgMouseButton (encodeMouseButton button down)
  | mouseWheel (delta : Int16) : Sends na kMsgMouseWheel (encodeMouseWheel delta)
  | key (vk scancode : UInt32) (down extended : Bool) :
      Sends na kMsgKey (encodeKey vk scancode down extended)
  | modifierSync (mask : UInt8) : Sends na kMsgModifierSync (encodeModifierSync mask)
  | monitorList (monitors : List MonitorInfo) : Sends na kMsgMonitorList (encodeMonitorList monitors)
  | audioPort (port : UInt16) : Sends na kMsgAudioPort (encodeAudioPort port)
  | audioStatus (settings : AudioSettings) : Sends na kMsgAudioStatus (encodeAudioSettings settings)
  | audioControl (settings : AudioSettings) : Sends na kMsgAudioControl (encodeAudioSettings settings)
  | heartbeat : Sends na kMsgHeartbeat []
  | goAway : Sends na kMsgGoAway []
  | ping (seq : UInt32) : Sends na kMsgPing (encodePingSeq seq)
  | pong (seq : UInt32) : Sends na kMsgPong (encodePingSeq seq)
  | clipboardText (text : List UInt8) : Sends na kMsgClipboardText text
  | clipboardImage (write : Nat → Option (List UInt8))
      (hImage : encodeJpeg write kJpegQuality kMaxJpegBytes ≠ []) :
      Sends na kMsgClipboardImage (encodeJpeg write kJpegQuality kMaxJpegBytes)
  /-- An image that was received earlier and is still owned by
  this process. -/
  | ownedImage {key : Key32 UInt8} {nonce : UInt64} {ciphertext payload : List UInt8}
      (hLen : ciphertext.length ≤ kMaxFrameLen.toNat)
      (hOpen : aeadDecrypt na key nonce [] ciphertext = some (kMsgClipboardImage :: payload)) :
      Sends na kMsgClipboardImage payload

/-- A clipboard text whose frame is longer than the receiver accepts, but
whose length still fits the frame header. -/
def TooLong (msgType : UInt8) (payload : List UInt8) : Prop :=
  msgType = kMsgClipboardText ∧ kMaxFrameLen.toNat < payload.length + 17 ∧ payload.length + 17 < 2 ^ 32

variable {na : Sodium UInt8} {key : Key32 UInt8} {msgType : UInt8} {payload : List UInt8}

/-- Short messages arrive. -/
theorem agrees_of_short (hNa : na.AeadContract) (hShort : payload.length + 17 ≤ kMaxFrameLen.toNat) :
    Agrees na key msgType payload := by
  intro past sender sent receiver wire later deadline hRun hWire hIncoming hNonce hIdle
  obtain ⟨-, hOut, hSent⟩ := send_true hRun
  obtain rfl := List.append_cancel_left (hWire.symm.trans hOut)
  obtain ⟨ctLen, ciphertext, hFrame, hValid, hLen, hOpen⟩ := frame_eq hNa hShort
  rw [hFrame, List.append_assoc] at hIncoming
  rw [← hNonce] at hOpen
  rw [hSent, ← hNonce]
  exact receive_ok hIdle hIncoming hValid hLen hOpen

/-- A message whose length cannot be announced is not sent completely. -/
theorem agrees_of_huge (hNa : na.AeadContract) (hHuge : 2 ^ 32 ≤ payload.length + 17) :
    Agrees na key msgType payload := by
  intro past sender sent receiver wire later deadline hRun
  have hFits := (send_true hRun).1
  rw [ciphertext_length hNa] at hFits
  omega

/-- Longer ones do not, as long as their length can be announced. -/
theorem not_agrees_of_long (hNa : na.AeadContract) (hLong : kMaxFrameLen.toNat < payload.length + 17)
    (hFits : payload.length + 17 < 2 ^ 32) : ¬ Agrees na key msgType payload := by
  intro hAgrees
  have hLen := ciphertext_length hNa key 0 msgType payload
  have hCtLen : (payload.length + 17).toUInt32.toNat = payload.length + 17 :=
    UInt32.toNat_ofNat_of_lt' hFits
  have hSends : Returns eager (fun b _ => b = true) (send na key msgType payload) {} :=
    send_returns (Nat.lt_of_le_of_lt (Nat.le_of_eq hLen) hFits)
  obtain ⟨past, sentAll, sent, hRun, rfl⟩ := hSends.exists_run fun _ _ _ _ hExec => hExec.1
  obtain ⟨-, hOut, -⟩ := send_true hRun
  have hFrame : be32 (payload.length + 17).toUInt32 ++ aeadEncrypt na key 0 [] (msgType :: payload) =
      frame na key 0 msgType payload := by
    rw [frame, hLen]
  have hOk := hAgrees past {} sent { incoming := frame na key 0 msgType payload } _ [] 0 hRun hOut
    (List.append_nil _).symm rfl rfl
  have hTooLong : (payload.length + 17).toUInt32 > kMaxFrameLen := by
    rw [GT.gt, UInt32.lt_iff_toNat_lt, hCtLen]
    exact hLong
  have hRefused : Returns intact (fun r _ => r = .error) (receive na key 0)
      { incoming := frame na key 0 msgType payload } := receive_tooLong rfl hFrame.symm hTooLong
  obtain ⟨_, _, _, hRan, rfl⟩ := hRefused.exists_run fun _ _ _ _ hExec => hExec
  cases (hOk.result hRan).1

theorem encodeMonitor_length (m : MonitorInfo) : (encodeMonitor m).length ≤ 50 := by
  simp only [encodeMonitor, kMaxNameLen, List.length_append, List.length_take, be32_length,
    List.length_cons, List.length_nil]
  omega

theorem encodeMonitorList_length (monitors : List MonitorInfo) :
    (encodeMonitorList monitors).length ≤ 1601 := by
  have hRecords : ∀ ms : List MonitorInfo, (ms.flatMap encodeMonitor).length ≤ 50 * ms.length := by
    intro ms
    induction ms with
    | nil => exact Nat.le_refl 0
    | cons m ms ih =>
        have hRecord := encodeMonitor_length m
        simp only [List.flatMap_cons, List.length_append, List.length_cons]
        omega
  have hAll := hRecords (monitors.take kMaxMonitors)
  simp only [encodeMonitorList, List.length_cons, List.length_take, kMaxMonitors] at hAll ⊢
  omega

/-- Only a clipboard text can be too long for a frame. -/
theorem Sends.short (hNa : na.AeadContract) (h : Sends na msgType payload)
    (hText : msgType ≠ kMsgClipboardText) : payload.length + 17 ≤ kMaxFrameLen.toNat := by
  rw [kMaxFrameLen_toNat]
  cases h with
  | monitorList monitors =>
      have hList := encodeMonitorList_length monitors
      omega
  | clipboardText => exact absurd rfl hText
  | clipboardImage write hImage =>
      have hImageLen := encodeJpeg_length write kJpegQuality kMaxJpegBytes
      have hMax : kMaxJpegBytes = 6291456 := rfl
      omega
  | ownedImage hLen hOpen =>
      have hOpened := hNa.decrypt_length _ _ _ _ _ hOpen
      rw [List.length_cons] at hOpened
      rw [kMaxFrameLen_toNat] at hLen
      omega
  | _ => exact Nat.le_of_ble_eq_true rfl

/-- Sender and receiver agree on a message unless it is a clipboard text that
is too long. -/
theorem sends_agrees_iff (hNa : na.AeadContract) (h : Sends na msgType payload) :
    Agrees na key msgType payload ↔ ¬ TooLong msgType payload := by
  constructor
  · rintro hAgrees ⟨-, hLong, hFits⟩
    exact not_agrees_of_long hNa hLong hFits hAgrees
  · intro hNot
    by_cases hText : msgType = kMsgClipboardText
    · by_cases hShort : payload.length + 17 ≤ kMaxFrameLen.toNat
      · exact agrees_of_short hNa hShort
      · refine agrees_of_huge hNa (Nat.not_lt.mp fun hFits => hNot ⟨hText, ?_, hFits⟩)
        exact Nat.not_le.mp hShort
    · exact agrees_of_short hNa (h.short hNa hText)

section Instance

def sessionKey : Key32 UInt8 := Bytes.fill 32 5

theorem sends_agrees_iff_key :
    Agrees plainSodium sessionKey kMsgKey (encodeKey 13 28 true false) ↔
      ¬ TooLong kMsgKey (encodeKey 13 28 true false) :=
  sends_agrees_iff plainSodium_contract.toAeadContract (.key 13 28 true false)

/-- One byte more than fits, of the letter a. -/
def longText : List UInt8 := List.replicate 8388592 97

theorem sends_longText : Sends plainSodium kMsgClipboardText longText ∧
    ¬ Agrees plainSodium sessionKey kMsgClipboardText longText := by
  refine ⟨.clipboardText _, not_agrees_of_long plainSodium_contract.toAeadContract ?_ ?_⟩
  · rw [longText, List.length_replicate]
    decide
  · rw [longText, List.length_replicate]
    decide

end Instance

end NoCapKVM.Discovery.FrameSize
