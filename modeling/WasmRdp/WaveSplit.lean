import WasmRdp.Rdpsnd

/-!
# Waves in one payload or in two

A server sends the two parts of a wave in one payload, or each in a payload of
its own. The client reads the first part itself and takes the bytes after it,
here or in the next payload, for the second part; the ordinary decoder, which
the client does not use for waves, reads both at once. All three come to the
same bytes (`wave_splitAgrees`).

The four bytes in front of the second part are padding, under which the first
four bytes of the sound are sent ahead in the first part. `EncodableWave` is a
wave for which that can be done. `Decodes` describes the decoders: in front of
the bytes, whatever follows, they take them and return the value.

On the client's side there are two lemmas. The first part, with anything after
it, leaves the client waiting and goes on with what is after it, if there is
anything (`handlePdu_infoPart`); and the second part, put behind the four
bytes, is the sound (`processWaveData_wavePart`). The two ways to cut differ
only in whether these happen in one call or in two (`handleAll_cons`), so that
they come to the same client and the same calls and messages, in any state in
which no wave is pending.
-/

namespace WasmRdp

open ByteReader Decode

/-! ## Encoding -/

def WaveInfoPdu.encode (pdu : WaveInfoPdu) : List UInt8 :=
  toLe 2 pdu.timestamp.toNat ++ (toLe 2 pdu.formatNo.toNat ++
    ([pdu.blockNo] ++ (List.replicate 3 0 ++ pdu.data)))

def SndWavePdu.encode (pdu : SndWavePdu) : List UInt8 := List.replicate 4 0 ++ pdu.data

/-- A wave that can be encoded: there are bytes for the first part, and the
body's length fits its field. -/
structure EncodableWave extends WavePdu where
  head : 4 ≤ data.length
  fits : 8 + data.length < 2 ^ 16

namespace EncodableWave

def bodySize (w : EncodableWave) : Nat := WaveInfoPdu.size - 4 + w.data.length

def info (w : EncodableWave) : WaveInfoPdu where
  timestamp := w.timestamp
  formatNo := w.formatNo
  blockNo := w.blockNo
  data := w.data.take 4

def rest (w : EncodableWave) : SndWavePdu where
  data := w.data.drop 4

/-- The first part, with the header. -/
def infoPart (w : EncodableWave) : List UInt8 :=
  [SNDC_WAVE] ++ (List.replicate 1 0 ++ (toLe 2 w.bodySize ++ w.info.encode))

def wavePart (w : EncodableWave) : List UInt8 := w.rest.encode

/-- `ServerAudioOutputPdu::encode` -/
def encode (w : EncodableWave) : List UInt8 := w.infoPart ++ w.wavePart

end EncodableWave

/-- Payloads that are handled one after another. -/
def Rdpsnd.handleAll (s : Rdpsnd) : List (List UInt8) → Handled
  | [] => ⟨s, [], .ok []⟩
  | payload :: payloads =>
      let handled := s.handlePdu payload
      let others := handled.client.handleAll payloads
      { client := others.client
        calls := handled.calls ++ others.calls
        reply := do return (← handled.reply) ++ (← others.reply) }

/-- A wave in one payload and in two, to a client that waits for none. -/
structure SplitAgrees (s : Rdpsnd) (w : EncodableWave) : Prop where
  decoded : ServerAudioOutputPdu.decode.run w.encode = .ok (.wave w.toWavePdu, [])
  split : s.handleAll [w.infoPart, w.wavePart] = s.handleAll [w.encode]
  calls : (s.handleAll [w.encode]).calls = match s.lookupFormat w.formatNo with
    | .ok format => [.wave format w.timestamp.toUInt32 w.data]
    | .error _ => []
  pending : (s.handleAll [w.encode]).client.pendingWaveInfo = none

/-! ## Decoding what was encoded -/

/-- In front of `bs`, the decoder takes them and returns `a`. -/
def Decodes {α : Type} (decode : Decode α) (bs : List UInt8) (a : α) : Prop :=
  ∀ rest, decode.run (bs ++ rest) = .ok (a, rest)

section
variable {α β : Type} {decode : Decode α} {f : α → Decode β} {bs bs' : List UInt8} {a : α} {b : β}

theorem Decodes.pure (a : α) : Decodes (pure a) [] a := fun _ => rfl

theorem Decodes.bind (h : Decodes decode bs a) (hf : Decodes (f a) bs' b) :
    Decodes (decode >>= f) (bs ++ bs') b := by
  intro rest
  rw [StateT.run_bind, List.append_assoc, h]
  exact hf rest

/-- The last read. -/
theorem Decodes.last (h : Decodes decode bs a) (hf : Decodes (f a) [] b) :
    Decodes (decode >>= f) bs b := by
  have hbind := h.bind hf
  rwa [List.append_nil] at hbind

theorem Decodes.ensureSize {n : Nat} {g : Unit → Decode β} (hn : n ≤ bs.length)
    (h : Decodes (g ()) bs b) : Decodes (ensureSize n >>= g) bs b := by
  intro rest
  have hfits : n ≤ (bs ++ rest).length := by
    rw [List.length_append]
    omega
  have hrun : (Decode.ensureSize n).run (bs ++ rest) = .ok ((), bs ++ rest) := if_pos hfits
  rw [StateT.run_bind, hrun]
  exact h rest

end

theorem decodes_readSlice {bs : List UInt8} {n : Nat} (h : bs.length = n) :
    Decodes (readSlice n) bs bs := by
  subst h
  intro rest
  change Except.ok _ = _
  rw [List.take_left, List.drop_left]

theorem decodes_readPadding {n : Nat} : Decodes (readPadding n) (List.replicate n 0) () :=
  (decodes_readSlice List.length_replicate).last (.pure ())

theorem decodes_readU8 (v : UInt8) : Decodes readU8 [v] v := by
  have hlength : [v].length = 1 := rfl
  have hread := (decodes_readSlice hlength).last (f := fun bs =>
    Pure.pure (UInt8.ofNat (fromLe bs))) (.pure _)
  have hv : UInt8.ofNat (fromLe [v]) = v := UInt8.ofNat_toNat
  rwa [hv] at hread

theorem decodes_readU16 {n : Nat} (h : n < 2 ^ 16) :
    Decodes readU16 (toLe 2 n) (UInt16.ofNat n) := by
  have hread := (decodes_readSlice (length_toLe 2 n)).last (f := fun bs =>
    Pure.pure (UInt16.ofNat (fromLe bs))) (.pure _)
  rwa [fromLe_toLe (k := 2) h] at hread

theorem decodes_toNat (v : UInt16) : Decodes readU16 (toLe 2 v.toNat) v := by
  have h := decodes_readU16 v.toNat_lt
  rwa [UInt16.ofNat_toNat] at h

theorem decodes_waveInfo {pdu : WaveInfoPdu} (h : pdu.data.length = 4) :
    Decodes WaveInfoPdu.decode pdu.encode pdu := by
  refine .ensureSize ?_ ?_
  · simp [WaveInfoPdu.encode, WaveInfoPdu.size, h]
  · exact (decodes_toNat _).bind ((decodes_toNat _).bind ((decodes_readU8 _).bind
      (decodes_readPadding.bind ((decodes_readSlice h).last (.pure _)))))

theorem decodes_sndWave (pdu : SndWavePdu) :
    Decodes (SndWavePdu.decode pdu.data.length) pdu.encode pdu := by
  refine .ensureSize ?_ (decodes_readPadding.bind (.ensureSize (Nat.le_refl _) ?_))
  · simp [SndWavePdu.encode]
  · exact (decodes_readSlice rfl).last (.pure _)

namespace EncodableWave

variable (w : EncodableWave)

theorem length_info : w.info.data.length = 4 := List.length_take_of_le w.head

theorem decodes_wave : Decodes (WavePdu.decode (UInt16.ofNat w.bodySize))
    (w.info.encode ++ w.wavePart) w.toWavePdu := by
  have hsize : (UInt16.ofNat w.bodySize).toNat = 8 + w.data.length :=
    Nat.mod_eq_of_lt w.fits
  refine (decodes_waveInfo w.length_info).bind ?_
  have hhead := w.head
  have hrest : 8 + w.data.length - WaveInfoPdu.size = w.rest.data.length := by
    rw [WaveInfoPdu.size, rest, List.length_drop]
    omega
  rw [hsize, if_neg (by rw [WaveInfoPdu.size]; omega), hrest]
  refine (decodes_sndWave w.rest).last ?_
  have hdata : w.info.data ++ w.rest.data = w.data := List.take_append_drop 4 _
  rw [hdata]
  exact .pure _

theorem encode_eq : w.encode =
    [SNDC_WAVE] ++ (List.replicate 1 0 ++ (toLe 2 w.bodySize ++
      (w.info.encode ++ w.wavePart))) := by
  simp only [encode, infoPart, List.append_assoc]

theorem decodes_encode : Decodes ServerAudioOutputPdu.decode w.encode (.wave w.toWavePdu) := by
  rw [encode_eq]
  refine .ensureSize ?_ ((decodes_readU8 _).bind (decodes_readPadding.bind
    ((decodes_readU16 w.fits).bind ?_)))
  · simp only [List.length_append, List.length_replicate, length_toLe, List.length_singleton]
    omega
  · rw [if_neg (by decide), if_neg (by decide), if_neg (by decide), if_pos rfl]
    exact w.decodes_wave.last (.pure _)

/-- The first part, with anything after it. -/
theorem handlePdu_infoPart {s : Rdpsnd} (hs : s.pendingWaveInfo = none) (rest : List UInt8) :
    s.handlePdu (w.infoPart ++ rest) =
      if 4 ≤ rest.length then s.processWaveData w.info rest
      else ⟨{ s with pendingWaveInfo := some w.info }, [], .ok []⟩ := by
  have hpart : w.infoPart ++ rest =
      SNDC_WAVE :: 0 :: (toLe 2 w.bodySize ++ (w.info.encode ++ rest)) := by
    simp only [infoPart, List.append_assoc]
    rfl
  have hwave : 4 ≤ (w.infoPart ++ rest).length ∧
      (w.infoPart ++ rest).head? = some SNDC_WAVE := by
    rw [hpart]
    simp only [List.length_cons, List.length_append, length_toLe]
    exact ⟨by omega, rfl⟩
  have hdrop : (w.infoPart ++ rest).drop 4 = w.info.encode ++ rest := by
    rw [hpart]
    rfl
  rw [Rdpsnd.handlePdu, hs]
  dsimp only
  rw [if_pos hwave, hdrop, decodes_waveInfo w.length_info rest]

theorem wavePart_length : 4 ≤ w.wavePart.length := by
  rw [wavePart, SndWavePdu.encode, List.length_append, List.length_replicate]
  exact Nat.le_add_right 4 _

/-- The bytes of both parts. -/
theorem processWaveData_wavePart (s : Rdpsnd) :
    s.processWaveData w.info w.wavePart = match s.lookupFormat w.formatNo with
      | .error e => ⟨s, [], .error e⟩
      | .ok format => ⟨s.logFirstWave, [.wave format w.timestamp.toUInt32 w.data],
          Rdpsnd.waveConfirm w.timestamp w.blockNo⟩ := by
  have hdata : w.info.data ++ w.wavePart.drop (min 4 w.wavePart.length) = w.data := by
    rw [Nat.min_eq_left w.wavePart_length]
    exact List.take_append_drop 4 _
  dsimp only [Rdpsnd.processWaveData]
  rw [hdata]
  rfl

end EncodableWave

namespace Rdpsnd

theorem handleAll_singleton (s : Rdpsnd) (payload : List UInt8) :
    s.handleAll [payload] = s.handlePdu payload := by
  rcases hhandled : s.handlePdu payload with ⟨client, calls, reply⟩
  rw [handleAll, handleAll, hhandled]
  cases reply with
  | error e => rw [List.append_nil]; rfl
  | ok msgs =>
      rw [List.append_nil]
      exact congrArg (Handled.mk client calls) (congrArg Except.ok (List.append_nil msgs))

/-- A payload without calls and messages of its own. -/
theorem handleAll_cons {s t : Rdpsnd} {payload : List UInt8}
    (h : s.handlePdu payload = ⟨t, [], .ok []⟩) (payloads : List (List UInt8)) :
    s.handleAll (payload :: payloads) = t.handleAll payloads := by
  rcases hothers : t.handleAll payloads with ⟨client, calls, reply⟩
  rw [handleAll, h]
  dsimp only
  rw [hothers, List.nil_append]
  cases reply <;> rfl

end Rdpsnd

/-- However a wave is split, it comes to the same. -/
theorem wave_splitAgrees {s : Rdpsnd} (hs : s.pendingWaveInfo = none) (w : EncodableWave) :
    SplitAgrees s w := by
  have hsame : { s with pendingWaveInfo := none } = s := by rw [← hs]
  have hone : s.handlePdu w.encode = s.processWaveData w.info w.wavePart := by
    rw [EncodableWave.encode, w.handlePdu_infoPart hs, if_pos w.wavePart_length]
  have hfirst : s.handlePdu w.infoPart =
      ⟨{ s with pendingWaveInfo := some w.info }, [], .ok []⟩ := by
    have h := w.handlePdu_infoPart hs []
    rwa [List.append_nil, if_neg (by decide)] at h
  have hsecond : ({ s with pendingWaveInfo := some w.info } : Rdpsnd).handlePdu w.wavePart =
      s.processWaveData w.info w.wavePart :=
    congrArg (·.processWaveData w.info w.wavePart) hsame
  refine ⟨?_, ?_, ?_, ?_⟩
  · have hdecoded := w.decodes_encode []
    rwa [List.append_nil] at hdecoded
  · rw [Rdpsnd.handleAll_cons hfirst, Rdpsnd.handleAll_singleton, Rdpsnd.handleAll_singleton,
      hsecond, hone]
  · rw [Rdpsnd.handleAll_singleton, hone, w.processWaveData_wavePart]
    cases s.lookupFormat w.formatNo <;> rfl
  · rw [Rdpsnd.handleAll_singleton, hone, w.processWaveData_wavePart]
    cases s.lookupFormat w.formatNo <;> exact hs

/-- A client that has come to two formats with the server. -/
def twoFormats : Rdpsnd :=
  { Rdpsnd.new ⟨0, [.OPUS, .PCM]⟩ with
    state := .ready
    negotiatedFormats :=
      [⟨.OPUS, 2, 48000, 12000, 4, 0, none⟩, ⟨.PCM, 2, 44100, 176400, 4, 16, none⟩] }

/-- Three frames of 16-bit stereo sound. -/
def threeFrames : EncodableWave where
  timestamp := 300
  formatNo := 1
  blockNo := 2
  data := [1, 0, 2, 0, 3, 0, 4, 0, 0xFF, 0xFF, 0, 0x80]
  head := by decide
  fits := by decide

theorem wave_splitAgrees_threeFrames :
    twoFormats.lookupFormat threeFrames.formatNo = .ok ⟨.PCM, 2, 44100, 176400, 4, 16, none⟩ ∧
      SplitAgrees twoFormats threeFrames :=
  ⟨rfl, wave_splitAgrees rfl threeFrames⟩

end WasmRdp
