import WasmRdp.RdpsndWire

/-!
# Audio PDUs read back

What the decoders make of what the encoders write. `DecodesAll` is `Decodes`
for a decoder that takes all the rest. `Takes` is its converse: what a decoder
returns is as long as the bytes that it took, and well formed. Together they
say that decoding is the inverse of encoding on the PDUs that decoding can
return, and on no others.

Encoding goes through `bytes`, the list of the bytes of a PDU. There are as
many as `size` announces (`length_bytes`), and the encoder writes exactly them
when the PDU is `Encodable`, and fails otherwise (`encode_eq_ok_iff`). The two
conditions are that the body fits the header's length and that a wave has its
first four bytes; the lengths within the body are no conditions of their own,
since they fit where the body does (`formats_fit`).

Completeness follows the decoders field by field (`decodesAll_bytes`). For
soundness, `Spends` counts: with `k` bytes left, what a decoder returns is
related to the number of bytes it took. The rules for it mirror those of
completeness, and `spends_decode` says of a whole message that its size is
what was taken and that it is `Canonical`. `wire_exact` and `decode_reencodes`
read the two directions off.
-/

namespace WasmRdp

open ByteReader ByteWriter Decode

/-! ## Completeness -/

section
variable {α β : Type} {decode : Decode α} {f : α → Decode β} {bs bs' : List UInt8} {a : α} {b : β}

/-- The decoder takes all the bytes and returns `a`. -/
def DecodesAll (decode : Decode α) (bs : List UInt8) (a : α) : Prop :=
  decode.run bs = .ok (a, [])

theorem Decodes.all (h : Decodes decode bs a) : DecodesAll decode bs a := by
  have hrun := h []
  rwa [List.append_nil] at hrun

/-- A step that takes nothing. -/
theorem Decodes.bind_pure (h : Decodes decode [] a) (hf : Decodes (f a) bs b) :
    Decodes (decode >>= f) bs b :=
  h.bind hf

theorem Decodes.map {g : α → β} (h : Decodes decode bs a) : Decodes (g <$> decode) bs (g a) := by
  rw [map_eq_pure_bind]
  exact h.last (.pure _)

/-- The first read of a decoder. -/
theorem DecodesAll.bind (h : Decodes decode bs a) (hf : DecodesAll (f a) bs' b) :
    DecodesAll (decode >>= f) (bs ++ bs') b := by
  rw [DecodesAll, StateT.run_bind, h bs']
  exact hf

/-- The last read. -/
theorem DecodesAll.last (h : DecodesAll decode bs a) (hf : f a = Pure.pure b) :
    DecodesAll (decode >>= f) bs b := by
  rw [DecodesAll] at h ⊢
  rw [StateT.run_bind, h]
  change (f a).run [] = _
  rw [hf]
  rfl

theorem DecodesAll.ensureSize {n : Nat} {g : Unit → Decode β} (hn : n ≤ bs.length)
    (h : DecodesAll (g ()) bs b) : DecodesAll (ensureSize n >>= g) bs b := by
  have hrun : (Decode.ensureSize n).run bs = .ok ((), bs) := if_pos hn
  rw [DecodesAll, StateT.run_bind, hrun]
  exact h

/-- The same decoder once for each element of a list. -/
theorem Decodes.times {enc : α → List UInt8} {as : List α}
    (h : ∀ a ∈ as, Decodes decode (enc a) a) :
    Decodes (times as.length decode) (as.flatMap enc) as := by
  induction as with
  | nil => exact .pure []
  | cons a as ih =>
      have hrest := ih fun a' ha' => h a' (List.mem_cons_of_mem _ ha')
      rw [List.flatMap_cons]
      exact (h a (List.mem_cons_self ..)).bind (hrest.last (.pure _))

end

theorem decodesAll_readRemaining (bs : List UInt8) : DecodesAll readRemaining bs bs := rfl

theorem decodes_readU32 (v : UInt32) : Decodes readU32 (toLe 4 v.toNat) v := by
  have hread := (decodes_readSlice (length_toLe 4 v.toNat)).last (f := fun bs =>
    Pure.pure (UInt32.ofNat (fromLe bs))) (.pure _)
  rwa [fromLe_toLe (k := 4) v.toNat_lt, UInt32.ofNat_toNat] at hread

theorem decodes_readU16Be (v : UInt16) : Decodes readU16Be (toLe 2 v.toNat).reverse v := by
  have hlen : (toLe 2 v.toNat).reverse.length = 2 := by
    rw [List.length_reverse, length_toLe]
  have hread := (decodes_readSlice hlen).last (f := fun bs =>
    Pure.pure (UInt16.ofNat (fromLe bs.reverse))) (.pure _)
  rwa [List.reverse_reverse, fromLe_toLe (k := 2) v.toNat_lt, UInt16.ofNat_toNat] at hread

theorem toNat_volumeWord (left right : UInt16) :
    (volumeWord left right).toNat = left.toNat + 256 ^ 2 * right.toNat := by
  have hl := left.toNat_lt
  have hr := right.toNat_lt
  have hor := Nat.shiftLeft_add_eq_or_of_lt (i := 16) hl right.toNat
  rw [volumeWord, UInt32.toNat_or, UInt32.toNat_shiftLeft, UInt16.toNat_toUInt32,
    UInt16.toNat_toUInt32]
  change (right.toNat <<< 16) % 2 ^ 32 ||| left.toNat = _
  rw [Nat.mod_eq_of_lt (by rw [Nat.shiftLeft_eq]; omega), ← hor, Nat.shiftLeft_eq]
  omega

/-- The two volumes are the halves of the word. -/
theorem toLe_volumeWord (left right : UInt16) :
    toLe 4 (volumeWord left right).toNat = toLe 2 left.toNat ++ toLe 2 right.toNat := by
  rw [toNat_volumeWord]
  exact toLe_append (k := 2) (l := 2) left.toNat_lt

theorem decodes_audioVersion (version : AudioVersion) :
    Decodes (AudioVersion.tryFrom version.toU16) [] version := by
  cases version <;> exact .pure _

/-! ## The bytes of a PDU -/

/-- The codec data is absent or not empty, as decoding leaves it. -/
def AudioFormat.Canonical (f : AudioFormat) : Prop := f.data ≠ some []

def AudioFormat.bytes (f : AudioFormat) : List UInt8 :=
  toLe 2 f.format.tag.toNat ++ (toLe 2 f.nChannels.toNat ++ (toLe 4 f.nSamplesPerSec.toNat ++
    (toLe 4 f.nAvgBytesPerSec.toNat ++ (toLe 2 f.nBlockAlign.toNat ++
      (toLe 2 f.bitsPerSample.toNat ++ (toLe 2 (UInt16.ofNat f.cbSize).toNat ++
        f.data.getD []))))))

theorem AudioFormat.length_data (f : AudioFormat) : (f.data.getD []).length = f.cbSize := by
  rcases f with ⟨_, _, _, _, _, _, _ | data⟩ <;> rfl

@[simp] theorem AudioFormat.length_bytes (f : AudioFormat) : f.bytes.length = f.size := by
  simp only [bytes, List.length_append, length_toLe, length_data, size]
  omega

theorem length_flatMap_bytes (formats : List AudioFormat) :
    (formats.flatMap AudioFormat.bytes).length = (formats.map AudioFormat.size).sum := by
  simp only [List.length_flatMap, AudioFormat.length_bytes]

theorem toNat_ofNat_of_le {n : Nat} (h : n ≤ 65535) : (UInt16.ofNat n).toNat = n :=
  Nat.mod_eq_of_lt (by omega)

theorem writes_padding (n : Nat) : Writes (writePadding · n) (List.replicate n 0) :=
  writes_write _

theorem writes_audioFormat {f : AudioFormat} (h : f.cbSize ≤ 65535) :
    Writes (AudioFormat.encodeTo · f) f.bytes := by
  refine .ensureSize (by rw [f.length_bytes]) ?_
  refine (writes_u16 _).bind ((writes_u16 _).bind ((writes_u32 _).bind ((writes_u32 _).bind
    ((writes_u16 _).bind ((writes_u16 _).bind (.castLength h ((writes_u16 _).bind ?_)))))))
  cases hdata : f.data with
  | some data => exact writes_write data
  | none => exact Writes.nil

theorem decodes_audioFormat {f : AudioFormat} (h : f.cbSize ≤ 65535) (hc : f.Canonical) :
    Decodes AudioFormat.decode f.bytes f := by
  have hcb := toNat_ofNat_of_le h
  refine .ensureSize ?_ ((decodes_toNat _).bind ((decodes_toNat _).bind
    ((decodes_readU32 _).bind ((decodes_readU32 _).bind ((decodes_toNat _).bind
      ((decodes_toNat _).bind ((decodes_toNat _).bind (.ensureSize ?_ ?_))))))))
  · rw [f.length_bytes, AudioFormat.size]
    omega
  · rw [hcb, f.length_data]
  · obtain ⟨format, nChannels, nSamplesPerSec, nAvg, nBlockAlign, bitsPerSample, data⟩ := f
    cases data with
    | none => exact .pure _
    | some data =>
        have hlen : (UInt16.ofNat data.length).toNat = data.length := hcb
        have hpos : 0 < UInt16.ofNat data.length := by
          rw [UInt16.lt_iff_toNat_lt, hlen]
          exact List.length_pos_iff.mpr fun hnil => hc (congrArg some hnil)
        change Decodes (if 0 < UInt16.ofNat data.length then _ else _) data _
        rw [if_pos hpos]
        exact (decodes_readSlice hlen.symm).map.last (.pure _)

/-! ## The PDUs of the server -/

namespace ServerAudioOutputPdu

/-- Arrays are as long as their types say. -/
def Sized : ServerAudioOutputPdu → Prop
  | cryptKey pdu => pdu.seed.length = 32
  | waveEncrypt pdu => ∀ sig ∈ pdu.signature, sig.length = 8
  | _ => True

/-- What decoding can return: codec data that is not empty, and encrypted
waves that are signed. -/
def Canonical : ServerAudioOutputPdu → Prop
  | audioFormat pdu => ∀ f ∈ pdu.formats, f.Canonical
  | waveEncrypt pdu => pdu.signature ≠ none
  | _ => True

/-- The body fits its length, and there are bytes for the first part of a
wave. -/
def Encodable (pdu : ServerAudioOutputPdu) : Prop :=
  pdu.bodySize ≤ 65535 ∧ ∀ w, pdu = wave w → 4 ≤ w.data.length

def bodyBytes : ServerAudioOutputPdu → List UInt8
  | audioFormat pdu => List.replicate 4 0 ++ (List.replicate 4 0 ++ (List.replicate 4 0 ++
      (List.replicate 2 0 ++ (toLe 2 (UInt16.ofNat pdu.formats.length).toNat ++
        (List.replicate 1 0 ++ (toLe 2 pdu.version.toU16.toNat ++
          (List.replicate 1 0 ++ pdu.formats.flatMap AudioFormat.bytes)))))))
  | cryptKey pdu => List.replicate 4 0 ++ pdu.seed
  | training pdu => toLe 2 pdu.timestamp.toNat ++ (toLe 2 pdu.packSize.toNat ++ pdu.data)
  | wave pdu => pdu.info.encode ++ pdu.wave.encode
  | waveEncrypt pdu => toLe 2 pdu.timestamp.toNat ++ (toLe 2 pdu.formatNo.toNat ++
      ([pdu.blockNo] ++ (List.replicate 3 0 ++ (pdu.signature.getD [] ++ pdu.data))))
  | close => []
  | wave2 pdu => toLe 2 pdu.timestamp.toNat ++ (toLe 2 pdu.formatNo.toNat ++
      ([pdu.blockNo] ++ (List.replicate 3 0 ++ (toLe 4 pdu.audioTimestamp.toNat ++ pdu.data))))
  | volume pdu => toLe 2 pdu.volumeLeft.toNat ++ toLe 2 pdu.volumeRight.toNat
  | pitch pdu => toLe 4 pdu.pitch.toNat

def bytes (pdu : ServerAudioOutputPdu) : List UInt8 :=
  [pdu.msgType] ++ (List.replicate 1 0 ++ (toLe 2 (UInt16.ofNat pdu.bodySize).toNat ++
    pdu.bodyBytes))

variable {pdu : ServerAudioOutputPdu}

/-- The sizes of the parts of a list of formats that fits. -/
theorem formats_fit {formats : List AudioFormat} {n : Nat}
    (h : 20 + (formats.map AudioFormat.size).sum ≤ n) :
    formats.length ≤ n ∧ ∀ f ∈ formats, f.cbSize ≤ n := by
  induction formats generalizing n with
  | nil => exact ⟨Nat.zero_le _, fun _ hf => (nomatch hf)⟩
  | cons f formats ih =>
      rw [List.map_cons, List.sum_cons, AudioFormat.size] at h
      obtain ⟨hlen, hall⟩ := ih (n := n - 18 - f.cbSize) (by omega)
      refine ⟨by rw [List.length_cons]; omega, fun g hg => ?_⟩
      rcases List.mem_cons.mp hg with rfl | hg
      · omega
      · have := hall g hg
        omega

theorem length_bodyBytes (h : pdu.Sized) (hw : ∀ w, pdu = wave w → 4 ≤ w.data.length) :
    pdu.bodyBytes.length = pdu.pduSize := by
  cases pdu with
  | audioFormat pdu =>
      simp only [bodyBytes, pduSize, ServerAudioFormatPdu.size, List.length_append,
        List.length_replicate, length_toLe, length_flatMap_bytes]
      omega
  | cryptKey pdu =>
      have hseed : pdu.seed.length = 32 := h
      simp only [bodyBytes, pduSize, CryptKeyPdu.size, List.length_append,
        List.length_replicate, hseed]
  | waveEncrypt pdu =>
      rcases pdu with ⟨_, _, _, _ | sig, _⟩
      · simp only [bodyBytes, pduSize, WaveEncryptPdu.size, List.length_append,
          List.length_replicate, length_toLe, List.length_singleton, Option.getD, Option.elim,
          List.length_nil]
        omega
      · have hsig : sig.length = 8 := h sig rfl
        simp only [bodyBytes, pduSize, WaveEncryptPdu.size, List.length_append,
          List.length_replicate, length_toLe, List.length_singleton, Option.getD, Option.elim,
          hsig]
        omega
  | wave w =>
      have hdata := hw w rfl
      simp only [bodyBytes, pduSize, WavePdu.size, WaveInfoPdu.size, WaveInfoPdu.encode,
        SndWavePdu.encode, WavePdu.info, WavePdu.wave, List.length_append, length_toLe,
        List.length_replicate, List.length_singleton, List.length_take, List.length_drop]
      omega
  | training pdu | wave2 pdu =>
      simp only [bodyBytes, pduSize, TrainingPdu.size, Wave2Pdu.size, List.length_append,
        length_toLe, List.length_replicate, List.length_singleton]
      omega
  | volume pdu | pitch pdu | close => rfl

theorem length_bytes (h : pdu.Sized) (hw : ∀ w, pdu = wave w → 4 ≤ w.data.length) :
    pdu.bytes.length = pdu.size := by
  rw [bytes, List.length_append, List.length_append, List.length_append, length_toLe,
    length_bodyBytes h hw, size]
  simp only [List.length_singleton, List.length_replicate]
  omega

/-! ### Encoding -/

theorem writes_formats {formats : List AudioFormat} (h : ∀ f ∈ formats, f.cbSize ≤ 65535) :
    Writes (formats.foldlM AudioFormat.encodeTo ·) (formats.flatMap AudioFormat.bytes) :=
  .foldlM_of_mem fun f hf => writes_audioFormat (h f hf)

theorem writes_waveInfo {pdu : WaveInfoPdu} (h : pdu.data.length = 4) :
    Writes (WaveInfoPdu.encodeTo · pdu) pdu.encode := by
  refine .ensureSize ?_ ((writes_u16 _).bind ((writes_u16 _).bind ((writes_u8 _).bind
    ((writes_padding 3).bind (writes_write _)))))
  simp [WaveInfoPdu.size, WaveInfoPdu.encode, h]

theorem writes_sndWave (pdu : SndWavePdu) : Writes (SndWavePdu.encodeTo · pdu) pdu.encode := by
  refine .ensureSize ?_ ((writes_padding 4).bind (writes_write _))
  simp only [SndWavePdu.size, SndWavePdu.encode, List.length_append, List.length_replicate]
  exact Nat.le_refl _

theorem writes_wave {pdu : WavePdu} (h : 4 ≤ pdu.data.length) :
    Writes (WavePdu.encodeTo · pdu) (pdu.info.encode ++ pdu.wave.encode) := by
  have hinfo : pdu.info.data.length = 4 := List.length_take_of_le h
  have hwrites := (writes_waveInfo hinfo).bind (writes_sndWave pdu.wave)
  intro c hroom
  dsimp only
  rw [WavePdu.encodeTo, if_neg (by omega)]
  exact hwrites c hroom

theorem writes_waveEncrypt {pdu : WaveEncryptPdu} (h : ∀ sig ∈ pdu.signature, sig.length = 8) :
    Writes (WaveEncryptPdu.encodeTo · pdu) (waveEncrypt pdu).bodyBytes := by
  have hlen : (waveEncrypt pdu).bodyBytes.length = (waveEncrypt pdu).pduSize :=
    length_bodyBytes h nofun
  refine .ensureSize (Nat.le_of_eq hlen.symm) ((writes_u16 _).bind ((writes_u16 _).bind
    ((writes_u8 _).bind ((writes_padding 3).bind ?_))))
  cases pdu.signature with
  | some sig => exact (writes_write sig).bind (writes_write _)
  | none => exact writes_write _

theorem writes_bodyBytes (hs : pdu.Sized) (h : pdu.Encodable) :
    Writes (encodeBody · pdu) pdu.bodyBytes := by
  have hroom := Nat.le_of_eq (length_bodyBytes hs h.2).symm
  cases pdu with
  | audioFormat pdu =>
      obtain ⟨hlen, hall⟩ := formats_fit (n := 65535) h.1
      exact .ensureSize hroom ((writes_padding 4).bind ((writes_padding 4).bind
        ((writes_padding 4).bind ((writes_padding 2).bind (.castLength hlen ((writes_u16 _).bind
          ((writes_padding 1).bind ((writes_u16 _).bind ((writes_padding 1).bind
            (writes_formats hall))))))))))
  | cryptKey pdu => exact .ensureSize hroom ((writes_padding 4).bind (writes_write _))
  | training pdu =>
      exact .ensureSize hroom ((writes_u16 _).bind ((writes_u16 _).bind (writes_write _)))
  | wave w => exact writes_wave (h.2 w rfl)
  | waveEncrypt pdu => exact writes_waveEncrypt hs
  | close => exact Writes.nil
  | wave2 pdu =>
      exact .ensureSize hroom ((writes_u16 _).bind ((writes_u16 _).bind ((writes_u8 _).bind
        ((writes_padding 3).bind ((writes_u32 _).bind (writes_write _))))))
  | volume pdu =>
      rw [bodyBytes, ← toLe_volumeWord] at hroom ⊢
      exact .ensureSize hroom (writes_u32 _)
  | pitch pdu => exact .ensureSize hroom (writes_u32 _)

theorem writes_bytes (hs : pdu.Sized) (h : pdu.Encodable) :
    Writes (encodeTo · pdu) pdu.bytes := by
  refine .ensureSize ?_ ((writes_u8 _).bind ((writes_padding 1).bind (.castLength h.1
    ((writes_u16 _).bind (writes_bodyBytes hs h)))))
  rw [length_bytes hs h.2, size]
  exact Nat.le_add_right ..

theorem encode_eq_ok (hs : pdu.Sized) (h : pdu.Encodable) : pdu.encode = .ok pdu.bytes :=
  (writes_bytes hs h).encodeVec (length_bytes hs h.2)

theorem encodable_of_encodeTo {dst dst' : WriteCursor} (h : encodeTo dst pdu = .ok dst') :
    pdu.Encodable := by
  obtain ⟨_, -, h⟩ := of_bind_eq_ok h
  obtain ⟨_, -, h⟩ := of_bind_eq_ok h
  obtain ⟨_, -, h⟩ := of_bind_eq_ok h
  obtain ⟨_, hcast, h⟩ := of_bind_eq_ok h
  obtain ⟨c, -, h⟩ := of_bind_eq_ok h
  refine ⟨le_of_castLength hcast, fun w hw => Nat.not_lt.mp fun hshort => ?_⟩
  rw [hw, encodeBody, WavePdu.encodeTo, if_pos hshort] at h
  cases h

theorem encode_eq_ok_iff (hs : pdu.Sized) {bs : List UInt8} :
    pdu.encode = .ok bs ↔ pdu.Encodable ∧ bs = pdu.bytes := by
  constructor
  · intro h
    obtain ⟨dst, hdst, -⟩ := of_bind_eq_ok h
    have hencodable := encodable_of_encodeTo hdst
    rw [encode_eq_ok hs hencodable] at h
    exact ⟨hencodable, (Except.ok.inj h).symm⟩
  · rintro ⟨h, rfl⟩
    exact encode_eq_ok hs h

/-! ### Decoding -/

theorem decodes_formats {pdu : ServerAudioFormatPdu} (h : pdu.size ≤ 65535)
    (hc : ∀ f ∈ pdu.formats, f.Canonical) :
    Decodes ServerAudioFormatPdu.decode (audioFormat pdu).bodyBytes pdu := by
  obtain ⟨hlen, hall⟩ := formats_fit (n := 65535) h
  have hroom : (audioFormat pdu).bodyBytes.length = (audioFormat pdu).pduSize :=
    length_bodyBytes trivial nofun
  have htimes := Decodes.times fun f hf => decodes_audioFormat (hall f hf) (hc f hf)
  rw [← toNat_ofNat_of_le hlen] at htimes
  refine .ensureSize ?_ (decodes_readPadding.bind (decodes_readPadding.bind
    (decodes_readPadding.bind (decodes_readPadding.bind ((decodes_toNat _).bind
      (decodes_readPadding.bind ((decodes_toNat _).bind ((decodes_audioVersion _).bind_pure
        (decodes_readPadding.bind (htimes.last (.pure _)))))))))))
  rw [hroom, pduSize, ServerAudioFormatPdu.size]
  exact Nat.le_add_right ..

theorem decodes_wave {w : WavePdu} (hw : 4 ≤ w.data.length) (h : w.bodySize ≤ 65535) :
    Decodes (WavePdu.decode (UInt16.ofNat w.bodySize)) (wave w).bodyBytes w := by
  have hfits : 8 + w.data.length < 2 ^ 16 := by
    rw [WavePdu.bodySize, WaveInfoPdu.size] at h
    omega
  exact (EncodableWave.mk w hw hfits).decodes_wave

theorem decodesAll_waveEncrypt {pdu : WaveEncryptPdu} (hs : ∀ sig ∈ pdu.signature, sig.length = 8)
    (hc : pdu.signature ≠ none) :
    DecodesAll (WaveEncryptPdu.decode .v5) (waveEncrypt pdu).bodyBytes pdu := by
  obtain ⟨timestamp, formatNo, blockNo, _ | sig, data⟩ := pdu
  · exact absurd rfl hc
  have hsig : sig.length = 8 := hs sig rfl
  refine .ensureSize ?_ (.bind (decodes_toNat _) (.bind (decodes_toNat _)
    (.bind (decodes_readU8 _) (.bind decodes_readPadding ?_))))
  · have hroom := @length_bodyBytes (waveEncrypt ⟨timestamp, formatNo, blockNo, some sig, data⟩)
      hs nofun
    rw [hroom, pduSize, WaveEncryptPdu.size]
    omega
  · refine .ensureSize ?_
      (.bind (decodes_readSlice hsig).map ((decodesAll_readRemaining _).last rfl))
    change 8 ≤ (sig ++ data).length
    rw [List.length_append]
    omega

theorem decodesAll_bytes (hs : pdu.Sized) (hc : pdu.Canonical) (h : pdu.Encodable) :
    DecodesAll decode pdu.bytes pdu := by
  have hlen := length_bytes hs h.2
  have hroom := Nat.le_of_eq (length_bodyBytes hs h.2).symm
  refine .ensureSize (by rw [hlen, size]; omega) (.bind (decodes_readU8 _)
    (.bind decodes_readPadding (.bind (decodes_toNat _) ?_)))
  cases pdu with
  | audioFormat pdu => exact (decodes_formats h.1 hc).all.last rfl
  | cryptKey pdu =>
      have hpdu : Decodes CryptKeyPdu.decode (cryptKey pdu).bodyBytes pdu :=
        .ensureSize hroom (decodes_readPadding.bind ((decodes_readSlice hs).last (.pure _)))
      exact hpdu.all.last rfl
  | training pdu =>
      have hpdu : DecodesAll TrainingPdu.decode (training pdu).bodyBytes pdu :=
        .ensureSize (Nat.le_of_add_right_le hroom) (.bind (decodes_toNat _)
          (.bind (decodes_toNat _) ((decodesAll_readRemaining _).last rfl)))
      exact hpdu.last rfl
  | wave w => exact (decodes_wave (h.2 w rfl) h.1).all.last rfl
  | waveEncrypt pdu => exact (decodesAll_waveEncrypt hs hc).last rfl
  | close => rfl
  | wave2 pdu =>
      have hpdu : DecodesAll Wave2Pdu.decode (wave2 pdu).bodyBytes pdu :=
        .ensureSize (Nat.le_of_add_right_le hroom) (.bind (decodes_toNat _)
          (.bind (decodes_toNat _) (.bind (decodes_readU8 _) (.bind decodes_readPadding
            (.bind (decodes_readU32 _) ((decodesAll_readRemaining _).last rfl))))))
      exact hpdu.last rfl
  | volume pdu =>
      have hpdu : Decodes VolumePdu.decode (volume pdu).bodyBytes pdu :=
        .ensureSize hroom ((decodes_toNat _).bind ((decodes_toNat _).last (.pure _)))
      exact hpdu.all.last rfl
  | pitch pdu =>
      have hpdu : Decodes PitchPdu.decode (pitch pdu).bodyBytes pdu :=
        .ensureSize hroom ((decodes_readU32 _).last (.pure _))
      exact hpdu.all.last rfl

end ServerAudioOutputPdu

/-! ## Soundness -/

section
variable {α β : Type} {decode : Decode α} {f : α → Decode β} {k n : Nat} {P : α → Prop}
  {Q : Nat → α → Prop} {R : Nat → β → Prop}

/-- With `k` bytes left, what the decoder returns is related to the number of
bytes that it took. -/
def Spends (k : Nat) (decode : Decode α) (Q : Nat → α → Prop) : Prop :=
  ∀ s a s', k ≤ s.length → decode.run s = .ok (a, s') →
    ∃ n, s.length = n + s'.length ∧ Q n a

theorem Spends.pure {a : α} (h : Q 0 a) : Spends k (pure a) Q := by
  rintro s _ _ _ ⟨⟩
  exact ⟨0, (Nat.zero_add _).symm, h⟩

theorem Spends.fail {field reason : String} : Spends k (invalidField field reason) Q := by
  rintro s a s' _ ⟨⟩

theorem Spends.imp {Q' : Nat → α → Prop} (h : Spends k decode Q) (himp : ∀ n a, Q n a → Q' n a) :
    Spends k decode Q' := by
  intro s a s' hk hrun
  obtain ⟨n, hn, hq⟩ := h s a s' hk hrun
  exact ⟨n, hn, himp n a hq⟩

theorem Spends.bind (h : Spends k decode Q)
    (hf : ∀ n a, Q n a → Spends (k - n) (f a) fun j b => R (n + j) b) :
    Spends k (decode >>= f) R := by
  intro s b s' hk hrun
  rw [StateT.run_bind] at hrun
  cases hdecode : decode.run s with
  | error e =>
      rw [hdecode] at hrun
      cases hrun
  | ok r =>
      rw [hdecode] at hrun
      obtain ⟨n, hn, hq⟩ := h s r.1 r.2 hk hdecode
      obtain ⟨j, hj, hr⟩ := hf n r.1 hq r.2 b s' (by omega) hrun
      exact ⟨n + j, by omega, hr⟩

/-- A read of `n` of the bytes that are left. -/
theorem Spends.read (h : Spends n decode fun j a => j = n ∧ P a) (hn : n ≤ k)
    (hf : ∀ a, P a → Spends (k - n) (f a) fun j b => R (n + j) b) :
    Spends k (decode >>= f) R := by
  refine .bind (fun s a s' hk hrun => h s a s' (hn.trans hk) hrun) ?_
  rintro _ a ⟨rfl, ha⟩
  exact hf a ha

theorem Spends.ensureSize {g : Unit → Decode β} (h : Spends (max k n) (g ()) R) :
    Spends k (Decode.ensureSize n >>= g) R := by
  intro s b s' hk hrun
  have hcheck : (Decode.ensureSize n).run s = if n ≤ s.length then .ok ((), s)
      else .error (.notEnoughBytes s.length n) := rfl
  rw [StateT.run_bind, hcheck] at hrun
  by_cases hn : n ≤ s.length
  · rw [if_pos hn] at hrun
    exact h s b s' (by omega) hrun
  · rw [if_neg hn] at hrun
    cases hrun

/-- The same decoder `m` times, where what it takes is the size of what it
returns. -/
theorem Spends.times {size : α → Nat} (h : Spends 0 decode fun n a => n = size a ∧ P a) (m : Nat) :
    Spends 0 (times m decode) fun n as =>
      n = (as.map size).sum ∧ as.length = m ∧ ∀ a ∈ as, P a := by
  induction m with
  | zero => exact .pure ⟨rfl, rfl, fun _ ha => (nomatch ha)⟩
  | succ m ih =>
      refine .bind h fun n a ⟨hn, ha⟩ => ?_
      rw [Nat.zero_sub]
      refine .bind ih fun j as ⟨hj, hlen, has⟩ => .pure ⟨?_, by rw [List.length_cons, hlen], ?_⟩
      · rw [List.map_cons, List.sum_cons, hn, hj, Nat.add_zero]
      · intro a' ha'
        rcases List.mem_cons.mp ha' with rfl | ha'
        · exact ha
        · exact has a' ha'

end

theorem spends_readSlice (n : Nat) :
    Spends n (readSlice n) fun j bs => j = n ∧ bs.length = n := by
  rintro s _ _ hn ⟨⟩
  refine ⟨n, ?_, rfl, List.length_take_of_le hn⟩
  rw [List.length_drop]
  omega

/-- Any read that computes with a slice. -/
theorem spends_slice {α : Type} {n : Nat} (g : List UInt8 → α) :
    Spends n (readSlice n >>= fun bs => pure (g bs)) fun j _ => j = n ∧ True :=
  .read (spends_readSlice n) (Nat.le_refl n) fun _ _ => .pure ⟨rfl, trivial⟩

theorem spends_readU8 : Spends 1 readU8 fun j _ => j = 1 ∧ True := spends_slice _

theorem spends_readU16 : Spends 2 readU16 fun j _ => j = 2 ∧ True := spends_slice _

theorem spends_readU16Be : Spends 2 readU16Be fun j _ => j = 2 ∧ True := spends_slice _

theorem spends_readU32 : Spends 4 readU32 fun j _ => j = 4 ∧ True := spends_slice _

theorem spends_readPadding (n : Nat) : Spends n (readPadding n) fun j _ => j = n ∧ True :=
  spends_slice _

theorem spends_readRemaining {k : Nat} :
    Spends k readRemaining fun j bs => j = bs.length := by
  rintro s _ _ _ ⟨⟩
  exact ⟨s.length, rfl, rfl⟩

theorem spends_audioVersion (value : UInt16) {k : Nat} :
    Spends k (AudioVersion.tryFrom value) fun j _ => j = 0 := by
  unfold AudioVersion.tryFrom
  split
  · exact .pure rfl
  split
  · exact .pure rfl
  split
  · exact .pure rfl
  split
  · exact .pure rfl
  exact .fail

/-- An optional array. -/
theorem spends_someSlice (n : Nat) : Spends n (some <$> readSlice n) fun j data =>
    j = n ∧ ∃ bs, data = some bs ∧ bs.length = n := by
  rw [map_eq_pure_bind]
  exact .read (spends_readSlice n) (Nat.le_refl n) fun bs hbs => .pure ⟨rfl, bs, rfl, hbs⟩

theorem spends_audioFormat : Spends 0 AudioFormat.decode fun n f => n = f.size ∧ f.Canonical := by
  refine .ensureSize (.read spends_readU16 (by decide) fun format _ =>
    .read spends_readU16 (by decide)
    fun nChannels _ => .read spends_readU32 (by decide) fun nSamplesPerSec _ =>
    .read spends_readU32 (by decide) fun nAvgBytesPerSec _ => .read spends_readU16 (by decide)
    fun nBlockAlign _ => .read spends_readU16 (by decide) fun bitsPerSample _ =>
    .read spends_readU16 (by decide) fun cbSize _ => .ensureSize ?_)
  split
  · rename_i hpos
    refine .read (spends_someSlice cbSize.toNat) (Nat.le_max_right ..) ?_
    rintro _ ⟨bs, rfl, hbs⟩
    refine .pure ⟨?_, fun hnil => ?_⟩
    · simp only [AudioFormat.size, AudioFormat.cbSize, Option.elim, hbs]
      omega
    · obtain rfl : bs = [] := Option.some.inj hnil
      rw [UInt16.lt_iff_toNat_lt, ← hbs] at hpos
      exact absurd hpos (Nat.lt_irrefl 0)
  · refine .pure ⟨?_, nofun⟩
    simp only [AudioFormat.size, AudioFormat.cbSize, Option.elim]

namespace ServerAudioOutputPdu

/-- What a decoder that has taken `n` bytes returns. -/
def Sound (n : Nat) (pdu : ServerAudioOutputPdu) : Prop :=
  n = pdu.pduSize ∧ pdu.Sized ∧ pdu.Canonical ∧ ∀ w, pdu = wave w → pdu.Encodable

theorem spends_formats : Spends 0 ServerAudioFormatPdu.decode fun n pdu =>
    Sound n (audioFormat pdu) := by
  refine .ensureSize (.read (spends_readPadding 4) (by decide) fun _ _ =>
    .read (spends_readPadding 4) (by decide) fun _ _ => .read (spends_readPadding 4) (by decide)
    fun _ _ => .read (spends_readPadding 2) (by decide) fun _ _ =>
    .read spends_readU16 (by decide) fun nFormats _ => .read (spends_readPadding 1) (by decide)
    fun _ _ => .read spends_readU16 (by decide) fun value _ =>
    .bind (spends_audioVersion value) ?_)
  rintro _ version rfl
  refine .read (spends_readPadding 1) (by decide) fun _ _ =>
    .bind (spends_audioFormat.times nFormats.toNat) ?_
  rintro n formats ⟨hn, -, hall⟩
  refine .pure ⟨?_, trivial, hall, nofun⟩
  simp only [pduSize, ServerAudioFormatPdu.size, hn]
  omega

theorem spends_wave (announced : UInt16) : Spends 0 (WavePdu.decode announced) fun n w =>
    Sound n (wave w) := by
  have hinfo : Spends 0 WaveInfoPdu.decode fun n info => n = 12 ∧ info.data.length = 4 := by
    refine .ensureSize (.read spends_readU16 (by decide) fun _ _ =>
      .read spends_readU16 (by decide) fun _ _ => .read spends_readU8 (by decide) fun _ _ =>
      .read (spends_readPadding 3) (by decide) fun _ _ =>
      .read (spends_readSlice 4) (by decide) fun data hdata => .pure ⟨rfl, hdata⟩)
  have hwave : ∀ n, Spends 0 (SndWavePdu.decode n) fun j wave => j = 4 + n ∧ wave.data.length = n :=
    fun n => .ensureSize (.read (spends_readPadding 4) (by decide) fun _ _ =>
      .ensureSize (.read (spends_readSlice n) (Nat.le_max_right ..) fun data hdata =>
        .pure ⟨rfl, hdata⟩))
  refine .bind hinfo ?_
  rintro _ info ⟨rfl, hhead⟩
  split
  · exact .fail
  · rename_i hlong
    refine .bind (hwave _) ?_
    rintro _ w ⟨rfl, hrest⟩
    have hbound := announced.toNat_lt
    rw [WaveInfoPdu.size] at hlong hrest
    have hdata : (info.data ++ w.data).length = 4 + (announced.toNat - 12) := by
      rw [List.length_append, hhead, hrest]
    refine .pure ⟨?_, trivial, trivial, ?_⟩
    · simp only [pduSize, WavePdu.size, WaveInfoPdu.size, hdata]
      omega
    · rintro w ⟨⟩
      refine ⟨?_, ?_⟩
      · simp only [bodySize, WavePdu.bodySize, WaveInfoPdu.size, hdata]
        omega
      · rintro w ⟨⟩
        simp only [hdata]
        omega

theorem spends_waveEncrypt : Spends 0 (WaveEncryptPdu.decode .v5) fun n pdu =>
    Sound n (waveEncrypt pdu) := by
  refine .ensureSize (.read spends_readU16 (by decide) fun _ _ =>
    .read spends_readU16 (by decide) fun _ _ => .read spends_readU8 (by decide) fun _ _ =>
    .read (spends_readPadding 3) (by decide) fun _ _ => .ensureSize
    (.read (spends_someSlice 8) (by decide) ?_))
  rintro _ ⟨sig, rfl, hsig⟩
  refine .bind spends_readRemaining ?_
  rintro _ data rfl
  refine .pure ⟨?_, ?_, nofun, nofun⟩
  · simp only [pduSize, WaveEncryptPdu.size, Option.elim]
    omega
  · rintro sig' ⟨⟩
    exact hsig

theorem spends_wave2 : Spends 0 Wave2Pdu.decode fun n pdu => Sound n (wave2 pdu) := by
  refine .ensureSize (.read spends_readU16 (by decide) fun _ _ =>
    .read spends_readU16 (by decide) fun _ _ => .read spends_readU8 (by decide) fun _ _ =>
    .read (spends_readPadding 3) (by decide) fun _ _ => .read spends_readU32 (by decide)
    fun _ _ => .bind spends_readRemaining ?_)
  rintro _ data rfl
  refine .pure ⟨?_, trivial, trivial, nofun⟩
  simp only [pduSize, Wave2Pdu.size]
  omega

theorem spends_training : Spends 0 TrainingPdu.decode fun n pdu => Sound n (training pdu) := by
  refine .ensureSize (.read spends_readU16 (by decide) fun _ _ =>
    .read spends_readU16 (by decide) fun _ _ => .bind spends_readRemaining ?_)
  rintro _ data rfl
  refine .pure ⟨?_, trivial, trivial, nofun⟩
  simp only [pduSize, TrainingPdu.size]
  omega

theorem spends_cryptKey : Spends 0 CryptKeyPdu.decode fun n pdu => Sound n (cryptKey pdu) :=
  .ensureSize (.read (spends_readPadding 4) (by decide) fun _ _ =>
    .read (spends_readSlice 32) (by decide) fun _ hseed => .pure ⟨rfl, hseed, trivial, nofun⟩)

theorem spends_volume : Spends 0 VolumePdu.decode fun n pdu => Sound n (volume pdu) :=
  .ensureSize (.read spends_readU16 (by decide) fun _ _ =>
    .read spends_readU16 (by decide) fun _ _ => .pure ⟨rfl, trivial, trivial, nofun⟩)

theorem spends_pitch : Spends 0 PitchPdu.decode fun n pdu => Sound n (pitch pdu) :=
  .ensureSize (.read spends_readU32 (by decide) fun _ _ => .pure ⟨rfl, trivial, trivial, nofun⟩)

/-- The body of a message, in the constructor of its kind. -/
theorem spends_message {α : Type} {m : Decode α} {g : α → ServerAudioOutputPdu}
    (h : Spends 0 m fun n a => Sound n (g a)) :
    Spends 0 (m >>= fun a => pure (g a)) Sound :=
  .bind h fun _ _ hs => .pure (by rwa [Nat.add_zero])

theorem spends_decode : Spends 0 decode fun n pdu => n = pdu.size ∧ Sound (n - 4) pdu := by
  refine .ensureSize (.read spends_readU8 (by decide) fun msgType _ =>
    .read (spends_readPadding 1) (by decide) fun _ _ => .read spends_readU16 (by decide)
    fun announced _ => ?_)
  have hbody : ∀ m : Decode ServerAudioOutputPdu, Spends 0 m Sound → Spends 0 m fun n pdu =>
      1 + (1 + (2 + n)) = pdu.size ∧ Sound (1 + (1 + (2 + n)) - 4) pdu := fun m hm => by
    refine hm.imp fun n pdu hs => ⟨by rw [hs.1, size]; omega, ?_⟩
    rwa [show 1 + (1 + (2 + n)) - 4 = n by omega]
  refine hbody _ ?_
  split
  · exact spends_message spends_formats
  split
  · exact spends_message spends_cryptKey
  split
  · exact spends_message spends_training
  split
  · exact spends_message (spends_wave announced)
  split
  · exact spends_message spends_waveEncrypt
  split
  · exact .pure ⟨rfl, trivial, trivial, nofun⟩
  split
  · exact spends_message spends_wave2
  split
  · exact spends_message spends_volume
  split
  · exact spends_message spends_pitch
  exact .fail

/-! ### Both directions -/

/-- A message is encoded exactly when its body fits its length and, for a
wave, there are four bytes for the first part. It is then as long as it
announces, and decoding gives it back exactly when it is canonical. -/
theorem wire_exact (pdu : ServerAudioOutputPdu) (hs : pdu.Sized) :
    ((∃ bs, pdu.encode = .ok bs) ↔ pdu.Encodable) ∧
    ∀ bs, pdu.encode = .ok bs → bs.length = pdu.size ∧
      (decode.run bs = .ok (pdu, []) ↔ pdu.Canonical) := by
  refine ⟨⟨?_, fun h => ⟨_, encode_eq_ok hs h⟩⟩, ?_⟩
  · rintro ⟨bs, hbs⟩
    exact ((encode_eq_ok_iff hs).mp hbs).1
  · intro bs hbs
    obtain ⟨h, rfl⟩ := (encode_eq_ok_iff hs).mp hbs
    refine ⟨length_bytes hs h.2, fun hrun => ?_, fun hc => decodesAll_bytes hs hc h⟩
    obtain ⟨n, -, -, hsound⟩ := spends_decode _ _ _ (Nat.zero_le _) hrun
    exact hsound.2.2.1

/-- A signed wave with bytes in it. -/
theorem wire_exact_waveEncrypt :
    let pdu := waveEncrypt ⟨1, 2, 3, some (List.replicate 8 4), [5]⟩
    ((∃ bs, pdu.encode = .ok bs) ↔ pdu.Encodable) ∧
    ∀ bs, pdu.encode = .ok bs → bs.length = pdu.size ∧
      (decode.run bs = .ok (pdu, []) ↔ pdu.Canonical) :=
  wire_exact _ (by rintro _ ⟨⟩; rfl)

/-- What is decoded, from a payload whose length fits a header, can be encoded
again, in as many bytes as were taken, and decodes to the same. -/
theorem decode_reencodes {s rest : List UInt8} {pdu : ServerAudioOutputPdu}
    (hrun : decode.run s = .ok (pdu, rest)) (hlen : s.length ≤ 65539) :
    ∃ bs, pdu.encode = .ok bs ∧ s.length = bs.length + rest.length ∧
      decode.run bs = .ok (pdu, []) := by
  obtain ⟨n, hn, hsize, hpdu, hs, hc, hwave⟩ := spends_decode s pdu rest (Nat.zero_le _) hrun
  have h : pdu.Encodable := by
    by_cases hw : ∃ w, pdu = wave w
    · obtain ⟨w, hw⟩ := hw
      exact hwave w hw
    · have hbody : pdu.bodySize = pdu.pduSize := by
        cases pdu with
        | wave w => exact absurd ⟨w, rfl⟩ hw
        | _ => rfl
      refine ⟨?_, fun w hpdu => absurd ⟨w, hpdu⟩ hw⟩
      rw [hbody, ← hpdu]
      omega
  refine ⟨_, encode_eq_ok hs h, ?_, decodesAll_bytes hs hc h⟩
  rw [length_bytes hs h.2, ← hsize]
  exact hn

/-- A training of the server, with a byte behind it that belongs to it. -/
theorem decode_reencodes_training : ∃ bs,
    (training ⟨1, 2, [7]⟩).encode = .ok bs ∧
      [SNDC_TRAINING, 9, 0, 0, 1, 0, 2, 0, 7].length = bs.length + ([] : List UInt8).length ∧
      decode.run bs = .ok (training ⟨1, 2, [7]⟩, []) :=
  decode_reencodes (s := [SNDC_TRAINING, 9, 0, 0, 1, 0, 2, 0, 7]) rfl (by decide)

end ServerAudioOutputPdu

end WasmRdp
