import WasmRdp.RdpsndCodec

/-!
# The client's audio PDUs read back

The same for what the client sends and a server decodes. The client's messages
have no part that is sent by itself and no array of fixed size, so that a reply
is encoded exactly when its body fits the length of the header, and decodes to
itself exactly when the codec data of its formats is absent or not empty.

The rules are those of `RdpsndCodec`: `decodes_bytes` goes through the decoder
field by field, and `spends_decode` counts what it takes. A quality mode is
read from a number of 16 bits, of which only three are taken. The two
directions are one theorem here, `reply_wire_exact`.
-/

namespace WasmRdp

open ByteReader ByteWriter Decode

namespace ClientAudioOutputPdu

def Canonical : ClientAudioOutputPdu → Prop
  | audioFormat pdu => ∀ f ∈ pdu.formats, f.Canonical
  | _ => True

def bodyBytes : ClientAudioOutputPdu → List UInt8
  | audioFormat pdu => toLe 4 pdu.flags.toNat ++ (toLe 2 pdu.volumeLeft.toNat ++
      (toLe 2 pdu.volumeRight.toNat ++ (toLe 4 pdu.pitch.toNat ++
        ((toLe 2 pdu.dgramPort.toNat).reverse ++
          (toLe 2 (UInt16.ofNat pdu.formats.length).toNat ++ ([0] ++
            (toLe 2 pdu.version.toU16.toNat ++ (List.replicate 1 0 ++
              pdu.formats.flatMap AudioFormat.bytes))))))))
  | qualityMode mode => toLe 2 mode.toU16.toNat ++ List.replicate 2 0
  | trainingConfirm timestamp packSize => toLe 2 timestamp.toNat ++ toLe 2 packSize.toNat
  | waveConfirm pdu => toLe 2 pdu.timestamp.toNat ++ ([pdu.blockNo] ++ List.replicate 1 0)

def bytes (pdu : ClientAudioOutputPdu) : List UInt8 :=
  [pdu.msgType] ++ (List.replicate 1 0 ++ (toLe 2 (UInt16.ofNat pdu.bodySize).toNat ++
    pdu.bodyBytes))

theorem length_bodyBytes (pdu : ClientAudioOutputPdu) : pdu.bodyBytes.length = pdu.bodySize := by
  cases pdu with
  | audioFormat pdu =>
      simp only [bodyBytes, bodySize, ClientAudioFormatPdu.size, List.length_append,
        List.length_replicate, List.length_reverse, length_toLe, List.length_singleton,
        length_flatMap_bytes]
      omega
  | _ => rfl

theorem length_bytes (pdu : ClientAudioOutputPdu) : pdu.bytes.length = pdu.size := by
  rw [bytes, List.length_append, List.length_append, List.length_append, length_toLe,
    length_bodyBytes, size, List.length_singleton, List.length_replicate]
  omega

variable {pdu : ClientAudioOutputPdu}

/-! ## Encoding -/

theorem writes_bodyBytes (h : pdu.bodySize ≤ 65535) : Writes (encodeBody · pdu) pdu.bodyBytes := by
  have hroom := Nat.le_of_eq pdu.length_bodyBytes.symm
  cases pdu with
  | audioFormat pdu =>
      obtain ⟨hlen, hall⟩ := ServerAudioOutputPdu.formats_fit (n := 65535) h
      have hwrites : Writes (ClientAudioFormatPdu.encodeTo · pdu) (toLe 4 pdu.flags.toNat ++
          (toLe 4 (volumeWord pdu.volumeLeft pdu.volumeRight).toNat ++ (toLe 4 pdu.pitch.toNat ++
            ((toLe 2 pdu.dgramPort.toNat).reverse ++
              (toLe 2 (UInt16.ofNat pdu.formats.length).toNat ++ ([0] ++
                (toLe 2 pdu.version.toU16.toNat ++ (List.replicate 1 0 ++
                  pdu.formats.flatMap AudioFormat.bytes)))))))) := by
        refine .ensureSize ?_ ((writes_u32 _).bind ((writes_u32 _).bind ((writes_u32 _).bind
          ((writes_write _).bind (.castLength hlen ((writes_u16 _).bind ((writes_u8 _).bind
            ((writes_u16 _).bind ((writes_padding 1).bind
              (ServerAudioOutputPdu.writes_formats hall))))))))))
        rwa [toLe_volumeWord, List.append_assoc]
      rwa [toLe_volumeWord, List.append_assoc] at hwrites
  | qualityMode mode => exact .ensureSize hroom ((writes_u16 _).bind (writes_padding 2))
  | trainingConfirm timestamp packSize =>
      exact .ensureSize hroom ((writes_u16 _).bind (writes_u16 _))
  | waveConfirm pdu =>
      exact .ensureSize hroom ((writes_u16 _).bind ((writes_u8 _).bind (writes_padding 1)))

theorem encode_eq_ok (h : pdu.bodySize ≤ 65535) : pdu.encode = .ok pdu.bytes := by
  have hwrites : Writes (encodeTo · pdu) pdu.bytes := by
    refine .ensureSize ?_ ((writes_u8 _).bind ((writes_padding 1).bind (.castLength h
      ((writes_u16 _).bind (writes_bodyBytes h)))))
    rw [pdu.length_bytes, size]
    exact Nat.le_add_right ..
  exact hwrites.encodeVec pdu.length_bytes

theorem encode_eq_ok_iff {bs : List UInt8} :
    pdu.encode = .ok bs ↔ pdu.bodySize ≤ 65535 ∧ bs = pdu.bytes := by
  constructor
  · intro h
    obtain ⟨dst, hdst, -⟩ := of_bind_eq_ok h
    obtain ⟨_, -, hdst⟩ := of_bind_eq_ok hdst
    obtain ⟨_, -, hdst⟩ := of_bind_eq_ok hdst
    obtain ⟨_, -, hdst⟩ := of_bind_eq_ok hdst
    obtain ⟨_, hcast, -⟩ := of_bind_eq_ok hdst
    have hsize := le_of_castLength hcast
    rw [encode_eq_ok hsize] at h
    exact ⟨hsize, (Except.ok.inj h).symm⟩
  · rintro ⟨h, rfl⟩
    exact encode_eq_ok h

/-! ## Decoding -/

theorem decodes_qualityMode (mode : QualityMode) :
    Decodes QualityMode.decode (qualityMode mode).bodyBytes mode := by
  have hmode : Decodes (QualityMode.tryFrom mode.toU16) [] mode := by
    cases mode <;> exact .pure _
  exact .ensureSize (Nat.le_refl 4) ((decodes_toNat _).bind (hmode.bind_pure
    (decodes_readPadding.last (.pure _))))

theorem decodes_formats {pdu : ClientAudioFormatPdu} (h : pdu.size ≤ 65535)
    (hc : ∀ f ∈ pdu.formats, f.Canonical) :
    Decodes ClientAudioFormatPdu.decode (audioFormat pdu).bodyBytes pdu := by
  obtain ⟨hlen, hall⟩ := ServerAudioOutputPdu.formats_fit (n := 65535) h
  have htimes := Decodes.times fun f hf => decodes_audioFormat (hall f hf) (hc f hf)
  rw [← toNat_ofNat_of_le hlen] at htimes
  refine .ensureSize ?_ ((decodes_readU32 _).bind ((decodes_toNat _).bind ((decodes_toNat _).bind
    ((decodes_readU32 _).bind ((decodes_readU16Be _).bind ((decodes_toNat _).bind
      ((decodes_readU8 0).bind ((decodes_toNat _).bind ((decodes_audioVersion _).bind_pure
        (decodes_readPadding.bind (htimes.last (.pure _))))))))))))
  rw [length_bodyBytes, bodySize, ClientAudioFormatPdu.size]
  exact Nat.le_add_right ..

theorem decodes_bytes (hc : pdu.Canonical) (h : pdu.bodySize ≤ 65535) :
    Decodes decode pdu.bytes pdu := by
  have hroom := Nat.le_of_eq pdu.length_bodyBytes.symm
  refine .ensureSize (by rw [pdu.length_bytes, size]; omega) ((decodes_readU8 _).bind
    (decodes_readPadding.bind ((decodes_toNat _).bind ?_)))
  cases pdu with
  | audioFormat pdu => exact (decodes_formats h hc).last (.pure _)
  | qualityMode mode => exact (decodes_qualityMode mode).last (.pure _)
  | trainingConfirm timestamp packSize =>
      have hpdu : Decodes decodeTrainingConfirm (trainingConfirm timestamp packSize).bodyBytes
          (timestamp, packSize) :=
        .ensureSize hroom ((decodes_toNat _).bind ((decodes_toNat _).last (.pure _)))
      exact hpdu.last (.pure _)
  | waveConfirm pdu =>
      have hpdu : Decodes WaveConfirmPdu.decode (waveConfirm pdu).bodyBytes pdu :=
        .ensureSize hroom ((decodes_toNat _).bind ((decodes_readU8 _).bind
          (decodes_readPadding.last (.pure _))))
      exact hpdu.last (.pure _)

/-- What a decoder that has taken `n` bytes returns. -/
def Sound (n : Nat) (pdu : ClientAudioOutputPdu) : Prop := n = pdu.bodySize ∧ pdu.Canonical

theorem spends_formats : Spends 0 ClientAudioFormatPdu.decode fun n pdu =>
    Sound n (audioFormat pdu) := by
  refine .ensureSize (.read spends_readU32 (by decide) fun _ _ =>
    .read spends_readU16 (by decide) fun _ _ => .read spends_readU16 (by decide) fun _ _ =>
    .read spends_readU32 (by decide) fun _ _ => .read spends_readU16Be (by decide) fun _ _ =>
    .read spends_readU16 (by decide) fun nFormats _ => .read spends_readU8 (by decide) fun _ _ =>
    .read spends_readU16 (by decide) fun value _ => .bind (spends_audioVersion value) ?_)
  rintro _ version rfl
  refine .read (spends_readPadding 1) (by decide) fun _ _ =>
    .bind (spends_audioFormat.times nFormats.toNat) ?_
  rintro n formats ⟨hn, -, hall⟩
  refine .pure ⟨?_, hall⟩
  simp only [bodySize, ClientAudioFormatPdu.size, hn]
  omega

theorem spends_qualityMode : Spends 0 QualityMode.decode fun n mode =>
    Sound n (qualityMode mode) := by
  have hmode : ∀ value, Spends 2 (QualityMode.tryFrom value) fun j _ => j = 0 ∧ True := by
    intro value
    unfold QualityMode.tryFrom
    split
    · exact .pure ⟨rfl, trivial⟩
    split
    · exact .pure ⟨rfl, trivial⟩
    split
    · exact .pure ⟨rfl, trivial⟩
    exact .fail
  refine .ensureSize (.read spends_readU16 (by decide) fun value _ => .bind (hmode value) ?_)
  rintro _ mode ⟨rfl, -⟩
  exact .read (spends_readPadding 2) (by decide) fun _ _ => .pure ⟨rfl, trivial⟩

theorem spends_decode : Spends 0 decode fun n pdu => n = pdu.size ∧ pdu.Canonical := by
  refine .ensureSize (.read spends_readU8 (by decide) fun msgType _ =>
    .read (spends_readPadding 1) (by decide) fun _ _ => .read spends_readU16 (by decide)
    fun announced _ => ?_)
  have hbody : ∀ m : Decode ClientAudioOutputPdu, Spends 0 m Sound → Spends 0 m fun n pdu =>
      1 + (1 + (2 + n)) = pdu.size ∧ pdu.Canonical := fun m hm =>
    hm.imp fun n pdu hs => ⟨by rw [hs.1, size]; omega, hs.2⟩
  refine hbody _ ?_
  split
  · exact .bind spends_formats fun n pdu hs => .pure (by rwa [Nat.add_zero])
  split
  · exact .bind spends_qualityMode fun n mode hs => .pure (by rwa [Nat.add_zero])
  split
  · exact .bind (.ensureSize (.read spends_readU16 (by decide) fun timestamp _ =>
      .read spends_readU16 (by decide) fun packSize _ => .pure
        (show Sound _ (trainingConfirm timestamp packSize) from ⟨rfl, trivial⟩)))
      fun n confirm hs => .pure (by rwa [Nat.add_zero])
  split
  · exact .bind (.ensureSize (.read spends_readU16 (by decide) fun timestamp _ =>
      .read spends_readU8 (by decide) fun blockNo _ => .read (spends_readPadding 1) (by decide)
        fun _ _ => .pure (show Sound _ (waveConfirm { timestamp, blockNo }) from ⟨rfl, trivial⟩)))
      fun n pdu hs => .pure (by rwa [Nat.add_zero])
  exact .fail

/-- A reply is encoded exactly when its body fits its length. It is then as
long as it announces, and decoding gives it back exactly when it is canonical.
What a server decodes, from a payload whose length fits a header, can be
encoded again in as many bytes as were taken. -/
theorem reply_wire_exact (pdu : ClientAudioOutputPdu) :
    ((∃ bs, pdu.encode = .ok bs) ↔ pdu.bodySize ≤ 65535) ∧
    (∀ bs, pdu.encode = .ok bs → bs.length = pdu.size ∧
      (decode.run bs = .ok (pdu, []) ↔ pdu.Canonical)) ∧
    ∀ s rest, decode.run s = .ok (pdu, rest) → s.length ≤ 65539 →
      ∃ bs, pdu.encode = .ok bs ∧ s.length = bs.length + rest.length ∧
        decode.run bs = .ok (pdu, []) := by
  refine ⟨⟨?_, fun h => ⟨_, encode_eq_ok h⟩⟩, ?_, ?_⟩
  · rintro ⟨bs, hbs⟩
    exact (encode_eq_ok_iff.mp hbs).1
  · intro bs hbs
    obtain ⟨h, rfl⟩ := encode_eq_ok_iff.mp hbs
    refine ⟨pdu.length_bytes, fun hrun => ?_, fun hc => (decodes_bytes hc h).all⟩
    obtain ⟨n, -, -, hc⟩ := spends_decode _ _ _ (Nat.zero_le _) hrun
    exact hc
  · intro s rest hrun hlen
    obtain ⟨n, hn, hsize, hc⟩ := spends_decode s pdu rest (Nat.zero_le _) hrun
    have h : pdu.bodySize ≤ 65535 := by
      rw [size] at hsize
      omega
    exact ⟨_, encode_eq_ok h, by rw [pdu.length_bytes, ← hsize, hn], (decodes_bytes hc h).all⟩

end ClientAudioOutputPdu

end WasmRdp
