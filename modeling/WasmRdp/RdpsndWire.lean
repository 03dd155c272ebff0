import WasmRdp.Lib.ByteWriter
import WasmRdp.WaveSplit

/-!
# The audio PDUs on the wire

`Encode` for every PDU of `crates/ironrdp-rdpsnd`, and `Decode` for those of
the client, which a server reads. Each kind of PDU has a `size`, by which its
buffer is made, an encoder that writes to a cursor, and its `bytes`; the
header of a message has one more length in it.

Decoding gives back what was encoded where it can return it at all: the codec
data of a format is absent or not empty, and an encrypted wave is signed.

The encoders keep what the source does at the edges. A length that does not
fit its 16 bits is an error (`castLength`); a wave of fewer than four bytes
panics at the slice of its first part; and the length that the header
announces (`bodySize`) is not the size of the PDU for a wave, since the four
bytes of the second part's padding are not counted in it.

The formats of a server's offer and of a client's answer are encoded alike,
but for the fields that the server fills with padding and the client with its
flags, its volume, its pitch and its port.
-/

namespace WasmRdp

open ByteReader ByteWriter Decode

/-- `write_padding!` -/
def writePadding (dst : WriteCursor) (n : Nat) : Except Failure WriteCursor :=
  dst.write (List.replicate n 0)

/-- `write_u16_be` -/
def writeU16Be (dst : WriteCursor) (v : UInt16) : Except Failure WriteCursor :=
  dst.write (toLe 2 v.toNat).reverse

/-- `read_u16_be` -/
def Decode.readU16Be : Decode UInt16 := return UInt16.ofNat (fromLe (← readSlice 2).reverse)

/-! ## Formats -/

namespace AudioFormat

/-- The length of the codec data. -/
def cbSize (f : AudioFormat) : Nat := f.data.elim 0 List.length

def size (f : AudioFormat) : Nat := 18 + f.cbSize

def encodeTo (dst : WriteCursor) (f : AudioFormat) : Except Failure WriteCursor := do
  ensureSize dst f.size
  let dst ← dst.writeU16 f.format.tag
  let dst ← dst.writeU16 f.nChannels
  let dst ← dst.writeU32 f.nSamplesPerSec
  let dst ← dst.writeU32 f.nAvgBytesPerSec
  let dst ← dst.writeU16 f.nBlockAlign
  let dst ← dst.writeU16 f.bitsPerSample
  let dst ← dst.writeU16 (← castLength "AudioFormat::cbSize" f.cbSize)
  match f.data with
  | some data => dst.write data
  | none => return dst

end AudioFormat

/-- Padding where the client has its flags, volume, pitch and port. -/
def ServerAudioFormatPdu.size (pdu : ServerAudioFormatPdu) : Nat :=
  20 + (pdu.formats.map AudioFormat.size).sum

def ServerAudioFormatPdu.encodeTo (dst : WriteCursor) (pdu : ServerAudioFormatPdu) :
    Except Failure WriteCursor := do
  ensureSize dst pdu.size
  let dst ← writePadding dst 4
  let dst ← writePadding dst 4
  let dst ← writePadding dst 4
  let dst ← writePadding dst 2
  let dst ← dst.writeU16 (← castLength "AudioFormatPdu::n_formats" pdu.formats.length)
  let dst ← writePadding dst 1
  let dst ← dst.writeU16 pdu.version.toU16
  let dst ← writePadding dst 1
  pdu.formats.foldlM AudioFormat.encodeTo dst

def ClientAudioFormatPdu.size (pdu : ClientAudioFormatPdu) : Nat :=
  20 + (pdu.formats.map AudioFormat.size).sum

/-- `(u32::from(volume_right) << 16) | u32::from(volume_left)` -/
def volumeWord (left right : UInt16) : UInt32 := (right.toUInt32 <<< 16) ||| left.toUInt32

def ClientAudioFormatPdu.encodeTo (dst : WriteCursor) (pdu : ClientAudioFormatPdu) :
    Except Failure WriteCursor := do
  ensureSize dst pdu.size
  let dst ← dst.writeU32 pdu.flags
  let dst ← dst.writeU32 (volumeWord pdu.volumeLeft pdu.volumeRight)
  let dst ← dst.writeU32 pdu.pitch
  let dst ← writeU16Be dst pdu.dgramPort
  let dst ← dst.writeU16 (← castLength "AudioFormatPdu::n_formats" pdu.formats.length)
  let dst ← dst.writeU8 0
  let dst ← dst.writeU16 pdu.version.toU16
  let dst ← writePadding dst 1
  pdu.formats.foldlM AudioFormat.encodeTo dst

def ClientAudioFormatPdu.decode : Decode ClientAudioFormatPdu := do
  ensureSize 20
  let flags ← readU32
  let volumeLeft ← readU16
  let volumeRight ← readU16
  let pitch ← readU32
  let dgramPort ← readU16Be
  let nFormats ← readU16
  let _ ← readU8
  let version ← AudioVersion.tryFrom (← readU16)
  readPadding 1
  let formats ← times nFormats.toNat AudioFormat.decode
  return { version, flags, formats, volumeLeft, volumeRight, pitch, dgramPort }

/-! ## The other PDUs of the server -/

def CryptKeyPdu.size : Nat := 36

def CryptKeyPdu.encodeTo (dst : WriteCursor) (pdu : CryptKeyPdu) :
    Except Failure WriteCursor := do
  ensureSize dst CryptKeyPdu.size
  let dst ← writePadding dst 4
  dst.write pdu.seed

def TrainingPdu.size (pdu : TrainingPdu) : Nat := 4 + pdu.data.length

def TrainingPdu.encodeTo (dst : WriteCursor) (pdu : TrainingPdu) :
    Except Failure WriteCursor := do
  ensureSize dst pdu.size
  let dst ← dst.writeU16 pdu.timestamp
  let dst ← dst.writeU16 pdu.packSize
  dst.write pdu.data

def WaveInfoPdu.encodeTo (dst : WriteCursor) (pdu : WaveInfoPdu) :
    Except Failure WriteCursor := do
  ensureSize dst WaveInfoPdu.size
  let dst ← dst.writeU16 pdu.timestamp
  let dst ← dst.writeU16 pdu.formatNo
  let dst ← dst.writeU8 pdu.blockNo
  let dst ← writePadding dst 3
  dst.write pdu.data

def SndWavePdu.size (pdu : SndWavePdu) : Nat := 4 + pdu.data.length

def SndWavePdu.encodeTo (dst : WriteCursor) (pdu : SndWavePdu) :
    Except Failure WriteCursor := do
  ensureSize dst pdu.size
  let dst ← writePadding dst 4
  dst.write pdu.data

namespace WavePdu

def bodySize (pdu : WavePdu) : Nat := WaveInfoPdu.size - 4 + pdu.data.length

def size (pdu : WavePdu) : Nat := WaveInfoPdu.size + 4 - 4 + pdu.data.length

def info (pdu : WavePdu) : WaveInfoPdu where
  timestamp := pdu.timestamp
  formatNo := pdu.formatNo
  blockNo := pdu.blockNo
  data := pdu.data.take 4

def wave (pdu : WavePdu) : SndWavePdu where
  data := pdu.data.drop 4

/-- The slice of the first four bytes panics where there are fewer. -/
def encodeTo (dst : WriteCursor) (pdu : WavePdu) : Except Failure WriteCursor :=
  if pdu.data.length < 4 then .error .outOfBounds
  else do
    let dst ← pdu.info.encodeTo dst
    pdu.wave.encodeTo dst

end WavePdu

def WaveEncryptPdu.size (pdu : WaveEncryptPdu) : Nat :=
  8 + pdu.signature.elim 0 (fun _ => 8) + pdu.data.length

def WaveEncryptPdu.encodeTo (dst : WriteCursor) (pdu : WaveEncryptPdu) :
    Except Failure WriteCursor := do
  ensureSize dst pdu.size
  let dst ← dst.writeU16 pdu.timestamp
  let dst ← dst.writeU16 pdu.formatNo
  let dst ← dst.writeU8 pdu.blockNo
  let dst ← writePadding dst 3
  let dst ← match pdu.signature with
    | some sig => dst.write sig
    | none => pure dst
  dst.write pdu.data

def Wave2Pdu.size (pdu : Wave2Pdu) : Nat := 12 + pdu.data.length

def Wave2Pdu.encodeTo (dst : WriteCursor) (pdu : Wave2Pdu) : Except Failure WriteCursor := do
  ensureSize dst pdu.size
  let dst ← dst.writeU16 pdu.timestamp
  let dst ← dst.writeU16 pdu.formatNo
  let dst ← dst.writeU8 pdu.blockNo
  let dst ← writePadding dst 3
  let dst ← dst.writeU32 pdu.audioTimestamp
  dst.write pdu.data

def VolumePdu.size : Nat := 4

def VolumePdu.encodeTo (dst : WriteCursor) (pdu : VolumePdu) : Except Failure WriteCursor := do
  ensureSize dst VolumePdu.size
  dst.writeU32 (volumeWord pdu.volumeLeft pdu.volumeRight)

def PitchPdu.size : Nat := 4

def PitchPdu.encodeTo (dst : WriteCursor) (pdu : PitchPdu) : Except Failure WriteCursor := do
  ensureSize dst PitchPdu.size
  dst.writeU32 pdu.pitch

/-! ## The other PDUs of the client -/

def SNDC_WAVECONFIRM : UInt8 := 0x05
def SNDC_QUALITYMODE : UInt8 := 0x0C

def QualityMode.toU16 : QualityMode → UInt16
  | .dynamic => 0x00
  | .medium => 0x01
  | .high => 0x02

def QualityMode.tryFrom (value : UInt16) : Decode QualityMode :=
  if value = 0x00 then return .dynamic
  else if value = 0x01 then return .medium
  else if value = 0x02 then return .high
  else invalidField "QualityMode" "unknown audio quality mode"

def QualityMode.encodeTo (dst : WriteCursor) (mode : QualityMode) :
    Except Failure WriteCursor := do
  ensureSize dst 4
  let dst ← dst.writeU16 mode.toU16
  writePadding dst 2

def QualityMode.decode : Decode QualityMode := do
  ensureSize 4
  let qualityMode ← QualityMode.tryFrom (← readU16)
  readPadding 2
  return qualityMode

def encodeTrainingConfirm (dst : WriteCursor) (timestamp packSize : UInt16) :
    Except Failure WriteCursor := do
  ensureSize dst 4
  let dst ← dst.writeU16 timestamp
  dst.writeU16 packSize

def decodeTrainingConfirm : Decode (UInt16 × UInt16) := do
  ensureSize 4
  let timestamp ← readU16
  let packSize ← readU16
  return (timestamp, packSize)

def WaveConfirmPdu.encodeTo (dst : WriteCursor) (pdu : WaveConfirmPdu) :
    Except Failure WriteCursor := do
  ensureSize dst 4
  let dst ← dst.writeU16 pdu.timestamp
  let dst ← dst.writeU8 pdu.blockNo
  writePadding dst 1

def WaveConfirmPdu.decode : Decode WaveConfirmPdu := do
  ensureSize 4
  let timestamp ← readU16
  let blockNo ← readU8
  readPadding 1
  return { timestamp, blockNo }

/-! ## Messages -/

namespace ServerAudioOutputPdu

def msgType : ServerAudioOutputPdu → UInt8
  | audioFormat _ => SNDC_FORMATS
  | cryptKey _ => SNDC_CRYPTKEY
  | training _ => SNDC_TRAINING
  | wave _ => SNDC_WAVE
  | waveEncrypt _ => SNDC_WAVEENCRYPT
  | close => SNDC_CLOSE
  | wave2 _ => SNDC_WAVE2
  | volume _ => SNDC_VOLUME
  | pitch _ => SNDC_PITCH

def pduSize : ServerAudioOutputPdu → Nat
  | audioFormat pdu => pdu.size
  | cryptKey _ => CryptKeyPdu.size
  | training pdu => pdu.size
  | wave pdu => pdu.size
  | waveEncrypt pdu => pdu.size
  | close => 0
  | wave2 pdu => pdu.size
  | volume _ => VolumePdu.size
  | pitch _ => PitchPdu.size

/-- What the header announces, which for a wave is not the size of the PDU. -/
def bodySize : ServerAudioOutputPdu → Nat
  | wave pdu => pdu.bodySize
  | pdu => pdu.pduSize

def size (pdu : ServerAudioOutputPdu) : Nat := 4 + pdu.pduSize

/-- The second `match` of `encode`. -/
def encodeBody (dst : WriteCursor) : ServerAudioOutputPdu → Except Failure WriteCursor
  | audioFormat pdu => pdu.encodeTo dst
  | cryptKey pdu => pdu.encodeTo dst
  | training pdu => pdu.encodeTo dst
  | wave pdu => pdu.encodeTo dst
  | waveEncrypt pdu => pdu.encodeTo dst
  | close => return dst
  | wave2 pdu => pdu.encodeTo dst
  | volume pdu => pdu.encodeTo dst
  | pitch pdu => pdu.encodeTo dst

def encodeTo (dst : WriteCursor) (pdu : ServerAudioOutputPdu) :
    Except Failure WriteCursor := do
  ensureSize dst 4
  let dst ← dst.writeU8 pdu.msgType
  let dst ← writePadding dst 1
  let dst ← dst.writeU16 (← castLength "ServerAudioOutputPdu::bodySize" pdu.bodySize)
  pdu.encodeBody dst

/-- As it is sent. -/
def encode (pdu : ServerAudioOutputPdu) : Except Failure (List UInt8) :=
  encodeVec pdu.size (encodeTo · pdu)

end ServerAudioOutputPdu

namespace ClientAudioOutputPdu

def msgType : ClientAudioOutputPdu → UInt8
  | audioFormat _ => SNDC_FORMATS
  | qualityMode _ => SNDC_QUALITYMODE
  | trainingConfirm .. => SNDC_TRAINING
  | waveConfirm _ => SNDC_WAVECONFIRM

def bodySize : ClientAudioOutputPdu → Nat
  | audioFormat pdu => pdu.size
  | _ => 4

def size (pdu : ClientAudioOutputPdu) : Nat := 4 + pdu.bodySize

/-- The second `match` of `encode`. -/
def encodeBody (dst : WriteCursor) : ClientAudioOutputPdu → Except Failure WriteCursor
  | audioFormat pdu => pdu.encodeTo dst
  | qualityMode mode => mode.encodeTo dst
  | trainingConfirm timestamp packSize => encodeTrainingConfirm dst timestamp packSize
  | waveConfirm pdu => pdu.encodeTo dst

def encodeTo (dst : WriteCursor) (pdu : ClientAudioOutputPdu) :
    Except Failure WriteCursor := do
  ensureSize dst 4
  let dst ← dst.writeU8 pdu.msgType
  let dst ← writePadding dst 1
  let dst ← dst.writeU16 (← castLength "ClientAudioOutputPdu::bodySize" pdu.bodySize)
  pdu.encodeBody dst

/-- As it is sent. -/
def encode (pdu : ClientAudioOutputPdu) : Except Failure (List UInt8) :=
  encodeVec pdu.size (encodeTo · pdu)

def decode : Decode ClientAudioOutputPdu := do
  ensureSize 4
  let msgType ← readU8
  readPadding 1
  let _ ← readU16
  if msgType = SNDC_FORMATS then return .audioFormat (← ClientAudioFormatPdu.decode)
  else if msgType = SNDC_QUALITYMODE then return .qualityMode (← QualityMode.decode)
  else if msgType = SNDC_TRAINING then do
    let (timestamp, packSize) ← decodeTrainingConfirm
    return .trainingConfirm timestamp packSize
  else if msgType = SNDC_WAVECONFIRM then return .waveConfirm (← WaveConfirmPdu.decode)
  else invalidField "ClientAudioOutputPdu::msgType" "Unknown audio output PDU type"

end ClientAudioOutputPdu

end WasmRdp
