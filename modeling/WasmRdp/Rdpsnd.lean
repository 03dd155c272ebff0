import WasmRdp.Lib.ByteReader

/-!
# Audio output

The client of the audio output channel, `crates/ironrdp-rdpsnd`: the PDUs that
the server sends and their decoders, the PDUs that the client answers with, and
the state machine `handle_pdu`. A call of the handler is part of what handling
a payload comes to (`Handled`), as is the reply.

A decoder is a function on the bytes that are left of a `ReadCursor`, in the
error monad, with the checks of the source in the source's order: the room is
asked for once in front of several reads (`ensureSize`), and a read without
room for it does not occur. The errors carry the fields that they name.

The client treats a wave of the older kind by itself, before the ordinary
decoder: the first part is read at once, and the rest of the payload, or the
next payload, is the second part. `handlePdu` therefore looks at what is
pending before it looks at the payload. Every other message is decoded first
and given to `handleDecoded`, which is the table of states and messages.

Above it stands the handler of `wasm/src/audio.rs`, which gives the page the
formats that the browser can play, and turns a wave into a call of the page or
a line in the log (`AudioCall`).
-/

namespace WasmRdp

open ByteReader

/-! ## Decoding -/

inductive DecodeError where
  | notEnoughBytes (received expected : Nat)
  | invalidField (field reason : String)
  deriving DecidableEq

/-- A decoder on a `ReadCursor`, of which the bytes that are left matter. -/
abbrev Decode := StateT (List UInt8) (Except DecodeError)

namespace Decode

/-- `ensure_size!` -/
def ensureSize (size : Nat) : Decode Unit := fun src =>
  if size ≤ src.length then .ok ((), src) else .error (.notEnoughBytes src.length size)

/-- Like all reads, this is used only where enough is left. -/
def readSlice (n : Nat) : Decode (List UInt8) := fun src => .ok (src.take n, src.drop n)

def readU8 : Decode UInt8 := return UInt8.ofNat (fromLe (← readSlice 1))

def readU16 : Decode UInt16 := return UInt16.ofNat (fromLe (← readSlice 2))

def readU32 : Decode UInt32 := return UInt32.ofNat (fromLe (← readSlice 4))

def readPadding (n : Nat) : Decode Unit := do
  let _ ← readSlice n

def readRemaining : Decode (List UInt8) := fun src => .ok (src, [])

def invalidField {α : Type} (field reason : String) : Decode α := fun _ =>
  .error (.invalidField field reason)

/-- `repeat_with(..).take(n).collect()` -/
def times {α : Type} : Nat → Decode α → Decode (List α)
  | 0, _ => return []
  | n + 1, decode => do
      let a ← decode
      let as ← times n decode
      return a :: as

end Decode

open Decode

/-! ## PDUs of the server -/

inductive AudioVersion where
  | v2
  | v5
  | v6
  | v8
  deriving DecidableEq

def AudioVersion.toU16 : AudioVersion → UInt16
  | .v2 => 0x02
  | .v5 => 0x05
  | .v6 => 0x06
  | .v8 => 0x08

def AudioVersion.tryFrom (value : UInt16) : Decode AudioVersion :=
  if value = 0x02 then return .v2
  else if value = 0x05 then return .v5
  else if value = 0x06 then return .v6
  else if value = 0x08 then return .v8
  else invalidField "Version" "unknown audio output version"

structure WaveFormat where
  tag : UInt16
  deriving DecidableEq

def WaveFormat.PCM : WaveFormat := ⟨0x0001⟩
def WaveFormat.OPUS : WaveFormat := ⟨0x704F⟩
def WaveFormat.AAC_MS : WaveFormat := ⟨0xA106⟩

structure AudioFormat where
  format : WaveFormat
  nChannels : UInt16
  nSamplesPerSec : UInt32
  nAvgBytesPerSec : UInt32
  nBlockAlign : UInt16
  bitsPerSample : UInt16
  data : Option (List UInt8)
  deriving DecidableEq

def AudioFormat.decode : Decode AudioFormat := do
  ensureSize 18
  let format ← readU16
  let nChannels ← readU16
  let nSamplesPerSec ← readU32
  let nAvgBytesPerSec ← readU32
  let nBlockAlign ← readU16
  let bitsPerSample ← readU16
  let cbSize ← readU16
  ensureSize cbSize.toNat
  let data ← if 0 < cbSize then some <$> readSlice cbSize.toNat else pure none
  return {
    format := ⟨format⟩
    nChannels, nSamplesPerSec, nAvgBytesPerSec, nBlockAlign, bitsPerSample, data }

structure ServerAudioFormatPdu where
  version : AudioVersion
  formats : List AudioFormat
  deriving DecidableEq

def ServerAudioFormatPdu.decode : Decode ServerAudioFormatPdu := do
  ensureSize 20
  readPadding 4
  readPadding 4
  readPadding 4
  readPadding 2
  let nFormats ← readU16
  readPadding 1
  let version ← AudioVersion.tryFrom (← readU16)
  readPadding 1
  let formats ← times nFormats.toNat AudioFormat.decode
  return { version, formats }

structure CryptKeyPdu where
  seed : List UInt8
  deriving DecidableEq

def CryptKeyPdu.decode : Decode CryptKeyPdu := do
  ensureSize 36
  readPadding 4
  let seed ← readSlice 32
  return { seed }

structure TrainingPdu where
  timestamp : UInt16
  packSize : UInt16
  data : List UInt8
  deriving DecidableEq

def TrainingPdu.decode : Decode TrainingPdu := do
  ensureSize 4
  let timestamp ← readU16
  let packSize ← readU16
  let data ← readRemaining
  return { timestamp, packSize, data }

/-- The first part of a wave, with its first four bytes. -/
structure WaveInfoPdu where
  timestamp : UInt16
  formatNo : UInt16
  blockNo : UInt8
  data : List UInt8
  deriving DecidableEq

def WaveInfoPdu.size : Nat := 12

def WaveInfoPdu.decode : Decode WaveInfoPdu := do
  ensureSize WaveInfoPdu.size
  let timestamp ← readU16
  let formatNo ← readU16
  let blockNo ← readU8
  readPadding 3
  let data ← readSlice 4
  return { timestamp, formatNo, blockNo, data }

/-- The second part of a wave, with the bytes after those. -/
structure SndWavePdu where
  data : List UInt8
  deriving DecidableEq

def SndWavePdu.decode (dataLen : Nat) : Decode SndWavePdu := do
  ensureSize 4
  readPadding 4
  ensureSize dataLen
  let data ← readSlice dataLen
  return { data }

/-- Both parts. -/
structure WavePdu where
  timestamp : UInt16
  formatNo : UInt16
  blockNo : UInt8
  data : List UInt8
  deriving DecidableEq

def WavePdu.decode (bodySize : UInt16) : Decode WavePdu := do
  let info ← WaveInfoPdu.decode
  if bodySize.toNat < WaveInfoPdu.size then
    invalidField "Length" "WaveInfo body_size is too small"
  else
    let wave ← SndWavePdu.decode (bodySize.toNat - WaveInfoPdu.size)
    return {
      timestamp := info.timestamp
      formatNo := info.formatNo
      blockNo := info.blockNo
      data := info.data ++ wave.data }

structure WaveEncryptPdu where
  timestamp : UInt16
  formatNo : UInt16
  blockNo : UInt8
  signature : Option (List UInt8)
  data : List UInt8
  deriving DecidableEq

def WaveEncryptPdu.decode (version : AudioVersion) : Decode WaveEncryptPdu := do
  ensureSize 8
  let timestamp ← readU16
  let formatNo ← readU16
  let blockNo ← readU8
  readPadding 3
  let signature ← if AudioVersion.v5.toU16 ≤ version.toU16 then do
      ensureSize 8
      some <$> readSlice 8
    else pure none
  let data ← readRemaining
  return { timestamp, formatNo, blockNo, signature, data }

structure Wave2Pdu where
  timestamp : UInt16
  formatNo : UInt16
  blockNo : UInt8
  audioTimestamp : UInt32
  data : List UInt8
  deriving DecidableEq

def Wave2Pdu.decode : Decode Wave2Pdu := do
  ensureSize 12
  let timestamp ← readU16
  let formatNo ← readU16
  let blockNo ← readU8
  readPadding 3
  let audioTimestamp ← readU32
  let data ← readRemaining
  return { timestamp, formatNo, blockNo, audioTimestamp, data }

structure VolumePdu where
  volumeLeft : UInt16
  volumeRight : UInt16
  deriving DecidableEq

def VolumePdu.decode : Decode VolumePdu := do
  ensureSize 4
  let volumeLeft ← readU16
  let volumeRight ← readU16
  return { volumeLeft, volumeRight }

structure PitchPdu where
  pitch : UInt32
  deriving DecidableEq

def PitchPdu.decode : Decode PitchPdu := do
  ensureSize 4
  let pitch ← readU32
  return { pitch }

def SNDC_CLOSE : UInt8 := 0x01
def SNDC_WAVE : UInt8 := 0x02
def SNDC_VOLUME : UInt8 := 0x03
def SNDC_PITCH : UInt8 := 0x04
def SNDC_TRAINING : UInt8 := 0x06
def SNDC_FORMATS : UInt8 := 0x07
def SNDC_CRYPTKEY : UInt8 := 0x08
def SNDC_WAVEENCRYPT : UInt8 := 0x09
def SNDC_WAVE2 : UInt8 := 0x0D

inductive ServerAudioOutputPdu where
  | audioFormat (pdu : ServerAudioFormatPdu)
  | cryptKey (pdu : CryptKeyPdu)
  | training (pdu : TrainingPdu)
  | wave (pdu : WavePdu)
  | waveEncrypt (pdu : WaveEncryptPdu)
  | close
  | wave2 (pdu : Wave2Pdu)
  | volume (pdu : VolumePdu)
  | pitch (pdu : PitchPdu)
  deriving DecidableEq

def ServerAudioOutputPdu.decode : Decode ServerAudioOutputPdu := do
  ensureSize 4
  let msgType ← readU8
  readPadding 1
  let bodySize ← readU16
  if msgType = SNDC_FORMATS then return .audioFormat (← ServerAudioFormatPdu.decode)
  else if msgType = SNDC_CRYPTKEY then return .cryptKey (← CryptKeyPdu.decode)
  else if msgType = SNDC_TRAINING then return .training (← TrainingPdu.decode)
  else if msgType = SNDC_WAVE then return .wave (← WavePdu.decode bodySize)
  else if msgType = SNDC_WAVEENCRYPT then return .waveEncrypt (← WaveEncryptPdu.decode .v5)
  else if msgType = SNDC_CLOSE then return .close
  else if msgType = SNDC_WAVE2 then return .wave2 (← Wave2Pdu.decode)
  else if msgType = SNDC_VOLUME then return .volume (← VolumePdu.decode)
  else if msgType = SNDC_PITCH then return .pitch (← PitchPdu.decode)
  else invalidField "ServerAudioOutputPdu::msgType" "Unknown audio output PDU type"

/-! ## PDUs of the client -/

def AudioFormatFlags.ALIVE : UInt32 := 0x00000001

structure ClientAudioFormatPdu where
  version : AudioVersion
  flags : UInt32
  formats : List AudioFormat
  volumeLeft : UInt16
  volumeRight : UInt16
  pitch : UInt32
  dgramPort : UInt16
  deriving DecidableEq

inductive QualityMode where
  | dynamic
  | medium
  | high
  deriving DecidableEq

structure WaveConfirmPdu where
  timestamp : UInt16
  blockNo : UInt8
  deriving DecidableEq

inductive ClientAudioOutputPdu where
  | audioFormat (pdu : ClientAudioFormatPdu)
  | qualityMode (mode : QualityMode)
  | trainingConfirm (timestamp packSize : UInt16)
  | waveConfirm (pdu : WaveConfirmPdu)
  deriving DecidableEq

/-! ## The client -/

inductive PduError where
  | decode (e : DecodeError)
  | other (description : String)
  deriving DecidableEq

/-- What the client asks of its handler. -/
structure RdpsndClientHandler where
  flags : UInt32
  supportedFormats : List WaveFormat

inductive HandlerCall where
  | wave (format : AudioFormat) (ts : UInt32) (data : List UInt8)
  | setVolume (volume : VolumePdu)
  | setPitch (pitch : PitchPdu)
  | close
  deriving DecidableEq

inductive RdpsndState where
  | start
  | waitingForTraining
  | ready
  | stop
  deriving DecidableEq

structure Rdpsnd where
  handler : RdpsndClientHandler
  state : RdpsndState
  serverFormat : Option ServerAudioFormatPdu
  negotiatedFormats : List AudioFormat
  pendingWaveInfo : Option WaveInfoPdu
  firstWaveLogged : Bool

abbrev Reply := Except PduError (List ClientAudioOutputPdu)

/-- What handling a payload comes to. -/
structure Handled where
  client : Rdpsnd
  calls : List HandlerCall
  reply : Reply

namespace Rdpsnd

def new (handler : RdpsndClientHandler) : Rdpsnd where
  handler
  state := .start
  serverFormat := none
  negotiatedFormats := []
  pendingWaveInfo := none
  firstWaveLogged := false

def logFirstWave (s : Rdpsnd) : Rdpsnd := { s with firstWaveLogged := true }

def version (s : Rdpsnd) : Except PduError AudioVersion :=
  match s.serverFormat with
  | some serverFormat => .ok serverFormat.version
  | none => .error (.other "invalid state - no version")

def clientFormats (s : Rdpsnd) : Rdpsnd × Reply :=
  match s.serverFormat with
  | none => (s, .error (.other "invalid state - no server format"))
  | some serverFormat =>
      let supportedTags := s.handler.supportedFormats
      let negotiated := serverFormat.formats.filter fun sf =>
        supportedTags.any fun tag => tag = sf.format
      let s := { s with negotiatedFormats := negotiated }
      (s, do
        let version ← s.version
        return [.audioFormat {
          version
          flags := s.handler.flags ||| AudioFormatFlags.ALIVE
          formats := negotiated
          volumeLeft := 0xFFFF
          volumeRight := 0xFFFF
          pitch := 0x00010000
          dgramPort := 0 }])

def qualityMode : Reply := return [.qualityMode .high]

def trainingConfirm (pdu : TrainingPdu) : Reply :=
  return [.trainingConfirm pdu.timestamp pdu.packSize]

def waveConfirm (timestamp : UInt16) (blockNo : UInt8) : Reply :=
  return [.waveConfirm { timestamp, blockNo }]

def lookupFormat (s : Rdpsnd) (formatNo : UInt16) : Except PduError AudioFormat :=
  match s.negotiatedFormats[formatNo.toNat]? with
  | some format => .ok format
  | none => .error (.other "invalid format_no in wave PDU")

def processWaveData (s : Rdpsnd) (waveInfo : WaveInfoPdu) (payload : List UInt8) : Handled :=
  let paddingLen := min 4 payload.length
  let waveData := payload.drop paddingLen
  let data := waveInfo.data ++ waveData
  match s.lookupFormat waveInfo.formatNo with
  | .error e => ⟨s, [], .error e⟩
  | .ok format =>
      let ts := waveInfo.timestamp.toUInt32
      ⟨s.logFirstWave, [.wave format ts data], waveConfirm waveInfo.timestamp waveInfo.blockNo⟩

/-- The server's formats are stored and answered by the client's. -/
def negotiate (s : Rdpsnd) (af : ServerAudioFormatPdu) : Rdpsnd × Reply :=
  let s := { s with serverFormat := some af, state := .waitingForTraining }
  let (s, msgs) := s.clientFormats
  (s, do
    let msgs ← msgs
    let version ← s.version
    if AudioVersion.v6.toU16 ≤ version.toU16 then return msgs ++ (← qualityMode)
    else return msgs)

def processReadyPdu (s : Rdpsnd) : ServerAudioOutputPdu → Handled
  | .wave2 pdu =>
      match s.lookupFormat pdu.formatNo with
      | .error e => ⟨s, [], .error e⟩
      | .ok format =>
          let ts := pdu.audioTimestamp
          ⟨s.logFirstWave, [.wave format ts pdu.data], waveConfirm pdu.timestamp pdu.blockNo⟩
  | .volume pdu => ⟨s, [.setVolume pdu], .ok []⟩
  | .pitch pdu => ⟨s, [.setPitch pdu], .ok []⟩
  | .close => ⟨s, [.close], .ok []⟩
  | .training pdu => ⟨s, [], trainingConfirm pdu⟩
  | .audioFormat af =>
      let (s, reply) := s.negotiate af
      ⟨s, [.close], reply⟩
  | _ => ⟨s, [], .ok []⟩

/-- The state machine, on a PDU that the ordinary decoder has decoded. -/
def handleDecoded (s : Rdpsnd) (pdu : ServerAudioOutputPdu) : Handled :=
  match s.state with
  | .start =>
      match pdu with
      | .audioFormat af =>
          let (s, reply) := s.negotiate af
          ⟨s, [], reply⟩
      | _ => ⟨{ s with state := .stop }, [], .ok []⟩
  | .waitingForTraining =>
      let s := { s with state := .ready }
      match pdu with
      | .training pdu => ⟨s, [], trainingConfirm pdu⟩
      | other => s.processReadyPdu other
  | .ready => s.processReadyPdu pdu
  | .stop => ⟨s, [], .ok []⟩

def handlePdu (s : Rdpsnd) (payload : List UInt8) : Handled :=
  match s.pendingWaveInfo with
  | some waveInfo => { s with pendingWaveInfo := none }.processWaveData waveInfo payload
  | none =>
      if 4 ≤ payload.length ∧ payload.head? = some SNDC_WAVE then
        match WaveInfoPdu.decode.run (payload.drop 4) with
        | .error e => ⟨s, [], .error (.decode e)⟩
        | .ok (waveInfo, remaining) =>
            if 4 ≤ remaining.length then s.processWaveData waveInfo remaining
            else ⟨{ s with pendingWaveInfo := some waveInfo }, [], .ok []⟩
      else
        match ServerAudioOutputPdu.decode.run payload with
        | .error e => ⟨s, [], .error (.decode e)⟩
        | .ok (pdu, _) => s.handleDecoded pdu

end Rdpsnd

/-! ## The handler of the page -/

structure WasmRdpsndHandler where
  supportedTags : List WaveFormat

/-- What a wave comes to. -/
inductive AudioCall where
  | notifyAudioData (codecTag nChannels : UInt16) (nSamplesPerSec : UInt32)
      (bitsPerSample : UInt16) (data extradata : List UInt8)
  /-- It is dropped, with a line in the log. -/
  | logError (message : String)
  deriving DecidableEq

namespace WasmRdpsndHandler

def new (enableOpus enableAac : Bool) : WasmRdpsndHandler where
  supportedTags :=
    (if enableAac then [.AAC_MS] else []) ++ (if enableOpus then [.OPUS] else []) ++ [.PCM]

/-- It leaves the flags at their default. -/
def handler (h : WasmRdpsndHandler) : RdpsndClientHandler where
  flags := 0
  supportedFormats := h.supportedTags

def wave (format : AudioFormat) (_ts : UInt32) (data : List UInt8) : AudioCall :=
  let codec := format.format
  if codec ≠ .PCM ∧ codec ≠ .OPUS ∧ codec ≠ .AAC_MS then
    .logError "RDPSND: server sent an unadvertised wave format, dropping"
  else
    let codecTag :=
      if codec = .OPUS then 0x704F
      else if codec = .AAC_MS then 0xA106
      else 0x0001
    .notifyAudioData codecTag format.nChannels format.nSamplesPerSec format.bitsPerSample data
      (format.data.getD [])

end WasmRdpsndHandler

end WasmRdp
