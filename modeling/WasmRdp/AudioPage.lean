import WasmRdp.AudioWorklet
import WasmRdp.Rdpsnd
import WasmRdp.VideoDecoders

/-!
# The sound on the page

`initAudioContext`, `__rdp_audio_data`, `ensureDecoder`, `onDecodedAudio` and
`postPcmToWorklet` of `web/app.js`, with the nodes and decoders that were ever
made: a node keeps what it was posted, a decoder what it was fed. Which calls
throw is the browser's: `addModule` ends when it likes, a node is made in a context
whose module has been loaded and for no more than `maxChannels` channels, and
a decoder decodes while it is configured.

The worklet relies on its messages: as many channels as it was made for, all of
one length. A format of no channels, and one of too many that takes the place of
another, break that, and nothing else does (`AudioPageRun`).

The events are what comes to the page from outside, in any order: a user's
gesture that makes the context, a module that has loaded, perhaps for a
context that is closed by now, a wave of the session, an output or an error of
a decoder, and the end of the session. A wave comes with whether `configure`
would throw for it, which is the browser's answer.

Nodes and decoders are numbered as they are made and stay in their list when
the page forgets them, so that what was ever posted or fed can be said at the
end of a run. The samples of a PCM wave are computed as in the source, through
an `Int16Array` over the bytes and one division for each sample; what is
computed with them further is `PcmOps`.
-/

namespace WasmRdp

open Runs ByteReader

/-! ## PCM -/

/-- What the page computes samples with. -/
structure PcmOps (α : Type) where
  /-- `samples[…] * scale` -/
  ofInt16 : Int → α
  /-- `(uint8Array[…] - 128) / 128.0` -/
  ofUint8 : Nat → α
  nan : α

def PcmOps.exact (nan : ℚ) : PcmOps ℚ where
  ofInt16 n := n / 32768
  ofUint8 n := (n - 128) / 128
  nan

/-- A `Float32Array` for each channel. -/
abbrev ChannelData (α : Type) := List (List α)

/-- An element of an `Int16Array`. -/
def int16At (data : List UInt8) (k : Nat) : Int :=
  let n := fromLe ((data.drop (2 * k)).take 2)
  if n < 32768 then n else n - 65536

section
variable {α : Type} (ops : PcmOps α)

/-- The samples as they come, in one of the two formats that are played. -/
def pcmSamples (bitsPerSample : UInt16) (data : List UInt8) : Option (List α) :=
  if bitsPerSample = 16 then
    some ((List.range (data.length / 2)).map fun k => ops.ofInt16 (int16At data k))
  else if bitsPerSample = 8 then some (data.map fun b => ops.ofUint8 b.toNat)
  else none

def deinterleave (channels numFrames : Nat) (samples : List α) : ChannelData α :=
  (List.range channels).map fun ch =>
    (List.range numFrames).map fun i => samples.getD (i * channels + ch) ops.nan

/-- What is posted of a PCM wave. For no channels `numFrames` is not a number, or
infinite, and in either case not 0. -/
def pcmChannelData (channels : UInt16) (bitsPerSample : UInt16) (data : List UInt8) :
    Option (ChannelData α) :=
  match pcmSamples ops bitsPerSample data with
  | none => none
  | some samples =>
      let numFrames := samples.length / channels.toNat
      if channels ≠ 0 ∧ numFrames = 0 then none
      else some (deinterleave ops channels.toNat numFrames samples)

end

/-- An `AudioData` of the browser. -/
structure DecodedAudio (α : Type) where
  sampleRate : Nat
  numberOfFrames : Nat
  planes : List (List α)
  frames_pos : 0 < numberOfFrames
  planes_ne : planes ≠ []
  equal : ∀ plane ∈ planes, plane.length = numberOfFrames

/-- What a message to a node is made from. -/
inductive Sound (α : Type) where
  | pcm (channels : UInt16) (sampleRate : UInt32) (bitsPerSample : UInt16) (data : List UInt8)
  | decoded (audio : DecodedAudio α)

/-- `{ channels, sourceRate }` -/
structure PcmFormat where
  channels : Nat
  sourceRate : Nat
  deriving DecidableEq

/-! ## Nodes and decoders -/

structure AudioPost (α : Type) where
  sound : Sound α
  channelData : ChannelData α

/-- An `AudioWorkletNode`, with its `processorOptions`. -/
structure AudioNode (α : Type) where
  format : PcmFormat
  connected : Bool
  posted : List (AudioPost α)

/-- The arguments of `__rdp_audio_data`. -/
structure AudioWave where
  codec : UInt16
  channels : UInt16
  sampleRate : UInt32
  bitsPerSample : UInt16
  data : List UInt8
  extradata : List UInt8

structure EncodedAudioChunk where
  timestamp : Nat
  wave : AudioWave

/-- An `AudioDecoder` with its configuration, and what it was fed. -/
structure AudioDecoder where
  state : CodecState
  codec : String
  sampleRate : UInt32
  channels : UInt16
  /-- empty where the configuration has none -/
  description : List UInt8
  fed : List EncodedAudioChunk

namespace AudioDecoder

/-- What a call that does not throw leaves. -/
def decode (d : AudioDecoder) (chunk : EncodedAudioChunk) : Option AudioDecoder :=
  if d.state ≠ .configured then none else some { d with fed := d.fed ++ [chunk] }

def close (d : AudioDecoder) : AudioDecoder := { d with state := .closed }

end AudioDecoder

def makeOpusHead (channels : UInt16) (sampleRate : UInt32) : List UInt8 :=
  [0x4f, 0x70, 0x75, 0x73, 0x48, 0x65, 0x61, 0x64] ++
    [1, UInt8.ofNat channels.toNat, 0, 0] ++ toLe 4 sampleRate.toNat ++ [0, 0, 0]

/-! ## The page -/

structure AudioPage (α : Type) where
  /-- how many contexts were made -/
  contexts : Nat
  audioContext : Option Nat
  /-- the contexts whose `addModule` has not ended -/
  loading : List Nat
  /-- the contexts that have the module -/
  loaded : List Nat
  workletReady : Bool
  /-- all nodes that were ever made -/
  nodes : List (AudioNode α)
  audioWorkletNode : Option Nat
  audioFormat : Option PcmFormat
  /-- all decoders that were ever made -/
  decoders : List AudioDecoder
  audioDecoder : Option Nat
  decoderCodec : Option String
  decoderRate : UInt32
  decoderChannels : UInt16
  audioPts : Nat

inductive AudioPageEvent (α : Type) where
  /-- `initAudioContext`, where `new AudioContext` may throw -/
  | initContext (made : Bool)
  | moduleLoaded (context : Nat)
  | moduleFailed (context : Nat)
  /-- `__rdp_audio_data`, where `configure` may throw -/
  | wave (wave : AudioWave) (configures : Bool)
  /-- the `output` callback of a decoder -/
  | decoded (decoder : Nat) (audio : DecodedAudio α)
  | decoderError (decoder : Nat)
  | cleanupSession

namespace AudioPage

section
variable {α : Type}

def initial : AudioPage α where
  contexts := 0
  audioContext := none
  loading := []
  loaded := []
  workletReady := false
  nodes := []
  audioWorkletNode := none
  audioFormat := none
  decoders := []
  audioDecoder := none
  decoderCodec := none
  decoderRate := 0
  decoderChannels := 0
  audioPts := 0

def initAudioContext (s : AudioPage α) (made : Bool) : AudioPage α :=
  if s.audioContext.isSome || !made then s
  else
    { s with
      contexts := s.contexts + 1
      audioContext := some s.contexts
      loading := s.loading ++ [s.contexts] }

/-- The promise of `addModule`, whatever has become of its context. -/
def moduleLoaded (s : AudioPage α) (context : Nat) : AudioPage α :=
  if context ∈ s.loading then
    { s with
      loading := s.loading.erase context
      loaded := s.loaded ++ [context]
      workletReady := true }
  else s

/-! ### Nodes -/

/-- The node is the one for the format. -/
def Fits (s : AudioPage α) (format : PcmFormat) : Prop :=
  s.audioWorkletNode.isSome ∧ s.audioFormat = some format

instance (s : AudioPage α) (format : PcmFormat) : Decidable (s.Fits format) :=
  inferInstanceAs (Decidable (_ ∧ _))

/-- `new AudioWorkletNode` does not throw. -/
def Constructs (maxChannels : Nat) (s : AudioPage α) (format : PcmFormat) : Prop :=
  (∃ context ∈ s.audioContext, context ∈ s.loaded) ∧ max 1 format.channels ≤ maxChannels

instance (maxChannels : Nat) (s : AudioPage α) (format : PcmFormat) :
    Decidable (Constructs maxChannels s format) :=
  inferInstanceAs (Decidable (_ ∧ _))

def postMessage (s : AudioPage α) (post : AudioPost α) : AudioPage α :=
  match s.audioWorkletNode with
  | none => s
  | some node =>
      { s with nodes := s.nodes.modify node fun n => { n with posted := n.posted ++ [post] } }

def disconnectNode (s : AudioPage α) : AudioPage α :=
  match s.audioWorkletNode with
  | none => s
  | some node => { s with nodes := s.nodes.modify node fun n => { n with connected := false } }

def postPcmToWorklet (maxChannels : Nat) (s : AudioPage α) (format : PcmFormat)
    (post : AudioPost α) : AudioPage α :=
  if s.Fits format then s.postMessage post
  else
    let s := { s.disconnectNode with audioFormat := some format }
    if Constructs maxChannels s format then
      postMessage { s with
        nodes := s.nodes ++ [{ format, connected := true, posted := [] }]
        audioWorkletNode := some s.nodes.length } post
    else s

/-! ### Decoders -/

def closeDecoder (s : AudioPage α) : AudioPage α :=
  match s.audioDecoder with
  | none => s
  | some decoder =>
      { s with decoders := s.decoders.modify decoder AudioDecoder.close, audioDecoder := none }

def ensureDecoder (s : AudioPage α) (codec : String) (sampleRate : UInt32) (channels : UInt16)
    (description : List UInt8) (configures : Bool) : AudioPage α :=
  if s.audioDecoder.isSome ∧ s.decoderCodec = some codec ∧ s.decoderRate = sampleRate ∧
      s.decoderChannels = channels then s
  else
    let s := s.closeDecoder
    let decoder : AudioDecoder := ⟨.unconfigured, codec, sampleRate, channels, description, []⟩
    if !configures then { s with decoders := s.decoders ++ [decoder] }
    else
      { s with
        decoders := s.decoders ++ [{ decoder with state := .configured }]
        audioDecoder := some s.decoders.length
        decoderCodec := some codec
        decoderRate := sampleRate
        decoderChannels := channels }

/-- A throw of `decode` is caught. -/
def decodeChunk (s : AudioPage α) (wave : AudioWave) : AudioPage α :=
  match s.audioDecoder with
  | none => s
  | some decoder =>
      match s.decoders[decoder]?.bind (·.decode ⟨s.audioPts, wave⟩) with
      | none => s
      | some d =>
          { s with decoders := s.decoders.set decoder d, audioPts := s.audioPts + 20000 }

end

variable {α : Type} (ops : PcmOps α) (maxChannels : Nat)

/-- `__rdp_audio_data` -/
def audioData (s : AudioPage α) (w : AudioWave) (configures : Bool) : AudioPage α :=
  if s.audioContext.isNone || !s.workletReady then s
  else if w.codec = 0x0001 then
    match pcmChannelData ops w.channels w.bitsPerSample w.data with
    | none => s
    | some channelData =>
        s.postPcmToWorklet maxChannels ⟨w.channels.toNat, w.sampleRate.toNat⟩
          ⟨.pcm w.channels w.sampleRate w.bitsPerSample w.data, channelData⟩
  else if w.codec = 0x704F then
    let description :=
      if w.extradata ≠ [] then w.extradata else makeOpusHead w.channels w.sampleRate
    (s.ensureDecoder "opus" w.sampleRate w.channels description configures).decodeChunk w
  else if w.codec = 0xA106 then
    (s.ensureDecoder "mp4a.40.2" w.sampleRate w.channels w.extradata configures).decodeChunk w
  else s

/-- An open decoder has an output; a throw is caught. -/
def onDecodedAudio (s : AudioPage α) (decoder : Nat) (audio : DecodedAudio α) : AudioPage α :=
  match s.decoders[decoder]? with
  | none => s
  | some d =>
      if d.state = .configured then
        s.postPcmToWorklet maxChannels ⟨audio.planes.length, audio.sampleRate⟩
          ⟨.decoded audio, audio.planes⟩
      else s

/-- The part of `cleanupSession` that is about sound. -/
def cleanupSession (s : AudioPage α) : AudioPage α :=
  let s :=
    if s.audioDecoder.isSome then
      { s.closeDecoder with
        decoderCodec := none, decoderRate := 0, decoderChannels := 0, audioPts := 0 }
    else s
  let s := { s.disconnectNode with audioWorkletNode := none }
  if s.audioContext.isSome then
    { s with audioContext := none, workletReady := false, audioFormat := none }
  else s

def step (s : AudioPage α) : AudioPageEvent α → AudioPage α
  | .initContext made => s.initAudioContext made
  | .moduleLoaded context => s.moduleLoaded context
  | .moduleFailed context => { s with loading := s.loading.erase context }
  | .wave w configures => s.audioData ops maxChannels w configures
  | .decoded decoder audio => s.onDecodedAudio maxChannels decoder audio
  | .decoderError decoder =>
      { s with decoders := s.decoders.modify decoder AudioDecoder.close }
  | .cleanupSession => s.cleanupSession

end AudioPage

end WasmRdp
