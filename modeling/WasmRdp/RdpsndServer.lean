import WasmRdp.RdpsndReplyCodec

/-!
# The server of the audio channel

`RdpsndServer` of `crates/ironrdp-rdpsnd/src/server.rs`: the negotiation, which
`process` takes one payload of the client at a time, and what the application
asks for, `wave`, `set_volume` and `close`. What `RdpsndServerHandler::start`
answers is a function of the client's formats.

The states are those of the source, from `start` over the client's formats,
its quality mode and the confirm of the training to `ready`, with `stop` after
a message that is not the one awaited. A method of the application does not
look at the state but at what it needs: a wave needs the format that was
chosen, a volume the flags of the client's answer, and without them it is an
error. The `expect` at the end of the negotiation panics where there are no
client's formats (`Processed`).

The timestamp of a training is a random number in the source. It is not looked
at again, so any will do.
-/

namespace WasmRdp

open Decode

structure RdpsndServerHandler where
  getFormats : List AudioFormat
  start : ClientAudioFormatPdu → Option UInt16

inductive RdpsndServerState where
  | start
  | waitingForClientFormats
  | waitingForQualityMode
  | waitingForTrainingConfirm
  | ready
  | stop
  deriving DecidableEq

structure RdpsndServer where
  handler : RdpsndServerHandler
  state : RdpsndServerState
  clientFormat : Option ClientAudioFormatPdu
  qualityMode : Option QualityMode
  blockNo : UInt8
  formatNo : Option UInt16

/-- The PDUs that a call answers with. -/
abbrev ServerReply := Except PduError (List ServerAudioOutputPdu)

/-- What `process` comes to; `expect` panics. -/
inductive Processed where
  | done (server : RdpsndServer) (reply : ServerReply)
  | panicked

def AudioFormatFlags.VOLUME : UInt32 := 0x00000002

namespace RdpsndServer

def new (handler : RdpsndServerHandler) : RdpsndServer where
  handler
  state := .start
  clientFormat := none
  qualityMode := none
  blockNo := 0
  formatNo := none

def clientFormatPdu (s : RdpsndServer) : Except PduError ClientAudioFormatPdu :=
  match s.clientFormat with
  | some clientFormat => .ok clientFormat
  | none => .error (.other "invalid state, client format not yet received")

def version (s : RdpsndServer) : Except PduError AudioVersion := do
  return (← s.clientFormatPdu).version

def flags (s : RdpsndServer) : Except PduError UInt32 := do
  return (← s.clientFormatPdu).flags

/-- A random number for a timestamp. -/
def training : TrainingPdu where
  timestamp := 4231
  packSize := 0
  data := []

def trainingPdu : ServerReply := return [.training training]

def wave (s : RdpsndServer) (data : List UInt8) (ts : UInt32) : RdpsndServer × ServerReply :=
  match s.version with
  | .error e => (s, .error e)
  | .ok version =>
      match s.formatNo with
      | none => (s, .error (.other "invalid state - no format"))
      | some formatNo =>
          let msg : ServerAudioOutputPdu :=
            if AudioVersion.v8.toU16 ≤ version.toU16 then
              .wave2 { blockNo := s.blockNo, timestamp := 0, audioTimestamp := ts, formatNo, data }
            else .wave { blockNo := s.blockNo, formatNo, timestamp := 0, data }
          ({ s with blockNo := s.blockNo + 1 }, .ok [msg])

def setVolume (s : RdpsndServer) (volumeLeft volumeRight : UInt16) : ServerReply := do
  if (← s.flags) &&& AudioFormatFlags.VOLUME ≠ AudioFormatFlags.VOLUME then
    .error (.other "client doesn't support volume")
  else return [.volume { volumeLeft, volumeRight }]

def close : ServerReply := return [.close]

/-- A PDU that is not the one awaited. -/
def invalidPdu (s : RdpsndServer) : Processed := .done { s with state := .stop } (.ok [])

/-- The state machine, on a PDU that is decoded. -/
def processPdu (s : RdpsndServer) (pdu : ClientAudioOutputPdu) : Processed :=
  match s.state with
  | .waitingForClientFormats =>
      match pdu with
      | .audioFormat af =>
          let s := { s with clientFormat := some af }
          match s.version with
          | .error e => .done s (.error e)
          | .ok version =>
              if AudioVersion.v6.toU16 ≤ version.toU16 then
                .done { s with state := .waitingForQualityMode } (.ok [])
              else .done { s with state := .waitingForTrainingConfirm } trainingPdu
      | _ => s.invalidPdu
  | .waitingForQualityMode =>
      match pdu with
      | .qualityMode mode =>
          .done { s with qualityMode := some mode, state := .waitingForTrainingConfirm } trainingPdu
      | _ => s.invalidPdu
  | .waitingForTrainingConfirm =>
      match pdu with
      | .trainingConfirm .. =>
          match s.clientFormat with
          | none => .panicked
          | some clientFormat =>
              .done { s with state := .ready, formatNo := s.handler.start clientFormat } (.ok [])
      | _ => s.invalidPdu
  | .ready => .done s (.ok [])
  | .start | .stop => .done s (.ok [])

def process (s : RdpsndServer) (payload : List UInt8) : Processed :=
  match ClientAudioOutputPdu.decode.run payload with
  | .error e => .done s (.error (.decode e))
  | .ok (pdu, _) => s.processPdu pdu

/-- The formats that the server offers. -/
def offer (handler : RdpsndServerHandler) : ServerAudioFormatPdu where
  version := .v8
  formats := handler.getFormats

/-- `SvcProcessor::start` -/
def startChannel (s : RdpsndServer) : RdpsndServer × ServerReply :=
  ({ s with state := .waitingForClientFormats }, .ok [.audioFormat (offer s.handler)])

end RdpsndServer

end WasmRdp
