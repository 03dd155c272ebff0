import WasmRdp.Lib.Sink
import WasmRdp.TlsReady

/-!
# The relay

`handle_ws` and `run_tls_relay` of `server/src/main.rs`: the relay copies
between a WebSocket and a TCP stream until the client asks for TLS, does the
handshake, and copies between the WebSocket and the TLS stream from then on.

A `RelayEvent` is one completion of something the relay awaits. In the
first loop a message, or a chunk read from TCP, is taken only when the write
of the one before is through; the two halves of `run_tls_relay` run
concurrently, each with its own write in progress. A future that `select!`
drops leaves no trace: a message or a chunk is taken when it is an event.
`fromStr` stands for `serde_json::from_str`.

The three ends of the relay are `Sink`s: what was written to TCP, to TLS and to
the WebSocket, with the write in progress. A byte stream accepts a write in
parts and the WebSocket accepts one message at a time, and while a write is
pending the half that made it takes nothing else.

`step` is partial. It gives `none` for an event that the relay does not await
in its state, such as a chunk of TLS before the handshake, so that a run is a
list of events of which each was awaited. An event may also be a failure or
the end of either side; the relay then stops, in whatever phase it is.
-/

namespace WasmRdp

open Sinks

/-! ## Messages -/

/-- `serde_json::Value`, as far as the relay looks into it. -/
inductive Value where
  | string (s : String)
  | object (map : List (String × Value))
  /-- Null, a boolean, a number or an array. -/
  | other

def Value.get (key : String) : Value → Option Value
  | .object map => map.lookup key
  | _ => none

def Value.asStr : Value → Option String
  | .string s => some s
  | _ => none

/-- What `ws_read.next()` yields at the relay; `ended` is its `None`. -/
inductive ClientMessage where
  | binary (data : List UInt8)
  | text (text : String)
  | ping
  | pong
  | close
  | error
  | ended

/-- A message to the client. -/
inductive RelayMessage where
  | binary (data : List UInt8)
  | text (text : String)
  deriving DecidableEq

/-- `peer_certificate()` of the TLS stream, and `to_der()` of what it
returns. -/
inductive PeerCertificate where
  | error
  | absent
  | present (der : Option (List UInt8))

/-- The certificate for the client, empty when there is none. -/
def serverCertDer : PeerCertificate → List UInt8
  | .error | .absent => []
  | .present der => der.getD []

inductive RelayEvent where
  /-- `ws_read.next()` -/
  | fromClient (m : ClientMessage)
  /-- `read(&mut buf)` of the TCP or TLS stream; empty at its end -/
  | fromServer (data : List UInt8)
  | readFailed
  /-- The stream takes `n` more bytes of the pending `write_all`. -/
  | wrote (n : Nat)
  | writeFailed
  /-- The pending `ws_write.send` completes. -/
  | sent
  | sendFailed
  /-- `tls_connector.connect` -/
  | connected (peer : PeerCertificate)
  | connectFailed (e : String)

section

variable (fromStr : String → Option Value)

/-- The test for the upgrade command. -/
def isTlsUpgrade (text : String) : Bool :=
  match fromStr text with
  | none => false
  | some json => (json.get "cmd").bind Value.asStr == some "tls_upgrade"

/-! ## The relay -/

inductive Phase where
  /-- The `select!` loop of `handle_ws`. -/
  | raw
  | handshake
  /-- Sending `tls_ready`. -/
  | ready
  /-- Sending `tls_error`. -/
  | failed
  /-- `run_tls_relay` -/
  | tls
  | closed
  deriving DecidableEq, Repr

/-- Neither side has closed and nothing has failed. -/
def Phase.Live (p : Phase) : Prop := p ≠ .failed ∧ p ≠ .closed

structure Relay where
  phase : Phase
  tcp : Sink UInt8
  tls : Sink UInt8
  ws : Sink RelayMessage

namespace Relay

def start : Relay := ⟨.raw, .empty, .empty, .empty⟩

def close (r : Relay) : Relay := { r with phase := .closed }

/-- A message in the first loop. -/
def rawMessage (r : Relay) : ClientMessage → Relay
  | .binary data => { r with tcp := r.tcp.send data }
  | .text text =>
      if isTlsUpgrade fromStr text then { r with phase := .handshake } else r
  | .close | .ended | .error => r.close
  | .ping | .pong => r

/-- The `select!` loop of `handle_ws`. -/
def rawStep (r : Relay) : RelayEvent → Option Relay
  | .fromClient m =>
      if r.tcp.Idle ∧ r.ws.Idle then some (r.rawMessage fromStr m) else none
  | .fromServer data =>
      if r.tcp.Idle ∧ r.ws.Idle ∧ data.length ≤ 65536 then
        if data = [] then some r.close
        else some { r with ws := r.ws.send [.binary data] }
      else none
  | .readFailed => if r.tcp.Idle ∧ r.ws.Idle then some r.close else none
  | .wrote n =>
      if 0 < n ∧ n ≤ r.tcp.pending.length then
        some { r with tcp := r.tcp.accept n }
      else none
  | .writeFailed => if r.tcp.Idle then none else some r.close
  | .sent => if r.ws.Idle then none else some { r with ws := r.ws.accept 1 }
  | .sendFailed => if r.ws.Idle then none else some r.close
  | .connected _ | .connectFailed _ => none

/-- The TLS handshake of `handle_ws`. -/
def handshakeStep (r : Relay) : RelayEvent → Option Relay
  | .connected peer =>
      some { r with phase := .ready,
                    ws := r.ws.send [.text (tlsReady (serverCertDer peer))] }
  | .connectFailed e =>
      some { r with phase := .failed, ws := r.ws.send [.text (tlsError e)] }
  | _ => none

/-- The one message that `handle_ws` sends after the handshake. -/
def answerStep (next : Phase) (r : Relay) : RelayEvent → Option Relay
  | .sent => some { r with phase := next, ws := r.ws.accept 1 }
  | .sendFailed => some r.close
  | _ => none

/-- A message in `ws_to_tls`. -/
def tlsMessage (r : Relay) : ClientMessage → Relay
  | .binary data => { r with tls := r.tls.send data }
  | .close | .ended | .error => r.close
  | .text _ | .ping | .pong => r

/-- `run_tls_relay`; the relay ends with the first half that does. -/
def tlsStep (r : Relay) : RelayEvent → Option Relay
  | .fromClient m => if r.tls.Idle then some (r.tlsMessage m) else none
  | .fromServer data =>
      if r.ws.Idle ∧ data.length ≤ 65536 then
        if data = [] then some r.close
        else some { r with ws := r.ws.send [.binary data] }
      else none
  | .readFailed => if r.ws.Idle then some r.close else none
  | .wrote n =>
      if 0 < n ∧ n ≤ r.tls.pending.length then
        some { r with tls := r.tls.accept n }
      else none
  | .writeFailed => if r.tls.Idle then none else some r.close
  | .sent => if r.ws.Idle then none else some { r with ws := r.ws.accept 1 }
  | .sendFailed => if r.ws.Idle then none else some r.close
  | .connected _ | .connectFailed _ => none

/-- An event; `none` where the relay does not await it. -/
def step (r : Relay) (ev : RelayEvent) : Option Relay :=
  match r.phase with
  | .raw => r.rawStep fromStr ev
  | .handshake => r.handshakeStep ev
  | .ready => r.answerStep .tls ev
  | .failed => r.answerStep .closed ev
  | .tls => r.tlsStep ev
  | .closed => none

def run (r : Relay) (evs : List RelayEvent) : Option Relay :=
  evs.foldlM (step fromStr) r

end Relay

end

end WasmRdp
