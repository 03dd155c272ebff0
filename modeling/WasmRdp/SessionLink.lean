import WasmRdp.RelayedTask

/-!
# The bytes of a session

`run_session` and the relay after the upgrade: the page's reads on one side,
`run_tls_relay` with the TLS stream of the server on the other, and the
WebSocket between them. The server's stream is cut into chunks where the relay
reads it, and the chunks into frames where the page does; a read of the page is
dropped whenever an input event wins the `select!`. The page's bytes go the
other way.

The server's bytes are always in one of four places: in the results of the page's
reads, in its buffer and its WebSocket, on their way there, or not yet read by the
relay. An event moves bytes between two of them, which is one lemma for the relay
(`Secured.passes`) and one for the page (`Inv.arrive` and what `ReadTask` says of
a poll); `always_framed` puts them together. What the frames are is said by
`Framing.frames` of the server's stream. The dump in an error of a read is left
out of that, since it tells how much had come.

A WebSocket that fails ends `run_session`, so nothing is read after it.
-/

namespace WasmRdp

open Framing Sinks

structure SessionLink where
  task : ReadTask
  /-- what the page has sent, message by message -/
  sent : List (List UInt8)
  /-- the part of it that the relay has not taken -/
  toRelay : List (List UInt8)
  relay : Relay
  /-- how many messages of the relay have come to the page -/
  arrived : Nat
  /-- what the relay has read from the server -/
  served : List UInt8

inductive SessionLinkEvent where
  /-- the pending read of the page, or the next one -/
  | poll
  | drop
  | arrive
  | send (data : List UInt8)
  | relayTakes
  /-- the relay's WebSocket is pinged, fails or is closed -/
  | relayHears (m : ClientMessage)
  | relay (ev : RelayEvent)

/-- What the relay reads from the server in an event. -/
def RelayEvent.chunk : RelayEvent → List UInt8
  | fromServer data => data
  | _ => []

namespace SessionLink

/-- After an upgrade that has left nothing on the way. -/
def start (calls : List FrameReader) : SessionLink where
  task := .start calls
  sent := []
  toRelay := []
  relay := { Relay.start with phase := .tls }
  arrived := 0
  served := []

variable (fromStr : String → Option Value)

/-- An event that cannot happen changes nothing. -/
def relayStep (s : SessionLink) (ev : RelayEvent) : SessionLink :=
  match s.relay.step fromStr ev with
  | none => s
  | some relay => { s with relay, served := s.served ++ ev.chunk }

def step (s : SessionLink) : SessionLinkEvent → SessionLink
  | .poll => { s with task := s.task.step .poll }
  | .drop => { s with task := s.task.step .drop }
  | .arrive =>
      match s.relay.ws.out[s.arrived]? with
      | none => s
      | some m => { s with task := s.task.step (.arrive m.toWs), arrived := s.arrived + 1 }
  | .send data => { s with sent := s.sent ++ [data], toRelay := s.toRelay ++ [data] }
  | .relayTakes =>
      match s.toRelay with
      | [] => s
      | data :: toRelay =>
          match s.relay.step fromStr (.fromClient (.binary data)) with
          | none => s
          | some relay => { s with toRelay, relay }
  | .relayHears m => if m.isControl then s.relayStep fromStr (.fromClient m) else s
  | .relay ev => if ev.isFromClient then s else s.relayStep fromStr ev

def run (s : SessionLink) (events : List SessionLinkEvent) : SessionLink :=
  events.foldl (step fromStr) s

/-- The bytes of the server that are on their way to the page. -/
def onTheWay (s : SessionLink) : List UInt8 :=
  bytesOf ((s.relay.ws.all.map RelayMessage.toWs).drop s.arrived)

/-- The results, without the dumps in their errors. -/
def undumped (rs : List ReadResult) : List ReadResult :=
  rs.map (Except.mapError ReadError.undumped)

/-- No byte is lost, doubled or out of place in either direction, also when the
relay has stopped; and the reads have returned frames of the server's stream,
all of them once nothing is on the way and the page waits. -/
structure Safe (calls : List FrameReader) (s : SessionLink) : Prop where
  toServer : s.sent.flatten = s.relay.tls.all ++ s.toRelay.flatten
  toPage : s.served = s.task.results.flatMap payload ++
    (s.task.framed.buf ++ bytesOf s.task.framed.wsRead) ++ s.onTheWay
  frames : undumped s.task.results <+: undumped (Framing.frames calls s.served)
  complete : s.onTheWay = [] → s.task.Waiting →
    undumped s.task.results = undumped (Framing.frames calls s.served)

end SessionLink

/-! ## The relay -/

/-- The bytes of the messages to the page. -/
def wsBytes (ms : List RelayMessage) : List UInt8 := bytesOf (ms.map RelayMessage.toWs)

theorem wsBytes_append (ms ms' : List RelayMessage) :
    wsBytes (ms ++ ms') = wsBytes ms ++ wsBytes ms' := by
  rw [wsBytes, List.map_append, bytesOf_append]
  rfl

namespace Relay

/-- What an event adds to the streams of a relay that is through its handshake. -/
structure Passes (r : Relay) (ev : RelayEvent) (r' : Relay) : Prop where
  tls : r'.tls.all = r.tls.all ++ binaries ev.message
  ws : wsBytes r'.ws.all = wsBytes r.ws.all ++ ev.chunk
  out : r.ws.out <+: r'.ws.out

variable {fromStr : String → Option Value} {r r' : Relay} {ev : RelayEvent}

theorem passes_nothing (hmessage : binaries ev.message = []) (hchunk : ev.chunk = [])
    (htls : r'.tls.all = r.tls.all) (hws : r'.ws.all = r.ws.all) (hout : r.ws.out <+: r'.ws.out) :
    r.Passes ev r' := by
  refine ⟨?_, ?_, hout⟩
  · rw [hmessage, htls, List.append_nil]
  · rw [hchunk, hws, List.append_nil]

theorem passes_tlsStep (hstep : r.tlsStep ev = some r') : r.Passes ev r' := by
  have hout := List.prefix_refl r.ws.out
  cases ev with
  | fromClient m =>
      obtain ⟨hidle, ⟨⟩⟩ := Option.ite_none_right_eq_some.mp hstep
      cases m with
      | binary data =>
          refine ⟨?_, (List.append_nil _).symm, hout⟩
          exact (hidle.all_send data).trans (congrArg _ (List.append_nil data).symm)
      | text _ | ping | pong => exact passes_nothing rfl rfl rfl rfl hout
      | close | error | ended => exact passes_nothing rfl rfl rfl rfl hout
  | fromServer data =>
      obtain ⟨hidle, hread⟩ := Option.ite_none_right_eq_some.mp hstep
      split at hread
      · rename_i hnil
        cases hread
        exact passes_nothing rfl hnil rfl rfl hout
      · cases hread
        refine ⟨(List.append_nil _).symm, ?_, hout⟩
        have hall : (r.ws.send [RelayMessage.binary data]).all = r.ws.all ++ [.binary data] :=
          hidle.1.all_send _
        rw [hall, wsBytes_append]
        exact congrArg _ (List.append_nil data)
  | wrote n =>
      obtain ⟨-, ⟨⟩⟩ := Option.ite_none_right_eq_some.mp hstep
      exact passes_nothing rfl rfl (r.tls.all_accept n) rfl hout
  | sent =>
      obtain ⟨-, ⟨⟩⟩ := Option.ite_none_left_eq_some.mp hstep
      exact passes_nothing rfl rfl rfl (r.ws.all_accept 1) (List.prefix_append ..)
  | readFailed =>
      obtain ⟨-, ⟨⟩⟩ := Option.ite_none_right_eq_some.mp hstep
      exact passes_nothing rfl rfl rfl rfl hout
  | writeFailed | sendFailed =>
      obtain ⟨-, ⟨⟩⟩ := Option.ite_none_left_eq_some.mp hstep
      exact passes_nothing rfl rfl rfl rfl hout
  | connected _ | connectFailed _ => cases hstep

theorem Secured.passes (h : r.Secured) (hstep : r.step fromStr ev = some r') : r.Passes ev r' := by
  rcases h with hphase | hphase <;> rw [Relay.step, hphase] at hstep
  · exact passes_tlsStep hstep
  · cases hstep

end Relay

/-! ## Runs -/

/-- The page has what has arrived of the relay's messages, whose bytes are the
server's. -/
structure SessionLink.Inv (calls : List FrameReader) (s : SessionLink) : Prop where
  secured : s.relay.Secured
  toServer : s.sent.flatten = s.relay.tls.all ++ s.toRelay.flatten
  served : s.served = wsBytes s.relay.ws.all
  arrived : s.arrived ≤ s.relay.ws.out.length
  task : ReadTask.Inv (fun e => some e.undumped) calls (wsBytes (s.relay.ws.out.take s.arrived))
    s.task

namespace SessionLink

variable {calls : List FrameReader} {fromStr : String → Option Value} {s : SessionLink}

theorem inv_start (hcalls : ∀ F ∈ calls, F.LawfulUpTo fun e => some e.undumped) :
    (start calls).Inv calls :=
  ⟨.inl rfl, rfl, rfl, Nat.zero_le _, ReadTask.Inv.start hcalls⟩

/-- An event of the relay, with the message that is next or with none. -/
theorem Inv.relay (h : s.Inv calls) {ev : RelayEvent} {relay : Relay}
    {toRelay : List (List UInt8)}
    (hnext : s.toRelay.flatten = binaries ev.message ++ toRelay.flatten)
    (hstep : s.relay.step fromStr ev = some relay) :
    ({ s with toRelay, relay, served := s.served ++ ev.chunk } : SessionLink).Inv calls := by
  obtain ⟨htls, hws, hout⟩ := h.secured.passes hstep
  refine ⟨h.secured.step hstep, ?_, ?_, h.arrived.trans hout.length_le, ?_⟩
  · rw [h.toServer, hnext, htls, List.append_assoc]
  · rw [h.served, hws]
  · obtain ⟨more, hmore⟩ := hout
    have htake : relay.ws.out.take s.arrived = s.relay.ws.out.take s.arrived := by
      rw [← hmore, List.take_append_of_le_length h.arrived]
    rw [htake]
    exact h.task

theorem Inv.relayStep (h : s.Inv calls) {ev : RelayEvent} (hev : ev.message = []) :
    (s.relayStep fromStr ev).Inv calls := by
  rw [SessionLink.relayStep]
  cases hstep : s.relay.step fromStr ev with
  | none => exact h
  | some relay => exact h.relay (by rw [hev]; rfl) hstep

theorem toWs_plain (m : RelayMessage) : m.toWs.Plain := by
  cases m <;> trivial

theorem Inv.arrive (h : s.Inv calls) {m : RelayMessage} (hm : s.relay.ws.out[s.arrived]? = some m) :
    ({ s with task := s.task.step (.arrive m.toWs), arrived := s.arrived + 1 } :
      SessionLink).Inv calls := by
  have hlt : s.arrived < s.relay.ws.out.length := (List.getElem?_eq_some_iff.mp hm).1
  refine ⟨h.secured, h.toServer, h.served, hlt, ?_⟩
  have htake : s.relay.ws.out.take (s.arrived + 1) = s.relay.ws.out.take s.arrived ++ [m] := by
    rw [List.take_add_one, hm]
    rfl
  have harrive := h.task.arrive (toWs_plain m)
  rw [htake, wsBytes_append]
  exact harrive

theorem Inv.step (h : s.Inv calls) (ev : SessionLinkEvent) : (s.step fromStr ev).Inv calls := by
  cases ev with
  | poll => exact ⟨h.secured, h.toServer, h.served, h.arrived, h.task.poll⟩
  | drop =>
      have htask := h.task
      exact ⟨h.secured, h.toServer, h.served, h.arrived, htask.lawful, htask.plain, nofun,
        htask.bytes, htask.rxBytes, htask.frames, htask.seen⟩
  | arrive =>
      rw [SessionLink.step]
      cases hout : s.relay.ws.out[s.arrived]? with
      | none => exact h
      | some m => exact h.arrive hout
  | send data =>
      refine ⟨h.secured, ?_, h.served, h.arrived, h.task⟩
      simp only [SessionLink.step, List.flatten_append, h.toServer, List.append_assoc]
  | relayTakes =>
      rw [SessionLink.step]
      split
      · exact h
      · rename_i data toRelay htoRelay
        cases hstep : s.relay.step fromStr (.fromClient (.binary data)) with
        | none => exact h
        | some relay =>
            have hnext : s.toRelay.flatten = data ++ toRelay.flatten := by rw [htoRelay]; rfl
            have hmessage : binaries (RelayEvent.fromClient (.binary data)).message = data :=
              List.append_nil data
            have hinv := h.relay (hnext.trans (by rw [hmessage])) hstep
            have hchunk : s.served ++ (RelayEvent.fromClient (.binary data)).chunk = s.served :=
              List.append_nil _
            rwa [hchunk] at hinv
  | relayHears m =>
      rw [SessionLink.step]
      split
      · rename_i hcontrol
        exact h.relayStep (message_of_isControl hcontrol)
      · exact h
  | relay ev =>
      rw [SessionLink.step]
      split
      · exact h
      · rename_i hclient
        refine h.relayStep ?_
        cases ev with
        | fromClient m => exact absurd rfl hclient
        | _ => rfl

theorem Inv.run (h : s.Inv calls) (events : List SessionLinkEvent) :
    (s.run fromStr events).Inv calls := by
  induction events generalizing s with
  | nil => exact h
  | cons ev events ih => exact ih (h.step ev)

end SessionLink

end WasmRdp
