import Mathlib.Algebra.Order.BigOperators.Group.List
import WasmRdp.RdpsndRun
import WasmRdp.RdpsndServer

/-!
# A server and a client of the audio channel

`RdpsndServer` and `Rdpsnd` over a channel that keeps the order of what is
sent in either direction. An event hands one message over or is a call of the
server's application. Nothing is assumed of their order: a volume or a close
may overtake the negotiation, and waves are confirmed while others are sent.

The queues hold encoded messages. `Inv` names the PDUs that they are encodings
of, and what has arrived; by the round trip of `RdpsndCodec` a delivery is
then a step of the receiver on a PDU. The negotiation is the relation
`Handshake` between the two states and the messages on their way. Between
those may stand what the application has sent: in any state a volume or a
close (`Quiet`), and waves only when the negotiation is over. So the next
message for either party is known from the states (`Handshake.next`), and
there is one lemma for each (`Inv.deliver_offer` to `Inv.deliver_confirm`).
`always_safe` reads off what holds in every state of a run.

That a run settles is a count. A message weighs as many deliveries as it takes
until it and everything it causes have been answered; five are there for the
negotiation at the start, and a call of the application adds at most two. A
delivery takes one away, and a round, one message in each direction, makes one
unless both queues are empty. Then nothing is left to do (`Inv.settled`), and
`run_settles` puts this together. The offer of the server has to fit the
length of its header, for otherwise it is never sent.
-/

namespace WasmRdp

open Decode

/-- The messages of a reply, which go out if all of them can be encoded. -/
def sendAll {α : Type} (encode : α → Except Failure (List UInt8)) :
    Except PduError (List α) → List (List UInt8)
  | .error _ => []
  | .ok msgs => (msgs.mapM encode).toOption.getD []

/-- The confirm that a server in its `Ready` state logs. -/
def RdpsndServer.confirmed (s : RdpsndServer) (payload : List UInt8) : List WaveConfirmPdu :=
  match s.state, ClientAudioOutputPdu.decode.run payload with
  | .ready, .ok (.waveConfirm pdu, _) => [pdu]
  | _, _ => []

/-- Both parties, what is between them, and what has come of the run. -/
structure RdpsndLink where
  server : RdpsndServer
  client : Rdpsnd
  toClient : List (List UInt8)
  toServer : List (List UInt8)
  /-- the PDUs that the calls of the application made -/
  made : List ServerAudioOutputPdu
  calls : List HandlerCall
  confirmed : List WaveConfirmPdu
  deliveries : Nat
  asked : Nat
  panicked : Bool

inductive RdpsndEvent where
  | toClient
  | toServer
  | wave (data : List UInt8) (ts : UInt32)
  | setVolume (volumeLeft volumeRight : UInt16)
  | close

namespace RdpsndLink

def start (server : RdpsndServerHandler) (client : RdpsndClientHandler) : RdpsndLink :=
  let (server, reply) := (RdpsndServer.new server).startChannel
  { server
    client := .new client
    toClient := sendAll ServerAudioOutputPdu.encode reply
    toServer := []
    made := []
    calls := []
    confirmed := []
    deliveries := 0
    asked := 0
    panicked := false }

/-- The first message in the queue of the client. -/
def deliverToClient (s : RdpsndLink) : RdpsndLink :=
  match s.toClient with
  | [] => s
  | payload :: toClient =>
      let handled := s.client.handlePdu payload
      { s with
        client := handled.client
        toClient
        toServer := s.toServer ++ sendAll ClientAudioOutputPdu.encode handled.reply
        calls := s.calls ++ handled.calls
        deliveries := s.deliveries + 1 }

/-- The first message in the queue of the server. -/
def deliverToServer (s : RdpsndLink) : RdpsndLink :=
  match s.toServer with
  | [] => s
  | payload :: toServer =>
      match s.server.process payload with
      | .panicked => { s with toServer, deliveries := s.deliveries + 1, panicked := true }
      | .done server reply =>
          { s with
            server
            toClient := s.toClient ++ sendAll ServerAudioOutputPdu.encode reply
            toServer
            confirmed := s.confirmed ++ s.server.confirmed payload
            deliveries := s.deliveries + 1 }

/-- What a call of the application answers is sent. -/
def ask (s : RdpsndLink) (server : RdpsndServer) (reply : ServerReply) : RdpsndLink :=
  { s with
    server
    toClient := s.toClient ++ sendAll ServerAudioOutputPdu.encode reply
    made := s.made ++ reply.toOption.getD []
    asked := s.asked + 1 }

def step (s : RdpsndLink) : RdpsndEvent → RdpsndLink
  | .toClient => s.deliverToClient
  | .toServer => s.deliverToServer
  | .wave data ts => s.ask (s.server.wave data ts).1 (s.server.wave data ts).2
  | .setVolume left right => s.ask s.server (s.server.setVolume left right)
  | .close => s.ask s.server RdpsndServer.close

/-- What was made and could be encoded. -/
def sent (s : RdpsndLink) : List ServerAudioOutputPdu :=
  s.made.filter fun pdu => pdu.bodySize ≤ 65535

end RdpsndLink

/-! ## What the channel is for -/

/-- A format as a client reads it. -/
def AudioFormat.received (f : AudioFormat) : AudioFormat :=
  { f with data := f.data.filter (· ≠ []) }

/-- The formats that both know by their numbers. -/
def agreedFormats (server : RdpsndServerHandler) (client : RdpsndClientHandler) :
    List AudioFormat :=
  supportedOf client.supportedFormats (server.getFormats.map AudioFormat.received)

def agreedAnswer (server : RdpsndServerHandler) (client : RdpsndClientHandler) :
    ClientAudioFormatPdu where
  version := .v8
  flags := client.flags ||| AudioFormatFlags.ALIVE
  formats := agreedFormats server client
  volumeLeft := 0xFFFF
  volumeRight := 0xFFFF
  pitch := 0x00010000
  dgramPort := 0

namespace ServerAudioOutputPdu

/-- What the client's handler is told. -/
def effect (formats : List AudioFormat) : ServerAudioOutputPdu → List HandlerCall
  | wave2 pdu => formats[pdu.formatNo.toNat]?.toList.map fun format =>
      .wave format pdu.audioTimestamp pdu.data
  | volume pdu => [.setVolume pdu]
  | close => [.close]
  | _ => []

/-- What the server is answered. -/
def confirm (formats : List AudioFormat) : ServerAudioOutputPdu → List WaveConfirmPdu
  | wave2 pdu => formats[pdu.formatNo.toNat]?.toList.map fun _ => ⟨pdu.timestamp, pdu.blockNo⟩
  | _ => []

def wave2? : ServerAudioOutputPdu → Option Wave2Pdu
  | wave2 pdu => some pdu
  | _ => none

end ServerAudioOutputPdu

/-- The waves of a run, in the order in which they were made. -/
def RdpsndLink.waves (s : RdpsndLink) : List Wave2Pdu :=
  s.made.filterMap ServerAudioOutputPdu.wave2?

/-- In whatever state the negotiation is. -/
structure RdpsndLink.Safe (server : RdpsndServerHandler) (client : RdpsndClientHandler)
    (s : RdpsndLink) : Prop where
  clientRuns : s.client.state ≠ .stop
  serverRuns : s.server.state ≠ .stop
  unpanicked : s.panicked = false
  /-- both have the formats, or have not heard of them -/
  agreed : s.server.clientFormat = none ∨
    s.server.clientFormat = some (agreedAnswer server client) ∧
    s.client.negotiatedFormats = agreedFormats server client
  /-- a wave has the format that was chosen, and a number for each wave made -/
  numbered : ∀ k wave, s.waves[k]? = some wave → wave.blockNo = UInt8.ofNat k ∧
    server.start (agreedAnswer server client) = some wave.formatNo
  /-- the handler was told what has arrived, and the server has as many of the
  confirms as have arrived there -/
  delivered : ∃ arrived, arrived <+: s.sent ∧
    s.calls = arrived.flatMap (ServerAudioOutputPdu.effect (agreedFormats server client)) ∧
    s.confirmed <+: arrived.flatMap (ServerAudioOutputPdu.confirm (agreedFormats server client))

/-- Nothing is left to do. -/
structure RdpsndLink.Settled (server : RdpsndServerHandler) (client : RdpsndClientHandler)
    (s : RdpsndLink) : Prop where
  clientReady : s.client.state = .ready
  serverReady : s.server.state = .ready
  calls : s.calls =
    s.sent.flatMap (ServerAudioOutputPdu.effect (agreedFormats server client))
  confirmed : s.confirmed =
    s.sent.flatMap (ServerAudioOutputPdu.confirm (agreedFormats server client))

/-! ## Messages -/

namespace ServerAudioOutputPdu

/-- What the application may have sent in any state. -/
def Quiet : ServerAudioOutputPdu → Prop
  | volume _ | close => True
  | _ => False

/-- What the application may have sent. -/
def isNotice : ServerAudioOutputPdu → Bool
  | wave2 _ | volume _ | close => true
  | _ => false

theorem Quiet.isNotice {pdu : ServerAudioOutputPdu} (h : pdu.Quiet) : pdu.isNotice = true := by
  cases pdu with
  | volume pdu => rfl
  | close => rfl
  | _ => exact h.elim

/-- How many messages are handed over until one has been answered. -/
def weight : ServerAudioOutputPdu → Nat
  | audioFormat _ => 5
  | training _ | wave2 _ => 2
  | _ => 1

theorem weight_pos (pdu : ServerAudioOutputPdu) : 0 < pdu.weight := by
  cases pdu <;> exact Nat.succ_pos _

theorem weight_le_of_isNotice {pdu : ServerAudioOutputPdu} (h : pdu.isNotice = true) :
    pdu.weight ≤ 2 := by
  cases pdu with
  | audioFormat pdu => exact absurd h Bool.false_ne_true
  | wave2 pdu => exact Nat.le_refl 2
  | training pdu => exact Nat.le_refl 2
  | _ => exact Nat.le_succ 1

theorem encode_notice {pdu : ServerAudioOutputPdu} (h : pdu.isNotice = true)
    (hfits : pdu.bodySize ≤ 65535) : pdu.encode = .ok pdu.bytes := by
  cases pdu with
  | wave2 pdu => exact encode_eq_ok trivial ⟨hfits, nofun⟩
  | volume pdu => exact encode_eq_ok trivial ⟨hfits, nofun⟩
  | close => exact encode_eq_ok trivial ⟨hfits, nofun⟩
  | _ => exact absurd h Bool.false_ne_true

end ServerAudioOutputPdu

/-- How many messages are handed over until one has been answered. -/
def ClientAudioOutputPdu.weight : ClientAudioOutputPdu → Nat
  | qualityMode _ => 3
  | _ => 1

theorem ClientAudioOutputPdu.weight_pos (pdu : ClientAudioOutputPdu) : 0 < pdu.weight := by
  cases pdu <;> exact Nat.succ_pos _

/-- Nothing is left where it would weigh something. -/
theorem eq_nil_of_sum_le_zero {α : Type} {weight : α → Nat} (hpos : ∀ a, 0 < weight a) {as : List α}
    (h : (as.map weight).sum ≤ 0) : as = [] := by
  cases as with
  | nil => rfl
  | cons a as =>
      have ha := hpos a
      rw [List.map_cons, List.sum_cons] at h
      omega

def ClientAudioOutputPdu.waveConfirm? : ClientAudioOutputPdu → Option WaveConfirmPdu
  | waveConfirm pdu => some pdu
  | _ => none

theorem filterMap_waveConfirm (confirms : List WaveConfirmPdu) :
    (confirms.map .waveConfirm).filterMap ClientAudioOutputPdu.waveConfirm? = confirms := by
  rw [List.filterMap_map]
  exact List.filterMap_some

theorem sum_weight_waveConfirm (confirms : List WaveConfirmPdu) :
    ((confirms.map .waveConfirm).map ClientAudioOutputPdu.weight).sum = confirms.length := by
  rw [List.map_map]
  exact (congrArg List.sum (List.map_const' ..)).trans (by simp)

theorem ServerAudioOutputPdu.confirm_lt_weight {pdu : ServerAudioOutputPdu}
    (h : pdu.isNotice = true) (formats : List AudioFormat) :
    (pdu.confirm formats).length < pdu.weight := by
  cases pdu with
  | wave2 pdu =>
      rw [confirm, List.length_map]
      cases formats[pdu.formatNo.toNat]? with
      | none => exact Nat.two_pos
      | some format => exact Nat.one_lt_two
  | volume pdu => exact Nat.one_pos
  | close => exact Nat.one_pos
  | _ => exact absurd h Bool.false_ne_true

theorem sendAll_ok {α : Type} {encode : α → Except Failure (List UInt8)} {bytes : α → List UInt8}
    {msgs : List α} (h : ∀ msg ∈ msgs, encode msg = .ok (bytes msg)) :
    sendAll encode (.ok msgs) = msgs.map bytes := by
  have hmapM : msgs.mapM encode = .ok (msgs.map bytes) := by
    induction msgs with
    | nil => rfl
    | cons msg msgs ih =>
        have hrest := ih fun msg' hmsg' => h msg' (List.mem_cons_of_mem _ hmsg')
        rw [List.mapM_cons, h msg (List.mem_cons_self ..), hrest]
        rfl
  rw [sendAll, hmapM]
  rfl

theorem sendAll_notice {pdu : ServerAudioOutputPdu} (h : pdu.isNotice = true) :
    sendAll ServerAudioOutputPdu.encode (.ok [pdu]) =
      if pdu.bodySize ≤ 65535 then [pdu.bytes] else [] := by
  have hsized : pdu.Sized := by
    cases pdu with
    | cryptKey pdu => exact absurd h Bool.false_ne_true
    | waveEncrypt pdu => exact absurd h Bool.false_ne_true
    | _ => trivial
  by_cases hfits : pdu.bodySize ≤ 65535
  · rw [if_pos hfits]
    refine sendAll_ok fun msg hmsg => ?_
    rw [List.mem_singleton.mp hmsg]
    exact ServerAudioOutputPdu.encode_notice h hfits
  · rw [if_neg hfits, sendAll, List.mapM_cons]
    cases hencode : pdu.encode with
    | error e => rfl
    | ok bs => exact absurd ((ServerAudioOutputPdu.encode_eq_ok_iff hsized).mp hencode).1.1 hfits

section
variable (server : RdpsndServerHandler) (client : RdpsndClientHandler)

/-- The offer as a client reads it. -/
def receivedOffer : ServerAudioFormatPdu where
  version := .v8
  formats := server.getFormats.map AudioFormat.received

theorem cbSize_received (f : AudioFormat) : f.received.cbSize = f.cbSize := by
  obtain ⟨_, _, _, _, _, _, data⟩ := f
  rcases data with _ | _ | _ <;> rfl

theorem bytes_received (f : AudioFormat) : f.received.bytes = f.bytes := by
  obtain ⟨_, _, _, _, _, _, data⟩ := f
  rcases data with _ | _ | _ <;> rfl

theorem canonical_received (f : AudioFormat) : f.received.Canonical := by
  intro h
  have hne : ([] : List UInt8) ∈ f.data.filter (· ≠ []) := h
  rw [Option.mem_filter_iff] at hne
  simp at hne

theorem size_receivedOffer : (receivedOffer server).size = (RdpsndServer.offer server).size := by
  simp only [ServerAudioFormatPdu.size, receivedOffer, RdpsndServer.offer, List.map_map]
  congr 2
  refine List.map_congr_left fun f _ => ?_
  rw [Function.comp_apply, AudioFormat.size, AudioFormat.size, cbSize_received]

theorem bytes_receivedOffer : (ServerAudioOutputPdu.audioFormat (receivedOffer server)).bytes =
    (ServerAudioOutputPdu.audioFormat (RdpsndServer.offer server)).bytes := by
  have hsize := size_receivedOffer server
  simp only [ServerAudioOutputPdu.bytes, ServerAudioOutputPdu.bodySize,
    ServerAudioOutputPdu.pduSize, hsize, ServerAudioOutputPdu.bodyBytes]
  simp only [receivedOffer, RdpsndServer.offer, List.length_map, List.flatMap_map, bytes_received,
    ServerAudioOutputPdu.msgType]

/-- An answer has no more formats than the offer. -/
theorem size_agreedAnswer :
    (agreedAnswer server client).size ≤ (RdpsndServer.offer server).size := by
  have hsub : List.Sublist (agreedFormats server client) (receivedOffer server).formats :=
    List.filter_sublist
  have hsum := (hsub.map AudioFormat.size).sum_le_sum fun _ _ => Nat.zero_le _
  rw [← size_receivedOffer]
  exact Nat.add_le_add_left hsum 20

theorem canonical_agreedAnswer :
    (ClientAudioOutputPdu.audioFormat (agreedAnswer server client)).Canonical := by
  intro f hf
  obtain ⟨g, -, rfl⟩ := List.mem_map.mp (List.mem_filter.mp hf).1
  exact canonical_received g

end

/-! ## The parties, one message at a time -/

namespace Rdpsnd
variable {s : Rdpsnd} {pdu : ServerAudioOutputPdu}

/-- A message of which the client needs no second part. -/
theorem handlePdu_bytes (hpending : s.pendingWaveInfo = none) (hs : pdu.Sized)
    (hc : pdu.Canonical) (h : pdu.Encodable) (hwave : pdu.msgType ≠ SNDC_WAVE) :
    s.handlePdu pdu.bytes = s.handleDecoded pdu := by
  have hhead : ¬ (4 ≤ pdu.bytes.length ∧ pdu.bytes.head? = some SNDC_WAVE) := by
    rintro ⟨-, hhead⟩
    exact hwave (Option.some.inj hhead)
  have hdecode : ServerAudioOutputPdu.decode.run pdu.bytes = .ok (pdu, []) :=
    ServerAudioOutputPdu.decodesAll_bytes hs hc h
  unfold handlePdu
  rw [hpending]
  dsimp only
  rw [if_neg hhead, hdecode]

/-- What a client makes of a message, in the formats that it has agreed on. -/
structure Takes (s : Rdpsnd) (pdu : ServerAudioOutputPdu) (h : Handled) : Prop where
  calls : h.calls = pdu.effect s.negotiatedFormats
  sends : sendAll ClientAudioOutputPdu.encode h.reply =
    (pdu.confirm s.negotiatedFormats).map fun c => (ClientAudioOutputPdu.waveConfirm c).bytes
  ready : h.client.state = .ready
  formats : h.client.negotiatedFormats = s.negotiatedFormats
  handler : h.client.handler = s.handler
  pending : h.client.pendingWaveInfo = s.pendingWaveInfo

theorem takes_processReadyPdu (hs : s.state = .ready) (h : pdu.isNotice = true) :
    s.Takes pdu (s.processReadyPdu pdu) := by
  cases pdu with
  | wave2 pdu =>
      simp only [processReadyPdu, lookupFormat]
      cases hget : s.negotiatedFormats[pdu.formatNo.toNat]? with
      | none =>
          exact ⟨by simp [ServerAudioOutputPdu.effect, hget],
            by simp [ServerAudioOutputPdu.confirm, hget, sendAll], hs, rfl, rfl, rfl⟩
      | some format =>
          refine ⟨by simp [ServerAudioOutputPdu.effect, hget], ?_, hs, rfl, rfl, rfl⟩
          have hconfirm : (ServerAudioOutputPdu.wave2 pdu).confirm s.negotiatedFormats =
              [⟨pdu.timestamp, pdu.blockNo⟩] := by simp [ServerAudioOutputPdu.confirm, hget]
          rw [hconfirm]
          refine sendAll_ok fun msg hmsg => ?_
          rw [List.mem_singleton.mp hmsg]
          exact ClientAudioOutputPdu.encode_eq_ok (show 4 ≤ 65535 by decide)
  | volume pdu => exact ⟨rfl, rfl, hs, rfl, rfl, rfl⟩
  | close => exact ⟨rfl, rfl, hs, rfl, rfl, rfl⟩
  | _ => exact absurd h Bool.false_ne_true

theorem takes_handleDecoded (hs : s.Agreed) (h : pdu.isNotice = true) :
    s.Takes pdu (s.handleDecoded pdu) := by
  rcases hs with hs | hs
  · -- the client takes the training as skipped
    have hready :
        s.handleDecoded pdu = ({ s with state := .ready } : Rdpsnd).processReadyPdu pdu := by
      cases pdu with
      | training pdu => exact absurd h Bool.false_ne_true
      | _ => simp only [handleDecoded, hs]
    obtain ⟨hcalls, hsends, hstate, hformats, hhandler, hpending⟩ :=
      takes_processReadyPdu (s := { s with state := .ready }) rfl h
    rw [hready]
    exact ⟨hcalls, hsends, hstate, hformats, hhandler, hpending⟩
  · have hready : s.handleDecoded pdu = s.processReadyPdu pdu := by
      simp only [handleDecoded, hs]
    rw [hready]
    exact takes_processReadyPdu hs h

/-- The training may come after other messages. -/
theorem handleDecoded_training (hs : s.Agreed) (pdu : TrainingPdu) :
    s.handleDecoded (.training pdu) = ⟨{ s with state := .ready }, [], trainingConfirm pdu⟩ := by
  rcases hs with hs | hs
  · simp only [handleDecoded, hs]
  · simp only [handleDecoded, hs, processReadyPdu]
    obtain ⟨⟩ := s
    dsimp only at hs
    rw [hs]

end Rdpsnd

theorem RdpsndServer.process_bytes (s : RdpsndServer) {pdu : ClientAudioOutputPdu}
    (hc : pdu.Canonical) (h : pdu.bodySize ≤ 65535) : s.process pdu.bytes = s.processPdu pdu := by
  have hdecode : ClientAudioOutputPdu.decode.run pdu.bytes = .ok (pdu, []) :=
    (ClientAudioOutputPdu.decodes_bytes hc h).all
  rw [process, hdecode]

theorem RdpsndServer.confirmed_bytes (s : RdpsndServer) {pdu : ClientAudioOutputPdu}
    (hc : pdu.Canonical) (h : pdu.bodySize ≤ 65535) : s.confirmed pdu.bytes =
      if s.state = .ready then pdu.waveConfirm?.toList else [] := by
  have hdecode : ClientAudioOutputPdu.decode.run pdu.bytes = .ok (pdu, []) :=
    (ClientAudioOutputPdu.decodes_bytes hc h).all
  rw [confirmed, hdecode]
  cases s.state <;> cases pdu <;> rfl

theorem RdpsndServer.setVolume_cases (s : RdpsndServer) (left right : UInt16) :
    (∃ e, s.setVolume left right = .error e) ∨
      s.setVolume left right = .ok [.volume ⟨left, right⟩] := by
  unfold setVolume
  cases s.flags with
  | error e => exact .inl ⟨e, rfl⟩
  | ok flags =>
      by_cases hvolume : flags &&& AudioFormatFlags.VOLUME ≠ AudioFormatFlags.VOLUME
      · exact .inl ⟨_, if_pos hvolume⟩
      · exact .inr (if_neg hvolume)

/-! ## The negotiation -/

/-- The states of the parties and the messages between them. -/
inductive Handshake (server : RdpsndServerHandler) (client : RdpsndClientHandler) :
    RdpsndServerState → RdpsndState → List ServerAudioOutputPdu → List ClientAudioOutputPdu → Prop
  | offered {down} (quiet : ∀ pdu ∈ down, pdu.Quiet) :
      Handshake server client .waitingForClientFormats .start
        (.audioFormat (receivedOffer server) :: down) []
  | answered {c down} (agreed : c = .waitingForTraining ∨ c = .ready)
      (quiet : ∀ pdu ∈ down, pdu.Quiet) :
      Handshake server client .waitingForClientFormats c down
        [.audioFormat (agreedAnswer server client), .qualityMode .high]
  | graded {c down} (agreed : c = .waitingForTraining ∨ c = .ready)
      (quiet : ∀ pdu ∈ down, pdu.Quiet) :
      Handshake server client .waitingForQualityMode c down [.qualityMode .high]
  | training {c down before after} (agreed : c = .waitingForTraining ∨ c = .ready)
      (hdown : down = before ++ .training RdpsndServer.training :: after)
      (quiet : ∀ pdu ∈ before ++ after, pdu.Quiet) :
      Handshake server client .waitingForTrainingConfirm c down []
  | trained {down} (quiet : ∀ pdu ∈ down, pdu.Quiet) :
      Handshake server client .waitingForTrainingConfirm .ready down [.trainingConfirm 4231 0]
  | ready {down} {confirms : List WaveConfirmPdu}
      (notices : ∀ pdu ∈ down, pdu.isNotice = true) :
      Handshake server client .ready .ready down (confirms.map .waveConfirm)

section
variable {server : RdpsndServerHandler} {client : RdpsndClientHandler} {c : RdpsndState}
  {state : RdpsndServerState} {pdu : ServerAudioOutputPdu}
  {down : List ServerAudioOutputPdu} {up : List ClientAudioOutputPdu}

theorem Handshake.ready_nil (notices : ∀ pdu ∈ down, pdu.isNotice = true) :
    Handshake server client .ready .ready down [] :=
  @ready server client down [] notices

/-- The application's calls leave the negotiation alone. -/
theorem Handshake.send (h : Handshake server client state c down up)
    (hpdu : pdu.Quiet ∨ pdu.isNotice = true ∧ state = .ready) :
    Handshake server client state c (down ++ [pdu]) up := by
  have hquiet (hstate : state ≠ .ready) {down : List ServerAudioOutputPdu}
      (hdown : ∀ p ∈ down, p.Quiet) : ∀ p ∈ down ++ [pdu], p.Quiet := by
    rw [List.forall_mem_append, List.forall_mem_singleton]
    exact ⟨hdown, hpdu.resolve_right fun h => hstate h.2⟩
  cases h with
  | offered quiet => exact .offered (hquiet nofun quiet)
  | answered agreed quiet => exact .answered agreed (hquiet nofun quiet)
  | graded agreed quiet => exact .graded agreed (hquiet nofun quiet)
  | training agreed hdown quiet =>
      rename_i before after
      have hall := hquiet nofun quiet
      rw [List.append_assoc] at hall
      exact .training agreed (by rw [hdown, List.append_assoc, List.cons_append]) hall
  | trained quiet => exact .trained (hquiet nofun quiet)
  | ready notices =>
      refine .ready ?_
      rw [List.forall_mem_append, List.forall_mem_singleton]
      exact ⟨notices, hpdu.elim ServerAudioOutputPdu.Quiet.isNotice fun h => h.1⟩

/-- The message that reaches the client next. -/
theorem Handshake.next (h : Handshake server client state c (pdu :: down) up) :
    (state = .waitingForClientFormats ∧ c = .start ∧ up = [] ∧
      pdu = .audioFormat (receivedOffer server) ∧ ∀ pdu ∈ down, pdu.Quiet) ∨
    (state = .waitingForTrainingConfirm ∧ (c = .waitingForTraining ∨ c = .ready) ∧ up = [] ∧
      pdu = .training RdpsndServer.training ∧ ∀ pdu ∈ down, pdu.Quiet) ∨
    (c = .waitingForTraining ∨ c = .ready) ∧ pdu.isNotice = true ∧
      ∀ formats, Handshake server client state .ready down
        (up ++ (pdu.confirm formats).map .waveConfirm) := by
  have hconfirm (hpdu : pdu.Quiet) (formats : List AudioFormat) :
      up ++ (pdu.confirm formats).map .waveConfirm = up := by
    cases pdu with
    | volume pdu => exact List.append_nil up
    | close => exact List.append_nil up
    | _ => exact hpdu.elim
  cases h with
  | offered quiet => exact .inl ⟨rfl, rfl, rfl, rfl, quiet⟩
  | answered agreed quiet =>
      obtain ⟨hpdu, quiet⟩ := List.forall_mem_cons.mp quiet
      refine .inr (.inr ⟨agreed, hpdu.isNotice, fun formats => ?_⟩)
      rw [hconfirm hpdu]
      exact .answered (.inr rfl) quiet
  | graded agreed quiet =>
      obtain ⟨hpdu, quiet⟩ := List.forall_mem_cons.mp quiet
      refine .inr (.inr ⟨agreed, hpdu.isNotice, fun formats => ?_⟩)
      rw [hconfirm hpdu]
      exact .graded (.inr rfl) quiet
  | training agreed hdown quiet =>
      rename_i before after
      cases before with
      | nil =>
          obtain ⟨rfl, rfl⟩ := List.cons.inj hdown
          exact .inr (.inl ⟨rfl, agreed, rfl, rfl, quiet⟩)
      | cons first before =>
          obtain ⟨rfl, rfl⟩ := List.cons.inj hdown
          obtain ⟨hpdu, quiet⟩ := List.forall_mem_cons.mp quiet
          refine .inr (.inr ⟨agreed, hpdu.isNotice, fun formats => ?_⟩)
          rw [hconfirm hpdu]
          exact .training (.inr rfl) rfl quiet
  | trained quiet =>
      obtain ⟨hpdu, quiet⟩ := List.forall_mem_cons.mp quiet
      refine .inr (.inr ⟨.inr rfl, hpdu.isNotice, fun formats => ?_⟩)
      rw [hconfirm hpdu]
      exact .trained quiet
  | ready notices =>
      obtain ⟨hpdu, notices⟩ := List.forall_mem_cons.mp notices
      refine .inr (.inr ⟨.inr rfl, hpdu, fun formats => ?_⟩)
      rw [← List.map_append]
      exact .ready notices

end

namespace RdpsndLink

/-- What is on its way, and what has arrived of what the application sent. -/
structure Inv (server : RdpsndServerHandler) (client : RdpsndClientHandler) (s : RdpsndLink)
    (down : List ServerAudioOutputPdu) (up : List ClientAudioOutputPdu)
    (arrived : List ServerAudioOutputPdu) : Prop where
  handshake : Handshake server client s.server.state s.client.state down up
  toClient : s.toClient = down.map ServerAudioOutputPdu.bytes
  toServer : s.toServer = up.map ClientAudioOutputPdu.bytes
  fits : ∀ pdu ∈ down, pdu.bodySize ≤ 65535
  sent : s.sent = arrived ++ down.filter ServerAudioOutputPdu.isNotice
  calls : s.calls = arrived.flatMap (ServerAudioOutputPdu.effect (agreedFormats server client))
  confirmed : s.confirmed ++ up.filterMap ClientAudioOutputPdu.waveConfirm? =
    arrived.flatMap (ServerAudioOutputPdu.confirm (agreedFormats server client))
  clientHandler : s.client.handler = client
  pending : s.client.pendingWaveInfo = none
  formats : s.client.state ≠ .start → s.client.negotiatedFormats = agreedFormats server client
  serverHandler : s.server.handler = server
  clientFormat : s.server.clientFormat =
    if s.server.state = .waitingForClientFormats then none else some (agreedAnswer server client)
  formatNo : s.server.formatNo =
    if s.server.state = .ready then server.start (agreedAnswer server client) else none
  blockNo : s.server.blockNo = UInt8.ofNat s.waves.length
  numbered : ∀ k wave, s.waves[k]? = some wave → wave.blockNo = UInt8.ofNat k ∧
    server.start (agreedAnswer server client) = some wave.formatNo
  unpanicked : s.panicked = false
  /-- what is left of the messages that the negotiation and the calls give rise to -/
  remaining : s.deliveries + (down.map ServerAudioOutputPdu.weight).sum +
    (up.map ClientAudioOutputPdu.weight).sum ≤ 5 + 2 * s.asked

variable {server : RdpsndServerHandler} {client : RdpsndClientHandler} {s : RdpsndLink}
  {down arrived : List ServerAudioOutputPdu} {up : List ClientAudioOutputPdu}

theorem inv_start (h : (RdpsndServer.offer server).size ≤ 65535) :
    (start server client).Inv server client [.audioFormat (receivedOffer server)] [] [] where
  handshake := .offered nofun
  toClient := by
    have hoffer : (start server client).toClient =
        [ServerAudioOutputPdu.audioFormat (RdpsndServer.offer server)].map
          ServerAudioOutputPdu.bytes := sendAll_ok fun msg hmsg => by
      rw [List.mem_singleton.mp hmsg]
      exact ServerAudioOutputPdu.encode_eq_ok trivial ⟨h, nofun⟩
    rw [hoffer, List.map_singleton, List.map_singleton, bytes_receivedOffer]
  toServer := rfl
  fits pdu hpdu := by
    rw [List.mem_singleton.mp hpdu]
    exact (size_receivedOffer server).trans_le h
  sent := rfl
  calls := rfl
  confirmed := rfl
  clientHandler := rfl
  pending := rfl
  formats hne := absurd rfl hne
  serverHandler := rfl
  clientFormat := rfl
  formatNo := rfl
  blockNo := rfl
  numbered := nofun
  unpanicked := rfl
  remaining := Nat.le_refl 5

/-! ## Calls of the application -/

theorem ask_error (s : RdpsndLink) (e : PduError) :
    s.ask s.server (.error e) = { s with asked := s.asked + 1 } := by
  simp only [ask, sendAll, Except.toOption, Option.getD_none, List.append_nil]

/-- A call that fails changes nothing. -/
theorem Inv.ask_error (h : s.Inv server client down up arrived) (e : PduError) :
    (s.ask s.server (.error e)).Inv server client down up arrived := by
  rw [RdpsndLink.ask_error]
  exact { h with remaining := h.remaining.trans (Nat.add_le_add_left (by dsimp only; omega) 5) }

/-- A call that makes a PDU. -/
theorem Inv.ask_ok (h : s.Inv server client down up arrived) {pdu : ServerAudioOutputPdu}
    {blockNo : UInt8} (hpdu : pdu.Quiet ∨ pdu.isNotice = true ∧ s.server.state = .ready)
    (hblock : blockNo = UInt8.ofNat (s.waves ++ pdu.wave2?.toList).length)
    (hnumbered : ∀ wave, pdu.wave2? = some wave → wave.blockNo = s.server.blockNo ∧
      server.start (agreedAnswer server client) = some wave.formatNo) :
    ∃ down, (s.ask { s.server with blockNo } (.ok [pdu])).Inv server client down up arrived := by
  have hnotice : pdu.isNotice = true := hpdu.elim ServerAudioOutputPdu.Quiet.isNotice And.left
  have hwaves :
      (s.ask { s.server with blockNo } (.ok [pdu])).waves = s.waves ++ pdu.wave2?.toList := by
    simp only [waves, ask, Except.toOption, Option.getD_some, List.filterMap_append]
    cases hwave : pdu.wave2? <;> simp [hwave]
  have hsent : (s.ask { s.server with blockNo } (.ok [pdu])).sent =
      s.sent ++ if pdu.bodySize ≤ 65535 then [pdu] else [] := by
    simp only [RdpsndLink.sent, ask, Except.toOption, Option.getD_some, List.filter_append]
    split <;> simp [*]
  have hweight := ServerAudioOutputPdu.weight_le_of_isNotice hnotice
  refine ⟨down ++ if pdu.bodySize ≤ 65535 then [pdu] else [], { h with
    handshake := ?_, toClient := ?_, fits := ?_, sent := ?_, blockNo := ?_, numbered := ?_
    remaining := ?_ }⟩
  · split
    · exact h.handshake.send hpdu
    · rw [List.append_nil]
      exact h.handshake
  · simp only [ask, sendAll_notice hnotice, h.toClient, List.map_append]
    split <;> rfl
  · rw [List.forall_mem_append]
    refine ⟨h.fits, ?_⟩
    split
    · rename_i hfits
      exact List.forall_mem_singleton.mpr hfits
    · exact nofun
  · rw [hsent, h.sent, List.append_assoc, List.filter_append]
    congr 2
    split <;> simp [hnotice]
  · rw [hwaves]
    exact hblock
  · rw [hwaves]
    intro k wave hk
    rw [List.getElem?_append] at hk
    split at hk
    · exact h.numbered k wave hk
    · rename_i hlt
      have hwave : pdu.wave2? = some wave := by
        rw [← Option.mem_toList]
        exact List.mem_of_getElem? hk
      rw [hwave] at hk
      have hlen : k - s.waves.length < 1 := (List.getElem?_eq_some_iff.mp hk).1
      obtain ⟨hno, hformat⟩ := hnumbered wave hwave
      refine ⟨?_, hformat⟩
      rw [hno, h.blockNo, show k = s.waves.length by omega]
  · have hremaining := h.remaining
    have hsum : ((down ++ if pdu.bodySize ≤ 65535 then [pdu] else []).map
        ServerAudioOutputPdu.weight).sum ≤ (down.map ServerAudioOutputPdu.weight).sum + 2 := by
      split
      · rw [List.map_append, List.sum_append, List.map_singleton, List.sum_singleton]
        omega
      · rw [List.append_nil]
        omega
    simp only [ask]
    omega

/-- There are waves only when the negotiation is over. -/
theorem Inv.wave_cases (h : s.Inv server client down up arrived) (data : List UInt8)
    (ts : UInt32) : (∃ e, s.server.wave data ts = (s.server, .error e)) ∨
      s.server.state = .ready ∧ ∃ formatNo,
        server.start (agreedAnswer server client) = some formatNo ∧
        s.server.wave data ts = ({ s.server with blockNo := s.server.blockNo + 1 },
          .ok [.wave2 ⟨0, formatNo, s.server.blockNo, ts, data⟩]) := by
  cases hversion : s.server.version with
  | error e => exact .inl ⟨e, by rw [RdpsndServer.wave, hversion]⟩
  | ok version =>
      cases hformat : s.server.formatNo with
      | none => exact .inl ⟨_, by rw [RdpsndServer.wave, hversion]; dsimp only; rw [hformat]⟩
      | some formatNo =>
          have hstart := h.formatNo.symm.trans hformat
          by_cases hready : s.server.state = .ready
          · rw [if_pos hready] at hstart
            have hclient := h.clientFormat
            rw [if_neg (by rw [hready]; nofun)] at hclient
            have hv8 : version = .v8 := by
              rw [RdpsndServer.version, RdpsndServer.clientFormatPdu, hclient] at hversion
              exact (Except.ok.inj hversion).symm
            refine .inr ⟨hready, formatNo, hstart, ?_⟩
            rw [RdpsndServer.wave, hversion]
            dsimp only
            rw [hformat, hv8]
            rfl
          · rw [if_neg hready] at hstart
            cases hstart

theorem Inv.wave (h : s.Inv server client down up arrived) (data : List UInt8) (ts : UInt32) :
    ∃ down, (s.step (.wave data ts)).Inv server client down up arrived := by
  rw [step]
  obtain ⟨e, hwave⟩ | ⟨hready, formatNo, hstart, hwave⟩ := h.wave_cases data ts
  · rw [hwave]
    exact ⟨down, h.ask_error e⟩
  · rw [hwave]
    refine h.ask_ok (.inr ⟨rfl, hready⟩) ?_ ?_
    · rw [h.blockNo, List.length_append, UInt8.ofNat_add]
      rfl
    · rintro wave ⟨⟩
      exact ⟨rfl, hstart⟩

/-- A PDU that is no wave. -/
theorem Inv.ask_quiet (h : s.Inv server client down up arrived) {pdu : ServerAudioOutputPdu}
    (hpdu : pdu.Quiet) :
    ∃ down, (s.ask s.server (.ok [pdu])).Inv server client down up arrived := by
  have hwave : pdu.wave2? = none := by
    cases pdu with
    | wave2 pdu => exact hpdu.elim
    | _ => rfl
  refine h.ask_ok (.inl hpdu) ?_ ?_
  · rw [hwave, Option.toList_none, List.append_nil]
    exact h.blockNo
  · rw [hwave]
    exact nofun

theorem Inv.setVolume (h : s.Inv server client down up arrived) (left right : UInt16) :
    ∃ down, (s.step (.setVolume left right)).Inv server client down up arrived := by
  rw [step]
  obtain ⟨e, hvolume⟩ | hvolume := s.server.setVolume_cases left right
  · rw [hvolume]
    exact ⟨down, h.ask_error e⟩
  · rw [hvolume]
    exact h.ask_quiet trivial

/-! ## Deliveries -/

theorem deliverToClient_eq {payload : List UInt8} {toClient : List (List UInt8)}
    (h : s.toClient = payload :: toClient) : s.deliverToClient =
      { s with
        client := (s.client.handlePdu payload).client
        toClient
        toServer := s.toServer ++
          sendAll ClientAudioOutputPdu.encode (s.client.handlePdu payload).reply
        calls := s.calls ++ (s.client.handlePdu payload).calls
        deliveries := s.deliveries + 1 } := by
  rw [deliverToClient, h]

/-- The offer is answered. -/
theorem Inv.deliver_offer
    (h : s.Inv server client (.audioFormat (receivedOffer server) :: down) [] arrived)
    (hsize : (RdpsndServer.offer server).size ≤ 65535)
    (hserver : s.server.state = .waitingForClientFormats) (hclient : s.client.state = .start)
    (quiet : ∀ pdu ∈ down, pdu.Quiet) :
    s.deliverToClient.Inv server client down
      [.audioFormat (agreedAnswer server client), .qualityMode .high] arrived := by
  have hencode : (ServerAudioOutputPdu.audioFormat (receivedOffer server)).Encodable :=
    ⟨(size_receivedOffer server).trans_le hsize, nofun⟩
  have hcanonical : (ServerAudioOutputPdu.audioFormat (receivedOffer server)).Canonical := by
    intro f hf
    obtain ⟨g, -, rfl⟩ := List.mem_map.mp hf
    exact canonical_received g
  have hhandle :
      s.client.handlePdu (ServerAudioOutputPdu.audioFormat (receivedOffer server)).bytes =
      ⟨{ s.client with
          serverFormat := some (receivedOffer server)
          state := .waitingForTraining
          negotiatedFormats := agreedFormats server client }, [],
        .ok [.audioFormat (agreedAnswer server client), .qualityMode .high]⟩ := by
    rw [Rdpsnd.handlePdu_bytes h.pending (by trivial) hcanonical hencode
      (show SNDC_FORMATS ≠ SNDC_WAVE by decide), Rdpsnd.handleDecoded, hclient]
    dsimp only
    rw [Rdpsnd.negotiate_eq, h.clientHandler]
    rfl
  have hsends : sendAll ClientAudioOutputPdu.encode
      (.ok [.audioFormat (agreedAnswer server client), .qualityMode .high]) =
        [ClientAudioOutputPdu.audioFormat (agreedAnswer server client), .qualityMode .high].map
          ClientAudioOutputPdu.bytes := by
    refine sendAll_ok ?_
    rw [List.forall_mem_cons, List.forall_mem_singleton]
    exact ⟨ClientAudioOutputPdu.encode_eq_ok ((size_agreedAnswer server client).trans hsize),
      ClientAudioOutputPdu.encode_eq_ok (show 4 ≤ 65535 by decide)⟩
  rw [deliverToClient_eq h.toClient, hhandle, hsends]
  exact { h with
    handshake := by rw [hserver]; exact .answered (.inl rfl) quiet
    toClient := rfl
    toServer := by rw [h.toServer]; rfl
    fits := (List.forall_mem_cons.mp h.fits).2
    calls := (List.append_nil _).trans h.calls
    formats := fun _ => rfl
    remaining := by
      have hremaining := h.remaining
      rw [List.map_cons, List.sum_cons] at hremaining
      change s.deliveries + 1 + _ + 4 ≤ 5 + 2 * s.asked
      change _ + (5 + _) + 0 ≤ _ at hremaining
      omega }

/-- The training is confirmed. -/
theorem Inv.deliver_training
    (h : s.Inv server client (.training RdpsndServer.training :: down) [] arrived)
    (hserver : s.server.state = .waitingForTrainingConfirm)
    (hclient : s.client.state = .waitingForTraining ∨ s.client.state = .ready)
    (quiet : ∀ pdu ∈ down, pdu.Quiet) :
    s.deliverToClient.Inv server client down [.trainingConfirm 4231 0] arrived := by
  have hhandle : s.client.handlePdu (ServerAudioOutputPdu.training RdpsndServer.training).bytes =
      ⟨{ s.client with state := .ready }, [], .ok [.trainingConfirm 4231 0]⟩ := by
    rw [Rdpsnd.handlePdu_bytes h.pending (by trivial) (by trivial)
      ⟨(List.forall_mem_cons.mp h.fits).1, nofun⟩ (show SNDC_TRAINING ≠ SNDC_WAVE by decide),
      Rdpsnd.handleDecoded_training hclient]
    rfl
  have hsends : sendAll ClientAudioOutputPdu.encode (.ok [.trainingConfirm 4231 0]) =
      [ClientAudioOutputPdu.trainingConfirm 4231 0].map ClientAudioOutputPdu.bytes := by
    refine sendAll_ok ?_
    rw [List.forall_mem_singleton]
    exact ClientAudioOutputPdu.encode_eq_ok (show 4 ≤ 65535 by decide)
  rw [deliverToClient_eq h.toClient, hhandle, hsends]
  exact { h with
    handshake := by rw [hserver]; exact .trained quiet
    toClient := rfl
    toServer := by rw [h.toServer]; rfl
    fits := (List.forall_mem_cons.mp h.fits).2
    calls := (List.append_nil _).trans h.calls
    formats := fun _ => h.formats (by rcases hclient with hc | hc <;> rw [hc] <;> nofun)
    remaining := by
      have hremaining := h.remaining
      rw [List.map_cons, List.sum_cons] at hremaining
      change s.deliveries + 1 + _ + 1 ≤ 5 + 2 * s.asked
      change _ + (2 + _) + 0 ≤ _ at hremaining
      omega }

/-- What the application sent has its effect, and a wave is confirmed. -/
theorem Inv.deliver_notice {pdu : ServerAudioOutputPdu}
    (h : s.Inv server client (pdu :: down) up arrived)
    (hclient : s.client.state = .waitingForTraining ∨ s.client.state = .ready)
    (hnotice : pdu.isNotice = true)
    (handshake : ∀ formats, Handshake server client s.server.state .ready down
      (up ++ (pdu.confirm formats).map .waveConfirm)) :
    s.deliverToClient.Inv server client down
      (up ++ (pdu.confirm (agreedFormats server client)).map .waveConfirm) (arrived ++ [pdu]) := by
  have hformats : s.client.negotiatedFormats = agreedFormats server client :=
    h.formats (by rcases hclient with hc | hc <;> rw [hc] <;> nofun)
  have hfits := (List.forall_mem_cons.mp h.fits).1
  have hhandle : s.client.handlePdu pdu.bytes = s.client.handleDecoded pdu := by
    cases pdu with
    | wave2 pdu =>
        exact Rdpsnd.handlePdu_bytes h.pending trivial trivial ⟨hfits, nofun⟩
          (show SNDC_WAVE2 ≠ SNDC_WAVE by decide)
    | volume pdu =>
        exact Rdpsnd.handlePdu_bytes h.pending trivial trivial ⟨hfits, nofun⟩
          (show SNDC_VOLUME ≠ SNDC_WAVE by decide)
    | close => exact Rdpsnd.handlePdu_bytes h.pending trivial trivial ⟨hfits, nofun⟩ (by decide)
    | _ => exact absurd hnotice Bool.false_ne_true
  have htakes := Rdpsnd.takes_handleDecoded hclient hnotice
  rw [deliverToClient_eq h.toClient, hhandle, htakes.sends, htakes.calls, hformats]
  exact { h with
    handshake := by rw [htakes.ready]; exact handshake _
    toClient := rfl
    toServer := by rw [List.map_append, List.map_map, ← h.toServer]; rfl
    fits := (List.forall_mem_cons.mp h.fits).2
    sent := by
      have hsent := h.sent
      rw [List.filter_cons_of_pos hnotice] at hsent
      rw [List.append_assoc]
      exact hsent
    calls := by rw [List.flatMap_append, ← h.calls, List.flatMap_singleton]
    confirmed := by
      rw [List.flatMap_append, ← h.confirmed, List.flatMap_singleton, List.filterMap_append,
        filterMap_waveConfirm, List.append_assoc]
    clientHandler := htakes.handler.trans h.clientHandler
    pending := htakes.pending.trans h.pending
    formats := fun _ => htakes.formats.trans hformats
    remaining := by
      have hremaining := h.remaining
      have hweight := ServerAudioOutputPdu.confirm_lt_weight hnotice (agreedFormats server client)
      rw [List.map_cons, List.sum_cons] at hremaining
      rw [List.map_append, List.sum_append, sum_weight_waveConfirm]
      change s.deliveries + 1 + _ + _ ≤ 5 + 2 * s.asked
      omega }

/-- What the client makes of its next message. -/
theorem Inv.deliverToClient (h : s.Inv server client down up arrived)
    (hsize : (RdpsndServer.offer server).size ≤ 65535) :
    ∃ down up arrived, s.deliverToClient.Inv server client down up arrived := by
  cases down with
  | nil =>
      have hempty : s.deliverToClient = s := by
        rw [RdpsndLink.deliverToClient, h.toClient]
        rfl
      rw [hempty]
      exact ⟨[], up, arrived, h⟩
  | cons pdu down =>
      obtain ⟨hserver, hclient, rfl, rfl, quiet⟩ | ⟨hserver, hclient, rfl, rfl, quiet⟩ |
        ⟨hclient, hnotice, handshake⟩ := h.handshake.next
      · exact ⟨_, _, _, h.deliver_offer hsize hserver hclient quiet⟩
      · exact ⟨_, _, _, h.deliver_training hserver hclient quiet⟩
      · exact ⟨_, _, _, h.deliver_notice hclient hnotice handshake⟩

theorem deliverToServer_eq {pdu : ClientAudioOutputPdu} {up : List ClientAudioOutputPdu}
    (h : s.toServer = (pdu :: up).map ClientAudioOutputPdu.bytes) (hc : pdu.Canonical)
    (hfits : pdu.bodySize ≤ 65535) {server : RdpsndServer} {reply : ServerReply}
    (hprocess : s.server.processPdu pdu = .done server reply) : s.deliverToServer =
      { s with
        server
        toClient := s.toClient ++ sendAll ServerAudioOutputPdu.encode reply
        toServer := up.map ClientAudioOutputPdu.bytes
        confirmed := s.confirmed ++
          if s.server.state = .ready then pdu.waveConfirm?.toList else []
        deliveries := s.deliveries + 1 } := by
  rw [deliverToServer, h, List.map_cons]
  dsimp only
  rw [s.server.process_bytes hc hfits, hprocess, s.server.confirmed_bytes hc hfits]

theorem sendAll_training : sendAll ServerAudioOutputPdu.encode RdpsndServer.trainingPdu =
    [ServerAudioOutputPdu.training RdpsndServer.training].map ServerAudioOutputPdu.bytes := by
  refine sendAll_ok ?_
  rw [List.forall_mem_singleton]
  exact ServerAudioOutputPdu.encode_eq_ok trivial ⟨show 4 ≤ 65535 by decide, nofun⟩

/-- The client's formats are taken. -/
theorem Inv.deliver_formats
    (h : s.Inv server client down
      [.audioFormat (agreedAnswer server client), .qualityMode .high] arrived)
    (hsize : (RdpsndServer.offer server).size ≤ 65535)
    (hserver : s.server.state = .waitingForClientFormats)
    (hclient : s.client.state = .waitingForTraining ∨ s.client.state = .ready)
    (quiet : ∀ pdu ∈ down, pdu.Quiet) :
    s.deliverToServer.Inv server client down [.qualityMode .high] arrived := by
  have hprocess : s.server.processPdu (.audioFormat (agreedAnswer server client)) =
      .done { s.server with
        clientFormat := some (agreedAnswer server client)
        state := .waitingForQualityMode } (.ok []) := by
    rw [RdpsndServer.processPdu, hserver]
    rfl
  rw [deliverToServer_eq h.toServer (canonical_agreedAnswer server client)
    ((size_agreedAnswer server client).trans hsize) hprocess]
  exact { h with
    handshake := .graded hclient quiet
    toClient := (List.append_nil _).trans h.toClient
    toServer := rfl
    confirmed := by
      rw [← h.confirmed, if_neg (by rw [hserver]; nofun), List.append_nil]
      rfl
    clientFormat := rfl
    formatNo := by
      have hformatNo := h.formatNo
      rw [if_neg (by rw [hserver]; nofun)] at hformatNo
      exact hformatNo
    remaining := by
      have hremaining := h.remaining
      change s.deliveries + 1 + _ + 3 ≤ 5 + 2 * s.asked
      change s.deliveries + _ + 4 ≤ _ at hremaining
      omega }

/-- The quality is taken, and the training sent. -/
theorem Inv.deliver_quality
    (h : s.Inv server client down [.qualityMode .high] arrived)
    (hserver : s.server.state = .waitingForQualityMode)
    (hclient : s.client.state = .waitingForTraining ∨ s.client.state = .ready)
    (quiet : ∀ pdu ∈ down, pdu.Quiet) :
    s.deliverToServer.Inv server client (down ++ [.training RdpsndServer.training]) [] arrived := by
  have hprocess : s.server.processPdu (.qualityMode .high) =
      .done { s.server with qualityMode := some .high, state := .waitingForTrainingConfirm }
        RdpsndServer.trainingPdu := by
    rw [RdpsndServer.processPdu, hserver]
  rw [deliverToServer_eq h.toServer trivial (show 4 ≤ 65535 by decide) hprocess, sendAll_training]
  exact { h with
    handshake := .training hclient rfl (by rwa [List.append_nil])
    toClient := by rw [h.toClient, List.map_append]
    toServer := rfl
    fits := by
      rw [List.forall_mem_append, List.forall_mem_singleton]
      exact ⟨h.fits, show 4 ≤ 65535 by decide⟩
    sent := by
      rw [List.filter_append]
      exact h.sent.trans (congrArg (arrived ++ ·) (List.append_nil _).symm)
    confirmed := by
      rw [← h.confirmed, if_neg (by rw [hserver]; nofun), List.append_nil]
      rfl
    clientFormat := by
      have hformat := h.clientFormat
      rw [if_neg (by rw [hserver]; nofun)] at hformat
      exact hformat
    formatNo := by
      have hformatNo := h.formatNo
      rw [if_neg (by rw [hserver]; nofun)] at hformatNo
      exact hformatNo
    remaining := by
      have hremaining := h.remaining
      rw [List.map_append, List.sum_append]
      change s.deliveries + 1 + (_ + 2) + 0 ≤ 5 + 2 * s.asked
      change s.deliveries + _ + 3 ≤ _ at hremaining
      omega }

/-- The training is over, and the format chosen. -/
theorem Inv.deliver_trained
    (h : s.Inv server client down [.trainingConfirm 4231 0] arrived)
    (hserver : s.server.state = .waitingForTrainingConfirm) (hclient : s.client.state = .ready)
    (quiet : ∀ pdu ∈ down, pdu.Quiet) :
    s.deliverToServer.Inv server client down [] arrived := by
  have hformat := h.clientFormat
  rw [if_neg (by rw [hserver]; nofun)] at hformat
  have hprocess : s.server.processPdu (.trainingConfirm 4231 0) =
      .done { s.server with
        state := .ready
        formatNo := server.start (agreedAnswer server client) } (.ok []) := by
    rw [RdpsndServer.processPdu, hserver]
    dsimp only
    rw [hformat]
    dsimp only
    rw [h.serverHandler]
  rw [deliverToServer_eq h.toServer trivial (show 4 ≤ 65535 by decide) hprocess]
  exact { h with
    handshake := by
      rw [hclient]
      exact .ready_nil fun pdu hpdu => (quiet pdu hpdu).isNotice
    toClient := (List.append_nil _).trans h.toClient
    toServer := rfl
    confirmed := by
      rw [← h.confirmed, if_neg (by rw [hserver]; nofun), List.append_nil]
      rfl
    clientFormat := hformat
    formatNo := rfl
    remaining := by
      have hremaining := h.remaining
      change s.deliveries + 1 + _ + 0 ≤ 5 + 2 * s.asked
      change s.deliveries + _ + 1 ≤ _ at hremaining
      omega }

/-- A wave is confirmed. -/
theorem Inv.deliver_confirm {pdu : WaveConfirmPdu} {confirms : List WaveConfirmPdu}
    (h : s.Inv server client down ((pdu :: confirms).map .waveConfirm) arrived)
    (hserver : s.server.state = .ready) (hclient : s.client.state = .ready)
    (notices : ∀ pdu ∈ down, pdu.isNotice = true) :
    s.deliverToServer.Inv server client down (confirms.map .waveConfirm) arrived := by
  have hprocess : s.server.processPdu (.waveConfirm pdu) = .done s.server (.ok []) := by
    simp only [RdpsndServer.processPdu, hserver]
  rw [deliverToServer_eq h.toServer trivial (show 4 ≤ 65535 by decide) hprocess]
  exact { h with
    handshake := by
      rw [hserver, hclient]
      exact .ready notices
    toClient := (List.append_nil _).trans h.toClient
    toServer := rfl
    confirmed := by
      rw [← h.confirmed, if_pos hserver, List.append_assoc]
      rfl
    remaining := by
      have hremaining := h.remaining
      rw [List.map_cons, List.map_cons, List.sum_cons] at hremaining
      change s.deliveries + 1 + _ + _ ≤ 5 + 2 * s.asked
      change s.deliveries + _ + (1 + _) ≤ _ at hremaining
      omega }

/-- What the server makes of its next message. -/
theorem Inv.deliverToServer (h : s.Inv server client down up arrived)
    (hsize : (RdpsndServer.offer server).size ≤ 65535) :
    ∃ down up arrived, s.deliverToServer.Inv server client down up arrived := by
  have hempty (hup : up = []) : s.deliverToServer = s := by
    rw [RdpsndLink.deliverToServer, h.toServer, hup]
    rfl
  have hshake := h.handshake
  generalize hserver : s.server.state = state, hclient : s.client.state = c at hshake
  cases hshake with
  | offered quiet => exact ⟨_, [], arrived, hempty rfl ▸ h⟩
  | answered agreed quiet =>
      exact ⟨_, _, _, h.deliver_formats hsize hserver (hclient ▸ agreed) quiet⟩
  | graded agreed quiet =>
      exact ⟨_, _, _, h.deliver_quality hserver (hclient ▸ agreed) quiet⟩
  | training agreed hdown quiet => exact ⟨_, [], arrived, hempty rfl ▸ h⟩
  | trained quiet => exact ⟨_, _, _, h.deliver_trained hserver hclient quiet⟩
  | ready notices =>
      rename_i confirms
      cases confirms with
      | nil => exact ⟨_, _, arrived, hempty rfl ▸ h⟩
      | cons pdu confirms => exact ⟨_, _, _, h.deliver_confirm hserver hclient notices⟩

/-! ## Whole runs -/

theorem Inv.step (h : s.Inv server client down up arrived)
    (hsize : (RdpsndServer.offer server).size ≤ 65535) (e : RdpsndEvent) :
    ∃ down up arrived, (s.step e).Inv server client down up arrived := by
  cases e with
  | toClient => exact h.deliverToClient hsize
  | toServer => exact h.deliverToServer hsize
  | wave data ts =>
      obtain ⟨down, h⟩ := h.wave data ts
      exact ⟨down, up, arrived, h⟩
  | setVolume left right =>
      obtain ⟨down, h⟩ := h.setVolume left right
      exact ⟨down, up, arrived, h⟩
  | close =>
      have hquiet : ServerAudioOutputPdu.Quiet .close := trivial
      obtain ⟨down, h⟩ := h.ask_quiet hquiet
      exact ⟨down, up, arrived, h⟩

theorem always_inv (hsize : (RdpsndServer.offer server).size ≤ 65535) (events : List RdpsndEvent) :
    Runs.Always RdpsndLink.step (fun s => ∃ down up arrived, s.Inv server client down up arrived)
      (start server client) events := by
  refine Runs.always_of_each (c := fun _ _ => True) ?_ ⟨_, _, _, inv_start hsize⟩
    fun _ _ _ => trivial
  rintro s e - ⟨down, up, arrived, h⟩ -
  exact h.step hsize e

/-- With nothing on its way the negotiation is over. -/
theorem Inv.settled (h : s.Inv server client down up arrived) (hdown : s.toClient = [])
    (hup : s.toServer = []) : s.Settled server client := by
  obtain rfl : down = [] := List.map_eq_nil_iff.mp (h.toClient.symm.trans hdown)
  obtain rfl : up = [] := List.map_eq_nil_iff.mp (h.toServer.symm.trans hup)
  have hready : s.client.state = .ready ∧ s.server.state = .ready := by
    have hshake := h.handshake
    generalize s.server.state = state, s.client.state = c at hshake ⊢
    generalize hup : ([] : List ClientAudioOutputPdu) = up at hshake
    cases hshake with
    | training agreed hdown quiet => simp at hdown
    | ready notices => exact ⟨rfl, rfl⟩
    | _ => cases hup
  have hsent : s.sent = arrived := h.sent.trans (List.append_nil _)
  refine ⟨hready.1, hready.2, ?_, ?_⟩
  · rw [hsent]
    exact h.calls
  · rw [hsent, ← h.confirmed]
    exact (List.append_nil _).symm

theorem deliveries_deliverToClient (s : RdpsndLink) :
    s.deliverToClient.deliveries = s.deliveries + if s.toClient = [] then 0 else 1 := by
  rw [deliverToClient]
  cases hqueue : s.toClient <;> rfl

theorem deliveries_deliverToServer (s : RdpsndLink) :
    s.deliverToServer.deliveries = s.deliveries + if s.toServer = [] then 0 else 1 := by
  rw [deliverToServer]
  cases hqueue : s.toServer with
  | nil => rfl
  | cons payload toServer =>
      dsimp only
      cases s.server.process payload <;> rfl

/-- One message in each direction. -/
def round (s : RdpsndLink) : RdpsndLink := s.deliverToClient.deliverToServer

theorem round_of_nil (hdown : s.toClient = []) (hup : s.toServer = []) : s.round = s := by
  have hsame : s.deliverToClient = s := by rw [deliverToClient, hdown]
  rw [round, hsame, deliverToServer, hup]

/-- A round hands something over, unless nothing is left. -/
theorem deliveries_round (s : RdpsndLink) :
    (s.toClient = [] ∧ s.toServer = []) ∨ s.deliveries < s.round.deliveries := by
  have hclient := s.deliveries_deliverToClient
  have hserver := s.deliverToClient.deliveries_deliverToServer
  by_cases hdown : s.toClient = []
  · have hsame : s.deliverToClient = s := by rw [deliverToClient, hdown]
    rw [hsame] at hserver
    by_cases hup : s.toServer = []
    · exact .inl ⟨hdown, hup⟩
    · rw [if_neg hup] at hserver
      refine .inr ?_
      rw [round, hsame]
      omega
  · rw [if_neg hdown] at hclient
    refine .inr ?_
    rw [round]
    omega

/-- Deliveries are no calls of the application. -/
theorem round_keeps (s : RdpsndLink) : s.round.asked = s.asked ∧ s.round.made = s.made := by
  have hclient : s.deliverToClient.asked = s.asked ∧ s.deliverToClient.made = s.made := by
    rw [deliverToClient]
    cases s.toClient <;> exact ⟨rfl, rfl⟩
  rw [round, deliverToServer, ← hclient.1, ← hclient.2]
  cases s.deliverToClient.toServer with
  | nil => exact ⟨rfl, rfl⟩
  | cons payload toServer =>
      dsimp only
      cases s.deliverToClient.server.process payload <;> exact ⟨rfl, rfl⟩

theorem Inv.rounds (h : s.Inv server client down up arrived)
    (hsize : (RdpsndServer.offer server).size ≤ 65535) (n : Nat) :
    (∃ down up arrived, (round^[n] s).Inv server client down up arrived) ∧
      (round^[n] s).asked = s.asked ∧ (round^[n] s).made = s.made ∧
      (((round^[n] s).toClient = [] ∧ (round^[n] s).toServer = []) ∨
        s.deliveries + n ≤ (round^[n] s).deliveries) := by
  induction n with
  | zero => exact ⟨⟨down, up, arrived, h⟩, rfl, rfl, .inr (Nat.le_refl _)⟩
  | succ n ih =>
      obtain ⟨⟨_, _, _, hn⟩, hasked, hmade, hqueues⟩ := ih
      have hkeeps := (round^[n] s).round_keeps
      rw [Function.iterate_succ_apply']
      obtain ⟨_, _, _, hclient⟩ := hn.deliverToClient hsize
      refine ⟨hclient.deliverToServer hsize, hkeeps.1.trans hasked, hkeeps.2.trans hmade, ?_⟩
      obtain ⟨hdown, hup⟩ | hlt := (round^[n] s).deliveries_round
      · rw [round_of_nil hdown hup]
        exact .inl ⟨hdown, hup⟩
      · obtain ⟨hdown, hup⟩ | hle := hqueues
        · rw [round_of_nil hdown hup]
          exact .inl ⟨hdown, hup⟩
        · exact .inr (Nat.lt_of_le_of_lt hle hlt)

/-- The queues are empty when all messages have been handed over. -/
theorem Inv.spent (h : s.Inv server client down up arrived)
    (hspent : 5 + 2 * s.asked ≤ s.deliveries) : s.toClient = [] ∧ s.toServer = [] := by
  have hremaining := h.remaining
  obtain rfl : down = [] := eq_nil_of_sum_le_zero ServerAudioOutputPdu.weight_pos (by omega)
  obtain rfl : up = [] := eq_nil_of_sum_le_zero ClientAudioOutputPdu.weight_pos (by omega)
  exact ⟨h.toClient, h.toServer⟩

theorem Inv.settles (h : s.Inv server client down up arrived)
    (hsize : (RdpsndServer.offer server).size ≤ 65535) :
    s.deliveries ≤ 5 + 2 * s.asked ∧
      (s.toClient = [] → s.toServer = [] → s.Settled server client) ∧
      ∀ n, 5 + 2 * s.asked ≤ n →
        (round^[n] s).Settled server client ∧ (round^[n] s).sent = s.sent := by
  have hremaining := h.remaining
  refine ⟨by omega, h.settled, fun n hn => ?_⟩
  obtain ⟨⟨down, up, arrived, hrounds⟩, hasked, hmade, hqueues⟩ := h.rounds hsize n
  refine ⟨?_, by rw [RdpsndLink.sent, RdpsndLink.sent, hmade]⟩
  obtain ⟨hdown, hup⟩ | hle := hqueues
  · exact hrounds.settled hdown hup
  · have hempty := hrounds.spent (by rw [hasked]; omega)
    exact hrounds.settled hempty.1 hempty.2

end RdpsndLink

end WasmRdp
