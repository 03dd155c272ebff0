import WasmRdp.Lib.Runs
import WasmRdp.RelayRun
import WasmRdp.Upgrade

/-!
# A task of the page over the relay

The two tasks of `wasm/src/session.rs` that connect to a server, each with the
page's reader on one side and the relay on the other. A task is polled, runs
until it waits, and sends messages on the way; what a `send` comes to is part of
the event. It asks the relay for TLS with a text message, and the relay answers
with one.

What a task relies on is the relay's: the messages before the command go to the
server as they are, the others into TLS, and no text message reaches the page
before the handshake, nor any but the relay's own. What the relay relies on is
the task's (`Disciplined`): nothing is sent between the command and its answer.

The argument is therefore in two parts that meet in `RelayedTask.Inv`. On the
relay's side `Took` says where the messages that it has taken have gone, with
a lemma for each kind of event (`Took.step`), and `Relay.Secured` when it has
done its handshake. On the page's side `TaskPoll.Keeps` is what a poll has to
establish: what it sends is in its turn, given which text messages may have
come. A task is shown `Disciplined` by itself, poll by poll, and
`RelayedTask.always_inv` combines that with the relay for every order of
events and every failure.

The reads of the page matter in one respect only. They take messages off the
front of the WebSocket and never invent one, so that a text message which a
task has seen was sent by the relay (`text_of_performTlsUpgrade`).
-/

namespace WasmRdp

open Framing Sinks Runs

/-! ## Messages -/

def WsMessage.isLoss : WsMessage → Bool
  | error _ | closed => true
  | _ => false

def ClientMessage.isControl : ClientMessage → Bool
  | binary _ | text _ => false
  | _ => true

def ClientMessage.isText : ClientMessage → Bool
  | text _ => true
  | _ => false

def RelayEvent.isFromClient : RelayEvent → Bool
  | fromClient _ => true
  | _ => false

def RelayMessage.toWs : RelayMessage → WsMessage
  | binary data => .bytes data
  | text t => .text t

/-- The message of the page in an event. -/
def RelayEvent.message : RelayEvent → List ClientMessage
  | fromClient (.binary data) => [.binary data]
  | fromClient (.text t) => [.text t]
  | _ => []

/-- The certificate of the server in an event. -/
def RelayEvent.certs : RelayEvent → List (List UInt8)
  | connected peer => [serverCertDer peer]
  | _ => []

/-- A successful send. -/
def sentMessage (result : Except String Unit) (m : ClientMessage) : List ClientMessage :=
  match result with
  | .ok () => [m]
  | .error _ => []

/-- The command of `perform_tls_upgrade`. -/
def tlsUpgradeCommand : String := "\x7b\x22cmd\x22:\x22tls_upgrade\x22\x7d"

/-- The bytes of the binary messages. -/
def binaries (ms : List ClientMessage) : List UInt8 :=
  ms.flatMap fun
    | .binary data => data
    | _ => []

/-- The bytes before the first text message. -/
def clearBytes : List ClientMessage → List UInt8
  | [] => []
  | .text _ :: _ => []
  | .binary data :: ms => data ++ clearBytes ms
  | _ :: ms => clearBytes ms

/-- The bytes after it. -/
def tlsBytes : List ClientMessage → List UInt8
  | [] => []
  | .text _ :: ms => binaries ms
  | _ :: ms => tlsBytes ms

/-! ## The system -/

/-- What a poll leaves, and what it has sent. -/
structure TaskPoll (P : Type) where
  point : P
  framed : WasmFramed
  sent : List ClientMessage

structure RelayedTask (P : Type) where
  /-- where the task waits -/
  point : P
  framed : WasmFramed
  /-- what the page has sent -/
  sent : List ClientMessage
  /-- the part of it that the relay has not taken -/
  toRelay : List ClientMessage
  relay : Relay
  /-- how many messages of the relay have come to the page -/
  arrived : Nat
  /-- the certificates that the relay has been shown -/
  certs : List (List UInt8)

inductive RelayedEvent (S : Type) where
  | poll (sends : S)
  | arrive
  /-- the page's WebSocket fails or is closed -/
  | pageLoses (m : WsMessage)
  | relayTakes
  /-- the relay's WebSocket is pinged, fails or is closed -/
  | relayHears (m : ClientMessage)
  | relay (ev : RelayEvent)

/-- A read that goes on where it waits. -/
def resumeRead (F : FrameReader) (p : F.Point) (f : WasmFramed) : Poll F.Point :=
  fillBuf F p f.wsRead f.buf f.rxBytes

namespace RelayedTask

variable {P S : Type} (fromStr : String → Option Value) (poll : S → P → WasmFramed → TaskPoll P)

def start (point : P) : RelayedTask P where
  point := point
  framed := ⟨[], [], 0⟩
  sent := []
  toRelay := []
  relay := Relay.start
  arrived := 0
  certs := []

def send (s : RelayedTask P) (ms : List ClientMessage) : RelayedTask P :=
  { s with sent := s.sent ++ ms, toRelay := s.toRelay ++ ms }

def receive (s : RelayedTask P) (m : WsMessage) : RelayedTask P :=
  { s with framed := { s.framed with wsRead := s.framed.wsRead ++ [m] } }

/-- An event that cannot happen changes nothing. -/
def relayStep (s : RelayedTask P) (ev : RelayEvent) : RelayedTask P :=
  match s.relay.step fromStr ev with
  | none => s
  | some relay => { s with relay, certs := s.certs ++ ev.certs }

def step (s : RelayedTask P) : RelayedEvent S → RelayedTask P
  | .poll sends =>
      let next := poll sends s.point s.framed
      { s with point := next.point, framed := next.framed }.send next.sent
  | .arrive =>
      match s.relay.ws.out[s.arrived]? with
      | none => s
      | some m => { s with arrived := s.arrived + 1 }.receive m.toWs
  | .pageLoses m => if m.isLoss then s.receive m else s
  | .relayTakes =>
      match s.toRelay with
      | [] => s
      | m :: toRelay =>
          match s.relay.step fromStr (.fromClient m) with
          | none => s
          | some relay => { s with toRelay, relay }
  | .relayHears m => if m.isControl then s.relayStep fromStr (.fromClient m) else s
  | .relay ev => if ev.isFromClient then s else s.relayStep fromStr ev

end RelayedTask

/-- The relay has done its handshake, or has stopped. -/
def Relay.Secured (r : Relay) : Prop := r.phase = .tls ∨ r.phase = .closed

/-- An answer of the relay. -/
def Announced (certs : List (List UInt8)) (text : String) : Prop :=
  (∃ c ∈ certs, text = tlsReady c) ∨ ∃ e, text = tlsError e

/-- A text message that the page may have. -/
def RelayedTask.Heard {P : Type} (s : RelayedTask P) (text : String) : Prop :=
  s.relay.Secured ∧ Announced s.certs text

/-! ## The page's reads -/

/-- What is left of the WebSocket's messages. -/
def UpgradePoll.wsRead : UpgradePoll → List WsMessage
  | .pending framed | .ready _ framed => framed.wsRead

def TextPoll.wsRead : TextPoll → List WsMessage
  | .pending framed | .ready _ framed => framed.wsRead

theorem wsRead_fillBuf (F : FrameReader) (p : F.Point) (ws : List WsMessage) (buf : List UInt8)
    (rxBytes : Nat) : (fillBuf F p ws buf rxBytes).framed.wsRead <:+ ws := by
  induction ws generalizing p buf rxBytes with
  | nil => exact List.suffix_rfl
  | cons m ws ih =>
      cases m with
      | bytes data =>
          rw [fillBuf]
          split
          · exact (ih ..).trans (List.suffix_cons ..)
          · exact List.suffix_cons ..
          · exact List.suffix_cons ..
      | text t => exact (ih ..).trans (List.suffix_cons ..)
      | error e => exact List.suffix_cons ..
      | closed => exact List.suffix_cons ..

theorem wsRead_startRead (F : FrameReader) (f : WasmFramed) :
    (startRead F f).framed.wsRead <:+ f.wsRead := by
  rw [startRead]
  split
  · exact wsRead_fillBuf ..
  · exact List.suffix_rfl
  · exact List.suffix_rfl

theorem wsRead_readTextMessage (ws : List WsMessage) (buf : List UInt8) (rxBytes : Nat) :
    (readTextMessage ws buf rxBytes).wsRead <:+ ws := by
  induction ws generalizing buf with
  | nil => exact List.suffix_rfl
  | cons m ws ih =>
      cases m with
      | bytes data => exact (ih _).trans (List.suffix_cons ..)
      | text t => exact List.suffix_cons ..
      | error e => exact List.suffix_cons ..
      | closed => exact List.suffix_cons ..

theorem mem_of_readTextMessage {ws : List WsMessage} {buf : List UInt8} {rxBytes : Nat} {t : String}
    {f : WasmFramed} (h : readTextMessage ws buf rxBytes = .ready (.ok t) f) : .text t ∈ ws := by
  induction ws generalizing buf with
  | nil => cases h
  | cons m ws ih =>
      cases m with
      | bytes data => exact List.mem_cons_of_mem _ (ih h)
      | text t' =>
          cases h
          exact List.mem_cons_self ..
      | error e => cases h
      | closed => cases h

theorem wsRead_performTlsUpgrade (result : Except String Unit) (f : WasmFramed) :
    (performTlsUpgrade result f).wsRead <:+ f.wsRead := by
  cases result with
  | error e => exact List.suffix_rfl
  | ok u =>
      have hread := wsRead_readTextMessage f.wsRead f.buf f.rxBytes
      rw [performTlsUpgrade]
      generalize readTextMessage f.wsRead f.buf f.rxBytes = read at hread
      rcases read with framed | ⟨e | text, framed⟩
      · exact hread
      · exact hread
      · dsimp only
        split <;> exact hread

/-- The certificate of an upgrade is in a text message. -/
theorem text_of_performTlsUpgrade {result : Except String Unit} {f f' : WasmFramed}
    {certDer : List UInt8} (h : performTlsUpgrade result f = .ready (.ok certDer) f') :
    ∃ t, .text t ∈ f.wsRead ∧ readTlsReady t = some (.ok certDer) := by
  cases result with
  | error e => cases h
  | ok u =>
      rw [performTlsUpgrade] at h
      cases hread : readTextMessage f.wsRead f.buf f.rxBytes with
      | pending framed =>
          rw [hread] at h
          cases h
      | ready r framed =>
          rw [hread] at h
          cases r with
          | error e => cases h
          | ok t =>
              refine ⟨t, mem_of_readTextMessage hread, ?_⟩
              dsimp only at h
              cases hready : readTlsReady t with
              | none =>
                  rw [hready] at h
                  cases h
              | some certDer' =>
                  rw [hready] at h
                  cases certDer' with
                  | error e => cases h
                  | ok certDer' =>
                      cases h
                      rfl

/-- It is the one that the relay has been shown. -/
theorem Announced.mem {certs : List (List UInt8)} {t : String} (h : Announced certs t)
    {certDer : List UInt8} (hready : readTlsReady t = some (.ok certDer)) : certDer ∈ certs := by
  rcases h with ⟨c, hc, rfl⟩ | ⟨e, rfl⟩
  · rw [readTlsReady_tlsReady] at hready
    cases hready
    exact hc
  · rw [readTlsReady, parseTlsReady_tlsError] at hready
    cases hready

/-! ## The relay -/

theorem binaries_append (ms ms' : List ClientMessage) :
    binaries (ms ++ ms') = binaries ms ++ binaries ms' := List.flatMap_append ..

/-- Messages with no text among them, and those that come after. -/
theorem bytes_of_noText {ms : List ClientMessage} (h : ∀ m ∈ ms, m.isText = false)
    (ms' : List ClientMessage) :
    clearBytes (ms ++ ms') = clearBytes ms ++ clearBytes ms' ∧
      tlsBytes (ms ++ ms') = tlsBytes ms' := by
  induction ms with
  | nil => exact ⟨rfl, rfl⟩
  | cons m ms ih =>
      obtain ⟨hclear, htls⟩ := ih fun m' hm' => h m' (List.mem_cons_of_mem _ hm')
      cases m with
      | binary data =>
          refine ⟨?_, htls⟩
          simp only [List.cons_append, clearBytes, hclear, List.append_assoc]
      | text t => cases h _ (List.mem_cons_self ..)
      | _ => exact ⟨hclear, htls⟩

theorem tlsBytes_of_noText {ms : List ClientMessage} (h : ∀ m ∈ ms, m.isText = false) :
    tlsBytes ms = [] := by
  have htls := (bytes_of_noText h []).2
  rwa [List.append_nil] at htls

/-- Messages with a text among them. -/
theorem bytes_of_text {ms : List ClientMessage} (h : ∃ m ∈ ms, m.isText = true)
    (ms' : List ClientMessage) :
    clearBytes (ms ++ ms') = clearBytes ms ∧
      tlsBytes (ms ++ ms') = tlsBytes ms ++ binaries ms' := by
  induction ms with
  | nil =>
      obtain ⟨m, hm, -⟩ := h
      cases hm
  | cons m ms ih =>
      cases m with
      | text t => exact ⟨rfl, binaries_append ms ms'⟩
      | binary data =>
          obtain ⟨m, hm, htext⟩ := h
          rcases List.mem_cons.mp hm with rfl | hm
          · cases htext
          obtain ⟨hclear, htls⟩ := ih ⟨m, hm, htext⟩
          exact ⟨congrArg (data ++ ·) hclear, htls⟩
      | _ =>
          obtain ⟨m, hm, htext⟩ := h
          rcases List.mem_cons.mp hm with rfl | hm
          · cases htext
          exact ih ⟨m, hm, htext⟩

/-- Later messages take nothing away. -/
theorem bytes_le (ms ms' : List ClientMessage) :
    clearBytes ms <+: clearBytes (ms ++ ms') ∧ tlsBytes ms <+: tlsBytes (ms ++ ms') := by
  by_cases h : ∃ m ∈ ms, m.isText = true
  · rw [(bytes_of_text h ms').1, (bytes_of_text h ms').2]
    exact ⟨List.prefix_rfl, List.prefix_append ..⟩
  · have hnone : ∀ m ∈ ms, m.isText = false := by simpa using h
    rw [(bytes_of_noText hnone ms').1, tlsBytes_of_noText hnone]
    exact ⟨List.prefix_append .., List.nil_prefix⟩

theorem message_of_not_isControl {m : ClientMessage} (h : m.isControl = false) :
    (RelayEvent.fromClient m).message = [m] := by
  cases m with
  | binary data => rfl
  | text t => rfl
  | _ => cases h

theorem message_of_isControl {m : ClientMessage} (h : m.isControl = true) :
    (RelayEvent.fromClient m).message = [] := by
  cases m with
  | binary data => cases h
  | text t => cases h
  | _ => rfl

theorem mem_dropLast_append {α : Type} {xs : List α} {x : α} (h : x ∈ xs.dropLast) (ys : List α) :
    x ∈ (xs ++ ys).dropLast := by
  cases ys with
  | nil => rwa [List.append_nil]
  | cons y ys =>
      rw [List.dropLast_append_of_ne_nil (List.cons_ne_nil y ys)]
      exact List.mem_append_left _ (List.mem_of_mem_dropLast h)

theorem Announced.mono {certs certs' : List (List UInt8)} (hsub : certs ⊆ certs') {t : String}
    (h : Announced certs t) : Announced certs' t :=
  h.imp_left fun ⟨c, hc, heq⟩ => ⟨c, hsub hc, heq⟩

namespace Relay

/-- The relay after the messages `taken`: those before the command have gone to
TCP, the others to TLS. It sends its own text message only when the handshake is
done. -/
structure Took (certs : List (List UInt8)) (taken : List ClientMessage) (r : Relay) : Prop where
  tcp : r.tcp.all = clearBytes taken
  tls : r.tls.all = tlsBytes taken
  upgraded : r.phase = .raw ∨ r.phase = .closed ∨ ∃ m ∈ taken, m.isText = true
  quiet : r.phase = .raw ∨ r.phase = .handshake → ∀ t, .text t ∉ r.ws.all
  announced : ∀ t, .text t ∈ r.ws.all → Announced certs t
  heard : ∀ t, .text t ∈ r.ws.out → r.Secured

variable {fromStr : String → Option Value} {certs : List (List UInt8)} {taken : List ClientMessage}
  {r r' : Relay} {ev : RelayEvent}

theorem took_start : Took [] [] start :=
  ⟨rfl, rfl, .inl rfl, fun _ _ => List.not_mem_nil, fun _ h => absurd h List.not_mem_nil,
    fun _ h => absurd h List.not_mem_nil⟩

theorem Took.close (h : Took certs taken r) : Took certs taken r.close :=
  ⟨h.tcp, h.tls, .inr (.inl rfl), nofun, h.announced, fun _ _ => .inr rfl⟩

/-- Where the relay has sent no text message yet. -/
theorem Took.of_quiet (htcp : r.tcp.all = clearBytes taken) (htls : r.tls.all = tlsBytes taken)
    (hupgraded : r.phase = .raw ∨ r.phase = .closed ∨ ∃ m ∈ taken, m.isText = true)
    (hquiet : ∀ t, .text t ∉ r.ws.all) : Took certs taken r where
  tcp := htcp
  tls := htls
  upgraded := hupgraded
  quiet := fun _ => hquiet
  announced := fun t ht => absurd ht (hquiet t)
  heard := fun t ht => absurd (r.ws.out_prefix_all.subset ht) (hquiet t)

theorem text_of_send {ws : Sink RelayMessage} {data : List UInt8} (hidle : ws.Idle) {t : String}
    (ht : .text t ∈ (ws.send [.binary data]).all) : .text t ∈ ws.all := by
  rw [hidle.all_send, List.mem_append, List.mem_singleton] at ht
  rcases ht with ht | ht
  · exact ht
  · cases ht

/-- A message in the first loop. -/
theorem Took.rawMessage (h : Took certs taken r) (hphase : r.phase = .raw)
    (hroom : ∀ m ∈ taken, m.isText = false) {m : ClientMessage} (hm : m.isControl = false)
    (hidle : r.tcp.Idle) : Took certs (taken ++ [m]) (r.rawMessage fromStr m) := by
  have hquiet := h.quiet (.inl hphase)
  obtain ⟨hclear, htls⟩ := bytes_of_noText hroom [m]
  have hnone : r.tls.all = [] := h.tls.trans (tlsBytes_of_noText hroom)
  cases m with
  | binary data =>
      refine .of_quiet ?_ (hnone.trans htls.symm) (.inl hphase) hquiet
      have hall : (r.tcp.send data).all = r.tcp.all ++ data := hidle.all_send data
      rw [hclear, ← h.tcp]
      exact hall.trans (congrArg _ (List.append_nil data).symm)
  | text t =>
      have htcp : r.tcp.all = clearBytes (taken ++ [.text t]) := by
        rw [hclear, h.tcp]
        exact (List.append_nil _).symm
      have htls' : r.tls.all = tlsBytes (taken ++ [.text t]) := hnone.trans htls.symm
      rw [Relay.rawMessage]
      split
      · exact .of_quiet htcp htls' (.inr (.inr ⟨.text t, by simp, rfl⟩)) hquiet
      · exact .of_quiet htcp htls' (.inl hphase) hquiet
  | _ => cases hm

theorem Took.rawStep (h : Took certs taken r) (hphase : r.phase = .raw)
    (hroom : ∀ m ∈ (taken ++ ev.message).dropLast, m.isText = false)
    (hstep : r.rawStep fromStr ev = some r') : Took certs (taken ++ ev.message) r' := by
  have hquiet := h.quiet (.inl hphase)
  have hkeep : ∀ {r₁ : Relay}, ev.message = [] → Took certs taken r₁ →
      Took certs (taken ++ ev.message) r₁ := by
    intro r₁ hnil h₁
    rwa [hnil, List.append_nil]
  cases ev with
  | fromClient m =>
      obtain ⟨hidle, ⟨⟩⟩ := Option.ite_none_right_eq_some.mp hstep
      cases hm : m.isControl with
      | false =>
          rw [message_of_not_isControl hm] at hroom ⊢
          rw [List.dropLast_concat] at hroom
          exact h.rawMessage hphase hroom hm hidle.1
      | true =>
          refine hkeep (message_of_isControl hm) ?_
          cases m with
          | binary data | text t => cases hm
          | ping | pong => exact h
          | close | error | ended => exact h.close
  | fromServer data =>
      obtain ⟨hidle, hread⟩ := Option.ite_none_right_eq_some.mp hstep
      split at hread
      · cases hread
        exact hkeep rfl h.close
      · cases hread
        exact hkeep rfl (.of_quiet h.tcp h.tls (.inl hphase) fun t ht =>
          hquiet t (text_of_send hidle.2.1 ht))
  | wrote n =>
      obtain ⟨-, ⟨⟩⟩ := Option.ite_none_right_eq_some.mp hstep
      exact hkeep rfl (.of_quiet ((r.tcp.all_accept n).trans h.tcp) h.tls (.inl hphase) hquiet)
  | sent =>
      obtain ⟨-, ⟨⟩⟩ := Option.ite_none_left_eq_some.mp hstep
      refine hkeep rfl (.of_quiet h.tcp h.tls (.inl hphase) fun t ht => hquiet t ?_)
      rwa [← r.ws.all_accept 1]
  | readFailed =>
      obtain ⟨-, ⟨⟩⟩ := Option.ite_none_right_eq_some.mp hstep
      exact hkeep rfl h.close
  | writeFailed | sendFailed =>
      obtain ⟨-, ⟨⟩⟩ := Option.ite_none_left_eq_some.mp hstep
      exact hkeep rfl h.close
  | connected peer | connectFailed e => cases hstep

/-- The answer is written when the handshake is done. -/
theorem Took.handshakeStep (h : Took certs taken r) (hphase : r.phase = .handshake)
    (hupgraded : ∃ m ∈ taken, m.isText = true) (hstep : r.handshakeStep ev = some r') :
    Took (certs ++ ev.certs) taken r' := by
  have hquiet := h.quiet (.inr hphase)
  have hanswer : ∀ {answer : String}, Announced (certs ++ ev.certs) answer →
      ∀ t, .text t ∈ (r.ws.send [.text answer]).all → Announced (certs ++ ev.certs) t := by
    intro answer hanswer t ht
    rcases List.mem_append.mp ht with ht | ht
    · exact absurd (r.ws.out_prefix_all.subset ht) (hquiet t)
    · obtain rfl := RelayMessage.text.inj (List.mem_singleton.mp ht)
      exact hanswer
  cases ev with
  | connected peer =>
      cases hstep
      exact ⟨h.tcp, h.tls, .inr (.inr hupgraded), nofun,
        hanswer (.inl ⟨_, List.mem_append_right _ (List.mem_singleton_self _), rfl⟩),
        fun t ht => absurd (r.ws.out_prefix_all.subset ht) (hquiet t)⟩
  | connectFailed e =>
      cases hstep
      exact ⟨h.tcp, h.tls, .inr (.inr hupgraded), nofun, hanswer (.inr ⟨e, rfl⟩),
        fun t ht => absurd (r.ws.out_prefix_all.subset ht) (hquiet t)⟩
  | _ => cases hstep

theorem Took.answerStep {next : Phase} (h : Took certs taken r)
    (hupgraded : ∃ m ∈ taken, m.isText = true) (hnext : next = .tls ∨ next = .closed)
    (hstep : r.answerStep next ev = some r') : Took certs taken r' := by
  cases ev with
  | sent =>
      cases hstep
      refine ⟨h.tcp, h.tls, .inr (.inr hupgraded), ?_, fun t ht => h.announced t ?_,
        fun _ _ => hnext⟩
      · rcases hnext with rfl | rfl <;> rintro (h | h) <;> cases h
      · rwa [← r.ws.all_accept 1]
  | sendFailed =>
      cases hstep
      exact h.close
  | _ => cases hstep

theorem Took.tlsStep (h : Took certs taken r) (hphase : r.phase = .tls)
    (hupgraded : ∃ m ∈ taken, m.isText = true) (hstep : r.tlsStep ev = some r') :
    Took certs (taken ++ ev.message) r' := by
  obtain ⟨m, hm, htext⟩ := hupgraded
  obtain ⟨hclear, hsecured⟩ := bytes_of_text ⟨m, hm, htext⟩ ev.message
  have htls : ∀ {r₁ : Relay}, r₁.phase = .tls → r₁.tcp = r.tcp →
      r₁.tls.all = r.tls.all ++ binaries ev.message →
      (∀ t, .text t ∈ r₁.ws.all → .text t ∈ r.ws.all) → Took certs (taken ++ ev.message) r₁ := by
    intro r₁ hphase₁ htcp₁ htls₁ hws₁
    refine ⟨?_, ?_, .inr (.inr ⟨m, List.mem_append_left _ hm, htext⟩), ?_,
      fun t ht => h.announced t (hws₁ t ht), fun _ _ => .inl hphase₁⟩
    · rw [htcp₁, h.tcp, hclear]
    · rw [htls₁, h.tls, hsecured]
    · rw [hphase₁]
      rintro (h | h) <;> cases h
  have hclose : ev.message = [] → Took certs (taken ++ ev.message) r.close := fun hnil => by
    rw [hnil, List.append_nil]
    exact h.close
  cases ev with
  | fromClient m =>
      obtain ⟨hidle, ⟨⟩⟩ := Option.ite_none_right_eq_some.mp hstep
      cases m with
      | binary data =>
          exact htls hphase rfl ((hidle.all_send data).trans
            (congrArg _ (List.append_nil data).symm)) fun _ ht => ht
      | text _ | ping | pong => exact htls hphase rfl (List.append_nil _).symm fun _ ht => ht
      | close | error | ended => exact hclose rfl
  | fromServer data =>
      obtain ⟨hidle, hread⟩ := Option.ite_none_right_eq_some.mp hstep
      split at hread
      · cases hread
        exact hclose rfl
      · cases hread
        exact htls hphase rfl (List.append_nil _).symm fun _ => text_of_send hidle.1
  | wrote n =>
      obtain ⟨-, ⟨⟩⟩ := Option.ite_none_right_eq_some.mp hstep
      exact htls hphase rfl ((r.tls.all_accept n).trans (List.append_nil _).symm) fun _ ht => ht
  | sent =>
      obtain ⟨-, ⟨⟩⟩ := Option.ite_none_left_eq_some.mp hstep
      refine htls hphase rfl (List.append_nil _).symm fun t ht => ?_
      rwa [← r.ws.all_accept 1]
  | readFailed =>
      obtain ⟨-, ⟨⟩⟩ := Option.ite_none_right_eq_some.mp hstep
      exact hclose rfl
  | writeFailed | sendFailed =>
      obtain ⟨-, ⟨⟩⟩ := Option.ite_none_left_eq_some.mp hstep
      exact hclose rfl
  | connected peer | connectFailed e => cases hstep

/-- What one event does. In the first loop a text message is the last. -/
theorem Took.step (h : Took certs taken r)
    (hroom : r.phase = .raw → ∀ m ∈ (taken ++ ev.message).dropLast, m.isText = false)
    (hstep : r.step fromStr ev = some r') : Took (certs ++ ev.certs) (taken ++ ev.message) r' := by
  have hupgraded : r.phase ≠ .raw → r.phase ≠ .closed → ∃ m ∈ taken, m.isText = true :=
    fun hraw hclosed => (h.upgraded.resolve_left hraw).resolve_left hclosed
  have hanswer : ∀ {next : Phase},
      r.answerStep next ev = some r' → ev.message = [] ∧ ev.certs = [] := by
    intro next hsome
    cases ev with
    | fromClient m | connected peer => cases hsome
    | _ => exact ⟨rfl, rfl⟩
  have hcerts : r.rawStep fromStr ev = some r' ∨ r.tlsStep ev = some r' → ev.certs = [] := by
    intro hsome
    cases ev with
    | connected peer => rcases hsome with hsome | hsome <;> cases hsome
    | _ => rfl
  rw [Relay.step] at hstep
  split at hstep <;> rename_i hphase
  · rw [hcerts (.inl hstep), List.append_nil]
    exact h.rawStep hphase (hroom hphase) hstep
  · have hnil : ev.message = [] := by
      cases ev with
      | fromClient m => cases hstep
      | _ => rfl
    rw [hnil, List.append_nil]
    exact h.handshakeStep hphase (hupgraded (by simp [hphase]) (by simp [hphase])) hstep
  · rw [(hanswer hstep).1, (hanswer hstep).2, List.append_nil, List.append_nil]
    exact h.answerStep (hupgraded (by simp [hphase]) (by simp [hphase])) (.inl rfl) hstep
  · rw [(hanswer hstep).1, (hanswer hstep).2, List.append_nil, List.append_nil]
    exact h.answerStep (hupgraded (by simp [hphase]) (by simp [hphase])) (.inr rfl) hstep
  · rw [hcerts (.inr hstep), List.append_nil]
    exact h.tlsStep hphase (hupgraded (by simp [hphase]) (by simp [hphase])) hstep
  · cases hstep

/-- `run_tls_relay` goes on, or the relay stops. -/
theorem secured_tlsStep (hphase : r.phase = .tls) (hstep : r.tlsStep ev = some r') :
    r'.Secured := by
  cases ev with
  | fromClient m =>
      obtain ⟨-, ⟨⟩⟩ := Option.ite_none_right_eq_some.mp hstep
      cases m with
      | binary _ | text _ | ping | pong => exact .inl hphase
      | close | error | ended => exact .inr rfl
  | fromServer data =>
      obtain ⟨-, hread⟩ := Option.ite_none_right_eq_some.mp hstep
      split at hread <;> cases hread
      · exact .inr rfl
      · exact .inl hphase
  | wrote n =>
      obtain ⟨-, ⟨⟩⟩ := Option.ite_none_right_eq_some.mp hstep
      exact .inl hphase
  | sent =>
      obtain ⟨-, ⟨⟩⟩ := Option.ite_none_left_eq_some.mp hstep
      exact .inl hphase
  | readFailed =>
      obtain ⟨-, ⟨⟩⟩ := Option.ite_none_right_eq_some.mp hstep
      exact .inr rfl
  | writeFailed | sendFailed =>
      obtain ⟨-, ⟨⟩⟩ := Option.ite_none_left_eq_some.mp hstep
      exact .inr rfl
  | connected _ | connectFailed _ => cases hstep

theorem Secured.step (h : r.Secured) (hstep : r.step fromStr ev = some r') : r'.Secured := by
  rcases h with hphase | hphase <;> rw [Relay.step, hphase] at hstep
  · exact secured_tlsStep hphase hstep
  · cases hstep

end Relay

/-! ## Runs -/

section
variable {P S : Type} {fromStr : String → Option Value} {poll : S → P → WasmFramed → TaskPoll P}
  {Sent : (String → Prop) → P → List ClientMessage → Prop} {s : RelayedTask P}

/-- A poll that found the messages `ws` after the page had sent `sent`. -/
structure TaskPoll.Keeps (Sent : P → List ClientMessage → Prop) (ws : List WsMessage)
    (sent : List ClientMessage) (next : TaskPoll P) : Prop where
  wsRead : next.framed.wsRead <:+ ws
  sent : Sent next.point (sent ++ next.sent)

/-- Messages that go ahead of what the rest of the poll sends. -/
theorem TaskPoll.Keeps.after {Sent : P → List ClientMessage → Prop} {ws : List WsMessage}
    {sent ms : List ClientMessage} {next : TaskPoll P} (h : next.Keeps Sent ws (sent ++ ms)) :
    TaskPoll.Keeps Sent ws sent { next with sent := ms ++ next.sent } := by
  refine ⟨h.wsRead, ?_⟩
  rw [← List.append_assoc]
  exact h.sent

theorem TaskPoll.Keeps.after_one {Sent : P → List ClientMessage → Prop} {ws : List WsMessage}
    {sent : List ClientMessage} {m : ClientMessage} {next : TaskPoll P}
    (h : next.Keeps Sent ws (sent ++ [m])) :
    TaskPoll.Keeps Sent ws sent { next with sent := m :: next.sent } :=
  h.after

/-- A poll that ends without a further message. -/
theorem TaskPoll.keeps_last {Sent : P → List ClientMessage → Prop} {ws : List WsMessage}
    {sent : List ClientMessage} {point : P} {framed : WasmFramed} (hws : framed.wsRead <:+ ws)
    (hsent : Sent point sent) : TaskPoll.Keeps Sent ws sent ⟨point, framed, []⟩ := by
  refine ⟨hws, ?_⟩
  rw [List.append_nil]
  exact hsent

/-- What a task has sent where it waits, by the text messages that may have
come: none comes between the command and what is sent next. -/
structure Disciplined (poll : S → P → WasmFramed → TaskPoll P)
    (Sent : (String → Prop) → P → List ClientMessage → Prop) : Prop where
  mono {heard heard' : String → Prop} {point : P} {sent : List ClientMessage}
    (hsub : ∀ t, heard t → heard' t) : Sent heard point sent → Sent heard' point sent
  plain {heard : String → Prop} {point : P} {sent : List ClientMessage} :
    Sent heard point sent → ∀ m ∈ sent, m.isControl = false
  room {heard : String → Prop} {point : P} {sent : List ClientMessage} :
    Sent heard point sent → (∃ t, heard t) ∨ ∀ m ∈ sent.dropLast, m.isText = false
  poll {heard : String → Prop} {point : P} {sent : List ClientMessage} (sends : S)
    (framed : WasmFramed) (hheard : ∀ t, .text t ∈ framed.wsRead → heard t) :
    Sent heard point sent → (poll sends point framed).Keeps (Sent heard) framed.wsRead sent

/-- The relay has taken what the page has sent and is not on its way; a text
message has reached the page only after the handshake. -/
structure RelayedTask.Inv (Sent : (String → Prop) → P → List ClientMessage → Prop)
    (s : RelayedTask P) : Prop where
  sent : Sent s.Heard s.point s.sent
  took : ∃ taken, s.sent = taken ++ s.toRelay ∧ s.relay.Took s.certs taken
  heard : ∀ t, .text t ∈ s.framed.wsRead → s.Heard t

namespace RelayedTask

theorem Inv.tcp (h : s.Inv Sent) : s.relay.tcp.all <+: clearBytes s.sent := by
  obtain ⟨taken, hsent, htook⟩ := h.took
  rw [hsent, htook.tcp]
  exact (bytes_le ..).1

theorem Inv.tls (h : s.Inv Sent) : s.relay.tls.all <+: tlsBytes s.sent := by
  obtain ⟨taken, hsent, htook⟩ := h.took
  rw [hsent, htook.tls]
  exact (bytes_le ..).2

theorem Inv.receive (h : s.Inv Sent) {m : WsMessage} (hm : ∀ t, m = .text t → s.Heard t) :
    (s.receive m).Inv Sent := by
  refine ⟨h.sent, h.took, fun t ht => ?_⟩
  rcases List.mem_append.mp ht with ht | ht
  · exact h.heard t ht
  · exact hm t (List.mem_singleton.mp ht).symm

/-- The relay takes a step, with the message that is next or with none. -/
theorem Inv.relay (hd : Disciplined poll Sent) (h : s.Inv Sent) {ev : RelayEvent} {relay : Relay}
    {toRelay : List ClientMessage} (hnext : s.toRelay = ev.message ++ toRelay)
    (hstep : s.relay.step fromStr ev = some relay) :
    ({ s with toRelay, relay, certs := s.certs ++ ev.certs } : RelayedTask P).Inv Sent := by
  have hheard : ∀ t, s.Heard t →
      ({ s with toRelay, relay, certs := s.certs ++ ev.certs } : RelayedTask P).Heard t :=
    fun t ht => ⟨ht.1.step hstep, ht.2.mono (List.subset_append_left ..)⟩
  obtain ⟨taken, heq, htook⟩ := h.took
  rw [hnext, ← List.append_assoc] at heq
  have hroom : s.relay.phase = .raw → ∀ m ∈ (taken ++ ev.message).dropLast, m.isText = false := by
    intro hphase m hm
    rcases hd.room h.sent with ⟨t, hsecured, -⟩ | hroom
    · rcases hsecured with hsecured | hsecured <;> rw [hphase] at hsecured <;> cases hsecured
    · rw [heq] at hroom
      exact hroom m (mem_dropLast_append hm toRelay)
  exact ⟨hd.mono hheard h.sent, ⟨taken ++ ev.message, heq, htook.step hroom hstep⟩,
    fun t ht => hheard t (h.heard t ht)⟩

theorem Inv.relayStep (hd : Disciplined poll Sent) (h : s.Inv Sent) {ev : RelayEvent}
    (hev : ev.message = []) : (s.relayStep fromStr ev).Inv Sent := by
  rw [RelayedTask.relayStep]
  cases hstep : s.relay.step fromStr ev with
  | none => exact h
  | some relay =>
      have hnext : s.toRelay = ev.message ++ s.toRelay := by rw [hev]; rfl
      exact h.relay hd hnext hstep

/-- The page and the relay, one event at a time. -/
theorem Inv.step (hd : Disciplined poll Sent) (h : s.Inv Sent) (ev : RelayedEvent S) :
    (s.step fromStr poll ev).Inv Sent := by
  obtain ⟨taken, heq, htook⟩ := h.took
  cases ev with
  | poll sends =>
      obtain ⟨hws, hsent⟩ := hd.poll sends s.framed h.heard h.sent
      refine ⟨hsent, ⟨taken, ?_, htook⟩, fun t ht => h.heard t (hws.subset ht)⟩
      rw [RelayedTask.step, RelayedTask.send, heq, List.append_assoc]
  | arrive =>
      rw [RelayedTask.step]
      cases hout : s.relay.ws.out[s.arrived]? with
      | none => exact h
      | some m =>
          have h' : ({ s with arrived := s.arrived + 1 } : RelayedTask P).Inv Sent :=
            ⟨h.sent, h.took, h.heard⟩
          refine h'.receive fun t ht => ?_
          cases m with
          | binary data => cases ht
          | text t' =>
              cases ht
              have hmem := List.mem_of_getElem? hout
              exact ⟨htook.heard t hmem, htook.announced t (s.relay.ws.out_prefix_all.subset hmem)⟩
  | pageLoses m =>
      rw [RelayedTask.step]
      split
      · rename_i hloss
        refine h.receive fun t ht => ?_
        rw [ht] at hloss
        cases hloss
      · exact h
  | relayTakes =>
      rw [RelayedTask.step]
      split
      · exact h
      · rename_i m toRelay htoRelay
        cases hstep : s.relay.step fromStr (.fromClient m) with
        | none => exact h
        | some relay =>
            have hmem : m ∈ s.sent := by rw [heq, htoRelay]; simp
            have hmessage : (RelayEvent.fromClient m).message = [m] :=
              message_of_not_isControl (hd.plain h.sent m hmem)
            have hinv := h.relay hd (htoRelay.trans (by rw [hmessage]; rfl)) hstep
            have hcerts : s.certs ++ (RelayEvent.fromClient m).certs = s.certs := List.append_nil _
            rwa [hcerts] at hinv
  | relayHears m =>
      rw [RelayedTask.step]
      split
      · rename_i hcontrol
        exact h.relayStep hd (message_of_isControl hcontrol)
      · exact h
  | relay ev =>
      rw [RelayedTask.step]
      split
      · exact h
      · rename_i hclient
        refine h.relayStep hd ?_
        cases ev with
        | fromClient m => exact absurd rfl hclient
        | _ => rfl

/-- In whatever order messages come, are taken and are polled for, wherever a
send, the handshake or either connection fails, and whatever the relay takes for
the command. -/
theorem always_inv (hd : Disciplined poll Sent) {point : P} (hstart : ∀ heard, Sent heard point [])
    (events : List (RelayedEvent S)) :
    Always (RelayedTask.step fromStr poll) (Inv Sent) (start point) events := by
  refine always_of_each (c := fun _ _ => True) (fun s ev _ h _ => h.step hd ev) ?_
    fun _ _ _ => trivial
  exact ⟨hstart _, ⟨[], rfl, Relay.took_start⟩, fun _ h => absurd h List.not_mem_nil⟩

end RelayedTask

end

end WasmRdp
