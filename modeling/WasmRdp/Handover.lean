import WasmRdp.Rdstls
import WasmRdp.RelayedTask

/-!
# The redirected connection

`perform_redirected_connection` of `wasm/src/session.rs` up to where the
ordinary connection goes on, over the reader of the page and the relay. The
connection request, the hint of its answer and the decoder are the protocol
library's.

The page sends the credentials of the redirection packet, which the relay would
pass on as they are. That they meet an encrypted stream is a property of both:
the page sends them only after a text message, and the relay sends none before
its handshake with the server is done.

The task is a chain of waits (`HandoverPoint`), and a poll runs through as many
of them as it finds answers for. `HandoverPoint.Sent` says at each wait
what has been sent: the connection request, then the command, and after the
answer, which needs a text message, the credentials. `keeps_poll` goes along
the chain, and with it the task is `Disciplined` (`disciplined`). The rest is
`RelayedTask`, and `always_encrypted` reads off what the server and TLS have
been given.

The certificate of the answer is compared with the packet's and a mismatch is
only logged, as in the source; the statement is about encryption and says
nothing of who is at the other end.
-/

namespace WasmRdp

open Framing Runs

/-- `nego::ConnectionConfirm` -/
inductive ConnectionConfirm where
  | response (protocol : UInt32)
  | failure (code : UInt32)

/-- `nego::SecurityProtocol::RDSTLS` -/
def SecurityProtocol.RDSTLS : UInt32 := 0x00000004

inductive HandoverError where
  /-- `Failed to encode redirected ConnectionRequest: {e}` -/
  | encode (e : String)
  /-- `WebSocket send failed: {e}` -/
  | send (e : String)
  /-- `Failed to read redirected ConnectionConfirm` -/
  | readConfirm (e : ReadError)
  /-- `Failed to decode ConnectionConfirm: {e}` -/
  | decodeConfirm (e : String)
  /-- `Redirected connection negotiation failed: {code:?}` -/
  | negotiation (code : UInt32)
  /-- `Redirected server did not select RDSTLS` -/
  | notSelected (protocol : UInt32)
  | upgrade (e : UpgradeError)
  /-- `Failed to read RDSTLS Capabilities PDU` -/
  | readCapabilities (e : ReadError)
  | rdstls (e : RdstlsError)
  /-- `Failed to read RDSTLS Authentication Response PDU` -/
  | readResponse (e : ReadError)

/-- Where the task waits. -/
inductive HandoverPoint where
  | request
  | confirm (p : HintPoint)
  | tlsReady (selectedProtocol : UInt32)
  | capabilities (selectedProtocol : UInt32)
  | response (selectedProtocol : UInt32)
  | failed (e : HandoverError)
  /-- handed to `perform_connection` -/
  | basicSettingsExchange (selectedProtocol : UInt32)

/-- What the sends of a poll come to. -/
structure HandoverSends where
  request : Except String Unit
  upgrade : Except String Unit
  authRequest : Except String Unit
  /-- what `perform_connection` sends -/
  connection : List (List UInt8)

section
variable (pending : PendingRedirect)
  (connectionRequest : PendingRedirect → Except String (List UInt8))
  (x224Hint : PduHint) (decodeConfirm : List UInt8 → Except String ConnectionConfirm)

namespace HandoverPoint

def afterResponse (selected : UInt32) : Poll Unit → TaskPoll HandoverPoint
  | .pending _ framed => ⟨.response selected, framed, []⟩
  | .ready (.error e) framed => ⟨.failed (.readResponse e), framed, []⟩
  | .ready (.ok (_, responseBytes)) framed =>
      match Redirect.parseAuthResponse responseBytes with
      | .error e => ⟨.failed (.rdstls e), framed, []⟩
      | .ok () => ⟨.basicSettingsExchange selected, framed, []⟩

def afterCapabilities (sends : HandoverSends) (selected : UInt32) :
    Poll Unit → TaskPoll HandoverPoint
  | .pending _ framed => ⟨.capabilities selected, framed, []⟩
  | .ready (.error e) framed => ⟨.failed (.readCapabilities e), framed, []⟩
  | .ready (.ok (_, capsBytes)) framed =>
      match Redirect.parseCapabilities capsBytes with
      | .error e => ⟨.failed (.rdstls e), framed, []⟩
      | .ok () =>
          match sends.authRequest with
          | .error e => ⟨.failed (.send e), framed, []⟩
          | .ok () =>
              let next := afterResponse selected (startRead (readExact 10) framed)
              { next with sent := .binary pending.authRequest :: next.sent }

/-- The certificate is compared with the packet's, and at most logged. -/
def afterUpgrade (sends : HandoverSends) (selected : UInt32) : UpgradePoll → TaskPoll HandoverPoint
  | .pending framed => ⟨.tlsReady selected, framed, []⟩
  | .ready (.error e) framed => ⟨.failed (.upgrade e), framed, []⟩
  | .ready (.ok _) framed =>
      afterCapabilities pending sends selected (startRead (readExact 8) framed)

def afterConfirm (sends : HandoverSends) : Poll HintPoint → TaskPoll HandoverPoint
  | .pending p framed => ⟨.confirm p, framed, []⟩
  | .ready (.error e) framed => ⟨.failed (.readConfirm e), framed, []⟩
  | .ready (.ok (_, confirmBytes)) framed =>
      match decodeConfirm confirmBytes with
      | .error e => ⟨.failed (.decodeConfirm e), framed, []⟩
      | .ok (.failure code) => ⟨.failed (.negotiation code), framed, []⟩
      | .ok (.response protocol) =>
          if protocol &&& SecurityProtocol.RDSTLS ≠ SecurityProtocol.RDSTLS then
            ⟨.failed (.notSelected protocol), framed, []⟩
          else
            let next := afterUpgrade pending sends protocol
              (performTlsUpgrade sends.upgrade framed)
            { next with sent := sentMessage sends.upgrade (.text tlsUpgradeCommand) ++ next.sent }

def afterRequest (sends : HandoverSends) (framed : WasmFramed) : TaskPoll HandoverPoint :=
  match connectionRequest pending with
  | .error e => ⟨.failed (.encode e), framed, []⟩
  | .ok bytes =>
      match sends.request with
      | .error e => ⟨.failed (.send e), framed, []⟩
      | .ok () =>
          let next := afterConfirm pending decodeConfirm sends
            (startRead (readByHint x224Hint) framed)
          { next with sent := .binary bytes :: next.sent }

/-- One poll of the task. -/
def poll (sends : HandoverSends) : HandoverPoint → WasmFramed → TaskPoll HandoverPoint
  | .request, framed =>
      afterRequest pending connectionRequest x224Hint decodeConfirm sends framed
  | .confirm p, framed =>
      afterConfirm pending decodeConfirm sends (resumeRead (readByHint x224Hint) p framed)
  | .tlsReady selected, framed =>
      afterUpgrade pending sends selected (performTlsUpgrade (.ok ()) framed)
  | .capabilities selected, framed =>
      afterCapabilities pending sends selected (resumeRead (readExact 8) () framed)
  | .response selected, framed => afterResponse selected (resumeRead (readExact 10) () framed)
  | .failed e, framed => ⟨.failed e, framed, []⟩
  | .basicSettingsExchange selected, framed =>
      ⟨.basicSettingsExchange selected, framed, sends.connection.map .binary⟩

end HandoverPoint

end

/-! ## What must not happen -/

abbrev Handover := RelayedTask HandoverPoint

def SecurityProtocol.Selected (protocol : UInt32) : Prop :=
  protocol &&& SecurityProtocol.RDSTLS = SecurityProtocol.RDSTLS

def HandoverPoint.selected? : HandoverPoint → Option UInt32
  | tlsReady selected | capabilities selected | response selected
  | basicSettingsExchange selected => some selected
  | _ => none

/-- The server has no byte in the clear but of the connection request. The page
sends nothing but this and the command until the relay is through its handshake;
then it sends the credentials first, and what the server has from the TLS stream
is what the page has sent since the command. -/
structure Handover.Safe (pending : PendingRedirect) (request : List UInt8) (s : Handover) :
    Prop where
  clear : s.relay.tcp.all <+: request
  encrypted : s.relay.tls.all <+: binaries (s.sent.drop 2)
  sent : s.sent <+: [.binary request, .text tlsUpgradeCommand] ∨
    s.relay.Secured ∧ ∃ more : List (List UInt8), s.sent = .binary request ::
      .text tlsUpgradeCommand :: .binary pending.authRequest :: more.map .binary
  selected : ∀ protocol, s.point.selected? = some protocol → SecurityProtocol.Selected protocol

/-! ## The page -/

/-- What has been sent where the task waits; `secured` says that a text message
may have come. -/
def HandoverPoint.Sent (pending : PendingRedirect) (request : List UInt8) (secured : Prop) :
    HandoverPoint → List ClientMessage → Prop
  | .request, sent => sent = []
  | .confirm _, sent => sent = [.binary request]
  | .tlsReady selected, sent =>
      sent = [.binary request, .text tlsUpgradeCommand] ∧ SecurityProtocol.Selected selected
  | .capabilities selected, sent =>
      sent = [.binary request, .text tlsUpgradeCommand] ∧
        SecurityProtocol.Selected selected ∧ secured
  | .response selected, sent =>
      sent = [.binary request, .text tlsUpgradeCommand, .binary pending.authRequest] ∧
        SecurityProtocol.Selected selected ∧ secured
  | .basicSettingsExchange selected, sent =>
      (∃ more : List (List UInt8), sent = .binary request :: .text tlsUpgradeCommand ::
        .binary pending.authRequest :: more.map .binary) ∧
        SecurityProtocol.Selected selected ∧ secured
  | .failed _, sent => sent <+: [.binary request, .text tlsUpgradeCommand] ∨
      sent = [.binary request, .text tlsUpgradeCommand, .binary pending.authRequest] ∧ secured

section
variable {pending : PendingRedirect} {request : List UInt8} {secured secured' : Prop}
  {ws : List WsMessage} {sent : List ClientMessage} {selected : UInt32}

theorem HandoverPoint.Sent.mono (hsecured : secured → secured') {point : HandoverPoint}
    (h : point.Sent pending request secured sent) : point.Sent pending request secured' sent := by
  cases point with
  | request => exact h
  | confirm p => exact h
  | tlsReady selected => exact h
  | capabilities selected => exact ⟨h.1, h.2.1, hsecured h.2.2⟩
  | response selected => exact ⟨h.1, h.2.1, hsecured h.2.2⟩
  | basicSettingsExchange selected => exact ⟨h.1, h.2.1, hsecured h.2.2⟩
  | failed e => exact h.imp_right fun ⟨hsent, h⟩ => ⟨hsent, hsecured h⟩

/-- The page has sent two messages at most, or the relay is through. -/
theorem HandoverPoint.Sent.cases {point : HandoverPoint}
    (h : point.Sent pending request secured sent) :
    sent <+: [.binary request, .text tlsUpgradeCommand] ∨
      secured ∧ ∃ more : List (List UInt8), sent = .binary request :: .text tlsUpgradeCommand ::
        .binary pending.authRequest :: more.map .binary := by
  cases point with
  | request => exact .inl (h ▸ List.nil_prefix)
  | confirm p => exact .inl (h ▸ List.prefix_append [_] [_])
  | tlsReady selected => exact .inl (h.1 ▸ List.prefix_rfl)
  | capabilities selected => exact .inl (h.1 ▸ List.prefix_rfl)
  | response selected => exact .inr ⟨h.2.2, [], h.1⟩
  | basicSettingsExchange selected => exact .inr ⟨h.2.2, h.1⟩
  | failed e => exact h.imp_right fun ⟨hsent, h⟩ => ⟨h, [], hsent⟩

theorem HandoverPoint.Sent.not_isControl {point : HandoverPoint} {m : ClientMessage}
    (h : point.Sent pending request secured sent) (hm : m ∈ sent) : m.isControl = false := by
  rcases h.cases with hshort | ⟨-, more, rfl⟩
  · have hmem := hshort.subset hm
    simp only [List.mem_cons, List.not_mem_nil, or_false] at hmem
    rcases hmem with rfl | rfl <;> rfl
  · simp only [List.mem_cons, List.mem_map] at hm
    rcases hm with rfl | rfl | rfl | ⟨data, -, rfl⟩ <;> rfl

theorem HandoverPoint.Sent.contains {point : HandoverPoint}
    (h : point.Sent pending request secured sent) {protocol : UInt32}
    (hselected : point.selected? = some protocol) : SecurityProtocol.Selected protocol := by
  cases point with
  | tlsReady selected => exact Option.some.inj hselected ▸ h.2
  | capabilities selected => exact Option.some.inj hselected ▸ h.2.1
  | response selected => exact Option.some.inj hselected ▸ h.2.1
  | basicSettingsExchange selected => exact Option.some.inj hselected ▸ h.2.1
  | _ => cases hselected

namespace HandoverPoint

theorem keeps_failed {f : WasmFramed} (e : HandoverError) (hws : f.wsRead <:+ ws)
    (h : sent <+: [.binary request, .text tlsUpgradeCommand] ∨
      sent = [.binary request, .text tlsUpgradeCommand, .binary pending.authRequest] ∧ secured) :
    TaskPoll.Keeps (Sent pending request secured) ws sent ⟨.failed e, f, []⟩ :=
  TaskPoll.keeps_last hws h

theorem keeps_afterResponse {p : Poll Unit} (hws : p.framed.wsRead <:+ ws)
    (hsent : sent = [.binary request, .text tlsUpgradeCommand, .binary pending.authRequest])
    (hselected : SecurityProtocol.Selected selected) (h : secured) :
    (afterResponse selected p).Keeps (Sent pending request secured) ws sent := by
  rcases p with ⟨_, framed⟩ | ⟨_ | ⟨_, responseBytes⟩, framed⟩
  · exact ⟨hws, (List.append_nil _).trans hsent, hselected, h⟩
  · exact keeps_failed _ hws (.inr ⟨hsent, h⟩)
  · rw [afterResponse]
    cases Redirect.parseAuthResponse responseBytes with
    | error e => exact keeps_failed _ hws (.inr ⟨hsent, h⟩)
    | ok u => exact ⟨hws, ⟨[], (List.append_nil _).trans hsent⟩, hselected, h⟩

theorem keeps_afterCapabilities (sends : HandoverSends) {p : Poll Unit}
    (hws : p.framed.wsRead <:+ ws)
    (hsent : sent = [.binary request, .text tlsUpgradeCommand])
    (hselected : SecurityProtocol.Selected selected) (h : secured) :
    (afterCapabilities pending sends selected p).Keeps (Sent pending request secured) ws sent := by
  have hpre : sent <+: [.binary request, .text tlsUpgradeCommand] := hsent ▸ List.prefix_rfl
  rcases p with ⟨_, framed⟩ | ⟨_ | ⟨_, capsBytes⟩, framed⟩
  · exact ⟨hws, (List.append_nil _).trans hsent, hselected, h⟩
  · exact keeps_failed _ hws (.inl hpre)
  · rw [afterCapabilities]
    cases Redirect.parseCapabilities capsBytes with
    | error e => exact keeps_failed _ hws (.inl hpre)
    | ok u =>
        cases sends.authRequest with
        | error e => exact keeps_failed _ hws (.inl hpre)
        | ok u =>
            refine TaskPoll.Keeps.after_one (keeps_afterResponse ?_ ?_ hselected h)
            · exact (wsRead_startRead ..).trans hws
            · rw [hsent]
              rfl

theorem keeps_afterUpgrade (sends : HandoverSends) {p : UpgradePoll} (hws : p.wsRead <:+ ws)
    (hsent : sent = [.binary request, .text tlsUpgradeCommand])
    (hselected : SecurityProtocol.Selected selected)
    (h : ∀ certDer framed, p = .ready (.ok certDer) framed → secured) :
    (afterUpgrade pending sends selected p).Keeps (Sent pending request secured) ws sent := by
  rcases p with framed | ⟨e | certDer, framed⟩
  · exact ⟨hws, (List.append_nil _).trans hsent, hselected⟩
  · exact keeps_failed _ hws (.inl (hsent ▸ List.prefix_rfl))
  · exact keeps_afterCapabilities sends ((wsRead_startRead ..).trans hws) hsent hselected
      (h certDer framed rfl)

theorem keeps_afterConfirm (decodeConfirm : List UInt8 → Except String ConnectionConfirm)
    (sends : HandoverSends) {p : Poll HintPoint} (hws : p.framed.wsRead <:+ ws)
    (hsent : sent = [.binary request]) (h : ∀ t, .text t ∈ ws → secured) :
    (afterConfirm pending decodeConfirm sends p).Keeps (Sent pending request secured) ws sent := by
  have hpre : sent <+: [.binary request, .text tlsUpgradeCommand] :=
    hsent ▸ List.prefix_append [_] [_]
  rcases p with ⟨p, framed⟩ | ⟨_ | ⟨_, confirmBytes⟩, framed⟩
  · exact ⟨hws, (List.append_nil _).trans hsent⟩
  · exact keeps_failed _ hws (.inl hpre)
  · rw [afterConfirm]
    rcases decodeConfirm confirmBytes with e | ⟨protocol⟩ | ⟨code⟩
    · exact keeps_failed _ hws (.inl hpre)
    · dsimp only
      split
      · exact keeps_failed _ hws (.inl hpre)
      rename_i hselected
      have hread : framed.wsRead <:+ ws := hws
      refine TaskPoll.Keeps.after ?_
      cases hupgrade : sends.upgrade with
      | error e => exact keeps_failed _ hread (.inl (by simpa [sentMessage] using hpre))
      | ok u =>
          refine keeps_afterUpgrade sends ((wsRead_performTlsUpgrade ..).trans hread) ?_
            (not_not.mp hselected) ?_
          · rw [hsent]
            rfl
          · intro certDer framed' heq
            obtain ⟨t, ht, -⟩ := text_of_performTlsUpgrade heq
            exact h t (hread.subset ht)
    · exact keeps_failed _ hws (.inl hpre)

/-- A poll sends what is its turn. -/
theorem keeps_poll {connectionRequest : PendingRedirect → Except String (List UInt8)}
    (hrequest : (connectionRequest pending).toOption.getD [] = request) (x224Hint : PduHint)
    (decodeConfirm : List UInt8 → Except String ConnectionConfirm) (sends : HandoverSends)
    (framed : WasmFramed) {point : HandoverPoint} (hsent : point.Sent pending request secured sent)
    (h : ∀ t, .text t ∈ framed.wsRead → secured) :
    (point.poll pending connectionRequest x224Hint decodeConfirm sends framed).Keeps
      (Sent pending request secured) framed.wsRead sent := by
  cases point with
  | request =>
      have hnil : sent <+: [.binary request, .text tlsUpgradeCommand] :=
        (show sent = [] from hsent) ▸ List.nil_prefix
      rw [poll, afterRequest]
      cases hencode : connectionRequest pending with
      | error e => exact keeps_failed _ List.suffix_rfl (.inl hnil)
      | ok bytes =>
          have hbytes : bytes = request := by rw [← hrequest, hencode]; rfl
          cases sends.request with
          | error e => exact keeps_failed _ List.suffix_rfl (.inl hnil)
          | ok u =>
              refine TaskPoll.Keeps.after_one (keeps_afterConfirm decodeConfirm sends ?_ ?_ h)
              · exact wsRead_startRead ..
              · rw [show sent = [] from hsent, hbytes]
                rfl
  | confirm p => exact keeps_afterConfirm decodeConfirm sends (wsRead_fillBuf ..) hsent h
  | tlsReady selected =>
      refine keeps_afterUpgrade sends (wsRead_performTlsUpgrade ..) hsent.1 hsent.2
        fun certDer framed' heq => ?_
      obtain ⟨t, ht, -⟩ := text_of_performTlsUpgrade heq
      exact h t ht
  | capabilities selected =>
      exact keeps_afterCapabilities sends (wsRead_fillBuf ..) hsent.1 hsent.2.1 hsent.2.2
  | response selected => exact keeps_afterResponse (wsRead_fillBuf ..) hsent.1 hsent.2.1 hsent.2.2
  | failed e => exact TaskPoll.keeps_last List.suffix_rfl hsent
  | basicSettingsExchange selected =>
      obtain ⟨⟨more, rfl⟩, hselected, hsecured⟩ := hsent
      refine ⟨List.suffix_rfl, ⟨more ++ sends.connection, ?_⟩, hselected, hsecured⟩
      rw [List.map_append]
      rfl

/-- The page's part of the argument. -/
theorem disciplined {connectionRequest : PendingRedirect → Except String (List UInt8)}
    (hrequest : (connectionRequest pending).toOption.getD [] = request) (x224Hint : PduHint)
    (decodeConfirm : List UInt8 → Except String ConnectionConfirm) :
    Disciplined (poll pending connectionRequest x224Hint decodeConfirm)
      fun heard => Sent pending request (∃ t, heard t) where
  mono hsub h := h.mono fun ⟨t, ht⟩ => ⟨t, hsub t ht⟩
  plain h _ hm := h.not_isControl hm
  room h := h.cases.symm.imp And.left fun ⟨rest, hrest⟩ m hm => by
    have hmem := mem_dropLast_append hm rest
    rw [hrest] at hmem
    rw [List.mem_singleton.mp hmem]
    rfl
  poll sends framed hheard h := keeps_poll hrequest x224Hint decodeConfirm sends framed h
    fun t ht => ⟨t, hheard t ht⟩

end HandoverPoint

end

namespace Handover

variable {pending : PendingRedirect} {request : List UInt8} {s : Handover}

theorem safe_of_inv
    (h : RelayedTask.Inv (fun heard => HandoverPoint.Sent pending request (∃ t, heard t)) s) :
    s.Safe pending request := by
  have hsent : s.point.Sent pending request s.relay.Secured s.sent :=
    h.sent.mono fun ⟨_, ht⟩ => ht.1
  have htcp := h.tcp
  have htls := h.tls
  refine ⟨?_, ?_, hsent.cases, fun _ hselected => hsent.contains hselected⟩
  · rcases hsent.cases with ⟨rest, hrest⟩ | ⟨-, more, heq⟩
    · have hbytes := (bytes_le s.sent rest).1
      rw [hrest] at hbytes
      have hrequest : clearBytes [.binary request, .text tlsUpgradeCommand] = request :=
        List.append_nil request
      exact htcp.trans (hrequest ▸ hbytes)
    · have hrequest : clearBytes s.sent = request := by
        rw [heq]
        exact List.append_nil request
      rwa [hrequest] at htcp
  · rcases hsent.cases with ⟨rest, hrest⟩ | ⟨-, more, heq⟩
    · have hbytes := (bytes_le s.sent rest).2
      rw [hrest] at hbytes
      exact (htls.trans hbytes).trans List.nil_prefix
    · rw [heq] at htls ⊢
      exact htls

/-- In whatever order messages come, are taken and are polled for, wherever a
send, the handshake or either connection fails, and whatever the relay takes for
the command. -/
theorem always_encrypted (pending : PendingRedirect)
    (connectionRequest : PendingRedirect → Except String (List UInt8)) (x224Hint : PduHint)
    (decodeConfirm : List UInt8 → Except String ConnectionConfirm)
    (fromStr : String → Option Value) (events : List (RelayedEvent HandoverSends)) :
    Always
      (RelayedTask.step fromStr
        (HandoverPoint.poll pending connectionRequest x224Hint decodeConfirm))
      (Handover.Safe pending ((connectionRequest pending).toOption.getD []))
      (RelayedTask.start .request) events := by
  have hdisciplined :=
    @HandoverPoint.disciplined pending _ connectionRequest rfl x224Hint decodeConfirm
  have hstart : ∀ heard : String → Prop, HandoverPoint.Sent pending
      ((connectionRequest pending).toOption.getD []) (∃ t, heard t) .request [] := fun _ => rfl
  intro pre hpre
  exact safe_of_inv (RelayedTask.always_inv hdisciplined hstart events pre hpre)

end Handover

end WasmRdp
