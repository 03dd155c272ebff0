import WasmRdp.RelayedTask

/-!
# The connection

`perform_connection` and `perform_credssp` of `wasm/src/session.rs` over the
page's reader and the relay. The connector, the CredSSP client and the certificate
parser are third-party code: a `Connector` is asked where it stands and steps on a
PDU, a `Credssp` client makes one request from each answer.

A poll is cut at the heads of the two loops, where the source goes on at once:
in between the relay may act, which it may not there. Each piece sends one message
at most. What the task does is noted, and the notes say in which order it does it
(`ConnectionNote.Follows`): the CredSSP exchange is bound to the key of the
certificate that the relay was shown, and the connector is not told that it is
done before it is.

Nothing is assumed of the third-party code. It may ask for an upgrade at any
time, twice, or for CredSSP without one; what is proved is what the task makes
of that. So the invariant speaks of the notes and not of the connector's
state: `ConnectionPoint.At` is what is known where the task waits, `Noted` that
the notes are in order and the messages are theirs, and `Sent` both together.
There is one lemma for each part of the two functions, under its name
(`keeps_round`, `keeps_reply`, `keeps_finish`, `keeps_turn` and others), and
`keeps_poll` puts them together.

With that the task is `Disciplined`, and `RelayedTask` gives the run. What the
server has in the clear comes from the notes before the first upgrade
(`exists_clear`). `always_bound` has the whole.
-/

namespace WasmRdp

open Framing Runs

/-! ## Third-party code -/

/-- What a step of the connector leaves: whether `written.is_nothing()`, and what
is in the buffer. -/
structure Stepped (κ : Type) where
  connector : κ
  nothing : Bool
  buf : List UInt8

/-- `ClientConnector` -/
structure Connector (κ : Type) where
  /-- `ClientConnectorState::Connected` -/
  connected : κ → Bool
  shouldPerformSecurityUpgrade : κ → Bool
  markSecurityUpgradeAsDone : κ → κ
  shouldPerformCredssp : κ → Bool
  markCredsspAsDone : κ → κ
  /-- the text of the state contains `HYBRID_EX` -/
  hybridEx : κ → Bool
  nextPduHint : κ → Option PduHint
  step : κ → List UInt8 → List UInt8 → Except String (Stepped κ)
  stepNoInput : κ → List UInt8 → Except String (Stepped κ)

/-- `sspi::credssp::ClientState` -/
inductive ClientState (τ : Type) where
  | replyNeeded (tsRequest : τ)
  | finalMessage (tsRequest : τ)

/-- `sspi::credssp::CredSspClient` with NTLM, and `TsRequest` -/
structure Credssp (υ σ τ : Type) where
  /-- `sspi::Username::new` -/
  username : String → Option String → Except String υ
  new : List UInt8 → υ → String → String → Except String σ
  default : τ
  /-- `process` and the start of its generator; `none` where it is suspended -/
  process : σ → τ → Option (Except String (σ × ClientState τ))
  encodeTsRequest : τ → Except String (List UInt8)
  fromBuffer : List UInt8 → Except String τ

/-! ## The task -/

inductive CredsspError where
  /-- `Invalid username: {e}` -/
  | username (e : String)
  /-- `CredSSP init failed: {e}` -/
  | init (e : String)
  /-- `CredSSP process error: {e}` -/
  | process (e : String)
  /-- `CredSSP: unexpected network request (Kerberos not supported)` -/
  | suspended
  /-- `TSRequest encode failed: {e}` -/
  | encode (e : String)
  /-- `Final TSRequest encode failed: {e}` -/
  | encodeFinal (e : String)
  /-- `WebSocket send: {e}` -/
  | send (e : String)
  /-- `Failed to read CredSSP response` -/
  | read (e : ReadError)
  /-- `TSRequest decode failed: {e}` -/
  | decode (e : String)
  | readEarlyUserAuthResult (e : ReadError)
  /-- `CredSSP EarlyUserAuthResult denied/invalid: {:?}` -/
  | denied (authResult : List UInt8)
  /-- `CredSSP: too many rounds, aborting` -/
  | tooManyRounds

inductive ConnectionError where
  | upgrade (e : UpgradeError)
  /-- of `extract_public_key` -/
  | publicKey (e : String)
  /-- `CredSSP authentication failed` -/
  | credssp (e : CredsspError)
  /-- `Failed to read PDU from server` -/
  | read (e : ReadError)
  /-- `Connector step failed` -/
  | step (e : String)
  /-- `Connector step_no_input failed` -/
  | stepNoInput (e : String)
  /-- `WebSocket send: {e}` -/
  | send (e : String)

/-- The locals of `perform_credssp`. -/
structure CredsspLocals (σ τ : Type) where
  credsspClient : σ
  tsRequest : τ
  round : Nat
  hybridEx : Bool

/-- Where the task waits, or is cut. -/
inductive ConnectionPoint (σ τ : Type) where
  /-- the head of the loop of `perform_connection` -/
  | turn
  | tlsReady
  | pdu (hint : PduHint) (p : HintPoint)
  /-- the head of the loop of `perform_credssp` -/
  | round (l : CredsspLocals σ τ)
  | response (l : CredsspLocals σ τ) (p : TsPoint)
  | earlyUserAuthResult
  | connected
  | failed (e : ConnectionError)

inductive ConnectionNote where
  /-- what the connector wrote is sent -/
  | pdu (data : List UInt8)
  | upgrade
  /-- `mark_security_upgrade_as_done` -/
  | secured (certDer serverPublicKey : List UInt8)
  | tsRequest (serverPublicKey data : List UInt8)
  | finalTsRequest (serverPublicKey : List UInt8) (hybridEx : Bool) (data : List UInt8)
  | earlyUserAuthResult (authResult : List UInt8)
  /-- `mark_credssp_as_done` -/
  | credsspDone

/-- The locals of `perform_connection`, and what it has done. -/
structure Connection (κ σ τ : Type) where
  connector : κ
  buf : List UInt8
  serverPublicKey : List UInt8
  point : ConnectionPoint σ τ
  notes : List ConnectionNote

/-- The message that is sent. -/
def ConnectionNote.message : ConnectionNote → List ClientMessage
  | pdu data | tsRequest _ data | finalTsRequest _ _ data => [.binary data]
  | upgrade => [.text tlsUpgradeCommand]
  | secured _ _ | earlyUserAuthResult _ | credsspDone => []

namespace Connection

variable {κ υ σ τ : Type}

def start (connector : κ) : Connection κ σ τ where
  connector := connector
  buf := []
  serverPublicKey := []
  point := .turn
  notes := []

def note (c : Connection κ σ τ) (n : ConnectionNote) : Connection κ σ τ :=
  { c with notes := c.notes ++ [n] }

/-- The task goes to a point and sends nothing. -/
def goto (c : Connection κ σ τ) (framed : WasmFramed) (point : ConnectionPoint σ τ) :
    TaskPoll (Connection κ σ τ) :=
  ⟨{ c with point }, framed, []⟩

def fail (c : Connection κ σ τ) (framed : WasmFramed) (e : ConnectionError) :
    TaskPoll (Connection κ σ τ) :=
  c.goto framed (.failed e)

variable (connector : Connector κ) (credssp : Credssp υ σ τ)
  (extractPublicKey : List UInt8 → Except String (List UInt8)) (username password domain : String)

/-! ### `perform_credssp` -/

def authenticated (c : Connection κ σ τ) (framed : WasmFramed) : TaskPoll (Connection κ σ τ) :=
  ({ c with connector := connector.markCredsspAsDone c.connector }.note .credsspDone).goto
    framed .turn

def afterEarlyUserAuthResult (c : Connection κ σ τ) : Poll Unit → TaskPoll (Connection κ σ τ)
  | .pending _ framed => c.goto framed .earlyUserAuthResult
  | .ready (.error e) framed => c.fail framed (.credssp (.readEarlyUserAuthResult e))
  | .ready (.ok (_, authResult)) framed =>
      if authResult ≠ [0, 0, 0, 0] then c.fail framed (.credssp (.denied authResult))
      else (c.note (.earlyUserAuthResult authResult)).authenticated connector framed

def afterResponse (l : CredsspLocals σ τ) (c : Connection κ σ τ) :
    Poll TsPoint → TaskPoll (Connection κ σ τ)
  | .pending p framed => c.goto framed (.response l p)
  | .ready (.error e) framed => c.fail framed (.credssp (.read e))
  | .ready (.ok (_, responseData)) framed =>
      match credssp.fromBuffer responseData with
      | .error e => c.fail framed (.credssp (.decode e))
      | .ok tsRequest =>
          if 10 < l.round then c.fail framed (.credssp .tooManyRounds)
          else c.goto framed (.round { l with tsRequest })

def reply (send : Except String Unit) (l : CredsspLocals σ τ) (c : Connection κ σ τ)
    (framed : WasmFramed) (tsRequest : τ) : TaskPoll (Connection κ σ τ) :=
  match credssp.encodeTsRequest tsRequest with
  | .error e => c.fail framed (.credssp (.encode e))
  | .ok encoded =>
      match send with
      | .error e => c.fail framed (.credssp (.send e))
      | .ok () =>
          let next := afterResponse credssp l (c.note (.tsRequest c.serverPublicKey encoded))
            (startRead readCredsspResponse framed)
          { next with sent := .binary encoded :: next.sent }

def finish (send : Except String Unit) (hybridEx : Bool) (c : Connection κ σ τ)
    (framed : WasmFramed) (tsRequest : τ) : TaskPoll (Connection κ σ τ) :=
  match credssp.encodeTsRequest tsRequest with
  | .error e => c.fail framed (.credssp (.encodeFinal e))
  | .ok encoded =>
      match send with
      | .error e => c.fail framed (.credssp (.send e))
      | .ok () =>
          let c := c.note (.finalTsRequest c.serverPublicKey hybridEx encoded)
          let next :=
            if hybridEx then afterEarlyUserAuthResult connector c (startRead (readExact 4) framed)
            else c.authenticated connector framed
          { next with sent := .binary encoded :: next.sent }

/-- One round. -/
def round (send : Except String Unit) (l : CredsspLocals σ τ) (c : Connection κ σ τ)
    (framed : WasmFramed) : TaskPoll (Connection κ σ τ) :=
  match credssp.process l.credsspClient l.tsRequest with
  | none => c.fail framed (.credssp .suspended)
  | some (.error e) => c.fail framed (.credssp (.process e))
  | some (.ok (credsspClient, .replyNeeded tsRequest)) =>
      reply credssp send { l with credsspClient, round := l.round + 1 } c framed tsRequest
  | some (.ok (_, .finalMessage tsRequest)) =>
      finish connector credssp send l.hybridEx c framed tsRequest

def performCredssp (c : Connection κ σ τ) (framed : WasmFramed) : TaskPoll (Connection κ σ τ) :=
  match credssp.username username (if domain = "" then none else some domain) with
  | .error e => c.fail framed (.credssp (.username e))
  | .ok sspiUsername =>
      match credssp.new c.serverPublicKey sspiUsername password "TERMSRV/localhost" with
      | .error e => c.fail framed (.credssp (.init e))
      | .ok credsspClient =>
          c.goto framed
            (.round ⟨credsspClient, credssp.default, 0, connector.hybridEx c.connector⟩)

/-! ### `perform_connection` -/

def afterUpgrade (c : Connection κ σ τ) : UpgradePoll → TaskPoll (Connection κ σ τ)
  | .pending framed => c.goto framed .tlsReady
  | .ready (.error e) framed => c.fail framed (.upgrade e)
  | .ready (.ok certDer) framed =>
      match extractPublicKey certDer with
      | .error e => c.fail framed (.publicKey e)
      | .ok serverPublicKey =>
          ({ c with
            connector := connector.markSecurityUpgradeAsDone c.connector
            serverPublicKey }.note (.secured certDer serverPublicKey)).goto framed .turn

/-- Whatever has been written is sent. -/
def afterStep (send : Except String Unit) (c : Connection κ σ τ) (framed : WasmFramed)
    (stepped : Stepped κ) : TaskPoll (Connection κ σ τ) :=
  let c := { c with connector := stepped.connector, buf := stepped.buf }
  if stepped.nothing then c.goto framed .turn
  else if stepped.buf = [] then { c with buf := [] }.goto framed .turn
  else
    match send with
    | .error e => c.fail framed (.send e)
    | .ok () =>
        { ({ c with buf := [] }.note (.pdu stepped.buf)).goto framed .turn with
          sent := [.binary stepped.buf] }

def afterPdu (send : Except String Unit) (hint : PduHint) (c : Connection κ σ τ) :
    Poll HintPoint → TaskPoll (Connection κ σ τ)
  | .pending p framed => c.goto framed (.pdu hint p)
  | .ready (.error e) framed => c.fail framed (.read e)
  | .ready (.ok (_, pdu)) framed =>
      match connector.step c.connector pdu c.buf with
      | .error e => c.fail framed (.step e)
      | .ok stepped => c.afterStep send framed stepped

/-- One turn of the loop. -/
def turn (send : Except String Unit) (c : Connection κ σ τ) (framed : WasmFramed) :
    TaskPoll (Connection κ σ τ) :=
  if connector.connected c.connector then c.goto framed .connected
  else if connector.shouldPerformSecurityUpgrade c.connector then
    match send with
    | .error e => c.fail framed (.upgrade (.send e))
    | .ok () =>
        let next := afterUpgrade connector extractPublicKey (c.note .upgrade)
          (performTlsUpgrade (.ok ()) framed)
        { next with sent := .text tlsUpgradeCommand :: next.sent }
  else if connector.shouldPerformCredssp c.connector then
    if c.serverPublicKey = [] then c.authenticated connector framed
    else performCredssp connector credssp username password domain c framed
  else
    match connector.nextPduHint c.connector with
    | some hint => afterPdu connector send hint c (startRead (readByHint hint) framed)
    | none =>
        match connector.stepNoInput c.connector c.buf with
        | .error e => c.fail framed (.stepNoInput e)
        | .ok stepped => c.afterStep send framed stepped

/-- One piece of a poll. -/
def poll (send : Except String Unit) (c : Connection κ σ τ) (framed : WasmFramed) :
    TaskPoll (Connection κ σ τ) :=
  match c.point with
  | .turn => turn connector credssp extractPublicKey username password domain send c framed
  | .tlsReady => afterUpgrade connector extractPublicKey c (performTlsUpgrade (.ok ()) framed)
  | .pdu hint p => afterPdu connector send hint c (resumeRead (readByHint hint) p framed)
  | .round l => round connector credssp send l c framed
  | .response l p => afterResponse credssp l c (resumeRead readCredsspResponse p framed)
  | .earlyUserAuthResult =>
      afterEarlyUserAuthResult connector c (resumeRead (readExact 4) () framed)
  | .connected | .failed _ => ⟨c, framed, []⟩

end Connection

/-! ## What must not happen -/

namespace ConnectionNote

/-- The key of the last upgrade. -/
def keyOf (notes : List ConnectionNote) : List UInt8 :=
  notes.foldl (fun key n =>
    match n with
    | secured _ serverPublicKey => serverPublicKey
    | _ => key) []

/-- How many requests in a row there are at the end. -/
def rounds (notes : List ConnectionNote) : Nat :=
  notes.foldl (fun count n =>
    match n with
    | tsRequest _ _ => count + 1
    | _ => 0) 0

/-- A note after those before it. A request is made under the key of the last
certificate, which is one that was presented and came with the answer to the
command; no exchange has more than eleven; and CredSSP is done when there is no
key, or after the last request, which `HYBRID_EX` has the server confirm. -/
def Follows (extractPublicKey : List UInt8 → Except String (List UInt8))
    (Presented : List UInt8 → Prop) (notes : List ConnectionNote) : ConnectionNote → Prop
  | pdu _ | upgrade => True
  | secured certDer serverPublicKey => notes.getLast? = some upgrade ∧ Presented certDer ∧
      extractPublicKey certDer = .ok serverPublicKey
  | tsRequest key _ | finalTsRequest key _ _ => key = keyOf notes ∧ key ≠ [] ∧ rounds notes ≤ 10
  | earlyUserAuthResult authResult => authResult = [0, 0, 0, 0] ∧
      ∃ key data, notes.getLast? = some (finalTsRequest key true data)
  | credsspDone => keyOf notes = [] ∨
      (∃ key data, notes.getLast? = some (finalTsRequest key false data)) ∨
      ∃ authResult, notes.getLast? = some (earlyUserAuthResult authResult)

/-- What the connector wrote. -/
def pduBytes : ConnectionNote → List UInt8
  | pdu data => data
  | _ => []

/-- A note that may stand before the upgrade. -/
def isClear : ConnectionNote → Bool
  | pdu _ | credsspDone => true
  | _ => false

/-- A note of the upgrade's end or of CredSSP. -/
def isSecret : ConnectionNote → Bool
  | secured _ _ | tsRequest _ _ | finalTsRequest _ _ _ | earlyUserAuthResult _ => true
  | _ => false

end ConnectionNote

/-- What the server has in the clear the connector wrote before the upgrade. There
is no request of CredSSP before the relay is through its handshake; and the notes
are in order, with the certificates that the relay was shown. -/
structure Connection.Safe {κ σ τ : Type}
    (extractPublicKey : List UInt8 → Except String (List UInt8))
    (s : RelayedTask (Connection κ σ τ)) : Prop where
  sent : s.sent = s.point.notes.flatMap ConnectionNote.message
  clear : ∃ pre, pre <+: s.point.notes ∧ (∀ n ∈ pre, n.isClear = true) ∧
    s.relay.tcp.all <+: pre.flatMap ConnectionNote.pduBytes
  encrypted : s.relay.tls.all <+: tlsBytes s.sent
  secured : (∃ n ∈ s.point.notes, n.isSecret = true) → s.relay.Secured
  ordered : Justified (fun pre n => n.Follows extractPublicKey (· ∈ s.certs) pre) s.point.notes

/-! ## The notes -/

namespace ConnectionNote

variable {extractPublicKey : List UInt8 → Except String (List UInt8)}
  {Presented Presented' : List UInt8 → Prop} {notes : List ConnectionNote}

@[simp] theorem keyOf_concat (n : ConnectionNote) : keyOf (notes ++ [n]) =
    match n with
    | secured _ serverPublicKey => serverPublicKey
    | _ => keyOf notes := by
  rw [keyOf, List.foldl_append]
  rfl

@[simp] theorem rounds_concat (n : ConnectionNote) : rounds (notes ++ [n]) =
    match n with
    | tsRequest _ _ => rounds notes + 1
    | _ => 0 := by
  rw [rounds, List.foldl_append]
  rfl

theorem Follows.mono (hsub : ∀ certDer, Presented certDer → Presented' certDer) {n : ConnectionNote}
    (h : n.Follows extractPublicKey Presented notes) :
    n.Follows extractPublicKey Presented' notes := by
  cases n with
  | secured certDer key => exact ⟨h.1, hsub certDer h.2.1, h.2.2⟩
  | _ => exact h

/-- A key has come with a certificate. -/
theorem presented_of_keyOf
    (h : Justified (fun pre n => n.Follows extractPublicKey Presented pre) notes)
    (hkey : keyOf notes ≠ []) : ∃ certDer, Presented certDer := by
  induction notes using List.reverseRecOn with
  | nil => exact absurd rfl hkey
  | append_singleton notes n ih =>
      obtain ⟨hnotes, hn⟩ := justified_concat.mp h
      rw [keyOf_concat] at hkey
      cases n with
      | secured certDer key => exact ⟨certDer, hn.2.1⟩
      | _ => exact ih hnotes hkey

theorem presented_of_isSecret
    (h : Justified (fun pre n => n.Follows extractPublicKey Presented pre) notes)
    {n : ConnectionNote} (hn : n ∈ notes) (hsecret : n.isSecret = true) :
    ∃ certDer, Presented certDer := by
  induction notes using List.reverseRecOn generalizing n with
  | nil => cases hn
  | append_singleton notes last ih =>
      obtain ⟨hnotes, hlast⟩ := justified_concat.mp h
      rcases List.mem_append.mp hn with hn | hn
      · exact ih hnotes hn hsecret
      obtain rfl := List.mem_singleton.mp hn
      cases n with
      | secured certDer key => exact ⟨certDer, hlast.2.1⟩
      | tsRequest key data | finalTsRequest key hybridEx data =>
          exact presented_of_keyOf hnotes (hlast.1 ▸ hlast.2.1)
      | earlyUserAuthResult r =>
          obtain ⟨-, key, data, heq⟩ := hlast
          exact ih hnotes (List.mem_of_getLast? heq) rfl
      | pdu data | upgrade | credsspDone => cases hsecret

/-- Before the upgrade there is no key, so there is nothing but the connector's
messages. -/
theorem clear_of_not_upgrade
    (h : Justified (fun pre n => n.Follows extractPublicKey Presented pre) notes)
    (hnone : .upgrade ∉ notes) : keyOf notes = [] ∧ ∀ n ∈ notes, n.isClear = true := by
  induction notes using List.reverseRecOn with
  | nil => exact ⟨rfl, List.forall_mem_nil _⟩
  | append_singleton notes n ih =>
      obtain ⟨hnotes, hn⟩ := justified_concat.mp h
      rw [List.mem_append, not_or] at hnone
      obtain ⟨hkey, hclear⟩ := ih hnotes hnone.1
      have hlast : ∀ last, notes.getLast? = some last → last.isClear = true :=
        fun last hlast => hclear last (List.mem_of_getLast? hlast)
      have hn : n.isClear = true := by
        cases n with
        | pdu data | credsspDone => rfl
        | upgrade => exact absurd (List.mem_singleton_self _) hnone.2
        | secured certDer key => cases hlast _ hn.1
        | tsRequest key data | finalTsRequest key hybridEx data =>
            exact absurd (hn.1.trans hkey) hn.2.1
        | earlyUserAuthResult r =>
            obtain ⟨-, key, data, heq⟩ := hn
            cases hlast _ heq
      refine ⟨?_, fun m hm => ?_⟩
      · rw [keyOf_concat]
        cases n with
        | secured certDer key => cases hn
        | _ => exact hkey
      · rcases List.mem_append.mp hm with hm | hm
        · exact hclear m hm
        · exact List.mem_singleton.mp hm ▸ hn

theorem not_isText_of_message {n : ConnectionNote} (hn : n ≠ upgrade) {m : ClientMessage}
    (hm : m ∈ n.message) : m.isText = false := by
  cases n with
  | upgrade => exact absurd rfl hn
  | pdu data | tsRequest key data | finalTsRequest key hybridEx data =>
      rw [List.mem_singleton.mp hm]
      rfl
  | secured certDer key | earlyUserAuthResult r | credsspDone => cases hm

theorem not_isControl_of_message {n : ConnectionNote} {m : ClientMessage} (hm : m ∈ n.message) :
    m.isControl = false := by
  cases n with
  | upgrade | pdu data | tsRequest key data | finalTsRequest key hybridEx data =>
      rw [List.mem_singleton.mp hm]
      rfl
  | secured certDer key | earlyUserAuthResult r | credsspDone => cases hm

theorem not_isText_of_messages (hnone : .upgrade ∉ notes) :
    ∀ m ∈ notes.flatMap message, m.isText = false := by
  intro m hm
  obtain ⟨n, hn, hm⟩ := List.mem_flatMap.mp hm
  exact not_isText_of_message (fun heq => hnone (heq ▸ hn)) hm

/-- The last message is of the last note, or there is none for it. -/
theorem not_isText_of_dropLast (hnone : .upgrade ∉ notes.dropLast) :
    ∀ m ∈ (notes.flatMap message).dropLast, m.isText = false := by
  intro m hm
  cases notes using List.reverseRecOn with
  | nil => cases hm
  | append_singleton notes n =>
      rw [List.dropLast_concat] at hnone
      rw [List.flatMap_append, List.flatMap_singleton] at hm
      refine not_isText_of_messages hnone m ?_
      cases n with
      | upgrade | pdu data | tsRequest key data | finalTsRequest key hybridEx data =>
          rwa [message, List.dropLast_concat] at hm
      | secured certDer key | earlyUserAuthResult r | credsspDone =>
          rw [message, List.append_nil] at hm
          exact List.mem_of_mem_dropLast hm

theorem clearBytes_of_clear (hclear : ∀ n ∈ notes, n.isClear = true) :
    clearBytes (notes.flatMap message) = notes.flatMap pduBytes := by
  induction notes with
  | nil => rfl
  | cons n notes ih =>
      have ih := ih fun n' hn' => hclear n' (List.mem_cons_of_mem _ hn')
      have hn := hclear n (List.mem_cons_self ..)
      cases n with
      | pdu data => exact congrArg (data ++ ·) ih
      | credsspDone => exact ih
      | _ => cases hn

end ConnectionNote

/-! ## The page -/

/-- A certificate in an answer that may have come. -/
def Certified (heard : String → Prop) (certDer : List UInt8) : Prop :=
  ∃ t, heard t ∧ readTlsReady t = some (.ok certDer)

open ConnectionNote in
/-- What is known where the task waits: an answer has come, or no command is
without its answer; and how far an exchange is. -/
def ConnectionPoint.At {σ τ : Type} (heard : String → Prop) (notes : List ConnectionNote) :
    ConnectionPoint σ τ → Prop
  | turn | pdu _ _ | connected => ((∃ t, heard t) ∨ .upgrade ∉ notes) ∧ rounds notes = 0
  | tlsReady =>
      ((∃ t, heard t) ∨ .upgrade ∉ notes.dropLast) ∧ notes.getLast? = some .upgrade
  | round l => keyOf notes ≠ [] ∧ rounds notes = l.round ∧ l.round ≤ 10
  | response l _ => keyOf notes ≠ [] ∧ rounds notes = l.round ∧ l.round ≤ 11
  | earlyUserAuthResult =>
      keyOf notes ≠ [] ∧ ∃ key data, notes.getLast? = some (.finalTsRequest key true data)
  | failed _ => (∃ t, heard t) ∨ .upgrade ∉ notes.dropLast

namespace Connection

variable {κ υ σ τ : Type}

/-- The notes are in order, and the messages are theirs. -/
structure Noted (extractPublicKey : List UInt8 → Except String (List UInt8))
    (heard : String → Prop) (c : Connection κ σ τ) (sent : List ClientMessage) : Prop where
  sent : sent = c.notes.flatMap ConnectionNote.message
  ordered : Justified (fun pre n => n.Follows extractPublicKey (Certified heard) pre) c.notes
  key : c.serverPublicKey = ConnectionNote.keyOf c.notes

/-- What the page has sent where it waits. -/
def Sent (extractPublicKey : List UInt8 → Except String (List UInt8)) (heard : String → Prop)
    (c : Connection κ σ τ) (sent : List ClientMessage) : Prop :=
  c.Noted extractPublicKey heard sent ∧ c.point.At heard c.notes

variable {connector : Connector κ} {credssp : Credssp υ σ τ}
  {extractPublicKey : List UInt8 → Except String (List UInt8)} {username password domain : String}
  {heard : String → Prop} {c : Connection κ σ τ} {l : CredsspLocals σ τ} {send : Except String Unit}
  {ws : List WsMessage} {sent : List ClientMessage} {framed : WasmFramed}

theorem Noted.answered (h : c.Noted extractPublicKey heard sent)
    (hkey : ConnectionNote.keyOf c.notes ≠ []) : ∃ t, heard t := by
  obtain ⟨_, t, ht, -⟩ := ConnectionNote.presented_of_keyOf h.ordered hkey
  exact ⟨t, ht⟩

theorem Noted.note (h : c.Noted extractPublicKey heard sent) {n : ConnectionNote}
    (hn : n.Follows extractPublicKey (Certified heard) c.notes)
    (hkey : ConnectionNote.keyOf (c.notes ++ [n]) = ConnectionNote.keyOf c.notes) :
    (c.note n).Noted extractPublicKey heard (sent ++ n.message) := by
  refine ⟨?_, justified_concat.mpr ⟨h.ordered, hn⟩, h.key.trans hkey.symm⟩
  rw [Connection.note, List.flatMap_append, List.flatMap_singleton, h.sent]

theorem keeps_goto (h : c.Noted extractPublicKey heard sent) (hws : framed.wsRead <:+ ws)
    {point : ConnectionPoint σ τ} (hpoint : point.At heard c.notes) :
    (c.goto framed point).Keeps (Sent extractPublicKey heard) ws sent :=
  TaskPoll.keeps_last hws ⟨⟨h.sent, h.ordered, h.key⟩, hpoint⟩

theorem keeps_fail (h : c.Noted extractPublicKey heard sent) (hws : framed.wsRead <:+ ws)
    (hheard : (∃ t, heard t) ∨ .upgrade ∉ c.notes.dropLast) (e : ConnectionError) :
    (c.fail framed e).Keeps (Sent extractPublicKey heard) ws sent :=
  keeps_goto h hws hheard

/-! ### `perform_credssp` -/

theorem keeps_authenticated (h : c.Noted extractPublicKey heard sent) (hws : framed.wsRead <:+ ws)
    (hheard : (∃ t, heard t) ∨ .upgrade ∉ c.notes)
    (hdone : ConnectionNote.Follows extractPublicKey (Certified heard) c.notes .credsspDone) :
    (c.authenticated connector framed).Keeps (Sent extractPublicKey heard) ws sent := by
  have hnoted := h.note hdone (ConnectionNote.keyOf_concat _)
  rw [ConnectionNote.message, List.append_nil] at hnoted
  have hturn : ConnectionPoint.At heard (c.notes ++ [.credsspDone]) (.turn : ConnectionPoint σ τ) :=
    ⟨hheard.imp_right fun hnone hmem => hnone (by simpa using hmem), by simp⟩
  exact TaskPoll.keeps_last hws ⟨⟨hnoted.sent, hnoted.ordered, hnoted.key⟩, hturn⟩

theorem keeps_afterEarlyUserAuthResult (h : c.Noted extractPublicKey heard sent)
    (hkey : ConnectionNote.keyOf c.notes ≠ [])
    (hlast : ∃ key data, c.notes.getLast? = some (.finalTsRequest key true data))
    {p : Poll Unit} (hws : p.framed.wsRead <:+ ws) :
    (afterEarlyUserAuthResult connector c p).Keeps (Sent extractPublicKey heard) ws sent := by
  have hheard := h.answered hkey
  rcases p with ⟨_, framed⟩ | ⟨e | ⟨_, authResult⟩, framed⟩
  · exact keeps_goto h hws ⟨hkey, hlast⟩
  · exact keeps_fail h hws (.inl hheard) _
  · rw [afterEarlyUserAuthResult]
    split
    · exact keeps_fail h hws (.inl hheard) _
    · rename_i hzero
      have hfollows : ConnectionNote.Follows extractPublicKey (Certified heard) c.notes
          (.earlyUserAuthResult authResult) := ⟨not_not.mp hzero, hlast⟩
      have hnoted := h.note hfollows (ConnectionNote.keyOf_concat _)
      rw [ConnectionNote.message, List.append_nil] at hnoted
      exact keeps_authenticated hnoted hws (.inl hheard) (.inr (.inr ⟨authResult, by simp [note]⟩))

theorem keeps_afterResponse (h : c.Noted extractPublicKey heard sent)
    (hkey : ConnectionNote.keyOf c.notes ≠ []) (hrounds : ConnectionNote.rounds c.notes = l.round)
    (hround : l.round ≤ 11) {p : Poll TsPoint} (hws : p.framed.wsRead <:+ ws) :
    (afterResponse credssp l c p).Keeps (Sent extractPublicKey heard) ws sent := by
  have hheard := h.answered hkey
  rcases p with ⟨p, framed⟩ | ⟨e | ⟨_, responseData⟩, framed⟩
  · exact keeps_goto h hws ⟨hkey, hrounds, hround⟩
  · exact keeps_fail h hws (.inl hheard) _
  · rw [afterResponse]
    cases credssp.fromBuffer responseData with
    | error e => exact keeps_fail h hws (.inl hheard) _
    | ok tsRequest =>
        dsimp only
        split
        · exact keeps_fail h hws (.inl hheard) _
        · rename_i hmore
          exact keeps_goto h hws ⟨hkey, hrounds, not_lt.mp hmore⟩

theorem keeps_reply (h : c.Noted extractPublicKey heard sent)
    (hkey : ConnectionNote.keyOf c.notes ≠ [])
    (hrounds : ConnectionNote.rounds c.notes + 1 = l.round) (hround : l.round ≤ 11)
    (hws : framed.wsRead <:+ ws) (tsRequest : τ) :
    (reply credssp send l c framed tsRequest).Keeps (Sent extractPublicKey heard) ws sent := by
  have hheard := h.answered hkey
  rw [reply]
  cases credssp.encodeTsRequest tsRequest with
  | error e => exact keeps_fail h hws (.inl hheard) _
  | ok encoded =>
      cases send with
      | error e => exact keeps_fail h hws (.inl hheard) _
      | ok u =>
          have hfollows : ConnectionNote.Follows extractPublicKey (Certified heard) c.notes
              (.tsRequest c.serverPublicKey encoded) := ⟨h.key, h.key ▸ hkey, by omega⟩
          have hnoted := h.note hfollows (ConnectionNote.keyOf_concat _)
          refine TaskPoll.Keeps.after_one (keeps_afterResponse hnoted ?_ ?_ hround ?_)
          · rwa [note, ConnectionNote.keyOf_concat]
          · rwa [note, ConnectionNote.rounds_concat]
          · exact (wsRead_startRead ..).trans hws

theorem keeps_finish (h : c.Noted extractPublicKey heard sent)
    (hkey : ConnectionNote.keyOf c.notes ≠ []) (hround : ConnectionNote.rounds c.notes ≤ 10)
    (hws : framed.wsRead <:+ ws) (hybridEx : Bool) (tsRequest : τ) :
    (finish connector credssp send hybridEx c framed tsRequest).Keeps
      (Sent extractPublicKey heard) ws sent := by
  have hheard := h.answered hkey
  rw [finish]
  cases credssp.encodeTsRequest tsRequest with
  | error e => exact keeps_fail h hws (.inl hheard) _
  | ok encoded =>
      cases send with
      | error e => exact keeps_fail h hws (.inl hheard) _
      | ok u =>
          have hfollows : ConnectionNote.Follows extractPublicKey (Certified heard) c.notes
              (.finalTsRequest c.serverPublicKey hybridEx encoded) := ⟨h.key, h.key ▸ hkey, hround⟩
          have hnoted := h.note hfollows (ConnectionNote.keyOf_concat _)
          refine TaskPoll.Keeps.after_one ?_
          cases hybridEx with
          | true =>
              refine keeps_afterEarlyUserAuthResult hnoted ?_ ⟨_, _, List.getLast?_concat⟩ ?_
              · rwa [note, ConnectionNote.keyOf_concat]
              · exact (wsRead_startRead ..).trans hws
          | false =>
              exact keeps_authenticated hnoted hws (.inl hheard)
                (.inr (.inl ⟨_, _, List.getLast?_concat⟩))

theorem keeps_round (h : c.Noted extractPublicKey heard sent)
    (hkey : ConnectionNote.keyOf c.notes ≠ []) (hrounds : ConnectionNote.rounds c.notes = l.round)
    (hround : l.round ≤ 10) (hws : framed.wsRead <:+ ws) :
    (round connector credssp send l c framed).Keeps (Sent extractPublicKey heard) ws sent := by
  have hheard := h.answered hkey
  rw [round]
  rcases credssp.process l.credsspClient l.tsRequest with
    _ | e | ⟨credsspClient, tsRequest | tsRequest⟩
  · exact keeps_fail h hws (.inl hheard) _
  · exact keeps_fail h hws (.inl hheard) _
  · exact keeps_reply h hkey (congrArg (· + 1) hrounds) (Nat.succ_le_succ hround) hws tsRequest
  · exact keeps_finish h hkey (hrounds ▸ hround) hws l.hybridEx tsRequest

theorem keeps_performCredssp (h : c.Noted extractPublicKey heard sent)
    (hkey : c.serverPublicKey ≠ []) (hrounds : ConnectionNote.rounds c.notes = 0)
    (hws : framed.wsRead <:+ ws) :
    (performCredssp connector credssp username password domain c framed).Keeps
      (Sent extractPublicKey heard) ws sent := by
  have hkey : ConnectionNote.keyOf c.notes ≠ [] := h.key ▸ hkey
  have hheard := h.answered hkey
  rw [performCredssp]
  cases credssp.username username (if domain = "" then none else some domain) with
  | error e => exact keeps_fail h hws (.inl hheard) _
  | ok sspiUsername =>
      dsimp only
      cases credssp.new c.serverPublicKey sspiUsername password "TERMSRV/localhost" with
      | error e => exact keeps_fail h hws (.inl hheard) _
      | ok credsspClient => exact keeps_goto h hws ⟨hkey, hrounds, Nat.zero_le _⟩

/-! ### `perform_connection` -/

theorem not_mem_dropLast {notes : List ConnectionNote} (h : (∃ t, heard t) ∨ .upgrade ∉ notes) :
    (∃ t, heard t) ∨ .upgrade ∉ notes.dropLast :=
  h.imp_right fun hnone hmem => hnone (List.mem_of_mem_dropLast hmem)

theorem keeps_afterUpgrade (h : c.Noted extractPublicKey heard sent)
    (hlast : c.notes.getLast? = some .upgrade)
    (hheard : (∃ t, heard t) ∨ .upgrade ∉ c.notes.dropLast) {p : UpgradePoll}
    (hws : p.wsRead <:+ ws)
    (hcert : ∀ certDer framed, p = .ready (.ok certDer) framed → Certified heard certDer) :
    (afterUpgrade connector extractPublicKey c p).Keeps (Sent extractPublicKey heard) ws sent := by
  rcases p with framed | ⟨e | certDer, framed⟩
  · exact keeps_goto h hws ⟨hheard, hlast⟩
  · exact keeps_fail h hws hheard _
  · rw [afterUpgrade]
    cases hextract : extractPublicKey certDer with
    | error e => exact keeps_fail h hws hheard _
    | ok serverPublicKey =>
        have hcertified := hcert certDer framed rfl
        have hfollows : ConnectionNote.Follows extractPublicKey (Certified heard) c.notes
            (.secured certDer serverPublicKey) := ⟨hlast, hcertified, hextract⟩
        obtain ⟨t, ht, -⟩ := hcertified
        refine TaskPoll.keeps_last hws ⟨⟨?_, justified_concat.mpr ⟨h.ordered, hfollows⟩, ?_⟩, ?_⟩
        · rw [h.sent, note, List.flatMap_append, List.flatMap_singleton]
          exact (List.append_nil _).symm
        · exact (ConnectionNote.keyOf_concat (.secured certDer serverPublicKey)).symm
        · exact ⟨.inl ⟨t, ht⟩, ConnectionNote.rounds_concat (.secured certDer serverPublicKey)⟩

theorem keeps_afterStep (h : c.Noted extractPublicKey heard sent)
    (hheard : (∃ t, heard t) ∨ .upgrade ∉ c.notes) (hrounds : ConnectionNote.rounds c.notes = 0)
    (hws : framed.wsRead <:+ ws) (stepped : Stepped κ) :
    (c.afterStep send framed stepped).Keeps (Sent extractPublicKey heard) ws sent := by
  have hkept : Noted extractPublicKey heard
      { c with connector := stepped.connector, buf := [] } sent := ⟨h.sent, h.ordered, h.key⟩
  unfold afterStep
  dsimp only
  split
  · exact TaskPoll.keeps_last hws ⟨⟨h.sent, h.ordered, h.key⟩, hheard, hrounds⟩
  split
  · exact keeps_goto hkept hws ⟨hheard, hrounds⟩
  cases send with
  | error e =>
      exact TaskPoll.keeps_last hws ⟨⟨h.sent, h.ordered, h.key⟩, not_mem_dropLast hheard⟩
  | ok u =>
      have hfollows : ConnectionNote.Follows extractPublicKey (Certified heard) c.notes
          (.pdu stepped.buf) := trivial
      have hnoted := hkept.note hfollows (ConnectionNote.keyOf_concat _)
      refine ⟨hws, ⟨⟨hnoted.sent, hnoted.ordered, hnoted.key⟩, ?_, ?_⟩⟩
      · exact hheard.imp_right fun hnone hmem => hnone (by simpa [note, goto] using hmem)
      · exact ConnectionNote.rounds_concat _

theorem keeps_afterPdu (h : c.Noted extractPublicKey heard sent)
    (hheard : (∃ t, heard t) ∨ .upgrade ∉ c.notes) (hrounds : ConnectionNote.rounds c.notes = 0)
    (hint : PduHint) {p : Poll HintPoint} (hws : p.framed.wsRead <:+ ws) :
    (afterPdu connector send hint c p).Keeps (Sent extractPublicKey heard) ws sent := by
  rcases p with ⟨p, framed⟩ | ⟨e | ⟨_, pdu⟩, framed⟩
  · exact keeps_goto h hws ⟨hheard, hrounds⟩
  · exact keeps_fail h hws (not_mem_dropLast hheard) _
  · rw [afterPdu]
    cases connector.step c.connector pdu c.buf with
    | error e => exact keeps_fail h hws (not_mem_dropLast hheard) _
    | ok stepped => exact keeps_afterStep h hheard hrounds hws stepped

theorem certified_of_upgrade {f : WasmFramed} (hheard : ∀ t, .text t ∈ f.wsRead → heard t)
    {result : Except String Unit} {certDer : List UInt8} {f' : WasmFramed}
    (h : performTlsUpgrade result f = .ready (.ok certDer) f') : Certified heard certDer := by
  obtain ⟨t, ht, hready⟩ := text_of_performTlsUpgrade h
  exact ⟨t, hheard t ht, hready⟩

theorem keeps_turn (h : c.Noted extractPublicKey heard sent)
    (hnone : (∃ t, heard t) ∨ .upgrade ∉ c.notes) (hrounds : ConnectionNote.rounds c.notes = 0)
    (hheard : ∀ t, .text t ∈ framed.wsRead → heard t) :
    (turn connector credssp extractPublicKey username password domain send c framed).Keeps
      (Sent extractPublicKey heard) framed.wsRead sent := by
  unfold turn
  split
  · exact keeps_goto h List.suffix_rfl ⟨hnone, hrounds⟩
  split
  · cases send with
    | error e => exact keeps_fail h List.suffix_rfl (not_mem_dropLast hnone) _
    | ok u =>
        have hfollows : ConnectionNote.Follows extractPublicKey (Certified heard) c.notes
            .upgrade := trivial
        have hnoted := h.note hfollows (ConnectionNote.keyOf_concat _)
        refine TaskPoll.Keeps.after_one (keeps_afterUpgrade hnoted List.getLast?_concat ?_
          (wsRead_performTlsUpgrade ..) fun _ _ heq => certified_of_upgrade hheard heq)
        rwa [note, List.dropLast_concat]
  split
  · split
    · rename_i hkey
      exact keeps_authenticated h List.suffix_rfl hnone (.inl (h.key ▸ hkey))
    · rename_i hkey
      exact keeps_performCredssp h hkey hrounds List.suffix_rfl
  split
  · exact keeps_afterPdu h hnone hrounds _ (wsRead_startRead ..)
  · cases connector.stepNoInput c.connector c.buf with
    | error e => exact keeps_fail h List.suffix_rfl (not_mem_dropLast hnone) _
    | ok stepped => exact keeps_afterStep h hnone hrounds List.suffix_rfl stepped

/-- A piece of a poll notes what it sends, in order. -/
theorem keeps_poll (h : c.Sent extractPublicKey heard sent)
    (hheard : ∀ t, .text t ∈ framed.wsRead → heard t) :
    (poll connector credssp extractPublicKey username password domain send c framed).Keeps
      (Sent extractPublicKey heard) framed.wsRead sent := by
  obtain ⟨hnoted, hpoint⟩ := h
  obtain ⟨state, buf, serverPublicKey, point, notes⟩ := c
  rw [poll]
  cases point with
  | turn => exact keeps_turn hnoted hpoint.1 hpoint.2 hheard
  | tlsReady =>
      exact keeps_afterUpgrade hnoted hpoint.2 hpoint.1 (wsRead_performTlsUpgrade ..)
        fun _ _ heq => certified_of_upgrade hheard heq
  | pdu hint p => exact keeps_afterPdu hnoted hpoint.1 hpoint.2 hint (wsRead_fillBuf ..)
  | round l => exact keeps_round hnoted hpoint.1 hpoint.2.1 hpoint.2.2 List.suffix_rfl
  | response l p =>
      exact keeps_afterResponse hnoted hpoint.1 hpoint.2.1 hpoint.2.2 (wsRead_fillBuf ..)
  | earlyUserAuthResult =>
      exact keeps_afterEarlyUserAuthResult hnoted hpoint.1 hpoint.2 (wsRead_fillBuf ..)
  | connected => exact TaskPoll.keeps_last List.suffix_rfl ⟨hnoted, hpoint⟩
  | failed e => exact TaskPoll.keeps_last List.suffix_rfl ⟨hnoted, hpoint⟩

/-- Between the command and its answer nothing is sent. -/
theorem Sent.room (h : c.Sent extractPublicKey heard sent) :
    (∃ t, heard t) ∨ ∀ m ∈ sent.dropLast, m.isText = false := by
  obtain ⟨hnoted, hpoint⟩ := h
  have hnone : (∃ t, heard t) ∨ .upgrade ∉ c.notes.dropLast := by
    cases hp : c.point with
    | turn | pdu hint p | connected =>
        rw [hp] at hpoint
        exact not_mem_dropLast hpoint.1
    | tlsReady =>
        rw [hp] at hpoint
        exact hpoint.1
    | round l | response l p | earlyUserAuthResult =>
        rw [hp] at hpoint
        exact .inl (hnoted.answered hpoint.1)
    | failed e =>
        rw [hp] at hpoint
        exact hpoint
  rw [hnoted.sent]
  exact hnone.imp_right ConnectionNote.not_isText_of_dropLast

theorem Sent.mono {heard' : String → Prop} (hsub : ∀ t, heard t → heard' t)
    (h : c.Sent extractPublicKey heard sent) : c.Sent extractPublicKey heard' sent := by
  obtain ⟨hnoted, hpoint⟩ := h
  have hsome : (∃ t, heard t) → ∃ t, heard' t := fun ⟨t, ht⟩ => ⟨t, hsub t ht⟩
  refine ⟨⟨hnoted.sent, fun pre n hpre => (hnoted.ordered pre n hpre).mono ?_, hnoted.key⟩, ?_⟩
  · exact fun certDer ⟨t, ht, hready⟩ => ⟨t, hsub t ht, hready⟩
  · cases hp : c.point with
    | turn | pdu hint p | connected | tlsReady =>
        rw [hp] at hpoint
        exact hpoint.imp_left (Or.imp_left hsome)
    | round l | response l p | earlyUserAuthResult =>
        rw [hp] at hpoint
        exact hpoint
    | failed e =>
        rw [hp] at hpoint
        exact hpoint.imp_left hsome

/-- The page's part of the argument. -/
theorem disciplined (connector : Connector κ) (credssp : Credssp υ σ τ)
    (extractPublicKey : List UInt8 → Except String (List UInt8))
    (username password domain : String) :
    Disciplined (poll connector credssp extractPublicKey username password domain)
      (Sent extractPublicKey) where
  mono hsub h := h.mono hsub
  plain h m hm := by
    rw [h.1.sent] at hm
    obtain ⟨n, -, hm⟩ := List.mem_flatMap.mp hm
    exact ConnectionNote.not_isControl_of_message hm
  room h := h.room
  poll _ _ hheard h := keeps_poll h hheard

/-! ## Runs -/

/-- The notes up to the first upgrade, with what is sent for them. -/
theorem exists_clear {Presented : List UInt8 → Prop} {notes : List ConnectionNote}
    (h : Justified (fun pre n => n.Follows extractPublicKey Presented pre) notes) :
    ∃ pre, pre <+: notes ∧ (∀ n ∈ pre, n.isClear = true) ∧
      clearBytes (notes.flatMap ConnectionNote.message) = pre.flatMap ConnectionNote.pduBytes := by
  have hclear : ∀ pre, pre <+: notes → .upgrade ∉ pre → ∀ n ∈ pre, n.isClear = true :=
    fun pre hpre hnone => (ConnectionNote.clear_of_not_upgrade
      (fun pre' n hpre' => h pre' n (hpre'.trans hpre)) hnone).2
  by_cases hupgrade : .upgrade ∈ notes
  · obtain ⟨pre, post, rfl, hnone⟩ := List.eq_append_cons_of_mem hupgrade
    have hpre := hclear pre (List.prefix_append ..) hnone
    refine ⟨pre, List.prefix_append .., hpre, ?_⟩
    rw [List.flatMap_append, (bytes_of_noText (ConnectionNote.not_isText_of_messages hnone) _).1,
      ConnectionNote.clearBytes_of_clear hpre]
    exact List.append_nil _
  · have hpre := hclear notes List.prefix_rfl hupgrade
    exact ⟨notes, List.prefix_rfl, hpre, ConnectionNote.clearBytes_of_clear hpre⟩

theorem safe_of_inv {s : RelayedTask (Connection κ σ τ)} (h : s.Inv (Sent extractPublicKey)) :
    Safe extractPublicKey s := by
  have hnoted := h.sent.1
  obtain ⟨pre, hpre, hclear, hbytes⟩ := exists_clear hnoted.ordered
  refine ⟨hnoted.sent, ⟨pre, hpre, hclear, ?_⟩, h.tls, ?_, ?_⟩
  · rw [← hbytes, ← hnoted.sent]
    exact h.tcp
  · rintro ⟨n, hn, hsecret⟩
    obtain ⟨_, t, ht, -⟩ := ConnectionNote.presented_of_isSecret hnoted.ordered hn hsecret
    exact ht.1
  · exact fun pre n hpre => (hnoted.ordered pre n hpre).mono
      fun certDer ⟨t, ht, hready⟩ => ht.2.mem hready

end Connection

end WasmRdp
