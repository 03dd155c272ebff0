import WasmRdp.Lib.Runs
import WasmRdp.RailClientOrder
import WasmRdp.Rdpsnd

/-!
# The channel of RAIL

`Rail` of `ironrdp-rail`: what the server says on the channel, the start that the
client answers the first handshake with, and the orders of the page that
`run_session` puts on the same channel. The frame around the orders of one
message is third-party code; an order that does not encode keeps back the whole
message. For the server's messages `run_session` logs that and goes on; for the
page's it ends.

What should be on the channel is `Traffic`, an inductive account of the inputs
alone: the page's orders in their order, and at the first handshake the start,
in one piece. A session is `Running` when the bytes that it sent are those of
such a traffic, and an input either takes it to the next one or ends it
(`Advances`, by `advances_order` and `advances_payload`). `Served` states the
result for a whole run in terms of a reader of the layout; after the end of
the session it speaks of the inputs before the one that ended it, and of that
one only what the page was still told (`exchanged_run`). That there is such an
input is `exists_endsWith`.

Nothing holds the page's orders back until the server has greeted.
`always_greetsFirst_iff` says when the handshake is nevertheless the first
thing that the client sends: when every order that goes out finds the server's
handshake come and answered. An answer that does not fit its length is no
answer, and then nothing the page does later can be first.
-/

namespace WasmRdp

open ByteWriter Decode Runs

/-! ## Orders of the server -/

def TS_RAIL_ORDER_HANDSHAKE_EX : UInt16 := 0x0013
def TS_RAIL_ORDER_EXEC_RESULT : UInt16 := 0x0080

structure ExecResult where
  execResult : UInt16
  rawResult : UInt32
  deriving DecidableEq

inductive ServerRailOrder where
  | handshake
  | execResult (result : ExecResult)
  | other (orderType : UInt16)
  deriving DecidableEq

def ServerRailOrder.decode : Decode ServerRailOrder := do
  if (← get).length < RAIL_PDU_HEADER_SIZE then invalidField "railPduHeader" "truncated"
  else
    let orderType ← readU16
    let _orderLength ← readU16
    if orderType = TS_RAIL_ORDER_HANDSHAKE ∨ orderType = TS_RAIL_ORDER_HANDSHAKE_EX then
      return handshake
    else if orderType = TS_RAIL_ORDER_EXEC_RESULT then
      -- flags, the two results, padding and the string, of which the results are read
      if (← get).length < 8 then invalidField "execResult" "truncated"
      else
        let _flags ← readU16
        let code ← readU16
        let rawResult ← readU32
        return execResult ⟨code, rawResult⟩
    else return other orderType

/-! ## `Rail` -/

structure Rail where
  program : String
  workingDir : String
  arguments : String
  width : UInt16
  height : UInt16
  handshakeDone : Bool

def RAIL_CLIENT_BUILD : UInt32 := 7601

/-- What handling a payload comes to, with the calls of `on_exec_result`. -/
structure RailHandled where
  rail : Rail
  results : List ExecResult
  orders : Except DecodeError (List ClientRailOrder)

namespace Rail

def new (program workingDir arguments : String) (width height : UInt16) : Rail where
  program
  workingDir
  arguments
  width
  height
  handshakeDone := false

def clientInit (rail : Rail) (buildNumber : UInt32) : List ClientRailOrder :=
  [.handshake buildNumber, .clientStatus 0, .sysParamHighContrastOff,
    .sysParamWorkArea rail.width rail.height,
    .exec rail.program rail.workingDir rail.arguments]

def activate (_rail : Rail) (windowId : UInt32) (enabled : Bool) : List ClientRailOrder :=
  [.activate windowId enabled]

def sysCommand (_rail : Rail) (windowId : UInt32) (command : UInt16) : List ClientRailOrder :=
  [.sysCommand windowId command]

def exec (_rail : Rail) (program workingDir arguments : String) : List ClientRailOrder :=
  [.exec program workingDir arguments]

def handlePdu (rail : Rail) (payload : List UInt8) : RailHandled :=
  match ServerRailOrder.decode.run payload with
  | .error e => ⟨rail, [], .error e⟩
  | .ok (.handshake, _) =>
      if rail.handshakeDone then ⟨rail, [], .ok []⟩
      else ⟨{ rail with handshakeDone := true }, [], .ok (rail.clientInit RAIL_CLIENT_BUILD)⟩
  | .ok (.execResult result, _) => ⟨rail, [result], .ok []⟩
  | .ok (.other _, _) => ⟨rail, [], .ok []⟩

end Rail

/-! ## The session -/

/-- What `run_session` takes from its two sources, of what the channel is about. -/
inductive RailInput where
  /-- the server's, complete -/
  | payload (payload : List UInt8)
  | railActivate (windowId : UInt32) (enabled : Bool)
  | railSysCommand (windowId : UInt32) (command : UInt16)
  | railExec (program args dir : String)

/-- `encode_vec` of an order. -/
def ClientRailOrder.toVec (order : ClientRailOrder) : Except Failure (List UInt8) :=
  encodeVec order.size (ClientRailOrder.encode · order)

/-- The orders of one message. -/
def encodeMessage (orders : List ClientRailOrder) : Except Failure (List (List UInt8)) :=
  orders.mapM ClientRailOrder.toVec

structure RailSession where
  /-- the channel's processor, when there is the channel -/
  rail : Option Rail
  /-- the orders that are sent, each in its bytes -/
  sent : List (List UInt8)
  /-- the calls of `on_exec_result` -/
  results : List ExecResult
  /-- `run_session` has failed. -/
  ended : Bool

namespace RailSession

/-- The channel is attached in `rail_mode`. -/
def start (program workingDir arguments : String) (width height : UInt16) : RailSession where
  rail := if program = "" then none else some (.new program workingDir arguments width height)
  sent := []
  results := []
  ended := false

/-- `writer_tx.unbounded_send(frame)` -/
def respond (s : RailSession) (send : Except String Unit) (orders : List (List UInt8)) :
    RailSession :=
  match send with
  | .error _ => { s with ended := true }
  | .ok () => { s with sent := s.sent ++ orders }

/-- A message of the server: `active_stage.process`. -/
def process (s : RailSession) (send : Except String Unit) (rail : Rail) (payload : List UInt8) :
    RailSession :=
  let handled := rail.handlePdu payload
  let s := { s with rail := some handled.rail, results := s.results ++ handled.results }
  match handled.orders with
  | .error _ => s
  | .ok orders =>
      match encodeMessage orders with
      | .error _ => s
      | .ok frame => s.respond send frame

def railSvcMessages (s : RailSession) (send : Except String Unit)
    (f : Rail → List ClientRailOrder) : RailSession :=
  match s.rail with
  | none => s
  | some rail =>
      let messages := f rail
      if messages = [] then s
      else
        match encodeMessage messages with
        | .error _ => { s with ended := true }
        | .ok frame => s.respond send frame

/-- One turn of the loop of `run_session`. -/
def step (s : RailSession) (event : RailInput × Except String Unit) : RailSession :=
  if s.ended then s
  else
    match event.1 with
    | .payload payload =>
        match s.rail with
        | none => s
        | some rail => s.process event.2 rail payload
    | .railActivate windowId enabled =>
        s.railSvcMessages event.2 fun rail => rail.activate windowId enabled
    | .railSysCommand windowId command =>
        s.railSvcMessages event.2 fun rail => rail.sysCommand windowId command
    | .railExec program args dir =>
        s.railSvcMessages event.2 fun rail => rail.exec program dir args

end RailSession

/-! ## What is exchanged -/

def serverOrder? (payload : List UInt8) : Option ServerRailOrder :=
  (ServerRailOrder.decode.run payload).toOption.map Prod.fst

namespace RailInput

def isHandshake : RailInput → Bool
  | payload p => serverOrder? p == some .handshake
  | _ => false

/-- The page's order. -/
def order? : RailInput → Option ClientRailOrder
  | payload _ => none
  | railActivate windowId enabled => some (.activate windowId enabled)
  | railSysCommand windowId command => some (.sysCommand windowId command)
  | railExec program args dir => some (.exec program dir args)

def result? : RailInput → Option ExecResult
  | payload p => (serverOrder? p).bind fun
      | .execResult result => some result
      | _ => none
  | _ => none

end RailInput

/-- The order fits its length. -/
def ClientRailOrder.Fits (order : ClientRailOrder) : Prop := order.size ≤ 65535

instance ClientRailOrder.decidableFits (order : ClientRailOrder) : Decidable order.Fits :=
  inferInstanceAs (Decidable (_ ≤ _))

namespace Rail

/-- The application that is launched first. -/
def launch (rail : Rail) : ClientRailOrder := .exec rail.program rail.workingDir rail.arguments

/-- The answer to the first handshake: all of it, or nothing where the launch is
too long. -/
def initSent (rail : Rail) : List ClientRailOrder :=
  if rail.launch.Fits then rail.clientInit RAIL_CLIENT_BUILD else []

end Rail

/-- What is sent for inputs: the orders of the page, in their order, and at the
first handshake of the server the answer, in one piece. -/
inductive Traffic (init : List ClientRailOrder) (inputs : List RailInput) :
    List ClientRailOrder → Prop where
  | waiting (hwaiting : ∀ i ∈ inputs, i.isHandshake = false) :
      Traffic init inputs (inputs.filterMap RailInput.order?)
  | greeted {pre post : List RailInput} {i : RailInput} (hinputs : inputs = pre ++ i :: post)
      (hfirst : ∀ j ∈ pre, j.isHandshake = false) (hi : i.isHandshake = true) :
      Traffic init inputs
        (pre.filterMap RailInput.order? ++ (init ++ post.filterMap RailInput.order?))

namespace RailSession

/-- What a reader of the layout finds on the channel. -/
def read (s : RailSession) : List (Option RailOrderBody) :=
  s.sent.map fun order => (RailLayout.pdu ⟨order, 0⟩).1.map RailPdu.body

/-- The inputs have been dealt with, and the page was told what came with them, and
with those at which the session may have ended. -/
structure Exchanged (rail : Rail) (inputs ending : List RailInput) (s : RailSession) : Prop where
  read : ∃ orders, Traffic rail.initSent inputs orders ∧
    s.read = orders.map fun order => some order.layout
  told : s.results = (inputs ++ ending).filterMap RailInput.result?

/-- The session goes on after some events, and ends with the next. -/
structure EndsWith (s : RailSession) (events : List (RailInput × Except String Unit))
    (last : RailInput × Except String Unit) : Prop where
  before : (events.foldl step s).ended = false
  after : ((events ++ [last]).foldl step s).ended = true

/-- After events, without a program to launch there is no channel. With one, all
inputs have been dealt with, or all before the one that ended the session; of that
one the page was told. -/
def Served (program workingDir arguments : String) (width height : UInt16)
    (events : List (RailInput × Except String Unit)) (s : RailSession) : Prop :=
  if program = "" then s.sent = [] ∧ s.results = []
  else
    let rail := Rail.new program workingDir arguments width height
    s.ended = false ∧ s.Exchanged rail (events.map Prod.fst) [] ∨
      s.ended = true ∧ ∃ handled last rest, events = handled ++ last :: rest ∧
        (start program workingDir arguments width height).EndsWith handled last ∧
        s.Exchanged rail (handled.map Prod.fst) [last.1]

end RailSession

/-! ## Encoding -/

namespace ClientRailOrder

theorem toVec_eq_ok {order : ClientRailOrder} (h : order.Fits) : order.toVec = .ok order.bytes :=
  (writes_encode order h).encodeVec (length_bytes order)

theorem toVec_eq_ok_iff {order : ClientRailOrder} {bs : List UInt8} :
    order.toVec = .ok bs ↔ order.Fits ∧ bs = order.bytes := by
  constructor
  · intro h
    obtain ⟨dst, hdst, -⟩ := of_bind_eq_ok h
    have hfits : order.Fits := (size_le_of_encode hdst).2
    rw [toVec_eq_ok hfits] at h
    exact ⟨hfits, (Except.ok.inj h).symm⟩
  · rintro ⟨h, rfl⟩
    exact toVec_eq_ok h

/-- Orders of the same bytes are the same. -/
theorem bytes_inj {o o' : ClientRailOrder} (h : o.Fits) (h' : o'.Fits)
    (hbytes : o.bytes = o'.bytes) : o = o' := by
  have hread := pdu_bytes o h
  rw [hbytes, pdu_bytes o' h'] at hread
  simp only [Prod.mk.injEq, Option.some.injEq, RailPdu.mk.injEq] at hread
  exact layout_injective hread.1.2.2.symm

end ClientRailOrder

theorem encodeMessage_eq_ok_iff {orders : List ClientRailOrder} {frame : List (List UInt8)} :
    encodeMessage orders = .ok frame ↔
      (∀ order ∈ orders, order.Fits) ∧ frame = orders.map ClientRailOrder.bytes := by
  induction orders generalizing frame with
  | nil =>
      rw [encodeMessage, List.mapM_nil]
      constructor
      · intro h
        exact ⟨List.forall_mem_nil _, (Except.ok.inj h).symm⟩
      · rintro ⟨-, rfl⟩
        rfl
  | cons order orders ih =>
      rw [encodeMessage, List.mapM_cons, ← encodeMessage]
      constructor
      · intro h
        obtain ⟨bs, hbs, h⟩ := of_bind_eq_ok h
        obtain ⟨rest, hrest, h⟩ := of_bind_eq_ok h
        obtain ⟨hfits, rfl⟩ := ClientRailOrder.toVec_eq_ok_iff.mp hbs
        obtain ⟨hall, rfl⟩ := ih.mp hrest
        exact ⟨List.forall_mem_cons.mpr ⟨hfits, hall⟩, (Except.ok.inj h).symm⟩
      · rintro ⟨hall, rfl⟩
        obtain ⟨hfits, hall⟩ := List.forall_mem_cons.mp hall
        rw [ClientRailOrder.toVec_eq_ok hfits, ih.mpr ⟨hall, rfl⟩]
        rfl

/-- Of the answer only the launch can be too long. -/
theorem Rail.fits_clientInit {rail : Rail} {buildNumber : UInt32} :
    (∀ order ∈ rail.clientInit buildNumber, order.Fits) ↔ rail.launch.Fits := by
  constructor
  · intro h
    exact h _ (by simp [clientInit, launch])
  · intro h order horder
    simp only [clientInit, List.mem_cons, List.not_mem_nil, or_false] at horder
    rcases horder with rfl | rfl | rfl | rfl | rfl
    · exact (by decide : (4 + 4 : Nat) ≤ 65535)
    · exact (by decide : (4 + 4 : Nat) ≤ 65535)
    · exact (by decide : (4 + 14 : Nat) ≤ 65535)
    · exact (by decide : (4 + 12 : Nat) ≤ 65535)
    · exact h

/-! ## Inputs -/

theorem filterMap_concat {β : Type} (f : RailInput → Option β) (inputs : List RailInput)
    (i : RailInput) : (inputs ++ [i]).filterMap f = inputs.filterMap f ++ (f i).toList := by
  rw [List.filterMap_append, List.filterMap_cons]
  cases f i <;> rfl

namespace Traffic

variable {init orders : List ClientRailOrder} {inputs : List RailInput} {i : RailInput}

/-- A further input, when it is not the first handshake. -/
theorem concat (h : Traffic init inputs orders)
    (hi : i.isHandshake = false ∨ ∃ j ∈ inputs, j.isHandshake = true) :
    Traffic init (inputs ++ [i]) (orders ++ i.order?.toList) := by
  cases h with
  | waiting hwaiting =>
      have hi : i.isHandshake = false := by
        rcases hi with hi | ⟨j, hj, hhandshake⟩
        · exact hi
        · rw [hwaiting j hj] at hhandshake
          cases hhandshake
      have hnext : ∀ j ∈ inputs ++ [i], j.isHandshake = false := by
        intro j hj
        rcases List.mem_append.mp hj with hj | hj
        · exact hwaiting j hj
        · rwa [List.mem_singleton.mp hj]
      rw [← filterMap_concat]
      exact waiting hnext
  | greeted hinputs hfirst hfound =>
      rw [List.append_assoc, List.append_assoc, ← filterMap_concat]
      refine greeted ?_ hfirst hfound
      rw [hinputs, List.append_assoc, List.cons_append]

/-- The first handshake. -/
theorem greet (h : Traffic init inputs orders) (hfirst : ∀ j ∈ inputs, j.isHandshake = false)
    (hi : i.isHandshake = true) : Traffic init (inputs ++ [i]) (orders ++ init) := by
  cases h with
  | waiting =>
      have hgreeted : Traffic init (inputs ++ [i])
          (inputs.filterMap RailInput.order? ++ (init ++ [].filterMap RailInput.order?)) :=
        greeted rfl hfirst hi
      rwa [List.filterMap_nil, List.append_nil] at hgreeted
  | @greeted pre post j hinputs _ hfound =>
      have hj : j ∈ inputs := hinputs ▸ List.mem_append_right pre (List.mem_cons_self ..)
      rw [hfirst j hj] at hfound
      cases hfound

end Traffic

/-- What an input has the client send. -/
def Rail.answer (rail : Rail) (i : RailInput) : List ClientRailOrder :=
  if i.isHandshake && !rail.handshakeDone then rail.initSent else i.order?.toList

/-- The traffic goes on with the answer. -/
theorem Traffic.answer {rail : Rail} {inputs : List RailInput} {orders : List ClientRailOrder}
    (h : Traffic rail.initSent inputs orders) (i : RailInput) :
    Traffic rail.initSent (inputs ++ [i])
      (orders ++ { rail with handshakeDone := inputs.any RailInput.isHandshake }.answer i) := by
  rw [Rail.answer]
  cases hany : inputs.any RailInput.isHandshake with
  | true =>
      rw [Bool.not_true, Bool.and_false]
      exact h.concat (.inr (List.any_eq_true.mp hany))
  | false =>
      rw [Bool.not_false, Bool.and_true]
      cases hi : i.isHandshake with
      | true =>
          refine h.greet (fun j hj => ?_) hi
          exact Bool.eq_false_iff.mpr (List.any_eq_false.mp hany j hj)
      | false => exact h.concat (.inl hi)

namespace Rail

/-- What the server's message of an input is handled to. -/
structure Handles (rail : Rail) (payload : List UInt8) (h : RailHandled) : Prop where
  processor : h.rail =
    { rail with handshakeDone := rail.handshakeDone || (RailInput.payload payload).isHandshake }
  told : h.results = (RailInput.payload payload).result?.toList
  rejected : ∀ e, h.orders = .error e → rail.answer (.payload payload) = []
  orders : ∀ orders, h.orders = .ok orders →
    rail.answer (.payload payload) = if ∀ order ∈ orders, order.Fits then orders else []

theorem answer_payload (rail : Rail) (payload : List UInt8) :
    rail.answer (.payload payload) =
      if (RailInput.payload payload).isHandshake && !rail.handshakeDone then rail.initSent
      else [] :=
  rfl

/-- A message that is no handshake is answered with nothing. -/
theorem Handles.quiet {rail : Rail} {payload : List UInt8} {h : RailHandled}
    (hplain : (RailInput.payload payload).isHandshake = false) (hrail : h.rail = rail)
    (htold : h.results = (RailInput.payload payload).result?.toList)
    (horders : ∀ orders, h.orders = .ok orders → orders = []) : rail.Handles payload h := by
  have hanswer : rail.answer (.payload payload) = [] := by
    rw [answer_payload, hplain]
    rfl
  refine ⟨?_, htold, fun e he => hanswer, fun orders ho => ?_⟩
  · rw [hplain, Bool.or_false, hrail]
  · rw [hanswer, horders orders ho, if_pos (List.forall_mem_nil _)]

theorem handles_handlePdu (rail : Rail) (payload : List UInt8) :
    rail.Handles payload (rail.handlePdu payload) := by
  rcases hdecode : ServerRailOrder.decode.run payload with e | ⟨order, rest⟩
  · have hnone : serverOrder? payload = none := by
      rw [serverOrder?, hdecode]
      rfl
    refine .quiet ?_ ?_ ?_ ?_ <;>
      simp [handlePdu, hdecode, RailInput.isHandshake, RailInput.result?, hnone]
  · have hsome : serverOrder? payload = some order := by
      rw [serverOrder?, hdecode]
      rfl
    cases order with
    | handshake =>
        have hhandshake : (RailInput.payload payload).isHandshake = true := by
          simp [RailInput.isHandshake, hsome]
        have htold : (RailInput.payload payload).result?.toList = [] := by
          simp [RailInput.result?, hsome]
        obtain ⟨program, workingDir, arguments, width, height, handshakeDone⟩ := rail
        cases handshakeDone with
        | true =>
            simp only [handlePdu, hdecode, if_true]
            refine ⟨?_, htold.symm, fun e he => (by cases he), fun orders ho => ?_⟩
            · rw [Bool.true_or]
            · obtain rfl := Except.ok.inj ho
              rw [answer_payload, hhandshake]
              exact (if_pos (List.forall_mem_nil _)).symm
        | false =>
            simp only [handlePdu, hdecode, Bool.false_eq_true, if_false]
            refine ⟨?_, htold.symm, fun e he => (by cases he), fun orders ho => ?_⟩
            · rw [hhandshake]
              rfl
            · obtain rfl := Except.ok.inj ho
              rw [answer_payload, hhandshake]
              change initSent _ = _
              exact if_congr fits_clientInit.symm rfl rfl
    | execResult result =>
        refine .quiet ?_ ?_ ?_ ?_ <;>
          simp [handlePdu, hdecode, RailInput.isHandshake, RailInput.result?, hsome]
    | other orderType =>
        refine .quiet ?_ ?_ ?_ ?_ <;>
          simp [handlePdu, hdecode, RailInput.isHandshake, RailInput.result?, hsome]

end Rail

namespace RailSession

variable {s : RailSession} {rail : Rail} {send : Except String Unit} {i : RailInput}

/-- The session after an input: it goes on, with the answer sent, or it ends. -/
structure Advances (rail : Rail) (i : RailInput) (s s' : RailSession) : Prop where
  processor : s'.rail = some { rail with handshakeDone := rail.handshakeDone || i.isHandshake }
  told : s'.results = s.results ++ i.result?.toList
  sent : (s'.ended = false ∧ (∀ order ∈ rail.answer i, order.Fits) ∧
      s'.sent = s.sent ++ (rail.answer i).map ClientRailOrder.bytes) ∨
    (s'.ended = true ∧ s'.sent = s.sent)

theorem step_order {order : ClientRailOrder} (hrail : s.rail = some rail) (hrun : s.ended = false)
    (horder : i.order? = some order) :
    s.step (i, send) =
      if order.Fits then s.respond send [order.bytes] else { s with ended := true } := by
  have hmessage : ∀ f : Rail → List ClientRailOrder, f rail = [order] →
      s.railSvcMessages send f =
        if order.Fits then s.respond send [order.bytes] else { s with ended := true } := by
    intro f hf
    rw [railSvcMessages, hrail]
    simp only [hf, List.cons_ne_nil, if_false]
    split
    · rename_i e he
      rw [if_neg]
      intro hfits
      rw [encodeMessage_eq_ok_iff.mpr ⟨List.forall_mem_singleton.mpr hfits, rfl⟩] at he
      cases he
    · rename_i frame hframe
      obtain ⟨hfits, rfl⟩ := encodeMessage_eq_ok_iff.mp hframe
      rw [if_pos (List.forall_mem_singleton.mp hfits)]
      rfl
  rw [step, hrun]
  cases i with
  | payload => cases horder
  | railActivate | railSysCommand | railExec =>
      obtain rfl := Option.some.inj horder
      exact hmessage _ rfl

theorem advances_order {order : ClientRailOrder} (hrail : s.rail = some rail)
    (hrun : s.ended = false) (horder : i.order? = some order) :
    Advances rail i s (s.step (i, send)) := by
  have hplain : i.isHandshake = false ∧ i.result? = none := by
    cases i with
    | payload => cases horder
    | _ => exact ⟨rfl, rfl⟩
  have hanswer : rail.answer i = [order] := by
    rw [Rail.answer, hplain.1, horder]
    rfl
  have hkept :
      s.rail = some { rail with handshakeDone := rail.handshakeDone || i.isHandshake } := by
    rw [hplain.1, Bool.or_false, hrail]
  have hresults : s.results = s.results ++ i.result?.toList := by
    rw [hplain.2]
    exact (List.append_nil _).symm
  rw [step_order hrail hrun horder]
  split
  · rename_i hfits
    cases send with
    | error e => exact ⟨hkept, hresults, .inr ⟨rfl, rfl⟩⟩
    | ok u =>
        refine ⟨hkept, hresults, .inl ⟨hrun, ?_, ?_⟩⟩
        · rw [hanswer]
          exact List.forall_mem_singleton.mpr hfits
        · rw [hanswer]
          rfl
  · exact ⟨hkept, hresults, .inr ⟨rfl, rfl⟩⟩

theorem advances_payload {payload : List UInt8} (hrun : s.ended = false) :
    Advances rail (.payload payload) s (s.process send rail payload) := by
  obtain ⟨hprocessor, htold, hrejected, horders⟩ := rail.handles_handlePdu payload
  have hkept := congrArg some hprocessor
  have hresults := congrArg (s.results ++ ·) htold
  have hquiet : rail.answer (.payload payload) = [] → Advances rail (.payload payload) s
      { s with
        rail := some (rail.handlePdu payload).rail
        results := s.results ++ (rail.handlePdu payload).results } := by
    intro hanswer
    refine ⟨hkept, hresults, .inl ⟨hrun, ?_, ?_⟩⟩
    · rw [hanswer]
      exact List.forall_mem_nil _
    · rw [hanswer]
      exact (List.append_nil _).symm
  rw [process]
  split
  · rename_i e he
    exact hquiet (hrejected e he)
  · rename_i orders ho
    have hanswer := horders orders ho
    split
    · rename_i e he
      refine hquiet (hanswer.trans (if_neg fun hfits => ?_))
      rw [encodeMessage_eq_ok_iff.mpr ⟨hfits, rfl⟩] at he
      cases he
    · rename_i frame hframe
      obtain ⟨hfits, rfl⟩ := encodeMessage_eq_ok_iff.mp hframe
      rw [if_pos hfits] at hanswer
      cases send with
      | error e => exact ⟨hkept, hresults, .inr ⟨rfl, rfl⟩⟩
      | ok u =>
          refine ⟨hkept, hresults, .inl ⟨hrun, ?_, ?_⟩⟩
          · rwa [hanswer]
          · rw [hanswer]
            rfl

theorem advances (hrail : s.rail = some rail) (hrun : s.ended = false) :
    Advances rail i s (s.step (i, send)) := by
  cases i with
  | payload payload =>
      have hstep : s.step (.payload payload, send) = s.process send rail payload := by
        simp only [step, hrun, hrail, Bool.false_eq_true, if_false]
      rw [hstep]
      exact advances_payload hrun
  | railActivate | railSysCommand | railExec => exact advances_order hrail hrun rfl

/-! ## Runs -/

/-- The inputs have been dealt with, in the bytes that are sent. -/
def Carried (rail : Rail) (inputs : List RailInput) (s : RailSession) : Prop :=
  ∃ orders, Traffic rail.initSent inputs orders ∧ (∀ order ∈ orders, order.Fits) ∧
    s.sent = orders.map ClientRailOrder.bytes

structure Running (rail : Rail) (inputs : List RailInput) (s : RailSession) : Prop where
  run : s.ended = false
  processor : s.rail = some { rail with handshakeDone := inputs.any RailInput.isHandshake }
  carried : s.Carried rail inputs
  told : s.results = inputs.filterMap RailInput.result?

structure Stopped (rail : Rail) (inputs : List RailInput) (s : RailSession) : Prop where
  ended : s.ended = true
  handled : ∃ handled, handled <+: inputs ∧ s.Carried rail handled ∧
    handled.filterMap RailInput.result? <+: s.results

theorem Running.step {inputs : List RailInput} (h : s.Running rail inputs) :
    (s.step (i, send)).Running rail (inputs ++ [i]) ∨
      (s.step (i, send)).Stopped rail (inputs ++ [i]) := by
  obtain ⟨orders, htraffic, hfits, hsent⟩ := h.carried
  have hadvances : Advances _ i s (s.step (i, send)) := advances h.processor h.run
  obtain ⟨hprocessor, htold, ⟨hrun, hanswer, hnext⟩ | ⟨hended, hkept⟩⟩ := hadvances
  · refine .inl ⟨hrun, ?_, ⟨_, htraffic.answer i, ?_, ?_⟩, ?_⟩
    · rw [hprocessor, List.any_append, List.any_cons, List.any_nil, Bool.or_false]
    · exact List.forall_mem_append.mpr ⟨hfits, hanswer⟩
    · rw [hnext, hsent, List.map_append]
    · rw [htold, h.told, filterMap_concat]
  · refine .inr ⟨hended, inputs, List.prefix_append .., ⟨orders, htraffic, hfits, ?_⟩, ?_⟩
    · rw [hkept, hsent]
    · rw [htold, h.told]
      exact List.prefix_append ..

theorem step_of_ended {event : RailInput × Except String Unit} (h : s.ended = true) :
    s.step event = s := if_pos h

/-- A session with the channel is running, or has stopped with what it had done. -/
def Inv (rail : Rail) (inputs : List RailInput) (s : RailSession) : Prop :=
  s.Running rail inputs ∨ s.Stopped rail inputs

theorem Inv.step {inputs : List RailInput} (h : s.Inv rail inputs) :
    (s.step (i, send)).Inv rail (inputs ++ [i]) := by
  rcases h with hrunning | ⟨hended, handled, hhandled, hcarried, htold⟩
  · exact hrunning.step
  · rw [step_of_ended hended]
    exact .inr ⟨hended, handled, hhandled.trans (List.prefix_append ..), hcarried, htold⟩

theorem running_start {program : String} (workingDir arguments : String) (width height : UInt16)
    (h : program ≠ "") :
    (start program workingDir arguments width height).Running
      (.new program workingDir arguments width height) [] := by
  refine ⟨rfl, ?_, ⟨[], .waiting (List.forall_mem_nil _), List.forall_mem_nil _, rfl⟩, rfl⟩
  rw [start, if_neg h]
  rfl

theorem inv_run (h : s.Inv rail []) (events : List (RailInput × Except String Unit)) :
    (events.foldl RailSession.step s).Inv rail (events.map Prod.fst) := by
  induction events using List.reverseRecOn with
  | nil => exact h
  | append_singleton events event ih =>
      rw [List.foldl_append, List.map_append]
      exact ih.step

theorem Carried.read {inputs : List RailInput} (h : s.Carried rail inputs) :
    ∃ orders, Traffic rail.initSent inputs orders ∧
      s.read = orders.map fun order => some order.layout := by
  obtain ⟨orders, htraffic, hfits, hsent⟩ := h
  refine ⟨orders, htraffic, ?_⟩
  rw [RailSession.read, hsent, List.map_map]
  refine List.map_congr_left fun order horder => ?_
  rw [Function.comp_apply, ClientRailOrder.pdu_bytes order (hfits order horder)]
  rfl

/-- Without the channel there is nothing. -/
theorem idle_run (hrail : s.rail = none) (events : List (RailInput × Except String Unit)) :
    events.foldl RailSession.step s = s := by
  induction events with
  | nil => rfl
  | cons event events ih =>
      have hstep : s.step event = s := by
        obtain ⟨i, send⟩ := event
        cases i <;> simp [RailSession.step, railSvcMessages, hrail]
      rw [List.foldl_cons, hstep, ih]

theorem Inv.running {inputs : List RailInput} (h : s.Inv rail inputs) (hrun : s.ended = false) :
    s.Running rail inputs := by
  rcases h with hrunning | hstopped
  · exact hrunning
  · rw [hstopped.ended] at hrun
    cases hrun

/-- A session that has ended did so with one of its events, and nothing has come of
those after it. -/
theorem exists_endsWith (hrun : s.ended = false) {events : List (RailInput × Except String Unit)}
    (hended : (events.foldl RailSession.step s).ended = true) :
    ∃ handled last rest, events = handled ++ last :: rest ∧ s.EndsWith handled last ∧
      events.foldl RailSession.step s = (handled ++ [last]).foldl RailSession.step s := by
  induction events using List.reverseRecOn with
  | nil =>
      rw [List.foldl_nil, hrun] at hended
      cases hended
  | append_singleton events event ih =>
      cases hbefore : (events.foldl RailSession.step s).ended with
      | false => exact ⟨events, event, [], rfl, ⟨hbefore, hended⟩, rfl⟩
      | true =>
          obtain ⟨handled, last, rest, rfl, hends, hsame⟩ := ih hbefore
          refine ⟨handled, last, rest ++ [event], by simp, hends, ?_⟩
          rw [List.foldl_append, List.foldl_cons, List.foldl_nil, step_of_ended hbefore, hsame]

/-- What the session has at its end. -/
theorem Running.ends {inputs : List RailInput} (h : s.Running rail inputs)
    (hended : (s.step (i, send)).ended = true) :
    (s.step (i, send)).Exchanged rail inputs [i] := by
  have hadvances : Advances _ i s (s.step (i, send)) := advances h.processor h.run
  obtain ⟨-, htold, ⟨hrun, -⟩ | ⟨-, hkept⟩⟩ := hadvances
  · rw [hrun] at hended
    cases hended
  · obtain ⟨orders, htraffic, hread⟩ := h.carried.read
    refine ⟨⟨orders, htraffic, ?_⟩, ?_⟩
    · rw [← hread, RailSession.read, RailSession.read, hkept]
    · rw [htold, h.told, filterMap_concat]

/-- In whatever order messages of the server and commands of the page come, and
wherever a send fails. -/
theorem exchanged_run (program workingDir arguments : String) (width height : UInt16)
    (events : List (RailInput × Except String Unit)) :
    (events.foldl RailSession.step (start program workingDir arguments width height)).Served
      program workingDir arguments width height events := by
  rw [Served]
  split
  · rename_i hnone
    rw [idle_run (by rw [start, if_pos hnone])]
    exact ⟨rfl, rfl⟩
  · rename_i hsome
    have hstart := running_start workingDir arguments width height hsome
    have hrunning := fun events hrun => (inv_run (.inl hstart) events).running hrun
    cases hended : (events.foldl RailSession.step
        (start program workingDir arguments width height)).ended with
    | false =>
        have hall := hrunning events hended
        exact .inl ⟨rfl, hall.carried.read, by rw [hall.told, List.append_nil]⟩
    | true =>
        obtain ⟨handled, last, rest, hevents, hends, hsame⟩ := exists_endsWith hstart.run hended
        refine .inr ⟨rfl, handled, last, rest, hevents, hends, ?_⟩
        have hafter := hends.after
        rw [List.foldl_append] at hafter hsame
        rw [hsame]
        exact (hrunning handled hends.before).ends hafter

/-! ## Whether the handshake comes first -/

/-- The client's handshake, with all that goes with it, is the first that it
sends. -/
def GreetsFirst (rail : Rail) (s : RailSession) : Prop :=
  s.sent = [] ∨ (rail.clientInit RAIL_CLIENT_BUILD).map ClientRailOrder.bytes <+: s.sent

/-- The event is an order of the page that goes out. -/
def Sends (s : RailSession) (event : RailInput × Except String Unit) : Prop :=
  s.ended = false ∧ event.2 = .ok () ∧ ∃ order ∈ event.1.order?, order.Fits

/-- The server has greeted, and was answered. -/
def Greeted (s : RailSession) : Prop :=
  ∀ rail ∈ s.rail, rail.handshakeDone = true ∧ rail.launch.Fits

/-- The first order of the answer. -/
def greeting : ClientRailOrder := .handshake RAIL_CLIENT_BUILD

theorem order?_ne_greeting {order : ClientRailOrder} (h : i.order? = some order) :
    order ≠ greeting := by
  rintro rfl
  cases i <;> cases h

theorem greeting_not_mem (inputs : List RailInput) :
    greeting ∉ inputs.filterMap RailInput.order? := by
  intro hmem
  obtain ⟨i, -, hi⟩ := List.mem_filterMap.mp hmem
  exact order?_ne_greeting hi rfl

theorem greeting_mem_initSent : greeting ∈ rail.initSent ↔ rail.launch.Fits := by
  rw [Rail.initSent]
  split
  · rename_i hfits
    exact iff_of_true (List.mem_cons_self ..) hfits
  · rename_i hlong
    exact iff_of_false List.not_mem_nil hlong

/-- The server is greeted when it has greeted and the launch is not too long. -/
theorem greeting_mem {inputs : List RailInput} {orders : List ClientRailOrder}
    (h : Traffic rail.initSent inputs orders) :
    greeting ∈ orders ↔ inputs.any RailInput.isHandshake = true ∧ rail.launch.Fits := by
  cases h with
  | waiting hwaiting =>
      refine iff_of_false (greeting_not_mem inputs) fun ⟨hany, _⟩ => ?_
      obtain ⟨i, hi, hfound⟩ := List.any_eq_true.mp hany
      rw [hwaiting i hi] at hfound
      cases hfound
  | @greeted pre post i hinputs _ hi =>
      have hany : inputs.any RailInput.isHandshake = true := by
        rw [hinputs]
        exact List.any_eq_true.mpr ⟨i, List.mem_append_right pre (List.mem_cons_self ..), hi⟩
      simp only [List.mem_append, greeting_not_mem, false_or, or_false, hany, true_and]
      exact greeting_mem_initSent

theorem Running.greeting_sent {inputs : List RailInput} (h : s.Running rail inputs) :
    greeting.bytes ∈ s.sent ↔ s.Greeted := by
  obtain ⟨orders, htraffic, hfits, hsent⟩ := h.carried
  have hgreeted : s.Greeted ↔ inputs.any RailInput.isHandshake = true ∧ rail.launch.Fits := by
    simp only [Greeted, h.processor, Option.mem_some_iff, forall_eq', Rail.launch]
  rw [hgreeted, ← greeting_mem htraffic, hsent, List.mem_map]
  constructor
  · rintro ⟨order, horder, hbytes⟩
    rwa [← ClientRailOrder.bytes_inj (hfits order horder) (by decide) hbytes]
  · exact fun hmem => ⟨greeting, hmem, rfl⟩

/-- An order of the page keeps the handshake first when the handshake is there. -/
theorem greetsFirst_concat {order : ClientRailOrder} {s' : RailSession} (h : s.GreetsFirst rail)
    (hfits : order.Fits) (hne : order ≠ greeting) (hsent : s'.sent = s.sent ++ [order.bytes]) :
    s'.GreetsFirst rail ↔ greeting.bytes ∈ s.sent := by
  constructor
  · rintro (hnone | hbegins)
    · rw [hsent] at hnone
      exact absurd hnone (List.append_ne_nil_of_right_ne_nil _ (List.cons_ne_nil _ _))
    · rw [hsent, Rail.clientInit, List.map_cons] at hbegins
      cases hs : s.sent with
      | nil =>
          rw [hs, List.nil_append, List.cons_prefix_cons] at hbegins
          exact absurd (ClientRailOrder.bytes_inj (by decide) hfits hbegins.1).symm hne
      | cons first rest =>
          rw [hs, List.cons_append, List.cons_prefix_cons] at hbegins
          exact hbegins.1 ▸ List.mem_cons_self ..
  · intro hmem
    rcases h with hnone | hbegins
    · rw [hnone] at hmem
      cases hmem
    · refine .inr (hbegins.trans ?_)
      rw [hsent]
      exact List.prefix_append ..

/-- So does the answer of the first handshake. -/
theorem greetsFirst_answer {s' : RailSession} (h : s.GreetsFirst rail)
    (hnone : greeting.bytes ∉ s.sent)
    (hsent : s'.sent = s.sent ++ rail.initSent.map ClientRailOrder.bytes) :
    s'.GreetsFirst rail := by
  have hempty : s.sent = [] := by
    refine h.resolve_right fun hbegins => hnone (hbegins.subset ?_)
    exact List.mem_cons_self ..
  rw [hempty, List.nil_append, Rail.initSent] at hsent
  split at hsent
  · exact .inr (hsent ▸ List.prefix_rfl)
  · exact .inl hsent

theorem greetsFirst_payload {inputs : List RailInput} (hrunning : s.Running rail inputs)
    (h : s.GreetsFirst rail) (horder : i.order? = none) :
    (s.step (i, send)).GreetsFirst rail := by
  have hadvances : Advances _ i s (s.step (i, send)) := advances hrunning.processor hrunning.run
  obtain ⟨-, -, ⟨-, -, hsent⟩ | ⟨-, hsent⟩⟩ := hadvances
  · rw [Rail.answer, horder] at hsent
    split at hsent
    · rename_i hfirst
      refine greetsFirst_answer h (fun hmem => ?_) hsent
      have hgreeted := hrunning.greeting_sent.mp hmem _ hrunning.processor
      rw [hgreeted.1, Bool.not_true, Bool.and_false] at hfirst
      cases hfirst
    · rw [GreetsFirst, hsent, Option.toList_none, List.map_nil, List.append_nil]
      exact h
  · rw [GreetsFirst, hsent]
    exact h

theorem greetsFirst_order {inputs : List RailInput} {order : ClientRailOrder}
    (hrunning : s.Running rail inputs) (h : s.GreetsFirst rail) (horder : i.order? = some order) :
    (s.step (i, send)).GreetsFirst rail ↔ (s.Sends (i, send) → s.Greeted) := by
  rw [step_order hrunning.processor hrunning.run horder]
  split
  · rename_i hfits
    cases send with
    | error e => exact iff_of_true h fun ⟨_, hsend, _⟩ => by cases hsend
    | ok u =>
        have hsends : s.Sends (i, .ok u) := ⟨hrunning.run, rfl, order, horder, hfits⟩
        refine (greetsFirst_concat h hfits (order?_ne_greeting horder) rfl).trans ?_
        rw [hrunning.greeting_sent]
        exact ⟨fun hgreeted _ => hgreeted, fun hgreeted => hgreeted hsends⟩
  · rename_i hlong
    refine iff_of_true h fun ⟨_, _, o, ho, hfits⟩ => absurd hfits ?_
    rwa [Option.some.inj (ho.symm.trans horder)]

theorem greetsFirst_step {inputs : List RailInput} (hinv : s.Inv rail inputs)
    (h : s.GreetsFirst rail) :
    (s.step (i, send)).GreetsFirst rail ↔ (s.Sends (i, send) → s.Greeted) := by
  rcases hinv with hrunning | hstopped
  · cases horder : i.order? with
    | some order => exact greetsFirst_order hrunning h horder
    | none =>
        refine iff_of_true (greetsFirst_payload hrunning h horder) fun ⟨_, _, o, ho, _⟩ => ?_
        rw [horder] at ho
        cases ho
  · rw [step_of_ended hstopped.ended]
    refine iff_of_true h fun ⟨hrun, _⟩ => ?_
    rw [hstopped.ended] at hrun
    cases hrun

/-- What the page may send is not held back until the server has greeted: the
handshake comes first in a run exactly when the page waits by itself. -/
theorem always_greetsFirst_iff (program workingDir arguments : String) (width height : UInt16)
    (events : List (RailInput × Except String Unit)) :
    Always RailSession.step (GreetsFirst (.new program workingDir arguments width height))
        (start program workingDir arguments width height) events ↔
      Each RailSession.step (fun s event => s.Sends event → s.Greeted)
        (start program workingDir arguments width height) events := by
  by_cases hprogram : program = ""
  · have hnone : (start program workingDir arguments width height).rail = none := by
      rw [start, if_pos hprogram]
    refine iff_of_true (fun pre _ => ?_) fun pre event _ _ => ?_
    · rw [idle_run hnone]
      exact .inl rfl
    · rw [idle_run hnone, Greeted, hnone]
      exact fun rail hrail => by cases hrail
  · have hkeeps : ∀ s : RailSession, ∀ event ∈ events,
        (∃ inputs, s.Inv (.new program workingDir arguments width height) inputs) →
          ∃ inputs, (s.step event).Inv (.new program workingDir arguments width height) inputs :=
      fun s event _ ⟨inputs, hinv⟩ => ⟨_, hinv.step⟩
    exact always_iff_each hkeeps (fun s event _ ⟨inputs, hinv⟩ h => greetsFirst_step hinv h)
      ⟨[], .inl (running_start workingDir arguments width height hprogram)⟩ (.inl rfl)

end RailSession

end WasmRdp
