import WasmRdp.CursorCache
import WasmRdp.Framed
import WasmRdp.PageLife
import WasmRdp.RailClientOrder
import WasmRdp.Rdstls
import WasmRdp.RedirectHops
import WasmRdp.Repaint

/-!
# The loop of a session

`run_session`, between the queue that the page and the clipboard put their inputs
in and the queue of the task that writes to the WebSocket. The protocol library
is a parameter: an `ActiveStage` that is given PDUs and inputs and asks for
outputs, and a `ConnectionActivation` for the sequence that a Deactivate All
starts, in the middle of whose outputs the loop waits for PDUs.

What painting, pointers and window orders come to is said elsewhere; here an
output is performed when its arm has run. How the PDUs come out of the bytes is
`SessionLink`'s.

Everything that the loop does is a `Deed`, in a list: the outputs that it
performs, the frames that it queues, how it was left, and what was reported.
Two equations about that list carry the results. `Performed` says that the
outputs performed are those that the library asked for, up to where the loop
waits in the middle of a batch, or to where it was left. `Written` says that
the frames on the WebSocket are the first of those that were queued, the rest
being in the queue unless the writer has ended.

`Ready` is the state between two outputs of a batch. Each arm of the source
keeps it or leaves the loop (`Ready.perform`, `Ready.takeInput`,
`Ready.takePdu`, `Ready.reactivate`), and leaving it is one lemma for an
output that ends the session (`Ready.ends`) and one for a failure
(`Ready.fail`). `Served.step` has one event of the two tasks, and
`always_served` a run. `always_answered` goes on to the page, which is told of
the end once and does what the reason calls for.
-/

namespace WasmRdp

open Runs

/-! ## The protocol library -/

inductive GracefulDisconnectReason where
  | userInitiated
  | serverInitiated
  | other (description : String)

/-- The fields of the library's packet that `PendingRedirect` has. -/
structure RdpServerRedirectionPacket where
  loadBalanceInfo : Option (List UInt8)
  userName : Option (List UInt8)
  domain : Option (List UInt8)
  password : Option (List UInt8)
  redirectionGuid : Option (List UInt8)
  targetCertificate : Option (List UInt8)

def PendingRedirect.fromPacket (packet : RdpServerRedirectionPacket) : PendingRedirect where
  routingToken := packet.loadBalanceInfo
  userName := packet.userName.getD []
  domain := packet.domain.getD []
  password := packet.password.getD []
  redirectionGuid := packet.redirectionGuid.getD []
  targetCertificate := packet.targetCertificate

/-- `ActiveStageOutput` -/
inductive StageOutput (α : Type) where
  | responseFrame (frame : List UInt8)
  | graphicsUpdate (region : InclusiveRectangle)
  | pointerDefault
  | pointerHidden
  | pointerBitmap (pointer : DecodedPointer)
  | terminate (reason : GracefulDisconnectReason)
  | redirect (packet : RdpServerRedirectionPacket)
  | orders (data : List UInt8)
  | deactivateAll (activation : α)
  | other

/-- Its state `κ` has the image that PDUs are decoded into. Fast-path input events
are a `φ`, messages for the clipboard a `χ`, offered files a `δ`, and messages for a
channel a `ν`. -/
structure ActiveStage (κ φ χ δ ν α : Type) where
  process : κ → Action → List UInt8 → κ × Except String (List (StageOutput α))
  processFastpathInput : κ → φ → κ × Except String (List (StageOutput α))
  /-- `None` without the channel, also in the next ones -/
  encodeResize : κ → UInt32 → UInt32 → κ × Option (Except String (List UInt8))
  encodeMonitorLayout : κ → List MonitorLayoutEntry → κ × Option (Except String (List UInt8))
  cliprdr : κ → χ → κ × Option (Except String ν)
  initiateFileCopy : κ → δ → κ × Option (Except String ν)
  /-- the messages of `Rail` for an order -/
  rail : κ → ClientRailOrder → Option ν
  processSvcProcessorMessages : κ → ν → Except String (List UInt8)
  gracefulShutdown : κ → Except String (List (StageOutput α))
  /-- a new `DecodedImage` -/
  newImage : κ → UInt16 → UInt16 → κ
  /-- `set_fastpath_processor`, `set_share_id` and `set_enable_server_pointer` -/
  setActivation : κ → α → κ

/-- A step writes a frame, or nothing. -/
structure ConnectionActivation (α : Type) where
  /-- the desktop size of `Finalized` -/
  finalized : α → Option (UInt16 × UInt16)
  nextPduHint : α → Option PduHint
  step : α → List UInt8 → Except String (α × Option (List UInt8))
  stepNoInput : α → Except String (α × Option (List UInt8))

/-! ## The loop -/

/-- `InputEvent` of `wasm/src/session.rs` -/
inductive SessionInput (φ χ δ : Type) where
  | fastPath (events : φ)
  | resize (width height : UInt16)
  | monitorLayout (monitors : List Int32)
  | cliprdr (message : χ)
  /-- `ClipboardMessage::Error` -/
  | cliprdrError
  | fileCopy (files : δ)
  | railActivate (windowId : UInt32) (enabled : Bool)
  | railSysCommand (windowId : UInt32) (command : UInt16)
  | railExec (program args dir : String)
  | repaint
  | terminate

inductive SessionError where
  /-- `read RDP PDU` -/
  | readPdu (e : ReadError)
  /-- `process input` -/
  | processInput (e : String)
  /-- of the messages for a channel -/
  | encodeMessages (e : String)
  /-- `graceful shutdown` -/
  | gracefulShutdown (e : String)
  /-- `send response frame` -/
  | sendFrame
  /-- `read reactivation PDU` -/
  | readReactivation (e : ReadError)
  /-- `reactivation step` -/
  | reactivationStep (e : String)
  /-- `send reactivation frame` -/
  | sendReactivation

/-- It is the writer that is gone. -/
def SessionError.isSend : SessionError → Bool
  | sendFrame | sendReactivation => true
  | _ => false

/-- How the loop is left. -/
inductive SessionEnd where
  | terminated (reason : GracefulDisconnectReason)
  | redirected (packet : RdpServerRedirectionPacket)
  /-- the input channel closes -/
  | handleDropped
  | failed (e : SessionError)

/-- `desc.contains("Another user connected")` -/
def isReplaced (description : String) : Bool :=
  "Another user connected".toList <:+: description.toList

/-- The reason that the page is given. -/
def SessionEnd.tag : SessionEnd → EndReason
  | terminated (.other description) =>
      if isReplaced description then .sessionReplaced else .serverDisconnect
  | terminated .userInitiated => .userDisconnect
  | terminated .serverInitiated => .serverDisconnect
  | redirected _ => .redirected
  | handleDropped => .userDisconnect
  | failed _ => .connectionLost

/-- Where the loop waits, or is cut. -/
inductive SessionPoint (α : Type) where
  | select
  /-- the head of the loop in the arm of `DeactivateAll` -/
  | reactivate (activation : α) (rest : List (StageOutput α))
  | reactivatePdu (activation : α) (hint : PduHint) (rest : List (StageOutput α))
  | left (reached : SessionEnd)

/-- What is done. -/
inductive Deed (α : Type) where
  | output (output : StageOutput α)
  /-- a new `DecodedImage` for a layout -/
  | newImage (width height : UInt16)
  | reactivationFrame (frame : List UInt8)
  /-- the image, a canvas that is the only one, and the page get the new size -/
  | reactivated (width height : UInt16)

structure SessionTask (κ α : Type) where
  stage : κ
  point : SessionPoint α
  deeds : List (Deed α)
  /-- The frames in the channel to the writer. -/
  queue : List (List UInt8)
  /-- The outputs that the library has asked for. -/
  given : List (StageOutput α)
  /-- `PENDING_REDIRECT` -/
  pendingRedirect : Option PendingRedirect
  /-- The calls of `notify_session_ended`. -/
  reported : List EndReason

def Deed.output? {α : Type} : Deed α → Option (StageOutput α)
  | output o => some o
  | _ => none

/-- The frame for the writer. -/
def Deed.frame? {α : Type} : Deed α → Option (List UInt8)
  | output (.responseFrame frame) | reactivationFrame frame => some frame
  | _ => none

namespace SessionPoint

variable {α : Type}

/-- The outputs of a batch that are still to be performed. -/
def rest : SessionPoint α → List (StageOutput α)
  | select | left _ => []
  | reactivate _ rest | reactivatePdu _ _ rest => rest

def reported : SessionPoint α → List EndReason
  | left reached => [reached.tag]
  | _ => []

def isLeft : SessionPoint α → Bool
  | left _ => true
  | _ => false

theorem length_reported_le (point : SessionPoint α) : point.reported.length ≤ 1 := by
  cases point with
  | left reached => exact le_rfl
  | _ => exact Nat.zero_le _

end SessionPoint

namespace SessionTask

variable {κ φ χ δ ν α : Type}

def start (stage : κ) : SessionTask κ α where
  stage
  point := .select
  deeds := []
  queue := []
  given := []
  pendingRedirect := none
  reported := []

def outputs (t : SessionTask κ α) : List (StageOutput α) := t.deeds.filterMap Deed.output?

def frames (t : SessionTask κ α) : List (List UInt8) := t.deeds.filterMap Deed.frame?

/-- A frame goes to the writer. -/
def did (t : SessionTask κ α) (deed : Deed α) : SessionTask κ α :=
  { t with deeds := t.deeds ++ [deed], queue := t.queue ++ deed.frame?.toList }

/-- The loop is left, and the task that has run it reports that. -/
def leave (t : SessionTask κ α) (reached : SessionEnd) : SessionTask κ α :=
  { t with point := .left reached, reported := t.reported ++ [reached.tag] }

/-- A send to the writer fails when that is gone. -/
def sendFrame (t : SessionTask κ α) (writing : Bool) (deed : Deed α) (e : SessionError)
    (next : SessionTask κ α → SessionTask κ α) : SessionTask κ α :=
  if writing then next (t.did deed) else t.leave (.failed e)

/-- `for out in outputs` -/
def perform (writing : Bool) : List (StageOutput α) → SessionTask κ α → SessionTask κ α
  | [], t => { t with point := .select }
  | .responseFrame frame :: outs, t =>
      t.sendFrame writing (.output (.responseFrame frame)) .sendFrame (perform writing outs)
  | .terminate reason :: _, t => (t.did (.output (.terminate reason))).leave (.terminated reason)
  | .redirect packet :: _, t =>
      { t.did (.output (.redirect packet)) with pendingRedirect := some (.fromPacket packet) }.leave
        (.redirected packet)
  | .deactivateAll activation :: outs, t =>
      -- the outputs after it wait for the reactivation
      { t.did (.output (.deactivateAll activation)) with point := .reactivate activation outs }
  | out :: outs, t => perform writing outs (t.did (.output out))

/-- The outputs of one turn. -/
def performAll (t : SessionTask κ α) (writing : Bool) (outs : List (StageOutput α)) :
    SessionTask κ α :=
  perform writing outs { t with given := t.given ++ outs }

variable (stage : ActiveStage κ φ χ δ ν α) (activation : ConnectionActivation α)
  (display : DisplayControl) (width height : UInt16)

/-- A frame that the library encodes, or says why not, or has no channel for. -/
def encoded (result : Option (Except String (List UInt8))) : List (StageOutput α) :=
  match result with
  | some (.ok frame) => [.responseFrame frame]
  | some (.error _) | none => []

/-- Messages for a channel are encoded. -/
def svcMessages (k : κ) (messages : ν) : Except SessionError (List (StageOutput α)) :=
  match stage.processSvcProcessorMessages k messages with
  | .ok frame => .ok [.responseFrame frame]
  | .error e => .error (.encodeMessages e)

/-- Messages that the clipboard's channel makes, or says why not. -/
def clipboardMessages (k : κ) (messages : Option (Except String ν)) :
    Except SessionError (List (StageOutput α)) :=
  match messages with
  | some (.ok messages) => svcMessages stage k messages
  | some (.error _) | none => .ok []

def railSvcMessages (k : κ) (order : ClientRailOrder) :
    Except SessionError (List (StageOutput α)) :=
  match stage.rail k order with
  | some messages => svcMessages stage k messages
  | none => .ok []

/-- What an arm comes to: the library, the size of a new image, and the outputs. -/
structure Handled (κ α : Type) where
  stage : κ
  newImage : Option (UInt16 × UInt16)
  outs : Except SessionError (List (StageOutput α))

def sized (t : SessionTask κ α) (newImage : Option (UInt16 × UInt16)) : SessionTask κ α :=
  match newImage with
  | some (width, height) => t.did (.newImage width height)
  | none => t

/-- The arms for inputs. -/
def handle (k : κ) : SessionInput φ χ δ → Handled κ α
  | .fastPath events =>
      match stage.processFastpathInput k events with
      | (k, .ok outs) => ⟨k, none, .ok outs⟩
      | (k, .error e) => ⟨k, none, .error (.processInput e)⟩
  | .resize width height =>
      let (k, result) := stage.encodeResize k width.toUInt32 height.toUInt32
      ⟨k, none, .ok (encoded result)⟩
  | .monitorLayout monitors =>
      match display.monitorLayout monitors with
      | none => ⟨k, none, .ok []⟩
      | some update =>
          let (width, height) := update.image
          let k := stage.newImage k width height
          let (k, result) := stage.encodeMonitorLayout k update.entries
          ⟨k, some (width, height), .ok (encoded result)⟩
  | .cliprdr message =>
      let (k, messages) := stage.cliprdr k message
      ⟨k, none, clipboardMessages stage k messages⟩
  | .cliprdrError => ⟨k, none, .ok []⟩
  | .fileCopy files =>
      let (k, messages) := stage.initiateFileCopy k files
      ⟨k, none, clipboardMessages stage k messages⟩
  | .railActivate windowId enabled =>
      ⟨k, none, railSvcMessages stage k (.activate windowId enabled)⟩
  | .railSysCommand windowId command =>
      ⟨k, none, railSvcMessages stage k (.sysCommand windowId command)⟩
  | .railExec program args dir => ⟨k, none, railSvcMessages stage k (.exec program dir args)⟩
  | .repaint => ⟨k, none, .ok [.graphicsUpdate (fullRegion width height)]⟩
  | .terminate =>
      match stage.gracefulShutdown k with
      | .ok outs => ⟨k, none, .ok outs⟩
      | .error e => ⟨k, none, .error (.gracefulShutdown e)⟩

def takeInput (t : SessionTask κ α) (writing : Bool) (input : SessionInput φ χ δ) :
    SessionTask κ α :=
  let handled := handle stage display width height t.stage input
  let t := { t with stage := handled.stage }.sized handled.newImage
  match handled.outs with
  | .ok outs => t.performAll writing outs
  | .error e => t.leave (.failed e)

/-- A frame of the server. What fails to be processed is logged. -/
def takePdu (t : SessionTask κ α) (writing : Bool) :
    Except ReadError (Action × List UInt8) → SessionTask κ α
  | .error e => t.leave (.failed (.readPdu e))
  | .ok (action, payload) =>
      match stage.process t.stage action payload with
      | (k, .ok outs) => { t with stage := k }.performAll writing outs
      | (k, .error _) => { t with stage := k }

/-- What a step of the reactivation writes is sent. -/
def afterStep (t : SessionTask κ α) (writing : Bool) (rest : List (StageOutput α)) :
    Except String (α × Option (List UInt8)) → SessionTask κ α
  | .error e => t.leave (.failed (.reactivationStep e))
  | .ok (a, none) => { t with point := .reactivate a rest }
  | .ok (a, some frame) =>
      t.sendFrame writing (.reactivationFrame frame) .sendReactivation fun t =>
        { t with point := .reactivate a rest }

/-- One turn of the loop in the arm of `DeactivateAll`. -/
def reactivate (t : SessionTask κ α) (writing : Bool) (a : α) (rest : List (StageOutput α)) :
    SessionTask κ α :=
  match activation.finalized a with
  | some (width, height) =>
      let stage := stage.setActivation (stage.newImage t.stage width height) a
      perform writing rest ({ t with stage }.did (.reactivated width height))
  | none =>
      match activation.nextPduHint a with
      | some hint => { t with point := .reactivatePdu a hint rest }
      | none => t.afterStep writing rest (activation.stepNoInput a)

def takeReactivationPdu (t : SessionTask κ α) (writing : Bool) (a : α)
    (rest : List (StageOutput α)) : Except ReadError (List UInt8) → SessionTask κ α
  | .error e => t.leave (.failed (.readReactivation e))
  | .ok pdu => t.afterStep writing rest (activation.step a pdu)

end SessionTask

/-! ## The tasks -/

structure SessionLoop (κ φ χ δ α : Type) where
  task : SessionTask κ α
  /-- `input_rx` -/
  inputs : List (SessionInput φ χ δ)
  /-- The inputs that were sent, and those that `select!` has taken. -/
  pushed : List (SessionInput φ χ δ)
  taken : List (SessionInput φ χ δ)
  /-- The frames that the writer has sent. -/
  wire : List (List UInt8)
  writing : Bool

inductive LoopEvent (φ χ δ : Type) where
  /-- The page or the clipboard sends an input. -/
  | push (input : SessionInput φ χ δ)
  /-- `select!` takes an input. -/
  | input
  /-- There is no sender any more, and `select!` finds the channel closed. -/
  | closed
  | pdu (result : Except ReadError (Action × List UInt8))
  | reactivation
  | reactivationPdu (result : Except ReadError (List UInt8))
  /-- The writer takes a frame, and can send it or ends. -/
  | write (sends : Bool)

namespace SessionLoop

variable {κ φ χ δ ν α : Type}

def start (stage : κ) : SessionLoop κ φ χ δ α where
  task := .start stage
  inputs := []
  pushed := []
  taken := []
  wire := []
  writing := true

def step (stage : ActiveStage κ φ χ δ ν α) (activation : ConnectionActivation α)
    (display : DisplayControl) (width height : UInt16) (s : SessionLoop κ φ χ δ α) :
    LoopEvent φ χ δ → SessionLoop κ φ χ δ α
  | .push input =>
      if s.task.point.isLeft then s
      else { s with inputs := s.inputs ++ [input], pushed := s.pushed ++ [input] }
  | .input =>
      match s.task.point, s.inputs with
      | .select, input :: inputs =>
          { s with
            task := s.task.takeInput stage display width height s.writing input
            inputs
            taken := s.taken ++ [input] }
      | _, _ => s
  | .closed =>
      match s.task.point, s.inputs with
      | .select, [] => { s with task := s.task.leave .handleDropped }
      | _, _ => s
  | .pdu result =>
      match s.task.point with
      | .select => { s with task := s.task.takePdu stage s.writing result }
      | _ => s
  | .reactivation =>
      match s.task.point with
      | .reactivate a rest =>
          { s with task := s.task.reactivate stage activation s.writing a rest }
      | _ => s
  | .reactivationPdu result =>
      match s.task.point with
      | .reactivatePdu a _ rest =>
          { s with task := s.task.takeReactivationPdu activation s.writing a rest result }
      | _ => s
  | .write sends =>
      match s.task.queue with
      | frame :: queue =>
          if sends then { s with task := { s.task with queue }, wire := s.wire ++ [frame] }
          else { s with task := { s.task with queue := [] }, writing := false }
      | [] => s

end SessionLoop

/-! ## What is promised -/

/-- An output that ends the session. -/
def StageOutput.ends {α : Type} : StageOutput α → Bool
  | terminate _ | redirect _ => true
  | _ => false

/-- The one that ends the session is the last. -/
def EndsWith {α : Type} (outputs : List (StageOutput α)) (last : StageOutput α) : Prop :=
  ∃ before, outputs = before ++ [last] ∧ ∀ o ∈ before, o.ends = false

/-- The loop was left for what was done last, or for an error. -/
def SessionEnd.Reached {α : Type} (outputs : List (StageOutput α))
    (pending : Option PendingRedirect) (writing : Bool) : SessionEnd → Prop
  | terminated reason => EndsWith outputs (.terminate reason)
  | redirected packet => EndsWith outputs (.redirect packet) ∧ pending = some (.fromPacket packet)
  | handleDropped => ∀ o ∈ outputs, o.ends = false
  | failed e => (e.isSend = true → writing = false) ∧ ∀ o ∈ outputs, o.ends = false

/-- The outputs that were performed are those that the library asked for, in its
order, up to where the loop waits or to where it was left; none but the last of them
ends the session, and when one does, or there is an error, the end is reported,
once. -/
structure SessionTask.Performed {κ α : Type} (t : SessionTask κ α) (writing : Bool) : Prop where
  outputs : t.outputs ++ t.point.rest <+: t.given
  complete : t.point.isLeft = false → t.outputs ++ t.point.rest = t.given
  going : t.point.isLeft = false → ∀ o ∈ t.outputs, o.ends = false
  reported : t.reported = t.point.reported
  reached : ∀ e, t.point = .left e → e.Reached t.outputs t.pendingRedirect writing

/-- The frames that were sent are the first of those that there were, in their
order; the rest are in the queue, unless the writer has ended. -/
structure SessionTask.Written {κ α : Type} (t : SessionTask κ α) (wire : List (List UInt8))
    (writing : Bool) : Prop where
  sent : wire <+: t.frames
  queue : writing = true → wire ++ t.queue = t.frames
  ended : writing = false → t.queue = []

structure SessionLoop.Served {κ φ χ δ α : Type} (s : SessionLoop κ φ χ δ α) : Prop where
  inputs : s.taken ++ s.inputs = s.pushed
  performed : s.task.Performed s.writing
  written : s.task.Written s.wire s.writing

/-! ## The task -/

namespace SessionTask

variable {κ φ χ δ ν α : Type} {t : SessionTask κ α} {outs : List (StageOutput α)} {writing : Bool}

/-- The loop goes on, and outputs are still to be performed. -/
structure Ready (t : SessionTask κ α) (outs : List (StageOutput α)) : Prop where
  given : t.outputs ++ outs = t.given
  going : ∀ o ∈ t.outputs, o.ends = false
  reported : t.reported = []

theorem outputs_did (t : SessionTask κ α) (deed : Deed α) :
    (t.did deed).outputs = t.outputs ++ deed.output?.toList := by
  rw [outputs, did, List.filterMap_append, List.filterMap_cons, List.filterMap_nil]
  cases deed.output? <;> rfl

/-- What does not concern the outputs. -/
theorem Ready.congr {t' : SessionTask κ α} (h : t.Ready outs) (houtputs : t'.outputs = t.outputs)
    (hgiven : t'.given = t.given) (hreported : t'.reported = t.reported) : t'.Ready outs := by
  refine ⟨?_, ?_, hreported.trans h.reported⟩
  · rw [houtputs, hgiven, h.given]
  · rw [houtputs]
    exact h.going

theorem Ready.withStage (h : t.Ready outs) (k : κ) :
    ({ t with stage := k } : SessionTask κ α).Ready outs :=
  h.congr rfl rfl rfl

theorem Ready.did_other (h : t.Ready outs) {deed : Deed α} (hdeed : deed.output? = none) :
    (t.did deed).Ready outs := by
  refine h.congr ?_ rfl rfl
  rw [outputs_did, hdeed, Option.toList_none, List.append_nil]

theorem Ready.did {o : StageOutput α} (h : t.Ready (o :: outs)) (hgoes : o.ends = false) :
    (t.did (.output o)).Ready outs := by
  have houtputs : (t.did (.output o)).outputs = t.outputs ++ [o] := outputs_did ..
  refine ⟨?_, ?_, h.reported⟩
  · rw [houtputs, List.append_assoc]
    exact h.given
  · rw [houtputs]
    exact List.forall_mem_append.mpr ⟨h.going, List.forall_mem_singleton.mpr hgoes⟩

theorem Ready.performed (h : t.Ready outs) {point : SessionPoint α} (hrest : point.rest = outs)
    (hpoint : point.isLeft = false) : ({ t with point } : SessionTask κ α).Performed writing := by
  have hgiven : t.outputs ++ point.rest = t.given := by rw [hrest, h.given]
  refine ⟨hgiven ▸ List.prefix_rfl, fun _ => hgiven, fun _ => h.going, ?_, ?_⟩
  · cases point with
    | left e => cases hpoint
    | _ => exact h.reported
  · rintro e rfl
    cases hpoint

theorem Ready.leave (h : t.Ready outs) {reached : SessionEnd}
    (hreached : reached.Reached t.outputs t.pendingRedirect writing) :
    (t.leave reached).Performed writing := by
  refine ⟨?_, fun hgoes => (by cases hgoes), fun hgoes => (by cases hgoes), ?_, ?_⟩
  · change t.outputs ++ [] <+: t.given
    rw [List.append_nil, ← h.given]
    exact List.prefix_append ..
  · change t.reported ++ [reached.tag] = [reached.tag]
    rw [h.reported, List.nil_append]
  · rintro e ⟨⟩
    exact hreached

theorem Ready.fail (h : t.Ready outs) {e : SessionError} (he : e.isSend = false) :
    (t.leave (.failed e)).Performed writing :=
  h.leave ⟨fun hsend => absurd hsend (Bool.eq_false_iff.mp he), h.going⟩

/-- An output that ends the session is the last one. -/
theorem Ready.ends {o : StageOutput α} (h : t.Ready (o :: outs)) {reached : SessionEnd}
    {pending : Option PendingRedirect}
    (hreached : reached.Reached (t.outputs ++ [o]) pending writing) :
    ({ t.did (.output o) with pendingRedirect := pending }.leave reached).Performed writing := by
  have houtputs : (t.did (.output o)).outputs = t.outputs ++ [o] := outputs_did ..
  refine ⟨?_, fun hgoes => (by cases hgoes), fun hgoes => (by cases hgoes), ?_, ?_⟩
  · change (t.did (.output o)).outputs ++ [] <+: t.given
    rw [List.append_nil, houtputs, ← h.given]
    exact (List.prefix_append_right_inj _).mpr ⟨outs, rfl⟩
  · change t.reported ++ [reached.tag] = [reached.tag]
    rw [h.reported, List.nil_append]
  · rintro e ⟨⟩
    change reached.Reached (t.did (.output o)).outputs pending writing
    rw [houtputs]
    exact hreached

theorem Ready.sendFrame (h : t.Ready outs) {deed : Deed α} {e : SessionError}
    {next : SessionTask κ α → SessionTask κ α}
    (hnext : writing = true → (next (t.did deed)).Performed writing) :
    (t.sendFrame writing deed e next).Performed writing := by
  rw [SessionTask.sendFrame]
  split
  · rename_i hwriting
    exact hnext hwriting
  · rename_i hgone
    exact h.leave ⟨fun _ => Bool.eq_false_iff.mpr hgone, h.going⟩

theorem Ready.perform (h : t.Ready outs) : (perform writing outs t).Performed writing := by
  induction outs generalizing t with
  | nil => exact h.performed rfl rfl
  | cons o outs ih =>
      cases o with
      | responseFrame frame =>
          rw [SessionTask.perform]
          exact h.sendFrame fun _ => ih (h.did rfl)
      | terminate reason => exact h.ends ⟨t.outputs, rfl, h.going⟩
      | redirect packet => exact h.ends ⟨⟨t.outputs, rfl, h.going⟩, rfl⟩
      | deactivateAll activation => exact (h.did rfl).performed rfl rfl
      | _ => exact ih (h.did rfl)

/-- At `select!` everything has been performed. -/
theorem Performed.ready (h : t.Performed writing) (hpoint : t.point.isLeft = false) :
    t.Ready t.point.rest := by
  refine ⟨h.complete hpoint, h.going hpoint, ?_⟩
  rw [h.reported]
  cases hp : t.point with
  | left e =>
      rw [hp] at hpoint
      cases hpoint
  | _ => rfl

theorem Performed.queue (h : t.Performed writing) (queue : List (List UInt8)) :
    ({ t with queue } : SessionTask κ α).Performed writing :=
  ⟨h.outputs, h.complete, h.going, h.reported, h.reached⟩

/-- The writer ends. -/
theorem Performed.ended (h : t.Performed writing) : t.Performed false := by
  refine ⟨h.outputs, h.complete, h.going, h.reported, fun e he => ?_⟩
  have hreached := h.reached e he
  cases e with
  | failed e => exact ⟨fun _ => rfl, hreached.2⟩
  | _ => exact hreached

theorem Ready.performAll (h : t.Ready []) (outs : List (StageOutput α)) :
    (t.performAll writing outs).Performed writing := by
  have hready : ({ t with given := t.given ++ outs } : SessionTask κ α).Ready outs := by
    refine ⟨?_, h.going, h.reported⟩
    rw [← h.given, List.append_nil]
    rfl
  exact hready.perform

variable {stage : ActiveStage κ φ χ δ ν α} {activation : ConnectionActivation α}
  {display : DisplayControl} {width height : UInt16}

theorem Ready.sized (h : t.Ready outs) (newImage : Option (UInt16 × UInt16)) :
    (t.sized newImage).Ready outs := by
  rcases newImage with _ | ⟨width, height⟩
  · exact h
  · exact h.did_other rfl

theorem svcMessages_error {k : κ} {messages : ν} {e : SessionError}
    (h : svcMessages stage k messages = .error e) : e.isSend = false := by
  rw [svcMessages] at h
  split at h <;> cases h
  rfl

theorem clipboardMessages_error {k : κ} {messages : Option (Except String ν)} {e : SessionError}
    (h : clipboardMessages stage k messages = .error e) : e.isSend = false := by
  rcases messages with _ | _ | messages
  · cases h
  · cases h
  · exact svcMessages_error h

theorem railSvcMessages_error {k : κ} {order : ClientRailOrder} {e : SessionError}
    (h : railSvcMessages stage k order = .error e) : e.isSend = false := by
  rw [railSvcMessages] at h
  split at h
  · exact svcMessages_error h
  · cases h

/-- What an arm for an input fails with is no failure to send. -/
theorem handle_error (k : κ) (input : SessionInput φ χ δ) {e : SessionError}
    (h : (handle stage display width height k input).outs = .error e) : e.isSend = false := by
  cases input with
  | fastPath events =>
      rw [handle] at h
      split at h <;> cases h
      rfl
  | resize width height => cases h
  | monitorLayout monitors =>
      rw [handle] at h
      split at h <;> cases h
  | cliprdr message => exact clipboardMessages_error h
  | cliprdrError => cases h
  | fileCopy files => exact clipboardMessages_error h
  | railActivate windowId enabled => exact railSvcMessages_error h
  | railSysCommand windowId command => exact railSvcMessages_error h
  | railExec program args dir => exact railSvcMessages_error h
  | repaint => cases h
  | terminate =>
      rw [handle] at h
      split at h <;> cases h
      rfl

theorem Ready.takeInput (h : t.Ready []) (input : SessionInput φ χ δ) :
    (t.takeInput stage display width height writing input).Performed writing := by
  have hready := (h.withStage (handle stage display width height t.stage input).stage).sized
    (handle stage display width height t.stage input).newImage
  rw [SessionTask.takeInput]
  split
  · exact hready.performAll _
  · rename_i e he
    exact hready.fail (handle_error t.stage input he)

theorem Ready.takePdu (h : t.Ready []) (hselect : t.point = .select)
    (result : Except ReadError (Action × List UInt8)) :
    (t.takePdu stage writing result).Performed writing := by
  rcases result with e | ⟨action, payload⟩
  · exact h.fail rfl
  · rw [SessionTask.takePdu]
    split
    · exact (h.withStage _).performAll _
    · rename_i k e _
      -- what was not processed has no outputs
      have hsame : ({ t with stage := k } : SessionTask κ α) =
          { { t with stage := k } with point := .select } := by rw [← hselect]
      rw [hsame]
      exact (h.withStage k).performed rfl rfl

theorem Ready.afterStep (h : t.Ready outs) (result : Except String (α × Option (List UInt8))) :
    (t.afterStep writing outs result).Performed writing := by
  rcases result with e | ⟨a, _ | frame⟩
  · exact h.fail rfl
  · exact h.performed rfl rfl
  · rw [SessionTask.afterStep]
    exact h.sendFrame fun _ => (h.did_other rfl).performed rfl rfl

theorem Ready.reactivate (h : t.Ready outs) (a : α) :
    (t.reactivate stage activation writing a outs).Performed writing := by
  rw [SessionTask.reactivate]
  split
  · exact ((h.withStage _).did_other rfl).perform
  · split
    · exact h.performed rfl rfl
    · exact h.afterStep _

theorem Ready.takeReactivationPdu (h : t.Ready outs) (a : α)
    (result : Except ReadError (List UInt8)) :
    (t.takeReactivationPdu activation writing a outs result).Performed writing := by
  cases result with
  | error e => exact h.fail rfl
  | ok pdu => exact h.afterStep _

/-! ## The frames -/

section

variable {wire : List (List UInt8)}

theorem frames_did (t : SessionTask κ α) (deed : Deed α) :
    (t.did deed).frames = t.frames ++ deed.frame?.toList := by
  rw [frames, did, List.filterMap_append, List.filterMap_cons, List.filterMap_nil]
  cases deed.frame? <;> rfl

/-- What does not concern the frames. -/
theorem Written.congr {t' : SessionTask κ α} (h : t.Written wire writing)
    (hframes : t'.frames = t.frames) (hqueue : t'.queue = t.queue) :
    t'.Written wire writing := by
  constructor
  · rw [hframes]
    exact h.sent
  · rw [hframes, hqueue]
    exact h.queue
  · rw [hqueue]
    exact h.ended

/-- The writer sends the first frame. -/
theorem Written.sends {frame : List UInt8} {queue : List (List UInt8)}
    (h : t.Written wire writing) (hqueue : t.queue = frame :: queue) :
    ({ t with queue } : SessionTask κ α).Written (wire ++ [frame]) writing := by
  have hwriting : writing = true := by
    rw [← Bool.not_eq_false]
    intro hended
    rw [h.ended hended] at hqueue
    cases hqueue
  have hframes : (wire ++ [frame]) ++ queue = t.frames := by
    rw [List.append_assoc, List.singleton_append, ← hqueue, h.queue hwriting]
  refine ⟨hframes ▸ List.prefix_append .., fun _ => hframes, fun hended => ?_⟩
  rw [hwriting] at hended
  cases hended

theorem Written.leave (h : t.Written wire writing) (reached : SessionEnd) :
    (t.leave reached).Written wire writing :=
  h.congr rfl rfl

theorem Written.did (h : t.Written wire true) (deed : Deed α) :
    (t.did deed).Written wire true := by
  refine ⟨?_, fun _ => ?_, fun hended => (by cases hended)⟩
  · rw [frames_did]
    exact h.sent.trans (List.prefix_append ..)
  · change wire ++ (t.queue ++ deed.frame?.toList) = (t.did deed).frames
    rw [frames_did, ← List.append_assoc, h.queue rfl]

theorem Written.did_other (h : t.Written wire writing) {deed : Deed α}
    (hdeed : deed.frame? = none) : (t.did deed).Written wire writing := by
  refine h.congr ?_ ?_
  · rw [frames_did, hdeed, Option.toList_none, List.append_nil]
  · change t.queue ++ deed.frame?.toList = t.queue
    rw [hdeed, Option.toList_none, List.append_nil]

theorem Written.sendFrame (h : t.Written wire writing) {deed : Deed α} {e : SessionError}
    {next : SessionTask κ α → SessionTask κ α}
    (hnext : (t.did deed).Written wire writing → (next (t.did deed)).Written wire writing) :
    (t.sendFrame writing deed e next).Written wire writing := by
  cases writing with
  | true => exact hnext (h.did deed)
  | false => exact h.leave _

theorem Written.perform (h : t.Written wire writing) (outs : List (StageOutput α)) :
    (SessionTask.perform writing outs t).Written wire writing := by
  induction outs generalizing t with
  | nil => exact h.congr rfl rfl
  | cons o outs ih =>
      cases o with
      | responseFrame frame =>
          rw [SessionTask.perform]
          exact h.sendFrame ih
      | terminate reason => exact (h.did_other rfl).leave _
      | redirect packet => exact (h.did_other rfl).congr rfl rfl
      | deactivateAll activation => exact (h.did_other rfl).congr rfl rfl
      | _ => exact ih (h.did_other rfl)

theorem Written.performAll (h : t.Written wire writing) (outs : List (StageOutput α)) :
    (t.performAll writing outs).Written wire writing :=
  (h.congr rfl rfl : ({ t with given := t.given ++ outs } : SessionTask κ α).Written wire writing)
    |>.perform outs

theorem Written.withStage (h : t.Written wire writing) (k : κ) :
    ({ t with stage := k } : SessionTask κ α).Written wire writing :=
  h.congr rfl rfl

theorem Written.sized (h : t.Written wire writing) (newImage : Option (UInt16 × UInt16)) :
    (t.sized newImage).Written wire writing := by
  rcases newImage with _ | ⟨width, height⟩
  · exact h
  · exact h.did_other rfl

theorem Written.takeInput (h : t.Written wire writing) (input : SessionInput φ χ δ) :
    (t.takeInput stage display width height writing input).Written wire writing := by
  have hsized := (h.withStage (handle stage display width height t.stage input).stage).sized
    (handle stage display width height t.stage input).newImage
  rw [SessionTask.takeInput]
  split
  · exact hsized.performAll _
  · exact hsized.leave _

theorem Written.takePdu (h : t.Written wire writing)
    (result : Except ReadError (Action × List UInt8)) :
    (t.takePdu stage writing result).Written wire writing := by
  rcases result with e | ⟨action, payload⟩
  · exact h.leave _
  · rw [SessionTask.takePdu]
    split
    · exact (h.withStage _).performAll _
    · exact h.withStage _

theorem Written.afterStep (h : t.Written wire writing)
    (result : Except String (α × Option (List UInt8))) :
    (t.afterStep writing outs result).Written wire writing := by
  rcases result with e | ⟨a, _ | frame⟩
  · exact h.leave _
  · exact h.congr rfl rfl
  · rw [SessionTask.afterStep]
    exact h.sendFrame fun hdid => hdid.congr rfl rfl

theorem Written.reactivate (h : t.Written wire writing) (a : α) :
    (t.reactivate stage activation writing a outs).Written wire writing := by
  rw [SessionTask.reactivate]
  split
  · exact ((h.withStage _).did_other rfl).perform _
  · split
    · exact h.congr rfl rfl
    · exact h.afterStep _

theorem Written.takeReactivationPdu (h : t.Written wire writing) (a : α)
    (result : Except ReadError (List UInt8)) :
    (t.takeReactivationPdu activation writing a outs result).Written wire writing := by
  cases result with
  | error e => exact h.leave _
  | ok pdu => exact h.afterStep _

end

end SessionTask

/-! ## Runs -/

namespace SessionLoop

variable {κ φ χ δ ν α : Type} {stage : ActiveStage κ φ χ δ ν α}
  {activation : ConnectionActivation α} {display : DisplayControl} {width height : UInt16}
  {s : SessionLoop κ φ χ δ α}

theorem Served.start (stage : κ) : (start stage : SessionLoop κ φ χ δ α).Served := by
  have hready : (SessionTask.start stage : SessionTask κ α).Ready [] :=
    ⟨rfl, List.forall_mem_nil _, rfl⟩
  have hperformed : ({ SessionTask.start stage with point := .select } : SessionTask κ α).Performed
      true :=
    hready.performed rfl rfl
  exact ⟨rfl, hperformed, ⟨List.prefix_rfl, fun _ => rfl, fun _ => rfl⟩⟩

/-- Where the loop waits it is ready to go on. -/
theorem Served.ready (h : s.Served) {point : SessionPoint α} (hpoint : s.task.point = point)
    (hleft : point.isLeft = false) : s.task.Ready point.rest := by
  subst hpoint
  exact h.performed.ready hleft

theorem Served.task (h : s.Served) {task : SessionTask κ α} (hperformed : task.Performed s.writing)
    (hwritten : task.Written s.wire s.writing) :
    ({ s with task } : SessionLoop κ φ χ δ α).Served :=
  ⟨h.inputs, hperformed, hwritten⟩

theorem Served.step (h : s.Served) (e : LoopEvent φ χ δ) :
    (SessionLoop.step stage activation display width height s e).Served := by
  cases e with
  | push input =>
      rw [SessionLoop.step]
      split
      · exact h
      · refine ⟨?_, h.performed, h.written⟩
        rw [← List.append_assoc, h.inputs]
  | input =>
      rw [SessionLoop.step]
      split
      · rename_i input inputs hpoint hinputs
        refine ⟨?_, (h.ready hpoint rfl).takeInput input, h.written.takeInput input⟩
        rw [List.append_assoc, List.singleton_append, ← hinputs, h.inputs]
      · exact h
  | closed =>
      rw [SessionLoop.step]
      split
      · rename_i hpoint _
        have hready := h.ready hpoint rfl
        exact h.task (hready.leave hready.going) (h.written.leave _)
      · exact h
  | pdu result =>
      rw [SessionLoop.step]
      split
      · rename_i hpoint
        exact h.task ((h.ready hpoint rfl).takePdu hpoint result) (h.written.takePdu result)
      · exact h
  | reactivation =>
      rw [SessionLoop.step]
      split
      · rename_i a rest hpoint
        exact h.task ((h.ready hpoint rfl).reactivate a) (h.written.reactivate a)
      · exact h
  | reactivationPdu result =>
      rw [SessionLoop.step]
      split
      · rename_i a hint rest hpoint
        exact h.task ((h.ready hpoint rfl).takeReactivationPdu a result)
          (h.written.takeReactivationPdu a result)
      · exact h
  | write sends =>
      rw [SessionLoop.step]
      split
      · rename_i frame queue hqueue
        split
        -- a frame that could not be sent is lost with all behind it
        · exact ⟨h.inputs, h.performed.queue queue, h.written.sends hqueue⟩
        · refine ⟨h.inputs, (h.performed.queue []).ended, h.written.sent, ?_, fun _ => rfl⟩
          exact fun hwriting => (by cases hwriting)
      · exact h

variable (stage : ActiveStage κ φ χ δ ν α) (activation : ConnectionActivation α)
  (display : DisplayControl) (width height : UInt16)

theorem served (events : List (LoopEvent φ χ δ)) (h : s.Served) :
    (events.foldl (SessionLoop.step stage activation display width height) s).Served := by
  induction events generalizing s with
  | nil => exact h
  | cons e events ih =>
      rw [List.foldl_cons]
      exact ih (h.step e)

/-- When the writer goes on, all that is in the queue is sent. -/
theorem wire_writes (queue : List (List UInt8)) (hqueue : s.task.queue = queue) :
    ((List.replicate queue.length (.write true)).foldl
      (SessionLoop.step stage activation display width height) s).wire = s.wire ++ queue := by
  induction queue generalizing s with
  | nil => exact (List.append_nil _).symm
  | cons frame queue ih =>
      have hstep : SessionLoop.step stage activation display width height s (.write true) =
          { s with task := { s.task with queue }, wire := s.wire ++ [frame] } := by
        rw [SessionLoop.step, hqueue]
        rfl
      rw [List.length_cons, List.replicate_succ, List.foldl_cons, hstep, ih rfl, List.append_assoc,
        List.singleton_append]

/-- In whatever order inputs are sent and taken, PDUs come, a reactivation goes on,
frames are sent and anything fails; and the writer can still send all there is. -/
theorem always_served (initial : κ) (events : List (LoopEvent φ χ δ)) :
    Always (SessionLoop.step stage activation display width height)
      (fun s => s.Served ∧
        (s.writing = true →
          ((List.replicate s.task.queue.length (.write true)).foldl
            (SessionLoop.step stage activation display width height) s).wire = s.task.frames))
      (start initial) events := by
  intro pre _
  have hserved := served stage activation display width height pre (Served.start initial)
  refine ⟨hserved, fun hwriting => ?_⟩
  rw [wire_writes stage activation display width height _ rfl]
  exact hserved.written.queue hwriting

end SessionLoop

/-! ## The page -/

/-- What the page makes of the report: it is back at the login form when the session
was terminated, hops when it was redirected, and else is back there too unless it
retries after an error. -/
structure SessionTask.Answered {κ α : Type} (t : SessionTask κ α) (p : Page) (reason : EndReason)
    (brief : Bool) : Prop where
  terminated : ∀ cause, .terminate cause ∈ t.outputs →
    EndsAtLogin p (p.sessionEnded reason brief)
  redirected : ∀ packet, .redirect packet ∈ t.outputs →
    t.pendingRedirect = some (.fromPacket packet) ∧
      p.sessionEnded reason brief =
        (p.setSession none).resetClipboardState.startConnect .redirected
  hops : (p.sessionEnded reason brief).inFlight ≠ p.inFlight →
    ∃ packet, .redirect packet ∈ t.outputs
  away : ¬ EndsAtLogin p (p.sessionEnded reason brief) →
    (∃ packet, .redirect packet ∈ t.outputs) ∨
      Retries p reason brief ∧ (∃ e, t.point = .left (.failed e)) ∧
        ∀ o ∈ t.outputs, o.ends = false

theorem EndsWith.eq_of_ends {α : Type} {outputs : List (StageOutput α)} {last o : StageOutput α}
    (h : EndsWith outputs last) (ho : o ∈ outputs) (hends : o.ends = true) : o = last := by
  obtain ⟨before, rfl, hbefore⟩ := h
  rcases List.mem_append.mp ho with ho | ho
  · rw [hbefore o ho] at hends
    cases hends
  · exact List.mem_singleton.mp ho

namespace SessionEnd

variable {α : Type} {outputs : List (StageOutput α)} {pending : Option PendingRedirect}
  {writing : Bool} {reached : SessionEnd}

theorem tag_terminated_ne (cause : GracefulDisconnectReason) :
    (terminated cause).tag ≠ .redirected ∧ (terminated cause).tag ≠ .connectionLost := by
  cases cause with
  | userInitiated => decide
  | serverInitiated => decide
  | other description =>
      rw [tag]
      split <;> decide

/-- Only a redirection is reported as one. -/
theorem tag_eq_redirected_iff :
    reached.tag = .redirected ↔ ∃ packet, reached = .redirected packet := by
  constructor
  · intro h
    cases reached with
    | redirected packet => exact ⟨packet, rfl⟩
    | terminated cause => exact absurd h (tag_terminated_ne cause).1
    | _ => cases h
  · rintro ⟨packet, rfl⟩
    rfl

/-- And only an error as a lost connection. -/
theorem tag_eq_connectionLost_iff : reached.tag = .connectionLost ↔ ∃ e, reached = .failed e := by
  constructor
  · intro h
    cases reached with
    | failed e => exact ⟨e, rfl⟩
    | terminated cause => exact absurd h (tag_terminated_ne cause).2
    | _ => cases h
  · rintro ⟨e, rfl⟩
    rfl

theorem Reached.redirect_mem (h : reached.Reached outputs pending writing)
    (htag : reached.tag = .redirected) : ∃ packet, .redirect packet ∈ outputs := by
  obtain ⟨packet, rfl⟩ := tag_eq_redirected_iff.mp htag
  obtain ⟨⟨before, houtputs, -⟩, -⟩ := h
  rw [houtputs]
  exact ⟨packet, List.mem_append_right _ (List.mem_singleton_self _)⟩

theorem Reached.of_terminate (h : reached.Reached outputs pending writing)
    {cause : GracefulDisconnectReason} (hmem : .terminate cause ∈ outputs) :
    reached = .terminated cause := by
  cases reached with
  | terminated reason =>
      cases EndsWith.eq_of_ends h hmem rfl
      rfl
  | redirected packet => cases EndsWith.eq_of_ends h.1 hmem rfl
  | handleDropped => cases h _ hmem
  | failed e => cases h.2 _ hmem

theorem Reached.of_redirect (h : reached.Reached outputs pending writing)
    {packet : RdpServerRedirectionPacket} (hmem : .redirect packet ∈ outputs) :
    reached = .redirected packet := by
  cases reached with
  | terminated reason => cases EndsWith.eq_of_ends h hmem rfl
  | redirected packet =>
      cases EndsWith.eq_of_ends h.1 hmem rfl
      rfl
  | handleDropped => cases h _ hmem
  | failed e => cases h.2 _ hmem

end SessionEnd

/-- Only a report of a lost connection is followed by a retry. -/
theorem endsAtLogin_of_ne (p : Page) {reason : EndReason} (brief : Bool)
    (hredirected : reason ≠ .redirected) (hlost : reason ≠ .connectionLost) :
    EndsAtLogin p (p.sessionEnded reason brief) := by
  obtain ⟨-, hends⟩ | ⟨hretries, -⟩ := sessionEnded_cases p brief hredirected
  · exact hends
  · exact absurd hretries.lost hlost

namespace SessionTask

variable {κ α : Type} {t : SessionTask κ α} {writing : Bool}

theorem Performed.left_of_reported (h : t.Performed writing) {reason : EndReason}
    (hreason : reason ∈ t.reported) :
    ∃ reached, t.point = .left reached ∧ reached.tag = reason := by
  rw [h.reported] at hreason
  cases hpoint : t.point with
  | left reached =>
      rw [hpoint] at hreason
      exact ⟨reached, rfl, (List.mem_singleton.mp hreason).symm⟩
  | _ =>
      rw [hpoint] at hreason
      cases hreason

theorem Performed.answered (h : t.Performed writing) {reason : EndReason}
    (hreason : reason ∈ t.reported) (p : Page) (brief : Bool) : t.Answered p reason brief := by
  obtain ⟨reached, hpoint, rfl⟩ := h.left_of_reported hreason
  have hreached := h.reached reached hpoint
  constructor
  case terminated =>
    intro cause hmem
    cases hreached.of_terminate hmem
    obtain ⟨hredirected, hlost⟩ := SessionEnd.tag_terminated_ne cause
    exact endsAtLogin_of_ne p brief hredirected hlost
  case redirected =>
    intro packet hmem
    cases hreached.of_redirect hmem
    exact ⟨hreached.2, rfl⟩
  case hops =>
    intro hhops
    by_cases htag : reached.tag = .redirected
    · exact hreached.redirect_mem htag
    · exact absurd (p.inFlight_sessionEnded brief htag) hhops
  case away =>
    intro haway
    by_cases htag : reached.tag = .redirected
    · exact .inl (hreached.redirect_mem htag)
    obtain ⟨-, hends⟩ | ⟨hretries, -⟩ := sessionEnded_cases p brief htag
    · exact absurd hends haway
    · obtain ⟨e, rfl⟩ := SessionEnd.tag_eq_connectionLost_iff.mp hretries.lost
      exact .inr ⟨hretries, ⟨e, hpoint⟩, hreached.2⟩

end SessionTask

namespace SessionLoop

variable {κ φ χ δ ν α : Type}

/-- Whatever the page is like when it is told of the end. -/
theorem always_answered (stage : ActiveStage κ φ χ δ ν α) (activation : ConnectionActivation α)
    (display : DisplayControl) (width height : UInt16) (initial : κ)
    (events : List (LoopEvent φ χ δ)) :
    Always (SessionLoop.step stage activation display width height)
      (fun s => s.task.reported.length ≤ 1 ∧
        ∀ reason ∈ s.task.reported, ∀ (p : Page) (brief : Bool), s.task.Answered p reason brief)
      (start initial) events := by
  intro pre _
  have hserved := served stage activation display width height pre (Served.start initial)
  refine ⟨?_, fun reason hreason p brief => hserved.performed.answered hreason p brief⟩
  rw [hserved.performed.reported]
  exact SessionPoint.length_reported_le _

end SessionLoop

end WasmRdp
