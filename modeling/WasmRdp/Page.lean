import WasmRdp.RailManager

/-!
# The page and its sessions

The life cycle of sessions in `web/app.js`: the login form, the automatic
reconnect, the redirect hop, and the three ways to clean up behind a session.
A `PageEvent` is whatever makes the script run, up to where it waits again: a
handler, a timer, a promise that settles, or a callback from a session's
loop. A callback names the session that makes it, which the script cannot
see; the sessions of a page are numbered for that.

Two connections can be under way at a time, and a timer can be pending that
no variable refers to any more, so both are counted. What the script knows of
audio, of several monitors, of resizing and of the clipboard's content is not
part of this state; nor are event listeners, since each key handler does
nothing without a session.

The definitions are in the order of the source: cleaning up, connecting, the
end of a session, and the callbacks of a session and of the decoders. Where
the source awaits, its function is cut in two: `startConnect` is
`doConnect` up to the connection attempt, `connected` and `connectFailed`
are what comes after it, and `ConnectPath` says of an attempt in flight what
its second half will do. A promise settles at any later event, and nothing
keeps another handler from running before.

`step` takes an event that the page is not ready for (a click on a button that
is not shown, a timer that is not set) to do nothing. A frame for a decoder
concerns the decoders only (`avc420Frame_eq`).
-/

namespace WasmRdp

/-! ## State -/

structure Credentials where
  username : String
  password : String
  domain : String
  deriving DecidableEq

/-- A `wasm.connect` or `wasm.connect_redirected` that was called. -/
inductive ConnectPath where
  | login (credentials : Credentials)
  | reconnect (credentials : Credentials)
  | redirected
  deriving DecidableEq

/-- The argument of `__rdp_session_ended`. -/
inductive EndReason where
  | redirected
  | sessionReplaced
  | serverDisconnect
  | connectionLost
  | userDisconnect
  deriving DecidableEq

/-- An entry of `avc420Decoders`. -/
structure Avc420Decoder where
  width : UInt16
  height : UInt16
  awaitingKeyframe : Bool
  pts : Nat
  deriving DecidableEq

structure Page where
  /-- The window manager, with the variable `session`. -/
  rail : RailManager
  keyboard : Keyboard
  avc420Decoders : InsertionMap UInt16 Avc420Decoder
  h264 : Bool
  railProgram : String
  loginShown : Bool
  connecting : Bool
  overlayShown : Bool
  savedCredentials : Option Credentials
  isUserDisconnect : Bool
  reconnectAttempt : Nat
  flapCount : Nat
  /-- Pending reconnect timers; `reconnectTimer` refers to the last one set if
  `timerHeld`. -/
  timers : Nat
  timerHeld : Bool
  giveUpTimers : Nat
  execTimers : Nat
  inFlight : List ConnectPath
  /-- How many sessions there have been. -/
  sessions : Nat

namespace Page

def MAX_RECONNECT_ATTEMPTS : Nat := 5
def MAX_FLAPS : Nat := 2

/-- A page that was just loaded. -/
def initial (windowedMode : Bool) : Page where
  rail :=
    { windowedMode
      windows := .empty
      maximizedFirst := false
      hadAppWindow := false
      activeId := none
      exitTimer := false
      inUse := false
      session := none }
  keyboard := .initial
  avc420Decoders := .empty
  h264 := false
  railProgram := ""
  loginShown := true
  connecting := false
  overlayShown := false
  savedCredentials := none
  isUserDisconnect := false
  reconnectAttempt := 0
  flapCount := 0
  timers := 0
  timerHeld := false
  giveUpTimers := 0
  execTimers := 0
  inFlight := []
  sessions := 0

def session (p : Page) : Option Session := p.rail.session

def setSession (p : Page) (session : Option Session) : Page :=
  { p with rail := { p.rail with session } }

/-! ## Cleaning up -/

def cleanupSession (p : Page) : Page :=
  { p with
    loginShown := true
    connecting := false
    overlayShown := false
    rail := p.rail.teardown
    keyboard := { p.keyboard.resetClipboardState with altTabHolding := false }
    avc420Decoders := .empty }

/-- What `attemptReconnect` and `doConnectRedirected` clean up themselves. -/
def resetClipboardState (p : Page) : Page :=
  { p with keyboard := p.keyboard.resetClipboardState }

def cancelReconnect (p : Page) : Page :=
  { p with
    timers := if p.timerHeld then p.timers - 1 else p.timers
    timerHeld := false
    reconnectAttempt := 0
    flapCount := 0 }

def disconnect (p : Page) : Page :=
  let p := { p with isUserDisconnect := true }.cancelReconnect
  { p.setSession none with savedCredentials := none }.cleanupSession

/-! ## Connecting -/

/-- `doConnect` or `doConnectRedirected`, up to the connection attempt. -/
def startConnect (p : Page) (path : ConnectPath) : Page :=
  { p with inFlight := p.inFlight ++ [path] }

/-- The login form; its button is disabled while it connects. -/
def submit (p : Page) (credentials : Credentials) (railProgram : String) : Page :=
  if p.loginShown && !p.connecting then
    { p with railProgram, connecting := true, flapCount := 0 }.startConnect
      (.login credentials)
  else p

/-- `wasm.connect` gives a session with the desktop's canvas. -/
def newSession (p : Page) (width height : UInt16) : Session where
  number := p.sessions
  surfaces := [⟨.desktop, Canvas.fromElement 0 0 width height⟩]
  inputs := []

/-- The page after an attempt has given a session. -/
def connected (p : Page) (path : ConnectPath) (width height : UInt16) : Page :=
  let p := { p.setSession (some (p.newSession width height)) with
    inFlight := p.inFlight.erase path
    sessions := p.sessions + 1
    loginShown := false
    overlayShown := false }
  let accepted (credentials : Credentials) : Page :=
    { p with
      rail := { p.rail with inUse := p.railProgram ≠ "" }
      savedCredentials := some credentials
      isUserDisconnect := false
      reconnectAttempt := 0 }
  match path with
  | .login credentials => accepted credentials
  | .reconnect credentials => accepted credentials
  | .redirected => p

def attemptReconnect (p : Page) : Page :=
  if p.savedCredentials.isNone || p.isUserDisconnect then p
  else if MAX_RECONNECT_ATTEMPTS ≤ p.reconnectAttempt then
    { p with giveUpTimers := p.giveUpTimers + 1 }
  else
    { p with
      reconnectAttempt := p.reconnectAttempt + 1
      timers := p.timers + 1
      timerHeld := true }

def connectFailed (p : Page) (path : ConnectPath) : Page :=
  let p := { p with inFlight := p.inFlight.erase path }
  match path with
  | .login _ => { p with connecting := false }
  | .reconnect _ => p.attemptReconnect
  | .redirected => p.cleanupSession

/-- The callback of a reconnect timer; `held` if `reconnectTimer` refers to
it. -/
def reconnectTimer (p : Page) (held : Bool) : Page :=
  if p.timers = 0 ∨ (held ∧ !p.timerHeld) then p
  else
    let p := { p with timers := p.timers - 1, timerHeld := false }
    match p.savedCredentials, p.isUserDisconnect with
    | some credentials, false =>
        (p.setSession none).resetClipboardState.startConnect (.reconnect credentials)
    | _, _ => p

/-- The timer of the last failed attempt. -/
def giveUp (p : Page) : Page :=
  if p.giveUpTimers = 0 then p
  else
    let p := { p with giveUpTimers := p.giveUpTimers - 1 }.cancelReconnect
    { p with savedCredentials := none }.cleanupSession

/-- The button of the reconnect overlay. -/
def cancelClick (p : Page) : Page :=
  if p.overlayShown then { p.cancelReconnect with savedCredentials := none }.cleanupSession
  else p

/-- `__rdp_session_ended`; `brief` if the session was shorter than
`FLAP_WINDOW_MS`. -/
def sessionEnded (p : Page) (reason : EndReason) (brief : Bool) : Page :=
  let p := p.setSession none
  if reason = .redirected then p.resetClipboardState.startConnect .redirected
  else if p.rail.inUse ∧ p.rail.windows.entries = [] ∧ !p.isUserDisconnect ∧
      (reason = .serverDisconnect ∨ reason = .connectionLost) then
    p.cancelReconnect.cleanupSession
  else if (reason = .sessionReplaced ∨ reason = .serverDisconnect) ∧ !p.isUserDisconnect then
    p.cancelReconnect.cleanupSession
  else if reason = .connectionLost ∧ p.savedCredentials.isSome ∧ !p.isUserDisconnect then
    let p := { p with flapCount := if brief then p.flapCount + 1 else 0 }
    if brief ∧ MAX_FLAPS ≤ p.flapCount then p.cancelReconnect.cleanupSession
    else { p with overlayShown := true }.attemptReconnect
  else p.cleanupSession

/-! ## Callbacks and handlers -/

def railAppOnScreen (p : Page) : Bool := p.rail.windows.values.any RailWin.onScreen

/-- The callback of `railExitTimer`. -/
def exitTimer (p : Page) : Page :=
  if p.rail.exitTimer then
    let p := { p with rail := { p.rail with exitTimer := false } }
    if p.rail.inUse && p.session.isSome && p.rail.hadAppWindow && !p.railAppOnScreen then
      p.disconnect
    else p
  else p

/-- `__rdp_rail_exec_result`. -/
def railExecResult (p : Page) (execResult : UInt16) : Page :=
  if execResult = 0 then p
  else { p with isUserDisconnect := true, execTimers := p.execTimers + 1 }

/-- The timer of a failed launch. -/
def execTimer (p : Page) : Page :=
  if p.execTimers = 0 then p
  else { p with execTimers := p.execTimers - 1 }.disconnect

/-- `getOrCreateAvc420Decoder`, where `configure` returns or throws. -/
def getOrCreateAvc420Decoder (p : Page) (surfaceId width height : UInt16)
    (configures : Bool) : Page × Option Avc420Decoder :=
  match p.avc420Decoders.get surfaceId with
  | some entry =>
      if entry.width = width ∧ entry.height = height then (p, some entry)
      else create { p with avc420Decoders := p.avc420Decoders.delete surfaceId }
  | none => create p
where
  create (p : Page) : Page × Option Avc420Decoder :=
    if p.h264 && configures then
      let entry : Avc420Decoder := ⟨width, height, true, 0⟩
      ({ p with avc420Decoders := p.avc420Decoders.set surfaceId entry }, some entry)
    else (p, none)

/-- `__rdp_avc420_frame`, where `decode` returns or throws. -/
def avc420Frame (p : Page) (surfaceId width height : UInt16)
    (isKeyframe configures decodes : Bool) : Page :=
  match p.getOrCreateAvc420Decoder surfaceId width height configures with
  | (p, none) => p
  | (p, some entry) =>
      if (entry.awaitingKeyframe && !isKeyframe) || !decodes then p
      else
        let entry := { entry with awaitingKeyframe := false, pts := entry.pts + 1000 }
        { p with avc420Decoders := p.avc420Decoders.set surfaceId entry }

/-- `__rdp_avc420_closed`, and the `error` callback of a decoder. -/
def avc420Closed (p : Page) (surfaceId : UInt16) : Page :=
  { p with avc420Decoders := p.avc420Decoders.delete surfaceId }

/-- The keyboard after a handler, and what it sends. -/
def typed (p : Page) (result : Keyboard × List KeyStroke) : Page :=
  { p with
    keyboard := result.1
    rail := { p.rail with session := p.rail.session.map (·.sendKeyboard result.2) } }

def onKeyDown (p : Page) (clipboardEnabled : Bool) (e : KeyEvent) : Page :=
  if p.session.isSome then
    let (keyboard, sent, shortcut) := p.keyboard.onKeyDown clipboardEnabled e
    let p := p.typed (keyboard, sent)
    if shortcut = some .disconnect then p.disconnect else p
  else p

end Page

/-! ## Events -/

inductive PageEvent where
  | probed (h264 : Bool)
  | submit (credentials : Credentials) (railProgram : String)
  | connected (path : ConnectPath) (width height : UInt16)
  | connectFailed (path : ConnectPath)
  | reconnectTimer (held : Bool)
  | giveUp
  | cancelClick
  | disconnect
  | sessionEnded (session : Nat) (reason : EndReason) (brief : Bool)
  | rail (session : Nat) (event : WindowEvent)
  | railExecResult (session : Nat) (execResult : UInt16)
  | execTimer
  | exitTimer
  | avc420Frame (session : Nat) (surfaceId width height : UInt16)
      (isKeyframe configures decodes : Bool)
  | avc420Closed (session : Nat) (surfaceId : UInt16)
  | decoderError (surfaceId : UInt16)
  | keyDown (clipboardEnabled : Bool) (e : KeyEvent)
  | keyUp (code : KeyCode)
  | blur
  | paste (outcome : Keyboard.PasteOutcome)
  /-- The bytes of a pasted file or image are there, or could not be read. -/
  | pasteRead (reads sends : Bool)
  /-- The watch found new content. -/
  | advert (sends : Bool)
  | formatListAck (session : Nat)
  | replayTimer

namespace Page

def step (p : Page) : PageEvent → Page
  | .probed h264 => { p with h264 }
  | .submit credentials railProgram => p.submit credentials railProgram
  | .connected path width height =>
      if path ∈ p.inFlight then p.connected path width height else p
  | .connectFailed path => if path ∈ p.inFlight then p.connectFailed path else p
  | .reconnectTimer held => p.reconnectTimer held
  | .giveUp => p.giveUp
  | .cancelClick => p.cancelClick
  | .disconnect => p.disconnect
  | .sessionEnded _ reason brief => p.sessionEnded reason brief
  | .rail _ event => { p with rail := p.rail.dispatchEvent event }
  | .railExecResult _ execResult => p.railExecResult execResult
  | .execTimer => p.execTimer
  | .exitTimer => p.exitTimer
  | .avc420Frame _ surfaceId width height isKeyframe configures decodes =>
      p.avc420Frame surfaceId width height isKeyframe configures decodes
  | .avc420Closed _ surfaceId => p.avc420Closed surfaceId
  | .decoderError surfaceId => p.avc420Closed surfaceId
  | .keyDown clipboardEnabled e => p.onKeyDown clipboardEnabled e
  | .keyUp code => if p.session.isSome then p.typed (p.keyboard.onKeyUp code) else p
  | .blur => if p.session.isSome then p.typed p.keyboard.releaseAllModifiers else p
  | .paste outcome => p.typed (p.keyboard.onPaste p.session.isSome outcome)
  | .pasteRead reads sends =>
      if reads then
        if p.session.isSome then p.typed (p.keyboard.advertise true sends) else p
      else p.typed (p.keyboard.sendHeldPaste p.session.isSome)
  | .advert sends =>
      if p.session.isSome then p.typed (p.keyboard.advertise true sends) else p
  | .formatListAck _ => p.typed (p.keyboard.formatListAck p.session.isSome)
  | .replayTimer =>
      if p.keyboard.pasteReplayTimer.isSome then
        p.typed (p.keyboard.sendHeldPaste p.session.isSome)
      else p

/-- A frame concerns the decoders only. -/
theorem avc420Frame_eq (p : Page) (surfaceId width height : UInt16)
    (isKeyframe configures decodes : Bool) :
    ∃ decoders, p.avc420Frame surfaceId width height isKeyframe configures decodes =
      { p with avc420Decoders := decoders } := by
  have hcreate : ∀ p : Page, ∃ decoders, (getOrCreateAvc420Decoder.create surfaceId width height
      configures p).1 = { p with avc420Decoders := decoders } := by
    intro p
    unfold getOrCreateAvc420Decoder.create
    split
    · exact ⟨_, rfl⟩
    · exact ⟨p.avc420Decoders, rfl⟩
  have hget : ∃ decoders, (p.getOrCreateAvc420Decoder surfaceId width height configures).1 =
      { p with avc420Decoders := decoders } := by
    unfold getOrCreateAvc420Decoder
    split
    · split
      · exact ⟨p.avc420Decoders, rfl⟩
      · exact hcreate { p with avc420Decoders := p.avc420Decoders.delete surfaceId }
    · exact hcreate p
  unfold avc420Frame
  split
  · rename_i q hq
    rw [hq] at hget
    exact hget
  · rename_i q entry hq
    rw [hq] at hget
    obtain ⟨decoders, rfl⟩ := hget
    split
    · exact ⟨decoders, rfl⟩
    · exact ⟨_, rfl⟩

end Page

end WasmRdp
