import Mathlib.Data.Finset.Basic

/-!
# The keyboard of the page

The key handlers of `web/app.js`, with the paste key that they hold back and
the count of Format Lists that the remote has not answered.

A handler gives the new state and the calls of `send_keyboard` that it makes.
Every handler that sends looks at `session` first; here the caller says
whether there is one. What the shortcuts for the toolbar and the full screen
do to the page is left to it as well.

A key is a `KeyCode`, the browser's name for a place on the keyboard, and
`SCANCODE_MAP` is the table of the source; a code that it does not have is
ignored by the handlers. The state has the modifiers that the page takes to be
down, the switcher that Ctrl+Tab has begun, and for a paste key that waits the
key itself (`HeldPaste`), whose keyup is to be swallowed, and what the timer
waits for. One timer variable serves two ends, the grace period of a
paste event and the answer of the remote (`PasteTimer`).

`advertise` is the part of the paste handler that comes after the content is
known, since for a file or an image that is a promise which settles later;
`onPaste` says which of the two happens. The module has definitions only. What
follows from them is said in `PasteKey`.
-/

namespace WasmRdp

/-! ## Keys -/

/-- `KeyboardEvent.code`, with one value for all codes that have no
scancode. -/
inductive KeyCode where
  | escape | digit1 | digit2 | digit3 | digit4 | digit5 | digit6 | digit7 | digit8 | digit9
  | digit0 | minus | equal | backspace | tab | keyQ | keyW | keyE | keyR | keyT | keyY
  | keyU | keyI | keyO | keyP | bracketLeft | bracketRight | enter | controlLeft | keyA
  | keyS | keyD | keyF | keyG | keyH | keyJ | keyK | keyL | semicolon | quote | backquote
  | shiftLeft | backslash | keyZ | keyX | keyC | keyV | keyB | keyN | keyM | comma | period
  | slash | shiftRight | numpadMultiply | altLeft | space | capsLock | f1 | f2 | f3 | f4
  | f5 | f6 | f7 | f8 | f9 | f10 | f11 | f12 | numLock | scrollLock | numpad7 | numpad8
  | numpad9 | numpadSubtract | numpad4 | numpad5 | numpad6 | numpadAdd | numpad1 | numpad2
  | numpad3 | numpad0 | numpadDecimal | numpadEnter | controlRight | numpadDivide | altRight
  | home | arrowUp | pageUp | arrowLeft | arrowRight | endKey | arrowDown | pageDown | insert
  | delete | metaLeft | metaRight | contextMenu | printScreen | pause | unmapped
  deriving DecidableEq, Repr

/-- `SCANCODE_MAP`: the scancode of a key, and whether it is extended. -/
def SCANCODE_MAP : KeyCode → Option (UInt8 × Bool)
  | .escape => some (0x01, false)
  | .digit1 => some (0x02, false)
  | .digit2 => some (0x03, false)
  | .digit3 => some (0x04, false)
  | .digit4 => some (0x05, false)
  | .digit5 => some (0x06, false)
  | .digit6 => some (0x07, false)
  | .digit7 => some (0x08, false)
  | .digit8 => some (0x09, false)
  | .digit9 => some (0x0A, false)
  | .digit0 => some (0x0B, false)
  | .minus => some (0x0C, false)
  | .equal => some (0x0D, false)
  | .backspace => some (0x0E, false)
  | .tab => some (0x0F, false)
  | .keyQ => some (0x10, false)
  | .keyW => some (0x11, false)
  | .keyE => some (0x12, false)
  | .keyR => some (0x13, false)
  | .keyT => some (0x14, false)
  | .keyY => some (0x15, false)
  | .keyU => some (0x16, false)
  | .keyI => some (0x17, false)
  | .keyO => some (0x18, false)
  | .keyP => some (0x19, false)
  | .bracketLeft => some (0x1A, false)
  | .bracketRight => some (0x1B, false)
  | .enter => some (0x1C, false)
  | .controlLeft => some (0x1D, false)
  | .keyA => some (0x1E, false)
  | .keyS => some (0x1F, false)
  | .keyD => some (0x20, false)
  | .keyF => some (0x21, false)
  | .keyG => some (0x22, false)
  | .keyH => some (0x23, false)
  | .keyJ => some (0x24, false)
  | .keyK => some (0x25, false)
  | .keyL => some (0x26, false)
  | .semicolon => some (0x27, false)
  | .quote => some (0x28, false)
  | .backquote => some (0x29, false)
  | .shiftLeft => some (0x2A, false)
  | .backslash => some (0x2B, false)
  | .keyZ => some (0x2C, false)
  | .keyX => some (0x2D, false)
  | .keyC => some (0x2E, false)
  | .keyV => some (0x2F, false)
  | .keyB => some (0x30, false)
  | .keyN => some (0x31, false)
  | .keyM => some (0x32, false)
  | .comma => some (0x33, false)
  | .period => some (0x34, false)
  | .slash => some (0x35, false)
  | .shiftRight => some (0x36, false)
  | .numpadMultiply => some (0x37, false)
  | .altLeft => some (0x38, false)
  | .space => some (0x39, false)
  | .capsLock => some (0x3A, false)
  | .f1 => some (0x3B, false)
  | .f2 => some (0x3C, false)
  | .f3 => some (0x3D, false)
  | .f4 => some (0x3E, false)
  | .f5 => some (0x3F, false)
  | .f6 => some (0x40, false)
  | .f7 => some (0x41, false)
  | .f8 => some (0x42, false)
  | .f9 => some (0x43, false)
  | .f10 => some (0x44, false)
  | .f11 => some (0x57, false)
  | .f12 => some (0x58, false)
  | .numLock => some (0x45, false)
  | .scrollLock => some (0x46, false)
  | .numpad7 => some (0x47, false)
  | .numpad8 => some (0x48, false)
  | .numpad9 => some (0x49, false)
  | .numpadSubtract => some (0x4A, false)
  | .numpad4 => some (0x4B, false)
  | .numpad5 => some (0x4C, false)
  | .numpad6 => some (0x4D, false)
  | .numpadAdd => some (0x4E, false)
  | .numpad1 => some (0x4F, false)
  | .numpad2 => some (0x50, false)
  | .numpad3 => some (0x51, false)
  | .numpad0 => some (0x52, false)
  | .numpadDecimal => some (0x53, false)
  | .numpadEnter => some (0x1C, true)
  | .controlRight => some (0x1D, true)
  | .numpadDivide => some (0x35, true)
  | .altRight => some (0x38, true)
  | .home => some (0x47, true)
  | .arrowUp => some (0x48, true)
  | .pageUp => some (0x49, true)
  | .arrowLeft => some (0x4B, true)
  | .arrowRight => some (0x4D, true)
  | .endKey => some (0x4F, true)
  | .arrowDown => some (0x50, true)
  | .pageDown => some (0x51, true)
  | .insert => some (0x52, true)
  | .delete => some (0x53, true)
  | .metaLeft => some (0x5B, true)
  | .metaRight => some (0x5C, true)
  | .contextMenu => some (0x5D, true)
  | .printScreen => some (0x37, true)
  | .pause => some (0x45, false)
  | .unmapped => none

def MODIFIER_CODES : List KeyCode :=
  [.controlLeft, .controlRight, .shiftLeft, .shiftRight, .altLeft, .altRight,
    .metaLeft, .metaRight]

/-- A call of `send_keyboard`. -/
structure KeyStroke where
  scancode : UInt8
  pressed : Bool
  extended : Bool
  deriving DecidableEq, Repr

structure KeyEvent where
  code : KeyCode
  ctrlKey : Bool
  shiftKey : Bool
  metaKey : Bool
  deriving DecidableEq

/-- What a key does to the page instead of the session. -/
inductive Shortcut where
  | fullscreen
  | toolbar
  | disconnect
  deriving DecidableEq

/-! ## State -/

structure HeldPaste where
  mapping : Option (UInt8 × Bool)
  mods : List KeyCode
  deriving DecidableEq

/-- What `pasteReplayTimer` waits for. -/
inductive PasteTimer where
  | keystrokeDelay
  | ackTimeout
  deriving DecidableEq

structure Keyboard where
  heldPaste : Option HeldPaste
  pasteKeyUp : Option KeyCode
  pasteReplayTimer : Option PasteTimer
  advertsInFlight : Nat
  keysDown : Finset KeyCode
  altTabHolding : Bool
  deriving DecidableEq

namespace Keyboard

/-- The state of a page that was just loaded. -/
def initial : Keyboard where
  heldPaste := none
  pasteKeyUp := none
  pasteReplayTimer := none
  advertsInFlight := 0
  keysDown := ∅
  altTabHolding := false

def press (mapping : UInt8 × Bool) : KeyStroke := ⟨mapping.1, true, mapping.2⟩

def release (mapping : UInt8 × Bool) : KeyStroke := ⟨mapping.1, false, mapping.2⟩

/-! ## Held paste keys -/

def sendHeldPaste (k : Keyboard) (hasSession : Bool) : Keyboard × List KeyStroke :=
  let sent :=
    match hasSession, k.heldPaste with
    | true, some ⟨some mapping, mods⟩ =>
        let released := (mods.filter (· ∉ k.keysDown)).filterMap SCANCODE_MAP
        released.map press ++ [press mapping, release mapping] ++
          released.reverse.map release
    | _, _ => []
  ({ k with heldPaste := none, pasteReplayTimer := none }, sent)

/-- `advertise`, where `send` returns or throws. -/
def advertise (k : Keyboard) (hasSession sends : Bool) : Keyboard × List KeyStroke :=
  if sends then
    ({ k with
        advertsInFlight := k.advertsInFlight + 1
        pasteReplayTimer :=
          if k.heldPaste.isSome then some .ackTimeout else k.pasteReplayTimer }, [])
  else k.sendHeldPaste hasSession

/-- `__rdp_format_list_ack`, but for the channel's state. -/
def formatListAck (k : Keyboard) (hasSession : Bool) : Keyboard × List KeyStroke :=
  let k := { k with advertsInFlight := k.advertsInFlight - 1 }
  if k.advertsInFlight = 0 ∧ k.heldPaste.isSome then k.sendHeldPaste hasSession else (k, [])

/-- The keyboard's part of `resetClipboardState`. -/
def resetClipboardState (k : Keyboard) : Keyboard :=
  { k with
    heldPaste := none
    pasteKeyUp := none
    pasteReplayTimer := none
    advertsInFlight := 0
    keysDown := ∅ }

/-! ## Handlers -/

def releaseAllModifiers (k : Keyboard) : Keyboard × List KeyStroke :=
  ({ k with altTabHolding := false, keysDown := ∅ },
    [⟨0x1D, false, false⟩, ⟨0x1D, false, true⟩, ⟨0x2A, false, false⟩, ⟨0x36, false, false⟩,
      ⟨0x38, false, false⟩, ⟨0x38, false, true⟩, ⟨0x5B, false, true⟩, ⟨0x5C, false, true⟩])

def altTabStep (k : Keyboard) (shift : Bool) : Keyboard × List KeyStroke :=
  let hold : List KeyStroke :=
    if k.altTabHolding then []
    else [⟨0x1D, false, false⟩, ⟨0x1D, false, true⟩, ⟨0x38, true, false⟩]
  let tab : List KeyStroke := [⟨0x0F, true, false⟩, ⟨0x0F, false, false⟩]
  ({ k with altTabHolding := true },
    hold ++ if shift then [⟨0x2A, true, false⟩] ++ tab ++ [⟨0x2A, false, false⟩] else tab)

def endAltTab (k : Keyboard) : Keyboard × List KeyStroke :=
  if k.altTabHolding then
    ({ k with altTabHolding := false }, [⟨0x38, false, false⟩])
  else (k, [])

/-- The browser's paste keys. -/
def isPasteKey (e : KeyEvent) : Bool :=
  ((e.ctrlKey || e.metaKey) && e.code = .keyV) ||
    (e.shiftKey && !e.ctrlKey && e.code = .insert)

/-- The shortcuts with Ctrl and Shift. -/
def shortcutOf (e : KeyEvent) : Option Shortcut :=
  if e.ctrlKey && e.shiftKey then
    match e.code with
    | .keyF => some .fullscreen
    | .keyH => some .toolbar
    | .keyD => some .disconnect
    | _ => none
  else none

/-- `onKeyDown`, while there is a session. A shortcut is for the page to
carry out, after the modifiers are released. -/
def onKeyDown (k : Keyboard) (clipboardEnabled : Bool) (e : KeyEvent) :
    Keyboard × List KeyStroke × Option Shortcut :=
  let k := { k with keysDown := insert e.code k.keysDown }
  match shortcutOf e with
  | some shortcut =>
      let (k, sent) := k.releaseAllModifiers
      (k, sent, some shortcut)
  | none =>
      if e.ctrlKey && e.code = .tab then
        let (k, sent) := k.altTabStep e.shiftKey
        (k, sent, none)
      else if isPasteKey e && clipboardEnabled then
        let (k, sent) := if k.heldPaste.isSome then k.sendHeldPaste true else (k, [])
        let held : HeldPaste := ⟨SCANCODE_MAP e.code, MODIFIER_CODES.filter (· ∈ k.keysDown)⟩
        ({ k with
            heldPaste := some held
            pasteKeyUp := some e.code
            pasteReplayTimer := some .keystrokeDelay }, sent, none)
      else (k, ((SCANCODE_MAP e.code).map press).toList, none)

/-- `onKeyUp`, while there is a session. -/
def onKeyUp (k : Keyboard) (code : KeyCode) : Keyboard × List KeyStroke :=
  let (k, ended) :=
    if code = .controlLeft ∨ code = .controlRight then k.endAltTab else (k, [])
  let k := { k with keysDown := k.keysDown.erase code }
  if k.pasteKeyUp = some code then ({ k with pasteKeyUp := none }, ended)
  else (k, ended ++ ((SCANCODE_MAP code).map release).toList)

/-- What becomes of a `paste` event. -/
inductive PasteOutcome where
  /-- Nothing to sync, or nothing that the session has not seen. -/
  | known
  /-- New text. -/
  | text (sends : Bool)
  /-- A new file or image, whose bytes are being read. -/
  | reading
  deriving DecidableEq

/-- `onPaste`, after it has looked at the content. -/
def onPaste (k : Keyboard) (hasSession : Bool) (outcome : PasteOutcome) :
    Keyboard × List KeyStroke :=
  let k := { k with pasteReplayTimer := none }
  if !hasSession then k.sendHeldPaste hasSession
  else match outcome with
    | .known => k.sendHeldPaste hasSession
    | .text sends => k.advertise hasSession sends
    | .reading => (k, [])

end Keyboard

end WasmRdp
