import WasmRdp.Page

/-!
# The paste key that is held back

What the handlers of `Keyboard` do with the one paste key that waits. Four of
them let it go: the paste handler, the acknowledgement of a Format List, the
timer, and the keydown of the next paste key. All of them call
`sendHeldPaste`, so that a handler is fully told by three things: the key
that it holds back (`heldBack`), whether it lets the waiting key go
(`delivers`), and the strokes that it sends on its own (`direct`).

The rest of the development uses the field lemmas of `handle` below, and not
the handlers: `sent_handle` for the strokes, `heldPaste_handle` for the slot,
`pasteReplayTimer_handle` for the timer and `advertsInFlight_handle` for the
count. An input that lets a waiting key go sends nothing else
(`direct_of_delivers`). A paste key that is held back is such an input, since
it takes the place of one that waits (`delivers_of_heldBack`).

Keydowns are the one handler with many branches. `keyDown_cases` divides them
into shortcuts, steps of the app switcher, paste keys that are held back and
keys that are forwarded, and each has its equation.

What the remote knows is a fold over the strokes (`downAfter`). A waiting key
is sent with its modifiers put back around it (`HeldPaste.chord`), and when
all of it has been sent no key is down that was not down before
(`mem_downAfter_chord`). For that the scancode of a paste key has to be that
of no modifier, and `eq_of_scancode` reads it off the table.

`step_keyInput` connects this with the page: while there is a session,
`handle` is what the page does.
-/

namespace WasmRdp

/-- What makes the keyboard's part of the page run while there is a session. -/
inductive KeyInput where
  | keyDown (clipboardEnabled : Bool) (e : KeyEvent)
  | keyUp (code : KeyCode)
  | blur
  | paste (outcome : Keyboard.PasteOutcome)
  | pasteRead (reads sends : Bool)
  | advert (sends : Bool)
  | formatListAck
  | replayTimer

/-- The inputs that come from keys, and from the window that loses them. -/
def KeyInput.isKey : KeyInput → Bool
  | .keyDown .. => true
  | .keyUp _ => true
  | .blur => true
  | _ => false

/-- The modifiers of a waiting key that were let go meanwhile. -/
def HeldPaste.released (h : HeldPaste) (keysDown : Finset KeyCode) : List (UInt8 × Bool) :=
  (h.mods.filter (· ∉ keysDown)).filterMap SCANCODE_MAP

/-- The strokes of `sendHeldPaste`: the modifiers let go are pressed again
around the key. -/
def HeldPaste.chord (h : HeldPaste) (keysDown : Finset KeyCode) : List KeyStroke :=
  match h.mapping with
  | none => []
  | some mapping =>
      (h.released keysDown).map Keyboard.press ++
        [Keyboard.press mapping, Keyboard.release mapping] ++
        (h.released keysDown).reverse.map Keyboard.release

/-- The key has a scancode, which is that of none of its modifiers. -/
def HeldPaste.Proper (h : HeldPaste) : Prop :=
  ∃ key, h.mapping = some key ∧ ∀ c ∈ h.mods, SCANCODE_MAP c ≠ some key

namespace Keyboard

/-- The handler of an input. -/
def handle (k : Keyboard) : KeyInput → Keyboard × List KeyStroke
  | .keyDown clipboardEnabled e =>
      ((k.onKeyDown clipboardEnabled e).1, (k.onKeyDown clipboardEnabled e).2.1)
  | .keyUp code => k.onKeyUp code
  | .blur => k.releaseAllModifiers
  | .paste outcome => k.onPaste true outcome
  | .pasteRead reads sends => if reads then k.advertise true sends else k.sendHeldPaste true
  | .advert sends => k.advertise true sends
  | .formatListAck => k.formatListAck true
  | .replayTimer => if k.pasteReplayTimer.isSome then k.sendHeldPaste true else (k, [])

/-! ## What a handler does with the paste key -/

/-- The keydown is a paste key and is held back. -/
def holdsBack (clipboardEnabled : Bool) (e : KeyEvent) : Bool :=
  (shortcutOf e).isNone && !(e.ctrlKey && e.code = .tab) && (isPasteKey e && clipboardEnabled)

/-- The key that the input holds back. -/
def heldBack (k : Keyboard) : KeyInput → Option HeldPaste
  | .keyDown clipboardEnabled e =>
      if holdsBack clipboardEnabled e then
        some ⟨SCANCODE_MAP e.code, MODIFIER_CODES.filter (· ∈ insert e.code k.keysDown)⟩
      else none
  | _ => none

/-- The input lets a waiting key go. -/
def delivers (k : Keyboard) : KeyInput → Bool
  | .keyDown clipboardEnabled e => holdsBack clipboardEnabled e
  | .keyUp _ => false
  | .blur => false
  | .paste .known => true
  | .paste (.text sends) => !sends
  | .paste .reading => false
  | .pasteRead reads sends => !(reads && sends)
  | .advert sends => !sends
  | .formatListAck => k.advertsInFlight - 1 = 0 ∧ k.heldPaste.isSome
  | .replayTimer => k.pasteReplayTimer.isSome

/-- The waiting key that the input lets go. -/
def delivery (k : Keyboard) (i : KeyInput) : Option HeldPaste :=
  if k.delivers i then k.heldPaste else none

/-- The input sends a Format List that is counted. -/
def sendsList : KeyInput → Bool
  | .paste (.text sends) => sends
  | .pasteRead reads sends => reads && sends
  | .advert sends => sends
  | _ => false

/-- The strokes that an input sends besides a waiting key. -/
def direct (k : Keyboard) : KeyInput → List KeyStroke
  | .keyDown clipboardEnabled e =>
      if holdsBack clipboardEnabled e then [] else (k.onKeyDown clipboardEnabled e).2.1
  | .keyUp code => (k.onKeyUp code).2
  | .blur => k.releaseAllModifiers.2
  | _ => []

section

variable (k : Keyboard)

@[simp] theorem heldPaste_sendHeldPaste (b : Bool) : (k.sendHeldPaste b).1.heldPaste = none := rfl

@[simp] theorem pasteReplayTimer_sendHeldPaste (b : Bool) :
    (k.sendHeldPaste b).1.pasteReplayTimer = none := rfl

@[simp] theorem pasteKeyUp_sendHeldPaste (b : Bool) :
    (k.sendHeldPaste b).1.pasteKeyUp = k.pasteKeyUp := rfl

@[simp] theorem keysDown_sendHeldPaste (b : Bool) :
    (k.sendHeldPaste b).1.keysDown = k.keysDown := rfl

@[simp] theorem advertsInFlight_sendHeldPaste (b : Bool) :
    (k.sendHeldPaste b).1.advertsInFlight = k.advertsInFlight := rfl

@[simp] theorem altTabHolding_sendHeldPaste (b : Bool) :
    (k.sendHeldPaste b).1.altTabHolding = k.altTabHolding := rfl

/-- The strokes of `sendHeldPaste`. -/
theorem sent_sendHeldPaste :
    (k.sendHeldPaste true).2 = (k.heldPaste.map (·.chord k.keysDown)).getD [] := by
  unfold sendHeldPaste
  cases hheld : k.heldPaste with
  | none => rfl
  | some h =>
      obtain ⟨mapping, mods⟩ := h
      cases mapping <;> rfl

end

/-! ## Keydowns -/

section

variable {k : Keyboard} {clipboardEnabled : Bool} {e : KeyEvent}

theorem onKeyDown_of_shortcut {shortcut : Shortcut} (h : shortcutOf e = some shortcut) :
    k.onKeyDown clipboardEnabled e =
      (k.releaseAllModifiers.1, k.releaseAllModifiers.2, some shortcut) := by
  unfold onKeyDown
  rw [h]
  rfl

theorem onKeyDown_of_tab (hshortcut : shortcutOf e = none) (htab : e.ctrlKey && e.code = .tab) :
    k.onKeyDown clipboardEnabled e =
      ({ k with keysDown := insert e.code k.keysDown, altTabHolding := true },
        (k.altTabStep e.shiftKey).2, none) := by
  unfold onKeyDown
  rw [hshortcut]
  dsimp only
  rw [if_pos htab]
  rfl

/-- A key that is forwarded. -/
theorem onKeyDown_of_plain (hshortcut : shortcutOf e = none)
    (htab : ¬ (e.ctrlKey && e.code = .tab)) (hpaste : ¬ (isPasteKey e && clipboardEnabled)) :
    k.onKeyDown clipboardEnabled e =
      ({ k with keysDown := insert e.code k.keysDown },
        ((SCANCODE_MAP e.code).map press).toList, none) := by
  unfold onKeyDown
  rw [hshortcut]
  dsimp only
  rw [if_neg htab, if_neg hpaste]

theorem holdsBack_iff :
    holdsBack clipboardEnabled e ↔
      shortcutOf e = none ∧ ¬ (e.ctrlKey && e.code = .tab) ∧
        (isPasteKey e && clipboardEnabled) := by
  cases hctrl : e.ctrlKey <;> simp [holdsBack, hctrl, and_assoc]

theorem not_holdsBack_of_shortcut {shortcut : Shortcut} (h : shortcutOf e = some shortcut) :
    ¬ holdsBack clipboardEnabled e := by
  simp [holdsBack, h]

theorem not_holdsBack_of_tab (h : e.ctrlKey && e.code = .tab) :
    ¬ holdsBack clipboardEnabled e :=
  fun hback => (holdsBack_iff.mp hback).2.1 h

theorem not_holdsBack_of_plain (h : ¬ (isPasteKey e && clipboardEnabled)) :
    ¬ holdsBack clipboardEnabled e :=
  fun hback => h (holdsBack_iff.mp hback).2.2

/-- A paste key has a scancode, which is that of no modifier. -/
theorem mapped_of_holdsBack (h : holdsBack clipboardEnabled e) :
    ∃ key, SCANCODE_MAP e.code = some key ∧ ∀ c ∈ MODIFIER_CODES, SCANCODE_MAP c ≠ some key := by
  have hpaste := (holdsBack_iff.mp h).2.2
  simp only [isPasteKey, Bool.and_eq_true, Bool.or_eq_true, decide_eq_true_eq] at hpaste
  obtain ⟨⟨-, hcode⟩ | ⟨-, hcode⟩, -⟩ := hpaste <;> rw [hcode] <;> exact ⟨_, rfl, by decide⟩

/-- A paste key waits in the place of the one before. -/
theorem onKeyDown_of_holdsBack (h : holdsBack clipboardEnabled e) :
    k.onKeyDown clipboardEnabled e =
      ({ k with
          keysDown := insert e.code k.keysDown
          heldPaste :=
            some ⟨SCANCODE_MAP e.code, MODIFIER_CODES.filter (· ∈ insert e.code k.keysDown)⟩
          pasteKeyUp := some e.code
          pasteReplayTimer := some .keystrokeDelay },
        (k.heldPaste.map (·.chord (insert e.code k.keysDown))).getD [], none) := by
  obtain ⟨hshortcut, htab, hpaste⟩ := holdsBack_iff.mp h
  unfold onKeyDown
  rw [hshortcut]
  dsimp only
  rw [if_neg htab, if_pos hpaste]
  cases hheld : k.heldPaste with
  | none => rfl
  | some held =>
      have hsent := sent_sendHeldPaste
        { k with heldPaste := some held, keysDown := insert e.code k.keysDown }
      simp only [Option.isSome_some, if_true, keysDown_sendHeldPaste, hsent]
      rfl

/-- A keydown is a shortcut, a step of the app switcher, a paste key that is
held back, or it is forwarded. -/
theorem keyDown_cases (clipboardEnabled : Bool) (e : KeyEvent) :
    (∃ shortcut, shortcutOf e = some shortcut) ∨
    (shortcutOf e = none ∧ (e.ctrlKey && e.code = .tab)) ∨
    holdsBack clipboardEnabled e ∨
    (shortcutOf e = none ∧ ¬ (e.ctrlKey && e.code = .tab) ∧
      ¬ (isPasteKey e && clipboardEnabled)) := by
  rw [holdsBack_iff]
  cases shortcutOf e with
  | some shortcut => exact .inl ⟨shortcut, rfl⟩
  | none => tauto

/-- What every other keydown leaves in place. -/
structure Untouched (k k' : Keyboard) : Prop where
  heldPaste : k'.heldPaste = k.heldPaste
  pasteKeyUp : k'.pasteKeyUp = k.pasteKeyUp
  pasteReplayTimer : k'.pasteReplayTimer = k.pasteReplayTimer
  advertsInFlight : k'.advertsInFlight = k.advertsInFlight

theorem onKeyDown_of_not_holdsBack (h : ¬ holdsBack clipboardEnabled e) :
    Untouched k (k.onKeyDown clipboardEnabled e).1 := by
  obtain ⟨shortcut, hshortcut⟩ | ⟨hshortcut, htab⟩ | hback | ⟨hshortcut, htab, hpaste⟩ :=
    keyDown_cases clipboardEnabled e
  · rw [onKeyDown_of_shortcut hshortcut]
    exact ⟨rfl, rfl, rfl, rfl⟩
  · rw [onKeyDown_of_tab hshortcut htab]
    exact ⟨rfl, rfl, rfl, rfl⟩
  · exact absurd hback h
  · rw [onKeyDown_of_plain hshortcut htab hpaste]
    exact ⟨rfl, rfl, rfl, rfl⟩

theorem shortcut_onKeyDown : (k.onKeyDown clipboardEnabled e).2.2 = shortcutOf e := by
  obtain ⟨shortcut, hshortcut⟩ | ⟨hshortcut, htab⟩ | hback | ⟨hshortcut, htab, hpaste⟩ :=
    keyDown_cases clipboardEnabled e
  · rw [onKeyDown_of_shortcut hshortcut, hshortcut]
  · rw [onKeyDown_of_tab hshortcut htab, hshortcut]
  · rw [onKeyDown_of_holdsBack hback, (holdsBack_iff.mp hback).1]
  · rw [onKeyDown_of_plain hshortcut htab hpaste, hshortcut]

/-! ## Keyups -/

/-- Letting go of Ctrl ends the app switcher. -/
def endsAltTab (k : Keyboard) (code : KeyCode) : Bool :=
  (code = .controlLeft ∨ code = .controlRight) ∧ k.altTabHolding

/-- The keys that a keyup takes up on the remote. -/
def keysUp (k : Keyboard) (code : KeyCode) : List (UInt8 × Bool) :=
  (if k.endsAltTab code then [(0x38, false)] else []) ++
    if k.pasteKeyUp = some code then [] else (SCANCODE_MAP code).toList

theorem onKeyUp_eq (code : KeyCode) :
    k.onKeyUp code =
      ({ k with
          altTabHolding := k.altTabHolding && !k.endsAltTab code
          keysDown := k.keysDown.erase code
          pasteKeyUp := if k.pasteKeyUp = some code then none else k.pasteKeyUp },
        (k.keysUp code).map release) := by
  unfold onKeyUp endAltTab keysUp endsAltTab
  by_cases hctrl : code = .controlLeft ∨ code = .controlRight
  · cases halt : k.altTabHolding <;> by_cases hup : k.pasteKeyUp = some code <;>
      cases SCANCODE_MAP code <;> simp [hctrl, halt, hup, release]
  · by_cases hup : k.pasteKeyUp = some code <;> cases SCANCODE_MAP code <;> simp [hctrl, hup]

end

/-! ## The fields after a handler -/

section

variable (k : Keyboard)

theorem heldPaste_handle (i : KeyInput) :
    (k.handle i).1.heldPaste =
      (k.heldBack i).or (if k.delivers i then none else k.heldPaste) := by
  cases i with
  | keyDown clipboardEnabled e =>
      by_cases hback : holdsBack clipboardEnabled e
      · simp [handle, onKeyDown_of_holdsBack hback, heldBack, hback]
      · simp [handle, (onKeyDown_of_not_holdsBack hback).heldPaste, heldBack, delivers, hback]
  | keyUp code => simp [handle, onKeyUp_eq, heldBack, delivers]
  | blur => rfl
  | paste outcome =>
      cases outcome with
      | known => rfl
      | text sends => cases sends <;> rfl
      | reading => rfl
  | pasteRead reads sends => cases reads <;> cases sends <;> rfl
  | advert sends => cases sends <;> rfl
  | formatListAck =>
      unfold handle formatListAck
      by_cases hzero : k.advertsInFlight - 1 = 0 ∧ k.heldPaste.isSome
      · simp [heldBack, delivers, hzero]
      · simp [heldBack, delivers, hzero]
  | replayTimer => cases htimer : k.pasteReplayTimer <;> simp [handle, heldBack, delivers, htimer]

theorem pasteReplayTimer_handle (i : KeyInput) :
    (k.handle i).1.pasteReplayTimer =
      if (k.heldBack i).isSome then some .keystrokeDelay
      else if k.delivers i then none
      else if sendsList i ∧ k.heldPaste.isSome then some .ackTimeout
      else match i with
        | .paste _ => none
        | _ => k.pasteReplayTimer := by
  cases i with
  | keyDown clipboardEnabled e =>
      by_cases hback : holdsBack clipboardEnabled e
      · simp [handle, onKeyDown_of_holdsBack hback, heldBack, hback]
      · simp [handle, (onKeyDown_of_not_holdsBack hback).pasteReplayTimer, heldBack, delivers,
          sendsList, hback]
  | keyUp code => simp [handle, onKeyUp_eq, heldBack, delivers, sendsList]
  | blur => rfl
  | paste outcome =>
      cases outcome with
      | known => rfl
      | text sends => cases sends <;> cases hheld : k.heldPaste <;>
          simp [handle, onPaste, advertise, heldBack, delivers, sendsList, hheld]
      | reading => rfl
  | pasteRead reads sends => cases reads <;> cases sends <;> cases hheld : k.heldPaste <;>
      simp [handle, advertise, heldBack, delivers, sendsList, hheld]
  | advert sends => cases sends <;> cases hheld : k.heldPaste <;>
      simp [handle, advertise, heldBack, delivers, sendsList, hheld]
  | formatListAck =>
      unfold handle formatListAck
      by_cases hzero : k.advertsInFlight - 1 = 0 ∧ k.heldPaste.isSome
      · simp [heldBack, delivers, hzero]
      · simp [heldBack, delivers, sendsList, hzero]
  | replayTimer =>
      cases htimer : k.pasteReplayTimer <;>
        simp [handle, heldBack, delivers, sendsList, htimer]

theorem advertsInFlight_handle (i : KeyInput) :
    (k.handle i).1.advertsInFlight =
      match i with
      | .formatListAck => k.advertsInFlight - 1
      | _ => if sendsList i then k.advertsInFlight + 1 else k.advertsInFlight := by
  cases i with
  | keyDown clipboardEnabled e =>
      by_cases hback : holdsBack clipboardEnabled e
      · simp [handle, onKeyDown_of_holdsBack hback, sendsList]
      · simp [handle, (onKeyDown_of_not_holdsBack hback).advertsInFlight, sendsList]
  | keyUp code => simp [handle, onKeyUp_eq, sendsList]
  | blur => rfl
  | paste outcome =>
      cases outcome with
      | known => rfl
      | text sends => cases sends <;> rfl
      | reading => rfl
  | pasteRead reads sends => cases reads <;> cases sends <;> rfl
  | advert sends => cases sends <;> rfl
  | formatListAck =>
      unfold handle formatListAck
      dsimp only
      split <;> rfl
  | replayTimer => cases htimer : k.pasteReplayTimer <;> simp [handle, htimer, sendsList]

/-- All strokes of a handler. -/
theorem sent_handle (i : KeyInput) :
    (k.handle i).2 =
      ((k.delivery i).map (·.chord (k.handle i).1.keysDown)).getD [] ++ k.direct i := by
  cases i with
  | keyDown clipboardEnabled e =>
      by_cases hback : holdsBack clipboardEnabled e
      · simp [handle, onKeyDown_of_holdsBack hback, delivery, delivers, direct, hback]
      · simp [handle, delivery, delivers, direct, hback]
  | keyUp code => simp [handle, delivery, delivers, direct]
  | blur => rfl
  | paste outcome =>
      cases outcome with
      | known =>
          have hsent := sent_sendHeldPaste { k with pasteReplayTimer := none }
          simpa [handle, onPaste, delivery, delivers, direct] using hsent
      | text sends =>
          have hsent := sent_sendHeldPaste { k with pasteReplayTimer := none }
          cases sends with
          | false => simpa [handle, onPaste, advertise, delivery, delivers, direct] using hsent
          | true => simp [handle, onPaste, advertise, delivery, delivers, direct]
      | reading => rfl
  | pasteRead reads sends =>
      have hsent := sent_sendHeldPaste k
      by_cases hboth : reads ∧ sends
      · simp [handle, advertise, delivery, delivers, direct, hboth]
      · cases reads <;> cases sends <;>
          simp_all [handle, advertise, delivery, delivers, direct]
  | advert sends =>
      have hsent := sent_sendHeldPaste k
      cases sends with
      | false => simpa [handle, advertise, delivery, delivers, direct] using hsent
      | true => simp [handle, advertise, delivery, delivers, direct]
  | formatListAck =>
      have hsent := sent_sendHeldPaste { k with advertsInFlight := k.advertsInFlight - 1 }
      unfold handle formatListAck
      by_cases hzero : k.advertsInFlight - 1 = 0 ∧ k.heldPaste.isSome
      · simpa [delivery, delivers, direct, hzero] using hsent
      · simp [delivery, delivers, direct, hzero]
  | replayTimer =>
      have hsent := sent_sendHeldPaste k
      cases htimer : k.pasteReplayTimer with
      | none => simp [handle, delivery, delivers, direct, htimer]
      | some timer => simpa [handle, delivery, delivers, direct, htimer] using hsent

/-- The timer is never set without a key. -/
theorem held_of_timer_handle (h : k.pasteReplayTimer.isSome → k.heldPaste.isSome) (i : KeyInput)
    (htimer : (k.handle i).1.pasteReplayTimer.isSome) : (k.handle i).1.heldPaste.isSome := by
  rw [pasteReplayTimer_handle] at htimer
  rw [heldPaste_handle]
  cases hback : k.heldBack i with
  | some held => rfl
  | none =>
      rw [hback] at htimer
      by_cases hdelivers : k.delivers i
      · rw [Option.isSome_none, if_neg Bool.false_ne_true, if_pos hdelivers] at htimer
        cases htimer
      · rw [if_neg hdelivers, Option.none_or]
        rw [Option.isSome_none, if_neg Bool.false_ne_true, if_neg hdelivers] at htimer
        split at htimer
        · rename_i hsends
          exact hsends.2
        · split at htimer
          · cases htimer
          · exact h htimer

theorem proper_of_heldBack {i : KeyInput} {held : HeldPaste} (h : k.heldBack i = some held) :
    held.Proper := by
  cases i with
  | keyDown clipboardEnabled e =>
      by_cases hback : holdsBack clipboardEnabled e
      · rw [heldBack, if_pos hback, Option.some.injEq] at h
        subst h
        obtain ⟨key, hkey, hmods⟩ := mapped_of_holdsBack hback
        exact ⟨key, hkey, fun c hc => hmods c (List.mem_filter.mp hc).1⟩
      · rw [heldBack, if_neg hback] at h
        cases h
  | _ => cases h

theorem proper_handle (h : ∀ held ∈ k.heldPaste, held.Proper) (i : KeyInput) :
    ∀ held ∈ (k.handle i).1.heldPaste, held.Proper := by
  intro held hheld
  rw [heldPaste_handle, Option.mem_def, Option.or_eq_some_iff] at hheld
  obtain hback | ⟨-, hheld⟩ := hheld
  · exact k.proper_of_heldBack hback
  · split at hheld
    · cases hheld
    · exact h held hheld

/-- What the inputs that are no keys leave alone. -/
structure SameKeys (k k' : Keyboard) : Prop where
  keysDown : k'.keysDown = k.keysDown
  altTabHolding : k'.altTabHolding = k.altTabHolding
  pasteKeyUp : k'.pasteKeyUp = k.pasteKeyUp

theorem sameKeys_advertise (sends : Bool) : SameKeys k (k.advertise true sends).1 := by
  cases sends <;> exact ⟨rfl, rfl, rfl⟩

theorem sameKeys_handle {i : KeyInput} (h : i.isKey = false) : SameKeys k (k.handle i).1 := by
  cases i with
  | keyDown clipboardEnabled e => cases h
  | keyUp code => cases h
  | blur => cases h
  | paste outcome =>
      cases outcome with
      | known => exact ⟨rfl, rfl, rfl⟩
      | text sends => cases sends <;> exact ⟨rfl, rfl, rfl⟩
      | reading => exact ⟨rfl, rfl, rfl⟩
  | pasteRead reads sends =>
      cases reads with
      | true => exact k.sameKeys_advertise sends
      | false => exact ⟨rfl, rfl, rfl⟩
  | advert sends => exact k.sameKeys_advertise sends
  | formatListAck =>
      unfold handle formatListAck
      dsimp only
      split <;> exact ⟨rfl, rfl, rfl⟩
  | replayTimer =>
      unfold handle
      dsimp only
      split <;> exact ⟨rfl, rfl, rfl⟩

/-- An input that lets a waiting key go sends nothing else. -/
theorem direct_of_delivers {i : KeyInput} (h : k.delivers i) : k.direct i = [] := by
  cases i with
  | keyDown clipboardEnabled e => exact if_pos h
  | keyUp code => cases h
  | blur => cases h
  | _ => rfl

/-- A key that is held back takes the place of one that waits. -/
theorem delivers_of_heldBack {i : KeyInput} {held : HeldPaste} (h : k.heldBack i = some held) :
    k.delivers i := by
  cases i with
  | keyDown clipboardEnabled e =>
      by_cases hback : holdsBack clipboardEnabled e
      · exact hback
      · rw [heldBack, if_neg hback] at h
        cases h
  | _ => cases h

theorem direct_of_not_key {i : KeyInput} (h : i.isKey = false) : k.direct i = [] := by
  cases i with
  | keyDown clipboardEnabled e => cases h
  | keyUp code => cases h
  | blur => cases h
  | _ => rfl

end

end Keyboard

/-- No two keys of which one is a modifier have the same scancode; nor have
two of which one is a paste key. -/
theorem eq_of_scancode {code code' : KeyCode} {key : UInt8 × Bool}
    (h : code ∈ MODIFIER_CODES ∨ code = .keyV ∨ code = .insert)
    (hkey : SCANCODE_MAP code = some key) (hkey' : SCANCODE_MAP code' = some key) :
    code' = code := by
  have hall : ∀ c ∈ KeyCode.keyV :: .insert :: MODIFIER_CODES,
      SCANCODE_MAP code' = SCANCODE_MAP c → code' = c := by
    cases code' <;> decide
  refine hall code ?_ (hkey'.trans hkey.symm)
  simp only [List.mem_cons]
  tauto

/-! ## The keys on the remote -/

/-- What a stroke does to the keys that are down on the remote. -/
def KeyStroke.apply (down : Finset (UInt8 × Bool)) (stroke : KeyStroke) :
    Finset (UInt8 × Bool) :=
  if stroke.pressed then insert (stroke.scancode, stroke.extended) down
  else down.erase (stroke.scancode, stroke.extended)

/-- The keys that are down after some strokes. -/
def downAfter (down : Finset (UInt8 × Bool)) (strokes : List KeyStroke) :
    Finset (UInt8 × Bool) :=
  strokes.foldl KeyStroke.apply down

section

variable {down : Finset (UInt8 × Bool)} {key : UInt8 × Bool}

@[simp] theorem downAfter_nil : downAfter down [] = down := rfl

@[simp] theorem downAfter_append (xs ys : List KeyStroke) :
    downAfter down (xs ++ ys) = downAfter (downAfter down xs) ys :=
  List.foldl_append

@[simp] theorem downAfter_press : downAfter down [Keyboard.press key] = insert key down := rfl

@[simp] theorem downAfter_release : downAfter down [Keyboard.release key] = down.erase key := rfl

theorem mem_downAfter_presses (keys : List (UInt8 × Bool)) :
    key ∈ downAfter down (keys.map Keyboard.press) ↔ key ∈ down ∨ key ∈ keys := by
  induction keys generalizing down with
  | nil => simp
  | cons k keys ih =>
      rw [List.map_cons, ← List.singleton_append, downAfter_append, ih]
      simp only [downAfter_press, Finset.mem_insert, List.mem_cons]
      tauto

theorem mem_downAfter_releases (keys : List (UInt8 × Bool)) :
    key ∈ downAfter down (keys.map Keyboard.release) ↔ key ∈ down ∧ key ∉ keys := by
  induction keys generalizing down with
  | nil => simp
  | cons k keys ih =>
      rw [List.map_cons, ← List.singleton_append, downAfter_append, ih]
      simp only [downAfter_release, Finset.mem_erase, List.mem_cons]
      tauto

theorem mem_downAfter_releaseAllModifiers (k : Keyboard) :
    key ∈ downAfter down k.releaseAllModifiers.2 ↔
      key ∈ down ∧ key ∉ MODIFIER_CODES.filterMap SCANCODE_MAP :=
  mem_downAfter_releases (MODIFIER_CODES.filterMap SCANCODE_MAP)

/-- A key is down after the same strokes where it was down before them. -/
theorem mem_downAfter_congr {down' : Finset (UInt8 × Bool)} (strokes : List KeyStroke)
    (h : key ∈ down ↔ key ∈ down') :
    key ∈ downAfter down strokes ↔ key ∈ downAfter down' strokes := by
  induction strokes generalizing down down' with
  | nil => exact h
  | cons stroke strokes ih =>
      refine ih ?_
      rw [KeyStroke.apply, KeyStroke.apply]
      split
      · rw [Finset.mem_insert, Finset.mem_insert, h]
      · rw [Finset.mem_erase, Finset.mem_erase, h]

theorem downAfter_presses (keys : List (UInt8 × Bool)) :
    downAfter down (keys.map Keyboard.press) = down ∪ keys.toFinset := by
  ext key
  rw [mem_downAfter_presses, Finset.mem_union, List.mem_toFinset]

/-- A key that was held back leaves no key down. -/
theorem mem_downAfter_chord (h : HeldPaste) (keysDown : Finset KeyCode) :
    key ∈ downAfter down (h.chord keysDown) ↔
      key ∈ down ∧ (h.mapping.isSome →
        h.mapping ≠ some key ∧ key ∉ h.released keysDown) := by
  unfold HeldPaste.chord
  cases hmapping : h.mapping with
  | none => simp
  | some mapping =>
      have hpair : [Keyboard.press mapping, Keyboard.release mapping] =
          [Keyboard.press mapping] ++ [Keyboard.release mapping] := rfl
      simp only [hpair, downAfter_append, mem_downAfter_releases, downAfter_release,
        downAfter_press, Finset.mem_erase, Finset.mem_insert, mem_downAfter_presses,
        List.mem_reverse, Option.isSome_some, true_imp_iff, ne_eq, Option.some.injEq]
      tauto

/-- The strokes of a waiting key, if there is one. -/
theorem downAfter_delivery_subset (h : Option HeldPaste) (keysDown : Finset KeyCode) :
    downAfter down ((h.map (·.chord keysDown)).getD []) ⊆ down := by
  cases h with
  | none => exact Finset.Subset.refl _
  | some h => exact fun key hkey => ((mem_downAfter_chord h keysDown).mp hkey).1

end

/-! ## The page's part -/

/-- The input that an event of the page is. -/
def PageEvent.keyInput : PageEvent → Option KeyInput
  | .keyDown clipboardEnabled e => some (.keyDown clipboardEnabled e)
  | .keyUp code => some (.keyUp code)
  | .blur => some .blur
  | .paste outcome => some (.paste outcome)
  | .pasteRead reads sends => some (.pasteRead reads sends)
  | .advert sends => some (.advert sends)
  | .formatListAck _ => some .formatListAck
  | .replayTimer => some .replayTimer
  | _ => none

/-- Ctrl+Shift+D. -/
def KeyInput.disconnects : KeyInput → Bool
  | .keyDown _ e => Keyboard.shortcutOf e = some .disconnect
  | _ => false

namespace Page

theorem typed_nil (p : Page) : p.typed (p.keyboard, []) = p := by
  have hsession : p.rail.session.map (·.sendKeyboard []) = p.rail.session := by
    cases p.rail.session <;> simp [Session.sendKeyboard]
  rw [typed, hsession]

/-- While there is a session, `handle` is what the page does. -/
theorem step_keyInput {p : Page} {e : PageEvent} {i : KeyInput} (hs : p.session.isSome)
    (hi : e.keyInput = some i) :
    p.step e =
      if i.disconnects then (p.typed (p.keyboard.handle i)).disconnect
      else p.typed (p.keyboard.handle i) := by
  cases e <;> simp only [PageEvent.keyInput, Option.some.injEq, reduceCtorEq] at hi <;> subst hi
  case keyDown clipboardEnabled e =>
    simp only [step, onKeyDown, hs, if_true, Keyboard.shortcut_onKeyDown, KeyInput.disconnects,
      decide_eq_true_eq, Keyboard.handle]
  case replayTimer =>
    cases htimer : p.keyboard.pasteReplayTimer with
    | none => simp [step, Keyboard.handle, htimer, typed_nil, KeyInput.disconnects]
    | some timer => simp [step, Keyboard.handle, htimer, hs, KeyInput.disconnects]
  case pasteRead reads sends =>
    cases reads <;> simp [step, Keyboard.handle, hs, KeyInput.disconnects]
  all_goals simp [step, Keyboard.handle, hs, KeyInput.disconnects]

end Page

end WasmRdp
