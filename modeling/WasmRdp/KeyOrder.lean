import WasmRdp.Lib.Runs
import WasmRdp.PasteKey

/-!
# The order of the keys

A paste key that is held back should reach the remote late and otherwise
unchanged. `KeyOrder` compares two pages that take the same inputs: the page
as it is, and one with the clipboard off, which forwards every key at once.
What the second one sends is what the user has pressed.

While a key waits, the presses that the remote has received are those of the
user but for the waiting one, which is the last (`Ordered`). An input keeps
this up exactly if it fits (`Fits`), which is said of the inputs alone: none
presses a key while one waits; and of the modifiers that went up since the press
of the waiting key, each was then down for the page exactly if it was down on the
remote. The two part in the app switcher only, which lets Ctrl go on the remote
and presses left Alt there, while the user holds Ctrl. The handlers look after
modifiers that are let go, and press them again around the waiting key; other keys
go past it.

That the condition is exact needs to know which modifiers are down on the remote
when the key is let go. `Tracks` says so from the inputs since the press: those of
the press that did not go up, less the Alt of an app switcher that has ended. It
holds at the press (`tracks_of_heldBack`) and is kept by every input that presses
no key (`Tracks.step`), from `Lifts`, what such an input takes up; and it gives the
modifiers that the waiting key arrives with (`kept_iff`). As long as the order
holds, `Tracks` holds with it; so the invariant of a run has both (`Inv`), and
`always_transparent_iff` is the run of `transparent_step`.
-/

namespace WasmRdp

/-- A press as the remote receives it; that of a paste key with the modifiers
that are down there. -/
structure Press where
  key : UInt8 × Bool
  mods : Option (Finset (UInt8 × Bool))
  deriving DecidableEq

/-- The modifiers among the keys. -/
def modifiersOf (down : Finset (UInt8 × Bool)) : Finset (UInt8 × Bool) :=
  down.filter (· ∈ MODIFIER_CODES.filterMap SCANCODE_MAP)

/-- The presses among the strokes. -/
def presses (strokes : List KeyStroke) : List Press :=
  (strokes.filter (·.pressed)).map fun stroke => ⟨(stroke.scancode, stroke.extended), none⟩

@[simp] theorem presses_nil : presses [] = [] := rfl

@[simp] theorem presses_releases (keys : List (UInt8 × Bool)) :
    presses (keys.map Keyboard.release) = [] := by
  simp [presses, Keyboard.release, List.filter_map, Function.comp_def]

theorem mods_of_mem_presses {strokes : List KeyStroke} {p : Press} (h : p ∈ presses strokes) :
    p.mods = none := by
  obtain ⟨stroke, -, rfl⟩ := List.mem_map.mp h
  rfl

/-- A waiting key when it reaches the remote, where the keys `down` are down. -/
def HeldPaste.arrival (h : HeldPaste) (keysDown : Finset KeyCode)
    (down : Finset (UInt8 × Bool)) : Option Press :=
  h.mapping.map fun key =>
    ⟨key, some (modifiersOf (downAfter down ((h.released keysDown).map Keyboard.press)))⟩

/-- The same input where the clipboard is off. -/
def KeyInput.forwarded : KeyInput → KeyInput
  | .keyDown _ e => .keyDown false e
  | i => i

/-- The keydown of a key that is passed on, or of a step of the app switcher. -/
def KeyInput.pressesKey : KeyInput → Bool
  | .keyDown clipboardEnabled e =>
      (Keyboard.shortcutOf e).isNone && !Keyboard.holdsBack clipboardEnabled e &&
        ((e.ctrlKey && e.code = .tab) || (SCANCODE_MAP e.code).isSome)
  | _ => false

/-- The keyup of a key. The window that loses the focus, and a shortcut, let all keys
go. -/
def KeyInput.letsGo (code : KeyCode) : KeyInput → Bool
  | .keyUp up => up = code
  | .blur => true
  | .keyDown _ e => (Keyboard.shortcutOf e).isSome
  | _ => false

/-- Ctrl is let go, which ends the app switcher. -/
def KeyInput.letsCtrlGo (i : KeyInput) : Bool := i.letsGo .controlLeft || i.letsGo .controlRight

structure KeyOrder where
  keyboard : Keyboard
  remote : Finset (UInt8 × Bool)
  received : List Press
  /-- The keyboard that forwards every key, and its remote. -/
  forwarding : Keyboard
  forwardingRemote : Finset (UInt8 × Bool)
  pressed : List Press
  /-- The press of the key that waits. -/
  waiting : Option Press
  /-- The inputs since that press, and whether the app switcher was on at it. -/
  since : List KeyInput
  switching : Bool

namespace KeyOrder

def initial : KeyOrder where
  keyboard := .initial
  remote := ∅
  received := []
  forwarding := .initial
  forwardingRemote := ∅
  pressed := []
  waiting := none
  since := []
  switching := false

/-- The presses that the user makes with an input. -/
def userPresses (s : KeyOrder) (i : KeyInput) : List Press :=
  (presses (s.forwarding.handle i.forwarded).2).map fun p =>
    if (s.keyboard.heldBack i).isSome then { p with mods := some (modifiersOf s.forwardingRemote) }
    else p

/-- The waiting key that an input brings to the remote. -/
def arrives (s : KeyOrder) (i : KeyInput) : Option Press :=
  (s.keyboard.delivery i).bind fun h =>
    h.arrival (s.keyboard.handle i).1.keysDown s.remote

def step (s : KeyOrder) (i : KeyInput) : KeyOrder where
  keyboard := (s.keyboard.handle i).1
  remote := downAfter s.remote (s.keyboard.handle i).2
  received := s.received ++ (s.arrives i).toList ++ presses (s.keyboard.direct i)
  forwarding := (s.forwarding.handle i.forwarded).1
  forwardingRemote := downAfter s.forwardingRemote (s.forwarding.handle i.forwarded).2
  pressed := s.pressed ++ s.userPresses i
  waiting :=
    if (s.keyboard.heldBack i).isSome then (s.userPresses i).head?
    else if s.keyboard.delivers i then none
    else s.waiting
  since := if (s.keyboard.heldBack i).isSome then [] else s.since ++ [i]
  switching :=
    if (s.keyboard.heldBack i).isSome then s.keyboard.altTabHolding else s.switching

/-- The remote receives what the user has pressed, in that order; and all of
it when no key waits. -/
structure Transparent (s : KeyOrder) : Prop where
  order : s.received <+: s.pressed
  complete : s.keyboard.heldPaste = none → s.received = s.pressed

/-- The key went up since the press of the waiting one. -/
def wentUp (s : KeyOrder) (code : KeyCode) : Bool := s.since.any (·.letsGo code)

/-- The app switcher was on at that press, and has ended since. -/
def switcherEnded (s : KeyOrder) : Bool := s.switching && s.since.any (·.letsCtrlGo)

/-- A modifier that went up since the press of the waiting key `h`, at which `down`
were down on the remote, was down for the page exactly if it was on the remote; and
the Alt of an app switcher that has ended was left Alt, let go as well. -/
structure KeptMods (s : KeyOrder) (h : HeldPaste) (down : Finset (UInt8 × Bool)) : Prop where
  keyUp : ∀ code ∈ MODIFIER_CODES, s.wentUp code →
    ∀ key ∈ SCANCODE_MAP code, (code ∈ h.mods ↔ key ∈ down)
  switcher : s.switcherEnded → (0x38, false) ∈ down → s.wentUp .altLeft

/-- No key is pressed while one waits; and the modifiers that went up since its
press are as they should be when it is let go. -/
structure Fits (s : KeyOrder) (i : KeyInput) : Prop where
  alone : s.keyboard.heldPaste.isSome → i.pressesKey = false
  mods : ∀ h ∈ s.keyboard.delivery i, ∀ w ∈ s.waiting, ∀ down ∈ w.mods, s.KeptMods h down

/-! ## The two keyboards -/

/-- What holds whatever the order is. -/
structure Sync (s : KeyOrder) : Prop where
  keysDown : s.forwarding.keysDown = s.keyboard.keysDown
  altTabHolding : s.forwarding.altTabHolding = s.keyboard.altTabHolding
  forwards : s.forwarding.heldPaste = none
  waits : (s.keyboard.heldPaste = none ∧ s.waiting = none) ∨
    ∃ h w, s.keyboard.heldPaste = some h ∧ s.waiting = some w ∧
      h.mapping = some w.key ∧ w.mods.isSome
  pasteKeyUp : s.forwarding.pasteKeyUp = none ∧
    ∀ code ∈ s.keyboard.pasteKeyUp, code ∉ MODIFIER_CODES
  length : s.pressed.length = s.received.length + s.waiting.toList.length

theorem sync_initial : initial.Sync :=
  ⟨rfl, rfl, rfl, .inl ⟨rfl, rfl⟩, ⟨rfl, fun _ hcode => absurd hcode (Option.not_mem_none _)⟩, rfl⟩

/-- A keydown does the same to both keyboards, but for the key held back. -/
structure SameDown (f f' k' : Keyboard) : Prop where
  keysDown : f'.keysDown = k'.keysDown
  altTabHolding : f'.altTabHolding = k'.altTabHolding
  heldPaste : f'.heldPaste = f.heldPaste
  pasteKeyUp : f.pasteKeyUp = none → f'.pasteKeyUp = none

section

variable {k f : Keyboard} {clipboardEnabled : Bool} {e : KeyEvent}

theorem plain_of_off : ¬ (Keyboard.isPasteKey e && false) := by
  simp

theorem sameDown_onKeyDown (hdown : f.keysDown = k.keysDown)
    (halt : f.altTabHolding = k.altTabHolding) :
    SameDown f (f.onKeyDown false e).1 (k.onKeyDown clipboardEnabled e).1 := by
  obtain ⟨shortcut, hshortcut⟩ | ⟨hshortcut, htab⟩ | hback | ⟨hshortcut, htab, hpaste⟩ :=
    Keyboard.keyDown_cases clipboardEnabled e
  · rw [Keyboard.onKeyDown_of_shortcut hshortcut, Keyboard.onKeyDown_of_shortcut hshortcut]
    exact ⟨rfl, rfl, rfl, id⟩
  · rw [Keyboard.onKeyDown_of_tab hshortcut htab, Keyboard.onKeyDown_of_tab hshortcut htab]
    exact ⟨congrArg (insert e.code) hdown, rfl, rfl, id⟩
  · obtain ⟨hshortcut, htab, -⟩ := Keyboard.holdsBack_iff.mp hback
    rw [Keyboard.onKeyDown_of_plain hshortcut htab plain_of_off,
      Keyboard.onKeyDown_of_holdsBack hback]
    exact ⟨congrArg (insert e.code) hdown, halt, rfl, id⟩
  · rw [Keyboard.onKeyDown_of_plain hshortcut htab plain_of_off,
      Keyboard.onKeyDown_of_plain hshortcut htab hpaste]
    exact ⟨congrArg (insert e.code) hdown, halt, rfl, id⟩

/-- A key that is not held back makes the same strokes. -/
theorem sent_onKeyDown_off (halt : f.altTabHolding = k.altTabHolding)
    (hback : ¬ Keyboard.holdsBack clipboardEnabled e) :
    (f.onKeyDown false e).2.1 = (k.onKeyDown clipboardEnabled e).2.1 := by
  obtain ⟨shortcut, hshortcut⟩ | ⟨hshortcut, htab⟩ | hback' | ⟨hshortcut, htab, hpaste⟩ :=
    Keyboard.keyDown_cases clipboardEnabled e
  · rw [Keyboard.onKeyDown_of_shortcut hshortcut, Keyboard.onKeyDown_of_shortcut hshortcut]
    rfl
  · rw [Keyboard.onKeyDown_of_tab hshortcut htab, Keyboard.onKeyDown_of_tab hshortcut htab]
    simp only [Keyboard.altTabStep, halt]
  · exact absurd hback' hback
  · rw [Keyboard.onKeyDown_of_plain hshortcut htab plain_of_off,
      Keyboard.onKeyDown_of_plain hshortcut htab hpaste]

end

section

variable {s : KeyOrder}

/-- An input that holds no key back presses the same keys on both sides. -/
theorem userPresses_of_none (h : s.Sync) {i : KeyInput} (hi : s.keyboard.heldBack i = none) :
    s.userPresses i = presses (s.keyboard.direct i) := by
  have hdelivery : s.forwarding.delivery i.forwarded = none := by
    rw [Keyboard.delivery, h.forwards, ite_self]
  have hsent : presses (s.forwarding.handle i.forwarded).2 =
      presses (s.forwarding.direct i.forwarded) := by
    rw [Keyboard.sent_handle, hdelivery]
    rfl
  simp only [userPresses, hi, Option.isSome_none, Bool.false_eq_true, if_false, List.map_id',
    hsent]
  cases i with
  | keyDown clipboardEnabled e =>
      have hback : ¬ Keyboard.holdsBack clipboardEnabled e := by
        intro hback
        simp [Keyboard.heldBack, hback] at hi
      have hoff : ¬ Keyboard.holdsBack false e := Keyboard.not_holdsBack_of_plain plain_of_off
      simp only [KeyInput.forwarded, Keyboard.direct, if_neg hback, if_neg hoff,
        sent_onKeyDown_off h.altTabHolding hback]
  | keyUp code => simp [KeyInput.forwarded, Keyboard.direct, Keyboard.onKeyUp_eq]
  | _ => rfl

/-- A key that is held back is pressed by the user all the same. -/
theorem userPresses_of_some {i : KeyInput} {held : HeldPaste}
    (hi : s.keyboard.heldBack i = some held) :
    ∃ w, s.userPresses i = [w] ∧ held.mapping = some w.key ∧
      w.mods = some (modifiersOf s.forwardingRemote) := by
  cases i with
  | keyDown clipboardEnabled e =>
      by_cases hback : Keyboard.holdsBack clipboardEnabled e
      · obtain ⟨hshortcut, htab, -⟩ := Keyboard.holdsBack_iff.mp hback
        obtain ⟨key, hkey, -⟩ := Keyboard.mapped_of_holdsBack hback
        rw [Keyboard.heldBack, if_pos hback, Option.some.injEq] at hi
        subst hi
        refine ⟨⟨key, some (modifiersOf s.forwardingRemote)⟩, ?_, hkey, rfl⟩
        simp [userPresses, KeyInput.forwarded, Keyboard.handle,
          Keyboard.onKeyDown_of_plain hshortcut htab plain_of_off, Keyboard.heldBack, hback, hkey,
          presses, Keyboard.press]
      · simp [Keyboard.heldBack, hback] at hi
  | _ => cases hi

/-! ## What an input does to the two lists -/

/-- An input holds a key back, or lets one go, or passes its presses on. -/
theorem step_cases (h : s.Sync) (i : KeyInput) :
    (∃ held w, (s.step i).keyboard.heldPaste = some held ∧ (s.step i).waiting = some w ∧
      s.keyboard.heldBack i = some held ∧ held.mapping = some w.key ∧
      w.mods = some (modifiersOf s.forwardingRemote) ∧ s.keyboard.delivers i ∧
      (s.step i).received = s.received ++ (s.arrives i).toList ∧
      (s.step i).pressed = s.pressed ++ [w]) ∨
    ((s.step i).keyboard.heldPaste = none ∧ (s.step i).waiting = none ∧
      s.keyboard.heldBack i = none ∧ s.keyboard.delivers i ∧
      (s.step i).received = s.received ++ (s.arrives i).toList ∧
      (s.step i).pressed = s.pressed) ∨
    ((s.step i).keyboard.heldPaste = s.keyboard.heldPaste ∧ (s.step i).waiting = s.waiting ∧
      s.keyboard.heldBack i = none ∧ ¬ s.keyboard.delivers i ∧
      (s.step i).received = s.received ++ presses (s.keyboard.direct i) ∧
      (s.step i).pressed = s.pressed ++ presses (s.keyboard.direct i)) := by
  have hheld := s.keyboard.heldPaste_handle i
  cases hback : s.keyboard.heldBack i with
  | some held =>
      left
      have hdelivers := s.keyboard.delivers_of_heldBack hback
      obtain ⟨w, hpress, hkey, hmods⟩ := userPresses_of_some hback
      refine ⟨held, w, ?_, ?_, rfl, hkey, hmods, hdelivers, ?_, ?_⟩
      · rw [step, hheld, hback]
        rfl
      · simp [step, hback, hpress]
      · simp [step, s.keyboard.direct_of_delivers hdelivers]
      · simp [step, hpress]
  | none =>
      right
      have hpress := userPresses_of_none h hback
      by_cases hdelivers : s.keyboard.delivers i
      · left
        have hdirect := s.keyboard.direct_of_delivers hdelivers
        refine ⟨?_, ?_, rfl, hdelivers, ?_, ?_⟩
        · rw [step, hheld, hback, if_pos hdelivers]
          rfl
        · simp [step, hback, hdelivers]
        · simp [step, hdirect]
        · simp [step, hpress, hdirect]
      · right
        have harrives : s.arrives i = none := by
          rw [arrives, Keyboard.delivery, if_neg hdelivers]
          rfl
        refine ⟨?_, ?_, rfl, hdelivers, ?_, ?_⟩
        · rw [step, hheld, hback, if_neg hdelivers]
          rfl
        · simp [step, hback, hdelivers]
        · simp [step, harrives]
        · simp [step, hpress]

/-- What arrives when the waiting key is let go. -/
theorem arrives_of_delivers {i : KeyInput} (hdelivers : s.keyboard.delivers i) {h : HeldPaste}
    {w : Press} (hheld : s.keyboard.heldPaste = some h) (hkey : h.mapping = some w.key) :
    s.arrives i = some ⟨w.key, some (modifiersOf
      (s.remote ∪ (h.released (s.keyboard.handle i).1.keysDown).toFinset))⟩ := by
  rw [arrives, Keyboard.delivery, if_pos hdelivers, hheld, Option.bind_some, HeldPaste.arrival,
    hkey, Option.map_some, downAfter_presses]

theorem arrives_of_none {i : KeyInput} (hheld : s.keyboard.heldPaste = none) :
    s.arrives i = none := by
  rw [arrives, Keyboard.delivery, hheld, ite_self]
  rfl

theorem arrives_length (h : s.Sync) {i : KeyInput} (hdelivers : s.keyboard.delivers i) :
    (s.arrives i).toList.length = s.waiting.toList.length := by
  obtain ⟨hheld, hwaiting⟩ | ⟨held, w, hheld, hwaiting, hkey, -⟩ := h.waits
  · rw [arrives_of_none hheld, hwaiting]
  · rw [arrives_of_delivers hdelivers hheld hkey, hwaiting]
    rfl

theorem sameDown_step (h : s.Sync) (i : KeyInput) :
    SameDown s.forwarding (s.step i).forwarding (s.step i).keyboard := by
  by_cases hi : i.isKey
  · cases i with
    | keyDown clipboardEnabled e => exact sameDown_onKeyDown h.keysDown h.altTabHolding
    | keyUp code =>
        change SameDown s.forwarding (s.forwarding.onKeyUp code).1 (s.keyboard.onKeyUp code).1
        rw [Keyboard.onKeyUp_eq, Keyboard.onKeyUp_eq]
        refine ⟨congrArg (·.erase code) h.keysDown, ?_, rfl, ?_⟩
        · simp only [Keyboard.endsAltTab, h.altTabHolding]
        · intro hnone
          simp [hnone]
    | blur => exact ⟨rfl, rfl, rfl, id⟩
    | _ => cases hi
  · have hkey : i.isKey = false := Bool.eq_false_iff.mpr hi
    have hsame : i.forwarded = i := by
      cases i with
      | keyDown clipboardEnabled e => cases hkey
      | _ => rfl
    have hkeyboard := s.keyboard.sameKeys_handle hkey
    have hforwarding := s.forwarding.sameKeys_handle hkey
    have hback : s.forwarding.heldBack i = none := by
      cases i with
      | keyDown clipboardEnabled e => cases hkey
      | _ => rfl
    rw [step, hsame]
    refine ⟨?_, ?_, ?_, hforwarding.pasteKeyUp.trans⟩
    · rw [hforwarding.keysDown, hkeyboard.keysDown, h.keysDown]
    · rw [hforwarding.altTabHolding, hkeyboard.altTabHolding, h.altTabHolding]
    · rw [Keyboard.heldPaste_handle, hback, h.forwards, ite_self]
      rfl

/-- The keyup that is swallowed is one of a paste key, and of no modifier. -/
theorem pasteKeyUp_handle {k : Keyboard} (h : ∀ code ∈ k.pasteKeyUp, code ∉ MODIFIER_CODES)
    (i : KeyInput) : ∀ code ∈ (k.handle i).1.pasteKeyUp, code ∉ MODIFIER_CODES := by
  cases i with
  | keyDown clipboardEnabled e =>
      by_cases hback : Keyboard.holdsBack clipboardEnabled e
      · rw [Keyboard.handle, Keyboard.onKeyDown_of_holdsBack hback]
        rintro code ⟨⟩ hcode
        obtain ⟨key, hkey, hmods⟩ := Keyboard.mapped_of_holdsBack hback
        exact hmods _ hcode hkey
      · rw [Keyboard.handle, (Keyboard.onKeyDown_of_not_holdsBack hback).pasteKeyUp]
        exact h
  | keyUp code =>
      rw [Keyboard.handle, Keyboard.onKeyUp_eq]
      dsimp only
      split
      · exact fun _ hcode => absurd hcode (Option.not_mem_none _)
      · exact h
  | blur => exact h
  | _ =>
      rw [(k.sameKeys_handle rfl).pasteKeyUp]
      exact h

theorem sync_step (h : s.Sync) (i : KeyInput) : (s.step i).Sync := by
  have hdown := sameDown_step h i
  have hlength := h.length
  refine ⟨hdown.keysDown, hdown.altTabHolding, hdown.heldPaste.trans h.forwards, ?_,
    ⟨hdown.pasteKeyUp h.pasteKeyUp.1, pasteKeyUp_handle h.pasteKeyUp.2 i⟩, ?_⟩
  · obtain ⟨held, w, hheld, hwaiting, -, hkey, hmods, -⟩ | ⟨hheld, hwaiting, -⟩ |
      ⟨hheld, hwaiting, -⟩ := step_cases h i
    · exact .inr ⟨held, w, hheld, hwaiting, hkey, by rw [hmods]; rfl⟩
    · exact .inl ⟨hheld, hwaiting⟩
    · rw [hheld, hwaiting]
      exact h.waits
  · obtain ⟨held, w, -, hwaiting, -, -, -, hdelivers, hreceived, hpressed⟩ |
      ⟨-, hwaiting, -, hdelivers, hreceived, hpressed⟩ |
      ⟨-, hwaiting, -, -, hreceived, hpressed⟩ := step_cases h i
    · have harrives := arrives_length h hdelivers
      rw [hwaiting, hreceived, hpressed, List.length_append, List.length_append]
      simp only [List.length_singleton, Option.toList_some]
      omega
    · have harrives := arrives_length h hdelivers
      rw [hwaiting, hreceived, hpressed, List.length_append]
      simp only [Option.toList_none, List.length_nil]
      omega
    · rw [hwaiting, hreceived, hpressed, List.length_append, List.length_append]
      omega

end

/-! ## The modifiers on the remote -/

theorem mem_modifiersOf {code : KeyCode} {key : UInt8 × Bool} {down : Finset (UInt8 × Bool)}
    (hcode : code ∈ MODIFIER_CODES) (hkey : SCANCODE_MAP code = some key) :
    key ∈ modifiersOf down ↔ key ∈ down := by
  have hmem : key ∈ MODIFIER_CODES.filterMap SCANCODE_MAP :=
    List.mem_filterMap.mpr ⟨code, hcode, hkey⟩
  rw [modifiersOf, Finset.mem_filter]
  exact and_iff_left hmem

/-- The same modifiers are down. -/
theorem modifiersOf_eq_iff {down down' : Finset (UInt8 × Bool)} :
    modifiersOf down = modifiersOf down' ↔
      ∀ code ∈ MODIFIER_CODES, ∀ key ∈ SCANCODE_MAP code, (key ∈ down ↔ key ∈ down') := by
  constructor
  · intro h code hcode key hkey
    rw [← mem_modifiersOf hcode hkey, h, mem_modifiersOf hcode hkey]
  · intro h
    ext key
    rw [modifiersOf, modifiersOf, Finset.mem_filter, Finset.mem_filter, and_congr_left_iff]
    intro hkey
    obtain ⟨code, hcode, hkey⟩ := List.mem_filterMap.mp hkey
    exact h code hcode key hkey

theorem mem_released {h : HeldPaste} {keysDown : Finset KeyCode} {code : KeyCode}
    {key : UInt8 × Bool} (hcode : code ∈ MODIFIER_CODES) (hkey : SCANCODE_MAP code = some key) :
    key ∈ h.released keysDown ↔ code ∈ h.mods ∧ code ∉ keysDown := by
  rw [HeldPaste.released, List.mem_filterMap]
  constructor
  · rintro ⟨code', hcode', hkey'⟩
    rw [eq_of_scancode (.inl hcode) hkey hkey', List.mem_filter, decide_eq_true_eq] at hcode'
    exact hcode'
  · rintro ⟨hmods, hup⟩
    exact ⟨code, List.mem_filter.mpr ⟨hmods, decide_eq_true hup⟩, hkey⟩

/-- What an input that presses no key, and holds none back, takes up: on the page
and on the remote. -/
structure Lifts (k : Keyboard) (i : KeyInput) : Prop where
  keysDown : ∀ code ∈ MODIFIER_CODES,
    (code ∈ (k.handle i).1.keysDown ↔ code ∈ k.keysDown ∧ i.letsGo code = false)
  altTabHolding : (k.handle i).1.altTabHolding = (k.altTabHolding && !i.letsCtrlGo)
  remote : ∀ code ∈ MODIFIER_CODES, ∀ key ∈ SCANCODE_MAP code, ∀ down : Finset (UInt8 × Bool),
    (key ∈ downAfter down (k.direct i) ↔ key ∈ down ∧ i.letsGo code = false ∧
      ¬ (code = .altLeft ∧ k.altTabHolding ∧ i.letsCtrlGo))

section

variable {k : Keyboard} {i : KeyInput}

/-- Where all keys are let go. -/
theorem lifts_all (hkeyboard : (k.handle i).1 = k.releaseAllModifiers.1)
    (hdirect : k.direct i = k.releaseAllModifiers.2) (hall : ∀ code, i.letsGo code = true) :
    Lifts k i := by
  refine ⟨fun code _ => ?_, ?_, fun code hcode key hkey down => ?_⟩
  · rw [hkeyboard, hall]
    simp [Keyboard.releaseAllModifiers]
  · rw [hkeyboard, KeyInput.letsCtrlGo, hall]
    simp [Keyboard.releaseAllModifiers]
  · rw [hdirect, mem_downAfter_releaseAllModifiers, hall]
    have hmem : key ∈ MODIFIER_CODES.filterMap SCANCODE_MAP :=
      List.mem_filterMap.mpr ⟨code, hcode, hkey⟩
    simp [hmem]

/-- Where no key is let go. -/
theorem lifts_none (hkeysDown : ∀ code ∈ MODIFIER_CODES,
      (code ∈ (k.handle i).1.keysDown ↔ code ∈ k.keysDown))
    (halt : (k.handle i).1.altTabHolding = k.altTabHolding) (hdirect : k.direct i = [])
    (hnone : ∀ code, i.letsGo code = false) : Lifts k i := by
  have hctrl : i.letsCtrlGo = false := by
    rw [KeyInput.letsCtrlGo, hnone, hnone]
    rfl
  refine ⟨fun code hcode => ?_, ?_, fun code _ key _ down => ?_⟩
  · rw [hkeysDown code hcode, hnone]
    simp
  · rw [halt, hctrl, Bool.not_false, Bool.and_true]
  · rw [hdirect, hnone, hctrl]
    simp

theorem lifts_of_not_key (hkey : i.isKey = false) (hnone : ∀ code, i.letsGo code = false) :
    Lifts k i := by
  have hsame := k.sameKeys_handle hkey
  refine lifts_none (fun code _ => ?_) hsame.altTabHolding (k.direct_of_not_key hkey) hnone
  rw [hsame.keysDown]

/-- The modifiers that a keyup takes up: its own, and the Alt of the app switcher. -/
theorem mem_keysUp (hkeyUp : ∀ code ∈ k.pasteKeyUp, code ∉ MODIFIER_CODES) {up code : KeyCode}
    {key : UInt8 × Bool} (hcode : code ∈ MODIFIER_CODES) (hkey : SCANCODE_MAP code = some key) :
    key ∈ k.keysUp up ↔ (code = .altLeft ∧ k.endsAltTab up) ∨ up = code := by
  have halt : key ∈ (if k.endsAltTab up then [(0x38, false)] else []) ↔
      code = .altLeft ∧ k.endsAltTab up := by
    have hkeys : key = (0x38, false) ↔ code = .altLeft := by
      constructor
      · rintro rfl
        exact eq_of_scancode (.inl (by decide)) (rfl : SCANCODE_MAP .altLeft = _) hkey
      · rintro rfl
        exact (Option.some.inj hkey).symm
    split
    · rename_i hends
      rw [List.mem_singleton, hkeys]
      exact (and_iff_left hends).symm
    · rename_i hends
      exact ⟨fun hmem => (nomatch hmem), fun hboth => absurd hboth.2 hends⟩
  have hown : key ∈ (if k.pasteKeyUp = some up then [] else (SCANCODE_MAP up).toList) ↔
      up = code := by
    split
    · rename_i hswallowed
      refine ⟨fun hmem => (nomatch hmem), ?_⟩
      rintro rfl
      exact absurd hcode (hkeyUp up hswallowed)
    · rw [Option.mem_toList]
      constructor
      · exact fun hup => eq_of_scancode (.inl hcode) hkey hup
      · rintro rfl
        exact hkey
  rw [Keyboard.keysUp, List.mem_append, halt, hown]

theorem lifts_keyUp (hkeyUp : ∀ code ∈ k.pasteKeyUp, code ∉ MODIFIER_CODES) (up : KeyCode) :
    Lifts k (.keyUp up) := by
  have hctrl : (KeyInput.keyUp up).letsCtrlGo =
      (up = .controlLeft ∨ up = .controlRight : Bool) := by
    simp [KeyInput.letsCtrlGo, KeyInput.letsGo]
  refine ⟨fun code _ => ?_, ?_, fun code hcode key hkey down => ?_⟩
  · rw [Keyboard.handle, Keyboard.onKeyUp_eq]
    simp only [KeyInput.letsGo, Finset.mem_erase, decide_eq_false_iff_not]
    rw [and_comm, ne_comm]
  · rw [Keyboard.handle, Keyboard.onKeyUp_eq, hctrl]
    cases halt : k.altTabHolding <;> simp [Keyboard.endsAltTab, halt]
  · rw [Keyboard.direct, Keyboard.onKeyUp_eq, mem_downAfter_releases,
      mem_keysUp hkeyUp hcode hkey, hctrl]
    simp only [Keyboard.endsAltTab, KeyInput.letsGo, decide_eq_true_eq, decide_eq_false_iff_not]
    tauto

theorem lifts_of_pressesKey (hkeyUp : ∀ code ∈ k.pasteKeyUp, code ∉ MODIFIER_CODES)
    (hpresses : i.pressesKey = false) (hback : k.heldBack i = none) : Lifts k i := by
  cases i with
  | keyDown clipboardEnabled e =>
      obtain ⟨shortcut, hshortcut⟩ | ⟨hshortcut, htab⟩ | hback' | ⟨hshortcut, htab, hpaste⟩ :=
        Keyboard.keyDown_cases clipboardEnabled e
      · have hnot : ¬ Keyboard.holdsBack clipboardEnabled e :=
          Keyboard.not_holdsBack_of_shortcut hshortcut
        refine lifts_all ?_ ?_ fun code => ?_
        · rw [Keyboard.handle, Keyboard.onKeyDown_of_shortcut hshortcut]
        · rw [Keyboard.direct, if_neg hnot, Keyboard.onKeyDown_of_shortcut hshortcut]
        · rw [KeyInput.letsGo, hshortcut]
          rfl
      · have hnot : ¬ Keyboard.holdsBack clipboardEnabled e := Keyboard.not_holdsBack_of_tab htab
        simp [KeyInput.pressesKey, hshortcut, htab, hnot] at hpresses
      · rw [Keyboard.heldBack, if_pos hback'] at hback
        cases hback
      · have hnot : ¬ Keyboard.holdsBack clipboardEnabled e :=
          Keyboard.not_holdsBack_of_plain hpaste
        have hunmapped : SCANCODE_MAP e.code = none := by
          simpa [KeyInput.pressesKey, hshortcut, htab, hnot] using hpresses
        refine lifts_none (fun code hcode => ?_) ?_ ?_ fun code => ?_
        · rw [Keyboard.handle, Keyboard.onKeyDown_of_plain hshortcut htab hpaste]
          have hne : code ≠ e.code := by
            rintro rfl
            revert hunmapped
            revert hcode
            cases e.code <;> decide
          simp [hne]
        · rw [Keyboard.handle, Keyboard.onKeyDown_of_plain hshortcut htab hpaste]
        · rw [Keyboard.direct, if_neg hnot, Keyboard.onKeyDown_of_plain hshortcut htab hpaste,
            hunmapped]
          rfl
        · rw [KeyInput.letsGo, hshortcut]
          rfl
  | keyUp up => exact lifts_keyUp hkeyUp up
  | blur => exact lifts_all rfl rfl fun _ => rfl
  | _ => exact lifts_of_not_key rfl fun _ => rfl

end

/-- The presses of an input that is passed on. -/
theorem presses_direct_eq_nil_iff (k : Keyboard) (i : KeyInput) :
    presses (k.direct i) = [] ↔ i.pressesKey = false := by
  cases i with
  | keyDown clipboardEnabled e =>
      obtain ⟨shortcut, hshortcut⟩ | ⟨hshortcut, htab⟩ | hback | ⟨hshortcut, htab, hpaste⟩ :=
        Keyboard.keyDown_cases clipboardEnabled e
      · have hnot : ¬ Keyboard.holdsBack clipboardEnabled e :=
          Keyboard.not_holdsBack_of_shortcut hshortcut
        rw [Keyboard.direct, if_neg hnot, Keyboard.onKeyDown_of_shortcut hshortcut]
        simp [KeyInput.pressesKey, hshortcut, Keyboard.releaseAllModifiers, presses]
      · have hnot : ¬ Keyboard.holdsBack clipboardEnabled e := Keyboard.not_holdsBack_of_tab htab
        rw [Keyboard.direct, if_neg hnot, Keyboard.onKeyDown_of_tab hshortcut htab]
        have hpresses : presses (k.altTabStep e.shiftKey).2 ≠ [] := by
          cases hhold : k.altTabHolding <;> cases e.shiftKey <;>
            simp [Keyboard.altTabStep, hhold, presses]
        simp [KeyInput.pressesKey, hshortcut, htab, hnot, hpresses]
      · rw [Keyboard.direct, if_pos hback]
        simp [KeyInput.pressesKey, hback]
      · have hnot : ¬ Keyboard.holdsBack clipboardEnabled e :=
          Keyboard.not_holdsBack_of_plain hpaste
        rw [Keyboard.direct, if_neg hnot, Keyboard.onKeyDown_of_plain hshortcut htab hpaste]
        cases hmapping : SCANCODE_MAP e.code <;>
          simp [KeyInput.pressesKey, hshortcut, htab, hnot, hmapping, presses, Keyboard.press]
  | keyUp code =>
      rw [Keyboard.direct, Keyboard.onKeyUp_eq, presses_releases]
      exact iff_of_true rfl rfl
  | blur =>
      refine iff_of_true ?_ rfl
      simp [Keyboard.direct, Keyboard.releaseAllModifiers, presses]
  | _ => exact iff_of_true rfl rfl

/-! ## The modifiers while a key waits -/

/-- The key `h` waits, at whose press `down` were down on the remote. -/
structure Tracks (s : KeyOrder) (h : HeldPaste) (down : Finset (UInt8 × Bool)) : Prop where
  mods : ∀ code ∈ h.mods, code ∈ MODIFIER_CODES
  mapping : ∀ code ∈ MODIFIER_CODES, ∀ key ∈ SCANCODE_MAP code, h.mapping ≠ some key
  own : modifiersOf down = down
  keysDown : ∀ code ∈ h.mods, (code ∈ s.keyboard.keysDown ↔ s.wentUp code = false)
  altTabHolding : s.keyboard.altTabHolding = (s.switching && !s.since.any (·.letsCtrlGo))
  remote : ∀ code ∈ MODIFIER_CODES, ∀ key ∈ SCANCODE_MAP code,
    (key ∈ s.remote ↔
      key ∈ down ∧ s.wentUp code = false ∧ ¬ (code = .altLeft ∧ s.switcherEnded))

/-- The modifiers are the same on both remotes; and those of a waiting key are
known. -/
structure Tracked (s : KeyOrder) : Prop where
  agree : ∀ code ∈ MODIFIER_CODES, ∀ key ∈ SCANCODE_MAP code,
    (key ∈ s.remote ↔ key ∈ s.forwardingRemote)
  waits : ∀ h ∈ s.keyboard.heldPaste, ∀ w ∈ s.waiting, ∀ down ∈ w.mods, s.Tracks h down

theorem tracked_initial : initial.Tracked :=
  ⟨fun _ _ _ _ => Iff.rfl, fun _ hheld => nomatch hheld⟩

section

variable {s : KeyOrder} {h : HeldPaste} {down : Finset (UInt8 × Bool)}

/-- The modifiers that a waiting key arrives with are those of its press exactly
if the ones that went up are as they should be. -/
theorem Tracks.kept_iff (ht : s.Tracks h down) {keysDown : Finset KeyCode}
    (hkeysDown : ∀ code ∈ MODIFIER_CODES, (code ∈ keysDown ↔ code ∈ s.keyboard.keysDown)) :
    down = modifiersOf (s.remote ∪ (h.released keysDown).toFinset) ↔ s.KeptMods h down := by
  -- which modifiers it arrives with
  have harrives : ∀ code ∈ MODIFIER_CODES, ∀ key ∈ SCANCODE_MAP code,
      (key ∈ s.remote ∪ (h.released keysDown).toFinset ↔
        (key ∈ down ∧ s.wentUp code = false ∧ ¬ (code = .altLeft ∧ s.switcherEnded)) ∨
          (code ∈ h.mods ∧ s.wentUp code)) := by
    intro code hcode key hkey
    rw [Finset.mem_union, List.mem_toFinset, mem_released hcode hkey, ht.remote code hcode key hkey]
    refine or_congr_right (and_congr_right fun hmods => ?_)
    rw [hkeysDown code hcode, ht.keysDown code hmods, Bool.not_eq_false]
  rw [show down = _ ↔ modifiersOf down = _ by rw [ht.own], modifiersOf_eq_iff]
  constructor
  · intro hsame
    constructor
    case keyUp =>
      intro code hcode hup key hkey
      have hiff := (hsame code hcode key hkey).trans (harrives code hcode key hkey)
      simp only [hup, Bool.true_eq_false, false_and, and_false, false_or, and_true] at hiff
      exact hiff.symm
    case switcher =>
      intro hended halt
      by_contra hup
      have hcode : KeyCode.altLeft ∈ MODIFIER_CODES := by decide
      obtain ⟨-, -, hnot⟩ | ⟨-, hup'⟩ :=
        (harrives _ hcode _ rfl).mp ((hsame _ hcode _ rfl).mp halt)
      · exact hnot ⟨rfl, hended⟩
      · exact hup hup'
  · intro hkept code hcode key hkey
    rw [harrives code hcode key hkey]
    cases hup : s.wentUp code with
    | true =>
        have hiff := hkept.keyUp code hcode hup key hkey
        simp [hiff]
    | false =>
        simp only [true_and, Bool.false_eq_true, and_false, or_false]
        refine (and_iff_left_of_imp ?_).symm
        rintro hmem ⟨rfl, hended⟩
        cases hkey
        rw [hkept.switcher hended hmem] at hup
        cases hup

/-- A waiting key that is let go leaves the modifiers on the remote alone. -/
theorem Tracks.mem_downAfter_chord (ht : s.Tracks h down) {keysDown : Finset KeyCode}
    (hkeysDown : ∀ code ∈ MODIFIER_CODES, (code ∈ keysDown ↔ code ∈ s.keyboard.keysDown))
    {code : KeyCode} {key : UInt8 × Bool} (hcode : code ∈ MODIFIER_CODES)
    (hkey : SCANCODE_MAP code = some key) :
    key ∈ downAfter s.remote (h.chord keysDown) ↔ key ∈ s.remote := by
  rw [WasmRdp.mem_downAfter_chord, mem_released hcode hkey, hkeysDown code hcode]
  refine and_iff_left_of_imp fun hmem _ => ⟨ht.mapping code hcode key hkey, ?_⟩
  rintro ⟨hmods, hup⟩
  rw [ht.keysDown code hmods] at hup
  exact hup ((ht.remote code hcode key hkey).mp hmem).2.1

/-- An input that presses no key and does not let the waiting key go. -/
theorem Tracks.step (ht : s.Tracks h down)
    (hkeyUp : ∀ code ∈ s.keyboard.pasteKeyUp, code ∉ MODIFIER_CODES) {i : KeyInput}
    (hpresses : i.pressesKey = false) (hback : s.keyboard.heldBack i = none)
    (hdelivers : ¬ s.keyboard.delivers i) : (s.step i).Tracks h down := by
  have hlifts := lifts_of_pressesKey hkeyUp hpresses hback
  have hsince : (s.step i).since = s.since ++ [i] := by simp [KeyOrder.step, hback]
  have hswitching : (s.step i).switching = s.switching := by simp [KeyOrder.step, hback]
  have hup : ∀ code, (s.step i).wentUp code = (s.wentUp code || i.letsGo code) := by
    intro code
    rw [wentUp, hsince, List.any_append, List.any_cons, List.any_nil, Bool.or_false, wentUp]
  have hctrl : (s.step i).since.any (·.letsCtrlGo) =
      (s.since.any (·.letsCtrlGo) || i.letsCtrlGo) := by
    rw [hsince, List.any_append, List.any_cons, List.any_nil, Bool.or_false]
  have hremote : (s.step i).remote = downAfter s.remote (s.keyboard.direct i) := by
    rw [KeyOrder.step, Keyboard.sent_handle, Keyboard.delivery, if_neg hdelivers]
    rfl
  refine ⟨ht.mods, ht.mapping, ht.own, fun code hmods => ?_, ?_, fun code hcode key hkey => ?_⟩
  · rw [hup, KeyOrder.step, hlifts.keysDown code (ht.mods code hmods), ht.keysDown code hmods,
      Bool.or_eq_false_iff]
  · rw [hctrl, hswitching, Bool.not_or, ← Bool.and_assoc, ← ht.altTabHolding]
    exact hlifts.altTabHolding
  · rw [hremote, hlifts.remote code hcode key hkey, ht.remote code hcode key hkey, hup,
      Bool.or_eq_false_iff, switcherEnded, switcherEnded, hctrl, hswitching, ht.altTabHolding]
    simp only [Bool.and_eq_true, Bool.or_eq_true, Bool.not_eq_true', Bool.eq_false_iff]
    tauto

end

section

variable {s : KeyOrder}

/-- No modifier comes down or goes up with an input that lets the waiting key go. -/
theorem keysDown_of_delivers {k : Keyboard} {i : KeyInput} (hdelivers : k.delivers i) :
    ∀ code ∈ MODIFIER_CODES, (code ∈ (k.handle i).1.keysDown ↔ code ∈ k.keysDown) := by
  intro code hcode
  cases i with
  | keyDown clipboardEnabled e =>
      have hback : Keyboard.holdsBack clipboardEnabled e := hdelivers
      rw [Keyboard.handle, Keyboard.onKeyDown_of_holdsBack hback]
      have hne : code ≠ e.code := by
        rintro rfl
        obtain ⟨key, hkey, hmods⟩ := Keyboard.mapped_of_holdsBack hback
        exact hmods _ hcode hkey
      simp [hne]
  | keyUp code => cases hdelivers
  | blur => cases hdelivers
  | _ => rw [(k.sameKeys_handle rfl).keysDown]

/-- The strokes that an input sends besides a waiting key, on both remotes. -/
theorem mem_downAfter_direct (h : s.Sync) (i : KeyInput) {code : KeyCode} {key : UInt8 × Bool}
    (hcode : code ∈ MODIFIER_CODES) (hkey : SCANCODE_MAP code = some key)
    {down down' : Finset (UInt8 × Bool)} (hdown : key ∈ down ↔ key ∈ down') :
    key ∈ downAfter down (s.keyboard.direct i) ↔
      key ∈ downAfter down' (s.forwarding.handle i.forwarded).2 := by
  cases i with
  | keyDown clipboardEnabled e =>
      by_cases hback : Keyboard.holdsBack clipboardEnabled e
      · obtain ⟨hshortcut, htab, -⟩ := Keyboard.holdsBack_iff.mp hback
        obtain ⟨paste, hpaste, hmods⟩ := Keyboard.mapped_of_holdsBack hback
        have hne : key ≠ paste := by
          rintro rfl
          exact hmods code hcode hkey
        rw [Keyboard.direct, if_pos hback, KeyInput.forwarded, Keyboard.handle,
          Keyboard.onKeyDown_of_plain hshortcut htab plain_of_off, hpaste]
        simp [hdown, hne]
      · rw [Keyboard.direct, if_neg hback, KeyInput.forwarded, Keyboard.handle,
          ← sent_onKeyDown_off h.altTabHolding hback]
        exact mem_downAfter_congr _ hdown
  | keyUp up =>
      have hnone : ∀ code ∈ s.forwarding.pasteKeyUp, code ∉ MODIFIER_CODES := by
        rw [h.pasteKeyUp.1]
        exact fun _ hcode => absurd hcode (Option.not_mem_none _)
      change key ∈ downAfter down (s.keyboard.onKeyUp up).2 ↔
        key ∈ downAfter down' (s.forwarding.onKeyUp up).2
      rw [Keyboard.onKeyUp_eq, Keyboard.onKeyUp_eq, mem_downAfter_releases, mem_downAfter_releases,
        mem_keysUp h.pasteKeyUp.2 hcode hkey, mem_keysUp hnone hcode hkey, hdown,
        Keyboard.endsAltTab, Keyboard.endsAltTab, h.altTabHolding]
  | blur => exact mem_downAfter_congr _ hdown
  | _ =>
      have hdelivery : ∀ j, s.forwarding.delivery j = none := by
        intro j
        rw [Keyboard.delivery, h.forwards, ite_self]
      change key ∈ down ↔ key ∈ downAfter down' (s.forwarding.handle _).2
      rw [Keyboard.sent_handle, hdelivery]
      exact hdown

/-- A key that is held back, at its press. -/
theorem tracks_of_heldBack {i : KeyInput} {held : HeldPaste}
    (hback : s.keyboard.heldBack i = some held)
    (hagree : ∀ code ∈ MODIFIER_CODES, ∀ key ∈ SCANCODE_MAP code,
      (key ∈ (s.step i).remote ↔ key ∈ s.forwardingRemote)) :
    (s.step i).Tracks held (modifiersOf s.forwardingRemote) := by
  have hsince : (s.step i).since = [] := by simp [KeyOrder.step, hback]
  have hswitching : (s.step i).switching = s.keyboard.altTabHolding := by
    simp [KeyOrder.step, hback]
  have hup : ∀ code, (s.step i).wentUp code = false := by
    intro code
    rw [wentUp, hsince]
    rfl
  have hended : (s.step i).switcherEnded = false := by
    rw [switcherEnded, hsince, List.any_nil, Bool.and_false]
  cases i with
  | keyDown clipboardEnabled e =>
      have hholds : Keyboard.holdsBack clipboardEnabled e := by
        by_contra hnot
        simp [Keyboard.heldBack, hnot] at hback
      rw [Keyboard.heldBack, if_pos hholds, Option.some.injEq] at hback
      subst hback
      have hkeyboard := congrArg Prod.fst (Keyboard.onKeyDown_of_holdsBack (k := s.keyboard) hholds)
      constructor
      case mods => exact fun code hcode => (List.mem_filter.mp hcode).1
      case mapping =>
        obtain ⟨paste, hpaste, hmods⟩ := Keyboard.mapped_of_holdsBack hholds
        rintro code hcode key hkey hmapping
        rw [hpaste, Option.some.injEq] at hmapping
        subst hmapping
        exact hmods code hcode hkey
      case own => simp [modifiersOf, Finset.filter_filter]
      case keysDown =>
        intro code hcode
        rw [hup]
        change code ∈ (s.keyboard.onKeyDown clipboardEnabled e).1.keysDown ↔ false = false
        rw [hkeyboard]
        exact iff_of_true (of_decide_eq_true (List.mem_filter.mp hcode).2) rfl
      case altTabHolding =>
        rw [hsince, hswitching, List.any_nil, Bool.not_false, Bool.and_true]
        change (s.keyboard.onKeyDown clipboardEnabled e).1.altTabHolding = _
        rw [hkeyboard]
      case remote =>
        intro code hcode key hkey
        rw [hagree code hcode key hkey, mem_modifiersOf hcode hkey, hup, hended]
        simp
  | _ => cases hback

/-- A waiting key that is let go does not move the modifiers on the remote. -/
theorem Tracked.mem_delivery (h : s.Sync) (ht : s.Tracked) (i : KeyInput) {code : KeyCode}
    {key : UInt8 × Bool} (hcode : code ∈ MODIFIER_CODES) (hkey : SCANCODE_MAP code = some key) :
    key ∈ downAfter s.remote (((s.keyboard.delivery i).map
      (·.chord (s.keyboard.handle i).1.keysDown)).getD []) ↔ key ∈ s.remote := by
  cases hdelivery : s.keyboard.delivery i with
  | none => exact Iff.rfl
  | some held =>
      obtain ⟨hdelivers, hheld⟩ := Option.ite_none_right_eq_some.mp hdelivery
      obtain ⟨hnone, -⟩ | ⟨held', w, -, hwaiting, -, hmods⟩ := h.waits
      · rw [hnone] at hheld
        cases hheld
      · obtain ⟨down, hdown⟩ := Option.isSome_iff_exists.mp hmods
        exact (ht.waits held hheld w hwaiting down hdown).mem_downAfter_chord
          (keysDown_of_delivers hdelivers) hcode hkey

theorem tracked_step (h : s.Sync) (ht : s.Tracked) {i : KeyInput}
    (halone : s.keyboard.heldPaste.isSome → i.pressesKey = false) : (s.step i).Tracked := by
  constructor
  case agree =>
    intro code hcode key hkey
    rw [step, Keyboard.sent_handle, downAfter_append]
    refine mem_downAfter_direct h i hcode hkey ?_
    rw [ht.mem_delivery h i hcode hkey]
    exact ht.agree code hcode key hkey
  case waits =>
    obtain ⟨held, w, hheld, hwaiting, hback, -, hmods, hdelivers, -⟩ | ⟨hheld, -⟩ |
      ⟨hheld, hwaiting, hback, hdelivers, -⟩ := step_cases h i
    · rw [hheld, hwaiting]
      rintro _ ⟨⟩ _ ⟨⟩ down hdown
      rw [hmods] at hdown
      cases hdown
      refine tracks_of_heldBack hback fun code hcode key hkey => ?_
      rw [step, Keyboard.sent_handle, s.keyboard.direct_of_delivers hdelivers, List.append_nil,
        ht.mem_delivery h i hcode hkey]
      exact ht.agree code hcode key hkey
    · rw [hheld]
      exact fun _ hmem => absurd hmem (Option.not_mem_none _)
    · rw [hheld, hwaiting]
      intro held hheld w hwaiting down hdown
      have hpresses := halone (by rw [hheld]; rfl)
      exact (ht.waits held hheld w hwaiting down hdown).step h.pasteKeyUp.2 hpresses hback
        hdelivers

/-! ## The order -/

/-- The waiting key is the last that the user has pressed. -/
def Ordered (s : KeyOrder) : Prop := s.pressed = s.received ++ s.waiting.toList

theorem Ordered.transparent (h : s.Sync) (hordered : s.Ordered) : s.Transparent where
  order := by
    rw [hordered]
    exact List.prefix_append ..
  complete := by
    intro hheld
    obtain ⟨-, hwaiting⟩ | ⟨held, w, hheld', -⟩ := h.waits
    · rw [hordered, hwaiting, Option.toList_none, List.append_nil]
    · rw [hheld] at hheld'
      cases hheld'

/-- What is out of order stays so. -/
theorem order_of_step (h : s.Sync) {i : KeyInput}
    (horder : (s.step i).received <+: (s.step i).pressed) :
    s.received <+: s.pressed := by
  have hreceived : s.received <+: (s.step i).pressed := by
    refine List.IsPrefix.trans ?_ horder
    rw [step, List.append_assoc]
    exact List.prefix_append ..
  have hpressed : s.pressed <+: (s.step i).pressed := List.prefix_append ..
  refine List.prefix_of_prefix_length_le hreceived hpressed ?_
  have hlength := h.length
  omega

theorem fits_of_delivers (h : s.Sync) (ht : s.Tracked) {i : KeyInput}
    (hdelivers : s.keyboard.delivers i) : Fits s i ↔ s.arrives i = s.waiting := by
  have hdelivery : s.keyboard.delivery i = s.keyboard.heldPaste := if_pos hdelivers
  have halone : i.pressesKey = false := by
    rw [← presses_direct_eq_nil_iff s.keyboard, s.keyboard.direct_of_delivers hdelivers,
      presses_nil]
  obtain ⟨hheld, hwaiting⟩ | ⟨held, w, hheld, hwaiting, hkey, hmods⟩ := h.waits
  · rw [arrives_of_none hheld, hwaiting]
    refine ⟨fun _ => rfl, fun _ => ⟨fun _ => halone, ?_⟩⟩
    rw [hdelivery, hheld]
    exact fun _ hmem => absurd hmem (Option.not_mem_none _)
  · obtain ⟨down, hdown⟩ := Option.isSome_iff_exists.mp hmods
    obtain ⟨key, mods⟩ := w
    cases hdown
    have hkept := (ht.waits held hheld _ hwaiting down rfl).kept_iff
      (keysDown_of_delivers hdelivers)
    rw [arrives_of_delivers hdelivers hheld hkey, hwaiting]
    constructor
    · intro hfits
      rw [← hkept.mpr (hfits.mods held (hdelivery.trans hheld) _ hwaiting down rfl)]
    · intro harrives
      simp only [Option.some.injEq, Press.mk.injEq, true_and] at harrives
      refine ⟨fun _ => halone, ?_⟩
      rw [hdelivery, hheld, hwaiting]
      rintro _ ⟨⟩ _ ⟨⟩ _ ⟨⟩
      exact hkept.mp harrives.symm

theorem fits_of_not_delivers {i : KeyInput} (hdelivers : ¬ s.keyboard.delivers i) :
    Fits s i ↔ (s.keyboard.heldPaste.isSome → presses (s.keyboard.direct i) = []) := by
  rw [presses_direct_eq_nil_iff]
  refine ⟨Fits.alone, fun halone => ⟨halone, ?_⟩⟩
  rw [Keyboard.delivery, if_neg hdelivers]
  exact fun _ hmem => absurd hmem (Option.not_mem_none _)

/-- No press that is passed on is that of a waiting key. -/
theorem eq_nil_of_prefix {w : Press} {strokes : List KeyStroke} (hmods : w.mods.isSome)
    (h : presses strokes <+: w :: presses strokes) : presses strokes = [] := by
  cases hpresses : presses strokes with
  | nil => rfl
  | cons p ps =>
      rw [hpresses, List.cons_prefix_cons] at h
      have hmem : p ∈ presses strokes := by
        rw [hpresses]
        exact List.mem_cons_self ..
      rw [← h.1, mods_of_mem_presses hmem] at hmods
      cases hmods

theorem toList_injective {α : Type} : Function.Injective (Option.toList (α := α)) := by
  intro x y h
  cases x <;> cases y <;> simp_all

/-- From an ordered state, an input that fits leads to an ordered state, and
any other out of order. -/
theorem ordered_step (h : s.Sync) (ht : s.Tracked) (hordered : s.Ordered) (i : KeyInput) :
    (Fits s i → (s.step i).Ordered) ∧
      ((s.step i).received <+: (s.step i).pressed → Fits s i) := by
  rw [Ordered] at hordered ⊢
  obtain ⟨held, w, -, hwaiting, -, -, -, hdelivers, hreceived, hpressed⟩ |
    ⟨-, hwaiting, -, hdelivers, hreceived, hpressed⟩ |
    ⟨-, hwaiting, -, hdelivers, hreceived, hpressed⟩ := step_cases h i
  all_goals rw [hwaiting, hreceived, hpressed, hordered]
  · rw [fits_of_delivers h ht hdelivers]
    have hlength := arrives_length h hdelivers
    refine ⟨fun harrives => by rw [harrives]; rfl, fun horder => ?_⟩
    rw [List.append_assoc, List.prefix_append_right_inj] at horder
    have hshort : (s.arrives i).toList <+: s.waiting.toList :=
      List.prefix_of_prefix_length_le horder (List.prefix_append ..) hlength.le
    exact toList_injective (hshort.eq_of_length hlength)
  · rw [fits_of_delivers h ht hdelivers]
    have hlength := arrives_length h hdelivers
    refine ⟨fun harrives => by rw [harrives]; simp, fun horder => ?_⟩
    rw [List.prefix_append_right_inj] at horder
    exact toList_injective (horder.eq_of_length hlength)
  · rw [fits_of_not_delivers hdelivers]
    obtain ⟨hheld, hnone⟩ | ⟨held, w, hheld, hsome, -, hmods⟩ := h.waits
    · rw [hheld, hnone]
      exact ⟨fun _ => by simp, fun _ hheld => by cases hheld⟩
    · rw [hheld, hsome]
      refine ⟨fun halone => by simp [halone rfl], fun horder _ => ?_⟩
      rw [List.append_assoc, List.prefix_append_right_inj] at horder
      exact eq_nil_of_prefix hmods horder

end

/-! ## Runs -/

/-- While nothing is out of order, the waiting key is the last one, and the modifiers
on the remote are known. -/
structure Inv (s : KeyOrder) : Prop where
  sync : s.Sync
  ordered : s.received <+: s.pressed → s.Ordered
  tracked : s.received <+: s.pressed → s.Tracked

theorem inv_initial : initial.Inv := ⟨sync_initial, fun _ => rfl, fun _ => tracked_initial⟩

theorem Inv.transparent_iff {s : KeyOrder} (h : s.Inv) :
    s.Transparent ↔ s.received <+: s.pressed :=
  ⟨Transparent.order, fun horder => (h.ordered horder).transparent h.sync⟩

theorem inv_step {s : KeyOrder} (h : s.Inv) (i : KeyInput) : (s.step i).Inv := by
  have hstep : (s.step i).received <+: (s.step i).pressed →
      (s.step i).Ordered ∧ (s.step i).Tracked := by
    intro horder'
    have horder := order_of_step h.sync horder'
    have htracked := h.tracked horder
    obtain ⟨hkeeps, hfits⟩ := ordered_step h.sync htracked (h.ordered horder) i
    have hfit := hfits horder'
    exact ⟨hkeeps hfit, tracked_step h.sync htracked hfit.alone⟩
  exact ⟨sync_step h.sync i, fun horder => (hstep horder).1, fun horder => (hstep horder).2⟩

theorem transparent_step {s : KeyOrder} (h : s.Inv) (htransparent : s.Transparent)
    (i : KeyInput) : (s.step i).Transparent ↔ Fits s i := by
  have horder := htransparent.order
  obtain ⟨hkeeps, hfits⟩ := ordered_step h.sync (h.tracked horder) (h.ordered horder) i
  rw [(inv_step h i).transparent_iff]
  refine ⟨hfits, fun hfit => ?_⟩
  exact ((hkeeps hfit).transparent (sync_step h.sync i)).order

/-- The held paste key is transparent in a run exactly when every input of the
run fits. -/
theorem always_transparent_iff (is : List KeyInput) :
    Runs.Always step Transparent initial is ↔ Runs.Each step Fits initial is :=
  Runs.always_iff_each (fun _ i _ h => inv_step h i)
    (fun _ i _ h htransparent => transparent_step h htransparent i) inv_initial
    ((inv_initial.transparent_iff).mpr (List.prefix_refl _))

/-- Ctrl+V and Enter, with the acknowledgement of new text still to come. -/
def pasteThenEnter : List KeyInput :=
  [.keyDown true ⟨.controlLeft, true, false, false⟩, .keyDown true ⟨.keyV, true, false, false⟩,
    .paste (.text true), .keyUp .keyV, .keyUp .controlLeft,
    .keyDown true ⟨.enter, false, false, false⟩]

/-- Enter goes past the paste key. -/
theorem not_always_transparent :
    ¬ ∀ is : List KeyInput, Runs.Always step Transparent initial is := by
  intro h
  have hlast := (h pasteThenEnter pasteThenEnter (List.prefix_refl _)).order
  revert hlast
  decide

end KeyOrder

end WasmRdp
