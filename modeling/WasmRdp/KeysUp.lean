import WasmRdp.Lib.Runs
import WasmRdp.PasteKey

/-!
# No key stays down

The remote knows of the keyboard only what `send_keyboard` tells it, so that
the keys that are down there are a fold over the strokes (`downAfter`). A
`KeyRun` keeps them beside the keys that the user really holds. The two part
when the window loses the focus: the keyups that come then are not seen.

The modifiers never stay down: one that is down on the remote is held by the
user, or is the Alt of the app switcher (`Inv.modifiers`). For the other keys
this rests on `pasteKeyUp`, which says whose keyup belongs to a key that was
held back, and so is not sent. It outlives the focus: where it is left over
and the key is pressed again as a plain key, the keyup of that press is
swallowed. It is also too early where the key was down already.

A waiting key by itself takes nothing down, since it is sent as a press and a
release. So the proof follows the strokes that a handler sends on its own.
There is one lemma for each branch of a keydown (`inv_keyDown_shortcut`,
`inv_keyDown_tab`, `inv_keyDown_holdsBack`, `inv_keyDown_plain`), one for a
keyup that is seen and one for a keyup that is not, and one for the loss of
the focus, at which the page releases every modifier. `inv_of_subset` serves
all the cases in which keys only come up on the remote.

`Fits` excludes the two ways in which a key can stay down: a paste key that is
held back while it is down already, and a plain keydown whose keyup will be
swallowed. `not_always_letsGo` is the second of these.
-/

namespace WasmRdp

/-- The page and the remote in one session. -/
structure KeyRun where
  keyboard : Keyboard
  /-- The keys that are down on the remote. -/
  remote : Finset (UInt8 × Bool)
  /-- The keys that the user holds. -/
  physical : Finset KeyCode
  focused : Bool
  /-- The key whose keyup was the last event. -/
  letGo : Option KeyCode

/-- A key is let go in another window, where the page does not see it. -/
inductive KeyRunEvent where
  | input (i : KeyInput)
  | unseenKeyUp (code : KeyCode)

namespace KeyRun

def initial (physical : Finset KeyCode) : KeyRun where
  keyboard := .initial
  remote := ∅
  physical
  focused := true
  letGo := none

def physicalAfter (physical : Finset KeyCode) : KeyInput → Finset KeyCode
  | .keyDown _ e => insert e.code physical
  | .keyUp code => physical.erase code
  | _ => physical

def focusedAfter (focused : Bool) : KeyInput → Bool
  | .keyDown .. => true
  | .keyUp _ => true
  | .blur => false
  | _ => focused

def step (s : KeyRun) : KeyRunEvent → KeyRun
  | .input i =>
      { keyboard := (s.keyboard.handle i).1
        remote := downAfter s.remote (s.keyboard.handle i).2
        physical := physicalAfter s.physical i
        focused := focusedAfter s.focused i
        letGo :=
          match i with
          | .keyUp code => some code
          | _ => none }
  | .unseenKeyUp code =>
      { s with
        physical := if s.focused then s.physical else s.physical.erase code
        letGo := none }

/-- The key is down on the remote. -/
def IsDown (s : KeyRun) (code : KeyCode) : Prop := ∃ key ∈ SCANCODE_MAP code, key ∈ s.remote

/-- Letting go of a key takes it up on the remote, and with all keys let go no
modifier is down. -/
structure LetsGo (s : KeyRun) : Prop where
  released : ∀ code ∈ s.letGo, ¬ s.IsDown code
  modifiers : s.physical = ∅ → s.keyboard.altTabHolding = false → s.keyboard.heldPaste = none →
    ∀ code ∈ MODIFIER_CODES, ¬ s.IsDown code

/-- A paste key that is held back is not down yet; and no key is forwarded
whose next keyup will be swallowed. -/
def Fits (s : KeyRun) : KeyRunEvent → Prop
  | .input (.keyDown clipboardEnabled e) =>
      if Keyboard.holdsBack clipboardEnabled e then ¬ s.IsDown e.code
      else s.keyboard.pasteKeyUp ≠ some e.code
  | _ => True

/-! ## The invariant -/

structure Inv (s : KeyRun) : Prop where
  /-- A modifier that is down is held by the user, or is the Alt of the app
  switcher. -/
  modifiers : ∀ code ∈ MODIFIER_CODES, s.IsDown code →
    code ∈ s.physical ∨ (code = .altLeft ∧ s.keyboard.altTabHolding)
  unfocused : s.focused = false →
    s.keyboard.altTabHolding = false ∧ ∀ code ∈ MODIFIER_CODES, ¬ s.IsDown code
  /-- The key whose keyup will be swallowed is a paste key, and is up. -/
  swallowed : ∀ code ∈ s.keyboard.pasteKeyUp,
    (code = .keyV ∨ code = .insert) ∧ ¬ s.IsDown code
  released : ∀ code ∈ s.letGo, ¬ s.IsDown code

theorem inv_initial (physical : Finset KeyCode) : (initial physical).Inv where
  modifiers := by
    rintro code - ⟨key, -, hkey⟩
    exact absurd hkey (Finset.notMem_empty key)
  unfocused := by
    intro hfocused
    cases hfocused
  swallowed := by
    intro code hcode
    cases hcode
  released := by
    intro code hcode
    cases hcode

/-! ## What the handlers do to the remote -/

section

variable {s s' : KeyRun} {code : KeyCode}

theorem IsDown.mono (hremote : s'.remote ⊆ s.remote) (h : s'.IsDown code) : s.IsDown code := by
  obtain ⟨key, hcode, hkey⟩ := h
  exact ⟨key, hcode, hremote hkey⟩

/-- The app switcher presses Alt, and nothing else for long. -/
theorem downAfter_altTabStep {k : Keyboard} {shift : Bool} {down : Finset (UInt8 × Bool)}
    {key : UInt8 × Bool} (h : key ∈ downAfter down (k.altTabStep shift).2) :
    key ∈ down ∨ key = (0x38, false) := by
  cases hhold : k.altTabHolding <;> cases shift <;>
    simp only [Keyboard.altTabStep, hhold, downAfter, KeyStroke.apply, if_true, if_false,
      List.foldl_append, List.foldl_cons, List.foldl_nil, List.nil_append,
      Finset.mem_erase, Finset.mem_insert, Bool.false_eq_true] at h <;>
    tauto

/-- No modifier is down after `releaseAllModifiers`. -/
theorem not_isDown_of_releaseAll {k : Keyboard}
    (hremote : s'.remote = downAfter s.remote k.releaseAllModifiers.2)
    (hcode : code ∈ MODIFIER_CODES) : ¬ s'.IsDown code := by
  rintro ⟨key, hkey, hdown⟩
  rw [hremote, mem_downAfter_releaseAllModifiers] at hdown
  exact hdown.2 (List.mem_filterMap.mpr ⟨code, hcode, hkey⟩)

theorem releaseAllModifiers_subset (k : Keyboard) (down : Finset (UInt8 × Bool)) :
    downAfter down k.releaseAllModifiers.2 ⊆ down := by
  intro key hkey
  exact (mem_downAfter_releaseAllModifiers k |>.mp hkey).1

/-- Where keys only come up on the remote. -/
theorem inv_of_subset (h : s.Inv) (hremote : s'.remote ⊆ s.remote)
    (halt : s'.keyboard.altTabHolding = s.keyboard.altTabHolding)
    (hup : s'.keyboard.pasteKeyUp = s.keyboard.pasteKeyUp) (hphysical : s'.physical = s.physical)
    (hfocused : s'.focused = s.focused) (hletGo : s'.letGo = none) : s'.Inv where
  modifiers := by
    intro code hcode hdown
    rw [halt, hphysical]
    exact h.modifiers code hcode (hdown.mono hremote)
  unfocused := by
    intro hfocus
    obtain ⟨hholding, hmodifiers⟩ := h.unfocused (hfocused ▸ hfocus)
    exact ⟨halt.trans hholding, fun code hcode hdown => hmodifiers code hcode (hdown.mono hremote)⟩
  swallowed := by
    intro code hcode
    obtain ⟨hpaste, hnot⟩ := h.swallowed code (hup ▸ hcode)
    exact ⟨hpaste, fun hdown => hnot (hdown.mono hremote)⟩
  released := by
    intro code hcode
    rw [hletGo] at hcode
    cases hcode

end

/-! ## Keys -/

section

variable {s : KeyRun}

section

variable {clipboardEnabled : Bool} {e : KeyEvent}

/-- A keydown is seen by the page, and lets no key go. -/
theorem inv_of_keyDown
    (hmodifiers : ∀ code ∈ MODIFIER_CODES,
      (s.step (.input (.keyDown clipboardEnabled e))).IsDown code →
        code ∈ insert e.code s.physical ∨
          (code = .altLeft ∧ (s.keyboard.onKeyDown clipboardEnabled e).1.altTabHolding))
    (hswallowed : ∀ code ∈ (s.keyboard.onKeyDown clipboardEnabled e).1.pasteKeyUp,
      (code = .keyV ∨ code = .insert) ∧
        ¬ (s.step (.input (.keyDown clipboardEnabled e))).IsDown code) :
    (s.step (.input (.keyDown clipboardEnabled e))).Inv where
  modifiers := hmodifiers
  unfocused := by
    intro hfocus
    cases hfocus
  swallowed := hswallowed
  released := by
    intro code hcode
    cases hcode

/-- A shortcut releases the modifiers. -/
theorem inv_keyDown_shortcut (h : s.Inv) {shortcut : Shortcut}
    (hshortcut : Keyboard.shortcutOf e = some shortcut) :
    (s.step (.input (.keyDown clipboardEnabled e))).Inv := by
  have hremote : (s.step (.input (.keyDown clipboardEnabled e))).remote =
      downAfter s.remote s.keyboard.releaseAllModifiers.2 := by
    change downAfter s.remote (s.keyboard.onKeyDown clipboardEnabled e).2.1 = _
    rw [Keyboard.onKeyDown_of_shortcut hshortcut]
  have hsub := hremote ▸ releaseAllModifiers_subset s.keyboard s.remote
  refine inv_of_keyDown (fun code hcode hdown => ?_) fun code hcode => ?_
  · exact absurd hdown (not_isDown_of_releaseAll (k := s.keyboard) hremote hcode)
  · rw [Keyboard.onKeyDown_of_shortcut hshortcut] at hcode
    obtain ⟨hpaste, hnot⟩ := h.swallowed code hcode
    exact ⟨hpaste, fun hdown => hnot (hdown.mono hsub)⟩

/-- The app switcher holds Alt. -/
theorem inv_keyDown_tab (h : s.Inv) (hshortcut : Keyboard.shortcutOf e = none)
    (htab : e.ctrlKey && e.code = .tab) : (s.step (.input (.keyDown clipboardEnabled e))).Inv := by
  have hdowns : ∀ {code}, (s.step (.input (.keyDown clipboardEnabled e))).IsDown code →
      s.IsDown code ∨ SCANCODE_MAP code = some (0x38, false) := by
    rintro code ⟨key, hcode, hkey⟩
    change key ∈ downAfter s.remote (s.keyboard.onKeyDown clipboardEnabled e).2.1 at hkey
    rw [Keyboard.onKeyDown_of_tab hshortcut htab] at hkey
    obtain hkey | rfl := downAfter_altTabStep hkey
    · exact .inl ⟨key, hcode, hkey⟩
    · exact .inr hcode
  refine inv_of_keyDown (fun code hcode hdown => ?_) fun code hcode => ?_
  · have hholding : (s.keyboard.onKeyDown clipboardEnabled e).1.altTabHolding = true := by
      rw [Keyboard.onKeyDown_of_tab hshortcut htab]
    obtain hdown | halt := hdowns hdown
    · obtain hheld | ⟨rfl, -⟩ := h.modifiers code hcode hdown
      · exact .inl (Finset.mem_insert_of_mem hheld)
      · exact .inr ⟨rfl, hholding⟩
    · exact .inr ⟨eq_of_scancode (.inl (by decide)) rfl halt, hholding⟩
  · rw [Keyboard.onKeyDown_of_tab hshortcut htab] at hcode
    obtain ⟨hpaste, hnot⟩ := h.swallowed code hcode
    refine ⟨hpaste, fun hdown => ?_⟩
    obtain hdown | halt := hdowns hdown
    · exact hnot hdown
    · obtain rfl | rfl := hpaste <;> exact absurd halt (by decide)

/-- A paste key is held back; one that waited before is sent. -/
theorem inv_keyDown_holdsBack (h : s.Inv) (hback : Keyboard.holdsBack clipboardEnabled e)
    (hup : ¬ s.IsDown e.code) : (s.step (.input (.keyDown clipboardEnabled e))).Inv := by
  have hsub : (s.step (.input (.keyDown clipboardEnabled e))).remote ⊆ s.remote := by
    change downAfter s.remote (s.keyboard.onKeyDown clipboardEnabled e).2.1 ⊆ s.remote
    rw [Keyboard.onKeyDown_of_holdsBack hback]
    exact downAfter_delivery_subset _ _
  refine inv_of_keyDown (fun code hcode hdown => ?_) fun code hcode => ?_
  · rw [Keyboard.onKeyDown_of_holdsBack hback]
    obtain hheld | halt := h.modifiers code hcode (hdown.mono hsub)
    · exact .inl (Finset.mem_insert_of_mem hheld)
    · exact .inr halt
  · rw [Keyboard.onKeyDown_of_holdsBack hback, Option.mem_some_iff] at hcode
    subst hcode
    refine ⟨?_, fun hdown => hup (hdown.mono hsub)⟩
    simp only [Keyboard.holdsBack, Keyboard.isPasteKey, Bool.and_eq_true, Bool.or_eq_true,
      decide_eq_true_eq] at hback
    tauto

/-- Any other key is forwarded. -/
theorem inv_keyDown_plain (h : s.Inv) (hshortcut : Keyboard.shortcutOf e = none)
    (htab : ¬ (e.ctrlKey && e.code = .tab)) (hpaste : ¬ (Keyboard.isPasteKey e && clipboardEnabled))
    (hforwarded : s.keyboard.pasteKeyUp ≠ some e.code) :
    (s.step (.input (.keyDown clipboardEnabled e))).Inv := by
  have hdowns : ∀ {code}, (s.step (.input (.keyDown clipboardEnabled e))).IsDown code →
      s.IsDown code ∨ ∃ key, SCANCODE_MAP code = some key ∧ SCANCODE_MAP e.code = some key := by
    rintro code ⟨key, hcode, hkey⟩
    change key ∈ downAfter s.remote (s.keyboard.onKeyDown clipboardEnabled e).2.1 at hkey
    rw [Keyboard.onKeyDown_of_plain hshortcut htab hpaste] at hkey
    cases hmapped : SCANCODE_MAP e.code with
    | none =>
        rw [hmapped] at hkey
        exact .inl ⟨key, hcode, hkey⟩
    | some pressed =>
        rw [hmapped, Option.map_some, Option.toList_some, downAfter_press,
          Finset.mem_insert] at hkey
        obtain rfl | hkey := hkey
        · exact .inr ⟨key, hcode, rfl⟩
        · exact .inl ⟨key, hcode, hkey⟩
  refine inv_of_keyDown (fun code hcode hdown => ?_) fun code hcode => ?_
  · rw [Keyboard.onKeyDown_of_plain hshortcut htab hpaste]
    obtain hdown | ⟨key, hkey, hkey'⟩ := hdowns hdown
    · obtain hheld | halt := h.modifiers code hcode hdown
      · exact .inl (Finset.mem_insert_of_mem hheld)
      · exact .inr halt
    · rw [eq_of_scancode (.inl hcode) hkey hkey']
      exact .inl (Finset.mem_insert_self ..)
  · rw [Keyboard.onKeyDown_of_plain hshortcut htab hpaste] at hcode
    obtain ⟨hpaste, hnot⟩ := h.swallowed code hcode
    refine ⟨hpaste, fun hdown => ?_⟩
    obtain hdown | ⟨key, hkey, hkey'⟩ := hdowns hdown
    · exact hnot hdown
    · rw [eq_of_scancode (.inr hpaste) hkey hkey'] at hforwarded
      exact hforwarded hcode

theorem inv_keyDown (h : s.Inv) (hfits : Fits s (.input (.keyDown clipboardEnabled e))) :
    (s.step (.input (.keyDown clipboardEnabled e))).Inv := by
  obtain ⟨shortcut, hshortcut⟩ | ⟨hshortcut, htab⟩ | hback | ⟨hshortcut, htab, hpaste⟩ :=
    Keyboard.keyDown_cases clipboardEnabled e
  · exact inv_keyDown_shortcut h hshortcut
  · exact inv_keyDown_tab h hshortcut htab
  · rw [Fits, if_pos hback] at hfits
    exact inv_keyDown_holdsBack h hback hfits
  · have hforward : ¬ Keyboard.holdsBack clipboardEnabled e :=
      Keyboard.not_holdsBack_of_plain hpaste
    rw [Fits, if_neg hforward] at hfits
    exact inv_keyDown_plain h hshortcut htab hpaste hfits

end

theorem inv_keyUp {code : KeyCode} (h : s.Inv) : (s.step (.input (.keyUp code))).Inv := by
  have hkeyboard : (s.step (.input (.keyUp code))).keyboard = (s.keyboard.onKeyUp code).1 := rfl
  have hremote : (s.step (.input (.keyUp code))).remote =
      downAfter s.remote (s.keyboard.onKeyUp code).2 := rfl
  have hphysical : (s.step (.input (.keyUp code))).physical = s.physical.erase code := rfl
  have hfocused : (s.step (.input (.keyUp code))).focused = true := rfl
  have hletGo : (s.step (.input (.keyUp code))).letGo = some code := rfl
  generalize s.step (.input (.keyUp code)) = s' at *
  rw [Keyboard.onKeyUp_eq] at hkeyboard hremote
  have hmem : ∀ key, key ∈ s'.remote ↔ key ∈ s.remote ∧ key ∉ s.keyboard.keysUp code := by
    intro key
    rw [hremote]
    exact mem_downAfter_releases _
  have hsub : s'.remote ⊆ s.remote := fun key hkey => ((hmem key).mp hkey).1
  have hup : ¬ s'.IsDown code := by
    by_cases hswallow : s.keyboard.pasteKeyUp = some code
    · exact fun hdown => (h.swallowed code hswallow).2 (hdown.mono hsub)
    · rintro ⟨key, hkey, hdown⟩
      refine ((hmem key).mp hdown).2 ?_
      rw [Keyboard.keysUp, if_neg hswallow]
      exact List.mem_append_right _ (Option.mem_toList.mpr hkey)
  refine ⟨fun c hc hdown => ?_, fun hfocus => ?_, fun c hc => ?_, fun c hc => ?_⟩
  · have hne : c ≠ code := by
      rintro rfl
      exact hup hdown
    obtain hheld | ⟨rfl, hholding⟩ := h.modifiers c hc (hdown.mono hsub)
    · exact .inl (hphysical ▸ Finset.mem_erase.mpr ⟨hne, hheld⟩)
    · right
      refine ⟨rfl, ?_⟩
      rw [hkeyboard]
      -- the keyup that ends the app switcher takes its Alt up
      by_cases hend : s.keyboard.endsAltTab code
      · exfalso
        obtain ⟨key, hkey, hdown⟩ := hdown
        obtain rfl : (0x38, false) = key := Option.some.inj hkey
        refine ((hmem _).mp hdown).2 ?_
        rw [Keyboard.keysUp, if_pos hend]
        exact List.mem_append_left _ (List.mem_singleton_self _)
      · simp [hholding, Bool.eq_false_iff.mpr hend]
  · rw [hfocused] at hfocus
    cases hfocus
  · rw [hkeyboard] at hc
    dsimp only at hc
    split at hc
    · cases hc
    · obtain ⟨hpaste, hnot⟩ := h.swallowed c hc
      exact ⟨hpaste, fun hdown => hnot (hdown.mono hsub)⟩
  · rw [hletGo, Option.mem_some_iff] at hc
    exact hc ▸ hup

theorem inv_blur (h : s.Inv) : (s.step (.input .blur)).Inv where
  modifiers := by
    intro code hcode hdown
    exact absurd hdown (not_isDown_of_releaseAll (k := s.keyboard) rfl hcode)
  unfocused := by
    intro _
    exact ⟨rfl, fun code hcode => not_isDown_of_releaseAll (k := s.keyboard) rfl hcode⟩
  swallowed := by
    intro code hcode
    obtain ⟨hpaste, hnot⟩ := h.swallowed code hcode
    exact ⟨hpaste, fun hdown => hnot (hdown.mono (releaseAllModifiers_subset s.keyboard s.remote))⟩
  released := by
    intro code hcode
    cases hcode

/-- The inputs that are no keys send at most the waiting key. -/
theorem inv_other {i : KeyInput} (h : s.Inv) (hi : i.isKey = false) :
    (s.step (.input i)).Inv := by
  have hkeys := s.keyboard.sameKeys_handle hi
  have hsub : (s.step (.input i)).remote ⊆ s.remote := by
    change downAfter s.remote (s.keyboard.handle i).2 ⊆ s.remote
    rw [Keyboard.sent_handle, Keyboard.direct_of_not_key _ hi, List.append_nil]
    exact downAfter_delivery_subset _ _
  have hghost : physicalAfter s.physical i = s.physical ∧
      focusedAfter s.focused i = s.focused ∧ (s.step (.input i)).letGo = none := by
    cases i <;> first | exact ⟨rfl, rfl, rfl⟩ | cases hi
  exact inv_of_subset h hsub hkeys.altTabHolding hkeys.pasteKeyUp hghost.1 hghost.2.1 hghost.2.2

theorem inv_unseenKeyUp {code : KeyCode} (h : s.Inv) : (s.step (.unseenKeyUp code)).Inv where
  modifiers := by
    intro c hc hdown
    cases hfocus : s.focused with
    | true =>
        have hphysical : (s.step (.unseenKeyUp code)).physical = s.physical := if_pos hfocus
        rw [hphysical]
        exact h.modifiers c hc hdown
    | false => exact absurd hdown ((h.unfocused hfocus).2 c hc)
  unfocused := h.unfocused
  swallowed := h.swallowed
  released := by
    intro c hc
    cases hc

end

/-! ## Runs -/

theorem inv_step {s : KeyRun} {e : KeyRunEvent} (h : s.Inv) (hfits : Fits s e) :
    (s.step e).Inv := by
  cases e with
  | unseenKeyUp code => exact inv_unseenKeyUp h
  | input i =>
      cases i with
      | keyDown clipboardEnabled e => exact inv_keyDown h hfits
      | keyUp code => exact inv_keyUp h
      | blur => exact inv_blur h
      | _ => exact inv_other h rfl

theorem Inv.letsGo {s : KeyRun} (h : s.Inv) : s.LetsGo where
  released := h.released
  modifiers := by
    intro hphysical hholding _ code hcode hdown
    obtain hheld | ⟨-, halt⟩ := h.modifiers code hcode hdown
    · rw [hphysical] at hheld
      exact absurd hheld (Finset.notMem_empty code)
    · rw [hholding] at halt
      cases halt

/-- Where every event of a run fits, a key that is let go never stays down on
the remote. -/
theorem always_letsGo {physical : Finset KeyCode} {es : List KeyRunEvent}
    (h : Runs.Each step Fits (initial physical) es) :
    Runs.Always step LetsGo (initial physical) es := by
  have hinv : Runs.Always step Inv (initial physical) es :=
    Runs.always_of_each (fun _ _ _ => inv_step) (inv_initial physical) h
  intro pre hpre
  exact (hinv pre hpre).letsGo

def ctrl : KeyEvent := ⟨.controlLeft, true, false, false⟩
def ctrlV : KeyEvent := ⟨.keyV, true, false, false⟩
def plainV : KeyEvent := ⟨.keyV, false, false, false⟩

/-- A quick Ctrl+V, whose paste event finds new text. -/
def quickPaste : List KeyRunEvent :=
  [.input (.keyDown true ctrl), .input (.keyDown true ctrlV), .input (.paste (.text true)),
    .input (.keyUp .keyV), .input (.keyUp .controlLeft), .input .formatListAck]

theorem each_fits_quickPaste : Runs.Each step Fits (initial ∅) quickPaste := by
  rw [quickPaste]
  simp only [Runs.each_cons]
  refine ⟨nofun, ?_, trivial, trivial, trivial, trivial, Runs.each_nil⟩
  rintro ⟨key, hkey, hdown⟩
  obtain rfl : (0x2F, false) = key := Option.some.inj hkey
  exact absurd hdown (by decide)

theorem always_letsGo_quickPaste : Runs.Always step LetsGo (initial ∅) quickPaste :=
  always_letsGo each_fits_quickPaste

/-- The window loses the focus while Ctrl and V are held; afterwards the user
types a plain v. -/
def blurThenV : List KeyRunEvent :=
  [.input (.keyDown true ctrl), .input (.keyDown true ctrlV), .input .replayTimer, .input .blur,
    .unseenKeyUp .keyV, .unseenKeyUp .controlLeft, .input (.keyDown true plainV),
    .input (.keyUp .keyV)]

/-- The v stays down. -/
theorem not_always_letsGo : ¬ ∀ (physical : Finset KeyCode) (es : List KeyRunEvent),
    Runs.Always step LetsGo (initial physical) es := by
  intro h
  have hlast := (h ∅ blurThenV blurThenV (List.prefix_refl _)).released .keyV rfl
  exact hlast ⟨(0x2F, false), rfl, by decide⟩

end KeyRun

end WasmRdp
