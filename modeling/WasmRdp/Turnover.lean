import WasmRdp.Lib.Runs
import WasmRdp.Page

/-!
# From one session to the next

What the page knows of a session is spread over its variables, and three
paths lead to a new session: a login after `cleanupSession`, which resets
all of it, and a reconnect or a redirect, which reset the clipboard's part
only. A session can also begin while another connection is under way, and a
callback of an ended session can come at any time.

A `Turnover` remembers which windows the current session has announced, and
whether the connection under way is tainted by something that no cleanup has
taken away. While nothing is, the per-session state is blank
(`Turnover.Ready`), so that a session begins as after `cleanupSession`.

`PerSession` collects the variables in question, and `PageEvent.adds` the
events that put something into them whether or not there is a session; without
one of these a blank state stays blank (`blank_step`). What the page does by
itself, or at one of its buttons, is one of three things (`OwnStep`): nothing
to the session, a cleanup, or leaving it for another attempt. `Kept` is what
an event leaves of a session that stays current.

With these, `ready_step` and `inv_step` are cases on the event. The condition
`Fits` speaks of the taint and of callbacks of sessions that are not current,
both known before the event; `always_separated` says that a run of such events
never lets a session find anything of an earlier one. In
`not_always_separated` a reconnect begins with the window of the session that
was lost.
-/

namespace WasmRdp

/-! ## Per-session state -/

structure PerSession where
  railWindows : InsertionMap UInt32 RailWin
  railMaximizedFirst : Bool
  railHadAppWindow : Bool
  railActiveId : Option UInt32
  altTabHolding : Bool
  heldPaste : Option HeldPaste
  advertsInFlight : Nat
  avc420Decoders : InsertionMap UInt16 Avc420Decoder

def PerSession.blank : PerSession where
  railWindows := .empty
  railMaximizedFirst := false
  railHadAppWindow := false
  railActiveId := none
  altTabHolding := false
  heldPaste := none
  advertsInFlight := 0
  avc420Decoders := .empty

def Page.perSession (p : Page) : PerSession where
  railWindows := p.rail.windows
  railMaximizedFirst := p.rail.maximizedFirst
  railHadAppWindow := p.rail.hadAppWindow
  railActiveId := p.rail.activeId
  altTabHolding := p.keyboard.altTabHolding
  heldPaste := p.keyboard.heldPaste
  advertsInFlight := p.keyboard.advertsInFlight
  avc420Decoders := p.avc420Decoders

/-- The event puts something into the per-session state, whether or not there
is a session. -/
def PageEvent.adds (p : Page) : PageEvent → Prop
  | .rail _ (.newOrUpdate _) => True
  | .rail _ (.activeWindow _) => True
  | .avc420Frame .. => p.h264 = true
  | _ => False

/-- A button, a timer or an attempt that fails. -/
def PageEvent.isOwn : PageEvent → Bool
  | .submit .. => true
  | .connectFailed _ => true
  | .reconnectTimer _ => true
  | .giveUp => true
  | .cancelClick => true
  | .disconnect => true
  | .railExecResult .. => true
  | .execTimer => true
  | .exitTimer => true
  | _ => false

/-- The event cleans up and leaves the current session current. -/
def PageEvent.cleansUnder (p : Page) : PageEvent → Prop
  | .connectFailed path => path ∈ p.inFlight ∧ path = .redirected
  | .giveUp => p.giveUpTimers ≠ 0
  | .cancelClick => p.overlayShown
  | _ => False

/-- What such an event can do to the session: nothing, clean it up, or leave
it for another attempt. -/
inductive OwnStep (p : Page) (e : PageEvent) (p' : Page) : Prop
  | stays (session : p'.session = p.session) (perSession : p'.perSession = p.perSession)
      (keyboard : p'.keyboard = p.keyboard) (overlay : p'.overlayShown = p.overlayShown)
  | cleaned (perSession : p'.perSession = .blank) (timer : p'.keyboard.pasteReplayTimer = none)
      (session : p'.session = none ∨ e.cleansUnder p ∧ p'.session = p.session)
  | retried (session : p'.session = none)
      (perSession : p'.perSession = p.resetClipboardState.perSession)
      (keyboard : p'.keyboard = p.resetClipboardState.keyboard)

namespace Page

section

variable (p : Page)

@[simp] theorem perSession_attemptReconnect :
    p.attemptReconnect.perSession = p.perSession := by
  unfold attemptReconnect
  split
  · rfl
  · split <;> rfl

theorem perSession_connected (path : ConnectPath) (width height : UInt16) :
    (p.connected path width height).perSession = p.perSession := by
  cases path <;> rfl

end

/-- What `resetClipboardState` does to a blank state. -/
theorem blank_resetClipboardState {p : Page} (h : p.perSession = .blank) :
    p.resetClipboardState.perSession = .blank := by
  have hrest : { p.perSession with heldPaste := none, advertsInFlight := 0 } =
      PerSession.blank := by
    rw [h]
    rfl
  exact hrest

/-- A keyboard handler, in terms of the three fields that count. -/
theorem blank_typed {p : Page} (h : p.perSession = .blank) {r : Keyboard × List KeyStroke}
    (halt : r.1.altTabHolding = false) (hheld : r.1.heldPaste = none)
    (hadverts : r.1.advertsInFlight = 0) : (p.typed r).perSession = .blank := by
  have hrest : { p.perSession with
      altTabHolding := r.1.altTabHolding
      heldPaste := r.1.heldPaste
      advertsInFlight := r.1.advertsInFlight } = PerSession.blank := by
    rw [h, halt, hheld, hadverts]
    rfl
  exact hrest

/-- Without a window there is nothing to change or to delete. -/
theorem blank_rail {p : Page} (h : p.perSession = .blank) {e : WindowEvent}
    (hnew : ∀ info, e ≠ .newOrUpdate info) (hactive : ∀ id, e ≠ .activeWindow id) :
    ({ p with rail := p.rail.dispatchEvent e } : Page).perSession = .blank := by
  have hempty : p.rail.windows = .empty := congrArg PerSession.railWindows h
  have hkept : ∀ windows, windows = .empty →
      ({ p with rail := { p.rail with windows } } : Page).perSession = .blank := by
    rintro windows rfl
    have hrest : { p.perSession with railWindows := .empty } = PerSession.blank := by
      rw [h]
      rfl
    exact hrest
  cases e with
  | newOrUpdate info => exact absurd rfl (hnew info)
  | activeWindow id => exact absurd rfl (hactive id)
  | deleted id =>
      have hsame : p.rail.railWindowDeleted id = p.rail := by
        rw [RailManager.railWindowDeleted, hempty]
        rfl
      rw [RailManager.dispatchEvent, hsame]
      exact h
  | icon id width height rgba =>
      rw [RailManager.dispatchEvent, RailManager.railIcon]
      split
      · refine hkept _ ?_
        rw [hempty]
        rfl
      · exact h
  | zOrder ids =>
      rw [RailManager.dispatchEvent, RailManager.railZOrder]
      refine hkept _ ?_
      rw [hempty]
      generalize ids.zipIdx = ps
      induction ps with
      | nil => rfl
      | cons p ps ih => exact ih

/-- A page that cannot decode H.264 makes no decoder. -/
theorem blank_avc420Frame {p : Page} (h : p.perSession = .blank) (hcodec : p.h264 = false)
    (surfaceId width height : UInt16) (isKeyframe configures decodes : Bool) :
    (p.avc420Frame surfaceId width height isKeyframe configures decodes).perSession =
      .blank := by
  have hempty : p.avc420Decoders = .empty := congrArg PerSession.avc420Decoders h
  have hcreate : p.getOrCreateAvc420Decoder surfaceId width height configures = (p, none) := by
    rw [getOrCreateAvc420Decoder, hempty]
    dsimp only [InsertionMap.get_empty]
    rw [getOrCreateAvc420Decoder.create, hcodec]
    rfl
  rw [avc420Frame, hcreate]
  exact h

theorem blank_avc420Closed {p : Page} (h : p.perSession = .blank) (surfaceId : UInt16) :
    (p.avc420Closed surfaceId).perSession = .blank := by
  have hempty : p.avc420Decoders = .empty := congrArg PerSession.avc420Decoders h
  have hrest : { p.perSession with avc420Decoders := p.avc420Decoders.delete surfaceId } =
      PerSession.blank := by
    rw [h, hempty]
    rfl
  exact hrest

theorem blank_sessionEnded {p : Page} (h : p.perSession = .blank) (reason : EndReason)
    (brief : Bool) : (p.sessionEnded reason brief).perSession = .blank := by
  have hended : (p.setSession none).perSession = .blank := h
  unfold sessionEnded
  dsimp only
  split
  · have hreset : (p.setSession none).resetClipboardState.perSession = .blank :=
      blank_resetClipboardState hended
    exact hreset
  split
  · rfl
  split
  · rfl
  split
  · by_cases hgive : brief ∧ MAX_FLAPS ≤ if brief then (p.setSession none).flapCount + 1 else 0
    · rw [if_pos hgive]
      rfl
    · rw [if_neg hgive]
      exact (perSession_attemptReconnect _).trans h
  · rfl

/-- The attempts only count. -/
theorem attemptReconnect_stays (p : Page) :
    p.attemptReconnect.session = p.session ∧ p.attemptReconnect.keyboard = p.keyboard ∧
      p.attemptReconnect.overlayShown = p.overlayShown := by
  unfold attemptReconnect
  split
  · exact ⟨rfl, rfl, rfl⟩
  · split <;> exact ⟨rfl, rfl, rfl⟩

/-- What the page does by itself, or at one of its buttons. -/
theorem ownStep (p : Page) {e : PageEvent} (h : e.isOwn) : OwnStep p e (p.step e) := by
  cases e with
  | submit credentials railProgram =>
      rw [step, submit]
      split <;> exact .stays rfl rfl rfl rfl
  | connectFailed path =>
      rw [step]
      split
      · rename_i hpath
        cases path with
        | login credentials => exact .stays rfl rfl rfl rfl
        | reconnect credentials =>
            obtain ⟨hsession, hkeyboard, hoverlay⟩ := attemptReconnect_stays
              { p with inFlight := p.inFlight.erase (.reconnect credentials) }
            exact .stays hsession (perSession_attemptReconnect _) hkeyboard hoverlay
        | redirected => exact .cleaned rfl rfl (.inr ⟨⟨hpath, rfl⟩, rfl⟩)
      · exact .stays rfl rfl rfl rfl
  | reconnectTimer held =>
      rw [step, reconnectTimer]
      split
      · exact .stays rfl rfl rfl rfl
      dsimp only
      split
      · exact .retried rfl rfl rfl
      · exact .stays rfl rfl rfl rfl
  | giveUp =>
      rw [step, giveUp]
      split
      · exact .stays rfl rfl rfl rfl
      · exact .cleaned rfl rfl (.inr ⟨‹_›, rfl⟩)
  | cancelClick =>
      rw [step, cancelClick]
      split
      · exact .cleaned rfl rfl (.inr ⟨‹_›, rfl⟩)
      · exact .stays rfl rfl rfl rfl
  | disconnect => exact .cleaned rfl rfl (.inl rfl)
  | railExecResult session execResult =>
      rw [step, railExecResult]
      split <;> exact .stays rfl rfl rfl rfl
  | execTimer =>
      rw [step, execTimer]
      split
      · exact .stays rfl rfl rfl rfl
      · exact .cleaned rfl rfl (.inl rfl)
  | exitTimer =>
      rw [step, exitTimer]
      split
      · dsimp only
        split
        · exact .cleaned rfl rfl (.inl rfl)
        · exact .stays rfl rfl rfl rfl
      · exact .stays rfl rfl rfl rfl
  | _ => exact absurd h Bool.false_ne_true

/-- Without a session and with nothing to add, a blank state stays blank. -/
theorem blank_step {p : Page} (hs : p.session = none) (h : p.perSession = .blank)
    (e : PageEvent) (hadds : ¬ e.adds p) : (p.step e).perSession = .blank := by
  by_cases hown : e.isOwn
  · cases p.ownStep hown with
    | stays _ hsame => exact hsame.trans h
    | cleaned hblank => exact hblank
    | retried _ hreset => exact hreset.trans (blank_resetClipboardState h)
  have halt : p.keyboard.altTabHolding = false := congrArg PerSession.altTabHolding h
  have hheld : p.keyboard.heldPaste = none := congrArg PerSession.heldPaste h
  have hadverts : p.keyboard.advertsInFlight = 0 := congrArg PerSession.advertsInFlight h
  have hsend : ∀ b, (p.typed (p.keyboard.sendHeldPaste b)).perSession = .blank := by
    intro b
    exact blank_typed h halt rfl hadverts
  cases e with
  | probed h264 => exact h
  | connected path width height =>
      rw [step]
      split
      · exact (perSession_connected p path width height).trans h
      · exact h
  | sessionEnded session reason brief => exact blank_sessionEnded h reason brief
  | rail session event =>
      refine blank_rail h ?_ ?_
      · rintro info rfl
        exact hadds trivial
      · rintro id rfl
        exact hadds trivial
  | avc420Frame session surfaceId width height isKeyframe configures decodes =>
      exact blank_avc420Frame h (Bool.eq_false_iff.mpr hadds) ..
  | avc420Closed session surfaceId => exact blank_avc420Closed h surfaceId
  | decoderError surfaceId => exact blank_avc420Closed h surfaceId
  | keyDown clipboardEnabled e =>
      rw [step, onKeyDown, hs]
      exact h
  | keyUp code =>
      rw [step, hs]
      exact h
  | blur =>
      rw [step, hs]
      exact h
  | paste outcome =>
      rw [step, hs]
      exact blank_typed h halt rfl hadverts
  | pasteRead reads sends =>
      rw [step, hs]
      split
      · exact h
      · exact hsend _
  | advert sends =>
      rw [step, hs]
      exact h
  | formatListAck session =>
      rw [step, Keyboard.formatListAck, hadverts]
      have hnone : ¬ (0 - 1 = 0 ∧ (p.keyboard.heldPaste).isSome) := by
        rw [hheld]
        rintro ⟨-, hheld⟩
        cases hheld
      rw [if_neg hnone]
      exact blank_typed h halt hheld rfl
  | replayTimer =>
      rw [step]
      split
      · exact hsend _
      · exact h
  | _ => exact absurd rfl hown

end Page

/-! ## The current session -/

/-- Between two states there is no new session, and where one stays its
windows stay and the overlay is not shown. -/
structure Kept (p p' : Page) : Prop where
  session : p.session = none → p'.session = none
  windows : p'.session ≠ none → p'.rail.windows = p.rail.windows
  overlay : p'.session ≠ none → p'.overlayShown → p.overlayShown

namespace Kept

theorem of_none {p p' : Page} (h : p'.session = none) : Kept p p' :=
  ⟨fun _ => h, fun hs => absurd h hs, fun hs => absurd h hs⟩

theorem refl (p : Page) : Kept p p := ⟨id, fun _ => rfl, fun _ => id⟩

theorem trans {p q r : Page} (hpq : Kept p q) (hqr : Kept q r) : Kept p r where
  session := fun hs => hqr.session (hpq.session hs)
  windows := by
    intro hs
    have hq : q.session ≠ none := fun hq => hs (hqr.session hq)
    exact (hqr.windows hs).trans (hpq.windows hq)
  overlay := by
    intro hs ho
    have hq : q.session ≠ none := fun hq => hs (hqr.session hq)
    exact hpq.overlay hq (hqr.overlay hs ho)

/-- Where the session, the windows and the overlay are the same. -/
theorem of_eq {p p' : Page} (hs : p'.session = p.session)
    (hw : p'.rail.windows = p.rail.windows) (ho : p'.overlayShown = p.overlayShown) :
    Kept p p' :=
  ⟨fun h => hs.trans h, fun _ => hw, fun _ h => ho ▸ h⟩

theorem typed (p : Page) (r : Keyboard × List KeyStroke) : Kept p (p.typed r) where
  session := by
    intro hs
    have hmap : (p.typed r).session = p.session.map (·.sendKeyboard r.2) := rfl
    rw [hmap, hs]
    rfl
  windows := fun _ => rfl
  overlay := fun _ => id

theorem attemptReconnect (p : Page) : Kept p p.attemptReconnect := by
  unfold Page.attemptReconnect
  split
  · exact refl p
  split
  · exact of_eq rfl rfl rfl
  · exact of_eq rfl rfl rfl

theorem sessionEnded (p : Page) (reason : EndReason) (brief : Bool) :
    Kept p (p.sessionEnded reason brief) := by
  apply of_none
  unfold Page.sessionEnded
  dsimp only
  split
  · rfl
  split
  · rfl
  split
  · rfl
  split
  · by_cases hgive : brief ∧ Page.MAX_FLAPS ≤
        if brief then (p.setSession none).flapCount + 1 else 0
    · rw [if_pos hgive]
      rfl
    · rw [if_neg hgive]
      exact (attemptReconnect _).session rfl
  · rfl

theorem avc420Frame (p : Page) (surfaceId width height : UInt16)
    (isKeyframe configures decodes : Bool) :
    Kept p (p.avc420Frame surfaceId width height isKeyframe configures decodes) := by
  obtain ⟨decoders, heq⟩ := p.avc420Frame_eq surfaceId width height isKeyframe configures decodes
  rw [heq]
  exact of_eq rfl rfl rfl

theorem onKeyDown (p : Page) (clipboardEnabled : Bool) (e : KeyEvent) :
    Kept p (p.onKeyDown clipboardEnabled e) := by
  unfold Page.onKeyDown
  split
  · dsimp only
    split
    · exact of_none rfl
    · exact typed p _
  · exact refl p

end Kept

/-! ## Runs with memory -/

structure Turnover where
  page : Page
  /-- The windows that the current session has announced and not deleted. -/
  announced : Finset UInt32
  /-- A connection is under way with something left over from before. -/
  tainted : Prop
  /-- The last event made a session current. -/
  begun : Prop

namespace Turnover

def initial (windowedMode : Bool) : Turnover where
  page := .initial windowedMode
  announced := ∅
  tainted := False
  begun := False

/-- Nothing is left, and the login form is shown. -/
def Cleaned (p : Page) : Prop := p.loginShown = true ∧ p.perSession = .blank

/-- The session `n` is current. -/
def IsCurrent (p : Page) (n : Nat) : Prop := ∃ s, p.session = some s ∧ s.number = n

instance (p : Page) (n : Nat) : Decidable (IsCurrent p n) :=
  match h : p.session with
  | none => .isFalse (by simp [IsCurrent, h])
  | some s => decidable_of_iff (s.number = n) (by simp [IsCurrent, h])

/-- A connection is tainted when it starts and its path leaves something in
place; and one under way when a callback adds something while there is no
session, or when a session ends. -/
def taintedAfter (t : Turnover) (e : PageEvent) : Prop :=
  let p := t.page
  let p' := p.step e
  ¬ Cleaned p' ∧
    ((p.inFlight.length < p'.inFlight.length ∧ p'.perSession ≠ .blank) ∨
      (p.inFlight ≠ [] ∧ (t.tainted ∨ (p.session = none ∧ e.adds p) ∨
        (p.session ≠ none ∧ p'.session = none))))

def announcedAfter (t : Turnover) : PageEvent → Finset UInt32
  | .connected path _ _ => if path ∈ t.page.inFlight then ∅ else t.announced
  | .rail n (.newOrUpdate info) =>
      if IsCurrent t.page n then insert info.windowId t.announced else t.announced
  | .rail n (.deleted id) =>
      if IsCurrent t.page n then t.announced.erase id else t.announced
  | _ => t.announced

def beginsWith (p : Page) : PageEvent → Prop
  | .connected path _ _ => path ∈ p.inFlight
  | _ => False

def step (t : Turnover) (e : PageEvent) : Turnover where
  page := t.page.step e
  announced := t.announcedAfter e
  tainted := t.taintedAfter e
  begun := beginsWith t.page e

/-- A session that becomes current finds what `cleanupSession` leaves, and
while it is current the windows are its own. -/
structure Separated (t : Turnover) : Prop where
  fresh : t.begun → t.page.perSession = t.page.cleanupSession.perSession
  own : t.page.session ≠ none → ∀ id, id ∈ t.page.rail.windows.keys ↔ id ∈ t.announced

/-- A callback of a session that is not current leaves the set of windows
alone. -/
def Harmless (m : RailManager) : WindowEvent → Prop
  | .newOrUpdate info => info.windowId ∈ m.windows.keys
  | .deleted id => id ∉ m.windows.keys
  | _ => True

/-- A connection gives a session only if no other session is current and
nothing taints it; no callback of another session changes the windows of the
current one; and a connection that fails, or the timer of the last attempt,
finds no session. -/
def Fits (t : Turnover) : PageEvent → Prop
  | .connected path _ _ => path ∈ t.page.inFlight → t.page.session = none ∧ ¬ t.tainted
  | .connectFailed .redirected =>
      .redirected ∈ t.page.inFlight → t.page.session = none
  | .giveUp => t.page.giveUpTimers ≠ 0 → t.page.session = none
  | .rail n event =>
      t.page.session ≠ none → ¬ IsCurrent t.page n → Harmless t.page.rail event
  | _ => True

/-- Only a page without a session is cleaned up under it. -/
theorem session_of_cleansUnder {t : Turnover} {e : PageEvent}
    (hoverlay : t.page.overlayShown → t.page.session = none) (hfits : Fits t e)
    (h : e.cleansUnder t.page) : t.page.session = none := by
  cases e with
  | connectFailed path =>
      obtain ⟨hpath, rfl⟩ := h
      exact hfits hpath
  | giveUp => exact hfits h
  | cancelClick => exact hoverlay h
  | _ => exact h.elim

/-- What else can happen to the current session. -/
theorem kept_step {t : Turnover} {e : PageEvent}
    (hoverlay : t.page.overlayShown → t.page.session = none) (hfits : Fits t e)
    (hrail : ∀ n event, e ≠ .rail n event) (hbegins : ¬ beginsWith t.page e) :
    Kept t.page (t.page.step e) := by
  by_cases hown : e.isOwn
  · cases t.page.ownStep hown with
    | stays hsession hsame _ hshown =>
        exact .of_eq hsession (congrArg PerSession.railWindows hsame) hshown
    | cleaned _ _ hsession =>
        obtain hnone | ⟨hunder, hsession⟩ := hsession
        · exact .of_none hnone
        · exact .of_none (hsession.trans (session_of_cleansUnder hoverlay hfits hunder))
    | retried hnone => exact .of_none hnone
  set p := t.page with hp
  cases e with
  | probed h264 => exact .of_eq rfl rfl rfl
  | connected path width height =>
      have hpath : path ∉ p.inFlight := hbegins
      rw [Page.step, if_neg hpath]
      exact .refl p
  | sessionEnded session reason brief => exact .sessionEnded p reason brief
  | rail session event => exact absurd rfl (hrail session event)
  | avc420Frame session surfaceId width height isKeyframe configures decodes =>
      exact .avc420Frame p ..
  | avc420Closed session surfaceId => exact .of_eq rfl rfl rfl
  | decoderError surfaceId => exact .of_eq rfl rfl rfl
  | keyDown clipboardEnabled e => exact .onKeyDown p clipboardEnabled e
  | keyUp code =>
      rw [Page.step]
      split
      · exact .typed p _
      · exact .refl p
  | blur =>
      rw [Page.step]
      split
      · exact .typed p _
      · exact .refl p
  | paste outcome => exact .typed p _
  | pasteRead reads sends =>
      rw [Page.step]
      split
      · split
        · exact .typed p _
        · exact .refl p
      · exact .typed p _
  | advert sends =>
      rw [Page.step]
      split
      · exact .typed p _
      · exact .refl p
  | formatListAck session => exact .typed p _
  | replayTimer =>
      rw [Page.step]
      split
      · exact .typed p _
      · exact .refl p
  | _ => exact absurd rfl hown

/-- While nothing taints the connection under way, a session would find a
blank state. -/
def Ready (t : Turnover) : Prop :=
  t.page.session = none → t.page.inFlight ≠ [] → ¬ t.tainted → t.page.perSession = .blank

theorem ready_step {t : Turnover} (h : t.Ready) (e : PageEvent) : (t.step e).Ready := by
  intro hs hflight htaint
  change (t.page.step e).session = none at hs
  change (t.page.step e).inFlight ≠ [] at hflight
  change ¬ t.taintedAfter e at htaint
  change (t.page.step e).perSession = .blank
  by_contra hblank
  have hnot : ¬ ((t.page.inFlight.length < (t.page.step e).inFlight.length ∧
      (t.page.step e).perSession ≠ .blank) ∨
      (t.page.inFlight ≠ [] ∧ (t.tainted ∨ (t.page.session = none ∧ e.adds t.page) ∨
        (t.page.session ≠ none ∧ (t.page.step e).session = none)))) := by
    intro hor
    exact htaint ⟨fun hclean => hblank hclean.2, hor⟩
  push Not at hnot
  obtain ⟨hstart, hwait⟩ := hnot
  -- no connection started, so one was under way before
  have hlonger : ¬ t.page.inFlight.length < (t.page.step e).inFlight.length :=
    fun hlt => hblank (hstart hlt)
  have hflight' : t.page.inFlight ≠ [] := by
    intro hnil
    rw [hnil] at hlonger
    exact hlonger (List.length_pos_iff.mpr hflight)
  obtain ⟨htainted, hadds, hended⟩ := hwait hflight'
  have hs' : t.page.session = none := by
    by_contra hsome
    exact hended hsome hs
  exact hblank (Page.blank_step hs' (h hs' hflight' htainted) e (hadds hs'))

/-- The invariant of a run. -/
structure Inv (t : Turnover) : Prop where
  separated : t.Separated
  ready : t.Ready
  overlay : t.page.overlayShown → t.page.session = none

theorem inv_initial (windowedMode : Bool) : (initial windowedMode).Inv where
  separated := ⟨False.elim, fun hs => absurd rfl hs⟩
  ready := fun _ hflight => absurd rfl hflight
  overlay := fun _ => rfl

theorem inv_connected {t : Turnover} (h : t.Inv) {path : ConnectPath} {width height : UInt16}
    (hpath : path ∈ t.page.inFlight) (hfits : Fits t (.connected path width height)) :
    (t.step (.connected path width height)).Inv := by
  obtain ⟨hs, htaint⟩ := hfits hpath
  have hblank : t.page.perSession = .blank :=
    h.ready hs (List.ne_nil_of_mem hpath) htaint
  have hpage : (t.step (.connected path width height)).page =
      t.page.connected path width height := if_pos hpath
  have hblank' : (t.step (.connected path width height)).page.perSession = .blank := by
    rw [hpage, Page.perSession_connected]
    exact hblank
  refine ⟨⟨fun _ => hblank', ?_⟩, ready_step h.ready _, ?_⟩
  · intro _ id
    have hannounced : (t.step (.connected path width height)).announced = ∅ := if_pos hpath
    have hwindows : (t.step (.connected path width height)).page.rail.windows = .empty :=
      congrArg PerSession.railWindows hblank'
    rw [hannounced, hwindows]
    simp [InsertionMap.keys, InsertionMap.empty]
  · rw [hpage]
    intro hshown
    cases path <;> cases hshown

theorem inv_rail {t : Turnover} (h : t.Inv) {n : Nat} {event : WindowEvent}
    (hfits : Fits t (.rail n event)) : (t.step (.rail n event)).Inv := by
  refine ⟨⟨False.elim, ?_⟩, ready_step h.ready _, ?_⟩
  · intro hs id
    have hs' : t.page.session ≠ none :=
      fun hnone => hs (RailManager.session_dispatchEvent hnone event)
    have hown := h.separated.own hs' id
    have hkeys := t.page.rail.mem_keys_dispatchEvent event id
    change id ∈ (t.page.rail.dispatchEvent event).windows.keys ↔
      id ∈ t.announcedAfter (.rail n event)
    rw [hkeys]
    by_cases hn : IsCurrent t.page n
    · cases event with
      | newOrUpdate info => simp [announcedAfter, hn, hown]
      | deleted d => simp [announcedAfter, hn, hown]
      | zOrder ids => exact hown
      | activeWindow w => exact hown
      | icon w width height rgba => exact hown
    · have hharmless := hfits hs' hn
      cases event with
      | newOrUpdate info =>
          simp only [announcedAfter, hn, if_false, ← hown]
          refine ⟨?_, .inr⟩
          rintro (rfl | hid)
          · exact hharmless
          · exact hid
      | deleted d =>
          simp only [announcedAfter, hn, if_false, ← hown]
          refine ⟨And.right, fun hid => ⟨?_, hid⟩⟩
          rintro rfl
          exact hharmless hid
      | zOrder ids => exact hown
      | activeWindow w => exact hown
      | icon w width height rgba => exact hown
  · intro hshown
    exact RailManager.session_dispatchEvent (h.overlay hshown) event

theorem inv_step {t : Turnover} {e : PageEvent} (h : t.Inv) (hfits : Fits t e) :
    (t.step e).Inv := by
  by_cases hbegins : beginsWith t.page e
  · cases e with
    | connected path width height => exact inv_connected h hbegins hfits
    | _ => exact hbegins.elim
  by_cases hrail : ∃ n event, e = .rail n event
  · obtain ⟨n, event, rfl⟩ := hrail
    exact inv_rail h hfits
  have hkept : Kept t.page (t.step e).page :=
    kept_step h.overlay hfits (fun n event he => hrail ⟨n, event, he⟩) hbegins
  have hannounced : (t.step e).announced = t.announced := by
    cases e with
    | connected path width height => exact if_neg hbegins
    | rail n event => exact absurd ⟨n, event, rfl⟩ hrail
    | _ => rfl
  refine ⟨⟨fun hbegun => absurd hbegun hbegins, ?_⟩, ready_step h.ready e, ?_⟩
  · intro hs id
    rw [hannounced, hkept.windows hs]
    exact h.separated.own (fun hnone => hs (hkept.session hnone)) id
  · intro hshown
    by_contra hs
    exact hs (hkept.session (h.overlay (hkept.overlay hs hshown)))

/-- Where every event of a run fits, no session finds anything of an earlier
one. -/
theorem always_separated {windowedMode : Bool} {es : List PageEvent}
    (h : Runs.Each step Fits (initial windowedMode) es) :
    Runs.Always step Separated (initial windowedMode) es := by
  have hinv : Runs.Always step Inv (initial windowedMode) es :=
    Runs.always_of_each (fun _ _ _ => inv_step) (inv_initial windowedMode) h
  intro pre hpre
  exact (hinv pre hpre).separated

def someone : Credentials := ⟨"user", "password", ""⟩

/-- A window with no fields but its id. -/
def bareWindow (windowId : UInt32) : WindowInfo where
  windowId
  isNew := true
  title := none
  x := none
  y := none
  width := none
  height := none
  showState := none
  visibilityRects := none

/-- A login with an application, and its first window. -/
def oneWindow : List PageEvent :=
  [.submit someone "notepad", .connected (.login someone) 1 1,
    .rail 0 (.newOrUpdate (bareWindow 7))]

/-- A second login, after the user has disconnected. -/
def loginTwice : List PageEvent :=
  oneWindow ++ [.disconnect, .submit someone "", .connected (.login someone) 1 1]

theorem each_fits_loginTwice : Runs.Each step Fits (initial false) loginTwice := by
  rw [loginTwice, oneWindow]
  simp only [List.cons_append, List.nil_append, Runs.each_cons]
  refine ⟨trivial, fun _ => ?_, fun _ hn => ?_, trivial, trivial, fun _ => ?_, Runs.each_nil⟩
  · exact ⟨rfl, fun htaint => htaint.1 ⟨rfl, rfl⟩⟩
  · exact absurd ⟨_, rfl, rfl⟩ hn
  · exact ⟨rfl, fun htaint => htaint.1 ⟨rfl, rfl⟩⟩

theorem always_separated_loginTwice : Runs.Always step Separated (initial false) loginTwice :=
  always_separated each_fits_loginTwice

/-- The connection is lost, and the page reconnects. -/
def reconnectOnce : List PageEvent :=
  oneWindow ++ [.sessionEnded 0 .connectionLost false, .reconnectTimer true,
    .connected (.reconnect someone) 1 1]

/-- The second session begins with the window of the first. -/
theorem not_always_separated : ¬ ∀ (windowedMode : Bool) (es : List PageEvent),
    Runs.Always step Separated (initial windowedMode) es := by
  intro h
  have hlast := h false reconnectOnce reconnectOnce (List.prefix_refl _)
  have hbegun : (reconnectOnce.foldl step (initial false)).begun := by
    change ConnectPath.reconnect someone ∈ [ConnectPath.reconnect someone]
    exact List.mem_singleton_self _
  have hkeys := congrArg (fun s => s.railWindows.keys) (hlast.fresh hbegun)
  have hseven : (reconnectOnce.foldl step (initial false)).page.rail.windows.keys = [7] := rfl
  exact absurd (hseven.symm.trans hkeys) (by decide)

end Turnover

end WasmRdp
