import WasmRdp.PasteKey

/-!
# The life cycle of the page's sessions

Most of what happens on a page has no part in the life cycle of its sessions:
window orders, frames, keys and the clipboard change neither the current
session's number nor the variables of the login form, the reconnect overlay
and the reconnect counters (`Page.life`). `life_step_of_quiet` says so once
for all these events, so that an invariant over these variables is left with
the few events that are not quiet.

For window orders that takes an argument, because they write to the session:
they declare surfaces in it and send it activations. The session keeps its
number through all that (`number_dispatchEvent`).

The end of a session has the most branches, which `sessionEnded_cases` lists:
back to the login form (`EndsAtLogin`), or on to a reconnect (`Retries`); a
redirect is a case of its own. What each does to the variables of the life
cycle is a lemma, so that the callers do not unfold the handler.

Two consequences are needed in several places. Only a connection that succeeds
makes another session current (`noNewSession_step`), and under the reconnect
overlay there is no session (`session_of_overlay_step`).
-/

namespace WasmRdp

/-- The variables of the life cycle, with the number of the current session. -/
structure Life where
  session : Option Nat
  loginShown : Bool
  connecting : Bool
  overlayShown : Bool
  savedCredentials : Option Credentials
  isUserDisconnect : Bool
  reconnectAttempt : Nat
  flapCount : Nat
  timers : Nat
  timerHeld : Bool
  giveUpTimers : Nat
  execTimers : Nat
  inFlight : List ConnectPath
  sessions : Nat
  deriving DecidableEq

def Page.life (p : Page) : Life where
  session := p.session.map (·.number)
  loginShown := p.loginShown
  connecting := p.connecting
  overlayShown := p.overlayShown
  savedCredentials := p.savedCredentials
  isUserDisconnect := p.isUserDisconnect
  reconnectAttempt := p.reconnectAttempt
  flapCount := p.flapCount
  timers := p.timers
  timerHeld := p.timerHeld
  giveUpTimers := p.giveUpTimers
  execTimers := p.execTimers
  inFlight := p.inFlight
  sessions := p.sessions

/-! ## The window manager -/

namespace RailManager

/-- The number of the current session. -/
def number (m : RailManager) : Option Nat := m.session.map (·.number)

theorem number_declareSurface (s : Session) (entry : UInt32 × RailWin) :
    (declareSurface s entry).number = s.number := by
  unfold declareSurface
  dsimp only
  split <;> rfl

theorem number_foldl_declareSurface (entries : List (UInt32 × RailWin)) (s : Session) :
    (entries.foldl declareSurface s).number = s.number := by
  induction entries generalizing s with
  | nil => rfl
  | cons entry entries ih =>
      rw [List.foldl_cons, ih, number_declareSurface]

theorem number_rebuildSurfaces (m : RailManager) : m.rebuildSurfaces.number = m.number := by
  rw [number, rebuildSurfaces, Option.map_map]
  cases hs : m.session with
  | none => rw [number, hs]; rfl
  | some s =>
      rw [number, hs, Option.map_some, Option.map_some]
      exact congrArg some (number_foldl_declareSurface ..)

theorem number_maximizeFirst (m : RailManager) (id : UInt32) :
    (m.maximizeFirst id).number = m.number := by
  unfold maximizeFirst
  split
  · rfl
  split
  · rename_i win s hwin hs
    split
    · rfl
    · rw [number, number, hs]
      rfl
  · rfl

theorem number_railWindow (m : RailManager) (c : RailWindowCall) :
    (m.railWindow c).number = m.number := by
  unfold railWindow
  dsimp only
  split
  · rw [number_rebuildSurfaces]
    split
    · split
      · rw [number_maximizeFirst]
        rfl
      · rfl
    · rfl
  · split
    · split
      · rw [number_maximizeFirst]
        rfl
      · rfl
    · rfl

/-- Window orders leave the current session current. -/
theorem number_dispatchEvent (m : RailManager) (event : WindowEvent) :
    (m.dispatchEvent event).number = m.number := by
  cases event with
  | newOrUpdate w => exact m.number_railWindow _
  | deleted id =>
      rw [dispatchEvent, railWindowDeleted]
      split
      · rfl
      · exact number_rebuildSurfaces _
  | icon id width height rgba =>
      rw [dispatchEvent, railIcon]
      split <;> rfl
  | zOrder ids => rfl
  | activeWindow id => exact number_maximizeFirst _ id

end RailManager

/-! ## Events without a part in it -/

/-- The event has no part in the life cycle. -/
def PageEvent.isQuiet : PageEvent → Bool
  | .probed _ => true
  | .rail .. => true
  | .avc420Frame .. => true
  | .avc420Closed .. => true
  | .decoderError _ => true
  | .keyDown _ e => Keyboard.shortcutOf e ≠ some .disconnect
  | .keyUp _ => true
  | .blur => true
  | .paste _ => true
  | .pasteRead .. => true
  | .advert _ => true
  | .formatListAck _ => true
  | .replayTimer => true
  | _ => false

/-- The event that makes a session current. -/
def PageEvent.connects : PageEvent → Bool
  | .connected .. => true
  | _ => false

namespace Page

section

variable (p : Page)

theorem life_typed (r : Keyboard × List KeyStroke) : (p.typed r).life = p.life := by
  have hnumber : (p.typed r).session.map (·.number) = p.session.map (·.number) := by
    change (p.session.map (·.sendKeyboard r.2)).map (·.number) = _
    cases p.session <;> rfl
  unfold life
  rw [hnumber]
  rfl

theorem life_rail (event : WindowEvent) :
    ({ p with rail := p.rail.dispatchEvent event } : Page).life = p.life := by
  have hnumber := p.rail.number_dispatchEvent event
  rw [RailManager.number, RailManager.number] at hnumber
  unfold life
  change Life.mk ((p.rail.dispatchEvent event).session.map (·.number)) _ _ _ _ _ _ _ _ _ _ _ _ _ = _
  rw [hnumber]
  rfl

theorem life_onKeyDown (clipboardEnabled : Bool) {e : KeyEvent}
    (h : Keyboard.shortcutOf e ≠ some .disconnect) :
    (p.onKeyDown clipboardEnabled e).life = p.life := by
  unfold onKeyDown
  split
  · dsimp only
    rw [Keyboard.shortcut_onKeyDown, if_neg h]
    exact p.life_typed _
  · rfl

end

theorem life_step_of_quiet (p : Page) {e : PageEvent} (h : e.isQuiet) :
    (p.step e).life = p.life := by
  cases e with
  | probed h264 => rfl
  | rail session event => exact p.life_rail event
  | avc420Frame session surfaceId width height isKeyframe configures decodes =>
      obtain ⟨decoders, heq⟩ :=
        p.avc420Frame_eq surfaceId width height isKeyframe configures decodes
      rw [step, heq]
      rfl
  | avc420Closed session surfaceId => rfl
  | decoderError surfaceId => rfl
  | keyDown clipboardEnabled e =>
      exact p.life_onKeyDown clipboardEnabled (of_decide_eq_true h)
  | keyUp code =>
      rw [step]
      split
      · exact p.life_typed _
      · rfl
  | blur =>
      rw [step]
      split
      · exact p.life_typed _
      · rfl
  | paste outcome => exact p.life_typed _
  | pasteRead reads sends =>
      rw [step]
      split
      · split
        · exact p.life_typed _
        · rfl
      · exact p.life_typed _
  | advert sends =>
      rw [step]
      split
      · exact p.life_typed _
      · rfl
  | formatListAck session => exact p.life_typed _
  | replayTimer =>
      rw [step]
      split
      · exact p.life_typed _
      · rfl
  | _ => cases h

/-- The attempts that an event begins. -/
def begun (p : Page) (e : PageEvent) : List ConnectPath :=
  (p.step e).inFlight.drop p.inFlight.length

end Page

/-! ## The end of a session -/

/-- The end report leads to a reconnect. -/
structure Retries (p : Page) (reason : EndReason) (brief : Bool) : Prop where
  lost : reason = .connectionLost
  savedCredentials : p.savedCredentials.isSome
  isUserDisconnect : p.isUserDisconnect = false
  railApp : ¬ (p.rail.inUse = true ∧ p.rail.windows.entries = [])
  flaps : ¬ (brief = true ∧ Page.MAX_FLAPS ≤ p.flapCount + 1)

/-- What a report that leads back to the login form does. -/
structure EndsAtLogin (p p' : Page) : Prop where
  session : p'.session = none
  loginShown : p'.loginShown = true
  connecting : p'.connecting = false
  overlayShown : p'.overlayShown = false
  savedCredentials : p'.savedCredentials = p.savedCredentials
  inFlight : p'.inFlight = p.inFlight
  timers : p'.timers ≤ p.timers
  giveUpTimers : p'.giveUpTimers = p.giveUpTimers

theorem EndsAtLogin.cleanup (p : Page) : EndsAtLogin p (p.setSession none).cleanupSession :=
  ⟨rfl, rfl, rfl, rfl, rfl, rfl, le_rfl, rfl⟩

theorem EndsAtLogin.cancelReconnect (p : Page) :
    EndsAtLogin p (p.setSession none).cancelReconnect.cleanupSession := by
  refine ⟨rfl, rfl, rfl, rfl, rfl, rfl, ?_, rfl⟩
  change (if p.timerHeld then p.timers - 1 else p.timers) ≤ p.timers
  split
  · exact Nat.sub_le _ _
  · exact le_rfl

/-- The branches of a report that is no redirect. -/
theorem sessionEnded_cases (p : Page) {reason : EndReason} (brief : Bool)
    (hreason : reason ≠ .redirected) :
    (¬ Retries p reason brief ∧ EndsAtLogin p (p.sessionEnded reason brief)) ∨
      (Retries p reason brief ∧ p.sessionEnded reason brief =
        Page.attemptReconnect
          { p.setSession none with
            flapCount := if brief then p.flapCount + 1 else 0
            overlayShown := true }) := by
  unfold Page.sessionEnded
  dsimp only
  rw [if_neg hreason]
  split
  · rename_i hrail
    left
    exact ⟨fun h => h.railApp ⟨hrail.1, hrail.2.1⟩, .cancelReconnect p⟩
  rename_i hrail
  split
  · rename_i hserver
    left
    refine ⟨fun h => ?_, .cancelReconnect p⟩
    obtain ⟨hwhich, -⟩ := hserver
    rw [h.lost] at hwhich
    obtain hwhich | hwhich := hwhich <;> cases hwhich
  split
  · rename_i hlost
    obtain ⟨rfl, hsaved, huser⟩ := hlost
    rw [Bool.not_eq_true'] at huser
    have happ : ¬ (p.rail.inUse = true ∧ p.rail.windows.entries = []) := by
      rintro ⟨hinUse, hempty⟩
      exact hrail ⟨hinUse, hempty, by rw [Bool.not_eq_true']; exact huser, .inr rfl⟩
    cases brief with
    | true =>
        by_cases hflaps : Page.MAX_FLAPS ≤ p.flapCount + 1
        · left
          refine ⟨fun h => h.flaps ⟨rfl, hflaps⟩, ?_⟩
          rw [if_pos ⟨rfl, hflaps⟩]
          exact ⟨rfl, rfl, rfl, rfl, rfl, rfl, (EndsAtLogin.cancelReconnect p).timers, rfl⟩
        · right
          refine ⟨⟨rfl, hsaved, huser, happ, fun h => hflaps h.2⟩, ?_⟩
          exact if_neg fun h => hflaps h.2
    | false =>
        right
        exact ⟨⟨rfl, hsaved, huser, happ, nofun⟩, if_neg nofun⟩
  · rename_i hlost
    left
    refine ⟨fun h => hlost ⟨h.lost, h.savedCredentials, ?_⟩, .cleanup p⟩
    have huser : (p.setSession none).isUserDisconnect = false := h.isUserDisconnect
    rw [huser]
    rfl

namespace Page

/-! ## The current session -/

theorem life_session_isSome (p : Page) : p.life.session.isSome = p.session.isSome :=
  Option.isSome_map

theorem life_session_iff (p : Page) : p.life.session = none ↔ p.session = none :=
  Option.map_eq_none_iff

/-- No session has begun from `p` to `p'`; and where the overlay has come up,
there is none. -/
structure NoNewSession (p p' : Page) : Prop where
  sessions : p'.sessions = p.sessions
  current : p'.life.session = none ∨ p'.life.session = p.life.session
  overlay : p'.overlayShown → p.overlayShown ∨ p'.session = none

namespace NoNewSession

theorem refl (p : Page) : NoNewSession p p := ⟨rfl, .inr rfl, .inl⟩

theorem of_life {p p' : Page} (h : p'.life = p.life) : NoNewSession p p' where
  sessions := congrArg Life.sessions h
  current := .inr (congrArg Life.session h)
  overlay := by
    intro hshown
    have hsame : p'.overlayShown = p.overlayShown := congrArg Life.overlayShown h
    exact .inl (hsame ▸ hshown)

/-- Where the session is dropped. -/
theorem ended {p p' : Page} (hsessions : p'.sessions = p.sessions) (hnone : p'.session = none) :
    NoNewSession p p' :=
  ⟨hsessions, .inl (Option.map_eq_none_iff.mpr hnone), fun _ => .inr hnone⟩

/-- Where the overlay is taken down. -/
theorem hidden {p p' : Page} (hsessions : p'.sessions = p.sessions)
    (hcurrent : p'.life.session = p.life.session) (hhidden : p'.overlayShown = false) :
    NoNewSession p p' := by
  refine ⟨hsessions, .inr hcurrent, fun hshown => ?_⟩
  rw [hhidden] at hshown
  cases hshown

theorem attemptReconnect (p : Page) : NoNewSession p p.attemptReconnect := by
  unfold Page.attemptReconnect
  split
  · exact refl p
  · split <;> exact ⟨rfl, .inr rfl, .inl⟩

theorem sessionEnded (p : Page) (reason : EndReason) (brief : Bool) :
    NoNewSession p (p.sessionEnded reason brief) := by
  unfold Page.sessionEnded
  dsimp only
  split
  · exact ended rfl rfl
  split
  · exact ended rfl rfl
  split
  · exact ended rfl rfl
  split
  · by_cases hgive : brief ∧ MAX_FLAPS ≤ if brief then (p.setSession none).flapCount + 1 else 0
    · rw [if_pos hgive]
      exact ended rfl rfl
    · rw [if_neg hgive]
      obtain ⟨hsessions, hcurrent, -⟩ := attemptReconnect
        { p.setSession none with
          flapCount := if brief then (p.setSession none).flapCount + 1 else 0
          overlayShown := true }
      exact ended hsessions ((life_session_iff _).mp (hcurrent.elim id id))
  · exact ended rfl rfl

end NoNewSession

/-- Only a connection that succeeds makes another session current. -/
theorem noNewSession_step (p : Page) {e : PageEvent} (h : ¬ e.connects) :
    NoNewSession p (p.step e) := by
  by_cases hquiet : e.isQuiet
  · exact .of_life (p.life_step_of_quiet hquiet)
  cases e with
  | connected path width height => exact absurd rfl h
  | submit credentials railProgram =>
      rw [step, submit]
      split <;> exact ⟨rfl, .inr rfl, .inl⟩
  | connectFailed path =>
      rw [step]
      split
      · cases path with
        | login credentials => exact ⟨rfl, .inr rfl, .inl⟩
        | reconnect credentials =>
            obtain ⟨hsessions, hcurrent, hoverlay⟩ := NoNewSession.attemptReconnect
              { p with inFlight := p.inFlight.erase (.reconnect credentials) }
            exact ⟨hsessions, hcurrent, hoverlay⟩
        | redirected => exact .hidden rfl rfl rfl
      · exact .refl p
  | reconnectTimer held =>
      rw [step, reconnectTimer]
      split
      · exact .refl p
      dsimp only
      split
      · exact .ended rfl rfl
      · exact ⟨rfl, .inr rfl, .inl⟩
  | giveUp =>
      rw [step, giveUp]
      split
      · exact .refl p
      · exact .hidden rfl rfl rfl
  | cancelClick =>
      rw [step, cancelClick]
      split
      · exact .hidden rfl rfl rfl
      · exact .refl p
  | disconnect => exact .ended rfl rfl
  | sessionEnded session reason brief => exact .sessionEnded p reason brief
  | railExecResult session execResult =>
      rw [step, railExecResult]
      split
      · exact .refl p
      · exact ⟨rfl, .inr rfl, .inl⟩
  | execTimer =>
      rw [step, execTimer]
      split
      · exact .refl p
      · exact .ended rfl rfl
  | exitTimer =>
      rw [step, exitTimer]
      split
      · dsimp only
        split
        · exact .ended rfl rfl
        · exact ⟨rfl, .inr rfl, .inl⟩
      · exact .refl p
  | keyDown clipboardEnabled e =>
      rw [step, onKeyDown]
      split
      · dsimp only
        split
        · exact .ended rfl rfl
        · exact .of_life (p.life_typed _)
      · exact .refl p
  | _ => exact absurd rfl hquiet

/-- Under the reconnect overlay there is no session. -/
theorem session_of_overlay_step {p : Page} (h : p.overlayShown → p.session = none)
    (e : PageEvent) (hshown : (p.step e).overlayShown) : (p.step e).session = none := by
  by_cases hconnects : e.connects
  · cases e with
    | connected path width height =>
        rw [step] at hshown ⊢
        split at hshown
        · cases path <;> cases hshown
        · rename_i hpath
          rw [if_neg hpath]
          exact h hshown
    | _ => cases hconnects
  · obtain ⟨-, hcurrent, hoverlay⟩ := p.noNewSession_step hconnects
    obtain hbefore | hnone := hoverlay hshown
    · have hnone := (life_session_iff p).mpr (h hbefore)
      rw [hnone, or_self] at hcurrent
      exact (life_session_iff _).mp hcurrent
    · exact hnone

end Page

end WasmRdp
