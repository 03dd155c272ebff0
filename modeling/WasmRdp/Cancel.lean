import WasmRdp.Lib.Runs
import WasmRdp.PageLife
import WasmRdp.Turnover

/-!
# Cancelling

A click on the overlay's button, or a disconnect, clears the session, the
credentials and the reconnect timer, and shows the login form. What it does
not reach is a connection attempt that waits in an `await`: it has a promise
of the probes or of `wasm.connect` in its hands, and does not look at the
page again when that settles.

A `CancelRun` tells the attempts that still probe from those that have called
`wasm.connect`, and counts the connections that start after the cancel. As
long as no attempt comes out of its `await`, and no session's end reports a
redirect, the page stays as the cancel has left it (`Cancelled.step`): all
other steps find no credentials, and give up.

`Stays` is what a single step leaves of a cancelled page, stated for every
event but those that bring a session or begin an attempt. A cancel takes hold
at once, because under the overlay there is no session whose end could still
come (`cancelled_of_cancels`). In the other direction an attempt that settles
gives a session (`session_of_settles`), and a redirect begins a new attempt
(`begun_redirected`), so that the cancel is undone at that very step.

So `always_cancelWins_iff` is exact about the attempts that were under way
when the user cancelled; a login after the cancel ends the account.
-/

namespace WasmRdp

structure CancelRun where
  page : Page
  /-- Attempts that have not called `wasm.connect` yet. -/
  probing : List ConnectPath
  /-- The user has cancelled and not submitted the login form since. -/
  cancelled : Bool
  /-- Connections and attempts begun since the user has cancelled. -/
  started : Nat

/-- An event of the page; or an attempt has probed and calls `wasm.connect`. -/
inductive CancelEvent where
  | page (e : PageEvent)
  | called (path : ConnectPath)

namespace CancelRun

def initial (windowedMode : Bool) : CancelRun where
  page := .initial windowedMode
  probing := []
  cancelled := false
  started := 0

/-- The user cancels or disconnects. -/
def cancels (p : Page) : PageEvent → Bool
  | .cancelClick => p.overlayShown
  | .disconnect => true
  | .keyDown _ e => p.session.isSome && Keyboard.shortcutOf e = some .disconnect
  | _ => false

/-- The login form is submitted. -/
def submits (p : Page) : PageEvent → Bool
  | .submit .. => p.loginShown && !p.connecting
  | _ => false

/-- Only an attempt that has called `wasm.connect` settles. -/
def settles (s : CancelRun) (path : ConnectPath) : Bool :=
  s.probing.count path < s.page.inFlight.count path

def happens (s : CancelRun) : PageEvent → Bool
  | .connected path _ _ => s.settles path
  | .connectFailed path => s.settles path
  | _ => true

def step (s : CancelRun) : CancelEvent → CancelRun
  | .page e =>
      if s.happens e then
        { page := s.page.step e
          probing := s.probing ++ s.page.begun e
          cancelled := cancels s.page e || (s.cancelled && !submits s.page e)
          started := if cancels s.page e then 0 else s.started + (s.page.begun e).length }
      else s
  | .called path =>
      if path ∈ s.probing then
        { s with probing := s.probing.erase path, started := s.started + 1 }
      else s

/-- A cancel lasts until the login form is submitted. -/
def CancelWins (s : CancelRun) : Prop :=
  s.cancelled = true →
    s.page.session = none ∧ s.page.loginShown = true ∧ s.page.savedCredentials = none ∧
      s.started = 0

/-- No attempt comes out of its `await`, and no end of a session is a
redirect. -/
def Harmless (s : CancelRun) : CancelEvent → Prop
  | .page (.connected path _ _) => s.settles path = false
  | .page (.sessionEnded _ reason _) => reason ≠ .redirected
  | .page _ => True
  | .called path => path ∉ s.probing

def Fits (s : CancelRun) (e : CancelEvent) : Prop := s.cancelled = true → s.Harmless e

/-! ## A cancelled page -/

/-- As a cancel leaves the page. -/
structure Cancelled (p : Page) : Prop where
  session : p.session = none
  loginShown : p.loginShown = true
  savedCredentials : p.savedCredentials = none

namespace Cancelled

theorem of_life {p p' : Page} (h : Cancelled p) (hlife : p'.life = p.life) : Cancelled p' where
  session := by
    rw [← Page.life_session_iff, hlife, Page.life_session_iff]
    exact h.session
  loginShown := (congrArg Life.loginShown hlife).trans h.loginShown
  savedCredentials := (congrArg Life.savedCredentials hlife).trans h.savedCredentials

theorem disconnect (p : Page) : Cancelled p.disconnect := ⟨rfl, rfl, rfl⟩

theorem attemptReconnect {p : Page} (h : p.savedCredentials = none) : p.attemptReconnect = p := by
  rw [Page.attemptReconnect, h]
  rfl

theorem sessionEnded {p : Page} (h : Cancelled p) {reason : EndReason} {brief : Bool}
    (hreason : reason ≠ .redirected) :
    Cancelled (p.sessionEnded reason brief) ∧
      (p.sessionEnded reason brief).inFlight = p.inFlight := by
  obtain ⟨-, hends⟩ | ⟨hretries, -⟩ := sessionEnded_cases p brief hreason
  · exact ⟨⟨hends.session, hends.loginShown, hends.savedCredentials.trans h.savedCredentials⟩,
      hends.inFlight⟩
  · have hsaved := hretries.savedCredentials
    rw [h.savedCredentials] at hsaved
    cases hsaved

/-- What a step leaves of a cancelled page. -/
structure Stays (p p' : Page) : Prop where
  cancelled : Cancelled p'
  inFlight : p'.inFlight.length ≤ p.inFlight.length

/-- No step but a submit, a connection or a redirect undoes a cancel. -/
theorem step {p : Page} (h : Cancelled p) {e : PageEvent} (hconnects : ¬ e.connects)
    (hsubmits : ¬ submits p e) (hend : ∀ n reason brief, e = .sessionEnded n reason brief →
      reason ≠ .redirected) : Stays p (p.step e) := by
  by_cases hquiet : e.isQuiet
  · have hlife := p.life_step_of_quiet hquiet
    exact ⟨h.of_life hlife, (congrArg (·.inFlight.length) hlife).le⟩
  obtain ⟨hs, hlogin, hsaved⟩ := h
  cases e with
  | connected path width height => exact absurd rfl hconnects
  | submit credentials railProgram =>
      have hnot : ¬ (p.loginShown && !p.connecting) := hsubmits
      rw [Page.step, Page.submit, if_neg hnot]
      exact ⟨⟨hs, hlogin, hsaved⟩, le_rfl⟩
  | connectFailed path =>
      rw [Page.step]
      split
      · have hshorter : (p.inFlight.erase path).length ≤ p.inFlight.length :=
          List.length_erase_le
        cases path with
        | login credentials => exact ⟨⟨hs, hlogin, hsaved⟩, hshorter⟩
        | reconnect credentials =>
            have hgives : Page.attemptReconnect
                { p with inFlight := p.inFlight.erase (.reconnect credentials) } =
                { p with inFlight := p.inFlight.erase (.reconnect credentials) } :=
              attemptReconnect hsaved
            rw [Page.connectFailed, hgives]
            exact ⟨⟨hs, hlogin, hsaved⟩, hshorter⟩
        | redirected => exact ⟨⟨hs, rfl, hsaved⟩, hshorter⟩
      · exact ⟨⟨hs, hlogin, hsaved⟩, le_rfl⟩
  | reconnectTimer held =>
      rw [Page.step, Page.reconnectTimer]
      split
      · exact ⟨⟨hs, hlogin, hsaved⟩, le_rfl⟩
      · dsimp only
        split
        · rename_i hsome _
          cases hsaved.symm.trans hsome
        · exact ⟨⟨hs, hlogin, hsaved⟩, le_rfl⟩
  | giveUp =>
      rw [Page.step, Page.giveUp]
      split
      · exact ⟨⟨hs, hlogin, hsaved⟩, le_rfl⟩
      · exact ⟨⟨hs, rfl, rfl⟩, le_rfl⟩
  | cancelClick =>
      rw [Page.step, Page.cancelClick]
      split
      · exact ⟨⟨hs, rfl, rfl⟩, le_rfl⟩
      · exact ⟨⟨hs, hlogin, hsaved⟩, le_rfl⟩
  | disconnect => exact ⟨disconnect p, le_rfl⟩
  | sessionEnded n reason brief =>
      obtain ⟨hcancelled, hflight⟩ :=
        sessionEnded ⟨hs, hlogin, hsaved⟩ (hend n reason brief rfl)
      exact ⟨hcancelled, (congrArg List.length hflight).le⟩
  | railExecResult n execResult =>
      rw [Page.step, Page.railExecResult]
      split <;> exact ⟨⟨hs, hlogin, hsaved⟩, le_rfl⟩
  | execTimer =>
      rw [Page.step, Page.execTimer]
      split
      · exact ⟨⟨hs, hlogin, hsaved⟩, le_rfl⟩
      · exact ⟨disconnect _, le_rfl⟩
  | exitTimer =>
      rw [Page.step, Page.exitTimer]
      split
      · dsimp only
        split
        · exact ⟨disconnect _, le_rfl⟩
        · exact ⟨⟨hs, hlogin, hsaved⟩, le_rfl⟩
      · exact ⟨⟨hs, hlogin, hsaved⟩, le_rfl⟩
  | keyDown clipboardEnabled e =>
      rw [Page.step, Page.onKeyDown, hs]
      exact ⟨⟨hs, hlogin, hsaved⟩, le_rfl⟩
  | _ => exact absurd rfl hquiet

end Cancelled

/-! ## Runs -/

/-- A cancel takes hold at once, since there is no session under the overlay. -/
theorem cancelled_of_cancels {p : Page} (hoverlay : p.overlayShown → p.session = none)
    {e : PageEvent} (h : cancels p e) : Cancelled (p.step e) := by
  cases e with
  | cancelClick =>
      have hshown : p.overlayShown := h
      rw [Page.step, Page.cancelClick, if_pos hshown]
      exact ⟨hoverlay hshown, rfl, rfl⟩
  | disconnect => exact .disconnect p
  | keyDown clipboardEnabled e =>
      simp only [cancels, Bool.and_eq_true, decide_eq_true_eq] at h
      rw [Page.step, Page.onKeyDown, if_pos h.1]
      dsimp only
      rw [Keyboard.shortcut_onKeyDown, if_pos h.2]
      exact .disconnect _
  | _ => cases h

theorem wins_iff (s : CancelRun) :
    s.CancelWins ↔ (s.cancelled = true → Cancelled s.page ∧ s.started = 0) := by
  constructor
  · intro h hc
    obtain ⟨hs, hlogin, hsaved, hstarted⟩ := h hc
    exact ⟨⟨hs, hlogin, hsaved⟩, hstarted⟩
  · intro h hc
    obtain ⟨⟨hs, hlogin, hsaved⟩, hstarted⟩ := h hc
    exact ⟨hs, hlogin, hsaved, hstarted⟩

theorem begun_redirected (p : Page) (n : Nat) (brief : Bool) :
    (p.begun (.sessionEnded n .redirected brief)).length = 1 := by
  change ((p.inFlight ++ [ConnectPath.redirected]).drop p.inFlight.length).length = 1
  rw [List.drop_left]
  rfl

/-- A connection that settles gives a session. -/
theorem session_of_settles {s : CancelRun} {path : ConnectPath} (h : s.settles path)
    (width height : UInt16) : (s.page.step (.connected path width height)).session.isSome := by
  have hcount : s.probing.count path < s.page.inFlight.count path := of_decide_eq_true h
  have hpath : path ∈ s.page.inFlight := List.count_pos_iff.mp (by omega)
  rw [Page.step, if_pos hpath]
  cases path <;> rfl

/-- An event of the page after a cancel. -/
theorem wins_page {s : CancelRun} (h : Cancelled s.page) (hstarted : s.started = 0)
    {e : PageEvent} (hhappens : s.happens e) (hsubmits : ¬ submits s.page e) :
    (Cancelled (s.page.step e) ∧ s.started + (s.page.begun e).length = 0) ↔
      s.Harmless (.page e) := by
  have hstays : ¬ e.connects → (∀ n reason brief, e = .sessionEnded n reason brief →
      reason ≠ .redirected) →
      Cancelled (s.page.step e) ∧ s.started + (s.page.begun e).length = 0 := by
    intro hconnects hend
    obtain ⟨hcancelled, hflight⟩ := h.step hconnects hsubmits hend
    refine ⟨hcancelled, ?_⟩
    rw [Page.begun, List.length_drop, hstarted]
    omega
  cases e with
  | connected path width height =>
      have hsettles : s.settles path = true := hhappens
      constructor
      · rintro ⟨hcancelled, -⟩
        have hsome := session_of_settles hsettles width height
        rw [hcancelled.session] at hsome
        cases hsome
      · intro hnot
        exact absurd (hsettles.symm.trans hnot) nofun
  | sessionEnded n reason brief =>
      constructor
      · rintro ⟨-, hbegun⟩ rfl
        rw [begun_redirected] at hbegun
        omega
      · intro hreason
        refine hstays nofun ?_
        rintro _ _ _ ⟨⟩
        exact hreason
  | _ => exact ⟨fun _ => trivial, fun _ => hstays nofun nofun⟩

/-- The overlay is never shown over a session. -/
def Inv (s : CancelRun) : Prop := s.page.overlayShown → s.page.session = none

theorem inv_step {s : CancelRun} (h : s.Inv) (e : CancelEvent) : (s.step e).Inv := by
  cases e with
  | page e =>
      rw [step]
      split
      · exact Page.session_of_overlay_step h e
      · exact h
  | called path =>
      rw [step]
      split <;> exact h

theorem wins_step {s : CancelRun} (hinv : s.Inv) (hwins : s.CancelWins) (e : CancelEvent) :
    (s.step e).CancelWins ↔ Fits s e := by
  rw [wins_iff] at hwins ⊢
  cases e with
  | called path =>
      rw [step, Fits]
      split
      · rename_i hpath
        exact ⟨fun h hc => absurd (h hc).2 (Nat.succ_ne_zero _), fun h hc => absurd hpath (h hc)⟩
      · rename_i hpath
        exact ⟨fun _ _ => hpath, fun _ => hwins⟩
  | page e =>
      rw [step, Fits]
      by_cases hhappens : s.happens e
      swap
      · -- an attempt that still probes does not settle
        rw [if_neg hhappens]
        refine ⟨fun _ _ => ?_, fun _ => hwins⟩
        cases e with
        | connected path width height => exact Bool.eq_false_iff.mpr hhappens
        | connectFailed path => trivial
        | _ => exact absurd rfl hhappens
      rw [if_pos hhappens]
      dsimp only
      by_cases hcancels : cancels s.page e
      · simp only [hcancels, Bool.true_or, if_true, true_imp_iff]
        refine ⟨fun _ _ => ?_, fun _ => ⟨cancelled_of_cancels hinv hcancels, trivial⟩⟩
        cases e <;> trivial
      by_cases hcancelled : s.cancelled = true ∧ ¬ submits s.page e
      · obtain ⟨hc, hsubmits⟩ := hcancelled
        obtain ⟨hpage, hstarted⟩ := hwins hc
        have hiff := wins_page hpage hstarted hhappens hsubmits
        simp only [Bool.eq_false_iff.mpr hcancels, hc, Bool.eq_false_iff.mpr hsubmits,
          Bool.false_or, Bool.not_false, Bool.and_self, true_imp_iff, Bool.false_eq_true, if_false]
        exact hiff
      · have hnot : ¬ (cancels s.page e || (s.cancelled && !submits s.page e)) = true := by
          simpa [Bool.eq_false_iff.mpr hcancels] using hcancelled
        refine ⟨fun _ hc => ?_, fun _ hc => absurd hc hnot⟩
        have hsubmits : submits s.page e := by
          by_contra hsubmits
          exact hcancelled ⟨hc, hsubmits⟩
        cases e <;> trivial

/-- Cancelling wins in a whole run exactly when nothing comes back after a
cancel: no attempt, and no redirect. -/
theorem always_cancelWins_iff (windowedMode : Bool) (es : List CancelEvent) :
    Runs.Always step CancelWins (initial windowedMode) es ↔
      Runs.Each step Fits (initial windowedMode) es :=
  Runs.always_iff_each (fun _ e _ h => inv_step h e) (fun _ e _ h hwins => wins_step h hwins e)
    (fun _ => rfl) nofun

/-- The user cancels while a reconnect waits for `wasm.connect`, which then
succeeds. -/
def lateSuccess : List CancelEvent :=
  [.page (.submit Turnover.someone ""), .called (.login Turnover.someone),
    .page (.connected (.login Turnover.someone) 1 1),
    .page (.sessionEnded 0 .connectionLost false), .page (.reconnectTimer true),
    .called (.reconnect Turnover.someone), .page .cancelClick,
    .page (.connected (.reconnect Turnover.someone) 1 1)]

/-- The cancelled page has a session again. -/
theorem not_always_cancelWins : ¬ ∀ (windowedMode : Bool) (es : List CancelEvent),
    Runs.Always step CancelWins (initial windowedMode) es := by
  intro h
  obtain ⟨hs, -⟩ := h false lateSuccess lateSuccess (List.prefix_refl _) (by decide)
  exact absurd hs nofun

end CancelRun

end WasmRdp
