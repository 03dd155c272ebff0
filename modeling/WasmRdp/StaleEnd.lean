import WasmRdp.Lib.Runs
import WasmRdp.PageLife
import WasmRdp.Turnover

/-!
# The end of an earlier session

A session's task reports its end once, with a reason and nothing else, and
one callback takes all reports. It drops the current session before it looks
at anything, so that the report of an earlier session ends the one that has
come since. Where there is none, the report still goes through the branches
that are meant for the current session.

`undisturbed_iff` says when all this changes nothing: there is no current
session, the login form is shown and idle, and no branch is taken that
reconnects. In one direction each branch writes what is there already; in the
other a report that leads to a reconnect sets a timer
(`attemptReconnect_not_undisturbed`), and one that does not leaves the page
without a session and at an idle form.

A `StaleEnd` remembers which sessions have begun and have not reported, so
that every session reports once, at any time after its beginning. Whether a
report is of an earlier session is then known, and `always_contained_iff`
lifts the equivalence to whole runs.
-/

namespace WasmRdp

/-- The page as it is for its current session: the session, what is shown,
the credentials; and no reconnect, or the end of one, has been set up. -/
structure Undisturbed (p p' : Page) : Prop where
  session : p'.session = p.session
  loginShown : p'.loginShown = p.loginShown
  connecting : p'.connecting = p.connecting
  overlayShown : p'.overlayShown = p.overlayShown
  savedCredentials : p'.savedCredentials = p.savedCredentials
  inFlight : p'.inFlight = p.inFlight
  timers : p'.timers ≤ p.timers
  giveUpTimers : p'.giveUpTimers = p.giveUpTimers

/-- There is no session to end, and the login form is idle. -/
structure Harmless (p : Page) (reason : EndReason) (brief : Bool) : Prop where
  session : p.session = none
  noRedirect : reason ≠ .redirected
  loginShown : p.loginShown = true
  connecting : p.connecting = false
  overlayShown : p.overlayShown = false
  retries : ¬ Retries p reason brief

/-- A report that leads to a reconnect sets a timer. -/
theorem attemptReconnect_not_undisturbed {p q : Page} (hsaved : q.savedCredentials.isSome)
    (huser : q.isUserDisconnect = false) (htimers : q.timers = p.timers)
    (hgiveUp : q.giveUpTimers = p.giveUpTimers) : ¬ Undisturbed p q.attemptReconnect := by
  intro h
  have hgoes : ¬ (q.savedCredentials.isNone || q.isUserDisconnect) = true := by
    rw [huser, Bool.or_false, Option.isNone_iff_eq_none]
    exact Option.isSome_iff_ne_none.mp hsaved
  have htimers' := h.timers
  have hgiveUp' := h.giveUpTimers
  rw [Page.attemptReconnect, if_neg hgoes] at htimers' hgiveUp'
  split at htimers'
  · rename_i hlast
    rw [if_pos hlast] at hgiveUp'
    have hmore : q.giveUpTimers + 1 = p.giveUpTimers := hgiveUp'
    omega
  · have hmore : q.timers + 1 ≤ p.timers := htimers'
    omega

/-- A report changes nothing exactly when there is nothing to change. -/
theorem undisturbed_iff (p : Page) (reason : EndReason) (brief : Bool) :
    Undisturbed p (p.sessionEnded reason brief) ↔ Harmless p reason brief := by
  by_cases hreason : reason = .redirected
  · subst hreason
    refine ⟨fun h => ?_, fun h => absurd rfl h.noRedirect⟩
    have hflight : p.inFlight ++ [.redirected] = p.inFlight := h.inFlight
    exact absurd (congrArg List.length hflight) (by simp)
  obtain ⟨hretries, hends⟩ | ⟨hretries, heq⟩ := sessionEnded_cases p brief hreason
  · constructor
    · rintro ⟨hs, hlogin, hconnecting, hoverlay, -, -, -, -⟩
      exact ⟨hs.symm.trans hends.session, hreason, hlogin.symm.trans hends.loginShown,
        hconnecting.symm.trans hends.connecting, hoverlay.symm.trans hends.overlayShown, hretries⟩
    · rintro ⟨hs, -, hlogin, hconnecting, hoverlay, -⟩
      exact ⟨hends.session.trans hs.symm, hends.loginShown.trans hlogin.symm,
        hends.connecting.trans hconnecting.symm, hends.overlayShown.trans hoverlay.symm,
        hends.savedCredentials, hends.inFlight, hends.timers, hends.giveUpTimers⟩
  · refine ⟨fun h => ?_, fun h => absurd hretries h.retries⟩
    rw [heq] at h
    exact absurd h (attemptReconnect_not_undisturbed hretries.savedCredentials
      hretries.isUserDisconnect rfl rfl)

/-! ## Runs -/

/-- A run of the page in which every session reports its end once. -/
structure StaleEnd where
  page : Page
  /-- The sessions that have reported their end. -/
  reported : List Nat
  /-- The page before the last event. -/
  before : Page
  /-- The last event is the end of a session that was not current. -/
  stale : Bool

namespace StaleEnd

def initial (windowedMode : Bool) : StaleEnd where
  page := .initial windowedMode
  reported := []
  before := .initial windowedMode
  stale := false

/-- The session has begun and has not reported its end yet. -/
def reports (s : StaleEnd) (session : Nat) : Prop :=
  session < s.page.sessions ∧ session ∉ s.reported

instance (s : StaleEnd) (session : Nat) : Decidable (s.reports session) := by
  unfold reports
  infer_instance

def step (s : StaleEnd) (e : PageEvent) : StaleEnd :=
  match e with
  | .sessionEnded session reason brief =>
      if s.reports session then
        { page := s.page.step (.sessionEnded session reason brief)
          reported := session :: s.reported
          before := s.page
          stale := ¬ Turnover.IsCurrent s.page session }
      else s
  | e => { s with page := s.page.step e, before := s.page, stale := false }

/-- The end of an earlier session is nothing to the current one. -/
def Contained (s : StaleEnd) : Prop := s.stale = true → Undisturbed s.before s.page

/-- The end of an earlier session finds nothing to change. -/
def Fits (s : StaleEnd) : PageEvent → Prop
  | .sessionEnded session reason brief =>
      s.reports session → ¬ Turnover.IsCurrent s.page session → Harmless s.page reason brief
  | _ => True

theorem contained_step {s : StaleEnd} (h : s.Contained) (e : PageEvent) :
    (s.step e).Contained ↔ s.Fits e := by
  cases e with
  | sessionEnded session reason brief =>
      rw [step, Fits]
      split
      · rename_i hreports
        have hiff := undisturbed_iff s.page reason brief
        rw [Contained]
        simp only [decide_eq_true_eq, hreports, true_imp_iff]
        exact imp_congr_right fun _ => hiff
      · rename_i hreports
        exact ⟨fun _ hyes => absurd hyes hreports, fun _ => h⟩
  | _ => exact ⟨fun _ => trivial, fun _ => nofun⟩

/-- The ends of earlier sessions are contained in a whole run exactly
when none of them finds anything to change. -/
theorem always_contained_iff (windowedMode : Bool) (es : List PageEvent) :
    Runs.Always step Contained (initial windowedMode) es ↔
      Runs.Each step Fits (initial windowedMode) es :=
  Runs.always_iff_each (fun _ _ _ (h : True) => h) (fun _ e _ _ h => contained_step h e) trivial
    nofun

/-- The user disconnects and logs in again before the first session's task
has ended. -/
def laterEnd : List PageEvent :=
  [.submit Turnover.someone "", .connected (.login Turnover.someone) 1 1, .disconnect,
    .submit Turnover.someone "", .connected (.login Turnover.someone) 1 1,
    .sessionEnded 0 .userDisconnect false]

/-- The first session's end takes the second session from the page. -/
theorem not_always_contained : ¬ ∀ (windowedMode : Bool) (es : List PageEvent),
    Runs.Always step Contained (initial windowedMode) es := by
  intro h
  obtain ⟨hs, -⟩ := h false laterEnd laterEnd (List.prefix_refl _) (by decide)
  exact absurd hs nofun

end StaleEnd

end WasmRdp
