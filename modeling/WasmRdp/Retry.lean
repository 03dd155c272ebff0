import WasmRdp.Cancel

/-!
# How often the page reconnects

`attemptReconnect` counts attempts, and `__rdp_session_ended` counts sessions
that drop at once. A success sets the first counter back, a session that has
lasted the second, and a cancel both. A `RetryRun` counts the connections that
have been started since the login, or since the last session that lasted, and
`RetryRun.Phase` relates the two counters to this number.

The relation holds as long as one connection is under way at a time. At a
login there can be more of them: an attempt that was cancelled, or a timer
that no one has cleared.

There are three phases. A session is live (`Live`), one is awaited through an
attempt or a timer (`Awaited`), or the page is at the login form with nothing
under way (`Closed`). In each the number of connections is bounded by the two
counters: every round of attempts that was used up belongs to a session that
dropped at once, and within a round there is one connection for each attempt
(`rounds`). There are at most so many rounds as such sessions are tolerated,
from which the bound follows (`Phase.bounded`).

An event that does not touch the life cycle leaves the phase (`Phase.of_life`,
by `Page.life`); for each of the others there is a lemma that says into which
phase it leads, with `Phase.attemptReconnect` as the one that counts.
`always_bounded` is by induction over the run.
`not_always_bounded` has a second attempt under way at a login, and the two
take turns.
-/

namespace WasmRdp

/-- What the connections are counted from. -/
inductive Since where
  | login
  /-- A session that lasted at least `FLAP_WINDOW_MS`, and was lost. -/
  | lasted
  /-- An end that is not to be followed by a reconnect. -/
  | closed
  deriving DecidableEq

namespace Since

/-- How many connections may be started. -/
def limit : Since → Nat
  | .login => Page.MAX_RECONNECT_ATTEMPTS
  | .lasted => 2 * Page.MAX_RECONNECT_ATTEMPTS
  | .closed => 0

/-- What a session's end changes about the count. -/
def ended (since : Since) (reason : EndReason) (brief : Bool) : Since :=
  match reason with
  | .connectionLost => if brief then since else .lasted
  | _ => .closed

end Since

structure RetryRun where
  page : Page
  /-- Since the last login the user has done nothing, and only the current
  session has reported its end, without a redirect. -/
  watched : Bool
  since : Since
  /-- Connections started since. -/
  started : Nat

namespace RetryRun

def initial (windowedMode : Bool) : RetryRun where
  page := .initial windowedMode
  watched := false
  since := .login
  started := 0

def step (s : RetryRun) (e : PageEvent) : RetryRun :=
  match e with
  | .submit credentials railProgram =>
      if s.page.loginShown && !s.page.connecting then
        { page := s.page.step (.submit credentials railProgram)
          watched := true
          since := .login
          started := 0 }
      else s
  | .sessionEnded session reason brief =>
      { page := s.page.step (.sessionEnded session reason brief)
        watched :=
          s.watched && Turnover.IsCurrent s.page session && reason ≠ EndReason.redirected
        since := s.since.ended reason brief
        started := if reason = .connectionLost ∧ brief = true then s.started else 0 }
  | e =>
      { s with
        page := s.page.step e
        watched := s.watched && !CancelRun.cancels s.page e
        started := s.started + (s.page.begun e).length }

/-- The host is not flooded. -/
def Bounded (s : RetryRun) : Prop := s.watched = true → s.started ≤ s.since.limit

/-- A login finds nothing under way, and no failed launch is reported while a
connection is. -/
def Fits (s : RetryRun) : PageEvent → Prop
  | .submit .. =>
      (s.page.loginShown && !s.page.connecting) = true →
        s.page.session = none ∧ s.page.inFlight = [] ∧ s.page.timers = 0 ∧
          s.page.giveUpTimers = 0 ∧ s.page.execTimers = 0
  | .railExecResult _ execResult =>
      s.watched = true → execResult ≠ 0 → s.page.inFlight = [] ∧ s.page.timers = 0
  | _ => True

/-! ## Phases -/

/-- How often the attempts may have been used up; while a reconnect is
awaited, the current round counts. -/
def rounds (since : Since) (flapCount : Nat) : Nat :=
  match since with
  | .login => flapCount
  | .lasted => flapCount + 1
  | .closed => 0

theorem rounds_le (since : Since) {flapCount : Nat} (h : flapCount < Page.MAX_FLAPS) :
    Page.MAX_RECONNECT_ATTEMPTS * rounds since flapCount ≤ since.limit := by
  unfold Page.MAX_FLAPS at h
  cases since <;> simp only [rounds, Since.limit, Page.MAX_RECONNECT_ATTEMPTS] <;> omega

/-- No connection is under way, and none will be before the next login. -/
structure Closed (p : Page) : Prop where
  session : p.session = none
  inFlight : p.inFlight = []
  timers : p.timers = 0

/-- What is the same while a session is live or awaited. -/
structure Going (p : Page) : Prop where
  giveUpTimers : p.giveUpTimers = 0
  flapCount : p.flapCount < Page.MAX_FLAPS

structure Live (p : Page) : Prop extends Going p where
  inFlight : p.inFlight = []
  timers : p.timers = 0
  reconnectAttempt : p.reconnectAttempt = 0
  /-- A failed launch does not lead to a reconnect. -/
  execTimers : p.execTimers = 0 ∨ p.isUserDisconnect = true

/-- A session is awaited. -/
structure Awaited (p : Page) : Prop extends Going p where
  session : p.session = none
  execTimers : p.execTimers = 0

/-- The two counters and the number of connections, in every phase of the
time after a login. -/
inductive Phase (p : Page) (since : Since) (started : Nat) : Prop
  | closed (h : Closed p) (hstarted : started ≤ since.limit)
  | login (credentials : Credentials) (h : Awaited p) (hflight : p.inFlight = [.login credentials])
      (htimers : p.timers = 0) (hsince : since ≠ .closed)
      (hstarted : started ≤ Page.MAX_RECONNECT_ATTEMPTS * rounds since p.flapCount)
  | live (h : Live p) (hsince : since ≠ .closed)
      (hstarted : started ≤ Page.MAX_RECONNECT_ATTEMPTS * rounds since p.flapCount)
  | waiting (h : Awaited p) (hflight : p.inFlight = []) (htimers : p.timers = 1)
      (hattempt : p.reconnectAttempt ≤ Page.MAX_RECONNECT_ATTEMPTS) (hsince : since ≠ .closed)
      (hstarted : started + Page.MAX_RECONNECT_ATTEMPTS + 1 ≤
        Page.MAX_RECONNECT_ATTEMPTS * rounds since p.flapCount + p.reconnectAttempt)
  | retrying (credentials : Credentials) (h : Awaited p)
      (hflight : p.inFlight = [.reconnect credentials]) (htimers : p.timers = 0)
      (hattempt : p.reconnectAttempt ≤ Page.MAX_RECONNECT_ATTEMPTS) (hsince : since ≠ .closed)
      (hstarted : started + Page.MAX_RECONNECT_ATTEMPTS ≤
        Page.MAX_RECONNECT_ATTEMPTS * rounds since p.flapCount + p.reconnectAttempt)

theorem Phase.bounded {p : Page} {since : Since} {started : Nat} (h : Phase p since started) :
    started ≤ since.limit := by
  cases h with
  | closed h hstarted => exact hstarted
  | login credentials h hflight htimers hsince hstarted =>
      exact hstarted.trans (rounds_le since h.flapCount)
  | live h hsince hstarted => exact hstarted.trans (rounds_le since h.flapCount)
  | waiting h hflight htimers hattempt hsince hstarted =>
      have hrounds := rounds_le since h.flapCount
      omega
  | retrying credentials h hflight htimers hattempt hsince hstarted =>
      have hrounds := rounds_le since h.flapCount
      omega

/-! ## What an event does to a phase -/

theorem Going.of_life {p p' : Page} (h : Going p) (hlife : p'.life = p.life) : Going p' := by
  refine ⟨(congrArg Life.giveUpTimers hlife).trans h.giveUpTimers, ?_⟩
  have hflap : p'.flapCount = p.flapCount := congrArg Life.flapCount hlife
  rw [hflap]
  exact h.flapCount

theorem Awaited.of_life {p p' : Page} (h : Awaited p) (hlife : p'.life = p.life) : Awaited p' where
  toGoing := h.toGoing.of_life hlife
  session := by
    rw [← Page.life_session_iff, hlife, Page.life_session_iff]
    exact h.session
  execTimers := (congrArg Life.execTimers hlife).trans h.execTimers

theorem Phase.of_life {p p' : Page} {since : Since} {started : Nat} (h : Phase p since started)
    (hlife : p'.life = p.life) : Phase p' since started := by
  have hflight : p'.inFlight = p.inFlight := congrArg Life.inFlight hlife
  have htimers : p'.timers = p.timers := congrArg Life.timers hlife
  have hattempt : p'.reconnectAttempt = p.reconnectAttempt := congrArg Life.reconnectAttempt hlife
  have hflap : p'.flapCount = p.flapCount := congrArg Life.flapCount hlife
  have hexec : p'.execTimers = p.execTimers := congrArg Life.execTimers hlife
  have huser : p'.isUserDisconnect = p.isUserDisconnect := congrArg Life.isUserDisconnect hlife
  cases h with
  | closed h hstarted =>
      refine .closed ⟨?_, hflight.trans h.inFlight, htimers.trans h.timers⟩ hstarted
      rw [← Page.life_session_iff, hlife, Page.life_session_iff]
      exact h.session
  | login credentials h hpath hnone hsince hstarted =>
      exact .login credentials (h.of_life hlife) (hflight.trans hpath) (htimers.trans hnone)
        hsince (by rw [hflap]; exact hstarted)
  | live h hsince hstarted =>
      refine .live ⟨h.toGoing.of_life hlife, hflight.trans h.inFlight, htimers.trans h.timers,
        hattempt.trans h.reconnectAttempt, ?_⟩ hsince (by rw [hflap]; exact hstarted)
      rw [hexec, huser]
      exact h.execTimers
  | waiting h hpath hone hle hsince hstarted =>
      exact .waiting (h.of_life hlife) (hflight.trans hpath) (htimers.trans hone)
        (hattempt ▸ hle) hsince (by rw [hflap, hattempt]; exact hstarted)
  | retrying credentials h hpath hnone hle hsince hstarted =>
      exact .retrying credentials (h.of_life hlife) (hflight.trans hpath) (htimers.trans hnone)
        (hattempt ▸ hle) hsince (by rw [hflap, hattempt]; exact hstarted)

section

variable {p : Page} {since : Since} {started : Nat}

/-- The page goes back to the login form for good. -/
theorem Phase.disconnect (hstarted : started ≤ since.limit) (hflight : p.inFlight = [])
    (htimers : p.timers = 0) : Phase p.disconnect since started := by
  refine .closed ⟨rfl, hflight, ?_⟩ hstarted
  change (if p.timerHeld then p.timers - 1 else p.timers) = 0
  rw [htimers, Nat.zero_sub, ite_self]

theorem Phase.connected (h : Phase p since started) {path : ConnectPath} (hpath : path ∈ p.inFlight)
    (width height : UInt16) : Phase (p.connected path width height) since started := by
  cases h with
  | closed h hstarted =>
      rw [h.inFlight] at hpath
      cases hpath
  | login credentials h hflight htimers hsince hstarted =>
      obtain rfl : path = .login credentials := by simpa [hflight] using hpath
      refine .live ⟨⟨h.giveUpTimers, h.flapCount⟩, ?_, htimers, rfl, .inl h.execTimers⟩
        hsince hstarted
      change p.inFlight.erase _ = []
      rw [hflight, List.erase_cons_head]
  | live h hsince hstarted =>
      rw [h.inFlight] at hpath
      cases hpath
  | waiting h hflight htimers hattempt hsince hstarted =>
      rw [hflight] at hpath
      cases hpath
  | retrying credentials h hflight htimers hattempt hsince hstarted =>
      obtain rfl : path = .reconnect credentials := by simpa [hflight] using hpath
      have hround : started ≤ Page.MAX_RECONNECT_ATTEMPTS * rounds since p.flapCount := by omega
      refine .live ⟨⟨h.giveUpTimers, h.flapCount⟩, ?_, htimers, rfl, .inl h.execTimers⟩
        hsince hround
      change p.inFlight.erase _ = []
      rw [hflight, List.erase_cons_head]

/-- The next attempt of a round, or the end of the last one. -/
theorem Phase.attemptReconnect (h : Awaited p) (hflight : p.inFlight = []) (htimers : p.timers = 0)
    (hattempt : p.reconnectAttempt ≤ Page.MAX_RECONNECT_ATTEMPTS) (hsince : since ≠ .closed)
    (hstarted : started + Page.MAX_RECONNECT_ATTEMPTS ≤
      Page.MAX_RECONNECT_ATTEMPTS * rounds since p.flapCount + p.reconnectAttempt) :
    Phase p.attemptReconnect since started := by
  have hlimit : started ≤ since.limit := by
    have hrounds := rounds_le since h.flapCount
    omega
  unfold Page.attemptReconnect
  split
  · exact .closed ⟨h.session, hflight, htimers⟩ hlimit
  split
  · exact .closed ⟨h.session, hflight, htimers⟩ hlimit
  · rename_i hmore
    have hnext : p.reconnectAttempt + 1 ≤ Page.MAX_RECONNECT_ATTEMPTS := by omega
    have hcount : started + Page.MAX_RECONNECT_ATTEMPTS + 1 ≤
        Page.MAX_RECONNECT_ATTEMPTS * rounds since p.flapCount + (p.reconnectAttempt + 1) := by
      omega
    exact .waiting ⟨⟨h.giveUpTimers, h.flapCount⟩, h.session, h.execTimers⟩ hflight
      (congrArg (· + 1) htimers) hnext hsince hcount

theorem Phase.connectFailed (h : Phase p since started) {path : ConnectPath}
    (hpath : path ∈ p.inFlight) : Phase (p.connectFailed path) since started := by
  have hlimit := h.bounded
  cases h with
  | closed h hstarted =>
      rw [h.inFlight] at hpath
      cases hpath
  | login credentials h hflight htimers hsince hstarted =>
      obtain rfl : path = .login credentials := by simpa [hflight] using hpath
      refine .closed ⟨h.session, ?_, htimers⟩ hlimit
      change p.inFlight.erase _ = []
      rw [hflight, List.erase_cons_head]
  | live h hsince hstarted =>
      rw [h.inFlight] at hpath
      cases hpath
  | waiting h hflight htimers hattempt hsince hstarted =>
      rw [hflight] at hpath
      cases hpath
  | retrying credentials h hflight htimers hattempt hsince hstarted =>
      obtain rfl : path = .reconnect credentials := by simpa [hflight] using hpath
      have hnone : p.inFlight.erase (.reconnect credentials) = [] := by
        rw [hflight, List.erase_cons_head]
      exact Phase.attemptReconnect
        (p := { p with inFlight := p.inFlight.erase (.reconnect credentials) })
        ⟨⟨h.giveUpTimers, h.flapCount⟩, h.session, h.execTimers⟩ hnone htimers hattempt
        hsince hstarted

/-- Only a timer that is awaited starts a connection. -/
theorem Phase.reconnectTimer (h : Phase p since started) (held : Bool) :
    Phase (p.reconnectTimer held) since
      (started + ((p.reconnectTimer held).inFlight.length - p.inFlight.length)) := by
  by_cases hnot : p.timers = 0 ∨ (held ∧ !p.timerHeld)
  · rw [Page.reconnectTimer, if_pos hnot, Nat.sub_self, Nat.add_zero]
    exact h
  have hsome : p.timers ≠ 0 := fun h => hnot (.inl h)
  have hlimit := h.bounded
  cases h with
  | closed h hstarted => exact absurd h.timers hsome
  | login credentials h hflight htimers hsince hstarted => exact absurd htimers hsome
  | live h hsince hstarted => exact absurd h.timers hsome
  | retrying credentials h hflight htimers hattempt hsince hstarted => exact absurd htimers hsome
  | waiting h hflight htimers hattempt hsince hstarted =>
      have hlast : p.timers - 1 = 0 := by rw [htimers]
      rw [Page.reconnectTimer, if_neg hnot]
      dsimp only
      split
      · rename_i credentials _ _
        have hbegun : p.inFlight ++ [.reconnect credentials] = [.reconnect credentials] := by
          rw [hflight, List.nil_append]
        refine .retrying credentials ⟨⟨h.giveUpTimers, h.flapCount⟩, rfl, h.execTimers⟩ hbegun hlast
          hattempt hsince ?_
        change started + ((p.inFlight ++ [ConnectPath.reconnect credentials]).length -
          p.inFlight.length) + Page.MAX_RECONNECT_ATTEMPTS ≤
            Page.MAX_RECONNECT_ATTEMPTS * rounds since p.flapCount + p.reconnectAttempt
        rw [hflight, List.nil_append, List.length_singleton, List.length_nil]
        omega
      · rw [Nat.sub_self, Nat.add_zero]
        exact .closed ⟨h.session, hflight, hlast⟩ hlimit

/-- A failed launch while nothing is under way. -/
theorem Phase.railExecResult (h : Phase p since started) (execResult : UInt16)
    (hidle : execResult ≠ 0 → p.inFlight = [] ∧ p.timers = 0) :
    Phase (p.railExecResult execResult) since started := by
  unfold Page.railExecResult
  split
  · exact h
  rename_i hresult
  obtain ⟨hnone, hzero⟩ := hidle hresult
  cases h with
  | closed h hstarted => exact .closed ⟨h.session, h.inFlight, h.timers⟩ hstarted
  | login credentials h hflight htimers hsince hstarted => cases hflight.symm.trans hnone
  | live h hsince hstarted =>
      exact .live ⟨⟨h.giveUpTimers, h.flapCount⟩, h.inFlight, h.timers, h.reconnectAttempt,
        .inr rfl⟩
        hsince hstarted
  | waiting h hflight htimers hattempt hsince hstarted => cases htimers.symm.trans hzero
  | retrying credentials h hflight htimers hattempt hsince hstarted =>
      cases hflight.symm.trans hnone

theorem Phase.execTimer (h : Phase p since started) : Phase p.execTimer since started := by
  unfold Page.execTimer
  split
  · exact h
  rename_i hsome
  have hlimit := h.bounded
  cases h with
  | closed h hstarted => exact .disconnect hlimit h.inFlight h.timers
  | login credentials h hflight htimers hsince hstarted => exact absurd h.execTimers hsome
  | live h hsince hstarted => exact .disconnect hlimit h.inFlight h.timers
  | waiting h hflight htimers hattempt hsince hstarted => exact absurd h.execTimers hsome
  | retrying credentials h hflight htimers hattempt hsince hstarted =>
      exact absurd h.execTimers hsome

/-- The published application has gone. -/
theorem Phase.exitTimer (h : Phase p since started) : Phase p.exitTimer since started := by
  unfold Page.exitTimer
  split
  swap
  · exact h
  dsimp only
  have hsame : Phase { p with rail := { p.rail with exitTimer := false } } since started :=
    h.of_life rfl
  split
  swap
  · exact hsame
  rename_i hgone
  have hsession : p.session ≠ none := by
    simp only [Bool.and_eq_true] at hgone
    exact Option.isSome_iff_ne_none.mp hgone.1.1.2
  have hlimit := h.bounded
  cases h with
  | closed h hstarted => exact absurd h.session hsession
  | login credentials h hflight htimers hsince hstarted => exact absurd h.session hsession
  | live h hsince hstarted => exact .disconnect hlimit h.inFlight h.timers
  | waiting h hflight htimers hattempt hsince hstarted => exact absurd h.session hsession
  | retrying credentials h hflight htimers hattempt hsince hstarted =>
      exact absurd h.session hsession

theorem Phase.giveUp (h : Phase p since started) : Phase p.giveUp since started := by
  unfold Page.giveUp
  split
  · exact h
  rename_i hsome
  cases h with
  | closed h hstarted =>
      refine .closed ⟨h.session, h.inFlight, ?_⟩ hstarted
      change (if p.timerHeld then p.timers - 1 else p.timers) = 0
      rw [h.timers, Nat.zero_sub, ite_self]
  | login credentials h hflight htimers hsince hstarted => exact absurd h.giveUpTimers hsome
  | live h hsince hstarted => exact absurd h.giveUpTimers hsome
  | waiting h hflight htimers hattempt hsince hstarted => exact absurd h.giveUpTimers hsome
  | retrying credentials h hflight htimers hattempt hsince hstarted =>
      exact absurd h.giveUpTimers hsome

/-- The current session ends, without a redirect. -/
theorem Phase.sessionEnded (h : Phase p since started) (hsession : p.session ≠ none)
    {reason : EndReason} (hreason : reason ≠ .redirected) (brief : Bool) :
    Phase (p.sessionEnded reason brief) (since.ended reason brief)
      (if reason = .connectionLost ∧ brief = true then started else 0) := by
  have hlimit := h.bounded
  cases h with
  | closed h hstarted => exact absurd h.session hsession
  | login credentials h hflight htimers hsince hstarted => exact absurd h.session hsession
  | waiting h hflight htimers hattempt hsince hstarted => exact absurd h.session hsession
  | retrying credentials h hflight htimers hattempt hsince hstarted =>
      exact absurd h.session hsession
  | live h hsince hstarted =>
  obtain ⟨-, hends⟩ | ⟨hretries, heq⟩ := sessionEnded_cases p brief hreason
  · have htimers := hends.timers
    rw [h.timers, Nat.le_zero] at htimers
    refine .closed ⟨hends.session, hends.inFlight.trans h.inFlight, htimers⟩ ?_
    split
    · rename_i hbrief
      obtain ⟨rfl, rfl⟩ := hbrief
      exact hlimit
    · exact Nat.zero_le _
  · obtain ⟨rfl, -, huser, -, hflaps⟩ := hretries
    have hexec : p.execTimers = 0 := by
      obtain hexec | hexec := h.execTimers
      · exact hexec
      · cases huser.symm.trans hexec
    have hattempt : p.reconnectAttempt ≤ Page.MAX_RECONNECT_ATTEMPTS := by
      rw [h.reconnectAttempt]
      exact Nat.zero_le _
    rw [heq]
    cases brief with
    | true =>
        have hflap : p.flapCount + 1 < Page.MAX_FLAPS := by simpa using hflaps
        have hround : rounds since (p.flapCount + 1) = rounds since p.flapCount + 1 := by
          cases since with
          | closed => exact absurd rfl hsince
          | _ => rfl
        have hcount : started + Page.MAX_RECONNECT_ATTEMPTS ≤
            Page.MAX_RECONNECT_ATTEMPTS * rounds since (p.flapCount + 1) + p.reconnectAttempt := by
          rw [hround, Nat.mul_succ]
          omega
        exact Phase.attemptReconnect ⟨⟨h.giveUpTimers, hflap⟩, rfl, hexec⟩ h.inFlight h.timers
          hattempt hsince hcount
    | false =>
        have hcount : 0 + Page.MAX_RECONNECT_ATTEMPTS ≤
            Page.MAX_RECONNECT_ATTEMPTS * rounds .lasted 0 + p.reconnectAttempt := by
          rw [rounds]
          omega
        exact Phase.attemptReconnect ⟨⟨h.giveUpTimers, Nat.zero_lt_two⟩, rfl, hexec⟩ h.inFlight
          h.timers hattempt nofun hcount

/-- Only a reconnect timer starts a connection by itself. -/
theorem inFlight_attemptReconnect (p : Page) : p.attemptReconnect.inFlight = p.inFlight := by
  unfold Page.attemptReconnect
  split
  · rfl
  · split <;> rfl

theorem Phase.keeps {e : PageEvent} (h : Phase (p.step e) since started)
    (hle : (p.step e).inFlight.length ≤ p.inFlight.length) :
    Phase (p.step e) since (started + (p.begun e).length) := by
  rw [Page.begun, List.length_drop, Nat.sub_eq_zero_of_le hle]
  exact h

theorem Phase.unchanged {e : PageEvent} (h : Phase p since started) (hstep : p.step e = p) :
    Phase (p.step e) since (started + (p.begun e).length) :=
  Phase.keeps (hstep.symm ▸ h) (congrArg (·.inFlight.length) hstep).le

theorem Phase.step (h : Phase p since started) {e : PageEvent} (hcancels : ¬ CancelRun.cancels p e)
    (hsubmit : ∀ credentials railProgram, e ≠ .submit credentials railProgram)
    (hended : ∀ n reason brief, e ≠ .sessionEnded n reason brief)
    (hlaunch : ∀ n execResult, e = .railExecResult n execResult → execResult ≠ 0 →
      p.inFlight = [] ∧ p.timers = 0) :
    Phase (p.step e) since (started + (p.begun e).length) := by
  by_cases hquiet : e.isQuiet
  · have hlife := p.life_step_of_quiet hquiet
    exact (h.of_life hlife).keeps (congrArg (·.inFlight.length) hlife).le
  cases e with
  | submit credentials railProgram => exact absurd rfl (hsubmit credentials railProgram)
  | sessionEnded n reason brief => exact absurd rfl (hended n reason brief)
  | disconnect => exact absurd rfl hcancels
  | connected path width height =>
      by_cases hpath : path ∈ p.inFlight
      · have hstep : p.step (.connected path width height) = p.connected path width height :=
          if_pos hpath
        refine Phase.keeps (hstep ▸ h.connected hpath width height) ?_
        rw [hstep]
        cases path <;> exact List.length_erase_le
      · exact h.unchanged (if_neg hpath)
  | connectFailed path =>
      by_cases hpath : path ∈ p.inFlight
      · have hstep : p.step (.connectFailed path) = p.connectFailed path := if_pos hpath
        refine Phase.keeps (hstep ▸ h.connectFailed hpath) ?_
        rw [hstep]
        cases path with
        | login credentials => exact List.length_erase_le
        | reconnect credentials =>
            rw [Page.connectFailed, inFlight_attemptReconnect]
            exact List.length_erase_le
        | redirected => exact List.length_erase_le
      · exact h.unchanged (if_neg hpath)
  | reconnectTimer held =>
      have hnext := h.reconnectTimer held
      rw [Page.begun, List.length_drop]
      exact hnext
  | giveUp =>
      refine Phase.keeps h.giveUp ?_
      rw [Page.step, Page.giveUp]
      split <;> exact le_rfl
  | cancelClick => exact h.unchanged (if_neg hcancels)
  | railExecResult n execResult =>
      refine Phase.keeps (h.railExecResult execResult (hlaunch n execResult rfl)) ?_
      rw [Page.step, Page.railExecResult]
      split <;> exact le_rfl
  | execTimer =>
      refine Phase.keeps h.execTimer ?_
      rw [Page.step, Page.execTimer]
      split <;> exact le_rfl
  | exitTimer =>
      refine Phase.keeps h.exitTimer ?_
      rw [Page.step, Page.exitTimer]
      split
      · dsimp only
        split <;> exact le_rfl
      · exact le_rfl
  | keyDown clipboardEnabled e =>
      -- not quiet, so it is the shortcut; without a session it does nothing
      have hshortcut : Keyboard.shortcutOf e = some .disconnect := by
        simpa [PageEvent.isQuiet] using hquiet
      have hnone : p.session.isSome = false := by
        simpa [CancelRun.cancels, hshortcut] using hcancels
      refine h.unchanged ?_
      rw [Page.step, Page.onKeyDown, hnone]
      rfl
  | _ => exact absurd rfl hquiet

end

/-! ## Runs -/

theorem phase_step (s : RetryRun) (e : PageEvent)
    (h : s.watched = true → Phase s.page s.since s.started) (hfits : s.Fits e) :
    (s.step e).watched = true → Phase (s.step e).page (s.step e).since (s.step e).started := by
  have hother : (∀ credentials railProgram, e ≠ .submit credentials railProgram) →
      (∀ n reason brief, e ≠ .sessionEnded n reason brief) →
      (s.watched && !CancelRun.cancels s.page e) = true →
      Phase (s.page.step e) s.since (s.started + (s.page.begun e).length) := by
    intro hsubmit hended hwatched
    rw [Bool.and_eq_true, Bool.not_eq_true'] at hwatched
    refine (h hwatched.1).step (Bool.not_eq_true _ ▸ hwatched.2) hsubmit hended ?_
    rintro n execResult rfl
    exact hfits hwatched.1
  cases e with
  | submit credentials railProgram =>
      rw [step]
      split
      · rename_i hlogin
        obtain ⟨hsession, hflight, htimers, hgiveUp, hexec⟩ := hfits hlogin
        intro _
        have hstep : s.page.step (.submit credentials railProgram) =
            { s.page with railProgram, connecting := true, flapCount := 0 }.startConnect
              (.login credentials) := if_pos hlogin
        rw [hstep]
        refine .login credentials ⟨⟨hgiveUp, Nat.zero_lt_two⟩, hsession, hexec⟩ ?_ htimers nofun
          (Nat.zero_le _)
        change s.page.inFlight ++ [_] = _
        rw [hflight, List.nil_append]
      · exact h
  | sessionEnded n reason brief =>
      intro hwatched
      simp only [step, Bool.and_eq_true, decide_eq_true_eq] at hwatched
      obtain ⟨⟨hwatched, hcurrent⟩, hreason⟩ := hwatched
      obtain ⟨session, hsession, -⟩ := hcurrent
      refine (h hwatched).sessionEnded ?_ hreason brief
      rw [hsession]
      exact Option.some_ne_none session
  | _ => exact hother nofun nofun

/-- As long as every login finds nothing under way, the host is not flooded. -/
theorem always_bounded (windowedMode : Bool) (es : List PageEvent)
    (h : Runs.Each step Fits (initial windowedMode) es) :
    Runs.Always step Bounded (initial windowedMode) es := by
  have hphase : Runs.Always step (fun s => s.watched = true → Phase s.page s.since s.started)
      (initial windowedMode) es :=
    Runs.always_of_each (fun s e _ hs hfits => phase_step s e hs hfits) nofun h
  intro pre hpre hwatched
  exact (hphase pre hpre hwatched).bounded

/-- A session that is lost at once, and five attempts in vain. -/
def allFail : List PageEvent :=
  let fails : PageEvent := .connectFailed (.reconnect Turnover.someone)
  [.submit Turnover.someone "", .connected (.login Turnover.someone) 1 1,
    .sessionEnded 0 .connectionLost true, .reconnectTimer true, fails, .reconnectTimer true, fails,
    .reconnectTimer true, fails, .reconnectTimer true, fails, .reconnectTimer true, fails, .giveUp]

theorem each_fits_allFail : Runs.Each step Fits (initial false) allFail := by
  rw [allFail]
  simp only [Runs.each_cons]
  exact ⟨fun _ => ⟨rfl, rfl, rfl, rfl, rfl⟩, trivial, trivial, trivial, trivial, trivial, trivial,
    trivial, trivial, trivial, trivial, trivial, trivial, trivial, Runs.each_nil⟩

theorem always_bounded_allFail : Runs.Always step Bounded (initial false) allFail :=
  always_bounded false allFail each_fits_allFail

/-- The user cancels while a reconnect is under way, and logs in. The session
is lost at once, and the attempts of before and after take turns. -/
def twoAttempts : List PageEvent :=
  let fails : PageEvent := .connectFailed (.reconnect Turnover.someone)
  [.submit Turnover.someone "", .connected (.login Turnover.someone) 1 1,
    .sessionEnded 0 .connectionLost false, .reconnectTimer true, .cancelClick,
    .submit Turnover.someone "", .connected (.login Turnover.someone) 1 1,
    .sessionEnded 1 .connectionLost true, .reconnectTimer true, fails, .reconnectTimer true, fails,
    .reconnectTimer true, fails, .reconnectTimer true, fails, .reconnectTimer true,
    .connected (.reconnect Turnover.someone) 1 1, fails, .reconnectTimer true]

/-- Six connections after a login whose session was short. -/
theorem not_always_bounded : ¬ ∀ (windowedMode : Bool) (es : List PageEvent),
    Runs.Always step Bounded (initial windowedMode) es := by
  intro h
  have hlimit := h false twoAttempts twoAttempts (List.prefix_refl _) (by decide)
  exact absurd hlimit (by decide)

end RetryRun

end WasmRdp
