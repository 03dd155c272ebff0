import WasmRdp.Lib.Runs

/-!
# The desktop follows the viewport

The dynamic resize of `web/app.js`, in a session that shows one desktop.
Every change of the viewport sets the debounce timer again; when it fires
`sendResize` asks for a layout, unless the desktop has that size already or
the channel is not ready. The server applies what it is sent, in order and at
any later time, and reports every size.

The size that the desktop comes to is that of the last request under way, or
its present one (`Resizing.settles`). `sendResize` compares with the present
one only. The model keeps the variables that `sendResize` reads; what is
shown of a resize, and the watchdog, which only changes that, are left out.
The scaled size of a viewport is a parameter, since `sessionDpr` need not be
whole.

`Converged` speaks of the future: with nothing left to come, after all answers
of the server, the desktop has the viewport's size. `settled_iff` turns that
into a property of the present state, the size that the desktop settles to.
Then every step can be looked at by itself. A change of the viewport leaves a
timer, under which nothing has to hold yet; a timer that fires last has to
leave the right size under way (`settled_sendResize`), and so has the channel
when it becomes ready (`settled_displayControlReady_wanted`,
`settled_displayControlReady_unwanted`). `Fits` is what these need of the
state that they find, and `always_converged_iff` is exact. A viewport that
changes back before the server has answered is the way to go wrong
(`not_always_converged`).
-/

namespace WasmRdp

structure Size where
  w : Nat
  h : Nat
  deriving DecidableEq

/-- A size that the protocol allows: 200 to 8192 on both sides, and an even
width. -/
def Size.adjusted (w h : Nat) : Size :=
  let w := max 200 (min 8192 w)
  let h := max 200 (min 8192 h)
  ⟨if w % 2 ≠ 0 then w - 1 else w, h⟩

structure Resizing where
  session : Bool
  multimonInUse : Bool
  railInUse : Bool
  /-- `window.innerWidth` and `window.innerHeight`. -/
  viewport : Size
  negotiatedDesktop : Option Size
  desiredSize : Option Size
  dispReady : Bool
  /-- Pending debounce timers; `resizeTimer` refers to the last one set if
  `timerHeld`. -/
  timers : Nat
  timerHeld : Bool
  /-- Layout requests that the server has not applied, oldest first. -/
  requests : List Size

inductive ResizeEvent where
  | viewportChanged (viewport : Size)
  | debounce
  | displayControlReady
  /-- The server applies the oldest request, and `__rdp_desktop_resized` says
  so. -/
  | applied

namespace Resizing

/-- After `doConnect`, when the handlers are set up. -/
def initial (viewport desktop : Size) : Resizing where
  session := true
  multimonInUse := false
  railInUse := false
  viewport := viewport
  negotiatedDesktop := some desktop
  desiredSize := none
  dispReady := false
  timers := 0
  timerHeld := false
  requests := []

section

-- `Math.round(x * sessionDpr)`
variable (scaled : Nat → Nat)

/-- The size that the desktop should have. -/
def target (s : Resizing) : Size := .adjusted (scaled s.viewport.w) (scaled s.viewport.h)

def sendResize (s : Resizing) : Resizing :=
  let s := { s with timerHeld := false }
  if !s.session then s
  else if s.multimonInUse || s.railInUse then s
  else
    let size := s.target scaled
    if s.negotiatedDesktop = some size then s
    else
      let s := { s with desiredSize := some size }
      if !s.dispReady then s
      else { s with requests := s.requests ++ [size] }

def onViewportChanged (s : Resizing) : Resizing :=
  if !s.session then s
  else { s with timers := (if s.timerHeld then s.timers - 1 else s.timers) + 1, timerHeld := true }

/-- `__rdp_display_control_ready` -/
def displayControlReady (s : Resizing) : Resizing :=
  let s := { s with dispReady := true }
  if s.desiredSize.isSome && s.negotiatedDesktop.isSome &&
      s.desiredSize ≠ s.negotiatedDesktop then
    s.sendResize scaled
  else s

/-- `__rdp_desktop_resized` -/
def desktopResized (s : Resizing) (size : Size) : Resizing :=
  { s with negotiatedDesktop := some size }

def step (s : Resizing) : ResizeEvent → Resizing
  | .viewportChanged viewport => { s with viewport }.onViewportChanged
  | .debounce => if s.timers = 0 then s else { s with timers := s.timers - 1 }.sendResize scaled
  | .displayControlReady => s.displayControlReady scaled
  | .applied =>
      match s.requests with
      | [] => s
      | size :: requests => { s with requests }.desktopResized size

/-- With nothing left to come, the desktop has the viewport's size. -/
def Converged (s : Resizing) : Prop :=
  s.dispReady = true → s.timers = 0 → s.requests = [] →
    s.negotiatedDesktop = some (s.target scaled)

/-- The last timer does not find the desktop at the right size while another
one is on its way; and when the channel becomes ready, the desktop has the
right size, or another one has been wanted, or a timer will see to it. -/
def Fits (s : Resizing) : ResizeEvent → Prop
  | .debounce =>
      s.dispReady = true → s.timers = 1 → s.negotiatedDesktop = some (s.target scaled) →
        ∀ size ∈ s.requests.getLast?, size = s.target scaled
  | .displayControlReady =>
      s.dispReady = false → s.timers = 0 → s.desiredSize = none →
        s.negotiatedDesktop = some (s.target scaled)
  | _ => True

/-- The size that the desktop comes to, if nothing more is sent. -/
def settles (s : Resizing) : Option Size := s.requests.getLast?.or s.negotiatedDesktop

/-- The desktop will have the viewport's size. -/
def Settled (s : Resizing) : Prop :=
  s.dispReady = true → s.timers = 0 → s.settles = some (s.target scaled)

/-- What holds of a session that shows one desktop. -/
structure Inv (s : Resizing) : Prop where
  session : s.session = true
  multimonInUse : s.multimonInUse = false
  railInUse : s.railInUse = false
  negotiatedDesktop : s.negotiatedDesktop.isSome
  /-- Before the channel is ready nothing is sent. -/
  requests : s.dispReady = false → s.requests = []
  desiredSize : s.dispReady = false → s.desiredSize.isSome → s.desiredSize ≠ s.negotiatedDesktop

/-! ## The server's answers -/

/-- The server has applied `n` requests. -/
structure Answered (n : Nat) (s s' : Resizing) : Prop where
  dispReady : s'.dispReady = s.dispReady
  timers : s'.timers = s.timers
  viewport : s'.viewport = s.viewport
  requests : s'.requests = s.requests.drop n
  settles : s'.settles = s.settles

theorem answered_applied (s : Resizing) : Answered 1 s (s.step scaled .applied) := by
  rw [step]
  cases hrequests : s.requests with
  | nil => exact ⟨rfl, rfl, rfl, by rw [hrequests]; rfl, rfl⟩
  | cons size requests =>
      refine ⟨rfl, rfl, rfl, by rw [hrequests]; rfl, ?_⟩
      -- the size that was applied counts if it was the last one asked for
      rw [settles, settles, hrequests]
      cases requests <;> rfl

theorem answered_replicate (n : Nat) (s : Resizing) :
    Answered n s ((List.replicate n ResizeEvent.applied).foldl (step scaled) s) := by
  induction n generalizing s with
  | zero => exact ⟨rfl, rfl, rfl, rfl, rfl⟩
  | succ n ih =>
      have hone := s.answered_applied scaled
      have hrest := ih (s.step scaled .applied)
      rw [List.replicate_succ, List.foldl_cons]
      refine ⟨hrest.dispReady.trans hone.dispReady, hrest.timers.trans hone.timers,
        hrest.viewport.trans hone.viewport, ?_, hrest.settles.trans hone.settles⟩
      rw [hrest.requests, hone.requests, List.drop_drop, Nat.add_comm]

/-- The desktop will have the viewport's size exactly when it has it once the
server has answered. -/
theorem settled_iff (s : Resizing) :
    s.Settled scaled ↔
      ∀ n, ((List.replicate n ResizeEvent.applied).foldl (step scaled) s).Converged scaled := by
  constructor
  · intro h n hready htimers hrequests
    have hn := answered_replicate scaled n s
    have hlast := h (hn.dispReady ▸ hready) (hn.timers ▸ htimers)
    rw [← hn.settles, settles, hrequests] at hlast
    rw [target, hn.viewport]
    exact hlast
  · intro h hready htimers
    have hn := answered_replicate scaled s.requests.length s
    have hnone := hn.requests
    rw [List.drop_length] at hnone
    have hlast := h s.requests.length (hn.dispReady.trans hready) (hn.timers.trans htimers) hnone
    rw [target, hn.viewport] at hlast
    rw [← hn.settles, settles, hnone]
    exact hlast

/-! ## Steps -/

/-- `sendResize` finds the desktop at the right size, or wants another one,
and asks for it if it can. -/
theorem sendResize_cases {s : Resizing} (h : s.Inv) :
    (s.negotiatedDesktop = some (s.target scaled) ∧
        s.sendResize scaled = { s with timerHeld := false }) ∨
      (s.negotiatedDesktop ≠ some (s.target scaled) ∧ s.dispReady = false ∧
        s.sendResize scaled =
          { s with timerHeld := false, desiredSize := some (s.target scaled) }) ∨
      (s.negotiatedDesktop ≠ some (s.target scaled) ∧ s.dispReady = true ∧
        s.sendResize scaled =
          { s with
            timerHeld := false
            desiredSize := some (s.target scaled)
            requests := s.requests ++ [s.target scaled] }) := by
  have hgoes : s.sendResize scaled =
      if s.negotiatedDesktop = some (s.target scaled) then { s with timerHeld := false }
      else if !s.dispReady then
        { s with timerHeld := false, desiredSize := some (s.target scaled) }
      else
        { s with
          timerHeld := false
          desiredSize := some (s.target scaled)
          requests := s.requests ++ [s.target scaled] } := by
    rw [sendResize, h.session, h.multimonInUse, h.railInUse]
    rfl
  rw [hgoes]
  by_cases hsize : s.negotiatedDesktop = some (s.target scaled)
  · left
    exact ⟨hsize, if_pos hsize⟩
  · right
    rw [if_neg hsize]
    cases s.dispReady with
    | false => exact .inl ⟨hsize, rfl, rfl⟩
    | true => exact .inr ⟨hsize, rfl, rfl⟩

theorem inv_sendResize {s : Resizing} (h : s.Inv) : (s.sendResize scaled).Inv := by
  obtain ⟨hsession, hmultimon, hrail, hdesktop, hrequests, hdesired⟩ := h
  obtain ⟨-, heq⟩ | ⟨hsize, hready, heq⟩ | ⟨hsize, hready, heq⟩ := sendResize_cases scaled
    ⟨hsession, hmultimon, hrail, hdesktop, hrequests, hdesired⟩
  · rw [heq]
    exact ⟨hsession, hmultimon, hrail, hdesktop, hrequests, hdesired⟩
  · rw [heq]
    exact ⟨hsession, hmultimon, hrail, hdesktop, hrequests, fun _ _ => hsize.symm⟩
  · rw [heq]
    exact ⟨hsession, hmultimon, hrail, hdesktop, fun hnot => absurd (hready.symm.trans hnot) nofun,
      fun hnot => absurd (hready.symm.trans hnot) nofun⟩

theorem step_viewportChanged {s : Resizing} (h : s.session = true) (viewport : Size) :
    s.step scaled (.viewportChanged viewport) =
      { s with
        viewport
        timers := (if s.timerHeld then s.timers - 1 else s.timers) + 1
        timerHeld := true } := by
  rw [step, onViewportChanged]
  exact if_neg (by rw [h]; exact Bool.false_ne_true)

theorem inv_step {s : Resizing} (h : s.Inv) (e : ResizeEvent) : (s.step scaled e).Inv := by
  obtain ⟨hsession, hmultimon, hrail, hdesktop, hrequests, hdesired⟩ := h
  cases e with
  | viewportChanged viewport =>
      rw [step_viewportChanged scaled hsession]
      exact ⟨hsession, hmultimon, hrail, hdesktop, hrequests, hdesired⟩
  | debounce =>
      rw [step]
      split
      · exact ⟨hsession, hmultimon, hrail, hdesktop, hrequests, hdesired⟩
      · exact inv_sendResize scaled ⟨hsession, hmultimon, hrail, hdesktop, hrequests, hdesired⟩
  | displayControlReady =>
      have hready : Inv { s with dispReady := true } :=
        ⟨hsession, hmultimon, hrail, hdesktop, nofun, nofun⟩
      rw [step, displayControlReady]
      dsimp only
      split
      · exact inv_sendResize scaled hready
      · exact hready
  | applied =>
      rw [step]
      split
      · exact ⟨hsession, hmultimon, hrail, hdesktop, hrequests, hdesired⟩
      · rename_i size requests hcons
        have hnever : ¬ s.dispReady = false := fun hnot => by
          rw [hrequests hnot] at hcons
          cases hcons
        exact ⟨hsession, hmultimon, hrail, rfl, fun hnot => absurd hnot hnever,
          fun hnot => absurd hnot hnever⟩

/-- What `sendResize` leaves alone. -/
theorem timers_sendResize (s : Resizing) : (s.sendResize scaled).timers = s.timers := by
  unfold sendResize
  dsimp only
  split
  · rfl
  split
  · rfl
  split
  · rfl
  split <;> rfl

theorem dispReady_sendResize (s : Resizing) : (s.sendResize scaled).dispReady = s.dispReady := by
  unfold sendResize
  dsimp only
  split
  · rfl
  split
  · rfl
  split
  · rfl
  split <;> rfl

/-- What a timer that fires last leaves. -/
theorem settled_sendResize {s : Resizing} (h : s.Inv) (hready : s.dispReady = true)
    (htimers : s.timers = 0) :
    (s.sendResize scaled).Settled scaled ↔
      (s.negotiatedDesktop = some (s.target scaled) →
        ∀ size ∈ s.requests.getLast?, size = s.target scaled) := by
  obtain ⟨hsize, heq⟩ | ⟨-, hnot, -⟩ | ⟨hsize, -, heq⟩ := sendResize_cases scaled h
  · have hiff : (s.sendResize scaled).Settled scaled ↔
        s.requests.getLast?.or s.negotiatedDesktop = some (s.target scaled) := by
      rw [heq]
      exact ⟨fun h => h hready htimers, fun h _ _ => h⟩
    rw [hiff, forall_prop_of_true hsize, hsize]
    cases s.requests.getLast? <;> simp
  · cases hready.symm.trans hnot
  · refine ⟨fun _ hsame => absurd hsame hsize, fun _ _ _ => ?_⟩
    rw [heq, settles, List.getLast?_append]
    rfl

theorem settled_debounce {s : Resizing} (hinv : s.Inv) (h : s.Settled scaled) :
    (s.step scaled .debounce).Settled scaled ↔ s.Fits scaled .debounce := by
  rw [step, Fits]
  split
  · rename_i hnone
    refine ⟨fun _ _ hone => ?_, fun _ => h⟩
    cases hnone.symm.trans hone
  have hinv' : Inv { s with timers := s.timers - 1 } :=
    ⟨hinv.session, hinv.multimonInUse, hinv.railInUse, hinv.negotiatedDesktop, hinv.requests,
      hinv.desiredSize⟩
  have htimers := timers_sendResize scaled { s with timers := s.timers - 1 }
  have hready := dispReady_sendResize scaled { s with timers := s.timers - 1 }
  by_cases hlast : s.dispReady = true ∧ s.timers = 1
  · obtain ⟨hisReady, hone⟩ := hlast
    have hiff := settled_sendResize scaled hinv' hisReady (by rw [hone])
    exact hiff.trans ⟨fun h _ _ => h, fun h => h hisReady hone⟩
  · -- another timer will fire, or the channel is not ready
    refine ⟨fun _ hisReady hone => absurd ⟨hisReady, hone⟩ hlast, fun _ hisReady hnone => ?_⟩
    rw [hready] at hisReady
    have hzero : s.timers - 1 = 0 := htimers.symm.trans hnone
    exact absurd ⟨hisReady, by omega⟩ hlast

/-- The channel becomes ready, and the size that was wanted is asked for. -/
theorem settled_displayControlReady_wanted {s : Resizing} (hinv : s.Inv) (h : s.Settled scaled)
    (hwanted : s.desiredSize.isSome) (hdiffers : s.desiredSize ≠ s.negotiatedDesktop) :
    (s.step scaled .displayControlReady).Settled scaled := by
  have hstep : s.step scaled .displayControlReady =
      ({ s with dispReady := true } : Resizing).sendResize scaled := by
    rw [step, displayControlReady]
    exact if_pos (by simp [hwanted, hdiffers, hinv.negotiatedDesktop])
  have hinv' : Inv { s with dispReady := true } :=
    ⟨hinv.session, hinv.multimonInUse, hinv.railInUse, hinv.negotiatedDesktop, nofun, nofun⟩
  have hlast : s.timers = 0 → ∀ size ∈ s.requests.getLast?, size = s.target scaled := by
    intro htimers size hsize
    cases hready : s.dispReady with
    | false =>
        rw [hinv.requests hready] at hsize
        cases hsize
    | true =>
        have hsettles := h hready htimers
        rw [settles, Option.mem_def.mp hsize] at hsettles
        exact Option.some.inj hsettles
  rw [hstep]
  intro hready htimers
  rw [timers_sendResize] at htimers
  exact (settled_sendResize scaled hinv' rfl htimers).mpr (fun _ => hlast htimers) hready
    ((timers_sendResize ..).trans htimers)

/-- The channel becomes ready, and no size but that of the desktop was wanted. -/
theorem settled_displayControlReady_unwanted {s : Resizing} (hinv : s.Inv) (h : s.Settled scaled)
    (hwanted : ¬ (s.desiredSize.isSome ∧ s.desiredSize ≠ s.negotiatedDesktop)) :
    (s.step scaled .displayControlReady).Settled scaled ↔ s.Fits scaled .displayControlReady := by
  have hstep : s.step scaled .displayControlReady = { s with dispReady := true } := by
    rw [step, displayControlReady]
    exact if_neg (by simpa [hinv.negotiatedDesktop] using hwanted)
  rw [hstep, Fits]
  cases hready : s.dispReady with
  | true => exact ⟨fun _ => nofun, fun _ _ htimers => h hready htimers⟩
  | false =>
      have hnone : s.desiredSize = none := by
        by_contra hsome
        have hsome' := Option.isSome_iff_ne_none.mpr hsome
        exact hwanted ⟨hsome', hinv.desiredSize hready hsome'⟩
      have hsettles : s.settles = s.negotiatedDesktop := by
        rw [settles, hinv.requests hready]
        rfl
      constructor
      · intro h _ htimers _
        exact hsettles.symm.trans (h rfl htimers)
      · intro h _ htimers
        exact hsettles.trans (h rfl htimers hnone)

theorem settled_step {s : Resizing} (hinv : s.Inv) (h : s.Settled scaled) (e : ResizeEvent) :
    (s.step scaled e).Settled scaled ↔ s.Fits scaled e := by
  cases e with
  | viewportChanged viewport =>
      refine ⟨fun _ => trivial, fun _ _ htimers => ?_⟩
      rw [step_viewportChanged scaled hinv.session] at htimers
      exact absurd htimers (Nat.succ_ne_zero _)
  | debounce => exact settled_debounce scaled hinv h
  | displayControlReady =>
      by_cases hwanted : s.desiredSize.isSome ∧ s.desiredSize ≠ s.negotiatedDesktop
      · refine ⟨fun _ _ _ hnone => ?_, fun _ => ?_⟩
        · rw [hnone] at hwanted
          cases hwanted.1
        · exact settled_displayControlReady_wanted scaled hinv h hwanted.1 hwanted.2
      · exact settled_displayControlReady_unwanted scaled hinv h hwanted
  | applied =>
      have hn := s.answered_applied scaled
      refine ⟨fun _ => trivial, fun _ hready htimers => ?_⟩
      rw [hn.settles, target, hn.viewport]
      exact h (hn.dispReady ▸ hready) (hn.timers ▸ htimers)

/-- In a whole run the desktop comes to the viewport's size, with all answers
of the server, exactly when no step loses a size. -/
theorem always_converged_iff (viewport desktop : Size) (es : List ResizeEvent) :
    Runs.Always (step scaled)
        (fun s => ∀ n,
          ((List.replicate n ResizeEvent.applied).foldl (step scaled) s).Converged scaled)
        (initial viewport desktop) es ↔
      Runs.Each (step scaled) (Fits scaled) (initial viewport desktop) es := by
  simp only [← settled_iff]
  exact Runs.always_iff_each (fun _ e _ h => inv_step scaled h e)
    (fun _ e _ hinv h => settled_step scaled hinv h e) ⟨rfl, rfl, rfl, rfl, fun _ => rfl, nofun⟩
    nofun

end

/-- The viewport changes, and changes back while the server has not answered
yet. -/
def changeBack : List ResizeEvent :=
  [.displayControlReady, .viewportChanged ⟨1000, 700⟩, .debounce, .viewportChanged ⟨800, 600⟩,
    .debounce, .applied]

/-- The desktop stays at the size in between, although the session began with
the right one. -/
theorem not_always_converged : ¬ ∀ (viewport : Size) (es : List ResizeEvent),
    Runs.Always (step id) (Converged id) (initial viewport (.adjusted viewport.w viewport.h))
      es := by
  intro h
  have hlast := h ⟨800, 600⟩ changeBack changeBack (List.prefix_refl _) rfl rfl rfl
  exact absurd hlast (by decide)

end Resizing

end WasmRdp
