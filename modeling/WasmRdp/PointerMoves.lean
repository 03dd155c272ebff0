import WasmRdp.Lib.Binary64

/-!
# The moves of the pointer

`onMouseMove` of `web/app.js` drops a move that comes less than
`MOUSE_THROTTLE_MS` after the last one sent, and nothing sends it later:
`docs/input.md` has the last one sent on the next tick. Over the life of a
page, `Mouse.play` is what the handlers call and when; the windows of the
throttle are given by the times of the moves alone (`Window`), and the
clock's rounding does not disturb them (`step_of_move`).

The times of the clock are doubles, and the handler compares a rounded
difference with the throttle. Between times that are large beside it the
difference is exact, and near the page's load it is too small for its rounding
to reach the throttle (`fl_sub_lt_throttle`, with `Reached.lastMouseTime` for
the states that a page can be in). So a move is sent exactly where it opens a
window.

`Follows` is the invariant of a trace: what was sent are the moves that opened
the windows, in order, and the last window is the one that is open. A move
either opens a window (`Follows.sent`) or leaves it open
(`Follows.unsent`), and the buttons say nothing of the throttle
(`step_of_ne_move`).

After the last event nothing is sent (`calls_by`), so the remote's pointer
stays where the last window was opened. `final_iff` is the exact condition on
the events: the last move opened its window, or was where the opener was.
-/

namespace WasmRdp

open Binary64

/-! ## Where the pointer is -/

/-- A canvas under the pointer, as `getCanvasCoords` finds it. The pointer is
over it, so that it has an extent. -/
structure PointerTarget where
  width : Nat
  height : Nat
  rectLeft : ℚ
  rectTop : ℚ
  rectWidth : ℚ
  rectHeight : ℚ
  rdpOffset : Option (Int × Int)
  extent : 0 < rectWidth ∧ 0 < rectHeight

structure MouseEvent where
  clientX : ℚ
  clientY : ℚ
  button : Int
  currentTarget : PointerTarget

/-- `Math.round` -/
def mathRound (x : ℚ) : Int := ⌊x + 1 / 2⌋

def getCanvasCoords (e : MouseEvent) : ℚ × ℚ :=
  let el := e.currentTarget
  let scaleX := fl (el.width / el.rectWidth)
  let scaleY := fl (el.height / el.rectHeight)
  let off := el.rdpOffset.getD (0, 0)
  (fl (mathRound (fl (fl (e.clientX - el.rectLeft) * scaleX)) + off.1),
    fl (mathRound (fl (fl (e.clientY - el.rectTop) * scaleY)) + off.2))

/-- A canvas in the corner of the page, a pixel to a pixel, gives points as
they are. -/
theorem getCanvasCoords_of_corner {e : MouseEvent} {x y : Nat} (hx : x < 2 ^ 53) (hy : y < 2 ^ 53)
    (hclient : e.clientX = x ∧ e.clientY = y)
    (hcorner : e.currentTarget.rectLeft = 0 ∧ e.currentTarget.rectTop = 0)
    (hscale : (e.currentTarget.width : ℚ) = e.currentTarget.rectWidth ∧
      (e.currentTarget.height : ℚ) = e.currentTarget.rectHeight)
    (hoffset : e.currentTarget.rdpOffset = none) : getCanvasCoords e = ((x : ℚ), (y : ℚ)) := by
  obtain ⟨hwidth, hheight⟩ := e.currentTarget.extent
  have hone : fl 1 = 1 := by
    have hdouble : IsDouble ((1 : Nat) : ℚ) := isDouble_natCast (by norm_num)
    rwa [Nat.cast_one] at hdouble
  have hround : ∀ n : Nat, mathRound n = n := by
    intro n
    rw [mathRound, Int.floor_eq_iff]
    constructor <;> push_cast <;> linarith
  have hdouble : ∀ n : Nat, n < 2 ^ 53 → fl n = n := fun n hn => isDouble_natCast hn
  simp only [getCanvasCoords, hclient, hcorner, hscale, hoffset, div_self hwidth.ne',
    div_self hheight.ne', hone, sub_zero, mul_one, hdouble x hx, hdouble y hy, hround,
    Option.getD_none, Int.cast_zero, add_zero, Int.cast_natCast]

/-! ## The handlers -/

/-- A call of the session. -/
inductive MouseCall where
  | mouseMove (position : ℚ × ℚ)
  | mouseButton (button : Int) (down : Bool) (position : ℚ × ℚ)

structure Mouse where
  session : Bool
  lastMouseTime : ℚ

def mouseThrottleMs : ℚ := 16

def onMouseMove (m : Mouse) (now : ℚ) (e : MouseEvent) : Mouse × List MouseCall :=
  if !m.session then (m, [])
  else if fl (now - m.lastMouseTime) < mouseThrottleMs then (m, [])
  else ({ m with lastMouseTime := now }, [.mouseMove (getCanvasCoords e)])

def onMouseDown (m : Mouse) (e : MouseEvent) : Mouse × List MouseCall :=
  if !m.session then (m, []) else (m, [.mouseButton e.button true (getCanvasCoords e)])

def onMouseUp (m : Mouse) (e : MouseEvent) : Mouse × List MouseCall :=
  if !m.session then (m, []) else (m, [.mouseButton e.button false (getCanvasCoords e)])

inductive Gesture where
  | move
  | down
  | up
  deriving DecidableEq

/-- An event of a canvas, with what `performance.now()` gives in its
handler. -/
structure PointerEvent where
  now : ℚ
  gesture : Gesture
  event : MouseEvent

def Mouse.step (m : Mouse) (p : PointerEvent) : Mouse × List MouseCall :=
  match p.gesture with
  | .move => onMouseMove m p.now p.event
  | .down => onMouseDown m p.event
  | .up => onMouseUp m p.event

/-- One more event, its calls with their time. -/
def Mouse.playOne (s : Mouse × List (ℚ × MouseCall)) (p : PointerEvent) :
    Mouse × List (ℚ × MouseCall) :=
  ((s.1.step p).1, s.2 ++ (s.1.step p).2.map (p.now, ·))

/-- The state after the events, and the calls that they made. -/
def Mouse.play (m : Mouse) (events : List PointerEvent) : Mouse × List (ℚ × MouseCall) :=
  events.foldl playOne (m, [])

/-- What a page's mouse state can be, and a time before which it came to be so.
The clock gives doubles and does not run backwards. -/
inductive Mouse.Reached : Mouse → ℚ → Prop where
  | load : Reached ⟨false, 0⟩ 0
  | session {m : Mouse} {t : ℚ} (live : Bool) :
      Reached m t → Reached { m with session := live } t
  | event {m : Mouse} {t : ℚ} {p : PointerEvent} :
      Reached m t → t ≤ p.now → IsDouble p.now → Reached (m.step p).1 p.now

/-! ## Moves and windows -/

/-- The moves among the events, each with its time and its position. -/
def movesOf (events : List PointerEvent) : List (ℚ × (ℚ × ℚ)) :=
  events.filterMap fun p =>
    if p.gesture = .move then some (p.now, getCanvasCoords p.event) else none

/-- The calls of `send_mouse_move`, each with its time and its position. -/
def sentMoves (calls : List (ℚ × MouseCall)) : List (ℚ × (ℚ × ℚ)) :=
  calls.filterMap fun c =>
    match c.2 with
    | .mouseMove position => some (c.1, position)
    | .mouseButton .. => none

/-- A window of the throttle: the time of the move that opened it, and where
that move was. -/
structure Window where
  opened : ℚ
  position : Option (ℚ × ℚ)

/-- A move opens a window unless the last one is open still. -/
def Window.next (w : Window) (move : ℚ × (ℚ × ℚ)) : Window :=
  if move.1 < w.opened + mouseThrottleMs then w else ⟨move.1, some move.2⟩

/-- The window that the last of the moves falls into. -/
def Window.after (w : Window) (moves : List (ℚ × (ℚ × ℚ))) : Window :=
  moves.foldl next w

/-! ## The clock -/

theorem isDouble_throttle : IsDouble mouseThrottleMs :=
  isDouble_natCast (n := 16) (by norm_num)

/-- The rounded difference is under the throttle where the exact one is. -/
theorem fl_sub_lt_throttle {t now : ℚ} (ht : t = 0 ∨ mouseThrottleMs ≤ t ∧ IsDouble t)
    (hle : t ≤ now) (hnow : IsDouble now) :
    fl (now - t) < mouseThrottleMs ↔ now < t + mouseThrottleMs := by
  have hover : mouseThrottleMs ≤ now - t → mouseThrottleMs ≤ fl (now - t) := by
    intro hdiff
    calc mouseThrottleMs = fl mouseThrottleMs := isDouble_throttle.symm
      _ ≤ fl (now - t) := fl_mono (by norm_num [mouseThrottleMs]) hdiff
  have hexact : now - t < mouseThrottleMs → fl (now - t) = now - t := by
    intro hdiff
    rcases ht with rfl | ⟨hlow, hdouble⟩
    · rw [sub_zero]
      exact hnow
    · refine fl_sub_of_near (e := 4) (by norm_num) hdouble hnow ?_ hle ?_
      · norm_num [mouseThrottleMs] at hlow ⊢
        exact hlow
      · norm_num [mouseThrottleMs] at hdiff ⊢
        linarith
  constructor
  · intro hunder
    by_contra hlate
    exact absurd (hover (by linarith)) (not_le.mpr hunder)
  · intro hsoon
    rw [hexact (by linarith)]
    linarith

namespace Mouse

/-! ## One event -/

theorem step_session (m : Mouse) (p : PointerEvent) : (m.step p).1.session = m.session := by
  unfold step onMouseMove onMouseDown onMouseUp
  cases p.gesture <;> dsimp only <;> split_ifs <;> rfl

/-- A button says nothing of the throttle. -/
theorem step_of_ne_move {m : Mouse} {p : PointerEvent} (h : p.gesture ≠ .move) :
    (m.step p).1 = m ∧ sentMoves ((m.step p).2.map (p.now, ·)) = [] := by
  unfold step onMouseDown onMouseUp
  cases hgesture : p.gesture with
  | move => exact absurd hgesture h
  | down =>
      dsimp only
      split_ifs
      all_goals exact ⟨rfl, rfl⟩
  | up =>
      dsimp only
      split_ifs
      all_goals exact ⟨rfl, rfl⟩

/-- The last move sent is that of the page's load, or late enough that the
clock's differences are exact. -/
theorem Reached.lastMouseTime {m : Mouse} {t : ℚ} (h : m.Reached t) :
    m.lastMouseTime ≤ t ∧
      (m.lastMouseTime = 0 ∨ mouseThrottleMs ≤ m.lastMouseTime ∧ IsDouble m.lastMouseTime) := by
  induction h with
  | load => exact ⟨le_rfl, .inl rfl⟩
  | session live _ ih => exact ih
  | @event m t p _ hle hdouble ih =>
      obtain ⟨hlast, hspaced⟩ := ih
      by_cases hmove : p.gesture = .move
      · rw [step, hmove]
        dsimp only
        unfold onMouseMove
        split_ifs with hsession hthrottle
        · exact ⟨hlast.trans hle, hspaced⟩
        · exact ⟨hlast.trans hle, hspaced⟩
        · rw [fl_sub_lt_throttle hspaced (hlast.trans hle) hdouble, not_lt] at hthrottle
          refine ⟨le_rfl, .inr ⟨?_, hdouble⟩⟩
          dsimp only
          rcases hspaced with hzero | ⟨hlow, -⟩
          · rw [hzero, zero_add] at hthrottle
            exact hthrottle
          · have hpos : 0 ≤ mouseThrottleMs := by norm_num [mouseThrottleMs]
            linarith
      · rw [(step_of_ne_move hmove).1]
        exact ⟨hlast.trans hle, hspaced⟩

/-- A move is sent where it opens a window. -/
theorem step_of_move {m : Mouse} {t : ℚ} {p : PointerEvent} (hreached : m.Reached t)
    (hlive : m.session = true) (hle : t ≤ p.now) (hdouble : IsDouble p.now)
    (hmove : p.gesture = .move) :
    (p.now < m.lastMouseTime + mouseThrottleMs ∧ (m.step p).1 = m ∧
      sentMoves ((m.step p).2.map (p.now, ·)) = []) ∨
    (m.lastMouseTime + mouseThrottleMs ≤ p.now ∧
      (m.step p).1 = { m with lastMouseTime := p.now } ∧
      sentMoves ((m.step p).2.map (p.now, ·)) = [(p.now, getCanvasCoords p.event)]) := by
  obtain ⟨hlast, hspaced⟩ := hreached.lastMouseTime
  have hthrottle := fl_sub_lt_throttle hspaced (hlast.trans hle) hdouble
  have hstep : m.step p = onMouseMove m p.now p.event := by rw [step, hmove]
  rw [hstep, onMouseMove, hlive, Bool.not_true, if_neg Bool.false_ne_true]
  by_cases hsoon : p.now < m.lastMouseTime + mouseThrottleMs
  · rw [if_pos (hthrottle.mpr hsoon)]
    exact .inl ⟨hsoon, rfl, rfl⟩
  · rw [if_neg (mt hthrottle.mp hsoon)]
    exact .inr ⟨not_lt.mp hsoon, rfl, rfl⟩

/-! ## A run -/

theorem play_concat (m : Mouse) (events : List PointerEvent) (p : PointerEvent) :
    m.play (events ++ [p]) = playOne (m.play events) p := by
  rw [play, List.foldl_concat, ← play]

/-- Every call is made in the handler of an event. -/
theorem exists_event_of_call {m : Mouse} {events : List PointerEvent} {c : ℚ × MouseCall}
    (hc : c ∈ (m.play events).2) : ∃ p ∈ events, c.1 = p.now := by
  induction events using List.reverseRecOn with
  | nil => exact absurd hc List.not_mem_nil
  | append_singleton events p ih =>
      rw [play_concat, playOne, List.mem_append] at hc
      rcases hc with hc | hc
      · obtain ⟨p', hp', htime⟩ := ih hc
        exact ⟨p', List.mem_append_left _ hp', htime⟩
      · obtain ⟨call, -, rfl⟩ := List.mem_map.mp hc
        exact ⟨p, List.mem_append_right _ List.mem_cons_self, rfl⟩

/-- What is sent follows the windows of the moves. -/
structure Follows (start : ℚ) (events : List PointerEvent) (w : Window)
    (s : Mouse × List (ℚ × MouseCall)) : Prop where
  reached : ∃ t ∈ start :: events.map PointerEvent.now, s.1.Reached t
  live : s.1.session = true
  opened : s.1.lastMouseTime = w.opened
  position : (sentMoves s.2).getLast?.map Prod.snd = w.position
  before : ∀ c ∈ sentMoves s.2, c.1 ≤ s.1.lastMouseTime
  spaced : (sentMoves s.2).Pairwise fun c c' => c.1 + mouseThrottleMs ≤ c'.1

theorem sentMoves_append (calls calls' : List (ℚ × MouseCall)) :
    sentMoves (calls ++ calls') = sentMoves calls ++ sentMoves calls' :=
  List.filterMap_append

theorem movesOf_concat (events : List PointerEvent) (p : PointerEvent) :
    movesOf (events ++ [p]) =
      movesOf events ++ if p.gesture = .move then [(p.now, getCanvasCoords p.event)] else [] := by
  rw [movesOf, List.filterMap_append, ← movesOf]
  by_cases h : p.gesture = .move <;> simp [h]

theorem Follows.reached_next {start : ℚ} {events : List PointerEvent} {w : Window}
    {s : Mouse × List (ℚ × MouseCall)} {p : PointerEvent} (h : Follows start events w s)
    (hclock : ∀ t ∈ start :: events.map PointerEvent.now, t ≤ p.now)
    (hdouble : IsDouble p.now) :
    ∃ t ∈ start :: (events ++ [p]).map PointerEvent.now, (s.1.step p).1.Reached t := by
  obtain ⟨t, ht, hreached⟩ := h.reached
  refine ⟨p.now, ?_, hreached.event (hclock t ht) hdouble⟩
  rw [List.map_append]
  exact List.mem_cons_of_mem _ (List.mem_append_right _ List.mem_cons_self)

/-- An event that sends no move leaves the window open. -/
theorem Follows.unsent {start : ℚ} {events : List PointerEvent} {w : Window}
    {s : Mouse × List (ℚ × MouseCall)} {p : PointerEvent} (h : Follows start events w s)
    (hclock : ∀ t ∈ start :: events.map PointerEvent.now, t ≤ p.now) (hdouble : IsDouble p.now)
    (hstate : (s.1.step p).1 = s.1)
    (hsent : sentMoves ((s.1.step p).2.map (p.now, ·)) = []) :
    Follows start (events ++ [p]) w (playOne s p) := by
  have hcalls : sentMoves (playOne s p).2 = sentMoves s.2 := by
    rw [playOne, sentMoves_append, hsent, List.append_nil]
  refine ⟨h.reached_next hclock hdouble, ?_, ?_, ?_, ?_, ?_⟩
  · rw [playOne, step_session, h.live]
  · rw [playOne, hstate, h.opened]
  · rw [hcalls, h.position]
  · rw [hcalls, playOne, hstate]
    exact h.before
  · rw [hcalls]
    exact h.spaced

/-- A move that is sent opens a window, after all that was sent. -/
theorem Follows.sent {start : ℚ} {events : List PointerEvent} {w : Window}
    {s : Mouse × List (ℚ × MouseCall)} {p : PointerEvent} (h : Follows start events w s)
    (hclock : ∀ t ∈ start :: events.map PointerEvent.now, t ≤ p.now) (hdouble : IsDouble p.now)
    (hlate : s.1.lastMouseTime + mouseThrottleMs ≤ p.now)
    (hstate : (s.1.step p).1 = { s.1 with lastMouseTime := p.now })
    (hsent : sentMoves ((s.1.step p).2.map (p.now, ·)) = [(p.now, getCanvasCoords p.event)]) :
    Follows start (events ++ [p]) ⟨p.now, some (getCanvasCoords p.event)⟩ (playOne s p) := by
  have hcalls : sentMoves (playOne s p).2 =
      sentMoves s.2 ++ [(p.now, getCanvasCoords p.event)] := by
    rw [playOne, sentMoves_append, hsent]
  have hpos : 0 ≤ mouseThrottleMs := by norm_num [mouseThrottleMs]
  refine ⟨h.reached_next hclock hdouble, ?_, ?_, ?_, ?_, ?_⟩
  · rw [playOne, step_session, h.live]
  · rw [playOne, hstate]
  · rw [hcalls, List.getLast?_concat, Option.map_some]
  · rw [hcalls, playOne, hstate]
    intro c hc
    rcases List.mem_append.mp hc with hc | hc
    · have hbefore := h.before c hc
      dsimp only
      linarith
    · rw [List.mem_singleton.mp hc]
  · rw [hcalls, List.pairwise_append]
    refine ⟨h.spaced, List.pairwise_singleton _ _, fun c hc c' hc' => ?_⟩
    have hbefore := h.before c hc
    rw [List.mem_singleton.mp hc']
    dsimp only
    linarith

theorem Follows.next {start : ℚ} {events : List PointerEvent} {w : Window}
    {s : Mouse × List (ℚ × MouseCall)} {p : PointerEvent} (h : Follows start events w s)
    (hclock : ∀ t ∈ start :: events.map PointerEvent.now, t ≤ p.now)
    (hdouble : IsDouble p.now) :
    Follows start (events ++ [p])
      (w.after (if p.gesture = .move then [(p.now, getCanvasCoords p.event)] else []))
      (playOne s p) := by
  by_cases hmove : p.gesture = .move
  · obtain ⟨t, ht, hreached⟩ := h.reached
    rw [if_pos hmove, Window.after, List.foldl_cons, List.foldl_nil, Window.next]
    rcases step_of_move hreached h.live (hclock t ht) hdouble hmove with
      ⟨hsoon, hstate, hsent⟩ | ⟨hlate, hstate, hsent⟩
    · rw [← h.opened, if_pos hsoon]
      exact h.unsent hclock hdouble hstate hsent
    · rw [← h.opened, if_neg (not_lt.mpr hlate)]
      exact h.sent hclock hdouble hlate hstate hsent
  · obtain ⟨hstate, hsent⟩ := step_of_ne_move hmove
    rw [if_neg hmove]
    exact h.unsent hclock hdouble hstate hsent

end Mouse

/-- Events of the canvases while a session lives, in the order of the clock;
`start` is a time before them. -/
structure PointerTrace where
  mouse : Mouse
  start : ℚ
  reached : mouse.Reached start
  live : mouse.session = true
  events : List PointerEvent
  clock : (start :: events.map PointerEvent.now).Pairwise (· ≤ ·)
  double : ∀ p ∈ events, IsDouble p.now

namespace PointerTrace

def calls (tr : PointerTrace) : List (ℚ × MouseCall) := (tr.mouse.play tr.events).2

/-- The window that is open when the trace begins. -/
def opening (tr : PointerTrace) : Window := ⟨tr.mouse.lastMouseTime, none⟩

theorem follows (tr : PointerTrace) :
    Mouse.Follows tr.start tr.events (tr.opening.after (movesOf tr.events))
      (tr.mouse.play tr.events) := by
  obtain ⟨m, start, hreached, hlive, events, hclock, hdouble⟩ := tr
  dsimp only [opening]
  induction events using List.reverseRecOn with
  | nil =>
      exact ⟨⟨start, List.mem_cons_self, hreached⟩, hlive, rfl, rfl,
        fun c hc => absurd hc List.not_mem_nil, List.Pairwise.nil⟩
  | append_singleton events p ih =>
      rw [List.map_append, ← List.cons_append, List.pairwise_append] at hclock
      have hfollows := ih hclock.1 fun q hq => hdouble q (List.mem_append_left _ hq)
      rw [Mouse.play_concat, Mouse.movesOf_concat, Window.after, List.foldl_append]
      exact hfollows.next (fun t ht => hclock.2.2 t ht p.now List.mem_cons_self)
        (hdouble p (List.mem_append_right _ List.mem_cons_self))

/-! ## The last move -/

/-- By a moment more than the throttle after the last event, the session has
been told of the last move; and no two moves were sent within the throttle. -/
structure Final (tr : PointerTrace) : Prop where
  position : ∀ later, (∀ p ∈ tr.events, p.now + mouseThrottleMs < later) →
    (sentMoves (tr.calls.filter (·.1 ≤ later))).getLast?.map Prod.snd =
      (movesOf tr.events).getLast?.map Prod.snd
  spaced : (sentMoves tr.calls).Pairwise fun c c' => c.1 + mouseThrottleMs ≤ c'.1

/-- The last move opens a window, or is where the move was that opened the
one it falls into. -/
def LastOpens (tr : PointerTrace) : Prop :=
  ∀ earlier last, movesOf tr.events = earlier ++ [last] →
    (tr.opening.after earlier).opened + mouseThrottleMs ≤ last.1 ∨
      (tr.opening.after earlier).position = some last.2

theorem exists_later (events : List PointerEvent) :
    ∃ later, ∀ p ∈ events, p.now + mouseThrottleMs < later := by
  induction events with
  | nil => exact ⟨0, fun p hp => absurd hp List.not_mem_nil⟩
  | cons p events ih =>
      obtain ⟨later, hlater⟩ := ih
      refine ⟨max later (p.now + mouseThrottleMs + 1), fun q hq => ?_⟩
      rcases List.mem_cons.mp hq with rfl | hq
      · exact lt_max_of_lt_right (lt_add_one _)
      · exact lt_max_of_lt_left (hlater q hq)

/-- Nothing is sent after the last event. -/
theorem calls_by (tr : PointerTrace) {later : ℚ}
    (hlater : ∀ p ∈ tr.events, p.now + mouseThrottleMs < later) :
    tr.calls.filter (·.1 ≤ later) = tr.calls := by
  rw [List.filter_eq_self]
  intro c hc
  obtain ⟨p, hp, htime⟩ := Mouse.exists_event_of_call hc
  have hpos : 0 ≤ mouseThrottleMs := by norm_num [mouseThrottleMs]
  have hbefore := hlater p hp
  rw [decide_eq_true_eq, htime]
  linarith

theorem position_iff (tr : PointerTrace) :
    (tr.opening.after (movesOf tr.events)).position =
      (movesOf tr.events).getLast?.map Prod.snd ↔ tr.LastOpens := by
  unfold LastOpens
  rcases List.eq_nil_or_concat (movesOf tr.events) with hnil | ⟨earlier, last, hmoves⟩
  · rw [hnil]
    refine iff_of_true rfl fun earlier last hmoves => ?_
    exact absurd hmoves.symm (List.append_ne_nil_of_right_ne_nil _ (List.cons_ne_nil _ _))
  · rw [List.concat_eq_append] at hmoves
    rw [hmoves, List.getLast?_concat, Option.map_some, Window.after, List.foldl_concat,
      ← Window.after, Window.next]
    constructor
    · intro hposition earlier' last' hsplit
      obtain ⟨rfl, hlast⟩ := List.append_inj' hsplit rfl
      rw [← (List.cons.inj hlast).1]
      by_cases hsoon : last.1 < (tr.opening.after earlier).opened + mouseThrottleMs
      · rw [if_pos hsoon] at hposition
        exact .inr hposition
      · exact .inl (not_lt.mp hsoon)
    · intro hopens
      rcases hopens earlier last rfl with hlate | hposition
      · rw [if_neg (not_lt.mpr hlate)]
      · split_ifs
        · exact hposition
        · rfl

theorem lastOpens_of_final {tr : PointerTrace} (h : tr.Final) : tr.LastOpens := by
  obtain ⟨later, hlater⟩ := exists_later tr.events
  have hposition := h.position later hlater
  rw [tr.calls_by hlater] at hposition
  rw [← position_iff, ← tr.follows.position]
  exact hposition

/-- The remote's pointer ends where the last move was exactly if that move
opened a window of the throttle, or was where the opener was. -/
theorem final_iff (tr : PointerTrace) : tr.Final ↔ tr.LastOpens := by
  refine ⟨lastOpens_of_final, fun hopens => ⟨fun later hlater => ?_, tr.follows.spaced⟩⟩
  rw [← position_iff, ← tr.follows.position] at hopens
  rw [tr.calls_by hlater]
  exact hopens

end PointerTrace

/-- A move over a canvas of 800 by 600 in the corner of the page. -/
def moveOver (now x y : Nat) : PointerEvent where
  now := now
  gesture := .move
  event := ⟨x, y, 0, ⟨800, 600, 0, 0, 800, 600, none, by norm_num⟩⟩

theorem movesOf_moveOver {now x y : Nat} (hx : x < 2 ^ 53) (hy : y < 2 ^ 53)
    (events : List PointerEvent) :
    movesOf (moveOver now x y :: events) = ((now : ℚ), ((x : ℚ), (y : ℚ))) :: movesOf events := by
  have hscale : ((800 : Nat) : ℚ) = 800 ∧ ((600 : Nat) : ℚ) = 600 := by norm_num
  have hcoords : getCanvasCoords (moveOver now x y).event = ((x : ℚ), (y : ℚ)) :=
    getCanvasCoords_of_corner hx hy ⟨rfl, rfl⟩ ⟨rfl, rfl⟩ hscale rfl
  rw [movesOf, List.filterMap_cons, hcoords]
  rfl

/-- Two moves, eight milliseconds apart. -/
def twoMoves : PointerTrace where
  mouse := ⟨true, 0⟩
  start := 0
  reached := Mouse.Reached.load.session true
  live := rfl
  events := [moveOver 1000 10 10, moveOver 1008 20 20]
  clock := by norm_num [moveOver]
  double := by
    intro p hp
    rcases List.mem_cons.mp hp with rfl | hp
    · exact isDouble_natCast (n := 1000) (by norm_num)
    · rw [List.mem_singleton.mp hp]
      exact isDouble_natCast (n := 1008) (by norm_num)

/-- The second of them is not sent, however long the pointer rests. -/
theorem not_final : ¬ twoMoves.Final := by
  intro h
  have hmoves : movesOf twoMoves.events =
      [(1000, (10, 10))] ++ [((1008 : ℚ), ((20 : ℚ), (20 : ℚ)))] := by
    rw [twoMoves, movesOf_moveOver (by norm_num) (by norm_num),
      movesOf_moveOver (by norm_num) (by norm_num)]
    norm_num [movesOf]
  have hwindow : twoMoves.opening.after [(1000, (10, 10))] = ⟨1000, some (10, 10)⟩ := by
    norm_num [PointerTrace.opening, twoMoves, Window.after, Window.next, mouseThrottleMs]
  have hopens := PointerTrace.lastOpens_of_final h _ _ hmoves
  rw [hwindow] at hopens
  norm_num [mouseThrottleMs] at hopens

end WasmRdp
