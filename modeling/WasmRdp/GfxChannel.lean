import WasmRdp.GfxInvariant

/-!
# Opening and closing the graphics channel

Each time the server opens the channel, `RecreatingDvc` builds a handler
over the session's shared cells; `on_close` only logs. An `EgfxChannel` is
that handler with two ghosts: whether an instance is open, and which
surfaces created on it are neither deleted nor cleared by a reset.

`egfx_active` should be true exactly while such a surface exists, since
`run_session` drops legacy updates while it is set. A close does not touch
it, and the surfaces of the closed instance stay in the shared map. So the
flag is right over a whole run exactly when no instance is closed with a
surface alive: `suppresses_iff_closesClean`.

One direction is an invariant. `Inv` says that the shared map holds the live
surfaces and nothing else, from which the flag follows; a callback changes the
keys of the map and the flag as it changes the live surfaces
(`Inv.callback`, by the effect of the callback), and an open or a clean close
changes neither. The other direction is one step: right after a close with a
surface alive the flag is still set, and there is no open instance that could
render. `suppresses_iff_of_inv` joins the two by induction on the run.

`not_always_suppresses` is the shortest run that goes wrong: the channel
opens, a surface is created, the channel closes.
-/

namespace WasmRdp

open Slices

variable {D : ProgressiveDecoder}

namespace WasmGfxHandler

/-- The legacy paint of `run_session`. -/
def paintLegacy (h : WasmGfxHandler D) (image : DecodedImage)
    (region : InclusiveRectangle) : Checked (WasmGfxHandler D) := do
  let surfaces ← h.surfaces.mapM (·.draw image region)
  return { h with surfaces,
                  js := if surfaces.isEmpty then h.js else h.js ++ [.frame] }

/-- The `GraphicsUpdate` arm of `run_session`. -/
def graphicsUpdate (h : WasmGfxHandler D) (image : DecodedImage)
    (region : InclusiveRectangle) : Checked (WasmGfxHandler D) :=
  if h.egfxActive then return h else h.paintLegacy image region

end WasmGfxHandler

/-- The handler of the current channel instance. -/
structure EgfxChannel (D : ProgressiveDecoder) where
  handler : WasmGfxHandler D
  /-- An instance is open. -/
  isOpen : Bool
  /-- Surfaces created on the open instance, neither deleted nor cleared. -/
  live : Finset UInt16

inductive ChannelEvent where
  | opened
  | closed
  | callback (cb : Callback)

/-- Calls of the page into the session need no open channel. -/
def Callback.fromPage : Callback → Bool
  | .avc420Decoded .. => true
  | _ => false

/-- The surfaces alive after a callback. -/
def Callback.liveAfter (live : Finset UInt16) : Callback → Finset UInt16
  | .surfaceCreated surface => insert surface.id live
  | .surfaceDeleted id => live.erase id
  | .resetGraphics .. => ∅
  | _ => live

namespace EgfxChannel

open WasmGfxHandler

/-- Before the first open. -/
def start (canvases : List Canvas) : EgfxChannel D :=
  ⟨.new canvases ∅ false .rfx [], false, ∅⟩

/-- One event. An instance is opened only after the one before was closed; an open
builds a fresh handler over the shared cells. -/
inductive Step (c : EgfxChannel D) : ChannelEvent → EgfxChannel D → Prop
  | opened (hc : c.isOpen = false) :
      Step c .opened ⟨.new c.handler.surfaces c.handler.gfx c.handler.egfxActive
        c.handler.videoCodec c.handler.js, true, ∅⟩
  | closed (hc : c.isOpen = true) : Step c .closed ⟨c.handler.onClose, false, ∅⟩
  | callback {cb : Callback} {h' : WasmGfxHandler D}
      (hc : c.isOpen = true ∨ cb.fromPage = true)
      (hs : c.handler.step cb = .ok h') :
      Step c (.callback cb) ⟨h', c.isOpen, cb.liveAfter c.live⟩

/-- A run, as its events and the state each leaves. -/
def IsRun : EgfxChannel D → List (ChannelEvent × EgfxChannel D) → Prop
  | _, [] => True
  | c, (ev, c') :: rest => Step c ev c' ∧ IsRun c' rest

/-- No instance is closed while a surface created on it is alive. -/
def ClosesClean : EgfxChannel D → List (ChannelEvent × EgfxChannel D) → Prop
  | _, [] => True
  | c, (ev, c') :: rest => (ev = .closed → c.live = ∅) ∧ ClosesClean c' rest

/-- A surface of the open instance exists. -/
def HasSurface (c : EgfxChannel D) : Prop :=
  c.isOpen = true ∧ c.live.Nonempty

/-- Legacy rendering is suppressed exactly while EGFX can render; without a
surface of the current instance no legacy update is dropped. -/
def Suppresses (c : EgfxChannel D) : Prop :=
  (c.handler.egfxActive = true ↔ c.HasSurface) ∧
    (¬ c.HasSurface → ∀ image region, c.handler.graphicsUpdate image region =
      c.handler.paintLegacy image region)

/-- The shared map holds the live surfaces and nothing else. -/
structure Inv (c : EgfxChannel D) : Prop where
  closed : c.isOpen = false → c.live = ∅
  keys : c.handler.gfx.keys = c.live
  active : c.handler.egfxActive = true ↔ c.live.Nonempty

theorem Inv.suppresses {c : EgfxChannel D} (hi : c.Inv) : c.Suppresses := by
  have hlive : c.HasSurface ↔ c.live.Nonempty := by
    refine ⟨And.right, fun hn => ⟨?_, hn⟩⟩
    rw [← Bool.not_eq_false]
    intro hc
    rw [hi.closed hc] at hn
    exact Finset.not_nonempty_empty hn
  refine ⟨hi.active.trans hlive.symm, fun hno image region => ?_⟩
  rw [graphicsUpdate, if_neg fun ha => hno (hlive.mpr (hi.active.mp ha))]

theorem inv_start (canvases : List Canvas) : Inv (D := D) (start canvases) :=
  ⟨fun _ => rfl, rfl, ⟨fun h => (nomatch h), fun h => absurd h Finset.not_nonempty_empty⟩⟩

/-- Putting back a surface that is there adds no key. -/
theorem keys_insert_of_lookup {gfx : Finmap fun _ : UInt16 => GfxSurface D}
    {id : UInt16} {s t : GfxSurface D} (hs : gfx.lookup id = some s) :
    (gfx.insert id t).keys = gfx.keys := by
  ext i
  rw [Finmap.mem_keys, Finmap.mem_keys, Finmap.mem_insert]
  refine ⟨?_, .inr⟩
  rintro (rfl | hi)
  · exact Finmap.mem_iff.mpr ⟨s, hs⟩
  · exact hi

/-- A callback changes the keys and the flag as it changes the live
surfaces. -/
theorem Inv.callback {c : EgfxChannel D} {cb : Callback}
    {h' : WasmGfxHandler D} (hi : c.Inv)
    (hc : c.isOpen = true ∨ cb.fromPage = true)
    (he : Effect c.handler cb h') :
    Inv ⟨h', c.isOpen, cb.liveAfter c.live⟩ := by
  have hother : cb.isControl = false → h'.gfx.keys = c.handler.gfx.keys →
      h'.egfxActive = c.handler.egfxActive →
      Inv ⟨h', c.isOpen, cb.liveAfter c.live⟩ := by
    intro hcb hkeys hact
    have hlive : cb.liveAfter c.live = c.live := by
      cases cb <;> first | rfl | cases hcb
    rw [hlive]
    refine ⟨hi.closed, hkeys.trans hi.keys, ?_⟩
    rw [hact]
    exact hi.active
  cases he with
  | reset width height =>
      exact ⟨fun _ => rfl, rfl, ⟨fun h => (nomatch h),
        fun h => absurd h Finset.not_nonempty_empty⟩⟩
  | created surface =>
      refine ⟨fun hclosed => ?_, ?_, fun _ => Finset.insert_nonempty .., fun _ => rfl⟩
      · rw [hclosed] at hc
        rcases hc with hc | hc <;> cases hc
      · ext i
        rw [Callback.liveAfter, Finset.mem_insert, ← hi.keys, Finmap.mem_keys,
          Finmap.mem_keys]
        exact Finmap.mem_insert
  | deleted id =>
      have hkeys : (c.handler.onSurfaceDeleted id).gfx.keys = c.live.erase id := by
        rw [← hi.keys]
        exact Finmap.keys_erase ..
      refine ⟨fun hclosed => ?_, hkeys, ?_⟩
      · rw [Callback.liveAfter, hi.closed hclosed]
        rfl
      · have hact : (c.handler.onSurfaceDeleted id).egfxActive =
            if (c.live.erase id).card = 0 then false else c.handler.egfxActive := by
          rw [← hkeys]
          rfl
        rw [Callback.liveAfter, hact]
        split
        · rename_i hzero
          rw [Finset.card_eq_zero.mp hzero]
          exact ⟨fun h => (nomatch h), fun h => absurd h Finset.not_nonempty_empty⟩
        · rename_i hne
          have hsome : (c.live.erase id).Nonempty :=
            Finset.card_pos.mp (Nat.pos_of_ne_zero hne)
          refine ⟨fun _ => hsome, fun _ => hi.active.mpr ?_⟩
          exact hsome.mono (Finset.erase_subset ..)
  | evicted slot => exact ⟨hi.closed, hi.keys, hi.active⟩
  | stored pdu e _ => exact ⟨hi.closed, hi.keys, hi.active⟩
  | idle hcb => exact hother hcb rfl rfl
  | mapped hcb hs hp =>
      exact hother hcb (by rw [hp.gfx, keys_insert_of_lookup hs]) hp.egfxActive
  | drawn hcb hs _ _ hp =>
      exact hother hcb (by rw [hp.gfx, keys_insert_of_lookup hs]) hp.egfxActive

/-- One event keeps the invariant, unless it closes an instance with a
surface alive. -/
theorem Inv.step {c c' : EgfxChannel D} {ev : ChannelEvent} (hi : c.Inv)
    (hs : Step c ev c') (hclean : ev = .closed → c.live = ∅) : c'.Inv := by
  cases hs with
  | opened hc =>
      have hempty := hi.closed hc
      exact ⟨fun h => (nomatch h), hi.keys.trans hempty, by
        rw [← hempty]; exact hi.active⟩
  | closed hc =>
      have hempty := hclean rfl
      exact ⟨fun _ => rfl, hi.keys.trans hempty, by
        rw [← hempty]; exact hi.active⟩
  | callback hc hs => exact hi.callback hc (effect_of_step hs)

theorem suppresses_iff_of_inv : ∀ {tr : List (ChannelEvent × EgfxChannel D)}
    {c : EgfxChannel D}, c.Inv → IsRun c tr →
    ((∀ p ∈ tr, p.2.Suppresses) ↔ ClosesClean c tr)
  | [], c, _, _ => ⟨fun _ => trivial, fun _ p hp => (nomatch hp)⟩
  | (ev, c') :: rest, c, hi, ⟨hstep, hrun⟩ => by
      rw [List.forall_mem_cons, ClosesClean]
      by_cases hclean : ev = .closed → c.live = ∅
      · have hi' := hi.step hstep hclean
        rw [and_iff_right hi'.suppresses, and_iff_right hclean]
        exact suppresses_iff_of_inv hi' hrun
      · -- a close with a surface alive leaves the flag set
        refine iff_of_false (fun h => ?_) fun h => hclean h.1
        obtain ⟨rfl, hlive⟩ := Classical.not_imp.mp hclean
        cases hstep with
        | closed hc =>
            have hact := hi.active.mpr (Finset.nonempty_of_ne_empty hlive)
            have hsurf := h.1.1.mp hact
            cases hsurf.1

/-- Over a run from the start of a session legacy rendering is suppressed
exactly while EGFX can render if, and only if, no instance is closed with a
surface alive. -/
theorem suppresses_iff_closesClean (canvases : List Canvas)
    (tr : List (ChannelEvent × EgfxChannel D)) (hrun : IsRun (start canvases) tr) :
    (∀ p ∈ tr, p.2.Suppresses) ↔ ClosesClean (start canvases) tr :=
  suppresses_iff_of_inv (inv_start canvases) hrun

/-- The channel opens, a surface is created, the channel closes. -/
def closedWithSurface : List (ChannelEvent × EgfxChannel .rejecting) :=
  let h : WasmGfxHandler .rejecting := .new [] ∅ false .rfx []
  let h' := h.onSurfaceCreated ⟨7, 2, 1⟩
  [(.opened, ⟨h, true, ∅⟩), (.callback (.surfaceCreated ⟨7, 2, 1⟩), ⟨h', true, {7}⟩),
    (.closed, ⟨h', false, ∅⟩)]

theorem isRun_closedWithSurface : IsRun (start []) closedWithSurface :=
  ⟨.opened rfl, .callback (.inl rfl) rfl, .closed rfl, trivial⟩

theorem suppresses_iff_closesClean_example :
    (∀ p ∈ closedWithSurface, p.2.Suppresses) ↔
      ClosesClean (start []) closedWithSurface :=
  suppresses_iff_closesClean [] _ isRun_closedWithSurface

/-- The flag is not always right: it stays set after that close. -/
theorem not_always_suppresses :
    ¬ ∀ (D : ProgressiveDecoder) (canvases : List Canvas)
      (tr : List (ChannelEvent × EgfxChannel D)), IsRun (start canvases) tr →
        ∀ p ∈ tr, p.2.Suppresses := by
  intro hall
  have hlast := hall .rejecting [] closedWithSurface isRun_closedWithSurface
    (.closed, ⟨_, false, ∅⟩) (.tail _ (.tail _ (.head _)))
  have hsurf := hlast.1.mp rfl
  cases hsurf.1

end EgfxChannel

end WasmRdp
