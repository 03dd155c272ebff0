import Mathlib.Data.List.Nodup
import Mathlib.Order.Bounds.Basic
import WasmRdp.Monitors

/-!
# A live relayout

`buildMonitorLayout` of `web/app.js` places the screens around the one that
the browser is on, and then shifts them so that the bounding box begins at
(0,0). That screen is the primary monitor, and the loop skips a primary
monitor that is not at (0,0): the shift must not have moved it. So no monitor
is lost exactly when the browser's screen is the leftmost and the topmost one
(`losesNone_iff`), with no other too far away for the 32 bits of the flat
array.

The shift is described by where it takes the origin: `buildMonitorLayout_eq`
gives the layout as seen from a point, and `IsCorner` says that this point is
the corner of the bounding box. `accepted_iff` is the loop's check in these
terms. An entry that is not skipped shows its screen, with the size that the
protocol allows (`shows_placed`).

Numbers of the script become 32 bits when the flat array is made, which is
modular. A screen that is 2^32 away from the corner would come out at zero
again, so the condition asks for distances within 32 bits
(`ofInt_eq_zero_iff`), as every arrangement of real screens has them.

Whether the layout reaches the loop is the other half: with two screens or more
`onScreensChange` hands it on. The library that makes the entries is a
parameter; what the protocol says of it is `DisplayControl.Documented`.
-/

namespace WasmRdp

/-! ## The layout -/

/-- A `ScreenDetailed`. -/
structure Screen where
  left : Int32
  top : Int32
  width : Int32
  height : Int32
  isPrimary : Bool

/-- An element of `layout`; its numbers have not been cut to 32 bits yet. -/
structure PlacedScreen where
  left : Int
  top : Int
  width : Int
  height : Int
  primary : Bool
  deriving DecidableEq

/-- `currentScreen || screens.find((s) => s.isPrimary) || screens[0]` -/
def primaryIndex (screens : List Screen) (currentScreen : Option (Fin screens.length)) : Nat :=
  match currentScreen with
  | some i => i
  | none => (screens.findIdx? (·.isPrimary)).getD 0

/-- A screen and its index, in a layout whose origin is at (x,y). -/
def PlacedScreen.of (x y : Int) (primary : Nat) (s : Screen × Nat) : PlacedScreen where
  left := s.1.left.toInt - x
  top := s.1.top.toInt - y
  width := s.1.width.toInt
  height := s.1.height.toInt
  primary := s.2 = primary

def buildMonitorLayout (screens : List Screen) (currentScreen : Option (Fin screens.length)) :
    List PlacedScreen :=
  let primary := primaryIndex screens currentScreen
  match screens[primary]? with
  | none => []
  | some p =>
      let layout := screens.zipIdx.map (PlacedScreen.of p.left.toInt p.top.toInt primary)
      let minLeft : Int := (layout.map (·.left)).min?.getD 0
      let minTop : Int := (layout.map (·.top)).min?.getD 0
      if minLeft < 0 ∨ minTop < 0 then
        layout.map fun m => { m with left := m.left - minLeft, top := m.top - minTop }
      else layout

/-- `Int32Array.from(flat)` -/
def flatten (layout : List PlacedScreen) : List Int32 :=
  layout.flatMap fun m =>
    [.ofInt m.left, .ofInt m.top, .ofInt m.width, .ofInt m.height, if m.primary then 1 else 0]

def onScreensChange (multimonInUse session : Bool) (screens : List Screen)
    (currentScreen : Option (Fin screens.length)) : Option LayoutRequest :=
  if !multimonInUse || !session then none
  else
    let layout := buildMonitorLayout screens currentScreen
    if layout.length < 2 then none else applyMonitorLayout (flatten layout)

/-! ## What is to be kept -/

/-- The entry shows the screen, as seen from (x,y). -/
structure MonitorLayoutEntry.Shows (x y : Int) (s : Screen) (e : MonitorLayoutEntry) : Prop where
  left : e.left.toInt = s.left.toInt - x
  top : e.top.toInt = s.top.toInt - y
  size : ⟨e.width.toNat, e.height.toNat⟩ =
    Size.adjusted s.width.toInt.toNat s.height.toInt.toNat

/-- The server is sent an entry for each screen, in order, one of them
primary, and all of them as seen from the same point. -/
structure KeepsMonitors (screens : List Screen) (entries : List MonitorLayoutEntry) : Prop where
  shows : ∃ x y, List.Forall₂ (MonitorLayoutEntry.Shows x y) screens entries
  primary : entries.countP (·.isPrimary) = 1

/-- The screen is the leftmost and the topmost one, within 32 bits. -/
def AtCorner (screens : List Screen) (p : Screen) : Prop :=
  ∀ s ∈ screens,
    (p.left.toInt ≤ s.left.toInt ∧ s.left.toInt - p.left.toInt < 2 ^ 31) ∧
      p.top.toInt ≤ s.top.toInt ∧ s.top.toInt - p.top.toInt < 2 ^ 31

/-! ## The flat array -/

def PlacedScreen.chunk (m : PlacedScreen) : LayoutChunk where
  left := .ofInt m.left
  top := .ofInt m.top
  w := .ofInt m.width
  h := .ofInt m.height
  primary := if m.primary then 1 else 0

theorem chunksExact_flatten (layout : List PlacedScreen) :
    chunksExact (flatten layout) = layout.map PlacedScreen.chunk := by
  induction layout with
  | nil => rfl
  | cons m layout ih =>
      rw [List.map_cons, ← ih]
      rfl

theorem PlacedScreen.chunk_primary (m : PlacedScreen) : m.chunk.primary ≠ 0 ↔ m.primary = true := by
  rw [chunk]
  cases m.primary <;> simp

/-- A number of 32 bits that comes from one less than 2^32 above zero. -/
theorem ofInt_eq_zero_iff {x : Int} (h : 0 ≤ x) (h' : x < 2 ^ 32) : Int32.ofInt x = 0 ↔ x = 0 := by
  have hzero : (0 : Int32).toInt = 0 := rfl
  rw [← Int32.toInt_inj, Int32.toInt_ofInt, hzero, Int.bmod_def]
  unfold Int32.size
  split <;> omega

theorem toInt_ofInt {x : Int} (h : -2 ^ 31 ≤ x) (h' : x < 2 ^ 31) : (Int32.ofInt x).toInt = x := by
  rw [Int32.toInt_ofInt]
  exact Int.bmod_eq_of_le (by unfold Int32.size; omega) (by unfold Int32.size; omega)

/-! ## The shift -/

/-- The least of the distances from `p`. -/
theorem isLeast_min {screens : List Screen} {p : Screen} (hp : p ∈ screens) (f : Screen → Int) :
    (screens.map fun s => f s - f p).min?.getD 0 ≤ 0 ∧
      IsLeast {x | ∃ s ∈ screens, f s = x}
        (f p + (screens.map fun s => f s - f p).min?.getD 0) := by
  have hself : f p - f p ∈ screens.map fun s => f s - f p :=
    List.mem_map_of_mem (f := fun s => f s - f p) hp
  obtain ⟨m, hm⟩ := Option.isSome_iff_exists.mp (List.isSome_min?_of_mem hself)
  obtain ⟨hmem, hle⟩ := List.min?_eq_some_iff.mp hm
  obtain ⟨s, hs, rfl⟩ := List.mem_map.mp hmem
  rw [hm, Option.getD_some]
  have hself' := hle _ hself
  refine ⟨by omega, ⟨s, hs, by omega⟩, ?_⟩
  rintro x ⟨s', hs', rfl⟩
  have hle' := hle _ (List.mem_map_of_mem (f := fun s => f s - f p) hs')
  omega

theorem map_zipIdx {α β : Type} (f : α → β) (l : List α) :
    l.zipIdx.map (fun x => f x.1) = l.map f := by
  rw [← Function.comp_def f Prod.fst, ← List.map_map, List.zipIdx_map_fst]

/-- A shift by nothing changes nothing. -/
theorem map_shift {layout : List PlacedScreen} {m t : Int} (hm : m ≤ 0) (ht : t ≤ 0) :
    (if m < 0 ∨ t < 0 then
        layout.map fun e => { e with left := e.left - m, top := e.top - t }
      else layout) =
      layout.map fun e => { e with left := e.left - m, top := e.top - t } := by
  split
  · rfl
  · obtain rfl : m = 0 := by omega
    obtain rfl : t = 0 := by omega
    simp only [Int.sub_zero, List.map_id']

/-- The origin is the corner of the screens' bounding box. -/
structure IsCorner (screens : List Screen) (x y : Int) : Prop where
  left : IsLeast {l | ∃ s ∈ screens, s.left.toInt = l} x
  top : IsLeast {t | ∃ s ∈ screens, s.top.toInt = t} y

/-- The layout is shifted to the corner of its bounding box. -/
theorem buildMonitorLayout_eq {screens : List Screen} {currentScreen : Option (Fin screens.length)}
    {p : Screen} (hp : screens[primaryIndex screens currentScreen]? = some p) :
    ∃ x y, IsCorner screens x y ∧ buildMonitorLayout screens currentScreen =
      screens.zipIdx.map (.of x y (primaryIndex screens currentScreen)) := by
  have hmem : p ∈ screens := List.mem_of_getElem? hp
  obtain ⟨hm, hleft⟩ := isLeast_min hmem fun s => s.left.toInt
  obtain ⟨ht, htop⟩ := isLeast_min hmem fun s => s.top.toInt
  refine ⟨_, _, ⟨hleft, htop⟩, ?_⟩
  unfold buildMonitorLayout
  dsimp only
  rw [hp]
  dsimp only
  generalize primaryIndex screens currentScreen = primary
  have hlefts :
      (screens.zipIdx.map (PlacedScreen.of p.left.toInt p.top.toInt primary)).map (·.left) =
        screens.map fun s => s.left.toInt - p.left.toInt := by
    rw [List.map_map]
    exact map_zipIdx (fun s : Screen => s.left.toInt - p.left.toInt) screens
  have htops : (screens.zipIdx.map (PlacedScreen.of p.left.toInt p.top.toInt primary)).map (·.top) =
      screens.map fun s => s.top.toInt - p.top.toInt := by
    rw [List.map_map]
    exact map_zipIdx (fun s : Screen => s.top.toInt - p.top.toInt) screens
  rw [hlefts, htops, map_shift hm ht, List.map_map]
  refine List.map_congr_left fun x _ => ?_
  rw [Function.comp_apply, PlacedScreen.of, PlacedScreen.of, PlacedScreen.mk.injEq]
  exact ⟨Int.sub_sub .., Int.sub_sub .., rfl, rfl, rfl⟩

/-! ## Entries -/

section

variable {d : DisplayControl} {screens : List Screen} {p : Screen} {primary : Nat} {x y : Int}

/-- In a layout whose origin is the corner, the primary monitor is accepted
only if it is there. -/
theorem corner_of_accepted (hcorner : IsCorner screens x y) (hp : p ∈ screens)
    (h : Int32.ofInt (p.left.toInt - x) = 0 ∧ Int32.ofInt (p.top.toInt - y) = 0) :
    p.left.toInt = x ∧ p.top.toInt = y := by
  obtain ⟨⟨⟨s, -, hs⟩, hleft⟩, ⟨s', -, hs'⟩, htop⟩ := hcorner
  have hx : x ≤ p.left.toInt := hleft ⟨p, hp, rfl⟩
  have hy : y ≤ p.top.toInt := htop ⟨p, hp, rfl⟩
  -- two numbers of 32 bits are less than 2^32 apart
  have hl := p.left.toInt_lt
  have ht := p.top.toInt_lt
  have hsl := s.left.le_toInt
  have hst := s'.top.le_toInt
  rw [ofInt_eq_zero_iff (by omega) (by omega), ofInt_eq_zero_iff (by omega) (by omega)] at h
  omega

/-- The entry of a screen in a layout whose origin is at (x,y). -/
theorem shows_placed (hd : d.Documented) {s : Screen} {i : Nat} {x' y' : Int} :
    (d.placed (PlacedScreen.of x y primary (s, i)).chunk).Shows x' y' s ↔
      (Int32.ofInt (s.left.toInt - x)).toInt = s.left.toInt - x' ∧
        (Int32.ofInt (s.top.toInt - y)).toInt = s.top.toInt - y' := by
  have hsize := DisplayControl.placed_size hd (PlacedScreen.of x y primary (s, i)).chunk
  have hw : (Int32.ofInt s.width.toInt) = s.width := Int32.ofInt_toInt s.width
  have hh : (Int32.ofInt s.height.toInt) = s.height := Int32.ofInt_toInt s.height
  constructor
  · rintro ⟨hleft, htop, -⟩
    exact ⟨hleft, htop⟩
  · rintro ⟨hleft, htop⟩
    refine ⟨hleft, htop, hsize.trans ?_⟩
    change Size.adjusted (Int32.ofInt s.width.toInt).toInt.toNat
      (Int32.ofInt s.height.toInt).toInt.toNat = _
    rw [hw, hh]

/-- One index is `primary`. -/
theorem countP_zipIdx (hprimary : primary < screens.length) :
    screens.zipIdx.countP (fun s => s.2 = primary) = 1 := by
  have hcount : (screens.zipIdx.map Prod.snd).count primary = 1 := by
    rw [List.zipIdx_map_snd]
    refine List.count_eq_one_of_mem List.nodup_range' ?_
    rw [List.mem_range'_1]
    omega
  rw [List.count, List.countP_map] at hcount
  rw [← hcount]
  exact List.countP_congr fun s _ => by simp

/-- The layout as the loop reads it. -/
def chunksOf (x y : Int) (primary : Nat) (screens : List Screen) : List LayoutChunk :=
  screens.zipIdx.map fun s => (PlacedScreen.of x y primary s).chunk

theorem mem_chunksOf {c : LayoutChunk} : c ∈ chunksOf x y primary screens ↔
    ∃ s i, screens[i]? = some s ∧ (PlacedScreen.of x y primary (s, i)).chunk = c := by
  simp [chunksOf, List.mem_zipIdx_iff_getElem?]

/-- Only the browser's screen is flagged. -/
theorem chunk_primary_of {s : Screen} {i : Nat} :
    (PlacedScreen.of x y primary (s, i)).chunk.primary ≠ 0 ↔ i = primary := by
  rw [PlacedScreen.chunk_primary]
  exact decide_eq_true_iff

/-- No monitor is skipped exactly when the browser's screen is the corner. -/
theorem accepted_iff (hcorner : IsCorner screens x y) (hp : screens[primary]? = some p) :
    (∀ c ∈ chunksOf x y primary screens, c.primary ≠ 0 → c.left = 0 ∧ c.top = 0) ↔
      p.left.toInt = x ∧ p.top.toInt = y := by
  constructor
  · intro h
    have hzero := h _ (mem_chunksOf.mpr ⟨p, primary, hp, rfl⟩) (chunk_primary_of.mpr rfl)
    exact corner_of_accepted hcorner (List.mem_of_getElem? hp) hzero
  · rintro ⟨rfl, rfl⟩ c hc hprimary
    obtain ⟨s, i, hs, rfl⟩ := mem_chunksOf.mp hc
    obtain rfl := chunk_primary_of.mp hprimary
    obtain rfl := Option.some.inj (hs.symm.trans hp)
    change Int32.ofInt (s.left.toInt - s.left.toInt) = 0 ∧
      Int32.ofInt (s.top.toInt - s.top.toInt) = 0
    rw [Int.sub_self, Int.sub_self]
    exact ⟨rfl, rfl⟩

/-- Every screen has its entry. -/
theorem forall₂_shows_iff (hd : d.Documented) {x' y' : Int} :
    List.Forall₂ (MonitorLayoutEntry.Shows x' y') screens
        ((chunksOf x y primary screens).map d.placed) ↔
      ∀ s ∈ screens, (Int32.ofInt (s.left.toInt - x)).toInt = s.left.toInt - x' ∧
        (Int32.ofInt (s.top.toInt - y)).toInt = s.top.toInt - y' := by
  have hindexed : List.Forall₂ (MonitorLayoutEntry.Shows x' y') (screens.zipIdx.map Prod.fst)
      ((chunksOf x y primary screens).map d.placed) ↔
        ∀ s ∈ screens.zipIdx, (Int32.ofInt (s.1.left.toInt - x)).toInt = s.1.left.toInt - x' ∧
          (Int32.ofInt (s.1.top.toInt - y)).toInt = s.1.top.toInt - y' := by
    rw [chunksOf, List.map_map, List.forall₂_map_left_iff, List.forall₂_map_right_iff,
      List.forall₂_same]
    exact forall₂_congr fun s _ => shows_placed hd
  rw [List.zipIdx_map_fst] at hindexed
  rw [hindexed]
  constructor
  · intro h s hs
    obtain ⟨i, hi⟩ := List.mem_iff_getElem?.mp hs
    exact h (s, i) (List.mem_zipIdx_iff_getElem?.mpr hi)
  · rintro h ⟨s, i⟩ hs
    exact h s (List.mem_of_getElem? (List.mem_zipIdx_iff_getElem?.mp hs))

/-- As seen from the corner, the screens keep their places. -/
theorem atCorner_iff (hcorner : IsCorner screens x y) (hp : p ∈ screens) :
    ((p.left.toInt = x ∧ p.top.toInt = y) ∧ ∃ x' y', ∀ s ∈ screens,
        (Int32.ofInt (s.left.toInt - x)).toInt = s.left.toInt - x' ∧
          (Int32.ofInt (s.top.toInt - y)).toInt = s.top.toInt - y') ↔ AtCorner screens p := by
  constructor
  · rintro ⟨⟨rfl, rfl⟩, x', y', h⟩ s hs
    obtain ⟨⟨-, hleft⟩, -, htop⟩ := hcorner
    have hl : p.left.toInt ≤ s.left.toInt := hleft ⟨s, hs, rfl⟩
    have ht : p.top.toInt ≤ s.top.toInt := htop ⟨s, hs, rfl⟩
    have hself := h p hp
    have hother := h s hs
    have hl' := (Int32.ofInt (s.left.toInt - p.left.toInt)).toInt_lt
    have ht' := (Int32.ofInt (s.top.toInt - p.top.toInt)).toInt_lt
    have hzero : (Int32.ofInt 0).toInt = 0 := rfl
    rw [Int.sub_self, Int.sub_self, hzero] at hself
    omega
  · intro h
    have hx : p.left.toInt = x := by
      refine (hcorner.left.unique ⟨⟨p, hp, rfl⟩, ?_⟩).symm
      rintro l ⟨s, hs, rfl⟩
      exact (h s hs).1.1
    have hy : p.top.toInt = y := by
      refine (hcorner.top.unique ⟨⟨p, hp, rfl⟩, ?_⟩).symm
      rintro t ⟨s, hs, rfl⟩
      exact (h s hs).2.1
    refine ⟨⟨hx, hy⟩, x, y, fun s hs => ?_⟩
    obtain ⟨⟨hl, hl'⟩, ht, ht'⟩ := h s hs
    exact ⟨toInt_ofInt (by omega) (by omega), toInt_ofInt (by omega) (by omega)⟩

theorem keepsMonitors_iff (hd : d.Documented) (hcorner : IsCorner screens x y)
    (hp : screens[primary]? = some p) {monitors : List Int32}
    (hmonitors : chunksExact monitors = chunksOf x y primary screens) :
    KeepsMonitors screens (d.parseDcMonitorLayout monitors) ↔ AtCorner screens p := by
  have haccepted := accepted_iff hcorner hp
  rw [← hmonitors] at haccepted
  rw [← atCorner_iff hcorner (List.mem_of_getElem? hp)]
  constructor
  · rintro ⟨⟨x', y', h⟩, -⟩
    have hlength : (d.parseDcMonitorLayout monitors).length = (chunksExact monitors).length := by
      rw [← h.length_eq, hmonitors, chunksOf, List.length_map, List.length_zipIdx]
    have hall := (DisplayControl.length_parseDcMonitorLayout_iff hd monitors).mp hlength
    rw [DisplayControl.parseDcMonitorLayout_eq hd hall, hmonitors, forall₂_shows_iff hd] at h
    exact ⟨haccepted.mp hall, x', y', h⟩
  · rintro ⟨hxy, x', y', h⟩
    rw [DisplayControl.parseDcMonitorLayout_eq hd (haccepted.mpr hxy), hmonitors]
    refine ⟨⟨x', y', (forall₂_shows_iff hd).mpr h⟩, ?_⟩
    obtain ⟨hlt, -⟩ := List.getElem?_eq_some_iff.mp hp
    rw [List.countP_map, chunksOf, List.countP_map, ← countP_zipIdx hlt]
    refine List.countP_congr fun s _ => ?_
    have hflag : (PlacedScreen.of x y primary s).chunk.primary ≠ 0 ↔ s.2 = primary :=
      chunk_primary_of
    simpa [DisplayControl.placed] using hflag

end

/-! ## The relayout -/

/-- A live relayout loses no monitor. -/
def LosesNone (d : DisplayControl) (screens : List Screen)
    (currentScreen : Option (Fin screens.length)) : Prop :=
  ∃ request update, onScreensChange true true screens currentScreen = some request ∧
    d.monitorLayout request.monitors = some update ∧ KeepsMonitors screens update.entries

/-- The loop sends what it does not skip. -/
theorem entries_monitorLayout {d : DisplayControl} {monitors : List Int32} {update : LayoutUpdate}
    (h : d.monitorLayout monitors = some update) :
    update.entries = d.parseDcMonitorLayout monitors := by
  unfold DisplayControl.monitorLayout at h
  dsimp only at h
  split at h
  · cases h
  · obtain rfl := Option.some.inj h
    rfl

theorem exists_monitorLayout {d : DisplayControl} {screens : List Screen} {monitors : List Int32}
    (hne : screens ≠ []) (h : KeepsMonitors screens (d.parseDcMonitorLayout monitors)) :
    ∃ update, d.monitorLayout monitors = some update := by
  refine ⟨_, if_neg fun hnil => hne ?_⟩
  obtain ⟨x, y, hshows⟩ := h.shows
  rw [hnil] at hshows
  exact List.forall₂_nil_right_iff.mp hshows

/-- With two screens the layout is handed on. -/
theorem exists_onScreensChange {screens : List Screen} {currentScreen : Option (Fin screens.length)}
    (h : 2 ≤ (buildMonitorLayout screens currentScreen).length) :
    ∃ request, onScreensChange true true screens currentScreen = some request ∧
      request.monitors = flatten (buildMonitorLayout screens currentScreen) := by
  have hflat : flatten (buildMonitorLayout screens currentScreen) ≠ [] := by
    intro hnil
    have hchunks := chunksExact_flatten (buildMonitorLayout screens currentScreen)
    rw [hnil] at hchunks
    rw [List.map_eq_nil_iff.mp hchunks.symm] at h
    cases h
  unfold onScreensChange applyMonitorLayout
  dsimp only
  rw [if_neg (not_lt.mpr h), if_neg hflat]
  exact ⟨_, rfl, rfl⟩

/-- A live relayout of two screens or more loses no monitor exactly when the
browser's screen is the leftmost and the topmost one. -/
theorem losesNone_iff {d : DisplayControl} (hd : d.Documented) {screens : List Screen}
    {currentScreen : Option (Fin screens.length)} {p : Screen} (htwo : 2 ≤ screens.length)
    (hp : screens[primaryIndex screens currentScreen]? = some p) :
    LosesNone d screens currentScreen ↔ AtCorner screens p := by
  obtain ⟨x, y, hcorner, hbuild⟩ := buildMonitorLayout_eq hp
  have hchunks : chunksExact (flatten (buildMonitorLayout screens currentScreen)) =
      chunksOf x y (primaryIndex screens currentScreen) screens := by
    rw [chunksExact_flatten, hbuild, List.map_map]
    rfl
  have htwo' : 2 ≤ (buildMonitorLayout screens currentScreen).length := by
    rw [hbuild, List.length_map, List.length_zipIdx]
    exact htwo
  obtain ⟨request, hrequest, hmonitors⟩ := exists_onScreensChange htwo'
  rw [← hmonitors] at hchunks
  rw [← keepsMonitors_iff hd hcorner hp hchunks]
  constructor
  · rintro ⟨request', update, hrequest', hupdate, hkeeps⟩
    obtain rfl := Option.some.inj (hrequest.symm.trans hrequest')
    rw [entries_monitorLayout hupdate] at hkeeps
    exact hkeeps
  · intro hkeeps
    obtain ⟨update, hupdate⟩ := exists_monitorLayout (List.ne_nil_of_length_pos (by omega)) hkeeps
    refine ⟨request, update, hrequest, hupdate, ?_⟩
    rw [entries_monitorLayout hupdate]
    exact hkeeps

/-- A screen with another one on its right. -/
def rightOf : List Screen := [⟨0, 0, 1920, 1080, true⟩, ⟨1920, 0, 1280, 1024, false⟩]

theorem losesNone_rightOf : LosesNone .protocol rightOf (some ⟨0, by decide⟩) ↔
    AtCorner rightOf ⟨0, 0, 1920, 1080, true⟩ :=
  losesNone_iff DisplayControl.documented_protocol (by decide) rfl

/-- The screens do not overlap. -/
def Screen.Apart (s t : Screen) : Prop :=
  s.left.toInt + s.width.toInt ≤ t.left.toInt ∨ t.left.toInt + t.width.toInt ≤ s.left.toInt ∨
    s.top.toInt + s.height.toInt ≤ t.top.toInt ∨ t.top.toInt + t.height.toInt ≤ s.top.toInt

structure IsArrangement (screens : List Screen) : Prop where
  two : 2 ≤ screens.length
  apart : screens.Pairwise Screen.Apart
  sizes : ∀ s ∈ screens, (200 ≤ s.width.toInt ∧ s.width.toInt ≤ 8192) ∧
    200 ≤ s.height.toInt ∧ s.height.toInt ≤ 8192

theorem isArrangement_rightOf : IsArrangement rightOf := by
  refine ⟨le_rfl, ?_, ?_⟩
  · simp [rightOf, Screen.Apart]
  · simp [rightOf]

/-- With the browser on the right one of two screens, the server is sent the
left one only. -/
theorem not_losesNone : ¬ ∀ (d : DisplayControl), d.Documented →
    ∀ (screens : List Screen) (currentScreen : Option (Fin screens.length)),
      IsArrangement screens → LosesNone d screens currentScreen := by
  intro h
  obtain ⟨request, update, hrequest, hupdate, hkeeps⟩ :=
    h .protocol DisplayControl.documented_protocol rightOf (some ⟨1, by decide⟩)
      isArrangement_rightOf
  have hrequest' : onScreensChange true true rightOf (some ⟨1, by decide⟩) =
      some ⟨3200, 1080, [0, 0, 1920, 1080, 0, 1920, 0, 1280, 1024, 1]⟩ := by decide +kernel
  obtain rfl := Option.some.inj (hrequest'.symm.trans hrequest)
  have hupdate' : DisplayControl.protocol.monitorLayout
      [0, 0, 1920, 1080, 0, 1920, 0, 1280, 1024, 1] =
        some ⟨(3200, 1080), [⟨false, 0, 0, 1920, 1080⟩]⟩ := by decide +kernel
  obtain rfl := Option.some.inj (hupdate'.symm.trans hupdate)
  obtain ⟨x, y, hshows⟩ := hkeeps.shows
  cases hshows.length_eq

end WasmRdp
