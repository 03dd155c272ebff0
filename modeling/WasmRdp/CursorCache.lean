import WasmRdp.Lib.ByteReader
import WasmRdp.Lib.Fnv
import WasmRdp.Lib.Runs

/-!
# The cursor cache

`set_cursor`, `set_custom_cursor` and `cursor_hash` of `wasm/src/canvas.rs`, and
what `run_active_session` does with the pointer updates of a session. The
encoder of the browser is a parameter; it may fail, and a hash map that is
iterated begins with any of its keys, so either is part of an event.

A cache has a key for each picture and not the picture itself, so that two
pictures with one key are one to it. `Inv` says that what is cached was made
from some pointer of the run with that key, whatever has been dropped
meanwhile. A hit is then the picture that is asked for, unless two pointers of
the run have collided (`Inv.url_of_lookup`), and a miss makes it. The bound on
the size is kept because an entry is dropped before a new one comes in
(`Inv.insert`).

`Right` says of one update that the cursor it asks for, be it a picture, the
default or none, is shown on every surface, or is as before where the browser
has failed to make it. `always_right` has it for all updates of a run without
collisions, and the bounds without that condition.

Collisions are possible, but not between pointers that differ in a single byte
of what is hashed: `DecodedPointer.key_separates`, by the injective steps of
`Fnv`. All that is shown of a pointer is among these bytes.
-/

namespace WasmRdp

open ByteReader

/-- The pointer of an update, as the session has decoded it. -/
structure DecodedPointer where
  width : UInt16
  height : UInt16
  hotspotX : UInt16
  hotspotY : UInt16
  bitmapData : List UInt8
  deriving DecidableEq

/-- The canvas of a monitor, with the `cursor` property of its element. -/
structure CursorSurface where
  cursor : String
  cursorCache : List (UInt64 × String)

/-- What comes of the offscreen canvas, and where the map's iteration begins. -/
structure CursorEnv where
  encodes : Bool
  first : Nat

namespace CursorSurface

def setCursor (s : CursorSurface) (style : String) : CursorSurface := { s with cursor := style }

def BASIS : UInt64 := 14695981039346656037
def PRIME : UInt64 := 1099511628211

/-- `cursor_hash` -/
def cursorHash (data : List UInt8) (width height hx hy : UInt32) : UInt64 :=
  let h := data.foldl (Fnv.step PRIME) BASIS
  let h := (toLe 4 width.toNat).foldl (Fnv.step PRIME) h
  let h := (toLe 4 height.toNat).foldl (Fnv.step PRIME) h
  let h := (toLe 4 hx.toNat).foldl (Fnv.step PRIME) h
  (toLe 4 hy.toNat).foldl (Fnv.step PRIME) h

/-- `ImageData::new_with_u8_clamped_array_and_sh` -/
def imageData (data : List UInt8) (width height : UInt32) : Option (List UInt8) :=
  if data.length = 4 * width.toNat * height.toNat ∧ data ≠ [] then some data else none

/-- `format!("url({url}) {hotspot_x} {hotspot_y}, auto")` -/
def cursorCss (url : String) (hotspotX hotspotY : UInt32) : String :=
  "url(" ++ url ++ ") " ++ toString hotspotX ++ " " ++ toString hotspotY ++ ", auto"

variable (toDataUrl : UInt32 → UInt32 → Option (List UInt8) → String)

/-- An image that cannot be made leaves the offscreen canvas blank. -/
def setCustomCursor (env : CursorEnv) (s : CursorSurface) (rgbaData : List UInt8)
    (width height hotspotX hotspotY : UInt32) : CursorSurface :=
  let key := cursorHash rgbaData width height hotspotX hotspotY
  match s.cursorCache.lookup key with
  | some cached => s.setCursor (cursorCss cached hotspotX hotspotY)
  | none =>
      if env.encodes then
        let dataUrl := toDataUrl width height (imageData rgbaData width height)
        let s := s.setCursor (cursorCss dataUrl hotspotX hotspotY)
        let cursorCache :=
          if 32 ≤ s.cursorCache.length then
            s.cursorCache.eraseIdx (env.first % s.cursorCache.length)
          else s.cursorCache
        { s with cursorCache := (key, dataUrl) :: cursorCache }
      else s

end CursorSurface

inductive PointerUpdate where
  | pointerDefault
  | pointerHidden
  | pointerBitmap (pointer : DecodedPointer) (env : Nat → CursorEnv)
  | clearSurfaces
  /-- the element may have a cursor from before -/
  | addSurface (cursor : String)

/-- The surfaces of a session. -/
abbrev CursorSurfaces := List CursorSurface

namespace CursorSurfaces
variable (toDataUrl : UInt32 → UInt32 → Option (List UInt8) → String)

def setCustomCursors (env : Nat → CursorEnv) (pointer : DecodedPointer)
    (surfaces : CursorSurfaces) : CursorSurfaces :=
  surfaces.mapIdx fun i surface =>
    surface.setCustomCursor toDataUrl (env i) pointer.bitmapData pointer.width.toUInt32
      pointer.height.toUInt32 pointer.hotspotX.toUInt32 pointer.hotspotY.toUInt32

def step (surfaces : CursorSurfaces) : PointerUpdate → CursorSurfaces
  | .pointerDefault => surfaces.map (·.setCursor "default")
  | .pointerHidden => surfaces.map (·.setCursor "none")
  | .pointerBitmap pointer env => setCustomCursors toDataUrl env pointer surfaces
  | .clearSurfaces => []
  | .addSurface cursor => surfaces ++ [{ cursor, cursorCache := [] }]

end CursorSurfaces

/-! ## What a cache is to do -/

namespace DecodedPointer

def key (p : DecodedPointer) : UInt64 :=
  CursorSurface.cursorHash p.bitmapData p.width.toUInt32 p.height.toUInt32 p.hotspotX.toUInt32
    p.hotspotY.toUInt32

/-- What the offscreen canvas is drawn from. -/
def picture (p : DecodedPointer) : UInt16 × UInt16 × Option (List UInt8) :=
  (p.width, p.height, CursorSurface.imageData p.bitmapData p.width.toUInt32 p.height.toUInt32)

def url (toDataUrl : UInt32 → UInt32 → Option (List UInt8) → String) (p : DecodedPointer) :
    String :=
  toDataUrl p.picture.1.toUInt32 p.picture.2.1.toUInt32 p.picture.2.2

/-- The cursor of a surface without a cache. -/
def css (toDataUrl : UInt32 → UInt32 → Option (List UInt8) → String) (p : DecodedPointer) :
    String :=
  CursorSurface.cursorCss (p.url toDataUrl) p.hotspotX.toUInt32 p.hotspotY.toUInt32

/-- The bytes that are hashed. -/
def hashed (p : DecodedPointer) : List UInt8 :=
  p.bitmapData ++ toLe 4 p.width.toUInt32.toNat ++ toLe 4 p.height.toUInt32.toNat ++
    toLe 4 p.hotspotX.toUInt32.toNat ++ toLe 4 p.hotspotY.toUInt32.toNat

end DecodedPointer

/-- Pointers with one key show one picture. -/
def Uncollided (pointers : List DecodedPointer) : Prop :=
  ∀ p ∈ pointers, ∀ q ∈ pointers, p.key = q.key → p.picture = q.picture

def PointerUpdate.pointer? : PointerUpdate → Option DecodedPointer
  | pointerBitmap pointer _ => some pointer
  | _ => none

/-- The cursor that an update asks for. -/
def PointerUpdate.css? (toDataUrl : UInt32 → UInt32 → Option (List UInt8) → String) :
    PointerUpdate → Option String
  | pointerDefault => some "default"
  | pointerHidden => some "none"
  | pointerBitmap pointer _ => some (pointer.css toDataUrl)
  | _ => none

/-- The browser does not make the cursor of the surface `i`. -/
def PointerUpdate.fails (i : Nat) : PointerUpdate → Bool
  | pointerBitmap _ env => !(env i).encodes
  | _ => false

namespace CursorSurfaces
variable (toDataUrl : UInt32 → UInt32 → Option (List UInt8) → String)

/-- The cursor that an update asks for is shown on every surface, or the browser has
failed to make it and the cursor is as before. -/
def Right (surfaces : CursorSurfaces) (e : PointerUpdate) : Prop :=
  ∀ css ∈ e.css? toDataUrl, ∀ i surface, surfaces[i]? = some surface →
    ∃ surface', (step toDataUrl surfaces e)[i]? = some surface' ∧
      (surface'.cursor = css ∨ e.fails i ∧ surface'.cursor = surface.cursor)

/-- No cache outgrows its bound, and no key is there twice. -/
def Bounded (surfaces : CursorSurfaces) : Prop :=
  ∀ surface ∈ surfaces, surface.cursorCache.length ≤ 32 ∧
    (surface.cursorCache.map Prod.fst).Nodup

end CursorSurfaces

/-! ## The hash -/

theorem DecodedPointer.key_eq (p : DecodedPointer) :
    p.key = Fnv.hash CursorSurface.BASIS CursorSurface.PRIME p.hashed := by
  simp only [key, CursorSurface.cursorHash, hashed, Fnv.hash, List.foldl_append]

theorem CursorSurface.PRIME_mul : PRIME * 14886173955864302971 = 1 := by decide

/-- Pointers that differ in one of the bytes that are hashed, a byte of a pixel
or of the hotspot, have two keys. -/
theorem DecodedPointer.key_separates {p q : DecodedPointer} {pre post : List UInt8} {a b : UInt8}
    (hp : p.hashed = pre ++ a :: post) (hq : q.hashed = pre ++ b :: post) (hab : a ≠ b) :
    p.key ≠ q.key := by
  rw [p.key_eq, q.key_eq, hp, hq]
  exact Fnv.hash_ne_of_ne CursorSurface.PRIME_mul hab pre post

/-- Two hotspots. -/
theorem DecodedPointer.key_separates_hotspot :
    (DecodedPointer.mk 1 1 0 0 [1, 2, 3, 4]).key ≠ (DecodedPointer.mk 1 1 5 0 [1, 2, 3, 4]).key :=
  @key_separates ⟨1, 1, 0, 0, [1, 2, 3, 4]⟩ ⟨1, 1, 5, 0, [1, 2, 3, 4]⟩
    [1, 2, 3, 4, 1, 0, 0, 0, 1, 0, 0, 0] [0, 0, 0, 0, 0, 0, 0] 0 5 rfl rfl (by decide)

/-! ## The cache of one surface -/

variable {toDataUrl : UInt32 → UInt32 → Option (List UInt8) → String}

namespace CursorSurface

/-- What is cached was made from a pointer with that key. -/
structure Inv (toDataUrl : UInt32 → UInt32 → Option (List UInt8) → String)
    (pointers : List DecodedPointer) (s : CursorSurface) : Prop where
  bounded : s.cursorCache.length ≤ 32
  nodup : (s.cursorCache.map Prod.fst).Nodup
  made : ∀ entry ∈ s.cursorCache, ∃ p ∈ pointers, p.key = entry.1 ∧ p.url toDataUrl = entry.2

variable {pointers : List DecodedPointer} {s : CursorSurface}

theorem Inv.setCursor (h : s.Inv toDataUrl pointers) (style : String) :
    (s.setCursor style).Inv toDataUrl pointers := ⟨h.bounded, h.nodup, h.made⟩

/-- A new entry, for which one of the old ones may be dropped. -/
theorem Inv.insert (h : s.Inv toDataUrl pointers) {p : DecodedPointer} (hp : p ∈ pointers)
    (hmiss : s.cursorCache.lookup p.key = none) (first : Nat) (cursor : String) :
    Inv toDataUrl pointers ⟨cursor, (p.key, p.url toDataUrl) ::
      if 32 ≤ s.cursorCache.length then
        s.cursorCache.eraseIdx (first % s.cursorCache.length)
      else s.cursorCache⟩ := by
  have hkept : List.Sublist (if 32 ≤ s.cursorCache.length then
      s.cursorCache.eraseIdx (first % s.cursorCache.length) else s.cursorCache) s.cursorCache := by
    split
    · exact List.eraseIdx_sublist ..
    · exact List.Sublist.refl _
  refine ⟨?_, ?_, ?_⟩
  · rw [List.length_cons]
    split
    · rename_i hfull
      have hlt : first % s.cursorCache.length < s.cursorCache.length := Nat.mod_lt _ (by omega)
      have hbounded := h.bounded
      rw [List.length_eraseIdx_of_lt hlt]
      omega
    · omega
  · rw [List.map_cons, List.nodup_cons]
    refine ⟨fun hmem => ?_, h.nodup.sublist (hkept.map Prod.fst)⟩
    obtain ⟨entry, hentry, hkey⟩ := List.mem_map.mp hmem
    have hnone := List.lookup_eq_none_iff.mp hmiss entry (hkept.subset hentry)
    rw [hkey] at hnone
    simp at hnone
  · rw [List.forall_mem_cons]
    exact ⟨⟨p, hp, rfl, rfl⟩, fun entry hentry => h.made entry (hkept.subset hentry)⟩

/-- A hit is the picture that is asked for, unless two have collided. -/
theorem Inv.url_of_lookup (h : s.Inv toDataUrl pointers) (hnone : Uncollided pointers)
    {p : DecodedPointer} (hp : p ∈ pointers) {cached : String}
    (hhit : s.cursorCache.lookup p.key = some cached) : cached = p.url toDataUrl := by
  obtain ⟨before, after, hcache, -⟩ := List.lookup_eq_some_iff.mp hhit
  have hmem : (p.key, cached) ∈ s.cursorCache := by
    rw [hcache]
    exact List.mem_append_right _ (List.mem_cons_self ..)
  obtain ⟨q, hq, hkey, hurl⟩ := h.made _ hmem
  refine hurl.symm.trans ?_
  rw [DecodedPointer.url, DecodedPointer.url, hnone q hq p hp hkey]

/-- One pointer. -/
theorem Inv.setCustomCursor (h : s.Inv toDataUrl pointers) {p : DecodedPointer}
    (hp : p ∈ pointers) (env : CursorEnv) :
    (s.setCustomCursor toDataUrl env p.bitmapData p.width.toUInt32 p.height.toUInt32
      p.hotspotX.toUInt32 p.hotspotY.toUInt32).Inv toDataUrl pointers := by
  have hkey : cursorHash p.bitmapData p.width.toUInt32 p.height.toUInt32 p.hotspotX.toUInt32
      p.hotspotY.toUInt32 = p.key := rfl
  rw [CursorSurface.setCustomCursor, hkey]
  cases hlookup : s.cursorCache.lookup p.key with
  | some cached => exact h.setCursor _
  | none =>
      dsimp only
      split
      · exact h.insert hp hlookup env.first _
      · exact h

/-- The cursor after one pointer, without collisions. -/
theorem Inv.cursor (h : s.Inv toDataUrl pointers) (hnone : Uncollided pointers)
    {p : DecodedPointer} (hp : p ∈ pointers) (env : CursorEnv) :
    let s' := s.setCustomCursor toDataUrl env p.bitmapData p.width.toUInt32 p.height.toUInt32
      p.hotspotX.toUInt32 p.hotspotY.toUInt32
    s'.cursor = p.css toDataUrl ∨ env.encodes = false ∧ s'.cursor = s.cursor := by
  have hkey : cursorHash p.bitmapData p.width.toUInt32 p.height.toUInt32 p.hotspotX.toUInt32
      p.hotspotY.toUInt32 = p.key := rfl
  dsimp only
  rw [CursorSurface.setCustomCursor, hkey]
  cases hlookup : s.cursorCache.lookup p.key with
  | some cached =>
      rw [h.url_of_lookup hnone hp hlookup]
      exact .inl rfl
  | none =>
      dsimp only
      split
      · exact .inl rfl
      · rename_i hfails
        exact .inr ⟨Bool.not_eq_true _ ▸ hfails, rfl⟩

end CursorSurface

/-! ## Whole runs -/

namespace CursorSurfaces
variable {pointers : List DecodedPointer} {surfaces : CursorSurfaces}

/-- Every surface. -/
def Inv (toDataUrl : UInt32 → UInt32 → Option (List UInt8) → String)
    (pointers : List DecodedPointer) (surfaces : CursorSurfaces) : Prop :=
  ∀ surface ∈ surfaces, surface.Inv toDataUrl pointers

theorem Inv.step (h : surfaces.Inv toDataUrl pointers) (e : PointerUpdate)
    (he : ∀ p ∈ e.pointer?, p ∈ pointers) : (surfaces.step toDataUrl e).Inv toDataUrl pointers := by
  cases e with
  | pointerDefault => exact List.forall_mem_map.mpr fun surface hs => (h surface hs).setCursor _
  | pointerHidden => exact List.forall_mem_map.mpr fun surface hs => (h surface hs).setCursor _
  | pointerBitmap pointer env =>
      intro surface hs
      obtain ⟨i, hi, rfl⟩ := List.mem_mapIdx.mp hs
      exact (h _ (List.getElem_mem hi)).setCustomCursor (he pointer rfl) (env i)
  | clearSurfaces => exact nofun
  | addSurface cursor =>
      refine List.forall_mem_append.mpr ⟨h, List.forall_mem_singleton.mpr ?_⟩
      exact ⟨Nat.zero_le _, List.nodup_nil, nofun⟩

theorem Inv.right (h : surfaces.Inv toDataUrl pointers) (hnone : Uncollided pointers)
    (e : PointerUpdate) (he : ∀ p ∈ e.pointer?, p ∈ pointers) : surfaces.Right toDataUrl e := by
  cases e with
  | pointerDefault =>
      rintro _ ⟨⟩ i surface hi
      exact ⟨_, by rw [CursorSurfaces.step, List.getElem?_map, hi]; rfl, .inl rfl⟩
  | pointerHidden =>
      rintro _ ⟨⟩ i surface hi
      exact ⟨_, by rw [CursorSurfaces.step, List.getElem?_map, hi]; rfl, .inl rfl⟩
  | pointerBitmap pointer env =>
      rintro _ ⟨⟩ i surface hi
      refine ⟨_, by rw [CursorSurfaces.step, setCustomCursors, List.getElem?_mapIdx, hi]; rfl, ?_⟩
      have hcursor :=
        (h surface (List.mem_of_getElem? hi)).cursor hnone (he pointer rfl) (env i)
      exact hcursor.imp_right fun hfails => ⟨by rw [PointerUpdate.fails, hfails.1]; rfl, hfails.2⟩
  | _ => exact fun _ hcss => nomatch hcss

theorem always_inv (toDataUrl : UInt32 → UInt32 → Option (List UInt8) → String)
    (updates : List PointerUpdate) :
    Runs.Always (step toDataUrl) (Inv toDataUrl (updates.filterMap PointerUpdate.pointer?)) []
      updates := by
  refine Runs.always_of_each (c := fun _ _ => True) ?_ nofun fun _ _ _ => trivial
  rintro surfaces e he h -
  exact h.step e fun p hp => List.mem_filterMap.mpr ⟨e, he, hp⟩

/-- In every run, whatever the map drops and whenever the browser fails, the
caches are bounded; and if no two pointers of the run collide each update shows
its own cursor, or leaves the old one where the browser has failed. -/
theorem always_right (toDataUrl : UInt32 → UInt32 → Option (List UInt8) → String)
    (updates : List PointerUpdate) :
    Runs.Always (step toDataUrl) Bounded [] updates ∧
      (Uncollided (updates.filterMap PointerUpdate.pointer?) →
        Runs.Each (step toDataUrl) (Right toDataUrl) [] updates) := by
  have hinv := always_inv toDataUrl updates
  constructor
  · intro pre hpre surface hs
    exact ⟨(hinv pre hpre surface hs).bounded, (hinv pre hpre surface hs).nodup⟩
  · intro hnone pre e hpre
    have he : e ∈ updates := hpre.subset (List.mem_append_right _ (List.mem_singleton_self e))
    refine (hinv pre ((List.prefix_append pre [e]).trans hpre)).right hnone e fun p hp => ?_
    exact List.mem_filterMap.mpr ⟨e, he, hp⟩

/-- One pixel in two colours, on a surface that is added between them. -/
theorem always_right_pixel :
    let toDataUrl (_ _ : UInt32) (data : Option (List UInt8)) :=
      "data:image/png;base64," ++ toString data
    Runs.Each (step toDataUrl) (Right toDataUrl) []
      [.addSurface "auto", .pointerBitmap ⟨1, 1, 0, 0, [1, 2, 3, 4]⟩ fun _ => ⟨true, 0⟩,
        .addSurface "auto", .pointerHidden,
        .pointerBitmap ⟨1, 1, 0, 0, [1, 2, 3, 5]⟩ fun _ => ⟨true, 0⟩] :=
  (always_right _ _).2 (by
    change ∀ p ∈ [DecodedPointer.mk 1 1 0 0 [1, 2, 3, 4], ⟨1, 1, 0, 0, [1, 2, 3, 5]⟩],
      ∀ q ∈ [DecodedPointer.mk 1 1 0 0 [1, 2, 3, 4], ⟨1, 1, 0, 0, [1, 2, 3, 5]⟩],
        p.key = q.key → p.picture = q.picture
    decide)

end CursorSurfaces

end WasmRdp
