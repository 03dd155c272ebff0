import WasmRdp.Page
import WasmRdp.Lib.Runs

/-!
# The video decoders of the page

`getOrCreateAvc420Decoder`, `__rdp_avc420_frame` and `__rdp_avc420_closed` of
`web/app.js`, with the decoder objects that `Page` leaves out: a decoder keeps
its state and the chunks that it was fed, also when the page has forgotten it.
What a `VideoDecoder` does is the browser's: `decode` throws unless it is
configured, and on any but a key chunk after `configure`; an error closes it and
calls the page back.

`VideoDecoder.Fed` says of one decoder that it was fed a part of its surface's
frames with no gap in it, from a key frame on and all of one size; while it is
open the part goes up to the last frame. A frame that it is not fed, because
it is of another surface or the decoder is closed, keeps this
(`VideoDecoder.Fed.missed`).

The page's map has an entry for each surface with a decoder, and `Inv` says
what the entries know: an open decoder is the one in the entry of its surface
(`Inv.eq_of_open`), and the entry's flag tells whether it has had its key
frame. With that `decode` never throws, a size that changes closes the old
decoder before a new one is made (`Inv.getOrCreateAvc420Decoder`), and
`cleanupSession`, which goes over the map, closes all that are open.

`Agrees` relates all this to the entries in the state of `Page`, which have no
decoder objects. `always_fed` is over whole runs, with errors of the browser at
any point.
-/

namespace WasmRdp

inductive CodecState where
  | unconfigured
  | configured
  | closed
  deriving DecidableEq

structure EncodedVideoChunk where
  key : Bool
  timestamp : Nat
  data : List UInt8
  deriving DecidableEq

/-- A decoder, the surface and size that it was made for, and what it was fed. -/
structure VideoDecoder where
  state : CodecState
  keyChunkRequired : Bool
  surfaceId : UInt16
  width : UInt16
  height : UInt16
  fed : List EncodedVideoChunk

namespace VideoDecoder

def new (surfaceId width height : UInt16) : VideoDecoder where
  state := .unconfigured
  keyChunkRequired := false
  surfaceId
  width
  height
  fed := []

def configure (d : VideoDecoder) : VideoDecoder :=
  { d with state := .configured, keyChunkRequired := true }

/-- What a call that does not throw leaves. -/
def decode (d : VideoDecoder) (chunk : EncodedVideoChunk) : Option VideoDecoder :=
  if d.state ≠ .configured then none
  else if d.keyChunkRequired && !chunk.key then none
  else some { d with keyChunkRequired := false, fed := d.fed ++ [chunk] }

/-- A second call throws, which the page catches. -/
def close (d : VideoDecoder) : VideoDecoder := { d with state := .closed }

end VideoDecoder

/-- An entry of `avc420Decoders`, with the place of its decoder. -/
structure Avc420Entry where
  decoder : Nat
  width : UInt16
  height : UInt16
  awaitingKeyframe : Bool
  pts : Nat

/-- The arguments of `__rdp_avc420_frame`. -/
structure Avc420Frame where
  surfaceId : UInt16
  width : UInt16
  height : UInt16
  isKeyframe : Bool
  data : List UInt8
  deriving DecidableEq

structure VideoPage where
  /-- all decoders that were ever made -/
  decoders : List VideoDecoder
  avc420Decoders : InsertionMap UInt16 Avc420Entry
  h264Codec : Bool
  /-- the frames of all surfaces so far -/
  frames : List Avc420Frame
  /-- how often `decode` has thrown -/
  thrown : Nat

inductive VideoEvent where
  | probed (h264 : Bool)
  | frame (frame : Avc420Frame) (configures : Bool)
  | closed (surfaceId : UInt16)
  | error (decoder : Nat)
  | cleanupSession

namespace VideoPage

def initial : VideoPage where
  decoders := []
  avc420Decoders := .empty
  h264Codec := false
  frames := []
  thrown := 0

def closeDecoder (s : VideoPage) (decoder : Nat) : VideoPage :=
  { s with decoders := s.decoders.modify decoder VideoDecoder.close }

/-- `new VideoDecoder` and `configure`, which may throw. -/
def createDecoder (s : VideoPage) (surfaceId width height : UInt16) (configures : Bool) :
    VideoPage × Option Avc420Entry :=
  let decoder := VideoDecoder.new surfaceId width height
  if !s.h264Codec then (s, none)
  else if !configures then ({ s with decoders := s.decoders ++ [decoder] }, none)
  else
    let entry : Avc420Entry := ⟨s.decoders.length, width, height, true, 0⟩
    ({ s with
        decoders := s.decoders ++ [decoder.configure]
        avc420Decoders := s.avc420Decoders.set surfaceId entry }, some entry)

def getOrCreateAvc420Decoder (s : VideoPage) (surfaceId width height : UInt16)
    (configures : Bool) : VideoPage × Option Avc420Entry :=
  match s.avc420Decoders.get surfaceId with
  | some entry =>
      if entry.width = width ∧ entry.height = height then (s, some entry)
      else
        let s := s.closeDecoder entry.decoder
        createDecoder { s with avc420Decoders := s.avc420Decoders.delete surfaceId }
          surfaceId width height configures
  | none => s.createDecoder surfaceId width height configures

/-- The second half of `__rdp_avc420_frame`. -/
def feed (s : VideoPage) (entry : Avc420Entry) (f : Avc420Frame) : VideoPage :=
  if entry.awaitingKeyframe && !f.isKeyframe then s
  else
    match s.decoders[entry.decoder]?.bind
        (·.decode { key := f.isKeyframe, timestamp := entry.pts, data := f.data }) with
    | none => { s with thrown := s.thrown + 1 }
    | some decoder =>
        let entry := { entry with awaitingKeyframe := false, pts := entry.pts + 1000 }
        { s with
          decoders := s.decoders.set entry.decoder decoder
          avc420Decoders := s.avc420Decoders.set f.surfaceId entry }

/-- `__rdp_avc420_frame` -/
def avc420Frame (s : VideoPage) (f : Avc420Frame) (configures : Bool) : VideoPage :=
  let (s, entry) := s.getOrCreateAvc420Decoder f.surfaceId f.width f.height configures
  let s := match entry with
    | none => s
    | some entry => s.feed entry f
  { s with frames := s.frames ++ [f] }

/-- `__rdp_avc420_closed` -/
def avc420Closed (s : VideoPage) (surfaceId : UInt16) : VideoPage :=
  match s.avc420Decoders.get surfaceId with
  | none => s
  | some entry =>
      let s := s.closeDecoder entry.decoder
      { s with avc420Decoders := s.avc420Decoders.delete surfaceId }

/-- The browser closes a decoder, and its `error` callback forgets the entry of
the surface. -/
def decoderError (s : VideoPage) (decoder : Nat) : VideoPage :=
  match s.decoders[decoder]? with
  | none => s
  | some d =>
      if d.state = .configured then
        let s := s.closeDecoder decoder
        { s with avc420Decoders := s.avc420Decoders.delete d.surfaceId }
      else s

/-- The end of `cleanupSession`. -/
def cleanupSession (s : VideoPage) : VideoPage :=
  let s := s.avc420Decoders.values.foldl (fun s entry => s.closeDecoder entry.decoder) s
  { s with avc420Decoders := .empty }

def step (s : VideoPage) : VideoEvent → VideoPage
  | .probed h264 => { s with h264Codec := h264 }
  | .frame f configures => s.avc420Frame f configures
  | .closed surfaceId => s.avc420Closed surfaceId
  | .error decoder => s.decoderError decoder
  | .cleanupSession => s.cleanupSession

end VideoPage

/-! ## What a decoder needs -/

/-- The frame that a chunk was made from. -/
def VideoDecoder.frame (d : VideoDecoder) (chunk : EncodedVideoChunk) : Avc420Frame :=
  ⟨d.surfaceId, d.width, d.height, chunk.key, chunk.data⟩

/-- What was fed is a part of the frames of the decoder's surface with no gap
in it, all of its size, and up to the last one while the decoder is open. It
begins with a key frame, and its timestamps are steps of a thousand. -/
structure VideoDecoder.Fed (frames : List Avc420Frame) (d : VideoDecoder) : Prop where
  gapless : ∃ before after,
    frames.filter (·.surfaceId = d.surfaceId) = before ++ d.fed.map d.frame ++ after ∧
      (d.state = .configured → after = [])
  key : ∀ chunk ∈ d.fed.head?, chunk.key = true
  timestamps : d.fed.map (·.timestamp) = (List.range d.fed.length).map (1000 * ·)

/-- At all times. -/
structure VideoPage.Safe (s : VideoPage) : Prop where
  fed : ∀ d ∈ s.decoders, d.Fed s.frames
  /-- each surface has one open decoder at most, and the page knows it -/
  owned : ∀ i d, s.decoders[i]? = some d → d.state = .configured →
    ∃ entry, s.avc420Decoders.get d.surfaceId = some entry ∧ entry.decoder = i
  unthrown : s.thrown = 0

/-! ## One decoder -/

namespace VideoDecoder.Fed
variable {frames : List Avc420Frame} {f : Avc420Frame} {d : VideoDecoder}

theorem of_unfed (h : d.fed = []) : d.Fed frames where
  gapless := ⟨frames.filter (·.surfaceId = d.surfaceId), [], by rw [h]; simp, fun _ => rfl⟩
  key := by
    rw [h]
    exact nofun
  timestamps := by
    rw [h]
    rfl

theorem close (h : d.Fed frames) : d.close.Fed frames where
  gapless := by
    obtain ⟨before, after, hframes, -⟩ := h.gapless
    exact ⟨before, after, hframes, nofun⟩
  key := h.key
  timestamps := h.timestamps

/-- A frame that the decoder is not fed, of another surface or too late. -/
theorem missed (h : d.Fed frames) (hf : f.surfaceId ≠ d.surfaceId ∨ d.state ≠ .configured) :
    d.Fed (frames ++ [f]) where
  gapless := by
    obtain ⟨before, after, hframes, hafter⟩ := h.gapless
    rw [List.filter_append, hframes]
    by_cases hsurface : f.surfaceId = d.surfaceId
    · refine ⟨before, after ++ [f], ?_, fun hopen => absurd hopen (hf.resolve_left ?_)⟩
      · rw [List.filter_cons_of_pos (by simpa using hsurface), List.filter_nil,
          List.append_assoc _ after]
      · exact fun hne => hne hsurface
    · refine ⟨before, after, ?_, hafter⟩
      rw [List.filter_cons_of_neg (by simpa using hsurface), List.filter_nil, List.append_nil]
  key := h.key
  timestamps := h.timestamps

/-- The next frame of the surface of an open decoder. -/
theorem decode (h : d.Fed frames) (hopen : d.state = .configured)
    (hkey : d.fed = [] → f.isKeyframe = true) (hsurface : f.surfaceId = d.surfaceId)
    (hwidth : f.width = d.width) (hheight : f.height = d.height) :
    ({ d with
        keyChunkRequired := false
        fed := d.fed ++ [⟨f.isKeyframe, 1000 * d.fed.length, f.data⟩] } : VideoDecoder).Fed
      (frames ++ [f]) where
  gapless := by
    obtain ⟨before, after, hframes, hafter⟩ := h.gapless
    obtain rfl := hafter hopen
    refine ⟨before, [], ?_, fun _ => rfl⟩
    have hframe : f = ⟨d.surfaceId, d.width, d.height, f.isKeyframe, f.data⟩ := by
      rw [← hsurface, ← hwidth, ← hheight]
    rw [List.filter_append, hframes, List.filter_cons_of_pos (by simpa using hsurface),
      List.filter_nil, List.append_nil, List.append_nil, List.map_append, List.append_assoc,
      List.map_singleton]
    congr 2
    exact congrArg (List.cons · []) hframe
  key := by
    intro chunk hchunk
    cases hfed : d.fed with
    | nil =>
        rw [hfed] at hchunk
        obtain rfl := Option.some.inj hchunk
        exact hkey hfed
    | cons first rest =>
        rw [hfed] at hchunk
        exact h.key chunk (by rw [hfed]; exact hchunk)
  timestamps := by
    dsimp only
    rw [List.map_append, List.length_append, List.length_singleton, List.range_succ,
      List.map_append, h.timestamps, List.map_singleton, List.map_singleton]

end VideoDecoder.Fed

/-! ## One step -/

namespace VideoPage

/-- What an entry says of its decoder. -/
structure Entry.Right (id : UInt16) (entry : Avc420Entry) (d : VideoDecoder) : Prop where
  surfaceId : d.surfaceId = id
  width : d.width = entry.width
  height : d.height = entry.height
  configured : d.state = .configured
  awaiting : d.keyChunkRequired = entry.awaitingKeyframe
  unfed : entry.awaitingKeyframe = true ↔ d.fed = []
  pts : entry.pts = 1000 * d.fed.length

/-- `Safe`, and what the entries say of the decoders. -/
structure Inv (s : VideoPage) : Prop extends s.Safe where
  right : ∀ id entry, s.avc420Decoders.get id = some entry →
    ∃ d, s.decoders[entry.decoder]? = some d ∧ Entry.Right id entry d

variable {s : VideoPage}

theorem inv_initial : initial.Inv where
  fed := nofun
  owned := nofun
  unthrown := rfl
  right := nofun

/-- A decoder is closed and its surface forgotten. -/
theorem Inv.forget (h : s.Inv) {i : Nat} {d : VideoDecoder} (hi : s.decoders[i]? = some d)
    (hopen : d.state = .configured) :
    ({ s.closeDecoder i with
        avc420Decoders := s.avc420Decoders.delete d.surfaceId } : VideoPage).Inv where
  fed := by
    intro d' hd'
    obtain ⟨j, hj⟩ := List.mem_iff_getElem?.mp hd'
    rw [closeDecoder, List.getElem?_modify] at hj
    obtain ⟨d₀, hd₀, hj⟩ := Option.map_eq_some_iff.mp hj
    have hfed := h.fed d₀ (List.mem_of_getElem? hd₀)
    split at hj
    · exact hj ▸ hfed.close
    · exact hj ▸ hfed
  owned := by
    intro j d' hj hd'
    rw [closeDecoder, List.getElem?_modify] at hj
    obtain ⟨d₀, hd₀, hj⟩ := Option.map_eq_some_iff.mp hj
    split at hj
    · rw [← hj] at hd'
      cases hd'
    · rename_i hij
      obtain rfl : d₀ = d' := hj
      obtain ⟨entry, hentry, hplace⟩ := h.owned j d₀ hd₀ hd'
      refine ⟨entry, ?_, hplace⟩
      rw [InsertionMap.get_delete, if_neg]
      · exact hentry
      · intro hsame
        obtain ⟨entry', hentry', hplace'⟩ := h.owned i d hi hopen
        rw [hsame] at hentry
        rw [hentry] at hentry'
        obtain rfl := Option.some.inj hentry'
        exact hij (hplace'.symm.trans hplace)
  unthrown := h.unthrown
  right := by
    intro id entry hget
    rw [InsertionMap.get_delete] at hget
    split at hget
    · cases hget
    · rename_i hid
      obtain ⟨d', hd', hright⟩ := h.right id entry hget
      refine ⟨d', ?_, hright⟩
      rw [closeDecoder, List.getElem?_modify, hd']
      have hne : i ≠ entry.decoder := by
        rintro rfl
        rw [hi] at hd'
        obtain rfl := Option.some.inj hd'
        exact hid hright.surfaceId.symm
      exact congrArg some (if_neg hne)

/-- What `getOrCreateAvc420Decoder` leaves and returns. -/
structure Got (s : VideoPage) (id width height : UInt16)
    (result : VideoPage × Option Avc420Entry) : Prop where
  inv : result.1.Inv
  frames : result.1.frames = s.frames
  entry : result.1.avc420Decoders.get id = result.2
  size : ∀ entry ∈ result.2, entry.width = width ∧ entry.height = height

theorem Inv.createDecoder (h : s.Inv) {id : UInt16} (hnone : s.avc420Decoders.get id = none)
    (width height : UInt16) (configures : Bool) :
    Got s id width height (s.createDecoder id width height configures) := by
  have hunowned : ∀ (i : Nat) (d : VideoDecoder), s.decoders[i]? = some d →
      d.state = .configured → d.surfaceId ≠ id := by
    rintro i d hi hd rfl
    obtain ⟨entry, hentry, -⟩ := h.owned i d hi hd
    rw [hnone] at hentry
    cases hentry
  have hlast (d : VideoDecoder) {i : Nat} {d' : VideoDecoder}
      (hi : (s.decoders ++ [d])[i]? = some d') :
      s.decoders[i]? = some d' ∨ (i = s.decoders.length ∧ d' = d) := by
    rw [List.getElem?_append] at hi
    split at hi
    · exact .inl hi
    · refine .inr ?_
      have hlt := (List.getElem?_eq_some_iff.mp hi).1
      obtain rfl := List.mem_singleton.mp (List.mem_of_getElem? hi)
      rw [List.length_singleton] at hlt
      exact ⟨by omega, rfl⟩
  have hkept (d : VideoDecoder) {i : Nat} {d' : VideoDecoder} (hi : s.decoders[i]? = some d') :
      (s.decoders ++ [d])[i]? = some d' := by
    rw [List.getElem?_append_left (List.getElem?_eq_some_iff.mp hi).1]
    exact hi
  rw [VideoPage.createDecoder]
  dsimp only
  split
  · exact ⟨h, rfl, hnone, nofun⟩
  split
  · refine ⟨⟨⟨?_, ?_, h.unthrown⟩, ?_⟩, rfl, hnone, nofun⟩
    · exact List.forall_mem_append.mpr ⟨h.fed, List.forall_mem_singleton.mpr (.of_unfed rfl)⟩
    · intro i d hi hd
      obtain hi | ⟨-, rfl⟩ := hlast _ hi
      · exact h.owned i d hi hd
      · cases hd
    · intro i entry hentry
      obtain ⟨d, hd, hright⟩ := h.right i entry hentry
      exact ⟨d, hkept _ hd, hright⟩
  · refine ⟨⟨⟨?_, ?_, h.unthrown⟩, ?_⟩, rfl, InsertionMap.get_set_self .., ?_⟩
    · exact List.forall_mem_append.mpr ⟨h.fed, List.forall_mem_singleton.mpr (.of_unfed rfl)⟩
    · intro i d hi hd
      dsimp only
      rw [InsertionMap.get_set]
      obtain hi | ⟨rfl, rfl⟩ := hlast _ hi
      · rw [if_neg (hunowned i d hi hd)]
        exact h.owned i d hi hd
      · exact ⟨_, if_pos rfl, rfl⟩
    · intro i entry hentry
      dsimp only at hentry
      rw [InsertionMap.get_set] at hentry
      split at hentry
      · rename_i hid
        obtain rfl := Option.some.inj hentry
        refine ⟨_, List.getElem?_concat_length .., ?_⟩
        exact ⟨hid.symm, rfl, rfl, rfl, rfl, iff_of_true rfl rfl, rfl⟩
      · obtain ⟨d, hd, hright⟩ := h.right i entry hentry
        exact ⟨d, hkept _ hd, hright⟩
    · rintro entry hentry
      obtain rfl := Option.some.inj hentry
      exact ⟨rfl, rfl⟩

theorem Inv.getOrCreateAvc420Decoder (h : s.Inv) (id width height : UInt16) (configures : Bool) :
    Got s id width height (s.getOrCreateAvc420Decoder id width height configures) := by
  rw [VideoPage.getOrCreateAvc420Decoder]
  cases hget : s.avc420Decoders.get id with
  | none => exact h.createDecoder hget width height configures
  | some entry =>
      dsimp only
      split
      · rename_i hsize
        refine ⟨h, rfl, hget, ?_⟩
        rintro _ ⟨⟩
        exact hsize
      · -- the decoder of another size is closed
        obtain ⟨d, hd, hright⟩ := h.right id entry hget
        have hforget := h.forget hd hright.configured
        rw [hright.surfaceId] at hforget
        have hnone : (s.avc420Decoders.delete id).get id = none := by
          rw [InsertionMap.get_delete, if_pos rfl]
        have hcreate := hforget.createDecoder hnone width height configures
        exact ⟨hcreate.inv, hcreate.frames, hcreate.entry, hcreate.size⟩

/-- A frame for which there is no decoder, or that is not fed to it. -/
theorem Inv.missed (h : s.Inv) {f : Avc420Frame}
    (hf : ∀ (i : Nat) (d : VideoDecoder), s.decoders[i]? = some d → d.state = .configured →
      d.surfaceId = f.surfaceId → d.fed = []) :
    ({ s with frames := s.frames ++ [f] } : VideoPage).Inv where
  fed d hd := by
    obtain ⟨i, hi⟩ := List.mem_iff_getElem?.mp hd
    by_cases hopen : d.state = .configured
    · by_cases hsurface : d.surfaceId = f.surfaceId
      · exact .of_unfed (hf i d hi hopen hsurface)
      · exact (h.fed d hd).missed (.inl (Ne.symm hsurface))
    · exact (h.fed d hd).missed (.inr hopen)
  owned := h.owned
  unthrown := h.unthrown
  right := h.right

/-- An open decoder of a surface is the one of its entry. -/
theorem Inv.eq_of_open (h : s.Inv) {id : UInt16} {entry : Avc420Entry} {d d' : VideoDecoder}
    {i : Nat} (hentry : s.avc420Decoders.get id = some entry)
    (hd : s.decoders[entry.decoder]? = some d) (hi : s.decoders[i]? = some d')
    (hopen : d'.state = .configured) (hsurface : d'.surfaceId = id) :
    i = entry.decoder ∧ d' = d := by
  obtain ⟨entry', hentry', rfl⟩ := h.owned i d' hi hopen
  rw [hsurface, hentry] at hentry'
  obtain rfl := Option.some.inj hentry'
  rw [hi] at hd
  exact ⟨rfl, Option.some.inj hd⟩

/-- A frame that the decoder of its surface is fed, or for which it waits. -/
theorem Inv.feed (h : s.Inv) {f : Avc420Frame} {entry : Avc420Entry}
    (hentry : s.avc420Decoders.get f.surfaceId = some entry)
    (hsize : entry.width = f.width ∧ entry.height = f.height) :
    ({ s.feed entry f with frames := (s.feed entry f).frames ++ [f] } : VideoPage).Inv := by
  obtain ⟨d, hd, hright⟩ := h.right _ entry hentry
  by_cases hwaits : (entry.awaitingKeyframe && !f.isKeyframe) = true
  · rw [VideoPage.feed, if_pos hwaits]
    refine h.missed fun i d' hi hopen hsurface => ?_
    obtain ⟨-, rfl⟩ := h.eq_of_open hentry hd hi hopen hsurface
    exact hright.unfed.mp (Bool.and_eq_true_iff.mp hwaits).1
  · -- the page waits exactly when the decoder requires a key chunk
    have hdecode : d.decode ⟨f.isKeyframe, entry.pts, f.data⟩ = some { d with
        keyChunkRequired := false
        fed := d.fed ++ [⟨f.isKeyframe, 1000 * d.fed.length, f.data⟩] } := by
      rw [VideoDecoder.decode, if_neg (not_not_intro hright.configured), hright.awaiting,
        if_neg hwaits, hright.pts]
    have hkey (hfed : d.fed = []) : f.isKeyframe = true := by
      rw [hright.unfed.mpr hfed, Bool.true_and, Bool.not_eq_true', Bool.not_eq_false] at hwaits
      exact hwaits
    have hfed := (h.fed d (List.mem_of_getElem? hd)).decode hright.configured hkey
      hright.surfaceId.symm (hsize.1.symm.trans hright.width.symm)
      (hsize.2.symm.trans hright.height.symm)
    rw [VideoPage.feed, if_neg hwaits, hd, Option.bind_some, hdecode]
    have hlt : entry.decoder < s.decoders.length := (List.getElem?_eq_some_iff.mp hd).1
    refine ⟨⟨?_, ?_, h.unthrown⟩, ?_⟩
    · intro d' hd'
      obtain ⟨i, hi⟩ := List.mem_iff_getElem?.mp hd'
      dsimp only at hi
      rw [List.getElem?_set] at hi
      split at hi
      · exact Option.some.inj hi ▸ hfed
      · rename_i hne
        have hold := h.fed d' (List.mem_of_getElem? hi)
        refine hold.missed ?_
        by_contra hnot
        rw [not_or, not_not, not_not] at hnot
        exact hne (h.eq_of_open hentry hd hi hnot.2 hnot.1.symm).1.symm
    · intro i d' hi hopen
      dsimp only at hi ⊢
      rw [List.getElem?_set] at hi
      rw [InsertionMap.get_set]
      split at hi
      · rename_i heq
        obtain rfl := Option.some.inj hi
        exact ⟨_, if_pos hright.surfaceId, heq⟩
      · rename_i hne
        have hother : d'.surfaceId ≠ f.surfaceId := fun hsurface =>
          hne (h.eq_of_open hentry hd hi hopen hsurface).1.symm
        rw [if_neg hother]
        exact h.owned i d' hi hopen
    · intro id entry' hget
      dsimp only at hget ⊢
      rw [InsertionMap.get_set] at hget
      split at hget
      · rename_i hid
        obtain rfl := Option.some.inj hget
        refine ⟨_, by dsimp only; rw [List.getElem?_set_self hlt], ?_⟩
        refine ⟨hright.surfaceId.trans hid.symm, hright.width, hright.height, hright.configured,
          rfl, ?_, ?_⟩
        · exact iff_of_false Bool.false_ne_true
            (List.append_ne_nil_of_right_ne_nil _ (List.cons_ne_nil _ _))
        · dsimp only
          rw [hright.pts, List.length_append, List.length_singleton]
          omega
      · rename_i hid
        obtain ⟨d', hd', hright'⟩ := h.right id entry' hget
        refine ⟨d', ?_, hright'⟩
        rw [List.getElem?_set_ne]
        · exact hd'
        · intro heq
          rw [← heq, hd] at hd'
          obtain rfl := Option.some.inj hd'
          exact hid (hright'.surfaceId.symm.trans hright.surfaceId)

theorem Inv.avc420Frame (h : s.Inv) (f : Avc420Frame) (configures : Bool) :
    (s.avc420Frame f configures).Inv := by
  have hgot := h.getOrCreateAvc420Decoder f.surfaceId f.width f.height configures
  rw [VideoPage.avc420Frame]
  generalize s.getOrCreateAvc420Decoder f.surfaceId f.width f.height configures = result at hgot ⊢
  obtain ⟨s', entry⟩ := result
  cases entry with
  | none =>
      refine hgot.inv.missed fun i d hi hopen hsurface => ?_
      obtain ⟨entry, hentry, -⟩ := hgot.inv.owned i d hi hopen
      rw [hsurface, hgot.entry] at hentry
      cases hentry
  | some entry => exact hgot.inv.feed hgot.entry (hgot.size entry rfl)

theorem Inv.avc420Closed (h : s.Inv) (surfaceId : UInt16) : (s.avc420Closed surfaceId).Inv := by
  rw [VideoPage.avc420Closed]
  cases hget : s.avc420Decoders.get surfaceId with
  | none => exact h
  | some entry =>
      obtain ⟨d, hd, hright⟩ := h.right surfaceId entry hget
      have hforget := h.forget hd hright.configured
      rwa [hright.surfaceId] at hforget

theorem Inv.decoderError (h : s.Inv) (decoder : Nat) : (s.decoderError decoder).Inv := by
  rw [VideoPage.decoderError]
  cases hget : s.decoders[decoder]? with
  | none => exact h
  | some d =>
      dsimp only
      split
      · rename_i hopen
        exact h.forget hget hopen
      · exact h

/-! ## Cleaning up -/

theorem getElem?_closeDecoders (entries : List Avc420Entry) (s : VideoPage) (i : Nat) :
    (entries.foldl (fun s entry => s.closeDecoder entry.decoder) s).decoders[i]? =
      s.decoders[i]?.map fun d => if ∃ entry ∈ entries, entry.decoder = i then d.close else d := by
  induction entries generalizing s with
  | nil => simp
  | cons entry entries ih =>
      rw [List.foldl_cons, ih, closeDecoder, List.getElem?_modify]
      cases s.decoders[i]? with
      | none => rfl
      | some d =>
          simp only [Option.map_some, Option.map_eq_map]
          by_cases hi : entry.decoder = i
          · by_cases hrest : ∃ entry ∈ entries, entry.decoder = i <;>
              simp [hi, hrest, VideoDecoder.close]
          · simp [hi]

theorem closeDecoders_keeps (entries : List Avc420Entry) (s : VideoPage) :
    (entries.foldl (fun s entry => s.closeDecoder entry.decoder) s).frames = s.frames ∧
      (entries.foldl (fun s entry => s.closeDecoder entry.decoder) s).thrown = s.thrown := by
  induction entries generalizing s with
  | nil => exact ⟨rfl, rfl⟩
  | cons entry entries ih => exact ih (s.closeDecoder entry.decoder)

/-- Every open decoder is in the map, so all are closed. -/
theorem Inv.cleanupSession (h : s.Inv) :
    s.cleanupSession.Inv ∧ ∀ d ∈ s.cleanupSession.decoders, d.state ≠ .configured := by
  have hkeeps := closeDecoders_keeps s.avc420Decoders.values s
  have hclosed : ∀ d ∈ s.cleanupSession.decoders, d.state ≠ .configured ∧ d.Fed s.frames := by
    intro d hd
    obtain ⟨i, hi⟩ := List.mem_iff_getElem?.mp hd
    rw [VideoPage.cleanupSession] at hi
    dsimp only at hi
    rw [getElem?_closeDecoders] at hi
    obtain ⟨d₀, hd₀, hi⟩ := Option.map_eq_some_iff.mp hi
    have hfed := h.fed d₀ (List.mem_of_getElem? hd₀)
    split at hi
    · rw [← hi]
      exact ⟨nofun, hfed.close⟩
    · rename_i hnone
      rw [← hi]
      refine ⟨fun hopen => hnone ?_, hfed⟩
      obtain ⟨entry, hentry, hplace⟩ := h.owned i d₀ hd₀ hopen
      have hmem := (s.avc420Decoders.mem_entries _ _).mpr hentry
      exact ⟨entry, List.mem_map.mpr ⟨_, hmem, rfl⟩, hplace⟩
  refine ⟨⟨⟨?_, ?_, hkeeps.2.trans h.unthrown⟩, nofun⟩, fun d hd => (hclosed d hd).1⟩
  · intro d hd
    rw [show s.cleanupSession.frames = s.frames from hkeeps.1]
    exact (hclosed d hd).2
  · intro i d hi hopen
    exact absurd hopen (hclosed d (List.mem_of_getElem? hi)).1

/-! ## The page -/

def Entry.forget (entry : Avc420Entry) : Avc420Decoder :=
  ⟨entry.width, entry.height, entry.awaitingKeyframe, entry.pts⟩

/-- The map of the page, without the places of the decoders. -/
def Agrees (p : Page) (s : VideoPage) : Prop :=
  p.h264 = s.h264Codec ∧
    ∀ id, p.avc420Decoders.get id = (s.avc420Decoders.get id).map Entry.forget

theorem Agrees.set {p : Page} (h : s.Agrees p) (id : UInt16) (entry : Avc420Entry) :
    Agrees { p with avc420Decoders := p.avc420Decoders.set id (Entry.forget entry) }
      { s with avc420Decoders := s.avc420Decoders.set id entry } := by
  refine ⟨h.1, fun i => ?_⟩
  rw [InsertionMap.get_set, InsertionMap.get_set, h.2]
  split <;> rfl

theorem Agrees.delete {p : Page} (h : s.Agrees p) (id : UInt16) :
    Agrees { p with avc420Decoders := p.avc420Decoders.delete id }
      { s with avc420Decoders := s.avc420Decoders.delete id } := by
  refine ⟨h.1, fun i => ?_⟩
  rw [InsertionMap.get_delete, InsertionMap.get_delete, h.2]
  split <;> rfl

theorem Agrees.createDecoder {p : Page} (h : s.Agrees p) (id width height : UInt16)
    (configures : Bool) :
    let result := Page.getOrCreateAvc420Decoder.create id width height configures p
    Agrees result.1 (s.createDecoder id width height configures).1 ∧
      result.2 = (s.createDecoder id width height configures).2.map Entry.forget := by
  dsimp only
  rw [Page.getOrCreateAvc420Decoder.create, VideoPage.createDecoder]
  by_cases hcodec : s.h264Codec = true
  · have hpage : p.h264 = true := h.1.trans hcodec
    cases configures with
    | false =>
        rw [if_neg (by simp), if_neg (by simp [hcodec]), if_pos (show (!false) = true from rfl)]
        exact ⟨h, rfl⟩
    | true =>
        rw [if_pos (by simp [hpage]), if_neg (by simp [hcodec]),
          if_neg (show ¬ (!true) = true by decide)]
        exact ⟨h.set id ⟨_, width, height, true, 0⟩, rfl⟩
  · have hpage : p.h264 ≠ true := fun hp => hcodec (h.1.symm.trans hp)
    rw [if_neg (by simp [hpage]), if_pos (by simp [hcodec])]
    exact ⟨h, rfl⟩

theorem Agrees.getOrCreateAvc420Decoder {p : Page} (h : s.Agrees p) (id width height : UInt16)
    (configures : Bool) :
    let result := p.getOrCreateAvc420Decoder id width height configures
    Agrees result.1 (s.getOrCreateAvc420Decoder id width height configures).1 ∧
      result.2 = (s.getOrCreateAvc420Decoder id width height configures).2.map Entry.forget := by
  rw [Page.getOrCreateAvc420Decoder, VideoPage.getOrCreateAvc420Decoder, h.2]
  cases hget : s.avc420Decoders.get id with
  | none => exact h.createDecoder id width height configures
  | some entry =>
      rw [Option.map_some]
      dsimp only [Entry.forget]
      by_cases hsize : entry.width = width ∧ entry.height = height
      · rw [if_pos hsize, if_pos hsize]
        exact ⟨h, rfl⟩
      · rw [if_neg hsize, if_neg hsize]
        have hdelete : Agrees { p with avc420Decoders := p.avc420Decoders.delete id }
            { s.closeDecoder entry.decoder with
              avc420Decoders := s.avc420Decoders.delete id } := h.delete id
        exact hdelete.createDecoder id width height configures

/-- The page's own `decode`s never throw. -/
theorem Agrees.avc420Frame {p : Page} (h : s.Agrees p) (hs : s.Inv) (f : Avc420Frame)
    (configures : Bool) :
    Agrees (p.avc420Frame f.surfaceId f.width f.height f.isKeyframe configures true)
      (s.avc420Frame f configures) := by
  have hgot := hs.getOrCreateAvc420Decoder f.surfaceId f.width f.height configures
  have hagrees := h.getOrCreateAvc420Decoder f.surfaceId f.width f.height configures
  rw [VideoPage.avc420Frame, Page.avc420Frame]
  generalize s.getOrCreateAvc420Decoder f.surfaceId f.width f.height configures = result
    at hgot hagrees ⊢
  generalize p.getOrCreateAvc420Decoder f.surfaceId f.width f.height configures = result'
    at hagrees ⊢
  obtain ⟨s, entry⟩ := result
  obtain ⟨p, entry'⟩ := result'
  obtain ⟨hagrees, rfl⟩ := hagrees
  cases entry with
  | none => exact hagrees
  | some entry =>
      dsimp only [Option.map_some, Entry.forget, VideoPage.feed]
      rw [Bool.not_true, Bool.or_false]
      by_cases hwaits : (entry.awaitingKeyframe && !f.isKeyframe) = true
      · rw [if_pos hwaits, if_pos hwaits]
        exact hagrees
      · obtain ⟨d, hd, hright⟩ := hgot.inv.right _ entry hgot.entry
        rw [if_neg hwaits, if_neg hwaits, hd, Option.bind_some, VideoDecoder.decode,
          if_neg (not_not_intro hright.configured), hright.awaiting, if_neg hwaits]
        exact hagrees.set f.surfaceId
          { entry with awaitingKeyframe := false, pts := entry.pts + 1000 }

/-! ## Whole runs -/

theorem Inv.step (h : s.Inv) (e : VideoEvent) : (s.step e).Inv := by
  cases e with
  | probed h264 => exact ⟨⟨h.fed, h.owned, h.unthrown⟩, h.right⟩
  | frame f configures => exact h.avc420Frame f configures
  | closed surfaceId => exact h.avc420Closed surfaceId
  | error decoder => exact h.decoderError decoder
  | cleanupSession => exact h.cleanupSession.1

/-- In every run, with errors and failures of the browser at any point, each
decoder is fed a part of its surface's frames without a gap, of one size and
from a key frame on; `decode` never throws; each surface has one open decoder
at most, which the page knows; and none is open after `cleanupSession`. -/
theorem always_fed (events : List VideoEvent) :
    Runs.Always VideoPage.step (fun s => s.Safe ∧
      ∀ d ∈ s.cleanupSession.decoders, d.state ≠ .configured) initial events := by
  have hinv : Runs.Always VideoPage.step Inv initial events :=
    Runs.always_of_each (c := fun _ _ => True) (fun _ e _ h _ => h.step e) inv_initial
      fun _ _ _ => trivial
  intro pre hpre
  exact ⟨(hinv pre hpre).toSafe, (hinv pre hpre).cleanupSession.2⟩

end VideoPage

end WasmRdp
