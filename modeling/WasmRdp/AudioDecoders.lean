import WasmRdp.AudioPage
import WasmRdp.Lib.Runs

/-!
# The audio decoders

The page has one decoder for compressed sound, and makes a new one where the
codec, the rate or the number of channels changes. It looks at these and not at
the state of the decoder, so that one which has failed stays where it is until
a wave of another format comes, or the session ends. Until then the waves of its
format are lost, for no other decoder is made and this one throws.

The invariant `DecoderInv` is of three parts: what each decoder ever made was fed
(`Fed`); that an open one is the page's own; and that the page's variables tell the
format of its decoder, and where its next chunk stands (`Current`). It is kept by
`closeDecoder`, which leaves none open (`Shut`), by `ensureDecoder`, which leaves
none or one of the format asked for (`Ensured`), and by `decodeChunk` after it;
the other events leave these variables alone (`SameDecoders`).

`Stuck` is the same for a decoder that has failed, over the events that the
page keeps it through (`KeptThrough`): waves that are not compressed, waves of
its own format, and whatever contexts, modules and outputs do. One such event
leaves it as it is (`Stuck.step`), and nothing is fed to any decoder while they
last (`Stuck.run`). A wave of another format does away with it, also when the
next one after it is of the old format again; so a page that has failed on one
format plays it once another one has come between. `always_decodes` has both.
-/

namespace WasmRdp

open Runs

variable {α : Type}

/-- The codec string of a codec tag. -/
def AudioWave.codecString (w : AudioWave) : Option String :=
  if w.codec = 0x704F then some "opus" else if w.codec = 0xA106 then some "mp4a.40.2" else none

namespace AudioDecoder

/-- A wave that the decoder is made for. -/
structure Takes (d : AudioDecoder) (w : AudioWave) : Prop where
  codec : w.codecString = some d.codec
  sampleRate : w.sampleRate = d.sampleRate
  channels : w.channels = d.channels

/-- What a decoder was fed: waves of its format, 20 ms apart. -/
structure Fed (d : AudioDecoder) (start : Nat) : Prop where
  takes : ∀ chunk ∈ d.fed, d.Takes chunk.wave
  timestamps : d.fed.map (·.timestamp) = (List.range d.fed.length).map (start + 20000 * ·)

theorem Fed.close {d : AudioDecoder} {start : Nat} (h : d.Fed start) : d.close.Fed start :=
  ⟨fun chunk hchunk => ⟨(h.takes chunk hchunk).codec, (h.takes chunk hchunk).sampleRate,
    (h.takes chunk hchunk).channels⟩, h.timestamps⟩

theorem Fed.decode {d : AudioDecoder} {start : Nat} (h : d.Fed start) {w : AudioWave}
    (hw : d.Takes w) :
    ({ d with fed := d.fed ++ [⟨start + 20000 * d.fed.length, w⟩] } : AudioDecoder).Fed start where
  takes := by
    intro chunk hchunk
    have htakes : d.Takes chunk.wave := by
      rcases List.mem_append.mp hchunk with hchunk | hchunk
      · exact h.takes chunk hchunk
      · rw [List.mem_singleton.mp hchunk]
        exact hw
    exact ⟨htakes.codec, htakes.sampleRate, htakes.channels⟩
  timestamps := by
    dsimp only
    rw [List.map_append, h.timestamps, List.length_append, List.length_singleton,
      List.range_succ, List.map_append]
    rfl

end AudioDecoder

namespace AudioPage

/-- Neither a wave of another compressed format nor the end of the session. -/
def KeptThrough (d : AudioDecoder) : AudioPageEvent α → Prop
  | .wave w _ => w.codecString.isSome → d.Takes w
  | .cleanupSession => False
  | _ => True

/-- An open decoder is the page's own, which has the format that the page takes it
for. Once it has failed, nothing is decoded until the page has another. -/
structure Decodes (ops : PcmOps α) (maxChannels : Nat) (s : AudioPage α) : Prop where
  fed : ∀ d ∈ s.decoders, ∃ start, d.Fed start
  owned : ∀ i d, s.decoders[i]? = some d → d.state = .configured → s.audioDecoder = some i
  blocked : ∀ i d, s.audioDecoder = some i → s.decoders[i]? = some d → d.state ≠ .configured →
    ∀ later : List (AudioPageEvent α), (∀ ev ∈ later, KeptThrough d ev) →
      (later.foldl (step ops maxChannels) s).decoders.map (·.fed) = s.decoders.map (·.fed)

/-- The page's decoder, and where its next chunk stands. -/
structure Current (s : AudioPage α) (d : AudioDecoder) : Prop where
  codec : s.decoderCodec = some d.codec
  sampleRate : s.decoderRate = d.sampleRate
  channels : s.decoderChannels = d.channels
  next : ∃ start, d.Fed start ∧ s.audioPts = start + 20000 * d.fed.length

structure DecoderInv (s : AudioPage α) : Prop where
  fed : ∀ d ∈ s.decoders, ∃ start, d.Fed start
  owned : ∀ i d, s.decoders[i]? = some d → d.state = .configured → s.audioDecoder = some i
  current : ∀ i, s.audioDecoder = some i → ∃ d, s.decoders[i]? = some d ∧ s.Current d

/-! ## One event -/

section
variable {s s' : AudioPage α}

/-- What is said of decoders is the same. -/
structure SameDecoders (s s' : AudioPage α) : Prop where
  decoders : s'.decoders = s.decoders
  audioDecoder : s'.audioDecoder = s.audioDecoder
  decoderCodec : s'.decoderCodec = s.decoderCodec
  decoderRate : s'.decoderRate = s.decoderRate
  decoderChannels : s'.decoderChannels = s.decoderChannels
  audioPts : s'.audioPts = s.audioPts

theorem SameDecoders.refl (s : AudioPage α) : SameDecoders s s := ⟨rfl, rfl, rfl, rfl, rfl, rfl⟩

theorem SameDecoders.trans {s'' : AudioPage α} (h : SameDecoders s s') (h' : SameDecoders s' s'') :
    SameDecoders s s'' where
  decoders := h'.decoders.trans h.decoders
  audioDecoder := h'.audioDecoder.trans h.audioDecoder
  decoderCodec := h'.decoderCodec.trans h.decoderCodec
  decoderRate := h'.decoderRate.trans h.decoderRate
  decoderChannels := h'.decoderChannels.trans h.decoderChannels
  audioPts := h'.audioPts.trans h.audioPts

theorem DecoderInv.congr (h : s.DecoderInv) (hsame : SameDecoders s s') : s'.DecoderInv := by
  refine ⟨?_, ?_, ?_⟩
  · rw [hsame.decoders]
    exact h.fed
  · rw [hsame.decoders, hsame.audioDecoder]
    exact h.owned
  · rw [hsame.decoders, hsame.audioDecoder]
    intro i hi
    obtain ⟨d, hd, hcurrent⟩ := h.current i hi
    refine ⟨d, hd, hsame.decoderCodec.trans hcurrent.codec,
      hsame.decoderRate.trans hcurrent.sampleRate,
      hsame.decoderChannels.trans hcurrent.channels, ?_⟩
    rw [hsame.audioPts]
    exact hcurrent.next

/-- The decoder at a place is closed. -/
theorem DecoderInv.modify_close (h : s.DecoderInv) (i : Nat) :
    ({ s with decoders := s.decoders.modify i AudioDecoder.close } : AudioPage α).DecoderInv := by
  have hmodified : ∀ {j : Nat} {d : AudioDecoder},
      (s.decoders.modify i AudioDecoder.close)[j]? = some d →
      ∃ d₀ : AudioDecoder, s.decoders[j]? = some d₀ ∧ (d = d₀ ∨ d = d₀.close) := by
    intro j d hd
    rw [List.getElem?_modify] at hd
    obtain ⟨d₀, hd₀, hd⟩ := Option.map_eq_some_iff.mp hd
    split at hd
    · exact ⟨d₀, hd₀, .inr hd.symm⟩
    · exact ⟨d₀, hd₀, .inl hd.symm⟩
  refine ⟨?_, ?_, ?_⟩
  · intro d hd
    obtain ⟨j, hj⟩ := List.mem_iff_getElem?.mp hd
    obtain ⟨d₀, hd₀, hcases⟩ := hmodified hj
    obtain ⟨start, hfed⟩ := h.fed d₀ (List.mem_of_getElem? hd₀)
    rcases hcases with rfl | rfl
    · exact ⟨start, hfed⟩
    · exact ⟨start, hfed.close⟩
  · intro j d hd hopen
    obtain ⟨d₀, hd₀, hcases⟩ := hmodified hd
    rcases hcases with rfl | rfl
    · exact h.owned j d hd₀ hopen
    · cases hopen
  · intro j hj
    obtain ⟨d, hd, hcurrent⟩ := h.current j hj
    have hget : (s.decoders.modify i AudioDecoder.close)[j]? =
        some (if i = j then d.close else d) := by
      rw [List.getElem?_modify, hd]
      rfl
    refine ⟨_, hget, ?_⟩
    split
    · obtain ⟨start, hfed, hpts⟩ := hcurrent.next
      exact ⟨hcurrent.codec, hcurrent.sampleRate, hcurrent.channels, start, hfed.close, hpts⟩
    · exact ⟨hcurrent.codec, hcurrent.sampleRate, hcurrent.channels, hcurrent.next⟩

/-- No decoder is open, and the page has none. -/
structure Shut (s : AudioPage α) : Prop where
  fed : ∀ d ∈ s.decoders, ∃ start, d.Fed start
  closed : ∀ d ∈ s.decoders, d.state ≠ .configured
  none : s.audioDecoder = none

theorem Shut.decoderInv (h : s.Shut) : s.DecoderInv := by
  refine ⟨h.fed, fun i d hd hopen => ?_, fun i hi => ?_⟩
  · exact absurd hopen (h.closed d (List.mem_of_getElem? hd))
  · rw [h.none] at hi
    cases hi

theorem DecoderInv.shut_of_none (h : s.DecoderInv) (hnone : s.audioDecoder = none) : s.Shut := by
  refine ⟨h.fed, fun d hd hopen => ?_, hnone⟩
  obtain ⟨i, hi⟩ := List.mem_iff_getElem?.mp hd
  have howned := h.owned i d hi hopen
  rw [hnone] at howned
  cases howned

theorem DecoderInv.closeDecoder (h : s.DecoderInv) : s.closeDecoder.Shut := by
  rw [AudioPage.closeDecoder]
  cases hdecoder : s.audioDecoder with
  | none => exact h.shut_of_none hdecoder
  | some i =>
      have hclosed := h.modify_close i
      refine ⟨hclosed.fed, fun d hd hopen => ?_, rfl⟩
      -- the one that was open is at `i`
      obtain ⟨j, hj⟩ := List.mem_iff_getElem?.mp hd
      have howned := hclosed.owned j d hj hopen
      obtain rfl : i = j := Option.some.inj (hdecoder.symm.trans howned)
      dsimp only at hj
      rw [List.getElem?_modify] at hj
      obtain ⟨d₀, -, hd₀⟩ := Option.map_eq_some_iff.mp hj
      rw [if_pos rfl] at hd₀
      rw [← hd₀] at hopen
      cases hopen

/-- What `ensureDecoder` leaves: no decoder, or one of the format. -/
structure Ensured (s : AudioPage α) (codec : String) (sampleRate : UInt32) (channels : UInt16) :
    Prop where
  inv : s.DecoderInv
  format : s.audioDecoder.isSome →
    s.decoderCodec = some codec ∧ s.decoderRate = sampleRate ∧ s.decoderChannels = channels

theorem DecoderInv.ensureDecoder (h : s.DecoderInv) (codec : String) (sampleRate : UInt32)
    (channels : UInt16) (description : List UInt8) (configures : Bool) :
    (s.ensureDecoder codec sampleRate channels description configures).Ensured codec sampleRate
      channels := by
  rw [AudioPage.ensureDecoder]
  split
  · rename_i hformat
    exact ⟨h, fun _ => hformat.2⟩
  have hshut := h.closeDecoder
  have hunfed (d : AudioDecoder) (hd : d.fed = []) (start : Nat) : d.Fed start := by
    refine ⟨?_, ?_⟩ <;> rw [hd]
    · exact nofun
    · rfl
  dsimp only
  split
  · refine ⟨Shut.decoderInv ⟨?_, ?_, hshut.none⟩, fun hsome => ?_⟩
    · exact List.forall_mem_append.mpr
        ⟨hshut.fed, List.forall_mem_singleton.mpr ⟨0, hunfed _ rfl 0⟩⟩
    · exact List.forall_mem_append.mpr ⟨hshut.closed, List.forall_mem_singleton.mpr nofun⟩
    · rw [hshut.none] at hsome
      cases hsome
  · refine ⟨⟨?_, ?_, ?_⟩, fun _ => ⟨rfl, rfl, rfl⟩⟩
    · exact List.forall_mem_append.mpr
        ⟨hshut.fed, List.forall_mem_singleton.mpr ⟨0, hunfed _ rfl 0⟩⟩
    · intro i d hd hopen
      dsimp only at hd
      rw [List.getElem?_append] at hd
      split at hd
      · exact absurd hopen (hshut.closed d (List.mem_of_getElem? hd))
      · have hlt := (List.getElem?_eq_some_iff.mp hd).1
        rw [List.length_singleton] at hlt
        exact congrArg some (by omega)
    · intro i hi
      obtain rfl : s.closeDecoder.decoders.length = i := Option.some.inj hi
      exact ⟨_, List.getElem?_concat_length .., rfl, rfl, rfl, _, hunfed _ rfl _, rfl⟩

theorem Ensured.decodeChunk {codec : String} {w : AudioWave}
    (h : s.Ensured codec w.sampleRate w.channels) (hcodec : w.codecString = some codec) :
    (s.decodeChunk w).DecoderInv := by
  rw [AudioPage.decodeChunk]
  cases hdecoder : s.audioDecoder with
  | none => exact h.inv
  | some i =>
      obtain ⟨d, hd, hcurrent⟩ := h.inv.current i hdecoder
      obtain ⟨hcodec', hrate', hchannels'⟩ := h.format (by rw [hdecoder]; rfl)
      dsimp only
      rw [hd, Option.bind_some, AudioDecoder.decode]
      by_cases hopen : d.state ≠ .configured
      · rw [if_pos hopen]
        exact h.inv
      rw [if_neg hopen]
      obtain ⟨start, hfed, hpts⟩ := hcurrent.next
      have htakes : d.Takes w := by
        refine ⟨?_, hrate'.symm.trans hcurrent.sampleRate, hchannels'.symm.trans hcurrent.channels⟩
        rw [hcodec, ← hcodec', hcurrent.codec]
      have hfed' := hfed.decode htakes
      rw [← hpts] at hfed'
      refine ⟨?_, ?_, ?_⟩
      · intro d' hd'
        rcases List.mem_or_eq_of_mem_set hd' with hd' | rfl
        · exact h.inv.fed d' hd'
        · exact ⟨start, hfed'⟩
      · intro j d' hj hopen'
        by_cases hij : i = j
        · exact congrArg some hij
        · dsimp only at hj
          rw [List.getElem?_set_ne hij] at hj
          exact hdecoder.symm.trans (h.inv.owned j d' hj hopen')
      · intro j hj
        obtain rfl : i = j := Option.some.inj hj
        have hlt : i < s.decoders.length := (List.getElem?_eq_some_iff.mp hd).1
        refine ⟨_, List.getElem?_set_self hlt, hcurrent.codec, hcurrent.sampleRate,
          hcurrent.channels, start, hfed', ?_⟩
        dsimp only
        rw [List.length_append, List.length_singleton, Nat.mul_add, ← Nat.add_assoc, ← hpts]

/-! ### The page's events -/

variable {ops : PcmOps α} {maxChannels : Nat}

theorem sameDecoders_postMessage (post : AudioPost α) : SameDecoders s (s.postMessage post) := by
  rw [AudioPage.postMessage]
  split
  · exact .refl s
  · exact ⟨rfl, rfl, rfl, rfl, rfl, rfl⟩

theorem sameDecoders_disconnectNode : SameDecoders s s.disconnectNode := by
  rw [disconnectNode]
  split
  · exact .refl s
  · exact ⟨rfl, rfl, rfl, rfl, rfl, rfl⟩

theorem sameDecoders_postPcmToWorklet (format : PcmFormat) (post : AudioPost α) :
    SameDecoders s (s.postPcmToWorklet maxChannels format post) := by
  rw [AudioPage.postPcmToWorklet]
  split
  · exact sameDecoders_postMessage post
  · refine (sameDecoders_disconnectNode (s := s)).trans ?_
    dsimp only
    split
    · refine SameDecoders.trans ?_ (sameDecoders_postMessage post)
      exact ⟨rfl, rfl, rfl, rfl, rfl, rfl⟩
    · exact ⟨rfl, rfl, rfl, rfl, rfl, rfl⟩

/-- A wave that needs no decoder. -/
theorem sameDecoders_audioData {w : AudioWave} (h : w.codecString = none) (configures : Bool) :
    SameDecoders s (s.audioData ops maxChannels w configures) := by
  rw [AudioPage.audioData]
  split
  · exact .refl s
  split
  · split
    · exact .refl s
    · exact sameDecoders_postPcmToWorklet ..
  split
  · rename_i hopus
    rw [AudioWave.codecString, if_pos hopus] at h
    cases h
  split
  · rename_i hopus haac
    rw [AudioWave.codecString, if_neg hopus, if_pos haac] at h
    cases h
  · exact .refl s

/-- An event that is neither a wave, nor a decoder's error, nor the session's end. -/
theorem sameDecoders_step {ev : AudioPageEvent α} (hwave : ∀ w configures, ev ≠ .wave w configures)
    (herror : ∀ i, ev ≠ .decoderError i) (hcleanup : ev ≠ .cleanupSession) :
    SameDecoders s (s.step ops maxChannels ev) := by
  cases ev with
  | wave w configures => exact absurd rfl (hwave w configures)
  | decoderError decoder => exact absurd rfl (herror decoder)
  | cleanupSession => exact absurd rfl hcleanup
  | decoded decoder audio =>
      rw [AudioPage.step, onDecodedAudio]
      split
      · exact .refl s
      · split
        · exact sameDecoders_postPcmToWorklet ..
        · exact .refl s
  | initContext made =>
      rw [AudioPage.step, initAudioContext]
      split
      · exact .refl s
      · exact ⟨rfl, rfl, rfl, rfl, rfl, rfl⟩
  | moduleLoaded context =>
      rw [AudioPage.step, AudioPage.moduleLoaded]
      split
      · exact ⟨rfl, rfl, rfl, rfl, rfl, rfl⟩
      · exact .refl s
  | moduleFailed context => exact ⟨rfl, rfl, rfl, rfl, rfl, rfl⟩

theorem DecoderInv.audioData (h : s.DecoderInv) (w : AudioWave) (configures : Bool) :
    (s.audioData ops maxChannels w configures).DecoderInv := by
  rw [AudioPage.audioData]
  split
  · exact h
  split
  · split
    · exact h
    · exact h.congr (sameDecoders_postPcmToWorklet ..)
  split
  · rename_i hopus
    have hstring : w.codecString = some "opus" := if_pos hopus
    exact (h.ensureDecoder ..).decodeChunk hstring
  split
  · rename_i hopus haac
    have hstring : w.codecString = some "mp4a.40.2" := by
      rw [AudioWave.codecString, if_neg hopus, if_pos haac]
    exact (h.ensureDecoder ..).decodeChunk hstring
  · exact h

theorem DecoderInv.cleanupSession (h : s.DecoderInv) : s.cleanupSession.DecoderInv := by
  have hnodes : ∀ {s₁ : AudioPage α}, s₁.DecoderInv →
      (if s₁.disconnectNode.audioContext.isSome then
        ({ s₁.disconnectNode with audioWorkletNode := none, audioContext := none,
                                  workletReady := false, audioFormat := none } : AudioPage α)
      else { s₁.disconnectNode with audioWorkletNode := none }).DecoderInv := by
    intro s₁ h₁
    have hdisconnect := h₁.congr sameDecoders_disconnectNode
    split <;> exact hdisconnect.congr ⟨rfl, rfl, rfl, rfl, rfl, rfl⟩
  rw [AudioPage.cleanupSession]
  refine hnodes ?_
  split
  · have hshut := h.closeDecoder
    exact Shut.decoderInv ⟨hshut.fed, hshut.closed, hshut.none⟩
  · exact h

theorem DecoderInv.step (h : s.DecoderInv) (ev : AudioPageEvent α) :
    (s.step ops maxChannels ev).DecoderInv := by
  cases ev with
  | wave w configures => exact h.audioData w configures
  | decoderError decoder => exact h.modify_close decoder
  | cleanupSession => exact h.cleanupSession
  | _ => exact h.congr (sameDecoders_step nofun nofun nofun)

/-! ## A decoder that has failed -/

/-- A decoder that has failed is asked again, and throws. -/
theorem DecoderInv.blocked (h : s.DecoderInv) {i : Nat} {d : AudioDecoder}
    (hi : s.audioDecoder = some i) (hd : s.decoders[i]? = some d) (hfailed : d.state ≠ .configured)
    {w : AudioWave} (hw : d.Takes w) (configures : Bool) :
    s.audioData ops maxChannels w configures = s := by
  obtain ⟨d', hd', hcurrent⟩ := h.current i hi
  obtain rfl : d = d' := Option.some.inj (hd.symm.trans hd')
  have hensure (description : List UInt8) :
      s.ensureDecoder d.codec w.sampleRate w.channels description configures = s :=
    if_pos ⟨by rw [hi]; rfl, hcurrent.codec, hcurrent.sampleRate.trans hw.sampleRate.symm,
      hcurrent.channels.trans hw.channels.symm⟩
  have hdecode : s.decodeChunk w = s := by
    rw [AudioPage.decodeChunk, hi]
    dsimp only
    rw [hd, Option.bind_some, AudioDecoder.decode, if_pos hfailed]
  have hcodec := hw.codec
  rw [AudioWave.codecString] at hcodec
  rw [AudioPage.audioData]
  split
  · rfl
  by_cases hopus : w.codec = 0x704F
  · rw [if_pos hopus] at hcodec
    rw [if_neg (by rw [hopus]; decide), if_pos hopus, Option.some.inj hcodec]
    dsimp only
    rw [hensure, hdecode]
  · rw [if_neg hopus] at hcodec
    split at hcodec
    · rename_i haac
      rw [if_neg (by rw [haac]; decide), if_neg hopus, if_pos haac, Option.some.inj hcodec, hensure,
        hdecode]
    · cases hcodec

/-- The decoder at `i` has failed and is the page's own, of the format of `d`; `fed` is
what the decoders were fed by then. -/
structure Stuck (s : AudioPage α) (i : Nat) (d : AudioDecoder)
    (fed : List (List EncodedAudioChunk)) : Prop where
  inv : s.DecoderInv
  own : s.audioDecoder = some i
  failed : ∃ d', s.decoders[i]? = some d' ∧ d'.state ≠ .configured ∧ ∀ w, d.Takes w → d'.Takes w
  fed : s.decoders.map (·.fed) = fed

section
variable {i : Nat} {d : AudioDecoder} {fed : List (List EncodedAudioChunk)}

theorem Stuck.congr (h : s.Stuck i d fed) (hsame : SameDecoders s s') : s'.Stuck i d fed where
  inv := h.inv.congr hsame
  own := hsame.audioDecoder.trans h.own
  failed := by
    rw [hsame.decoders]
    exact h.failed
  fed := by
    rw [hsame.decoders]
    exact h.fed

/-- Any decoder may fail; what it was fed stays. -/
theorem Stuck.modify_close (h : s.Stuck i d fed) (j : Nat) :
    ({ s with decoders := s.decoders.modify j AudioDecoder.close } :
      AudioPage α).Stuck i d fed where
  inv := h.inv.modify_close j
  own := h.own
  failed := by
    obtain ⟨d', hd', hfailed, htakes⟩ := h.failed
    refine ⟨if j = i then d'.close else d', ?_, ?_, fun w hw => ?_⟩
    · rw [List.getElem?_modify, hd']
      rfl
    · split
      · exact nofun
      · exact hfailed
    · have hw' := htakes w hw
      split
      · exact ⟨hw'.codec, hw'.sampleRate, hw'.channels⟩
      · exact hw'
  fed := by
    have hclose : ∀ d : AudioDecoder, d.close.fed = d.fed := fun _ => rfl
    rw [← h.fed]
    refine List.ext_getElem? fun n => ?_
    rw [List.getElem?_map, List.getElem?_map, List.getElem?_modify]
    cases s.decoders[n]? with
    | none => rfl
    | some d' => split <;> rfl

theorem Stuck.step (h : s.Stuck i d fed) {ev : AudioPageEvent α} (hkept : KeptThrough d ev) :
    (s.step ops maxChannels ev).Stuck i d fed := by
  cases ev with
  | wave w configures =>
      cases hcodec : w.codecString with
      | none => exact h.congr (sameDecoders_audioData hcodec configures)
      | some codec =>
          obtain ⟨d', hd', hfailed, htakes⟩ := h.failed
          have hw : d'.Takes w := htakes w (hkept (by rw [hcodec]; rfl))
          rw [AudioPage.step, h.inv.blocked h.own hd' hfailed hw]
          exact h
  | decoderError decoder => exact h.modify_close decoder
  | cleanupSession => exact absurd hkept id
  | _ => exact h.congr (sameDecoders_step nofun nofun nofun)

theorem Stuck.run (h : s.Stuck i d fed) {later : List (AudioPageEvent α)}
    (hkept : ∀ ev ∈ later, KeptThrough d ev) :
    (later.foldl (AudioPage.step ops maxChannels) s).Stuck i d fed := by
  induction later generalizing s with
  | nil => exact h
  | cons ev later ih =>
      rw [List.forall_mem_cons] at hkept
      exact ih (h.step hkept.1) hkept.2

end

theorem always_decodes (ops : PcmOps α) (maxChannels : Nat) (events : List (AudioPageEvent α)) :
    Always (AudioPage.step ops maxChannels) (Decodes ops maxChannels) initial events := by
  intro pre hpre
  have hinv : Always (AudioPage.step ops maxChannels) DecoderInv initial events :=
    always_of_each (c := fun _ _ => True) (fun _ ev _ h _ => h.step ev)
      ⟨nofun, nofun, nofun⟩ fun _ _ _ => trivial
  have h := hinv pre hpre
  refine ⟨h.fed, h.owned, fun i d hi hd hfailed later hkept => ?_⟩
  have hstuck : Stuck _ i d _ := ⟨h, hi, ⟨d, hd, hfailed, fun _ hw => hw⟩, rfl⟩
  exact (hstuck.run hkept).fed

end

end AudioPage

end WasmRdp
