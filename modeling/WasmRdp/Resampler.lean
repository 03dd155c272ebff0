import WasmRdp.AudioNotes
import WasmRdp.Lib.Interpolation
import WasmRdp.Lib.Runs

/-!
# Resampling

On exact rationals the worklet interpolates its source linearly. Where the
interpolator has been primed with two frames, the first of them with index
`s`, and neither an underrun nor a catch-up nor a reset has come since, the
frame that is written after `k` others is the stream at `s + k * ratio`,
however the stream was cut into messages and the output into calls
(`FrameSound.linear`). In any case a sample lies between the two that it is
mixed from (`FrameSound.between`).

Between two frames of the output the phase counts from the frame that `cur`
holds, and may be past `nxt` (`Tracks`). The loop takes one off the phase for
each frame that it pulls.

The stream and the number of frames that have left it are read off the notes.
`Stock` says that what is left of the stream waits in the queue, so that a
pull is frame `n` of the stream. The three parts of a round each have a lemma:
priming takes two frames, or one, or ends the call (`prime_pulls`); the loop
ends with the phase below one, or at the last frame (`advance_pulls`); and a
sample is mixed from the two of its channel (`writeFrame_sample`), which
`Interpolation.interpolate_add` turns into a value of the stream.

`Resampling` is the invariant of a call and of a run. An interruption of any
kind leaves it with nothing to say about smoothness until the interpolator is
primed again (`Resampling.interrupt`), and a frame takes it one ratio further
(`Resampling.frame`). `resamples` states the result for all runs.
-/

namespace WasmRdp

open Runs Interpolation

/-- Samples that are not rounded. -/
def SampleOps.exact (nan : ℚ) : SampleOps ℚ where
  zero := 0
  nan
  mix := lerp

/-! ## What is written down -/

section

variable {α : Type}

def Note.feed (frames : List (List α)) : Note α → List (List α)
  | .pcm cd => frames ++ cd.frames
  | .reset => []
  | _ => frames

/-- The frames that have arrived since the last reset. -/
def sourceStream (notes : List (Note α)) : List (List α) := notes.foldl Note.feed []

/-- Neither an underrun, nor a catch-up, nor a reset. -/
def Note.Smooth : Note α → Prop
  | .starved | .dropped | .reset => False
  | _ => True

def Note.isFrame : Note α → Bool
  | .frame .. => true
  | _ => false

/-- The interpolator was primed at frame `s` of the stream; since then all was
smooth, and `k` frames were written. -/
def PrimedSince (notes : List (Note α)) (s k : Nat) : Prop :=
  ∃ pre seg, notes = pre ++ .primed s :: seg ∧ (∀ n ∈ seg, n.Smooth) ∧ seg.countP Note.isFrame = k

/-- One channel of a stream. -/
def channelOf (frames : List (List α)) (ch j : Nat) : Option α := frames[j]?.bind (·[ch]?)

theorem sourceStream_concat (notes : List (Note α)) (n : Note α) :
    sourceStream (notes ++ [n]) = n.feed (sourceStream notes) := by
  rw [sourceStream, List.foldl_concat]
  rfl

theorem PrimedSince.of_concat {notes : List (Note α)} {n : Note α} {s k : Nat}
    (h : PrimedSince (notes ++ [n]) s k) :
    (n = .primed s ∧ k = 0) ∨
      n.Smooth ∧ ∃ k', PrimedSince notes s k' ∧ k = k' + if n.isFrame then 1 else 0 := by
  obtain ⟨pre, seg, heq, hsmooth, hcount⟩ := h
  rcases List.eq_nil_or_concat' seg with rfl | ⟨seg, last, rfl⟩
  · obtain ⟨-, hlast⟩ := List.append_inj' heq rfl
    obtain rfl := List.singleton_inj.mp hlast
    exact .inl ⟨rfl, hcount.symm⟩
  · rw [← List.cons_append, ← List.append_assoc] at heq
    obtain ⟨rfl, hlast⟩ := List.append_inj' heq rfl
    obtain rfl := List.singleton_inj.mp hlast
    refine .inr ⟨hsmooth n (by simp), seg.countP Note.isFrame, ?_, ?_⟩
    · exact ⟨pre, seg, rfl, fun m hm => hsmooth m (by simp [hm]), rfl⟩
    · rw [← hcount, List.countP_append, List.countP_singleton]

end

/-- A frame of the output that is mixed from `cur` and `nxt`: its samples lie
between theirs, and as long as all is smooth they are those of the stream. -/
structure FrameSound (channels : Nat) (ratio : ℚ) (before : List (Note ℚ)) (cur nxt : List ℚ)
    (column : List (Option ℚ)) : Prop where
  between : ∀ ch v, column[ch]? = some (some v) →
    ∃ a b, cur[min ch (channels - 1)]? = some a ∧ nxt[min ch (channels - 1)]? = some b ∧
      v ∈ Set.uIcc a b
  linear : ∀ s k, PrimedSince before s k → ∀ ch v, column[ch]? = some (some v) →
    interpolate (channelOf (sourceStream before) (min ch (channels - 1))) (s + k * ratio) = some v

def Note.Sound (channels : Nat) (ratio : ℚ) (before : List (Note ℚ)) : Note ℚ → Prop
  | .frame cur nxt column => FrameSound channels ratio before cur nxt column
  | _ => True

/-! ## Frames from the queue -/

section

variable {α : Type} {stream : List (List α)} {n : Nat} {q q' : PcmQueue α}

/-- Of the stream, `n` frames have left the queue. -/
structure Stock (stream : List (List α)) (n : Nat) (q : PcmQueue α) : Prop where
  queue : q.WF
  rest : stream.drop n = q.frames
  le : n ≤ stream.length

theorem Stock.leave (h : Stock stream n q) {out : List (List α)}
    (hout : q.frames = out ++ q'.frames) (hq : q'.WF) : Stock stream (n + out.length) q' where
  queue := hq
  rest := by rw [← List.drop_drop, h.rest, hout, List.drop_left]
  le := by
    have hlength := congrArg List.length h.rest
    rw [hout, List.length_drop, List.length_append] at hlength
    have hle := h.le
    omega

theorem Stock.push (h : Stock stream n q) (cd : PcmChunk α) :
    Stock (stream ++ cd.frames) n (q.push cd) where
  queue := h.queue.push cd
  rest := by rw [PcmQueue.frames_push h.queue, List.drop_append_of_le_length h.le, h.rest]
  le := by
    rw [List.length_append]
    exact h.le.trans (Nat.le_add_right ..)

/-- A pull stores samples only where there are channels for them. -/
theorem PcmQueue.length_pull {ops : SampleOps α} {channels : Nat} {dst dst' frame : List α}
    (hpull : q.pullSourceFrame ops channels dst = .pulled dst' frame q')
    (hdst : dst.length = channels) : dst'.length = channels := by
  rcases q with ⟨_ | ⟨cd, queue⟩, i, m⟩
  · cases hpull
  · rw [pullSourceFrame] at hpull
    dsimp only at hpull
    split_ifs at hpull with hchannels
    all_goals
      cases hpull
      simp only [List.length_append, List.length_take, List.length_map, List.length_drop]
      omega

/-- The samples are those of frame `j`, as many as there are channels. -/
def Holds (stream : List (List α)) (channels j : Nat) (samples : List α) : Prop :=
  ∃ frame, stream[j]? = some frame ∧ samples = frame.take channels

theorem Stock.pull {ops : SampleOps α} {channels : Nat} {dst dst' frame : List α}
    (h : Stock stream n q) (hpull : q.pullSourceFrame ops channels dst = .pulled dst' frame q')
    (hdst : dst.length = channels) :
    Holds stream channels n dst' ∧ dst'.length = channels ∧ Stock stream (n + 1) q' := by
  obtain ⟨hfront, hwf⟩ := PcmQueue.pullSourceFrame_pulled h.queue hpull
  refine ⟨⟨frame, ?_, PcmQueue.pullSourceFrame_dst h.queue hdst hpull⟩,
    PcmQueue.length_pull hpull hdst, h.leave (show _ = [frame] ++ _ from hfront) hwf⟩
  have hget : (stream.drop n)[0]? = some frame := by rw [h.rest, hfront, List.getElem?_cons_zero]
  rwa [List.getElem?_drop, Nat.add_zero] at hget

theorem Holds.append {channels j : Nat} {samples : List α} (h : Holds stream channels j samples)
    (new : List (List α)) : Holds (stream ++ new) channels j samples := by
  obtain ⟨frame, hframe, hsamples⟩ := h
  obtain ⟨hlt, -⟩ := List.getElem?_eq_some_iff.mp hframe
  exact ⟨frame, by rw [List.getElem?_append_left hlt, hframe], hsamples⟩

theorem Holds.channelOf {channels j ch : Nat} {samples : List α}
    (h : Holds stream channels j samples) (hch : ch < channels) :
    WasmRdp.channelOf stream ch j = samples[ch]? := by
  obtain ⟨frame, hframe, rfl⟩ := h
  rw [WasmRdp.channelOf, hframe, Option.bind_some, List.getElem?_take_of_lt hch]

end

/-! ## The rounds of a call -/

/-- The interpolator's part of the processor. -/
structure Shape (channels : Nat) (ratio : ℚ) (p : RdpAudioProcessor ℚ) : Prop where
  channels_eq : p.channels = channels
  ratio_eq : p.ratio = ratio
  cur : p.cur.length = p.channels
  nxt : p.nxt.length = p.channels
  phase : 0 ≤ p.phase

/-- Of the stream, `n` frames have left the queue, the last two of them into
`cur` and `nxt`, and the phase is the way from `cur` to frame `s`, `k` frames
of the output later. -/
def Tracks (stream : List (List ℚ)) (n s k : Nat) (p : RdpAudioProcessor ℚ) : Prop :=
  ∃ m, n = s + m + 2 ∧ p.phase + m = k * p.ratio ∧
    Holds stream p.channels (s + m) p.cur ∧ Holds stream p.channels (s + m + 1) p.nxt

section

variable (nan : ℚ) {channels : Nat} {ratio : ℚ} {stream : List (List ℚ)} {gone : Nat}
  {s : Render ℚ}

/-- Without a throw, priming takes two frames, or one if there is no other, or
it ends the call. -/
theorem prime_pulls (i : Nat) (hshape : Shape channels ratio s.proc)
    (hstock : Stock stream (gone + s.pulled.length) s.proc.pcm) :
    (RdpAudioProcessor.prime (.exact nan) i s).Ensures
      (fun r => (Shape channels ratio r.proc ∧ Stock stream (gone + r.pulled.length) r.proc.pcm ∧
          r.proc.primed = true) ∧
        ((s.proc.primed = true ∧ r = s) ∨
          s.proc.primed = false ∧ (r.pulled.length = s.pulled.length + 2 →
            Tracks stream (gone + r.pulled.length) (gone + s.pulled.length) 0 r.proc)))
      (fun r thrown => thrown = false →
        s.proc.primed = false ∧ r.proc = s.proc ∧ r.pulled = s.pulled) := by
  rw [RdpAudioProcessor.prime]
  split
  · next hprimed => exact ⟨⟨hshape, hstock, hprimed⟩, .inl ⟨hprimed, rfl⟩⟩
  · next hprimed =>
    have hprimed := Bool.eq_false_of_not_eq_true hprimed
    split
    · exact fun _ => ⟨hprimed, rfl, rfl⟩
    · intro hthrown
      cases hthrown
    · next cur frame pcm hpull =>
      obtain ⟨hchannels, hratio, hcur, hnxt, -⟩ := hshape
      obtain ⟨hholds, hlength, hstock⟩ := hstock.pull hpull hcur
      dsimp only
      split
      · refine ⟨⟨⟨hchannels, hratio, hlength, hlength, le_rfl⟩, ?_, rfl⟩,
          .inr ⟨hprimed, fun htwo => ?_⟩⟩
        · rw [List.length_append]
          exact hstock
        · simp at htwo
      · intro hthrown
        cases hthrown
      · next nxt frame' pcm' hpull' =>
        obtain ⟨hholds', hlength', hstock'⟩ := hstock.pull hpull' hnxt
        refine ⟨⟨⟨hchannels, hratio, hlength, hlength', le_rfl⟩, ?_, rfl⟩,
          .inr ⟨hprimed, fun _ => ⟨0, ?_, ?_, hholds, hholds'⟩⟩⟩
        · rw [List.length_append, List.length_append]
          exact hstock'
        · simp only [List.length_append, List.length_singleton]
          omega
        · simp

/-- The loop ends below the next frame, or at the last one. A frame that is
pulled moves `cur` on by one, and the phase back by one. -/
theorem advance_pulls (hshape : Shape channels ratio s.proc)
    (hstock : Stock stream (gone + s.pulled.length) s.proc.pcm) (hprimed : s.proc.primed = true) :
    (RdpAudioProcessor.advance id (.exact nan) s).Ensures
      (fun r => (Shape channels ratio r.proc ∧ Stock stream (gone + r.pulled.length) r.proc.pcm) ∧
        (r.proc.phase < 1 ∨ r.proc.cur = r.proc.nxt) ∧
        (r.proc.primed = true → r.proc.phase < 1 ∧
          ∀ i k, Tracks stream (gone + s.pulled.length) i k s.proc →
            Tracks stream (gone + r.pulled.length) i k r.proc))
      (fun _ thrown => thrown = true) := by
  fun_induction RdpAudioProcessor.advance id (.exact nan) s with
  | case1 s hphase => exact ⟨⟨hshape, hstock⟩, .inl hphase, fun _ => ⟨hphase, fun _ _ h => h⟩⟩
  | case2 s hphase cur phase hpull =>
      obtain ⟨hchannels, hratio, hcur, hnxt, -⟩ := hshape
      have hnonneg : 0 ≤ s.proc.phase - 1 := sub_nonneg.mpr (not_lt.mp hphase)
      refine ⟨⟨⟨hchannels, hratio, hnxt, hnxt, hnonneg⟩, hstock⟩, .inr rfl, fun hprimed => ?_⟩
      cases hprimed
  | case3 s hphase cur nxt hpull => rfl
  | case4 s hphase cur phase nxt frame pcm hpull ih =>
      obtain ⟨hchannels, hratio, hcur, hnxt, -⟩ := hshape
      have hnonneg : 0 ≤ s.proc.phase - 1 := sub_nonneg.mpr (not_lt.mp hphase)
      obtain ⟨hholds, hlength, hstock⟩ := hstock.pull hpull hnxt
      have hindex : gone + (s.pulled ++ [frame]).length = gone + s.pulled.length + 1 := by
        rw [List.length_append, List.length_singleton, Nat.add_assoc]
      rw [← hindex] at hstock
      have hrest := ih ⟨hchannels, hratio, hnxt, hlength, hnonneg⟩ hstock hprimed
      generalize RdpAudioProcessor.advance id (.exact nan) _ = t at hrest ⊢
      cases t with
      | stop r thrown => exact hrest
      | next r =>
          obtain ⟨hkept, hend, htracks⟩ := hrest
          refine ⟨hkept, hend, fun hprimed => ?_⟩
          obtain ⟨hlt, htracks⟩ := htracks hprimed
          refine ⟨hlt, fun i k hbefore => ?_⟩
          obtain ⟨m, hn, hpos, hcur', hnxt'⟩ := hbefore
          refine htracks i k ⟨m + 1, ?_, ?_, ?_, ?_⟩
          · dsimp only
            omega
          · change s.proc.phase - 1 + ((m + 1 : Nat) : ℚ) = k * s.proc.ratio
            rw [← hpos]
            push_cast
            ring
          · exact hnxt'
          · rw [hn] at hholds
            exact hholds

/-- A sample that is written is mixed from the two of its channel. -/
theorem writeFrame_sample (hshape : Shape channels ratio s.proc) (hpos : 0 < channels)
    {i ch : Nat} {v : ℚ}
    (h : (((RdpAudioProcessor.writeFrame id (.exact nan) i s).state.out.map (·[i]?))[ch]?) =
      some (some v)) :
    ∃ a b, s.proc.cur[min ch (channels - 1)]? = some a ∧
      s.proc.nxt[min ch (channels - 1)]? = some b ∧ v = lerp a b s.proc.phase := by
  obtain ⟨hchannels, -, hcur, hnxt, -⟩ := hshape
  have hsc : (if ch < s.proc.channels then ch else s.proc.channels - 1) =
      min ch (channels - 1) := by
    rw [hchannels]
    split <;> omega
  have hlt : min ch (channels - 1) < channels := by omega
  have hcur' : min ch (channels - 1) < s.proc.cur.length := by omega
  have hnxt' : min ch (channels - 1) < s.proc.nxt.length := by omega
  refine ⟨_, _, List.getElem?_eq_getElem hcur', List.getElem?_eq_getElem hnxt', ?_⟩
  simp only [RdpAudioProcessor.writeFrame, Round.state, List.getElem?_map, List.getElem?_mapIdx,
    Option.map_map, Option.map_eq_some_iff, Function.comp_apply, hsc] at h
  obtain ⟨channel, -, h⟩ := h
  obtain ⟨hi, -⟩ := List.getElem?_eq_some_iff.mp h
  rw [List.length_set] at hi
  rw [List.getElem?_set_self hi, Option.some_inj, List.getD_eq_getElem?_getD,
    List.getD_eq_getElem?_getD, List.getElem?_eq_getElem hcur', List.getElem?_eq_getElem hnxt',
    Option.getD_some, Option.getD_some] at h
  exact h.symm

/-! ## The notes of a call -/

/-- After some notes, with `n` frames gone from the queue. -/
structure Resampling (channels : Nat) (ratio : ℚ) (notes : List (Note ℚ)) (n : Nat)
    (p : RdpAudioProcessor ℚ) : Prop where
  shape : Shape channels ratio p
  stock : Stock (sourceStream notes) n p.pcm
  tracks : ∀ i k, PrimedSince notes i k → p.primed = true ∧ Tracks (sourceStream notes) n i k p
  sound : Justified (Note.Sound channels ratio) notes

/-- A call has ended, and the processor is in order if it has not thrown. -/
def Ended (channels : Nat) (ratio : ℚ) (s : Play ℚ) (thrown : Bool) : Prop :=
  Justified (Note.Sound channels ratio) s.notes ∧
    (thrown = false → Resampling channels ratio s.notes s.index s.proc)

/-- A note that is no frame. -/
def Note.Silent : Note ℚ → Prop
  | .frame .. => False
  | _ => True

theorem Note.Silent.sound {n : Note ℚ} (h : n.Silent) (notes : List (Note ℚ)) :
    n.Sound channels ratio notes := by
  cases n with
  | frame => cases h
  | _ => trivial

/-- A note of an interruption. -/
theorem Resampling.interrupt {notes : List (Note ℚ)} {n : Note ℚ} {index : Nat}
    {p : RdpAudioProcessor ℚ} (hshape : Shape channels ratio p)
    (hstock : Stock (n.feed (sourceStream notes)) index p.pcm) (hrough : ¬ n.Smooth)
    (hsound : Justified (Note.Sound channels ratio) notes) :
    Resampling channels ratio (notes ++ [n]) index p where
  shape := hshape
  stock := by rwa [sourceStream_concat]
  tracks := by
    intro i k hprimed
    rcases hprimed.of_concat with ⟨rfl, -⟩ | ⟨hsmooth, -⟩
    · exact absurd trivial hrough
    · exact absurd hsmooth hrough
  sound := by
    refine justified_concat.mpr ⟨hsound, Note.Silent.sound ?_ notes⟩
    cases n with
    | frame => exact hrough trivial
    | _ => trivial

/-- A frame that is mixed from `cur` and `nxt` is as it should be. -/
theorem Resampling.frameSound {notes : List (Note ℚ)} {n : Nat} {p : RdpAudioProcessor ℚ}
    (h : Resampling channels ratio notes n p) (hpos : 0 < channels)
    (hend : p.phase < 1 ∨ p.cur = p.nxt) (hphase : p.primed = true → p.phase < 1)
    {column : List (Option ℚ)}
    (hsample : ∀ ch v, column[ch]? = some (some v) → ∃ a b,
      p.cur[min ch (channels - 1)]? = some a ∧ p.nxt[min ch (channels - 1)]? = some b ∧
        v = lerp a b p.phase) :
    FrameSound channels ratio notes p.cur p.nxt column where
  between := by
    intro ch v hv
    obtain ⟨a, b, ha, hb, rfl⟩ := hsample ch v hv
    refine ⟨a, b, ha, hb, ?_⟩
    rcases hend with hlt | heq
    · exact lerp_mem_uIcc h.shape.phase hlt.le
    · rw [heq, hb] at ha
      obtain rfl := Option.some.inj ha
      rw [lerp_self]
      exact Set.left_mem_uIcc
  linear := by
    intro i k hsince ch v hv
    obtain ⟨a, b, ha, hb, rfl⟩ := hsample ch v hv
    obtain ⟨hprimed, m, -, hphase', hcur, hnxt⟩ := h.tracks i k hsince
    have hch : min ch (channels - 1) < p.channels := by
      rw [h.shape.channels_eq]
      omega
    have hposition : (i : ℚ) + k * ratio = ((i + m : Nat) : ℚ) + p.phase := by
      rw [← h.shape.ratio_eq, ← hphase']
      push_cast
      ring
    rw [hposition]
    exact interpolate_add ((hcur.channelOf hch).trans ha) ((hnxt.channelOf hch).trans hb)
      h.shape.phase (hphase hprimed)

/-- After a frame the phase is one ratio further on. -/
theorem Resampling.frame {notes : List (Note ℚ)} {n : Nat} {p : RdpAudioProcessor ℚ}
    (h : Resampling channels ratio notes n p) (hratio : 0 ≤ ratio) {column : List (Option ℚ)}
    (hsound : FrameSound channels ratio notes p.cur p.nxt column) :
    Resampling channels ratio (notes ++ [.frame p.cur p.nxt column]) n
      { p with phase := p.phase + p.ratio } where
  shape := by
    obtain ⟨hchannels, hratio', hcur, hnxt, hnonneg⟩ := h.shape
    refine ⟨hchannels, hratio', hcur, hnxt, add_nonneg hnonneg ?_⟩
    rw [hratio']
    exact hratio
  stock := by
    rw [sourceStream_concat]
    exact h.stock
  tracks := by
    intro i k hsince
    rw [sourceStream_concat]
    rcases hsince.of_concat with ⟨heq, -⟩ | ⟨-, k', hbefore, rfl⟩
    · cases heq
    · obtain ⟨hprimed, m, hn, hphase, hcur, hnxt⟩ := h.tracks i k' hbefore
      refine ⟨hprimed, m, hn, ?_, hcur, hnxt⟩
      change p.phase + p.ratio + m = ((k' + 1 : Nat) : ℚ) * p.ratio
      push_cast
      rw [add_mul, ← hphase, one_mul]
      ring
  sound := justified_concat.mpr ⟨h.sound, hsound⟩

variable {s : Play ℚ}

theorem Play.prime_spec (i : Nat) (h : Resampling channels ratio s.notes s.index s.proc) :
    (Play.prime (.exact nan) i s).Ensures
      (fun r => Resampling channels ratio r.notes r.index r.proc ∧ r.proc.primed = true)
      (Ended channels ratio) := by
  have hspec := prime_pulls nan i h.shape h.stock
  rw [Play.prime]
  generalize RdpAudioProcessor.prime (.exact nan) i s.toRender = t at hspec ⊢
  cases t with
  | stop r thrown =>
      cases thrown with
      | true =>
          refine ⟨by simpa [onTo] using h.sound, fun hthrown => ?_⟩
          cases hthrown
      | false =>
          obtain ⟨-, hproc, hpulled⟩ := hspec rfl
          have hrest : Resampling channels ratio (s.notes ++ [.starved]) (s.gone + r.pulled.length)
              r.proc := by
            rw [hproc, hpulled]
            exact .interrupt h.shape h.stock id h.sound
          exact ⟨hrest.sound, fun _ => hrest⟩
  | next r =>
      obtain ⟨⟨hshape, hstock, hprimed⟩, hcases⟩ := hspec
      refine ⟨?_, hprimed⟩
      rcases hcases with ⟨hbefore, rfl⟩ | ⟨hbefore, htracks⟩
      · simpa [onTo, index, hbefore] using h
      · have hfresh : ∀ i k, ¬ PrimedSince s.notes i k := fun i k hsince => by
          rw [(h.tracks i k hsince).1] at hbefore
          cases hbefore
        simp only [onTo, hbefore, Bool.false_eq_true, if_false]
        split
        · next htwo =>
          refine ⟨hshape, by rwa [sourceStream_concat], ?_, justified_concat.mpr ⟨h.sound, trivial⟩⟩
          intro i k hsince
          rcases hsince.of_concat with ⟨heq, rfl⟩ | ⟨-, k', hsince, -⟩
          · obtain rfl := Note.primed.inj heq
            refine ⟨hprimed, ?_⟩
            rw [sourceStream_concat]
            exact htracks htwo
          · exact absurd hsince (hfresh i k')
        · exact .interrupt hshape hstock id h.sound

theorem Play.advance_spec (h : Resampling channels ratio s.notes s.index s.proc)
    (hprimed : s.proc.primed = true) :
    (Play.advance id (.exact nan) s).Ensures
      (fun r => Resampling channels ratio r.notes r.index r.proc ∧
        (r.proc.phase < 1 ∨ r.proc.cur = r.proc.nxt) ∧
        (r.proc.primed = true → r.proc.phase < 1))
      (Ended channels ratio) := by
  have hspec := advance_pulls nan h.shape h.stock hprimed
  rw [Play.advance]
  generalize RdpAudioProcessor.advance id (.exact nan) s.toRender = t at hspec ⊢
  cases t with
  | stop r thrown =>
      refine ⟨by simpa [onTo] using h.sound, fun hthrown => ?_⟩
      rw [show thrown = true from hspec] at hthrown
      cases hthrown
  | next r =>
      obtain ⟨⟨hshape, hstock⟩, hend, htracks⟩ := hspec
      refine ⟨?_, hend, fun hprimed => (htracks hprimed).1⟩
      simp only [onTo]
      split
      · next hprimed' =>
        rw [List.append_nil]
        refine ⟨hshape, hstock, fun i k hsince => ⟨hprimed', ?_⟩, h.sound⟩
        exact (htracks hprimed').2 i k (h.tracks i k hsince).2
      · exact .interrupt hshape hstock id h.sound

theorem Play.writeFrame_spec (hpos : 0 < channels) (hratio : 0 ≤ ratio) (i : Nat)
    (h : Resampling channels ratio s.notes s.index s.proc)
    (hend : s.proc.phase < 1 ∨ s.proc.cur = s.proc.nxt)
    (hphase : s.proc.primed = true → s.proc.phase < 1) :
    (Play.writeFrame id (.exact nan) i s).Ensures
      (fun r => Resampling channels ratio r.notes r.index r.proc) (Ended channels ratio) :=
  h.frame hratio (h.frameSound hpos hend hphase fun _ _ => writeFrame_sample nan h.shape hpos)

theorem Play.process_spec (hpos : 0 < channels) (hratio : 0 ≤ ratio)
    (h : Resampling channels ratio s.notes s.gone s.proc) (outputs : List (List (List ℚ))) :
    (Play.process id (.exact nan) s outputs).Ensures
      (fun r => Resampling channels ratio r.notes r.index r.proc) (Ended channels ratio) := by
  rw [Play.process]
  cases outputs.headD [] with
  | nil => exact h
  | cons first out =>
      refine Round.Ensures.foldl (fun i s hs => ?_) _ h
      have hadvanced := (Play.prime_spec nan i hs).bind fun s hs => Play.advance_spec nan hs.1 hs.2
      exact hadvanced.bind fun s hs => Play.writeFrame_spec nan hpos hratio i hs.1 hs.2.1 hs.2.2

/-! ## Messages -/

/-- A message, without a catch-up. -/
theorem Resampling.push {notes : List (Note ℚ)} {n : Nat} {p : RdpAudioProcessor ℚ}
    (h : Resampling channels ratio notes n p) (cd : PcmChunk ℚ) :
    Resampling channels ratio (notes ++ [.pcm cd]) n { p with pcm := p.pcm.push cd } where
  shape := ⟨h.shape.channels_eq, h.shape.ratio_eq, h.shape.cur, h.shape.nxt, h.shape.phase⟩
  stock := by
    rw [sourceStream_concat]
    exact h.stock.push cd
  tracks := by
    intro i k hsince
    rw [sourceStream_concat]
    rcases hsince.of_concat with ⟨heq, -⟩ | ⟨-, k', hbefore, hk⟩
    · cases heq
    · obtain rfl : k = k' := hk
      obtain ⟨hprimed, m, hn, hphase, hcur, hnxt⟩ := h.tracks i k hbefore
      exact ⟨hprimed, m, hn, hphase, hcur.append _, hnxt.append _⟩
  sound := justified_concat.mpr ⟨h.sound, trivial⟩

theorem Resampling.catchUp {notes : List (Note ℚ)} {n : Nat} {p : RdpAudioProcessor ℚ}
    (h : Resampling channels ratio notes n p) (hmany : ¬ p.pcm.queuedFrames ≤ p.maxFrames id) :
    Resampling channels ratio (notes ++ [.dropped]) (n + (p.catchUp id).1.length)
      (p.catchUp id).2 := by
  obtain ⟨hframes, hwf, -⟩ :=
    RdpAudioProcessor.catchUp_spec RdpAudioProcessor.rounds_id h.stock.queue
  rw [RdpAudioProcessor.catchUp, if_neg hmany] at hframes hwf ⊢
  exact .interrupt ⟨h.shape.channels_eq, h.shape.ratio_eq, h.shape.cur, h.shape.nxt, h.shape.phase⟩
    (h.stock.leave hframes hwf) id h.sound

/-! ## Runs -/

/-- In a run, the notes are right, and the processor is in order until a call
throws. -/
structure Playback.Inv (channels : Nat) (ratio : ℚ) (s : Playback ℚ) : Prop where
  sound : Justified (Note.Sound channels ratio) s.notes
  proc : s.thrown = false → Resampling channels ratio s.notes s.gone s.proc

theorem Playback.inv_start (options : Option ProcessorOptions) (sampleRate : ℚ≥0) :
    let s := start id (.exact nan) options sampleRate
    s.Inv s.proc.channels s.proc.ratio := by
  have hnone : ∀ i k, ¬ PrimedSince ([] : List (Note ℚ)) i k := by
    rintro i k ⟨pre, seg, heq, -⟩
    simp at heq
  refine ⟨justified_nil, fun _ => ⟨⟨rfl, rfl, ?_, ?_, le_rfl⟩, ⟨PcmQueue.wf_empty, rfl, le_rfl⟩,
    fun i k hsince => absurd hsince (hnone i k), justified_nil⟩⟩
  · exact List.length_replicate
  · exact List.length_replicate

theorem Playback.inv_step (hpos : 0 < channels) (hratio : 0 ≤ ratio) {s : Playback ℚ}
    (h : s.Inv channels ratio) (e : AudioEvent ℚ) :
    (s.step id (.exact nan) e).Inv channels ratio := by
  obtain ⟨hsound, hproc⟩ := h
  cases e with
  | pcm cd =>
      rw [step]
      have hpcm := justified_concat.mpr ⟨hsound,
        show Note.Sound channels ratio s.notes (.pcm cd) from trivial⟩
      split
      · next hfew =>
        refine ⟨hpcm, fun hthrown => ?_⟩
        have hnone : s.proc.onPcm id cd = ([], { s.proc with pcm := s.proc.pcm.push cd }) :=
          if_pos hfew
        rw [hnone]
        exact (hproc hthrown).push cd
      · next hmany =>
        rw [← List.singleton_append, ← List.append_assoc]
        refine ⟨justified_concat.mpr ⟨hpcm, trivial⟩, fun hthrown => ?_⟩
        exact ((hproc hthrown).push cd).catchUp hmany
  | reset =>
      refine ⟨justified_concat.mpr ⟨hsound, trivial⟩, fun hthrown => ?_⟩
      have hshape := (hproc hthrown).shape
      exact .interrupt ⟨hshape.channels_eq, hshape.ratio_eq, hshape.cur, hshape.nxt, le_rfl⟩
        ⟨PcmQueue.wf_empty, rfl, le_rfl⟩ id hsound
  | process outputs =>
      rw [step]
      split
      · exact ⟨hsound, hproc⟩
      · next hthrown =>
        have hcall := Play.process_spec nan (s := ⟨⟨s.proc, [], []⟩, s.gone, s.notes⟩) hpos hratio
          (hproc (Bool.eq_false_of_not_eq_true hthrown)) outputs
        generalize Play.process id (.exact nan) ⟨⟨s.proc, [], []⟩, s.gone, s.notes⟩ outputs =
          t at hcall ⊢
        cases t with
        | next call => exact ⟨hcall.sound, fun _ => hcall⟩
        | stop call thrown => exact ⟨hcall.1, hcall.2⟩

end

end WasmRdp
