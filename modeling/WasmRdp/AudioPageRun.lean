import WasmRdp.AudioNotes
import WasmRdp.AudioPage

/-!
# What the worklets are given

The page keeps one node connected, made for the format of what it posts, and
every message is a chunk of the node's channels with the frames of the wave: the
samples at one place of the channels are those that stood side by side. So a
worklet that is given the messages of its node plays frames of the waves, in
their order, and never throws.

`Right` is that statement for all nodes that were ever made, and `Matched` the
invariant behind it: every message is right, and the node that is posted to,
and no other, is connected and made for the format. The steps that touch nodes
are few (`Matched.postMessage_iff`, `Matched.construct_iff`), and each keeps
the invariant exactly when its message is a chunk of the node's channels; the
events that post nothing leave nodes and format as they are (`Same`).

`Playable` is the condition that is left for an event: what is posted has a
channel, and a node of another format can be replaced, since one that cannot
be made leaves the old node in its place. By `Matched.step_iff` an event keeps
the page right exactly when it is playable, so that `always_heard_iff` is an
equivalence about whole runs.

On the worklet's side a run is any mixing of the node's messages with calls of
`process`. Chunks that are wide enough are never a reason to throw
(`AudioRun.wide_process`), and `audio_conserves` of the worklet's own module is
not needed again: that the played frames are some of the arrived ones, in
order, is `AudioRun.Conserves`.
-/

namespace WasmRdp

open Runs Binary64

variable {α : Type}

/-! ## What is to be heard -/

/-- The frames of interleaved samples. What is left at the end is none. -/
def interleavedFrames (channels : Nat) (samples : List α) : List (List α) :=
  (List.range (samples.length / channels)).map fun i => (samples.drop (i * channels)).take channels

namespace Sound

def format : Sound α → PcmFormat
  | pcm channels sampleRate _ _ => ⟨channels.toNat, sampleRate.toNat⟩
  | decoded audio => ⟨audio.planes.length, audio.sampleRate⟩

def frames (ops : PcmOps α) : Sound α → List (List α)
  | pcm channels _ bitsPerSample data =>
      ((pcmSamples ops bitsPerSample data).map (interleavedFrames channels.toNat)).getD []
  | decoded audio =>
      (List.range audio.numberOfFrames).map fun i => audio.planes.filterMap (·[i]?)

end Sound

/-- A message for a node of a format: a chunk with the frames of the sound. -/
structure AudioPost.Right (ops : PcmOps α) (format : PcmFormat) (post : AudioPost α) : Prop where
  sound : post.sound.format = format
  channels : post.channelData.length = format.channels
  chunk : ∃ cd : PcmChunk α, cd.channelData = post.channelData ∧ cd.frames = post.sound.frames ops

def AudioEvent.isReset : AudioEvent α → Bool
  | reset => true
  | _ => false

/-- The message in an event of the worklet. -/
def AudioEvent.message? : AudioEvent α → Option (ChannelData α)
  | pcm cd => some cd.channelData
  | _ => none

/-- The worklet of a node, in a run with its messages and whatever calls of
`process` between them, receives the frames that are to be heard; those that it
plays are some of them, in order; and no call throws. -/
def AudioNode.Heard (ops : PcmOps α) (n : AudioNode α) : Prop :=
  ∀ (sampleOps : SampleOps α) (sampleRate : ℚ≥0) (events : List (AudioEvent α)),
    (∀ ev ∈ events, ev.isReset = false) →
    events.filterMap AudioEvent.message? = n.posted.map (·.channelData) →
    let run := events.foldl (AudioRun.step sampleOps)
      (.start sampleOps (some ⟨some n.format.channels, some n.format.sourceRate⟩) sampleRate)
    run.received = n.posted.flatMap (·.sound.frames ops) ∧
      (run.left .pulled).Sublist run.received ∧
      ∀ outputs, (run.proc.process fl sampleOps outputs).Ensures (fun _ => True)
        fun _ thrown => thrown = false

namespace AudioPage

/-- The messages are right, and the node that is posted to, and no other, is
connected and made for the format. -/
structure Matched (ops : PcmOps α) (s : AudioPage α) : Prop where
  posts : ∀ n ∈ s.nodes, ∀ post ∈ n.posted, post.Right ops n.format
  current : ∀ i, s.audioWorkletNode = some i →
    ∃ n, s.nodes[i]? = some n ∧ n.connected = true ∧ s.audioFormat = some n.format
  sole : ∀ i n, s.nodes[i]? = some n → n.connected = true → s.audioWorkletNode = some i

structure Right (ops : PcmOps α) (s : AudioPage α) : Prop extends s.Matched ops where
  heard : ∀ n ∈ s.nodes, n.Heard ops

/-- The format in which an event has sound to post. -/
def format? (ops : PcmOps α) (s : AudioPage α) : AudioPageEvent α → Option PcmFormat
  | .wave w _ =>
      if s.audioContext.isSome ∧ s.workletReady = true ∧ w.codec = 0x0001 ∧
          (pcmChannelData ops w.channels w.bitsPerSample w.data).isSome then
        some ⟨w.channels.toNat, w.sampleRate.toNat⟩
      else none
  | .decoded decoder audio =>
      if s.decoders[decoder]?.any (·.state = .configured) then
        some ⟨audio.planes.length, audio.sampleRate⟩
      else none
  | _ => none

/-- What is posted has a channel, and a node of another format can be replaced. -/
def Playable (ops : PcmOps α) (maxChannels : Nat) (s : AudioPage α) (ev : AudioPageEvent α) :
    Prop :=
  ∀ format, s.format? ops ev = some format →
    (s.Fits format ∨ Constructs maxChannels s format → format.channels ≠ 0) ∧
      (s.audioWorkletNode.isSome → ¬ s.Fits format → Constructs maxChannels s format)

end AudioPage

/-! ## Chunks -/

section
variable (ops : PcmOps α)

theorem length_mem_deinterleave {channels numFrames : Nat} {samples channel : List α}
    (h : channel ∈ deinterleave ops channels numFrames samples) : channel.length = numFrames := by
  obtain ⟨ch, -, rfl⟩ := List.mem_map.mp h
  rw [List.length_map, List.length_range]

theorem length_headD_deinterleave {channels : Nat} (samples : List α) (hchannels : 0 < channels)
    (numFrames : Nat) :
    ((deinterleave ops channels numFrames samples).headD []).length = numFrames := by
  have hne : deinterleave ops channels numFrames samples ≠ [] := by
    rw [← List.length_pos_iff, deinterleave, List.length_map, List.length_range]
    exact hchannels
  obtain ⟨channel, rest, heq⟩ := List.exists_cons_of_ne_nil hne
  have hmem : channel ∈ deinterleave ops channels numFrames samples := heq ▸ List.mem_cons_self ..
  rw [heq]
  exact length_mem_deinterleave ops hmem

/-- The samples at one place of the channels stood side by side. -/
theorem frames_deinterleave {channels : Nat} {samples : List α} (hchannels : 0 < channels)
    (hframes : 0 < samples.length / channels) :
    ∃ cd : PcmChunk α,
      cd.channelData = deinterleave ops channels (samples.length / channels) samples ∧
        cd.frames = interleavedFrames channels samples := by
  have hhead := length_headD_deinterleave ops samples hchannels (samples.length / channels)
  let cd : PcmChunk α :=
    { channelData := deinterleave ops channels (samples.length / channels) samples
      pos := by rw [hhead]; exact hframes
      equal := fun channel hmem => (length_mem_deinterleave ops hmem).trans hhead.symm }
  have hlength : cd.length = samples.length / channels := hhead
  refine ⟨cd, rfl, ?_⟩
  rw [PcmChunk.frames, interleavedFrames, hlength]
  refine List.map_congr_left fun i hi => ?_
  have hi : i < samples.length / channels := List.mem_range.mp hi
  rw [cd.frame_eq_map (by rw [hlength]; exact hi) ops.nan]
  have hend : i * channels + channels ≤ samples.length := by
    have hmul := Nat.mul_le_mul_right channels (Nat.succ_le_of_lt hi)
    rw [Nat.succ_mul] at hmul
    exact hmul.trans (Nat.div_mul_le_self ..)
  refine List.ext_getElem ?_ fun ch h₁ h₂ => ?_
  · simp only [cd, deinterleave, List.length_map, List.length_range, List.length_take,
      List.length_drop]
    omega
  · have hch : ch < channels := by
      simp only [cd, deinterleave, List.length_map, List.length_range] at h₁
      exact h₁
    simp only [cd, deinterleave, List.getElem_map, List.getElem_range, List.getElem_take,
      List.getElem_drop]
    have hat : i * channels + ch < samples.length := by omega
    simp [List.getD_eq_getElem?_getD, hi, hat]

/-- A message from a PCM wave is right unless the wave has no channel. -/
theorem right_pcm_iff {channels bitsPerSample : UInt16} {sampleRate : UInt32} {data : List UInt8}
    {channelData : ChannelData α}
    (h : pcmChannelData ops channels bitsPerSample data = some channelData) :
    (⟨.pcm channels sampleRate bitsPerSample data, channelData⟩ : AudioPost α).Right ops
      ⟨channels.toNat, sampleRate.toNat⟩ ↔ channels.toNat ≠ 0 := by
  rw [pcmChannelData] at h
  split at h
  · cases h
  rename_i samples hsamples
  dsimp only at h
  split at h
  · cases h
  rename_i hsome
  obtain rfl := Option.some.inj h
  constructor
  · rintro ⟨-, -, cd, hcd, -⟩ hzero
    have hpos := cd.pos
    rw [hcd, hzero] at hpos
    exact absurd hpos (Nat.lt_irrefl 0)
  · intro hchannels
    have hpos : 0 < channels.toNat := Nat.pos_of_ne_zero hchannels
    have hne : channels ≠ 0 := fun hzero => hchannels (congrArg UInt16.toNat hzero)
    have hframes : 0 < samples.length / channels.toNat :=
      Nat.pos_of_ne_zero fun hzero => hsome ⟨hne, hzero⟩
    refine ⟨rfl, ?_, ?_⟩
    · rw [deinterleave, List.length_map, List.length_range]
    · obtain ⟨cd, hcd, hcdframes⟩ := frames_deinterleave ops hpos hframes
      exact ⟨cd, hcd, by rw [hcdframes, Sound.frames, hsamples]; rfl⟩

theorem right_decoded (audio : DecodedAudio α) :
    (⟨.decoded audio, audio.planes⟩ : AudioPost α).Right ops
      ⟨audio.planes.length, audio.sampleRate⟩ := by
  have hhead : (audio.planes.headD []).length = audio.numberOfFrames := by
    obtain ⟨plane, rest, heq⟩ := List.exists_cons_of_ne_nil audio.planes_ne
    rw [heq]
    exact audio.equal plane (heq ▸ List.mem_cons_self ..)
  let cd : PcmChunk α :=
    { channelData := audio.planes
      pos := by rw [hhead]; exact audio.frames_pos
      equal := fun plane hmem => (audio.equal plane hmem).trans hhead.symm }
  have hlength : cd.length = audio.numberOfFrames := hhead
  refine ⟨rfl, rfl, cd, rfl, ?_⟩
  rw [PcmChunk.frames, hlength]
  rfl

end

/-! ## The worklet does not throw -/

/-- The chunks have a channel for each that is read. -/
def PcmQueue.Wide (channels : Nat) (q : PcmQueue α) : Prop :=
  ∀ cd ∈ q.queue, channels ≤ cd.channelData.length

def RdpAudioProcessor.Wide (channels : Nat) (p : RdpAudioProcessor α) : Prop :=
  p.channels = channels ∧ p.pcm.Wide channels

section
variable {rnd : ℚ → ℚ} {sampleOps : SampleOps α} {channels : Nat}

namespace PcmQueue
variable {q q' : PcmQueue α} {dst dst' frame : List α}

theorem Wide.not_thrown (h : q.Wide channels) :
    q.pullSourceFrame sampleOps channels dst ≠ .thrown dst' := by
  intro hthrown
  rcases q with ⟨_ | ⟨cd, queue⟩, i, n⟩
  · cases hthrown
  · have hcd : ¬ cd.channelData.length < channels := not_lt.mpr (h cd (List.mem_cons_self ..))
    rw [pullSourceFrame] at hthrown
    dsimp only at hthrown
    rw [if_neg hcd] at hthrown
    cases hthrown

theorem Wide.pulled (h : q.Wide channels)
    (hpull : q.pullSourceFrame sampleOps channels dst = .pulled dst' frame q') :
    q'.Wide channels := by
  rcases q with ⟨_ | ⟨cd, queue⟩, i, n⟩
  · cases hpull
  · rw [pullSourceFrame] at hpull
    dsimp only at hpull
    split_ifs at hpull
    · cases hpull
      exact fun cd' hcd' => h cd' (List.mem_cons_of_mem _ hcd')
    · cases hpull
      exact h

theorem suffix_dropOldest (queue : List (PcmChunk α)) (frameIdx : Nat) (queuedFrames drop : Int) :
    (dropOldest queue frameIdx queuedFrames drop).2.queue <:+ queue := by
  induction queue generalizing frameIdx queuedFrames drop with
  | nil => exact List.suffix_rfl
  | cons cd queue ih =>
      rw [dropOldest]
      dsimp only
      split_ifs
      · exact List.suffix_rfl
      · exact (ih ..).trans (List.suffix_cons ..)
      · exact List.suffix_rfl

end PcmQueue

namespace RdpAudioProcessor
variable {p : RdpAudioProcessor α} {s : Render α} {i : Nat}

theorem Wide.onPcm (h : p.Wide channels) {cd : PcmChunk α}
    (hcd : channels ≤ cd.channelData.length) : (p.onPcm rnd cd).2.Wide channels := by
  have hpush : (p.pcm.push cd).Wide channels := by
    intro cd' hcd'
    rcases List.mem_append.mp hcd' with hcd' | hcd'
    · exact h.2 cd' hcd'
    · rwa [List.mem_singleton.mp hcd']
  rw [RdpAudioProcessor.onPcm, catchUp]
  split
  · exact ⟨h.1, hpush⟩
  · exact ⟨h.1, fun cd' hcd' => hpush cd' ((PcmQueue.suffix_dropOldest ..).subset hcd')⟩

/-- A round goes on with such chunks, or ends without a throw. -/
def Unthrown (channels : Nat) (t : Round (Render α)) : Prop :=
  t.Ensures (fun r => r.proc.Wide channels) fun r thrown =>
    r.proc.Wide channels ∧ thrown = false

theorem unthrown_prime (h : s.proc.Wide channels) : Unthrown channels (prime sampleOps i s) := by
  obtain ⟨hchannels, hwide⟩ := h
  rw [prime]
  split
  · exact ⟨hchannels, hwide⟩
  · rw [hchannels]
    split
    · exact ⟨⟨hchannels, hwide⟩, rfl⟩
    · rename_i hthrown
      exact absurd hthrown hwide.not_thrown
    · rename_i cur frame pcm hpull
      have hwide' := hwide.pulled hpull
      dsimp only
      split
      · exact ⟨hchannels, hwide'⟩
      · rename_i hthrown
        exact absurd hthrown hwide'.not_thrown
      · rename_i nxt frame' pcm' hpull'
        exact ⟨hchannels, hwide'.pulled hpull'⟩

theorem unthrown_advance (h : s.proc.Wide channels) :
    Unthrown channels (advance rnd sampleOps s) := by
  fun_induction advance rnd sampleOps s with
  | case1 s hphase => exact h
  | case2 s hphase cur phase hpull => exact h
  | case3 s hphase cur nxt hpull =>
      rw [h.1] at hpull
      exact absurd hpull h.2.not_thrown
  | case4 s hphase cur phase nxt frame pcm hpull ih =>
      rw [h.1] at hpull
      exact ih ⟨h.1, h.2.pulled hpull⟩

theorem unthrown_renderFrame (h : s.proc.Wide channels) :
    Unthrown channels (renderFrame rnd sampleOps i s) := by
  have hprimed : Unthrown channels (prime sampleOps i s) := unthrown_prime h
  have hadvanced :
      Unthrown channels ((prime sampleOps i s).bind (advance rnd sampleOps)) :=
    hprimed.bind fun _ hs => unthrown_advance hs
  exact hadvanced.bind fun _ hs => hs

theorem Wide.process (h : p.Wide channels) (outputs : List (List (List α))) :
    Unthrown channels (p.process rnd sampleOps outputs) := by
  rw [RdpAudioProcessor.process]
  split
  · exact h
  · exact Round.Ensures.foldl (fun _ _ hs => unthrown_renderFrame hs) _ h

end RdpAudioProcessor

theorem RdpAudioProcessor.orElse_some {value : Nat} (h : value ≠ 0) (fallback : Nat) :
    RdpAudioProcessor.orElse (some value) fallback = value := by
  rw [RdpAudioProcessor.orElse, Option.filter_some, if_pos (decide_eq_true h), Option.getD_some]

theorem PcmChunk.frames_congr {cd cd' : PcmChunk α} (h : cd.channelData = cd'.channelData) :
    cd.frames = cd'.frames := by
  obtain ⟨channelData, _, _⟩ := cd
  obtain ⟨channelData', _, _⟩ := cd'
  obtain rfl : channelData = channelData' := h
  rfl

theorem AudioRun.wide_process {r : AudioRun α} (h : r.proc.Wide channels)
    (outputs : List (List (List α))) :
    (r.step sampleOps (.process outputs)).proc.Wide channels := by
  have hcall : RdpAudioProcessor.Unthrown channels (r.proc.process fl sampleOps outputs) :=
    h.process outputs
  have hkept := hcall.mono fun _ _ hs => hs.1
  exact hkept.state (q := fun s : Render α => s.proc.Wide channels) fun _ hs => hs

/-- By induction on the events, which take the messages one by one. -/
theorem AudioRun.foldl_posts {ops : PcmOps α} {format : PcmFormat} {events : List (AudioEvent α)}
    {posts : List (AudioPost α)} {r : AudioRun α} (hwide : r.proc.Wide channels)
    (hposts : ∀ post ∈ posts, post.Right ops format ∧ channels ≤ post.channelData.length)
    (hresets : ∀ ev ∈ events, ev.isReset = false)
    (hmessages : events.filterMap AudioEvent.message? = posts.map (·.channelData)) :
    (events.foldl (AudioRun.step sampleOps) r).received =
        r.received ++ posts.flatMap (·.sound.frames ops) ∧
      (events.foldl (AudioRun.step sampleOps) r).proc.Wide channels := by
  induction events generalizing posts r with
  | nil =>
      cases posts with
      | nil => exact ⟨(List.append_nil _).symm, hwide⟩
      | cons post posts => cases hmessages
  | cons ev events ih =>
      have hrest : ∀ ev ∈ events, ev.isReset = false := fun ev hev =>
        hresets ev (List.mem_cons_of_mem _ hev)
      cases ev with
      | reset => cases hresets _ (List.mem_cons_self ..)
      | process outputs => exact ih (r.wide_process hwide outputs) hposts hrest hmessages
      | pcm cd =>
          cases posts with
          | nil => cases hmessages
          | cons post posts =>
              obtain ⟨hcd, hmessages⟩ := List.cons.inj hmessages
              obtain ⟨⟨-, -, cd', hcd', hframes⟩, hlength⟩ := hposts post (List.mem_cons_self ..)
              have hlength' : channels ≤ cd.channelData.length :=
                hlength.trans_eq (congrArg List.length hcd.symm)
              obtain ⟨hreceived, hwide'⟩ := ih (r := r.step sampleOps (.pcm cd))
                (hwide.onPcm hlength')
                (fun post hpost => hposts post (List.mem_cons_of_mem _ hpost)) hrest hmessages
              refine ⟨?_, hwide'⟩
              rw [List.foldl_cons, hreceived, List.flatMap_cons, ← hframes,
                PcmChunk.frames_congr (hcd'.trans hcd.symm), ← List.append_assoc]
              rfl

end

theorem AudioNode.heard_of_posts {ops : PcmOps α} {n : AudioNode α}
    (h : ∀ post ∈ n.posted, post.Right ops n.format) : n.Heard ops := by
  intro sampleOps sampleRate events hresets hmessages run
  let start : AudioRun α :=
    .start sampleOps (some ⟨some n.format.channels, some n.format.sourceRate⟩) sampleRate
  have hwide : start.proc.Wide start.proc.channels :=
    ⟨rfl, fun cd hcd => absurd hcd List.not_mem_nil⟩
  have hposts : ∀ post ∈ n.posted, post.Right ops n.format ∧
      start.proc.channels ≤ post.channelData.length := by
    intro post hpost
    have hright := h post hpost
    obtain ⟨cd, hcd, -⟩ := hright.chunk
    have hpos : n.format.channels ≠ 0 := by
      rw [← hright.channels, ← hcd]
      intro hzero
      have hcdpos := cd.pos
      rw [List.length_eq_zero_iff.mp hzero] at hcdpos
      exact Nat.lt_irrefl 0 hcdpos
    have hchannels : start.proc.channels = max 1 n.format.channels :=
      congrArg (max 1) (RdpAudioProcessor.orElse_some hpos 2)
    refine ⟨hright, ?_⟩
    rw [hchannels, hright.channels]
    omega
  obtain ⟨hreceived, hwide'⟩ :=
    @AudioRun.foldl_posts _ sampleOps _ _ _ _ _ _ hwide hposts hresets hmessages
  have hconserves := AudioRun.conserves_foldl sampleOps
    (AudioRun.conserves_start sampleOps (some ⟨some n.format.channels, some n.format.sourceRate⟩)
      sampleRate) events
  refine ⟨hreceived, hconserves.left_sublist .pulled, fun outputs => ?_⟩
  have hcall := @RdpAudioProcessor.Wide.process _ fl sampleOps _ _ hwide' outputs
  unfold Round.Ensures
  split
  · trivial
  · rename_i r thrown heq
    rw [RdpAudioProcessor.Unthrown, heq] at hcall
    exact hcall.2

/-! ## The page, one event at a time -/

namespace AudioPage

variable {ops : PcmOps α} {maxChannels : Nat} {s s' : AudioPage α} {format : PcmFormat}
  {post : AudioPost α}

theorem Matched.congr (h : s.Matched ops) (hnodes : s'.nodes = s.nodes)
    (hnode : s'.audioWorkletNode = s.audioWorkletNode) (hformat : s'.audioFormat = s.audioFormat) :
    s'.Matched ops := by
  refine ⟨?_, ?_, ?_⟩
  · rw [hnodes]
    exact h.posts
  · rw [hnodes, hnode, hformat]
    exact h.current
  · rw [hnodes, hnode]
    exact h.sole

/-- The one connected node is disconnected. -/
theorem Matched.nodes_disconnectNode (h : s.Matched ops) :
    s.disconnectNode.nodes = s.nodes.map fun n => { n with connected := false } := by
  have hoff : ∀ i n, s.nodes[i]? = some n → s.audioWorkletNode ≠ some i →
      n = { n with connected := false } := fun i n hn hne => by
    cases hconnected : n.connected with
    | false => rw [← hconnected]
    | true => exact absurd (h.sole i n hn hconnected) hne
  rw [disconnectNode]
  cases hnode : s.audioWorkletNode with
  | none =>
      refine (List.map_id _).symm.trans (List.map_congr_left fun n hn => ?_)
      obtain ⟨i, hi⟩ := List.mem_iff_getElem?.mp hn
      exact hoff i n hi (by rw [hnode]; exact nofun)
  | some node =>
      refine List.ext_getElem? fun i => ?_
      dsimp only
      rw [List.getElem?_modify, List.getElem?_map]
      cases hi : s.nodes[i]? with
      | none => rfl
      | some n =>
          by_cases heq : node = i
          · exact congrArg some (if_pos heq)
          · refine congrArg some ((if_neg heq).trans (hoff i n hi ?_))
            rw [hnode]
            exact fun hsome => heq (Option.some.inj hsome)

/-- No node is left connected, and none is posted to. -/
theorem Matched.forget (h : s.Matched ops) (hnodes : s'.nodes = s.disconnectNode.nodes)
    (hnode : s'.audioWorkletNode = none) : s'.Matched ops := by
  rw [h.nodes_disconnectNode] at hnodes
  refine ⟨?_, ?_, ?_⟩
  · rw [hnodes]
    intro n hn
    obtain ⟨n', hn', rfl⟩ := List.mem_map.mp hn
    exact h.posts n' hn'
  · rw [hnode]
    exact nofun
  · intro i n hn hconnected
    rw [hnodes, List.getElem?_map] at hn
    obtain ⟨n', -, rfl⟩ := Option.map_eq_some_iff.mp hn
    cases hconnected

/-- A message to the node that fits. -/
theorem Matched.postMessage_iff (h : s.Matched ops) (hfits : s.Fits format) :
    (s.postMessage post).Matched ops ↔ post.Right ops format := by
  obtain ⟨hsome, hformat⟩ := hfits
  obtain ⟨node, hnode⟩ := Option.isSome_iff_exists.mp hsome
  obtain ⟨n, hn, hconnected, hn'⟩ := h.current node hnode
  rw [hformat] at hn'
  obtain rfl : format = n.format := Option.some.inj hn'
  have hpost : s.postMessage post =
      { s with nodes := s.nodes.modify node fun n => { n with posted := n.posted ++ [post] } } := by
    rw [postMessage, hnode]
  rw [hpost]
  have hmodified : (s.nodes.modify node fun n => { n with posted := n.posted ++ [post] })[node]? =
      some { n with posted := n.posted ++ [post] } := by
    rw [List.getElem?_modify, hn]
    exact congrArg some (if_pos rfl)
  constructor
  · intro h'
    exact h'.posts _ (List.mem_of_getElem? hmodified) post (by simp)
  · intro hright
    refine ⟨?_, ?_, ?_⟩
    · intro n' hn' post' hpost'
      obtain ⟨i, hi⟩ := List.mem_iff_getElem?.mp hn'
      dsimp only at hi
      rw [List.getElem?_modify] at hi
      obtain ⟨n₀, hn₀, hi⟩ := Option.map_eq_some_iff.mp hi
      have hposts := h.posts n₀ (List.mem_of_getElem? hn₀)
      split at hi
      · rename_i hsame
        obtain rfl := hsame
        obtain rfl : n = n₀ := Option.some.inj (hn.symm.trans hn₀)
        rw [← hi] at hpost' ⊢
        rcases List.mem_append.mp hpost' with hpost' | hpost'
        · exact hposts post' hpost'
        · rwa [List.mem_singleton.mp hpost']
      · obtain rfl : n₀ = n' := hi
        exact hposts post' hpost'
    · intro i hi
      obtain rfl : node = i := Option.some.inj (hnode.symm.trans hi)
      exact ⟨_, hmodified, hconnected, hformat⟩
    · intro i n' hi hconnected'
      dsimp only at hi
      rw [List.getElem?_modify] at hi
      obtain ⟨n₀, hn₀, hi⟩ := Option.map_eq_some_iff.mp hi
      refine h.sole i n₀ hn₀ ?_
      split at hi <;> rw [← hi] at hconnected' <;> exact hconnected'

/-- A new node, which is posted its first message. -/
theorem Matched.construct_iff (h : s.Matched ops) (s₁ : AudioPage α)
    (hnodes : s₁.nodes = s.disconnectNode.nodes)
    (hformat : s₁.audioFormat = some format) :
    (postMessage { s₁ with
        nodes := s₁.nodes ++ [{ format, connected := true, posted := [] }]
        audioWorkletNode := some s₁.nodes.length } post).Matched ops ↔ post.Right ops format := by
  have hforget : ({ s₁ with audioWorkletNode := none } : AudioPage α).Matched ops :=
    h.forget hnodes rfl
  refine Matched.postMessage_iff ⟨?_, ?_, ?_⟩ ⟨rfl, hformat⟩
  · intro n hn post' hpost'
    rcases List.mem_append.mp hn with hn | hn
    · exact hforget.posts n hn post' hpost'
    · rw [List.mem_singleton.mp hn] at hpost'
      cases hpost'
  · intro i hi
    obtain rfl : s₁.nodes.length = i := Option.some.inj hi
    exact ⟨_, List.getElem?_concat_length .., rfl, hformat⟩
  · intro i n hn hconnected
    dsimp only at hn
    rw [List.getElem?_append] at hn
    split at hn
    · cases hforget.sole i n hn hconnected
    · have hlt := (List.getElem?_eq_some_iff.mp hn).1
      rw [List.length_singleton] at hlt
      exact congrArg some (by omega)

theorem constructs_disconnectNode (s : AudioPage α) (format : PcmFormat) :
    Constructs maxChannels { s.disconnectNode with audioFormat := some format } format ↔
      Constructs maxChannels s format := by
  unfold disconnectNode
  split <;> exact Iff.rfl

/-- A message in a format keeps the page right when it is right itself, and the
node of another format gives way to a new one. -/
theorem Matched.postPcmToWorklet_iff (h : s.Matched ops) :
    (s.postPcmToWorklet maxChannels format post).Matched ops ↔
      (s.Fits format ∨ Constructs maxChannels s format → post.Right ops format) ∧
        (s.audioWorkletNode.isSome → ¬ s.Fits format → Constructs maxChannels s format) := by
  rw [postPcmToWorklet]
  by_cases hfits : s.Fits format
  · rw [if_pos hfits, h.postMessage_iff hfits]
    exact ⟨fun hright => ⟨fun _ => hright, fun _ hno => absurd hfits hno⟩,
      fun hboth => hboth.1 (.inl hfits)⟩
  rw [if_neg hfits]
  dsimp only
  by_cases hconstructs : Constructs maxChannels s format
  · rw [if_pos ((s.constructs_disconnectNode format).mpr hconstructs),
      h.construct_iff { s.disconnectNode with audioFormat := some format } rfl rfl]
    exact ⟨fun hright => ⟨fun _ => hright, fun _ _ => hconstructs⟩,
      fun hboth => hboth.1 (.inr hconstructs)⟩
  rw [if_neg (mt (s.constructs_disconnectNode format).mp hconstructs)]
  constructor
  · intro h'
    refine ⟨fun hor => absurd hor (not_or.mpr ⟨hfits, hconstructs⟩), fun hsome _ => ?_⟩
    -- a node that is left without a connection is not the current one
    obtain ⟨node, hnode⟩ := Option.isSome_iff_exists.mp hsome
    have hnode' :
        ({ s.disconnectNode with audioFormat := some format } : AudioPage α).audioWorkletNode =
          some node := by
      rw [disconnectNode, hnode]
    obtain ⟨n, hn, hconnected, -⟩ := h'.current node hnode'
    dsimp only at hn
    rw [h.nodes_disconnectNode, List.getElem?_map] at hn
    obtain ⟨n', -, rfl⟩ := Option.map_eq_some_iff.mp hn
    cases hconnected
  · rintro ⟨-, hreplaced⟩
    have hnode : s.audioWorkletNode = none :=
      Option.not_isSome_iff_eq_none.mp fun hsome => hconstructs (hreplaced hsome hfits)
    refine h.forget rfl ?_
    rw [disconnectNode, hnode]
    exact hnode

/-! ### Events that post nothing -/

/-- What the nodes and the format are. -/
def Same (s s' : AudioPage α) : Prop :=
  s'.nodes = s.nodes ∧ s'.audioWorkletNode = s.audioWorkletNode ∧ s'.audioFormat = s.audioFormat

theorem Same.trans {s'' : AudioPage α} (h : s.Same s') (h' : s'.Same s'') : s.Same s'' :=
  ⟨h'.1.trans h.1, h'.2.1.trans h.2.1, h'.2.2.trans h.2.2⟩

theorem same_closeDecoder (s : AudioPage α) : s.Same s.closeDecoder := by
  rw [closeDecoder]
  split <;> exact ⟨rfl, rfl, rfl⟩

theorem same_ensureDecoder (s : AudioPage α) (codec : String) (sampleRate : UInt32)
    (channels : UInt16) (description : List UInt8) (configures : Bool) :
    s.Same (s.ensureDecoder codec sampleRate channels description configures) := by
  rw [ensureDecoder]
  split
  · exact ⟨rfl, rfl, rfl⟩
  · have hclose := s.same_closeDecoder
    dsimp only
    split <;> exact hclose.trans ⟨rfl, rfl, rfl⟩

theorem same_decodeChunk (s : AudioPage α) (w : AudioWave) : s.Same (s.decodeChunk w) := by
  rw [decodeChunk]
  split
  · exact ⟨rfl, rfl, rfl⟩
  · split <;> exact ⟨rfl, rfl, rfl⟩

theorem Matched.same (h : s.Matched ops) (hsame : s.Same s') : s'.Matched ops :=
  h.congr hsame.1 hsame.2.1 hsame.2.2

theorem Matched.cleanupSession (h : s.Matched ops) : s.cleanupSession.Matched ops := by
  -- whatever becomes of the decoder, the node is forgotten
  have hforget : ∀ s₁ : AudioPage α, s₁.Matched ops →
      (if s₁.disconnectNode.audioContext.isSome then
        ({ s₁.disconnectNode with audioWorkletNode := none, audioContext := none,
                                  workletReady := false, audioFormat := none } : AudioPage α)
      else { s₁.disconnectNode with audioWorkletNode := none }).Matched ops := by
    intro s₁ h₁
    split <;> exact h₁.forget rfl rfl
  rw [AudioPage.cleanupSession]
  refine hforget _ ?_
  split
  · exact h.same (s.same_closeDecoder.trans ⟨rfl, rfl, rfl⟩)
  · exact h

/-! ### One event -/

section
variable {ev : AudioPageEvent α}

theorem playable_of_silent (h : s.format? ops ev = none) : s.Playable ops maxChannels ev :=
  fun format hformat => by
    rw [h] at hformat
    cases hformat

theorem playable_iff (h : s.format? ops ev = some format) : s.Playable ops maxChannels ev ↔
    (s.Fits format ∨ Constructs maxChannels s format → format.channels ≠ 0) ∧
      (s.audioWorkletNode.isSome → ¬ s.Fits format → Constructs maxChannels s format) := by
  constructor
  · exact fun hplayable => hplayable format h
  · intro hboth format' hformat'
    obtain rfl : format = format' := Option.some.inj (h.symm.trans hformat')
    exact hboth

theorem Matched.step_same_iff (h : s.Matched ops) (hsilent : s.format? ops ev = none)
    (hsame : s.Same (s.step ops maxChannels ev)) :
    (s.step ops maxChannels ev).Matched ops ↔ s.Playable ops maxChannels ev :=
  iff_of_true (h.same hsame) (playable_of_silent hsilent)

theorem same_audioData (s : AudioPage α) {w : AudioWave} (hcodec : w.codec ≠ 0x0001)
    (configures : Bool) : s.Same (s.audioData ops maxChannels w configures) := by
  rw [audioData, if_neg hcodec]
  split
  · exact ⟨rfl, rfl, rfl⟩
  split
  · exact (s.same_ensureDecoder ..).trans (same_decodeChunk ..)
  · split
    · exact (s.same_ensureDecoder ..).trans (same_decodeChunk ..)
    · exact ⟨rfl, rfl, rfl⟩

theorem Matched.wave_iff (h : s.Matched ops) (w : AudioWave) (configures : Bool) :
    (s.step ops maxChannels (.wave w configures)).Matched ops ↔
      s.Playable ops maxChannels (.wave w configures) := by
  by_cases hcodec : w.codec = 0x0001
  · by_cases hready : s.audioContext.isNone || !s.workletReady
    · refine h.step_same_iff (if_neg ?_) ?_
      · rintro ⟨hsome, hloaded, -⟩
        rw [Option.isNone_eq_false_iff.mpr hsome, hloaded] at hready
        cases hready
      · rw [step, audioData, if_pos hready]
        exact ⟨rfl, rfl, rfl⟩
    rw [step, audioData, if_neg hready, if_pos hcodec]
    cases hdata : pcmChannelData ops w.channels w.bitsPerSample w.data with
    | none =>
        refine iff_of_true h (playable_of_silent (if_neg ?_))
        rintro ⟨-, -, -, hsome⟩
        rw [hdata] at hsome
        cases hsome
    | some channelData =>
        simp only [Bool.or_eq_true, Bool.not_eq_true', not_or, Bool.not_eq_false,
          Option.isNone_iff_eq_none, ← ne_eq, ← Option.isSome_iff_ne_none] at hready
        have hformat : s.format? ops (.wave w configures) =
            some ⟨w.channels.toNat, w.sampleRate.toNat⟩ := by
          rw [format?, if_pos ⟨hready.1, hready.2, hcodec, by rw [hdata]; rfl⟩]
        rw [playable_iff hformat, h.postPcmToWorklet_iff, right_pcm_iff ops hdata]
  · exact h.step_same_iff (if_neg fun hpcm => hcodec hpcm.2.2.1)
      (s.same_audioData hcodec configures)

theorem Matched.decoded_iff (h : s.Matched ops) (decoder : Nat) (audio : DecodedAudio α) :
    (s.step ops maxChannels (.decoded decoder audio)).Matched ops ↔
      s.Playable ops maxChannels (.decoded decoder audio) := by
  have hchannels : audio.planes.length ≠ 0 := fun hzero =>
    audio.planes_ne (List.length_eq_zero_iff.mp hzero)
  rw [step, onDecodedAudio]
  cases hd : s.decoders[decoder]? with
  | none =>
      refine iff_of_true h (playable_of_silent (if_neg ?_))
      rw [hd]
      exact Bool.false_ne_true
  | some d =>
      dsimp only
      split
      · rename_i hopen
        have hformat : s.format? ops (.decoded decoder audio) =
            some ⟨audio.planes.length, audio.sampleRate⟩ := by
          rw [format?, if_pos (by rw [hd]; simpa using hopen)]
        rw [playable_iff hformat, h.postPcmToWorklet_iff]
        exact and_congr_left' ⟨fun _ _ => hchannels, fun _ _ => right_decoded ops audio⟩
      · rename_i hclosed
        refine iff_of_true h (playable_of_silent (if_neg ?_))
        rw [hd]
        simpa using hclosed

theorem Matched.step_iff (h : s.Matched ops) (ev : AudioPageEvent α) :
    (s.step ops maxChannels ev).Matched ops ↔ s.Playable ops maxChannels ev := by
  cases ev with
  | wave w configures => exact h.wave_iff w configures
  | decoded decoder audio => exact h.decoded_iff decoder audio
  | cleanupSession => exact iff_of_true h.cleanupSession (playable_of_silent rfl)
  | initContext made =>
      refine h.step_same_iff rfl ?_
      rw [step, initAudioContext]
      split <;> exact ⟨rfl, rfl, rfl⟩
  | moduleLoaded context =>
      refine h.step_same_iff rfl ?_
      rw [step, moduleLoaded]
      split <;> exact ⟨rfl, rfl, rfl⟩
  | moduleFailed context => exact h.step_same_iff rfl ⟨rfl, rfl, rfl⟩
  | decoderError decoder => exact h.step_same_iff rfl ⟨rfl, rfl, rfl⟩

end

theorem right_iff_matched : s.Right ops ↔ s.Matched ops :=
  ⟨Right.toMatched, fun h => ⟨h, fun n hn => AudioNode.heard_of_posts (h.posts n hn)⟩⟩

/-- In whatever order contexts, modules, waves and decoders come and go. -/
theorem always_heard_iff (ops : PcmOps α) (maxChannels : Nat) (events : List (AudioPageEvent α)) :
    Always (step ops maxChannels) (Right ops) initial events ↔
      Each (step ops maxChannels) (Playable ops maxChannels) initial events := by
  have hright : (Right ops : AudioPage α → Prop) = Matched ops :=
    funext fun s => propext right_iff_matched
  rw [hright]
  have hinv : ∀ s, ∀ ev ∈ events, (fun _ : AudioPage α => True) s →
      (fun _ => True) (s.step ops maxChannels ev) := fun _ _ _ _ => trivial
  exact always_iff_each hinv (fun s ev _ _ h => h.step_iff ev) trivial ⟨nofun, nofun, nofun⟩

end AudioPage

end WasmRdp
