import WasmRdp.AudioQueue

/-!
# The audio worklet

`RdpAudioProcessor` plays the queue: a message with PCM adds a chunk and drops
the oldest frames when too much is waiting, and every call of `process` pulls
as many frames as the resampler needs, or finds the queue empty.

The numbers of the worklet are doubles. It is defined over a rounding `rnd` of
the rationals, so that with `fl` it is the worklet of the source and with the
identity the one that computes exactly. What the counts of frames need of a
rounding is `Rounds`: on the numbers that are not negative it keeps the sign
and the order. Both have it (`rounds_fl`, `rounds_id`), and so the two
latencies are in the right order after they are rounded
(`targetFrames_le_maxFrames`).

A loop of the source that can end the call is a fold over `Round`s; a throw
is one of the ends. What every round keeps the loop keeps (`foldl_keeps`), and
that is how a call conserves frames: what it has pulled and what is left are
what it has found (`process_conserves`).

A run, with `fl` for the rounding, remembers the frames that have arrived
since the last reset, and those that have left the queue, each as pulled or as
dropped. The frames that have left and those in the queue are the frames that
arrived, in their order (`AudioRun.Conserves`), and after a message no more is
waiting than `maxLatency` (`AudioRun.Conserves.pcm_le`). `audio_conserves` has
all of it.
-/

namespace WasmRdp

open Binary64

/-- What the page passes on: the format of the sound. -/
structure ProcessorOptions where
  channels : Option Nat
  sourceRate : Option ℚ≥0

structure RdpAudioProcessor (α : Type) where
  channels : Nat
  sourceRate : ℚ≥0
  /-- Source frames for each frame of the output. -/
  ratio : ℚ
  pcm : PcmQueue α
  phase : ℚ
  cur : List α
  nxt : List α
  primed : Bool

/-- The next round of a loop, or the end of the call, which may be a throw. -/
inductive Round (σ : Type) where
  | next (s : σ)
  | stop (s : σ) (thrown : Bool)

namespace Round

variable {σ : Type}

def state : Round σ → σ
  | .next s => s
  | .stop s _ => s

def bind (t : Round σ) (f : σ → Round σ) : Round σ :=
  match t with
  | .next s => f s
  | .stop s thrown => .stop s thrown

theorem bind_keeps {p : σ → Prop} {t : Round σ} {f : σ → Round σ} (ht : p t.state)
    (hf : ∀ s, p s → p (f s).state) : p (t.bind f).state := by
  cases t with
  | next s => exact hf s ht
  | stop s thrown => exact ht

/-- What every round keeps, the loop keeps. -/
theorem foldl_keeps {ι : Type} {p : σ → Prop} {f : ι → σ → Round σ}
    (hf : ∀ i s, p s → p (f i s).state) (is : List ι) {t : Round σ} (ht : p t.state) :
    p (is.foldl (fun t i => t.bind (f i)) t).state := by
  induction is generalizing t with
  | nil => exact ht
  | cons i is ih => exact ih (bind_keeps ht (hf i))

end Round

/-- A call of `process`: the processor, the output, and the frames that were
pulled so far. -/
structure Render (α : Type) where
  proc : RdpAudioProcessor α
  out : List (List α)
  pulled : List (List α)

namespace PcmQueue

variable {α : Type}

/-- The frames from the cursor to the end of the first chunk. -/
def restOfChunk (q : PcmQueue α) : Nat := (q.queue.head?.map PcmChunk.length).getD 0 - q.frameIdx

/-- A pull takes the last frame of a chunk, or one of several. -/
theorem pullSourceFrame_decreases {ops : SampleOps α} {channels : Nat} {q q' : PcmQueue α}
    {dst dst' frame : List α} (hpull : q.pullSourceFrame ops channels dst = .pulled dst' frame q') :
    q'.queue.length < q.queue.length
      ∨ q'.queue.length = q.queue.length ∧ q'.restOfChunk < q.restOfChunk := by
  rcases q with ⟨_ | ⟨cd, queue⟩, i, n⟩
  · cases hpull
  · rw [pullSourceFrame] at hpull
    dsimp only at hpull
    split_ifs at hpull with hchannels hlast
    · cases hpull
      exact Or.inl (Nat.lt_succ_self _)
    · cases hpull
      refine Or.inr ⟨rfl, ?_⟩
      simp only [restOfChunk, List.head?_cons, Option.map_some, Option.getD_some]
      omega

end PcmQueue

namespace RdpAudioProcessor

variable {α : Type} (rnd : ℚ → ℚ) (ops : SampleOps α)

/-! ## Messages -/

/-- `value || fallback` -/
def orElse {κ : Type} [Zero κ] [DecidableEq κ] (value : Option κ) (fallback : κ) : κ :=
  (value.filter (· ≠ 0)).getD fallback

def new (options : Option ProcessorOptions) (sampleRate : ℚ≥0) : RdpAudioProcessor α :=
  let opts := options.getD ⟨none, none⟩
  let channels := max 1 (orElse opts.channels 2)
  let sourceRate := orElse opts.sourceRate sampleRate
  { channels
    sourceRate
    ratio := rnd (sourceRate / sampleRate)
    pcm := .empty
    phase := 0
    cur := List.replicate channels ops.zero
    nxt := List.replicate channels ops.zero
    primed := false }

def targetLatency : ℚ := rnd (4 / 100)

def maxLatency : ℚ := rnd (12 / 100)

def maxFrames (p : RdpAudioProcessor α) : Int := ⌊rnd (maxLatency rnd * p.sourceRate)⌋

def targetFrames (p : RdpAudioProcessor α) : Int := ⌊rnd (targetLatency rnd * p.sourceRate)⌋

/-- Drops the oldest frames when more than `maxLatency` is waiting. With the
frames that were dropped. -/
def catchUp (p : RdpAudioProcessor α) : List (List α) × RdpAudioProcessor α :=
  if p.pcm.queuedFrames ≤ p.maxFrames rnd then ([], p)
  else
    let drop := p.pcm.queuedFrames - p.targetFrames rnd
    let kept := PcmQueue.dropOldest p.pcm.queue p.pcm.frameIdx p.pcm.queuedFrames drop
    (kept.1, { p with pcm := kept.2, primed := false })

/-- `port.onmessage` for a `pcm` message. -/
def onPcm (p : RdpAudioProcessor α) (cd : PcmChunk α) : List (List α) × RdpAudioProcessor α :=
  catchUp rnd { p with pcm := p.pcm.push cd }

/-- `port.onmessage` for a `reset` message. -/
def onReset (p : RdpAudioProcessor α) : RdpAudioProcessor α :=
  { p with pcm := .empty, phase := 0, primed := false }

/-! ## The render callback -/

/-- `if (!this.primed) { … }` -/
def prime (i : Nat) (s : Render α) : Round (Render α) :=
  if s.proc.primed then .next s
  else
    match s.proc.pcm.pullSourceFrame ops s.proc.channels s.proc.cur with
    | .underrun =>
        -- `silence`: zeros from here to the end
        let frames := (s.out.headD []).length
        let out := s.out.map fun channel =>
          channel.mapIdx fun j sample => if i ≤ j ∧ j < frames then ops.zero else sample
        .stop { s with out } false
    | .thrown cur => .stop { s with proc := { s.proc with cur } } true
    | .pulled cur frame pcm =>
        let pulled := s.pulled ++ [frame]
        match pcm.pullSourceFrame ops s.proc.channels s.proc.nxt with
        | .underrun =>
            let proc := { s.proc with cur, nxt := cur, pcm, phase := 0, primed := true }
            .next { s with proc, pulled }
        | .thrown nxt => .stop { s with proc := { s.proc with cur, nxt, pcm }, pulled } true
        | .pulled nxt frame pcm =>
            let proc := { s.proc with cur, nxt, pcm, phase := 0, primed := true }
            .next { s with proc, pulled := pulled ++ [frame] }

/-- `while (this.phase >= 1) { … }` -/
def advance (s : Render α) : Round (Render α) :=
  if s.proc.phase < 1 then .next s
  else
    let cur := s.proc.nxt
    let phase := rnd (s.proc.phase - 1)
    match _ : s.proc.pcm.pullSourceFrame ops s.proc.channels s.proc.nxt with
    | .underrun => .next { s with proc := { s.proc with cur, phase, primed := false } }
    | .thrown nxt => .stop { s with proc := { s.proc with cur, nxt } } true
    | .pulled nxt frame pcm =>
        advance { s with
          proc := { s.proc with cur, nxt, pcm, phase }
          pulled := s.pulled ++ [frame] }
termination_by (s.proc.pcm.queue.length, s.proc.pcm.restOfChunk)
decreasing_by
  rw [Prod.lex_def]
  exact PcmQueue.pullSourceFrame_decreases ‹_›

/-- The samples of one frame of the output. -/
def writeFrame (i : Nat) (s : Render α) : Round (Render α) :=
  let p := s.proc.phase
  let out := s.out.mapIdx fun ch channel =>
    let sc := if ch < s.proc.channels then ch else s.proc.channels - 1
    channel.set i (ops.mix (s.proc.cur.getD sc ops.nan) (s.proc.nxt.getD sc ops.nan) p)
  .next { s with proc := { s.proc with phase := rnd (s.proc.phase + s.proc.ratio) }, out }

def renderFrame (i : Nat) (s : Render α) : Round (Render α) :=
  ((prime ops i s).bind (advance rnd ops)).bind (writeFrame rnd ops i)

def process (p : RdpAudioProcessor α) (outputs : List (List (List α))) : Round (Render α) :=
  match outputs.headD [] with
  | [] => .next ⟨p, [], []⟩
  | first :: out =>
      (List.range first.length).foldl (fun t i => t.bind (renderFrame rnd ops i))
        (.next ⟨p, first :: out, []⟩)

/-! ## What a call does to the queue -/

/-- What the counts of frames need of the rounding. -/
structure Rounds (rnd : ℚ → ℚ) : Prop where
  nonneg : ∀ {x}, 0 ≤ x → 0 ≤ rnd x
  mono : ∀ {x y}, 0 ≤ x → x ≤ y → rnd x ≤ rnd y

theorem rounds_fl : Rounds fl := ⟨fl_nonneg, fl_mono⟩

theorem rounds_id : Rounds id := ⟨id, fun _ => id⟩

section

variable {rnd : ℚ → ℚ} (hrnd : Rounds rnd) (p : RdpAudioProcessor α)
include hrnd

theorem targetFrames_nonneg : 0 ≤ p.targetFrames rnd := by
  have hlatency : 0 ≤ targetLatency rnd := hrnd.nonneg (by norm_num)
  exact Int.floor_nonneg.mpr (hrnd.nonneg (mul_nonneg hlatency p.sourceRate.cast_nonneg))

/-- The frames that are kept are no more than the limit: rounding keeps the
order of the two latencies, and of their products with the rate. -/
theorem targetFrames_le_maxFrames : p.targetFrames rnd ≤ p.maxFrames rnd := by
  have hlatency : 0 ≤ targetLatency rnd := hrnd.nonneg (by norm_num)
  have hle : targetLatency rnd ≤ maxLatency rnd := hrnd.mono (by norm_num) (by norm_num)
  have hrate : (0 : ℚ) ≤ p.sourceRate := p.sourceRate.cast_nonneg
  exact Int.floor_le_floor
    (hrnd.mono (mul_nonneg hlatency hrate) (mul_le_mul_of_nonneg_right hle hrate))

theorem catchUp_spec {p : RdpAudioProcessor α} (hp : p.pcm.WF) :
    p.pcm.frames = (p.catchUp rnd).1 ++ (p.catchUp rnd).2.pcm.frames ∧
      (p.catchUp rnd).2.pcm.WF ∧ (p.catchUp rnd).2.pcm.queuedFrames ≤ p.maxFrames rnd := by
  rw [catchUp]
  split_ifs with hfew
  · exact ⟨rfl, hp, hfew⟩
  · have hzero := targetFrames_nonneg hrnd p
    have hle := targetFrames_le_maxFrames hrnd p
    obtain ⟨hframes, hwf, hcount⟩ :=
      PcmQueue.dropOldest_spec hp (show 0 ≤ p.pcm.queuedFrames - p.targetFrames rnd by omega)
        (show _ ≤ p.pcm.queuedFrames by omega)
    refine ⟨hframes, hwf, ?_⟩
    calc (PcmQueue.dropOldest ..).2.queuedFrames
        = p.pcm.queuedFrames - (p.pcm.queuedFrames - p.targetFrames rnd) := hcount
      _ ≤ p.maxFrames rnd := by omega

end

@[simp] theorem maxFrames_catchUp (p : RdpAudioProcessor α) :
    (p.catchUp rnd).2.maxFrames rnd = p.maxFrames rnd := by
  rw [catchUp]
  split_ifs <;> rfl

end RdpAudioProcessor

/-- What the call has pulled and what is left are what it has found. -/
def Render.Conserves {α : Type} (p : RdpAudioProcessor α) (s : Render α) : Prop :=
  p.pcm.Drained s.pulled s.proc.pcm

namespace RdpAudioProcessor

variable {α : Type} (rnd : ℚ → ℚ) (ops : SampleOps α) {p : RdpAudioProcessor α} {s : Render α}
  {i : Nat}

theorem prime_conserves (hs : s.Conserves p) : (prime ops i s).state.Conserves p := by
  rw [prime]
  split_ifs
  · exact hs
  · split
    · exact hs
    · exact hs
    · next cur frame pcm hcur =>
        have hone := hs.pull hcur
        dsimp only
        split
        · exact hone
        · exact hone
        · next nxt frame' pcm' hnxt => exact hone.pull hnxt

/-- By induction on the turns of the loop, each of which pulls a frame. -/
theorem advance_conserves (hs : s.Conserves p) : (advance rnd ops s).state.Conserves p := by
  fun_induction advance rnd ops s with
  | case1 s hphase => exact hs
  | case2 s hphase => exact hs
  | case3 s hphase => exact hs
  | case4 s hphase cur phase nxt frame pcm hpull ih => exact ih (hs.pull hpull)

theorem renderFrame_conserves (hs : s.Conserves p) :
    (renderFrame rnd ops i s).state.Conserves p := by
  have hadvanced := Round.bind_keeps (p := Render.Conserves p) (prime_conserves ops (i := i) hs)
    fun s => advance_conserves rnd ops
  exact Round.bind_keeps hadvanced fun s hs => hs

theorem process_conserves (hp : p.pcm.WF) (outputs : List (List (List α))) :
    (p.process rnd ops outputs).state.Conserves p := by
  rw [process]
  split
  · exact hp.drained
  · exact Round.foldl_keeps (fun i s => renderFrame_conserves rnd ops) _ hp.drained

end RdpAudioProcessor

/-! ## Runs -/

inductive AudioEvent (α : Type) where
  | pcm (cd : PcmChunk α)
  | reset
  | process (outputs : List (List (List α)))

/-- How a frame has left the queue. -/
inductive Fate where
  | pulled
  | dropped
  deriving DecidableEq

structure AudioRun (α : Type) where
  proc : RdpAudioProcessor α
  /-- The frames that have arrived since the last reset. -/
  received : List (List α)
  /-- The frames that have left the queue since then, in the order in which
  they left. -/
  gone : List (Fate × List α)

namespace AudioRun

variable {α : Type} (ops : SampleOps α)

def start (options : Option ProcessorOptions) (sampleRate : ℚ≥0) : AudioRun α where
  proc := .new fl ops options sampleRate
  received := []
  gone := []

def step (s : AudioRun α) : AudioEvent α → AudioRun α
  | .pcm cd =>
      let caught := s.proc.onPcm fl cd
      { proc := caught.2
        received := s.received ++ cd.frames
        gone := s.gone ++ caught.1.map (Prod.mk .dropped) }
  | .reset => ⟨s.proc.onReset, [], []⟩
  | .process outputs =>
      let call := (s.proc.process fl ops outputs).state
      { s with
        proc := call.proc
        gone := s.gone ++ call.pulled.map (Prod.mk .pulled) }

/-- The frames that have left the queue in one way, in order. -/
def left (s : AudioRun α) (fate : Fate) : List (List α) :=
  (s.gone.filter (·.1 = fate)).map Prod.snd

/-- The queue is what its cursor and its counter say, and the frames that have
left and those that wait are the ones that have arrived, place for place. -/
structure Conserves (s : AudioRun α) : Prop where
  queue : s.proc.pcm.WF
  frames : s.gone.map Prod.snd ++ s.proc.pcm.frames = s.received

theorem conserves_start (options : Option ProcessorOptions) (sampleRate : ℚ≥0) :
    (start ops options sampleRate).Conserves :=
  ⟨PcmQueue.wf_empty, rfl⟩

/-- Frames that leave from the front of the queue, all in one way. -/
theorem frames_leave {s : AudioRun α} (hs : s.Conserves) (fate : Fate)
    {out rest new : List (List α)} (hout : out ++ rest = s.proc.pcm.frames ++ new) :
    (s.gone ++ out.map (Prod.mk fate)).map Prod.snd ++ rest = s.received ++ new := by
  have hsnd : (out.map (Prod.mk fate)).map Prod.snd = out := by simp
  rw [List.map_append, hsnd, List.append_assoc, hout, ← List.append_assoc, hs.frames]

theorem conserves_step {s : AudioRun α} (hs : s.Conserves) (e : AudioEvent α) :
    (s.step ops e).Conserves := by
  cases e with
  | pcm cd =>
      obtain ⟨hframes, hwf, -⟩ := RdpAudioProcessor.catchUp_spec RdpAudioProcessor.rounds_fl
        (p := { s.proc with pcm := s.proc.pcm.push cd }) (hs.queue.push cd)
      refine ⟨hwf, frames_leave hs .dropped ?_⟩
      rw [← PcmQueue.frames_push hs.queue]
      exact hframes.symm
  | reset => exact ⟨PcmQueue.wf_empty, rfl⟩
  | process outputs =>
      have hcall := RdpAudioProcessor.process_conserves fl ops hs.queue outputs
      have hleave := frames_leave hs .pulled (hcall.frames.trans (List.append_nil _).symm)
      rw [List.append_nil] at hleave
      exact ⟨hcall.queue, hleave⟩

theorem conserves_foldl {s : AudioRun α} (hs : s.Conserves) (es : List (AudioEvent α)) :
    (es.foldl (step ops) s).Conserves := by
  induction es generalizing s with
  | nil => exact hs
  | cons e es ih => exact ih (conserves_step ops hs e)

/-- What has left in one way has arrived in that order, and only once. -/
theorem Conserves.left_sublist {s : AudioRun α} (hs : s.Conserves) (fate : Fate) :
    (s.left fate).Sublist s.received := by
  have hgone : (s.left fate).Sublist (s.gone.map Prod.snd) := List.filter_sublist.map Prod.snd
  rw [← hs.frames]
  exact hgone.trans (List.sublist_append_left ..)

/-- Every frame that has arrived was pulled, was dropped, or waits. -/
theorem Conserves.perm {s : AudioRun α} (hs : s.Conserves) :
    (s.left .pulled ++ s.left .dropped ++ s.proc.pcm.frames).Perm s.received := by
  have hother : s.gone.filter (·.1 = .dropped)
      = s.gone.filter fun x => !decide (x.1 = .pulled) := by
    refine List.filter_congr fun x _ => ?_
    cases x.1 <;> rfl
  have hparts : (s.left .pulled ++ s.left .dropped).Perm (s.gone.map Prod.snd) := by
    rw [left, left, hother, ← List.map_append]
    exact (List.filter_append_perm _ s.gone).map Prod.snd
  rw [← hs.frames]
  exact hparts.append_right _

/-- After a message no more waits than the limit. -/
theorem Conserves.pcm_le {s : AudioRun α} (hs : s.Conserves) (cd : PcmChunk α) :
    (s.step ops (.pcm cd)).proc.pcm.queuedFrames ≤ (s.step ops (.pcm cd)).proc.maxFrames fl := by
  obtain ⟨-, -, hle⟩ := RdpAudioProcessor.catchUp_spec RdpAudioProcessor.rounds_fl
    (p := { s.proc with pcm := s.proc.pcm.push cd }) (hs.queue.push cd)
  rw [← RdpAudioProcessor.maxFrames_catchUp] at hle
  exact hle

/-- In every run: the queue is what its cursor and its counter say; place for
place, a frame that has arrived since the last reset has left or waits, and
was pulled, dropped or neither; the frames that were pulled are some of those
that arrived, in order; and after a message no more waits than `maxLatency`. -/
theorem audio_conserves (options : Option ProcessorOptions) (sampleRate : ℚ≥0)
    (es : List (AudioEvent α)) :
    let s := es.foldl (step ops) (start ops options sampleRate)
    s.Conserves
      ∧ (s.left .pulled ++ s.left .dropped ++ s.proc.pcm.frames).Perm s.received
      ∧ (s.left .pulled).Sublist s.received
      ∧ ∀ cd, (s.step ops (.pcm cd)).proc.pcm.queuedFrames
          ≤ (s.step ops (.pcm cd)).proc.maxFrames fl := by
  have hs := conserves_foldl ops (conserves_start ops options sampleRate) es
  exact ⟨hs, hs.perm, hs.left_sublist .pulled, hs.pcm_le ops⟩

end AudioRun

end WasmRdp
