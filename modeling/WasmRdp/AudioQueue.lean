import WasmRdp.Lib.Binary64
import Mathlib.Data.List.Flatten

/-!
# The audio queue

The worklet that plays the sound. Decoded chunks arrive in messages, the
render callback pulls one frame after another from the front of the queue, and
when more than `maxLatency` is waiting the oldest frames are dropped. A cursor
stands in the first chunk, and a counter keeps the number of frames that wait.

`PcmQueue.frames` is what the chunks and the cursor stand for: the frames that
are still to be played, in order. Pulling and dropping take frames from its
front, a message adds frames at its end, and the counter is its length
(`PcmQueue.WF`).

A chunk carries that it has a frame at least, and as many in every channel; so
the cursor can always move on to the next chunk, and there is no chunk without
an end. `dropOldest_spec` is by induction on the chunks: whole ones go first,
and the cursor is moved within the one that is left. `pullSourceFrame_pulled`
says that a pull takes the first frame, and `pullSourceFrame_dst` what it
stores. `Drained` collects the pulls of one call.

A pull can also find that the first chunk has fewer channels than are read,
which in the source is an access to `undefined` and throws. That outcome is
kept apart (`Pulled`), and it is for the page to prevent it.
-/

namespace WasmRdp

/-- What the worklet asks of the samples of a `Float32Array`. -/
structure SampleOps (α : Type) where
  /-- The samples of a new array. -/
  zero : α
  /-- What is stored for `undefined`. -/
  nan : α
  /-- The sample `p` of the way from one to the next. -/
  mix : α → α → ℚ → α

/-- The `channelData` of a message: at least one frame, and as many in every
channel. -/
structure PcmChunk (α : Type) where
  channelData : List (List α)
  pos : 0 < (channelData.headD []).length
  equal : ∀ channel ∈ channelData, channel.length = (channelData.headD []).length

namespace PcmChunk

variable {α : Type}

/-- `cd[0].length` -/
def length (cd : PcmChunk α) : Nat := (cd.channelData.headD []).length

/-- The samples of one frame, a sample for each channel. -/
def frame (cd : PcmChunk α) (i : Nat) : List α := cd.channelData.filterMap (·[i]?)

def frames (cd : PcmChunk α) : List (List α) := (List.range cd.length).map cd.frame

@[simp] theorem length_frames (cd : PcmChunk α) : cd.frames.length = cd.length := by
  rw [frames, List.length_map, List.length_range]

theorem drop_frames (cd : PcmChunk α) {i : Nat} (hi : i < cd.length) :
    cd.frames.drop i = cd.frame i :: cd.frames.drop (i + 1) := by
  have hlt : i < cd.frames.length := by
    rw [length_frames]
    exact hi
  rw [List.drop_eq_getElem_cons hlt]
  simp [frames]

/-- Each channel has a sample for the frame. -/
theorem frame_eq_map (cd : PcmChunk α) {i : Nat} (hi : i < cd.length) (default : α) :
    cd.frame i = cd.channelData.map fun channel => channel.getD i default := by
  rw [frame, ← List.filterMap_eq_map]
  refine List.filterMap_congr fun channel hmem => ?_
  have hlt : i < channel.length := by
    rw [cd.equal channel hmem]
    exact hi
  rw [Function.comp_apply, List.getD_eq_getElem?_getD, List.getElem?_eq_getElem hlt,
    Option.getD_some]

end PcmChunk

/-- The queue of chunks, the cursor in the first one, and the counter. -/
structure PcmQueue (α : Type) where
  queue : List (PcmChunk α)
  frameIdx : Nat
  queuedFrames : Int

/-- What a call of `pullSourceFrame` comes to: no frame is left, the chunk
lacks a channel that is read, or a frame is stored in `dst`. -/
inductive Pulled (α : Type) where
  | underrun
  | thrown (dst : List α)
  | pulled (dst frame : List α) (q : PcmQueue α)

namespace PcmQueue

variable {α : Type}

def empty : PcmQueue α where
  queue := []
  frameIdx := 0
  queuedFrames := 0

/-- A chunk at the end. -/
def push (q : PcmQueue α) (cd : PcmChunk α) : PcmQueue α :=
  { q with queue := q.queue ++ [cd], queuedFrames := q.queuedFrames + cd.length }

/-- The loop of `catchUp`, with the frames that it drops. -/
def dropOldest : List (PcmChunk α) → Nat → Int → Int → List (List α) × PcmQueue α
  | [], frameIdx, queuedFrames, _ => ([], ⟨[], frameIdx, queuedFrames⟩)
  | cd :: queue, frameIdx, queuedFrames, drop =>
      let avail := (cd.length : Int) - frameIdx
      if drop ≤ 0 then ([], ⟨cd :: queue, frameIdx, queuedFrames⟩)
      else if avail ≤ drop then
        let rest := dropOldest queue 0 (queuedFrames - avail) (drop - avail)
        (cd.frames.drop frameIdx ++ rest.1, rest.2)
      else
        ((cd.frames.drop frameIdx).take drop.toNat,
          ⟨cd :: queue, frameIdx + drop.toNat, queuedFrames - drop⟩)

/-- Pops the next frame into `dst`. -/
def pullSourceFrame (ops : SampleOps α) (channels : Nat) (q : PcmQueue α) (dst : List α) :
    Pulled α :=
  match q.queue with
  | [] => .underrun
  | cd :: queue =>
      let read := cd.channelData.map fun channel => channel.getD q.frameIdx ops.nan
      -- `cd[ch]` is `undefined` for the first channel that the chunk lacks
      if cd.channelData.length < channels then
        .thrown (read ++ dst.drop read.length)
      else
        .pulled (read.take channels ++ dst.drop channels) (cd.frame q.frameIdx)
          (if cd.length ≤ q.frameIdx + 1 then ⟨queue, 0, q.queuedFrames - 1⟩
          else ⟨cd :: queue, q.frameIdx + 1, q.queuedFrames - 1⟩)

/-! ## What the queue holds -/

/-- The frames that are still to be played. -/
def frames (q : PcmQueue α) : List (List α) := (q.queue.flatMap PcmChunk.frames).drop q.frameIdx

/-- The cursor stands in the first chunk, and the counter is right. -/
structure WF (q : PcmQueue α) : Prop where
  counter : q.queuedFrames = (q.queue.map PcmChunk.length).sum - q.frameIdx
  cursor : ∀ cd ∈ q.queue.head?, q.frameIdx < cd.length
  atRest : q.queue = [] → q.frameIdx = 0 ∧ q.queuedFrames = 0

variable {q : PcmQueue α} {cd : PcmChunk α} {queue : List (PcmChunk α)} {i : Nat} {n : Int}

theorem length_flatMap_frames (queue : List (PcmChunk α)) :
    (queue.flatMap PcmChunk.frames).length = (queue.map PcmChunk.length).sum := by
  rw [List.length_flatMap]
  simp

theorem frames_cons (hi : i ≤ cd.length) :
    frames ⟨cd :: queue, i, n⟩ = cd.frames.drop i ++ queue.flatMap PcmChunk.frames := by
  rw [frames, List.flatMap_cons, List.drop_append_of_le_length]
  rw [PcmChunk.length_frames]
  exact hi

theorem wf_empty : WF (empty : PcmQueue α) where
  counter := rfl
  cursor := by simp [empty]
  atRest := fun _ => ⟨rfl, rfl⟩

/-- A cursor at the start of a chunk stands in it. -/
theorem wf_at_start (hn : n = (queue.map PcmChunk.length).sum) : WF ⟨queue, 0, n⟩ where
  counter := by rw [hn, Nat.cast_zero, sub_zero]
  cursor := fun cd _ => cd.pos
  atRest := by
    rintro rfl
    exact ⟨rfl, hn⟩

theorem wf_cons (hi : i < cd.length)
    (hn : n = ((cd :: queue).map PcmChunk.length).sum - (i : Int)) :
    WF ⟨cd :: queue, i, n⟩ where
  counter := hn
  cursor := by
    intro cd' hcd
    cases hcd
    exact hi
  atRest := by
    intro hnil
    cases hnil

namespace WF

/-- The cursor is not past the end. -/
theorem frameIdx_le (h : q.WF) : q.frameIdx ≤ (q.queue.flatMap PcmChunk.frames).length := by
  rcases q with ⟨_ | ⟨cd, queue⟩, i, n⟩
  · exact (h.atRest rfl).1.le
  · have hi : i < cd.length := h.cursor cd rfl
    rw [length_flatMap_frames, List.map_cons, List.sum_cons]
    exact hi.le.trans (Nat.le_add_right ..)

theorem push (h : q.WF) (cd : PcmChunk α) : (q.push cd).WF where
  counter := by
    rw [PcmQueue.push]
    dsimp only
    rw [h.counter, List.map_append, List.sum_append, List.map_singleton, List.sum_singleton]
    omega
  cursor := by
    rcases q with ⟨_ | ⟨first, queue⟩, i, n⟩
    · intro cd' _
      obtain ⟨rfl, -⟩ : i = 0 ∧ n = 0 := h.atRest rfl
      exact cd'.pos
    · exact h.cursor
  atRest := by
    intro hnil
    simp [PcmQueue.push] at hnil

end WF

/-! ## What the operations do -/

theorem frames_push (h : q.WF) (cd : PcmChunk α) : (q.push cd).frames = q.frames ++ cd.frames := by
  rw [frames, frames, push]
  dsimp only
  rw [List.flatMap_append, List.drop_append_of_le_length h.frameIdx_le]
  simp

/-- The loop takes frames from the front, as many as it is asked for. -/
theorem dropOldest_spec {drop : Int} (h : WF ⟨queue, i, n⟩) (hpos : 0 ≤ drop) (hle : drop ≤ n) :
    frames ⟨queue, i, n⟩ = (dropOldest queue i n drop).1 ++ (dropOldest queue i n drop).2.frames
      ∧ (dropOldest queue i n drop).2.WF
      ∧ (dropOldest queue i n drop).2.queuedFrames = n - drop := by
  induction queue generalizing i n drop with
  | nil =>
      obtain ⟨-, rfl⟩ := h.atRest rfl
      refine ⟨rfl, h, ?_⟩
      rw [dropOldest]
      dsimp only
      omega
  | cons cd queue ih =>
      have hi : i < cd.length := h.cursor cd rfl
      have hn : n = ((cd :: queue).map PcmChunk.length).sum - (i : Int) := h.counter
      rw [List.map_cons, List.sum_cons, Nat.cast_add] at hn
      rw [dropOldest]
      dsimp only
      split_ifs with hdone havail
      · refine ⟨rfl, h, ?_⟩
        dsimp only
        omega
      · -- the rest of the chunk goes
        obtain ⟨hframes, hwf, hcount⟩ := ih
          (wf_at_start (show n - ((cd.length : Int) - i) = _ by omega))
          (show 0 ≤ drop - ((cd.length : Int) - i) by omega) (by omega)
        refine ⟨?_, hwf, ?_⟩
        · rw [frames_cons hi.le, List.append_assoc, ← hframes, frames, List.drop_zero]
        · dsimp only
          omega
      · -- the cursor moves inside the chunk
        have hmoved : i + drop.toNat < cd.length := by omega
        refine ⟨?_, wf_cons hmoved ?_, rfl⟩
        · rw [frames_cons hi.le, frames_cons hmoved.le, ← List.append_assoc, ← List.drop_drop,
            List.take_append_drop]
        · rw [List.map_cons, List.sum_cons]
          omega

/-- A pull takes the first frame. -/
theorem pullSourceFrame_pulled {ops : SampleOps α} {channels : Nat} {dst dst' frame : List α}
    {q' : PcmQueue α} (h : q.WF)
    (hpull : q.pullSourceFrame ops channels dst = .pulled dst' frame q') :
    q.frames = frame :: q'.frames ∧ q'.WF := by
  rcases q with ⟨_ | ⟨cd, queue⟩, i, n⟩
  · cases hpull
  · have hi : i < cd.length := h.cursor cd rfl
    have hn : n = ((cd :: queue).map PcmChunk.length).sum - (i : Int) := h.counter
    rw [List.map_cons, List.sum_cons, Nat.cast_add] at hn
    rw [pullSourceFrame] at hpull
    dsimp only at hpull
    split_ifs at hpull with hchannels hlast
    · cases hpull
      have hend : cd.frames.drop (i + 1) = [] := by
        rw [List.drop_eq_nil_iff, PcmChunk.length_frames]
        exact hlast
      refine ⟨?_, wf_at_start (by omega)⟩
      rw [frames_cons hi.le, cd.drop_frames hi, hend, frames, List.drop_zero]
      rfl
    · cases hpull
      have hnext : i + 1 < cd.length := by omega
      refine ⟨?_, wf_cons hnext ?_⟩
      · rw [frames_cons hi.le, frames_cons hnext.le, cd.drop_frames hi]
        rfl
      · rw [List.map_cons, List.sum_cons]
        omega

/-- What is stored are the samples of the frame, as many as there are channels
to store them in. -/
theorem pullSourceFrame_dst {ops : SampleOps α} {channels : Nat} {dst dst' frame : List α}
    {q' : PcmQueue α} (h : q.WF) (hdst : dst.length = channels)
    (hpull : q.pullSourceFrame ops channels dst = .pulled dst' frame q') :
    dst' = frame.take channels := by
  rcases q with ⟨_ | ⟨cd, queue⟩, i, n⟩
  · cases hpull
  · have hi : i < cd.length := h.cursor cd rfl
    rw [pullSourceFrame] at hpull
    dsimp only at hpull
    split_ifs at hpull with hchannels
    all_goals
      cases hpull
      rw [cd.frame_eq_map hi ops.nan, List.drop_eq_nil_of_le hdst.le, List.append_nil]

/-- From `q₀` the frames `pulled` were pulled, one after the other, and `q` is
left. -/
structure Drained (q₀ : PcmQueue α) (pulled : List (List α)) (q : PcmQueue α) : Prop where
  queue : q.WF
  frames : pulled ++ q.frames = q₀.frames

theorem WF.drained (h : q.WF) : q.Drained [] q := ⟨h, rfl⟩

theorem Drained.pull {ops : SampleOps α} {channels : Nat} {dst dst' frame : List α}
    {q₀ q' : PcmQueue α} {pulled : List (List α)} (h : q₀.Drained pulled q)
    (hpull : q.pullSourceFrame ops channels dst = .pulled dst' frame q') :
    q₀.Drained (pulled ++ [frame]) q' := by
  obtain ⟨hfront, hwf⟩ := pullSourceFrame_pulled h.queue hpull
  refine ⟨hwf, ?_⟩
  rw [List.append_assoc, List.singleton_append, ← hfront, h.frames]

end PcmQueue

end WasmRdp
