import WasmRdp.AudioWorklet

/-!
# The audio worklet, with notes

The worklet with notes of what happens on the way: the messages, the pulls
that find no frame, where the interpolator was primed, and each frame of the
output. Like the worklet itself it is over any rounding of its numbers, so
that it runs on exact rationals as well. Without the notes it is the worklet,
round by round (`Play.process_toRender`), and with the rounding of a double
its runs are those of `AudioRun` (`Playback.step_fl`).

A note is added where the source does the thing that it tells of, and no
decision looks at a note. A frame that is noted has the samples with which it
stands in the output: what a call has noted are the first frames of its output
when it ends (`Play.process_shown`), since a frame is written once and only
what is behind it changes later.

`Ensures` is the rule for the loops of a call with the two ways they end in
mind: one thing holds while the loop goes on, another when the call has ended
early. `Ensures.range` is the loop over the frames of the output.
-/

namespace WasmRdp

open Binary64

/-! ## Notes -/

/-- What happens in a run. -/
inductive Note (α : Type) where
  | pcm (cd : PcmChunk α)
  | reset
  /-- `catchUp` drops frames. -/
  | dropped
  /-- `pullSourceFrame` finds no frame. -/
  | starved
  /-- The interpolator is primed with two frames; the index is the first one's
  in what has arrived since the last reset. -/
  | primed (index : Nat)
  /-- A frame of the output is written, with a sample for each channel that
  is long enough. -/
  | frame (cur nxt : List α) (column : List (Option α))

/-- A call of `process`, with the number of frames that had left the queue
before it, and the notes so far. -/
structure Play (α : Type) extends Render α where
  gone : Nat
  notes : List (Note α)

namespace Round

variable {σ τ : Type}

def map (f : σ → τ) : Round σ → Round τ
  | .next s => .next (f s)
  | .stop s thrown => .stop (f s) thrown

theorem map_bind {f : σ → τ} {t : Round σ} {g : σ → Round σ} {g' : τ → Round τ}
    (hg : ∀ s, (g s).map f = g' (f s)) : (t.bind g).map f = (t.map f).bind g' := by
  cases t with
  | next s => exact hg s
  | stop s thrown => rfl

theorem map_foldl {ι : Type} {f : σ → τ} {g : ι → σ → Round σ} {g' : ι → τ → Round τ}
    (hg : ∀ i s, (g i s).map f = g' i (f s)) (is : List ι) (t : Round σ) :
    (is.foldl (fun t i => t.bind (g i)) t).map f
      = is.foldl (fun t i => t.bind (g' i)) (t.map f) := by
  induction is generalizing t with
  | nil => rfl
  | cons i is ih =>
      rw [List.foldl_cons, List.foldl_cons, ih, map_bind (hg i)]

/-- What holds if the loop goes on, and what holds if the call ends. -/
def Ensures (t : Round σ) (next : σ → Prop) (stop : σ → Bool → Prop) : Prop :=
  match t with
  | .next s => next s
  | .stop s thrown => stop s thrown

variable {p q : σ → Prop} {stop : σ → Bool → Prop} {t : Round σ}

theorem Ensures.bind {f : σ → Round σ} (ht : t.Ensures p stop)
    (hf : ∀ s, p s → (f s).Ensures q stop) : (t.bind f).Ensures q stop := by
  cases t with
  | next s => exact hf s ht
  | stop s thrown => exact ht

theorem Ensures.foldl {ι : Type} {f : ι → σ → Round σ} (hf : ∀ i s, p s → (f i s).Ensures p stop)
    (is : List ι) (ht : t.Ensures p stop) :
    (is.foldl (fun t i => t.bind (f i)) t).Ensures p stop := by
  induction is generalizing t with
  | nil => exact ht
  | cons i is ih => exact ih (ht.bind (hf i))

theorem Ensures.mono {stop' : σ → Bool → Prop} (ht : t.Ensures p stop)
    (hstop : ∀ s thrown, stop s thrown → stop' s thrown) : t.Ensures p stop' := by
  cases t with
  | next s => exact ht
  | stop s thrown => exact hstop s thrown ht

theorem Ensures.state (ht : t.Ensures p fun s _ => q s) (hq : ∀ s, p s → q s) : q t.state := by
  cases t with
  | next s => exact hq s ht
  | stop s thrown => exact ht

/-- A loop over the first indices. -/
theorem Ensures.range {p : Nat → σ → Prop} {f : Nat → σ → Round σ}
    (hf : ∀ i s, p i s → (f i s).Ensures (p (i + 1)) stop) (n : Nat) (ht : t.Ensures (p 0) stop) :
    ((List.range n).foldl (fun t i => t.bind (f i)) t).Ensures (p n) stop := by
  induction n with
  | zero => exact ht
  | succ n ih =>
      rw [List.range_succ, List.foldl_concat]
      exact ih.bind (hf n)

end Round

namespace Play

variable {α : Type} (rnd : ℚ → ℚ) (ops : SampleOps α)

/-- How many frames have left the queue since the last reset. -/
def index (s : Play α) : Nat := s.gone + s.pulled.length

/-- The same call, further on. -/
def onTo (s : Play α) (r : Render α) (notes : List (Note α)) : Play α :=
  { s with toRender := r, notes := s.notes ++ notes }

def prime (i : Nat) (s : Play α) : Round (Play α) :=
  match RdpAudioProcessor.prime ops i s.toRender with
  | .next r =>
      .next (s.onTo r
        (if s.proc.primed then []
        else if r.pulled.length = s.pulled.length + 2 then [.primed s.index]
        else [.starved]))
  | .stop r thrown => .stop (s.onTo r (if thrown then [] else [.starved])) thrown

def advance (s : Play α) : Round (Play α) :=
  match RdpAudioProcessor.advance rnd ops s.toRender with
  | .next r => .next (s.onTo r (if r.proc.primed then [] else [.starved]))
  | .stop r thrown => .stop (s.onTo r []) thrown

def writeFrame (i : Nat) (s : Play α) : Round (Play α) :=
  match RdpAudioProcessor.writeFrame rnd ops i s.toRender with
  | .next r => .next (s.onTo r [.frame r.proc.cur r.proc.nxt (r.out.map (·[i]?))])
  | .stop r thrown => .stop (s.onTo r []) thrown

def renderFrame (i : Nat) (s : Play α) : Round (Play α) :=
  ((prime ops i s).bind (advance rnd ops)).bind (writeFrame rnd ops i)

def process (s : Play α) (outputs : List (List (List α))) : Round (Play α) :=
  match outputs.headD [] with
  | [] => .next { s with out := [], pulled := [] }
  | first :: out =>
      (List.range first.length).foldl (fun t i => t.bind (renderFrame rnd ops i))
        (.next { s with out := first :: out, pulled := [] })

/-! ## Without the notes -/

theorem prime_toRender (i : Nat) (s : Play α) :
    (prime ops i s).map toRender = RdpAudioProcessor.prime ops i s.toRender := by
  rw [prime]
  cases RdpAudioProcessor.prime ops i s.toRender <;> rfl

theorem advance_toRender (s : Play α) :
    (advance rnd ops s).map toRender = RdpAudioProcessor.advance rnd ops s.toRender := by
  rw [advance]
  cases RdpAudioProcessor.advance rnd ops s.toRender <;> rfl

theorem writeFrame_toRender (i : Nat) (s : Play α) :
    (writeFrame rnd ops i s).map toRender = RdpAudioProcessor.writeFrame rnd ops i s.toRender := by
  rw [writeFrame]
  cases RdpAudioProcessor.writeFrame rnd ops i s.toRender <;> rfl

theorem renderFrame_toRender (i : Nat) (s : Play α) :
    (renderFrame rnd ops i s).map toRender =
      RdpAudioProcessor.renderFrame rnd ops i s.toRender := by
  rw [renderFrame, Round.map_bind (writeFrame_toRender rnd ops i),
    Round.map_bind (advance_toRender rnd ops), prime_toRender]
  rfl

theorem process_toRender (s : Play α) (outputs : List (List (List α))) :
    (process rnd ops s outputs).map toRender = s.proc.process rnd ops outputs := by
  rw [process, RdpAudioProcessor.process]
  cases outputs.headD [] with
  | nil => rfl
  | cons first out => exact Round.map_foldl (renderFrame_toRender rnd ops) _ _

/-! ## The columns of the output -/

/-- The frames of the output that are noted. -/
def columns (notes : List (Note α)) : List (List (Option α)) :=
  notes.filterMap fun
    | .frame _ _ column => some column
    | _ => none

/-- What a call has noted are the first `i` frames of its output. -/
def Shown (before : List (Note α)) (i : Nat) (s : Play α) : Prop :=
  ∃ new, s.notes = before ++ new ∧
    columns new = (List.range i).map fun k => s.out.map (·[k]?)

variable {before : List (Note α)} {i : Nat} {s : Play α}

/-- Notes without frames, and an output that differs from `i` on only. -/
theorem Shown.onTo (h : Shown before i s) {r : Render α} {notes : List (Note α)}
    (hnotes : columns notes = [])
    (hout : ∀ k < i, r.out.map (·[k]?) = s.out.map (·[k]?)) : Shown before i (s.onTo r notes) := by
  obtain ⟨new, hnew, hcolumns⟩ := h
  refine ⟨new ++ notes, ?_, ?_⟩
  · rw [Play.onTo, hnew, List.append_assoc]
  · rw [columns, List.filterMap_append]
    rw [columns] at hcolumns hnotes
    rw [hcolumns, hnotes, List.append_nil]
    refine List.map_congr_left fun k hk => (hout k (List.mem_range.mp hk)).symm

end Play

/-! ## Runs -/

/-- The worklet in a run, with the number of frames that have left the queue
since the last reset. A call that throws is the last one. -/
structure Playback (α : Type) where
  proc : RdpAudioProcessor α
  thrown : Bool
  gone : Nat
  notes : List (Note α)

namespace Playback

variable {α : Type} (rnd : ℚ → ℚ) (ops : SampleOps α)

def start (options : Option ProcessorOptions) (sampleRate : ℚ≥0) : Playback α where
  proc := .new rnd ops options sampleRate
  thrown := false
  gone := 0
  notes := []

def step (s : Playback α) : AudioEvent α → Playback α
  | .pcm cd =>
      let caught := s.proc.onPcm rnd cd
      let few := (s.proc.pcm.push cd).queuedFrames ≤ s.proc.maxFrames rnd
      { s with
        proc := caught.2
        gone := s.gone + caught.1.length
        notes := s.notes ++ .pcm cd :: if few then [] else [.dropped] }
  | .reset => { s with proc := s.proc.onReset, gone := 0, notes := s.notes ++ [.reset] }
  | .process outputs =>
      if s.thrown then s
      else
        match Play.process rnd ops ⟨⟨s.proc, [], []⟩, s.gone, s.notes⟩ outputs with
        | .next call => ⟨call.proc, false, call.index, call.notes⟩
        | .stop call thrown => ⟨call.proc, thrown, call.index, call.notes⟩

/-- With the rounding of a double, the worklet is the one of `AudioRun`, until
a call throws. -/
theorem step_fl (s : Playback α) (hs : s.thrown = false) (received : List (List α))
    (gone : List (Fate × List α)) (e : AudioEvent α) :
    (s.step fl ops e).proc = (AudioRun.step ops ⟨s.proc, received, gone⟩ e).proc := by
  cases e with
  | pcm cd => rfl
  | reset => rfl
  | process outputs =>
      have hcall := Play.process_toRender fl ops ⟨⟨s.proc, [], []⟩, s.gone, s.notes⟩ outputs
      rw [step, if_neg (by rw [hs]; exact Bool.false_ne_true)]
      rw [AudioRun.step, ← hcall]
      cases Play.process fl ops ⟨⟨s.proc, [], []⟩, s.gone, s.notes⟩ outputs <;> rfl

end Playback

end WasmRdp
