import WasmRdp.DownloadSize

/-!
# The end of a download

One download, from the answer to its SIZE request on. Every response to a
RANGE request is followed by the next request until all bytes are there, so
that the download ends when each response brings a byte more; nothing in the
backend asks that it does. While it waits for a response, the backend may do
anything else that leaves this transfer alone.

A `OneDownload` follows the transfer from one stream id to the next
(`placeAfter`) and counts the responses. `Inv` says that the transfer holds
fewer bytes than the file has and, unless it has stalled, one for each
response at least; so after as many responses as the file has bytes it has
ended, or it has stalled (`Inv.ends_iff`).

A response does one of two things (`requestFileRange_cases`): the transfer has
ended, or goes on with all the bytes that it now has. It stalls exactly when
the response was empty (`step_response`). Events that are not about this
transfer leave it under its stream id, which is all that is asked of them.
`always_ends_iff` states both halves: that the download ends in time, and that
each response brings it forward.
-/

namespace WasmRdp

open WasmCliprdrBackend

structure OneDownload where
  backend : WasmCliprdrBackend
  /-- The stream id that the transfer is under, while it lasts. -/
  place : Option UInt32
  /-- The responses that the transfer has had. -/
  responses : Nat
  /-- A response has neither ended the transfer nor brought it a byte. -/
  stalled : Bool

inductive DownloadEvent where
  | response (data : List UInt8)
  /-- What else the backend does. -/
  | meanwhile (backend : WasmCliprdrBackend)

/-- Where a transfer is after a response to it: under its stream id still, or
under that of the request that was sent. -/
def WasmCliprdrBackend.placeAfter (b b' : WasmCliprdrBackend) (streamId : UInt32) :
    Option UInt32 :=
  if (b'.fileTransfers.get streamId).isSome then some streamId
  else (b'.requests.drop b.requests.length).head?.map (·.streamId)

namespace OneDownload

/-- The SIZE request under the stream id is answered. -/
def start (codecs : ClipboardCodecs) (b : WasmCliprdrBackend) (streamId : UInt32)
    (data : List UInt8) : OneDownload :=
  let backend := b.onFileContentsResponse codecs ⟨streamId, false, data⟩
  { backend
    place := b.placeAfter backend streamId
    responses := 0
    stalled := false }

def step (codecs : ClipboardCodecs) (s : OneDownload) : DownloadEvent → OneDownload
  | .response data =>
      match s.place with
      | some streamId =>
          if (s.backend.held streamId).length + data.length < 2 ^ 64 then
            let backend := s.backend.onFileContentsResponse codecs ⟨streamId, false, data⟩
            let place := s.backend.placeAfter backend streamId
            { backend
              place
              responses := s.responses + 1
              stalled := s.stalled ||
                place.any fun id =>
                  (backend.held id).length ≤ (s.backend.held streamId).length }
          else s
      | none => s
  | .meanwhile backend =>
      if s.place.all fun streamId => backend.fileTransfers.get streamId =
          s.backend.fileTransfers.get streamId then { s with backend }
      else s

/-- Every response brings the transfer a byte or ends it, and it has ended
after as many responses as the file has bytes. -/
structure Ends (total : UInt64) (s : OneDownload) : Prop where
  progress : s.stalled = false
  bound : max total.toNat 1 ≤ s.responses → s.place = none

/-- No response to the transfer is empty. -/
def Fits (s : OneDownload) : DownloadEvent → Prop
  | .response data => ∀ streamId ∈ s.place,
      (s.backend.held streamId).length + data.length < 2 ^ 64 → data ≠ []
  | .meanwhile _ => True

/-! ## The invariant -/

/-- The transfer holds fewer bytes than the file has, and unless it has
stalled one for each response at least. -/
def Inv (total : UInt64) (s : OneDownload) : Prop :=
  ∀ streamId ∈ s.place, ∃ fileIndex name data dataId,
    s.backend.fileTransfers.get streamId =
      some (.awaitingData fileIndex name total data dataId) ∧
    data.length < total.toNat ∧ (s.stalled = false → s.responses ≤ data.length)

theorem Inv.ends_iff {total : UInt64} {s : OneDownload} (h : s.Inv total) :
    s.Ends total ↔ s.stalled = false := by
  refine ⟨Ends.progress, fun hprogress => ⟨hprogress, fun hbound => ?_⟩⟩
  cases hplace : s.place with
  | none => rfl
  | some streamId =>
      obtain ⟨_, _, _, _, -, hless, hcount⟩ := h streamId hplace
      have hcount' := hcount hprogress
      omega

/-- After a response the transfer has ended, or goes on with all the bytes. -/
theorem requestFileRange_cases (b : WasmCliprdrBackend) (streamId : UInt32) (fileIndex : Int32)
    (name : String) (total : UInt64) {data : List UInt8} (dataId : Option UInt32)
    (hdata : data.length < 2 ^ 64) :
    let b' := (b.removed streamId).requestFileRange fileIndex name total data dataId
    (total.toNat ≤ data.length ∧ b.placeAfter b' streamId = none) ∨
      ∃ id ∈ b.placeAfter b' streamId, data.length < total.toNat ∧
        b'.fileTransfers.get id = some (.awaitingData fileIndex name total data dataId) := by
  dsimp only
  rw [requestFileRange_eq]
  have hzero := nextChunk_eq_zero_iff total hdata
  have hgone : (b.removed streamId).fileTransfers.get streamId = none := by
    rw [removed, InsertionMap.get_delete, if_pos rfl]
  split
  · rename_i hchunk
    left
    refine ⟨hzero.mp hchunk, ?_⟩
    have hnone : ¬ (((b.removed streamId).call (.downloadFile name data)).fileTransfers.get
        streamId).isSome := by
      rw [call, hgone]
      exact Bool.false_ne_true
    have hrequests : (b.removed streamId).requests = b.requests := rfl
    rw [placeAfter, if_neg hnone, requests_call, hrequests, List.drop_length]
    rfl
  · rename_i hchunk
    right
    rw [hzero, not_le] at hchunk
    refine ⟨b.nextStreamId, ?_, hchunk, InsertionMap.get_set_self ..⟩
    have hrequests : (b.removed streamId).requests = b.requests := rfl
    rw [placeAfter]
    split
    · rename_i hsome
      rw [issue] at hsome
      dsimp only at hsome
      rw [InsertionMap.get_set] at hsome
      split at hsome
      · rename_i hsame
        exact congrArg some hsame
      · rw [hgone] at hsome
        cases hsome
    · rw [requests_issue, hrequests, List.drop_left]
      rfl

section

variable {codecs : ClipboardCodecs} {total : UInt64}

theorem inv_start {b : WasmCliprdrBackend} {streamId : UInt32} {data : List UInt8}
    {fileIndex : Int32} {name : String} {dataId : Option UInt32}
    (hget : b.fileTransfers.get streamId = some (.awaitingSize fileIndex name dataId))
    (htotal : codecs.dataAsSize data = some total) : (start codecs b streamId data).Inv total := by
  have hnothing : ([] : List UInt8).length < 2 ^ 64 := Nat.two_pow_pos 64
  intro id hid
  rw [start, onFileContentsResponse_size _ hget htotal] at hid ⊢
  obtain ⟨-, hnone⟩ | ⟨id', hplace, hless, hget'⟩ :=
    requestFileRange_cases b streamId fileIndex name total dataId hnothing
  · cases hid.symm.trans hnone
  · obtain rfl : id' = id := Option.some.inj (hplace.symm.trans hid)
    exact ⟨fileIndex, name, [], dataId, hget', hless, fun _ => le_rfl⟩

section

variable {s : OneDownload} {streamId : UInt32} {fileIndex : Int32} {name : String}
  {data new : List UInt8} {dataId : Option UInt32}

theorem step_outOfMemory (hplace : s.place = some streamId)
    (hfull : ¬ (s.backend.held streamId).length + new.length < 2 ^ 64) :
    s.step codecs (.response new) = s := by
  rw [step, hplace]
  exact if_neg hfull

/-- The bytes are appended, and the rest is asked for. -/
theorem step_data (hplace : s.place = some streamId)
    (hget : s.backend.fileTransfers.get streamId =
      some (.awaitingData fileIndex name total data dataId))
    (hroom : (s.backend.held streamId).length + new.length < 2 ^ 64) :
    let b' :=
      (s.backend.removed streamId).requestFileRange fileIndex name total (data ++ new) dataId
    let place := s.backend.placeAfter b' streamId
    s.step codecs (.response new) =
      ⟨b', place, s.responses + 1,
        s.stalled || place.any fun id => (b'.held id).length ≤ data.length⟩ := by
  have hheld : s.backend.held streamId = data := by
    rw [held, hget]
  rw [step, hplace]
  dsimp only
  rw [if_pos hroom, onFileContentsResponse_data _ codecs new hget, hheld]

theorem fits_response_iff (hplace : s.place = some streamId)
    (hroom : (s.backend.held streamId).length + new.length < 2 ^ 64) :
    s.Fits (.response new) ↔ new ≠ [] := by
  constructor
  · intro hall
    exact hall streamId hplace hroom
  · intro hne _ _ _
    exact hne

end

/-- A response to the transfer: the invariant is kept, and the transfer
stalls exactly when the response is empty. -/
theorem step_response {s : OneDownload} (h : s.Inv total) (new : List UInt8) :
    (s.step codecs (.response new)).Inv total ∧ (s.stalled = false →
      ((s.step codecs (.response new)).stalled = false ↔ s.Fits (.response new))) := by
  cases hplace : s.place with
  | none =>
      rw [step, hplace]
      refine ⟨h, fun hprogress => iff_of_true hprogress fun id hid => ?_⟩
      cases hplace.symm.trans hid
  | some streamId =>
      obtain ⟨fileIndex, name, data, dataId, hget, hless, hcount⟩ := h streamId hplace
      by_cases hroom : (s.backend.held streamId).length + new.length < 2 ^ 64
      swap
      · rw [step_outOfMemory hplace hroom]
        refine ⟨h, fun hprogress => iff_of_true hprogress fun id hid hfits => ?_⟩
        obtain rfl : streamId = id := Option.some.inj (hplace.symm.trans hid)
        exact absurd hfits hroom
      rw [step_data hplace hget hroom, fits_response_iff hplace hroom]
      have hlength : (data ++ new).length < 2 ^ 64 := by
        rw [held, hget] at hroom
        rw [List.length_append]
        exact hroom
      obtain ⟨hfull, hnone⟩ | ⟨id, hid, hmore, hget'⟩ :=
        requestFileRange_cases s.backend streamId fileIndex name total dataId hlength
      · -- the last byte is there
        rw [hnone]
        refine ⟨by simp [Inv], fun hprogress => ?_⟩
        rw [hprogress]
        refine iff_of_true rfl fun hnil => ?_
        rw [hnil, List.append_nil] at hfull
        omega
      · have hheld : (((s.backend.removed streamId).requestFileRange fileIndex name total
            (data ++ new) dataId).held id).length = data.length + new.length := by
          rw [held, hget', List.length_append]
        rw [Option.mem_def.mp hid, Option.any_some, hheld]
        constructor
        · intro id' hid'
          obtain rfl : id = id' := Option.some.inj hid'
          refine ⟨fileIndex, name, data ++ new, dataId, hget', hmore, fun hprogress => ?_⟩
          rw [Bool.or_eq_false_iff, decide_eq_false_iff_not] at hprogress
          have hcount' := hcount hprogress.1
          rw [List.length_append]
          dsimp only
          omega
        · intro hprogress
          rw [hprogress, Bool.false_or, decide_eq_false_iff_not, ne_eq,
            ← List.length_eq_zero_iff]
          omega

theorem step_spec {s : OneDownload} (h : s.Inv total) (e : DownloadEvent) :
    (s.step codecs e).Inv total ∧ (s.stalled = false →
      ((s.step codecs e).stalled = false ↔ s.Fits e)) := by
  cases e with
  | response data => exact step_response h data
  | meanwhile backend =>
      rw [step]
      split
      · rename_i hsame
        refine ⟨fun id hid => ?_, fun hprogress => iff_of_true hprogress trivial⟩
        have hkept := of_decide_eq_true ((Option.all_eq_true _ _).mp hsame id hid)
        rw [hkept]
        exact h id hid
      · exact ⟨h, fun hprogress => iff_of_true hprogress trivial⟩

end

/-- A download ends in time in a whole run, and each response brings it
forward, exactly when no response to it is empty. -/
theorem always_ends_iff (codecs : ClipboardCodecs) {b : WasmCliprdrBackend} {streamId : UInt32}
    {data : List UInt8} {fileIndex : Int32} {name : String} {dataId : Option UInt32}
    {total : UInt64}
    (hget : b.fileTransfers.get streamId = some (.awaitingSize fileIndex name dataId))
    (htotal : codecs.dataAsSize data = some total) (es : List DownloadEvent) :
    Runs.Always (step codecs) (Ends total) (start codecs b streamId data) es ↔
      Runs.Each (step codecs) Fits (start codecs b streamId data) es := by
  have hinv : ∀ s : OneDownload, ∀ e ∈ es, s.Inv total → (s.step codecs e).Inv total :=
    fun _ e _ h => (step_spec h e).1
  have hstep : ∀ s : OneDownload, ∀ e ∈ es, s.Inv total → s.Ends total →
      ((s.step codecs e).Ends total ↔ s.Fits e) := by
    intro s e _ h hends
    rw [(step_spec h e).1.ends_iff]
    exact (step_spec h e).2 hends.progress
  have hstart := inv_start hget htotal
  exact Runs.always_iff_each hinv hstep hstart (hstart.ends_iff.mpr rfl)

/-- A backend that has asked for the size of a file. -/
def oneAsked : WasmCliprdrBackend :=
  (WasmCliprdrBackend.new true true).onRemoteFileList [⟨"a"⟩] none

/-- The answer is: one byte. -/
def oneByte : List UInt8 := [1, 0, 0, 0, 0, 0, 0, 0]

theorem always_ends_iff_oneByte :
    Runs.Always (step SizedRun.sizeCodecs) (Ends 1)
        (start SizedRun.sizeCodecs oneAsked 1 oneByte) [.response [7]] ↔
      Runs.Each (step SizedRun.sizeCodecs) Fits
        (start SizedRun.sizeCodecs oneAsked 1 oneByte) [.response [7]] :=
  @always_ends_iff SizedRun.sizeCodecs oneAsked 1 oneByte 0 "a" none 1 (by decide) (by decide) _

/-- The file has been cut short, and there is nothing to send. -/
theorem not_always_ends : ¬ ∀ (codecs : ClipboardCodecs) (b : WasmCliprdrBackend)
    (streamId : UInt32) (data : List UInt8) (fileIndex : Int32) (name : String)
    (dataId : Option UInt32) (total : UInt64),
    b.fileTransfers.get streamId = some (.awaitingSize fileIndex name dataId) →
    codecs.dataAsSize data = some total → ∀ es : List DownloadEvent,
      Runs.Always (step codecs) (Ends total) (start codecs b streamId data) es := by
  intro h
  have hlast := h SizedRun.sizeCodecs oneAsked 1 oneByte 0 "a" none 1 (by decide) (by decide)
    [.response []] [.response []] (List.prefix_refl _)
  exact absurd hlast.progress (by decide)

end OneDownload

end WasmRdp
