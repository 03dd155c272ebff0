import WasmRdp.Download
import WasmRdp.Lib.Runs

/-!
# The size of a download

A remote that puts whatever it likes in its file contents responses. A
`SizedRun` remembers, for every request without an answer, the size that the
remote has reported for the file, and for every file that was saved the size
that was reported for it.

A transfer knows that size, and holds less than that many bytes
(`SizedRun.Inv`). The bytes of a response are appended unread, so that the
file has its size exactly when the last response brought no more than was
missing (`SizedRun.always_rightSize_iff`).

The invariant does not depend on what the remote does, since the transfer's
own entry has the size and the backend asks for more only while less is there.
`Matches` relates a request to its transfer, by kind: a SIZE request has one
that waits for its size, a RANGE request one that has some bytes. `record`
notes what a call has asked and saved, and is taken apart as the call is
(`record_trans`), down to the single request and the single saved file
(`record_issue`, `record_download`).

A response is for a request that is waiting or for none, and then nothing
comes of it. `step_size` and `step_range` are the answers to the two kinds,
`step_removed` all responses after which nothing is asked or saved, and
`step_spec` has one step of the run.
-/

namespace WasmRdp

open WasmCliprdrBackend

/-! ## The next request -/

theorem WasmCliprdrBackend.nextChunk_eq_zero_iff (total : UInt64) {data : List UInt8}
    (hdata : data.length < 2 ^ 64) : nextChunk total data = 0 ↔ total.toNat ≤ data.length := by
  have hposition : (UInt64.ofNat data.length).toNat = data.length :=
    UInt64.toNat_ofNat_of_lt' hdata
  constructor
  · intro hzero
    by_contra hless
    have hle : data.length ≤ (List.replicate total.toNat (0 : UInt8)).length := by
      rw [List.length_replicate]
      omega
    have hlt : (List.replicate total.toNat (0 : UInt8)).length < 2 ^ 64 := by
      rw [List.length_replicate]
      exact total.toNat_lt
    have hchunk := toNat_nextChunk hle hlt
    rw [List.length_replicate, UInt64.ofNat_toNat, hzero, UInt32.toNat_zero] at hchunk
    omega
  · intro hle
    refine nextChunk_of_le ?_
    rw [UInt64.le_iff_toNat_le, hposition]
    exact hle

section

variable (b : WasmCliprdrBackend) (codecs : ClipboardCodecs) {streamId : UInt32}
  {data : List UInt8}

theorem WasmCliprdrBackend.onFileContentsResponse_unknown
    (hget : b.fileTransfers.get streamId = none) :
    b.onFileContentsResponse codecs ⟨streamId, false, data⟩ = b.removed streamId := by
  rw [onFileContentsResponse]
  dsimp only
  rw [if_neg Bool.false_ne_true, hget]
  rfl

/-- The answer to a SIZE request is no size. -/
theorem WasmCliprdrBackend.onFileContentsResponse_badSize {fileIndex : Int32} {name : String}
    {dataId : Option UInt32}
    (hget : b.fileTransfers.get streamId = some (.awaitingSize fileIndex name dataId))
    (hnone : codecs.dataAsSize data = none) :
    b.onFileContentsResponse codecs ⟨streamId, false, data⟩ = b.removed streamId := by
  rw [onFileContentsResponse]
  dsimp only
  rw [if_neg Bool.false_ne_true, hget]
  dsimp only
  rw [hnone]
  rfl

end

/-! ## Runs -/

/-- A request without an answer, and the size that the remote has reported
for its file. -/
structure OpenRequest where
  flags : FileContentsFlags
  reported : Option UInt64
  deriving DecidableEq

/-- A call of `download_file`, and the size that was reported for the file. -/
structure SavedFile where
  name : String
  bytes : List UInt8
  reported : Option UInt64
  deriving DecidableEq

structure SizedRun where
  backend : WasmCliprdrBackend
  /-- The requests without an answer, under their stream ids. -/
  asked : InsertionMap UInt32 OpenRequest
  saved : List SavedFile

inductive TransferEvent where
  | announce (files : List FileDescriptor) (clipDataId : Option UInt32)
  | response (r : FileContentsResponse)

namespace WasmCliprdrBackend

/-- The bytes that the transfer under a stream id holds. -/
def held (b : WasmCliprdrBackend) (streamId : UInt32) : List UInt8 :=
  match b.fileTransfers.get streamId with
  | some (.awaitingData _ _ _ data _) => data
  | _ => []

end WasmCliprdrBackend

namespace SizedRun

def start (enableText enableFile : Bool) : SizedRun where
  backend := .new enableText enableFile
  asked := .empty
  saved := []

/-- A call of the backend, for files of which the size is known or not. -/
def record (s : SizedRun) (backend : WasmCliprdrBackend) (size : Option UInt64) : SizedRun where
  backend
  asked := (backend.requests.drop s.backend.requests.length).foldl
    (fun asked q => asked.set q.streamId ⟨q.flags, size⟩) s.asked
  saved := s.saved ++ (backend.downloads.drop s.backend.downloads.length).map
    fun d => ⟨d.1, d.2, size⟩

/-- The size of the file that a response is about, as far as the remote has
reported it: in this response, if it was asked for the size. -/
def sizeAfter (codecs : ClipboardCodecs) (s : SizedRun) (r : FileContentsResponse) :
    Option UInt64 :=
  match s.asked.get r.streamId with
  | some o => if o.flags = .SIZE then codecs.dataAsSize r.data else o.reported
  | none => none

/-- The request is answered. -/
def answered (s : SizedRun) (streamId : UInt32) : SizedRun :=
  { s with asked := s.asked.delete streamId }

/-- A transfer holds its bytes in memory, where they have a `u64` length. -/
def step (codecs : ClipboardCodecs) (s : SizedRun) : TransferEvent → SizedRun
  | .announce files clipDataId =>
      s.record (s.backend.onRemoteFileList files clipDataId) none
  | .response r =>
      if (s.backend.held r.streamId).length + r.data.length < 2 ^ 64 then
        (s.answered r.streamId).record (s.backend.onFileContentsResponse codecs r)
          (s.sizeAfter codecs r)
      else s

/-- Every file that was saved has the size that was reported for it. -/
def RightSize (s : SizedRun) : Prop :=
  ∀ f ∈ s.saved, ∃ total ∈ f.reported, f.bytes.length = total.toNat

/-- A response brings no more bytes than are missing. -/
def Fits (s : SizedRun) : TransferEvent → Prop
  | .announce .. => True
  | .response r => r.isError = false →
      (s.backend.held r.streamId).length + r.data.length < 2 ^ 64 →
      ∀ fileIndex name total data dataId,
        s.backend.fileTransfers.get r.streamId =
          some (.awaitingData fileIndex name total data dataId) →
        data.length + r.data.length ≤ total.toNat

/-! ## The invariant -/

/-- A request, and the transfer that waits for its answer. -/
inductive Matches : OpenRequest → FileTransferState → Prop where
  | size {fileIndex : Int32} {name : String} {reported : Option UInt64} {dataId : Option UInt32} :
      Matches ⟨.SIZE, reported⟩ (.awaitingSize fileIndex name dataId)
  | range {fileIndex : Int32} {name : String} {total : UInt64} {data : List UInt8}
      {dataId : Option UInt32} (hless : data.length < total.toNat) :
      Matches ⟨.RANGE, some total⟩ (.awaitingData fileIndex name total data dataId)

def Inv (s : SizedRun) : Prop :=
  ∀ id st, s.backend.fileTransfers.get id = some st → ∃ o ∈ s.asked.get id, Matches o st

theorem inv_start (enableText enableFile : Bool) : (start enableText enableFile).Inv := nofun

section

variable {s : SizedRun} {size : Option UInt64}

/-- A call that neither asks nor saves. -/
theorem record_of_same {backend : WasmCliprdrBackend}
    (hrequests : backend.requests = s.backend.requests)
    (hdownloads : backend.downloads = s.backend.downloads) :
    s.record backend size = { s with backend } := by
  rw [record, hrequests, hdownloads, List.drop_length, List.drop_length]
  simp

theorem record_issue {state : FileTransferState} {request : UInt32 → FileContentsRequest}
    (hid : ∀ id, (request id).streamId = id) :
    s.record (s.backend.issue state request) size =
      { s with
        backend := s.backend.issue state request
        asked := s.asked.set s.backend.nextStreamId
          ⟨(request s.backend.nextStreamId).flags, size⟩ } := by
  rw [record, requests_issue, downloads_issue, List.drop_left, List.drop_length]
  simp [hid]

theorem record_download {name : String} {bytes : List UInt8} :
    s.record (s.backend.call (.downloadFile name bytes)) size =
      { s with
        backend := s.backend.call (.downloadFile name bytes)
        saved := s.saved ++ [⟨name, bytes, size⟩] } := by
  rw [record, requests_call, downloads_call, List.drop_left, List.drop_length]
  rfl

theorem inv_issue (h : s.Inv) {state : FileTransferState}
    {request : UInt32 → FileContentsRequest} (hid : ∀ id, (request id).streamId = id)
    (hmatches : ∀ id, Matches ⟨(request id).flags, size⟩ state) :
    (s.record (s.backend.issue state request) size).Inv := by
  rw [record_issue hid]
  intro id st hget
  have hget' : (s.backend.fileTransfers.set s.backend.nextStreamId state).get id = some st := hget
  rw [InsertionMap.get_set] at hget'
  dsimp only
  rw [InsertionMap.get_set]
  split
  · rename_i heq
    rw [if_pos heq, Option.some.injEq] at hget'
    subst hget'
    exact ⟨_, rfl, hmatches _⟩
  · rename_i hne
    rw [if_neg hne] at hget'
    exact h id st hget'

/-- `request_file_range` asks for what is missing, or saves the file; the
file then has its size if it was not given too much. -/
theorem record_requestFileRange (h : s.Inv) (fileIndex : Int32) (name : String)
    (total : UInt64) {data : List UInt8} (dataId : Option UInt32) (hdata : data.length < 2 ^ 64) :
    let s' := s.record (s.backend.requestFileRange fileIndex name total data dataId) (some total)
    s'.Inv ∧ (s'.RightSize ↔ s.RightSize ∧ data.length ≤ total.toNat) := by
  dsimp only
  rw [requestFileRange_eq]
  have hzero := nextChunk_eq_zero_iff total hdata
  split
  · rename_i hchunk
    rw [record_download]
    refine ⟨h, fun hsize => ⟨fun f hf => hsize f (List.mem_append_left _ hf), ?_⟩, ?_⟩
    · obtain ⟨reported, hreported, hlength⟩ := hsize ⟨name, data, some total⟩
        (List.mem_append_right _ (List.mem_singleton_self _))
      obtain rfl : total = reported := Option.some.inj hreported
      exact le_of_eq hlength
    · rintro ⟨hsaved, hle⟩ f hf
      obtain hf | hf := List.mem_append.mp hf
      · exact hsaved f hf
      · obtain rfl := List.mem_singleton.mp hf
        exact ⟨total, rfl, le_antisymm hle (hzero.mp hchunk)⟩
  · rename_i hchunk
    have hless : data.length < total.toNat := by
      rw [hzero] at hchunk
      exact not_le.mp hchunk
    refine ⟨inv_issue h (fun _ => rfl) fun _ => .range hless, ?_⟩
    rw [record_issue fun _ => rfl]
    exact (and_iff_left (le_of_lt hless)).symm

/-! ## Lists of files -/

/-- A call that is made of two. -/
theorem record_trans {b b' : WasmCliprdrBackend} (hrequests : s.backend.requests <+: b.requests)
    (hrequests' : b.requests <+: b'.requests) (hdownloads : s.backend.downloads <+: b.downloads)
    (hdownloads' : b.downloads <+: b'.downloads) :
    s.record b' size = (s.record b size).record b' size := by
  obtain ⟨new, hnew⟩ := hrequests
  obtain ⟨new', hnew'⟩ := hrequests'
  obtain ⟨files, hfiles⟩ := hdownloads
  obtain ⟨files', hfiles'⟩ := hdownloads'
  have hboth : b'.requests.drop s.backend.requests.length = new ++ new' := by
    rw [← hnew', ← hnew, List.append_assoc, List.drop_left]
  have hsecond : b'.requests.drop b.requests.length = new' := by
    rw [← hnew', List.drop_left]
  have hfilesBoth : b'.downloads.drop s.backend.downloads.length = files ++ files' := by
    rw [← hfiles', ← hfiles, List.append_assoc, List.drop_left]
  have hfilesSecond : b'.downloads.drop b.downloads.length = files' := by
    rw [← hfiles', List.drop_left]
  rw [record, record, record, hboth, hsecond, hfilesBoth, hfilesSecond, ← hnew, ← hfiles,
    List.drop_left, List.drop_left, List.foldl_append, List.map_append, List.append_assoc]

theorem inv_announce (h : s.Inv) (files : List (FileDescriptor × Nat)) (dataId : Option UInt32) :
    (s.record (s.backend.requestFileSizes files dataId) none).Inv ∧
      (s.record (s.backend.requestFileSizes files dataId) none).saved = s.saved := by
  induction files generalizing s with
  | nil =>
      have hnil : s.record (s.backend.requestFileSizes [] dataId) none = s :=
        record_of_same rfl rfl
      rw [hnil]
      exact ⟨h, rfl⟩
  | cons p files ih =>
      have hdownloads : ∀ (b : WasmCliprdrBackend) (files : List (FileDescriptor × Nat)),
          b.downloads <+: (b.requestFileSizes files dataId).downloads := by
        intro b files
        induction files generalizing b with
        | nil => exact List.prefix_refl _
        | cons p files ih => exact ih (b.requestFileSize (Int32.ofNat p.2) p.1.name dataId)
      set b := s.backend.requestFileSize (Int32.ofNat p.2) p.1.name dataId with hb
      rw [requestFileSize_eq] at hb
      have hissue : (s.record b none).Inv := by
        rw [hb]
        exact inv_issue h (fun _ => rfl) fun _ => .size
      have hsaved : (s.record b none).saved = s.saved := by
        rw [hb, record_issue fun _ => rfl]
      obtain ⟨new, hnew, -⟩ := b.requests_requestFileSizes files dataId
      have hone : s.backend.requests <+: b.requests := by
        rw [hb, requests_issue]
        exact List.prefix_append ..
      have hcons : s.backend.requestFileSizes (p :: files) dataId =
          b.requestFileSizes files dataId := rfl
      rw [hcons, record_trans hone (hnew ▸ List.prefix_append ..) (hb ▸ List.prefix_refl _)
        (hdownloads b files)]
      obtain ⟨hinv, hsame⟩ := ih hissue
      exact ⟨hinv, hsame.trans hsaved⟩

/-! ## Responses -/

/-- The request is answered, and its transfer taken out. -/
def closed (s : SizedRun) (streamId : UInt32) : SizedRun :=
  { s.answered streamId with backend := s.backend.removed streamId }

theorem inv_closed (h : s.Inv) (streamId : UInt32) : (s.closed streamId).Inv := by
  intro id st hget
  have hget' : (s.backend.fileTransfers.delete streamId).get id = some st := hget
  rw [InsertionMap.get_delete] at hget'
  split at hget'
  · cases hget'
  · rename_i hne
    obtain ⟨o, ho, hmatches⟩ := h id st hget'
    refine ⟨o, ?_, hmatches⟩
    change (s.asked.delete streamId).get id = some o
    rw [InsertionMap.get_delete, if_neg hne]
    exact ho

/-- A response that fits in memory. -/
theorem step_response {codecs : ClipboardCodecs} {r : FileContentsResponse}
    (hmemory : (s.backend.held r.streamId).length + r.data.length < 2 ^ 64) :
    s.step codecs (.response r) =
      (s.closed r.streamId).record (s.backend.onFileContentsResponse codecs r)
        (s.sizeAfter codecs r) := if_pos hmemory

/-- A response after which nothing is asked for or saved. -/
theorem step_removed (h : s.Inv) {codecs : ClipboardCodecs}
    {r : FileContentsResponse}
    (hmemory : (s.backend.held r.streamId).length + r.data.length < 2 ^ 64)
    (hremoved : s.backend.onFileContentsResponse codecs r = s.backend.removed r.streamId) :
    (s.step codecs (.response r)).Inv ∧
      ((s.step codecs (.response r)).RightSize ↔ s.RightSize) := by
  have hsame : (s.closed r.streamId).record (s.backend.removed r.streamId)
      (s.sizeAfter codecs r) = s.closed r.streamId := record_of_same rfl rfl
  rw [step_response hmemory, hremoved, hsame]
  exact ⟨inv_closed h r.streamId, Iff.rfl⟩

/-- The answer to a SIZE request. -/
theorem step_size (h : s.Inv) (codecs : ClipboardCodecs) {streamId : UInt32}
    {data : List UInt8} {fileIndex : Int32} {name : String} {dataId : Option UInt32}
    (hget : s.backend.fileTransfers.get streamId = some (.awaitingSize fileIndex name dataId))
    (hmemory : (s.backend.held streamId).length + data.length < 2 ^ 64) :
    (s.step codecs (.response ⟨streamId, false, data⟩)).Inv ∧
      ((s.step codecs (.response ⟨streamId, false, data⟩)).RightSize ↔ s.RightSize) := by
  cases htotal : codecs.dataAsSize data with
  | none =>
      exact step_removed h hmemory
        (s.backend.onFileContentsResponse_badSize codecs hget htotal)
  | some total =>
      obtain ⟨o, ho, hmatches⟩ := h streamId _ hget
      cases hmatches
      have hsize : s.sizeAfter codecs ⟨streamId, false, data⟩ = some total := by
        rw [sizeAfter, Option.mem_def.mp ho]
        exact htotal
      have hnothing : ([] : List UInt8).length < 2 ^ 64 := Nat.two_pow_pos 64
      obtain ⟨hinv, hiff⟩ :=
        record_requestFileRange (inv_closed h streamId) fileIndex name total dataId hnothing
      rw [step_response hmemory, hsize, onFileContentsResponse_size _ hget htotal]
      exact ⟨hinv, hiff.trans (and_iff_left (Nat.zero_le _))⟩

/-- The answer to a RANGE request. -/
theorem step_range (h : s.Inv) (codecs : ClipboardCodecs) {streamId : UInt32}
    {data : List UInt8} (new : List UInt8) {fileIndex : Int32} {name : String}
    {total : UInt64} {dataId : Option UInt32}
    (hget : s.backend.fileTransfers.get streamId =
      some (.awaitingData fileIndex name total data dataId))
    (hmemory : (s.backend.held streamId).length + new.length < 2 ^ 64) :
    (s.step codecs (.response ⟨streamId, false, new⟩)).Inv ∧
      ((s.step codecs (.response ⟨streamId, false, new⟩)).RightSize ↔
        s.RightSize ∧ data.length + new.length ≤ total.toNat) := by
  obtain ⟨o, ho, hmatches⟩ := h streamId _ hget
  cases hmatches
  have hflags : FileContentsFlags.RANGE ≠ FileContentsFlags.SIZE := by decide
  have hsize : s.sizeAfter codecs ⟨streamId, false, new⟩ = some total := by
    rw [sizeAfter, Option.mem_def.mp ho]
    exact if_neg hflags
  have hlength : (data ++ new).length < 2 ^ 64 := by
    rw [held, hget] at hmemory
    rw [List.length_append]
    exact hmemory
  rw [step_response hmemory, hsize, onFileContentsResponse_data _ codecs new hget,
    ← List.length_append]
  exact record_requestFileRange (inv_closed h streamId) fileIndex name total dataId hlength

/-- One step of the run. -/
theorem step_spec (codecs : ClipboardCodecs) (h : s.Inv) (e : TransferEvent) :
    (s.step codecs e).Inv ∧ ((s.step codecs e).RightSize ↔ s.RightSize ∧ s.Fits e) := by
  cases e with
  | announce files clipDataId =>
      obtain ⟨hinv, hsame⟩ := inv_announce h files.zipIdx clipDataId
      refine ⟨hinv, Iff.trans ?_ (and_iff_left trivial).symm⟩
      change (∀ f ∈ (s.record _ none).saved, _) ↔ _
      exact hsame ▸ Iff.rfl
  | response r =>
      obtain ⟨streamId, isError, new⟩ := r
      by_cases hmemory : (s.backend.held streamId).length + new.length < 2 ^ 64
      swap
      · have hstays : s.step codecs (.response ⟨streamId, isError, new⟩) = s := if_neg hmemory
        rw [hstays]
        exact ⟨h, (and_iff_left fun _ hfits => absurd hfits hmemory).symm⟩
      cases isError with
      | true =>
          obtain ⟨hinv, hiff⟩ :=
            step_removed h hmemory (onFileContentsResponse_error s.backend codecs streamId new)
          exact ⟨hinv, hiff.trans (and_iff_left nofun).symm⟩
      | false =>
          cases hget : s.backend.fileTransfers.get streamId with
          | none =>
              obtain ⟨hinv, hiff⟩ :=
                step_removed h hmemory (s.backend.onFileContentsResponse_unknown codecs hget)
              refine ⟨hinv, hiff.trans (and_iff_left fun _ _ _ _ _ _ _ hsome => ?_).symm⟩
              cases hget.symm.trans hsome
          | some st =>
              cases st with
              | awaitingSize fileIndex name dataId =>
                  obtain ⟨hinv, hiff⟩ := step_size h codecs hget hmemory
                  refine ⟨hinv, hiff.trans (and_iff_left fun _ _ _ _ _ _ _ hsome => ?_).symm⟩
                  cases hget.symm.trans hsome
              | awaitingData fileIndex name total data dataId =>
                  obtain ⟨hinv, hiff⟩ := step_range h codecs new hget hmemory
                  refine ⟨hinv, hiff.trans (and_congr_right fun _ =>
                    ⟨fun hle _ _ _ _ _ _ _ hsome => ?_, fun hfits => ?_⟩)⟩
                  · cases hget.symm.trans hsome
                    exact hle
                  · exact hfits rfl hmemory _ _ _ _ _ hget

end

/-- Every saved file of a run has the reported size exactly when no response
brings more than is missing. -/
theorem always_rightSize_iff (codecs : ClipboardCodecs) (enableText enableFile : Bool)
    (es : List TransferEvent) :
    Runs.Always (step codecs) RightSize (start enableText enableFile) es ↔
      Runs.Each (step codecs) Fits (start enableText enableFile) es := by
  have hinv : ∀ s : SizedRun, ∀ e ∈ es, s.Inv → (s.step codecs e).Inv :=
    fun _ e _ h => (step_spec codecs h e).1
  have hstep : ∀ s : SizedRun, ∀ e ∈ es, s.Inv → s.RightSize →
      ((s.step codecs e).RightSize ↔ s.Fits e) :=
    fun _ e _ h hs => (step_spec codecs h e).2.trans (and_iff_right hs)
  exact Runs.always_iff_each hinv hstep (inv_start enableText enableFile) nofun

/-- A size is eight bytes, the lowest first. -/
def sizeCodecs : ClipboardCodecs where
  dataAsSize data :=
    if data.length = 8 then some (UInt64.ofNat (ByteReader.fromLe data)) else none
  dibv5ToPng _ := none
  dibToPng _ := none

/-- A file of one byte, for which the remote sends two. -/
def twoForOne : List TransferEvent :=
  [.announce [⟨"a"⟩] none, .response ⟨1, false, [1, 0, 0, 0, 0, 0, 0, 0]⟩,
    .response ⟨2, false, [7, 7]⟩]

/-- The file is saved with both bytes. -/
theorem not_always_rightSize : ¬ ∀ (codecs : ClipboardCodecs) (enableText enableFile : Bool)
    (es : List TransferEvent),
    Runs.Always (step codecs) RightSize (start enableText enableFile) es := by
  intro h
  have hlast := h sizeCodecs true true twoForOne twoForOne (List.prefix_refl _)
  obtain ⟨total, htotal, hlength⟩ := hlast ⟨"a", [7, 7], some 1⟩ (by decide)
  obtain rfl : 1 = total := Option.some.inj htotal
  exact absurd hlength (by decide)

end SizedRun

end WasmRdp
