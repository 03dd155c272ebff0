import Mathlib.Data.List.Perm.Basic
import WasmRdp.Cliprdr

/-!
# Downloads

A remote that offers lists of files and answers the requests for their
contents, in any order, and the backend that puts the files together.

A `DownloadRun` knows the offered files, the requests that wait for an
answer, and the answers that were given. Which list a request is about is not
in the request: the run remembers it from the call that sent it. The
invariant (`DownloadRun.Inv`) relates every waiting request to the transfer
under its stream id; within a step one file is between two requests, and the
invariant is stated with that gap.

The remote answers truthfully (`Truthful`): with the file's size, with the
first bytes of what was asked for, at least one, or with an error. Lists come
at any time, and any waiting request may be answered next. There are fewer
requests than stream ids; the source begins again with the first one after
the last, whatever still waits under it.

An answer takes a request away, leaves its file in the gap and changes the
transfer (`Inv.close`); then the backend issues the next request, saves the
file, or gives it up, each of which fills the gap (`Inv.issue`,
`Inv.download`, `Inv.fail`). The bytes of a transfer are those that the remote
has sent for the file, so that the next request asks for what follows and the
last one completes it. `Reassembles` is what this means for the page, and
`reassembles_of_reachable` has it in every state of every run: a file that the
remote does not fail is saved once, under its own name and with its own
content.
-/

namespace WasmRdp

open WasmCliprdrBackend

/-! ## The remote -/

/-- The size of a file is a `u64`. -/
structure RemoteFile where
  name : String
  content : List UInt8
  length_lt : content.length < 2 ^ 64
  deriving DecidableEq

def RemoteFile.descriptor (f : RemoteFile) : FileDescriptor := ⟨f.name⟩

/-- The place of a file: the number of its list, and its index there. -/
structure FileKey where
  list : Nat
  index : Nat
  deriving DecidableEq

/-- The files of a list, with their places. -/
def placed (list : Nat) (fs : List RemoteFile) : List (FileKey × RemoteFile) :=
  fs.zipIdx.map fun p => (⟨list, p.2⟩, p.1)

structure Asked where
  list : Nat
  request : FileContentsRequest
  deriving DecidableEq

def Asked.file (a : Asked) : FileKey := ⟨a.list, a.request.index.toUInt32.toNat⟩

def Asked.streamId (a : Asked) : UInt32 := a.request.streamId

structure Answered where
  asked : Asked
  response : FileContentsResponse

/-- The answers of a remote that has the file: its size, part of what was
asked for, or an error. -/
inductive Truthful (codecs : ClipboardCodecs) (f : RemoteFile) (q : FileContentsRequest) :
    FileContentsResponse → Prop where
  | size {data : List UInt8} (hflags : q.flags = .SIZE)
      (hsize : codecs.dataAsSize data = some (UInt64.ofNat f.content.length)) :
      Truthful codecs f q ⟨q.streamId, false, data⟩
  | range {data : List UInt8} (hflags : q.flags = .RANGE) (hne : data ≠ [])
      (hpre : data <+: (f.content.drop q.position.toNat).take q.requestedSize.toNat) :
      Truthful codecs f q ⟨q.streamId, false, data⟩
  | error {data : List UInt8} : Truthful codecs f q ⟨q.streamId, true, data⟩

/-! ## What the backend has done -/

namespace WasmCliprdrBackend

/-- The requests sent so far. -/
def requests (b : WasmCliprdrBackend) : List FileContentsRequest :=
  b.tx.filterMap fun
    | .sendFileContentsRequest q => some q
    | _ => none

/-- The calls of `download_file` so far. -/
def downloads (b : WasmCliprdrBackend) : List (String × List UInt8) :=
  b.calls.filterMap fun
    | .downloadFile name bytes => some (name, bytes)
    | _ => none

/-- A request under the next stream id, with its transfer. -/
def issue (b : WasmCliprdrBackend) (state : FileTransferState)
    (request : UInt32 → FileContentsRequest) : WasmCliprdrBackend :=
  { b with
    tx := b.tx ++ [.sendFileContentsRequest (request b.nextStreamId)]
    nextStreamId := max (b.nextStreamId + 1) 1
    fileTransfers := b.fileTransfers.set b.nextStreamId state }

section

variable (b : WasmCliprdrBackend)

/-- The loop of `on_remote_file_list`, from one of its turns on. -/
def requestFileSizes (files : List (FileDescriptor × Nat)) (dataId : Option UInt32) :
    WasmCliprdrBackend :=
  files.foldl (fun b p => b.requestFileSize (Int32.ofNat p.2) p.1.name dataId) b

theorem requestFileSize_eq (fileIndex : Int32) (name : String) (dataId : Option UInt32) :
    b.requestFileSize fileIndex name dataId =
      b.issue (.awaitingSize fileIndex name dataId)
        (⟨·, fileIndex, .SIZE, 0, 8, dataId⟩) := rfl

@[simp] theorem requests_issue (state : FileTransferState)
    (request : UInt32 → FileContentsRequest) :
    (b.issue state request).requests = b.requests ++ [request b.nextStreamId] := by
  rw [issue, requests, List.filterMap_append]
  rfl

@[simp] theorem downloads_issue (state : FileTransferState)
    (request : UInt32 → FileContentsRequest) :
    (b.issue state request).downloads = b.downloads := rfl

@[simp] theorem requests_call (c : ClipboardCall) : (b.call c).requests = b.requests := rfl

@[simp] theorem downloads_call (name : String) (bytes : List UInt8) :
    (b.call (.downloadFile name bytes)).downloads = b.downloads ++ [(name, bytes)] := by
  rw [call, downloads, List.filterMap_append]
  rfl

theorem requests_requestFileSizes (files : List (FileDescriptor × Nat))
    (dataId : Option UInt32) : ∃ new,
      (b.requestFileSizes files dataId).requests = b.requests ++ new ∧
        new.length = files.length := by
  induction files generalizing b with
  | nil => exact ⟨[], (List.append_nil _).symm, rfl⟩
  | cons p files ih =>
      obtain ⟨new, hnew, hlength⟩ := ih (b.requestFileSize (Int32.ofNat p.2) p.1.name dataId)
      rw [requestFileSize_eq, requests_issue, List.append_assoc] at hnew
      refine ⟨_, hnew, ?_⟩
      rw [List.length_append, List.length_singleton, List.length_cons, hlength]
      omega

/-- What `request_file_range` asks for. -/
def nextChunk (total : UInt64) (data : List UInt8) : UInt32 :=
  let position := UInt64.ofNat data.length
  (min (if position ≤ total then total - position else 0) CHUNK_SIZE.toUInt64).toUInt32

theorem requestFileRange_eq (fileIndex : Int32) (name : String) (total : UInt64)
    (data : List UInt8) (dataId : Option UInt32) :
    b.requestFileRange fileIndex name total data dataId =
      if nextChunk total data = 0 then b.call (.downloadFile name data)
      else b.issue (.awaitingData fileIndex name total data dataId)
        (⟨·, fileIndex, .RANGE, UInt64.ofNat data.length, nextChunk total data, dataId⟩) := rfl

theorem toNat_nextChunk {data content : List UInt8} (hle : data.length ≤ content.length)
    (hcontent : content.length < 2 ^ 64) :
    (nextChunk (UInt64.ofNat content.length) data).toNat =
      min (content.length - data.length) 4194304 := by
  have hposition : (UInt64.ofNat data.length).toNat = data.length :=
    UInt64.toNat_ofNat_of_lt' (lt_of_le_of_lt hle hcontent)
  have htotal : (UInt64.ofNat content.length).toNat = content.length :=
    UInt64.toNat_ofNat_of_lt' hcontent
  have hle' : UInt64.ofNat data.length ≤ UInt64.ofNat content.length := by
    rw [UInt64.le_iff_toNat_le, hposition, htotal]
    exact hle
  have hsize : CHUNK_SIZE.toUInt64.toNat = 4194304 := by decide
  set remaining := UInt64.ofNat content.length - UInt64.ofNat data.length with hdef
  have hremaining : remaining.toNat = content.length - data.length := by
    rw [hdef, UInt64.toNat_sub_of_le _ _ hle', hposition, htotal]
  have hchunk : nextChunk (UInt64.ofNat content.length) data =
      (if remaining ≤ CHUNK_SIZE.toUInt64 then remaining
        else CHUNK_SIZE.toUInt64).toUInt32 := by
    rw [nextChunk, if_pos hle']
    rfl
  rw [hchunk, UInt64.toNat_toUInt32, ← hremaining]
  split
  · rename_i hsmall
    rw [UInt64.le_iff_toNat_le, hsize] at hsmall
    omega
  · rename_i hlarge
    rw [UInt64.le_iff_toNat_le, hsize] at hlarge
    omega

theorem requests_requestFileRange (fileIndex : Int32) (name : String) (total : UInt64)
    (data : List UInt8) (dataId : Option UInt32) :
    b.requests <+: (b.requestFileRange fileIndex name total data dataId).requests := by
  rw [requestFileRange_eq]
  split
  · exact List.prefix_refl _
  · rw [requests_issue]
    exact List.prefix_append ..

theorem nextChunk_of_le {total : UInt64} {data : List UInt8}
    (h : total ≤ UInt64.ofNat data.length) : nextChunk total data = 0 := by
  have hremaining : (if UInt64.ofNat data.length ≤ total then
      total - UInt64.ofNat data.length else 0) = 0 := by
    split
    · rename_i hge
      rw [UInt64.le_antisymm h hge, UInt64.sub_self]
    · rfl
  rw [nextChunk, hremaining]
  rfl

/-- The backend without the transfer that a response is for. -/
def removed (streamId : UInt32) : WasmCliprdrBackend :=
  { b with fileTransfers := b.fileTransfers.delete streamId }

theorem onFileContentsResponse_error (codecs : ClipboardCodecs) (streamId : UInt32)
    (data : List UInt8) :
    b.onFileContentsResponse codecs ⟨streamId, true, data⟩ = b.removed streamId := rfl

theorem onFileContentsResponse_size {codecs : ClipboardCodecs} {streamId : UInt32}
    {data : List UInt8} {fileIndex : Int32} {name : String} {dataId : Option UInt32}
    {total : UInt64}
    (hget : b.fileTransfers.get streamId = some (.awaitingSize fileIndex name dataId))
    (htotal : codecs.dataAsSize data = some total) :
    b.onFileContentsResponse codecs ⟨streamId, false, data⟩ =
      (b.removed streamId).requestFileRange fileIndex name total [] dataId := by
  rw [onFileContentsResponse]
  dsimp only
  rw [if_neg Bool.false_ne_true, hget]
  dsimp only
  rw [htotal]
  rfl

/-- Asking for what follows the last byte saves the file as well. -/
theorem onFileContentsResponse_data (codecs : ClipboardCodecs) (new : List UInt8)
    {streamId : UInt32} {data : List UInt8} {fileIndex : Int32} {name : String}
    {dataId : Option UInt32} {total : UInt64}
    (hget : b.fileTransfers.get streamId =
      some (.awaitingData fileIndex name total data dataId)) :
    b.onFileContentsResponse codecs ⟨streamId, false, new⟩ =
      (b.removed streamId).requestFileRange fileIndex name total (data ++ new) dataId := by
  rw [onFileContentsResponse]
  dsimp only
  rw [if_neg Bool.false_ne_true, hget]
  dsimp only
  split
  · rename_i hfull
    rw [requestFileRange_eq, if_pos (nextChunk_of_le hfull)]
    rfl
  · rfl

theorem requests_onFileContentsResponse (codecs : ClipboardCodecs)
    (response : FileContentsResponse) :
    b.requests <+: (b.onFileContentsResponse codecs response).requests := by
  have hremoved : ∀ fileTransfers,
      b.requests <+: ({ b with fileTransfers } : WasmCliprdrBackend).requests :=
    fun _ => List.prefix_refl _
  rw [onFileContentsResponse]
  dsimp only
  split
  · exact hremoved _
  split
  · split
    · exact (hremoved _).trans (requests_requestFileRange ..)
    · exact hremoved _
  · split
    · rw [requests_call]
      exact hremoved _
    · exact (hremoved _).trans (requests_requestFileRange ..)
  · exact hremoved _

end

end WasmCliprdrBackend

/-! ## Runs -/

structure DownloadRun where
  backend : WasmCliprdrBackend
  /-- How many lists were offered. -/
  lists : Nat
  files : List (FileKey × RemoteFile)
  /-- The requests without an answer. -/
  asked : List Asked
  answered : List Answered

namespace DownloadRun

def start (enableText enableFile : Bool) : DownloadRun where
  backend := .new enableText enableFile
  lists := 0
  files := []
  asked := []
  answered := []

/-- The backend after a call, and the requests that the call has sent. -/
def perform (r : DownloadRun) (list : Nat) (backend : WasmCliprdrBackend) : DownloadRun :=
  { r with
    backend
    asked := r.asked ++
      (backend.requests.drop r.backend.requests.length).map (⟨list, ·⟩) }

def announce (r : DownloadRun) (fs : List RemoteFile) (dataId : Option UInt32) :
    DownloadRun :=
  let r' : DownloadRun := { r with lists := r.lists + 1, files := r.files ++ placed r.lists fs }
  r'.perform r.lists
    (r.backend.onRemoteFileList (fs.map RemoteFile.descriptor) dataId)

def answer (codecs : ClipboardCodecs) (r : DownloadRun) (a : Asked)
    (response : FileContentsResponse) : DownloadRun :=
  let r' : DownloadRun := { r with
    asked := r.asked.erase a
    answered := r.answered ++ [⟨a, response⟩] }
  r'.perform a.list (r.backend.onFileContentsResponse codecs response)

/-- Lists come at any time, and any waiting request may be answered next. -/
inductive Reachable (codecs : ClipboardCodecs) : DownloadRun → Prop where
  | start (enableText enableFile : Bool) : Reachable codecs (start enableText enableFile)
  | announce {r : DownloadRun} (h : Reachable codecs r) (fs : List RemoteFile)
      (dataId : Option UInt32) : Reachable codecs (r.announce fs dataId)
  | answer {r : DownloadRun} (h : Reachable codecs r) {a : Asked} (ha : a ∈ r.asked)
      {f : RemoteFile} (hf : (a.file, f) ∈ r.files) {response : FileContentsResponse}
      (htruthful : Truthful codecs f a.request response) :
      Reachable codecs (r.answer codecs a response)

def Pending (r : DownloadRun) (k : FileKey) : Prop := k ∈ r.asked.map Asked.file

/-- A response about the file was an error. -/
def Failed (r : DownloadRun) (k : FileKey) : Prop :=
  ∃ x ∈ r.answered, x.asked.file = k ∧ x.response.isError

instance (r : DownloadRun) : DecidablePred r.Pending :=
  fun k => inferInstanceAs (Decidable (k ∈ r.asked.map Asked.file))

instance (r : DownloadRun) : DecidablePred r.Failed :=
  fun k => inferInstanceAs (Decidable (∃ x ∈ r.answered, x.asked.file = k ∧ x.response.isError))

/-- The bytes of the file that the remote has sent. -/
def received (r : DownloadRun) (k : FileKey) : List UInt8 :=
  (r.answered.filter fun x =>
    x.asked.file = k ∧ x.asked.request.flags = .RANGE ∧ !x.response.isError).flatMap
    (·.response.data)

/-- Name and content, as `download_file` gets them. -/
def saved (fs : List (FileKey × RemoteFile)) : List (String × List UInt8) :=
  fs.map fun e => (e.2.name, e.2.content)

/-- One transfer for each waiting request; a range request asks for what
follows the bytes that are there; and the files downloaded so far are those
with no waiting request and no error, each of them once. -/
structure Reassembles (r : DownloadRun) : Prop where
  nodup : (r.asked.map Asked.streamId).Nodup
  transfers : ∀ id, id ∈ r.backend.fileTransfers.keys ↔ id ∈ r.asked.map Asked.streamId
  position : ∀ a ∈ r.asked, a.request.flags = .RANGE →
    a.request.position.toNat = (r.received a.file).length
  downloads : r.backend.downloads.Perm
    (saved (r.files.filter fun e => ¬ r.Pending e.1 ∧ ¬ r.Failed e.1))
  complete : r.asked = [] →
    r.backend.downloads.Perm (saved (r.files.filter fun e => ¬ r.Failed e.1))

/-! ## The invariant -/

/-- A transfer that belongs to a request for the file, of which the remote
has sent the bytes `received`. -/
inductive Asks (f : RemoteFile) (received : List UInt8) (q : FileContentsRequest) :
    FileTransferState → Prop where
  | size (hflags : q.flags = .SIZE) (hreceived : received = []) :
      Asks f received q (.awaitingSize q.index f.name q.dataId)
  | range (hflags : q.flags = .RANGE) (hpre : received <+: f.content)
      (hlength : received.length < f.content.length)
      (hposition : q.position.toNat = received.length) :
      Asks f received q
        (.awaitingData q.index f.name (UInt64.ofNat f.content.length) received q.dataId)

/-- The invariant; `gap` is a file whose last answer is there and whose next
request is not. -/
structure Inv (gap : Option FileKey) (r : DownloadRun) : Prop where
  next : r.backend.nextStreamId.toNat = r.backend.requests.length + 1
  nodup : (r.asked.map Asked.streamId).Nodup
  transfers : ∀ id, id ∈ r.backend.fileTransfers.keys ↔ id ∈ r.asked.map Asked.streamId
  streamId_le : ∀ a ∈ r.asked, a.streamId.toNat ≤ r.backend.requests.length
  asks : ∀ a ∈ r.asked, ∃ f st, (a.file, f) ∈ r.files ∧
    r.backend.fileTransfers.get a.streamId = some st ∧
    Asks f (r.received a.file) a.request st
  nodup_asked : (r.asked.map Asked.file).Nodup
  nodup_files : (r.files.map Prod.fst).Nodup
  lists : ∀ e ∈ r.files, e.1.list < r.lists
  answered : ∀ x ∈ r.answered, x.asked.file ∈ r.files.map Prod.fst
  unfailed : ∀ a ∈ r.asked, ¬ r.Failed a.file
  downloads : r.backend.downloads.Perm (saved
    (r.files.filter fun e => (¬ r.Pending e.1 ∧ ¬ r.Failed e.1) ∧ some e.1 ≠ gap))

/-- A request for a file of a list, under the next stream id. -/
def issue (r : DownloadRun) (list : Nat) (state : FileTransferState)
    (request : UInt32 → FileContentsRequest) : DownloadRun :=
  { r with
    backend := r.backend.issue state request
    asked := r.asked ++ [⟨list, request r.backend.nextStreamId⟩] }

/-- An answer, before the backend has looked at it. -/
def close (r : DownloadRun) (a : Asked) (response : FileContentsResponse) : DownloadRun :=
  { r with
    backend := { r.backend with
      fileTransfers := r.backend.fileTransfers.delete a.streamId }
    asked := r.asked.erase a
    answered := r.answered ++ [⟨a, response⟩] }

def download (r : DownloadRun) (f : RemoteFile) : DownloadRun :=
  { r with backend := r.backend.call (.downloadFile f.name f.content) }

def place (r : DownloadRun) (k : FileKey) (f : RemoteFile) : DownloadRun :=
  { r with files := r.files ++ [(k, f)] }

theorem perform_eq {r : DownloadRun} {backend : WasmCliprdrBackend}
    {new : List FileContentsRequest}
    (h : backend.requests = r.backend.requests ++ new) (list : Nat) :
    r.perform list backend =
      { r with backend, asked := r.asked ++ new.map (⟨list, ·⟩) } := by
  rw [perform, h, List.drop_left]

theorem inv_start (enableText enableFile : Bool) :
    (start enableText enableFile).Inv none where
  next := rfl
  nodup := List.nodup_nil
  transfers := fun _ => Iff.rfl
  streamId_le := nofun
  asks := nofun
  nodup_asked := List.nodup_nil
  nodup_files := List.nodup_nil
  lists := nofun
  answered := nofun
  unfailed := nofun
  downloads := .nil

section

variable {r : DownloadRun} {gap : Option FileKey} {k : FileKey} {f : RemoteFile}

/-- A file is in the list of what is saved once its key is let in. -/
theorem perm_saved {fs : List (FileKey × RemoteFile)} (hnodup : (fs.map Prod.fst).Nodup)
    (hf : (k, f) ∈ fs) (p : FileKey → Prop) [DecidablePred p] (hk : p k) :
    (saved (fs.filter fun e => p e.1)).Perm
      (saved (fs.filter fun e => p e.1 ∧ some e.1 ≠ some k) ++ [(f.name, f.content)]) := by
  induction fs with
  | nil => cases hf
  | cons e fs ih =>
      rw [List.map_cons, List.nodup_cons] at hnodup
      rcases List.mem_cons.mp hf with rfl | hf
      · have hrest : ∀ e ∈ fs, (decide (p e.1 ∧ some e.1 ≠ some k) = true ↔
            decide (p e.1) = true) := by
          intro e he
          have hne : e.1 ≠ k := by
            intro heq
            have hmem : e.1 ∈ fs.map Prod.fst := List.mem_map_of_mem he
            rw [heq] at hmem
            exact hnodup.1 hmem
          simp [hne]
        rw [List.filter_cons_of_pos (by simpa using hk),
          List.filter_cons_of_neg (by simp), List.filter_congr fun e he =>
            Bool.eq_iff_iff.mpr (hrest e he)]
        exact (List.perm_append_singleton _ _).symm
      · have hne : e.1 ≠ k := by
          intro heq
          exact hnodup.1 (heq ▸ List.mem_map_of_mem (f := Prod.fst) hf)
        have ih := ih hnodup.2 hf
        by_cases he : p e.1
        · rw [List.filter_cons_of_pos (by simpa using he),
            List.filter_cons_of_pos (by simp [he, hne])]
          exact ih.cons _
        · rw [List.filter_cons_of_neg (by simpa using he),
            List.filter_cons_of_neg (by simp [he])]
          exact ih

theorem Inv.download (h : r.Inv (some k)) (hf : (k, f) ∈ r.files) (hpending : ¬ r.Pending k)
    (hfailed : ¬ r.Failed k) : (r.download f).Inv none := by
  have hnew := perm_saved h.nodup_files hf (fun k => ¬ r.Pending k ∧ ¬ r.Failed k)
    ⟨hpending, hfailed⟩
  have hdownloads : (r.download f).backend.downloads =
      r.backend.downloads ++ [(f.name, f.content)] := downloads_call ..
  have hsaved := (h.downloads.append_right [(f.name, f.content)]).trans hnew.symm
  rw [← hdownloads] at hsaved
  refine ⟨h.next, h.nodup, h.transfers, h.streamId_le, h.asks, h.nodup_asked,
    h.nodup_files, h.lists, h.answered, h.unfailed, ?_⟩
  refine hsaved.trans (.of_eq (congrArg saved (List.filter_congr fun e _ => ?_)))
  exact decide_eq_decide.mpr ⟨fun he => ⟨he, nofun⟩, And.left⟩

/-- A failed file has no next request. -/
theorem Inv.fail (h : r.Inv (some k)) (hfailed : r.Failed k) : r.Inv none := by
  refine ⟨h.next, h.nodup, h.transfers, h.streamId_le, h.asks, h.nodup_asked,
    h.nodup_files, h.lists, h.answered, h.unfailed, ?_⟩
  refine h.downloads.trans (.of_eq (congrArg saved (List.filter_congr fun e _ => ?_)))
  refine decide_eq_decide.mpr ⟨fun he => ⟨he.1, nofun⟩, fun he => ⟨he.1, ?_⟩⟩
  intro heq
  rw [Option.some.inj heq] at he
  exact he.1.2 hfailed

/-- The next stream id, while the ids have not run out. -/
theorem toNat_max_succ {id : UInt32} {n : Nat} (hid : id.toNat = n + 1)
    (hfew : n + 1 < 2 ^ 32 - 1) : (max (id + 1) 1).toNat = n + 2 := by
  have hsucc : (id + 1).toNat = n + 2 := by
    rw [UInt32.toNat_add, hid, UInt32.toNat_one]
    omega
  have hmax : max (id + 1) 1 = id + 1 := by
    refine if_neg fun hle => ?_
    rw [UInt32.le_iff_toNat_le, hsucc, UInt32.toNat_one] at hle
    omega
  rw [hmax, hsucc]

/-- The next stream id is new. -/
theorem Inv.streamId_ne {gap : Option FileKey} (h : r.Inv gap) {a : Asked} (ha : a ∈ r.asked) :
    a.streamId ≠ r.backend.nextStreamId := by
  intro heq
  have hle := h.streamId_le a ha
  rw [heq, h.next] at hle
  omega

section

variable {list : Nat} {state : FileTransferState} {request : UInt32 → FileContentsRequest}

theorem mem_asked_issue {a : Asked} : a ∈ (r.issue list state request).asked ↔
    a ∈ r.asked ∨ a = ⟨list, request r.backend.nextStreamId⟩ := by
  rw [DownloadRun.issue, List.mem_append, List.mem_singleton]

theorem pending_issue (hfile : ∀ id, Asked.file ⟨list, request id⟩ = k) (k' : FileKey) :
    (r.issue list state request).Pending k' ↔ r.Pending k' ∨ k' = k := by
  rw [Pending, DownloadRun.issue, List.map_append, List.map_singleton, hfile, List.mem_append,
    List.mem_singleton]
  rfl

/-- Every request, old or new, has its transfer. -/
theorem Inv.asks_issue {gap : Option FileKey} (h : r.Inv gap) (hf : (k, f) ∈ r.files)
    (hid : ∀ id, (request id).streamId = id) (hfile : ∀ id, Asked.file ⟨list, request id⟩ = k)
    (hasks : ∀ id, Asks f (r.received k) (request id) state) {a : Asked}
    (ha : a ∈ (r.issue list state request).asked) :
    ∃ f st, (a.file, f) ∈ r.files ∧
      (r.issue list state request).backend.fileTransfers.get a.streamId = some st ∧
      Asks f (r.received a.file) a.request st := by
  have hget : ∀ id', (r.issue list state request).backend.fileTransfers.get id' =
      if id' = r.backend.nextStreamId then some state else r.backend.fileTransfers.get id' :=
    fun id' => InsertionMap.get_set ..
  rcases mem_asked_issue.mp ha with ha | rfl
  · obtain ⟨f', st, hf', hst, hasks'⟩ := h.asks a ha
    refine ⟨f', st, hf', ?_, hasks'⟩
    rw [hget, if_neg (h.streamId_ne ha)]
    exact hst
  · refine ⟨f, state, ?_, ?_, ?_⟩
    · rw [hfile]
      exact hf
    · rw [hget, Asked.streamId, hid, if_pos rfl]
    · rw [hfile]
      exact hasks _

end

/-- The next request, for the file in the gap. -/
theorem Inv.issue (h : r.Inv (some k)) (hfew : r.backend.requests.length + 1 < 2 ^ 32 - 1)
    (hf : (k, f) ∈ r.files) (hpending : ¬ r.Pending k) (hfailed : ¬ r.Failed k) {list : Nat}
    {state : FileTransferState} {request : UInt32 → FileContentsRequest}
    (hid : ∀ id, (request id).streamId = id) (hfile : ∀ id, Asked.file ⟨list, request id⟩ = k)
    (hasks : ∀ id, Asks f (r.received k) (request id) state) :
    (r.issue list state request).Inv none := by
  set id := r.backend.nextStreamId with hnext
  have hidNat : id.toNat = r.backend.requests.length + 1 := h.next
  have hrequests : (r.issue list state request).backend.requests =
      r.backend.requests ++ [request id] := requests_issue ..
  have hlength : (r.issue list state request).backend.requests.length =
      r.backend.requests.length + 1 := by
    rw [hrequests, List.length_append, List.length_singleton]
  have hids : (r.issue list state request).asked.map Asked.streamId =
      r.asked.map Asked.streamId ++ [id] := by
    rw [DownloadRun.issue, List.map_append, List.map_singleton, Asked.streamId, hid]
  have hfiles : (r.issue list state request).asked.map Asked.file =
      r.asked.map Asked.file ++ [k] := by
    rw [DownloadRun.issue, List.map_append, List.map_singleton, hfile]
  have hnew : id ∉ r.asked.map Asked.streamId := by
    intro hmem
    obtain ⟨a, ha, heq⟩ := List.mem_map.mp hmem
    exact h.streamId_ne ha heq
  refine ⟨?_, ?_, ?_, ?_, fun a ha => h.asks_issue hf hid hfile hasks ha, ?_, h.nodup_files,
    h.lists, h.answered, ?_, ?_⟩
  · rw [hlength]
    exact toNat_max_succ hidNat hfew
  · rw [hids]
    exact h.nodup.append (List.nodup_singleton id) (by simpa using hnew)
  · intro id'
    rw [hids, List.mem_append, List.mem_singleton, ← h.transfers, or_comm]
    exact InsertionMap.mem_keys_set ..
  · intro a ha
    rw [hlength]
    rcases mem_asked_issue.mp ha with ha | rfl
    · have hle := h.streamId_le a ha
      omega
    · rw [Asked.streamId, hid]
      exact hidNat.le
  · rw [hfiles]
    exact h.nodup_asked.append (List.nodup_singleton k) (by simpa [Pending] using hpending)
  · intro a ha
    rcases mem_asked_issue.mp ha with ha | rfl
    · exact h.unfailed a ha
    · rw [hfile]
      exact hfailed
  · have hdownloads : (r.issue list state request).backend.downloads = r.backend.downloads :=
      downloads_issue ..
    rw [hdownloads]
    refine h.downloads.trans (.of_eq (congrArg saved (List.filter_congr fun e _ => ?_)))
    have hfailed' : (r.issue list state request).Failed e.1 ↔ r.Failed e.1 := Iff.rfl
    rw [decide_eq_decide, pending_issue hfile, hfailed']
    simp only [ne_eq, Option.some.injEq, reduceCtorEq, not_false_eq_true, and_true, not_or]
    tauto

/-! ## Answers and offers -/

theorem mem_map_erase {β : Type} {l : List Asked} {g : Asked → β} (hnodup : (l.map g).Nodup)
    {a : Asked} (ha : a ∈ l) (y : β) :
    y ∈ (l.erase a).map g ↔ y ≠ g a ∧ y ∈ l.map g := by
  have hmem : ∀ x, x ∈ l.erase a ↔ x ≠ a ∧ x ∈ l := fun x => hnodup.of_map.mem_erase_iff
  simp only [List.mem_map, hmem]
  constructor
  · rintro ⟨x, ⟨hne, hx⟩, rfl⟩
    exact ⟨fun heq => hne (List.inj_on_of_nodup_map hnodup hx ha heq), x, hx, rfl⟩
  · rintro ⟨hne, x, hx, rfl⟩
    exact ⟨x, ⟨fun heq => hne (heq ▸ rfl), hx⟩, rfl⟩

theorem failed_close (a : Asked) (response : FileContentsResponse) (k : FileKey) :
    (r.close a response).Failed k ↔ r.Failed k ∨ (a.file = k ∧ response.isError) := by
  simp only [Failed, close, List.mem_append, List.mem_singleton]
  constructor
  · rintro ⟨x, hx | rfl, hfailed⟩
    · exact .inl ⟨x, hx, hfailed⟩
    · exact .inr hfailed
  · rintro (⟨x, hx, hfailed⟩ | hfailed)
    · exact ⟨x, .inl hx, hfailed⟩
    · exact ⟨_, .inr rfl, hfailed⟩

theorem received_close_of_ne {a : Asked} (response : FileContentsResponse)
    (hk : a.file ≠ k) : (r.close a response).received k = r.received k := by
  rw [received, close, List.filter_append, List.filter_cons_of_neg (by simp [hk]),
    List.filter_nil, List.append_nil]
  rfl

theorem received_close (a : Asked) (response : FileContentsResponse) :
    (r.close a response).received a.file =
      r.received a.file ++
        if a.request.flags = .RANGE ∧ !response.isError then response.data else [] := by
  rw [received, close, List.filter_append, List.flatMap_append]
  congr 1
  split
  · rename_i h
    rw [List.filter_cons_of_pos (by simpa using h)]
    simp
  · rename_i h
    rw [List.filter_cons_of_neg (by simpa using h)]
    rfl

theorem Inv.close (h : r.Inv none) {a : Asked} (ha : a ∈ r.asked)
    (response : FileContentsResponse) : (r.close a response).Inv (some a.file) := by
  have hids := mem_map_erase h.nodup ha
  have hfiles := mem_map_erase h.nodup_asked ha
  have hasked : (r.close a response).asked = r.asked.erase a := rfl
  have hmem : ∀ x ∈ r.asked.erase a, x ∈ r.asked ∧ a.file ≠ x.file ∧ x.streamId ≠ a.streamId := by
    intro x hx
    refine ⟨List.mem_of_mem_erase hx, ?_, ?_⟩
    · exact fun heq => ((hfiles x.file).mp (List.mem_map_of_mem hx)).1 heq.symm
    · exact ((hids x.streamId).mp (List.mem_map_of_mem hx)).1
  refine ⟨h.next, ?_, ?_, ?_, ?_, ?_, h.nodup_files, h.lists, ?_, ?_, ?_⟩
  · exact h.nodup.sublist (List.erase_sublist.map _)
  · intro id
    rw [hasked, hids, ← h.transfers]
    exact InsertionMap.mem_keys_delete ..
  · intro x hx
    exact h.streamId_le x (hmem x hx).1
  · intro x hx
    obtain ⟨hx, hfile, hid⟩ := hmem x hx
    obtain ⟨f', st, hf', hst, hasks⟩ := h.asks x hx
    refine ⟨f', st, hf', ?_, ?_⟩
    · have hget : (r.close a response).backend.fileTransfers.get x.streamId =
          if x.streamId = a.streamId then none
          else r.backend.fileTransfers.get x.streamId := InsertionMap.get_delete ..
      rw [hget, if_neg hid]
      exact hst
    · rw [received_close_of_ne response hfile]
      exact hasks
  · exact h.nodup_asked.sublist (List.erase_sublist.map _)
  · intro x hx
    rcases List.mem_append.mp hx with hx | hx
    · exact h.answered x hx
    · rw [List.mem_singleton.mp hx]
      obtain ⟨f', st, hf', -⟩ := h.asks a ha
      exact List.mem_map_of_mem (f := Prod.fst) hf'
  · intro x hx
    obtain ⟨hx, hfile, -⟩ := hmem x hx
    rw [failed_close]
    rintro (hfailed | ⟨heq, -⟩)
    · exact h.unfailed x hx hfailed
    · exact hfile heq
  · refine h.downloads.trans (.of_eq (congrArg saved (List.filter_congr fun e _ => ?_)))
    have hpending : (r.close a response).Pending e.1 ↔ e.1 ≠ a.file ∧ r.Pending e.1 :=
      hfiles e.1
    have hself : r.Pending a.file := List.mem_map_of_mem ha
    rw [decide_eq_decide, hpending, failed_close]
    by_cases heq : e.1 = a.file
    · simp [heq, hself]
    · simp [heq, Ne.symm heq]

theorem Inv.pending_mem (h : r.Inv gap) (hk : r.Pending k) : k ∈ r.files.map Prod.fst := by
  obtain ⟨a, ha, rfl⟩ := List.mem_map.mp hk
  obtain ⟨f', st, hf', -⟩ := h.asks a ha
  exact List.mem_map_of_mem (f := Prod.fst) hf'

theorem Inv.failed_mem (h : r.Inv gap) (hk : r.Failed k) : k ∈ r.files.map Prod.fst := by
  obtain ⟨x, hx, rfl, -⟩ := hk
  exact h.answered x hx

theorem Inv.received_eq_nil (h : r.Inv gap) (hk : k ∉ r.files.map Prod.fst) :
    r.received k = [] := by
  have hnone : ∀ x ∈ r.answered, x.asked.file ≠ k := by
    rintro x hx rfl
    exact hk (h.answered x hx)
  rw [received, List.filter_eq_nil_iff.mpr]
  · rfl
  · intro x hx
    simp [hnone x hx]

theorem Inv.place (h : r.Inv none) (hk : k ∉ r.files.map Prod.fst) (hlist : k.list < r.lists)
    (f : RemoteFile) : (r.place k f).Inv (some k) := by
  have hfiles : (r.place k f).files = r.files ++ [(k, f)] := rfl
  have hkeys : (r.place k f).files.map Prod.fst = r.files.map Prod.fst ++ [k] := by
    rw [hfiles, List.map_append]
    rfl
  refine ⟨h.next, h.nodup, h.transfers, h.streamId_le, ?_, h.nodup_asked, ?_, ?_, ?_,
    h.unfailed, ?_⟩
  · intro a ha
    obtain ⟨f', st, hf', hst, hasks⟩ := h.asks a ha
    exact ⟨f', st, List.mem_append_left _ hf', hst, hasks⟩
  · rw [hkeys]
    exact h.nodup_files.append (List.nodup_singleton k) (by simpa using hk)
  · intro e he
    rw [hfiles, List.mem_append, List.mem_singleton] at he
    rcases he with he | rfl
    · exact h.lists e he
    · exact hlist
  · intro x hx
    rw [hkeys]
    exact List.mem_append_left _ (h.answered x hx)
  · refine h.downloads.trans (.of_eq (congrArg saved ?_))
    rw [hfiles, List.filter_append, List.filter_cons_of_neg (by simp), List.filter_nil,
      List.append_nil]
    refine List.filter_congr fun e he => decide_eq_decide.mpr (and_congr Iff.rfl ?_)
    have hne : e.1 ≠ k := by
      rintro rfl
      exact hk (List.mem_map_of_mem he)
    simp [hne]

/-- What the backend does with the file in the gap, once its answer is
taken. -/
theorem Inv.requestFileRange (h : r.Inv (some k)) (hf : (k, f) ∈ r.files)
    (hpending : ¬ r.Pending k) (hfailed : ¬ r.Failed k)
    (hpre : r.received k <+: f.content) {list : Nat} {fileIndex : Int32}
    (hkey : k = ⟨list, fileIndex.toUInt32.toNat⟩) {dataId : Option UInt32}
    {backend : WasmCliprdrBackend}
    (hbackend : backend = r.backend.requestFileRange fileIndex f.name
      (UInt64.ofNat f.content.length) (r.received k) dataId)
    (hfew : backend.requests.length < 2 ^ 32 - 1) : (r.perform list backend).Inv none := by
  rw [requestFileRange_eq] at hbackend
  split at hbackend
  · rename_i hchunk
    have hlength : (r.received k).length = f.content.length := by
      have hzero := toNat_nextChunk hpre.length_le f.length_lt
      rw [hchunk, UInt32.toNat_zero] at hzero
      have hle := hpre.length_le
      omega
    rw [hpre.eq_of_length hlength] at hbackend
    have hrequests : (r.backend.call (.downloadFile f.name f.content)).requests =
        r.backend.requests ++ [] := (List.append_nil _).symm
    have hrun : r.perform list backend = r.download f := by
      rw [hbackend, perform_eq hrequests, List.map_nil, List.append_nil]
      rfl
    rw [hrun]
    exact h.download hf hpending hfailed
  · rename_i hchunk
    have hlength : (r.received k).length < f.content.length := by
      have hle := hpre.length_le
      by_contra hge
      have hzero := toNat_nextChunk hle f.length_lt
      refine hchunk (UInt32.toNat_inj.mp ?_)
      rw [hzero, UInt32.toNat_zero]
      omega
    have hrun : r.perform list backend = r.issue list
        (.awaitingData fileIndex f.name (UInt64.ofNat f.content.length) (r.received k) dataId)
        (⟨·, fileIndex, .RANGE, UInt64.ofNat (r.received k).length,
          nextChunk (UInt64.ofNat f.content.length) (r.received k), dataId⟩) := by
      rw [hbackend, perform_eq (requests_issue ..)]
      rfl
    rw [hrun]
    rw [hbackend, requests_issue, List.length_append, List.length_singleton] at hfew
    refine h.issue hfew hf hpending hfailed (fun _ => rfl) (fun _ => hkey.symm) fun id => ?_
    refine Asks.range (q := ⟨id, fileIndex, _, _, _, dataId⟩) rfl hpre hlength ?_
    exact UInt64.toNat_ofNat_of_lt' (lt_trans hlength f.length_lt)

theorem not_pending_close (h : r.Inv none) {a : Asked} (ha : a ∈ r.asked)
    (response : FileContentsResponse) : ¬ (r.close a response).Pending a.file := by
  intro hpending
  exact ((mem_map_erase h.nodup_asked ha a.file).mp hpending).1 rfl

theorem inv_answer {codecs : ClipboardCodecs} (h : r.Inv none) {a : Asked} (ha : a ∈ r.asked)
    (hf : (a.file, f) ∈ r.files) {response : FileContentsResponse}
    (htruthful : Truthful codecs f a.request response)
    (hfew : (r.answer codecs a response).backend.requests.length < 2 ^ 32 - 1) :
    (r.answer codecs a response).Inv none := by
  obtain ⟨f', st, hf', hst, hasks⟩ := h.asks a ha
  have hsame : f' = f :=
    congrArg Prod.snd (List.inj_on_of_nodup_map h.nodup_files hf' hf rfl)
  subst hsame
  have hrun : r.answer codecs a response = (r.close a response).perform a.list
      (r.backend.onFileContentsResponse codecs response) := rfl
  have hbackend : (r.close a response).backend = r.backend.removed a.request.streamId := rfl
  have hclosed := h.close ha response
  have hpending := not_pending_close h ha response
  have hreceived := r.received_close a response
  have hunfailed : response.isError = false → ¬ (r.close a response).Failed a.file := by
    intro hok hfailed
    rcases (failed_close ..).mp hfailed with hold | ⟨-, hnew⟩
    · exact h.unfailed a ha hold
    · rw [hok] at hnew
      cases hnew
  have hkey : a.file = ⟨a.list, a.request.index.toUInt32.toNat⟩ := rfl
  rw [hrun]
  change (r.backend.onFileContentsResponse codecs response).requests.length < _ at hfew
  change r.backend.fileTransfers.get a.request.streamId = some st at hst
  cases htruthful with
  | @error data =>
      rw [onFileContentsResponse_error, ← hbackend, perform_eq (List.append_nil _).symm,
        List.map_nil, List.append_nil]
      exact hclosed.fail ((failed_close ..).mpr (.inr ⟨rfl, rfl⟩))
  | @size data hflags hsize =>
      cases hasks with
      | range hflags' => exact absurd (hflags.symm.trans hflags') (by decide)
      | size _ hnone =>
          have hnothing : (r.close a ⟨a.request.streamId, false, data⟩).received a.file = [] := by
            rw [hreceived, hnone, hflags]
            rfl
          have hnext := onFileContentsResponse_size r.backend hst hsize
          rw [← hnothing, ← hbackend] at hnext
          refine hclosed.requestFileRange hf hpending (hunfailed rfl) ?_ hkey hnext hfew
          rw [hnothing]
          exact List.nil_prefix
  | @range data hflags hne hdata =>
      cases hasks with
      | size hflags' => exact absurd (hflags.symm.trans hflags') (by decide)
      | range _ hpre hlength hposition =>
          have hmore : (r.close a ⟨a.request.streamId, false, data⟩).received a.file =
              r.received a.file ++ data := by
            rw [hreceived, if_pos ⟨hflags, rfl⟩]
          have hnext := onFileContentsResponse_data r.backend codecs data hst
          rw [← hmore, ← hbackend] at hnext
          refine hclosed.requestFileRange hf hpending (hunfailed rfl) ?_ hkey hnext hfew
          -- the answer goes on where the received bytes end
          have hdrop : data <+: f'.content.drop (r.received a.file).length := by
            rw [← hposition]
            exact hdata.trans (List.take_prefix ..)
          obtain ⟨rest, hrest⟩ := hpre
          rw [← hrest, List.drop_left] at hdrop
          rw [hmore, ← hrest]
          exact (List.prefix_append_right_inj _).mpr hdrop

/-- One turn of the loop of `on_remote_file_list`. -/
theorem Inv.offer (h : r.Inv none) {list index : Nat} (hlist : list < r.lists)
    (hfresh : ⟨list, index⟩ ∉ r.files.map Prod.fst) (hindex : index < 2 ^ 32)
    (hfew : r.backend.requests.length + 1 < 2 ^ 32 - 1) (f : RemoteFile)
    (dataId : Option UInt32) :
    ((r.place ⟨list, index⟩ f).issue list (.awaitingSize (Int32.ofNat index) f.name dataId)
      (⟨·, Int32.ofNat index, .SIZE, 0, 8, dataId⟩)).Inv none := by
  have hplaced := h.place hfresh hlist f
  have hkey : (Int32.ofNat index).toUInt32.toNat = index := by
    change (UInt32.ofNat index).toNat = index
    rw [UInt32.toNat_ofNat', Nat.mod_eq_of_lt hindex]
  refine hplaced.issue hfew (List.mem_append_right _ (List.mem_singleton_self _))
    (fun hpending => hfresh (h.pending_mem hpending))
    (fun hfailed => hfresh (h.failed_mem hfailed)) (fun _ => rfl) (fun _ => ?_) fun id => ?_
  · rw [Asked.file, hkey]
  · exact Asks.size (q := ⟨id, Int32.ofNat index, .SIZE, 0, 8, dataId⟩) rfl
      (h.received_eq_nil hfresh)

theorem inv_offers (h : r.Inv none) {list : Nat} (hlist : list < r.lists) (index : Nat)
    (hfresh : ∀ e ∈ r.files, e.1.list = list → e.1.index < index) (fs : List RemoteFile)
    (hindex : index + fs.length < 2 ^ 32)
    (hfew : r.backend.requests.length + fs.length < 2 ^ 32 - 1) (dataId : Option UInt32)
    {new : List FileContentsRequest} {backend : WasmCliprdrBackend}
    (hbackend : backend = r.backend.requestFileSizes
      ((fs.map RemoteFile.descriptor).zipIdx index) dataId)
    (hnew : backend.requests = r.backend.requests ++ new) :
    Inv none { r with
      backend
      files := r.files ++ (fs.zipIdx index).map fun p => (⟨list, p.2⟩, p.1)
      asked := r.asked ++ new.map (⟨list, ·⟩) } := by
  induction fs generalizing r index new with
  | nil =>
      change backend = r.backend at hbackend
      rw [hbackend, List.self_eq_append_right] at hnew
      rw [hbackend, hnew]
      simpa using h
  | cons f fs ih =>
      rw [List.length_cons] at hindex hfew
      have hnotin : (⟨list, index⟩ : FileKey) ∉ r.files.map Prod.fst := by
        intro hmem
        obtain ⟨e, he, heq⟩ := List.mem_map.mp hmem
        have hlt := hfresh e he (congrArg FileKey.list heq)
        rw [heq] at hlt
        exact lt_irrefl _ hlt
      have hoffer := h.offer hlist hnotin (by omega) (by omega) f dataId
      set q : FileContentsRequest :=
        ⟨r.backend.nextStreamId, Int32.ofNat index, .SIZE, 0, 8, dataId⟩ with hq
      set r₁ := (r.place ⟨list, index⟩ f).issue list
        (.awaitingSize (Int32.ofNat index) f.name dataId)
        (⟨·, Int32.ofNat index, .SIZE, 0, 8, dataId⟩) with hr₁
      have hrequests : r₁.backend.requests = r.backend.requests ++ [q] := requests_issue ..
      have hnext : backend = r₁.backend.requestFileSizes
          ((fs.map RemoteFile.descriptor).zipIdx (index + 1)) dataId := hbackend
      obtain ⟨rest, hrest, -⟩ := r₁.backend.requests_requestFileSizes
        ((fs.map RemoteFile.descriptor).zipIdx (index + 1)) dataId
      rw [← hnext] at hrest
      have hsplit : new = q :: rest := by
        rw [hrest, hrequests, List.append_assoc] at hnew
        exact (List.append_cancel_left hnew).symm
      have hfiles : r₁.files = r.files ++ [(⟨list, index⟩, f)] := rfl
      have hasked : r₁.asked = r.asked ++ [⟨list, q⟩] := rfl
      have hlast := ih hoffer hlist (index + 1) ?_ (by omega) ?_ hnext hrest
      · rw [hfiles, hasked, List.append_assoc, List.append_assoc] at hlast
        rw [hsplit]
        exact hlast
      · intro e he heq
        rw [hfiles, List.mem_append, List.mem_singleton] at he
        rcases he with he | rfl
        · exact Nat.lt_succ_of_lt (hfresh e he heq)
        · exact Nat.lt_succ_self _
      · rw [hrequests, List.length_append, List.length_singleton]
        omega

theorem inv_announce (h : r.Inv none) (fs : List RemoteFile) (dataId : Option UInt32)
    (hfew : (r.announce fs dataId).backend.requests.length < 2 ^ 32 - 1) :
    (r.announce fs dataId).Inv none := by
  obtain ⟨new, hnew, hlength⟩ := r.backend.requests_requestFileSizes
    (fs.map RemoteFile.descriptor).zipIdx dataId
  rw [List.length_zipIdx, List.length_map] at hlength
  change (r.backend.requestFileSizes _ dataId).requests.length < _ at hfew
  rw [hnew, List.length_append, hlength] at hfew
  have hbumped : Inv none { r with lists := r.lists + 1 } :=
    { h with lists := fun e he => Nat.lt_succ_of_lt (h.lists e he) }
  have hoffers := inv_offers hbumped (Nat.lt_succ_self _) 0
    (fun e he heq => absurd (h.lists e he) (by omega)) fs (by omega) hfew dataId rfl hnew
  have hrun := perform_eq (r := { r with
    lists := r.lists + 1, files := r.files ++ placed r.lists fs }) hnew r.lists
  rw [announce]
  exact hrun ▸ hoffers

end

/-! ## Every run -/

theorem inv_of_reachable {codecs : ClipboardCodecs} {r : DownloadRun} (h : Reachable codecs r)
    (hfew : r.backend.requests.length < 2 ^ 32 - 1) : r.Inv none := by
  induction h with
  | start enableText enableFile => exact inv_start enableText enableFile
  | @announce r h fs dataId ih =>
      refine inv_announce (ih ?_) fs dataId hfew
      obtain ⟨new, hnew, -⟩ := r.backend.requests_requestFileSizes
        (fs.map RemoteFile.descriptor).zipIdx dataId
      change (r.backend.requestFileSizes _ dataId).requests.length < _ at hfew
      rw [hnew, List.length_append] at hfew
      omega
  | @answer r h a ha f hf response htruthful ih =>
      refine inv_answer (ih ?_) ha hf htruthful hfew
      exact lt_of_le_of_lt
        (r.backend.requests_onFileContentsResponse codecs response).length_le hfew

theorem Inv.reassembles {r : DownloadRun} (h : r.Inv none) : r.Reassembles where
  nodup := h.nodup
  transfers := h.transfers
  position := by
    intro a ha hflags
    obtain ⟨f, st, -, -, hasks⟩ := h.asks a ha
    cases hasks with
    | size hflags' => exact absurd (hflags'.symm.trans hflags) (by decide)
    | range _ _ _ hposition => exact hposition
  downloads := by
    refine h.downloads.trans (.of_eq (congrArg saved (List.filter_congr fun e _ => ?_)))
    exact decide_eq_decide.mpr ⟨And.left, fun he => ⟨he, nofun⟩⟩
  complete := by
    intro hasked
    refine h.downloads.trans (.of_eq (congrArg saved (List.filter_congr fun e _ => ?_)))
    have hpending : ¬ r.Pending e.1 := by
      rw [Pending, hasked]
      exact List.not_mem_nil
    exact decide_eq_decide.mpr ⟨fun he => he.1.2, fun he => ⟨⟨hpending, he⟩, nofun⟩⟩

/-- Every file that the remote does not fail is saved once, under its own name
and with its own content. -/
theorem reassembles_of_reachable {codecs : ClipboardCodecs} {r : DownloadRun}
    (h : Reachable codecs r) (hfew : r.backend.requests.length < 2 ^ 32 - 1) :
    r.Reassembles :=
  (inv_of_reachable h hfew).reassembles

/-- A size is eight bytes. -/
def leCodecs : ClipboardCodecs where
  dataAsSize data :=
    if data.length = 8 then some (UInt64.ofNat (ByteReader.fromLe data)) else none
  dibv5ToPng _ := none
  dibToPng _ := none

def note : RemoteFile := ⟨"note.txt", [1, 2, 3], by decide⟩

/-- The size and the first two bytes of a file of three. -/
def noteRun : DownloadRun :=
  (((start true true).announce [note] none).answer leCodecs
    ⟨0, ⟨1, 0, .SIZE, 0, 8, none⟩⟩ ⟨1, false, [3, 0, 0, 0, 0, 0, 0, 0]⟩).answer leCodecs
    ⟨0, ⟨2, 0, .RANGE, 0, 3, none⟩⟩ ⟨2, false, [1, 2]⟩

theorem reachable_noteRun : Reachable leCodecs noteRun := by
  refine .answer (f := note) (.answer (f := note) (.announce (.start true true) [note] none)
    ?_ ?_ (.size rfl rfl)) ?_ ?_ (.range rfl (by decide) ?_)
  · exact List.mem_singleton_self _
  · exact List.mem_singleton_self _
  · exact List.mem_singleton_self _
  · exact List.mem_singleton_self _
  · exact ⟨[3], rfl⟩

theorem reassembles_noteRun : noteRun.Reassembles :=
  reassembles_of_reachable reachable_noteRun (by decide)

end DownloadRun

end WasmRdp
