import WasmRdp.Cliprdr
import WasmRdp.Lib.Slices

/-!
# The local clipboard

What the page puts on the clipboard for the remote, and what the remote's
requests get of it: the three caches of `wasm/src/clipboard.rs` and the
handlers that read them. A handler gives back the messages that it sends.

The module runs on a 32-bit target, so that a position of a file is cut to
32 bits and sums of them wrap in a release build. `answers_iff` says for which
requests for a file's contents this does no harm.

`set_pending_clipboard_file` empties the caches for text and for an image; the
other two setters leave the file where it is (`latestOnly_of_withdrawn`).

What a request should get is `wanted`, in unbounded numbers: the size, or the
part of the file from the position on, as long as was asked for and no further
than the file goes. A request for a part is a slice from the position to the
smaller of two ends (`readFile_range`); with both cut to 32 bits the slice can
begin behind its end, where it panics, or be another part of the file than the
one that was asked for. `slice_eq_ok_iff` compares the two for every position
and length, and `InRange` is what comes out. A file is shorter than half the
address space, which is a fact of its type (`Vec32`).

A request that is for no file, because files are off or there is none with
that number, is answered with an error message and is always in range.
-/

namespace WasmRdp

open Slices

/-- A `Vec` of the 32-bit target is at most `isize::MAX` long. -/
abbrev Vec32 (α : Type) := { l : List α // l.length < 2 ^ 31 }

/-- The flags have all bits of `other`. -/
def FileContentsFlags.contains (flags other : FileContentsFlags) : Bool :=
  flags.bits &&& other.bits = other.bits

inductive ClipboardFileAttributes where
  | normal
  deriving DecidableEq

/-- A file that is advertised. -/
structure LocalFileDescriptor where
  name : String
  fileSize : UInt64
  attributes : ClipboardFileAttributes
  deriving DecidableEq

/-- The answer to a format data request, as it is put together. -/
inductive LocalFormatData where
  | newError
  | newUnicodeString (text : String)
  | newData (data : List UInt8)
  deriving DecidableEq

/-- The answer to a file contents request, as it is put together. -/
inductive LocalFileContents where
  | newError
  | newSizeResponse (size : UInt64)
  | newDataResponse (data : List UInt8)
  deriving DecidableEq

inductive LocalMessage where
  | sendInitiateCopy (formats : List ClipboardFormat)
  | sendFileCopy (files : List LocalFileDescriptor)
  | sendFormatData (response : LocalFormatData)
  | sendFileContentsResponse (streamId : UInt32) (response : LocalFileContents)
  deriving DecidableEq

/-- The caches, with the two features of the backend. -/
structure LocalClipboard where
  enableText : Bool
  enableFile : Bool
  text : Option String
  image : Option (Vec32 UInt8)
  files : Vec32 (String × Vec32 UInt8)

namespace LocalClipboard

def new (enableText enableFile : Bool) : LocalClipboard where
  enableText
  enableFile
  text := none
  image := none
  files := ⟨[], by decide⟩

/-! ## The calls of the page -/

def setPendingClipboard (s : LocalClipboard) (text : String) :
    LocalClipboard × List LocalMessage :=
  ({ s with image := none, text := some text }, [.sendInitiateCopy [⟨CF_UNICODETEXT, none⟩]])

def setPendingClipboardImage (s : LocalClipboard) (pngBytes : Vec32 UInt8) :
    LocalClipboard × List LocalMessage :=
  ({ s with text := none, image := some pngBytes }, [.sendInitiateCopy [⟨CF_DIBV5, none⟩]])

def setPendingClipboardFile (s : LocalClipboard) (name : String) (bytes : Vec32 UInt8) :
    LocalClipboard × List LocalMessage :=
  ({ s with files := ⟨[(name, bytes)], by simp⟩, text := none, image := none },
    [.sendFileCopy [⟨name, UInt64.ofNat bytes.val.length, .normal⟩]])

/-! ## The requests of the remote -/

/-- Files are advertised on their own. -/
def onRequestFormatList (s : LocalClipboard) : List LocalMessage :=
  [.sendInitiateCopy
    ((if s.text.isSome then [⟨CF_UNICODETEXT, none⟩] else []) ++
      (if s.image.isSome then [⟨CF_DIBV5, none⟩] else []))]

/-- The conversion of a PNG image comes from another crate. -/
def onFormatDataRequest (pngToCfDibv5 : List UInt8 → Option (List UInt8)) (s : LocalClipboard)
    (format : ClipboardFormatId) : List LocalMessage :=
  if !s.enableText then [.sendFormatData .newError]
  else if format = CF_UNICODETEXT then
    [.sendFormatData (.newUnicodeString (s.text.getD ""))]
  else if format = CF_DIBV5 then
    match s.image with
    | some png =>
        match pngToCfDibv5 png.val with
        | some dibData => [.sendFormatData (.newData dibData)]
        | none => [.sendFormatData .newError]
    | none => [.sendFormatData .newError]
  else [.sendFormatData .newError]

/-- What is read from the cache, `none` where there is no such file. -/
def readFile (files : List (String × Vec32 UInt8)) (request : FileContentsRequest) :
    Checked (Option LocalFileContents) :=
  let fileIndex := request.index.toUInt32.toNat
  match files[fileIndex]? with
  | some (_, data) =>
      if request.flags.contains .SIZE then
        return some (.newSizeResponse (UInt64.ofNat data.val.length))
      else do
        let start := request.position.toUInt32
        let stop := min (start + request.requestedSize) (UInt32.ofNat data.val.length)
        let bytes ← slice data.val start.toNat stop.toNat
        return some (.newDataResponse bytes)
  | none => return none

def onFileContentsRequest (s : LocalClipboard) (request : FileContentsRequest) :
    Checked (List LocalMessage) :=
  if !s.enableFile then return [.sendFileContentsResponse request.streamId .newError]
  else do
    let result ← readFile s.files.val request
    return [.sendFileContentsResponse request.streamId (result.getD .newError)]

/-! ## File contents -/

/-- The file with this number, if files are enabled and there is one. -/
def fileAt (s : LocalClipboard) (index : Int32) : Option (Vec32 UInt8) :=
  if s.enableFile ∧ 0 ≤ index.toInt then (s.files.val[index.toInt.toNat]?).map Prod.snd
  else none

/-- What a request is to be answered with. -/
def wanted (s : LocalClipboard) (request : FileContentsRequest) : LocalFileContents :=
  match s.fileAt request.index with
  | none => .newError
  | some data =>
      let len := data.val.length
      let position := request.position.toNat
      if request.flags.contains .SIZE then .newSizeResponse (UInt64.ofNat len)
      else .newDataResponse
        (data.val.extract (min position len) (min (position + request.requestedSize.toNat) len))

/-- The request is answered as it should be, by one message. -/
def Answers (s : LocalClipboard) (request : FileContentsRequest) : Prop :=
  s.onFileContentsRequest request =
    .ok [.sendFileContentsResponse request.streamId (s.wanted request)]

/-- A request for a part of a file begins in the file or at its end, once its
position is cut to 32 bits, and ends below 2^32; and where cutting the
position changes it, there is nothing to read. -/
def InRange (s : LocalClipboard) (request : FileContentsRequest) : Prop :=
  ∀ data ∈ s.fileAt request.index, request.flags.contains .SIZE = false →
    let start := request.position.toNat % 2 ^ 32
    let size := request.requestedSize.toNat
    start ≤ data.val.length ∧ start + size < 2 ^ 32 ∧
      (request.position.toNat < 2 ^ 32 ∨ size = 0 ∨ start = data.val.length)

/-- A negative number becomes one that no list of files is long enough for. -/
theorem getElem?_toUInt32 {α : Type} (l : Vec32 α) (index : Int32) :
    l.val[index.toUInt32.toNat]? =
      if 0 ≤ index.toInt then l.val[index.toInt.toNat]? else none := by
  have hlen := l.property
  have hint : index.toInt = if 2 * index.toUInt32.toNat < 2 ^ 32 then
      (index.toUInt32.toNat : Int) else index.toUInt32.toNat - (2 ^ 32 : Nat) :=
    BitVec.toInt_eq_toNat_cond _
  have hlt := index.toUInt32.toNat_lt
  split at hint
  · rw [if_pos (by omega), hint, Int.toNat_natCast]
  · rw [if_neg (by omega), List.getElem?_eq_none (by omega)]

theorem map_files {s : LocalClipboard} (hfile : s.enableFile = true) (index : Int32) :
    (s.files.val[index.toUInt32.toNat]?).map Prod.snd = s.fileAt index := by
  rw [getElem?_toUInt32, fileAt]
  split
  · rename_i hindex
    rw [if_pos ⟨hfile, hindex⟩]
  · rename_i hindex
    rw [if_neg fun h => hindex h.2]
    rfl

/-- The slice of a request for a part of a file, with its bounds cut to 32
bits, is what the request asks for. -/
theorem slice_eq_ok_iff (data : Vec32 UInt8) (position : Nat) {size : Nat}
    (hsize : size < 2 ^ 32) :
    slice data.val (position % 2 ^ 32)
        (min ((position % 2 ^ 32 + size) % 2 ^ 32) data.val.length) =
      .ok (data.val.extract (min position data.val.length)
        (min (position + size) data.val.length)) ↔
    position % 2 ^ 32 ≤ data.val.length ∧ position % 2 ^ 32 + size < 2 ^ 32 ∧
      (position < 2 ^ 32 ∨ size = 0 ∨ position % 2 ^ 32 = data.val.length) := by
  have hlen := data.property
  have hstart := Nat.mod_lt position (y := 2 ^ 32) (by decide)
  constructor
  · intro h
    rw [slice] at h
    split at h
    · rename_i hbounds
      -- a sum that wraps ends before it begins
      have hfits : position % 2 ^ 32 + size < 2 ^ 32 := by
        by_contra hwraps
        have : (position % 2 ^ 32 + size) % 2 ^ 32 = position % 2 ^ 32 + size - 2 ^ 32 := by
          omega
        omega
      refine ⟨by omega, hfits, ?_⟩
      have hlengths := congrArg List.length (Except.ok.inj h)
      rw [List.extract_eq_take_drop, List.length_take, List.length_drop, List.length_take,
        List.length_drop, Nat.mod_eq_of_lt hfits] at hlengths
      omega
    · cases h
  · rintro ⟨hle, hfits, hposition⟩
    rw [Nat.mod_eq_of_lt hfits, slice_eq_ok (by omega) (by omega)]
    rw [List.extract_eq_take_drop]
    refine congrArg Except.ok ?_
    by_cases hlow : position < 2 ^ 32
    · rw [Nat.mod_eq_of_lt hlow] at hle ⊢
      rw [Nat.min_eq_left hle]
    · have hnothing : min (position % 2 ^ 32 + size) data.val.length - position % 2 ^ 32 = 0 := by
        omega
      rw [hnothing, Nat.min_eq_right (by omega), Nat.min_eq_right (by omega), Nat.sub_self]
      rfl

theorem toNat_stop (position : UInt64) (requestedSize : UInt32) (data : Vec32 UInt8) :
    (min (position.toUInt32 + requestedSize) (UInt32.ofNat data.val.length)).toNat =
      min ((position.toNat % 2 ^ 32 + requestedSize.toNat) % 2 ^ 32) data.val.length := by
  have hlen : data.val.length < 2 ^ 32 := lt_trans data.property (by decide)
  have hmin : ∀ a b : UInt32, (min a b).toNat = min a.toNat b.toNat := by
    intro a b
    rw [Nat.min_def]
    simp only [← UInt32.le_iff_toNat_le]
    exact apply_ite UInt32.toNat _ _ _
  rw [hmin, UInt32.toNat_add, UInt64.toNat_toUInt32, UInt32.toNat_ofNat', Nat.mod_eq_of_lt hlen]

/-- A request for a part of a file that is there. -/
theorem readFile_range {files : List (String × Vec32 UInt8)} {request : FileContentsRequest}
    {name : String} {data : Vec32 UInt8}
    (hfile : files[request.index.toUInt32.toNat]? = some (name, data))
    (hrange : request.flags.contains .SIZE = false) :
    readFile files request = (slice data.val (request.position.toNat % 2 ^ 32)
      (min ((request.position.toNat % 2 ^ 32 + request.requestedSize.toNat) % 2 ^ 32)
        data.val.length)).map fun bytes => some (.newDataResponse bytes) := by
  rw [← toNat_stop, ← UInt64.toNat_toUInt32, readFile, hfile]
  dsimp only
  rw [hrange, if_neg Bool.false_ne_true]
  cases slice data.val _ _ <;> rfl

/-- What is sent of a slice is right when the slice is. -/
theorem sent_eq_iff (streamId : UInt32) (x : Checked (List UInt8)) (bytes : List UInt8) :
    ((x.map fun bytes => some (LocalFileContents.newDataResponse bytes)) >>= fun result =>
        pure [.sendFileContentsResponse streamId (result.getD .newError)]) =
      Except.ok [LocalMessage.sendFileContentsResponse streamId (.newDataResponse bytes)] ↔
    x = .ok bytes := by
  cases x with
  | error panic => exact iff_of_false (by rintro ⟨⟩) (by rintro ⟨⟩)
  | ok read =>
      constructor
      · rintro ⟨⟩
        rfl
      · rintro ⟨⟩
        rfl

/-- Exactly the requests that are in range are answered as they should be. -/
theorem answers_iff (s : LocalClipboard) (request : FileContentsRequest) :
    s.Answers request ↔ s.InRange request := by
  rw [Answers, onFileContentsRequest, wanted, InRange]
  cases henabled : s.enableFile with
  | false =>
      have hnone : s.fileAt request.index = none := if_neg (by simp [henabled])
      rw [hnone]
      exact iff_of_true rfl (by simp)
  | true =>
      rw [← map_files henabled]
      cases hfile : s.files.val[request.index.toUInt32.toNat]? with
      | none =>
          rw [readFile, hfile]
          exact iff_of_true rfl (by simp)
      | some file =>
          obtain ⟨name, data⟩ := file
          cases hsize : request.flags.contains .SIZE with
          | true =>
              rw [readFile, hfile]
              dsimp only
              rw [hsize]
              exact iff_of_true rfl (by simp)
          | false =>
              simp only [readFile_range hfile hsize, Bool.not_true, Bool.false_eq_true, if_false,
                Option.map_some, Option.mem_some_iff, forall_eq', forall_const]
              exact (sent_eq_iff ..).trans
                (slice_eq_ok_iff data _ request.requestedSize.toNat_lt)

/-- A file of one byte. -/
def oneByteFile : LocalClipboard :=
  ((new true true).setPendingClipboardFile "a" ⟨[1], by decide⟩).1

/-- The part from the third byte on, as one who reads past the end asks for. -/
def pastTheEnd : FileContentsRequest := ⟨7, 0, .RANGE, 2, 1, none⟩

theorem not_answers : ¬ ∀ s request, Answers s request := by
  intro h
  have hanswers : oneByteFile.onFileContentsRequest pastTheEnd = .ok _ := h oneByteFile pastTheEnd
  cases hanswers

end LocalClipboard

end WasmRdp
