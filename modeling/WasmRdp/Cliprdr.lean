import WasmRdp.Lib.InsertionMap
import WasmRdp.RailWindow

/-!
# The clipboard channel

The backend of `wasm/src/clipboard.rs`: what it does with a format list, with
the answer to a paste request, and with the answers to the file contents
requests of a download. What it sends goes to the end of `tx`, and a call of
a function of the page to the end of `calls`.

The types of the requests and responses come from the protocol's crates, as
do the conversions of a response's data; the latter are a parameter, and give
`none` where the source has an error.

There are two protocols on the channel. A paste is one request and one
response, with a single slot for the format that was asked for; nothing in a
response says which request it answers, and the slot is all that
`decodingOf` has to go by. A download is a chain of requests for each file,
first for its size and then for its bytes in chunks, where the stream id in a
response leads to the transfer. What follows from the first is the subject of
`FormatData` and `FileOffer`, from the second that of `Download`,
`DownloadSize` and `DownloadEnds`.

Sizes and positions of a download are `u64`, and the number of bytes in hand
is that of a list. Formats are looked for in the order of the source: text
before an image before files.
-/

namespace WasmRdp

/-! ## Formats, requests and responses -/

structure ClipboardFormatId where
  value : UInt32
  deriving DecidableEq, Repr

def CF_DIB : ClipboardFormatId := ⟨8⟩
def CF_UNICODETEXT : ClipboardFormatId := ⟨13⟩
def CF_DIBV5 : ClipboardFormatId := ⟨17⟩

structure ClipboardFormat where
  id : ClipboardFormatId
  name : Option String
  deriving DecidableEq

def FORMAT_NAME_FILE_LIST : String := "FileGroupDescriptorW"

structure FormatDataResponse where
  isError : Bool
  data : List UInt8
  deriving DecidableEq

structure FileContentsFlags where
  bits : UInt32
  deriving DecidableEq, Repr

def FileContentsFlags.SIZE : FileContentsFlags := ⟨1⟩
def FileContentsFlags.RANGE : FileContentsFlags := ⟨2⟩

structure FileContentsRequest where
  streamId : UInt32
  index : Int32
  flags : FileContentsFlags
  position : UInt64
  requestedSize : UInt32
  dataId : Option UInt32
  deriving DecidableEq

structure FileContentsResponse where
  streamId : UInt32
  isError : Bool
  data : List UInt8
  deriving DecidableEq

structure FileDescriptor where
  name : String
  deriving DecidableEq

inductive ClipboardMessage where
  | sendInitiatePaste (format : ClipboardFormatId)
  | sendFileContentsRequest (request : FileContentsRequest)
  deriving DecidableEq

/-- The functions of the page that the backend calls. -/
inductive ClipboardCall where
  | writeClipboardText (text : String)
  | writeClipboardImage (png : List UInt8)
  | notifyRemoteClipboardHasFiles
  | downloadFile (name : String) (bytes : List UInt8)
  deriving DecidableEq

/-- The conversions that other crates provide. -/
structure ClipboardCodecs where
  dataAsSize : List UInt8 → Option UInt64
  dibv5ToPng : List UInt8 → Option (List UInt8)
  dibToPng : List UInt8 → Option (List UInt8)

/-! ## State -/

/-- 4 MB per RANGE request. -/
def CHUNK_SIZE : UInt32 := 4 * 1024 * 1024

inductive FileTransferState where
  | awaitingSize (fileIndex : Int32) (name : String) (dataId : Option UInt32)
  | awaitingData (fileIndex : Int32) (name : String) (total : UInt64) (data : List UInt8)
      (dataId : Option UInt32)
  deriving DecidableEq

/-- The backend, with the one cache of the thread that it writes. -/
structure WasmCliprdrBackend where
  tx : List ClipboardMessage
  calls : List ClipboardCall
  pendingFormat : Option ClipboardFormatId
  nextStreamId : UInt32
  fileTransfers : InsertionMap UInt32 FileTransferState
  enableText : Bool
  enableFile : Bool
  pendingRemoteFileFormat : Option ClipboardFormatId

namespace WasmCliprdrBackend

def new (enableText enableFile : Bool) : WasmCliprdrBackend where
  tx := []
  calls := []
  pendingFormat := none
  nextStreamId := 1
  fileTransfers := .empty
  enableText
  enableFile
  pendingRemoteFileFormat := none

def send (b : WasmCliprdrBackend) (message : ClipboardMessage) : WasmCliprdrBackend :=
  { b with tx := b.tx ++ [message] }

def call (b : WasmCliprdrBackend) (c : ClipboardCall) : WasmCliprdrBackend :=
  { b with calls := b.calls ++ [c] }

/-! ## Downloads -/

/-- The stream ids go from 1 to the largest `u32` and start again. -/
def allocStreamId (b : WasmCliprdrBackend) : UInt32 × WasmCliprdrBackend :=
  (b.nextStreamId, { b with nextStreamId := max (b.nextStreamId + 1) 1 })

def requestFileSize (b : WasmCliprdrBackend) (fileIndex : Int32) (name : String)
    (dataId : Option UInt32) : WasmCliprdrBackend :=
  let (streamId, b) := b.allocStreamId
  let b := { b with
    fileTransfers := b.fileTransfers.set streamId (.awaitingSize fileIndex name dataId) }
  b.send (.sendFileContentsRequest ⟨streamId, fileIndex, .SIZE, 0, 8, dataId⟩)

def requestFileRange (b : WasmCliprdrBackend) (fileIndex : Int32) (name : String)
    (total : UInt64) (data : List UInt8) (dataId : Option UInt32) : WasmCliprdrBackend :=
  let position := UInt64.ofNat data.length
  let remaining := if position ≤ total then total - position else 0
  let chunk := (min remaining CHUNK_SIZE.toUInt64).toUInt32
  if chunk = 0 then b.call (.downloadFile name data)
  else
    let (streamId, b) := b.allocStreamId
    let b := { b with
      fileTransfers :=
        b.fileTransfers.set streamId (.awaitingData fileIndex name total data dataId) }
    b.send (.sendFileContentsRequest ⟨streamId, fileIndex, .RANGE, position, chunk, dataId⟩)

def onRemoteFileList (b : WasmCliprdrBackend) (files : List FileDescriptor)
    (clipDataId : Option UInt32) : WasmCliprdrBackend :=
  files.zipIdx.foldl
    (fun b p => b.requestFileSize (Int32.ofNat p.2) p.1.name clipDataId) b

def onFileContentsResponse (codecs : ClipboardCodecs) (b : WasmCliprdrBackend)
    (response : FileContentsResponse) : WasmCliprdrBackend :=
  let streamId := response.streamId
  let removed := { b with fileTransfers := b.fileTransfers.delete streamId }
  if response.isError then removed
  else match b.fileTransfers.get streamId with
    | some (.awaitingSize fileIndex name dataId) =>
        match codecs.dataAsSize response.data with
        | some total => removed.requestFileRange fileIndex name total [] dataId
        | none => removed
    | some (.awaitingData fileIndex name total data dataId) =>
        let data := data ++ response.data
        if total ≤ UInt64.ofNat data.length then removed.call (.downloadFile name data)
        else removed.requestFileRange fileIndex name total data dataId
    | none => removed

/-! ## Format lists and their data -/

/-- The image format to ask for. -/
def pickImageFormat (formats : List ClipboardFormat) : Option ClipboardFormatId :=
  if formats.any (·.id = CF_DIBV5) then some CF_DIBV5
  else if formats.any (·.id = CF_DIB) then some CF_DIB
  else none

def initiatePaste (b : WasmCliprdrBackend) (format : ClipboardFormatId) :
    WasmCliprdrBackend :=
  { b with pendingFormat := some format }.send (.sendInitiatePaste format)

/-- The part of `on_remote_copy` that is for files: the page shows that there
are some, and asks for them only when the user wants them. -/
def offerFiles (b : WasmCliprdrBackend) (formats : List ClipboardFormat) :
    WasmCliprdrBackend :=
  if b.enableFile then
    match formats.find? (·.name = some FORMAT_NAME_FILE_LIST) with
    | some format =>
        { b with pendingRemoteFileFormat := some format.id }.call
          .notifyRemoteClipboardHasFiles
    | none => b
  else b

def onRemoteCopy (b : WasmCliprdrBackend) (formats : List ClipboardFormat) :
    WasmCliprdrBackend :=
  if b.enableText then
    if formats.any (·.id = CF_UNICODETEXT) then b.initiatePaste CF_UNICODETEXT
    else match pickImageFormat formats with
      | some format => b.initiatePaste format
      | none => b.offerFiles formats
  else b.offerFiles formats

def fromUtf16le (data : List UInt8) : String :=
  String.ofList (Utf16.decodeLossy ((Reader.units data).takeWhile (· ≠ 0)))

/-- What a response is taken for. -/
inductive Decoding where
  | text
  | dibv5
  | dib
  | unexpected
  deriving DecidableEq

def decodingOf (format : Option ClipboardFormatId) : Decoding :=
  if format = some CF_UNICODETEXT then .text
  else if format = some CF_DIBV5 then .dibv5
  else if format = some CF_DIB then .dib
  else .unexpected

def onFormatDataResponse (codecs : ClipboardCodecs) (b : WasmCliprdrBackend)
    (response : FormatDataResponse) : WasmCliprdrBackend :=
  let taken := { b with pendingFormat := none }
  let image (png : Option (List UInt8)) : WasmCliprdrBackend :=
    match png with
    | some png => taken.call (.writeClipboardImage png)
    | none => taken
  if response.isError then taken
  else match decodingOf b.pendingFormat with
    | .text =>
        let text := fromUtf16le response.data
        if text = "" then taken else taken.call (.writeClipboardText text)
    | .dibv5 => image (codecs.dibv5ToPng response.data)
    | .dib => image (codecs.dibToPng response.data)
    | .unexpected => taken

end WasmCliprdrBackend

end WasmRdp
