import WasmRdp.FormatData

/-!
# The files that the page offers to download

A format list with files and with neither text nor an image makes the page
show a button, and the id of its file format is kept until the button is
used. No other format list puts the id away: what is kept is the id of the
last list of that kind (`OfferRun.Inv`), whatever the remote has copied
since.

`OfferRun.always_current_iff` says when this does not matter: each time the
button is used, the latest list still offers files under that id.

What a format list leaves of the backend is one lemma (`Copied`,
`copied_onRemoteCopy`), and what the button asks for is the kept format, if
there is one (`requested_download`); the condition of a step follows. It is
stated on the format lists themselves, with `lastKept` for the last one that
has an id to keep, so that it needs nothing of the backend. In
`not_always_current` files are copied and then text, and the request that
follows is for a format that the text's list does not have.
-/

namespace WasmRdp

open WasmCliprdrBackend

/-- `trigger_remote_file_download`. -/
def WasmCliprdrBackend.triggerRemoteFileDownload (b : WasmCliprdrBackend) :
    WasmCliprdrBackend :=
  match b.pendingRemoteFileFormat with
  | some id => b.send (.sendInitiatePaste id)
  | none => b

/-- The list offers files under the id. -/
def OffersFiles (formats : List ClipboardFormat) (id : ClipboardFormatId) : Prop :=
  ∃ f ∈ formats, f.id = id ∧ f.name = some FORMAT_NAME_FILE_LIST

/-- The file format of a list that has neither text nor an image. -/
def keptFormat (formats : List ClipboardFormat) : Option ClipboardFormatId :=
  if formats.any (·.id = CF_UNICODETEXT) then none
  else match pickImageFormat formats with
    | some _ => none
    | none => (formats.find? (·.name = some FORMAT_NAME_FILE_LIST)).map (·.id)

/-- The file format of the last list that has one to keep. -/
def lastKept (lists : List (List ClipboardFormat)) : Option ClipboardFormatId :=
  (lists.filterMap keptFormat).getLast?

theorem lastKept_concat (lists : List (List ClipboardFormat)) (formats : List ClipboardFormat) :
    lastKept (lists ++ [formats]) = (keptFormat formats).or (lastKept lists) := by
  rw [lastKept, List.filterMap_append, List.getLast?_append]
  cases h : keptFormat formats <;> simp [h, lastKept]

/-- A request for files, and the format list that was the latest one. -/
structure FileRequest where
  format : ClipboardFormatId
  latest : List ClipboardFormat

structure OfferRun where
  backend : WasmCliprdrBackend
  lists : List (List ClipboardFormat)
  requested : List FileRequest

inductive OfferEvent where
  | copy (formats : List ClipboardFormat)
  | download

namespace OfferRun

/-- Text and files are both enabled. -/
def start : OfferRun where
  backend := .new true true
  lists := []
  requested := []

/-- The latest format list. -/
def latest (s : OfferRun) : List ClipboardFormat := s.lists.getLast?.getD []

def step (s : OfferRun) : OfferEvent → OfferRun
  | .copy formats =>
      { s with
        backend := s.backend.onRemoteCopy formats
        lists := s.lists ++ [formats] }
  | .download =>
      let backend := s.backend.triggerRemoteFileDownload
      { s with
        backend
        requested := s.requested ++
          (backend.pastes.drop s.backend.pastes.length).map (⟨·, s.latest⟩) }

/-- Every request named a format under which the latest list offered files. -/
def Current (s : OfferRun) : Prop := ∀ r ∈ s.requested, OffersFiles r.latest r.format

/-- The last list with a file format to keep has one that the latest list
still offers files under. -/
def Fits (s : OfferRun) : OfferEvent → Prop
  | .copy _ => True
  | .download => ∀ id ∈ lastKept s.lists, OffersFiles s.latest id

structure Inv (s : OfferRun) : Prop where
  enableText : s.backend.enableText = true
  enableFile : s.backend.enableFile = true
  kept : s.backend.pendingRemoteFileFormat = lastKept s.lists

/-- What a format list leaves of the backend. -/
structure Copied (b b' : WasmCliprdrBackend) (formats : List ClipboardFormat) : Prop where
  enableText : b'.enableText = b.enableText
  enableFile : b'.enableFile = b.enableFile
  kept : b'.pendingRemoteFileFormat = (keptFormat formats).or b.pendingRemoteFileFormat

theorem copied_onRemoteCopy {b : WasmCliprdrBackend} (htext : b.enableText = true)
    (hfile : b.enableFile = true) (formats : List ClipboardFormat) :
    Copied b (b.onRemoteCopy formats) formats := by
  have hpaste : ∀ format, keptFormat formats = none →
      Copied b (b.initiatePaste format) formats := by
    intro format hnone
    refine ⟨rfl, rfl, ?_⟩
    rw [hnone]
    rfl
  unfold onRemoteCopy
  rw [if_pos htext]
  split
  · rename_i hunicode
    exact hpaste _ (if_pos hunicode)
  rename_i hunicode
  have hkept : keptFormat formats = match pickImageFormat formats with
      | some _ => none
      | none => (formats.find? (·.name = some FORMAT_NAME_FILE_LIST)).map (·.id) :=
    if_neg hunicode
  split
  · rename_i format hpick
    rw [hpick] at hkept
    exact hpaste format hkept
  · rename_i hpick
    rw [hpick] at hkept
    rw [offerFiles, if_pos hfile]
    split
    · rename_i format hfind
      rw [hfind] at hkept
      exact ⟨rfl, rfl, by rw [hkept]; rfl⟩
    · rename_i hfind
      rw [hfind] at hkept
      exact ⟨rfl, rfl, by rw [hkept]; rfl⟩

theorem inv_step {s : OfferRun} (h : s.Inv) (e : OfferEvent) : (s.step e).Inv := by
  obtain ⟨htext, hfile, hkept⟩ := h
  cases e with
  | copy formats =>
      have hcopied := copied_onRemoteCopy htext hfile formats
      refine ⟨hcopied.enableText.trans htext, hcopied.enableFile.trans hfile, ?_⟩
      rw [step, lastKept_concat, ← hkept]
      exact hcopied.kept
  | download =>
      rw [step, triggerRemoteFileDownload]
      split <;> exact ⟨htext, hfile, hkept⟩

/-- The page asks for the kept format, if there is one. -/
theorem requested_download {s : OfferRun} (h : s.Inv) :
    (s.step .download).requested =
      s.requested ++ (lastKept s.lists).toList.map (⟨·, s.latest⟩) := by
  rw [step, triggerRemoteFileDownload, ← h.kept]
  cases s.backend.pendingRemoteFileFormat with
  | none => simp
  | some id => simp [pastes, send]

theorem current_step {s : OfferRun} (hinv : s.Inv) (h : s.Current) (e : OfferEvent) :
    (s.step e).Current ↔ s.Fits e := by
  cases e with
  | copy formats => exact iff_of_true h trivial
  | download =>
      rw [Current, requested_download hinv, Fits]
      constructor
      · intro hall id hid
        refine hall ⟨id, s.latest⟩ (List.mem_append_right _ ?_)
        exact List.mem_map_of_mem (Option.mem_toList.mpr hid)
      · intro hfits r hr
        obtain hr | hr := List.mem_append.mp hr
        · exact h r hr
        · obtain ⟨id, hid, rfl⟩ := List.mem_map.mp hr
          exact hfits id (Option.mem_toList.mp hid)

/-- In a whole run the requests are for files of the latest list exactly when
the kept format is offered whenever the button is used. -/
theorem always_current_iff (es : List OfferEvent) :
    Runs.Always step Current start es ↔ Runs.Each step Fits start es :=
  Runs.always_iff_each (fun _ e _ h => inv_step h e) (fun _ e _ hinv h => current_step hinv h e)
    ⟨rfl, rfl, rfl⟩ nofun

/-- Files are copied, then text, and the user asks for the files. -/
def filesThenText : List OfferEvent :=
  [.copy [⟨⟨0xC0DE⟩, some FORMAT_NAME_FILE_LIST⟩], .copy [⟨CF_UNICODETEXT, none⟩], .download]

/-- The text's list has no format with that id. -/
theorem not_always_current : ¬ ∀ es, Runs.Always step Current start es := by
  intro h
  obtain ⟨f, hf, hid, -⟩ := h filesThenText filesThenText (List.prefix_refl _)
    ⟨⟨0xC0DE⟩, [⟨CF_UNICODETEXT, none⟩]⟩ (List.mem_singleton_self _)
  obtain rfl := List.mem_singleton.mp hf
  exact absurd hid (by decide)

end OfferRun

end WasmRdp
