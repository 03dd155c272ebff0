import WasmRdp.LocalClipboard

/-!
# Only the latest content is served

Two runs that differ in what was put on the clipboard before the last call:
the remote is to get the same answers after that call. A call for a file
leaves nothing of the earlier content. A call for a text or for an image
leaves the file, and the answers are the same only when there was none or
the remote does not ask for it.

The two runs make the same calls and requests; `LocalEvent.erase` forgets the
contents, and runs with the same erasure are compared. What a run leaves is
described by `Left`: both features are on, and there is one file at most, none
where no call has handed one over. So two runs differ after the last call in
the file only (`agree_copy`), and clipboards that agree in text and image give
the same answers to everything but a request for a file
(`Agree.answer_eq`).

`Withdrawn` collects the three cases in which that is enough: the last call
hands over a file itself, or no earlier one did, or no later request is for a
file that there may be. `latestOnly_of_withdrawn` is the result;
`not_latestOnly` copies a file and then a text, and the remote still gets the
first byte of the file.
-/

namespace WasmRdp

open Slices

/-- A call of the page, with the content that it hands over. -/
inductive LocalCopy where
  | text (text : String)
  | image (pngBytes : Vec32 UInt8)
  | file (name : String) (bytes : Vec32 UInt8)

inductive LocalRequest where
  | formatList
  | formatData (format : ClipboardFormatId)
  | fileContents (request : FileContentsRequest)

inductive LocalEvent where
  | copy (c : LocalCopy)
  | request (r : LocalRequest)

namespace LocalCopy

def IsFile : LocalCopy → Prop
  | .file _ _ => True
  | _ => False

/-- Which call it is, whatever its content. -/
def erase : LocalCopy → LocalCopy
  | .text _ => .text ""
  | .image _ => .image ⟨[], by decide⟩
  | .file _ _ => .file "" ⟨[], by decide⟩

theorem isFile_erase (c : LocalCopy) : c.erase.IsFile ↔ c.IsFile := by
  cases c <;> exact Iff.rfl

end LocalCopy

namespace LocalEvent

def erase : LocalEvent → LocalEvent
  | .copy c => .copy c.erase
  | .request r => .request r

def CopiesFile : LocalEvent → Prop
  | .copy c => c.IsFile
  | .request _ => False

theorem copiesFile_erase (e : LocalEvent) : e.erase.CopiesFile ↔ e.CopiesFile := by
  cases e with
  | copy c => exact c.isFile_erase
  | request r => exact Iff.rfl

end LocalEvent

/-- The request is for the file that the cache has room for. -/
def LocalRequest.ForFile : LocalRequest → Prop
  | .fileContents request => request.index = 0
  | _ => False

namespace LocalClipboard

section
variable (pngToCfDibv5 : List UInt8 → Option (List UInt8))

def copy (s : LocalClipboard) : LocalCopy → LocalClipboard × List LocalMessage
  | .text text => s.setPendingClipboard text
  | .image pngBytes => s.setPendingClipboardImage pngBytes
  | .file name bytes => s.setPendingClipboardFile name bytes

/-- What a request has the backend send. -/
def answer (s : LocalClipboard) : LocalRequest → Checked (List LocalMessage)
  | .formatList => return s.onRequestFormatList
  | .formatData format => return s.onFormatDataRequest pngToCfDibv5 format
  | .fileContents request => s.onFileContentsRequest request

def step (s : LocalClipboard) : LocalEvent → Checked LocalClipboard
  | .copy c => return (s.copy c).1
  | .request r => do
      let _ ← s.answer pngToCfDibv5 r
      return s

/-- A run, as long as no request aborts. -/
def run (s : LocalClipboard) (es : List LocalEvent) : Checked LocalClipboard :=
  es.foldlM (step pngToCfDibv5) s

/-- The answers to a list of requests, up to one that aborts. -/
def answers (s : LocalClipboard) : List LocalRequest → List LocalMessage
  | [] => []
  | r :: rs =>
      match s.answer pngToCfDibv5 r with
      | .ok sent => sent ++ s.answers rs
      | .error _ => []

/-- After the last call, the answers are those of every run that has made the
same calls and requests, whatever the content of the earlier calls. -/
def LatestOnly (earlier : List LocalEvent) (last : LocalCopy) (later : List LocalRequest) :
    Prop :=
  ∀ earlier' : List LocalEvent, earlier'.map LocalEvent.erase = earlier.map LocalEvent.erase →
    ∀ s s', run pngToCfDibv5 (new true true) earlier = .ok s →
      run pngToCfDibv5 (new true true) earlier' = .ok s' →
      answers pngToCfDibv5 (s.copy last).1 later = answers pngToCfDibv5 (s'.copy last).1 later

/-- The last call hands over a file, or no earlier one does, or no later
request is for a file that there may be. -/
def Withdrawn (earlier : List LocalEvent) (last : LocalCopy) (later : List LocalRequest) : Prop :=
  last.IsFile ∨ (∀ e ∈ earlier, ¬ e.CopiesFile) ∨ ∀ r ∈ later, ¬ r.ForFile

end

/-! ## What a run leaves -/

variable {pngToCfDibv5 : List UInt8 → Option (List UInt8)}

/-- Both features are enabled, and there is one file at most, none where no
call has handed over one. -/
structure Left (es : List LocalEvent) (s : LocalClipboard) : Prop where
  enableText : s.enableText = true
  enableFile : s.enableFile = true
  single : s.files.val.length ≤ 1
  none : (∀ e ∈ es, ¬ e.CopiesFile) → s.files.val = []

theorem Left.copy {es : List LocalEvent} {s : LocalClipboard} (h : Left es s) (c : LocalCopy) :
    Left (es ++ [.copy c]) (s.copy c).1 := by
  have hnone : (∀ e ∈ es ++ [.copy c], ¬ e.CopiesFile) → s.files.val = [] := fun hes =>
    h.none fun e he => hes e (List.mem_append_left _ he)
  cases c with
  | text text => exact ⟨h.enableText, h.enableFile, h.single, hnone⟩
  | image pngBytes => exact ⟨h.enableText, h.enableFile, h.single, hnone⟩
  | file name bytes =>
      refine ⟨h.enableText, h.enableFile, Nat.le_refl 1, fun hes => ?_⟩
      exact absurd trivial (hes _ (List.mem_append_right _ (List.mem_singleton_self _)))

theorem Left.step {es : List LocalEvent} {s s' : LocalClipboard} (h : Left es s)
    {e : LocalEvent} (hstep : step pngToCfDibv5 s e = .ok s') : Left (es ++ [e]) s' := by
  cases e with
  | copy c =>
      obtain rfl := Except.ok.inj hstep
      exact h.copy c
  | request r =>
      obtain ⟨_, -, hreturn⟩ := bind_eq_ok hstep
      obtain rfl := Except.ok.inj hreturn
      refine ⟨h.enableText, h.enableFile, h.single, fun hes => ?_⟩
      exact h.none fun e he => hes e (List.mem_append_left _ he)

theorem Left.run {es : List LocalEvent} {s s' : LocalClipboard} (h : Left es s) :
    ∀ {es' : List LocalEvent}, run pngToCfDibv5 s es' = .ok s' → Left (es ++ es') s' := by
  intro es'
  induction es' generalizing es s with
  | nil =>
      intro hrun
      obtain rfl := Except.ok.inj hrun
      rwa [List.append_nil]
  | cons e es' ih =>
      intro hrun
      rw [LocalClipboard.run, List.foldlM_cons] at hrun
      obtain ⟨t, ht, hrest⟩ := bind_eq_ok hrun
      rw [List.append_cons]
      exact ih (h.step ht) hrest

theorem left_of_run {es : List LocalEvent} {s : LocalClipboard}
    (h : LocalClipboard.run pngToCfDibv5 (new true true) es = .ok s) : Left es s :=
  have hnew : Left [] (new true true) := ⟨rfl, rfl, Nat.zero_le 1, fun _ => rfl⟩
  hnew.run h

theorem not_copiesFile_of_erase {es es' : List LocalEvent}
    (herase : es'.map LocalEvent.erase = es.map LocalEvent.erase)
    (h : ∀ e ∈ es, ¬ e.CopiesFile) : ∀ e ∈ es', ¬ e.CopiesFile := by
  intro e' he'
  have hmem : e'.erase ∈ es.map LocalEvent.erase := herase ▸ List.mem_map_of_mem he'
  obtain ⟨e, he, heq⟩ := List.mem_map.mp hmem
  rw [← e'.copiesFile_erase, ← heq, e.copiesFile_erase]
  exact h e he

/-! ## Answers -/

/-- Two clipboards with the same text and image. -/
structure Agree (s s' : LocalClipboard) : Prop where
  enableText : s.enableText = s'.enableText
  enableFile : s.enableFile = s'.enableFile
  text : s.text = s'.text
  image : s.image = s'.image

theorem Agree.eq {s s' : LocalClipboard} (h : Agree s s') (hfiles : s.files = s'.files) :
    s = s' := by
  obtain ⟨enableText, enableFile, text, image, files⟩ := s
  obtain ⟨enableText', enableFile', text', image', files'⟩ := s'
  obtain ⟨rfl, rfl, rfl, rfl⟩ := h
  cases hfiles
  rfl

/-- A call replaces the text and the image. -/
theorem agree_copy {s s' : LocalClipboard} (htext : s.enableText = s'.enableText)
    (hfile : s.enableFile = s'.enableFile) (c : LocalCopy) :
    Agree (s.copy c).1 (s'.copy c).1 := by
  cases c <;> exact ⟨htext, hfile, rfl, rfl⟩

/-- There is no second file. -/
theorem readFile_of_single {files : List (String × Vec32 UInt8)} (h : files.length ≤ 1)
    {request : FileContentsRequest} (hindex : request.index ≠ 0) :
    readFile files request = .ok none := by
  have hpos : request.index.toUInt32.toNat ≠ 0 := by
    intro hzero
    exact hindex (congrArg Int32.ofUInt32 (UInt32.toNat_inj.mp hzero))
  rw [readFile, List.getElem?_eq_none (by omega)]
  rfl

theorem Agree.answer_eq {s s' : LocalClipboard} (h : Agree s s')
    (hsingle : s.files.val.length ≤ 1) (hsingle' : s'.files.val.length ≤ 1) {r : LocalRequest}
    (hr : ¬ r.ForFile) : s.answer pngToCfDibv5 r = s'.answer pngToCfDibv5 r := by
  cases r with
  | formatList =>
      simp only [answer, onRequestFormatList, h.text, h.image]
  | formatData format =>
      simp only [answer, onFormatDataRequest, h.enableText, h.text, h.image]
  | fileContents request =>
      simp only [answer, onFileContentsRequest, h.enableFile, readFile_of_single hsingle hr,
        readFile_of_single hsingle' hr]

theorem Agree.answers_eq {s s' : LocalClipboard} (h : Agree s s')
    (hsingle : s.files.val.length ≤ 1) (hsingle' : s'.files.val.length ≤ 1) :
    ∀ {rs : List LocalRequest}, (∀ r ∈ rs, ¬ r.ForFile) →
      answers pngToCfDibv5 s rs = answers pngToCfDibv5 s' rs
  | [], _ => rfl
  | r :: rs, hrs => by
      rw [answers, answers, h.answer_eq hsingle hsingle' (hrs r (List.mem_cons_self ..)),
        h.answers_eq hsingle hsingle' fun r hr => hrs r (List.mem_cons_of_mem _ hr)]

/-- Where no file is left behind, or none is asked for, only the latest
content is served. -/
theorem latestOnly_of_withdrawn (pngToCfDibv5 : List UInt8 → Option (List UInt8))
    {earlier : List LocalEvent} {last : LocalCopy} {later : List LocalRequest}
    (h : Withdrawn earlier last later) : LatestOnly pngToCfDibv5 earlier last later := by
  intro earlier' herase s s' hrun hrun'
  have hleft := left_of_run hrun
  have hleft' := left_of_run hrun'
  have hagree : Agree (s.copy last).1 (s'.copy last).1 :=
    agree_copy (hleft.enableText.trans hleft'.enableText.symm)
      (hleft.enableFile.trans hleft'.enableFile.symm) last
  have hsame : (s.copy last).1.files = (s'.copy last).1.files →
      answers pngToCfDibv5 (s.copy last).1 later =
        answers pngToCfDibv5 (s'.copy last).1 later := by
    intro hfiles
    rw [hagree.eq hfiles]
  obtain hlast | hnone | hlater := h
  · refine hsame ?_
    cases last with
    | text text => cases hlast
    | image pngBytes => cases hlast
    | file name bytes => rfl
  · have hempty := hleft.none hnone
    have hempty' := hleft'.none (not_copiesFile_of_erase herase hnone)
    refine hsame ?_
    cases last with
    | text text => exact Subtype.ext (hempty.trans hempty'.symm)
    | image pngBytes => exact Subtype.ext (hempty.trans hempty'.symm)
    | file name bytes => rfl
  · exact hagree.answers_eq (hleft.copy last).single (hleft'.copy last).single hlater

/-- A file of one byte. -/
def oneByte (byte : UInt8) : LocalEvent := .copy (.file "a" ⟨[byte], by simp⟩)

/-- The first byte of the first file. -/
def firstByte : LocalRequest := .fileContents ⟨1, 0, .RANGE, 0, 1, none⟩

theorem latestOnly_of_withdrawn_newFile :
    LatestOnly (fun _ => none) [oneByte 1] (.file "b" ⟨[2], by decide⟩) [firstByte] :=
  latestOnly_of_withdrawn _ (.inl trivial)

/-- A file is still served after a text has been copied. -/
theorem not_latestOnly : ¬ ∀ pngToCfDibv5 earlier last later,
    LatestOnly pngToCfDibv5 earlier last later := by
  intro h
  have hanswers := h (fun _ => none) [oneByte 1] (.text "b") [firstByte] [oneByte 2] rfl _ _
    rfl rfl
  exact absurd hanswers (by decide)

end LocalClipboard

end WasmRdp
