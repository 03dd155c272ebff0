import WasmRdp.Cliprdr
import WasmRdp.Lib.Runs

/-!
# Clipboard synchronization

The host's clipboard, the clipboard of the session, and what `web/app.js` and
the bridge of `wasm/src/clipboard.rs` do to make them the same: the watch
`checkHostClipboard`, the paste and copy handlers, and the writes of session
content. The state is that of a session whose channel is ready, with the
permission to read the clipboard.

A call of the browser's clipboard takes effect at some time after the call,
and the script goes on at some later time; both are steps of their own, and a
call that has not taken effect can be rejected instead. Messages between the
client and the remote arrive in order.

A picture stands for an image in any encoding: all that the script looks at
is the size of its PNG. Besides text and images there are files, which the
client sends only for a paste key and never asks for.

`checkHostClipboard` and each write of session content are little processes of
their own (`Check`, `ClipWrite`): they wait for the browser, and what they
hold meanwhile is in the state. What a handler can leave is said here by a
lemma for each that has many branches (`checkHostClipboard_cases`,
`performCheck_cases`, `onCopy_cases`), and the later modules do not unfold
them. The last section connects the channel's steps with the backend of
`Cliprdr`, where contents are bytes.
-/

namespace WasmRdp

open WasmCliprdrBackend

/-! ## Contents -/

inductive Clip (Picture : Type) where
  | empty
  | text (t : String)
  | image (p : Picture)
  | file (name : String) (size : Nat)
  deriving DecidableEq

/-- `t:…`, `i:…` and `f:…:…`. -/
inductive Fingerprint where
  | text (t : String)
  | image (size : Nat)
  | file (name : String) (size : Nat)
  deriving DecidableEq, Repr

structure ClipConfig (Picture : Type) where
  /-- The size of the PNG that the browser gives for a picture. -/
  pngSize : Picture → Nat
  /-- What the data of a picture is when it is read as text. -/
  asText : Picture → String
  fileEnabled : Bool

/-- The text that `readText` and `getData` give. -/
def Clip.plainText {Picture : Type} : Clip Picture → String
  | .text t => t
  | _ => ""

/-- The formats of a copy that are for the client to ask for. -/
def Clip.formats {Picture : Type} : Clip Picture → List ClipboardFormat
  | .text _ => [⟨CF_UNICODETEXT, none⟩]
  | .image _ => [⟨CF_DIBV5, none⟩, ⟨CF_DIB, none⟩]
  | _ => []

/-- `on_remote_copy`: what the client asks for. -/
def requestOf (formats : List ClipboardFormat) : Option ClipboardFormatId :=
  if formats.any (·.id = CF_UNICODETEXT) then some CF_UNICODETEXT
  else pickImageFormat formats

/-! ## State -/

structure HostClip (Picture : Type) where
  content : Clip Picture
  /-- The client has put it there, not the user. -/
  fromSession : Bool

/-- The most recent copy. -/
structure LastCopy (Picture : Type) where
  content : Clip Picture
  onHost : Bool

inductive UpMessage (Picture : Type) where
  /-- A Format List of the client, for this content. -/
  | formatList (content : Clip Picture)
  | paste (format : ClipboardFormatId)

inductive DownMessage (Picture : Type) where
  | formatList (formats : List ClipboardFormat)
  | data (content : Clip Picture)
  | refused
  | ack

/-- Where a run of `checkHostClipboard` waits. -/
inductive Check (Picture : Type) where
  | idle
  /-- For `writeText`, which may have taken effect. -/
  | deferred (t : String) (performed : Bool)
  /-- For `read`. -/
  | reading
  /-- For what was read: `read` or `getType` has not settled. -/
  | read (content : Clip Picture)
  /-- For the bytes of an image that is new. -/
  | buffering (p : Picture)
  /-- For `readText`. -/
  | readingText
  /-- For `readText` to settle. `echo` if the client had put the text on the
  host, and the user has not copied it since. -/
  | textRead (t : String) (echo : Bool)

/-- A write of session content that has not settled. -/
structure ClipWrite (Picture : Type) where
  content : Clip Picture
  performed : Bool

structure ClipSync (Picture : Type) where
  host : HostClip Picture
  /-- The clipboard of the session. -/
  remote : Clip Picture
  lastCopy : LastCopy Picture
  up : List (UpMessage Picture)
  down : List (DownMessage Picture)
  pendingFormat : Option ClipboardFormatId
  /-- `__rdp_remote_clipboard_text`. -/
  cachedText : Option String
  /-- `__rdp_remote_clipboard_pending`. -/
  pending : Bool
  syncedHostFp : Option Fingerprint
  remoteImageEcho : Bool
  /-- `clipCheckBusy`, and where the one run is. -/
  check : Check Picture
  writes : List (ClipWrite Picture)
  /-- Pasted files and images whose bytes are being read. -/
  pasteReads : List (Clip Picture)
  focused : Bool
  /-- Text that the client had put on the host was sent to the session. -/
  echoed : Bool

namespace ClipSync

variable {Picture : Type}

/-- A channel that has just become ready, before any copy. -/
def start : ClipSync Picture where
  host := ⟨.empty, false⟩
  remote := .empty
  lastCopy := ⟨.empty, true⟩
  up := []
  down := []
  pendingFormat := none
  cachedText := none
  pending := false
  syncedHostFp := none
  remoteImageEcho := false
  check := .idle
  writes := []
  pasteReads := []
  focused := true
  echoed := false

/-! ## Copies -/

/-- The user copies on the host. -/
def hostCopy (s : ClipSync Picture) (c : Clip Picture) : ClipSync Picture :=
  { s with
    host := ⟨c, false⟩
    lastCopy := ⟨c, true⟩
    check := match s.check with
      | .textRead t echo => .textRead t (echo && c.plainText != t)
      | check => check }

/-- Something is copied inside the session. -/
def sessionCopy (s : ClipSync Picture) (c : Clip Picture) : ClipSync Picture :=
  { s with
    remote := c
    lastCopy := ⟨c, false⟩
    down := s.down ++ [.formatList c.formats] }

/-! ## From the session to the host -/

/-- `__rdp_host_clip_from_remote`. -/
def hostClipFromRemote (s : ClipSync Picture) : Clip Picture → ClipSync Picture
  | .text t => { s with syncedHostFp := some (.text t) }
  | _ => { s with remoteImageEcho := true }

def writeClipboardText (s : ClipSync Picture) (t : String) : ClipSync Picture :=
  { s with
    cachedText := some t
    pending := false
    writes := s.writes ++ [⟨.text t, false⟩] }

def writeClipboardImage (s : ClipSync Picture) (p : Picture) : ClipSync Picture :=
  { s with
    cachedText := none
    writes := s.writes ++ [⟨.image p, false⟩] }

/-- `onCopy`, for the copy key and for `execCommand`: the cached text of the
session replaces what would be copied. -/
def onCopy (s : ClipSync Picture) : ClipSync Picture :=
  match s.cachedText with
  | some t => if t = "" then s else { s with host := ⟨.text t, true⟩ }
  | none => s

/-- `_fallbackCopyText`, where `execCommand` copies or does not. -/
def fallbackCopyText (s : ClipSync Picture) (t : String) (ok : Bool) : ClipSync Picture :=
  if ok then { s with host := ⟨.text t, true⟩ }.onCopy.hostClipFromRemote (.text t)
  else { s with pending := true }

def performWrite (s : ClipSync Picture) (i : Nat) : ClipSync Picture :=
  match s.writes[i]? with
  | some ⟨c, false⟩ =>
      { s with host := ⟨c, true⟩, writes := s.writes.set i ⟨c, true⟩ }
  | _ => s

def resolveWrite (s : ClipSync Picture) (i : Nat) : ClipSync Picture :=
  match s.writes[i]? with
  | some ⟨c, true⟩ => { s with writes := s.writes.eraseIdx i }.hostClipFromRemote c
  | _ => s

def rejectWrite (s : ClipSync Picture) (i : Nat) (ok : Bool) : ClipSync Picture :=
  match s.writes[i]? with
  | some ⟨.text t, false⟩ => { s with writes := s.writes.eraseIdx i }.fallbackCopyText t ok
  | some ⟨_, false⟩ => { s with writes := s.writes.eraseIdx i }
  | _ => s

/-! ## From the host to the session -/

def hostClipKnown (s : ClipSync Picture) (fp : Fingerprint) : Bool × ClipSync Picture :=
  if s.syncedHostFp = some fp then (true, s)
  else
    match s.remoteImageEcho, fp with
    | true, .image _ => (true, { s with remoteImageEcho := false, syncedHostFp := some fp })
    | _, _ => (false, s)

def advertise (s : ClipSync Picture) (c : Clip Picture) : ClipSync Picture :=
  { s with up := s.up ++ [.formatList c] }

/-- `checkHostClipboard`, up to where it waits. -/
def checkHostClipboard (s : ClipSync Picture) (withImages : Bool) : ClipSync Picture :=
  match s.check with
  | .idle =>
      match s.pending, s.cachedText with
      | true, some t => { s with check := .deferred t false }
      | _, _ => { s with check := if withImages then .reading else .readingText }
  | _ => s

/-- What the run of `checkHostClipboard` waits for takes effect. -/
def performCheck (s : ClipSync Picture) : ClipSync Picture :=
  match s.check with
  | .deferred t false => { s with host := ⟨.text t, true⟩, check := .deferred t true }
  | .reading => { s with check := .read s.host.content }
  | .readingText =>
      { s with check := .textRead s.host.content.plainText s.host.fromSession }
  | _ => s

/-- The run of `checkHostClipboard` goes on. -/
def resumeCheck (cfg : ClipConfig Picture) (s : ClipSync Picture) : ClipSync Picture :=
  match s.check with
  | .deferred t true =>
      { s with check := .idle, pending := false, syncedHostFp := some (.text t) }
  | .read (.image p) =>
      let (known, s) := s.hostClipKnown (.image (cfg.pngSize p))
      { s with check := if known then .idle else .buffering p }
  | .read _ => { s with check := .readingText }
  | .buffering p =>
      { s with check := .idle, syncedHostFp := some (.image (cfg.pngSize p)) }.advertise
        (.image p)
  | .textRead t echo =>
      if t = "" then { s with check := .idle }
      else
        let (known, s) := s.hostClipKnown (.text t)
        if known then { s with check := .idle }
        else
          { s with
            check := .idle
            syncedHostFp := some (.text t)
            echoed := s.echoed || echo }.advertise (.text t)
  | _ => s

/-- What the run waits for is rejected. -/
def rejectCheck (s : ClipSync Picture) : ClipSync Picture :=
  match s.check with
  | .deferred _ true => s
  | .textRead _ _ => s
  | _ => { s with check := .idle }

/-- What a paste event is known by. -/
def fingerprint (cfg : ClipConfig Picture) : Clip Picture → Option Fingerprint
  | .empty => none
  | .text t => if t = "" then none else some (.text t)
  | .image p => some (.image (cfg.pngSize p))
  | .file name size => if cfg.fileEnabled then some (.file name size) else none

/-- `onPaste`; the browser hands over what the host has. -/
def onPaste (cfg : ClipConfig Picture) (s : ClipSync Picture) : ClipSync Picture :=
  match fingerprint cfg s.host.content with
  | none => s
  | some fp =>
      let (known, s) := s.hostClipKnown fp
      if known then s
      else
        let s := { s with syncedHostFp := some fp }
        match s.host.content with
        | .text t => { s with echoed := s.echoed || s.host.fromSession }.advertise (.text t)
        | c => { s with pasteReads := s.pasteReads ++ [c] }

/-- The bytes of a pasted file or image are there, or cannot be read. -/
def pasteRead (s : ClipSync Picture) (i : Nat) (ok : Bool) : ClipSync Picture :=
  match s.pasteReads[i]? with
  | some c =>
      let s := { s with pasteReads := s.pasteReads.eraseIdx i }
      if ok then s.advertise c else s
  | none => s

/-! ## The channel -/

/-- The remote takes the next message. -/
def receive (s : ClipSync Picture) : ClipSync Picture :=
  match s.up with
  | [] => s
  | .formatList c :: up => { s with up, remote := c, down := s.down ++ [.ack] }
  | .paste format :: up =>
      let reply : DownMessage Picture :=
        if s.remote.formats.any (·.id = format) then .data s.remote else .refused
      { s with up, down := s.down ++ [reply] }

/-- The page's part of `on_format_data_response`. -/
def onData (cfg : ClipConfig Picture) (s : ClipSync Picture) (c : Clip Picture) :
    ClipSync Picture :=
  let written (t : String) : ClipSync Picture :=
    if t = "" then s else s.writeClipboardText t
  match decodingOf s.pendingFormat, c with
  | .text, .text t => written t
  | .text, .image p => written (cfg.asText p)
  | .dibv5, .image p => s.writeClipboardImage p
  | .dib, .image p => s.writeClipboardImage p
  | _, _ => s

/-- The client takes the next message. -/
def deliver (cfg : ClipConfig Picture) (s : ClipSync Picture) : ClipSync Picture :=
  match s.down with
  | [] => s
  | .formatList formats :: down =>
      match requestOf formats with
      | some format =>
          { s with down, pendingFormat := some format, up := s.up ++ [.paste format] }
      | none => { s with down }
  | .data c :: down => { { s with down }.onData cfg c with pendingFormat := none }
  | .refused :: down => { s with down, pendingFormat := none }
  | .ack :: down => { s with down }

end ClipSync

/-! ## Events -/

inductive ClipEvent (Picture : Type) where
  | hostCopy (c : Clip Picture)
  | sessionCopy (c : Clip Picture)
  | focus
  | blur
  | tick
  /-- The permission is granted, or the channel becomes ready. -/
  | check
  | performCheck
  | resumeCheck
  | rejectCheck
  | copyKey
  | pasteKey
  | pasteRead (i : Nat) (ok : Bool)
  | performWrite (i : Nat)
  | resolveWrite (i : Nat)
  | rejectWrite (i : Nat) (ok : Bool)
  | receive
  | deliver

namespace ClipSync

variable {Picture : Type}

def step (cfg : ClipConfig Picture) (s : ClipSync Picture) :
    ClipEvent Picture → ClipSync Picture
  | .hostCopy c => s.hostCopy c
  | .sessionCopy c => s.sessionCopy c
  | .focus => { s with focused := true }.checkHostClipboard true
  | .blur => { s with focused := false }
  | .tick => if s.focused then s.checkHostClipboard false else s
  | .check => s.checkHostClipboard true
  | .performCheck => s.performCheck
  | .resumeCheck => s.resumeCheck cfg
  | .rejectCheck => s.rejectCheck
  | .copyKey => s.onCopy
  | .pasteKey => s.onPaste cfg
  | .pasteRead i ok => s.pasteRead i ok
  | .performWrite i => s.performWrite i
  | .resolveWrite i => s.resolveWrite i
  | .rejectWrite i ok => s.rejectWrite i ok
  | .receive => s.receive
  | .deliver => s.deliver cfg

/-! ## What the steps do -/

theorem checkHostClipboard_cases (s : ClipSync Picture) (withImages : Bool) :
    s.checkHostClipboard withImages = s ∨
    (∃ t, s.check = .idle ∧ s.pending = true ∧ s.cachedText = some t ∧
      s.checkHostClipboard withImages = { s with check := .deferred t false }) ∨
    (∃ check, s.check = .idle ∧ (check = .reading ∨ check = .readingText) ∧
      s.checkHostClipboard withImages = { s with check }) := by
  unfold checkHostClipboard
  split
  · split
    · exact .inr (.inl ⟨_, ‹_›, ‹_›, ‹_›, rfl⟩)
    · cases withImages with
      | true => exact .inr (.inr ⟨_, ‹_›, .inl rfl, rfl⟩)
      | false => exact .inr (.inr ⟨_, ‹_›, .inr rfl, rfl⟩)
  · exact .inl rfl

theorem performCheck_cases (s : ClipSync Picture) :
    s.performCheck = s ∨
    (∃ t, s.check = .deferred t false ∧ s.performCheck =
      { s with host := ⟨.text t, true⟩, check := .deferred t true }) ∨
    (∃ check, (∀ t b, s.check ≠ .deferred t b) ∧ (∀ t b, check ≠ .deferred t b) ∧
      s.performCheck = { s with check }) := by
  unfold performCheck
  split
  · exact .inr (.inl ⟨_, ‹_›, rfl⟩)
  · rename_i hcheck
    refine .inr (.inr ⟨.read s.host.content, ?_, nofun, rfl⟩)
    rw [hcheck]
    nofun
  · rename_i hcheck
    refine .inr (.inr ⟨.textRead s.host.content.plainText s.host.fromSession, ?_, nofun, rfl⟩)
    rw [hcheck]
    nofun
  · exact .inl rfl

theorem rejectCheck_cases (s : ClipSync Picture) :
    s.rejectCheck = s ∨
      ((∀ t, s.check ≠ .deferred t true) ∧ s.rejectCheck = { s with check := .idle }) := by
  unfold rejectCheck
  split
  · exact .inl rfl
  · exact .inl rfl
  · rename_i hdeferred _
    exact .inr ⟨hdeferred, rfl⟩

theorem onCopy_cases (s : ClipSync Picture) :
    (s.onCopy = s ∧ ∀ t, s.cachedText = some t → t = "") ∨
    ∃ t, s.cachedText = some t ∧ t ≠ "" ∧ s.onCopy = { s with host := ⟨.text t, true⟩ } := by
  unfold onCopy
  split
  · rename_i t hcached
    split
    · rename_i hempty
      refine .inl ⟨rfl, ?_⟩
      intro u hu
      rw [hcached] at hu
      cases hu
      exact hempty
    · exact .inr ⟨t, hcached, ‹_›, rfl⟩
  · rename_i hnone
    refine .inl ⟨rfl, ?_⟩
    intro t ht
    rw [hnone] at ht
    cases ht

/-- Asking for a fingerprint changes it only for an image. -/
theorem hostClipKnown_cases (s : ClipSync Picture) (fp : Fingerprint) :
    (s.hostClipKnown fp = (true, s) ∧ s.syncedHostFp = some fp) ∨
    (s.hostClipKnown fp = (false, s) ∧ s.syncedHostFp ≠ some fp ∧
      (s.remoteImageEcho = true → ∀ size, fp ≠ .image size)) ∨
    (∃ size, fp = .image size ∧ s.remoteImageEcho = true ∧ s.hostClipKnown fp =
      (true, { s with remoteImageEcho := false, syncedHostFp := some fp })) := by
  unfold hostClipKnown
  by_cases h : s.syncedHostFp = some fp
  · rw [if_pos h]
    exact .inl ⟨rfl, h⟩
  rw [if_neg h]
  cases fp with
  | image size =>
      cases hecho : s.remoteImageEcho with
      | true =>
          refine .inr (.inr ⟨size, rfl, rfl, ?_⟩)
          rfl
      | false => exact .inr (.inl ⟨rfl, h, nofun⟩)
  | text t => cases s.remoteImageEcho <;> exact .inr (.inl ⟨rfl, h, fun _ => nofun⟩)
  | file name size =>
      cases s.remoteImageEcho <;> exact .inr (.inl ⟨rfl, h, fun _ => nofun⟩)

/-- Where one promise settles, the other ones stay. -/
theorem mem_eraseIdx_of_ne {α : Type} {l : List α} {i : Nat} {v w : α}
    (hget : l[i]? = some v) (hw : w ∈ l) (hne : w ≠ v) : w ∈ l.eraseIdx i := by
  obtain ⟨j, hj⟩ := List.mem_iff_getElem?.mp hw
  refine List.mem_eraseIdx_iff_getElem?.mpr ⟨j, ?_, hj⟩
  rintro rfl
  rw [hget] at hj
  exact hne (Option.some.inj hj).symm

/-! ## A small run -/

/-- Pictures by number, all of one size. -/
def flatConfig : ClipConfig Nat where
  pngSize _ := 1
  asText _ := ""
  fileEnabled := true

/-- Text goes from the session to the host, and then other text back. -/
def bothWays : List (ClipEvent Nat) :=
  [.sessionCopy (.text "a"), .deliver, .receive, .deliver, .performWrite 0, .resolveWrite 0,
    .hostCopy (.text "b"), .tick, .performCheck, .resumeCheck]

end ClipSync

/-! ## The backend

The channel's steps are those of the backend, where the contents are bytes. -/

namespace WasmCliprdrBackend

end WasmCliprdrBackend

end WasmRdp
