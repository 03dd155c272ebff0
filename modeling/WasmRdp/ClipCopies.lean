import WasmRdp.ClipSync

/-!
# Copies

What it means that the last copy wins (`ClipSync.LastWins`), what the steps
must meet for it (`ClipSync.LastFits`), and what the reads of the host's
clipboard can do.

Copies of the two sides must not cross: nothing of the session may be on its
way to the host when the user copies there, and nothing of the host may be
sent while a copy of the session is the last one. Besides that a read or a
write that is late must not bring back what is older, and a fingerprint must
not name content that the session does not hold.

`LastWins` speaks of quiet states, in which no message, promise or write is
outstanding and the tab has the focus; there one more check has to make both
sides hold the last copy. It also says what must hold before that: a copy on
the host stays there, and is not taken for known unless the session holds it
or is about to. `target` is what the session holds once everything that is on
its way to it is there, which makes the second part a statement about a single
state.

The rest is about one check: what a run of it does when it goes on
(`resumed_resumeCheck`), and what it leaves in a quiet state, where a write
that was put off is made first (`settled_deferred`) and the host's content is
read otherwise (`settled_reading`).
-/

namespace WasmRdp

open WasmCliprdrBackend

variable {Picture : Type}

/-- What a copy can be: text or an image. -/
inductive Clip.Copyable : Clip Picture → Prop where
  | text {t : String} (h : t ≠ "") : Copyable (.text t)
  | image (p : Picture) : Copyable (.image p)

/-- The client takes the second for the first, once it has written the first
to the host. -/
def Clip.Alike : Clip Picture → Clip Picture → Prop
  | .text t, d => d = .text t
  | _, d => ∃ p, d = .image p

namespace ClipSync

variable {cfg : ClipConfig Picture} {s : ClipSync Picture}

/-! ## Agreement -/

/-- The contents that are on their way to the session. -/
def adverts (s : ClipSync Picture) : List (Clip Picture) :=
  s.up.filterMap fun
    | .formatList c => some c
    | .paste _ => none

/-- What the session holds once everything that is on its way is there. -/
def target (s : ClipSync Picture) : Clip Picture :=
  s.adverts.getLast?.getD s.remote

/-- The session comes to hold the content, which may still be read for a
paste. -/
def Reaches (s : ClipSync Picture) (c : Clip Picture) : Prop :=
  s.target = c ∨ c ∈ s.pasteReads

/-- The content is not sent: `hostClipKnown` holds of its fingerprint, if it
has one. -/
def Known (cfg : ClipConfig Picture) (s : ClipSync Picture) (c : Clip Picture) : Prop :=
  ∀ fp, fingerprint cfg c = some fp →
    s.syncedHostFp = some fp ∨ (s.remoteImageEcho = true ∧ ∃ size, fp = .image size)

/-- No message, promise or write is outstanding, and the tab has the focus. -/
structure Quiet (s : ClipSync Picture) : Prop where
  focused : s.focused = true
  up : s.up = []
  down : s.down = []
  check : s.check = .idle
  writes : s.writes = []
  pasteReads : s.pasteReads = []

/-- One run of `checkHostClipboard(true)`, and the messages it sends. -/
def settled (cfg : ClipConfig Picture) (s : ClipSync Picture) : ClipSync Picture :=
  [ClipEvent.check, .performCheck, .resumeCheck, .performCheck, .resumeCheck, .receive,
    .deliver].foldl (step cfg) s

def Agrees (s : ClipSync Picture) : Prop :=
  s.host.content = s.lastCopy.content ∧ s.remote = s.lastCopy.content

/-- In a quiet state one more check makes both sides hold the last copy; a
copy on the host stays there; and it is not taken for known unless the
session holds it, or comes to. -/
structure LastWins (cfg : ClipConfig Picture) (s : ClipSync Picture) : Prop where
  agree : s.Quiet → (s.settled cfg).Agrees
  kept : s.lastCopy.onHost = true → s.host.content = s.lastCopy.content
  seen : s.lastCopy.onHost = true → s.Known cfg s.host.content → s.Reaches s.host.content

/-! ## Conditions -/

/-- No session content is on its way to the host: not in the channel, not in
a write that has not taken effect, and not in one that was put off. -/
structure NothingComing (s : ClipSync Picture) : Prop where
  up : ∀ f, .paste f ∉ s.up
  down : ∀ m ∈ s.down, m = .ack
  writes : ∀ w ∈ s.writes, w.performed = true
  pending : s.pending = true → s.cachedText = none ∨ ∃ t, s.check = .deferred t true
  check : ∀ t, s.check ≠ .deferred t false

/-- The client has asked for the format, or is about to. -/
def Requested (s : ClipSync Picture) (f : ClipboardFormatId) : Prop :=
  .paste f ∈ s.up ∨ ∃ formats, .formatList formats ∈ s.down ∧ requestOf formats = some f

/-- What the run of `checkHostClipboard` sends when it goes on. -/
def Sends (cfg : ClipConfig Picture) (s : ClipSync Picture) (x : Clip Picture) : Prop :=
  (∃ p, s.check = .buffering p ∧ x = .image p) ∨
    ∃ t echo, s.check = .textRead t echo ∧ t ≠ "" ∧ x = .text t ∧ ¬ s.Known cfg x

/-- The content is the last copy; or the host's copy is the last one, and will
not be taken for known after the content was sent. -/
def MaySend (cfg : ClipConfig Picture) (s : ClipSync Picture) (x : Clip Picture) : Prop :=
  x = s.lastCopy.content ∨ (s.lastCopy.onHost = true ∧
    ¬ Known cfg { s with syncedHostFp := fingerprint cfg x } s.lastCopy.content)

/-- The content does not replace a copy of the session that has arrived. -/
def MayPut (s : ClipSync Picture) (x : Clip Picture) : Prop :=
  s.lastCopy.onHost = false → s.host.content = s.lastCopy.content → x = s.lastCopy.content

/-- A write that settles names the host's content only where the session
comes to hold it. -/
def MaySettle (s : ClipSync Picture) (c : Clip Picture) : Prop :=
  s.lastCopy.onHost = true → c.Alike s.lastCopy.content → s.Reaches s.lastCopy.content

def LastFits (cfg : ClipConfig Picture) (s : ClipSync Picture) : ClipEvent Picture → Prop
  | .hostCopy c => c.Copyable ∧ s.NothingComing ∧ (s.Known cfg c → s.Reaches c)
  | .sessionCopy c => c.Copyable ∧ s.adverts = [] ∧
      ∀ f, s.Requested f → requestOf c.formats = some f
  | .copyKey => s.lastCopy.onHost = true → ∀ t, s.cachedText = some t → t ≠ "" →
      s.lastCopy.content = .text t
  | .pasteKey => s.lastCopy.onHost = false → s.Known cfg s.host.content ∨
      s.host.content = s.lastCopy.content
  | .pasteRead i ok => ∀ x, s.pasteReads[i]? = some x →
      if s.lastCopy.onHost then
        s.Known cfg s.lastCopy.content → (ok = true ↔ x = s.lastCopy.content)
      else ok = true → x = s.lastCopy.content
  | .performCheck => ∀ t, s.check = .deferred t false → s.MayPut (.text t)
  | .resumeCheck => (∀ x, s.Sends cfg x → s.MaySend cfg x) ∧
      ∀ t, s.check = .deferred t true → s.MaySettle (.text t) ∧
        (s.lastCopy.onHost = false → s.pending = true → ∀ u, s.cachedText = some u →
          s.lastCopy.content = .text u → s.host.content = .text u)
  | .performWrite i => ∀ c, s.writes[i]? = some ⟨c, false⟩ → s.MayPut c
  | .resolveWrite i => ∀ c, s.writes[i]? = some ⟨c, true⟩ → s.MaySettle c
  | .rejectWrite i ok =>
      (∀ t, s.writes[i]? = some ⟨.text t, false⟩ → ok = true → s.cachedText = none →
        s.MayPut (.text t)) ∧
      ∀ p, s.writes[i]? = some ⟨.image p, false⟩ → s.lastCopy.onHost = false →
        s.lastCopy.content = .image p → s.host.content = .image p
  | _ => True

/-! ## What is read -/

/-- What is known of content when its fingerprint was asked for. -/
theorem hostClipKnown_of {c : Clip Picture} {fp : Fingerprint}
    (hfp : fingerprint cfg c = some fp) :
    (s.hostClipKnown fp = (true, s) ∧ s.Known cfg c) ∨
    (s.hostClipKnown fp = (false, s) ∧ ¬ s.Known cfg c) ∨
    (∃ size, fp = .image size ∧ s.remoteImageEcho = true ∧ s.hostClipKnown fp =
      (true, { s with remoteImageEcho := false, syncedHostFp := some fp })) := by
  have hknown_iff : s.Known cfg c ↔
      s.syncedHostFp = some fp ∨ (s.remoteImageEcho = true ∧ ∃ size, fp = .image size) := by
    rw [Known, hfp]
    constructor
    · intro h
      exact h fp rfl
    · rintro h _ ⟨⟩
      exact h
  rcases s.hostClipKnown_cases fp with ⟨heq, hsame⟩ | ⟨heq, hother, hecho⟩ | himage
  · exact .inl ⟨heq, hknown_iff.mpr (.inl hsame)⟩
  · refine .inr (.inl ⟨heq, fun hknown => ?_⟩)
    rcases hknown_iff.mp hknown with hsame | ⟨hflag, size, hsize⟩
    · exact hother hsame
    · exact hecho hflag size hsize
  · exact .inr (.inr himage)

/-- The echo of an image is used up. -/
def echoUsed (s : ClipSync Picture) (size : Nat) : ClipSync Picture :=
  { s with remoteImageEcho := false, syncedHostFp := some (.image size) }

/-- What a run of the check does when it goes on. -/
inductive Resumed (cfg : ClipConfig Picture) (s : ClipSync Picture) : ClipSync Picture → Prop where
  | nothing : Resumed cfg s s
  | waits {check : Check Picture} (hold : ∀ t b, s.check ≠ .deferred t b)
      (hnew : ∀ t b, check ≠ .deferred t b) : Resumed cfg s { s with check }
  | landed {t : String} (hcheck : s.check = .deferred t true) :
      Resumed cfg s { s with check := .idle, pending := false, syncedHostFp := some (.text t) }
  | known {size : Nat} (hold : ∀ t b, s.check ≠ .deferred t b)
      (hecho : s.remoteImageEcho = true) :
      Resumed cfg s { s.echoUsed size with check := .idle }
  | sent {x : Clip Picture} {echoed : Bool} (hold : ∀ t b, s.check ≠ .deferred t b)
      (h : s.Sends cfg x) :
      Resumed cfg s ({ s with
        check := .idle, syncedHostFp := fingerprint cfg x, echoed }.advertise x)

theorem resumed_resumeCheck (cfg : ClipConfig Picture) (s : ClipSync Picture) :
    Resumed cfg s (s.resumeCheck cfg) := by
  unfold resumeCheck
  split
  · exact .landed ‹_›
  · rename_i p hcheck
    have hold : ∀ t b, s.check ≠ .deferred t b := by
      rw [hcheck]
      nofun
    have hfp : fingerprint cfg (.image p) = some (.image (cfg.pngSize p)) := rfl
    rcases hostClipKnown_of (s := s) hfp with ⟨hknown, -⟩ | ⟨hknown, -⟩ | ⟨size, -, hecho, hknown⟩
    · rw [hknown]
      exact .waits hold nofun
    · rw [hknown]
      exact .waits hold nofun
    · rw [hknown]
      exact .known hold hecho
  · rename_i hcheck
    refine .waits ?_ nofun
    rw [hcheck]
    nofun
  · rename_i p hcheck
    refine .sent ?_ (.inl ⟨p, hcheck, rfl⟩)
    rw [hcheck]
    nofun
  · rename_i t echo hcheck
    have hold : ∀ t b, s.check ≠ .deferred t b := by
      rw [hcheck]
      nofun
    split
    · exact .waits hold nofun
    · rename_i hne
      have hfp : fingerprint cfg (.text t : Clip Picture) = some (.text t) := if_neg hne
      rcases hostClipKnown_of (s := s) hfp with ⟨hknown, -⟩ | ⟨hknown, hnew⟩ | ⟨size, hsize, -⟩
      · rw [hknown]
        exact .waits hold nofun
      · rw [hknown]
        have hsent : Resumed cfg s ({ s with
            check := .idle
            syncedHostFp := fingerprint cfg (.text t)
            echoed := s.echoed || echo }.advertise (.text t)) :=
          .sent hold (.inr ⟨t, echo, hcheck, hne, rfl, hnew⟩)
        rw [hfp] at hsent
        exact hsent
      · cases hsize
  · exact .nothing

/-- What a paste does. -/
inductive Pasted (cfg : ClipConfig Picture) (s : ClipSync Picture) : ClipSync Picture → Prop where
  | nothing : Pasted cfg s s
  | known {size : Nat} (hecho : s.remoteImageEcho = true) : Pasted cfg s (s.echoUsed size)
  | sent {echoed : Bool} (h : ¬ s.Known cfg s.host.content) :
      Pasted cfg s ({ s with
        syncedHostFp := fingerprint cfg s.host.content, echoed }.advertise s.host.content)
  | reading (h : ¬ s.Known cfg s.host.content) :
      Pasted cfg s { s with
        syncedHostFp := fingerprint cfg s.host.content
        pasteReads := s.pasteReads ++ [s.host.content] }

theorem pasted_onPaste (cfg : ClipConfig Picture) (s : ClipSync Picture) :
    Pasted cfg s (s.onPaste cfg) := by
  unfold onPaste
  split
  · exact .nothing
  rename_i fp hfp
  rcases hostClipKnown_of (s := s) hfp with ⟨hknown, -⟩ | ⟨hknown, hnew⟩ |
    ⟨size, rfl, hecho, hknown⟩
  · rw [hknown]
    exact .nothing
  · rw [hknown]
    dsimp only
    rw [if_neg Bool.false_ne_true]
    split
    · rename_i t hhost
      have hsent : Pasted cfg s ({ s with
          syncedHostFp := fingerprint cfg s.host.content
          echoed := s.echoed || s.host.fromSession }.advertise s.host.content) :=
        .sent hnew
      rw [hfp, hhost] at hsent
      exact hsent
    · have hreading : Pasted cfg s { s with
          syncedHostFp := fingerprint cfg s.host.content
          pasteReads := s.pasteReads ++ [s.host.content] } := .reading hnew
      rw [hfp] at hreading
      exact hreading
  · rw [hknown]
    exact .known hecho

/-! ## What the session comes to hold -/

theorem adverts_advertise (s : ClipSync Picture) (c : Clip Picture) :
    (s.advertise c).adverts = s.adverts ++ [c] := by
  rw [advertise, adverts, List.filterMap_append]
  rfl

theorem target_advertise (s : ClipSync Picture) (c : Clip Picture) :
    (s.advertise c).target = c := by
  rw [target, adverts_advertise, List.getLast?_concat, Option.getD_some]

theorem mem_adverts {c : Clip Picture} : c ∈ s.adverts ↔ .formatList c ∈ s.up := by
  rw [adverts, List.mem_filterMap]
  constructor
  · rintro ⟨m, hm, hc⟩
    cases m with
    | formatList d =>
        cases hc
        exact hm
    | paste f => cases hc
  · intro h
    exact ⟨_, h, rfl⟩

/-- The next message of the client arrives. -/
theorem target_receive (s : ClipSync Picture) : s.receive.target = s.target := by
  unfold receive
  split
  · rfl
  · rename_i c up hup
    rw [target, target, adverts, adverts, hup]
    cases hlast : up.filterMap _ with
    | nil => simp [hlast]
    | cons x l => simp [hlast, List.getLast?_cons]
  · rename_i format up hup
    rw [target, target, adverts, adverts, hup]
    rfl

/-! ## A quiet state -/

/-- A write that was put off is made. -/
theorem settled_deferred (h : s.Quiet) {t : String} (hpending : s.pending = true)
    (hcached : s.cachedText = some t) : s.settled cfg = { s with
      host := ⟨.text t, true⟩, pending := false, syncedHostFp := some (.text t) } := by
  obtain ⟨host, remote, lastCopy, up, down, pendingFormat, cachedText, pending, syncedHostFp,
    remoteImageEcho, check, writes, pasteReads, focused, echoed⟩ := s
  obtain ⟨rfl, rfl, rfl, rfl, rfl, rfl⟩ := h
  cases hpending
  cases hcached
  rfl

theorem checkHostClipboard_reading (hidle : s.check = .idle)
    (hpending : s.pending = true → s.cachedText = none) :
    s.checkHostClipboard true = { s with check := .reading } := by
  unfold checkHostClipboard
  split
  · split
    · rename_i t hp hcached
      rw [hpending hp] at hcached
      cases hcached
    · rfl
  · rename_i hnot
    exact absurd hidle hnot

/-- Otherwise the host's content is read, and sent if it is new. -/
theorem settled_reading (cfg : ClipConfig Picture) (h : s.Quiet)
    (hpending : s.pending = true → s.cachedText = none)
    (hhost : s.host.content.Copyable ∨ s.host.content = .empty) :
    (s.settled cfg).host = s.host ∧ (s.settled cfg).lastCopy = s.lastCopy ∧
      ((s.Known cfg s.host.content ∧ (s.settled cfg).remote = s.remote) ∨
        (s.settled cfg).remote = s.host.content) := by
  have hread := checkHostClipboard_reading h.check hpending
  rw [settled, List.foldl_cons, step, hread]
  obtain ⟨⟨content, fromSession⟩, remote, lastCopy, up, down, pendingFormat, cachedText, pending,
    syncedHostFp, remoteImageEcho, check, writes, pasteReads, focused, echoed⟩ := s
  obtain ⟨rfl, rfl, rfl, rfl, rfl, rfl⟩ := h
  clear hread
  rcases hhost with hhost | hhost
  swap
  · cases hhost
    refine ⟨rfl, rfl, .inl ⟨?_, rfl⟩⟩
    intro fp hfp
    cases hfp
  cases hhost with
  | @text t hne =>
      have hfp : fingerprint cfg (.text t : Clip Picture) = some (.text t) := if_neg hne
      simp only [List.foldl_cons, List.foldl_nil, step, performCheck, resumeCheck,
        Clip.plainText, if_neg hne]
      rcases hostClipKnown_of (s := ClipSync.mk ⟨.text t, fromSession⟩ remote lastCopy [] []
        pendingFormat cachedText pending syncedHostFp remoteImageEcho (.textRead t fromSession)
        [] [] true echoed) hfp with ⟨hknown, h⟩ | ⟨hknown, -⟩ | ⟨size, hsize, -⟩
      · rw [hknown]
        exact ⟨rfl, rfl, .inl ⟨h, rfl⟩⟩
      · rw [hknown]
        exact ⟨rfl, rfl, .inr rfl⟩
      · cases hsize
  | image p =>
      have hfp : fingerprint cfg (.image p) = some (.image (cfg.pngSize p)) := rfl
      simp only [List.foldl_cons, List.foldl_nil, step, performCheck, resumeCheck]
      rcases hostClipKnown_of (s := ClipSync.mk ⟨.image p, fromSession⟩ remote lastCopy [] []
        pendingFormat cachedText pending syncedHostFp remoteImageEcho (.read (.image p))
        [] [] true echoed) hfp with ⟨hknown, h⟩ | ⟨hknown, -⟩ | ⟨size, -, hecho, hknown⟩
      · rw [hknown]
        exact ⟨rfl, rfl, .inl ⟨h, rfl⟩⟩
      · rw [hknown]
        exact ⟨rfl, rfl, .inr rfl⟩
      · rw [hknown]
        refine ⟨rfl, rfl, .inl ⟨?_, rfl⟩⟩
        rintro _ ⟨⟩
        exact .inr ⟨hecho, _, rfl⟩

end ClipSync

end WasmRdp
