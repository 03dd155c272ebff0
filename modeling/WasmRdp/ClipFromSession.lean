import WasmRdp.ClipCopies

/-!
# Copies of the session

The last copy was made in the session, and what is sent there is the same
(`ClipSync.FromSession`). Until the host has it, the copy is announced in the
channel, or the client has asked for it, or has taken it and has yet to write
it (`ClipSync.Progress`). Most steps leave the channel alone
(`ClipSync.Apart`), and then only the host has to be looked at
(`Progress.of_apart`).

The three stages follow one another with the messages. A format list that is
announced leads the client to ask (`FromSession.asked_deliver`), the remote
answers with the copy (`FromSession.receive_cases`), and its data is taken and
written (`FromSession.taken_deliver`). Behind these messages only such may
stand as do not undo them: no refusal of a paste, and no other content
(`DownMessage.Brings`).

Once the client has it, the copy is on the host or comes there (`Here`): by a
write that has yet to take effect, or by one that was put off because the tab
had no focus. The lemmas `Taken.here_…` take that through each handler. A copy
key may put the cached text on the host, which is then the copy itself; where
the handler has nothing to put there, the copy is an image
(`Taken.cachedText_eq_none`).
-/

namespace WasmRdp

open WasmCliprdrBackend

variable {Picture : Type}

/-- What the client caches of content that it takes. -/
def Clip.cached : Clip Picture → Option String
  | .text t => some t
  | _ => none

/-- A message does not refuse a paste, and brings no other content. -/
def DownMessage.Brings (c : Clip Picture) : DownMessage Picture → Prop
  | .data x => x = c
  | .refused => False
  | _ => True

theorem Clip.Copyable.request {c : Clip Picture} (h : c.Copyable) :
    ∃ f, requestOf c.formats = some f := by
  cases h with
  | text => exact ⟨_, rfl⟩
  | image => exact ⟨_, rfl⟩

/-- The remote has the format that the client asks for. -/
theorem Clip.Copyable.offers {c : Clip Picture} (h : c.Copyable) {f : ClipboardFormatId}
    (hf : requestOf c.formats = some f) : c.formats.any (·.id = f) = true := by
  cases h with
  | text =>
      cases hf
      rfl
  | image =>
      cases hf
      rfl

namespace ClipSync

variable {cfg : ClipConfig Picture} {s : ClipSync Picture}

/-! ## What is sent -/

/-- The session has the last copy, and what is sent to it is the same. -/
structure FromSession (s : ClipSync Picture) : Prop where
  session : s.lastCopy.onHost = false
  copyable : s.lastCopy.content.Copyable
  remote : s.remote = s.lastCopy.content
  adverts : ∀ x, .formatList x ∈ s.up → x = s.lastCopy.content
  requested : ∀ f, s.Requested f → requestOf s.lastCopy.content.formats = some f

theorem fromSession_sessionCopy {c : Clip Picture} (hfits : s.LastFits cfg (.sessionCopy c)) :
    (s.sessionCopy c).FromSession := by
  obtain ⟨hcopyable, hadverts, hrequested⟩ := hfits
  refine ⟨rfl, hcopyable, rfl, ?_, ?_⟩
  · intro x hx
    have hmem : x ∈ s.adverts := mem_adverts.mpr hx
    rw [hadverts] at hmem
    cases hmem
  · rintro f (hpaste | ⟨formats, hmem, hrequest⟩)
    · exact hrequested f (.inl hpaste)
    · rcases List.mem_append.mp hmem with hmem | hmem
      · exact hrequested f (.inr ⟨formats, hmem, hrequest⟩)
      · cases List.mem_singleton.mp hmem
        exact hrequest

/-- A step that leaves the channel alone, and may send the last copy. -/
structure Apart (s s' : ClipSync Picture) : Prop where
  lastCopy : s'.lastCopy = s.lastCopy
  remote : s'.remote = s.remote
  down : s'.down = s.down
  pendingFormat : s'.pendingFormat = s.pendingFormat
  cachedText : s'.cachedText = s.cachedText
  up : s'.up = s.up ∨ s'.up = s.up ++ [.formatList s.lastCopy.content]

theorem apart_of_check (s : ClipSync Picture) (check : Check Picture) :
    s.Apart { s with check } :=
  ⟨rfl, rfl, rfl, rfl, rfl, .inl rfl⟩

theorem apart_checkHostClipboard (s : ClipSync Picture) (withImages : Bool) :
    s.Apart (s.checkHostClipboard withImages) := by
  rcases s.checkHostClipboard_cases withImages with heq | ⟨t, -, -, -, heq⟩ | ⟨check, -, -, heq⟩
  · rw [heq]
    exact s.apart_of_check s.check
  · rw [heq]
    exact s.apart_of_check _
  · rw [heq]
    exact s.apart_of_check _

theorem apart_performCheck (s : ClipSync Picture) : s.Apart s.performCheck := by
  rcases s.performCheck_cases with heq | ⟨t, -, heq⟩ | ⟨check, -, -, heq⟩
  · rw [heq]
    exact s.apart_of_check s.check
  · rw [heq]
    exact ⟨rfl, rfl, rfl, rfl, rfl, .inl rfl⟩
  · rw [heq]
    exact s.apart_of_check _

theorem apart_rejectCheck (s : ClipSync Picture) : s.Apart s.rejectCheck := by
  rcases s.rejectCheck_cases with heq | ⟨-, heq⟩
  · rw [heq]
    exact s.apart_of_check s.check
  · rw [heq]
    exact s.apart_of_check _

theorem apart_onCopy (s : ClipSync Picture) : s.Apart s.onCopy := by
  rcases s.onCopy_cases with ⟨heq, -⟩ | ⟨t, -, -, heq⟩
  · rw [heq]
    exact s.apart_of_check s.check
  · rw [heq]
    exact ⟨rfl, rfl, rfl, rfl, rfl, .inl rfl⟩

theorem FromSession.sends (h : s.FromSession) {x : Clip Picture} (hfits : s.MaySend cfg x) :
    x = s.lastCopy.content := by
  rcases hfits with hx | ⟨honHost, -⟩
  · exact hx
  · rw [h.session] at honHost
    cases honHost

theorem FromSession.apart_resumeCheck (h : s.FromSession) (hfits : s.LastFits cfg .resumeCheck) :
    s.Apart (s.resumeCheck cfg) := by
  have hres := resumed_resumeCheck cfg s
  generalize s.resumeCheck cfg = s' at hres ⊢
  cases hres with
  | nothing => exact s.apart_of_check s.check
  | waits hold hnew => exact s.apart_of_check _
  | landed hcheck => exact ⟨rfl, rfl, rfl, rfl, rfl, .inl rfl⟩
  | known hold hecho => exact ⟨rfl, rfl, rfl, rfl, rfl, .inl rfl⟩
  | sent hold hsends =>
      rw [h.sends (hfits.1 _ hsends)]
      exact ⟨rfl, rfl, rfl, rfl, rfl, .inr rfl⟩

theorem FromSession.apart_onPaste (h : s.FromSession) (hfits : s.LastFits cfg .pasteKey) :
    s.Apart (s.onPaste cfg) := by
  have hpasted := pasted_onPaste cfg s
  generalize s.onPaste cfg = s' at hpasted ⊢
  cases hpasted with
  | nothing => exact s.apart_of_check s.check
  | known hecho => exact ⟨rfl, rfl, rfl, rfl, rfl, .inl rfl⟩
  | sent hnew =>
      rcases hfits h.session with hknown | hlast
      · exact absurd hknown hnew
      · rw [hlast]
        exact ⟨rfl, rfl, rfl, rfl, rfl, .inr rfl⟩
  | reading hnew => exact ⟨rfl, rfl, rfl, rfl, rfl, .inl rfl⟩

theorem FromSession.apart_pasteRead (h : s.FromSession) {i : Nat} {ok : Bool}
    (hfits : s.LastFits cfg (.pasteRead i ok)) : s.Apart (s.pasteRead i ok) := by
  unfold pasteRead
  split
  · rename_i x hget
    have hsame := hfits x hget
    rw [if_neg (Bool.eq_false_iff.mp h.session)] at hsame
    dsimp only
    split
    · rename_i hok
      rw [hsame hok]
      exact ⟨rfl, rfl, rfl, rfl, rfl, .inr rfl⟩
    · exact ⟨rfl, rfl, rfl, rfl, rfl, .inl rfl⟩
  · exact s.apart_of_check s.check

theorem apart_performWrite (s : ClipSync Picture) (i : Nat) : s.Apart (s.performWrite i) := by
  unfold performWrite
  split
  · exact ⟨rfl, rfl, rfl, rfl, rfl, .inl rfl⟩
  · exact s.apart_of_check s.check

theorem apart_resolveWrite (s : ClipSync Picture) (i : Nat) : s.Apart (s.resolveWrite i) := by
  unfold resolveWrite
  split
  · rename_i c hget
    cases c <;> exact ⟨rfl, rfl, rfl, rfl, rfl, .inl rfl⟩
  · exact s.apart_of_check s.check

theorem apart_rejectWrite (s : ClipSync Picture) (i : Nat) (ok : Bool) :
    s.Apart (s.rejectWrite i ok) := by
  unfold rejectWrite
  split
  · unfold fallbackCopyText
    split
    · rcases onCopy_cases { s with writes := s.writes.eraseIdx i, host := ⟨.text _, true⟩ } with
        ⟨heq, -⟩ | ⟨u, -, -, heq⟩
      · rw [heq]
        exact ⟨rfl, rfl, rfl, rfl, rfl, .inl rfl⟩
      · rw [heq]
        exact ⟨rfl, rfl, rfl, rfl, rfl, .inl rfl⟩
    · exact ⟨rfl, rfl, rfl, rfl, rfl, .inl rfl⟩
  · exact ⟨rfl, rfl, rfl, rfl, rfl, .inl rfl⟩
  · exact s.apart_of_check s.check

theorem FromSession.of_apart {s' : ClipSync Picture} (h : s.FromSession) (ha : s.Apart s') :
    s'.FromSession := by
  have hmem : ∀ m ∈ s'.up, m ∈ s.up ∨ m = .formatList s.lastCopy.content := by
    intro m hm
    rcases ha.up with hup | hup
    · rw [hup] at hm
      exact .inl hm
    · rw [hup] at hm
      rcases List.mem_append.mp hm with hm | hm
      · exact .inl hm
      · exact .inr (List.mem_singleton.mp hm)
  refine ⟨?_, ?_, ?_, ?_, ?_⟩
  · rw [ha.lastCopy, h.session]
  · rw [ha.lastCopy]
    exact h.copyable
  · rw [ha.remote, ha.lastCopy, h.remote]
  · intro x hx
    rw [ha.lastCopy]
    rcases hmem _ hx with hx | hx
    · exact h.adverts x hx
    · cases hx
      rfl
  · rw [ha.lastCopy]
    rintro f (hpaste | ⟨formats, hlist, hrequest⟩)
    · rcases hmem _ hpaste with hpaste | hpaste
      · exact h.requested f (.inl hpaste)
      · cases hpaste
    · rw [ha.down] at hlist
      exact h.requested f (.inr ⟨formats, hlist, hrequest⟩)

/-! ## The way to the host -/

/-- A write of the last copy has yet to take effect, or was put off. -/
def Lands (s : ClipSync Picture) : Prop :=
  (∃ w ∈ s.writes, w.content = s.lastCopy.content ∧ w.performed = false) ∨
    (s.pending = true ∧ ∃ t, s.lastCopy.content = .text t)

/-- The last copy is on the host, or comes there. -/
def Here (s : ClipSync Picture) : Prop :=
  s.Lands ∨ s.host.content = s.lastCopy.content

/-- The client has the last copy. -/
structure Taken (s : ClipSync Picture) : Prop where
  down : ∀ m ∈ s.down, m.Brings s.lastCopy.content
  format : s.pendingFormat = none ∨ s.pendingFormat = requestOf s.lastCopy.content.formats
  cached : s.cachedText = s.lastCopy.content.cached
  here : s.Here

inductive Progress (s : ClipSync Picture) : Prop
  | announced {pre post : List (DownMessage Picture)} {formats : List ClipboardFormat}
      (hdown : s.down = pre ++ .formatList formats :: post)
      (hrequest : requestOf formats = requestOf s.lastCopy.content.formats)
      (hpost : ∀ m ∈ post, m.Brings s.lastCopy.content)
  | asked (hformat : s.pendingFormat = requestOf s.lastCopy.content.formats)
      (hdown : ∀ m ∈ s.down, m.Brings s.lastCopy.content)
      (hcomes : (∃ f, .paste f ∈ s.up) ∨ .data s.lastCopy.content ∈ s.down)
  | taken (h : s.Taken)

theorem progress_sessionCopy (s : ClipSync Picture) (c : Clip Picture) :
    (s.sessionCopy c).Progress :=
  .announced rfl rfl nofun

/-- Where the channel stays, only the host has to be looked at. -/
theorem Progress.of_apart {s' : ClipSync Picture} (h : s.Progress) (ha : s.Apart s')
    (hhere : s.Taken → s'.Here) : s'.Progress := by
  cases h with
  | announced hdown hrequest hpost =>
      refine .announced (ha.down.trans hdown) ?_ ?_
      · rw [ha.lastCopy, hrequest]
      · rw [ha.lastCopy]
        exact hpost
  | asked hformat hdown hcomes =>
      refine .asked ?_ ?_ ?_
      · rw [ha.pendingFormat, ha.lastCopy, hformat]
      · rw [ha.down, ha.lastCopy]
        exact hdown
      · rw [ha.down, ha.lastCopy]
        rcases hcomes with ⟨f, hf⟩ | hdata
        · refine .inl ⟨f, ?_⟩
          rcases ha.up with hup | hup
          · rw [hup]
            exact hf
          · rw [hup]
            exact List.mem_append_left _ hf
        · exact .inr hdata
  | taken h =>
      refine .taken ⟨?_, ?_, ?_, hhere h⟩
      · rw [ha.down, ha.lastCopy]
        exact h.down
      · rw [ha.pendingFormat, ha.lastCopy]
        exact h.format
      · rw [ha.cachedText, ha.lastCopy, h.cached]

/-- The last copy is put on the host, or it has yet to land as before. -/
theorem Taken.here_of_put {s' : ClipSync Picture} {x : Clip Picture} (h : s.Taken)
    (hsession : s.lastCopy.onHost = false) (hfits : s.MayPut x)
    (hlast : s'.lastCopy = s.lastCopy) (hhost : s'.host.content = x)
    (hlands : s.Lands → s'.Lands ∨ x = s.lastCopy.content) : s'.Here := by
  rw [Here, hlast, hhost]
  rcases h.here with hl | hhere
  · exact hlands hl
  · exact .inr (hfits hsession hhere)

theorem Taken.here_checkHostClipboard (h : s.Taken) (withImages : Bool) :
    (s.checkHostClipboard withImages).Here := by
  rcases s.checkHostClipboard_cases withImages with heq | ⟨t, -, -, -, heq⟩ | ⟨check, -, -, heq⟩
  · rw [heq]
    exact h.here
  · rw [heq]
    exact h.here
  · rw [heq]
    exact h.here

theorem Taken.here_performCheck (h : s.Taken) (hsession : s.lastCopy.onHost = false)
    (hfits : s.LastFits cfg .performCheck) :
    s.performCheck.Here := by
  rcases s.performCheck_cases with heq | ⟨t, hcheck, heq⟩ | ⟨check, -, -, heq⟩
  · rw [heq]
    exact h.here
  · rw [heq]
    exact h.here_of_put hsession (hfits t hcheck) rfl rfl .inl
  · rw [heq]
    exact h.here

theorem Taken.here_rejectCheck (h : s.Taken) :
    s.rejectCheck.Here := by
  rcases s.rejectCheck_cases with heq | ⟨-, heq⟩
  · rw [heq]
    exact h.here
  · rw [heq]
    exact h.here

theorem cached_eq_some {c : Clip Picture} {t : String} (h : c.cached = some t) : c = .text t := by
  cases c with
  | text u =>
      cases h
      rfl
  | _ => cases h

theorem Taken.here_onCopy (h : s.Taken) :
    s.onCopy.Here := by
  rcases s.onCopy_cases with ⟨heq, -⟩ | ⟨t, hcached, -, heq⟩
  · rw [heq]
    exact h.here
  · rw [heq]
    exact .inr (cached_eq_some (h.cached.symm.trans hcached)).symm

theorem Taken.here_resumeCheck (h : s.Taken) (hsession : s.lastCopy.onHost = false)
    (hfits : s.LastFits cfg .resumeCheck) :
    (s.resumeCheck cfg).Here := by
  have hres := resumed_resumeCheck cfg s
  generalize s.resumeCheck cfg = s' at hres ⊢
  cases hres with
  | nothing => exact h.here
  | waits hold hnew => exact h.here
  | @landed t hcheck =>
      rcases h.here with hlands | hhere
      · rcases hlands with hwrite | ⟨hpending, u, hu⟩
        · exact .inl (.inl hwrite)
        · have hcached : s.cachedText = some u := by
            rw [h.cached, hu]
            rfl
          exact .inr (((hfits.2 t hcheck).2 hsession hpending u hcached hu).trans hu.symm)
      · exact .inr hhere
  | known hold hecho => exact h.here
  | sent hold hsends => exact h.here

theorem Taken.here_onPaste (h : s.Taken) :
    (s.onPaste cfg).Here := by
  have hpasted := pasted_onPaste cfg s
  generalize s.onPaste cfg = s' at hpasted ⊢
  cases hpasted <;> exact h.here

theorem Taken.here_pasteRead (h : s.Taken) (i : Nat) (ok : Bool) :
    (s.pasteRead i ok).Here := by
  unfold pasteRead
  split
  · dsimp only
    split <;> exact h.here
  · exact h.here

/-- Where one promise is marked, the other ones stay. -/
theorem mem_set_of_ne {α : Type} {l : List α} {i : Nat} {v w x : α}
    (hget : l[i]? = some v) (hw : w ∈ l) (hne : w ≠ v) : w ∈ l.set i x := by
  obtain ⟨j, hj⟩ := List.mem_iff_getElem?.mp hw
  refine List.mem_iff_getElem?.mpr ⟨j, ?_⟩
  rw [List.getElem?_set_ne, hj]
  rintro rfl
  rw [hget] at hj
  exact hne (Option.some.inj hj).symm

theorem Taken.here_performWrite (h : s.Taken) (hsession : s.lastCopy.onHost = false) {i : Nat}
    (hfits : s.LastFits cfg (.performWrite i)) :
    (s.performWrite i).Here := by
  unfold performWrite
  split
  · rename_i x hget
    refine h.here_of_put hsession (hfits x hget) rfl rfl ?_
    rintro (⟨w, hw, hcontent, hperformed⟩ | hpending)
    · by_cases hsame : w = ⟨x, false⟩
      · rw [hsame] at hcontent
        exact .inr hcontent
      · exact .inl (.inl ⟨w, mem_set_of_ne hget hw hsame, hcontent, hperformed⟩)
    · exact .inl (.inr hpending)
  · exact h.here

/-- A write that has taken effect is taken off the list. -/
theorem Lands.of_erased (h : s.Lands) {i : Nat} {x : ClipWrite Picture}
    (hget : s.writes[i]? = some x)
    (hother : x.content = s.lastCopy.content → x.performed = true) :
    Lands { s with writes := s.writes.eraseIdx i } := by
  rcases h with ⟨w, hw, hcontent, hperformed⟩ | hpending
  · refine .inl ⟨w, mem_eraseIdx_of_ne hget hw ?_, hcontent, hperformed⟩
    rintro rfl
    rw [hother hcontent] at hperformed
    cases hperformed
  · exact .inr hpending

theorem Taken.here_resolveWrite (h : s.Taken) (i : Nat) :
    (s.resolveWrite i).Here := by
  unfold resolveWrite
  split
  · rename_i x hget
    have hhere : Lands { s with writes := s.writes.eraseIdx i } ∨
        s.host.content = s.lastCopy.content := by
      rcases h.here with hlands | hhere
      · exact .inl (hlands.of_erased hget fun _ => rfl)
      · exact .inr hhere
    cases x <;> exact hhere
  · exact h.here

/-- Where the copy handler has nothing to put on the host, the last copy is an
image. -/
theorem Taken.cachedText_eq_none (h : s.Taken) (hs : s.FromSession)
    (hempty : ∀ t, s.cachedText = some t → t = "") : s.cachedText = none := by
  cases hcached : s.cachedText with
  | none => rfl
  | some t =>
      have hcopyable := hs.copyable
      rw [cached_eq_some (h.cached.symm.trans hcached)] at hcopyable
      cases hcopyable with
      | text hne => exact absurd (hempty t hcached) hne

theorem Taken.here_fallbackCopyText (h : s.Taken) (hs : s.FromSession) {i : Nat} {t : String}
    {ok : Bool} (hget : s.writes[i]? = some ⟨.text t, false⟩)
    (hfits : ok = true → s.cachedText = none → s.MayPut (.text t)) :
    ({ s with writes := s.writes.eraseIdx i }.fallbackCopyText t ok).Here := by
  unfold fallbackCopyText
  split
  · rename_i hok
    rcases onCopy_cases { s with writes := s.writes.eraseIdx i, host := ⟨.text t, true⟩ } with
      ⟨heq, hempty⟩ | ⟨u, hcached, -, heq⟩
    · rw [heq]
      have hnone := h.cachedText_eq_none hs hempty
      refine h.here_of_put hs.session (hfits hok hnone) rfl rfl ?_
      intro hlands
      by_cases hsame : Clip.text t = s.lastCopy.content
      · exact .inr hsame
      · exact .inl (hlands.of_erased hget fun heq => absurd heq hsame)
    · rw [heq]
      have hcached : s.cachedText = some u := hcached
      exact .inr (cached_eq_some (h.cached.symm.trans hcached)).symm
  · rcases h.here with hlands | hhere
    · by_cases hsame : Clip.text t = s.lastCopy.content
      · exact .inl (.inr ⟨rfl, t, hsame.symm⟩)
      · rcases hlands.of_erased hget fun heq => absurd heq hsame with hwrite | ⟨-, htext⟩
        · exact .inl (.inl hwrite)
        · exact .inl (.inr ⟨rfl, htext⟩)
    · exact .inr hhere

theorem Taken.here_rejectWrite (h : s.Taken) (hs : s.FromSession) {i : Nat} {ok : Bool}
    (hfits : s.LastFits cfg (.rejectWrite i ok)) : (s.rejectWrite i ok).Here := by
  unfold rejectWrite
  split
  · rename_i t hget
    exact h.here_fallbackCopyText hs hget (hfits.1 t hget)
  · rename_i c hnot hget
    rcases h.here with hlands | hhere
    · by_cases hsame : c = s.lastCopy.content
      · have hcopyable := hs.copyable
        rw [← hsame] at hcopyable
        cases hcopyable with
        | @text t => exact absurd rfl (hnot t)
        | image p => exact .inr ((hfits.2 p hget hs.session hsame.symm).trans hsame)
      · exact .inl (hlands.of_erased hget fun heq => absurd heq hsame)
    · exact .inr hhere
  · exact h.here

/-! ## The channel -/

/-- The remote answers with the last copy. -/
theorem FromSession.receive_cases (h : s.FromSession) :
    s.receive = s ∨ ∃ m up reply, s.up = m :: up ∧ reply.Brings s.lastCopy.content ∧
      (∀ formats, reply ≠ .formatList formats) ∧
      ((∃ f, m = .paste f) → reply = .data s.lastCopy.content) ∧
      s.receive = { s with up, down := s.down ++ [reply] } := by
  unfold receive
  split
  · exact .inl rfl
  · rename_i c up hup
    have hc : c = s.remote := by
      rw [h.remote]
      refine h.adverts c ?_
      rw [hup]
      exact List.mem_cons_self ..
    refine .inr ⟨_, up, .ack, hup, trivial, nofun, ?_, ?_⟩
    · rintro ⟨f, hf⟩
      cases hf
    · rw [hc]
  · rename_i f up hup
    have hoffers : s.remote.formats.any (·.id = f) = true := by
      rw [h.remote]
      refine h.copyable.offers (h.requested f (.inl ?_))
      rw [hup]
      exact List.mem_cons_self ..
    refine .inr ⟨_, up, .data s.lastCopy.content, hup, rfl, nofun, fun _ => rfl, ?_⟩
    rw [if_pos hoffers, h.remote]

theorem FromSession.receive (h : s.FromSession) : s.receive.FromSession := by
  rcases h.receive_cases with heq | ⟨m, up, reply, hup, -, hreply, -, heq⟩
  · rw [heq]
    exact h
  · rw [heq]
    refine ⟨h.session, h.copyable, h.remote, ?_, ?_⟩
    · intro x hx
      refine h.adverts x ?_
      rw [hup]
      exact List.mem_cons_of_mem _ hx
    · rintro f (hpaste | ⟨formats, hlist, hrequest⟩)
      · refine h.requested f (.inl ?_)
        rw [hup]
        exact List.mem_cons_of_mem _ hpaste
      · rcases List.mem_append.mp hlist with hlist | hlist
        · exact h.requested f (.inr ⟨formats, hlist, hrequest⟩)
        · exact absurd (List.mem_singleton.mp hlist).symm (hreply formats)

theorem Progress.receive (h : s.Progress) (hs : s.FromSession) : s.receive.Progress := by
  rcases hs.receive_cases with heq | ⟨m, up, reply, hup, hbrings, -, hpaste, heq⟩
  · rw [heq]
    exact h
  rw [heq]
  have hdown : ∀ l : List (DownMessage Picture), (∀ m ∈ l, m.Brings s.lastCopy.content) →
      ∀ m ∈ l ++ [reply], m.Brings s.lastCopy.content := by
    intro l hl m hm
    rcases List.mem_append.mp hm with hm | hm
    · exact hl m hm
    · rw [List.mem_singleton.mp hm]
      exact hbrings
  cases h with
  | @announced pre post formats hd hrequest hpost =>
      have happ : s.down ++ [reply] = pre ++ .formatList formats :: (post ++ [reply]) := by
        rw [hd, List.append_assoc, List.cons_append]
      exact .announced happ hrequest (hdown post hpost)
  | asked hformat hd hcomes =>
      refine .asked hformat (hdown _ hd) ?_
      rcases hcomes with ⟨f, hf⟩ | hdata
      · rw [hup] at hf
        rcases List.mem_cons.mp hf with hf | hf
        · rw [hpaste ⟨f, hf.symm⟩]
          exact .inr (List.mem_append_right _ (List.mem_singleton_self _))
        · exact .inl ⟨f, hf⟩
      · exact .inr (List.mem_append_left _ hdata)
  | taken h => exact .taken ⟨hdown _ h.down, h.format, h.cached, h.here⟩

/-- The data of the last copy is written, if the client waits for it. -/
theorem onData_request (cfg : ClipConfig Picture) (s : ClipSync Picture)
    {c : Clip Picture} (hc : c.Copyable)
    (hformat : s.pendingFormat = requestOf c.formats) : ∃ pending,
    s.onData cfg c = { s with
      cachedText := c.cached, pending, writes := s.writes ++ [⟨c, false⟩] } := by
  cases hc with
  | @text t hne =>
      have hdecoding : decodingOf s.pendingFormat = .text := by
        rw [hformat]
        rfl
      refine ⟨false, ?_⟩
      simp only [onData, hdecoding]
      exact if_neg hne
  | image p =>
      have hdecoding : decodingOf s.pendingFormat = .dibv5 := by
        rw [hformat]
        rfl
      refine ⟨s.pending, ?_⟩
      simp only [onData, hdecoding]
      rfl

theorem onData_none (cfg : ClipConfig Picture) (s : ClipSync Picture)
    (hformat : s.pendingFormat = none) (c : Clip Picture) : s.onData cfg c = s := by
  unfold onData
  rw [hformat]
  rfl

theorem onData_keeps (cfg : ClipConfig Picture) (s : ClipSync Picture) (c : Clip Picture) :
    (s.onData cfg c).lastCopy = s.lastCopy ∧ (s.onData cfg c).remote = s.remote ∧
      (s.onData cfg c).up = s.up ∧ (s.onData cfg c).down = s.down := by
  unfold onData
  dsimp only
  split
  · split <;> exact ⟨rfl, rfl, rfl, rfl⟩
  · split <;> exact ⟨rfl, rfl, rfl, rfl⟩
  · exact ⟨rfl, rfl, rfl, rfl⟩
  · exact ⟨rfl, rfl, rfl, rfl⟩
  · exact ⟨rfl, rfl, rfl, rfl⟩

theorem FromSession.of_down {s' : ClipSync Picture} (h : s.FromSession)
    (hlast : s'.lastCopy = s.lastCopy) (hremote : s'.remote = s.remote) (hup : s'.up = s.up)
    (hdown : ∀ m ∈ s'.down, m ∈ s.down) : s'.FromSession := by
  refine ⟨?_, ?_, ?_, ?_, ?_⟩
  · rw [hlast, h.session]
  · rw [hlast]
    exact h.copyable
  · rw [hremote, hlast, h.remote]
  · rw [hup, hlast]
    exact h.adverts
  · rw [hlast]
    rintro f (hpaste | ⟨formats, hlist, hrequest⟩)
    · rw [hup] at hpaste
      exact h.requested f (.inl hpaste)
    · exact h.requested f (.inr ⟨formats, hdown _ hlist, hrequest⟩)

theorem FromSession.deliver (h : s.FromSession) : (s.deliver cfg).FromSession := by
  unfold ClipSync.deliver
  split
  · exact h
  · rename_i formats down hdown
    have hmem : ∀ m ∈ down, m ∈ s.down := by
      rw [hdown]
      exact fun m => List.mem_cons_of_mem _
    split
    · rename_i format hrequest
      refine ⟨h.session, h.copyable, h.remote, ?_, ?_⟩
      · intro x hx
        rcases List.mem_append.mp hx with hx | hx
        · exact h.adverts x hx
        · cases List.mem_singleton.mp hx
      · rintro f (hpaste | ⟨formats', hlist, hrequest'⟩)
        · rcases List.mem_append.mp hpaste with hpaste | hpaste
          · exact h.requested f (.inl hpaste)
          · cases List.mem_singleton.mp hpaste
            refine h.requested format (.inr ⟨formats, ?_, hrequest⟩)
            rw [hdown]
            exact List.mem_cons_self ..
        · exact h.requested f (.inr ⟨formats', hmem _ hlist, hrequest'⟩)
    · exact h.of_down rfl rfl rfl hmem
  · rename_i c down hdown
    obtain ⟨hlast, hremote, hup, hsame⟩ := onData_keeps cfg { s with down } c
    refine h.of_down hlast hremote hup ?_
    rw [hsame, hdown]
    exact fun m => List.mem_cons_of_mem _
  · rename_i down hdown
    refine h.of_down rfl rfl rfl ?_
    rw [hdown]
    exact fun m => List.mem_cons_of_mem _
  · rename_i down hdown
    refine h.of_down rfl rfl rfl ?_
    rw [hdown]
    exact fun m => List.mem_cons_of_mem _

theorem deliver_cons (cfg : ClipConfig Picture) {m : DownMessage Picture}
    {down : List (DownMessage Picture)}
    (hdown : s.down = m :: down) :
    (s.deliver cfg).down = down ∧ (s.deliver cfg).lastCopy = s.lastCopy := by
  unfold deliver
  rw [hdown]
  cases m with
  | formatList formats =>
      dsimp only
      split <;> exact ⟨rfl, rfl⟩
  | data c =>
      obtain ⟨hlast, -, -, hsame⟩ := onData_keeps cfg { s with down } c
      exact ⟨hsame, hlast⟩
  | refused => exact ⟨rfl, rfl⟩
  | ack => exact ⟨rfl, rfl⟩

/-- The client asks for the last copy. -/
theorem FromSession.asked_deliver (h : s.FromSession) {formats : List ClipboardFormat}
    {down : List (DownMessage Picture)} (hdown : s.down = .formatList formats :: down)
    (hrequest : requestOf formats = requestOf s.lastCopy.content.formats)
    (hbrings : ∀ m ∈ down, m.Brings s.lastCopy.content) : (s.deliver cfg).Progress := by
  obtain ⟨f, hf⟩ := h.copyable.request
  have hdeliver : s.deliver cfg = { s with
      down, pendingFormat := some f, up := s.up ++ [.paste f] } := by
    unfold ClipSync.deliver
    rw [hdown]
    simp only [hrequest, hf]
  rw [hdeliver]
  refine .asked hf.symm hbrings (.inl ⟨f, ?_⟩)
  exact List.mem_append_right _ (List.mem_singleton_self _)

/-- The client takes the last copy. -/
theorem FromSession.taken_deliver (h : s.FromSession) {down : List (DownMessage Picture)}
    (hdown : s.down = .data s.lastCopy.content :: down)
    (hformat : s.pendingFormat = requestOf s.lastCopy.content.formats)
    (hbrings : ∀ m ∈ down, m.Brings s.lastCopy.content) : (s.deliver cfg).Progress := by
  obtain ⟨pending, hdata⟩ := onData_request cfg { s with down } h.copyable hformat
  have hdeliver : s.deliver cfg = { s with
      down
      cachedText := s.lastCopy.content.cached
      pending
      writes := s.writes ++ [⟨s.lastCopy.content, false⟩]
      pendingFormat := none } := by
    unfold ClipSync.deliver
    rw [hdown]
    simp only [hdata]
  rw [hdeliver]
  refine .taken ⟨hbrings, .inl rfl, rfl, .inl (.inl ⟨⟨s.lastCopy.content, false⟩, ?_, rfl, rfl⟩)⟩
  exact List.mem_append_right _ (List.mem_singleton_self _)

/-- The next message is passed over, or it is a request or the last copy. -/
theorem FromSession.progress_deliver (h : s.FromSession) {m : DownMessage Picture}
    {down : List (DownMessage Picture)} (hdown : s.down = m :: down)
    (hbrings : ∀ m ∈ s.down, m.Brings s.lastCopy.content)
    (hformat : s.pendingFormat = none ∨
      s.pendingFormat = requestOf s.lastCopy.content.formats)
    (hskip : m ≠ .data s.lastCopy.content ∨ s.pendingFormat = none →
      Progress { s with down }) : (s.deliver cfg).Progress := by
  rw [hdown] at hbrings
  have htail : ∀ m ∈ down, m.Brings s.lastCopy.content := fun m hm =>
    hbrings m (List.mem_cons_of_mem _ hm)
  cases m with
  | formatList formats =>
      cases hrequest : requestOf formats with
      | some f =>
          refine h.asked_deliver hdown ?_ htail
          rw [hrequest, h.requested f (.inr ⟨formats, ?_, hrequest⟩)]
          rw [hdown]
          exact List.mem_cons_self ..
      | none =>
          have heq : s.deliver cfg = { s with down } := by
            unfold ClipSync.deliver
            rw [hdown]
            simp only [hrequest]
          rw [heq]
          exact hskip (.inl nofun)
  | data x =>
      have hx : x = s.lastCopy.content := hbrings _ (List.mem_cons_self ..)
      rw [hx] at hdown
      rcases hformat with hnone | hformat
      · have hdata : { s with down }.onData cfg s.lastCopy.content = { s with down } :=
          onData_none cfg { s with down } hnone _
        have heq : s.deliver cfg = { s with down } := by
          unfold ClipSync.deliver
          rw [hdown]
          simp only [hdata]
          rw [hnone]
        rw [heq]
        exact hskip (.inr hnone)
      · exact h.taken_deliver hdown hformat htail
  | refused => exact absurd (hbrings _ (List.mem_cons_self ..)) id
  | ack =>
      have heq : s.deliver cfg = { s with down } := by
        unfold ClipSync.deliver
        rw [hdown]
      rw [heq]
      exact hskip (.inl nofun)

theorem Progress.deliver (h : s.Progress) (hs : s.FromSession) : (s.deliver cfg).Progress := by
  cases hdown : s.down with
  | nil =>
      have heq : s.deliver cfg = s := by
        unfold ClipSync.deliver
        rw [hdown]
      rw [heq]
      exact h
  | cons m down =>
      have htail : ∀ m' ∈ down, m' ∈ s.down := by
        rw [hdown]
        exact fun m' => List.mem_cons_of_mem m
      cases h with
      | @announced pre post formats hpre hrequest hpost =>
          cases pre with
          | nil => exact hs.asked_deliver hpre hrequest hpost
          | cons m pre =>
              obtain ⟨hpopped, hlast⟩ := deliver_cons cfg hpre
              refine .announced hpopped ?_ ?_
              · rw [hlast, hrequest]
              · rw [hlast]
                exact hpost
      | asked hformat hbrings hcomes =>
          refine hs.progress_deliver hdown hbrings (.inr hformat) ?_
          obtain ⟨f, hf⟩ := hs.copyable.request
          rintro (hother | hnone)
          · refine .asked hformat (fun m hm => hbrings m (htail m hm)) ?_
            rcases hcomes with hpaste | hdata
            · exact .inl hpaste
            · rw [hdown] at hdata
              rcases List.mem_cons.mp hdata with hdata | hdata
              · exact absurd hdata.symm hother
              · exact .inr hdata
          · rw [hnone, hf] at hformat
            cases hformat
      | taken h =>
          refine hs.progress_deliver hdown h.down h.format fun _ => .taken ?_
          exact ⟨fun m hm => h.down m (htail m hm), h.format, h.cached, h.here⟩

/-- Without a copy on the host, the last copy stays on its way to it. -/
theorem FromSession.step (hs : s.FromSession) (h : s.Progress) {e : ClipEvent Picture}
    (hfits : s.LastFits cfg e) (hhost : ∀ c, e ≠ .hostCopy c) :
    (s.step cfg e).FromSession ∧ (s.step cfg e).Progress := by
  have hapart : ∀ s' : ClipSync Picture, s.Apart s' → (s.Taken → s'.Here) →
      s'.FromSession ∧ s'.Progress := fun s' ha hhere =>
    ⟨hs.of_apart ha, h.of_apart ha hhere⟩
  cases e with
  | hostCopy c => exact absurd rfl (hhost c)
  | sessionCopy c => exact ⟨fromSession_sessionCopy hfits, s.progress_sessionCopy c⟩
  | focus =>
      obtain ⟨hs', h'⟩ := hapart { s with focused := true }
        ⟨rfl, rfl, rfl, rfl, rfl, .inl rfl⟩ fun h => h.here
      have ha := apart_checkHostClipboard { s with focused := true } true
      exact ⟨hs'.of_apart ha, h'.of_apart ha fun h => h.here_checkHostClipboard true⟩
  | blur => exact hapart _ ⟨rfl, rfl, rfl, rfl, rfl, .inl rfl⟩ fun h => h.here
  | tick =>
      rw [ClipSync.step]
      split
      · exact hapart _ (s.apart_checkHostClipboard false) fun h => h.here_checkHostClipboard false
      · exact ⟨hs, h⟩
  | check =>
      exact hapart _ (s.apart_checkHostClipboard true) fun h => h.here_checkHostClipboard true
  | performCheck =>
      exact hapart _ s.apart_performCheck fun h => h.here_performCheck hs.session hfits
  | resumeCheck =>
      exact hapart _ (hs.apart_resumeCheck hfits) fun h => h.here_resumeCheck hs.session hfits
  | rejectCheck => exact hapart _ s.apart_rejectCheck fun h => h.here_rejectCheck
  | copyKey => exact hapart _ s.apart_onCopy fun h => h.here_onCopy
  | pasteKey => exact hapart _ (hs.apart_onPaste hfits) fun h => h.here_onPaste
  | pasteRead i ok =>
      exact hapart _ (hs.apart_pasteRead hfits) fun h => h.here_pasteRead i ok
  | performWrite i =>
      exact hapart _ (s.apart_performWrite i) fun h => h.here_performWrite hs.session hfits
  | resolveWrite i => exact hapart _ (s.apart_resolveWrite i) fun h => h.here_resolveWrite i
  | rejectWrite i ok =>
      exact hapart _ (s.apart_rejectWrite i ok) fun h => h.here_rejectWrite hs hfits
  | receive => exact ⟨hs.receive, h.receive hs⟩
  | deliver => exact ⟨hs.deliver, h.deliver hs⟩

end ClipSync

end WasmRdp
