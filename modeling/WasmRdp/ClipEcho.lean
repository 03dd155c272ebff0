import WasmRdp.ClipSync

/-!
# Echoes

Text of the session that the client puts on the host must not go back to the
session as if the user had copied it there. The script relies on
`syncedHostFp` for that: whenever the host has such text, the fingerprint
names it, or a write of the text has yet to settle (`ClipSync.Named`).

A copy key, a write that settles late, and a read that is used late can each
leave the fingerprint behind; `ClipSync.EchoFits` is what they must meet.

The invariant `EchoInv` adds what is known of text between its read by the
watch and its use. Each handler has a lemma, and a few general ones carry
them. A step that leaves host, fingerprint and check alone keeps the invariant
(`EchoInv.of_same`); text that the client puts on the host is fine when the
fingerprint names it (`EchoInv.put`); and text that the fingerprint does not
name, and of which no write is unsettled, is not the client's and may be sent
(`EchoInv.not_client`).

`always_notEchoed` is over all interleavings of the browser's promises, the
handlers and the channel. In `not_always_notEchoed` the copy key puts an old
text back on the host, and the watch takes it for new.
-/

namespace WasmRdp

namespace ClipSync

variable {Picture : Type} {cfg : ClipConfig Picture} {s : ClipSync Picture}

/-- A write of the text has taken effect and has not settled. -/
def Unsettled (s : ClipSync Picture) (t : String) : Prop :=
  (∃ w ∈ s.writes, w.content = .text t ∧ w.performed) ∨ s.check = .deferred t true

def NotEchoed (s : ClipSync Picture) : Prop := s.echoed = false

/-- The copy key is pressed while the fingerprint names the cached text; a
fallback copies the text it is for; a write settles while it is the last one
that has taken effect; a read is used while the host still has what was read,
and no write of it has to settle; a paste finds no such write either. -/
def EchoFits (s : ClipSync Picture) : ClipEvent Picture → Prop
  | .copyKey => ∀ t, s.cachedText = some t → t ≠ "" → s.syncedHostFp = some (.text t)
  | .rejectWrite i true => ∀ t u, s.writes[i]? = some ⟨.text t, false⟩ →
      s.cachedText = some u → u ≠ "" → u = t
  | .resolveWrite i => ∀ t u, s.writes[i]? = some ⟨.text t, true⟩ →
      s.host = ⟨.text u, true⟩ → u ≠ t → s.Unsettled u
  | .resumeCheck =>
      match s.check with
      | .deferred t true => ∀ u, s.host = ⟨.text u, true⟩ → u ≠ t → s.Unsettled u
      | .read (.image p) => s.host.content = .image p
      | .buffering p => s.host.content = .image p
      | .textRead t _ =>
          t ≠ "" → s.host.content = .text t ∧ (s.host.fromSession → ¬ s.Unsettled t)
      | _ => True
  | .pasteKey => ∀ t, s.host = ⟨.text t, true⟩ → ¬ s.Unsettled t
  | _ => True

/-- The fingerprint names the text that the client has put on the host. -/
def Named (s : ClipSync Picture) : Prop :=
  ∀ t, s.host = ⟨.text t, true⟩ → s.syncedHostFp = some (.text t) ∨ s.Unsettled t

structure EchoInv (s : ClipSync Picture) : Prop where
  named : s.Named
  flagged : ∀ t, s.check = .textRead t true → s.host.content = .text t →
    s.host.fromSession = true
  clean : s.NotEchoed

theorem echoInv_start : (start : ClipSync Picture).EchoInv :=
  ⟨nofun, nofun, rfl⟩

/-- Where the host, the fingerprint and the check stay, and no write that has
taken effect goes. -/
theorem EchoInv.of_same {s' : ClipSync Picture} (h : s.EchoInv) (hhost : s'.host = s.host)
    (hfp : s'.syncedHostFp = s.syncedHostFp)
    (hwrites : ∀ w ∈ s.writes, w.performed → w ∈ s'.writes)
    (hdeferred : ∀ t, s.check = .deferred t true → s'.check = .deferred t true)
    (hread : ∀ t, s'.check = .textRead t true → s.check = .textRead t true)
    (hechoed : s'.echoed = s.echoed) : s'.EchoInv := by
  refine ⟨?_, ?_, hechoed.trans h.clean⟩
  · intro t ht
    rw [hhost] at ht
    rcases h.named t ht with hnamed | ⟨w, hw, hcontent, hperformed⟩ | hcheck
    · exact .inl (hfp.trans hnamed)
    · exact .inr (.inl ⟨w, hwrites w hw hperformed, hcontent, hperformed⟩)
    · exact .inr (.inr (hdeferred t hcheck))
  · intro t ht hcontent
    rw [hhost] at hcontent ⊢
    exact h.flagged t (hread t ht) hcontent

theorem echoInv_hostCopy (h : s.EchoInv) (c : Clip Picture) : (s.hostCopy c).EchoInv := by
  refine ⟨nofun, ?_, h.clean⟩
  intro t hcheck hcontent
  change c = .text t at hcontent
  rw [hostCopy] at hcheck
  dsimp only at hcheck
  split at hcheck
  · rename_i t' echo hold
    obtain ⟨rfl, hecho⟩ := Check.textRead.inj hcheck
    rw [hcontent] at hecho
    simp [Clip.plainText] at hecho
  · rename_i hnot
    exact absurd hcheck (hnot t true)

/-- The client puts text on the host and the fingerprint names it. -/
theorem EchoInv.put (h : s.EchoInv) {t : String} (hfp : s.syncedHostFp = some (.text t)) :
    EchoInv { s with host := ⟨.text t, true⟩ } := by
  refine ⟨?_, fun _ _ _ => rfl, h.clean⟩
  intro u hu
  cases hu
  exact .inl hfp

theorem echoInv_onCopy (h : s.EchoInv) (hfits : s.EchoFits .copyKey) : s.onCopy.EchoInv := by
  rcases s.onCopy_cases with ⟨heq, -⟩ | ⟨t, hcached, hne, heq⟩
  · rw [heq]
    exact h
  · rw [heq]
    exact h.put (hfits t hcached hne)

theorem echoInv_checkHostClipboard (h : s.EchoInv) (withImages : Bool) :
    (s.checkHostClipboard withImages).EchoInv := by
  have hwait : ∀ check, s.check = .idle → (∀ t, check ≠ .textRead t true) →
      EchoInv { s with check } := by
    intro check hidle hcheck
    refine h.of_same rfl rfl (fun w hw _ => hw) ?_ ?_ rfl
    · intro t ht
      rw [hidle] at ht
      cases ht
    · intro t ht
      exact absurd ht (hcheck t)
  rcases s.checkHostClipboard_cases withImages with heq | ⟨t, hidle, -, -, heq⟩ |
    ⟨check, hidle, hcheck, heq⟩
  · rw [heq]
    exact h
  · rw [heq]
    exact hwait _ hidle nofun
  · rw [heq]
    refine hwait _ hidle ?_
    rcases hcheck with rfl | rfl <;> nofun

theorem echoInv_performCheck (h : s.EchoInv) : s.performCheck.EchoInv := by
  rw [performCheck]
  split
  · rename_i t hcheck
    refine ⟨?_, nofun, h.clean⟩
    intro u hu
    cases hu
    exact .inr (.inr rfl)
  · rename_i hcheck
    refine h.of_same rfl rfl (fun w hw _ => hw) ?_ nofun rfl
    intro t ht
    rw [hcheck] at ht
    cases ht
  · rename_i hcheck
    refine ⟨?_, ?_, h.clean⟩
    · intro t ht
      rcases h.named t ht with hnamed | hwrite | hdeferred
      · exact .inl hnamed
      · exact .inr (.inl hwrite)
      · rw [hcheck] at hdeferred
        cases hdeferred
    · intro t hread _
      exact (Check.textRead.inj hread).2
  · exact h

theorem echoInv_performWrite (h : s.EchoInv) (i : Nat) : (s.performWrite i).EchoInv := by
  rw [performWrite]
  split
  · rename_i c hget
    refine ⟨?_, fun _ _ _ => rfl, h.clean⟩
    intro t ht
    cases ht
    have hlt : i < s.writes.length := (List.getElem?_eq_some_iff.mp hget).1
    exact .inr (.inl ⟨_, List.mem_set hlt _, rfl, rfl⟩)
  · exact h

theorem echoInv_resolveWrite (h : s.EchoInv) {i : Nat} (hfits : s.EchoFits (.resolveWrite i)) :
    (s.resolveWrite i).EchoInv := by
  rw [resolveWrite]
  split
  · rename_i c hget
    cases c with
    | text t =>
        refine ⟨?_, h.flagged, h.clean⟩
        intro u hu
        by_cases hut : u = t
        · exact .inl (hut ▸ rfl)
        · rcases hfits t u hget hu hut with ⟨w, hw, hcontent, hperformed⟩ | hdeferred
          · refine .inr (.inl ⟨w, mem_eraseIdx_of_ne hget hw ?_, hcontent, hperformed⟩)
            rintro rfl
            exact hut (Clip.text.inj hcontent).symm
          · exact .inr (.inr hdeferred)
    | _ =>
        refine ⟨?_, h.flagged, h.clean⟩
        intro u hu
        rcases h.named u hu with hnamed | ⟨w, hw, hcontent, hperformed⟩ | hdeferred
        · exact .inl hnamed
        · refine .inr (.inl ⟨w, mem_eraseIdx_of_ne hget hw ?_, hcontent, hperformed⟩)
          rintro rfl
          cases hcontent
        · exact .inr (.inr hdeferred)
  · exact h

theorem echoInv_rejectWrite (h : s.EchoInv) {i : Nat} {ok : Bool}
    (hfits : s.EchoFits (.rejectWrite i ok)) : (s.rejectWrite i ok).EchoInv := by
  have herased : ∀ c, s.writes[i]? = some ⟨c, false⟩ →
      EchoInv { s with writes := s.writes.eraseIdx i } := by
    intro c hget
    refine h.of_same rfl rfl ?_ (fun _ => id) (fun _ => id) rfl
    intro w hw hperformed
    refine mem_eraseIdx_of_ne hget hw ?_
    rintro rfl
    cases hperformed
  rw [rejectWrite]
  split
  · rename_i t hget
    rw [fallbackCopyText]
    split
    · rename_i hok
      subst hok
      -- the copy handler puts the cached text there, which is the same
      have hcopied : ({ s with writes := s.writes.eraseIdx i, host := ⟨.text t, true⟩ } :
          ClipSync Picture).onCopy =
          { s with writes := s.writes.eraseIdx i, host := ⟨.text t, true⟩ } := by
        rcases onCopy_cases { s with writes := s.writes.eraseIdx i, host := ⟨.text t, true⟩ } with
          ⟨heq, -⟩ | ⟨u, hcached, hne, heq⟩
        · exact heq
        · rw [heq, hfits t u hget hcached hne]
      rw [hcopied]
      refine ⟨?_, fun _ _ _ => rfl, h.clean⟩
      intro u hu
      cases hu
      exact .inl rfl
    · exact (herased _ hget).of_same rfl rfl (fun w hw _ => hw) (fun _ => id) (fun _ => id) rfl
  · rename_i c hget
    exact herased _ hget
  · exact h

/-- While the host has no text of the client, the fingerprint is free. -/
theorem EchoInv.of_host (h : s.EchoInv) (hhost : ∀ t, s.host ≠ ⟨.text t, true⟩)
    {s' : ClipSync Picture} (hsame : s'.host = s.host)
    (hread : ∀ t, s'.check = .textRead t true → s.check = .textRead t true)
    (hechoed : s'.echoed = s.echoed) : s'.EchoInv := by
  refine ⟨?_, ?_, hechoed.trans h.clean⟩
  · intro t ht
    exact absurd (hsame.symm.trans ht) (hhost t)
  · intro t ht hcontent
    rw [hsame] at hcontent ⊢
    exact h.flagged t (hread t ht) hcontent

theorem not_text_of_image {p : Picture} (h : s.host.content = .image p) (t : String) :
    s.host ≠ ⟨.text t, true⟩ := by
  intro ht
  rw [ht] at h
  cases h

/-- Text that the fingerprint does not name, and that has settled, is not the
client's. -/
theorem EchoInv.not_client (h : s.EchoInv) {t : String}
    (hnew : s.syncedHostFp ≠ some (.text t)) (hsettled : ¬ s.Unsettled t) :
    s.host ≠ ⟨.text t, true⟩ := by
  intro ht
  rcases h.named t ht with hnamed | hunsettled
  · exact hnew hnamed
  · exact hsettled hunsettled

theorem fromSession_eq_false {t : String} (hcontent : s.host.content = .text t)
    (hnot : s.host ≠ ⟨.text t, true⟩) : s.host.fromSession = false := by
  by_contra hclient
  rw [Bool.not_eq_false] at hclient
  refine hnot ?_
  rw [← hcontent, ← hclient]

/-- The write that was put off settles. -/
theorem EchoInv.landed (h : s.EchoInv) {t : String} (hcheck : s.check = .deferred t true)
    (hfits : ∀ u, s.host = ⟨.text u, true⟩ → u ≠ t → s.Unsettled u) :
    EchoInv { s with check := .idle, pending := false, syncedHostFp := some (.text t) } := by
  refine ⟨?_, nofun, h.clean⟩
  intro u hu
  by_cases hut : u = t
  · exact .inl (hut ▸ rfl)
  · rcases hfits u hu hut with hwrite | hdeferred
    · exact .inr (.inl hwrite)
    · rw [hcheck] at hdeferred
      exact absurd (Check.deferred.inj hdeferred).1 (Ne.symm hut)

/-- New text that the host still has is sent. -/
theorem EchoInv.textSent (h : s.EchoInv) {t : String} {echo : Bool}
    (hcheck : s.check = .textRead t echo) (hcontent : s.host.content = .text t)
    (hnot : s.host ≠ ⟨.text t, true⟩) :
    EchoInv ({ s with
      check := .idle
      syncedHostFp := some (.text t)
      echoed := s.echoed || echo }.advertise (.text t)) := by
  have huser := fromSession_eq_false hcontent hnot
  have hecho : echo = false := by
    by_contra hflag
    rw [Bool.not_eq_false] at hflag
    rw [hflag] at hcheck
    have hclient := h.flagged t hcheck hcontent
    rw [huser] at hclient
    cases hclient
  refine h.of_host ?_ rfl nofun ?_
  · intro u hu
    rw [hu] at huser
    cases huser
  · change (s.echoed || echo) = s.echoed
    rw [hecho, Bool.or_false]

theorem echoInv_resumeCheck (h : s.EchoInv) (hfits : s.EchoFits .resumeCheck) :
    (s.resumeCheck cfg).EchoInv := by
  have hwait : ∀ check, (∀ t, s.check ≠ .deferred t true) → (∀ t, check ≠ .textRead t true) →
      EchoInv { s with check } := by
    intro check hdeferred hread
    exact h.of_same rfl rfl (fun w hw _ => hw) (fun t ht => absurd ht (hdeferred t))
      (fun t ht => absurd ht (hread t)) rfl
  rw [resumeCheck]
  split
  · rename_i t hcheck
    simp only [EchoFits, hcheck] at hfits
    exact h.landed hcheck hfits
  · rename_i p hcheck
    simp only [EchoFits, hcheck] at hfits
    rcases s.hostClipKnown_cases (.image (cfg.pngSize p)) with
      ⟨hknown, -⟩ | ⟨hknown, -, -⟩ | ⟨size, -, -, hknown⟩
    · rw [hknown]
      exact h.of_host (not_text_of_image hfits) rfl nofun rfl
    · rw [hknown]
      exact h.of_host (not_text_of_image hfits) rfl nofun rfl
    · rw [hknown]
      exact h.of_host (not_text_of_image hfits) rfl nofun rfl
  · rename_i hcheck
    refine hwait _ ?_ nofun
    rw [hcheck]
    nofun
  · rename_i p hcheck
    simp only [EchoFits, hcheck] at hfits
    exact h.of_host (not_text_of_image hfits) rfl nofun rfl
  · rename_i t echo hcheck
    simp only [EchoFits, hcheck] at hfits
    have hidle : EchoInv { s with check := .idle } := by
      refine hwait _ ?_ nofun
      rw [hcheck]
      nofun
    split
    · exact hidle
    · rename_i hne
      obtain ⟨hcontent, hsettled⟩ := hfits hne
      rcases s.hostClipKnown_cases (.text t) with
        ⟨hknown, -⟩ | ⟨hknown, hnew, -⟩ | ⟨size, hsize, -⟩
      · rw [hknown]
        exact hidle
      · rw [hknown]
        refine h.textSent hcheck hcontent fun hclient => ?_
        have hflag : s.host.fromSession = true := by rw [hclient]
        exact h.not_client hnew (hsettled hflag) hclient
      · cases hsize
  · exact h

theorem fingerprint_text {t : String} {fp : Fingerprint}
    (h : fingerprint cfg (.text t : Clip Picture) = some fp) : fp = .text t := by
  rw [fingerprint] at h
  split at h
  · cases h
  · exact (Option.some.inj h).symm

theorem echoInv_onPaste (h : s.EchoInv) (hfits : s.EchoFits .pasteKey) :
    (s.onPaste cfg).EchoInv := by
  rw [onPaste]
  split
  · exact h
  rename_i fp hfp
  rcases s.hostClipKnown_cases fp with
    ⟨hknown, -⟩ | ⟨hknown, hnew, -⟩ | ⟨size, rfl, -, hknown⟩
  · rw [hknown]
    exact h
  · rw [hknown]
    dsimp only
    have huser : ∀ t, s.host ≠ ⟨.text t, true⟩ := by
      intro t ht
      have htext : fp = .text t := by
        rw [ht] at hfp
        exact fingerprint_text hfp
      rw [htext] at hnew
      exact h.not_client hnew (hfits t ht) ht
    rw [if_neg Bool.false_ne_true]
    split
    · rename_i t hcontent
      refine h.of_host huser rfl (fun _ => id) ?_
      change (s.echoed || s.host.fromSession) = s.echoed
      rw [fromSession_eq_false hcontent (huser t), Bool.or_false]
    · exact h.of_host huser rfl (fun _ => id) rfl
  · rw [hknown]
    refine h.of_host ?_ rfl (fun _ => id) rfl
    intro t ht
    rw [ht] at hfp
    cases fingerprint_text hfp

/-- A step that only sends or takes messages. -/
theorem EchoInv.of_quiet {s' : ClipSync Picture} (h : s.EchoInv) (hhost : s'.host = s.host)
    (hfp : s'.syncedHostFp = s.syncedHostFp) (hwrites : s.writes ⊆ s'.writes)
    (hcheck : s'.check = s.check) (hechoed : s'.echoed = s.echoed) : s'.EchoInv := by
  refine h.of_same hhost hfp (fun w hw _ => hwrites hw) ?_ ?_ hechoed
  · intro t ht
    rw [hcheck]
    exact ht
  · intro t ht
    rw [hcheck] at ht
    exact ht

theorem echoInv_onData (h : s.EchoInv) (c : Clip Picture) : (s.onData cfg c).EchoInv := by
  have hwritten : ∀ t, (if t = "" then s else s.writeClipboardText t).EchoInv := by
    intro t
    split
    · exact h
    · exact h.of_quiet rfl rfl (List.subset_append_left ..) rfl rfl
  unfold onData
  dsimp only
  split
  · exact hwritten _
  · exact hwritten _
  · exact h.of_quiet rfl rfl (List.subset_append_left ..) rfl rfl
  · exact h.of_quiet rfl rfl (List.subset_append_left ..) rfl rfl
  · exact h

theorem echoInv_deliver (h : s.EchoInv) : (s.deliver cfg).EchoInv := by
  have hquiet : ∀ s' : ClipSync Picture, s'.host = s.host → s'.syncedHostFp = s.syncedHostFp →
      s'.writes = s.writes → s'.check = s.check → s'.echoed = s.echoed → s'.EchoInv := by
    intro s' hhost hfp hwrites hcheck hechoed
    exact h.of_quiet hhost hfp (fun w hw => hwrites ▸ hw) hcheck hechoed
  rw [deliver]
  split
  · exact h
  · split
    · exact hquiet _ rfl rfl rfl rfl rfl
    · exact hquiet _ rfl rfl rfl rfl rfl
  · rename_i c down _
    have htaken : EchoInv { s with down } := hquiet _ rfl rfl rfl rfl rfl
    have hdata : ({ s with down }.onData cfg c).EchoInv := echoInv_onData htaken c
    exact hdata.of_quiet rfl rfl (List.Subset.refl _) rfl rfl
  · exact hquiet _ rfl rfl rfl rfl rfl
  · exact hquiet _ rfl rfl rfl rfl rfl

theorem echoInv_step (h : s.EchoInv) {e : ClipEvent Picture} (hfits : s.EchoFits e) :
    (s.step cfg e).EchoInv := by
  have hquiet : ∀ s' : ClipSync Picture, s'.host = s.host → s'.syncedHostFp = s.syncedHostFp →
      s'.writes = s.writes → s'.check = s.check → s'.echoed = s.echoed → s'.EchoInv := by
    intro s' hhost hfp hwrites hcheck hechoed
    exact h.of_quiet hhost hfp (fun w hw => hwrites ▸ hw) hcheck hechoed
  cases e with
  | hostCopy c => exact echoInv_hostCopy h c
  | sessionCopy c => exact hquiet _ rfl rfl rfl rfl rfl
  | focus =>
      have hfocused : EchoInv { s with focused := true } := hquiet _ rfl rfl rfl rfl rfl
      exact echoInv_checkHostClipboard hfocused true
  | blur => exact hquiet _ rfl rfl rfl rfl rfl
  | tick =>
      rw [step]
      split
      · exact echoInv_checkHostClipboard h false
      · exact h
  | check => exact echoInv_checkHostClipboard h true
  | performCheck => exact echoInv_performCheck h
  | resumeCheck => exact echoInv_resumeCheck h hfits
  | rejectCheck =>
      rw [step]
      rcases s.rejectCheck_cases with heq | ⟨hdeferred, heq⟩
      · rw [heq]
        exact h
      · rw [heq]
        exact h.of_same rfl rfl (fun w hw _ => hw) (fun t ht => absurd ht (hdeferred t)) nofun rfl
  | copyKey => exact echoInv_onCopy h hfits
  | pasteKey => exact echoInv_onPaste h hfits
  | pasteRead i ok =>
      rw [step, pasteRead]
      split
      · dsimp only
        split
        · exact hquiet _ rfl rfl rfl rfl rfl
        · exact hquiet _ rfl rfl rfl rfl rfl
      · exact h
  | performWrite i => exact echoInv_performWrite h i
  | resolveWrite i => exact echoInv_resolveWrite h hfits
  | rejectWrite i ok => exact echoInv_rejectWrite h hfits
  | receive =>
      rw [step, receive]
      split
      · exact h
      · exact hquiet _ rfl rfl rfl rfl rfl
      · exact hquiet _ rfl rfl rfl rfl rfl
  | deliver => exact echoInv_deliver h

/-- Where every event fits, no text of the session is sent back to it. -/
theorem always_notEchoed {es : List (ClipEvent Picture)}
    (h : Runs.Each (step cfg) EchoFits start es) :
    Runs.Always (step cfg) NotEchoed start es := by
  have hinv : Runs.Always (step cfg) EchoInv start es :=
    Runs.always_of_each (fun _ _ _ h hfits => echoInv_step h hfits) echoInv_start h
  intro pre hpre
  exact (hinv pre hpre).clean

theorem each_echoFits_bothWays : Runs.Each (step flatConfig) EchoFits start bothWays := by
  rw [bothWays]
  simp only [Runs.each_cons]
  refine ⟨trivial, trivial, trivial, trivial, trivial, ?_, trivial, trivial, trivial, ?_,
    Runs.each_nil⟩
  · intro t u hwrite hhost hne
    cases hwrite
    cases hhost
    exact absurd rfl hne
  · exact fun _ => ⟨rfl, nofun⟩

theorem always_notEchoed_bothWays :
    Runs.Always (step flatConfig) NotEchoed start bothWays :=
  always_notEchoed each_echoFits_bothWays

/-- The copy key puts the old text back on the host, and the watch reads
it. -/
def copiedOver : List (ClipEvent Nat) :=
  bothWays ++ [.copyKey, .tick, .performCheck, .resumeCheck]

/-- The old text of the session is sent back to it. -/
theorem not_always_notEchoed : ¬ ∀ (Picture : Type) (cfg : ClipConfig Picture)
    (es : List (ClipEvent Picture)), Runs.Always (step cfg) NotEchoed start es := by
  intro h
  have hlast := h Nat flatConfig copiedOver copiedOver (List.prefix_refl _)
  have hechoed : (copiedOver.foldl (step flatConfig) start).echoed = true := rfl
  exact Bool.false_ne_true (hlast.symm.trans hechoed)

end ClipSync

end WasmRdp
