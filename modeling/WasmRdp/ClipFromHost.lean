import WasmRdp.ClipCopies

/-!
# Copies of the host

The last copy was made on the host and nothing comes from the session
(`ClipSync.FromHost`). A copy on the host begins this phase from any state
(`fromHost_hostCopy`), and every step but a copy in the session keeps it
(`FromHost.step`): the host keeps the copy, and where the script takes it for
known, it is on its way to the session or there (`FromHost.seen`).

The host keeps its copy because no write of the client can still take effect
(`FromHost.not_unperformed`), and none begins, since nothing comes from the
session that could be written. What can go wrong is that the copy is taken for
known too early. A write of older content that settles now makes a fingerprint
known, and so does a paste or a check that sends something. For the writes,
what settles makes known only what is like it
(`known_of_hostClipFromRemote`); for what is sent, the content itself is on
its way then.
-/

namespace WasmRdp

namespace ClipSync

variable {Picture : Type} {cfg : ClipConfig Picture} {s : ClipSync Picture}

structure FromHost (cfg : ClipConfig Picture) (s : ClipSync Picture) : Prop where
  onHost : s.lastCopy.onHost = true
  host : s.host.content = s.lastCopy.content
  copyable : s.lastCopy.content.Copyable ∨ s.lastCopy.content = .empty
  nothing : s.NothingComing
  seen : s.Known cfg s.lastCopy.content → s.Reaches s.lastCopy.content

theorem fromHost_start : (start : ClipSync Picture).FromHost cfg where
  onHost := rfl
  host := rfl
  copyable := .inr rfl
  nothing := ⟨nofun, nofun, nofun, nofun, nofun⟩
  seen := fun _ => .inl rfl

theorem fromHost_hostCopy {c : Clip Picture} (hfits : s.LastFits cfg (.hostCopy c)) :
    (s.hostCopy c).FromHost cfg := by
  obtain ⟨hcopyable, hnothing, hseen⟩ := hfits
  refine ⟨rfl, rfl, .inl hcopyable, ?_, hseen⟩
  refine ⟨hnothing.up, hnothing.down, hnothing.writes, ?_, ?_⟩
  · intro hpending
    rcases hnothing.pending hpending with hcached | ⟨t, ht⟩
    · exact .inl hcached
    · refine .inr ⟨t, ?_⟩
      simp only [hostCopy, ht]
  · intro t
    simp only [hostCopy]
    split
    · nofun
    · exact hnothing.check t

/-- Only the check goes on. -/
theorem FromHost.of_check (h : s.FromHost cfg) {check : Check Picture}
    (hold : ∀ t, s.check ≠ .deferred t true) (hnew : ∀ t b, check ≠ .deferred t b) :
    FromHost cfg { s with check } := by
  refine ⟨h.onHost, h.host, h.copyable, ?_, h.seen⟩
  refine ⟨h.nothing.up, h.nothing.down, h.nothing.writes, fun hpending => ?_, fun t => hnew t _⟩
  rcases h.nothing.pending hpending with hcached | ⟨t, ht⟩
  · exact .inl hcached
  · exact absurd ht (hold t)

theorem FromHost.idle (h : s.FromHost cfg) (hold : ∀ t b, s.check ≠ .deferred t b) :
    FromHost cfg { s with check := .idle } :=
  h.of_check (fun t => hold t true) nofun

/-- The fingerprint, the echo and what is sent change. -/
theorem FromHost.of_sent (h : s.FromHost cfg) {s' : ClipSync Picture}
    (hhost : s'.host.content = s.host.content) (hlast : s'.lastCopy = s.lastCopy)
    (hup : ∀ f, .paste f ∈ s'.up → .paste f ∈ s.up) (hdown : s'.down = s.down)
    (hwrites : ∀ w ∈ s'.writes, w ∈ s.writes) (hpending : s'.pending = s.pending)
    (hcached : s'.cachedText = s.cachedText) (hcheck : s'.check = s.check)
    (hseen : s'.Known cfg s.lastCopy.content → s'.Reaches s.lastCopy.content) :
    s'.FromHost cfg := by
  refine ⟨?_, ?_, ?_, ?_, ?_⟩
  · rw [hlast, h.onHost]
  · rw [hhost, hlast, h.host]
  · rw [hlast]
    exact h.copyable
  · refine ⟨fun f hf => h.nothing.up f (hup f hf), ?_, ?_, ?_, ?_⟩
    · rw [hdown]
      exact h.nothing.down
    · intro w hw
      exact h.nothing.writes w (hwrites w hw)
    · rw [hpending, hcached, hcheck]
      exact h.nothing.pending
    · rw [hcheck]
      exact h.nothing.check
  · rw [hlast]
    exact hseen

theorem paste_mem_advertise {c : Clip Picture} {f : ClipboardFormatId}
    (h : .paste f ∈ (s.advertise c).up) : .paste f ∈ s.up := by
  rcases List.mem_append.mp h with h | h
  · exact h
  · cases List.mem_singleton.mp h

theorem FromHost.checkHostClipboard (h : s.FromHost cfg) (withImages : Bool) :
    (s.checkHostClipboard withImages).FromHost cfg := by
  rcases s.checkHostClipboard_cases withImages with heq | ⟨t, hidle, hpending, hcached, -⟩ |
    ⟨check, hidle, hcheck, heq⟩
  · rw [heq]
    exact h
  · rcases h.nothing.pending hpending with hnone | ⟨u, hu⟩
    · rw [hnone] at hcached
      cases hcached
    · rw [hidle] at hu
      cases hu
  · rw [heq]
    refine h.of_check ?_ ?_
    · rw [hidle]
      nofun
    · rcases hcheck with rfl | rfl <;> nofun

theorem FromHost.performCheck (h : s.FromHost cfg) : s.performCheck.FromHost cfg := by
  rcases s.performCheck_cases with heq | ⟨t, hcheck, -⟩ | ⟨check, hold, hnew, heq⟩
  · rw [heq]
    exact h
  · exact absurd hcheck (h.nothing.check t)
  · rw [heq]
    exact h.of_check (fun t => hold t true) hnew

theorem FromHost.rejectCheck (h : s.FromHost cfg) : s.rejectCheck.FromHost cfg := by
  rcases s.rejectCheck_cases with heq | ⟨hold, heq⟩
  · rw [heq]
    exact h
  · rw [heq]
    exact h.of_check hold nofun

/-- What settles makes known only what is like it. -/
theorem known_of_hostClipFromRemote {c d : Clip Picture} (hd : d.Copyable ∨ d = .empty)
    (hnot : ¬ c.Alike d) (h : (s.hostClipFromRemote c).Known cfg d) : s.Known cfg d := by
  rcases hd with hd | rfl
  · cases hd with
    | @text u hu =>
        intro fp hfp
        have htext : fp = .text u := (Option.some.inj ((if_neg hu).symm.trans hfp)).symm
        subst htext
        rcases h _ hfp with hsame | ⟨-, size, hsize⟩
        · cases c with
          | text t =>
              cases hsame
              exact absurd rfl hnot
          | _ => exact .inl hsame
        · cases hsize
    | image p =>
        intro fp hfp
        rcases h fp hfp with hsame | ⟨hecho, hsize⟩
        · cases c with
          | text t =>
              cases hsame
              cases hfp
          | _ => exact absurd ⟨p, rfl⟩ hnot
        · cases c with
          | text t => exact .inr ⟨hecho, hsize⟩
          | _ => exact absurd ⟨p, rfl⟩ hnot
  · intro fp hfp
    cases hfp

theorem known_of_echoUsed {size : Nat} {d : Clip Picture} (hecho : s.remoteImageEcho = true)
    (h : (s.echoUsed size).Known cfg d) : s.Known cfg d := by
  intro fp hfp
  rcases h fp hfp with hsame | ⟨hfalse, -⟩
  · exact .inr ⟨hecho, size, (Option.some.inj hsame).symm⟩
  · cases hfalse

/-- A write that settles leaves it so that a known copy reaches the session. -/
theorem FromHost.seen_hostClipFromRemote (h : s.FromHost cfg) {c : Clip Picture}
    (hfits : s.MaySettle c) (hknown : (s.hostClipFromRemote c).Known cfg s.lastCopy.content) :
    s.Reaches s.lastCopy.content := by
  by_cases halike : c.Alike s.lastCopy.content
  · exact hfits h.onHost halike
  · exact h.seen (known_of_hostClipFromRemote h.copyable halike hknown)

theorem FromHost.resolveWrite (h : s.FromHost cfg) {i : Nat}
    (hfits : s.LastFits cfg (.resolveWrite i)) : (s.resolveWrite i).FromHost cfg := by
  unfold ClipSync.resolveWrite
  split
  · rename_i c hget
    have hseen := h.seen_hostClipFromRemote (hfits c hget)
    have herased : ∀ w ∈ s.writes.eraseIdx i, w ∈ s.writes := fun w => List.mem_of_mem_eraseIdx
    cases c <;> exact h.of_sent rfl rfl (fun _ => id) rfl herased rfl rfl rfl hseen
  · exact h

theorem FromHost.resumeCheck (h : s.FromHost cfg) (hfits : s.LastFits cfg .resumeCheck) :
    (s.resumeCheck cfg).FromHost cfg := by
  have hres := resumed_resumeCheck cfg s
  generalize s.resumeCheck cfg = s' at hres ⊢
  cases hres with
  | nothing => exact h
  | waits hold hnew => exact h.of_check (fun t => hold t true) hnew
  | @landed t hcheck =>
      refine ⟨h.onHost, h.host, h.copyable, ?_, ?_⟩
      · exact ⟨h.nothing.up, h.nothing.down, h.nothing.writes, nofun, nofun⟩
      · exact h.seen_hostClipFromRemote (c := .text t) (hfits.2 t hcheck).1
  | @known size hold hecho =>
      refine (h.idle hold).of_sent rfl rfl
        (fun _ => id) rfl (fun _ => id) rfl rfl rfl ?_
      intro hknown
      exact h.seen (known_of_echoUsed hecho hknown)
  | @sent x echoed hold hsends =>
      refine (h.idle hold).of_sent rfl rfl
        (fun _ => paste_mem_advertise) rfl (fun _ => id) rfl rfl rfl ?_
      intro hknown
      rcases hfits.1 x hsends with hlast | ⟨-, hnew⟩
      · exact .inl ((target_advertise _ x).trans hlast)
      · exact absurd hknown hnew

theorem FromHost.onPaste (h : s.FromHost cfg) : (s.onPaste cfg).FromHost cfg := by
  have hpasted := pasted_onPaste cfg s
  generalize s.onPaste cfg = s' at hpasted ⊢
  cases hpasted with
  | nothing => exact h
  | known hecho =>
      refine h.of_sent rfl rfl (fun _ => id) rfl (fun _ => id) rfl rfl rfl ?_
      intro hknown
      exact h.seen (known_of_echoUsed hecho hknown)
  | sent hnew =>
      refine h.of_sent rfl rfl (fun _ => paste_mem_advertise) rfl (fun _ => id) rfl rfl rfl ?_
      exact fun _ => .inl ((target_advertise _ _).trans h.host)
  | reading hnew =>
      refine h.of_sent rfl rfl (fun _ => id) rfl (fun _ => id) rfl rfl rfl fun _ => .inr ?_
      rw [h.host]
      exact List.mem_append_right _ (List.mem_singleton_self _)

theorem FromHost.pasteRead (h : s.FromHost cfg) {i : Nat} {ok : Bool}
    (hfits : s.LastFits cfg (.pasteRead i ok)) : (s.pasteRead i ok).FromHost cfg := by
  unfold ClipSync.pasteRead
  split
  · rename_i x hget
    have hsame := hfits x hget
    rw [if_pos h.onHost] at hsame
    dsimp only
    split
    · rename_i hok
      refine h.of_sent rfl rfl (fun _ => paste_mem_advertise) rfl (fun _ => id) rfl rfl rfl ?_
      intro hknown
      exact .inl ((target_advertise _ x).trans ((hsame hknown).mp hok))
    · rename_i hok
      refine h.of_sent rfl rfl (fun _ => id) rfl (fun _ => id) rfl rfl rfl ?_
      intro hknown
      rcases h.seen hknown with htarget | hmem
      · exact .inl htarget
      · have hne : s.lastCopy.content ≠ x := fun heq => hok ((hsame hknown).mpr heq.symm)
        exact .inr (mem_eraseIdx_of_ne hget hmem hne)
  · exact h

theorem FromHost.receive (h : s.FromHost cfg) : s.receive.FromHost cfg := by
  have htarget := s.target_receive
  revert htarget
  unfold ClipSync.receive
  split
  · exact fun _ => h
  · rename_i c up hup
    intro htarget
    refine ⟨h.onHost, h.host, h.copyable, ?_, fun hknown => ?_⟩
    · refine ⟨?_, ?_, h.nothing.writes, h.nothing.pending, h.nothing.check⟩
      · intro f hf
        refine h.nothing.up f ?_
        rw [hup]
        exact List.mem_cons_of_mem _ hf
      · intro m hm
        rcases List.mem_append.mp hm with hm | hm
        · exact h.nothing.down m hm
        · exact List.mem_singleton.mp hm
    · rcases h.seen hknown with hseen | hmem
      · exact .inl (htarget.trans hseen)
      · exact .inr hmem
  · rename_i format up hup
    refine absurd ?_ (h.nothing.up format)
    rw [hup]
    exact List.mem_cons_self ..

theorem FromHost.deliver (h : s.FromHost cfg) : (s.deliver cfg).FromHost cfg := by
  have hack := h.nothing.down
  unfold ClipSync.deliver
  split
  · exact h
  · rename_i formats down hdown
    rw [hdown] at hack
    cases hack _ (List.mem_cons_self ..)
  · rename_i c down hdown
    rw [hdown] at hack
    cases hack _ (List.mem_cons_self ..)
  · rename_i down hdown
    rw [hdown] at hack
    cases hack _ (List.mem_cons_self ..)
  · rename_i down hdown
    rw [hdown] at hack
    refine ⟨h.onHost, h.host, h.copyable, ?_, h.seen⟩
    refine ⟨h.nothing.up, fun m hm => hack m (List.mem_cons_of_mem _ hm), h.nothing.writes,
      h.nothing.pending, h.nothing.check⟩

theorem FromHost.onCopy (h : s.FromHost cfg) (hfits : s.LastFits cfg .copyKey) :
    s.onCopy.FromHost cfg := by
  rcases s.onCopy_cases with ⟨heq, -⟩ | ⟨t, hcached, hne, heq⟩
  · rw [heq]
    exact h
  · rw [heq]
    refine h.of_sent ?_ rfl (fun _ => id) rfl (fun _ => id) rfl rfl rfl h.seen
    rw [h.host, hfits h.onHost t hcached hne]

/-- All writes have taken effect. -/
theorem FromHost.not_unperformed (h : s.FromHost cfg) {i : Nat} {c : Clip Picture} :
    s.writes[i]? ≠ some ⟨c, false⟩ := by
  intro hget
  cases h.nothing.writes _ (List.mem_of_getElem? hget)

/-- Without a copy in the session, the host keeps the last one. -/
theorem FromHost.step (h : s.FromHost cfg) {e : ClipEvent Picture} (hfits : s.LastFits cfg e)
    (hsession : ∀ c, e ≠ .sessionCopy c) : (s.step cfg e).FromHost cfg := by
  have hfocus : ∀ focused, FromHost cfg { s with focused } := fun focused =>
    h.of_sent rfl rfl (fun _ => id) rfl (fun _ => id) rfl rfl rfl h.seen
  cases e with
  | hostCopy c => exact fromHost_hostCopy hfits
  | sessionCopy c => exact absurd rfl (hsession c)
  | focus => exact (hfocus true).checkHostClipboard true
  | blur => exact hfocus false
  | tick =>
      rw [ClipSync.step]
      split
      · exact h.checkHostClipboard false
      · exact h
  | check => exact h.checkHostClipboard true
  | performCheck => exact h.performCheck
  | resumeCheck => exact h.resumeCheck hfits
  | rejectCheck => exact h.rejectCheck
  | copyKey => exact h.onCopy hfits
  | pasteKey => exact h.onPaste
  | pasteRead i ok => exact h.pasteRead hfits
  | performWrite i =>
      rw [ClipSync.step]
      unfold ClipSync.performWrite
      split
      · exact absurd ‹_› h.not_unperformed
      · exact h
  | resolveWrite i => exact h.resolveWrite hfits
  | rejectWrite i ok =>
      rw [ClipSync.step]
      unfold ClipSync.rejectWrite
      split
      · exact absurd ‹_› h.not_unperformed
      · exact absurd ‹_› h.not_unperformed
      · exact h
  | receive => exact h.receive
  | deliver => exact h.deliver

end ClipSync

end WasmRdp
