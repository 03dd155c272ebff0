import WasmRdp.ClipFromHost
import WasmRdp.ClipFromSession
import WasmRdp.Lib.Runs

/-!
# The last copy wins

A run is in one of two phases: the last copy is the host's, or it is the
session's and comes to the host. A copy begins a phase, whatever went before;
every other step keeps it. In a quiet state nothing is on its way any more, so
that one more check makes both sides agree.

The two phases are the subjects of `ClipFromHost` and `ClipFromSession`; here
they are joined (`LastInv`). A copy on the host leads into the first from
either, provided that nothing of the session is on its way to the host, which
is what `LastFits` asks of it; a copy in the session leads into the second.
`LastInv.step` is then one case for each phase and each kind of copy, and
`always_lastWins` the induction.

`not_always_lastWins` is a run in which copies cross: text of the session
arrives while the tab has no focus and its write is put off, the user copies
on the host, and the old text is written over the new copy when the focus
comes back.
-/

namespace WasmRdp

namespace ClipSync

variable {Picture : Type} {cfg : ClipConfig Picture} {s : ClipSync Picture}

theorem FromHost.lastWins (h : s.FromHost cfg) : s.LastWins cfg := by
  refine ⟨fun hquiet => ?_, fun _ => h.host, fun _ => ?_⟩
  · have hpending : s.pending = true → s.cachedText = none := by
      intro hp
      rcases h.nothing.pending hp with hnone | ⟨t, ht⟩
      · exact hnone
      · rw [hquiet.check] at ht
        cases ht
    have hcopyable : s.host.content.Copyable ∨ s.host.content = .empty := by
      rw [h.host]
      exact h.copyable
    obtain ⟨hhost, hlast, hremote⟩ := settled_reading cfg hquiet hpending hcopyable
    refine ⟨?_, ?_⟩
    · rw [hhost, hlast, h.host]
    · rw [hlast]
      rcases hremote with ⟨hknown, hremote⟩ | hremote
      · rw [h.host] at hknown
        rcases h.seen hknown with htarget | hmem
        · rw [target, adverts, hquiet.up] at htarget
          exact hremote.trans htarget
        · rw [hquiet.pasteReads] at hmem
          cases hmem
      · rw [hremote, h.host]
  · rw [h.host]
    exact h.seen

theorem FromSession.lastWins (hs : s.FromSession) (h : s.Progress) : s.LastWins cfg := by
  have hsession : s.lastCopy.onHost ≠ true := Bool.eq_false_iff.mp hs.session
  refine ⟨fun hquiet => ?_, fun honHost => absurd honHost hsession,
    fun honHost => absurd honHost hsession⟩
  cases h with
  | announced hdown =>
      rw [hquiet.down] at hdown
      simp at hdown
  | asked hformat hbrings hcomes =>
      rw [hquiet.up, hquiet.down] at hcomes
      simp at hcomes
  | taken h =>
      by_cases hdeferred : ∃ t, s.pending = true ∧ s.cachedText = some t
      · obtain ⟨t, hpending, hcached⟩ := hdeferred
        rw [settled_deferred hquiet hpending hcached]
        exact ⟨(cached_eq_some (h.cached.symm.trans hcached)).symm, hs.remote⟩
      · have hhost : s.host.content = s.lastCopy.content := by
          rcases h.here with (⟨w, hw, -⟩ | ⟨hpending, t, ht⟩) | hhost
          · rw [hquiet.writes] at hw
            cases hw
          · refine absurd ⟨t, hpending, ?_⟩ hdeferred
            rw [h.cached, ht]
            rfl
          · exact hhost
        have hpending : s.pending = true → s.cachedText = none := by
          intro hp
          cases hcached : s.cachedText with
          | none => rfl
          | some t => exact absurd ⟨t, hp, hcached⟩ hdeferred
        have hcopyable : s.host.content.Copyable ∨ s.host.content = .empty := by
          rw [hhost]
          exact .inl hs.copyable
        obtain ⟨hsame, hlast, hremote⟩ := settled_reading cfg hquiet hpending hcopyable
        refine ⟨?_, ?_⟩
        · rw [hsame, hlast, hhost]
        · rw [hlast]
          rcases hremote with ⟨-, hremote⟩ | hremote
          · exact hremote.trans hs.remote
          · exact hremote.trans hhost

/-- The last copy is the host's, or it is the session's and comes to the
host. -/
def LastInv (cfg : ClipConfig Picture) (s : ClipSync Picture) : Prop :=
  s.FromHost cfg ∨ (s.FromSession ∧ s.Progress)

theorem LastInv.lastWins (h : s.LastInv cfg) : s.LastWins cfg := by
  rcases h with h | ⟨hs, h⟩
  · exact h.lastWins
  · exact hs.lastWins h

theorem LastInv.step (h : s.LastInv cfg) {e : ClipEvent Picture} (hfits : s.LastFits cfg e) :
    (s.step cfg e).LastInv cfg := by
  rcases h with h | ⟨hs, h⟩
  · by_cases hsession : ∃ c, e = .sessionCopy c
    · obtain ⟨c, rfl⟩ := hsession
      exact .inr ⟨fromSession_sessionCopy hfits, s.progress_sessionCopy c⟩
    · exact .inl (h.step hfits fun c hc => hsession ⟨c, hc⟩)
  · by_cases hhost : ∃ c, e = .hostCopy c
    · obtain ⟨c, rfl⟩ := hhost
      exact .inl (fromHost_hostCopy hfits)
    · exact .inr (hs.step h hfits fun c hc => hhost ⟨c, hc⟩)

theorem always_lastWins {es : List (ClipEvent Picture)}
    (h : Runs.Each (step cfg) (LastFits cfg) start es) :
    Runs.Always (step cfg) (LastWins cfg) start es := by
  have hinv : Runs.Always (step cfg) (LastInv cfg) start es :=
    Runs.always_of_each (fun s e _ hs hfits => hs.step hfits) (.inl fromHost_start) h
  exact fun pre hpre => (hinv pre hpre).lastWins

theorem each_lastFits_bothWays : Runs.Each (step flatConfig) (LastFits flatConfig) start
    bothWays := by
  rw [bothWays]
  simp only [Runs.each_cons]
  refine ⟨⟨.text (by simp), rfl, ?_⟩, trivial, trivial, trivial, ?_, ?_,
    ⟨.text (by simp), ?_, ?_⟩, trivial, nofun, ⟨?_, nofun⟩, Runs.each_nil⟩
  · rintro f (hpaste | ⟨formats, hlist, -⟩)
    · cases hpaste
    · cases hlist
  · intro c hwrite hsession hhost
    cases hhost
  · intro c hwrite honHost
    cases honHost
  · exact ⟨nofun, nofun, nofun, nofun, nofun⟩
  · intro hknown
    rcases hknown (.text "b") rfl with hsame | ⟨hecho, -⟩
    · have htexts : some (Fingerprint.text "a") = some (.text "b") := hsame
      simp at htexts
    · cases hecho
  · rintro x (⟨p, hcheck, -⟩ | ⟨t, echo, hcheck, -, hx, -⟩)
    · cases hcheck
    · cases hcheck
      exact .inl hx

theorem always_lastWins_bothWays :
    Runs.Always (step flatConfig) (LastWins flatConfig) start bothWays :=
  always_lastWins each_lastFits_bothWays

/-- Text of the session arrives while the tab has no focus. Then the user
copies on the host, and comes back. -/
def putOff : List (ClipEvent Nat) :=
  [.blur, .sessionCopy (.text "a"), .deliver, .receive, .deliver, .rejectWrite 0 false,
    .hostCopy (.text "b"), .focus, .performCheck]

/-- The old text of the session replaces the new copy. -/
theorem not_always_lastWins : ¬ ∀ (Picture : Type) (cfg : ClipConfig Picture)
    (es : List (ClipEvent Picture)), Runs.Always (step cfg) (LastWins cfg) start es := by
  intro h
  have hlast := h Nat flatConfig putOff putOff (List.prefix_refl _)
  have hkept : (.text "a" : Clip Nat) = .text "b" := hlast.kept rfl
  simp at hkept

end ClipSync

end WasmRdp
