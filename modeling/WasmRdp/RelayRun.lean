import Mathlib.Data.List.TakeWhile
import WasmRdp.Relay

/-!
# The relay is transparent across the upgrade

A run is cut at the upgrade command: `beforeUpgrade` and `afterUpgrade`. As
long as neither side closes or fails, what was written to TCP, a write in
progress included, are the binary messages before the command, what was
written to TLS are those after it, and the client is sent the chunks read
from TCP, one `tls_ready` and the chunks read from TLS, in this order
(`relay_transparent`). The invariant `Inv` says so at each phase.

The cut is computed from the events alone, by the first message that passes
the test for the command. One more event moves the cut or does not
(`noUpgrade_or_split`), and a longer run has no less on either side of it
(`prefix_cut`).

There are three phases with three invariants. `RawInv` has everything still
before the cut. `HandshakeInv` is between the command and the end of the
handshake, when the relay takes no message of either side. `TlsInv` has the
two halves with their own writes, and the one `tls_ready` in front of what the
client is sent. Each has a step lemma. A relay that has stopped, in any phase,
keeps of its invariant what does not mention further events (`Cut`), which is
that nothing has crossed to the wrong side. Text messages other than the first
command change nothing (`Inv.text`).
-/

namespace WasmRdp

open Sinks

/-! ## Cutting a run -/

/-- The bytes of the binary messages from the client. -/
def toServer (evs : List RelayEvent) : List UInt8 :=
  evs.flatMap fun
    | .fromClient (.binary data) => data
    | _ => []

/-- The chunks read from the server, as messages to the client. -/
def toClient (evs : List RelayEvent) : List RelayMessage :=
  evs.flatMap fun
    | .fromServer data => [.binary data]
    | _ => []

@[simp] theorem toServer_append (evs evs' : List RelayEvent) :
    toServer (evs ++ evs') = toServer evs ++ toServer evs' := List.flatMap_append ..

@[simp] theorem toClient_append (evs evs' : List RelayEvent) :
    toClient (evs ++ evs') = toClient evs ++ toClient evs' := List.flatMap_append ..

section

variable (fromStr : String → Option Value)

def RelayEvent.isUpgrade : RelayEvent → Bool
  | .fromClient (.text text) => isTlsUpgrade fromStr text
  | _ => false

def beforeUpgrade (evs : List RelayEvent) : List RelayEvent :=
  evs.takeWhile (!·.isUpgrade fromStr)

def afterUpgrade (evs : List RelayEvent) : List RelayEvent :=
  (evs.dropWhile (!·.isUpgrade fromStr)).tail

end

variable {fromStr : String → Option Value}

/-- No upgrade command so far. -/
def NoUpgrade (fromStr : String → Option Value) (evs : List RelayEvent) : Prop :=
  ∀ ev ∈ evs, ev.isUpgrade fromStr = false

section

variable {before after evs : List RelayEvent} {up : RelayEvent}

theorem NoUpgrade.snoc (h : NoUpgrade fromStr evs) {ev : RelayEvent}
    (hev : ev.isUpgrade fromStr = false) : NoUpgrade fromStr (evs ++ [ev]) := by
  intro ev' hmem
  rcases List.mem_append.mp hmem with hmem | hmem
  · exact h ev' hmem
  · rwa [List.mem_singleton.mp hmem]

theorem NoUpgrade.takes (h : NoUpgrade fromStr evs) :
    ∀ ev ∈ evs, (!ev.isUpgrade fromStr) = true := fun ev hmem => by
  rw [h ev hmem]
  rfl

theorem beforeUpgrade_of_none (h : NoUpgrade fromStr evs) :
    beforeUpgrade fromStr evs = evs := List.takeWhile_eq_self_iff.mpr h.takes

theorem afterUpgrade_of_none (h : NoUpgrade fromStr evs) :
    afterUpgrade fromStr evs = [] := by
  rw [afterUpgrade, List.dropWhile_eq_nil_iff.mpr h.takes, List.tail_nil]

theorem beforeUpgrade_split (h : NoUpgrade fromStr before)
    (hup : up.isUpgrade fromStr = true) :
    beforeUpgrade fromStr (before ++ up :: after) = before := by
  rw [beforeUpgrade, List.takeWhile_append_of_pos h.takes,
    List.takeWhile_cons_of_neg (by rw [hup]; decide), List.append_nil]

theorem afterUpgrade_split (h : NoUpgrade fromStr before)
    (hup : up.isUpgrade fromStr = true) :
    afterUpgrade fromStr (before ++ up :: after) = after := by
  rw [afterUpgrade, List.dropWhile_append_of_pos h.takes,
    List.dropWhile_cons_of_neg (by rw [hup]; decide), List.tail_cons]

/-- A run has no upgrade command, or is cut at the first one. -/
theorem noUpgrade_or_split (fromStr : String → Option Value)
    (evs : List RelayEvent) : NoUpgrade fromStr evs ∨
      ∃ before up after, evs = before ++ up :: after ∧
        NoUpgrade fromStr before ∧ up.isUpgrade fromStr = true := by
  induction evs with
  | nil => exact .inl fun _ h => (nomatch h)
  | cons ev evs ih =>
      by_cases hev : ev.isUpgrade fromStr = true
      · exact .inr ⟨[], ev, evs, rfl, fun _ h => (nomatch h), hev⟩
      have hcons : ∀ {evs'}, NoUpgrade fromStr evs' →
          NoUpgrade fromStr (ev :: evs') := fun h ev' hmem => by
        rcases List.mem_cons.mp hmem with rfl | hmem
        · exact Bool.eq_false_iff.mpr hev
        · exact h ev' hmem
      rcases ih with hnone | ⟨before, up, after, rfl, hbefore, hup⟩
      · exact .inl (hcons hnone)
      · exact .inr ⟨ev :: before, up, after, rfl, hcons hbefore, hup⟩

/-- A longer run has no less on either side. -/
theorem prefix_cut (fromStr : String → Option Value) (evs more : List RelayEvent) :
    toServer (beforeUpgrade fromStr evs) <+:
        toServer (beforeUpgrade fromStr (evs ++ more)) ∧
      toServer (afterUpgrade fromStr evs) <+:
        toServer (afterUpgrade fromStr (evs ++ more)) := by
  rcases noUpgrade_or_split fromStr evs with hnone | ⟨before, up, after, rfl, hb, hup⟩
  · rw [beforeUpgrade_of_none hnone, afterUpgrade_of_none hnone]
    refine ⟨?_, List.nil_prefix⟩
    rw [beforeUpgrade, List.takeWhile_append_of_pos hnone.takes, toServer_append]
    exact List.prefix_append ..
  · rw [List.append_assoc, List.cons_append, beforeUpgrade_split hb hup,
      beforeUpgrade_split hb hup, afterUpgrade_split hb hup,
      afterUpgrade_split hb hup, toServer_append]
    exact ⟨List.prefix_rfl, List.prefix_append ..⟩

end

/-! ## The invariant -/

namespace Relay

/-- In the first loop. -/
structure RawInv (fromStr : String → Option Value) (hist : List RelayEvent)
    (r : Relay) : Prop where
  phase : r.phase = .raw
  noUpgrade : NoUpgrade fromStr hist
  tcp : r.tcp.all = toServer hist
  tls : r.tls = .empty
  ws : r.ws.all = toClient hist

/-- During the handshake. -/
structure HandshakeInv (fromStr : String → Option Value)
    (before : List RelayEvent) (up : RelayEvent) (r : Relay) : Prop where
  phase : r.phase = .handshake
  noUpgrade : NoUpgrade fromStr before
  up : up.isUpgrade fromStr = true
  tcp : r.tcp.Idle ∧ r.tcp.all = toServer before
  tls : r.tls = .empty
  ws : r.ws.Idle ∧ r.ws.all = toClient before

/-- After the handshake; `after` is empty until `tls_ready` is sent. -/
structure TlsInv (fromStr : String → Option Value) (before : List RelayEvent)
    (up : RelayEvent) (peer : PeerCertificate) (after : List RelayEvent)
    (r : Relay) : Prop where
  phase : r.phase = .ready ∨ r.phase = .tls
  noUpgrade : NoUpgrade fromStr before
  up : up.isUpgrade fromStr = true
  tcp : r.tcp.Idle ∧ r.tcp.all = toServer before
  tls : r.tls.all = toServer after
  ws : r.ws.all = toClient before ++
    .text (tlsReady (serverCertDer peer)) :: toClient after

/-- What was accepted came from the right side of the cut. -/
def Cut (fromStr : String → Option Value) (hist : List RelayEvent)
    (r : Relay) : Prop :=
  r.tcp.out <+: toServer (beforeUpgrade fromStr hist) ∧
    r.tls.out <+: toServer (afterUpgrade fromStr hist)

/-- The relay after the events `hist`. -/
inductive Inv (fromStr : String → Option Value) :
    List RelayEvent → Relay → Prop where
  | raw {hist r} (h : RawInv fromStr hist r) : Inv fromStr hist r
  | handshake {before up r} (h : HandshakeInv fromStr before up r) :
      Inv fromStr (before ++ [up]) r
  | tls {before up peer after r} (h : TlsInv fromStr before up peer after r) :
      Inv fromStr (before ++ up :: .connected peer :: after) r
  | stopped {hist r} (h : ¬ r.phase.Live) (hcut : Cut fromStr hist r) :
      Inv fromStr hist r

variable {hist before after : List RelayEvent} {up ev : RelayEvent}
  {peer : PeerCertificate} {r r' : Relay}

theorem Inv.cut (hi : Inv fromStr hist r) : Cut fromStr hist r := by
  cases hi with
  | raw h =>
      refine ⟨?_, ?_⟩
      · rw [beforeUpgrade_of_none h.noUpgrade, ← h.tcp]
        exact r.tcp.out_prefix_all
      · rw [h.tls]
        exact List.nil_prefix
  | handshake h =>
      refine ⟨?_, ?_⟩
      · rw [beforeUpgrade_split h.noUpgrade h.up, ← h.tcp.2]
        exact r.tcp.out_prefix_all
      · rw [h.tls]
        exact List.nil_prefix
  | tls h =>
      refine ⟨?_, ?_⟩
      · rw [beforeUpgrade_split h.noUpgrade h.up, ← h.tcp.2]
        exact r.tcp.out_prefix_all
      · rw [afterUpgrade_split h.noUpgrade h.up]
        have htls := r.tls.out_prefix_all
        rw [h.tls] at htls
        exact htls
  | stopped _ hcut => exact hcut

/-- The relay stops. -/
theorem Inv.stop (hi : Inv fromStr hist r) (hphase : ¬ r'.phase.Live)
    (htcp : r'.tcp = r.tcp) (htls : r'.tls = r.tls) :
    Inv fromStr (hist ++ [ev]) r' := by
  obtain ⟨hbefore, hafter⟩ := hi.cut
  obtain ⟨hmono, hmono'⟩ := prefix_cut fromStr hist [ev]
  refine .stopped hphase ⟨?_, ?_⟩
  · rw [htcp]
    exact hbefore.trans hmono
  · rw [htls]
    exact hafter.trans hmono'

theorem not_live_closed : ¬ Phase.closed.Live := fun h => h.2 rfl

theorem not_live_failed : ¬ Phase.failed.Live := fun h => h.1 rfl

/-- An event of the first loop that leaves the relay in it. -/
theorem RawInv.snoc (hi : RawInv fromStr hist r)
    (hev : ev.isUpgrade fromStr = false) (hphase : r'.phase = r.phase)
    (htcp : r'.tcp.all = r.tcp.all ++ toServer [ev]) (htls : r'.tls = r.tls)
    (hws : r'.ws.all = r.ws.all ++ toClient [ev]) :
    Inv fromStr (hist ++ [ev]) r' :=
  .raw
    { phase := hphase.trans hi.phase
      noUpgrade := hi.noUpgrade.snoc hev
      tcp := by rw [htcp, hi.tcp, toServer_append]
      tls := htls.trans hi.tls
      ws := by rw [hws, hi.ws, toClient_append] }

/-- An event of `run_tls_relay`, or the end of sending `tls_ready`. -/
theorem TlsInv.snoc (hi : TlsInv fromStr before up peer after r)
    (hphase : r'.phase = .tls) (htcp : r'.tcp = r.tcp)
    (htls : r'.tls.all = r.tls.all ++ toServer [ev])
    (hws : r'.ws.all = r.ws.all ++ toClient [ev]) :
    Inv fromStr (before ++ up :: .connected peer :: after ++ [ev]) r' := by
  rw [List.append_assoc, List.cons_append, List.cons_append]
  refine .tls
    { phase := .inr hphase
      noUpgrade := hi.noUpgrade
      up := hi.up
      tcp := htcp ▸ hi.tcp
      tls := by rw [htls, hi.tls, toServer_append]
      ws := ?_ }
  rw [hws, hi.ws, toClient_append, List.append_assoc, List.cons_append]

theorem RawInv.step (hi : RawInv fromStr hist r)
    (h : r.rawStep fromStr ev = some r') : Inv fromStr (hist ++ [ev]) r' := by
  have hstop : Inv fromStr (hist ++ [ev]) r.close :=
    (Inv.raw hi).stop not_live_closed rfl rfl
  have hnil : ∀ {β : Type} (xs : List β), xs = xs ++ [] :=
    fun xs => (List.append_nil xs).symm
  cases ev with
  | fromClient m =>
      obtain ⟨hidle, ⟨⟩⟩ := Option.ite_none_right_eq_some.mp h
      cases m with
      | binary data =>
          exact hi.snoc rfl rfl
            ((hidle.1.all_send data).trans (congrArg _ (hnil data))) rfl (hnil _)
      | text text =>
          rw [rawMessage]
          split
          · rename_i hup
            exact .handshake
              { phase := rfl, noUpgrade := hi.noUpgrade, up := hup,
                tcp := ⟨hidle.1, hi.tcp⟩, tls := hi.tls,
                ws := ⟨hidle.2, hi.ws⟩ }
          · rename_i hup
            exact hi.snoc (Bool.eq_false_iff.mpr hup) rfl (hnil _) rfl (hnil _)
      | ping | pong => exact hi.snoc rfl rfl (hnil _) rfl (hnil _)
      | close | error | ended => exact hstop
  | fromServer data =>
      obtain ⟨hidle, hread⟩ := Option.ite_none_right_eq_some.mp h
      split at hread
      · cases hread
        exact hstop
      · cases hread
        exact hi.snoc rfl rfl (hnil _) rfl (hidle.2.1.all_send _)
  | readFailed =>
      obtain ⟨-, ⟨⟩⟩ := Option.ite_none_right_eq_some.mp h
      exact hstop
  | wrote n =>
      obtain ⟨-, ⟨⟩⟩ := Option.ite_none_right_eq_some.mp h
      exact hi.snoc rfl rfl ((r.tcp.all_accept n).trans (hnil _)) rfl (hnil _)
  | writeFailed | sendFailed =>
      obtain ⟨-, ⟨⟩⟩ := Option.ite_none_left_eq_some.mp h
      exact hstop
  | sent =>
      obtain ⟨-, ⟨⟩⟩ := Option.ite_none_left_eq_some.mp h
      exact hi.snoc rfl rfl (hnil _) rfl ((r.ws.all_accept 1).trans (hnil _))
  | connected peer | connectFailed e => cases h

theorem HandshakeInv.step (hi : HandshakeInv fromStr before up r)
    (h : r.handshakeStep ev = some r') :
    Inv fromStr (before ++ [up] ++ [ev]) r' := by
  cases ev with
  | connected peer =>
      cases h
      rw [List.append_assoc]
      exact .tls
        { phase := .inl rfl, noUpgrade := hi.noUpgrade, up := hi.up,
          tcp := hi.tcp, tls := by rw [hi.tls]; rfl,
          ws := (hi.ws.1.all_send _).trans (congrArg (· ++ _) hi.ws.2) }
  | connectFailed e =>
      cases h
      exact (Inv.handshake hi).stop not_live_failed rfl rfl
  | _ => cases h

theorem TlsInv.step_ready (hi : TlsInv fromStr before up peer after r)
    (h : r.answerStep .tls ev = some r') :
    Inv fromStr (before ++ up :: .connected peer :: after ++ [ev]) r' := by
  cases ev with
  | sent =>
      cases h
      exact hi.snoc rfl rfl (List.append_nil _).symm
        ((r.ws.all_accept 1).trans (List.append_nil _).symm)
  | sendFailed =>
      cases h
      exact (Inv.tls hi).stop not_live_closed rfl rfl
  | _ => cases h

theorem TlsInv.step (hi : TlsInv fromStr before up peer after r)
    (hphase : r.phase = .tls) (h : r.tlsStep ev = some r') :
    Inv fromStr (before ++ up :: .connected peer :: after ++ [ev]) r' := by
  have hstop : Inv fromStr (before ++ up :: .connected peer :: after ++ [ev])
      r.close := (Inv.tls hi).stop not_live_closed rfl rfl
  have hnil : ∀ {β : Type} (xs : List β), xs = xs ++ [] :=
    fun xs => (List.append_nil xs).symm
  cases ev with
  | fromClient m =>
      obtain ⟨hidle, ⟨⟩⟩ := Option.ite_none_right_eq_some.mp h
      cases m with
      | binary data =>
          exact hi.snoc hphase rfl
            ((hidle.all_send data).trans (congrArg _ (hnil data))) (hnil _)
      | text _ | ping | pong => exact hi.snoc hphase rfl (hnil _) (hnil _)
      | close | error | ended => exact hstop
  | fromServer data =>
      obtain ⟨hidle, hread⟩ := Option.ite_none_right_eq_some.mp h
      split at hread
      · cases hread
        exact hstop
      · cases hread
        exact hi.snoc hphase rfl (hnil _) (hidle.1.all_send _)
  | readFailed =>
      obtain ⟨-, ⟨⟩⟩ := Option.ite_none_right_eq_some.mp h
      exact hstop
  | wrote n =>
      obtain ⟨-, ⟨⟩⟩ := Option.ite_none_right_eq_some.mp h
      exact hi.snoc hphase rfl ((r.tls.all_accept n).trans (hnil _)) (hnil _)
  | writeFailed | sendFailed =>
      obtain ⟨-, ⟨⟩⟩ := Option.ite_none_left_eq_some.mp h
      exact hstop
  | sent =>
      obtain ⟨-, ⟨⟩⟩ := Option.ite_none_left_eq_some.mp h
      exact hi.snoc hphase rfl (hnil _) ((r.ws.all_accept 1).trans (hnil _))
  | connected peer | connectFailed e => cases h

/-- What one event preserves. -/
theorem Inv.step (hi : Inv fromStr hist r) (h : r.step fromStr ev = some r') :
    Inv fromStr (hist ++ [ev]) r' := by
  have hi' := hi
  cases hi with
  | raw hraw =>
      rw [Relay.step, hraw.phase] at h
      exact hraw.step h
  | handshake hhs =>
      rw [Relay.step, hhs.phase] at h
      exact hhs.step h
  | tls htls =>
      rcases htls.phase with hphase | hphase
      · rw [Relay.step, hphase] at h
        exact htls.step_ready h
      · rw [Relay.step, hphase] at h
        exact htls.step hphase h
  | stopped hstop _ =>
      rw [Relay.step] at h
      split at h
      -- only a failed relay still does something, and that is to close
      case h_4 =>
        cases ev with
        | sent | sendFailed =>
            cases h
            exact hi'.stop not_live_closed rfl rfl
        | _ => cases h
      case h_6 => cases h
      all_goals
        rename_i hphase
        exact absurd ⟨by rw [hphase]; decide, by rw [hphase]; decide⟩ hstop

theorem Inv.run {evs : List RelayEvent} (hi : Inv fromStr hist r)
    (h : r.run fromStr evs = some r') : Inv fromStr (hist ++ evs) r' := by
  induction evs generalizing hist r with
  | nil =>
      cases h
      rwa [List.append_nil]
  | cons ev evs ih =>
      rw [Relay.run, List.foldlM_cons] at h
      obtain ⟨r₁, hstep, hrest⟩ := Option.bind_eq_some_iff.mp h
      have hrun := ih (hi.step hstep) hrest
      rwa [List.append_assoc] at hrun

theorem Inv.start : Inv fromStr [] start :=
  .raw ⟨rfl, fun _ h => (nomatch h), rfl, rfl, rfl⟩

/-- A text message changes nothing, unless it is the first upgrade
command. -/
theorem Inv.text (hi : Inv fromStr hist r) {text : String}
    (htext : isTlsUpgrade fromStr text = true → ¬ NoUpgrade fromStr hist)
    (h : r.step fromStr (.fromClient (.text text)) = some r') : r' = r := by
  rw [Relay.step] at h
  split at h
  · rename_i hphase
    have hno : isTlsUpgrade fromStr text ≠ true := by
      cases hi with
      | raw hraw => exact fun hup => htext hup hraw.noUpgrade
      | handshake hhs => exact absurd (hhs.phase.symm.trans hphase) (by decide)
      | tls htls =>
          rcases htls.phase with hp | hp <;>
            exact absurd (hp.symm.trans hphase) (by decide)
      | stopped hstop _ =>
          exact absurd ⟨by rw [hphase]; decide, by rw [hphase]; decide⟩ hstop
    rw [rawStep, rawMessage, if_neg hno] at h
    split at h <;> cases h
    rfl
  · cases h
  · cases h
  · cases h
  · rw [tlsStep, tlsMessage] at h
    split at h <;> cases h
    rfl
  · cases h

/-- The relay is transparent across the upgrade. Bytes never cross to the
wrong side of the command, also when the relay stops; text messages other
than the first command change nothing; and while the relay is live, each
byte and message it took is written or being written, in order and once. -/
theorem relay_transparent (fromStr : String → Option Value)
    {evs : List RelayEvent} {r : Relay} (h : start.run fromStr evs = some r) :
    Cut fromStr evs r ∧
    (∀ text r', (isTlsUpgrade fromStr text = true → ¬ NoUpgrade fromStr evs) →
      r.step fromStr (.fromClient (.text text)) = some r' → r' = r) ∧
    (r.phase.Live →
      r.tcp.all = toServer (beforeUpgrade fromStr evs) ∧
      r.tls.all = toServer (afterUpgrade fromStr evs) ∧
      (NoUpgrade fromStr evs ∨ r.tcp.Idle) ∧
      (afterUpgrade fromStr evs = [] ∧
          r.ws.all = toClient (beforeUpgrade fromStr evs) ∨
        ∃ peer rest, afterUpgrade fromStr evs = .connected peer :: rest ∧
          r.ws.all = toClient (beforeUpgrade fromStr evs) ++
            .text (tlsReady (serverCertDer peer)) :: toClient rest)) := by
  have hi : Inv fromStr evs r := Inv.start.run h
  refine ⟨hi.cut, fun text r' => hi.text, fun hlive => ?_⟩
  cases hi with
  | raw hraw =>
      rw [beforeUpgrade_of_none hraw.noUpgrade, afterUpgrade_of_none hraw.noUpgrade]
      refine ⟨hraw.tcp, ?_, .inl hraw.noUpgrade, .inl ⟨rfl, hraw.ws⟩⟩
      rw [hraw.tls]
      rfl
  | handshake hhs =>
      rw [beforeUpgrade_split hhs.noUpgrade hhs.up,
        afterUpgrade_split hhs.noUpgrade hhs.up]
      refine ⟨hhs.tcp.2, ?_, .inr hhs.tcp.1, .inl ⟨rfl, hhs.ws.2⟩⟩
      rw [hhs.tls]
      rfl
  | @tls _ _ peer after _ htls =>
      rw [beforeUpgrade_split htls.noUpgrade htls.up,
        afterUpgrade_split htls.noUpgrade htls.up]
      exact ⟨htls.tcp.2, htls.tls, .inr htls.tcp.1, .inr ⟨peer, after, rfl, htls.ws⟩⟩
  | stopped hstop _ => exact absurd hlive hstop

/-- A run across the upgrade that ends with a byte of the client still to
be written to TLS. -/
theorem relay_transparent_example :
    let cmd := "\x7b\x22cmd\x22:\x22tls_upgrade\x22\x7d"
    let fromStr : String → Option Value := fun text =>
      if text = cmd then some (.object [("cmd", .string "tls_upgrade")]) else none
    let evs : List RelayEvent :=
      [.fromClient (.binary [1, 2]), .wrote 1, .wrote 1, .fromServer [9], .sent,
        .fromClient (.text "hello"), .fromClient (.text cmd),
        .connected (.present (some [0xAB])), .sent, .fromServer [8],
        .fromClient (.binary [3, 4]), .wrote 1, .sent]
    ∃ r, start.run fromStr evs = some r ∧ r.tcp.Idle ∧
      r.tcp.all = toServer (beforeUpgrade fromStr evs) ∧
      r.tls.all = toServer (afterUpgrade fromStr evs) := by
  intro cmd fromStr evs
  have hrun : start.run fromStr evs = some
      ⟨.tls, ⟨[1, 2], []⟩, ⟨[3], [4]⟩,
        ⟨[.binary [9], .text (tlsReady [0xAB]), .binary [8]], []⟩⟩ := rfl
  obtain ⟨htcp, htls, -⟩ :=
    (relay_transparent fromStr hrun).2.2 ⟨by decide, by decide⟩
  exact ⟨_, hrun, rfl, htcp, htls⟩

end Relay

end WasmRdp
