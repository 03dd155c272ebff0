import WasmRdp.FramedRun
import WasmRdp.TlsReady

/-!
# The upgrade to TLS, seen by the client

`perform_tls_upgrade` asks the relay for TLS and waits for its `tls_ready`
text. Binary messages that come first are appended to the receive buffer,
which the later reads go on with: nothing marks where TLS begins.

A `ClearRun` is a connection up to the point where the client has its
ConnectionConfirm and the relay has still sent `late` in the clear. Two of
them read the same after the upgrade exactly when they received the same
bytes in the clear (`sameReads_iff_clear`): a read returns the bytes of the
buffer, so a difference shows, and the byte count of the statistics is all
that a run could otherwise differ in.

An upgrade keeps the clear bytes that came before its answer
(`performTlsUpgrade_ok`), so the buffer that it leaves is known
(`ClearRun.upgraded`): all that was received in the clear, less the
ConnectionConfirm. With equal buffers later reads agree, since a read does not
look at the statistics (`run_addRx` and its companions). With different ones a
`read_exact` tells them apart: two byte strings differ within what some bytes
more make of both (`exists_take_ne`), and a read that long returns them once
enough has arrived (`results_readExact`).

In `not_always_sameReads` an empty TSRequest that was sent in the clear is
what the client reads as the first answer over TLS.
-/

namespace WasmRdp

open Framing

/-! ## The upgrade -/

inductive TextPoll where
  | pending (framed : WasmFramed)
  | ready (r : Except ReadError String) (framed : WasmFramed)

/-- `read_text_message`. The binary messages are buffered, and not counted
in `rx_bytes`. -/
def readTextMessage : List WsMessage → List UInt8 → Nat → TextPoll
  | [], buf, rxBytes => .pending ⟨[], buf, rxBytes⟩
  | .text text :: ws, buf, rxBytes => .ready (.ok text) ⟨ws, buf, rxBytes⟩
  | .bytes data :: ws, buf, rxBytes => readTextMessage ws (buf ++ data) rxBytes
  | .error e :: ws, buf, rxBytes =>
      .ready (.error (.websocket e)) ⟨ws, buf, rxBytes⟩
  | .closed :: ws, buf, rxBytes =>
      .ready (.error .closedWaitingForText) ⟨ws, buf, rxBytes⟩

inductive UpgradeError where
  /-- `Failed to send tls_upgrade: {e}` -/
  | send (e : String)
  /-- `Failed to read tls_ready response` -/
  | read (e : ReadError)
  /-- `Invalid tls_ready response from proxy` -/
  | invalidTlsReady
  | hex (e : HexError)

inductive UpgradePoll where
  | pending (framed : WasmFramed)
  | ready (r : Except UpgradeError (List UInt8)) (framed : WasmFramed)

/-- `perform_tls_upgrade`, where `sent` is the result of sending the
command. -/
def performTlsUpgrade (sent : Except String Unit) (framed : WasmFramed) :
    UpgradePoll :=
  match sent with
  | .error e => .ready (.error (.send e)) framed
  | .ok () =>
      match readTextMessage framed.wsRead framed.buf framed.rxBytes with
      | .pending framed => .pending framed
      | .ready (.error e) framed => .ready (.error (.read e)) framed
      | .ready (.ok text) framed =>
          match readTlsReady text with
          | none => .ready (.error .invalidTlsReady) framed
          | some (.error e) => .ready (.error (.hex e)) framed
          | some (.ok certDer) => .ready (.ok certDer) framed

def WsMessage.Binary : WsMessage → Prop
  | .bytes _ => True
  | _ => False

theorem WsMessage.Binary.plain {m : WsMessage} (h : m.Binary) : m.Plain := by
  cases m with
  | bytes data => trivial
  | _ => cases h

theorem readTextMessage_append {ws : List WsMessage}
    (hws : ∀ m ∈ ws, m.Binary) (ws' : List WsMessage) (buf : List UInt8)
    (rxBytes : Nat) : readTextMessage (ws ++ ws') buf rxBytes =
      readTextMessage ws' (buf ++ bytesOf ws) rxBytes := by
  induction ws generalizing buf with
  | nil => rw [List.nil_append, bytesOf, List.flatMap_nil, List.append_nil]
  | cons m ws ih =>
      have hm := hws m (List.mem_cons_self ..)
      cases m with
      | bytes data =>
          have hbytes : bytesOf (.bytes data :: ws) = data ++ bytesOf ws := rfl
          rw [List.cons_append, readTextMessage, hbytes, ← List.append_assoc]
          exact ih (fun m' hm' => hws m' (List.mem_cons_of_mem _ hm')) _
      | _ => cases hm

/-- An upgrade keeps the clear bytes that came before its answer. -/
theorem performTlsUpgrade_ok {framed : WasmFramed} {ws post : List WsMessage}
    {ready : String} {certDer : List UInt8}
    (hsplit : framed.wsRead = ws ++ .text ready :: post)
    (hws : ∀ m ∈ ws, m.Binary) (hready : readTlsReady ready = some (.ok certDer)) :
    performTlsUpgrade (.ok ()) framed = .ready (.ok certDer)
      ⟨post, framed.buf ++ bytesOf ws, framed.rxBytes⟩ := by
  rw [performTlsUpgrade, hsplit, readTextMessage_append hws, readTextMessage]
  dsimp only
  rw [hready]

/-! ## Reads do not depend on the statistics -/

def WasmFramed.addRx (f : WasmFramed) (d : Nat) : WasmFramed :=
  { f with rxBytes := f.rxBytes + d }

def Poll.addRx {P : Type} (d : Nat) : Poll P → Poll P
  | .pending p f => .pending p (f.addRx d)
  | .ready r f => .ready r (f.addRx d)

def ReadTask.addRx (t : ReadTask) (d : Nat) : ReadTask :=
  { t with framed := t.framed.addRx d }

theorem fillBuf_addRx (F : FrameReader) (d : Nat) : ∀ (ws : List WsMessage)
    (p : F.Point) (buf : List UInt8) (rxBytes : Nat),
    fillBuf F p ws buf (rxBytes + d) = (fillBuf F p ws buf rxBytes).addRx d
  | [], _, _, _ => rfl
  | .text _ :: ws, p, buf, rxBytes => fillBuf_addRx F d ws p buf rxBytes
  | .error _ :: _, _, _, _ => rfl
  | .closed :: _, _, _, _ => rfl
  | .bytes data :: ws, p, buf, rxBytes => by
      rw [fillBuf, fillBuf, Nat.add_right_comm]
      split
      · exact fillBuf_addRx F d ws _ _ _
      · rfl
      · rfl

theorem startRead_addRx (F : FrameReader) (f : WasmFramed) (d : Nat) :
    startRead F (f.addRx d) = (startRead F f).addRx d := by
  rw [startRead, startRead, WasmFramed.addRx]
  dsimp only
  split
  · exact fillBuf_addRx F d _ _ _ _
  · rfl
  · rfl

namespace ReadTask

theorem settle_addRx (t : ReadTask) (F : FrameReader) (out : Poll F.Point) (d : Nat) :
    (t.addRx d).settle F (out.addRx d) = (t.settle F out).addRx d := by
  cases out <;> rfl

theorem step_addRx (t : ReadTask) (ev : TaskEvent) (d : Nat) :
    (t.addRx d).step ev = (t.step ev).addRx d := by
  cases ev with
  | arrive m => rfl
  | drop => rfl
  | poll =>
      obtain ⟨f, calls, pending, results⟩ := t
      match pending, calls with
      | some ⟨F, p⟩, calls =>
          have h := fillBuf_addRx F d f.wsRead p f.buf f.rxBytes
          exact (congrArg _ h).trans (settle_addRx _ F _ d)
      | none, [] => rfl
      | none, F :: rest =>
          exact (congrArg _ (startRead_addRx F f d)).trans (settle_addRx _ F _ d)

theorem run_addRx (t : ReadTask) (evs : List TaskEvent) (d : Nat) :
    (t.addRx d).run evs = (t.run evs).addRx d := by
  induction evs generalizing t with
  | nil => rfl
  | cons ev evs ih =>
      rw [run, List.foldl_cons, step_addRx, ← run, ih]
      rfl

end ReadTask

/-! ## What later reads see -/

/-- Whatever is read from here on, with whatever still arrives, the results
are the same. -/
def SameReads (fromFp : UInt8 → Option Action) (f g : WasmFramed) : Prop :=
  ∀ (calls : List ReadCall) (evs : List TaskEvent),
    ((ReadTask.onFramed f (calls.map (·.reader fromFp))).run evs).results =
      ((ReadTask.onFramed g (calls.map (·.reader fromFp))).run evs).results

theorem sameReads_of_buf_eq (fromFp : UInt8 → Option Action) {f g : WasmFramed}
    (hws : f.wsRead = g.wsRead) (hbuf : f.buf = g.buf) : SameReads fromFp f g := by
  intro calls evs
  -- both runs are the run without statistics
  have hrun : ∀ h : WasmFramed, ∀ readers,
      ((ReadTask.onFramed h readers).run evs).results =
        ((ReadTask.onFramed ⟨h.wsRead, h.buf, 0⟩ readers).run evs).results := by
    intro h readers
    have heq : ReadTask.onFramed h readers =
        (ReadTask.onFramed ⟨h.wsRead, h.buf, 0⟩ readers).addRx h.rxBytes := by
      simp only [ReadTask.onFramed, ReadTask.addRx, WasmFramed.addRx, Nat.zero_add]
    rw [heq, ReadTask.run_addRx]
    rfl
  rw [hrun f, hrun g, hws, hbuf]

/-- Two byte strings differ within what some bytes more make of both. -/
theorem exists_take_ne {u v : List UInt8} (h : u ≠ v) :
    ∃ (more : List UInt8) (k : Nat), k ≤ (u ++ more).length ∧
      k ≤ (v ++ more).length ∧ (u ++ more).take k ≠ (v ++ more).take k := by
  wlog hle : u.length ≤ v.length generalizing u v
  · obtain ⟨more, k, hv, hu, hne⟩ := this h.symm (by omega)
    exact ⟨more, k, hu, hv, hne.symm⟩
  -- pad `u` to the length of `v`, with a byte that does not make it `v`
  obtain ⟨b, hb⟩ : ∃ b, u ++ List.replicate (v.length - u.length) b ≠ v := by
    by_cases h0 : u ++ List.replicate (v.length - u.length) 0 = v
    · refine ⟨1, fun h1 => ?_⟩
      have hrep := List.append_cancel_left (h0.trans h1.symm)
      rcases List.replicate_inj.mp hrep with ⟨-, hzero | hone⟩
      · rw [hzero, List.replicate_zero, List.append_nil] at h0
        exact h h0
      · exact absurd hone (by decide)
    · exact ⟨0, h0⟩
  refine ⟨List.replicate (v.length - u.length) b, v.length, ?_, ?_, ?_⟩
  · rw [List.length_append, List.length_replicate]
    omega
  · rw [List.length_append]
    omega
  · rw [List.take_of_length_le (by
      rw [List.length_append, List.length_replicate]; omega), List.take_left]
    exact hb

/-- `read_exact`, once enough bytes are there. -/
theorem results_readExact {f : WasmFramed} {more : List UInt8} {k : Nat}
    (hws : ∀ m ∈ f.wsRead, m.Plain)
    (hk : k ≤ (f.buf ++ bytesOf f.wsRead ++ more).length) :
    ((ReadTask.onFramed f [readExact k]).run
        [.arrive (.bytes more), .poll]).results =
      [.ok (none, (f.buf ++ bytesOf f.wsRead ++ more).take k)] := by
  let f' : WasmFramed := { f with wsRead := f.wsRead ++ [.bytes more] }
  have hws' : ∀ m ∈ f'.wsRead, m.Plain := by
    intro m hm
    rcases List.mem_append.mp hm with hm | hm
    · exact hws m hm
    · rw [List.mem_singleton.mp hm]
      trivial
  have hbytes : f'.buf ++ bytesOf f'.wsRead =
      f.buf ++ bytesOf f.wsRead ++ more := by
    rw [bytesOf_append, ← List.append_assoc]
    exact congrArg _ (List.append_nil more)
  have hlawful : (readExact k).Lawful := lawful_readExact k
  have hpolled := polled_startRead hlawful hws' rfl
  rw [hbytes] at hpolled
  change (ReadTask.settle _ (readExact k) (startRead (readExact k) f')).results = _
  have hresume : ∀ buf, k ≤ buf.length →
      (readExact k).resume (readExact k).start buf = .done k none :=
    fun buf hbuf => if_neg (by omega)
  cases hout : startRead (readExact k) f' with
  | pending p g =>
      rw [hout] at hpolled
      obtain ⟨-, hbuf, -, hwait⟩ := hpolled
      rw [hresume g.buf (by rw [hbuf]; exact hk)] at hwait
      cases hwait
  | ready r g =>
      rw [hout] at hpolled
      have hdone : Framing.frames [readExact k] _ = _ :=
        frames_of_done hlawful (hresume _ hk) []
      have hframes := hpolled.2.2.2 (shown_of_isSome fun _ => rfl) [] []
      rw [seen_some, seen_some] at hframes
      exact congrArg (· :: []) (List.cons.inj (hdone.symm.trans hframes)).1.symm

/-- Later reads see every byte of the buffer. -/
theorem SameReads.bytes_eq {fromFp : UInt8 → Option Action} {f g : WasmFramed}
    (h : SameReads fromFp f g) (hf : ∀ m ∈ f.wsRead, m.Plain)
    (hg : ∀ m ∈ g.wsRead, m.Plain) :
    f.buf ++ bytesOf f.wsRead = g.buf ++ bytesOf g.wsRead := by
  by_contra hne
  obtain ⟨more, k, hkf, hkg, htake⟩ := exists_take_ne hne
  have hres := h [.exact k] [.arrive (.bytes more), .poll]
  have hf' := results_readExact hf hkf
  have hg' := results_readExact hg hkg
  refine htake ?_
  have := hf'.symm.trans (hres.trans hg')
  injection this with h1
  injection h1 with h2
  exact (Prod.mk.inj h2).2

/-! ## Two runs -/

def Poll.framed {P : Type} : Poll P → WasmFramed
  | .pending _ f | .ready _ f => f

theorem fillBuf_wsRead (F : FrameReader) : ∀ (ws : List WsMessage) (p : F.Point)
    (buf : List UInt8) (rxBytes : Nat),
    (fillBuf F p ws buf rxBytes).framed.wsRead ⊆ ws
  | [], _, _, _ => List.Subset.refl _
  | .text _ :: ws, p, buf, rxBytes =>
      List.subset_cons_of_subset _ (fillBuf_wsRead F ws p buf rxBytes)
  | .error _ :: ws, _, _, _ => List.subset_cons_self _ ws
  | .closed :: ws, _, _, _ => List.subset_cons_self _ ws
  | .bytes data :: ws, p, buf, rxBytes => by
      rw [fillBuf]
      split
      · exact List.subset_cons_of_subset _ (fillBuf_wsRead F ws _ _ _)
      · exact List.subset_cons_self _ ws
      · exact List.subset_cons_self _ ws

theorem startRead_wsRead (F : FrameReader) (f : WasmFramed) :
    (startRead F f).framed.wsRead ⊆ f.wsRead := by
  unfold startRead
  split
  · exact fillBuf_wsRead F _ _ _ _
  · exact List.Subset.refl _
  · exact List.Subset.refl _

namespace ReadTask

theorem settle_framed (t : ReadTask) (F : FrameReader) (out : Poll F.Point) :
    (t.settle F out).framed = out.framed := by
  cases out <;> rfl

/-- What waits in the socket has arrived. -/
theorem mem_wsRead_run {t : ReadTask} {evs : List TaskEvent} {m : WsMessage}
    (h : m ∈ (t.run evs).framed.wsRead) :
    m ∈ t.framed.wsRead ∨ .arrive m ∈ evs := by
  induction evs generalizing t with
  | nil => exact .inl h
  | cons ev evs ih =>
      rw [run, List.foldl_cons, ← run] at h
      rcases ih h with h | h
      · cases ev with
        | arrive m' =>
            rcases List.mem_append.mp h with h | h
            · exact .inl h
            · exact .inr (List.mem_singleton.mp h ▸ List.mem_cons_self ..)
        | drop => exact .inl h
        | poll =>
            rw [step] at h
            split at h
            · rw [settle_framed] at h
              exact .inl (fillBuf_wsRead _ _ _ _ _ h)
            · split at h
              · exact .inl h
              · rw [settle_framed] at h
                exact .inl (startRead_wsRead _ _ h)
      · exact .inr (List.mem_cons_of_mem _ h)

end ReadTask

/-- A connection up to the upgrade: the read of the ConnectionConfirm, with
all that arrived meanwhile, and the binary messages that the relay still
sends before it answers. -/
structure ClearRun (hint : PduHint) (confirm : List UInt8) where
  evs : List TaskEvent
  late : List WsMessage
  binary : ∀ m, .arrive m ∈ evs → m.Binary
  late_binary : ∀ m ∈ late, m.Binary
  confirmed : ((ReadTask.start [readByHint hint]).run evs).results =
    [.ok (none, confirm)]

namespace ClearRun

variable {hint : PduHint} {confirm : List UInt8}

/-- The bytes received in the clear. -/
def clear (r : ClearRun hint confirm) : List UInt8 :=
  arrivedBytes r.evs ++ bytesOf r.late

/-- The reader when the ConnectionConfirm is there. -/
def framed (r : ClearRun hint confirm) : WasmFramed :=
  ((ReadTask.start [readByHint hint]).run r.evs).framed

/-- The reader as `perform_tls_upgrade` finds it; `post` follows the
answer. -/
def upgrading (r : ClearRun hint confirm) (ready : String)
    (post : List WsMessage) : WasmFramed :=
  { r.framed with wsRead := (r.framed.wsRead ++ r.late) ++ .text ready :: post }

/-- The clear bytes are the ConnectionConfirm and what was not read yet. -/
theorem clear_eq (r : ClearRun hint confirm) (hh : hint.Lawful) : r.clear =
    confirm ++ (r.framed.buf ++ bytesOf (r.framed.wsRead ++ r.late)) := by
  have hlawful : ∀ F ∈ [readByHint hint], F.LawfulUpTo ReadError.told := fun F hF =>
    List.mem_singleton.mp hF ▸ told_readByHint hh
  have hinv := (ReadTask.Inv.start hlawful).run fun m hm => (r.binary m hm).plain
  have hbytes := hinv.bytes
  rw [r.confirmed, List.nil_append, List.flatMap_singleton, payload] at hbytes
  rw [clear, hbytes, bytesOf_append, framed]
  simp only [List.append_assoc]

/-- The upgrade, and what it leaves in the buffer. -/
theorem upgraded (r : ClearRun hint confirm) (hh : hint.Lawful) {ready : String}
    {certDer : List UInt8} (hready : readTlsReady ready = some (.ok certDer))
    (post : List WsMessage) :
    ∃ f, performTlsUpgrade (.ok ()) (r.upgrading ready post) =
        .ready (.ok certDer) f ∧
      f.wsRead = post ∧ r.clear = confirm ++ f.buf := by
  have hbinary : ∀ m ∈ r.framed.wsRead ++ r.late, m.Binary := by
    intro m hm
    rcases List.mem_append.mp hm with hm | hm
    · rcases ReadTask.mem_wsRead_run hm with hm | hm
      · cases hm
      · exact r.binary m hm
    · exact r.late_binary m hm
  exact ⟨_, performTlsUpgrade_ok rfl hbinary hready, rfl, r.clear_eq hh⟩

/-- Two connections with the same ConnectionConfirm and the same traffic
from the upgrade on: both upgrade, and the later reads agree exactly when
the bytes received in the clear do. -/
theorem sameReads_iff_clear (fromFp : UInt8 → Option Action) (hh : hint.Lawful)
    (r r' : ClearRun hint confirm) {ready : String} {certDer : List UInt8}
    (hready : readTlsReady ready = some (.ok certDer)) {post : List WsMessage}
    (hpost : ∀ m ∈ post, m.Plain) :
    ∃ f f', performTlsUpgrade (.ok ()) (r.upgrading ready post) =
        .ready (.ok certDer) f ∧
      performTlsUpgrade (.ok ()) (r'.upgrading ready post) =
        .ready (.ok certDer) f' ∧
      (SameReads fromFp f f' ↔ r.clear = r'.clear) := by
  obtain ⟨f, hf, hws, hclear⟩ := r.upgraded hh hready post
  obtain ⟨f', hf', hws', hclear'⟩ := r'.upgraded hh hready post
  refine ⟨f, f', hf, hf', ?_⟩
  rw [hclear, hclear', List.append_cancel_left_eq]
  constructor
  · intro hsame
    have h := hsame.bytes_eq (hws ▸ hpost) (hws' ▸ hpost)
    rw [hws, hws'] at h
    exact List.append_cancel_right h
  · exact sameReads_of_buf_eq fromFp (hws.trans hws'.symm)

theorem tpkt_confirmed : ((ReadTask.start [readByHint ReadTask.tpktHint]).run
    [.arrive (.bytes [3, 0, 0, 5, 7]), .poll]).results =
      [.ok (none, [3, 0, 0, 5, 7])] := by
  decide +kernel

/-- A ConnectionConfirm, and `late` after it. -/
def tpkt (late : List UInt8) : ClearRun ReadTask.tpktHint [3, 0, 0, 5, 7] where
  evs := [.arrive (.bytes [3, 0, 0, 5, 7]), .poll]
  late := [.bytes late]
  binary m hm := by
    obtain rfl : m = .bytes [3, 0, 0, 5, 7] := by simpa using hm
    trivial
  late_binary _ hm := List.mem_singleton.mp hm ▸ trivial
  confirmed := tpkt_confirmed

/-- An empty TSRequest in the clear, against none. -/
theorem sameReads_iff_clear_example : ∃ f f',
    performTlsUpgrade (.ok ()) ((tpkt [0x30, 0]).upgrading (tlsReady [0xAB]) []) =
        .ready (.ok [0xAB]) f ∧
      performTlsUpgrade (.ok ()) ((tpkt []).upgrading (tlsReady [0xAB]) []) =
        .ready (.ok [0xAB]) f' ∧
      (SameReads (fun _ => none) f f' ↔
        (tpkt [0x30, 0]).clear = (tpkt []).clear) :=
  sameReads_iff_clear _ ReadTask.steady_tpktHint.toLawful _ _ (readTlsReady_tlsReady [0xAB])
    (fun _ hm => nomatch hm)

/-- Bytes sent in the clear are read as if they came over TLS: an empty
TSRequest before the answer is the answer that `read_credssp_response`
returns after it. -/
theorem not_always_sameReads : ¬ ∀ (fromFp : UInt8 → Option Action)
    (hint : PduHint) (confirm certDer : List UInt8) (ready : String)
    (post : List WsMessage) (r r' : ClearRun hint confirm) (f f' : WasmFramed),
    hint.Lawful → (∀ m ∈ post, m.Plain) →
    performTlsUpgrade (.ok ()) (r.upgrading ready post) =
      .ready (.ok certDer) f →
    performTlsUpgrade (.ok ()) (r'.upgrading ready post) =
      .ready (.ok certDer) f' →
    SameReads fromFp f f' := by
  intro h
  have hready := readTlsReady_tlsReady [0xAB]
  have hsame := h (fun _ => none) ReadTask.tpktHint _ _ _ [] (tpkt [0x30, 0]) (tpkt [])
    _ _ ReadTask.steady_tpktHint.toLawful nofun
    (performTlsUpgrade_ok rfl (fun _ hm => List.mem_singleton.mp hm ▸ trivial) hready)
    (performTlsUpgrade_ok rfl (fun _ hm => List.mem_singleton.mp hm ▸ trivial) hready)
  exact absurd (congrArg List.length (hsame [.credssp] [.poll])) (by decide +kernel)

end ClearRun

end WasmRdp
