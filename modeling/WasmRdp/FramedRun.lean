import WasmRdp.Framed

/-!
# Reading in pieces and with cancellations

A `ReadTask` calls reads one after another while messages arrive. The read
that is pending may be dropped and called again at any time, as the
`select!` of `run_session` does whenever an input event wins.

Neither the cuts between messages nor the drops can be seen in the frames that
the reads return, and no byte is lost between them
(`reads_depend_on_bytes_only`). The invariant `Inv` says that the results so far,
followed by what the remaining calls would find in the bytes at hand, are the
frames of all bytes that arrived; and that a pending read waits where a fresh
one would. It is carried by one lemma for each event, of which `Inv.poll` rests
on what a single poll of a lawful read comes to (`Polled`).

Failures can tell of the cuts in two ways (`not_always_sameResults`). A hint that
finds the size zero fails with a dump of what is buffered, which depends on how
much has arrived; and a hint may reject a buffer and find a size in a longer one.
So a failure counts as far as a view shows it: `ReadError.told` shows all but
the dump, and what a hint says itself not at all, where nothing is assumed of
it; for hints that are steady `ReadError.undumped` is enough.
-/

namespace WasmRdp

open Framing

/-- A call of one of the four reads. -/
inductive ReadCall where
  | pdu
  | exact (n : Nat)
  | byHint (hint : PduHint)
  | credssp

def ReadCall.reader (fromFpOutputHeader : UInt8 → Option Action) :
    ReadCall → FrameReader
  | .pdu => readPdu fromFpOutputHeader
  | .exact n => readExact n
  | .byHint hint => readByHint hint
  | .credssp => readCredsspResponse

section

variable {fromFp : UInt8 → Option Action} {calls : List ReadCall}

theorem ReadCall.lawful {η : Type} {view : ReadError → Option η}
    (hh : ∀ hint, .byHint hint ∈ calls → (readByHint hint).LawfulUpTo view) :
    ∀ F ∈ calls.map (ReadCall.reader fromFp), F.LawfulUpTo view := by
  intro F hF
  obtain ⟨call, hmem, rfl⟩ := List.mem_map.mp hF
  cases call with
  | pdu => exact lawful_readPdu fromFp
  | exact n => exact lawful_readExact n
  | byHint hint => exact hh hint hmem
  | credssp => exact lawful_readCredsspResponse

/-- The hints among the calls keep their word. -/
theorem ReadCall.told (hh : ∀ hint, .byHint hint ∈ calls → hint.Lawful) :
    ∀ F ∈ calls.map (ReadCall.reader fromFp), F.LawfulUpTo ReadError.told :=
  lawful fun hint hmem => told_readByHint (hh hint hmem)

theorem ReadCall.undumped (hh : ∀ hint, .byHint hint ∈ calls → hint.Steady) :
    ∀ F ∈ calls.map (ReadCall.reader fromFp), F.LawfulUpTo fun e => some e.undumped :=
  lawful fun hint hmem => undumped_readByHint (hh hint hmem)

end

/-- The calls still to return, the first one pending at an await point if
it was polled and not dropped since, and the results so far. -/
structure ReadTask where
  framed : WasmFramed
  calls : List FrameReader
  pending : Option ((F : FrameReader) × F.Point)
  results : List ReadResult

inductive TaskEvent where
  | arrive (m : WsMessage)
  | poll
  | drop

namespace ReadTask

/-- The calls, on a reader as it stands. -/
def onFramed (framed : WasmFramed) (calls : List FrameReader) : ReadTask :=
  { framed, calls, pending := none, results := [] }

def start (calls : List FrameReader) : ReadTask := onFramed ⟨[], [], 0⟩ calls

def settle (t : ReadTask) (F : FrameReader) : Poll F.Point → ReadTask
  | .pending p framed => { t with framed, pending := some ⟨F, p⟩ }
  | .ready r framed =>
      { t with framed, calls := t.calls.tail, pending := none,
               results := t.results ++ [r] }

def step (t : ReadTask) : TaskEvent → ReadTask
  | .arrive m =>
      { t with framed := { t.framed with wsRead := t.framed.wsRead ++ [m] } }
  | .drop => { t with pending := none }
  | .poll =>
      match t.pending with
      | some ⟨F, p⟩ =>
          t.settle F (fillBuf F p t.framed.wsRead t.framed.buf t.framed.rxBytes)
      | none =>
          match t.calls with
          | [] => t
          | F :: _ => t.settle F (startRead F t.framed)

def run (t : ReadTask) (evs : List TaskEvent) : ReadTask := evs.foldl step t

/-- There is no call left, or every message was taken and the task waits for
more. -/
def Waiting (t : ReadTask) : Prop :=
  t.calls = [] ∨ (t.framed.wsRead = [] ∧ t.pending.isSome = true)

end ReadTask

/-- A binary or text message. -/
def WsMessage.Plain : WsMessage → Prop
  | .bytes _ | .text _ => True
  | _ => False

/-- The bytes of the binary messages. -/
def bytesOf (ws : List WsMessage) : List UInt8 :=
  ws.flatMap fun
    | .bytes data => data
    | _ => []

/-- The bytes that arrive during a run. -/
def arrivedBytes (evs : List TaskEvent) : List UInt8 :=
  evs.flatMap fun
    | .arrive (.bytes data) => data
    | _ => []

theorem bytesOf_append (ws ws' : List WsMessage) :
    bytesOf (ws ++ ws') = bytesOf ws ++ bytesOf ws' := List.flatMap_append ..

/-! ## One poll -/

/-- What polling a read does when `s` are the bytes at hand and `n` counts
all bytes that arrived: it takes every message and waits, or returns the
first outcome of `s`, as far as the view shows it, and leaves the rest. -/
def Polled {η : Type} (view : ReadError → Option η) (F : FrameReader) (s : List UInt8) (n : Nat) :
    Poll F.Point → Prop
  | .pending p f => f.wsRead = [] ∧ f.buf = s ∧ f.rxBytes = n ∧
      F.resume F.start f.buf = .wait p
  | .ready r f => s = payload r ++ (f.buf ++ bytesOf f.wsRead) ∧
      (∀ m ∈ f.wsRead, m.Plain) ∧ f.rxBytes + (bytesOf f.wsRead).length = n ∧
      (shown view [r] → ∀ Fs more, seen view (frames (F :: Fs) (s ++ more)) =
        seen view (r :: frames Fs (f.buf ++ bytesOf f.wsRead ++ more)))

section

variable {η : Type} {view : ReadError → Option η} {F : FrameReader}

/-- A frame found in the buffer. -/
theorem polled_done (hF : F.LawfulUpTo view) {ws : List WsMessage} {buf : List UInt8}
    {rxBytes n k : Nat} {a : Option Action} (hws : ∀ m ∈ ws, m.Plain)
    (hn : rxBytes + (bytesOf ws).length = n)
    (h : F.resume F.start buf = .done k a) :
    Polled view F (buf ++ bytesOf ws) n
      (.ready (.ok (a, buf.take k)) ⟨ws, buf.drop k, rxBytes⟩) := by
  refine ⟨?_, hws, hn, fun _ Fs more => ?_⟩
  · rw [payload, ← List.append_assoc, List.take_append_drop]
  · rw [List.append_assoc, frames_of_done hF h, List.append_assoc]

theorem polled_fail (hF : F.LawfulUpTo view) {ws : List WsMessage} {buf : List UInt8}
    {rxBytes n : Nat} {e : ReadError} (hws : ∀ m ∈ ws, m.Plain)
    (hn : rxBytes + (bytesOf ws).length = n)
    (h : F.resume F.start buf = .fail e) :
    Polled view F (buf ++ bytesOf ws) n (.ready (.error e) ⟨ws, buf, rxBytes⟩) := by
  refine ⟨rfl, hws, hn, fun hshown Fs more => ?_⟩
  rw [shown, List.all_cons, List.all_nil, Bool.and_true] at hshown
  obtain ⟨x, hx⟩ := Option.isSome_iff_exists.mp hshown
  rw [List.append_assoc, seen_frames_of_fail hF h hx, seen, hx]

/-- A read that goes on from where it waits. -/
theorem polled_fillBuf (hF : F.LawfulUpTo view) : ∀ (ws : List WsMessage) (p : F.Point)
    (buf : List UInt8) (rxBytes n : Nat), (∀ m ∈ ws, m.Plain) →
    rxBytes + (bytesOf ws).length = n → F.resume F.start buf = .wait p →
    Polled view F (buf ++ bytesOf ws) n (fillBuf F p ws buf rxBytes)
  | [], p, buf, rxBytes, n, _, hn, hp => by
      rw [fillBuf]
      exact ⟨rfl, (List.append_nil buf).symm, hn, hp⟩
  | .text t :: ws, p, buf, rxBytes, n, hws, hn, hp => by
      rw [fillBuf]
      exact polled_fillBuf hF ws p buf rxBytes n
        (fun m hm => hws m (List.mem_cons_of_mem _ hm)) hn hp
  | .error e :: ws, p, buf, rxBytes, n, hws, _, _ =>
      (hws _ (List.mem_cons_self ..)).elim
  | .closed :: ws, p, buf, rxBytes, n, hws, _, _ =>
      (hws _ (List.mem_cons_self ..)).elim
  | .bytes data :: ws, p, buf, rxBytes, n, hws, hn, hp => by
      have hws' : ∀ m ∈ ws, m.Plain := fun m hm =>
        hws m (List.mem_cons_of_mem _ hm)
      have hbytes : bytesOf (.bytes data :: ws) = data ++ bytesOf ws := rfl
      have hn' : rxBytes + data.length + (bytesOf ws).length = n := by
        rw [← hn, hbytes, List.length_append, Nat.add_assoc]
      -- resuming at `p` is starting again
      have hresume := hF.wait hp data
      rw [fillBuf, hbytes, ← List.append_assoc]
      split
      · rename_i p' hp'
        exact polled_fillBuf hF ws p' _ _ n hws' hn' (hresume.symm.trans hp')
      · rename_i k a hdone
        exact polled_done hF hws' hn' (hresume.symm.trans hdone)
      · rename_i e hfail
        exact polled_fail hF hws' hn' (hresume.symm.trans hfail)

/-- A fresh read. -/
theorem polled_startRead (hF : F.LawfulUpTo view) {f : WasmFramed} {n : Nat}
    (hws : ∀ m ∈ f.wsRead, m.Plain)
    (hn : f.rxBytes + (bytesOf f.wsRead).length = n) :
    Polled view F (f.buf ++ bytesOf f.wsRead) n (startRead F f) := by
  unfold startRead
  split
  · exact polled_fillBuf hF _ _ _ _ n hws hn ‹_›
  · exact polled_done hF hws hn ‹_›
  · exact polled_fail hF hws hn ‹_›

end

/-! ## Runs -/

namespace ReadTask

/-- The task after the bytes `s` arrived for `calls`. While the view shows all
results, these and what is at hand are the frames; and what it shows of them
always is of the frames. -/
structure Inv {η : Type} (view : ReadError → Option η) (calls : List FrameReader) (s : List UInt8)
    (t : ReadTask) : Prop where
  lawful : ∀ F ∈ t.calls, F.LawfulUpTo view
  plain : ∀ m ∈ t.framed.wsRead, m.Plain
  pending : ∀ F p, t.pending = some ⟨F, p⟩ →
    t.calls.head? = some F ∧ F.resume F.start t.framed.buf = .wait p
  bytes : s = t.results.flatMap payload ++
    (t.framed.buf ++ bytesOf t.framed.wsRead)
  rxBytes : t.framed.rxBytes + (bytesOf t.framed.wsRead).length = s.length
  frames : shown view t.results → ∀ more, seen view (t.results ++
    frames t.calls (t.framed.buf ++ bytesOf t.framed.wsRead ++ more)) =
      seen view (frames calls (s ++ more))
  seen : ∀ more, seen view t.results <+: seen view (Framing.frames calls (s ++ more))

variable {η : Type} {view : ReadError → Option η} {calls : List FrameReader} {s : List UInt8}
  {t : ReadTask}

theorem Inv.start (hcalls : ∀ F ∈ calls, F.LawfulUpTo view) :
    Inv view calls [] (start calls) :=
  ⟨hcalls, fun _ hm => (nomatch hm), fun _ _ h => (nomatch h), rfl, rfl,
    fun _ _ => rfl, fun _ => List.nil_prefix⟩

theorem Inv.arrive (hi : Inv view calls s t) {m : WsMessage} (hm : m.Plain) :
    Inv view calls (s ++ bytesOf [m]) (t.step (.arrive m)) := by
  refine ⟨hi.lawful, fun m' hm' => ?_, hi.pending, ?_, ?_, fun hshown more => ?_, fun more => ?_⟩
  · rcases List.mem_append.mp hm' with hm' | hm'
    · exact hi.plain m' hm'
    · rwa [List.mem_singleton.mp hm']
  · rw [hi.bytes]
    simp only [ReadTask.step, bytesOf_append, List.append_assoc]
  · simp only [ReadTask.step, bytesOf_append, List.length_append, ← hi.rxBytes,
      Nat.add_assoc]
  · have h := hi.frames hshown (bytesOf [m] ++ more)
    simpa only [ReadTask.step, bytesOf_append, List.append_assoc] using h
  · rw [List.append_assoc]
    exact hi.seen _

/-- A poll of the first call. -/
theorem Inv.settle (hi : Inv view calls s t) {F : FrameReader} {rest : List FrameReader}
    (hcalls : t.calls = F :: rest) {out : Poll F.Point}
    (hout : Polled view F (t.framed.buf ++ bytesOf t.framed.wsRead) s.length out) :
    Inv view calls s (t.settle F out) := by
  cases out with
  | pending p f =>
      obtain ⟨hws, hbuf, hrx, hp⟩ := hout
      have hnil : bytesOf f.wsRead = [] := by rw [hws]; rfl
      refine ⟨hi.lawful, fun m hm => ?_, fun G q h => ?_, ?_, ?_, fun hshown more => ?_, hi.seen⟩
      · rw [ReadTask.settle, hws] at hm
        cases hm
      · cases h
        exact ⟨by rw [ReadTask.settle, hcalls]; rfl, hp⟩
      · rw [ReadTask.settle, hnil, List.append_nil, hbuf]
        exact hi.bytes
      · rw [ReadTask.settle, hnil, hrx]
        rfl
      · rw [ReadTask.settle, hnil, List.append_nil, hbuf]
        exact hi.frames hshown more
  | ready r f =>
      obtain ⟨hs, hplain, hrx, hframes⟩ := hout
      have hlawful : ∀ G ∈ t.calls.tail, G.LawfulUpTo view := fun G hG =>
        hi.lawful G (List.mem_of_mem_tail hG)
      -- a result that is shown, after others that are
      have hnext : shown view (t.results ++ [r]) → ∀ more,
          Framing.seen view (t.results ++ [r] ++
            Framing.frames rest (f.buf ++ bytesOf f.wsRead ++ more)) =
              Framing.seen view (Framing.frames calls (s ++ more)) := by
        intro hshown more
        rw [shown_append, Bool.and_eq_true] at hshown
        obtain ⟨hbefore, hr⟩ := hshown
        rw [List.append_assoc, List.singleton_append, seen_append_of_shown hbefore,
          ← hframes hr rest more, ← seen_append_of_shown hbefore, ← hcalls]
        exact hi.frames hbefore more
      refine ⟨hlawful, hplain, fun G q h => (nomatch h), ?_, hrx, fun hshown more => ?_,
        fun more => ?_⟩
      · rw [ReadTask.settle, List.flatMap_append, List.flatMap_singleton,
          List.append_assoc, ← hs]
        exact hi.bytes
      · rw [ReadTask.settle, hcalls, List.tail_cons]
        exact hnext hshown more
      · rw [ReadTask.settle]
        by_cases hshown : shown view (t.results ++ [r])
        · rw [← hnext hshown more]
          exact seen_prefix_append
        · rw [seen_concat_of_not_shown hshown]
          exact hi.seen more

theorem Inv.poll (hi : Inv view calls s t) : Inv view calls s (t.step .poll) := by
  rw [ReadTask.step]
  split
  · rename_i F p hpend
    obtain ⟨hhead, hp⟩ := hi.pending F p hpend
    obtain ⟨rest, hcalls⟩ : ∃ rest, t.calls = F :: rest := by
      cases hc : t.calls with
      | nil => rw [hc] at hhead; cases hhead
      | cons G rest =>
          rw [hc] at hhead
          cases hhead
          exact ⟨rest, rfl⟩
    have hF : F.LawfulUpTo view := hi.lawful F (by rw [hcalls]; exact List.mem_cons_self ..)
    exact hi.settle hcalls (polled_fillBuf hF _ _ _ _ _ hi.plain hi.rxBytes hp)
  · split
    · exact hi
    · rename_i F rest hcalls
      have hF : F.LawfulUpTo view := hi.lawful F (by rw [hcalls]; exact List.mem_cons_self ..)
      exact hi.settle hcalls (polled_startRead hF hi.plain hi.rxBytes)

/-- The bytes at hand and the results after any run. -/
theorem Inv.run {evs : List TaskEvent} (hi : Inv view calls s t)
    (hplain : ∀ m, .arrive m ∈ evs → m.Plain) :
    Inv view calls (s ++ arrivedBytes evs) (t.run evs) := by
  induction evs generalizing s t with
  | nil =>
      rw [arrivedBytes, List.flatMap_nil, List.append_nil]
      exact hi
  | cons ev evs ih =>
      have hrest : ∀ m, .arrive m ∈ evs → m.Plain := fun m hm =>
        hplain m (List.mem_cons_of_mem _ hm)
      rw [ReadTask.run, List.foldl_cons, ← ReadTask.run]
      cases ev with
      | poll => exact ih hi.poll hrest
      | drop =>
          exact ih ⟨hi.lawful, hi.plain, fun F p h => (nomatch h), hi.bytes,
            hi.rxBytes, hi.frames, hi.seen⟩ hrest
      | arrive m =>
          have hm := hplain m (List.mem_cons_self ..)
          have h := ih (hi.arrive hm) hrest
          rw [List.append_assoc] at h
          cases m with
          | bytes data =>
              rw [bytesOf, List.flatMap_singleton] at h
              exact h
          | text text => exact h
          | error e => cases hm
          | closed => cases hm

/-- A task that waits with nothing at hand has found all there is. -/
theorem Inv.seen_of_waiting (hi : Inv view calls s t) (hw : t.Waiting)
    (hshown : shown view t.results) :
    Framing.seen view t.results = Framing.seen view (Framing.frames calls s) := by
  have hnone : Framing.frames t.calls (t.framed.buf ++ bytesOf t.framed.wsRead) = [] := by
    obtain hnil | ⟨hws, hsome⟩ := hw
    · rw [hnil]
      rfl
    · obtain ⟨⟨F, p⟩, hpend⟩ := Option.isSome_iff_exists.mp hsome
      obtain ⟨hhead, hp⟩ := hi.pending F p hpend
      rw [hws, bytesOf, List.flatMap_nil, List.append_nil]
      cases hc : t.calls with
      | nil => rfl
      | cons G rest =>
          rw [hc] at hhead
          cases hhead
          exact frames_of_wait hp
  have hall := hi.frames hshown []
  rw [List.append_nil, List.append_nil, hnone, List.append_nil] at hall
  exact hall

/-- PDU framing is independent of chunking and cancellation. Whatever the
cuts and the drops, the bytes that arrived are the payloads returned so
far, then the buffer, then what was not yet taken from the socket. What the
results tell of them is a prefix of what their frames tell; and as long as no
hint has failed, it is all of it once the task waits with every message taken. -/
theorem reads_depend_on_bytes_only (fromFp : UInt8 → Option Action)
    {calls : List ReadCall} (hh : ∀ hint, .byHint hint ∈ calls → hint.Lawful)
    {evs : List TaskEvent} (hplain : ∀ m, .arrive m ∈ evs → m.Plain) :
    let readers := calls.map (ReadCall.reader fromFp)
    let t := (start readers).run evs
    let told := Framing.seen ReadError.told
    arrivedBytes evs = t.results.flatMap payload ++
        (t.framed.buf ++ bytesOf t.framed.wsRead) ∧
      t.framed.rxBytes + (bytesOf t.framed.wsRead).length =
        (arrivedBytes evs).length ∧
      told t.results <+: told (Framing.frames readers (arrivedBytes evs)) ∧
      (shown ReadError.told t.results →
        told (t.results ++ Framing.frames t.calls
          (t.framed.buf ++ bytesOf t.framed.wsRead)) =
            told (Framing.frames readers (arrivedBytes evs)) ∧
        (t.Waiting → told t.results = told (Framing.frames readers (arrivedBytes evs)))) := by
  intro readers t told
  have hi : Inv ReadError.told readers (arrivedBytes evs) t :=
    (Inv.start (ReadCall.told hh)).run hplain
  have hseen := hi.seen []
  rw [List.append_nil] at hseen
  refine ⟨hi.bytes, hi.rxBytes, hseen, fun hshown => ⟨?_, fun hw => hi.seen_of_waiting hw hshown⟩⟩
  have hframes := hi.frames hshown []
  rw [List.append_nil, List.append_nil] at hframes
  exact hframes

/-- A hint for TPKT packets. -/
def tpktHint : PduHint where
  findSize buf :=
    if buf.length < 4 then .ok none
    else .ok (some (true, fromBeBytes16 (buf.getD 2 0) (buf.getD 3 0)))

theorem steady_tpktHint : tpktHint.Steady := by
  refine ⟨⟨fun {buf m n} h more => ?_⟩, fun {buf e} h => ?_⟩ <;>
    simp only [tpktHint] at h ⊢ <;> split at h
  · cases h
  · rename_i hlen
    rw [← h, if_neg (by rw [List.length_append]; omega),
      getD_append_left buf more (by omega), getD_append_left buf more (by omega)]
  · cases h
  · cases h

/-- A hinted read cut in two, a text message between, a fast-path PDU whose read
is dropped once, and a TPKT packet of length zero. -/
theorem reads_depend_on_bytes_only_example :
    let fromFp : UInt8 → Option Action := fun b =>
      if b = 0 then some .fastPath else none
    let readers := [readByHint tpktHint, readPdu fromFp, readByHint tpktHint]
    let evs : List TaskEvent :=
      [.arrive (.bytes [3, 0, 0]), .poll, .arrive (.text "log"),
        .arrive (.bytes [5, 7, 0]), .poll, .poll, .drop, .arrive (.bytes []),
        .arrive (.bytes [3, 9, 3, 0, 0, 0]), .poll, .poll, .arrive (.bytes [0x41])]
    let told := Framing.seen ReadError.told
    told ((start readers).run evs).results =
      told (Framing.frames readers [3, 0, 0, 5, 7, 0, 3, 9, 3, 0, 0, 0, 0x41]) := by
  intro fromFp readers evs told
  have hhint : ∀ hint, .byHint hint ∈ [ReadCall.byHint tpktHint, .pdu, .byHint tpktHint] →
      hint.Lawful := by
    intro hint hmem
    obtain rfl : hint = tpktHint := by simpa using hmem
    exact steady_tpktHint.toLawful
  have hplain : ∀ m, .arrive m ∈ evs → m.Plain := by
    intro m hm
    simp only [evs, List.mem_cons, List.not_mem_nil, TaskEvent.arrive.injEq,
      reduceCtorEq, or_false, false_or] at hm
    rcases hm with rfl | rfl | rfl | rfl | rfl | rfl <;> trivial
  have hshown : shown ReadError.told ((start readers).run evs).results := by decide +kernel
  have hreads := (reads_depend_on_bytes_only fromFp hhint hplain).2.2.2 hshown
  exact hreads.2 (.inl (List.isEmpty_iff.mp (by decide +kernel)))

/-! ## What tells of the cuts -/

/-- The results of the calls depend on the bytes only. -/
def SameResults (calls : List ReadCall) : Prop :=
  ∀ (fromFp : UInt8 → Option Action) (evs evs' : List TaskEvent),
    (∀ m, .arrive m ∈ evs → m.Plain) → (∀ m, .arrive m ∈ evs' → m.Plain) →
    arrivedBytes evs = arrivedBytes evs' →
    let t := (start (calls.map (ReadCall.reader fromFp))).run evs
    let t' := (start (calls.map (ReadCall.reader fromFp))).run evs'
    t.Waiting → t'.Waiting → t.results = t'.results

/-- The bytes in two messages, with a poll after each, against all in one. -/
theorem SameResults.cut {call : ReadCall} (h : SameResults [call])
    (fromFp : UInt8 → Option Action) (first second : List UInt8) :
    let cut : List TaskEvent :=
      [.arrive (.bytes first), .poll, .arrive (.bytes second), .poll]
    let whole : List TaskEvent := [.arrive (.bytes (first ++ second)), .poll]
    let t := (start [call.reader fromFp]).run cut
    let t' := (start [call.reader fromFp]).run whole
    t.Waiting → t'.Waiting → t.results = t'.results := by
  intro cut whole
  refine h fromFp cut whole ?_ ?_ ?_
  · intro m hm
    simp only [cut, List.mem_cons, List.not_mem_nil, TaskEvent.arrive.injEq, reduceCtorEq,
      or_false, false_or] at hm
    rcases hm with rfl | rfl <;> trivial
  · intro m hm
    simp only [whole, List.mem_cons, List.not_mem_nil, TaskEvent.arrive.injEq, reduceCtorEq,
      or_false] at hm
    subst hm
    trivial
  · simp [cut, whole, arrivedBytes]

/-- A hint that rejects a single byte, and finds frames of two. -/
def hastyHint : PduHint where
  findSize
    | [] => .ok none
    | [_] => .error "one byte"
    | _ => .ok (some (true, 2))

theorem lawful_hastyHint : hastyHint.Lawful := by
  refine ⟨fun {buf m n} h more => ?_⟩
  match buf with
  | [] => cases h
  | [_] => cases h
  | _ :: _ :: _ => exact h

/-- A zero length tells how much has arrived, though the hint is steady; and a hint
that is not may fail on less than it finds a size in. -/
theorem not_always_sameResults :
    (¬ ∀ calls, (∀ hint, .byHint hint ∈ calls → hint.Steady) → SameResults calls) ∧
      ¬ ∀ calls, (∀ hint, .byHint hint ∈ calls →
          hint.Lawful ∧ ∀ buf m, hint.findSize buf ≠ .ok (some (m, 0))) → SameResults calls := by
  constructor
  · intro h
    have hsame := h [.byHint tpktHint] fun hint hmem => by
      obtain rfl : hint = tpktHint := by simpa using hmem
      exact steady_tpktHint
    have heq := hsame.cut (fun _ => none) [3, 0, 0, 0] [0x41]
      (.inl (List.isEmpty_iff.mp (by decide +kernel)))
      (.inl (List.isEmpty_iff.mp (by decide +kernel)))
    revert heq
    decide +kernel
  · intro h
    have hsame := h [.byHint hastyHint] fun hint hmem => by
      obtain rfl : hint = hastyHint := by simpa using hmem
      refine ⟨lawful_hastyHint, fun buf m => ?_⟩
      match buf with
      | [] => exact nofun
      | [_] => exact nofun
      | _ :: _ :: _ => exact nofun
    have heq := hsame.cut (fun _ => none) [7] [8]
      (.inl (List.isEmpty_iff.mp (by decide +kernel)))
      (.inl (List.isEmpty_iff.mp (by decide +kernel)))
    revert heq
    decide +kernel

end ReadTask

end WasmRdp
