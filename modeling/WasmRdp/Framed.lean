import Mathlib.Data.List.Basic
import Mathlib.Tactic.Ring
import WasmRdp.Lib.Framing

/-!
# The framed reader

`WasmFramed` of `wasm/src/framed.rs`: the client's end of the WebSocket
with its receive buffer, and the four reads that take a frame from it. An
async read is a `Framer`: its await points are the constructors of its
`Point`, each carrying the locals that are alive there, and `fillBuf` is
`fill_buf().await?` at such a point. A dropped read loses its point and
nothing else, since every read splits the buffer only when it returns.

`fromFpOutputHeader` stands for `Action::from_fp_output_header`, and a
`PduHint` for a hint of the protocol library. A hint is `Lawful` when a size
that it finds stands for every extension of the buffer, and `Steady` when a
failure does so as well.

Each read is shown lawful in the sense of `Framing`: what it makes of a
buffer, it makes of every extension. For a read with fixed headers that is a
gate for each header, and then the body (`lawful_readPdu`,
`lawful_readCredsspResponse`); a branch is settled by the bytes that have been
waited for. A read by a hint is lawful only up to a view of its errors
(`lawful_readByHint`). The error for the size zero carries a dump of the whole
buffer, with whatever has come by then behind the header; `ReadError.undumped`
leaves the dump out, and `ReadError.told` also what a hint says itself.
-/

namespace WasmRdp

open Framing

/-! ## The stream -/

/-- What `ws_read.next()` yields; `closed` is its `None`. -/
inductive WsMessage where
  | bytes (data : List UInt8)
  | text (text : String)
  | error (e : String)
  | closed

inductive Action where
  | fastPath
  | x224
  deriving DecidableEq, Repr

/-- The errors of the reads, by kind. -/
inductive ReadError where
  /-- `WebSocket read error: {e}` -/
  | websocket (e : String)
  /-- `WebSocket closed` -/
  | closed
  /-- `WebSocket closed while waiting for text message` -/
  | closedWaitingForText
  /-- `Unknown action byte: 0x{b:02x}` -/
  | unknownAction (b : UInt8)
  /-- `Invalid PDU length: 0` -/
  | invalidLength
  /-- `PduHint returned zero-length PDU. Buffer: {hex_dump}` -/
  | zeroLengthPdu (buffer : List UInt8)
  /-- `PduHint find_size error: {e}` -/
  | findSize (e : String)
  /-- `Expected BER SEQUENCE tag (0x30), got 0x{b:02x}` -/
  | notSequence (b : UInt8)
  deriving DecidableEq, Repr

/-- An error without the dump of the buffer. -/
def ReadError.undumped : ReadError → ReadError
  | zeroLengthPdu _ => zeroLengthPdu []
  | e => e

/-- What an error tells of the stream. That of a hint tells nothing, since the hint
may find a size in a longer buffer. -/
def ReadError.told : ReadError → Option ReadError
  | findSize _ => none
  | e => some e.undumped

/-- The reader: messages not yet taken, the bytes taken and not yet
consumed, and the received bytes of `SessionStats`. -/
structure WasmFramed where
  wsRead : List WsMessage
  buf : List UInt8
  rxBytes : Nat

/-- A read returns the bytes of a frame, with the action for `read_pdu`. -/
abbrev FrameReader := Framer UInt8 (Option Action) ReadError

abbrev ReadResult := Outcome UInt8 (Option Action) ReadError

/-- A read that was polled. -/
inductive Poll (P : Type) where
  | pending (p : P) (framed : WasmFramed)
  | ready (r : ReadResult) (framed : WasmFramed)

/-- `fill_buf` at await point `p`, and the read up to where it next needs a
message that is not there. Text messages are skipped. -/
def fillBuf (F : FrameReader) : F.Point → List WsMessage → List UInt8 → Nat →
    Poll F.Point
  | p, [], buf, rxBytes => .pending p ⟨[], buf, rxBytes⟩
  | p, .text _ :: ws, buf, rxBytes => fillBuf F p ws buf rxBytes
  | _, .error e :: ws, buf, rxBytes =>
      .ready (.error (.websocket e)) ⟨ws, buf, rxBytes⟩
  | _, .closed :: ws, buf, rxBytes => .ready (.error .closed) ⟨ws, buf, rxBytes⟩
  | p, .bytes data :: ws, buf, rxBytes =>
      let buf := buf ++ data
      let rxBytes := rxBytes + data.length
      match F.resume p buf with
      | .wait p => fillBuf F p ws buf rxBytes
      | .done n a => .ready (.ok (a, buf.take n)) ⟨ws, buf.drop n, rxBytes⟩
      | .fail e => .ready (.error e) ⟨ws, buf, rxBytes⟩

/-- The first poll of a read. -/
def startRead (F : FrameReader) (f : WasmFramed) : Poll F.Point :=
  match F.resume F.start f.buf with
  | .wait p => fillBuf F p f.wsRead f.buf f.rxBytes
  | .done n a => .ready (.ok (a, f.buf.take n)) { f with buf := f.buf.drop n }
  | .fail e => .ready (.error e) f

/-! ## read_exact -/

/-- `read_exact`. -/
def readExact (n : Nat) : FrameReader where
  Point := Unit
  start := ()
  resume _ buf := if buf.length < n then .wait () else .done n none

/-! ## read_by_hint -/

/-- `ironrdp::pdu::PduHint`. -/
structure PduHint where
  findSize : List UInt8 → Except String (Option (Bool × Nat))

/-- A size found stands for every extension of the buffer. -/
structure PduHint.Lawful (hint : PduHint) : Prop where
  size : ∀ {buf m n}, hint.findSize buf = .ok (some (m, n)) → ∀ more,
    hint.findSize (buf ++ more) = .ok (some (m, n))

/-- And so does a failure. -/
structure PduHint.Steady (hint : PduHint) : Prop extends hint.Lawful where
  error : ∀ {buf e}, hint.findSize buf = .error e → ∀ more,
    hint.findSize (buf ++ more) = .error e

inductive HintPoint where
  | size
  | body (pduLength : Nat)

def resumeByHint (hint : PduHint) :
    HintPoint → List UInt8 → Step HintPoint (Option Action) ReadError
  | .size, buf =>
      match hint.findSize buf with
      | .ok (some (_, pduLength)) =>
          if pduLength = 0 then .fail (.zeroLengthPdu buf)
          else if buf.length < pduLength then .wait (.body pduLength)
          else .done pduLength none
      | .ok none => .wait .size
      | .error e => .fail (.findSize e)
  | .body pduLength, buf =>
      if buf.length < pduLength then .wait (.body pduLength)
      else .done pduLength none

/-- `read_by_hint`. -/
def readByHint (hint : PduHint) : FrameReader where
  Point := HintPoint
  start := .size
  resume := resumeByHint hint

/-! ## read_pdu -/

inductive PduPoint where
  | header
  | tpkt
  | fastPath (lenByte : UInt8)
  | body (action : Action) (pduLength : Nat)

section ReadPdu

variable (fromFpOutputHeader : UInt8 → Option Action)

/-- `u16::from_be_bytes`. -/
def fromBeBytes16 (b0 b1 : UInt8) : Nat := b0.toNat * 256 + b1.toNat

def resumeBody (action : Action) (pduLength : Nat) (buf : List UInt8) :
    Step PduPoint (Option Action) ReadError :=
  if buf.length < pduLength then .wait (.body action pduLength)
  else .done pduLength (some action)

/-- The check of the length, once it is known. -/
def checkLength (action : Action) (pduLength : Nat) (buf : List UInt8) :
    Step PduPoint (Option Action) ReadError :=
  if pduLength = 0 then .fail .invalidLength
  else resumeBody action pduLength buf

/-- The TPKT header: two bytes, then the length. -/
def resumeTpkt (buf : List UInt8) : Step PduPoint (Option Action) ReadError :=
  if buf.length < 4 then .wait .tpkt
  else checkLength .x224 (fromBeBytes16 (buf.getD 2 0) (buf.getD 3 0)) buf

/-- The long form of the fast-path length. -/
def resumeFastPath (lenByte : UInt8) (buf : List UInt8) :
    Step PduPoint (Option Action) ReadError :=
  if buf.length < 3 then .wait (.fastPath lenByte)
  else checkLength .fastPath
    (((lenByte &&& 0x7F).toNat <<< 8) ||| (buf.getD 2 0).toNat) buf

def resumeHeader (buf : List UInt8) : Step PduPoint (Option Action) ReadError :=
  if buf.length < 2 then .wait .header
  else match fromFpOutputHeader (buf.getD 0 0) with
    | none => .fail (.unknownAction (buf.getD 0 0))
    | some .x224 => resumeTpkt buf
    | some .fastPath =>
        let lenByte := buf.getD 1 0
        if lenByte &&& 0x80 ≠ 0 then resumeFastPath lenByte buf
        else checkLength .fastPath lenByte.toNat buf

/-- `read_pdu`. -/
def readPdu : FrameReader where
  Point := PduPoint
  start := .header
  resume
    | .header => resumeHeader fromFpOutputHeader
    | .tpkt => resumeTpkt
    | .fastPath lenByte => resumeFastPath lenByte
    | .body action pduLength => resumeBody action pduLength

end ReadPdu

/-! ## read_credssp_response -/

inductive TsPoint where
  | header
  | length (numLenBytes : Nat)
  | body (totalLen : Nat)

def resumeTsBody (totalLen : Nat) (buf : List UInt8) :
    Step TsPoint (Option Action) ReadError :=
  if buf.length < totalLen then .wait (.body totalLen)
  else .done totalLen none

/-- The long-form length: `len = (len << 8) | byte` over the `k` length
bytes, in the 32-bit `usize`. -/
def berLength (buf : List UInt8) (k : Nat) : Nat :=
  (List.range k).foldl
    (fun len i => ((len <<< 8) % 2 ^ 32) ||| (buf.getD (2 + i) 0).toNat) 0

def resumeTsLength (numLenBytes : Nat) (buf : List UInt8) :
    Step TsPoint (Option Action) ReadError :=
  if buf.length < 2 + numLenBytes then .wait (.length numLenBytes)
  else resumeTsBody ((2 + numLenBytes + berLength buf numLenBytes) % 2 ^ 32) buf

def resumeTsHeader (buf : List UInt8) : Step TsPoint (Option Action) ReadError :=
  if buf.length < 2 then .wait .header
  else if buf.getD 0 0 ≠ 0x30 then .fail (.notSequence (buf.getD 0 0))
  else if buf.getD 1 0 &&& 0x80 = 0 then
    resumeTsBody (2 + (buf.getD 1 0).toNat) buf
  else resumeTsLength (buf.getD 1 0 &&& 0x7F).toNat buf

/-- `read_credssp_response`. -/
def readCredsspResponse : FrameReader where
  Point := TsPoint
  start := .header
  resume
    | .header => resumeTsHeader
    | .length numLenBytes => resumeTsLength numLenBytes
    | .body totalLen => resumeTsBody totalLen

/-! ## The reads are lawful -/

theorem getD_append_left (buf more : List UInt8) {i : Nat} (h : i < buf.length) :
    (buf ++ more).getD i 0 = buf.getD i 0 := List.getD_append _ _ _ _ h

section

variable {η : Type} {view : ReadError → Option η}

theorem lawful_readExact (n : Nat) : (readExact n).LawfulUpTo view :=
  Stable.body fun _ => rfl

/-- A read by a hint, where the view does not look at the buffer in an error, and
shows of a hint's failures only such as last. -/
theorem lawful_readByHint {hint : PduHint} (hh : hint.Lawful)
    (hzero : ∀ buf buf', view (.zeroLengthPdu buf) = view (.zeroLengthPdu buf'))
    (herror : ∀ {buf e}, hint.findSize buf = .error e → view (.findSize e) ≠ none →
      ∀ more, hint.findSize (buf ++ more) = .error e) :
    (readByHint hint).LawfulUpTo view := by
  have hbody : ∀ n, Stable view (resumeByHint hint) (resumeByHint hint (.body n)) :=
    fun n => Stable.body fun _ => rfl
  have hstart : Stable view (resumeByHint hint) (resumeByHint hint .size) := by
    refine Stable.wait_or fun buf => ?_
    rcases hsize : hint.findSize buf with e | _ | ⟨m, n⟩
    · right
      by_cases hview : view (.findSize e) = none
      · left
        exact ⟨_, by rw [resumeByHint, hsize], hview⟩
      · right
        refine ⟨_, Stable.const_fail (.findSize e), fun more => ?_⟩
        simp only [resumeByHint, herror hsize hview]
    · left
      rw [resumeByHint, hsize]
    -- once the hint has found a size, it finds the same in every extension
    · right
      right
      by_cases hn : n = 0
      · refine ⟨_, Stable.fails hzero, fun more => ?_⟩
        simp only [resumeByHint, hh.size hsize, if_pos hn]
      · refine ⟨_, hbody n, fun more => ?_⟩
        simp only [resumeByHint, hh.size hsize, if_neg hn]
  exact hstart

theorem told_readByHint {hint : PduHint} (hh : hint.Lawful) :
    (readByHint hint).LawfulUpTo ReadError.told :=
  lawful_readByHint hh (fun _ _ => rfl) fun _ hshown => absurd rfl hshown

theorem undumped_readByHint {hint : PduHint} (hh : hint.Steady) :
    (readByHint hint).LawfulUpTo fun e => some e.undumped :=
  lawful_readByHint hh.toLawful (fun _ _ => rfl) fun herror _ => hh.error herror

theorem stable_checkLength (fromFp : UInt8 → Option Action) (action : Action)
    (n : Nat) : Stable view (readPdu fromFp).resume (checkLength action n) := by
  by_cases hn : n = 0
  · have heq : checkLength action n = fun _ => .fail .invalidLength :=
      funext fun buf => if_pos hn
    rw [heq]
    exact Stable.const_fail _
  · have heq : checkLength action n = resumeBody action n :=
      funext fun buf => if_neg hn
    rw [heq]
    exact Stable.body (p := PduPoint.body action n) fun _ => rfl

theorem stable_resumeTpkt (fromFp : UInt8 → Option Action) :
    Stable view (readPdu fromFp).resume resumeTpkt := by
  refine Stable.gate (p := PduPoint.tpkt) (n := 4) (fun _ => rfl) fun buf hlen => ?_
  refine ⟨_, stable_checkLength fromFp .x224
    (fromBeBytes16 (buf.getD 2 0) (buf.getD 3 0)), fun more => ?_⟩
  rw [getD_append_left buf more (by omega), getD_append_left buf more (by omega)]

theorem stable_resumeFastPath (fromFp : UInt8 → Option Action) (lenByte : UInt8) :
    Stable view (readPdu fromFp).resume (resumeFastPath lenByte) := by
  refine Stable.gate (p := PduPoint.fastPath lenByte) (n := 3) (fun _ => rfl)
    fun buf hlen => ?_
  refine ⟨_, stable_checkLength fromFp .fastPath
    (((lenByte &&& 0x7F).toNat <<< 8) ||| (buf.getD 2 0).toNat), fun more => ?_⟩
  rw [getD_append_left buf more (by omega)]

theorem lawful_readPdu (fromFp : UInt8 → Option Action) :
    (readPdu fromFp).LawfulUpTo view := by
  refine Stable.gate (p := PduPoint.header) (n := 2) (fun _ => rfl) fun buf hlen => ?_
  have h0 : ∀ more, (buf ++ more).getD 0 0 = buf.getD 0 0 :=
    fun more => getD_append_left buf more (by omega)
  have h1 : ∀ more, (buf ++ more).getD 1 0 = buf.getD 1 0 :=
    fun more => getD_append_left buf more (by omega)
  simp only [h0, h1]
  rcases hact : fromFp (buf.getD 0 0) with _ | _ | _
  · exact ⟨_, Stable.const_fail _, fun more => rfl⟩
  · by_cases hlong : buf.getD 1 0 &&& 0x80 ≠ 0
    · exact ⟨_, stable_resumeFastPath fromFp _, fun more => if_pos hlong⟩
    · exact ⟨_, stable_checkLength fromFp .fastPath _, fun more => if_neg hlong⟩
  · exact ⟨_, stable_resumeTpkt fromFp, fun more => rfl⟩

theorem stable_resumeTsBody (n : Nat) :
    Stable view readCredsspResponse.resume (resumeTsBody n) :=
  Stable.body (p := TsPoint.body n) fun _ => rfl

/-- The length bytes of a buffer are those of its extensions. -/
theorem berLength_append (buf more : List UInt8) {k : Nat}
    (h : 2 + k ≤ buf.length) : berLength (buf ++ more) k = berLength buf k := by
  rw [berLength, berLength]
  refine List.foldl_ext _ _ 0 fun len i hi => ?_
  rw [getD_append_left buf more (by have := List.mem_range.mp hi; omega)]

theorem stable_resumeTsLength (k : Nat) :
    Stable view readCredsspResponse.resume (resumeTsLength k) := by
  refine Stable.gate (p := TsPoint.length k) (n := 2 + k) (fun _ => rfl)
    fun buf hlen => ?_
  refine ⟨_, stable_resumeTsBody ((2 + k + berLength buf k) % 2 ^ 32),
    fun more => ?_⟩
  rw [berLength_append buf more hlen]

theorem lawful_readCredsspResponse : readCredsspResponse.LawfulUpTo view := by
  refine Stable.gate (p := TsPoint.header) (n := 2) (fun _ => rfl) fun buf hlen => ?_
  have h0 : ∀ more, (buf ++ more).getD 0 0 = buf.getD 0 0 :=
    fun more => getD_append_left buf more (by omega)
  have h1 : ∀ more, (buf ++ more).getD 1 0 = buf.getD 1 0 :=
    fun more => getD_append_left buf more (by omega)
  simp only [h0, h1]
  by_cases htag : buf.getD 0 0 ≠ 0x30
  · exact ⟨_, Stable.const_fail _, fun more => if_pos htag⟩
  · by_cases hshort : buf.getD 1 0 &&& 0x80 = 0
    · refine ⟨_, stable_resumeTsBody (2 + (buf.getD 1 0).toNat), fun more => ?_⟩
      rw [if_neg htag, if_pos hshort]
    · refine ⟨_, stable_resumeTsLength (buf.getD 1 0 &&& 0x7F).toNat,
        fun more => ?_⟩
      rw [if_neg htag, if_neg hshort]

end

end WasmRdp
