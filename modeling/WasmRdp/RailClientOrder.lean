import WasmRdp.Lib.ByteWriter
import WasmRdp.RailParse

/-!
# The orders that the client sends

`ClientRailOrder` of `ironrdp-rail`, with its three counts of the same bytes:
`size`, the lengths in the header of an order, and what `encode` writes. The
layout of the orders is written down once more as a reader, which gives back
what the order says (`encode_exact`). Lengths are natural numbers.

The reader follows the layout and not the encoder: a header with the type and
the length of the order, and behind it what the type has; a system parameter
has its own number, and an order to launch an application three lengths in
front of three strings of UTF-16. `layout` says what an order stands for in
it. No two orders stand for the same (`layout_injective`), so that reading
back is no loss.

An order is encoded through a list of bytes: `length_bytes` says that there
are as many as `size` announces, `writes_encode` that an order of at most
65535 bytes is written as these, and `reads_bytes` that the reader takes them.
A longer order fails at the length of its header (`encode_too_long`), before
any string is written; the lengths of the strings are then no further
question, since they fit where the whole order does (`utf16Len_le`).
-/

namespace WasmRdp

open ByteReader ByteWriter WriteCursor

def RAIL_PDU_HEADER_SIZE : Nat := 4

def TS_RAIL_ORDER_EXEC : UInt16 := 0x0001
def TS_RAIL_ORDER_ACTIVATE : UInt16 := 0x0002
def TS_RAIL_ORDER_SYSPARAM : UInt16 := 0x0003
def TS_RAIL_ORDER_SYSCOMMAND : UInt16 := 0x0004
def TS_RAIL_ORDER_HANDSHAKE : UInt16 := 0x0005
def TS_RAIL_ORDER_CLIENTSTATUS : UInt16 := 0x000B

def SPI_SET_WORK_AREA : UInt32 := 0x0000002F
def SPI_SET_HIGH_CONTRAST : UInt32 := 0x00000043

def RAIL_EXEC_FLAG_EXPAND_WORKINGDIRECTORY : UInt16 := 0x0001
def RAIL_EXEC_FLAG_EXPAND_ARGUMENTS : UInt16 := 0x0008

inductive ClientRailOrder where
  | handshake (buildNumber : UInt32)
  | clientStatus (flags : UInt32)
  | sysParamHighContrastOff
  | sysParamWorkArea (width height : UInt16)
  | exec (exeOrFile workingDir arguments : String)
  | activate (windowId : UInt32) (enabled : Bool)
  | sysCommand (windowId : UInt32) (command : UInt16)
  deriving DecidableEq

/-- `encode_utf16`. -/
def encodeUtf16 (s : String) : List UInt16 := Utf16.encode s.toList

def utf16Len (s : String) : Nat := (encodeUtf16 s).length * 2

def writeUtf16 (dst : WriteCursor) (s : String) : Except Failure WriteCursor :=
  (encodeUtf16 s).foldlM writeU16 dst

namespace ClientRailOrder

def orderType : ClientRailOrder → UInt16
  | handshake _ => TS_RAIL_ORDER_HANDSHAKE
  | clientStatus _ => TS_RAIL_ORDER_CLIENTSTATUS
  | sysParamHighContrastOff | sysParamWorkArea .. => TS_RAIL_ORDER_SYSPARAM
  | exec .. => TS_RAIL_ORDER_EXEC
  | activate .. => TS_RAIL_ORDER_ACTIVATE
  | sysCommand .. => TS_RAIL_ORDER_SYSCOMMAND

def bodySize : ClientRailOrder → Nat
  | handshake _ => 4
  | clientStatus _ => 4
  | sysParamHighContrastOff => 4 + 4 + 4 + 2
  | sysParamWorkArea .. => 4 + 2 * 4
  | exec exeOrFile workingDir arguments =>
      2 + 2 + 2 + 2 + utf16Len exeOrFile + utf16Len workingDir + utf16Len arguments
  | activate .. => 4 + 1
  | sysCommand .. => 4 + 2

def size (order : ClientRailOrder) : Nat := RAIL_PDU_HEADER_SIZE + order.bodySize

/-- The `match` of `encode`. -/
def encodeBody (dst : WriteCursor) : ClientRailOrder → Except Failure WriteCursor
  | handshake buildNumber => dst.writeU32 buildNumber
  | clientStatus flags => dst.writeU32 flags
  | sysParamHighContrastOff => do
      let dst ← dst.writeU32 SPI_SET_HIGH_CONTRAST
      let dst ← dst.writeU32 0
      let dst ← dst.writeU32 2
      dst.writeU16 0
  | sysParamWorkArea width height => do
      let dst ← dst.writeU32 SPI_SET_WORK_AREA
      let dst ← dst.writeU16 0
      let dst ← dst.writeU16 0
      let dst ← dst.writeU16 width
      dst.writeU16 height
  | exec exeOrFile workingDir arguments => do
      let dst ← dst.writeU16
        (RAIL_EXEC_FLAG_EXPAND_ARGUMENTS ||| RAIL_EXEC_FLAG_EXPAND_WORKINGDIRECTORY)
      let dst ← dst.writeU16 (← castLength "Exec::exeLen" (utf16Len exeOrFile))
      let dst ← dst.writeU16 (← castLength "Exec::dirLen" (utf16Len workingDir))
      let dst ← dst.writeU16 (← castLength "Exec::argsLen" (utf16Len arguments))
      let dst ← writeUtf16 dst exeOrFile
      let dst ← writeUtf16 dst workingDir
      writeUtf16 dst arguments
  | activate windowId enabled => do
      let dst ← dst.writeU32 windowId
      dst.writeU8 (if enabled then 1 else 0)
  | sysCommand windowId command => do
      let dst ← dst.writeU32 windowId
      dst.writeU16 command

/-- `encode`. -/
def encode (dst : WriteCursor) (order : ClientRailOrder) : Except Failure WriteCursor := do
  ensureSize dst order.size
  let dst ← dst.writeU16 order.orderType
  let dst ← dst.writeU16 (← castLength "ClientRailOrder::orderLength" order.size)
  order.encodeBody dst

end ClientRailOrder

/-! ## The layout -/

/-- What follows the header, by order type; for a system parameter also by the
parameter. -/
inductive RailOrderBody where
  | handshake (buildNumber : UInt32)
  | clientStatus (flags : UInt32)
  | highContrast (flags colorSchemeLength : UInt32) (colorScheme : String)
  | workArea (area : Rect)
  | exec (flags : UInt16) (exeOrFile workingDir arguments : String)
  | activate (windowId : UInt32) (enabled : UInt8)
  | sysCommand (windowId : UInt32) (command : UInt16)

structure RailPdu where
  orderType : UInt16
  orderLength : UInt16
  body : RailOrderBody

namespace RailLayout

open Reader

/-- `cb` bytes of UTF-16. -/
def utf16 (cb : UInt16) : Read String := do
  let bs ← take cb.toNat
  pure (String.ofList (Utf16.decodeLossy (units bs)))

def highContrast : Read RailOrderBody := do
  let flags ← u32
  let colorSchemeLength ← u32
  let colorScheme ← unicodeString
  pure (.highContrast flags colorSchemeLength colorScheme)

def exec : Read RailOrderBody := do
  let flags ← u16
  let exeOrFileLength ← u16
  let workingDirLength ← u16
  let argumentsLen ← u16
  let exeOrFile ← utf16 exeOrFileLength
  let workingDir ← utf16 workingDirLength
  let arguments ← utf16 argumentsLen
  pure (.exec flags exeOrFile workingDir arguments)

/-- A parameter or an order that the client never sends. -/
def unknown : Read RailOrderBody := fun c => (none, c)

def sysParam : Read RailOrderBody := do
  let systemParam ← u32
  if systemParam = 0x43 then highContrast
  else if systemParam = 0x2F then do
    let left ← u16
    let top ← u16
    let right ← u16
    let bottom ← u16
    pure (.workArea { left, top, right, bottom })
  else unknown

def body (orderType : UInt16) : Read RailOrderBody :=
  if orderType = 0x0001 then exec
  else if orderType = 0x0002 then do
    let windowId ← u32
    let enabled ← u8
    pure (.activate windowId enabled)
  else if orderType = 0x0003 then sysParam
  else if orderType = 0x0004 then do
    let windowId ← u32
    let command ← u16
    pure (.sysCommand windowId command)
  else if orderType = 0x0005 then do
    let buildNumber ← u32
    pure (.handshake buildNumber)
  else if orderType = 0x000B then do
    let flags ← u32
    pure (.clientStatus flags)
  else unknown

/-- A whole order. -/
def pdu : Read RailPdu := do
  let orderType ← u16
  let orderLength ← u16
  let body ← body orderType
  pure { orderType, orderLength, body }

end RailLayout

namespace ClientRailOrder

/-- What the order stands for in the layout. -/
def layout : ClientRailOrder → RailOrderBody
  | handshake buildNumber => .handshake buildNumber
  | clientStatus flags => .clientStatus flags
  | sysParamHighContrastOff => .highContrast 0 2 ""
  | sysParamWorkArea width height =>
      .workArea { left := 0, top := 0, right := width, bottom := height }
  | exec exeOrFile workingDir arguments => .exec 9 exeOrFile workingDir arguments
  | activate windowId enabled => .activate windowId (if enabled then 1 else 0)
  | sysCommand windowId command => .sysCommand windowId command

theorem layout_injective : Function.Injective layout := by
  intro o o' h
  cases o <;> cases o' <;> simp_all [layout]
  rename_i enabled enabled' _
  cases enabled <;> cases enabled' <;> simp_all

/-! ## The bytes of an order -/

/-- Three strings back to back, behind their lengths. -/
def bodyBytes : ClientRailOrder → List UInt8
  | handshake buildNumber => le32 buildNumber
  | clientStatus flags => le32 flags
  | sysParamHighContrastOff => le32 0x43 ++ (le32 0 ++ (le32 2 ++ le16 0))
  | sysParamWorkArea width height =>
      le32 0x2F ++ (le16 0 ++ (le16 0 ++ (le16 width ++ le16 height)))
  | exec exeOrFile workingDir arguments =>
      le16 9 ++ (le16 (.ofNat (utf16Len exeOrFile)) ++
        (le16 (.ofNat (utf16Len workingDir)) ++
          (le16 (.ofNat (utf16Len arguments)) ++
            ((encodeUtf16 exeOrFile).flatMap le16 ++
              ((encodeUtf16 workingDir).flatMap le16 ++
                (encodeUtf16 arguments).flatMap le16)))))
  | activate windowId enabled => le32 windowId ++ [if enabled then 1 else 0]
  | sysCommand windowId command => le32 windowId ++ le16 command

def bytes (order : ClientRailOrder) : List UInt8 :=
  le16 order.orderType ++ (le16 (.ofNat order.size) ++ order.bodyBytes)

theorem length_utf16 (s : String) : ((encodeUtf16 s).flatMap le16).length = utf16Len s :=
  length_flatMap_const length_le16 _

/-- `size` counts the bytes of an order. -/
theorem length_bytes (order : ClientRailOrder) : order.bytes.length = order.size := by
  cases order with
  | exec exeOrFile workingDir arguments =>
    simp only [bytes, bodyBytes, size, bodySize, RAIL_PDU_HEADER_SIZE,
      List.length_append, length_le16, length_utf16]
    omega
  | _ => rfl

/-- The three strings fit their lengths when the whole order does. -/
theorem utf16Len_le {e d a : String} (h : (exec e d a).size ≤ 65535) :
    utf16Len e ≤ 65535 ∧ utf16Len d ≤ 65535 ∧ utf16Len a ≤ 65535 := by
  simp only [size, bodySize] at h
  omega

/-! ## Writing -/

theorem writes_utf16 (s : String) :
    Writes (writeUtf16 · s) ((encodeUtf16 s).flatMap le16) :=
  Writes.foldlM (fun u => writes_u16 u) _

theorem writes_body (order : ClientRailOrder) (h : order.size ≤ 65535) :
    Writes (encodeBody · order) order.bodyBytes := by
  cases order with
  | handshake buildNumber => exact writes_u32 _
  | clientStatus flags => exact writes_u32 _
  | sysParamHighContrastOff =>
    exact (writes_u32 _).bind ((writes_u32 _).bind ((writes_u32 _).bind (writes_u16 _)))
  | sysParamWorkArea width height =>
    exact (writes_u32 _).bind ((writes_u16 _).bind ((writes_u16 _).bind
      ((writes_u16 _).bind (writes_u16 _))))
  | exec exeOrFile workingDir arguments =>
    obtain ⟨he, hd, ha⟩ := utf16Len_le h
    refine (writes_u16 _).bind ?_
    refine .castLength he ((writes_u16 _).bind ?_)
    refine .castLength hd ((writes_u16 _).bind ?_)
    refine .castLength ha ((writes_u16 _).bind ?_)
    exact (writes_utf16 _).bind ((writes_utf16 _).bind (writes_utf16 _))
  | activate windowId enabled => exact (writes_u32 _).bind (writes_u8 _)
  | sysCommand windowId command => exact (writes_u32 _).bind (writes_u16 _)

/-- With room for it, an order that is short enough is written whole. -/
theorem writes_encode (order : ClientRailOrder) (h : order.size ≤ 65535) :
    Writes (encode · order) order.bytes := by
  intro dst hroom
  have hsize := ensureSize_eq_ok (hroom.trans_eq' (length_bytes order))
  simp only [encode, hsize]
  exact ((writes_u16 order.orderType).bind
    (.castLength h ((writes_u16 _).bind (writes_body order h)))) dst hroom

/-- A longer order fails at its length. -/
theorem encode_too_long {order : ClientRailOrder} {dst : WriteCursor}
    (hroom : order.size ≤ dst.len) (h : 65535 < order.size) :
    encode dst order = .error (.invalidField "ClientRailOrder::orderLength") := by
  obtain ⟨c, hc, -⟩ := writes_u16 order.orderType dst
    (by rw [length_toLe]; omega)
  dsimp only at hc
  simp only [encode, ensureSize_eq_ok hroom, hc, castLength_eq_error h, bind, Except.bind]

/-! ## Reading -/

open RailLayout

theorem reads_utf16 {s : String} (h : utf16Len s ≤ 65535) :
    Reads (utf16 (.ofNat (utf16Len s))) ((encodeUtf16 s).flatMap le16) s := by
  have hlen : ((encodeUtf16 s).flatMap le16).length = (UInt16.ofNat (utf16Len s)).toNat := by
    rw [length_utf16, toNat_ofNat16 h]
  have hread := (reads_take hlen).bind_pure (f := fun bs =>
    String.ofList (Utf16.decodeLossy (Reader.units bs)))
  rwa [units_flatMap, encodeUtf16, Utf16.decodeLossy_encode, String.ofList_toList] at hread

theorem reads_highContrast (flags colorSchemeLength : UInt32) :
    Reads highContrast (le32 flags ++ (le32 colorSchemeLength ++ le16 0))
      (.highContrast flags colorSchemeLength "") :=
  (reads_u32 _).bind ((reads_u32 _).bind
    (reads_unicodeString (show ([] : List UInt16).length * 2 ≤ 65535 by simp)).bind_pure)

theorem reads_exec {e d a : String} (h : (exec e d a).size ≤ 65535) :
    Reads RailLayout.exec (exec e d a).bodyBytes (.exec 9 e d a) := by
  obtain ⟨he, hd, ha⟩ := utf16Len_le h
  refine (reads_u16 _).bind ((reads_u16 _).bind ((reads_u16 _).bind ((reads_u16 _).bind ?_)))
  exact (reads_utf16 he).bind ((reads_utf16 hd).bind (reads_utf16 ha).bind_pure)

theorem reads_body (order : ClientRailOrder) (h : order.size ≤ 65535) :
    Reads (body order.orderType) order.bodyBytes order.layout := by
  cases order with
  | handshake buildNumber => exact (reads_u32 _).bind_pure
  | clientStatus flags => exact (reads_u32 _).bind_pure
  | sysParamHighContrastOff => exact (reads_u32 _).bind (reads_highContrast 0 2)
  | sysParamWorkArea width height =>
    exact (reads_u32 _).bind ((reads_u16 _).bind ((reads_u16 _).bind ((reads_u16 _).bind
      (reads_u16 _).bind_pure)))
  | exec exeOrFile workingDir arguments => exact reads_exec h
  | activate windowId enabled => exact (reads_u32 _).bind (reads_u8 _).bind_pure
  | sysCommand windowId command => exact (reads_u32 _).bind (reads_u16 _).bind_pure

theorem reads_bytes (order : ClientRailOrder) (h : order.size ≤ 65535) :
    Reads pdu order.bytes ⟨order.orderType, .ofNat order.size, order.layout⟩ :=
  (reads_u16 _).bind ((reads_u16 _).bind (reads_body order h).bind_pure)

/-- The reader on the bytes of an order alone. -/
theorem pdu_bytes (order : ClientRailOrder) (h : order.size ≤ 65535) :
    pdu ⟨order.bytes, 0⟩ = (some ⟨order.orderType, .ofNat order.size, order.layout⟩,
      ⟨order.bytes, order.size⟩) := by
  have hread := reads_bytes order h ⟨order.bytes, 0⟩ [] ⟨Nat.zero_le _, by simp⟩
  rwa [Cursor.advance, Nat.zero_add, length_bytes] at hread

/-! ## Encoding -/

theorem size_le_of_encode {order : ClientRailOrder} {dst dst' : WriteCursor}
    (h : encode dst order = .ok dst') : order.size ≤ dst.len ∧ order.size ≤ 65535 := by
  have hroom : order.size ≤ dst.len := by
    by_contra hroom
    rw [encode, ensureSize, if_pos (by omega)] at h
    cases h
  refine ⟨hroom, Nat.not_lt.mp fun hlong => ?_⟩
  rw [encode_too_long hroom hlong] at h
  cases h

theorem wrote_of_encode {order : ClientRailOrder} {dst dst' : WriteCursor}
    (h : encode dst order = .ok dst') : Wrote dst dst' order.bytes := by
  obtain ⟨hroom, hsize⟩ := size_le_of_encode h
  obtain ⟨c, hc, hwrote⟩ := writes_encode order hsize dst (by rwa [length_bytes])
  obtain rfl : c = dst' := Except.ok.inj (hc.symm.trans h)
  exact hwrote

/-- For every order and every buffer with room for it: encoding succeeds
exactly when the order is at most 65535 bytes long, and then writes as many
bytes as it announces, and nothing else. A reader of the layout finds the type,
the length and everything that the order stands for in them, and no other order
is written as the same bytes. -/
theorem encode_exact (order : ClientRailOrder) (dst : WriteCursor)
    (hroom : order.size ≤ dst.len) :
    ((∃ dst', encode dst order = .ok dst') ↔ order.size ≤ 65535) ∧
    ∀ dst', encode dst order = .ok dst' →
      (written dst dst').length = order.size ∧
      Wrote dst dst' (written dst dst') ∧
      (∃ found, pdu ⟨written dst dst', 0⟩ =
          (some found, ⟨written dst dst', order.size⟩) ∧
        found.orderType = order.orderType ∧ found.orderLength.toNat = order.size ∧
        found.body = order.layout) ∧
      ∀ (other : ClientRailOrder) (src src' : WriteCursor), encode src other = .ok src' →
        written src src' = written dst dst' → other = order := by
  refine ⟨⟨fun ⟨dst', h⟩ => (size_le_of_encode h).2, fun h => ?_⟩, fun dst' h => ?_⟩
  · obtain ⟨dst', hdst', -⟩ := writes_encode order h dst (by rwa [length_bytes])
    exact ⟨dst', hdst'⟩
  · have hsize := (size_le_of_encode h).2
    have hwrote := wrote_of_encode h
    rw [hwrote.written]
    refine ⟨length_bytes order, hwrote, ⟨_, pdu_bytes order hsize, rfl, ?_, rfl⟩, ?_⟩
    · exact toNat_ofNat16 hsize
    · intro other src src' hother hsame
      rw [(wrote_of_encode hother).written] at hsame
      have hread := pdu_bytes other (size_le_of_encode hother).2
      rw [hsame, pdu_bytes order hsize] at hread
      simp only [Prod.mk.injEq, Option.some.injEq, RailPdu.mk.injEq] at hread
      exact (layout_injective hread.1.2.2).symm

theorem encode_exact_exec :
    let order := exec "a" "" "😀"
    let dst : WriteCursor := ⟨List.replicate 20 0, 0, Nat.zero_le _⟩
    ((∃ dst', encode dst order = .ok dst') ↔ order.size ≤ 65535) ∧
    ∀ dst', encode dst order = .ok dst' →
      (written dst dst').length = order.size ∧
      Wrote dst dst' (written dst dst') ∧
      (∃ found, pdu ⟨written dst dst', 0⟩ =
          (some found, ⟨written dst dst', order.size⟩) ∧
        found.orderType = order.orderType ∧ found.orderLength.toNat = order.size ∧
        found.body = order.layout) ∧
      ∀ (other : ClientRailOrder) (src src' : WriteCursor), encode src other = .ok src' →
        written src src' = written dst dst' → other = order :=
  encode_exact (exec "a" "" "😀") ⟨List.replicate 20 0, 0, Nat.zero_le _⟩
    (by decide)

end ClientRailOrder

end WasmRdp
