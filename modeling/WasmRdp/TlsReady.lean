import Mathlib.Data.List.Basic
import Mathlib.Tactic.Ring

/-!
# The answer to the upgrade command

The relay answers `tls_upgrade` with the text `tlsReady`, the certificate in
hex (`hex_encode` of `server/src/main.rs`); the client takes it apart with
`parse_tls_ready` and `hex_decode` of `wasm/src/session.rs`, neither of
which knows JSON. `readTlsReady_tlsReady` says that the client gets the
certificate that the relay saw, `parseTlsReady_tlsError` that no error of the
relay is taken for one.

The first is a round trip. Digits hold no quote, so that the string which the
client cuts out is the whole of the certificate's digits, and these decode to
its bytes (`hexDecode_hexEncode`). That the relay's text really is the compact
JSON of an object, as its library would write it, is `tlsReady_eq`.

The second is about a marker that must not occur. The text of an error is
whatever the TLS library says, and may contain the words that the client looks
for. It stands in a JSON string, where a quote is behind a backslash; the
marker of a `tls_ready` message has a word that is closed by a quote, so that
it can only begin outside of the error's text (`eq_of_closed`,
`marker_notPrefix`), and there it does not occur.
-/

namespace WasmRdp

/-! ## The relay's side -/

/-- A digit of `{b:02x}`. -/
def hexDigit (d : Nat) : Char :=
  if d < 10 then Char.ofNat (48 + d) else Char.ofNat (87 + d)

/-- `hex_encode`. -/
def hexEncode (bytes : List UInt8) : List Char :=
  bytes.flatMap fun b => [hexDigit (b.toNat / 16), hexDigit (b.toNat % 16)]

/-- The `tls_ready` message up to the certificate. -/
def tlsReadyHead : List Char :=
  "\x7b\x22cmd\x22:\x22tls_ready\x22,\x22server_cert\x22:\x22".toList

/-- The `tls_ready` message for a certificate. -/
def tlsReady (certDer : List UInt8) : String :=
  String.ofList (tlsReadyHead ++ hexEncode certDer ++ "\x22\x7d".toList)

/-- A character inside a JSON string, as `serde_json` writes it. -/
def escapeChar (c : Char) : List Char :=
  if c = '\x22' then "\\\x22".toList
  else if c = '\\' then "\\\\".toList
  else if c = '\x08' then "\\b".toList
  else if c = '\t' then "\\t".toList
  else if c = '\n' then "\\n".toList
  else if c = '\x0c' then "\\f".toList
  else if c = '\r' then "\\r".toList
  else if c.toNat < 0x20 then
    "\\u00".toList ++ [hexDigit (c.toNat / 16), hexDigit (c.toNat % 16)]
  else [c]

/-- The `tls_error` message. -/
def tlsError (e : String) : String :=
  String.ofList ("\x7b\x22cmd\x22:\x22tls_error\x22,\x22error\x22:\x22".toList
    ++ e.toList.flatMap escapeChar ++ "\x22\x7d".toList)

/-- `serde_json`'s compact form of an object whose members are strings. -/
def compactJson (members : List (List Char × List Char)) : List Char :=
  '\x7b' :: [','].intercalate (members.map fun m =>
    '\x22' :: m.1.flatMap escapeChar ++ '\x22' :: ':' :: '\x22' :: m.2.flatMap escapeChar ++
      ['\x22']) ++
    ['\x7d']

/-! ## The client's side -/

/-- What follows the first occurrence of `pat`. -/
def afterFirst (pat : List Char) : List Char → Option (List Char)
  | [] => if pat.isEmpty then some [] else none
  | c :: cs =>
      if pat.isPrefixOf (c :: cs) then some ((c :: cs).drop pat.length)
      else afterFirst pat cs

/-- `parse_tls_ready`. -/
def parseTlsReady (json : List Char) : Option (List Char) :=
  if (afterFirst "tls_ready".toList json).isNone then none
  else match afterFirst "\x22server_cert\x22:\x22".toList json with
    | none => none
    | some rest =>
        if '\x22' ∈ rest then some (rest.takeWhile (· ≠ '\x22')) else none

inductive HexError where
  /-- `Odd-length hex string` -/
  | oddLength
  /-- `Invalid hex: {e}` -/
  | invalid
  /-- The slice cuts a character in two, which panics. -/
  | notCharBoundary
  deriving DecidableEq, Repr

/-- `char::to_digit(16)`. -/
def toDigit (c : Char) : Option Nat :=
  if '0' ≤ c ∧ c ≤ '9' then some (c.toNat - 48)
  else if 'a' ≤ c ∧ c ≤ 'f' then some (c.toNat - 87)
  else if 'A' ≤ c ∧ c ≤ 'F' then some (c.toNat - 55)
  else none

/-- `u8::from_str_radix` at radix 16 for two ASCII characters; a leading
plus sign is accepted. -/
def fromStrRadix (c d : Char) : Option UInt8 :=
  if c = '+' then (toDigit d).map UInt8.ofNat
  else match toDigit c, toDigit d with
    | some hi, some lo => some (UInt8.ofNat (16 * hi + lo))
    | _, _ => none

/-- The bytes of the two-byte slices of a string of even length. -/
def hexPairs : List Char → Except HexError (List UInt8)
  | [] => .ok []
  -- one character of two bytes is not a digit
  | [c] => .error (if c.utf8Size = 2 then .invalid else .notCharBoundary)
  | c :: d :: rest =>
      if c.utf8Size = 2 then .error .invalid
      else if c.utf8Size = 1 ∧ d.utf8Size = 1 then
        match fromStrRadix c d with
        | none => .error .invalid
        | some b => (hexPairs rest).map (b :: ·)
      else .error .notCharBoundary

/-- `hex_decode`. -/
def hexDecode (hex : List Char) : Except HexError (List UInt8) :=
  if (hex.map Char.utf8Size).sum % 2 ≠ 0 then .error .oddLength
  else hexPairs hex

/-- What the client makes of the text it was waiting for. -/
def readTlsReady (text : String) : Option (Except HexError (List UInt8)) :=
  (parseTlsReady text.toList).map hexDecode

/-! ## The client reads what the relay wrote -/

theorem hexDigit_spec : ∀ d < 16, toDigit (hexDigit d) = some d ∧
    (hexDigit d).utf8Size = 1 ∧ hexDigit d ≠ '+' ∧ hexDigit d ≠ '\x22' := by
  decide

theorem fromStrRadix_hexDigits (b : UInt8) :
    fromStrRadix (hexDigit (b.toNat / 16)) (hexDigit (b.toNat % 16)) = some b := by
  have hb := b.toNat_lt
  obtain ⟨hhi, -, hplus, -⟩ := hexDigit_spec (b.toNat / 16) (by omega)
  obtain ⟨hlo, -⟩ := hexDigit_spec (b.toNat % 16) (by omega)
  rw [fromStrRadix, if_neg hplus, hhi, hlo]
  dsimp only
  rw [Nat.div_add_mod, UInt8.ofNat_toNat]

theorem hexEncode_cons (b : UInt8) (bytes : List UInt8) :
    hexEncode (b :: bytes) =
      hexDigit (b.toNat / 16) :: hexDigit (b.toNat % 16) :: hexEncode bytes := rfl

theorem hexPairs_hexEncode (bytes : List UInt8) :
    hexPairs (hexEncode bytes) = .ok bytes := by
  induction bytes with
  | nil => rfl
  | cons b bytes ih =>
      have hb := b.toNat_lt
      obtain ⟨-, hhi, -⟩ := hexDigit_spec (b.toNat / 16) (by omega)
      obtain ⟨-, hlo, -⟩ := hexDigit_spec (b.toNat % 16) (by omega)
      rw [hexEncode_cons, hexPairs, if_neg (by rw [hhi]; decide),
        if_pos ⟨hhi, hlo⟩, fromStrRadix_hexDigits, ih]
      rfl

theorem utf8Size_hexEncode (bytes : List UInt8) :
    ((hexEncode bytes).map Char.utf8Size).sum = 2 * bytes.length := by
  induction bytes with
  | nil => rfl
  | cons b bytes ih =>
      have hb := b.toNat_lt
      obtain ⟨-, hhi, -⟩ := hexDigit_spec (b.toNat / 16) (by omega)
      obtain ⟨-, hlo, -⟩ := hexDigit_spec (b.toNat % 16) (by omega)
      rw [hexEncode_cons, List.map_cons, List.map_cons, List.sum_cons,
        List.sum_cons, ih, hhi, hlo, List.length_cons]
      omega

theorem hexDecode_hexEncode (bytes : List UInt8) :
    hexDecode (hexEncode bytes) = .ok bytes := by
  rw [hexDecode, utf8Size_hexEncode, if_neg (by omega), hexPairs_hexEncode]

theorem quote_notMem_hexEncode (bytes : List UInt8) : '\x22' ∉ hexEncode bytes := by
  intro h
  obtain ⟨b, -, hmem⟩ := List.mem_flatMap.mp h
  have hb := b.toNat_lt
  have hdigit : ∀ d < 16, '\x22' ≠ hexDigit d := fun d hd =>
    (hexDigit_spec d hd).2.2.2.symm
  rcases List.mem_cons.mp hmem with heq | hmem
  · exact hdigit _ (by omega) heq
  · exact hdigit _ (by omega) (List.mem_singleton.mp hmem)

theorem afterFirst_tlsReadyHead (rest : List Char) :
    afterFirst "\x22server_cert\x22:\x22".toList (tlsReadyHead ++ rest) =
      some rest := by rfl

theorem tlsReadyHead_contains (rest : List Char) :
    (afterFirst "tls_ready".toList (tlsReadyHead ++ rest)).isNone = false := by rfl

theorem parseTlsReady_tlsReady (certDer : List UInt8) :
    parseTlsReady (tlsReady certDer).toList = some (hexEncode certDer) := by
  have hquote : '\x22' ∈ hexEncode certDer ++ "\x22\x7d".toList :=
    List.mem_append_right _ (by decide)
  rw [tlsReady, String.toList_ofList, List.append_assoc, parseTlsReady,
    tlsReadyHead_contains, if_neg (by decide), afterFirst_tlsReadyHead]
  dsimp only
  rw [if_pos hquote, List.takeWhile_append_of_pos]
  · exact congrArg some (List.append_nil _)
  · intro c hc
    exact decide_eq_true fun heq => quote_notMem_hexEncode certDer (heq ▸ hc)

/-- The client gets the certificate that the relay saw. -/
theorem readTlsReady_tlsReady (certDer : List UInt8) :
    readTlsReady (tlsReady certDer) = some (.ok certDer) := by
  rw [readTlsReady, parseTlsReady_tlsReady, Option.map_some, hexDecode_hexEncode]

/-! ## What the relay writes -/

theorem escapeChar_hexDigit : ∀ d < 16, escapeChar (hexDigit d) = [hexDigit d] := by
  decide

theorem escape_hexEncode (bytes : List UInt8) :
    (hexEncode bytes).flatMap escapeChar = hexEncode bytes := by
  induction bytes with
  | nil => rfl
  | cons b bytes ih =>
      have hb := b.toNat_lt
      rw [hexEncode_cons, List.flatMap_cons, List.flatMap_cons, ih,
        escapeChar_hexDigit _ (by omega), escapeChar_hexDigit _ (by omega)]
      rfl

theorem tlsReady_eq (certDer : List UInt8) :
    tlsReady certDer = String.ofList (compactJson [("cmd".toList, "tls_ready".toList),
      ("server_cert".toList, hexEncode certDer)]) := by
  have hcmd : "cmd".toList.flatMap escapeChar = "cmd".toList := by decide
  have hready : "tls_ready".toList.flatMap escapeChar = "tls_ready".toList := by decide
  have hcert : "server_cert".toList.flatMap escapeChar = "server_cert".toList := by decide
  rw [tlsReady, compactJson, List.map_cons, List.map_cons, List.map_nil,
    List.intercalate_cons_cons, List.intercalate_singleton, escape_hexEncode]
  dsimp only
  rw [hcmd, hready, hcert]
  simp only [List.append_assoc, List.cons_append]
  rfl

theorem tlsError_eq (e : String) :
    tlsError e = String.ofList (compactJson [("cmd".toList, "tls_error".toList),
      ("error".toList, e.toList)]) := by
  have hcmd : "cmd".toList.flatMap escapeChar = "cmd".toList := by decide
  have hkind : "tls_error".toList.flatMap escapeChar = "tls_error".toList := by decide
  have herror : "error".toList.flatMap escapeChar = "error".toList := by decide
  unfold tlsError
  rw [compactJson, List.map_cons, List.map_cons, List.map_nil, List.intercalate_cons_cons,
    List.intercalate_singleton]
  dsimp only
  rw [hcmd, hkind, herror]
  simp only [List.append_assoc, List.cons_append]
  rfl

/-! ## An error is no certificate

A quote of the error's text stands behind a backslash, so that no word of the
text is closed by one. -/

theorem escapeChar_head (c : Char) :
    (∃ s, escapeChar c = '\\' :: s) ∨ escapeChar c = [c] ∧ c ≠ '\x22' := by
  unfold escapeChar
  split_ifs with hquote
  all_goals first | exact .inl ⟨_, rfl⟩ | exact .inr ⟨rfl, hquote⟩

/-- The two digits of a control character. -/
theorem quote_notMem_digits {n : Nat} (hn : n < 0x20) :
    '\x22' ∉ "\\u00".toList ++ [hexDigit (n / 16), hexDigit (n % 16)] := by
  have hhi := (hexDigit_spec (n / 16) (by omega)).2.2.2.symm
  have hlo := (hexDigit_spec (n % 16) (by omega)).2.2.2.symm
  simp [hhi, hlo]

theorem quote_notMem_escapeChar {c : Char} (hc : c ≠ '\x22') : '\x22' ∉ escapeChar c := by
  unfold escapeChar
  rw [if_neg hc]
  split_ifs with h₁ h₂ h₃ h₄ h₅ h₆ hcontrol
  iterate 6 decide
  · exact quote_notMem_digits hcontrol
  · simpa using hc.symm

theorem afterFirst_skip {pat s : List Char} (hs : '\x22' ∉ s) (rest : List Char) :
    afterFirst ('\x22' :: pat) (s ++ rest) = afterFirst ('\x22' :: pat) rest := by
  induction s with
  | nil => rfl
  | cons c s ih =>
      rw [List.mem_cons, not_or] at hs
      have hpat : ('\x22' :: pat).isPrefixOf (c :: (s ++ rest)) = false := by
        simp [List.isPrefixOf, hs.1]
      rw [List.cons_append, afterFirst, hpat, if_neg Bool.false_ne_true]
      exact ih hs.2

/-- A word that is closed by a quote is the whole text. -/
theorem eq_of_closed {word e after rest : List Char}
    (hword : ∀ c ∈ word, c ≠ '\\' ∧ c ≠ '\x22')
    (h : (word ++ '\x22' :: after) <+: e.flatMap escapeChar ++ '\x22' :: rest) :
    e = word ∧ after <+: rest := by
  induction word generalizing e with
  | nil =>
      cases e with
      | nil => exact ⟨rfl, (List.prefix_cons_inj _).mp h⟩
      | cons c e =>
          rw [List.flatMap_cons, List.append_assoc, List.nil_append] at h
          rcases escapeChar_head c with ⟨s, hs⟩ | ⟨hs, hc⟩
          · rw [hs, List.cons_append, List.cons_prefix_cons] at h
            exact absurd h.1 (by decide)
          · rw [hs, List.singleton_append, List.cons_prefix_cons] at h
            exact absurd h.1.symm hc
  | cons a word ih =>
      obtain ⟨haslash, haquote⟩ := hword a List.mem_cons_self
      cases e with
      | nil =>
          rw [List.flatMap_nil, List.nil_append, List.cons_append, List.cons_prefix_cons] at h
          exact absurd h.1 haquote
      | cons c e =>
          rw [List.flatMap_cons, List.append_assoc, List.cons_append] at h
          rcases escapeChar_head c with ⟨s, hs⟩ | ⟨hs, -⟩
          · rw [hs, List.cons_append, List.cons_prefix_cons] at h
            exact absurd h.1 haslash
          · rw [hs, List.singleton_append, List.cons_prefix_cons] at h
            obtain ⟨rfl, hafter⟩ := ih (fun c hc => hword c (List.mem_cons_of_mem _ hc)) h.2
            exact ⟨by rw [h.1], hafter⟩

/-- The marker does not begin at a quote of an error's text. -/
theorem marker_notPrefix (e : List Char) :
    "\x22server_cert\x22:\x22".toList.isPrefixOf
      ('\x22' :: (e.flatMap escapeChar ++ "\x22\x7d".toList)) = false := by
  rw [Bool.eq_false_iff, ne_eq, List.isPrefixOf_iff_prefix]
  intro h
  have hword : ∀ c ∈ "server_cert".toList, c ≠ '\\' ∧ c ≠ '\x22' := by
    have hall : "server_cert".toList.all (fun c => c ≠ '\\' ∧ c ≠ '\x22') = true := rfl
    exact fun c hc => of_decide_eq_true (List.all_eq_true.mp hall c hc)
  have hclosed : e = "server_cert".toList ∧ ":\x22".toList <+: "\x7d".toList :=
    eq_of_closed hword ((List.prefix_cons_inj _).mp h)
  have hother : ":\x22".toList.isPrefixOf "\x7d".toList = false := rfl
  exact Bool.false_ne_true (hother.symm.trans (List.isPrefixOf_iff_prefix.mpr hclosed.2))

theorem afterFirst_error (e : List Char) :
    afterFirst "\x22server_cert\x22:\x22".toList
      (e.flatMap escapeChar ++ "\x22\x7d".toList) = none := by
  induction e with
  | nil => rfl
  | cons c e ih =>
      rw [List.flatMap_cons, List.append_assoc]
      by_cases hc : c = '\x22'
      · subst hc
        have hquote : afterFirst "\x22server_cert\x22:\x22".toList
            (escapeChar '\x22' ++ (e.flatMap escapeChar ++ "\x22\x7d".toList)) =
          afterFirst "\x22server_cert\x22:\x22".toList
            ('\x22' :: (e.flatMap escapeChar ++ "\x22\x7d".toList)) := rfl
        rw [hquote, afterFirst, marker_notPrefix, if_neg Bool.false_ne_true]
        exact ih
      · exact (afterFirst_skip (quote_notMem_escapeChar hc) _).trans ih

theorem parseTlsReady_tlsError (e : String) : parseTlsReady (tlsError e).toList = none := by
  have hmarker : afterFirst "\x22server_cert\x22:\x22".toList (tlsError e).toList = none := by
    have htext : (tlsError e).toList =
        "\x7b\x22cmd\x22:\x22tls_error\x22,\x22error\x22:\x22".toList ++
          (e.toList.flatMap escapeChar ++ "\x22\x7d".toList) := by
      unfold tlsError
      exact String.toList_ofList.trans (List.append_assoc ..)
    have hopen : afterFirst "\x22server_cert\x22:\x22".toList (tlsError e).toList =
        afterFirst "\x22server_cert\x22:\x22".toList
          ('\x22' :: (e.toList.flatMap escapeChar ++ "\x22\x7d".toList)) := by
      rw [htext]
      rfl
    rw [hopen, afterFirst, marker_notPrefix, if_neg Bool.false_ne_true]
    exact afterFirst_error e.toList
  rw [parseTlsReady, hmarker]
  split <;> rfl

/-- The client gets the certificate that the relay saw, and takes no error for
one. -/
theorem certificate_intact (certDer : List UInt8) (e : String) :
    readTlsReady (String.ofList (compactJson [("cmd".toList, "tls_ready".toList),
        ("server_cert".toList, hexEncode certDer)])) = some (.ok certDer) ∧
      parseTlsReady (compactJson [("cmd".toList, "tls_error".toList),
        ("error".toList, e.toList)]) = none := by
  refine ⟨?_, ?_⟩
  · rw [← tlsReady_eq]
    exact readTlsReady_tlsReady certDer
  · have herror := parseTlsReady_tlsError e
    rw [tlsError_eq, String.toList_ofList] at herror
    exact herror

end WasmRdp
