import WasmRdp.FramedRun

/-!
# One TLV of the CredSSP exchange

What a single read takes from the socket depends on the bytes that arrived
only, whatever their chunks and whatever else arrives (`ok_of_run`). For
`read_credssp_response` these are a BER header and its contents, as long as
the two lengths add up to less than `2 ^ 32`: beyond that the 32-bit `usize`
keeps the sum modulo `2 ^ 32`, and the read returns too few bytes
(`takesOneTlv_iff`).

The first half is about any read. A task with one read is followed through a
run (`OneRead`): what has arrived is its buffer and what it has yet to take,
and a poll either returns the frame that the reader finds at the front of all
these bytes, or has taken every message and waits where a fresh read would
(`fillBuf_pending`, `fillBuf_ok`). A read that is dropped begins again with
the same buffer.

The second half is the header. `berHeader` reads it as the encoding rules have
it, with a length in one byte or in as many as the first says. The source
shifts the length bytes into 32 bits, which is the length modulo `2 ^ 32`
(`berLength_eq`), and adds the two lengths there (`resume_of_berHeader`). So
the sum decides; a length of `2 ^ 32` in five bytes makes the read return the
header alone (`not_takesOneTlv_wrapped`).
-/

namespace WasmRdp

open Framing

namespace ReadTask

/-! ## One read -/

section

variable {F : FrameReader}

theorem append_bytesOf_bytes (buf data : List UInt8) (ws : List WsMessage) :
    buf ++ bytesOf (.bytes data :: ws) = buf ++ data ++ bytesOf ws := by
  rw [List.append_assoc]
  rfl

/-- A pending read has taken every message, and waits where a fresh one
would. -/
theorem fillBuf_pending (hF : F.Lawful) {p q : F.Point} {ws : List WsMessage}
    {buf : List UInt8} {rxBytes : Nat} {f : WasmFramed}
    (hp : F.resume F.start buf = .wait p)
    (h : fillBuf F p ws buf rxBytes = .pending q f) :
    f.wsRead = [] ∧ f.buf = buf ++ bytesOf ws ∧ F.resume F.start f.buf = .wait q := by
  fun_induction fillBuf F p ws buf rxBytes with
  | case1 p buf rxBytes =>
    cases h
    exact ⟨rfl, (List.append_nil buf).symm, hp⟩
  | case2 p text ws buf rxBytes ih => exact ih hp h
  | case3 => cases h
  | case4 => cases h
  | case5 p data ws buf rxBytes buf' rxBytes' p' hstep ih =>
    rw [append_bytesOf_bytes]
    exact ih ((hF.wait hp data).symm.trans hstep) h
  | case6 => cases h
  | case7 => cases h

/-- A read that returns has taken its frame off the bytes at hand. -/
theorem fillBuf_ok (hF : F.Lawful) {p : F.Point} {ws : List WsMessage}
    {buf bytes : List UInt8} {rxBytes : Nat} {a : Option Action} {f : WasmFramed}
    (hp : F.resume F.start buf = .wait p)
    (h : fillBuf F p ws buf rxBytes = .ready (.ok (a, bytes)) f) :
    F.resume F.start (buf ++ bytesOf ws) = .done bytes.length a ∧
      bytes ++ (f.buf ++ bytesOf f.wsRead) = buf ++ bytesOf ws := by
  fun_induction fillBuf F p ws buf rxBytes with
  | case1 => cases h
  | case2 p text ws buf rxBytes ih => exact ih hp h
  | case3 => cases h
  | case4 => cases h
  | case5 p data ws buf rxBytes buf' rxBytes' p' hstep ih =>
    rw [append_bytesOf_bytes]
    exact ih ((hF.wait hp data).symm.trans hstep) h
  | case6 p data ws buf rxBytes buf' rxBytes' n a' hstep =>
    have hdone : F.resume F.start buf' = .done n a' :=
      (hF.wait hp data).symm.trans hstep
    have hn := hF.done_le hdone
    cases h
    rw [append_bytesOf_bytes, List.length_take, Nat.min_eq_left hn]
    exact ⟨hF.done hdone _, by rw [← List.append_assoc, List.take_append_drop]⟩
  | case7 => cases h

/-- A task with one read, after the bytes `s` arrived. -/
def OneRead (F : FrameReader) (s : List UInt8) (t : ReadTask) : Prop :=
  (t.calls = [F] ∧ t.results = [] ∧ s = t.framed.buf ++ bytesOf t.framed.wsRead ∧
    (t.pending = none ∨
      ∃ p, t.pending = some ⟨F, p⟩ ∧ F.resume F.start t.framed.buf = .wait p)) ∨
  (t.calls = [] ∧ t.pending = none ∧ ∀ a bytes, .ok (a, bytes) ∈ t.results →
    F.resume F.start s = .done bytes.length a ∧
      bytes ++ (t.framed.buf ++ bytesOf t.framed.wsRead) = s)

variable {s : List UInt8} {t : ReadTask}

theorem OneRead.start : OneRead F [] (start [F]) := .inl ⟨rfl, rfl, rfl, .inl rfl⟩

theorem OneRead.arrive (hF : F.Lawful) (h : OneRead F s t) (m : WsMessage) :
    OneRead F (s ++ bytesOf [m]) (t.step (.arrive m)) := by
  rcases h with ⟨hcalls, hres, hs, hpend⟩ | ⟨hcalls, hpend, hres⟩
  · refine .inl ⟨hcalls, hres, ?_, hpend⟩
    rw [hs, ReadTask.step, bytesOf_append, List.append_assoc]
  · refine .inr ⟨hcalls, hpend, fun a bytes hmem => ?_⟩
    obtain ⟨hdone, hall⟩ := hres a bytes hmem
    refine ⟨hF.done hdone _, ?_⟩
    rw [← hall, ReadTask.step, bytesOf_append]
    simp only [List.append_assoc]

theorem OneRead.drop (h : OneRead F s t) : OneRead F s (t.step .drop) := by
  rcases h with ⟨hcalls, hres, hs, -⟩ | ⟨hcalls, -, hres⟩
  · exact .inl ⟨hcalls, hres, hs, .inl rfl⟩
  · exact .inr ⟨hcalls, rfl, hres⟩

/-- What one poll of the read comes to. -/
def OnePoll (F : FrameReader) (s : List UInt8) : Poll F.Point → Prop
  | .pending p f => f.wsRead = [] ∧ f.buf = s ∧ F.resume F.start f.buf = .wait p
  | .ready (.ok (a, bytes)) f => F.resume F.start s = .done bytes.length a ∧
      bytes ++ (f.buf ++ bytesOf f.wsRead) = s
  | .ready (.error _) _ => True

theorem onePoll_fillBuf (hF : F.Lawful) {p : F.Point} {buf : List UInt8}
    (hp : F.resume F.start buf = .wait p) (ws : List WsMessage) (rxBytes : Nat) :
    OnePoll F (buf ++ bytesOf ws) (fillBuf F p ws buf rxBytes) := by
  rcases hpoll : fillBuf F p ws buf rxBytes with ⟨q, f⟩ | ⟨_ | ⟨a, bytes⟩, f⟩
  · exact fillBuf_pending hF hp hpoll
  · trivial
  · exact fillBuf_ok hF hp hpoll

theorem onePoll_startRead (hF : F.Lawful) (f : WasmFramed) :
    OnePoll F (f.buf ++ bytesOf f.wsRead) (startRead F f) := by
  unfold startRead
  split
  · exact onePoll_fillBuf hF ‹_› _ _
  · rename_i n a hdone
    have hn := hF.done_le hdone
    simp only [OnePoll, List.length_take, Nat.min_eq_left hn]
    exact ⟨hF.done hdone _, by rw [← List.append_assoc, List.take_append_drop]⟩
  · trivial

theorem OneRead.settle {out : Poll F.Point} (hcalls : t.calls = [F])
    (hres : t.results = []) (hout : OnePoll F s out) : OneRead F s (t.settle F out) := by
  rcases out with ⟨p, f⟩ | ⟨_ | ⟨a, bytes⟩, f⟩
  · obtain ⟨hws, hbuf, hp⟩ := hout
    refine .inl ⟨hcalls, hres, ?_, .inr ⟨p, rfl, hp⟩⟩
    rw [ReadTask.settle, hws, hbuf]
    exact (List.append_nil s).symm
  · refine .inr ⟨by rw [ReadTask.settle, hcalls]; rfl, rfl, fun a bytes hmem => ?_⟩
    simp [ReadTask.settle, hres] at hmem
  · refine .inr ⟨by rw [ReadTask.settle, hcalls]; rfl, rfl, fun a' bytes' hmem => ?_⟩
    simp only [ReadTask.settle, hres, List.nil_append, List.mem_singleton,
      Except.ok.injEq, Prod.mk.injEq] at hmem
    obtain ⟨rfl, rfl⟩ := hmem
    exact hout

theorem OneRead.poll (hF : F.Lawful) (h : OneRead F s t) : OneRead F s (t.step .poll) := by
  rcases h with ⟨hcalls, hres, rfl, hpend | ⟨p, hpend, hp⟩⟩ | ⟨hcalls, hpend, hres⟩
  · rw [ReadTask.step, hpend, hcalls]
    exact .settle hcalls hres (onePoll_startRead hF _)
  · rw [ReadTask.step, hpend]
    exact .settle hcalls hres (onePoll_fillBuf hF hp _ _)
  · rw [ReadTask.step, hpend, hcalls]
    exact .inr ⟨hcalls, hpend, hres⟩

theorem arrivedBytes_cons (ev : TaskEvent) (evs : List TaskEvent) :
    arrivedBytes (ev :: evs) = arrivedBytes [ev] ++ arrivedBytes evs := by
  simp [arrivedBytes]

theorem OneRead.run (hF : F.Lawful) {evs : List TaskEvent} (h : OneRead F s t) :
    OneRead F (s ++ arrivedBytes evs) (t.run evs) := by
  induction evs generalizing s t with
  | nil => simpa [arrivedBytes, ReadTask.run] using h
  | cons ev evs ih =>
    rw [arrivedBytes_cons, ← List.append_assoc, ReadTask.run, List.foldl_cons, ← ReadTask.run]
    refine ih ?_
    cases ev with
    | arrive m =>
      have hm := h.arrive hF m
      cases m with
      | bytes => exact hm
      | text => exact hm
      | error => exact hm
      | closed => exact hm
    | poll => simpa [arrivedBytes] using h.poll hF
    | drop => simpa [arrivedBytes] using h.drop

/-- What one read returns, in any run, is what the reader finds at the front
of all bytes that arrived, and the rest of them is still there. -/
theorem ok_of_run (hF : F.Lawful) {evs : List TaskEvent} {a : Option Action}
    {bytes : List UInt8} (h : .ok (a, bytes) ∈ ((start [F]).run evs).results) :
    F.resume F.start (arrivedBytes evs) = .done bytes.length a ∧
      bytes ++ (((start [F]).run evs).framed.buf ++
        bytesOf ((start [F]).run evs).framed.wsRead) = arrivedBytes evs := by
  have hrun : OneRead F ([] ++ arrivedBytes evs) ((start [F]).run evs) := OneRead.start.run hF
  rw [List.nil_append] at hrun
  rcases hrun with ⟨-, hres, -⟩ | ⟨-, -, hres⟩
  · rw [hres] at h
    cases h
  · exact hres a bytes h

/-- Bytes that arrive at once, for a read that needs some. -/
theorem run_at_once (hF : F.Lawful) {bytes : List UInt8} {p : F.Point} {n : Nat}
    {a : Option Action} (hwait : F.resume F.start [] = .wait p)
    (hdone : F.resume F.start bytes = .done n a) :
    ((start [F]).run [.arrive (.bytes bytes), .poll]).results =
      [.ok (a, bytes.take n)] := by
  have hresume : F.resume p bytes = .done n a := (hF.wait hwait bytes).trans hdone
  simp [ReadTask.run, ReadTask.start, onFramed, ReadTask.step, startRead, hwait,
    fillBuf, hresume, ReadTask.settle]

end

end ReadTask

/-! ## The header -/

/-- The number that big-endian bytes stand for. -/
def fromBe (octets : List UInt8) : Nat := octets.foldl (fun n b => n * 256 + b.toNat) 0

/-- The length of a header with the tag of a sequence and a definite length,
and the length that it gives: one byte below 0x80, or as many as the low bits
of the first say. -/
def berHeader : List UInt8 → Option (Nat × Nat)
  | tag :: first :: rest =>
    if tag ≠ 0x30 then none
    else if first.toNat < 0x80 then some (2, first.toNat)
    else
      let k := first.toNat - 0x80
      if 0 < k ∧ k ≤ rest.length then some (2 + k, fromBe (rest.take k)) else none
  | _ => none

theorem fromBe_concat (octets : List UInt8) (b : UInt8) :
    fromBe (octets ++ [b]) = fromBe octets * 256 + b.toNat := by
  simp [fromBe]

/-- Shifting in a byte, in 32 bits. -/
theorem shift_in (n : Nat) (b : UInt8) :
    ((n % 2 ^ 32) <<< 8) % 2 ^ 32 ||| b.toNat = (n * 256 + b.toNat) % 2 ^ 32 := by
  have hb := b.toNat_lt
  have hcut : ((n % 2 ^ 32) <<< 8) % 2 ^ 32 = (n % 2 ^ 24) <<< 8 := by
    simp only [Nat.shiftLeft_eq]
    omega
  rw [hcut, ← Nat.shiftLeft_add_eq_or_of_lt (by omega), Nat.shiftLeft_eq]
  omega

/-- The loop computes the length modulo `2 ^ 32`. -/
theorem berLength_eq {tag first : UInt8} {rest : List UInt8} {k : Nat}
    (hk : k ≤ rest.length) :
    berLength (tag :: first :: rest) k = fromBe (rest.take k) % 2 ^ 32 := by
  induction k with
  | zero => rfl
  | succ k ih =>
    have hbyte : rest.take (k + 1) = rest.take k ++ [rest.getD k 0] := by
      rw [List.take_succ_eq_append_getElem hk, List.getD_eq_getElem]
    have hloop : berLength (tag :: first :: rest) (k + 1) =
        (berLength (tag :: first :: rest) k <<< 8) % 2 ^ 32 ||| (rest.getD k 0).toNat := by
      rw [berLength, List.range_succ, List.foldl_append]
      simp [berLength, Nat.add_comm 2]
    rw [hloop, ih (by omega), shift_in, hbyte, fromBe_concat]

theorem high_bit_clear_iff (b : UInt8) : b &&& 0x80 = 0 ↔ b.toNat < 0x80 := by
  have h : ∀ n : Fin 256, UInt8.ofNat n &&& 0x80 = 0 ↔ n.val < 0x80 := by decide +kernel
  simpa using h ⟨b.toNat, b.toNat_lt⟩

theorem low_bits (b : UInt8) (hb : 0x80 ≤ b.toNat) : (b &&& 0x7F).toNat = b.toNat - 0x80 := by
  have hlt := b.toNat_lt
  rw [UInt8.toNat_and]
  change b.toNat &&& 2 ^ 7 - 1 = _
  rw [Nat.and_two_pow_sub_one_eq_mod]
  omega

/-- The two forms of a header. -/
theorem berHeader_cases {s : List UInt8} {h v : Nat} (hs : berHeader s = some (h, v)) :
    ∃ first rest, s = 0x30 :: first :: rest ∧
      ((first.toNat < 0x80 ∧ h = 2 ∧ v = first.toNat) ∨
        ∃ k, first.toNat = 0x80 + k ∧ k ≤ rest.length ∧ h = 2 + k ∧
          v = fromBe (rest.take k)) := by
  rcases s with _ | ⟨tag, _ | ⟨first, rest⟩⟩
  · simp [berHeader] at hs
  · simp [berHeader] at hs
  · by_cases htag : tag = 0x30
    · subst htag
      refine ⟨first, rest, rfl, ?_⟩
      by_cases hshort : first.toNat < 0x80
      · simp only [berHeader, ne_eq, not_true_eq_false, if_false, hshort, if_true,
          Option.some.injEq, Prod.mk.injEq] at hs
        exact .inl ⟨hshort, hs.1.symm, hs.2.symm⟩
      · simp only [berHeader, ne_eq, not_true_eq_false, if_false, hshort] at hs
        split at hs
        · rename_i hk
          simp only [Option.some.injEq, Prod.mk.injEq] at hs
          exact .inr ⟨_, by omega, hk.2, hs.1.symm, hs.2.symm⟩
        · cases hs
    · simp [berHeader, htag] at hs

/-- The read waits for the sum of the two lengths in 32 bits. -/
theorem resume_of_berHeader {s : List UInt8} {h v : Nat}
    (hs : berHeader s = some (h, v)) :
    readCredsspResponse.resume .header s = resumeTsBody ((h + v) % 2 ^ 32) s := by
  obtain ⟨first, rest, rfl, hform⟩ := berHeader_cases hs
  have hlen : ¬ (0x30 :: first :: rest).length < 2 := by simp
  change resumeTsHeader (0x30 :: first :: rest) = _
  rw [resumeTsHeader, if_neg hlen, if_neg (by simp)]
  change (if first &&& 0x80 = 0 then resumeTsBody (2 + first.toNat) _
    else resumeTsLength (first &&& 0x7F).toNat _) = _
  rcases hform with ⟨hshort, rfl, rfl⟩ | ⟨k, hfirst, hk, rfl, rfl⟩
  · rw [if_pos ((high_bit_clear_iff first).mpr hshort), Nat.mod_eq_of_lt (by omega)]
  · have hbits : (first &&& 0x7F).toNat = k := by
      rw [low_bits first (by omega)]
      omega
    rw [if_neg (mt (high_bit_clear_iff first).mp (by omega)),
      hbits, resumeTsLength, if_neg (by simp; omega),
      berLength_eq hk, Nat.add_mod_mod]

/-! ## The read -/

/-- In every run in which the bytes `s` arrive, in whatever chunks and with
whatever else, the read returns the header and its contents and leaves the
rest, or returns no bytes. -/
def TakesOneTlv (s : List UInt8) (h v : Nat) : Prop :=
  ∀ evs, arrivedBytes evs = s → ∀ a bytes,
    let t := (ReadTask.start [readCredsspResponse]).run evs
    .ok (a, bytes) ∈ t.results →
      bytes.length = h + v ∧ bytes ++ (t.framed.buf ++ bytesOf t.framed.wsRead) = s

theorem resumeTsBody_done {n m : Nat} {buf : List UInt8} {a : Option Action}
    (h : resumeTsBody n buf = .done m a) : m = n := by
  unfold resumeTsBody at h
  split at h
  · cases h
  · cases h
    rfl

/-- For every stream that starts with a sequence of a definite length: exactly
one TLV is taken exactly when header and contents are together shorter than
`2 ^ 32`, or fewer bytes arrive than the sum of their lengths in 32 bits. -/
theorem takesOneTlv_iff {s : List UInt8} {h v : Nat} (hs : berHeader s = some (h, v)) :
    TakesOneTlv s h v ↔ h + v < 2 ^ 32 ∨ s.length < (h + v) % 2 ^ 32 := by
  have hresume := resume_of_berHeader hs
  constructor
  · intro htakes
    by_contra hwrap
    obtain ⟨hbig, hroom⟩ := not_or.mp hwrap
    have hdone : readCredsspResponse.resume .header s =
        .done ((h + v) % 2 ^ 32) none := by
      rw [hresume, resumeTsBody, if_neg hroom]
      rfl
    have hrun := ReadTask.run_at_once lawful_readCredsspResponse
      (show readCredsspResponse.resume .header [] = .wait .header from rfl) hdone
    obtain ⟨hlen, -⟩ := htakes [.arrive (.bytes s), .poll] (by simp [arrivedBytes])
      none (s.take ((h + v) % 2 ^ 32)) (by rw [hrun]; exact List.mem_singleton_self _)
    rw [List.length_take] at hlen
    omega
  · rintro hfits evs rfl a bytes t hmem
    obtain ⟨hdone, hall⟩ := ReadTask.ok_of_run lawful_readCredsspResponse hmem
    refine ⟨?_, hall⟩
    have hlawful : readCredsspResponse.Lawful := lawful_readCredsspResponse
    have hle := hlawful.done_le hdone
    have hlen := resumeTsBody_done (hresume.symm.trans hdone)
    rcases hfits with hsmall | hshort
    · rw [hlen, Nat.mod_eq_of_lt hsmall]
    · omega

/-- A length in the long form, with bytes after the contents. -/
theorem takesOneTlv_iff_long :
    TakesOneTlv [0x30, 0x82, 0, 3, 7, 8, 9, 0x30] 4 3 ↔
      4 + 3 < 2 ^ 32 ∨ [0x30, 0x82, 0, 3, 7, 8, 9, 0x30].length < (4 + 3) % 2 ^ 32 := by
  have hheader : berHeader [0x30, 0x82, 0, 3, 7, 8, 9, 0x30] = some (4, 3) := by decide
  exact takesOneTlv_iff hheader

/-- A length of `2 ^ 32` in five octets: the header is returned as the whole
response. -/
theorem not_takesOneTlv_wrapped :
    berHeader [0x30, 0x85, 1, 0, 0, 0, 0] = some (7, 2 ^ 32) ∧
      ¬ TakesOneTlv [0x30, 0x85, 1, 0, 0, 0, 0] 7 (2 ^ 32) := by
  refine ⟨by decide, fun htakes => ?_⟩
  obtain ⟨hlen, -⟩ := htakes [.arrive (.bytes [0x30, 0x85, 1, 0, 0, 0, 0]), .poll] rfl
    none [0x30, 0x85, 1, 0, 0, 0, 0] (by
      rw [ReadTask.run_at_once lawful_readCredsspResponse
        (show readCredsspResponse.resume .header [] = .wait .header from rfl)
        (show readCredsspResponse.resume .header [0x30, 0x85, 1, 0, 0, 0, 0] =
          .done 7 none by rfl)]
      exact List.mem_singleton_self _)
  exact absurd hlen (by decide)

end WasmRdp
