import WasmRdp.GfxHandler
import WasmRdp.LocalClipboard

/-!
# Annex B conversion on the 32-bit target

`avc_to_annexb` once more, with the `usize` of the module's target. It writes
a start code over every length prefix that it comes to. For the units of an
access unit this gives exactly their Annex B form (`avcToAnnexb_frames`). A
corrupt length saturates at the end of the address space, where the next
position plus four wraps, and the loop reads out of range
(`annexBExact_iff`).

Where the loop goes is determined by the lengths in the data alone:
`lengthPrefixes` is the walk by them, and `JumpsFit` says that no jump of it
ends within the last four addresses. The loop writes only behind itself, so
that the lengths which it reads later are those of the data (`Ahead`).

The proof goes through the same loop with unbounded positions, that of
`GfxHandler`, which always comes to its end. Each turn is the same in both
while the jump fits (`avcToAnnexbFrom_front`, `unbounded_prefix`), so that the
32-bit loop does what the unbounded one does, and aborts at the first jump
that does not fit (`avcToAnnexbFrom_walk`, `jumpsFit_of_ok`). A byte string is
shorter than half the address space, so that a position behind its end stops
the loop; only one in the last four addresses comes round to the front again.
-/

namespace WasmRdp.Wasm32

open Slices

/-- `usize::saturating_add`. -/
def saturatingAdd (a b : UInt32) : UInt32 := .ofNat (min (a.toNat + b.toNat) 0xFFFFFFFF)

/-- A position that does not wrap moves forward. -/
theorem lt_saturatingAdd {pos : UInt32} (len : UInt32) (h : pos.toNat ≤ (pos + 4).toNat) :
    pos.toNat < (saturatingAdd (pos + 4) len).toNat := by
  have hadd : (pos + 4).toNat = (pos.toNat + 4) % 2 ^ 32 := UInt32.toNat_add pos 4
  have hpos := pos.toNat_lt
  rw [saturatingAdd, UInt32.toNat_ofNat']
  omega

/-- An Annex B start code. -/
def startCode : List UInt8 := [0x00, 0x00, 0x00, 0x01]

/-- The loop of `avc_to_annexb`. In a release build `pos + 4` wraps. -/
def avcToAnnexbFrom (out : List UInt8) (isKeyframe : Bool) (pos : UInt32) :
    Checked (List UInt8 × Bool) :=
  if (pos + 4).toNat ≤ out.length then do
    let b0 ← index out pos.toNat
    let b1 ← index out (pos + 1).toNat
    let b2 ← index out (pos + 2).toNat
    let b3 ← index out (pos + 3).toNat
    let len := UInt32.ofNat (fromBeBytes32 b0 b1 b2 b3)
    match _copied : copyFromSlice out pos.toNat (pos + 4).toNat startCode with
    | .error e => .error e
    | .ok out' =>
        let nalStart := pos + 4
        let isIdr ← if nalStart.toNat < out'.length then do
            let b ← index out' nalStart.toNat
            pure (b &&& 0x1F == 5)
          else pure false
        avcToAnnexbFrom out' (isKeyframe || isIdr) (saturatingAdd nalStart len)
  else return (out, isKeyframe)
termination_by 2 ^ 32 - pos.toNat
decreasing_by
  have hrange := le_of_copyFromSlice _copied
  have hnext := lt_saturatingAdd (.ofNat (fromBeBytes32 b0 b1 b2 b3)) hrange.1
  have hpos := pos.toNat_lt
  omega

/-- `avc_to_annexb`. -/
def avcToAnnexb (data : Vec32 UInt8) : Checked (List UInt8 × Bool) :=
  avcToAnnexbFrom data.val false 0

/-! ## What the loop reads -/

/-- The big-endian number at `p`. -/
def lengthAt (data : List UInt8) (p : Nat) : Nat :=
  fromBeBytes32 (data.getD p 0) (data.getD (p + 1) 0) (data.getD (p + 2) 0)
    (data.getD (p + 3) 0)

/-- The byte at `p` starts an IDR slice. -/
def idrAt (data : List UInt8) (p : Nat) : Bool :=
  p < data.length && data.getD p 0 &&& 0x1F == 5

/-- Where a walk by lengths, from position `pos` on, finds a length prefix. -/
def lengthPrefixesFrom (data : List UInt8) (pos : Nat) : List Nat :=
  if pos + 4 ≤ data.length then
    pos :: lengthPrefixesFrom data (pos + 4 + lengthAt data pos)
  else []
termination_by data.length - pos

def lengthPrefixes (data : List UInt8) : List Nat := lengthPrefixesFrom data 0

/-- Adding the length at `p` to the position behind it leaves room for four
more below `2 ^ 32`. -/
def JumpFits (data : List UInt8) (p : Nat) : Prop := p + 4 + lengthAt data p + 4 < 2 ^ 32

/-- Every jump of the walk does. -/
def JumpsFit (data : List UInt8) : Prop := ∀ p ∈ lengthPrefixes data, JumpFits data p

theorem lengthAt_lt (data : List UInt8) (p : Nat) : lengthAt data p < 2 ^ 32 := by
  have h0 := (data.getD p 0).toNat_lt
  have h1 := (data.getD (p + 1) 0).toNat_lt
  have h2 := (data.getD (p + 2) 0).toNat_lt
  have h3 := (data.getD (p + 3) 0).toNat_lt
  unfold lengthAt fromBeBytes32
  omega

/-- A position that `n` can be added to. -/
theorem toNat_add_small {pos : UInt32} {n : Nat} (h : pos.toNat + n < 2 ^ 32) :
    (pos + .ofNat n).toNat = pos.toNat + n := by
  rw [UInt32.toNat_add, UInt32.toNat_ofNat']
  omega

theorem toNat_saturatingAdd (a b : UInt32) :
    (saturatingAdd a b).toNat = min (a.toNat + b.toNat) 0xFFFFFFFF := by
  rw [saturatingAdd, UInt32.toNat_ofNat']
  omega

/-! ## One turn of the loop -/

theorem startCode_fits {out : List UInt8} {pos : Nat} (hpos : pos + 4 ≤ out.length) :
    pos + startCode.length ≤ out.length := hpos

/-- Writing the start code. -/
theorem copy_startCode {out : List UInt8} {pos : Nat} (hpos : pos + 4 ≤ out.length) :
    copyFromSlice out pos (pos + 4) startCode = .ok (splice out pos startCode) :=
  copyFromSlice_eq_ok (by omega) hpos (by simp [startCode])

/-- The byte behind the start code is still the one that was there. -/
theorem first_of_unit {β : Type} {out : List UInt8} {pos : Nat}
    (hpos : pos + 4 ≤ out.length) (go : Bool → Checked β) :
    (if pos + 4 < (splice out pos startCode).length then do
      let b ← index (splice out pos startCode) (pos + 4)
      let isIdr ← pure (b &&& 0x1F == 5)
      go isIdr
    else pure false >>= go) = go (idrAt out (pos + 4)) := by
  have hlen := length_splice (startCode_fits hpos)
  have hsame : (splice out pos startCode)[pos + 4]? = out[pos + 4]? := by
    rw [getElem?_splice (startCode_fits hpos), if_neg (by simp [startCode])]
  rw [hlen]
  by_cases hin : pos + 4 < out.length
  · rw [if_pos hin, index_eq_getD 0 (by rw [hlen]; exact hin)]
    simp [bind, Except.bind, pure, Except.pure, hsame, idrAt, hin]
  · rw [if_neg hin]
    simp [bind, Except.bind, pure, Except.pure, idrAt, hin]

/-- A whole length prefix is overwritten, and the loop goes on behind its
unit. -/
theorem avcToAnnexbFrom_front {out : List UInt8} (isKeyframe : Bool) {pos : UInt32}
    (hout : out.length < 2 ^ 31) (hpos : pos.toNat + 4 ≤ out.length) :
    avcToAnnexbFrom out isKeyframe pos =
      avcToAnnexbFrom (splice out pos.toNat startCode)
        (isKeyframe || idrAt out (pos.toNat + 4))
        (saturatingAdd (pos + 4) (.ofNat (lengthAt out pos.toNat))) := by
  have h1 : (pos + 1).toNat = pos.toNat + 1 := toNat_add_small (n := 1) (by omega)
  have h2 : (pos + 2).toNat = pos.toNat + 2 := toNat_add_small (n := 2) (by omega)
  have h3 : (pos + 3).toNat = pos.toNat + 3 := toNat_add_small (n := 3) (by omega)
  have h4 : (pos + 4).toNat = pos.toNat + 4 := toNat_add_small (n := 4) (by omega)
  have hcopy : copyFromSlice out pos.toNat (pos + 4).toNat startCode =
      .ok (splice out pos.toNat startCode) := by
    rw [h4]
    exact copy_startCode hpos
  rw [avcToAnnexbFrom, if_pos (by rw [h4]; exact hpos)]
  simp only [h1, h2, h3, h4, index_eq_getD 0 (show pos.toNat < out.length by omega),
    index_eq_getD 0 (show pos.toNat + 1 < out.length by omega),
    index_eq_getD 0 (show pos.toNat + 2 < out.length by omega),
    index_eq_getD 0 (show pos.toNat + 3 < out.length by omega), bind, Except.bind]
  split
  · rename_i e he
    rw [hcopy] at he
    cases he
  · rename_i out' hout'
    obtain rfl := Except.ok.inj (hcopy.symm.trans hout')
    exact first_of_unit hpos fun isIdr => avcToAnnexbFrom (splice out pos.toNat startCode)
      (isKeyframe || isIdr) (saturatingAdd (pos + 4) (.ofNat (lengthAt out pos.toNat)))

/-- The same turn with unbounded positions. -/
theorem unbounded_prefix {out : List UInt8} (isKeyframe : Bool) {pos : Nat}
    (hpos : pos + 4 ≤ out.length) :
    WasmRdp.avcToAnnexbFrom out isKeyframe pos =
      WasmRdp.avcToAnnexbFrom (splice out pos startCode)
        (isKeyframe || idrAt out (pos + 4)) (pos + 4 + lengthAt out pos) := by
  rw [WasmRdp.avcToAnnexbFrom, if_pos hpos]
  simp only [index_eq_getD 0 (show pos < out.length by omega),
    index_eq_getD 0 (show pos + 1 < out.length by omega),
    index_eq_getD 0 (show pos + 2 < out.length by omega),
    index_eq_getD 0 (show pos + 3 < out.length by omega), bind, Except.bind]
  split
  · rename_i e he
    rw [show [0, 0, 0, 1] = startCode from rfl, copy_startCode hpos] at he
    cases he
  · rename_i out' hout'
    obtain rfl := Except.ok.inj ((copy_startCode hpos).symm.trans hout')
    exact first_of_unit hpos fun isIdr => WasmRdp.avcToAnnexbFrom (splice out pos startCode)
      (isKeyframe || isIdr) (pos + 4 + lengthAt out pos)

/-- Without room for a length prefix the loop ends. -/
theorem avcToAnnexbFrom_end {out : List UInt8} (isKeyframe : Bool) {pos : UInt32}
    (hfit : pos.toNat + 4 < 2 ^ 32) (hend : out.length < pos.toNat + 4) :
    avcToAnnexbFrom out isKeyframe pos = .ok (out, isKeyframe) := by
  have h4 : (pos + 4).toNat = pos.toNat + 4 := toNat_add_small (n := 4) hfit
  rw [avcToAnnexbFrom, if_neg (by omega)]
  rfl

/-- At the end of the address space there is room for a length prefix, but no
byte to read. -/
theorem avcToAnnexbFrom_wrap {out : List UInt8} (isKeyframe : Bool) {pos : UInt32}
    (hout : out.length < 2 ^ 31) (hroom : 4 ≤ out.length) (hwrap : 2 ^ 32 ≤ pos.toNat + 4) :
    avcToAnnexbFrom out isKeyframe pos = .error .index := by
  have h4 : (pos + 4).toNat = (pos.toNat + 4) % 2 ^ 32 := UInt32.toNat_add pos 4
  have hpos := pos.toNat_lt
  rw [avcToAnnexbFrom, if_pos (by omega), index_eq_error (by omega)]
  rfl

/-! ## Every byte string -/

section

variable {data : List UInt8}

/-- The loop has left the tail of `data` from `start` on to its later turns. -/
structure Ahead (data out : List UInt8) (start : Nat) : Prop where
  length : out.length = data.length
  same : ∀ i, start ≤ i → out[i]? = data[i]?

theorem Ahead.lengthAt {out : List UInt8} {start : Nat} (h : Ahead data out start) :
    lengthAt out start = lengthAt data start := by
  simp only [Wasm32.lengthAt, List.getD_eq_getElem?_getD, h.same _ (Nat.le_refl _),
    h.same _ (Nat.le_add_right _ _)]

theorem Ahead.next {out : List UInt8} {start : Nat} (h : Ahead data out start)
    (hstart : start + 4 ≤ data.length) (n : Nat) :
    Ahead data (splice out start startCode) (start + 4 + n) := by
  have hfits : start + startCode.length ≤ out.length :=
    startCode_fits (hstart.trans_eq h.length.symm)
  refine ⟨(length_splice hfits).trans h.length, fun i hi => ?_⟩
  rw [getElem?_splice hfits, if_neg (by simp [startCode]; omega)]
  exact h.same i (by omega)

/-- The loop with unbounded positions reads the lengths of `data`, and writes
over their prefixes only. -/
theorem unbounded_walk (start : Nat) : ∀ (out : List UInt8) (isKeyframe : Bool),
    Ahead data out start →
    ∃ res, WasmRdp.avcToAnnexbFrom out isKeyframe start = .ok res ∧
      res.1.length = data.length ∧
      ∀ i, (∀ p ∈ lengthPrefixesFrom data start, i < p ∨ p + 4 ≤ i) →
        res.1[i]? = out[i]? := by
  induction start using lengthPrefixesFrom.induct data with
  | case1 start hstart ih =>
    intro out isKeyframe hahead
    have hpos : start + 4 ≤ out.length := hstart.trans_eq hahead.length.symm
    rw [lengthPrefixesFrom, if_pos hstart, unbounded_prefix isKeyframe hpos,
      hahead.lengthAt]
    obtain ⟨res, hres, hlen, hsame⟩ := ih (splice out start startCode)
      (isKeyframe || idrAt out (start + 4)) (hahead.next hstart _)
    refine ⟨res, hres, hlen, fun i hi => ?_⟩
    have hhere := hi _ List.mem_cons_self
    rw [hsame i fun p hp => hi p (List.mem_cons_of_mem _ hp),
      getElem?_splice (startCode_fits hpos), if_neg (by simp [startCode]; omega)]
  | case2 start hstart =>
    intro out isKeyframe hahead
    rw [WasmRdp.avcToAnnexbFrom, if_neg (by rw [hahead.length]; exact hstart)]
    exact ⟨_, rfl, hahead.length, fun _ _ => rfl⟩

/-- As long as every jump fits, the 32-bit loop does what the unbounded one
does; it aborts at the first that does not. -/
theorem avcToAnnexbFrom_walk (hdata : data.length < 2 ^ 31) (start : Nat) :
    ∀ (out : List UInt8) (isKeyframe : Bool) (pos : UInt32),
    pos.toNat = start → start + 4 < 2 ^ 32 → Ahead data out start →
    ((∀ p ∈ lengthPrefixesFrom data start, JumpFits data p) →
      avcToAnnexbFrom out isKeyframe pos =
        WasmRdp.avcToAnnexbFrom out isKeyframe start) ∧
    ((∃ p ∈ lengthPrefixesFrom data start, ¬ JumpFits data p) →
      avcToAnnexbFrom out isKeyframe pos = .error .index) := by
  induction start using lengthPrefixesFrom.induct data with
  | case1 start hstart ih =>
    rintro out isKeyframe pos rfl hfit hahead
    have hpos : pos.toNat + 4 ≤ out.length := hstart.trans_eq hahead.length.symm
    have hnext := hahead.next hstart (lengthAt data pos.toNat)
    have hout : out.length < 2 ^ 31 := hahead.length.trans_lt hdata
    have h4 : (pos + 4).toNat = pos.toNat + 4 := toNat_add_small (n := 4) hfit
    have hjump := toNat_saturatingAdd (pos + 4) (.ofNat (lengthAt data pos.toNat))
    rw [h4, UInt32.toNat_ofNat_of_lt' (lengthAt_lt data pos.toNat)] at hjump
    rw [lengthPrefixesFrom, if_pos hstart, avcToAnnexbFrom_front isKeyframe hout hpos,
      unbounded_prefix isKeyframe hpos, hahead.lengthAt]
    by_cases hfits : JumpFits data pos.toNat
    · unfold JumpFits at hfits
      obtain ⟨hok, herr⟩ := ih (splice out pos.toNat startCode)
        (isKeyframe || idrAt out (pos.toNat + 4))
        (saturatingAdd (pos + 4) (.ofNat (lengthAt data pos.toNat)))
        (by omega) (by omega) hnext
      refine ⟨fun hall => hok fun p hp => hall p (List.mem_cons_of_mem _ hp), ?_⟩
      rintro ⟨p, hp, hbad⟩
      rcases List.mem_cons.mp hp with rfl | hp
      · exact absurd hfits hbad
      · exact herr ⟨p, hp, hbad⟩
    · refine ⟨fun hall => absurd (hall _ List.mem_cons_self) hfits, fun _ => ?_⟩
      unfold JumpFits at hfits
      have hlen := hnext.length
      exact avcToAnnexbFrom_wrap _ (by omega) (by omega) (by omega)
  | case2 start hstart =>
    rintro out isKeyframe pos rfl hfit hahead
    have hend : out.length < pos.toNat + 4 := by
      rw [hahead.length]
      exact Nat.not_le.mp hstart
    rw [lengthPrefixesFrom, if_neg hstart, avcToAnnexbFrom_end isKeyframe hfit hend,
      WasmRdp.avcToAnnexbFrom, if_neg (Nat.not_le.mpr hend)]
    refine ⟨fun _ => rfl, ?_⟩
    rintro ⟨p, hp, -⟩
    cases hp

end

/-- The unbounded conversion stands for that of the target wherever every jump
fits. -/
theorem avcToAnnexb_eq_unbounded {data : Vec32 UInt8} (h : JumpsFit data.val) :
    avcToAnnexb data = WasmRdp.avcToAnnexb data.val :=
  (avcToAnnexbFrom_walk data.property 0 data.val false 0 rfl (by omega)
    ⟨rfl, fun _ _ => rfl⟩).1 h

/-- A jump that does not fit aborts. -/
theorem jumpsFit_of_ok {data : Vec32 UInt8} {res : List UInt8 × Bool}
    (hres : avcToAnnexb data = .ok res) : JumpsFit data.val := by
  by_contra hbad
  simp only [JumpsFit, not_forall] at hbad
  obtain ⟨p, hp, hbad⟩ := hbad
  have herr := (avcToAnnexbFrom_walk data.property 0 data.val false 0 rfl (by omega)
    ⟨rfl, fun _ _ => rfl⟩).2 ⟨p, hp, hbad⟩
  rw [avcToAnnexb, herr] at hres
  cases hres

/-! ## The units of an access unit -/

/-- `u32::to_be_bytes`. -/
def toBeBytes32 (n : Nat) : List UInt8 :=
  [.ofNat (n / 2 ^ 24), .ofNat (n / 2 ^ 16), .ofNat (n / 2 ^ 8), .ofNat n]

/-- Units behind their lengths. -/
def frames (units : List (List UInt8)) : List UInt8 :=
  units.flatMap fun unit => toBeBytes32 unit.length ++ unit

/-- Units behind start codes. -/
def annexB (units : List (List UInt8)) : List UInt8 :=
  units.flatMap fun unit => startCode ++ unit

/-- A unit of type 5. -/
def isIdr (unit : List UInt8) : Bool := unit.getD 0 0 &&& 0x1F == 5

theorem fromBeBytes32_toBeBytes32 {n : Nat} (h : n < 2 ^ 32) :
    fromBeBytes32 (.ofNat (n / 2 ^ 24)) (.ofNat (n / 2 ^ 16)) (.ofNat (n / 2 ^ 8))
      (.ofNat n) = n := by
  simp only [fromBeBytes32, UInt8.toNat_ofNat']
  omega

/-- The loop with the first units converted: `units` are still to come. -/
theorem avcToAnnexbFrom_frames (units : List (List UInt8)) (hne : ∀ u ∈ units, u ≠ []) :
    ∀ (done : List UInt8) (isKeyframe : Bool) (pos : UInt32),
    pos.toNat = done.length → (done ++ frames units).length < 2 ^ 31 →
    avcToAnnexbFrom (done ++ frames units) isKeyframe pos =
      .ok (done ++ annexB units, isKeyframe || units.any isIdr) := by
  induction units with
  | nil =>
    intro done isKeyframe pos hpos hlen
    simp only [frames, List.flatMap_nil, List.append_nil, annexB, List.any_nil,
      Bool.or_false] at hlen ⊢
    exact avcToAnnexbFrom_end isKeyframe (by omega) (by omega)
  | cons unit units ih =>
    intro done isKeyframe pos hpos hlen
    have hunit : unit ≠ [] := hne unit List.mem_cons_self
    have hpositive : 0 < unit.length := List.length_pos_iff.mpr hunit
    have hframes : done ++ frames (unit :: units) =
        done ++ (toBeBytes32 unit.length ++ (unit ++ frames units)) := by
      simp [frames]
    rw [hframes] at hlen ⊢
    have hall : done.length + (4 + (unit.length + (frames units).length)) < 2 ^ 31 := by
      rwa [List.length_append, List.length_append, List.length_append] at hlen
    have hlength : lengthAt (done ++ (toBeBytes32 unit.length ++ (unit ++ frames units)))
        pos.toNat = unit.length := by
      rw [hpos]
      simp only [lengthAt, toBeBytes32, List.getD_eq_getElem?_getD,
        List.getElem?_append_right (Nat.le_add_right ..),
        List.getElem?_append_right (Nat.le_refl _)]
      simpa using fromBeBytes32_toBeBytes32 (n := unit.length) (by omega)
    have hidr : idrAt (done ++ (toBeBytes32 unit.length ++ (unit ++ frames units)))
        (pos.toNat + 4) = isIdr unit := by
      rw [hpos]
      simp [idrAt, isIdr, toBeBytes32, hpositive]
    have hsplice : splice (done ++ (toBeBytes32 unit.length ++ (unit ++ frames units)))
        pos.toNat startCode = (done ++ startCode ++ unit) ++ frames units := by
      rw [hpos]
      simp [splice, startCode, toBeBytes32]
    have h4 : (pos + 4).toNat = pos.toNat + 4 := toNat_add_small (n := 4) (by omega)
    have hnext := toNat_saturatingAdd (pos + 4) (.ofNat unit.length)
    rw [h4, UInt32.toNat_ofNat_of_lt' (show unit.length < 2 ^ 32 by omega)] at hnext
    rw [avcToAnnexbFrom_front isKeyframe hlen (by simp [toBeBytes32]; omega), hlength,
      hidr, hsplice, ih (fun u hu => hne u (List.mem_cons_of_mem _ hu)) _ _ _ ?_ ?_]
    · simp [annexB, Bool.or_assoc]
    · simp [startCode]
      omega
    · simp [startCode]
      omega

/-- The conversion of the units of an access unit. -/
theorem avcToAnnexb_frames {data : Vec32 UInt8} {units : List (List UInt8)}
    (hne : ∀ u ∈ units, u ≠ []) (hdata : data.val = frames units) :
    avcToAnnexb data = .ok (annexB units, units.any isIdr) := by
  have h := avcToAnnexbFrom_frames units hne [] false 0 rfl
    (by rw [List.nil_append, ← hdata]; exact data.property)
  rwa [List.nil_append, List.nil_append, Bool.false_or, ← hdata] at h

theorem length_frames (units : List (List UInt8)) :
    (frames units).length = (annexB units).length := by
  simp [frames, annexB, toBeBytes32, startCode]

/-- Units behind their lengths are converted exactly, and of any bytes the
conversion gives as many, having changed nothing but the length prefixes. -/
structure AnnexBExact (data : Vec32 UInt8) : Prop where
  units : ∀ units : List (List UInt8), (∀ u ∈ units, u ≠ []) → data.val = frames units →
    avcToAnnexb data = .ok (annexB units, units.any isIdr) ∧
      (annexB units).length = data.val.length
  total : ∃ res, avcToAnnexb data = .ok res ∧ res.1.length = data.val.length ∧
    ∀ i, (∀ p ∈ lengthPrefixes data.val, i < p ∨ p + 4 ≤ i) → res.1[i]? = data.val[i]?

/-- For every byte string: the conversion is exact and total exactly when no
length on the way jumps to one of the last four addresses. Units behind their
lengths have no such length. -/
theorem annexBExact_iff (data : Vec32 UInt8) :
    (AnnexBExact data ↔ JumpsFit data.val) ∧
      ((∃ units : List (List UInt8), (∀ u ∈ units, u ≠ []) ∧ data.val = frames units) →
        JumpsFit data.val) := by
  refine ⟨⟨fun h => ?_, fun h => ⟨fun units hne hdata => ?_, ?_⟩⟩, ?_⟩
  · obtain ⟨res, hres, -⟩ := h.total
    exact jumpsFit_of_ok hres
  · exact ⟨avcToAnnexb_frames hne hdata, by rw [hdata, length_frames]⟩
  · rw [avcToAnnexb_eq_unbounded h]
    exact unbounded_walk 0 data.val false ⟨rfl, fun _ _ => rfl⟩
  · rintro ⟨units, hne, hdata⟩
    exact jumpsFit_of_ok (avcToAnnexb_frames hne hdata)

/-- Four bytes of 0xFF are a length that saturates. -/
theorem not_annexBExact_saturated :
    avcToAnnexb ⟨[0xFF, 0xFF, 0xFF, 0xFF], by decide⟩ = .error .index ∧
      ¬ AnnexBExact ⟨[0xFF, 0xFF, 0xFF, 0xFF], by decide⟩ := by
  have habort : avcToAnnexb ⟨[0xFF, 0xFF, 0xFF, 0xFF], by decide⟩ = .error .index := by
    rw [avcToAnnexb, avcToAnnexbFrom_front false (by decide) (by decide)]
    exact avcToAnnexbFrom_wrap _ (by decide) (by decide) (by decide)
  refine ⟨habort, fun h => ?_⟩
  obtain ⟨res, hres, -⟩ := h.total
  rw [habort] at hres
  cases hres

end WasmRdp.Wasm32
