import WasmRdp.TlsReady

/-!
# Which certificates the client decodes

`parse_tls_ready` and `hex_decode` (`wasm/src/session.rs`) over any text. The
slices of `hex_decode` are two bytes long whatever the characters are, and
`from_str_radix` takes a sign, so that neither half of "bytes or an error, and
bytes only of digits" holds of every text. `decodesHex_iff` says of which
texts both do.

The parser looks for words and quotes and knows no JSON, so that its result is
described by the first occurrences of these (`parseTlsReady_eq_some_iff`); the
string that it finds is the text up to the next quote
(`split_at_quote`). What the string should denote is a relation of its own,
`Denotes`, of two digits for each byte.

Decoding goes slice by slice, and three things can happen to a slice. It is
taken, which two digits are, and a plus sign in front of one digit as well
(`Taken`); it is refused, when its characters are whole and make no number; or
it cuts a character, and the source panics. `Stops` says that a refused slice
comes before any that is cut. So the condition on a text is that its string
has an odd number of bytes, which is refused at once, or has digits only, or
stops the decoding so. `not_decodesHex` shows both ways to fail.
-/

namespace WasmRdp

/-! ## What the text says -/

/-- `rest` follows the first occurrence of `pat`. -/
def FirstAfter (pat text rest : List Char) : Prop :=
  ∃ before, text = before ++ (pat ++ rest) ∧ ∀ n < before.length, ¬ pat <+: text.drop n

theorem firstAfter_of_starts {pat rest' : List Char} {c : Char} {cs : List Char}
    (h : pat <+: c :: cs) :
    FirstAfter pat (c :: cs) rest' ↔ (c :: cs).drop pat.length = rest' := by
  obtain ⟨rest, hrest⟩ := h
  constructor
  · rintro ⟨before, htext, hfirst⟩
    have hbefore : before = [] := by
      by_contra hne
      exact hfirst 0 (List.length_pos_iff.mpr hne) ⟨rest, hrest⟩
    rw [htext, hbefore, List.nil_append, List.drop_left]
  · intro hdrop
    rw [← hrest, List.drop_left] at hdrop
    exact ⟨[], by rw [← hrest, hdrop, List.nil_append], fun n hn => absurd hn (Nat.not_lt_zero n)⟩

theorem firstAfter_cons {pat rest : List Char} {c : Char} {cs : List Char}
    (h : ¬ pat <+: c :: cs) : FirstAfter pat (c :: cs) rest ↔ FirstAfter pat cs rest := by
  constructor
  · rintro ⟨before, htext, hfirst⟩
    cases before with
    | nil => exact absurd ⟨rest, htext.symm⟩ h
    | cons b before =>
        obtain ⟨-, hcs⟩ := List.cons.inj htext
        refine ⟨before, hcs, fun n hn => ?_⟩
        have hnot := hfirst (n + 1) (Nat.succ_lt_succ hn)
        rwa [List.drop_succ_cons] at hnot
  · rintro ⟨before, hcs, hfirst⟩
    refine ⟨c :: before, by rw [hcs, List.cons_append], fun n hn => ?_⟩
    cases n with
    | zero => exact h
    | succ n =>
        rw [List.drop_succ_cons]
        exact hfirst n (Nat.lt_of_succ_lt_succ hn)

theorem afterFirst_eq_some_iff {pat : List Char} (hpat : pat ≠ []) {text rest : List Char} :
    afterFirst pat text = some rest ↔ FirstAfter pat text rest := by
  induction text with
  | nil =>
      rw [afterFirst, if_neg (by rwa [List.isEmpty_iff])]
      constructor
      · intro h
        cases h
      · rintro ⟨before, htext, -⟩
        obtain ⟨-, hnil⟩ := List.append_eq_nil_iff.mp htext.symm
        exact absurd (List.append_eq_nil_iff.mp hnil).1 hpat
  | cons c cs ih =>
      rw [afterFirst]
      by_cases hstarts : pat <+: c :: cs
      · rw [if_pos (List.isPrefixOf_iff_prefix.mpr hstarts), Option.some.injEq,
          firstAfter_of_starts hstarts]
      · rw [if_neg (mt List.isPrefixOf_iff_prefix.mp hstarts), ih,
          firstAfter_cons hstarts]

theorem afterFirst_isNone_iff {pat : List Char} (hpat : pat ≠ []) {text : List Char} :
    (afterFirst pat text).isNone ↔ ¬ pat <:+: text := by
  induction text with
  | nil =>
      rw [afterFirst, if_neg (by rwa [List.isEmpty_iff])]
      exact ⟨fun _ h => hpat (List.infix_nil.mp h), fun _ => rfl⟩
  | cons c cs ih =>
      rw [afterFirst, List.infix_cons_iff]
      by_cases hstarts : pat <+: c :: cs
      · rw [if_pos (List.isPrefixOf_iff_prefix.mpr hstarts)]
        simp [hstarts]
      · rw [if_neg (mt List.isPrefixOf_iff_prefix.mp hstarts), ih]
        exact ⟨fun h => not_or.mpr ⟨hstarts, h⟩, fun h => (not_or.mp h).2⟩

/-- The `server_cert` string of a text that names `tls_ready`. -/
def ServerCert (text s : List Char) : Prop :=
  "tls_ready".toList <:+: text ∧
    ∃ after, FirstAfter "\x22server_cert\x22:\x22".toList text (s ++ '\x22' :: after) ∧
      '\x22' ∉ s

theorem takeWhile_quote {s after : List Char} (hs : '\x22' ∉ s) :
    (s ++ '\x22' :: after).takeWhile (· ≠ '\x22') = s := by
  rw [List.takeWhile_append_of_pos]
  · exact List.append_nil s
  · intro c hc
    exact decide_eq_true fun heq => hs (heq ▸ hc)

/-- The text up to the first quote. -/
theorem split_at_quote {rest : List Char} (h : '\x22' ∈ rest) :
    ∃ s after, rest = s ++ '\x22' :: after ∧ '\x22' ∉ s := by
  obtain ⟨s, after, hrest, hs⟩ := List.eq_append_cons_of_mem h
  exact ⟨s, after, hrest, hs⟩

theorem parseTlsReady_eq_some_iff {text s : List Char} :
    parseTlsReady text = some s ↔ ServerCert text s := by
  have hname : "tls_ready".toList ≠ [] := by decide
  have hmarker : "\x22server_cert\x22:\x22".toList ≠ [] := by decide
  rw [parseTlsReady, ServerCert]
  by_cases hready : "tls_ready".toList <:+: text
  · rw [if_neg (by rwa [afterFirst_isNone_iff hname, not_not])]
    constructor
    · intro h
      split at h
      · cases h
      · rename_i rest hrest
        split_ifs at h with hquote
        obtain ⟨s', after, rfl, hs'⟩ := split_at_quote hquote
        rw [takeWhile_quote hs', Option.some.injEq] at h
        subst h
        exact ⟨hready, after, (afterFirst_eq_some_iff hmarker).mp hrest, hs'⟩
    · rintro ⟨-, after, hrest, hs⟩
      rw [(afterFirst_eq_some_iff hmarker).mpr hrest]
      dsimp only
      rw [if_pos (by simp), takeWhile_quote hs]
  · rw [if_pos ((afterFirst_isNone_iff hname).mpr hready)]
    constructor
    · intro h
      cases h
    · exact fun h => absurd h.1 hready

/-! ## What the digits denote -/

/-- `0`-`9`, `a`-`f` or `A`-`F`. -/
def IsHex (c : Char) : Prop :=
  ('0' ≤ c ∧ c ≤ '9') ∨ ('a' ≤ c ∧ c ≤ 'f') ∨ ('A' ≤ c ∧ c ≤ 'F')

/-- Two digits for each byte. -/
inductive Denotes : List Char → List UInt8 → Prop where
  | nil : Denotes [] []
  | pair {c d : Char} {hi lo : Nat} {rest : List Char} {bytes : List UInt8} :
      toDigit c = some hi → toDigit d = some lo → Denotes rest bytes →
      Denotes (c :: d :: rest) (UInt8.ofNat (16 * hi + lo) :: bytes)

theorem toDigit_isSome {c : Char} : (toDigit c).isSome ↔ IsHex c := by
  unfold toDigit IsHex
  split_ifs with h₁ h₂ h₃ <;> simp [*]

theorem exists_toDigit {c : Char} (h : IsHex c) : ∃ n, toDigit c = some n :=
  Option.isSome_iff_exists.mp (toDigit_isSome.mpr h)

theorem isHex_of_toDigit {c : Char} {n : Nat} (h : toDigit c = some n) : IsHex c :=
  toDigit_isSome.mp (Option.isSome_of_eq_some h)

theorem utf8Size_of_isHex {c : Char} (h : IsHex c) : c.utf8Size = 1 := by
  rw [Char.utf8Size_eq_one_iff]
  rcases h with ⟨-, hle⟩ | ⟨-, hle⟩ | ⟨-, hle⟩
  all_goals exact UInt32.le_trans hle (by decide)

theorem plus_not_isHex : ¬ IsHex '+' := by
  unfold IsHex
  decide

theorem Denotes.isHex {s : List Char} {bytes : List UInt8} (h : Denotes s bytes) :
    ∀ c ∈ s, IsHex c := by
  induction h with
  | nil =>
      intro c hc
      cases hc
  | pair hhi hlo _ ih =>
      intro c hc
      rcases List.mem_cons.mp hc with rfl | hc
      · exact isHex_of_toDigit hhi
      rcases List.mem_cons.mp hc with rfl | hc
      · exact isHex_of_toDigit hlo
      · exact ih c hc

theorem Denotes.length {s : List Char} {bytes : List UInt8} (h : Denotes s bytes) :
    s.length = 2 * bytes.length := by
  induction h with
  | nil => rfl
  | pair _ _ _ ih =>
      simp only [List.length_cons, ih]
      omega

/-! ## One slice -/

/-- A slice that `from_str_radix` takes. -/
def Taken (c d : Char) : Prop :=
  (IsHex c ∨ c = '+') ∧ IsHex d

/-- The decoding meets a slice of whole characters that is no number, before
any slice that cuts a character. -/
inductive Stops : List Char → Prop where
  | wide {c : Char} {rest : List Char} : c.utf8Size = 2 → Stops (c :: rest)
  | refused {c d : Char} {rest : List Char} :
      c.utf8Size = 1 → d.utf8Size = 1 → ¬ Taken c d → Stops (c :: d :: rest)
  | later {c d : Char} {rest : List Char} : Taken c d → Stops rest → Stops (c :: d :: rest)

theorem fromStrRadix_isSome {c d : Char} : (fromStrRadix c d).isSome ↔ Taken c d := by
  unfold fromStrRadix Taken
  by_cases hplus : c = '+'
  · rw [if_pos hplus, Option.isSome_map, toDigit_isSome]
    exact ⟨fun h => ⟨.inr hplus, h⟩, fun h => h.2⟩
  · rw [if_neg hplus, or_iff_left hplus, ← toDigit_isSome, ← toDigit_isSome]
    cases toDigit c <;> cases toDigit d <;> simp

theorem Taken.utf8Size {c d : Char} (h : Taken c d) : c.utf8Size = 1 ∧ d.utf8Size = 1 := by
  obtain ⟨hc | rfl, hd⟩ := h
  · exact ⟨utf8Size_of_isHex hc, utf8Size_of_isHex hd⟩
  · exact ⟨by decide, utf8Size_of_isHex hd⟩

theorem fromStrRadix_digits {c d : Char} {hi lo : Nat} (hc : toDigit c = some hi)
    (hd : toDigit d = some lo) : fromStrRadix c d = some (UInt8.ofNat (16 * hi + lo)) := by
  have hplus : c ≠ '+' := by
    rintro rfl
    exact plus_not_isHex (isHex_of_toDigit hc)
  rw [fromStrRadix, if_neg hplus, hc, hd]

/-! ## All slices -/

theorem hexPairs_taken {c d : Char} (h : Taken c d) (rest : List Char) :
    ∃ b, fromStrRadix c d = some b ∧
      hexPairs (c :: d :: rest) = (hexPairs rest).map (b :: ·) := by
  obtain ⟨b, hb⟩ := Option.isSome_iff_exists.mp (fromStrRadix_isSome.mpr h)
  obtain ⟨hc, hd⟩ := h.utf8Size
  refine ⟨b, hb, ?_⟩
  rw [hexPairs, if_neg (by rw [hc]; decide), if_pos ⟨hc, hd⟩, hb]

theorem hexPairs_refused {c d : Char} (hc : c.utf8Size = 1) (hd : d.utf8Size = 1)
    (h : ¬ Taken c d) (rest : List Char) : hexPairs (c :: d :: rest) = .error .invalid := by
  have hnone : fromStrRadix c d = none :=
    Option.not_isSome_iff_eq_none.mp (mt fromStrRadix_isSome.mp h)
  rw [hexPairs, if_neg (by rw [hc]; decide), if_pos ⟨hc, hd⟩, hnone]

theorem hexPairs_wide {c : Char} (hc : c.utf8Size = 2) (rest : List Char) :
    hexPairs (c :: rest) = .error .invalid := by
  cases rest with
  | nil => rw [hexPairs, if_pos hc]
  | cons d rest => rw [hexPairs, if_pos hc]

theorem map_eq_error {ε α β : Type} {x : Except ε α} {f : α → β} {e : ε} :
    x.map f = .error e ↔ x = .error e := by
  cases x <;> simp [Except.map]

theorem hexPairs_invalid_iff {s : List Char} : hexPairs s = .error .invalid ↔ Stops s := by
  constructor
  · intro h
    induction s using hexPairs.induct with
    | case1 => cases h
    | case2 c =>
        rw [hexPairs] at h
        by_cases hc : c.utf8Size = 2
        · exact .wide hc
        · rw [if_neg hc] at h
          cases h
    | case3 c d rest hc => exact .wide hc
    | case4 c d rest _ hsize hnone =>
        refine .refused hsize.1 hsize.2 fun htaken => ?_
        rw [← fromStrRadix_isSome, hnone] at htaken
        cases htaken
    | case5 c d rest _ hsize b hb ih =>
        have htaken : Taken c d :=
          fromStrRadix_isSome.mp (Option.isSome_of_eq_some hb)
        obtain ⟨b', -, hpairs⟩ := hexPairs_taken htaken rest
        rw [hpairs, map_eq_error] at h
        exact .later htaken (ih h)
    | case6 c d rest hwide hsize =>
        rw [hexPairs, if_neg hwide, if_neg hsize] at h
        cases h
  · intro h
    induction h with
    | wide hc => exact hexPairs_wide hc _
    | refused hc hd hnot => exact hexPairs_refused hc hd hnot _
    | later htaken _ ih =>
        obtain ⟨b, -, hpairs⟩ := hexPairs_taken htaken _
        rw [hpairs, map_eq_error]
        exact ih

theorem hexPairs_ne_oddLength (s : List Char) : hexPairs s ≠ .error .oddLength := by
  induction s using hexPairs.induct with
  | case1 =>
      intro h
      cases h
  | case2 c =>
      rw [hexPairs]
      split_ifs <;> simp
  | case3 c d rest hc =>
      rw [hexPairs_wide hc]
      simp
  | case4 c d rest hwide hsize hnone =>
      rw [hexPairs, if_neg hwide, if_pos hsize, hnone]
      simp
  | case5 c d rest hwide hsize b hb ih =>
      rw [hexPairs, if_neg hwide, if_pos hsize, hb]
      exact mt map_eq_error.mp ih
  | case6 c d rest hwide hsize =>
      rw [hexPairs, if_neg hwide, if_neg hsize]
      simp

/-- Digits decode to what they denote. -/
theorem Denotes.hexPairs {s : List Char} {bytes : List UInt8} (h : Denotes s bytes) :
    hexPairs s = .ok bytes := by
  induction h with
  | nil => rfl
  | pair hhi hlo _ ih =>
      have htaken : Taken _ _ := ⟨.inl (isHex_of_toDigit hhi), isHex_of_toDigit hlo⟩
      obtain ⟨b, hb, hpairs⟩ := hexPairs_taken htaken _
      rw [fromStrRadix_digits hhi hlo, Option.some.injEq] at hb
      rw [hpairs, ih, hb]
      rfl

/-- Every string of an even number of bytes that has digits only denotes
some. -/
theorem exists_denotes {s : List Char} (hs : ∀ c ∈ s, IsHex c)
    (heven : (s.map Char.utf8Size).sum % 2 = 0) : ∃ bytes, Denotes s bytes := by
  induction s using hexPairs.induct with
  | case1 => exact ⟨[], .nil⟩
  | case2 c =>
      have hc := utf8Size_of_isHex (hs c List.mem_cons_self)
      rw [List.map_singleton, List.sum_singleton, hc] at heven
      exact absurd heven (by decide)
  | case3 c d rest hc =>
      have hone := utf8Size_of_isHex (hs c List.mem_cons_self)
      omega
  | case4 c d rest _ _ hnone =>
      have htaken : Taken c d := ⟨.inl (hs c (by simp)), hs d (by simp)⟩
      rw [← fromStrRadix_isSome, hnone] at htaken
      cases htaken
  | case5 c d rest _ hsize b _ ih =>
      rw [List.map_cons, List.map_cons, List.sum_cons, List.sum_cons, hsize.1, hsize.2] at heven
      obtain ⟨bytes, hbytes⟩ := ih (fun x hx => hs x (by simp [hx])) (by omega)
      obtain ⟨hi, hhi⟩ := exists_toDigit (hs c (by simp))
      obtain ⟨lo, hlo⟩ := exists_toDigit (hs d (by simp))
      exact ⟨_, .pair hhi hlo hbytes⟩
  | case6 c d rest _ hsize =>
      exact absurd ⟨utf8Size_of_isHex (hs c (by simp)), utf8Size_of_isHex (hs d (by simp))⟩ hsize

/-! ## The message as a whole -/

/-- Bytes or an error: no slice is cut inside a character, and bytes are what
the digits of the `server_cert` string denote. -/
def DecodesHex (text : String) : Prop :=
  readTlsReady text ≠ some (.error .notCharBoundary) ∧
    ∀ bytes, readTlsReady text = some (.ok bytes) →
      ∃ s, ServerCert text.toList s ∧ Denotes s bytes

theorem readTlsReady_of_serverCert {text : String} {s : List Char}
    (h : ServerCert text.toList s) : readTlsReady text = some (hexDecode s) := by
  rw [readTlsReady, parseTlsReady_eq_some_iff.mpr h, Option.map_some]

theorem serverCert_unique {text s s' : List Char} (h : ServerCert text s)
    (h' : ServerCert text s') : s = s' := by
  rw [← parseTlsReady_eq_some_iff] at h h'
  exact Option.some.inj (h.symm.trans h')

theorem decodesHex_of_no_cert {text : String} (h : ∀ s, ¬ ServerCert text.toList s) :
    DecodesHex text := by
  have hnone : readTlsReady text = none := by
    rw [readTlsReady, Option.map_eq_none_iff, Option.eq_none_iff_forall_ne_some]
    exact fun s hs => h s (parseTlsReady_eq_some_iff.mp hs)
  simp [DecodesHex, hnone]

theorem decodesHex_iff_of_cert {text : String} {s : List Char} (h : ServerCert text.toList s) :
    DecodesHex text ↔
      hexDecode s ≠ .error .notCharBoundary ∧
        ∀ bytes, hexDecode s = .ok bytes → Denotes s bytes := by
  rw [DecodesHex, readTlsReady_of_serverCert h]
  simp only [ne_eq, Option.some.injEq]
  refine and_congr_right fun _ => forall_congr' fun bytes => imp_congr_right fun _ => ?_
  constructor
  · rintro ⟨s', hs', hbytes⟩
    rwa [serverCert_unique h hs']
  · exact fun hbytes => ⟨s, h, hbytes⟩

theorem hexDecode_of_even {s : List Char} (heven : (s.map Char.utf8Size).sum % 2 = 0) :
    hexDecode s = hexPairs s := by
  rw [hexDecode, if_neg (not_not_intro heven)]

/-- What `hex_decode` makes of one string. -/
theorem hexDecode_iff {s : List Char} :
    (hexDecode s ≠ .error .notCharBoundary ∧ ∀ bytes, hexDecode s = .ok bytes → Denotes s bytes) ↔
      (s.map Char.utf8Size).sum % 2 = 1 ∨ (∀ c ∈ s, IsHex c) ∨ Stops s := by
  rcases Nat.mod_two_eq_zero_or_one (s.map Char.utf8Size).sum with heven | hodd
  swap
  · rw [hexDecode, if_pos (by rw [hodd]; decide)]
    simp [hodd]
  rw [hexDecode_of_even heven]
  constructor
  · rintro ⟨hcut, hok⟩
    right
    cases hs : hexPairs s with
    | ok bytes => exact .inl (hok bytes hs).isHex
    | error e =>
        cases e with
        | invalid => exact .inr (hexPairs_invalid_iff.mp hs)
        | oddLength => exact absurd hs (hexPairs_ne_oddLength s)
        | notCharBoundary => exact absurd hs hcut
  · rintro (hodd | hhex | hstops)
    · omega
    · obtain ⟨bytes, hbytes⟩ := exists_denotes hhex heven
      simp [hbytes.hexPairs, hbytes]
    · simp [hexPairs_invalid_iff.mpr hstops]

/-- The client decodes digits and digits only, and cuts no character, exactly
of the texts whose `server_cert` string has an odd number of bytes, has digits
only, or stops the decoding at whole characters. -/
theorem decodesHex_iff (text : String) :
    DecodesHex text ↔ ∀ s, ServerCert text.toList s →
      (s.map Char.utf8Size).sum % 2 = 1 ∨ (∀ c ∈ s, IsHex c) ∨ Stops s := by
  by_cases hcert : ∃ s, ServerCert text.toList s
  · obtain ⟨s, hs⟩ := hcert
    rw [decodesHex_iff_of_cert hs, hexDecode_iff]
    constructor
    · intro h s' hs'
      rwa [← serverCert_unique hs hs']
    · exact fun h => h s hs
  · rw [not_exists] at hcert
    exact ⟨fun _ s hs => absurd hs (hcert s), fun _ => decodesHex_of_no_cert hcert⟩

/-- A sign before a digit is decoded, and a character of two bytes after one of
one byte is cut. -/
theorem not_decodesHex :
    ¬ DecodesHex "\x7b\x22cmd\x22:\x22tls_ready\x22,\x22server_cert\x22:\x22+a\x22\x7d" ∧
      ¬ DecodesHex "\x7b\x22cmd\x22:\x22tls_ready\x22,\x22server_cert\x22:\x22aéb\x22\x7d" := by
  constructor
  · intro h
    obtain ⟨s, hs, hbytes⟩ := h.2 [10] (by rfl)
    have hplus : parseTlsReady
        "\x7b\x22cmd\x22:\x22tls_ready\x22,\x22server_cert\x22:\x22+a\x22\x7d".toList =
        some ['+', 'a'] := by rfl
    rw [serverCert_unique hs (parseTlsReady_eq_some_iff.mp hplus)] at hbytes
    exact plus_not_isHex (hbytes.isHex '+' List.mem_cons_self)
  · intro h
    exact h.1 (by rfl)

end WasmRdp
