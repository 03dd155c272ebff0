import WasmRdp.Lib.Utf16

/-!
# JSON texts

The grammar of JSON as a parser. A string is a sequence of UTF-16 units, as
it is to a script that reads the text: what a character stands for, and what
an escape names. Of a number only its text is kept.

`decode` takes a text that is one value with white space around it. The calls
of `value`, `elements` and `members` are bounded by a number, of which each
character is good for two; the bound is a device of the definition, which the
lemmas carry along with one call less on their right side.

Reading a text that was put together from parts is a rewriting. A string is
read one character or one escape at a time (`string_plain`,
`string_escaped`, up to `string_quote`), the values of an array and the
members of an object one after the other (`elements_comma`,
`members_comma`). What cannot be read has its lemma too: a character that a
string may not hold as it is makes the string fail (`string_control`), and
with it every value around it (`members_none`).
-/

namespace JsonText

open Utf16

inductive Value where
  | null
  | bool (b : Bool)
  | number (text : List Char)
  | string (units : List UInt16)
  | array (items : List Value)
  | object (members : List (List UInt16 × Value))

/-! ## Strings -/

/-- A character that a string may not hold as it is. -/
def isControl (c : Char) : Bool := c.toNat < 0x20

def hexDigit (c : Char) : Option Nat :=
  if '0' ≤ c ∧ c ≤ '9' then some (c.toNat - '0'.toNat)
  else if 'a' ≤ c ∧ c ≤ 'f' then some (c.toNat - 'a'.toNat + 10)
  else if 'A' ≤ c ∧ c ≤ 'F' then some (c.toNat - 'A'.toNat + 10)
  else none

/-- The character that an escape of two characters names. -/
def escaped (c : Char) : Option Char :=
  if c = '"' ∨ c = '\\' ∨ c = '/' then some c
  else if c = 'b' then some '\x08'
  else if c = 'f' then some '\x0c'
  else if c = 'n' then some '\n'
  else if c = 'r' then some '\r'
  else if c = 't' then some '\t'
  else none

/-- Puts units in front of the string that was read. -/
def withUnits (units : List UInt16) (read : Option (List UInt16 × List Char)) :
    Option (List UInt16 × List Char) :=
  read.map fun r => (units ++ r.1, r.2)

/-- A string behind its opening quote, and the text behind its closing one. -/
def string : List Char → Option (List UInt16 × List Char)
  | [] => none
  | c :: s =>
      if c = '"' then some ([], s)
      else if c = '\\' then
        match s with
        | [] => none
        | e :: s =>
            if e = 'u' then
              match s with
              | h₃ :: h₂ :: h₁ :: h₀ :: s => do
                  let d₃ ← hexDigit h₃
                  let d₂ ← hexDigit h₂
                  let d₁ ← hexDigit h₁
                  let d₀ ← hexDigit h₀
                  withUnits [UInt16.ofNat (((d₃ * 16 + d₂) * 16 + d₁) * 16 + d₀)] (string s)
              | _ => none
            else (escaped e).bind fun c => withUnits (encodeChar c) (string s)
      else if isControl c then none
      else withUnits (encodeChar c) (string s)

theorem string_quote (s : List Char) : string ('"' :: s) = some ([], s) := by
  rw [string.eq_def]
  rfl

theorem string_plain {c : Char} (hquote : c ≠ '"') (hslash : c ≠ '\\')
    (hcontrol : isControl c = false) (s : List Char) :
    string (c :: s) = withUnits (encodeChar c) (string s) := by
  rw [string.eq_def]
  simp [hquote, hslash, hcontrol]

theorem string_control {c : Char} (hcontrol : isControl c = true) (s : List Char) :
    string (c :: s) = none := by
  have hquote : c ≠ '"' := by
    rintro rfl
    cases hcontrol
  have hslash : c ≠ '\\' := by
    rintro rfl
    cases hcontrol
  rw [string.eq_def]
  simp [hquote, hslash, hcontrol]

/-- A quote or a backslash behind a backslash. -/
theorem string_escaped {c : Char} (h : c = '"' ∨ c = '\\') (s : List Char) :
    string ('\\' :: c :: s) = withUnits (encodeChar c) (string s) := by
  rw [string.eq_def]
  rcases h with rfl | rfl <;> rfl

/-! ## Numbers -/

/-- Some digits, at least one. -/
def digits (s : List Char) : Option (List Char × List Char) :=
  let (ds, s) := s.span Char.isDigit
  if ds = [] then none else some (ds, s)

/-- The digits in front of the point: no zero in front of others. -/
def integer : List Char → Option (List Char × List Char)
  | '0' :: s => some (['0'], s)
  | s => digits s

def fraction : List Char → Option (List Char × List Char)
  | '.' :: s => (digits s).map fun r => ('.' :: r.1, r.2)
  | s => some ([], s)

def exponent : List Char → Option (List Char × List Char)
  | [] => some ([], [])
  | c :: s =>
      if c = 'e' ∨ c = 'E' then
        match s with
        | '+' :: s => (digits s).map fun r => (c :: '+' :: r.1, r.2)
        | '-' :: s => (digits s).map fun r => (c :: '-' :: r.1, r.2)
        | s => (digits s).map fun r => (c :: r.1, r.2)
      else some ([], c :: s)

def unsigned (s : List Char) : Option (List Char × List Char) := do
  let (i, s) ← integer s
  let (f, s) ← fraction s
  let (e, s) ← exponent s
  return (i ++ f ++ e, s)

def number : List Char → Option (List Char × List Char)
  | '-' :: s => (unsigned s).map fun r => ('-' :: r.1, r.2)
  | s => unsigned s

/-! ## Values -/

def isWs (c : Char) : Bool := c = ' ' || c = '\t' || c = '\n' || c = '\r'

def skipWs (s : List Char) : List Char := s.dropWhile isWs

/-- A literal name. -/
def word (text : List Char) (v : Value) (s : List Char) : Option (Value × List Char) :=
  if text.isPrefixOf s then some (v, s.drop text.length) else none

mutual

/-- A value; the number bounds the depth of the calls. -/
def value : Nat → List Char → Option (Value × List Char)
  | 0, _ => none
  | fuel + 1, s =>
      match skipWs s with
      | [] => none
      | c :: s =>
          if c = '"' then (string s).map fun r => (.string r.1, r.2)
          else if c = '[' then
            match skipWs s with
            | ']' :: s => some (.array [], s)
            | s => (elements fuel s).map fun r => (.array r.1, r.2)
          else if c = '\x7b' then
            match skipWs s with
            | '\x7d' :: s => some (.object [], s)
            | s => (members fuel s).map fun r => (.object r.1, r.2)
          else if c = 't' then word ['t', 'r', 'u', 'e'] (.bool true) (c :: s)
          else if c = 'f' then word ['f', 'a', 'l', 's', 'e'] (.bool false) (c :: s)
          else if c = 'n' then word ['n', 'u', 'l', 'l'] .null (c :: s)
          else (number (c :: s)).map fun r => (.number r.1, r.2)

/-- The values of an array, up to its closing bracket. -/
def elements : Nat → List Char → Option (List Value × List Char)
  | 0, _ => none
  | fuel + 1, s =>
      (value fuel s).bind fun (v, s) =>
        match skipWs s with
        | ',' :: s => (elements fuel s).map fun r => (v :: r.1, r.2)
        | ']' :: s => some ([v], s)
        | _ => none

/-- The members of an object, up to its closing brace. -/
def members : Nat → List Char → Option (List (List UInt16 × Value) × List Char)
  | 0, _ => none
  | fuel + 1, s =>
      match skipWs s with
      | '"' :: s =>
          (string s).bind fun (key, s) =>
            match skipWs s with
            | ':' :: s =>
                (value fuel s).bind fun (v, s) =>
                  match skipWs s with
                  | ',' :: s => (members fuel s).map fun r => ((key, v) :: r.1, r.2)
                  | '\x7d' :: s => some ([(key, v)], s)
                  | _ => none
            | _ => none
      | _ => none

end

/-- A text is one value, with white space around it. Each character is good
for two calls. -/
def decode (s : List Char) : Option Value :=
  (value (2 * s.length + 2) s).bind fun (v, s) => if skipWs s = [] then some v else none

/-! ## One value after the other -/

theorem value_text (fuel : Nat) (s : List Char) :
    value (fuel + 1) ('"' :: s) = (string s).map fun r => (.string r.1, r.2) := rfl

theorem value_object (fuel : Nat) (s : List Char) :
    value (fuel + 1) ('\x7b' :: '"' :: s) =
      (members fuel ('"' :: s)).map fun r => (.object r.1, r.2) := rfl

theorem value_objects (fuel : Nat) (s : List Char) :
    value (fuel + 1) ('[' :: '\x7b' :: s) =
      (elements fuel ('\x7b' :: s)).map fun r => (.array r.1, r.2) := rfl

theorem elements_none {fuel : Nat} {s : List Char} (h : value fuel s = none) :
    elements (fuel + 1) s = none := by
  rw [elements, h, Option.bind_none]

theorem elements_comma {fuel : Nat} {s t : List Char} {v : Value}
    (h : value fuel s = some (v, ',' :: t)) :
    elements (fuel + 1) s = (elements fuel t).map fun r => (v :: r.1, r.2) := by
  rw [elements, h, Option.bind_some]
  rfl

theorem elements_close {fuel : Nat} {s t : List Char} {v : Value}
    (h : value fuel s = some (v, ']' :: t)) : elements (fuel + 1) s = some ([v], t) := by
  rw [elements, h, Option.bind_some]
  rfl

/-- A member whose value should be a string. -/
theorem members_none {fuel : Nat} {s t : List Char} {key : List UInt16}
    (hkey : string s = some (key, ':' :: '"' :: t)) (ht : string t = none) :
    members (fuel + 2) ('"' :: s) = none := by
  change (string s).bind _ = none
  rw [hkey, Option.bind_some]
  change (value (fuel + 1) ('"' :: t)).bind _ = none
  rw [value_text, ht, Option.map_none, Option.bind_none]

theorem members_comma {fuel : Nat} {s t r : List Char} {key units : List UInt16}
    (hkey : string s = some (key, ':' :: '"' :: t)) (ht : string t = some (units, ',' :: r)) :
    members (fuel + 2) ('"' :: s) =
      (members (fuel + 1) r).map fun m => ((key, .string units) :: m.1, m.2) := by
  change (string s).bind _ = _
  rw [hkey, Option.bind_some]
  change (value (fuel + 1) ('"' :: t)).bind _ = _
  rw [value_text, ht, Option.map_some, Option.bind_some]
  rfl

theorem members_close {fuel : Nat} {s t r : List Char} {key units : List UInt16}
    (hkey : string s = some (key, ':' :: '"' :: t)) (ht : string t = some (units, '\x7d' :: r)) :
    members (fuel + 2) ('"' :: s) = some ([(key, .string units)], r) := by
  change (string s).bind _ = _
  rw [hkey, Option.bind_some]
  change (value (fuel + 1) ('"' :: t)).bind _ = _
  rw [value_text, ht, Option.map_some, Option.bind_some]
  rfl

end JsonText
