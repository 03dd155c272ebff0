import Mathlib.Data.List.Basic

/-!
# The code of a script

What of a script lies outside its string literals. The lexer knows literals
between double quotes, and code that begins no comment and no other kind of
literal; it gives up on anything else, and on a literal that a line end cuts
off. The line ends of a page are normalized before a script is read, so that
none is two characters.

Two scripts with the same code differ in the contents of their literals only,
so a text that was put between quotes has stayed a literal when the code of
the script is what it would be with any other text. `codeOf_open`,
`codeOf_inside`, `codeOf_escape` and `codeOf_close` walk along one literal,
and `codeOf_append` puts the code of two pieces together, the second lexed in
the mode that the first ends in.
-/

namespace ScriptCode

inductive Mode where
  | code
  | literal
  | escape

def isPlain (c : Char) : Bool :=
  c.isAlphanum || ['_', ' ', '.', '=', ';', ',', ':', '[', ']', '\x7b', '\x7d'].contains c

def isLineEnd (c : Char) : Bool := c = '\n' || c = '\r'

/-- The characters outside the string literals, with the quotes. -/
def codeOf : Mode → List Char → Option (List Char)
  | .code, [] => some []
  | .literal, [] => none
  | .escape, [] => none
  | .code, c :: s =>
      if c = '"' then (codeOf .literal s).map (c :: ·)
      else if isPlain c then (codeOf .code s).map (c :: ·)
      else none
  | .literal, c :: s =>
      if c = '"' then (codeOf .code s).map (c :: ·)
      else if c = '\\' then codeOf .escape s
      else if isLineEnd c then none
      else codeOf .literal s
  | .escape, _ :: s => codeOf .literal s

theorem codeOf_append {code : List Char} (h : ∀ c ∈ code, isPlain c = true) (s : List Char) :
    codeOf .code (code ++ s) = (codeOf .code s).map (code ++ ·) := by
  induction code with
  | nil => simp
  | cons c code ih =>
      have hc := h c List.mem_cons_self
      have hquote : c ≠ '"' := by
        rintro rfl
        cases hc
      rw [List.cons_append, codeOf, if_neg hquote, if_pos hc,
        ih fun c hc => h c (List.mem_cons_of_mem _ hc), Option.map_map]
      rfl

theorem codeOf_open (s : List Char) :
    codeOf .code ('"' :: s) = (codeOf .literal s).map ('"' :: ·) := rfl

theorem codeOf_close (s : List Char) :
    codeOf .literal ('"' :: s) = (codeOf .code s).map ('"' :: ·) := rfl

theorem codeOf_escape (c : Char) (s : List Char) :
    codeOf .literal ('\\' :: c :: s) = codeOf .literal s := rfl

theorem codeOf_inside {c : Char} (hquote : c ≠ '"') (hslash : c ≠ '\\') (s : List Char) :
    codeOf .literal (c :: s) = if isLineEnd c then none else codeOf .literal s := by
  rw [codeOf, if_neg hquote, if_neg hslash]

end ScriptCode
