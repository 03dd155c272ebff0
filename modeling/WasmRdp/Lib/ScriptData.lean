import Mathlib.Data.List.Basic

/-!
# Script data

How a browser finds the end of a script element: the states of the HTML
tokenizer between `<script>` and the end tag, with the sections that `<!--`
opens ("escaped") and those that `<script` opens inside these ("double
escaped"), where an end tag does not count. The text between is what the
element holds.

A character that is neither markup nor part of a name takes every state to
the ground of its section (`step_ground`). Where such a character stands
between two texts, what the first leaves matters to the second only through
its section. `readAll` reads a list of texts so (`readAll_append`,
`readAll_ground`), whatever the `Inert` characters between them are.

The end tag is either completed in the first of two parts or is looked for
behind it, from the state that the first part leaves (`endAt_append`). What it
does depends on the section alone: outside a double escaped one it ends the
element, inside one it ends the section (`endAt_endTag`).

`scriptText_iff` puts these together. A text that ends on the ground is what
the element holds exactly when no end tag is completed within it and it
leaves the element open to its own end tag, that is, does not leave it in a
double escaped section.
-/

namespace ScriptData

/-- The tokenizer's states, under the names of the standard. A name that is
being read is kept in lower case. -/
inductive State where
  | data
  | lessThan
  | endTagOpen
  | endTagName (name : List Char)
  | escapeStart
  | escapeStartDash
  | escaped
  | escapedDash
  | escapedDashDash
  | escapedLessThan
  | escapedEndTagOpen
  | escapedEndTagName (name : List Char)
  | doubleEscapeStart (name : List Char)
  | doubleEscaped
  | doubleEscapedDash
  | doubleEscapedDashDash
  | doubleEscapedLessThan
  | doubleEscapeEnd (name : List Char)
  deriving DecidableEq

def tagName : List Char := ['s', 'c', 'r', 'i', 'p', 't']

/-- What ends a tag's name. The line ends of a page are normalized first, so
that a carriage return is one. -/
def isDelimiter (c : Char) : Bool :=
  c = '\t' || c = '\n' || c = '\x0c' || c = '\r' || c = ' ' || c = '/' || c = '>'

namespace State

/-- Where a section's text goes on. -/
def ground : State → State
  | data | lessThan | endTagOpen | endTagName _ | escapeStart | escapeStartDash => data
  | escaped | escapedDash | escapedDashDash | escapedLessThan | escapedEndTagOpen
  | escapedEndTagName _ | doubleEscapeStart _ => escaped
  | doubleEscaped | doubleEscapedDash | doubleEscapedDashDash | doubleEscapedLessThan
  | doubleEscapeEnd _ => doubleEscaped

/-- A character from the ground of a section. -/
def reconsume (q : State) (c : Char) : State :=
  match q.ground with
  | escaped => if c = '-' then escapedDash else if c = '<' then escapedLessThan else escaped
  | doubleEscaped =>
      if c = '-' then doubleEscapedDash else if c = '<' then doubleEscapedLessThan
      else doubleEscaped
  | _ => if c = '<' then lessThan else data

end State

open State

/-- One character; none if it completes the start of the element's end tag. -/
def step (q : State) (c : Char) : Option State :=
  match q with
  | lessThan =>
      if c = '/' then some endTagOpen
      else if c = '!' then some escapeStart
      else some (q.reconsume c)
  | endTagOpen => if c.isAlpha then some (endTagName [c.toLower]) else some (q.reconsume c)
  | endTagName name =>
      if c.isAlpha then some (endTagName (name ++ [c.toLower]))
      else if isDelimiter c ∧ name = tagName then none
      else some (q.reconsume c)
  | escapeStart => if c = '-' then some escapeStartDash else some (q.reconsume c)
  | escapeStartDash => if c = '-' then some escapedDashDash else some (q.reconsume c)
  | escapedDash => if c = '-' then some escapedDashDash else some (q.reconsume c)
  | escapedDashDash =>
      if c = '-' then some escapedDashDash
      else if c = '>' then some data
      else some (q.reconsume c)
  | escapedLessThan =>
      if c = '/' then some escapedEndTagOpen
      else if c.isAlpha then some (doubleEscapeStart [c.toLower])
      else some (q.reconsume c)
  | escapedEndTagOpen =>
      if c.isAlpha then some (escapedEndTagName [c.toLower]) else some (q.reconsume c)
  | escapedEndTagName name =>
      if c.isAlpha then some (escapedEndTagName (name ++ [c.toLower]))
      else if isDelimiter c ∧ name = tagName then none
      else some (q.reconsume c)
  | doubleEscapeStart name =>
      if c.isAlpha then some (doubleEscapeStart (name ++ [c.toLower]))
      else if isDelimiter c ∧ name = tagName then some doubleEscaped
      else some (q.reconsume c)
  | doubleEscapedDash => if c = '-' then some doubleEscapedDashDash else some (q.reconsume c)
  | doubleEscapedDashDash =>
      if c = '-' then some doubleEscapedDashDash
      else if c = '>' then some data
      else some (q.reconsume c)
  | doubleEscapedLessThan =>
      if c = '/' then some (doubleEscapeEnd []) else some (q.reconsume c)
  | doubleEscapeEnd name =>
      if c.isAlpha then some (doubleEscapeEnd (name ++ [c.toLower]))
      else if isDelimiter c ∧ name = tagName then some escaped
      else some (q.reconsume c)
  | q => some (q.reconsume c)

/-- Some text inside the element. -/
def run (q : State) (s : List Char) : Option State := s.foldlM step q

/-- How many characters stand in front of the one that completes the start of
the end tag. -/
def endAt : State → List Char → Option Nat
  | _, [] => none
  | q, c :: s =>
      match step q c with
      | none => some 0
      | some q => (endAt q s).map (· + 1)

/-- What a script element holds, from the text behind its start tag. -/
def scriptText (s : List Char) : Option (List Char) :=
  (endAt data s).map fun n => s.take (n - ('<' :: '/' :: tagName).length)

def endTag : List Char := '<' :: '/' :: tagName ++ ['>']

/-- Some texts, one after the other, with something in between that takes
every state to its ground. -/
def readAll (q : State) (texts : List (List Char)) : Option State :=
  texts.foldlM (fun q s => (run q s).map ground) q

/-! ## The ground -/

theorem ground_ground (q : State) : q.ground.ground = q.ground := by
  cases q <;> rfl

theorem reconsume_ground (q : State) (c : Char) : q.ground.reconsume c = q.reconsume c := by
  rw [reconsume, reconsume, ground_ground]

/-- Without `<` and `-` the text stays on its ground. -/
theorem reconsume_of_ne {c : Char} (hlt : c ≠ '<') (hdash : c ≠ '-') (q : State) :
    q.reconsume c = q.ground := by
  cases q <;> simp [reconsume, ground, hlt, hdash]

theorem step_of_ground (q : State) (c : Char) : step q.ground c = some (q.reconsume c) := by
  rw [← reconsume_ground]
  cases q <;> rfl

/-- A character that is no part of any markup. -/
structure Inert (c : Char) : Prop where
  lt : c ≠ '<'
  dash : c ≠ '-'
  slash : c ≠ '/'
  bang : c ≠ '!'
  gt : c ≠ '>'
  alpha : c.isAlpha = false
  delimiter : isDelimiter c = false

theorem step_ground {c : Char} (h : Inert c) (q : State) : step q c = some q.ground := by
  have hground := reconsume_of_ne h.lt h.dash q
  cases q <;> simp [step, h.dash, h.slash, h.bang, h.gt, h.alpha, h.delimiter, hground]

@[simp] theorem run_nil (q : State) : run q [] = some q := rfl

theorem run_cons (q : State) (c : Char) (s : List Char) :
    run q (c :: s) = (step q c).bind fun q => run q s := rfl

theorem run_append (q : State) (s t : List Char) :
    run q (s ++ t) = (run q s).bind fun q => run q t := List.foldlM_append

theorem run_ground {s : List Char} (h : ∀ c ∈ s, c ≠ '<' ∧ c ≠ '-') (q : State) :
    run q.ground s = some q.ground := by
  induction s with
  | nil => rfl
  | cons c s ih =>
      obtain ⟨hlt, hdash⟩ := h c List.mem_cons_self
      rw [run_cons, step_of_ground, reconsume_of_ne hlt hdash, Option.bind_some]
      exact ih fun c hc => h c (List.mem_cons_of_mem _ hc)

theorem readAll_append (q : State) (ss ts : List (List Char)) :
    readAll q (ss ++ ts) = (readAll q ss).bind fun q => readAll q ts := List.foldlM_append

theorem readAll_ground {q q' : State} {ss : List (List Char)} (hq : q.ground = q)
    (h : readAll q ss = some q') : q'.ground = q' := by
  rcases List.eq_nil_or_concat' ss with rfl | ⟨ss, s, rfl⟩
  · obtain rfl := Option.some.inj h
    exact hq
  · rw [readAll_append, Option.bind_eq_some_iff] at h
    obtain ⟨q₁, -, h⟩ := h
    obtain ⟨q₂, hq₂, hlast⟩ := Option.bind_eq_some_iff.mp h
    obtain rfl := Option.some.inj hlast
    obtain ⟨q₃, -, rfl⟩ := Option.map_eq_some_iff.mp hq₂
    exact ground_ground q₃

/-! ## The end of the element -/

theorem endAt_lt {q : State} {s : List Char} {n : Nat} (h : endAt q s = some n) :
    n < s.length := by
  induction s generalizing q n with
  | nil => cases h
  | cons c s ih =>
      rw [endAt] at h
      split at h
      · cases h
        exact Nat.zero_lt_succ _
      · obtain ⟨m, hm, rfl⟩ := Option.map_eq_some_iff.mp h
        exact Nat.succ_lt_succ (ih hm)

/-- The end tag is in the first part, or is looked for behind it. -/
theorem endAt_append (q : State) (s t : List Char) :
    (run q s = none ∧ ∃ n < s.length, endAt q (s ++ t) = some n) ∨
      ∃ q', run q s = some q' ∧ endAt q (s ++ t) = (endAt q' t).map (· + s.length) := by
  induction s generalizing q with
  | nil => exact .inr ⟨q, rfl, by simp⟩
  | cons c s ih =>
      rw [run_cons, List.cons_append, endAt]
      cases step q c with
      | none => exact .inl ⟨rfl, 0, Nat.zero_lt_succ _, rfl⟩
      | some q₁ =>
          rcases ih q₁ with ⟨hnone, n, hn, hend⟩ | ⟨q', hrun, hend⟩
          · exact .inl ⟨hnone, n + 1, Nat.succ_lt_succ hn, by simp [hend]⟩
          · refine .inr ⟨q', hrun, ?_⟩
            simp [hend, Function.comp_def, Nat.add_assoc]

/-- Outside a double escaped section the end tag ends the element, and inside
one it ends the section. -/
theorem endAt_endTag (rest : List Char) :
    endAt data (endTag ++ rest) = some 8 ∧ endAt escaped (endTag ++ rest) = some 8 ∧
      endAt doubleEscaped (endTag ++ rest) = (endAt escaped rest).map (· + 9) := by
  refine ⟨rfl, rfl, ?_⟩
  have hrun : run doubleEscaped endTag = some escaped := rfl
  rcases endAt_append doubleEscaped endTag rest with ⟨hnone, -⟩ | ⟨q, hq, hend⟩
  · cases hnone
  · obtain rfl := Option.some.inj (hrun.symm.trans hq)
    exact hend

/-- A text on the ground is what the element holds exactly when it does not
close the element, and leaves it open to its own end tag. -/
theorem scriptText_iff {s : List Char} (hground : ∀ q, run data s = some q → q.ground = q)
    (rest : List Char) :
    scriptText (s ++ (endTag ++ rest)) = some s ↔ ∃ q, run data s = some q ∧ q ≠ doubleEscaped := by
  obtain ⟨hdata, hescaped, hdouble⟩ := endAt_endTag rest
  rw [scriptText, Option.map_eq_some_iff]
  rcases endAt_append data s (endTag ++ rest) with ⟨hnone, n, hn, hend⟩ | ⟨q, hrun, hend⟩
  · rw [hnone, hend]
    constructor
    · rintro ⟨m, hm, htake⟩
      obtain rfl := Option.some.inj hm
      have hlength := congrArg List.length htake
      rw [List.length_take] at hlength
      omega
    · rintro ⟨q, hq, -⟩
      cases hq
  · rw [hrun, hend]
    have hq := hground q hrun
    constructor
    · rintro ⟨m, hm, htake⟩
      refine ⟨q, rfl, ?_⟩
      rintro rfl
      rw [hdouble, Option.map_map] at hm
      obtain ⟨k, hk, rfl⟩ := Option.map_eq_some_iff.mp hm
      have hlt := endAt_lt hk
      have hlength := congrArg List.length htake
      simp only [List.length_take, List.length_append, Function.comp_apply, endTag, tagName,
        List.length_cons, List.length_nil] at hlength
      omega
    · rintro ⟨q', hq', hne⟩
      obtain rfl := Option.some.inj hq'
      refine ⟨8 + s.length, ?_, ?_⟩
      · cases q with
        | data =>
            rw [hdata]
            rfl
        | escaped =>
            rw [hescaped]
            rfl
        | doubleEscaped => exact absurd rfl hne
        | _ => cases hq
      · rw [List.take_append_of_le_length (by simp [tagName])]
        exact List.take_of_length_le (by simp [tagName])

end ScriptData
