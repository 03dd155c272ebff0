import Mathlib.Data.List.GetD

/-!
# Incremental framers

A `Framer` reads one frame off the front of a buffer that grows while it
waits: `resume p buf` runs from await point `p` to the next one, to a
finished frame or to a failure. Its reader may be dropped at an await point
and started again.

A framer is lawful when neither matters: what is found in a buffer is found
in every extension of it, and resuming where one waits is starting again.
Failures are the exception, since a failure may tell of the buffer that it was
found in, or be one that a longer buffer would not have led to. How much of
them is to be the same is the `view` of `LawfulUpTo`: what the view shows of a
failure is shown in every extension, and a failure that it does not show is
promised nothing. `Lawful` shows all.

- The rules `Stable.gate`, `Stable.body` and `Stable.const_fail` prove the law
  from the shape "wait for `n` elements, then decide"; `Stable.wait_or` is the
  one they rest on.
- What a sequence of lawful framers finds in a stream is the function `frames`
  of the stream, with one rule for each way a framer ends.
- `seen` is what the view shows of a list of outcomes, up to the first that it
  does not show. It splits at every list that is shown as a whole
  (`seen_append`), which is how a run is compared with `frames`.
-/

namespace Framing

variable {β α ε η P : Type}

/-- How a run from one await point ends. -/
inductive Step (P α ε : Type) where
  | wait (p : P)
  /-- A frame of `n` elements. -/
  | done (n : Nat) (a : α)
  | fail (e : ε)

structure Framer (β α ε : Type) where
  Point : Type
  start : Point
  resume : Point → List β → Step Point α ε

/-! ## Laws -/

/-- The verdict of `g` on a buffer is its verdict on every extension, as far as
`view` shows a failure; where it waits, `resume` goes on as `g` would from the
beginning. -/
structure Stable (view : ε → Option η) (resume : P → List β → Step P α ε)
    (g : List β → Step P α ε) : Prop where
  wait : ∀ {buf p}, g buf = .wait p → ∀ more,
    resume p (buf ++ more) = g (buf ++ more)
  done_le : ∀ {buf n a}, g buf = .done n a → n ≤ buf.length
  done : ∀ {buf n a}, g buf = .done n a → ∀ more, g (buf ++ more) = .done n a
  fail : ∀ {buf e x}, g buf = .fail e → view e = some x → ∀ more,
    ∃ e', g (buf ++ more) = .fail e' ∧ view e' = some x

def Framer.LawfulUpTo (view : ε → Option η) (F : Framer β α ε) : Prop :=
  Stable view F.resume (F.resume F.start)

abbrev Framer.Lawful (F : Framer β α ε) : Prop := F.LawfulUpTo some

section Rules

variable {view : ε → Option η} {resume : P → List β → Step P α ε}

/-- Wait for `n` elements and take them. -/
theorem Stable.body {p : P} {n : Nat} {a : α}
    (hp : ∀ buf, resume p buf = if buf.length < n then .wait p else .done n a) :
    Stable view resume (resume p) := by
  refine ⟨fun {buf q} h more => ?_, fun {buf m b} h => ?_,
    fun {buf m b} h more => ?_, fun {buf e x} h => ?_⟩ <;> rw [hp] at h <;>
    split at h <;> cases h
  · rfl
  · omega
  · rw [hp, if_neg (by rw [List.length_append]; omega)]

/-- A failure of which the view shows the same for every buffer. -/
theorem Stable.fails {f : List β → ε} (hf : ∀ buf buf', view (f buf) = view (f buf')) :
    Stable view resume fun buf => .fail (f buf) := by
  refine ⟨fun h => (nomatch h), fun h => (nomatch h), fun h => (nomatch h), ?_⟩
  intro buf e x h hx more
  cases h
  exact ⟨_, rfl, (hf _ _).trans hx⟩

theorem Stable.const_fail (e : ε) : Stable view resume fun _ => .fail e :=
  Stable.fails fun _ _ => rfl

/-- On every buffer `resume p` waits at `p`, or fails in a way that the view does
not show, or is stable from there on. -/
theorem Stable.wait_or {p : P}
    (hp : ∀ buf, resume p buf = .wait p ∨ (∃ e, resume p buf = .fail e ∧ view e = none) ∨
      ∃ g, Stable view resume g ∧ ∀ more, resume p (buf ++ more) = g (buf ++ more)) :
    Stable view resume (resume p) := by
  have hpast : ∀ {buf}, resume p buf ≠ .wait p →
      (∀ e, resume p buf = .fail e → view e ≠ none) →
      ∃ g, Stable view resume g ∧ resume p buf = g buf ∧
        ∀ more, resume p (buf ++ more) = g (buf ++ more) := by
    intro buf hwait hshown
    obtain hwaits | ⟨e, he, hview⟩ | ⟨g, hg, hmore⟩ := hp buf
    · exact absurd hwaits hwait
    · exact absurd hview (hshown e he)
    · have hnil := hmore []
      rw [List.append_nil] at hnil
      exact ⟨g, hg, hnil, hmore⟩
  refine ⟨fun {buf q} h more => ?_, fun {buf n a} h => ?_,
    fun {buf n a} h more => ?_, fun {buf e x} h hx more => ?_⟩
  · by_cases hwait : resume p buf = .wait p
    · obtain rfl := Step.wait.inj (h.symm.trans hwait)
      rfl
    · obtain ⟨g, hg, hbuf, hmore⟩ := hpast hwait (by rw [h]; exact nofun)
      rw [hmore]
      exact hg.wait (hbuf.symm.trans h) more
  · obtain ⟨g, hg, hbuf, -⟩ := @hpast buf (by rw [h]; exact nofun) (by rw [h]; exact nofun)
    exact hg.done_le (hbuf.symm.trans h)
  · obtain ⟨g, hg, hbuf, hmore⟩ := @hpast buf (by rw [h]; exact nofun) (by rw [h]; exact nofun)
    rw [hmore]
    exact hg.done (hbuf.symm.trans h) more
  · have hshown : ∀ e', resume p buf = .fail e' → view e' ≠ none := by
      intro e' he' hnone
      cases h.symm.trans he'
      rw [hx] at hnone
      cases hnone
    obtain ⟨g, hg, hbuf, hmore⟩ := hpast (by rw [h]; exact nofun) hshown
    rw [hmore]
    exact hg.fail (hbuf.symm.trans h) hx more

/-- Wait for `n` elements and go on with `k`. On the extensions of any one
long enough buffer, `k` has to be stable. -/
theorem Stable.gate {p : P} {n : Nat} {k : List β → Step P α ε}
    (hp : ∀ buf, resume p buf = if buf.length < n then .wait p else k buf)
    (hk : ∀ buf, n ≤ buf.length →
      ∃ g, Stable view resume g ∧ ∀ more, k (buf ++ more) = g (buf ++ more)) :
    Stable view resume (resume p) := by
  refine Stable.wait_or fun buf => ?_
  by_cases hlen : buf.length < n
  · exact .inl (by rw [hp, if_pos hlen])
  · obtain ⟨g, hg, hmore⟩ := hk buf (by omega)
    refine .inr (.inr ⟨g, hg, fun more => ?_⟩)
    rw [hp, if_neg (by rw [List.length_append]; omega), hmore]

end Rules

/-! ## What framers find in a stream -/

/-- A frame with what was read from its header, or a failure. -/
abbrev Outcome (β α ε : Type) := Except ε (α × List β)

def payload : Outcome β α ε → List β
  | .ok (_, bytes) => bytes
  | .error _ => []

/-- The outcomes of one framer after another on a stream, as far as it
reaches. A failure consumes nothing. -/
def frames : List (Framer β α ε) → List β → List (Outcome β α ε)
  | [], _ => []
  | F :: Fs, s =>
      match F.resume F.start s with
      | .wait _ => []
      | .done n a => .ok (a, s.take n) :: frames Fs (s.drop n)
      | .fail e => .error e :: frames Fs s

/-- What the view shows of the outcomes, up to the first that it does not show. -/
def seen (view : ε → Option η) : List (Outcome β α ε) → List (Outcome β α η)
  | [] => []
  | .ok frame :: rs => .ok frame :: seen view rs
  | .error e :: rs =>
      match view e with
      | some x => .error x :: seen view rs
      | none => []

/-- The view shows all of the outcomes. -/
def shown (view : ε → Option η) (rs : List (Outcome β α ε)) : Bool :=
  rs.all fun
    | .ok _ => true
    | .error e => (view e).isSome

section

variable {view : ε → Option η} {rs rs' : List (Outcome β α ε)}

theorem shown_append : shown view (rs ++ rs') = (shown view rs && shown view rs') :=
  List.all_append

theorem shown_of_isSome (h : ∀ e, (view e).isSome) : shown view rs := by
  rw [shown, List.all_eq_true]
  intro r _
  cases r with
  | error e => exact h e
  | ok frame => rfl

/-- What comes after outcomes is seen exactly if these are all shown. -/
theorem seen_append :
    seen view (rs ++ rs') = seen view rs ++ if shown view rs then seen view rs' else [] := by
  induction rs with
  | nil => rfl
  | cons r rs ih =>
      cases r with
      | ok frame =>
          rw [List.cons_append, seen, seen, ih]
          rfl
      | error e =>
          rw [List.cons_append, seen, seen]
          cases hview : view e with
          | none => simp [shown, hview]
          | some x =>
              have hcons : shown view (.error e :: rs) = shown view rs := by
                simp [shown, hview]
              rw [hcons, ih]
              rfl

theorem seen_append_of_shown (h : shown view rs) :
    seen view (rs ++ rs') = seen view rs ++ seen view rs' := by
  rw [seen_append, if_pos h]

theorem seen_append_of_not_shown (h : ¬ shown view rs) :
    seen view (rs ++ rs') = seen view rs := by
  rw [seen_append, if_neg h, List.append_nil]

theorem seen_prefix_append : seen view rs <+: seen view (rs ++ rs') := by
  rw [seen_append]
  exact List.prefix_append ..

/-- An outcome after which not all is shown adds nothing. -/
theorem seen_concat_of_not_shown {r : Outcome β α ε} (h : ¬ shown view (rs ++ [r])) :
    seen view (rs ++ [r]) = seen view rs := by
  by_cases hshown : shown view rs
  · rw [seen_append_of_shown hshown]
    cases r with
    | ok frame => exact absurd (by rw [shown_append, hshown]; rfl) h
    | error e =>
        cases hview : view e with
        | none => rw [seen, hview, List.append_nil]
        | some x =>
            rw [shown_append, hshown, Bool.true_and] at h
            simp [shown, hview] at h
  · exact seen_append_of_not_shown hshown

theorem seen_some (rs : List (Outcome β α ε)) : seen some rs = rs := by
  induction rs with
  | nil => rfl
  | cons r rs ih => cases r <;> rw [seen, ih]

end

variable {view : ε → Option η} {F : Framer β α ε} {Fs : List (Framer β α ε)}

theorem frames_of_wait {s : List β} {p : F.Point}
    (h : F.resume F.start s = .wait p) : frames (F :: Fs) s = [] := by
  rw [frames, h]

theorem frames_of_done (hF : F.LawfulUpTo view) {buf : List β} {n : Nat} {a : α}
    (h : F.resume F.start buf = .done n a) (more : List β) :
    frames (F :: Fs) (buf ++ more) =
      .ok (a, buf.take n) :: frames Fs (buf.drop n ++ more) := by
  have hn := hF.done_le h
  rw [frames, hF.done h more]
  dsimp only
  rw [List.take_append_of_le_length hn, List.drop_append_of_le_length hn]

/-- A failure is the same to the view in every extension. -/
theorem seen_frames_of_fail (hF : F.LawfulUpTo view) {buf : List β} {e : ε} {x : η}
    (h : F.resume F.start buf = .fail e) (hx : view e = some x) (more : List β) :
    seen view (frames (F :: Fs) (buf ++ more)) =
      .error x :: seen view (frames Fs (buf ++ more)) := by
  obtain ⟨e', he', hx'⟩ := hF.fail h hx more
  rw [frames, he', seen, hx']

end Framing
