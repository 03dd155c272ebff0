import Mathlib.Data.List.Infix

/-!
# Runs of a deterministic system

A system that takes one event after another, `step : σ → ε → σ`, and what
holds in all states of a run. `Always` speaks of the states, `Each` of the
events, each with the state that it finds. An invariant is carried along by
steps that meet a condition (`always_of_each`); where a step keeps a property
exactly when it meets the condition, the condition decides whole runs
(`always_iff_each`). What a run has written down is right entry by entry
(`Justified`).

Both notions quantify over prefixes: the state after `pre`, for every prefix
`pre` of the events, and the event behind it. `always_cons` and `each_cons`
take the first event off, with the step made from the start, which is what an
induction that generalizes the start needs.

`always_iff_each` has an invariant of its own beside the property. The
invariant is kept by every step, also by one that breaks the property, so
that it is there to say why the condition is necessary: with it a step from a
state with the property loses it when the condition fails.

A `Justified` log is one whose entries are each right given the entries before
them. It is extended by one entry at a time (`justified_concat`) and needs no
state, so it can say in which order things were done long after they were.
-/

namespace Runs

variable {σ ε : Type} {step : σ → ε → σ} {s : σ} {es : List ε}

/-- `p` holds at the start and after every event. -/
def Always (step : σ → ε → σ) (p : σ → Prop) (s : σ) (es : List ε) : Prop :=
  ∀ pre, pre <+: es → p (pre.foldl step s)

/-- Every event meets `c` in the state that it finds. -/
def Each (step : σ → ε → σ) (c : σ → ε → Prop) (s : σ) (es : List ε) : Prop :=
  ∀ pre e, pre ++ [e] <+: es → c (pre.foldl step s) e

theorem always_nil {p : σ → Prop} : Always step p s [] ↔ p s := by
  constructor
  · intro h
    exact h [] (List.prefix_refl [])
  · intro h pre hpre
    rw [List.prefix_nil.mp hpre]
    exact h

theorem always_cons {p : σ → Prop} {e : ε} :
    Always step p s (e :: es) ↔ p s ∧ Always step p (step s e) es := by
  constructor
  · intro h
    refine ⟨h [] (List.nil_prefix), fun pre hpre => ?_⟩
    exact h (e :: pre) ((List.prefix_cons_inj e).mpr hpre)
  · rintro ⟨hs, h⟩ pre hpre
    cases pre with
    | nil => exact hs
    | cons e' pre =>
        rw [List.cons_prefix_cons] at hpre
        obtain ⟨rfl, hpre⟩ := hpre
        exact h pre hpre

theorem each_nil {c : σ → ε → Prop} : Each step c s [] := by
  intro pre e hpre
  simp at hpre

theorem each_cons {c : σ → ε → Prop} {e : ε} :
    Each step c s (e :: es) ↔ c s e ∧ Each step c (step s e) es := by
  constructor
  · intro h
    refine ⟨h [] e (by simp), fun pre e' hpre => ?_⟩
    exact h (e :: pre) e' ((List.prefix_cons_inj e).mpr hpre)
  · rintro ⟨he, h⟩ pre e' hpre
    cases pre with
    | nil =>
        rw [List.nil_append, List.cons_prefix_cons] at hpre
        obtain ⟨rfl, -⟩ := hpre
        exact he
    | cons e'' pre =>
        rw [List.cons_append, List.cons_prefix_cons] at hpre
        obtain ⟨rfl, hpre⟩ := hpre
        exact h pre e' hpre

/-- The steps of a run carry an invariant along when they meet a condition. -/
theorem always_of_each {p : σ → Prop} {c : σ → ε → Prop}
    (hstep : ∀ s, ∀ e ∈ es, p s → c s e → p (step s e)) (hs : p s)
    (h : Each step c s es) : Always step p s es := by
  induction es generalizing s with
  | nil => exact always_nil.mpr hs
  | cons e es ih =>
      rw [each_cons] at h
      refine always_cons.mpr ⟨hs, ?_⟩
      exact ih (fun s e he => hstep s e (List.mem_cons_of_mem _ he))
        (hstep s e (List.mem_cons_self ..) hs h.1) h.2

/-- Where a step keeps `p` exactly when it meets `c`, given an invariant that
every step keeps, a run keeps `p` exactly when all its steps meet `c`. -/
theorem always_iff_each {inv p : σ → Prop} {c : σ → ε → Prop}
    (hinv : ∀ s, ∀ e ∈ es, inv s → inv (step s e))
    (hstep : ∀ s, ∀ e ∈ es, inv s → p s → (p (step s e) ↔ c s e))
    (hs : inv s) (hp : p s) : Always step p s es ↔ Each step c s es := by
  induction es generalizing s with
  | nil => exact ⟨fun _ => each_nil, fun _ => always_nil.mpr hp⟩
  | cons e es ih =>
      have he := List.mem_cons_self (a := e) (l := es)
      have ih' := fun hp' => ih (s := step s e)
        (fun s e he => hinv s e (List.mem_cons_of_mem _ he))
        (fun s e he => hstep s e (List.mem_cons_of_mem _ he)) (hinv s e he hs) hp'
      rw [always_cons, each_cons]
      constructor
      · rintro ⟨-, h⟩
        have hp' : p (step s e) := h [] List.nil_prefix
        exact ⟨(hstep s e he hs hp).mp hp', (ih' hp').mp h⟩
      · rintro ⟨hc, h⟩
        exact ⟨hp, (ih' ((hstep s e he hs hp).mpr hc)).mpr h⟩

/-! ## Logs -/

/-- Every entry of a log is right, given the entries before it. -/
def Justified (p : List ε → ε → Prop) (log : List ε) : Prop :=
  ∀ pre e, pre ++ [e] <+: log → p pre e

section

variable {p : List ε → ε → Prop} {log : List ε} {e : ε}

theorem justified_nil : Justified p [] := by
  intro pre e hpre
  simp at hpre

theorem justified_concat : Justified p (log ++ [e]) ↔ Justified p log ∧ p log e := by
  constructor
  · intro h
    refine ⟨fun pre e' hpre => h pre e' (hpre.trans (List.prefix_append log [e])), ?_⟩
    exact h log e (List.prefix_refl _)
  · rintro ⟨hlog, he⟩ pre e' hpre
    rcases List.prefix_concat_iff.mp hpre with heq | hpre
    · obtain ⟨rfl, hlast⟩ := List.append_inj' heq rfl
      obtain rfl := List.singleton_inj.mp hlast
      exact he
    · exact hlog pre e' hpre

end

end Runs
