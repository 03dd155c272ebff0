import WasmRdp.Cancel
import WasmRdp.Rdstls

/-!
# Whose redirection it is

A session that is redirected leaves the packet in `PENDING_REDIRECT` and reports
its end. The page answers with `doConnectRedirected`, which probes for codecs and
then calls `connect_redirected`, which takes what is in the cell. There is one cell
for all sessions of the page, and one that is cleaned up behind may still be
redirected; so two hops can be under way, over the attempts of a `CancelRun`.

A hop that takes the packet of another session's redirection connects with the
other's credentials. `own_iff` says when none does.

To the cell only two kinds of event matter: a redirection puts a packet in, and
a hop that has probed takes what is there (`CellStep`). While at most one hop
probes at a time, the packet in the cell is its own (`Owned`). As soon as a
redirection finds a hop that still probes there are more hops than packets for
them (`Crowded`), and this stays so as long as every hop takes its own, since
each of them takes one away on either side; when no hop probes any more one of
them has taken a wrong packet or none (`Crowded.run`). That is why the
equivalence speaks of the moment when all have settled, and why the order in
which they do makes no difference.

That the hops are the page's own redirect attempts is a count of these
(`Counted`), which every event of the page moves as `AttemptsMove` says.
-/

namespace WasmRdp

open Runs

/-- A call of `connect_redirected`: the packet of the session whose end it answers,
and what it took from the cell. -/
structure RedirectHop where
  own : PendingRedirect
  taken : Option PendingRedirect

structure RedirectHops where
  run : CancelRun
  /-- `PENDING_REDIRECT` -/
  pending : Option PendingRedirect
  /-- The hops that probe, by the packets of their sessions. -/
  probing : List PendingRedirect
  /-- The calls of `connect_redirected` that have not settled. -/
  connecting : List RedirectHop
  /-- All calls of `connect_redirected`. -/
  calls : List RedirectHop

inductive RedirectEvent where
  /-- `run_session` of a session is given a redirection packet. -/
  | redirect (session : Nat) (packet : PendingRedirect) (brief : Bool)
  /-- A hop has probed and calls `connect_redirected`. -/
  | called (i : Nat)
  | connected (i : Nat) (width height : UInt16)
  | failed (i : Nat)
  /-- What else happens to the page. -/
  | other (e : CancelEvent)

/-- An event that is one of a hop. -/
def CancelEvent.isHop : CancelEvent → Bool
  | page (.sessionEnded _ reason _) => reason = .redirected
  | page (.connected path _ _) | page (.connectFailed path) | called path => path = .redirected
  | page _ => false

namespace RedirectHops

def initial (windowedMode : Bool) : RedirectHops where
  run := .initial windowedMode
  pending := none
  probing := []
  connecting := []
  calls := []

/-- A promise of `connect_redirected` settles. -/
def settle (s : RedirectHops) (i : Nat) (e : PageEvent) : RedirectHops :=
  { s with run := s.run.step (.page e), connecting := s.connecting.eraseIdx i }

def step (s : RedirectHops) : RedirectEvent → RedirectHops
  | .redirect session packet brief =>
      { s with
        run := s.run.step (.page (.sessionEnded session .redirected brief))
        pending := some packet
        probing := s.probing ++ [packet] }
  | .called i =>
      match s.probing[i]? with
      | none => s
      | some own =>
          { run := s.run.step (.called .redirected)
            pending := none
            probing := s.probing.eraseIdx i
            connecting := s.connecting ++ [⟨own, s.pending⟩]
            calls := s.calls ++ [⟨own, s.pending⟩] }
  | .connected i width height =>
      -- without a packet `connect_redirected` fails
      match s.connecting[i]? with
      | some ⟨_, some _⟩ => s.settle i (.connected .redirected width height)
      | _ => s
  | .failed i =>
      match s.connecting[i]? with
      | some _ => s.settle i (.connectFailed .redirected)
      | none => s
  | .other e => if e.isHop then s else { s with run := s.run.step e }

end RedirectHops

/-- The packet of a redirection. -/
def RedirectEvent.packet? : RedirectEvent → Option PendingRedirect
  | redirect _ packet _ => some packet
  | _ => none

namespace RedirectHops

/-- Every call has taken the packet of its own session's redirection. -/
def OwnTaken (s : RedirectHops) : Prop := ∀ hop ∈ s.calls, hop.taken = some hop.own

/-- A redirection finds no other hop that still probes. -/
def Apart (s : RedirectHops) (e : RedirectEvent) : Prop := e.packet?.isSome → s.probing = []

/-- The attempts of the page that are redirect hops. -/
structure Counted (s : RedirectHops) : Prop where
  probing : s.run.probing.count .redirected = s.probing.length
  inFlight : s.run.page.inFlight.count .redirected = s.probing.length + s.connecting.length

end RedirectHops

/-! ## The page's attempts -/

/-- What an event that is none of a hop does to the attempts under way. -/
inductive AttemptsMove (attempts : List ConnectPath) : List ConnectPath → Prop where
  | same : AttemptsMove attempts attempts
  | begun {path : ConnectPath} (h : path ≠ .redirected) : AttemptsMove attempts (attempts ++ [path])
  | settled {path : ConnectPath} (h : path ≠ .redirected) :
      AttemptsMove attempts (attempts.erase path)

namespace AttemptsMove

variable {attempts attempts' : List ConnectPath}

theorem count (h : AttemptsMove attempts attempts') :
    attempts'.count .redirected = attempts.count .redirected := by
  cases h with
  | same => rfl
  | begun hpath =>
      rw [List.count_append, List.count_singleton, if_neg (by simpa using hpath), Nat.add_zero]
  | settled hpath => exact List.count_erase_of_ne (Ne.symm hpath)

/-- The attempts that are new. -/
theorem count_new (h : AttemptsMove attempts attempts') :
    (attempts'.drop attempts.length).count .redirected = 0 := by
  cases h with
  | same => rw [List.drop_length, List.count_nil]
  | begun hpath =>
      rw [List.drop_left, List.count_singleton, if_neg (by simpa using hpath)]
  | settled hpath => rw [List.drop_eq_nil_of_le List.length_erase_le, List.count_nil]

end AttemptsMove

namespace Page

theorem inFlight_attemptReconnect (p : Page) : p.attemptReconnect.inFlight = p.inFlight := by
  unfold attemptReconnect
  split
  · rfl
  · split <;> rfl

theorem inFlight_sessionEnded (p : Page) {reason : EndReason} (brief : Bool)
    (hreason : reason ≠ .redirected) : (p.sessionEnded reason brief).inFlight = p.inFlight := by
  obtain ⟨-, hends⟩ | ⟨-, heq⟩ := sessionEnded_cases p brief hreason
  · exact hends.inFlight
  · rw [heq, inFlight_attemptReconnect]
    rfl

theorem attemptsMove_step (p : Page) {e : PageEvent} (h : (CancelEvent.page e).isHop = false) :
    AttemptsMove p.inFlight (p.step e).inFlight := by
  have hsame : ∀ {p' : Page}, p'.inFlight = p.inFlight → AttemptsMove p.inFlight p'.inFlight := by
    intro p' heq
    rw [heq]
    exact .same
  by_cases hquiet : e.isQuiet
  · exact hsame (congrArg Life.inFlight (p.life_step_of_quiet hquiet))
  cases e with
  | submit credentials railProgram =>
      rw [step, submit]
      split
      · exact .begun (by simp)
      · exact .same
  | connected path width height =>
      have hpath : path ≠ .redirected := of_decide_eq_false h
      rw [step]
      split
      · cases path <;> exact .settled hpath
      · exact .same
  | connectFailed path =>
      have hpath : path ≠ .redirected := of_decide_eq_false h
      rw [step]
      split
      · cases path with
        | login credentials => exact .settled hpath
        | reconnect credentials =>
            rw [connectFailed, inFlight_attemptReconnect]
            exact .settled hpath
        | redirected => exact absurd rfl hpath
      · exact .same
  | reconnectTimer held =>
      rw [step, reconnectTimer]
      split
      · exact .same
      dsimp only
      split
      · exact .begun (by simp)
      · exact .same
  | sessionEnded session reason brief =>
      exact hsame (p.inFlight_sessionEnded brief (of_decide_eq_false h))
  | giveUp =>
      rw [step, giveUp]
      split <;> exact .same
  | cancelClick =>
      rw [step, cancelClick]
      split <;> exact .same
  | disconnect => exact .same
  | railExecResult session execResult =>
      rw [step, railExecResult]
      split <;> exact .same
  | execTimer =>
      rw [step, execTimer]
      split <;> exact .same
  | exitTimer =>
      rw [step, exitTimer]
      split
      · dsimp only
        split <;> exact .same
      · exact .same
  | keyDown clipboardEnabled e =>
      rw [step, onKeyDown]
      split
      · dsimp only
        split <;> exact .same
      · exact .same
  | _ => exact absurd rfl hquiet

end Page

/-- No other event concerns the hops. -/
theorem CancelRun.count_step (r : CancelRun) {e : CancelEvent} (h : e.isHop = false) :
    (r.step e).probing.count .redirected = r.probing.count .redirected ∧
      (r.step e).page.inFlight.count .redirected = r.page.inFlight.count .redirected := by
  cases e with
  | page e =>
      rw [step]
      split
      · have hmove := r.page.attemptsMove_step h
        refine ⟨?_, hmove.count⟩
        rw [List.count_append, Page.begun, hmove.count_new, Nat.add_zero]
      · exact ⟨rfl, rfl⟩
  | called path =>
      have hpath : path ≠ .redirected := of_decide_eq_false h
      rw [step]
      split
      · exact ⟨List.count_erase_of_ne hpath.symm, rfl⟩
      · exact ⟨rfl, rfl⟩

namespace RedirectHops

variable {s : RedirectHops}

theorem Counted.redirect (h : s.Counted) (session : Nat) (packet : PendingRedirect) (brief : Bool) :
    (s.step (.redirect session packet brief)).Counted := by
  have hbegun : s.run.page.begun (.sessionEnded session .redirected brief) = [.redirected] :=
    List.drop_left
  constructor
  · change (s.run.probing ++ s.run.page.begun _).count .redirected = (s.probing ++ [packet]).length
    rw [hbegun, List.count_append, h.probing, List.length_append]
    rfl
  · change (s.run.page.inFlight ++ [ConnectPath.redirected]).count .redirected =
      (s.probing ++ [packet]).length + s.connecting.length
    rw [List.count_append, h.inFlight, List.length_append, List.count_singleton_self,
      List.length_singleton]
    omega

theorem Counted.called (h : s.Counted) (i : Nat) : (s.step (.called i)).Counted := by
  rw [step]
  split
  · exact h
  · rename_i own hown
    obtain ⟨hi, -⟩ := List.getElem?_eq_some_iff.mp hown
    have hmem : .redirected ∈ s.run.probing := by
      rw [← List.count_pos_iff, h.probing]
      omega
    have hstep : s.run.step (.called .redirected) =
        { s.run with
          probing := s.run.probing.erase .redirected
          started := s.run.started + 1 } := by
      rw [CancelRun.step, if_pos hmem]
    constructor
    · rw [hstep]
      dsimp only
      rw [List.count_erase_self, h.probing, List.length_eraseIdx_of_lt hi]
    · rw [hstep]
      dsimp only
      rw [h.inFlight, List.length_eraseIdx_of_lt hi, List.length_append, List.length_singleton]
      omega

/-- The page lets an attempt settle that is a hop's. -/
theorem Counted.settle (h : s.Counted) {i : Nat} (hi : i < s.connecting.length) {e : PageEvent}
    (happens : s.run.happens e = s.run.settles .redirected)
    (hflight : .redirected ∈ s.run.page.inFlight →
      (s.run.page.step e).inFlight = s.run.page.inFlight.erase .redirected) :
    (s.settle i e).Counted := by
  have hcount : s.run.probing.count .redirected < s.run.page.inFlight.count .redirected := by
    rw [h.probing, h.inFlight]
    omega
  have hflight := hflight (List.count_pos_iff.mp (Nat.zero_lt_of_lt hcount))
  have hbegun : s.run.page.begun e = [] := by
    rw [Page.begun, hflight]
    exact List.drop_eq_nil_of_le List.length_erase_le
  rw [RedirectHops.settle, CancelRun.step, happens, CancelRun.settles,
    if_pos (decide_eq_true hcount)]
  constructor
  · dsimp only
    rw [hbegun, List.append_nil, h.probing]
  · dsimp only
    rw [hflight, List.count_erase_self, h.inFlight, List.length_eraseIdx_of_lt hi]
    omega

theorem Counted.step (h : s.Counted) (e : RedirectEvent) : (s.step e).Counted := by
  cases e with
  | redirect session packet brief => exact h.redirect session packet brief
  | called i => exact h.called i
  | connected i width height =>
      rw [RedirectHops.step]
      split
      · rename_i own packet hi
        refine h.settle (List.getElem?_eq_some_iff.mp hi).1 rfl fun hmem => ?_
        rw [Page.step, if_pos hmem]
        rfl
      · exact h
  | failed i =>
      rw [RedirectHops.step]
      split
      · rename_i hop hi
        refine h.settle (List.getElem?_eq_some_iff.mp hi).1 rfl fun hmem => ?_
        rw [Page.step, if_pos hmem]
        rfl
      · exact h
  | other e =>
      rw [RedirectHops.step]
      split
      · exact h
      · rename_i hother
        obtain ⟨hprobing, hflight⟩ := s.run.count_step (Bool.eq_false_iff.mpr hother)
        exact ⟨hprobing.trans h.probing, hflight.trans h.inFlight⟩

/-! ## The cell -/

/-- What an event with a packet, or with none, does to the cell and to the hops
that will take from it. -/
inductive CellStep (s s' : RedirectHops) : Option PendingRedirect → Prop where
  | put {packet : PendingRedirect} (hpending : s'.pending = some packet)
      (hprobing : s'.probing = s.probing ++ [packet]) (hcalls : s'.calls = s.calls) :
      CellStep s s' (some packet)
  | take {i : Nat} {own : PendingRedirect} (hown : s.probing[i]? = some own)
      (hpending : s'.pending = none) (hprobing : s'.probing = s.probing.eraseIdx i)
      (hcalls : s'.calls = s.calls ++ [⟨own, s.pending⟩]) : CellStep s s' none
  | keep (hpending : s'.pending = s.pending) (hprobing : s'.probing = s.probing)
      (hcalls : s'.calls = s.calls) : CellStep s s' none

theorem cell_step (s : RedirectHops) (e : RedirectEvent) : CellStep s (s.step e) e.packet? := by
  cases e with
  | redirect session packet brief => exact .put rfl rfl rfl
  | called i =>
      rw [step]
      split
      · exact .keep rfl rfl rfl
      · rename_i own hown
        exact .take hown rfl rfl rfl
  | connected i width height =>
      rw [step]
      split <;> exact .keep rfl rfl rfl
  | failed i =>
      rw [step]
      split <;> exact .keep rfl rfl rfl
  | other e =>
      rw [step]
      split <;> exact .keep rfl rfl rfl

/-- Every call was right, and the packet in the cell is that of the only hop that
probes. -/
structure Owned (s : RedirectHops) : Prop where
  own : s.OwnTaken
  pending : s.probing = [] ∨ ∃ own, s.probing = [own] ∧ s.pending = some own

/-- There are more hops that probe than packets for them. -/
def Crowded (s : RedirectHops) : Prop := s.pending.toList.length < s.probing.length

theorem Owned.step (h : s.Owned) {e : RedirectEvent} (hapart : s.Apart e) : (s.step e).Owned := by
  have hcell := s.cell_step e
  generalize s.step e = s' at hcell
  cases hpacket : e.packet? with
  | some packet =>
      rw [hpacket] at hcell
      obtain ⟨hpending, hprobing, hcalls⟩ := hcell
      have hnone : s.probing = [] := hapart (by rw [hpacket]; rfl)
      rw [hnone, List.nil_append] at hprobing
      refine ⟨?_, .inr ⟨packet, hprobing, hpending⟩⟩
      rw [OwnTaken, hcalls]
      exact h.own
  | none =>
      rw [hpacket] at hcell
      cases hcell with
      | @take i own hown hpending hprobing hcalls =>
          obtain hnone | ⟨own', hone, hpacket⟩ := h.pending
          · rw [hnone] at hown
            cases hown
          rw [hone] at hown hprobing
          obtain ⟨rfl, rfl⟩ : i = 0 ∧ own' = own := by
            cases i with
            | zero => exact ⟨rfl, Option.some.inj hown⟩
            | succ i => cases hown
          refine ⟨?_, .inl hprobing⟩
          rw [OwnTaken, hcalls, hpacket]
          exact List.forall_mem_append.mpr ⟨h.own, List.forall_mem_singleton.mpr rfl⟩
      | keep hpending hprobing hcalls =>
          refine ⟨?_, ?_⟩
          · rw [OwnTaken, hcalls]
            exact h.own
          · rw [hprobing, hpending]
            exact h.pending

theorem crowded_of_not_apart {e : RedirectEvent} (hnot : ¬ s.Apart e) : (s.step e).Crowded := by
  rw [Apart, Classical.not_imp] at hnot
  obtain ⟨hpacket, hprobes⟩ := hnot
  obtain ⟨packet, hpacket⟩ := Option.isSome_iff_exists.mp hpacket
  have hcell := s.cell_step e
  rw [hpacket] at hcell
  obtain ⟨hpending, hprobing, -⟩ := hcell
  have hlength := List.length_pos_iff.mpr hprobes
  rw [Crowded, hpending, hprobing, List.length_append, List.length_singleton]
  exact Nat.lt_add_left_iff_pos.mpr hlength

/-- A call that is right takes one of each. -/
theorem Crowded.step (h : s.Crowded) {e : RedirectEvent} (hown : (s.step e).OwnTaken) :
    (s.step e).Crowded := by
  have hcell := s.cell_step e
  generalize s.step e = s' at hcell hown
  generalize e.packet? = packet at hcell
  rw [Crowded] at h ⊢
  cases hcell with
  | put hpending hprobing hcalls =>
      rw [hpending, hprobing, List.length_append, List.length_singleton]
      exact Nat.lt_add_of_pos_left (Nat.zero_lt_of_lt h)
  | @take i own hi hpending hprobing hcalls =>
      have hright : s.pending = some own := by
        refine hown ⟨own, s.pending⟩ ?_
        rw [hcalls]
        exact List.mem_append_right _ (List.mem_singleton_self _)
      rw [hright] at h
      rw [hpending, hprobing, List.length_eraseIdx_of_lt (List.getElem?_eq_some_iff.mp hi).1]
      exact Nat.sub_pos_of_lt h
  | keep hpending hprobing hcalls => rwa [hpending, hprobing]

theorem calls_step (s : RedirectHops) (e : RedirectEvent) : s.calls <+: (s.step e).calls := by
  have hcell := s.cell_step e
  generalize s.step e = s' at hcell
  generalize e.packet? = packet at hcell
  cases hcell with
  | put _ _ hcalls | keep _ _ hcalls => rw [hcalls]
  | take _ _ _ hcalls =>
      rw [hcalls]
      exact List.prefix_append ..

/-! ## Runs -/

theorem calls_run (s : RedirectHops) (events : List RedirectEvent) :
    s.calls <+: (events.foldl step s).calls := by
  induction events generalizing s with
  | nil => exact List.prefix_rfl
  | cons e events ih => exact (s.calls_step e).trans (ih (s.step e))

/-- Once there are too many hops, one of them takes a packet that is not its own. -/
theorem Crowded.run (h : s.Crowded) {events : List RedirectEvent}
    (hown : (events.foldl RedirectHops.step s).OwnTaken) :
    (events.foldl RedirectHops.step s).Crowded := by
  induction events generalizing s with
  | nil => exact h
  | cons e events ih =>
      have hnext : (s.step e).OwnTaken := fun hop hhop =>
        hown hop (((s.step e).calls_run events).subset hhop)
      exact ih (h.step hnext) hown

theorem Owned.run_iff (h : s.Owned) {events : List RedirectEvent}
    (hdone : (events.foldl RedirectHops.step s).probing = []) :
    (events.foldl RedirectHops.step s).OwnTaken ↔ Each RedirectHops.step Apart s events := by
  constructor
  · intro hown
    induction events generalizing s with
    | nil => exact each_nil
    | cons e events ih =>
        by_cases hapart : s.Apart e
        · exact each_cons.mpr ⟨hapart, ih (h.step hapart) hdone hown⟩
        · have hcrowded := (crowded_of_not_apart hapart).run hown
          have hnone : (events.foldl RedirectHops.step (s.step e)).probing = [] := hdone
          rw [Crowded, hnone] at hcrowded
          exact absurd hcrowded (Nat.not_lt_zero _)
  · intro heach
    have hstep : ∀ s : RedirectHops, ∀ e ∈ events, s.Owned → s.Apart e → (s.step e).Owned :=
      fun s e _ hs hapart => hs.step hapart
    exact (always_of_each hstep h heach events List.prefix_rfl).own

/-- The packets that were taken, and the one in the cell, are some of those that
came, in their order. -/
theorem taken_run (windowedMode : Bool) (events : List RedirectEvent) :
    let s := events.foldl step (initial windowedMode)
    (s.calls.filterMap RedirectHop.taken ++ s.pending.toList).Sublist
      (events.filterMap RedirectEvent.packet?) := by
  dsimp only
  induction events using List.reverseRecOn with
  | nil => exact .refl _
  | append_singleton events e ih =>
      rw [List.foldl_append, List.filterMap_append]
      generalize events.foldl step (initial windowedMode) = s at ih
      have hcell := s.cell_step e
      change (((s.step e).calls.filterMap RedirectHop.taken) ++ (s.step e).pending.toList).Sublist _
      generalize s.step e = s' at hcell
      rw [List.filterMap_cons, List.filterMap_nil]
      generalize e.packet? = packet at hcell
      cases hcell with
      | put hpending _ hcalls =>
          rw [hcalls, hpending]
          exact ((List.sublist_append_left ..).trans ih).append (.refl _)
      | @take i own _ hpending _ hcalls =>
          have htaken : [⟨own, s.pending⟩].filterMap RedirectHop.taken = s.pending.toList := by
            rw [List.filterMap_cons, List.filterMap_nil]
            cases s.pending <;> rfl
          rw [hcalls, hpending, List.filterMap_append, htaken, Option.toList_none, List.append_nil,
            List.append_nil]
          exact ih
      | keep hpending _ hcalls =>
          rw [hcalls, hpending, List.append_nil]
          exact ih

theorem owned_initial (windowedMode : Bool) : (initial windowedMode).Owned :=
  ⟨List.forall_mem_nil _, .inl rfl⟩

theorem counted_run (windowedMode : Bool) (events : List RedirectEvent) :
    (events.foldl step (initial windowedMode)).Counted := by
  induction events using List.reverseRecOn with
  | nil => exact ⟨rfl, rfl⟩
  | append_singleton events e ih =>
      rw [List.foldl_append]
      exact ih.step e

/-- The hops are the page's redirect attempts, and no packet is taken twice. When no
hop probes any more, all have taken the packet of their own session exactly when no
redirection came while one was probing. -/
theorem own_iff (windowedMode : Bool) (events : List RedirectEvent)
    (hdone : (events.foldl step (initial windowedMode)).probing = []) :
    (events.foldl step (initial windowedMode)).Counted ∧
      ((events.foldl step (initial windowedMode)).calls.filterMap RedirectHop.taken).Sublist
        (events.filterMap RedirectEvent.packet?) ∧
      ((events.foldl step (initial windowedMode)).OwnTaken ↔
        Each step Apart (initial windowedMode) events) :=
  ⟨counted_run windowedMode events,
    (List.sublist_append_left ..).trans (taken_run windowedMode events),
    (owned_initial windowedMode).run_iff hdone⟩

/-- Of two sessions that are redirected at once, the first hop takes the packet of the
second, and the second none. After one another each takes its own. -/
theorem own_iff_overlapping :
    let a : PendingRedirect := ⟨none, [97, 0], [], [1, 2], [], none⟩
    let b : PendingRedirect := ⟨none, [98, 0], [], [3, 4], [], none⟩
    let overlapping := [RedirectEvent.redirect 0 a false, .redirect 1 b false, .called 0, .called 0]
    let apart := [RedirectEvent.redirect 0 a false, .called 0, .redirect 1 b false, .called 0]
    (overlapping.foldl step (initial false)).calls = [⟨a, some b⟩, ⟨b, none⟩] ∧
      ¬ Each step Apart (initial false) overlapping ∧
      (apart.foldl step (initial false)).OwnTaken := by
  intro a b overlapping apart
  have hcalls : (overlapping.foldl step (initial false)).calls = [⟨a, some b⟩, ⟨b, none⟩] := rfl
  refine ⟨hcalls, fun heach => ?_, (own_iff false apart rfl).2.2.mpr ?_⟩
  · have hown := (own_iff false overlapping rfl).2.2.mpr heach ⟨b, none⟩
      (by rw [hcalls]; exact List.mem_cons_of_mem _ (List.mem_singleton_self _))
    cases hown
  · simp only [apart, each_cons]
    exact ⟨fun _ => rfl, fun h => (nomatch h), fun _ => rfl, fun h => (nomatch h), each_nil⟩

end RedirectHops

end WasmRdp
