import WasmRdp.Lib.Runs
import WasmRdp.PageLife
import WasmRdp.Turnover

/-!
# The key that waits, over the life of a page

A held paste key waits for something: a timer, or the bytes of a pasted file
or image that are being read. `HeldKey` adds to the page what the script does
not keep: the session for which each buffer read was started, the number of
each paste key press, and what has reached a session of it.

A key is delivered at most once and in one piece, and the timer is never set
without a key, whatever happens (`Inv`). That the key waits for something is
another matter: the page forgets the key when a session is cleaned up and
when the reconnect timer fires, but not when the session ends with
`connection_lost`. A connection that is already under way can begin the next
session with a key for which nothing is left to wait.

The invariant is proved in three parts, because an event can touch the slot,
the deliveries and the numbers of the presses independently.
`held_step_of_not_holds` says that without a new key the slot stays or is
emptied, and is emptied where the key arrives; `delivered_step` what is added
to the deliveries, whose numbers are all below that of the waiting key
(`Numbered`); and `keepsOrDrops_step` that an event which is no input of a
session keeps the key and its timer, or drops both.

`Waits` is what a key waits for, its timer or a read that was started for the
current session. Every event but a connection leaves it something
(`waits_step`); a new session has no reads yet, so that there the timer alone
counts (`waits_connected`). `always_safe_iff` follows for whole runs.
-/

namespace WasmRdp

/-- A key that has reached a session: the number of its press, its scancode
and the strokes that were sent. -/
structure Delivered where
  press : Nat
  key : UInt8 × Bool
  strokes : List KeyStroke

/-- The key is pressed and at once released, and that only once. -/
def Delivered.Whole (d : Delivered) : Prop :=
  ∃ before after,
    d.strokes = before ++ [Keyboard.press d.key, Keyboard.release d.key] ++ after ∧
    ∀ stroke ∈ before ++ after, (stroke.scancode, stroke.extended) ≠ d.key

structure HeldKey where
  page : Page
  /-- The sessions of the buffer reads that have not settled. -/
  reads : List Nat
  /-- How many paste keys were held back. -/
  presses : Nat
  /-- The number of the press that waits. -/
  waiting : Option Nat
  delivered : List Delivered

/-- An event of the page; which read it is that settles is told apart. -/
inductive HeldKeyEvent where
  | page (e : PageEvent)
  | readSettles (read : Nat) (reads sends : Bool)

namespace HeldKey

def initial (windowedMode : Bool) : HeldKey where
  page := .initial windowedMode
  reads := []
  presses := 0
  waiting := none
  delivered := []

/-- What the page takes for an event. A read settles once, and only then. -/
def pageEvent (s : HeldKey) : HeldKeyEvent → Option PageEvent
  | .page (.pasteRead ..) => none
  | .page e => some e
  | .readSettles read reads sends =>
      if read < s.reads.length then some (.pasteRead reads sends) else none

def readsAfter (s : HeldKey) : HeldKeyEvent → List Nat
  | .page (.paste .reading) => s.reads ++ s.page.life.session.toList
  | .page _ => s.reads
  | .readSettles read _ _ => s.reads.eraseIdx read

/-- The input of an event. The handlers do nothing without a session. -/
def input (p : Page) (e : PageEvent) : Option KeyInput :=
  if p.session.isSome then e.keyInput else none

/-- The waiting key that an event brings to the session. -/
def arrives (s : HeldKey) (e : PageEvent) : Option Delivered := do
  let i ← input s.page e
  let h ← s.page.keyboard.delivery i
  let key ← h.mapping
  let press ← s.waiting
  return ⟨press, key, (s.page.keyboard.handle i).2⟩

/-- The event holds a paste key back. -/
def holds (p : Page) (e : PageEvent) : Bool :=
  ((input p e).bind p.keyboard.heldBack).isSome

def take (s : HeldKey) (e : PageEvent) (reads : List Nat) : HeldKey where
  page := s.page.step e
  reads
  presses := if holds s.page e then s.presses + 1 else s.presses
  waiting :=
    if holds s.page e then some s.presses
    else if (s.page.step e).keyboard.heldPaste.isSome then s.waiting
    else none
  delivered := s.delivered ++ (s.arrives e).toList

def step (s : HeldKey) (e : HeldKeyEvent) : HeldKey :=
  match s.pageEvent e with
  | some pe => s.take pe (s.readsAfter e)
  | none => s

/-- A held paste key is neither stranded nor doubled. -/
structure Safe (s : HeldKey) : Prop where
  waits : s.page.session.isSome → s.page.keyboard.heldPaste.isSome →
    s.page.keyboard.pasteReplayTimer.isSome ∨ ∃ n ∈ s.reads, s.page.life.session = some n
  timer : s.page.keyboard.pasteReplayTimer.isSome → s.page.keyboard.heldPaste.isSome
  once : (s.delivered.map (·.press)).Nodup
  whole : ∀ d ∈ s.delivered, d.Whole

/-- A session begins with no key waiting, or with its timer set. -/
def Fits (s : HeldKey) : HeldKeyEvent → Prop
  | .page (.connected path _ _) =>
      path ∈ s.page.inFlight → s.page.keyboard.heldPaste.isSome →
        s.page.keyboard.pasteReplayTimer.isSome
  | _ => True

/-! ## The page's step -/

/-- The waiting key and its timer stay, or both go. -/
def KeepsOrDrops (k k' : Keyboard) : Prop :=
  (k'.heldPaste = k.heldPaste ∧ k'.pasteReplayTimer = k.pasteReplayTimer) ∨
    (k'.heldPaste = none ∧ k'.pasteReplayTimer = none)

section

variable {p : Page} {e : PageEvent}

theorem keepsOrDrops_sessionEnded (p : Page) (reason : EndReason) (brief : Bool) :
    KeepsOrDrops p.keyboard (p.sessionEnded reason brief).keyboard := by
  unfold Page.sessionEnded
  dsimp only
  split
  · exact .inr ⟨rfl, rfl⟩
  split
  · exact .inr ⟨rfl, rfl⟩
  split
  · exact .inr ⟨rfl, rfl⟩
  split
  · by_cases hgive : brief ∧ Page.MAX_FLAPS ≤
        if brief then (p.setSession none).flapCount + 1 else 0
    · rw [if_pos hgive]
      exact .inr ⟨rfl, rfl⟩
    · rw [if_neg hgive, (Page.attemptReconnect_stays _).2.1]
      exact .inl ⟨rfl, rfl⟩
  · exact .inr ⟨rfl, rfl⟩

/-- An event that is no input of a session. -/
theorem keepsOrDrops_step (h : input p e = none) :
    KeepsOrDrops p.keyboard (p.step e).keyboard := by
  by_cases hown : e.isOwn
  · cases p.ownStep hown with
    | stays _ _ hkeyboard =>
        rw [hkeyboard]
        exact .inl ⟨rfl, rfl⟩
    | cleaned hblank htimer => exact .inr ⟨congrArg PerSession.heldPaste hblank, htimer⟩
    | retried _ _ hkeyboard =>
        rw [hkeyboard]
        exact .inr ⟨rfl, rfl⟩
  have hnone : e.keyInput = none ∨ p.session = none := by
    unfold input at h
    cases hs : p.session with
    | none => exact .inr rfl
    | some s =>
        left
        simpa [hs] using h
  have hkey : ∀ {i}, e.keyInput = some i → p.session = none := by
    intro i hi
    obtain hnone | hs := hnone
    · rw [hi] at hnone
      cases hnone
    · exact hs
  cases e with
  | probed h264 => exact .inl ⟨rfl, rfl⟩
  | connected path width height =>
      rw [Page.step]
      split
      · cases path <;> exact .inl ⟨rfl, rfl⟩
      · exact .inl ⟨rfl, rfl⟩
  | sessionEnded session reason brief => exact keepsOrDrops_sessionEnded p reason brief
  | rail session event => exact .inl ⟨rfl, rfl⟩
  | avc420Frame session surfaceId width height isKeyframe configures decodes =>
      obtain ⟨decoders, heq⟩ :=
        p.avc420Frame_eq surfaceId width height isKeyframe configures decodes
      rw [Page.step, heq]
      exact .inl ⟨rfl, rfl⟩
  | avc420Closed session surfaceId => exact .inl ⟨rfl, rfl⟩
  | decoderError surfaceId => exact .inl ⟨rfl, rfl⟩
  | keyDown clipboardEnabled e =>
      rw [Page.step, Page.onKeyDown, hkey rfl]
      exact .inl ⟨rfl, rfl⟩
  | keyUp code =>
      rw [Page.step, hkey rfl]
      exact .inl ⟨rfl, rfl⟩
  | blur =>
      rw [Page.step, hkey rfl]
      exact .inl ⟨rfl, rfl⟩
  | paste outcome =>
      rw [Page.step, hkey rfl]
      exact .inr ⟨rfl, rfl⟩
  | pasteRead reads sends =>
      rw [Page.step, hkey rfl]
      cases reads with
      | true => exact .inl ⟨rfl, rfl⟩
      | false => exact .inr ⟨rfl, rfl⟩
  | advert sends =>
      rw [Page.step, hkey rfl]
      exact .inl ⟨rfl, rfl⟩
  | formatListAck session =>
      rw [Page.step, Keyboard.formatListAck, hkey rfl]
      dsimp only
      split
      · exact .inr ⟨rfl, rfl⟩
      · exact .inl ⟨rfl, rfl⟩
  | replayTimer =>
      rw [Page.step]
      split
      · exact .inr ⟨rfl, rfl⟩
      · exact .inl ⟨rfl, rfl⟩
  | _ => exact absurd rfl hown

end

/-! ## The invariant -/

/-- What holds whatever happens. -/
structure Inv (s : HeldKey) : Prop where
  timer : s.page.keyboard.pasteReplayTimer.isSome → s.page.keyboard.heldPaste.isSome
  held : s.waiting.isSome = s.page.keyboard.heldPaste.isSome
  proper : ∀ h ∈ s.page.keyboard.heldPaste, h.Proper
  once : (s.delivered.map (·.press)).Nodup
  whole : ∀ d ∈ s.delivered, d.Whole
  /-- The press that waits has not been delivered. -/
  fresh : ∀ n ∈ s.waiting, n < s.presses ∧ n ∉ s.delivered.map (·.press)
  below : ∀ n ∈ s.delivered.map (·.press), n < s.presses
  current : ∀ n ∈ s.page.life.session, n < s.page.sessions
  reads : ∀ n ∈ s.reads, n < s.page.sessions

theorem inv_initial (windowedMode : Bool) : (initial windowedMode).Inv where
  timer := nofun
  held := rfl
  proper := nofun
  once := List.nodup_nil
  whole := nofun
  fresh := nofun
  below := nofun
  current := nofun
  reads := nofun

section

variable {s : HeldKey} {e : PageEvent}

/-- An input goes through `handle`, or disconnects. -/
theorem step_of_input {p : Page} {i : KeyInput} (h : input p e = some i) :
    (p.step e).keyboard = (p.keyboard.handle i).1 ∨
      ((p.step e).keyboard.heldPaste = none ∧ (p.step e).keyboard.pasteReplayTimer = none ∧
        p.keyboard.heldBack i = none ∧ p.keyboard.delivery i = none) := by
  have hs : p.session.isSome := by
    by_contra hs
    rw [input, if_neg hs] at h
    cases h
  rw [input, if_pos hs] at h
  rw [Page.step_keyInput hs h]
  by_cases hdisconnects : i.disconnects
  · right
    rw [if_pos hdisconnects]
    cases i with
    | keyDown clipboardEnabled e =>
        have hback : ¬ Keyboard.holdsBack clipboardEnabled e := by
          intro hback
          have hshortcut := (Keyboard.holdsBack_iff.mp hback).1
          rw [KeyInput.disconnects, hshortcut] at hdisconnects
          cases hdisconnects
        refine ⟨rfl, rfl, if_neg hback, ?_⟩
        rw [Keyboard.delivery, Keyboard.delivers, if_neg hback]
    | _ => cases hdisconnects
  · left
    rw [if_neg hdisconnects]
    rfl

theorem timer_step (h : s.Inv) (htimer : (s.page.step e).keyboard.pasteReplayTimer.isSome) :
    (s.page.step e).keyboard.heldPaste.isSome := by
  cases hi : input s.page e with
  | none =>
      obtain ⟨hheld, hsame⟩ | ⟨-, hnone⟩ := keepsOrDrops_step hi
      · rw [hsame] at htimer
        rw [hheld]
        exact h.timer htimer
      · rw [hnone] at htimer
        cases htimer
  | some i =>
      obtain hsame | ⟨-, hnone, -⟩ := step_of_input hi
      · rw [hsame] at htimer ⊢
        exact s.page.keyboard.held_of_timer_handle h.timer i htimer
      · rw [hnone] at htimer
        cases htimer

theorem proper_step (h : s.Inv) : ∀ held ∈ (s.page.step e).keyboard.heldPaste, held.Proper := by
  intro held hheld
  cases hi : input s.page e with
  | none =>
      obtain ⟨hsame, -⟩ | ⟨hnone, -⟩ := keepsOrDrops_step hi
      · rw [hsame] at hheld
        exact h.proper held hheld
      · rw [hnone] at hheld
        cases hheld
  | some i =>
      obtain hsame | ⟨hnone, -⟩ := step_of_input hi
      · rw [hsame] at hheld
        exact s.page.keyboard.proper_handle h.proper i held hheld
      · rw [hnone] at hheld
        cases hheld

/-- A key that arrives is the waiting one, and arrives whole. -/
theorem arrives_spec (h : s.Inv) {d : Delivered} (hd : d ∈ s.arrives e) :
    s.waiting = some d.press ∧ d.Whole := by
  simp only [arrives, Option.mem_def, Option.bind_eq_bind, Option.bind_eq_some_iff,
    Option.pure_def, Option.some.injEq] at hd
  obtain ⟨i, -, held, hdelivery, key, hkey, press, hpress, rfl⟩ := hd
  refine ⟨hpress, ?_⟩
  have hdelivers : s.page.keyboard.delivers i := by
    by_contra hnot
    rw [Keyboard.delivery, if_neg hnot] at hdelivery
    cases hdelivery
  have hheld : s.page.keyboard.heldPaste = some held := by
    rw [← hdelivery, Keyboard.delivery, if_pos hdelivers]
  obtain ⟨key', hkey', hmods⟩ := h.proper held hheld
  obtain rfl : key' = key := Option.some.inj (hkey'.symm.trans hkey)
  have hreleased : ∀ keysDown, key' ∉ held.released keysDown := by
    intro keysDown hmem
    obtain ⟨c, hc, hmap⟩ := List.mem_filterMap.mp hmem
    exact hmods c (List.mem_filter.mp hc).1 hmap
  refine ⟨(held.released (s.page.keyboard.handle i).1.keysDown).map Keyboard.press,
    (held.released (s.page.keyboard.handle i).1.keysDown).reverse.map Keyboard.release, ?_, ?_⟩
  · rw [Keyboard.sent_handle, hdelivery, s.page.keyboard.direct_of_delivers hdelivers,
      Option.map_some, Option.getD_some, List.append_nil, HeldPaste.chord, hkey]
  · -- the other strokes are those of the modifiers
    intro stroke hstroke hsame
    simp only [List.mem_append, List.mem_map, List.mem_reverse] at hstroke
    obtain ⟨k, hk, rfl⟩ | ⟨k, hk, rfl⟩ := hstroke
    · obtain rfl : k = key' := hsame
      exact hreleased _ hk
    · obtain rfl : k = key' := hsame
      exact hreleased _ hk

theorem held_step_of_holds (hholds : holds s.page e) :
    (s.page.step e).keyboard.heldPaste.isSome := by
  obtain ⟨held, hheld⟩ := Option.isSome_iff_exists.mp hholds
  obtain ⟨i, hi, hback⟩ := Option.bind_eq_some_iff.mp hheld
  obtain hsame | ⟨-, -, hnone, -⟩ := step_of_input hi
  · rw [hsame, Keyboard.heldPaste_handle, hback]
    rfl
  · rw [hnone] at hback
    cases hback

/-- Without a new key the slot stays or is emptied, and it is emptied where
the key arrives. -/
theorem held_step_of_not_holds (hholds : ¬ holds s.page e) :
    (s.page.step e).keyboard.heldPaste = none ∨
      ((s.page.step e).keyboard.heldPaste = s.page.keyboard.heldPaste ∧ s.arrives e = none) := by
  cases hi : input s.page e with
  | none =>
      have harrives : s.arrives e = none := by
        rw [arrives, hi]
        rfl
      obtain ⟨hsame, -⟩ | ⟨hnone, -⟩ := keepsOrDrops_step hi
      · exact .inr ⟨hsame, harrives⟩
      · exact .inl hnone
  | some i =>
      have hback : s.page.keyboard.heldBack i = none := by
        rw [holds, hi, Option.bind_some, Option.not_isSome_iff_eq_none] at hholds
        exact hholds
      obtain hsame | ⟨hnone, -⟩ := step_of_input hi
      · rw [hsame, Keyboard.heldPaste_handle, hback, Option.none_or]
        by_cases hdelivers : s.page.keyboard.delivers i
        · exact .inl (if_pos hdelivers)
        · right
          rw [arrives, hi, Option.bind_eq_bind, Option.bind_some, Keyboard.delivery,
            if_neg hdelivers, if_neg hdelivers]
          exact ⟨rfl, rfl⟩
      · exact .inl hnone

/-- What is known of the press numbers after an event. -/
structure Numbered (s : HeldKey) : Prop where
  held : s.waiting.isSome = s.page.keyboard.heldPaste.isSome
  once : (s.delivered.map (·.press)).Nodup
  whole : ∀ d ∈ s.delivered, d.Whole
  fresh : ∀ n ∈ s.waiting, n < s.presses ∧ n ∉ s.delivered.map (·.press)
  below : ∀ n ∈ s.delivered.map (·.press), n < s.presses

/-- The deliveries after an event. -/
theorem delivered_step (h : s.Inv) :
    ((s.delivered ++ (s.arrives e).toList).map (·.press)).Nodup ∧
      (∀ d ∈ s.delivered ++ (s.arrives e).toList, d.Whole) ∧
      ∀ n ∈ (s.delivered ++ (s.arrives e).toList).map (·.press), n < s.presses := by
  cases harrives : s.arrives e with
  | none =>
      rw [Option.toList_none, List.append_nil]
      exact ⟨h.once, h.whole, h.below⟩
  | some d =>
      obtain ⟨hwaiting, hwhole⟩ := arrives_spec h harrives
      obtain ⟨hbelow, hfresh⟩ := h.fresh d.press hwaiting
      rw [Option.toList_some, List.map_append, List.map_singleton]
      refine ⟨?_, ?_, ?_⟩
      · refine List.nodup_append.mpr ⟨h.once, List.nodup_singleton _, ?_⟩
        rintro a ha b hb rfl
        exact hfresh (List.mem_singleton.mp hb ▸ ha)
      · intro d' hd'
        obtain hd' | hd' := List.mem_append.mp hd'
        · exact h.whole d' hd'
        · exact List.mem_singleton.mp hd' ▸ hwhole
      · intro n hn
        obtain hn | hn := List.mem_append.mp hn
        · exact h.below n hn
        · exact List.mem_singleton.mp hn ▸ hbelow

theorem numbered_take (h : s.Inv) (reads : List Nat) : (s.take e reads).Numbered := by
  obtain ⟨honce, hwhole, hbelow⟩ := delivered_step (e := e) h
  by_cases hholds : holds s.page e
  · have hwaiting : (s.take e reads).waiting = some s.presses := if_pos hholds
    have hpresses : (s.take e reads).presses = s.presses + 1 := if_pos hholds
    refine ⟨?_, honce, hwhole, ?_, ?_⟩
    · rw [hwaiting]
      exact (held_step_of_holds hholds).symm
    · rw [hwaiting, hpresses]
      rintro n ⟨⟩
      exact ⟨Nat.lt_succ_self _, fun hn => absurd (hbelow _ hn) (Nat.lt_irrefl _)⟩
    · rw [hpresses]
      intro n hn
      exact Nat.lt_succ_of_lt (hbelow n hn)
  · have hpresses : (s.take e reads).presses = s.presses := if_neg hholds
    have hwaiting : (s.take e reads).waiting =
        if (s.page.step e).keyboard.heldPaste.isSome then s.waiting else none := if_neg hholds
    obtain hnone | ⟨hsame, harrives⟩ := held_step_of_not_holds hholds
    · rw [hnone] at hwaiting
      refine ⟨?_, honce, hwhole, ?_, ?_⟩
      · rw [hwaiting]
        exact (congrArg Option.isSome hnone).symm
      · rw [hwaiting]
        exact nofun
      · rw [hpresses]
        exact hbelow
    · rw [hsame, ← h.held] at hwaiting
      have hkept : (s.take e reads).waiting = s.waiting := by
        rw [hwaiting]
        cases s.waiting <;> rfl
      have hdelivered : (s.take e reads).delivered = s.delivered := by
        rw [take, harrives, Option.toList_none, List.append_nil]
      refine ⟨?_, honce, hwhole, ?_, ?_⟩
      · rw [hkept, h.held]
        exact (congrArg Option.isSome hsame).symm
      · rw [hkept, hpresses, hdelivered]
        exact h.fresh
      · rw [hpresses]
        exact hbelow

/-- The numbers of sessions only grow. -/
theorem sessions_step : s.page.sessions ≤ (s.page.step e).sessions := by
  by_cases hconnects : e.connects
  · cases e with
    | connected path width height =>
        rw [Page.step]
        split
        · cases path <;> exact Nat.le_succ _
        · exact Nat.le_refl _
    | _ => cases hconnects
  · exact (s.page.noNewSession_step hconnects).sessions.ge

theorem current_step (h : s.Inv) :
    ∀ n ∈ (s.page.step e).life.session, n < (s.page.step e).sessions := by
  intro n hn
  by_cases hconnects : e.connects
  · cases e with
    | connected path width height =>
        rw [Page.step] at hn ⊢
        split at hn
        · rename_i hpath
          rw [if_pos hpath]
          cases path <;> obtain rfl : s.page.sessions = n := Option.some.inj hn <;>
            exact Nat.lt_succ_self _
        · rename_i hpath
          rw [if_neg hpath]
          exact h.current n hn
    | _ => cases hconnects
  · obtain ⟨hsessions, hnone | hsame, -⟩ := s.page.noNewSession_step hconnects
    · rw [hnone] at hn
      cases hn
    · rw [hsame] at hn
      rw [hsessions]
      exact h.current n hn

theorem inv_take (h : s.Inv) {reads : List Nat} (hreads : ∀ n ∈ reads, n < s.page.sessions) :
    (s.take e reads).Inv := by
  obtain ⟨hheld, honce, hwhole, hfresh, hbelow⟩ := numbered_take (e := e) h reads
  exact ⟨timer_step h, hheld, proper_step h, honce, hwhole, hfresh, hbelow, current_step h,
    fun n hn => (hreads n hn).trans_le sessions_step⟩

end

/-! ## Runs -/

/-- What an event of the page is, and what it does to the reads. -/
theorem readsAfter_lt {s : HeldKey} (h : s.Inv) (e : HeldKeyEvent) :
    ∀ n ∈ s.readsAfter e, n < s.page.sessions := by
  intro n hn
  unfold readsAfter at hn
  split at hn
  · obtain hn | hn := List.mem_append.mp hn
    · exact h.reads n hn
    · exact h.current n (Option.mem_toList.mp hn)
  · exact h.reads n hn
  · exact h.reads n (List.mem_of_mem_eraseIdx hn)

theorem inv_step {s : HeldKey} (h : s.Inv) (e : HeldKeyEvent) : (s.step e).Inv := by
  unfold step
  split
  · exact inv_take h (readsAfter_lt h e)
  · exact h

/-- The key waits for its timer or for a read of its session. -/
def Waits (s : HeldKey) : Prop :=
  s.page.session.isSome → s.page.keyboard.heldPaste.isSome →
    s.page.keyboard.pasteReplayTimer.isSome ∨ ∃ n ∈ s.reads, s.page.life.session = some n

theorem Inv.safe_iff {s : HeldKey} (h : s.Inv) : s.Safe ↔ s.Waits :=
  ⟨Safe.waits, fun hwaits => ⟨hwaits, h.timer, h.once, h.whole⟩⟩

/-- A new session has no reads yet. -/
theorem waits_connected {s : HeldKey} (h : s.Inv) (hwaits : s.Waits) (path : ConnectPath)
    (width height : UInt16) :
    (s.step (.page (.connected path width height))).Waits ↔
      Fits s (.page (.connected path width height)) := by
  by_cases hpath : path ∈ s.page.inFlight
  · have hpage : (s.step (.page (.connected path width height))).page =
        s.page.connected path width height := if_pos hpath
    have hreads : (s.step (.page (.connected path width height))).reads = s.reads := rfl
    have hkeyboard : (s.page.connected path width height).keyboard = s.page.keyboard := by
      cases path <;> rfl
    have hcurrent : (s.page.connected path width height).life.session =
        some s.page.sessions := by
      cases path <;> rfl
    have hsession : (s.page.connected path width height).session.isSome := by
      cases path <;> rfl
    rw [Waits, hpage, hreads, hkeyboard, hcurrent, Fits]
    refine ⟨fun hwaits' _ hheld => ?_, fun hfits _ hheld => .inl (hfits hpath hheld)⟩
    obtain htimer | ⟨n, hn, heq⟩ := hwaits' hsession hheld
    · exact htimer
    · obtain rfl := Option.some.inj heq
      exact absurd (h.reads _ hn) (Nat.lt_irrefl _)
  · have hpage : (s.step (.page (.connected path width height))).page = s.page := if_neg hpath
    have hreads : (s.step (.page (.connected path width height))).reads = s.reads := rfl
    rw [Waits, hpage, hreads]
    exact ⟨fun _ hin => absurd hin hpath, fun _ => hwaits⟩

theorem pageEvent_cases {s : HeldKey} {e : HeldKeyEvent} {pe : PageEvent}
    (h : s.pageEvent e = some pe) :
    (e = .page pe ∧ ∀ reads sends, pe ≠ .pasteRead reads sends) ∨
      ∃ read reads sends, e = .readSettles read reads sends ∧ pe = .pasteRead reads sends := by
  cases e with
  | page qe =>
      left
      unfold pageEvent at h
      split at h
      · cases h
      · rename_i hne heq
        cases heq
        obtain rfl := Option.some.inj h
        exact ⟨rfl, fun reads sends => hne reads sends⟩
      · rename_i heq
        cases heq
  | readSettles read reads sends =>
      right
      rw [pageEvent] at h
      split at h
      · exact ⟨read, reads, sends, rfl, (Option.some.inj h).symm⟩
      · cases h

/-- What a key waits for after an input that neither delivers it nor sets the
timer. -/
theorem waits_of_input {s : HeldKey} {e : HeldKeyEvent} {pe : PageEvent} {i : KeyInput}
    (hpe : s.pageEvent e = some pe) (hi : pe.keyInput = some i)
    (hback : s.page.keyboard.heldBack i = none) (hdelivers : ¬ s.page.keyboard.delivers i)
    (hsends : ¬ Keyboard.sendsList i) :
    s.readsAfter e = s.reads ++ s.page.life.session.toList ∨
      ((s.page.keyboard.handle i).1.pasteReplayTimer = s.page.keyboard.pasteReplayTimer ∧
        s.readsAfter e = s.reads) := by
  have htimer := s.page.keyboard.pasteReplayTimer_handle i
  rw [hback, Option.isSome_none, if_neg Bool.false_ne_true, if_neg hdelivers,
    if_neg (fun h => hsends h.1)] at htimer
  obtain ⟨rfl, hread⟩ | ⟨read, reads, sends, rfl, rfl⟩ := pageEvent_cases hpe
  · cases pe with
    | paste outcome =>
        obtain rfl := Option.some.inj hi
        cases outcome with
        | known => exact absurd rfl hdelivers
        | text sends =>
            cases sends with
            | false => exact absurd rfl hdelivers
            | true => exact absurd rfl hsends
        | reading => exact .inl rfl
    | pasteRead reads sends => exact absurd rfl (hread reads sends)
    | _ => first | (obtain rfl := Option.some.inj hi; exact .inr ⟨htimer, rfl⟩) | cases hi
  · -- a read that settles delivers the key or sends its list
    obtain rfl := Option.some.inj hi
    cases reads <;> cases sends <;> first | exact absurd rfl hsends | exact absurd rfl hdelivers

/-- A key that waits behind an input has its timer, or waited before and was
not touched. -/
theorem timer_or_untouched {k : Keyboard} {i : KeyInput} (hheld : (k.handle i).1.heldPaste.isSome) :
    (k.handle i).1.pasteReplayTimer.isSome ∨
      (k.heldBack i = none ∧ ¬ k.delivers i ∧ ¬ Keyboard.sendsList i) ∧ k.heldPaste.isSome := by
  rw [Keyboard.heldPaste_handle] at hheld
  rw [Keyboard.pasteReplayTimer_handle]
  cases hback : k.heldBack i with
  | some held =>
      left
      rfl
  | none =>
      rw [hback, Option.none_or] at hheld
      by_cases hdelivers : k.delivers i
      · rw [if_pos hdelivers] at hheld
        cases hheld
      rw [if_neg hdelivers] at hheld
      by_cases hsends : Keyboard.sendsList i
      · left
        rw [Option.isSome_none, if_neg Bool.false_ne_true, if_neg hdelivers,
          if_pos ⟨hsends, hheld⟩]
        rfl
      · exact .inr ⟨⟨rfl, hdelivers, hsends⟩, hheld⟩

/-- Only an input settles or begins a read. -/
theorem readsAfter_of_no_input {s : HeldKey} {e : HeldKeyEvent} {pe : PageEvent}
    (hpe : s.pageEvent e = some pe) (hi : pe.keyInput = none) : s.readsAfter e = s.reads := by
  obtain ⟨rfl, -⟩ | ⟨read, reads, sends, -, rfl⟩ := pageEvent_cases hpe
  · unfold readsAfter
    split
    · rename_i heq
      cases heq
      cases hi
    · rfl
    · rename_i heq
      cases heq
  · cases hi

/-- Every event but a connection leaves a waiting key something to wait for. -/
theorem waits_step {s : HeldKey} (hwaits : s.Waits) {e : HeldKeyEvent} {pe : PageEvent}
    (hpe : s.pageEvent e = some pe) (hconnects : ¬ pe.connects) :
    (s.take pe (s.readsAfter e)).Waits := by
  intro hs hheld
  change (s.page.step pe).session.isSome at hs
  change (s.page.step pe).keyboard.heldPaste.isSome at hheld
  change (s.page.step pe).keyboard.pasteReplayTimer.isSome ∨
    ∃ n ∈ s.readsAfter e, (s.page.step pe).life.session = some n
  rw [← Page.life_session_isSome] at hs
  obtain ⟨-, hnone | hcurrent, -⟩ := s.page.noNewSession_step hconnects
  · rw [hnone] at hs
    cases hs
  rw [hcurrent] at hs ⊢
  have hsession : s.page.session.isSome := by
    rw [← Page.life_session_isSome]
    exact hs
  cases hi : input s.page pe with
  | none =>
      obtain ⟨hsame, htimer⟩ | ⟨hnone, -⟩ := keepsOrDrops_step hi
      · rw [input, if_pos hsession] at hi
        rw [hsame] at hheld
        rw [htimer, readsAfter_of_no_input hpe hi]
        exact hwaits hsession hheld
      · rw [hnone] at hheld
        cases hheld
  | some i =>
      obtain hsame | ⟨hnone, -⟩ := step_of_input hi
      · rw [input, if_pos hsession] at hi
        rw [hsame] at hheld ⊢
        obtain htimer | ⟨⟨hback, hdelivers, hsends⟩, hbefore⟩ := timer_or_untouched hheld
        · exact .inl htimer
        obtain hreads | ⟨htimer, hreads⟩ := waits_of_input hpe hi hback hdelivers hsends
        · right
          obtain ⟨n, hn⟩ := Option.isSome_iff_exists.mp hs
          rw [hreads, hn]
          exact ⟨n, List.mem_append_right _ (List.mem_singleton_self n), rfl⟩
        · rw [htimer, hreads]
          exact hwaits hsession hbefore
      · rw [hnone] at hheld
        cases hheld

/-- An event leaves a safe state exactly when it fits. -/
theorem safe_step {s : HeldKey} (h : s.Inv) (hsafe : s.Safe) (e : HeldKeyEvent) :
    (s.step e).Safe ↔ Fits s e := by
  rw [(inv_step h e).safe_iff]
  cases hpe : s.pageEvent e with
  | none =>
      have hsame : s.step e = s := by rw [step, hpe]
      rw [hsame]
      refine ⟨fun _ => ?_, fun _ => hsafe.waits⟩
      unfold Fits
      split
      · cases hpe
      · trivial
  | some pe =>
      by_cases hconnects : pe.connects
      · obtain ⟨rfl, -⟩ | ⟨read, reads, sends, -, rfl⟩ := pageEvent_cases hpe
        · cases pe with
          | connected path width height => exact waits_connected h hsafe.waits path width height
          | _ => cases hconnects
        · cases hconnects
      · have hstep : s.step e = s.take pe (s.readsAfter e) := by rw [step, hpe]
        rw [hstep]
        refine ⟨fun _ => ?_, fun _ => waits_step hsafe.waits hpe hconnects⟩
        unfold Fits
        split
        · obtain rfl := Option.some.inj hpe
          exact absurd rfl hconnects
        · trivial

theorem safe_initial (windowedMode : Bool) : (initial windowedMode).Safe :=
  (inv_initial windowedMode).safe_iff.mpr nofun

/-- A held paste key is safe in a whole run exactly when every session of the
run begins without one, or with its timer set. -/
theorem always_safe_iff (windowedMode : Bool) (es : List HeldKeyEvent) :
    Runs.Always step Safe (initial windowedMode) es ↔
      Runs.Each step Fits (initial windowedMode) es :=
  Runs.always_iff_each (fun _ e _ h => inv_step h e) (fun _ e _ h hsafe => safe_step h hsafe e)
    (inv_initial windowedMode) (safe_initial windowedMode)

def ctrl : KeyEvent := ⟨.controlLeft, true, false, false⟩
def ctrlV : KeyEvent := ⟨.keyV, true, false, false⟩

/-- The user cancels a reconnect that is under way and logs in again; this
session is lost while a pasted image is being read, and then the reconnect
comes through. -/
def lateReconnect : List HeldKeyEvent :=
  [.page (.submit Turnover.someone ""), .page (.connected (.login Turnover.someone) 1 1),
    .page (.sessionEnded 0 .connectionLost false), .page (.reconnectTimer true),
    .page .cancelClick, .page (.submit Turnover.someone ""),
    .page (.connected (.login Turnover.someone) 1 1), .page (.formatListAck 1),
    .page (.keyDown true ctrl), .page (.keyDown true ctrlV), .page (.paste .reading),
    .page (.sessionEnded 1 .connectionLost false), .readSettles 0 true true,
    .page (.connected (.reconnect Turnover.someone) 1 1)]

/-- The third session begins with the key of the second. -/
theorem not_always_safe : ¬ ∀ (windowedMode : Bool) (es : List HeldKeyEvent),
    Runs.Always step Safe (initial windowedMode) es := by
  intro h
  obtain htimer | ⟨n, hn, -⟩ := (h false lateReconnect lateReconnect (List.prefix_refl _)).waits
    rfl rfl
  · cases htimer
  · cases hn

end HeldKey

end WasmRdp
