import WasmRdp.Lib.Runs
import WasmRdp.PasteKey

/-!
# What a waiting key waits for

The page counts the Format Lists that the remote has not answered, and lets
the waiting key go when the count comes to zero. The answers carry no name,
but they come in the order of the lists. `PasteAck` keeps the lists
themselves: a counted one with its number, and those that the page sends
without counting them (the list at the start of the channel, a file dropped
on the canvas).

Where only counted lists are answered while a key waits, the count is their
number (`Inv.count`), and at zero every list has been answered, the key's own
among them. Nothing of this holds while the bytes of the key's content are
still being read and its list has not been sent.

A key with new content is delivered in one of three ways, and `releases_spec`
tells them apart: by an answer that brings the count to zero (`due_of_ack`),
by its timer (`due_of_timer`), or by the next paste key, which sends the
waiting one first, so that the order of the keys is kept; this is not late
enough for the content (`Release.byNextKey`). The first two are on time.

The condition of `always_onTime` is about the event and the state that it
finds (`Fits`). It leaves out what the source does not count, and the paste
events that overlap: a second one that finds nothing new lets a key go that
still waits for the first. `not_always_due` is by the next paste key and needs
none of that.
-/

namespace WasmRdp

/-- New content that the paste event of the waiting key has found: its bytes
are being read, or it was advertised. -/
inductive PasteContent where
  | reading (read : Nat)
  | advertised (advert : Nat)
  deriving DecidableEq

/-- A key with new content when it is delivered. -/
structure Release where
  content : PasteContent
  /-- The next paste key sends it. -/
  byNextKey : Bool
  /-- The Format Lists that the remote has not answered by now. -/
  unanswered : List (Option Nat)
  /-- The advert for which the timer was set that fires now. -/
  expired : Option Nat
  /-- The content could not be read or advertised. -/
  failed : Bool
  deriving DecidableEq

/-- The remote has answered the key's own list, or its time is over, or there
is none. -/
def Release.Due (r : Release) : Prop :=
  (∃ n, r.content = .advertised n ∧ (some n ∉ r.unanswered ∨ ∃ m ∈ r.expired, n ≤ m)) ∨
    r.failed = true

structure PasteAck where
  keyboard : Keyboard
  /-- The Format Lists that the remote has not answered, the oldest first; one
  that is not counted has no number. -/
  lists : List (Option Nat)
  /-- How many adverts were sent. -/
  adverts : Nat
  /-- The buffer reads that have not settled. -/
  reads : List Nat
  /-- How many reads were started. -/
  started : Nat
  /-- What the waiting key waits for. -/
  content : Option PasteContent
  /-- The advert for which the timer was set. -/
  timerFor : Option Nat
  released : List Release

/-- An input of the page, where a read that settles is told apart; or a Format
List that is not counted. -/
inductive PasteAckEvent where
  | input (i : KeyInput)
  | readSettles (read : Nat) (reads sends : Bool)
  | uncounted

namespace PasteAck

def initial : PasteAck where
  keyboard := .initial
  lists := []
  adverts := 0
  reads := []
  started := 0
  content := none
  timerFor := none
  released := []

def listsAfter (s : PasteAck) (i : KeyInput) : List (Option Nat) :=
  match i with
  | .formatListAck => s.lists.tail
  | _ => if Keyboard.sendsList i then s.lists ++ [some s.adverts] else s.lists

/-- What the waiting key waits for after an input; `read` is the read that
settles with it. -/
def contentAfter (s : PasteAck) (i : KeyInput) (read : Option Nat) : Option PasteContent :=
  if (s.keyboard.heldBack i).isSome ∨ (s.keyboard.handle i).1.heldPaste = none then none
  else match s.content, i with
    | none, .paste (.text true) => some (.advertised s.adverts)
    | none, .paste .reading => some (.reading s.started)
    | some (.reading n), .pasteRead true true =>
        if read = some n then some (.advertised s.adverts) else some (.reading n)
    | content, _ => content

def timerForAfter (s : PasteAck) (i : KeyInput) : Option Nat :=
  if (s.keyboard.heldBack i).isSome ∨ (s.keyboard.handle i).1.pasteReplayTimer = none then none
  else if Keyboard.sendsList i then some s.adverts
  else s.timerFor

/-- The release that an input makes. -/
def releases (s : PasteAck) (i : KeyInput) (read : Option Nat) : Option Release :=
  match s.keyboard.delivery i, s.content with
  | some _, some content =>
      some
        { content
          byNextKey := (s.keyboard.heldBack i).isSome
          unanswered := s.listsAfter i
          expired :=
            match i with
            | .replayTimer => s.timerFor
            | _ => none
          failed := read.any fun n => content = .reading n }
  | _, _ => none

def take (s : PasteAck) (i : KeyInput) (read : Option Nat) : PasteAck where
  keyboard := (s.keyboard.handle i).1
  lists := s.listsAfter i
  adverts := if Keyboard.sendsList i then s.adverts + 1 else s.adverts
  reads :=
    match i with
    | .paste .reading => s.reads ++ [s.started]
    | _ => s.reads
  started :=
    match i with
    | .paste .reading => s.started + 1
    | _ => s.started
  content := s.contentAfter i read
  timerFor := s.timerForAfter i
  released := s.released ++ (s.releases i read).toList

/-- The remote answers a list that was sent, the oldest first. -/
def step (s : PasteAck) : PasteAckEvent → PasteAck
  | .input (.pasteRead ..) => s
  | .input .formatListAck => if s.lists = [] then s else s.take .formatListAck none
  | .input i => s.take i none
  | .readSettles read reads sends =>
      match s.reads[read]? with
      | none => s
      | some n => { s with reads := s.reads.eraseIdx read }.take (.pasteRead reads sends) (some n)
  | .uncounted => { s with lists := s.lists ++ [none] }

/-- No key with new content is delivered before its time, unless the next
paste key sends it. -/
def OnTime (s : PasteAck) : Prop := ∀ r ∈ s.released, r.byNextKey = true ∨ r.Due

/-- No uncounted list is answered while an advert is unanswered or a key waits
for new content. While a key waits for new content, no other paste event
finds nothing new, and no other advert or read fails; and while its bytes are
read, no answer brings the count to zero and no timer fires. -/
def Fits (s : PasteAck) : PasteAckEvent → Prop
  | .input (.paste .known) => s.content = none
  | .input (.paste (.text sends)) => sends = true ∨ s.content = none
  | .input (.advert sends) => sends = true ∨ s.content = none
  | .input .formatListAck =>
      (s.lists.head? = some none → s.keyboard.advertsInFlight = 0 ∧ s.content = none) ∧
        ∀ n, s.content = some (.reading n) → 1 < s.keyboard.advertsInFlight
  | .input .replayTimer => ∀ n, s.content ≠ some (.reading n)
  | .readSettles read reads sends =>
      (reads = true ∧ sends = true) ∨ s.content = none ∨
        ∃ n ∈ s.reads[read]?, s.content = some (.reading n)
  | _ => True

/-! ## The invariant -/

structure Inv (s : PasteAck) : Prop where
  count : s.keyboard.advertsInFlight = (s.lists.filterMap id).length
  held : s.content.isSome → s.keyboard.heldPaste.isSome
  sent : ∀ n, s.content = some (.advertised n) → n < s.adverts
  /-- The timer of a key that waits for an answer was set with its advert or
  a later one. -/
  timer : ∀ n, s.content = some (.advertised n) → s.keyboard.pasteReplayTimer.isSome →
    ∃ m ∈ s.timerFor, n ≤ m
  onTime : s.OnTime

theorem inv_initial : initial.Inv := ⟨rfl, nofun, nofun, nofun, nofun⟩

section

variable {s : PasteAck} {i : KeyInput} {read : Option Nat}

/-- A key comes to wait for an answer with the advert that is sent now, or it
did so before. -/
theorem contentAfter_advertised {n : Nat} (h : s.contentAfter i read = some (.advertised n)) :
    s.keyboard.heldBack i = none ∧
      ((n = s.adverts ∧ Keyboard.sendsList i) ∨ s.content = some (.advertised n)) := by
  unfold contentAfter at h
  split at h
  · cases h
  · rename_i hkept
    have hback : s.keyboard.heldBack i = none := by
      rw [← Option.not_isSome_iff_eq_none]
      exact fun hback => hkept (.inl hback)
    refine ⟨hback, ?_⟩
    split at h
    · simp only [Option.some.injEq, PasteContent.advertised.injEq] at h
      exact .inl ⟨h.symm, rfl⟩
    · simp at h
    · split at h
      · simp only [Option.some.injEq, PasteContent.advertised.injEq] at h
        exact .inl ⟨h.symm, rfl⟩
      · simp at h
    · exact .inr h

theorem held_of_contentAfter (h : (s.contentAfter i read).isSome) :
    (s.keyboard.handle i).1.heldPaste.isSome := by
  unfold contentAfter at h
  split at h
  · cases h
  · rename_i hkept
    rw [Option.isSome_iff_ne_none]
    exact fun hnone => hkept (.inr hnone)

/-- A timer that is set and was not set by an advert or a new key was set
before. -/
theorem timer_of_timer_handle {k : Keyboard} (hback : k.heldBack i = none)
    (hsends : ¬ Keyboard.sendsList i) (htimer : (k.handle i).1.pasteReplayTimer.isSome) :
    k.pasteReplayTimer.isSome := by
  rw [Keyboard.pasteReplayTimer_handle, hback, Option.isSome_none,
    if_neg Bool.false_ne_true] at htimer
  split at htimer
  · cases htimer
  · rw [if_neg (fun h => hsends h.1)] at htimer
    split at htimer
    · cases htimer
    · exact htimer

theorem count_take (h : s.Inv)
    (hack : i = .formatListAck → s.lists.head? = some none → s.keyboard.advertsInFlight = 0) :
    (s.keyboard.handle i).1.advertsInFlight = ((s.listsAfter i).filterMap id).length := by
  have hcount := h.count
  rw [Keyboard.advertsInFlight_handle]
  cases i with
  | formatListAck =>
      change s.keyboard.advertsInFlight - 1 = (s.lists.tail.filterMap id).length
      cases hlists : s.lists with
      | nil => simp [hcount, hlists]
      | cons l rest =>
          rw [hlists] at hcount hack
          cases l with
          | some m => simp [hcount]
          | none =>
              have hzero := hack rfl rfl
              rw [List.filterMap_cons_none rfl] at hcount
              rw [List.tail_cons]
              omega
  | _ =>
      dsimp only [listsAfter]
      split
      · rw [List.filterMap_append, List.length_append, ← hcount]
        rfl
      · exact hcount

theorem inv_take (h : s.Inv)
    (hack : i = .formatListAck → s.lists.head? = some none → s.keyboard.advertsInFlight = 0)
    (hrelease : ∀ r ∈ s.releases i read, r.byNextKey = true ∨ r.Due) : (s.take i read).Inv where
  count := count_take h hack
  held := held_of_contentAfter
  sent := by
    intro n hn
    change n < if Keyboard.sendsList i then s.adverts + 1 else s.adverts
    obtain ⟨-, ⟨rfl, hsends⟩ | hold⟩ := contentAfter_advertised hn
    · rw [if_pos hsends]
      exact Nat.lt_succ_self _
    · have hsent := h.sent n hold
      split
      · exact Nat.lt_succ_of_lt hsent
      · exact hsent
  timer := by
    intro n hn htimer
    change (s.keyboard.handle i).1.pasteReplayTimer.isSome at htimer
    change ∃ m ∈ s.timerForAfter i, n ≤ m
    obtain ⟨hback, hcontent⟩ := contentAfter_advertised hn
    have hset : ¬ ((s.keyboard.heldBack i).isSome ∨
        (s.keyboard.handle i).1.pasteReplayTimer = none) := by
      rw [hback]
      rintro (hnone | hnone)
      · cases hnone
      · rw [hnone] at htimer
        cases htimer
    rw [timerForAfter, if_neg hset]
    by_cases hsends : Keyboard.sendsList i
    · rw [if_pos hsends]
      refine ⟨s.adverts, rfl, ?_⟩
      obtain ⟨rfl, -⟩ | hold := hcontent
      · exact Nat.le_refl _
      · exact (h.sent n hold).le
    · rw [if_neg hsends]
      obtain ⟨-, hsends'⟩ | hold := hcontent
      · exact absurd hsends' hsends
      · exact h.timer n hold (timer_of_timer_handle hback hsends htimer)
  onTime := by
    intro r hr
    obtain hr | hr := List.mem_append.mp hr
    · exact h.onTime r hr
    · exact hrelease r (Option.mem_toList.mp hr)

/-! ## Releases -/

theorem releases_spec {r : Release} (hr : r ∈ s.releases i read) :
    s.keyboard.delivers i ∧ s.content = some r.content ∧
      r.byNextKey = (s.keyboard.heldBack i).isSome ∧ r.unanswered = s.listsAfter i ∧
      (i = .replayTimer → r.expired = s.timerFor) ∧
      r.failed = read.any fun n => r.content = .reading n := by
  unfold releases at hr
  split at hr
  · rename_i held content hdelivery hcontent
    obtain rfl := Option.some.inj hr
    refine ⟨?_, hcontent, rfl, rfl, ?_, rfl⟩
    · by_contra hdelivers
      rw [Keyboard.delivery, if_neg hdelivers] at hdelivery
      cases hdelivery
    · rintro rfl
      rfl
  · cases hr

/-- A counted answer that brings the count to zero leaves no counted list. -/
theorem due_of_ack (h : s.Inv) (hfits : Fits s (.input .formatListAck)) (hlists : s.lists ≠ [])
    {r : Release} (hr : r ∈ s.releases .formatListAck none) : r.Due := by
  obtain ⟨hdelivers, hcontent, -, hunanswered, -, -⟩ := releases_spec hr
  obtain ⟨huncounted, hreading⟩ := hfits
  have hzero : s.keyboard.advertsInFlight ≤ 1 := by
    simp only [Keyboard.delivers, decide_eq_true_eq] at hdelivers
    omega
  obtain ⟨l, rest, hlists⟩ := List.exists_cons_of_ne_nil hlists
  left
  cases hc : r.content with
  | reading n =>
      rw [hc] at hcontent
      exact absurd (hreading n hcontent) (by omega)
  | advertised n =>
      refine ⟨n, rfl, .inl ?_⟩
      rw [hunanswered, listsAfter, hlists, List.tail_cons]
      cases l with
      | none =>
          obtain ⟨-, hnone⟩ := huncounted (by rw [hlists]; rfl)
          rw [hnone] at hcontent
          cases hcontent
      | some m =>
          have hcount := h.count
          rw [hlists] at hcount
          have hcons : (some m :: rest).filterMap id = m :: rest.filterMap id := rfl
          rw [hcons, List.length_cons] at hcount
          have hrest : rest.filterMap id = [] := List.length_eq_zero_iff.mp (by omega)
          intro hmem
          have hn : n ∈ rest.filterMap id := List.mem_filterMap.mpr ⟨some n, hmem, rfl⟩
          rw [hrest] at hn
          cases hn

theorem due_of_timer (h : s.Inv) (hfits : Fits s (.input .replayTimer)) {r : Release}
    (hr : r ∈ s.releases .replayTimer none) : r.Due := by
  obtain ⟨hdelivers, hcontent, -, -, hexpired, -⟩ := releases_spec hr
  left
  cases hc : r.content with
  | reading n =>
      rw [hc] at hcontent
      exact absurd hcontent (hfits n)
  | advertised n =>
      rw [hc] at hcontent
      refine ⟨n, rfl, .inr ?_⟩
      rw [hexpired rfl]
      exact h.timer n hcontent hdelivers

theorem not_released_of_none {r : Release} (hr : r ∈ s.releases i read)
    (hcontent : s.content = none) : False := by
  obtain ⟨-, hsome, -⟩ := releases_spec hr
  rw [hcontent] at hsome
  cases hsome

theorem not_released_of_not_delivers {r : Release} (hr : r ∈ s.releases i read)
    (hdelivers : s.keyboard.delivers i = false) : False := by
  obtain ⟨htrue, -⟩ := releases_spec hr
  rw [hdelivers] at htrue
  cases htrue

end

/-! ## Runs -/

theorem inv_input {s : PasteAck} (h : s.Inv) {i : KeyInput} (hfits : Fits s (.input i)) :
    (s.step (.input i)).Inv := by
  have hnone : ∀ {i : KeyInput}, (∀ r ∈ s.releases i none, r.byNextKey = true ∨ r.Due) →
      i ≠ .formatListAck → (s.take i none).Inv :=
    fun hrelease hne => inv_take h (fun heq => absurd heq hne) hrelease
  cases i with
  | keyDown clipboardEnabled e =>
      refine hnone (fun r hr => .inl ?_) (by simp)
      obtain ⟨hdelivers, -, hnext, -⟩ := releases_spec hr
      have hback : Keyboard.holdsBack clipboardEnabled e := hdelivers
      rw [hnext, Keyboard.heldBack, if_pos hback]
      rfl
  | keyUp code => exact hnone (fun r hr => (not_released_of_not_delivers hr rfl).elim) (by simp)
  | blur => exact hnone (fun r hr => (not_released_of_not_delivers hr rfl).elim) (by simp)
  | paste outcome =>
      refine hnone (fun r hr => False.elim ?_) (by simp)
      cases outcome with
      | known => exact not_released_of_none hr hfits
      | text sends =>
          obtain rfl | hcontent := hfits
          · exact not_released_of_not_delivers hr rfl
          · exact not_released_of_none hr hcontent
      | reading => exact not_released_of_not_delivers hr rfl
  | pasteRead reads sends => exact h
  | advert sends =>
      refine hnone (fun r hr => False.elim ?_) (by simp)
      obtain rfl | hcontent := hfits
      · exact not_released_of_not_delivers hr rfl
      · exact not_released_of_none hr hcontent
  | formatListAck =>
      rw [step]
      split
      · exact h
      · rename_i hlists
        exact inv_take h (fun _ hhead => (hfits.1 hhead).1)
          (fun r hr => .inr (due_of_ack h hfits hlists hr))
  | replayTimer => exact hnone (fun r hr => .inr (due_of_timer h hfits hr)) (by simp)

theorem inv_readSettles {s : PasteAck} (h : s.Inv) {read : Nat} {reads sends : Bool}
    (hfits : Fits s (.readSettles read reads sends)) :
    (s.step (.readSettles read reads sends)).Inv := by
  rw [step]
  split
  · exact h
  · rename_i n hn
    have h' : ({ s with reads := s.reads.eraseIdx read } : PasteAck).Inv :=
      ⟨h.count, h.held, h.sent, h.timer, h.onTime⟩
    refine inv_take h' nofun (fun r hr => ?_)
    obtain ⟨rfl, rfl⟩ | hcontent | ⟨m, hm, hcontent⟩ := hfits
    · exact (not_released_of_not_delivers hr rfl).elim
    · exact (not_released_of_none hr hcontent).elim
    · -- the key's own content could not be read or advertised
      obtain ⟨-, hcontent', -, -, -, hfailed⟩ := releases_spec hr
      obtain rfl : n = m := Option.some.inj (hn.symm.trans hm)
      have hown : r.content = .reading n := Option.some.inj (hcontent'.symm.trans hcontent)
      refine .inr (.inr ?_)
      rw [hfailed]
      exact decide_eq_true hown

theorem inv_step {s : PasteAck} {e : PasteAckEvent} (h : s.Inv) (hfits : Fits s e) :
    (s.step e).Inv := by
  cases e with
  | input i => exact inv_input h hfits
  | readSettles read reads sends => exact inv_readSettles h hfits
  | uncounted =>
      refine ⟨?_, h.held, h.sent, h.timer, h.onTime⟩
      change s.keyboard.advertsInFlight = ((s.lists ++ [none]).filterMap id).length
      rw [List.filterMap_append, h.count]
      simp

/-- Where every event of a run fits, no key with new content is delivered
before its time but by the next paste key. -/
theorem always_onTime {es : List PasteAckEvent} (h : Runs.Each step Fits initial es) :
    Runs.Always step OnTime initial es := by
  have hinv : Runs.Always step Inv initial es :=
    Runs.always_of_each (fun _ _ _ => inv_step) inv_initial h
  intro pre hpre
  exact (hinv pre hpre).onTime

def ctrl : KeyEvent := ⟨.controlLeft, true, false, false⟩
def ctrlV : KeyEvent := ⟨.keyV, true, false, false⟩

/-- Ctrl+V with new text. -/
def pasteText : List PasteAckEvent :=
  [.input (.keyDown true ctrl), .input (.keyDown true ctrlV), .input (.paste (.text true)),
    .input (.keyUp .keyV)]

/-- The remote acknowledges the text. -/
def acknowledged : List PasteAckEvent := pasteText ++ [.input .formatListAck]

theorem each_fits_acknowledged : Runs.Each step Fits initial acknowledged := by
  rw [acknowledged, pasteText]
  simp only [List.cons_append, List.nil_append, Runs.each_cons]
  refine ⟨trivial, trivial, .inl rfl, trivial, ⟨?_, ?_⟩, Runs.each_nil⟩
  · intro huncounted
    exact absurd huncounted (by decide)
  · intro n hreading
    cases hreading

theorem always_onTime_acknowledged : Runs.Always step OnTime initial acknowledged :=
  always_onTime each_fits_acknowledged

/-- The user presses V once more before the remote has answered. -/
def pasteTwice : List PasteAckEvent := pasteText ++ [.input (.keyDown true ctrlV)]

/-- The first key is sent with its Format List unanswered. -/
theorem not_always_due : ¬ ∀ es : List PasteAckEvent,
    Runs.Always step (fun s => ∀ r ∈ s.released, r.Due) initial es := by
  intro h
  have hlast := h pasteTwice pasteTwice (List.prefix_refl _)
    ⟨.advertised 0, true, [some 0], none, false⟩ (by decide)
  obtain ⟨n, hn, hunanswered | ⟨m, hm, -⟩⟩ | hfailed := hlast
  · obtain rfl : 0 = n := PasteContent.advertised.inj hn
    exact hunanswered (List.mem_singleton_self _)
  · cases hm
  · cases hfailed

end PasteAck

end WasmRdp
