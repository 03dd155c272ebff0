import WasmRdp.Lib.Runs
import WasmRdp.Rdpsnd

/-!
# The formats of waves

Any payloads, one after another. Beside the client stands what the server
knows: the formats that it has offered last, the list of formats that it was
sent last, and the wave whose first part it has sent. The client's list is the
one that was sent (`RdpsndRun.Inv`), so that the number of a format means the
same on both sides.

What the server knows is computed from the payloads and the replies alone. A
payload completes a wave when it is a wave of the newer kind, or the first
part of an older one with the second behind it, or what comes after a first
part that stood by itself (`completed`, `openedAfter`); the client's own
`pendingWaveInfo` is that last wave (`pendingWaveInfo_handlePdu`).

One payload can do three things that matter, which `Outcome` lists: it is
answered with a new list of formats, it delivers the wave that it completes,
or it does neither. `outcome_handlePdu` establishes it through the state
machine. From it, a wave that is delivered has the format that its number
stands for in the list that was sent last, and is confirmed with its own
number and timestamp (`Inv.delivers`), in every state and also after a new
offer. `always_negotiated` adds that the page's handler, which offers just the
formats it can play, drops none of them.
-/

namespace WasmRdp

open Decode

/-! ## What the server knows -/

/-- What a confirmation has to echo, and the number of the format. -/
structure WaveHeader where
  timestamp : UInt16
  formatNo : UInt16
  blockNo : UInt8
  deriving DecidableEq

def WaveInfoPdu.header (pdu : WaveInfoPdu) : WaveHeader :=
  ⟨pdu.timestamp, pdu.formatNo, pdu.blockNo⟩

def Wave2Pdu.header (pdu : Wave2Pdu) : WaveHeader :=
  ⟨pdu.timestamp, pdu.formatNo, pdu.blockNo⟩

/-- The wave of a PDU that the ordinary decoder has decoded. -/
def ServerAudioOutputPdu.header? : ServerAudioOutputPdu → Option WaveHeader
  | .wave2 pdu => some pdu.header
  | _ => none

def ServerAudioOutputPdu.offered? : ServerAudioOutputPdu → Option (List AudioFormat)
  | .audioFormat af => some af.formats
  | _ => none

/-- The payload is a `SNDC_WAVE`. -/
def IsSndcWave (payload : List UInt8) : Prop :=
  4 ≤ payload.length ∧ payload.head? = some SNDC_WAVE

instance decidableIsSndcWave (payload : List UInt8) : Decidable (IsSndcWave payload) :=
  inferInstanceAs (Decidable (_ ∧ _))

/-- The first part of a wave, and the bytes after it. -/
def firstPart (payload : List UInt8) : Option (WaveInfoPdu × List UInt8) :=
  if IsSndcWave payload then (WaveInfoPdu.decode.run (payload.drop 4)).toOption else none

def otherPdu (payload : List UInt8) : Option ServerAudioOutputPdu :=
  if IsSndcWave payload then none
  else (ServerAudioOutputPdu.decode.run payload).toOption.map Prod.fst

/-- The wave that is begun but not complete after the payload. -/
def openedAfter (opened : Option WaveInfoPdu) (payload : List UInt8) : Option WaveInfoPdu :=
  match opened, firstPart payload with
  | none, some (waveInfo, remaining) => if 4 ≤ remaining.length then none else some waveInfo
  | _, _ => none

/-- The wave that is complete with the payload. -/
def completed (opened : Option WaveInfoPdu) (payload : List UInt8) : Option WaveHeader :=
  match opened, firstPart payload with
  | some waveInfo, _ => some waveInfo.header
  | none, some (waveInfo, remaining) =>
      if 4 ≤ remaining.length then some waveInfo.header else none
  | none, none => (otherPdu payload).bind ServerAudioOutputPdu.header?

/-- The formats that the payload offers. -/
def offered (opened : Option WaveInfoPdu) (payload : List UInt8) : Option (List AudioFormat) :=
  match opened with
  | some _ => none
  | none => (otherPdu payload).bind ServerAudioOutputPdu.offered?

def ClientAudioOutputPdu.formats? : ClientAudioOutputPdu → Option (List AudioFormat)
  | .audioFormat pdu => some pdu.formats
  | _ => none

/-- The last list of formats in a reply. -/
def sentFormats : Reply → Option (List AudioFormat)
  | .ok msgs => (msgs.filterMap ClientAudioOutputPdu.formats?).getLast?
  | .error _ => none

/-! ## Runs -/

/-- A payload that was handled. `sent` and `offered` are from before. -/
structure Exchange where
  completed : Option WaveHeader
  sent : Option (List AudioFormat)
  offered : Option (List AudioFormat)
  calls : List HandlerCall
  reply : Reply

/-- No wave is delivered, and none is confirmed. -/
structure Silent (calls : List HandlerCall) (reply : Reply) : Prop where
  calls : ∀ format ts data, .wave format ts data ∉ calls
  reply : ∀ msgs pdu, reply = .ok msgs → .waveConfirm pdu ∉ msgs

/-- The formats with tags that the handler supports. -/
def supportedOf (tags : List WaveFormat) (formats : List AudioFormat) : List AudioFormat :=
  formats.filter fun f => f.format ∈ tags

/-- The wave is delivered with the format that its number stands for in the
list that was sent last, and is confirmed. -/
structure Delivers (tags : List WaveFormat) (x : Exchange) : Prop where
  delivers : ∃ header ∈ x.completed, ∃ formats ∈ x.sent, ∃ format ts data,
    formats[header.formatNo.toNat]? = some format ∧ format.format ∈ tags ∧
    (∃ offered ∈ x.offered, formats = supportedOf tags offered) ∧
    x.calls = [.wave format ts data] ∧
    x.reply = .ok [.waveConfirm ⟨header.timestamp, header.blockNo⟩]

structure RdpsndRun where
  client : Rdpsnd
  opened : Option WaveInfoPdu
  sent : Option (List AudioFormat)
  offered : Option (List AudioFormat)
  exchanges : List Exchange

namespace RdpsndRun

def start (handler : RdpsndClientHandler) : RdpsndRun where
  client := .new handler
  opened := none
  sent := none
  offered := none
  exchanges := []

def step (s : RdpsndRun) (payload : List UInt8) : RdpsndRun :=
  let handled := s.client.handlePdu payload
  { client := handled.client
    opened := openedAfter s.opened payload
    sent := (sentFormats handled.reply).or s.sent
    offered := (WasmRdp.offered s.opened payload).or s.offered
    exchanges := s.exchanges ++
      [⟨completed s.opened payload, s.sent, s.offered, handled.calls, handled.reply⟩] }

/-- Every payload delivers a wave in the format that was negotiated, or none. -/
def Negotiated (tags : List WaveFormat) (s : RdpsndRun) : Prop :=
  ∀ x ∈ s.exchanges, Silent x.calls x.reply ∨ Delivers tags x

/-- The page's handler drops no wave. -/
def NoneDropped (s : RdpsndRun) : Prop :=
  ∀ x ∈ s.exchanges, ∀ format ts data, .wave format ts data ∈ x.calls →
    ∀ message, WasmRdpsndHandler.wave format ts data ≠ .logError message

end RdpsndRun

/-! ## Handling one payload -/

/-- The server has offered formats, and has been answered. -/
def Rdpsnd.Agreed (s : Rdpsnd) : Prop := s.state = .waitingForTraining ∨ s.state = .ready

/-- The formats stay as they are. -/
structure KeepsFormats (s s' : Rdpsnd) : Prop where
  handler : s'.handler = s.handler
  formats : s'.negotiatedFormats = s.negotiatedFormats
  agreed : s.Agreed → s'.Agreed

/-- What can become of a payload that completes a wave, or offers formats. -/
inductive Outcome (s : Rdpsnd) (h : Handled) :
    Option WaveHeader → Option (List AudioFormat) → Prop
  | silent {header : Option WaveHeader} {formats : Option (List AudioFormat)}
      (keeps : KeepsFormats s h.client) (silent : Silent h.calls h.reply)
      (unanswered : sentFormats h.reply = none) (stopped : formats ≠ none → ¬ s.Agreed) :
      Outcome s h header formats
  | wave {header : WaveHeader} {format : AudioFormat} {ts : UInt32} {data : List UInt8}
      (keeps : KeepsFormats s h.client)
      (lookup : s.negotiatedFormats[header.formatNo.toNat]? = some format)
      (calls : h.calls = [.wave format ts data])
      (reply : h.reply = .ok [.waveConfirm ⟨header.timestamp, header.blockNo⟩]) :
      Outcome s h (some header) none
  | negotiated {formats : List AudioFormat} (handler : h.client.handler = s.handler)
      (agreed : h.client.Agreed)
      (list : h.client.negotiatedFormats = supportedOf s.handler.supportedFormats formats)
      (silent : Silent h.calls h.reply)
      (sent : sentFormats h.reply = some h.client.negotiatedFormats) :
      Outcome s h none (some formats)

/-- Only the formats of the client matter, and whether they are agreed on. -/
theorem Outcome.of_agreed {s t : Rdpsnd} {h : Handled} {header : Option WaveHeader}
    {formats : Option (List AudioFormat)} (ho : Outcome t h header formats)
    (hhandler : t.handler = s.handler) (hformats : t.negotiatedFormats = s.negotiatedFormats)
    (hagreed : s.Agreed → t.Agreed) : Outcome s h header formats := by
  have hkeeps : KeepsFormats t h.client → KeepsFormats s h.client := fun hk =>
    ⟨hk.handler.trans hhandler, hk.formats.trans hformats, fun hs => hk.agreed (hagreed hs)⟩
  cases ho with
  | silent keeps silent unanswered stopped =>
      exact .silent (hkeeps keeps) silent unanswered fun hne hs => stopped hne (hagreed hs)
  | wave keeps lookup calls reply =>
      exact .wave (hkeeps keeps) (hformats ▸ lookup) calls reply
  | negotiated handler agreed list silent sent =>
      exact .negotiated (handler.trans hhandler) agreed (hhandler ▸ list) silent sent

namespace Rdpsnd

theorem negotiate_eq (s : Rdpsnd) (af : ServerAudioFormatPdu) :
    let formats := supportedOf s.handler.supportedFormats af.formats
    s.negotiate af =
      ({ s with
          serverFormat := some af
          state := .waitingForTraining
          negotiatedFormats := formats },
        .ok (.audioFormat ⟨af.version, s.handler.flags ||| AudioFormatFlags.ALIVE, formats,
            0xFFFF, 0xFFFF, 0x00010000, 0⟩ ::
          if AudioVersion.v6.toU16 ≤ af.version.toU16 then [.qualityMode .high] else [])) := by
  have hfilter : (af.formats.filter fun sf =>
      s.handler.supportedFormats.any fun tag => tag = sf.format) =
        supportedOf s.handler.supportedFormats af.formats := by
    refine List.filter_congr fun f _ => ?_
    rw [Bool.eq_iff_iff, List.any_eq_true, decide_eq_true_iff]
    simp only [decide_eq_true_iff, exists_eq_right]
  obtain ⟨version, formats⟩ := af
  dsimp only at hfilter ⊢
  rw [← hfilter]
  cases version <;> rfl

theorem outcome_negotiate (s : Rdpsnd) (af : ServerAudioFormatPdu) {calls : List HandlerCall}
    (hcalls : ∀ format ts data, .wave format ts data ∉ calls) :
    Outcome s ⟨(s.negotiate af).1, calls, (s.negotiate af).2⟩ none (some af.formats) := by
  rw [negotiate_eq]
  dsimp only
  refine .negotiated rfl (.inl rfl) rfl ⟨hcalls, ?_⟩ ?_
  · rintro msgs pdu ⟨⟩ hmem
    split at hmem <;> simp at hmem
  · dsimp only [sentFormats]
    split <;> rfl

theorem lookupFormat_cases (s : Rdpsnd) (formatNo : UInt16) :
    (∃ format, s.negotiatedFormats[formatNo.toNat]? = some format ∧
      s.lookupFormat formatNo = .ok format) ∨
    ∃ e, s.lookupFormat formatNo = .error e := by
  unfold lookupFormat
  split
  · rename_i format h
    exact .inl ⟨format, h, rfl⟩
  · exact .inr ⟨_, rfl⟩

/-- An error is silent. -/
theorem outcome_error (s : Rdpsnd) {s' : Rdpsnd} (hkeeps : KeepsFormats s s') (e : PduError)
    (header : Option WaveHeader) : Outcome s ⟨s', [], .error e⟩ header none :=
  .silent hkeeps ⟨by simp, by simp⟩ rfl (absurd rfl)

theorem outcome_processWaveData (s : Rdpsnd) (waveInfo : WaveInfoPdu) (payload : List UInt8) :
    Outcome s (s.processWaveData waveInfo payload) (some waveInfo.header) none := by
  have hkeeps : KeepsFormats s s := ⟨rfl, rfl, id⟩
  obtain ⟨format, hget, hlookup⟩ | ⟨e, hlookup⟩ := s.lookupFormat_cases waveInfo.formatNo
  · simp only [processWaveData, hlookup]
    exact .wave ⟨rfl, rfl, id⟩ hget rfl rfl
  · simp only [processWaveData, hlookup]
    exact s.outcome_error hkeeps e _

/-- Without waves, and without messages but of training. -/
theorem outcome_ok (s : Rdpsnd) {s' : Rdpsnd} (hkeeps : KeepsFormats s s')
    {calls : List HandlerCall} (hcalls : ∀ format ts data, .wave format ts data ∉ calls)
    (header : Option WaveHeader) {formats : Option (List AudioFormat)}
    (hstopped : formats ≠ none → ¬ s.Agreed) : Outcome s ⟨s', calls, .ok []⟩ header formats :=
  .silent hkeeps ⟨hcalls, by rintro msgs pdu ⟨⟩; exact List.not_mem_nil⟩ rfl hstopped

theorem outcome_quiet (s : Rdpsnd) {s' : Rdpsnd} (hkeeps : KeepsFormats s s')
    (header : Option WaveHeader) {formats : Option (List AudioFormat)}
    (hstopped : formats ≠ none → ¬ s.Agreed) : Outcome s ⟨s', [], .ok []⟩ header formats :=
  s.outcome_ok hkeeps (by simp) header hstopped

theorem outcome_trainingConfirm (s : Rdpsnd) {s' : Rdpsnd} (hkeeps : KeepsFormats s s')
    (pdu : TrainingPdu) : Outcome s ⟨s', [], trainingConfirm pdu⟩ none none :=
  .silent hkeeps ⟨by simp, by rintro msgs pdu ⟨⟩; simp⟩ rfl (absurd rfl)

theorem outcome_processReadyPdu (s : Rdpsnd) (pdu : ServerAudioOutputPdu) :
    Outcome s (s.processReadyPdu pdu) pdu.header? pdu.offered? := by
  have hkeeps : KeepsFormats s s := ⟨rfl, rfl, id⟩
  cases pdu with
  | wave2 pdu =>
      obtain ⟨format, hget, hlookup⟩ | ⟨e, hlookup⟩ := s.lookupFormat_cases pdu.formatNo
      · simp only [processReadyPdu, hlookup]
        exact .wave ⟨rfl, rfl, id⟩ hget rfl rfl
      · simp only [processReadyPdu, hlookup]
        exact s.outcome_error hkeeps e _
  | audioFormat af => exact s.outcome_negotiate af (by simp)
  | training pdu => exact s.outcome_trainingConfirm hkeeps pdu
  | volume pdu => exact s.outcome_ok hkeeps (by simp) none (absurd rfl)
  | pitch pdu => exact s.outcome_ok hkeeps (by simp) none (absurd rfl)
  | close => exact s.outcome_ok hkeeps (by simp) none (absurd rfl)
  | cryptKey pdu => exact s.outcome_quiet hkeeps none (absurd rfl)
  | wave pdu => exact s.outcome_quiet hkeeps none (absurd rfl)
  | waveEncrypt pdu => exact s.outcome_quiet hkeeps none (absurd rfl)

theorem outcome_handleDecoded (s : Rdpsnd) (pdu : ServerAudioOutputPdu) :
    Outcome s (s.handleDecoded pdu) pdu.header? pdu.offered? := by
  unfold handleDecoded
  cases hs : s.state with
  | start =>
      have hnot : ¬ s.Agreed := by simp [Agreed, hs]
      have hkeeps : KeepsFormats s { s with state := .stop } :=
        ⟨rfl, rfl, fun h => absurd h hnot⟩
      cases pdu with
      | audioFormat af => exact s.outcome_negotiate af (by simp)
      | _ => exact s.outcome_quiet hkeeps _ fun _ => hnot
  | waitingForTraining =>
      -- a client that skips the training does what it does when ready
      have hready := ({ s with state := .ready } : Rdpsnd).outcome_processReadyPdu pdu
      have houtcome := hready.of_agreed (s := s) rfl rfl fun _ => .inr rfl
      cases pdu <;> exact houtcome
  | ready => exact s.outcome_processReadyPdu pdu
  | stop =>
      exact s.outcome_quiet ⟨rfl, rfl, id⟩ _ fun _ => by simp [Agreed, hs]

/-- What becomes of a payload. -/
theorem outcome_handlePdu (s : Rdpsnd) (payload : List UInt8) :
    Outcome s (s.handlePdu payload) (completed s.pendingWaveInfo payload)
      (offered s.pendingWaveInfo payload) := by
  unfold handlePdu completed offered
  cases s.pendingWaveInfo with
  | some waveInfo =>
      have hdata := ({ s with pendingWaveInfo := none } : Rdpsnd).outcome_processWaveData
        waveInfo payload
      exact hdata.of_agreed rfl rfl id
  | none =>
      dsimp only
      unfold firstPart otherPdu
      by_cases hwave : 4 ≤ payload.length ∧ payload.head? = some SNDC_WAVE
      · have hsndc : IsSndcWave payload := hwave
        rw [if_pos hwave, if_pos hsndc, if_pos hsndc]
        cases hdecode : WaveInfoPdu.decode.run (payload.drop 4) with
        | error e => exact s.outcome_error ⟨rfl, rfl, id⟩ (.decode e) _
        | ok result =>
            obtain ⟨waveInfo, remaining⟩ := result
            dsimp only [Except.toOption]
            split
            · exact s.outcome_processWaveData waveInfo remaining
            · have hkeeps : KeepsFormats s { s with pendingWaveInfo := some waveInfo } :=
                ⟨rfl, rfl, id⟩
              exact s.outcome_quiet hkeeps none (absurd rfl)
      · have hsndc : ¬ IsSndcWave payload := hwave
        rw [if_neg hwave, if_neg hsndc, if_neg hsndc]
        cases hdecode : ServerAudioOutputPdu.decode.run payload with
        | error e => exact s.outcome_error ⟨rfl, rfl, id⟩ (.decode e) _
        | ok result => exact s.outcome_handleDecoded result.1

theorem pendingWaveInfo_processWaveData (s : Rdpsnd) (waveInfo : WaveInfoPdu)
    (payload : List UInt8) :
    (s.processWaveData waveInfo payload).client.pendingWaveInfo = s.pendingWaveInfo := by
  dsimp only [processWaveData]
  split <;> rfl

theorem pendingWaveInfo_negotiate (s : Rdpsnd) (af : ServerAudioFormatPdu) :
    (s.negotiate af).1.pendingWaveInfo = s.pendingWaveInfo := by
  rw [negotiate_eq]

theorem pendingWaveInfo_processReadyPdu (s : Rdpsnd) (pdu : ServerAudioOutputPdu) :
    (s.processReadyPdu pdu).client.pendingWaveInfo = s.pendingWaveInfo := by
  cases pdu with
  | wave2 pdu =>
      dsimp only [processReadyPdu]
      split <;> rfl
  | audioFormat af => exact s.pendingWaveInfo_negotiate af
  | _ => rfl

theorem pendingWaveInfo_handleDecoded (s : Rdpsnd) (pdu : ServerAudioOutputPdu) :
    (s.handleDecoded pdu).client.pendingWaveInfo = s.pendingWaveInfo := by
  unfold handleDecoded
  cases s.state with
  | start =>
      cases pdu with
      | audioFormat af => exact s.pendingWaveInfo_negotiate af
      | _ => rfl
  | waitingForTraining =>
      have hready := ({ s with state := .ready } : Rdpsnd).pendingWaveInfo_processReadyPdu pdu
      cases pdu <;> exact hready
  | ready => exact s.pendingWaveInfo_processReadyPdu pdu
  | stop => rfl

/-- A wave is pending as long as the server has sent its first part only. -/
theorem pendingWaveInfo_handlePdu (s : Rdpsnd) (payload : List UInt8) :
    (s.handlePdu payload).client.pendingWaveInfo = openedAfter s.pendingWaveInfo payload := by
  unfold handlePdu openedAfter
  cases hpending : s.pendingWaveInfo with
  | some waveInfo =>
      exact pendingWaveInfo_processWaveData { s with pendingWaveInfo := none } waveInfo payload
  | none =>
      dsimp only
      unfold firstPart
      by_cases hwave : 4 ≤ payload.length ∧ payload.head? = some SNDC_WAVE
      · have hsndc : IsSndcWave payload := hwave
        rw [if_pos hwave, if_pos hsndc]
        cases WaveInfoPdu.decode.run (payload.drop 4) with
        | error e => exact hpending
        | ok result =>
            obtain ⟨waveInfo, remaining⟩ := result
            dsimp only [Except.toOption]
            split
            · exact (s.pendingWaveInfo_processWaveData waveInfo remaining).trans hpending
            · rfl
      · have hsndc : ¬ IsSndcWave payload := hwave
        rw [if_neg hwave, if_neg hsndc]
        cases ServerAudioOutputPdu.decode.run payload with
        | error e => exact hpending
        | ok result => exact (s.pendingWaveInfo_handleDecoded result.1).trans hpending

end Rdpsnd

/-! ## Whole runs -/

namespace RdpsndRun

/-- The client's list is the one that was sent last, and that one is made from
the formats that were offered last. -/
structure Inv (handler : RdpsndClientHandler) (s : RdpsndRun) : Prop where
  sameHandler : s.client.handler = handler
  opened : s.client.pendingWaveInfo = s.opened
  list : s.client.negotiatedFormats = s.sent.getD []
  agreed : ∀ formats ∈ s.sent, s.client.Agreed ∧
    ∃ offered ∈ s.offered, formats = supportedOf handler.supportedFormats offered
  negotiated : s.Negotiated handler.supportedFormats

theorem inv_start (handler : RdpsndClientHandler) : (start handler).Inv handler :=
  ⟨rfl, rfl, rfl, by rintro _ ⟨⟩, by rintro _ ⟨⟩⟩

theorem Negotiated.concat {tags : List WaveFormat} {s s' : RdpsndRun} {x : Exchange}
    (h : s.Negotiated tags) (hs' : s'.exchanges = s.exchanges ++ [x])
    (hx : Silent x.calls x.reply ∨ Delivers tags x) : s'.Negotiated tags := by
  rw [Negotiated, hs', List.forall_mem_append, List.forall_mem_singleton]
  exact ⟨h, hx⟩

/-- A number that the client finds in its list is one of the list that was
sent. -/
theorem Inv.sent {handler : RdpsndClientHandler} {s : RdpsndRun} (h : s.Inv handler) {n : Nat}
    {format : AudioFormat} (hget : s.client.negotiatedFormats[n]? = some format) :
    ∃ formats ∈ s.sent, formats[n]? = some format := by
  rw [h.list] at hget
  cases hsent : s.sent with
  | none =>
      rw [hsent] at hget
      cases hget
  | some formats =>
      rw [hsent] at hget
      exact ⟨formats, rfl, hget⟩

/-- A wave that the client looks up is delivered. -/
theorem Inv.delivers {handler : RdpsndClientHandler} {s : RdpsndRun} (h : s.Inv handler)
    {x : Exchange} {header : WaveHeader} {format : AudioFormat} {ts : UInt32} {data : List UInt8}
    (hcompleted : x.completed = some header) (hsent : x.sent = s.sent)
    (hoffered : x.offered = s.offered)
    (lookup : s.client.negotiatedFormats[header.formatNo.toNat]? = some format)
    (calls : x.calls = [.wave format ts data])
    (reply : x.reply = .ok [.waveConfirm ⟨header.timestamp, header.blockNo⟩]) :
    Delivers handler.supportedFormats x := by
  obtain ⟨list, hlist, hget⟩ := h.sent lookup
  obtain ⟨offered, hoffer, hmade⟩ := (h.agreed list hlist).2
  have hmem : format ∈ supportedOf handler.supportedFormats offered :=
    hmade ▸ List.mem_of_getElem? hget
  have htag : format.format ∈ handler.supportedFormats := by
    simpa using (List.mem_filter.mp hmem).2
  exact ⟨header, hcompleted, list, hsent ▸ hlist, format, ts, data, hget, htag,
    ⟨offered, hoffered ▸ hoffer, hmade⟩, calls, reply⟩

/-- A payload to which no formats are sent. -/
theorem Inv.keeps {handler : RdpsndClientHandler} {s s' : RdpsndRun} {x : Exchange}
    (h : s.Inv handler) (keeps : KeepsFormats s.client s'.client)
    (hopened : s'.client.pendingWaveInfo = s'.opened) (hsent : s'.sent = s.sent)
    (hoffered : s.client.Agreed → s'.offered = s.offered)
    (hexchanges : s'.exchanges = s.exchanges ++ [x])
    (hx : Silent x.calls x.reply ∨ Delivers handler.supportedFormats x) : s'.Inv handler := by
  refine ⟨keeps.handler.trans h.sameHandler, hopened, ?_, ?_, h.negotiated.concat hexchanges hx⟩
  · rw [hsent, keeps.formats, h.list]
  · rw [hsent]
    intro list hlist
    obtain ⟨hagreed, hmade⟩ := h.agreed list hlist
    rw [hoffered hagreed]
    exact ⟨keeps.agreed hagreed, hmade⟩

/-- One payload. -/
theorem Inv.step {handler : RdpsndClientHandler} {s : RdpsndRun} (h : s.Inv handler)
    (payload : List UInt8) : (s.step payload).Inv handler := by
  have houtcome := s.client.outcome_handlePdu payload
  have hopened := s.client.pendingWaveInfo_handlePdu payload
  rw [h.opened] at houtcome hopened
  have hsent : (s.step payload).sent =
      (sentFormats (s.client.handlePdu payload).reply).or s.sent := rfl
  have hoffered : (s.step payload).offered =
      (WasmRdp.offered s.opened payload).or s.offered := rfl
  have hexchanges : (s.step payload).exchanges = s.exchanges ++ [⟨completed s.opened payload,
      s.sent, s.offered, (s.client.handlePdu payload).calls,
      (s.client.handlePdu payload).reply⟩] := rfl
  generalize completed s.opened payload = header at houtcome hexchanges
  generalize WasmRdp.offered s.opened payload = formats at houtcome hoffered
  cases houtcome with
  | silent keeps silent unanswered stopped =>
      rw [unanswered, Option.none_or] at hsent
      refine h.keeps keeps hopened hsent (fun hagreed => ?_) hexchanges (.inl silent)
      have hnone : formats = none := by
        by_contra hsome
        exact stopped hsome hagreed
      rw [hoffered, hnone, Option.none_or]
  | wave keeps lookup calls reply =>
      have hunsent : sentFormats (s.client.handlePdu payload).reply = none := by
        rw [reply]
        rfl
      rw [hunsent, Option.none_or] at hsent
      rw [Option.none_or] at hoffered
      exact h.keeps keeps hopened hsent (fun _ => hoffered) hexchanges
        (.inr (h.delivers rfl rfl rfl lookup calls reply))
  | negotiated sameHandler agreed list silent sent =>
      rename_i formats
      rw [sent, Option.some_or] at hsent
      rw [Option.some_or] at hoffered
      refine ⟨sameHandler.trans h.sameHandler, hopened, ?_, ?_,
        h.negotiated.concat hexchanges (.inl silent)⟩
      · rw [hsent]
        rfl
      · rw [hsent, hoffered, ← h.sameHandler]
        rintro _ ⟨⟩
        exact ⟨agreed, formats, rfl, list⟩

theorem always_inv (handler : RdpsndClientHandler) (payloads : List (List UInt8)) :
    Runs.Always step (Inv handler) (start handler) payloads :=
  Runs.always_of_each (c := fun _ _ => True) (fun _ payload _ h _ => h.step payload)
    (inv_start handler) fun _ _ _ => trivial

/-- The page's handler drops no wave in a format that it supports. -/
theorem wave_ne_logError {enableOpus enableAac : Bool} {format : AudioFormat}
    (h : format.format ∈ (WasmRdpsndHandler.new enableOpus enableAac).supportedTags)
    (ts : UInt32) (data : List UInt8) (message : String) :
    WasmRdpsndHandler.wave format ts data ≠ .logError message := by
  have htag : ¬ (format.format ≠ .PCM ∧ format.format ≠ .OPUS ∧ format.format ≠ .AAC_MS) := by
    rintro ⟨hpcm, hopus, haac⟩
    simp only [WasmRdpsndHandler.new, List.mem_append, List.mem_singleton] at h
    obtain (h | h) | h := h
    · split at h
      · exact haac (List.mem_singleton.mp h)
      · cases h
    · split at h
      · exact hopus (List.mem_singleton.mp h)
      · cases h
    · exact hpcm h
  rw [WasmRdpsndHandler.wave, if_neg htag]
  exact AudioCall.noConfusion

theorem Negotiated.noneDropped {enableOpus enableAac : Bool} {s : RdpsndRun}
    (h : s.Negotiated (WasmRdpsndHandler.new enableOpus enableAac).handler.supportedFormats) :
    s.NoneDropped := by
  intro x hx format ts data hcall message
  obtain hsilent | ⟨header, -, list, -, format', ts', data', -, htag, -, hcalls, -⟩ := h x hx
  · exact absurd hcall (hsilent.calls format ts data)
  · rw [hcalls, List.mem_singleton] at hcall
    obtain ⟨rfl, rfl, rfl⟩ := HandlerCall.wave.inj hcall
    exact wave_ne_logError htag ts data message

/-- In every run waves are delivered in the format that was negotiated, and
the page's handler drops none. -/
theorem always_negotiated :
    (∀ handler payloads, Runs.Always step (Negotiated handler.supportedFormats)
      (start handler) payloads) ∧
    ∀ enableOpus enableAac payloads, Runs.Always step NoneDropped
      (start (WasmRdpsndHandler.new enableOpus enableAac).handler) payloads := by
  constructor
  · intro handler payloads pre hpre
    exact (always_inv handler payloads pre hpre).negotiated
  · intro enableOpus enableAac payloads pre hpre
    exact (always_inv _ payloads pre hpre).negotiated.noneDropped

end RdpsndRun

end WasmRdp
