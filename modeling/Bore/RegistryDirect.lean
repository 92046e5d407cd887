import Bore.RegistryOps

namespace Bore.RegistryDirect

open RegistryTypes RegistryOps

inductive SignalKind
  | offer
  | answer
  | ice
  deriving DecidableEq

def iceBudget (directCarriers : Nat) : Nat :=
  maxIceCandidatesPerSide * min (max directCarriers 1) maxDirectCarriers

def carrierBit (carrier : Nat) : BitVec 16 := 1#16 <<< carrier

def applySignal (bits : NegotiationBits) (isSource : Bool) (carrier : Nat) (kind : SignalKind)
    (budget : Nat) : Except WebTransferError NegotiationBits :=
  if maxDirectCarriers ≤ carrier then .error (.invalid "carrier index out of range")
  else match kind with
    | .offer =>
      if isSource then .error (.invalid "only the recipient offers")
      else if bits.offerSeen &&& carrierBit carrier ≠ 0 then .error (.invalid "offer already sent")
      else .ok { bits with offerSeen := bits.offerSeen ||| carrierBit carrier }
    | .answer =>
      if !isSource then .error (.invalid "only the source answers")
      else if bits.offerSeen &&& carrierBit carrier = 0 then .error (.invalid "no offer to answer")
      else if bits.answerSeen &&& carrierBit carrier ≠ 0 then .error (.invalid "answer already sent")
      else .ok { bits with answerSeen := bits.answerSeen ||| carrierBit carrier }
    | .ice =>
      if isSource then
        if budget ≤ bits.candidatesSource then .error (.limit "candidate budget spent")
        else .ok { bits with candidatesSource := bits.candidatesSource + 1 }
      else if budget ≤ bits.candidatesRecipient then .error (.limit "candidate budget spent")
      else .ok { bits with candidatesRecipient := bits.candidatesRecipient + 1 }

def sideOf (record : TransferRecord) (peer : PeerId) : Except WebTransferError Bool :=
  if record.source = peer then .ok true
  else if record.recipient = peer then .ok false
  else .error (.notParticipant "stranger to this transfer")

def counterpartOf (record : TransferRecord) (isSource : Bool) : PeerId :=
  if isSource then record.recipient else record.source

def setProbeBits (bits : NegotiationBits) (r : TransferRecord) : TransferRecord :=
  { r with upgrade := r.upgrade.map (fun up => { up with bits := bits }) }

/-- The negotiation a signal names: the transfer's own attempt, or the probe
running beside the relay. The start time is kept for the write-back. -/
def signalTarget (record : TransferRecord) (attemptId : AttemptId) :
    Except WebTransferError (Bool × Instant × NegotiationBits) :=
  if record.attemptId = some attemptId then
    match record.state with
    | .negotiatingDirect startedAt bits => .ok (false, startedAt, bits)
    | _ => .error (.staleAttempt "transfer is not negotiating")
  else match record.upgrade with
    | some up =>
      if up.attemptId = attemptId then .ok (true, up.startedAt, up.bits)
      else .error (.staleAttempt "stale attempt")
    | none => .error (.staleAttempt "stale attempt")

def refusedOnLimit (inner : RegistryInner) (e : WebTransferError) : RegistryInner :=
  if e.code = .limitExceeded then refused inner else inner

def signalSlot (cfg : Config) (peer : PeerId) (id : TransferId) (attemptId : AttemptId) (carrier : Nat)
    (kind : SignalKind) (s : Scope) : Scope × Except WebTransferError PeerId :=
  match s.record? id with
  | none => (s, .error (.transferNotFound "unknown transfer"))
  | some record =>
    match sideOf record peer with
    | .error e => (s, .error e)
    | .ok isSource =>
      match signalTarget record attemptId with
      | .error e => (s, .error e)
      | .ok (onProbe, startedAt, bits) =>
        match applySignal bits isSource carrier kind (iceBudget cfg.limits.directCarriers) with
        | .error e => ({ s with inner := refusedOnLimit s.inner e }, .error e)
        | .ok bits =>
          (s.updateRecord id (fun r =>
            if onProbe then setProbeBits bits r
            else { r with state := .negotiatingDirect startedAt bits }),
            .ok (counterpartOf record isSource))

def signalKind : RtcSignal → SignalKind
  | .offer _ => .offer
  | .answer _ => .answer
  | .ice _ _ _ => .ice

/-- `forward_rtc_offer`, `forward_rtc_answer` and `forward_rtc_ice`: the three
differ in the signal they carry. -/
def forwardRtc (cfg : Config) (peer : PeerId) (id : TransferId) (attemptId : AttemptId) (carrier : Nat)
    (signal : RtcSignal) (s : Scope) : Scope × Except WebTransferError Outbox :=
  match signalSlot cfg peer id attemptId carrier (signalKind signal) s with
  | (s', .error e) => (s', .error e)
  | (s', .ok counterpart) => (s', .ok [(counterpart, .rtc id attemptId carrier signal)])

def directStartOutbox (cfg : Config) (id : TransferId) (attemptId : AttemptId) (number : Nat)
    (source recipient : PeerId) (upgrade : Bool) : Outbox :=
  let carriers := if cfg.limits.directCarriers ≤ 255 then cfg.limits.directCarriers else 1
  let start (role : String) : Envelope :=
    .directStart id attemptId number role cfg.iceServers cfg.directDeadlineMs carriers upgrade
  [(recipient, start "offerer"), (source, start "answerer")]

def markReady (bits : NegotiationBits) (isSource : Bool) : Except WebTransferError NegotiationBits :=
  if isSource then
    if bits.answerSeen = 0 then .error (.invalid "answer not sent yet")
    else .ok { bits with readySource := true }
  else if bits.offerSeen = 0 then .error (.invalid "offer not sent yet")
  else .ok { bits with readyRecipient := true }

def bothReady (bits : NegotiationBits) : Bool := bits.readySource && bits.readyRecipient

def knownRanges (record : TransferRecord) : Ranges :=
  match record.resume with
  | some resume => resume.verifiedRanges
  | none => []

def setResume (ranges : Ranges) (r : TransferRecord) : TransferRecord :=
  { r with resume := some ⟨ranges, r.entrySize.getD 0⟩ }

def setResumeIfAny (ranges : Ranges) (r : TransferRecord) : TransferRecord :=
  if ranges.isEmpty then r else setResume ranges r

def commitProbe (up : UpgradeState) (number : Nat) (ranges : Ranges) (r : TransferRecord) : TransferRecord :=
  setResumeIfAny ranges { r with
    upgrade := none
    attemptNumber := number
    attemptId := some up.attemptId
    state := .activeDirect }

/-- The upgrade's half of `transfer.direct_ready`. `none` means the report does
not name the probe and the ordinary path owns it. -/
def upgradeReady (peer : PeerId) (id : TransferId) (attemptId : AttemptId) (recipientRanges : Ranges)
    (s : Scope) : Scope × Except WebTransferError (Option Outbox) :=
  match s.record? id with
  | none => (s, .error (.transferNotFound "unknown transfer"))
  | some record =>
    match record.upgrade with
    | none => (s, .ok none)
    | some up =>
      if up.attemptId ≠ attemptId then (s, .ok none)
      else match sideOf record peer with
        | .error e => (s, .error e)
        | .ok isSource =>
          match markReady up.bits isSource with
          | .error e => (s, .error e)
          | .ok bits =>
            let ranges := if isSource || recipientRanges.isEmpty then knownRanges record else recipientRanges
            match nextAttemptNumber record.attemptNumber with
            | .error _ => (s, .error (.invalid "attempt budget spent"))
            | .ok number =>
              if bothReady bits then
                let commit : Envelope := .pathCommit id up.attemptId "direct" ranges
                (s.installAttempt id ⟨up.attemptId, number, none⟩ (commitProbe up number ranges),
                  .ok (some [(record.recipient, commit), (record.source, commit)]))
              else
                (s.updateRecord id (fun r =>
                  let r := setProbeBits bits r
                  if !isSource && !recipientRanges.isEmpty then setResume recipientRanges r else r),
                  .ok (some []))

def directReady (peer : PeerId) (id : TransferId) (attemptId : AttemptId) (s : Scope) :
    Scope × Except WebTransferError Outbox :=
  match s.record? id with
  | none => (s, .error (.transferNotFound "unknown transfer"))
  | some record =>
    match sideOf record peer with
    | .error e => (s, .error e)
    | .ok isSource =>
      if record.attemptId ≠ some attemptId then (s, .error (.staleAttempt "stale attempt"))
      else match record.state with
        | .negotiatingDirect startedAt bits =>
          match markReady bits isSource with
          | .error e => (s, .error e)
          | .ok bits =>
            if bothReady bits then
              let commit : Envelope := .pathCommit id attemptId "direct" (knownRanges record)
              (s.updateRecord id (fun r => { r with state := .activeDirect }),
                .ok [(record.recipient, commit), (record.source, commit)])
            else (s.updateRecord id (fun r => { r with state := .negotiatingDirect startedAt bits }), .ok [])
        | _ => (s, .error (.staleAttempt "transfer is not negotiating"))

def clearUpgrade (id : TransferId) (attemptId : AttemptId) (s : Scope) : Scope × Bool :=
  match s.record? id with
  | none => (s, false)
  | some record =>
    if record.upgrade.map UpgradeState.attemptId = some attemptId then
      (s.updateRecord id (fun r => { r with upgrade := none }), true)
    else (s, false)

def directUpgradeElapsed (cfg : Config) (now : Instant) (draw : AttemptId) (id : TransferId) (s : Scope) :
    Scope × Outbox :=
  if s.room.relayOnly then (s, [])
  else match s.record? id with
    | none => (s, [])
    | some record =>
      if record.state ≠ .active || record.upgrade.isSome then (s, [])
      else if upgradeTryLimit ≤ record.upgradeTries then (s, [])
      else
        (s.updateRecord id (fun r =>
          { r with upgradeTries := r.upgradeTries + 1, upgrade := some ⟨draw, now, {}⟩ }),
          directStartOutbox cfg id draw (min (record.attemptNumber + 1) u64Max) record.source
            record.recipient true)

def directFailedParty (peer : PeerId) (id : TransferId) (s : Scope) : Except WebTransferError (Bool × PeerId) :=
  match s.record? id with
  | none => .error (.transferNotFound "unknown transfer")
  | some record =>
    match sideOf record peer with
    | .error e => .error e
    | .ok isSource => .ok (!isSource, counterpartOf record isSource)

def adoptLateRecipientResume (id : TransferId) (failedAttempt : AttemptId) (ranges : Ranges) (s : Scope) : Scope :=
  match s.record? id with
  | none => s
  | some record =>
    if record.state ≠ .waitingRelay || record.lastDirectAttempt ≠ some failedAttempt then s
    else s.updateRecord id (setResume ranges)

def fallbackPermitted (cause : FallbackCause) (state : TransferState) : Bool :=
  match cause with
  | .reported => state.isNegotiatingDirect || decide (state = .activeDirect)
  | .deadline => state.isNegotiatingDirect

def currentAttempt (id : TransferId) (s : Scope) : Option AttemptId :=
  (s.record? id).bind TransferRecord.attemptId

end Bore.RegistryDirect
