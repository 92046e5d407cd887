import Bore.ExpiringCache

namespace Bore.RequestReplay

open List

open ExpiringCache (Cache Entry Holds)

abbrev RequestId := BitVec 128

/-- Times are in nanoseconds, tokens in billionths. -/
def second : Nat := 1000000000

structure TokenBucket where
  ratePerSec : Nat
  burst : Nat
  tokens : Nat
  last : Nat

namespace TokenBucket

def new (ratePerSec burst now : Nat) : TokenBucket := ⟨ratePerSec, burst * second, burst * second, now⟩

def refill (b : TokenBucket) (now : Nat) : TokenBucket :=
  if 0 < now - b.last then { b with tokens := min (b.tokens + (now - b.last) * b.ratePerSec) b.burst, last := now } else b

def take (b : TokenBucket) (now : Nat) : Bool × TokenBucket :=
  let b := b.refill now
  if second ≤ b.tokens then (true, { b with tokens := b.tokens - second }) else (false, b)

end TokenBucket

def webTransferControlRatePerSec : Nat := 30

def webTransferMutationRatePerSec : Nat := 4

def webTransferMutationBurst : Nat := 8

def webTransferControlBurst (directCarriers : Nat) : Nat := 60 + (max 1 (min directCarriers 8) - 1) * 16

def requestCacheCap : Nat := 256

def requestCacheTtl : Nat := 300 * second

inductive MessageType
  | peerRename
  | offerPublish
  | offerWithdraw
  | transferRequest
  | transferSourceReady
  | transferReject
  | rtcOffer
  | rtcAnswer
  | rtcIce
  | transferDirectReady
  | transferDirectFailed
  | transferCancel
  | transferProgress
  | transferComplete
  deriving DecidableEq

/-- How the branch of a message type deals with the mutation bucket and the
cache: `transient` is the error it never caches. -/
structure Policy where
  mutation : Bool
  remembered : Bool
  transient : Option String

namespace MessageType

def policy : MessageType → Policy
  | peerRename => ⟨true, true, none⟩
  | offerPublish => ⟨true, true, some "LIMIT_EXCEEDED"⟩
  | offerWithdraw => ⟨true, true, none⟩
  | transferRequest => ⟨true, true, some "LIMIT_EXCEEDED"⟩
  | transferSourceReady => ⟨true, true, none⟩
  | transferReject => ⟨true, true, none⟩
  | rtcOffer => ⟨false, false, none⟩
  | rtcAnswer => ⟨false, false, none⟩
  | rtcIce => ⟨false, false, none⟩
  | transferDirectReady => ⟨true, false, none⟩
  | transferDirectFailed => ⟨true, false, none⟩
  | transferCancel => ⟨true, true, some "TRANSFER_NOT_FOUND"⟩
  | transferProgress => ⟨false, false, none⟩
  | transferComplete => ⟨true, true, some "TRANSFER_NOT_FOUND"⟩

end MessageType

abbrev Result := Option (List (String × String))

inductive Reply
  | pong
  | ack (id : RequestId) (result : Result)
  | error (id : Option RequestId) (code : String)
  deriving DecidableEq

def errorCodes : List String :=
  ["UNSUPPORTED_VERSION", "ROOM_UNAVAILABLE", "UNAUTHORIZED", "INVALID_MESSAGE", "RATE_LIMITED", "LIMIT_EXCEEDED",
    "OFFER_NOT_FOUND", "OFFER_CHANGED", "TRANSFER_NOT_FOUND", "NOT_PARTICIPANT", "SOURCE_OFFLINE", "SOURCE_CHANGED",
    "DIRECT_FAILED", "RELAY_BUSY", "STORAGE_QUOTA", "CANCELLED", "INTERNAL", "STALE_ATTEMPT"]

def errorEnvelope (id : Option RequestId) (code : String) : Reply :=
  .error id (if errorCodes.contains code then code else "INTERNAL")

/-- A text message by what the parsers make of it: no JSON, another version,
a refused envelope, the two types without a request identifier, or a request
with the body its parser returns. -/
inductive Raw (Body : Type)
  | notJson
  | otherVersion (id : Option RequestId)
  | badEnvelope (id : Option RequestId)
  | ping (wellFormed : Bool)
  | hello
  | request (id : RequestId) (typ : MessageType) (body : Option Body)

/-- The operation of the registry that a message type asks for, under the
room's lock. The rooms stand with what their outboxes have sent and with the
tasks that were spawned. -/
abbrev Operations (Rooms Body : Type) := Rooms → MessageType → Body → Except String Result × Rooms

structure PeerSession (Rooms : Type) where
  now : Nat
  control : TokenBucket
  mutation : TokenBucket
  cache : Cache RequestId Reply
  rooms : Rooms
  replies : List Reply

namespace PeerSession

variable {Rooms Body : Type} (ops : Operations Rooms Body) (s : PeerSession Rooms)

def start (directCarriers now : Nat) (rooms : Rooms) : PeerSession Rooms where
  now := now
  control := .new webTransferControlRatePerSec (webTransferControlBurst directCarriers) now
  mutation := .new webTransferMutationRatePerSec webTransferMutationBurst now
  cache := []
  rooms := rooms
  replies := []

def reply (message : Reply) : PeerSession Rooms := { s with replies := s.replies ++ [message] }

def remember (keep : Bool) (id : RequestId) (message : Reply) : PeerSession Rooms :=
  if keep then { s with cache := ExpiringCache.insert requestCacheTtl requestCacheCap s.cache id message s.now } else s

def perform (id : RequestId) (typ : MessageType) (body : Body) : PeerSession Rooms :=
  match ops s.rooms typ body with
  | (.ok result, rooms) =>
    let message := Reply.ack id result
    ({ s with rooms := rooms }.remember typ.policy.remembered id message).reply message
  | (.error code, rooms) =>
    let message := errorEnvelope (some id) code
    let keep := typ.policy.remembered && typ.policy.transient != some code
    ({ s with rooms := rooms }.remember keep id message).reply message

def takeMutation (needed : Bool) : Bool × TokenBucket := if needed then s.mutation.take s.now else (true, s.mutation)

def dispatch (id : RequestId) (typ : MessageType) (body : Option Body) : PeerSession Rooms :=
  let (granted, bucket) := s.takeMutation typ.policy.mutation
  let s := { s with mutation := bucket }
  if granted then
    match body with
    | none =>
      let message := errorEnvelope (some id) "INVALID_MESSAGE"
      (s.remember typ.policy.remembered id message).reply message
    | some body => s.perform ops id typ body
  else s.reply (errorEnvelope (some id) "RATE_LIMITED")

def replayOr (id : RequestId) (typ : MessageType) (body : Option Body) : PeerSession Rooms :=
  let s := { s with cache := ExpiringCache.expire requestCacheTtl s.now s.cache }
  match ExpiringCache.find s.cache id with
  | some cached => s.reply cached
  | none => s.dispatch ops id typ body

def handleText (elapsed : Nat) (raw : Raw Body) : PeerSession Rooms :=
  let s := { s with now := s.now + elapsed }
  let (granted, bucket) := s.control.take s.now
  match raw with
  | .notJson => s.reply (errorEnvelope none "INVALID_MESSAGE")
  | .otherVersion id => s.reply (errorEnvelope id "UNSUPPORTED_VERSION")
  | .badEnvelope _ => s.reply (errorEnvelope none "INVALID_MESSAGE")
  | .ping wellFormed =>
    let s := { s with control := bucket }
    if granted then s.reply (if wellFormed then .pong else errorEnvelope none "INVALID_MESSAGE")
    else s.reply (errorEnvelope none "RATE_LIMITED")
  | .hello =>
    let s := { s with control := bucket }
    s.reply (errorEnvelope none (if granted then "INVALID_MESSAGE" else "RATE_LIMITED"))
  | .request id typ body =>
    let s := { s with control := bucket }
    if granted then s.replayOr ops id typ body else s.reply (errorEnvelope (some id) "RATE_LIMITED")

end PeerSession

inductive Input (Rooms Body : Type)
  | text (elapsed : Nat) (raw : Raw Body)
  | rooms (rooms : Rooms)

namespace Input

variable {Rooms Body : Type}

def requestId : Input Rooms Body → Option RequestId
  | .text _ (.request id _ _) => some id
  | _ => none

end Input

namespace PeerSession

variable {Rooms Body : Type} (ops : Operations Rooms Body)

def receive (s : PeerSession Rooms) : Input Rooms Body → PeerSession Rooms
  | .text elapsed raw => s.handleText ops elapsed raw
  | .rooms rooms => { s with rooms := rooms }

def run (s : PeerSession Rooms) (inputs : List (Input Rooms Body)) : PeerSession Rooms := inputs.foldl (receive ops) s

end PeerSession

open PeerSession

section Replay

variable {Rooms Body : Type} {ops : Operations Rooms Body} {s : PeerSession Rooms}

def PeerSession.replay (s : PeerSession Rooms) (id : RequestId) : Option Reply :=
  ExpiringCache.find (ExpiringCache.expire requestCacheTtl s.now s.cache) id

def PeerSession.polled (s : PeerSession Rooms) (elapsed : Nat) (bucket : TokenBucket) : PeerSession Rooms :=
  { s with now := s.now + elapsed, control := bucket, cache := ExpiringCache.expire requestCacheTtl (s.now + elapsed) s.cache }

def otherIds (q : RequestId) (inputs : List (Input Rooms Body)) : Finset RequestId :=
  ((inputs.filterMap Input.requestId).filter (fun id => id ≠ q)).toFinset

theorem known_transient {typ : MessageType} {code : String} (id : RequestId) (h : typ.policy.transient = some code) :
    errorEnvelope (some id) code = .error (some id) code := by
  cases typ <;> cases h <;> rfl

/-- Every branch queues one message and may remember it. It does unless the
type is not remembered, a bucket was empty or the error is transient. -/
theorem dispatch_eq (ops : Operations Rooms Body) (s : PeerSession Rooms) (id : RequestId) (typ : MessageType)
    (body : Option Body) : ∃ bucket rooms message keep,
      s.dispatch ops id typ body = ({ s with mutation := bucket, rooms := rooms }.remember keep id message).reply message ∧
      (typ.policy.remembered = true → message ≠ .error (some id) "RATE_LIMITED" →
        (∀ code, typ.policy.transient = some code → message ≠ .error (some id) code) → keep = true) := by
  rw [dispatch]
  obtain ⟨granted, bucket⟩ := s.takeMutation typ.policy.mutation
  cases granted with
  | false => exact ⟨bucket, s.rooms, errorEnvelope (some id) "RATE_LIMITED", false, rfl, fun _ h _ => absurd rfl h⟩
  | true =>
    cases body with
    | none => exact ⟨bucket, s.rooms, errorEnvelope (some id) "INVALID_MESSAGE", typ.policy.remembered, rfl, fun h _ _ => h⟩
    | some =>
      simp only [if_true, perform]
      split
      · rename_i result rooms _
        exact ⟨bucket, rooms, .ack id result, typ.policy.remembered, rfl, fun h _ _ => h⟩
      rename_i code rooms _
      refine ⟨bucket, rooms, errorEnvelope (some id) code, typ.policy.remembered && typ.policy.transient != some code,
        rfl, fun h _ htransient => ?_⟩
      rw [h, Bool.true_and, bne_iff_ne]
      intro hcode
      exact htransient code hcode (known_transient id hcode)

@[simp] theorem now_remember (keep : Bool) (id : RequestId) (message : Reply) : (s.remember keep id message).now = s.now := by
  cases keep <;> rfl

theorem now_dispatch (id : RequestId) (typ : MessageType) (body : Option Body) : (s.dispatch ops id typ body).now = s.now := by
  obtain ⟨bucket, rooms, message, keep, he, -⟩ := dispatch_eq ops s id typ body
  rw [he]
  exact now_remember keep id message

theorem handleText_request (ops : Operations Rooms Body) (s : PeerSession Rooms) (elapsed : Nat) (id : RequestId)
    (typ : MessageType) (body : Option Body) : ∃ bucket, s.handleText ops elapsed (.request id typ body) =
      if (s.control.take (s.now + elapsed)).1 then
        match { s with now := s.now + elapsed }.replay id with
        | some cached => { s.polled elapsed bucket with replies := s.replies ++ [cached] }
        | none => (s.polled elapsed bucket).dispatch ops id typ body
      else { s with
        now := s.now + elapsed
        control := bucket
        replies := s.replies ++ [errorEnvelope (some id) "RATE_LIMITED"] } :=
  ⟨(s.control.take (s.now + elapsed)).2, rfl⟩

theorem now_handleText (elapsed : Nat) (raw : Raw Body) : (s.handleText ops elapsed raw).now = s.now + elapsed := by
  cases raw with
  | notJson | otherVersion _ | badEnvelope _ | hello => rfl
  | ping =>
    simp only [handleText]
    split <;> rfl
  | request id typ body =>
    obtain ⟨bucket, he⟩ := handleText_request ops s elapsed id typ body
    rw [he]
    split
    · split
      · rfl
      · exact now_dispatch _ _ _
    · rfl

theorem now_le_run (inputs : List (Input Rooms Body)) : s.now ≤ (s.run ops inputs).now := by
  induction inputs generalizing s with
  | nil => exact Nat.le_refl _
  | cons input _ ih =>
    refine Nat.le_trans ?_ ih
    cases input with
    | text =>
      rw [receive, now_handleText]
      exact Nat.le_add_right _ _
    | rooms => exact Nat.le_refl _

variable {e : Entry RequestId Reply} {seen : Finset RequestId}

theorem holds_handleText {elapsed : Nat} {raw : Raw Body} (h : Holds e seen s.cache)
    (hf : s.now + elapsed - e.stored < requestCacheTtl)
    (hcard : (seen ∪ otherIds e.id ([.text elapsed raw] : List (Input Rooms Body))).card < requestCacheCap) :
    Holds e (seen ∪ otherIds e.id ([.text elapsed raw] : List (Input Rooms Body))) (s.handleText ops elapsed raw).cache := by
  have hmore : Holds e (seen ∪ otherIds e.id ([.text elapsed raw] : List (Input Rooms Body))) s.cache :=
    h.mono Finset.subset_union_left
  cases raw with
  | notJson | otherVersion _ | badEnvelope _ | hello => exact hmore
  | ping =>
    simp only [handleText]
    split <;> exact hmore
  | request id typ body =>
    obtain ⟨bucket, he⟩ := handleText_request ops s elapsed id typ body
    have hexp := hmore.expire hf
    rw [he]
    split
    · split
      · exact hexp
      · rename_i hnone
        -- The identifier itself is still answered, so this is another one.
        have hid : id ≠ e.id := by
          rintro rfl
          rw [PeerSession.replay, hexp.find] at hnone
          cases hnone
        obtain ⟨b, rooms, message, keep, hd, -⟩ := dispatch_eq ops (s.polled elapsed bucket) id typ body
        rw [hd]
        cases keep with
        | false => exact hexp
        | true =>
          have hone : otherIds e.id ([.text elapsed (.request id typ body)] : List (Input Rooms Body)) = {id} := by
            simp [otherIds, Input.requestId, hid]
          rw [hone, Finset.union_comm, ← Finset.insert_eq] at hcard ⊢
          exact (h.expire hf).insert hf hid hcard
    · exact hmore

theorem otherIds_cons (q : RequestId) (input : Input Rooms Body) (rest : List (Input Rooms Body)) :
    otherIds q (input :: rest) = otherIds q [input] ∪ otherIds q rest := by
  rw [otherIds, otherIds, otherIds, ← toFinset_append, ← filter_append, ← filterMap_append]
  rfl

/-- An answer stays in the cache as long as it is fresh and fewer than the
cache's capacity of other requests have come. -/
theorem holds_run {inputs : List (Input Rooms Body)} (h : Holds e seen s.cache)
    (hf : (s.run ops inputs).now - e.stored < requestCacheTtl)
    (hcard : (seen ∪ otherIds e.id inputs).card < requestCacheCap) :
    Holds e (seen ∪ otherIds e.id inputs) (s.run ops inputs).cache := by
  induction inputs generalizing s seen with
  | nil => exact h.mono Finset.subset_union_left
  | cons input rest ih =>
    rw [otherIds_cons, ← Finset.union_assoc] at hcard ⊢
    have hle : (s.receive ops input).now ≤ (s.run ops (input :: rest)).now := now_le_run rest
    refine ih ?_ hf hcard
    cases input with
    | text =>
      rw [receive, now_handleText] at hle
      refine holds_handleText h (Nat.lt_of_le_of_lt (Nat.sub_le_sub_right hle _) hf) ?_
      exact Nat.lt_of_le_of_lt (Finset.card_le_card Finset.subset_union_left) hcard
    | rooms => exact h.mono Finset.subset_union_left

theorem holds_first {elapsed : Nat} {q : RequestId} {typ : MessageType} {body : Option Body} {answer : Reply}
    (hnew : { s with now := s.now + elapsed }.replay q = none)
    (hanswer : (s.handleText ops elapsed (.request q typ body)).replies = s.replies ++ [answer])
    (hkept : typ.policy.remembered = true) (hrate : answer ≠ .error (some q) "RATE_LIMITED")
    (htransient : ∀ code, typ.policy.transient = some code → answer ≠ .error (some q) code) :
    Holds ⟨q, answer, s.now + elapsed⟩ ∅ (s.handleText ops elapsed (.request q typ body)).cache := by
  obtain ⟨bucket, he⟩ := handleText_request ops s elapsed q typ body
  rw [he, hnew] at hanswer ⊢
  split at hanswer
  · rename_i hgranted
    rw [if_pos hgranted]
    obtain ⟨b, rooms, message, keep, hd, hkeep⟩ := dispatch_eq ops (s.polled elapsed bucket) q typ body
    rw [hd] at hanswer ⊢
    have hm : message = answer := by
      cases keep <;> exact singleton_inj.mp (append_cancel_left hanswer)
    subst hm
    rw [hkeep hkept hrate htransient]
    exact ExpiringCache.holds_insert_self q message
  · exact absurd (singleton_inj.mp (append_cancel_left hanswer)).symm hrate

/-- A request that was answered and remembered is answered the same while its
answer is fresh and at most 255 other identifiers have come, and the rooms
stay as they are; only an empty control bucket answers for it. What the cache
has dropped is dispatched again. -/
theorem remembered_request_is_replayed (ops : Operations Rooms Body) (s : PeerSession Rooms) (q : RequestId) :
    (∀ (elapsed : Nat) (typ : MessageType) (body : Option Body) (answer : Reply) (between : List (Input Rooms Body))
        (later : Nat) (typ' : MessageType) (body' : Option Body), { s with now := s.now + elapsed }.replay q = none →
      (s.handleText ops elapsed (.request q typ body)).replies = s.replies ++ [answer] →
      typ.policy.remembered = true → answer ≠ .error (some q) "RATE_LIMITED" →
      (∀ code, typ.policy.transient = some code → answer ≠ .error (some q) code) → (otherIds q between).card ≤ 255 →
      let t := (s.handleText ops elapsed (.request q typ body)).run ops between
      t.now + later - (s.now + elapsed) < requestCacheTtl →
      let u := t.handleText ops later (.request q typ' body')
      u.rooms = t.rooms ∧ u.replies = t.replies ++
        [if (t.control.take (t.now + later)).1 then answer else .error (some q) "RATE_LIMITED"]) ∧
    (∀ (elapsed : Nat) (typ : MessageType) (body : Option Body),
      { s with now := s.now + elapsed }.replay q = none → (s.control.take (s.now + elapsed)).1 = true →
      ∃ bucket, s.handleText ops elapsed (.request q typ body) =
        { s with
          now := s.now + elapsed
          control := bucket
          cache := ExpiringCache.expire requestCacheTtl (s.now + elapsed) s.cache }.dispatch ops q typ body) := by
  constructor
  · intro elapsed typ body answer between later typ' body' hnew hanswer hkept hrate htransient hids t hfresh u
    have hfirst := holds_first hnew hanswer hkept hrate htransient
    have hnow : t.now ≤ t.now + later := Nat.le_add_right _ _
    have hheld : Holds ⟨q, answer, s.now + elapsed⟩ (∅ ∪ otherIds q between) t.cache := by
      refine holds_run hfirst (Nat.lt_of_le_of_lt (Nat.sub_le_sub_right hnow _) hfresh) ?_
      exact Nat.lt_succ_of_le hids
    have hreplay : { t with now := t.now + later }.replay q = some answer := (hheld.expire hfresh).find
    obtain ⟨bucket, he⟩ := handleText_request ops t later q typ' body'
    rw [show u = _ from he, hreplay]
    split
    · exact ⟨rfl, rfl⟩
    · exact ⟨rfl, rfl⟩
  · intro elapsed typ body hnone hgranted
    obtain ⟨bucket, he⟩ := handleText_request ops s elapsed q typ body
    rw [hnone, if_pos hgranted] at he
    exact ⟨bucket, he⟩

end Replay

section Runs

def countRooms : Operations Nat Unit := fun rooms _ _ => (if rooms = 0 then .error "LIMIT_EXCEEDED" else .ok none, rooms + 1)

def rename (id : RequestId) : Raw Unit := .request id .peerRename (some ())

theorem remembered_request_is_replayed_rename :
    let s := PeerSession.start 1 0 7
    let t := (s.handleText countRooms 0 (rename 1)).run countRooms [.text second (rename 2), .rooms 20]
    let u := t.handleText countRooms second (rename 1)
    t.replies = [.ack 1 none, .ack 2 none] ∧ u.rooms = 20 ∧ u.replies = t.replies ++ [.ack 1 none] := by
  have h := (remembered_request_is_replayed countRooms (PeerSession.start 1 0 7) 1).1 0 .peerRename (some ()) (.ack 1 none)
    [.text second (rename 2), .rooms 20] second .peerRename (some ()) (by decide +kernel) (by decide +kernel) rfl
    (by decide) nofun (by decide +kernel) (by decide +kernel)
  refine ⟨by decide +kernel, h.1, h.2.trans ?_⟩
  rfl

/-- A request refused for the load is carried out when it comes again, and
once the control bucket is empty a repeated request gets its refusal instead
of the earlier answer. -/
theorem repeated_request_runs : (let s := PeerSession.start 1 0 0
      let inputs : List (Input Nat Unit) :=
        [.text 0 (.request 1 .transferRequest (some ())), .rooms 3, .text second (.request 1 .transferRequest (some ()))]
      (s.run countRooms inputs).replies = [.error (some 1) "LIMIT_EXCEEDED", .ack 1 none] ∧
        (s.run countRooms inputs).rooms = 4) ∧
    (let s := PeerSession.start 1 0 7
      let pings : List (Input Nat Unit) := replicate 59 (.text 0 (.ping true))
      (s.run countRooms ([.text 0 (rename 1)] ++ pings ++ [.text 0 (rename 1)])).replies =
        [.ack 1 none] ++ replicate 59 .pong ++ [.error (some 1) "RATE_LIMITED"]) := by
  decide +kernel

end Runs

end Bore.RequestReplay
