import Bore.SessionRoom

namespace Bore.ControlActor

open RegistryTypes RegistryCatalogue
open PeerSession hiding step

def webTransferMaxDirectCarriers : Nat := 8

def webTransferOutgoingCapOne : Nat := 64

def webTransferCarrierSignalBurst : Nat := 16

def webTransferOutgoingCap (directCarriers : Nat) : Nat :=
  let extra := max 1 (min directCarriers webTransferMaxDirectCarriers) - 1
  webTransferOutgoingCapOne + extra * webTransferCarrierSignalBurst

def wsCloseAuth : Nat × String := (4001, "unauthorized")

def wsCloseNormal : Nat := 1000

/-- What the outgoing queue holds: messages of the room, an error the actor
raises itself, and the texts of `handle_text` and of other tasks. -/
inductive Outgoing (Value : Type)
  | room (message : Message Value)
  | error (code : String)
  | text (raw : String)

inductive Frame (Value : Type)
  | text (message : Outgoing Value)
  | ping
  | close (status : Option (Nat × String))

inductive Ending
  | disconnected
  | tooSlow
  | peerClosed
  | binary
  | expired
  | roomClosed (reason : String)
  | resyncFailed
  | channelClosed
  deriving DecidableEq

/-- Where the actor is: in its `select!`, or at one of the awaits of an arm that
runs to its end before the loop selects again. -/
inductive Phase (Value : Type)
  | select
  | draining (replies : List String)
  | enqueuing (messages : List (Outgoing Value))
  | resyncing (messages : List (Message Value)) (revision : Nat)
  | reporting (report : Outgoing Value) (status : Nat × String) (ending : Ending)
  | closing (status : Option (Nat × String)) (ending : Ending)
  | ended (ending : Ending)

/-- The loop of `serve_control_websocket` over a socket that takes every frame
written to it. -/
structure Actor (Value : Type) where
  cap : Nat
  queue : List (Outgoing Value)
  wire : List (Frame Value)
  revisionSeen : Nat
  phase : Phase Value

inductive Action
  /-- Another task's `send_to`. -/
  | sendTo (raw : String)
  /-- The arm in progress goes on. -/
  | advance
  /-- A text frame, with what `handle_text` will answer. -/
  | inboundText (replies : List String)
  | inboundBinary
  | inboundClose
  | inboundOther
  | inboundEnd
  | pingTick
  | outgoing
  | event (event : RoomEvent)
  /-- The receiver lagged; the rooms are those the two locks of `build_resync` see. -/
  | lagged (parts views : Room)
  | eventsClosed
  | reaperTick (expired : Bool)

variable {Manifest Value : Type}

def buildResync (codec : ManifestCodec Manifest Value) (parts views : Room) :
    Except WebTransferError (List (Message Value)) :=
  snapshotOfferStrings codec (snapshotParts parts).1 (snapshotParts parts).2 (offerViews views)

namespace Actor

def write (a : Actor Value) (frame : Frame Value) : Actor Value := { a with wire := a.wire ++ [frame] }

/-- The queue's only reader is the task that waits here, so a full queue stays
full until the timeout. -/
def queueSend (a : Actor Value) (message : Outgoing Value) : Option (Actor Value) :=
  if a.queue.length < a.cap then some { a with queue := a.queue ++ [message] } else none

theorem queueSend_eq_some {a b : Actor Value} {message : Outgoing Value} :
    a.queueSend message = some b ↔ a.queue.length < a.cap ∧ b = { a with queue := a.queue ++ [message] } := by
  unfold queueSend
  split
  · rename_i h
    simp only [Option.some.injEq, h, true_and]
    exact eq_comm
  · rename_i h
    simp [h]

def sendTo (a : Actor Value) (raw : String) : Actor Value := (a.queueSend (.text raw)).getD a

def snapshotEndRevision (message : Message Value) (revision : Nat) : Nat :=
  match message with
  | .snapshotEnd last => last
  | _ => revision

def advance (a : Actor Value) : Option (Actor Value) :=
  match a.phase with
  | .select | .ended _ => none
  | .draining replies =>
    match a.queue with
    | [] => some { a with phase := .enqueuing (replies.map .text) }
    | message :: rest => some { a.write (.text message) with queue := rest }
  | .enqueuing [] => some { a with phase := .select }
  | .enqueuing (message :: rest) =>
    match a.queueSend message with
    | some a => some { a with phase := .enqueuing rest }
    | none => some { a with phase := .ended .tooSlow }
  | .resyncing [] revision => some { a with revisionSeen := revision, phase := .select }
  | .resyncing (message :: rest) revision =>
    let revision := snapshotEndRevision message revision
    match a.queueSend (.room message) with
    | some a => some { a with phase := .resyncing rest revision }
    | none => some { a with revisionSeen := revision, phase := .ended .tooSlow }
  | .reporting report status ending =>
    -- the result is not looked at
    some { (a.queueSend report).getD a with phase := .closing (some status) ending }
  | .closing status ending => some { a.write (.close status) with phase := .ended ending }

def select (codec : ManifestCodec Manifest Value) (a : Actor Value) : Action → Option (Actor Value)
  | .sendTo _ | .advance => none
  | .inboundText replies => some { a with phase := .draining replies }
  | .inboundBinary => some { a with phase := .reporting (.error "INVALID_MESSAGE") wsCloseAuth .binary }
  | .inboundClose => some { a with phase := .closing none .peerClosed }
  | .inboundOther => some a
  | .inboundEnd => some { a with phase := .ended .disconnected }
  | .pingTick => some (a.write .ping)
  | .outgoing =>
    match a.queue with
    | [] => none
    | message :: rest => some { a.write (.text message) with queue := rest }
  | .event (.roomClosed reason) =>
    some { a with
      phase := .reporting (.room (.roomClosed reason)) (wsCloseNormal, reason) (.roomClosed reason) }
  | .event other =>
    match roomEventMessage codec other with
    | none => some a
    | some message => some { a with revisionSeen := other.revision, phase := .enqueuing [.room message] }
  | .lagged parts views =>
    match buildResync codec parts views with
    | .ok messages => some { a with phase := .resyncing messages a.revisionSeen }
    | .error _ => some { a with phase := .ended .resyncFailed }
  | .eventsClosed => some { a with phase := .ended .channelClosed }
  | .reaperTick expired => some (if expired then { a with phase := .closing (some wsCloseAuth) .expired } else a)

end Actor

def step (codec : ManifestCodec Manifest Value) (a : Actor Value) : Action → Option (Actor Value)
  | .sendTo raw =>
    match a.phase with
    | .ended _ => none
    | _ => some (a.sendTo raw)
  | .advance => a.advance
  | action =>
    match a.phase with
    | .select => a.select codec action
    | _ => none

def start (cap revision : Nat) : Actor Value := ⟨cap, [], [], revision, .select⟩

end Bore.ControlActor
