import Bore.CheckFrames
import Bore.Runs
import Bore.Table

namespace Bore.CheckRound

open CheckFrames
open WireBytes (Bytes)

inductive CheckRole
  | listener
  | dialer
  deriving DecidableEq

def CheckRole.byte : CheckRole → UInt8
  | .listener => 1
  | .dialer => 2

structure CheckPlan where
  groups : List (List SocketAddr)
  retryBudget : Nat

structure CheckConfig where
  mac : Mac
  generation : UInt32
  role : CheckRole
  plan : Option CheckPlan

namespace CheckConfig

variable (cfg : CheckConfig)

/-- A plan without groups and no plan at all probe one group with everything. -/
def groups (targets : List SocketAddr) : List (List SocketAddr) :=
  match cfg.plan with
  | some plan => if plan.groups.isEmpty then [targets] else plan.groups
  | none => [targets]

def retryBudget : Nat := (cfg.plan.map CheckPlan.retryBudget).getD 0

def requestFrame (txid : Txid) : Frame := request cfg.role.byte cfg.generation txid

def admits (f : Frame) : Bool := f.generation == cfg.generation && f.role != cfg.role.byte

end CheckConfig

structure CheckState where
  pending : Table Txid SocketAddr
  responsesSent : Nat

/-- Where the driver of the round stands between two of its awaits. `src` is
the source whose announcement it is working on. -/
inductive Driver
  | waiting
  | requesting (target : SocketAddr) (src : Option SocketAddr)
  | sending (txid : Txid) (target : SocketAddr) (src : Option SocketAddr)
  | handing (src : SocketAddr)
  | leaving
  | finished
  deriving DecidableEq

def Driver.after : Option SocketAddr → Driver
  | some src => .handing src
  | none => .waiting

inductive Actor
  | idle
  | replying (reply : Frame) (dest : SocketAddr)
  | announcing (src : SocketAddr)
  deriving DecidableEq

/-- One round. `heard` and `sent` are the datagrams that came and went,
`built` the frames that holders of the key have built and `drawn` the
transaction ids of this side. -/
structure Round where
  checks : Option CheckState
  validated : List (SocketAddr × Option (UInt32 × UInt16))
  inbound : List SocketAddr
  groups : List (List SocketAddr)
  targets : List SocketAddr
  probeOrder : List SocketAddr
  nextGroup : Nat
  rr : Nat
  pass : Nat
  lastTriggered : List SocketAddr
  learnedPrflx : Bool
  nominated : Option SocketAddr
  observed : Option (UInt32 × UInt16)
  handoff : Bool
  driver : Driver
  actor : Actor
  invalidChecks : Nat
  peerDatagrams : Nat
  drawn : List Txid
  built : List Frame
  heard : List (SocketAddr × Bytes)
  sent : List (SocketAddr × Frame)

/-- `active` groups have passed their stagger; `elapsed` is the throttle of
triggered checks, `beforeCap` the hard cap, `ok` the outcome of a send. -/
inductive Action
  | probe (active : Nat)
  | inbound (elapsed : Bool)
  | validated
  | deadline (beforeCap : Bool)
  | register (txid : Txid)
  | send (ok : Bool)
  | handoff
  | disable
  | deliver (source : SocketAddr) (buf : Bytes)
  | reply (ok : Bool)
  | announce
  | peer (f : Frame)

def stunShaped (buf : Bytes) : Bool :=
  20 ≤ buf.length && buf.take 2 == [0x01, 0x01] && (buf.drop 4).take 4 == [0x21, 0x12, 0xA4, 0x42]

namespace Round

def start (cfg : CheckConfig) (peers : List SocketAddr) : Round where
  checks := some ⟨∅, 0⟩
  validated := []
  inbound := []
  groups := cfg.groups (sanitizeCandidates peers)
  targets := sanitizeCandidates peers
  probeOrder := []
  nextGroup := 0
  rr := 0
  pass := 0
  lastTriggered := []
  learnedPrflx := false
  nominated := none
  observed := none
  handoff := false
  driver := .waiting
  actor := .idle
  invalidChecks := 0
  peerDatagrams := 0
  drawn := []
  built := []
  heard := []
  sent := []

variable (cfg : CheckConfig) (s : Round)

def invalid : Round := { s with invalidChecks := s.invalidChecks + 1 }

def joinOrder (targets group order : List SocketAddr) : List SocketAddr :=
  group.foldl (fun order addr => if targets.contains addr && !order.contains addr then order ++ [addr] else order) order

def activate (active : Nat) : Round :=
  let due := (s.groups.take active).drop s.nextGroup
  let order := due.foldl (fun order group => joinOrder s.targets group order) s.probeOrder
  let next := s.nextGroup + due.length
  let order := if s.groups.length ≤ next ∧ order.length < s.targets.length then joinOrder s.targets s.targets order else order
  { s with probeOrder := order, nextGroup := next }

def probe (active : Nat) : Option Round :=
  if s.driver = .waiting then
    let s' := s.activate active
    match s'.probeOrder[s'.rr % s'.probeOrder.length]? with
    | none => some s'
    | some target => some { s' with rr := s'.rr + 1, driver := .requesting target none }
  else none

def learn (src : SocketAddr) : Round :=
  if !s.targets.contains src && validCandidate src && s.targets.length < maxUdpCandidates then
    { s with targets := s.targets ++ [src], probeOrder := src :: s.probeOrder, learnedPrflx := true }
  else s

def takeInbound (elapsed : Bool) : Option Round :=
  match s.driver, s.inbound with
  | .waiting, src :: rest =>
    let s' := { s with inbound := rest }.learn src
    if (elapsed || !s'.lastTriggered.contains src) && s'.targets.contains src then
      some { s' with lastTriggered := src :: s'.lastTriggered, driver := .requesting src (some src) }
    else some { s' with driver := .handing src }
  | _, _ => none

def takeValidated : Option Round :=
  match s.driver, s.validated with
  | .waiting, (target, obs) :: rest =>
    some { s with
      validated := rest
      nominated := some target
      observed := obs
      driver := match cfg.role with | .listener => .waiting | .dialer => .leaving }
  | _, _ => none

def deadline (beforeCap : Bool) : Option Round :=
  if s.driver = .waiting then
    if s.nominated.isNone && s.pass < cfg.retryBudget && beforeCap then some { s with pass := s.pass + 1 }
    else some { s with driver := .leaving }
  else none

/-- `send_check_request` up to its await. The transaction id is new. -/
def register (txid : Txid) : Option Round :=
  match s.driver with
  | .requesting target src =>
    if s.built.any (fun f => f.txid = txid) then none
    else
      some { s with
        checks := s.checks.map (fun state => { state with pending := state.pending.insert txid target })
        drawn := txid :: s.drawn
        built := cfg.requestFrame txid :: s.built
        driver := .sending txid target src }
  | _ => none

/-- The await of `send_check_request`, whose outcome is not looked at. -/
def send (ok : Bool) : Option Round :=
  match s.driver with
  | .sending txid target src =>
    some { s with
      sent := if ok then (target, cfg.requestFrame txid) :: s.sent else s.sent
      driver := .after src }
  | _ => none

def handOff : Option Round :=
  match s.driver with
  | .handing src =>
    if cfg.role = .listener ∧ validCandidate src then
      some { s with nominated := some src, handoff := true, driver := .leaving }
    else some { s with driver := .waiting }
  | _ => none

def disable : Option Round := if s.driver = .leaving then some { s with checks := none, driver := .finished } else none

def handleCheckFrame (buf : Bytes) (source : SocketAddr) : Round :=
  match s.checks with
  | none => s.invalid
  | some state =>
    match parse cfg.mac buf with
    | none => s.invalid
    | some f =>
      if !cfg.admits f then s.invalid
      else if f.kind = kindRequest then
        if checkMaxResponses ≤ state.responsesSent then { s with actor := .announcing source }
        else
          let reply := response cfg.role.byte cfg.generation f.txid source
          { s with
            checks := some { state with responsesSent := state.responsesSent + 1 }
            built := reply :: s.built
            actor := .replying reply source }
      else if f.kind = kindResponse then
        if state.pending.get? f.txid = some source then
          { s with
            checks := some { state with pending := state.pending.erase f.txid }
            validated := s.validated ++ [(source, f.observed)] }
        else s.invalid
      else s.invalid

/-- The receive actor takes a datagram. What is shaped like a STUN response
belongs to the transactions of the same socket. -/
def deliver (source : SocketAddr) (buf : Bytes) : Option Round :=
  if s.actor = .idle then
    let s := { s with heard := (source, buf) :: s.heard }
    if stunShaped buf then some s
    else if looksLike buf then some (s.handleCheckFrame cfg buf source)
    else some { s with peerDatagrams := s.peerDatagrams + 1 }
  else none

def reply (ok : Bool) : Option Round :=
  match s.actor with
  | .replying f dest =>
    some { s with sent := if ok then (dest, f) :: s.sent else s.sent, actor := .announcing dest }
  | _ => none

def announce : Option Round :=
  match s.actor with
  | .announcing src => some { s with inbound := s.inbound ++ [src], actor := .idle }
  | _ => none

def peer (f : Frame) : Option Round :=
  if f.kind = kindRequest ∨ f.kind = kindResponse then some { s with built := f :: s.built } else none

end Round

open Round

def step (cfg : CheckConfig) (s : Round) : Action → Option Round
  | .probe active => s.probe active
  | .inbound elapsed => s.takeInbound elapsed
  | .validated => s.takeValidated cfg
  | .deadline beforeCap => s.deadline cfg beforeCap
  | .register txid => s.register cfg txid
  | .send ok => s.send cfg ok
  | .handoff => s.handOff cfg
  | .disable => s.disable
  | .deliver source buf => s.deliver cfg source buf
  | .reply ok => s.reply ok
  | .announce => s.announce
  | .peer f => s.peer f

/-- HMAC is not forged: a datagram that verifies was built by a holder of the
key. Another holder knows of our transaction ids those that left the socket. -/
def Unforged (cfg : CheckConfig) (s : Round) : Action → Prop
  | .deliver _ buf => ∀ f, parse cfg.mac buf = some f → ∃ g ∈ s.built, buf = build cfg.mac g
  | .peer f => f.txid ∈ s.drawn → cfg.requestFrame f.txid ∈ s.sent.map Prod.snd
  | _ => True

instance (cfg : CheckConfig) (s : Round) (a : Action) : Decidable (Unforged cfg s a) :=
  match a with
  | .deliver _ buf =>
    match h : parse cfg.mac buf with
    | none => .isTrue (fun _ hf => nomatch h.symm.trans hf)
    | some f => decidable_of_iff (∃ g ∈ s.built, buf = build cfg.mac g) ⟨fun hg _ _ => hg, fun hg => hg f h⟩
  | .peer f => inferInstanceAs (Decidable (f.txid ∈ s.drawn → cfg.requestFrame f.txid ∈ s.sent.map Prod.snd))
  | .probe _ | .inbound _ | .validated | .deadline _ | .register _ | .send _ | .handoff | .disable | .reply _ | .announce =>
    .isTrue trivial

end Bore.CheckRound
