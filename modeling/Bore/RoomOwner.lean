import Bore.RegistryTypes
import Bore.Runs

namespace Bore.RoomOwner

open RegistryTypes

inductive OwnerState
  | attached (epoch : Nat) (lastRecv : Instant)
  | detached (epoch : Nat) (expiresAt : Instant)

namespace OwnerState

def epoch : OwnerState → Nat
  | attached epoch _ | detached epoch _ => epoch

def isAttached : OwnerState → Bool
  | attached _ _ => true
  | detached _ _ => false

end OwnerState

inductive Entry
  | room
  | other
  | vacant
  deriving DecidableEq

/-- The calls that hold or consume a lease: `resume` before it returns, the
owner's session, `drop` after it has loaded the room's epoch, and the three
steps of `close_explicit`. -/
inductive LeaseStage
  | resumed
  | held
  | dropping (epoch : Nat)
  | closing
  | removed
  | closed

structure Lease where
  epoch : Nat
  stage : LeaseStage

def Lease.isLive (lease : Lease) : Bool :=
  match lease.stage with
  | .resumed | .held | .dropping _ => true
  | .closing | .removed | .closed => false

structure Resume where
  presented : Digest
  matched : Bool

inductive MonitorStage
  | sleeping
  | stale
  | removed
  deriving DecidableEq

structure Monitor where
  epoch : Nat
  wake : Instant
  stage : MonitorStage

/-- One room with the tasks that own, resume or expire it. `detachedSince` is
the time of the last detach while no resume has followed it; the source does
not keep it. -/
structure System where
  grace : Nat
  ownerHash : Digest
  now : Instant
  owner : OwnerState
  epoch : Nat
  registryAlive : Bool
  entry : Entry
  destroyed : Bool
  leases : Table Nat Lease
  resumes : Table Nat Resume
  monitors : Table Nat Monitor
  detachedSince : Option Instant

inductive Action
  | tick (duration : Nat)
  | createOther
  | removeOther
  | dropRegistry
  | resumeLookup (task : Nat) (presented : Digest)
  | resumeMatch (task : Nat)
  | resumeAttach (task : Nat)
  | resumeReturn (task : Nat)
  | dropLoad (task : Nat)
  | dropDetach (task monitor : Nat)
  | closeExplicit (task : Nat)
  | closeRemove (task : Nat)
  | closeDestroy (task : Nat)
  | monitorLost (monitor : Nat)
  | monitorTest (monitor : Nat)
  | monitorRemove (monitor : Nat)
  | monitorDestroy (monitor : Nat)

namespace System

variable (s : System)

def removeRoomIfCurrent : System × Bool :=
  if s.entry = .room then ({ s with entry := .vacant }, true) else (s, false)

def destroy : System := { s with destroyed := true }

def setStage (task : Nat) (lease : Lease) (stage : LeaseStage) : System :=
  { s with leases := s.leases.insert task { lease with stage := stage } }

def inRegistryCall : Bool :=
  !s.resumes.values.isEmpty || s.leases.values.any (fun lease => match lease.stage with
    | .resumed | .closing | .removed => true
    | _ => false)

def unreferenced : Bool :=
  s.entry != .room && s.leases.values.isEmpty && s.resumes.values.isEmpty

def resumeLocked (task : Nat) : System :=
  match s.owner with
  | .attached _ _ => s
  | .detached epoch _ =>
    if epoch < u64Max then
      { s with
        owner := .attached (epoch + 1) s.now
        epoch := epoch + 1
        leases := s.leases.insert task ⟨epoch + 1, .resumed⟩
        detachedSince := none }
    else s

def armMonitor (monitor epoch : Nat) : System :=
  { s with monitors := s.monitors.insert monitor ⟨epoch, s.now + s.grace, .sleeping⟩ }

def detachLocked (epoch monitor : Nat) : System :=
  match s.owner with
  | .attached current _ =>
    if current = epoch then
      { s with owner := .detached epoch (s.now + s.grace), detachedSince := some s.now }.armMonitor monitor epoch
    else s
  | .detached current _ => if current = epoch then s.armMonitor monitor epoch else s

def dropMonitor (monitor : Nat) : System := { s with monitors := s.monitors.erase monitor }

def setMonitor (monitor : Nat) (m : Monitor) (stage : MonitorStage) : System :=
  { s with monitors := s.monitors.insert monitor { m with stage := stage } }

end System

def step (s : System) : Action → Option System
  | .tick duration => some { s with now := s.now + duration }
  | .createOther => if s.registryAlive && s.entry = .vacant then some { s with entry := .other } else none
  | .removeOther => if s.entry = .other then some { s with entry := .vacant } else none
  | .dropRegistry =>
    if s.inRegistryCall then none else some { s with registryAlive := false, entry := .vacant }
  | .resumeLookup task presented =>
    if s.entry = .room && (s.resumes.get? task).isNone && (s.leases.get? task).isNone then
      some { s with resumes := s.resumes.insert task ⟨presented, false⟩ }
    else none
  | .resumeMatch task =>
    match s.resumes.get? task with
    | some ⟨presented, false⟩ =>
      if presented = s.ownerHash then some { s with resumes := s.resumes.insert task ⟨presented, true⟩ }
      else some { s with resumes := s.resumes.erase task }
    | _ => none
  | .resumeAttach task =>
    match s.resumes.get? task with
    | some ⟨_, true⟩ => some ({ s with resumes := s.resumes.erase task }.resumeLocked task)
    | _ => none
  | .resumeReturn task =>
    match s.leases.get? task with
    | some ⟨epoch, .resumed⟩ => some (s.setStage task ⟨epoch, .resumed⟩ .held)
    | _ => none
  | .dropLoad task =>
    match s.leases.get? task with
    | some ⟨epoch, .held⟩ => some (s.setStage task ⟨epoch, .held⟩ (.dropping s.epoch))
    | _ => none
  | .dropDetach task monitor =>
    match s.leases.get? task with
    | some ⟨_, .dropping epoch⟩ =>
      if (s.monitors.get? monitor).isNone then
        some ({ s with leases := s.leases.erase task }.detachLocked epoch monitor)
      else none
    | _ => none
  | .closeExplicit task =>
    match s.leases.get? task with
    | some ⟨epoch, .held⟩ => if s.registryAlive then some (s.setStage task ⟨epoch, .held⟩ .closing) else none
    | _ => none
  | .closeRemove task =>
    match s.leases.get? task with
    | some ⟨epoch, .closing⟩ => some (s.removeRoomIfCurrent.1.setStage task ⟨epoch, .closing⟩ .removed)
    | _ => none
  | .closeDestroy task =>
    match s.leases.get? task with
    | some ⟨epoch, .removed⟩ => some (s.destroy.setStage task ⟨epoch, .removed⟩ .closed)
    | _ => none
  | .monitorLost monitor =>
    match s.monitors.get? monitor with
    | some ⟨_, wake, .sleeping⟩ =>
      if wake ≤ s.now && s.unreferenced then some (s.dropMonitor monitor) else none
    | _ => none
  | .monitorTest monitor =>
    match s.monitors.get? monitor with
    | some ⟨epoch, wake, .sleeping⟩ =>
      if s.now < wake then none
      else match s.owner with
        | .detached current _ =>
          if current = epoch then some (s.setMonitor monitor ⟨epoch, wake, .sleeping⟩ .stale)
          else some (s.dropMonitor monitor)
        | .attached _ _ => some (s.dropMonitor monitor)
    | _ => none
  | .monitorRemove monitor =>
    match s.monitors.get? monitor with
    | some ⟨epoch, wake, .stale⟩ =>
      if s.registryAlive then
        match s.removeRoomIfCurrent with
        | (t, true) => some (t.setMonitor monitor ⟨epoch, wake, .stale⟩ .removed)
        | (t, false) => some (t.dropMonitor monitor)
      else some (s.destroy.dropMonitor monitor)
    | _ => none
  | .monitorDestroy monitor =>
    match s.monitors.get? monitor with
    | some ⟨_, _, .removed⟩ => some (s.destroy.dropMonitor monitor)
    | _ => none

def start (grace : Nat) (ownerHash : Digest) (now : Instant) : System where
  grace := grace
  ownerHash := ownerHash
  now := now
  owner := .attached 0 now
  epoch := 0
  registryAlive := true
  entry := .room
  destroyed := false
  leases := (∅ : Table Nat Lease).insert 0 ⟨0, .held⟩
  resumes := ∅
  monitors := ∅
  detachedSince := none

/-- A resume takes the lock of a detached room only while the room is registered
and no monitor has found it stale. -/
def undecided (s : System) : Action → Bool
  | .resumeAttach _ =>
    s.owner.isAttached || (s.entry == .room && s.monitors.values.all (fun m => m.stage == .sleeping))
  | _ => true

end Bore.RoomOwner
