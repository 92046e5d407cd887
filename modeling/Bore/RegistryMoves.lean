import Bore.RegistryRelay
import Bore.RegistryCatalogue

namespace Bore.RegistryMoves

open RegistryTypes RegistryOps

inductive Act
  | sent
  | retry (attempt : AttemptId)
  | negotiate
  | relayOnly
  | signal
  | commitDirect
  | probe
  | commitUpgrade
  | startProbe (attempt : AttemptId)
  | clearProbe
  | resume
  | carry
  | grant
  | activate
  | release
  | fallback (attempt : AttemptId)
  | finish
  deriving DecidableEq

/-- Everything one critical section can do to a record, with the guard under
which it does it. Invariants are derived from these cases alone. -/
inductive Move : Act → TransferRecord → TransferRecord → Prop
  | sent {r} (h : r.state = .requested) : Move .sent r { r with state := .waitingSource }
  | retry {r} (a n) (h : busyRetry r = true) (hn : nextAttemptNumber r.attemptNumber = .ok n) :
      Move (.retry a) r { r with
        attemptNumber := n, attemptId := some a, state := .waitingSource, attempt := some ⟨a, n, none⟩ }
  | negotiate {r} (now) (h : r.state = .waitingSource) :
      Move .negotiate r { r with state := .negotiatingDirect now {} }
  | relayOnly {r} (a p) (h : r.state = .waitingSource) (ha : r.attemptId = some a) :
      Move .relayOnly r { r with state := .waitingRelay, attempt := some ⟨a, r.attemptNumber, p⟩ }
  | signal {r} (started bits bits') (h : r.state = .negotiatingDirect started bits) :
      Move .signal r { r with state := .negotiatingDirect started bits' }
  | commitDirect {r} (h : r.state.isNegotiatingDirect = true) :
      Move .commitDirect r { r with state := .activeDirect }
  | probe {r} (up bits resume) (h : r.upgrade = some up) :
      Move .probe r { r with upgrade := some { up with bits := bits }, resume := resume }
  | commitUpgrade {r} (up n resume) (h : r.upgrade = some up)
      (hn : nextAttemptNumber r.attemptNumber = .ok n) :
      Move .commitUpgrade r { r with
        upgrade := none, attemptNumber := n, attemptId := some up.attemptId, state := .activeDirect
        resume := resume, attempt := some ⟨up.attemptId, n, none⟩ }
  | startProbe {r} (a now) (h : r.state = .active) (hu : r.upgrade = none) (ht : r.upgradeTries < upgradeTryLimit) :
      Move (.startProbe a) r { r with upgradeTries := r.upgradeTries + 1, upgrade := some ⟨a, now, {}⟩ }
  | clearProbe {r} : Move .clearProbe r { r with upgrade := none }
  | resume {r} (d) (h : r.state = .waitingRelay) : Move .resume r { r with resume := some d }
  | carry {r} (a) (h : r.state.isCarrying = true) : Move .carry r { r with carriedAttempt := some a }
  | grant {r} (att p) (h : r.state = .waitingRelay) (ha : r.attempt = some att) (hp : att.relayPermit = none) :
      Move .grant r { r with attempt := some { att with relayPermit := some p } }
  | activate {r} (h : r.state = .waitingRelay) : Move .activate r { r with state := .active }
  | release {r} : Move .release r { r with attempt := r.attempt.map (fun a => { a with relayPermit := none }) }
  | fallback {r} (a n failed resume p) (h : r.state.isNegotiatingDirect = true ∨ r.state = .activeDirect)
      (ha : r.attemptId = some failed) (hn : nextAttemptNumber r.attemptNumber = .ok n) :
      Move (.fallback a) r { r with
        attemptNumber := n, attemptId := some a, state := .waitingRelay, lastDirectAttempt := some failed
        resume := resume, attempt := some ⟨a, n, p⟩ }
  | finish {r} (now st) (h : r.state.isLive = true) (hst : st.isLive = false) :
      Move .finish r (RegistryOps.finish now st r)

structure Fresh (attempt : AttemptId) (r : TransferRecord) : Prop where
  state : r.state = .requested
  attemptId : r.attemptId = some attempt
  attemptNumber : r.attemptNumber = 1
  attempt : r.attempt = some ⟨attempt, 1, none⟩
  upgrade : r.upgrade = none

/-- What happens to one key of the transfer map: nothing, a permitted write, an
insertion, or the collection of a terminal record. -/
inductive Change (allowed : TransferRecord → Act → Prop) (drawn : AttemptId → Prop) :
    Option TransferRecord → Option TransferRecord → Prop
  | same (o) : Change allowed drawn o o
  | moved {r r' act} (ha : allowed r act) (h : Move act r r') : Change allowed drawn (some r) (some r')
  | created {a r} (ha : drawn a) (h : Fresh a r) : Change allowed drawn none (some r)
  | collected {r} (h : r.state.isLive = false) : Change allowed drawn (some r) none

def Evolves (allowed : TransferId → TransferRecord → Act → Prop) (drawn : TransferId → AttemptId → Prop)
    (s s' : Room) : Prop :=
  ∀ id, Change (allowed id) (drawn id) (s.transfers.get? id) (s'.transfers.get? id)

def noDraw : TransferId → AttemptId → Prop := fun _ _ => False

section Records

variable {now : Instant} {act : Act} {r r' : TransferRecord} {o o' : Option TransferRecord}

theorem Change.mono {allowed allowed' : TransferRecord → Act → Prop} {drawn drawn' : AttemptId → Prop}
    (h : Change allowed drawn o o') (ha : ∀ r act, o = some r → allowed r act → allowed' r act)
    (hd : ∀ a, drawn a → drawn' a) : Change allowed' drawn' o o' := by
  cases h with
  | same => exact .same _
  | moved hr hm => exact .moved (ha _ _ rfl hr) hm
  | created hr hf => exact .created (hd _ hr) hf
  | collected hl => exact .collected hl

theorem participants_move (hm : Move act r r') : r'.source = r.source ∧ r'.recipient = r.recipient := by
  cases hm <;> exact ⟨rfl, rfl⟩

theorem isLive_move (hm : Move act r r') (ha : act ≠ .finish) (hl : r.state.isLive = true) :
    r'.state.isLive = true := by
  cases hm with
  | finish => exact absurd rfl ha
  | sent | retry | negotiate | relayOnly | signal | commitDirect | commitUpgrade | activate | fallback => rfl
  | _ => exact hl

theorem Evolves.refl (allowed drawn) (s : Room) : Evolves allowed drawn s s := fun _ => .same _

theorem evolves_of_transfers_eq {allowed drawn} {s s' : Room} (h : s'.transfers = s.transfers) :
    Evolves allowed drawn s s' := by
  intro id
  rw [h]
  exact .same _

@[simp] theorem record?_updateRecord (s : Scope) (id j : TransferId) (f : TransferRecord → TransferRecord) :
    (s.updateRecord id f).record? j = if j = id then (s.record? j).map f else s.record? j :=
  Table.get?_modify s.room.transfers id j f

@[simp] theorem record?_installAttempt (s : Scope) (id j : TransferId) (a : AttemptState)
    (f : TransferRecord → TransferRecord) : (s.installAttempt id a f).record? j =
      if j = id then (s.record? j).map (fun r => { f r with attempt := some a }) else s.record? j :=
  Table.get?_modify s.room.transfers id j _

variable {s s' : Scope} {id : TransferId}

theorem record?_update (hr : s.record? id = some r) (f : TransferRecord → TransferRecord) (j : TransferId) :
    (s.updateRecord id f).record? j = if j = id then some (f r) else s.record? j := by
  rw [record?_updateRecord]
  by_cases hj : j = id
  · rw [if_pos hj, if_pos hj, hj, hr]
    rfl
  · rw [if_neg hj, if_neg hj]

theorem record?_install (hr : s.record? id = some r) (attempt : AttemptState) (f : TransferRecord → TransferRecord)
    (j : TransferId) :
    (s.installAttempt id attempt f).record? j = if j = id then some { f r with attempt := some attempt } else s.record? j :=
  record?_update hr _ j

variable {allowed drawn}

theorem evolves_at (id : TransferId) (hs : ∀ j, j ≠ id → s'.record? j = s.record? j)
    (hc : Change (allowed id) (drawn id) (s.record? id) (s'.record? id)) : Evolves allowed drawn s.room s'.room := by
  intro j
  change Change (allowed j) (drawn j) (s.record? j) (s'.record? j)
  by_cases hj : j = id
  · exact hj ▸ hc
  · rw [hs j hj]
    exact .same _

theorem evolves_update {f : TransferRecord → TransferRecord}
    (hs : ∀ j, s'.record? j = if j = id then (s.record? j).map f else s.record? j)
    (hm : ∀ r, s.record? id = some r → f r = r ∨ ∃ act, allowed id r act ∧ Move act r (f r)) :
    Evolves allowed drawn s.room s'.room := by
  refine evolves_at id (fun j hj => (hs j).trans (if_neg hj)) ?_
  rw [hs id, if_pos rfl]
  cases hr : s.record? id with
  | none => exact .same _
  | some r =>
    rcases hm r hr with he | ⟨act, ha, hm⟩
    · rw [Option.map_some, he]
      exact .same _
    · exact .moved ha hm

theorem evolves_set {record record' : TransferRecord} (hr : s.record? id = some record)
    (hs : ∀ j, s'.record? j = if j = id then some record' else s.record? j) (ha : allowed id record act)
    (hm : Move act record record') : Evolves allowed drawn s.room s'.room := by
  refine evolves_at id (fun j hj => (hs j).trans (if_neg hj)) ?_
  rw [hs id, if_pos rfl, hr]
  exact .moved ha hm

theorem gc_record (now : Instant) (room : Room) (id : TransferId) :
    (gcTerminalsLocked now room).transfers.get? id = (room.transfers.get? id).filter (retained now) :=
  Table.get?_retain room.transfers _ id

theorem retained_of_live (h : r.state.isLive = true) : retained now r = true := by
  simp [retained, h]

theorem finish_of_not_retained (h : retained now r = false) :
    r.state.isLive = false ∧ r.terminatedAt ≠ some now := by
  constructor
  · cases hl : r.state.isLive with
    | false => rfl
    | true => simp [retained_of_live hl] at h
  · intro ht
    simp [retained, ht, terminalRetention] at h

end Records

/-- What the terminal transitions of one critical section do to a record. The
retention window is positive, so what they end they do not collect. -/
inductive Ended (now : Instant) : Option TransferRecord → Option TransferRecord → Prop
  | same (o) : Ended now o o
  | finished {r} (st) (h : r.state.isLive = true) (hst : st.isLive = false) :
      Ended now (some r) (some (finish now st r))
  | collected {r} (h : r.state.isLive = false) (ht : r.terminatedAt ≠ some now) : Ended now (some r) none

variable {now : Instant} {o o' : Option TransferRecord}

theorem Ended.none (h : Ended now none o) : o = none := by
  cases h
  rfl

theorem Ended.trans {o'' : Option TransferRecord} (h : Ended now o o') (h' : Ended now o' o'') : Ended now o o'' := by
  cases h with
  | same => exact h'
  | collected hl ht =>
    cases h'
    exact .collected hl ht
  | finished st hl hst =>
    cases h' with
    | same => exact .finished st hl hst
    | finished _ hl' => exact absurd hl' (by simp [finish, hst])
    | collected _ ht => exact absurd rfl ht

theorem Ended.change {allowed drawn} (h : Ended now o o') (ha : ∀ r, o = some r → allowed r .finish) :
    Change allowed drawn o o' := by
  cases h with
  | same => exact .same _
  | finished st hl hst => exact .moved (ha _ rfl) (.finish now st hl hst)
  | collected hl => exact .collected hl

/-- A sweep keeps a record or collects one whose retention is over. -/
theorem filter_retained {P : Option TransferRecord → Option TransferRecord → Prop} (hsame : ∀ o, P o o)
    (hgone : ∀ r, retained now r = false → P (some r) none) (o : Option TransferRecord) : P o (o.filter (retained now)) := by
  cases o with
  | none => exact hsame none
  | some r =>
    rw [Option.filter_some]
    split
    · exact hsame _
    · exact hgone r (Bool.not_eq_true _ ▸ ‹_›)

theorem Ended.gc (o : Option TransferRecord) : Ended now o (o.filter (retained now)) :=
  filter_retained .same (fun _ hk => .collected (finish_of_not_retained hk).1 (finish_of_not_retained hk).2) o

theorem Change.gc {allowed drawn} (now : Instant) (o : Option TransferRecord) :
    Change allowed drawn o (o.filter (retained now)) :=
  filter_retained .same (fun _ hk => .collected (finish_of_not_retained hk).1) o

end Bore.RegistryMoves
