import Bore.Runs

namespace Bore.CompletionRetry

open Runs List

def completeMaxRetries : Nat := 8

inductive Phase
  | receiving
  | completePending
deriving DecidableEq

/-- One download on the recipient's side. `phase` is `none` once it is
forgotten; `pendingCompletes` holds the request IDs without an answer with their
`tries`, `timers` the tries of the retries that are armed, `stagings` the
acknowledged requests whose file is being staged, `sent` every request ID. -/
structure Transfer where
  phase : Option Phase
  pendingCompletes : List (Nat × Nat)
  timers : List Nat
  stagings : Nat
  sent : List Nat
  reported : Bool
deriving DecidableEq

def start : Transfer := ⟨some .receiving, [], [], 0, [], false⟩

namespace Transfer

variable (t : Transfer)

def forget : Transfer := { t with phase := none, pendingCompletes := [] }

def failTransfer : Transfer := { t with reported := true }.forget

def sendComplete (online : Bool) (id tries : Nat) : Option Transfer :=
  if online then some { t with pendingCompletes := (id, tries) :: t.pendingCompletes, sent := id :: t.sent } else none

def retryable (code : String) : Bool := code == "RATE_LIMITED" || code == "INTERNAL"

def completeRefused (tries : Nat) (code : String) : Transfer :=
  if !retryable code || completeMaxRetries ≤ tries then { t with reported := true }
  else { t with timers := tries :: t.timers }

def retry (online : Bool) (id tries : Nat) : Transfer :=
  if t.phase = none then t else (t.sendComplete online id (tries + 1)).getD t

def stageCompleted (ok : Bool) : Transfer :=
  if t.phase = none then t else if ok then t.forget else t.failTransfer

end Transfer

/-- A drawn request ID comes with the action that may send it. -/
inductive Action
  | acceptFinal (online : Bool) (id : Nat)
  | ack (id : Nat)
  | refuse (id : Nat) (code : Option String)
  | fire (tries : Nat) (online : Bool) (id : Nat)
  | stage (ok : Bool)
  | cancel

def step (t : Transfer) : Action → Option Transfer
  | .acceptFinal online id =>
      if t.phase = some .receiving ∧ id ∉ t.sent then
        some (({ t with phase := some .completePending }.sendComplete online id 0).getD t.failTransfer)
      else none
  | .ack id =>
      match t.pendingCompletes.lookup id with
      | some _ => some { t with
          pendingCompletes := t.pendingCompletes.filter (fun p => p.1 ≠ id)
          stagings := t.stagings + 1 }
      | none => none
  | .refuse id code =>
      match t.pendingCompletes.lookup id with
      | some tries => some ({ t with
          pendingCompletes := t.pendingCompletes.filter (fun p => p.1 ≠ id) }.completeRefused tries (code.getD "INTERNAL"))
      | none => none
  | .fire tries online id =>
      if tries ∈ t.timers ∧ id ∉ t.sent then some ({ t with timers := t.timers.erase tries }.retry online id tries)
      else none
  | .stage ok =>
      if 0 < t.stagings then some ({ t with stagings := t.stagings - 1 }.stageCompleted ok) else none
  | .cancel => if t.phase = none then none else some t.forget

/-- A refusal can be retried, and the session is online when the retry is due. -/
def recovers (t : Transfer) : Action → Bool
  | .refuse id code =>
      (t.pendingCompletes.lookup id).all (fun tries => tries < completeMaxRetries) && Transfer.retryable (code.getD "INTERNAL")
  | .fire _ online _ => online
  | _ => true

/-- While the server has to confirm, one thing is under way for it, and its
number of tries is that of the requests sent before it. -/
structure Outstanding (t : Transfer) : Prop where
  forgotten : t.phase = none → t.pendingCompletes = []
  early : t.phase = some .receiving → t.pendingCompletes = [] ∧ t.timers = [] ∧ t.stagings = 0 ∧ t.sent = []
  one : t.phase = some .completePending → t.pendingCompletes.length + t.timers.length + t.stagings = 1
  tries : ∀ p ∈ t.pendingCompletes, t.sent.length = p.2 + 1
  armed : ∀ n ∈ t.timers, t.sent.length = n + 1 ∧ n < completeMaxRetries
  bounded : t.sent.length ≤ completeMaxRetries + 1
  fresh : t.sent.Nodup

variable {t t' : Transfer} {a : Action}

/-- What is forgotten may have timers left, which do nothing. -/
theorem Outstanding.gone (h : Outstanding t) (hp : t'.phase = none) (hc : t'.pendingCompletes = [])
    (ht : ∀ n ∈ t'.timers, n ∈ t.timers) (hs : t'.sent = t.sent) : Outstanding t' where
  forgotten _ := hc
  early := by simp [hp]
  one := by simp [hp]
  tries := by simp [hc]
  armed n hn := hs ▸ h.armed n (ht n hn)
  bounded := hs ▸ h.bounded
  fresh := hs ▸ h.fresh

/-- An answer names the only request. -/
theorem Outstanding.answered {id tries : Nat} (h : Outstanding t) (hl : t.pendingCompletes.lookup id = some tries) :
    t.phase = some .completePending ∧ t.pendingCompletes.filter (fun p => p.1 ≠ id) = [] ∧ t.timers = [] ∧
      t.stagings = 0 ∧ t.sent.length = tries + 1 := by
  obtain ⟨hf, he, ho, ht, -⟩ := h
  rcases hp : t.pendingCompletes with - | ⟨⟨id', tries'⟩, rest⟩
  · simp [hp] at hl
  have hphase : t.phase = some .completePending := by
    rcases hph : t.phase with - | (- | -) <;> simp_all
  have hone := ho hphase
  rw [hp, length_cons] at hone
  obtain rfl : rest = [] := length_eq_zero_iff.mp (by omega)
  have htries := ht (id', tries') (by simp [hp])
  obtain ⟨rfl, rfl⟩ : id = id' ∧ tries' = tries := by
    grind
  exact ⟨hphase, by simp, length_eq_zero_iff.mp (by omega), by omega, htries⟩

theorem step_outstanding (h : Outstanding t) (hok : recovers t a = true) (hs : step t a = some t') : Outstanding t' := by
  revert hs
  fun_cases step t a
  all_goals rintro ⟨⟩
  case case1 online _ hg =>
    obtain ⟨hp, ht, hn, hsent⟩ := h.early hg.1
    cases online with
    | true => constructor <;> simp [Transfer.sendComplete, hp, ht, hn, hsent]
    | false => exact h.gone rfl rfl (fun _ hn => hn) rfl
  case case3 hl =>
    obtain ⟨hphase, hp, ht, hn, -⟩ := h.answered hl
    rw [hp]
    exact ⟨by simp [hphase], by simp [hphase], by simp [ht, hn], by simp, h.armed, h.bounded, h.fresh⟩
  case case5 hl =>
    obtain ⟨hphase, hp, ht, hn, hsent⟩ := h.answered hl
    simp only [recovers, hl, Option.all_some, Bool.and_eq_true, decide_eq_true_eq] at hok
    rw [Transfer.completeRefused, if_neg (by simp [hok]), hp]
    exact ⟨by simp [hphase], by simp [hphase], by simp [ht, hn], by simp, by simp [ht, hsent, hok.1], h.bounded, h.fresh⟩
  case case7 tries online _ hg =>
    obtain rfl : online = true := hok
    rw [Transfer.retry]
    split
    · rename_i hphase
      exact h.gone hphase (h.forgotten hphase) (fun _ => mem_of_mem_erase) rfl
    rename_i hphase
    obtain ⟨hsent, hlt⟩ := h.armed tries hg.1
    have hpending : t.phase = some .completePending := by
      rcases hph : t.phase with - | (- | -)
      · exact absurd hph hphase
      · simp [(h.early hph).2.1] at hg
      · rfl
    have hone := h.one hpending
    have hpos := length_pos_of_mem hg.1
    have hp : t.pendingCompletes = [] := length_eq_zero_iff.mp (by omega)
    have ht : t.timers.erase tries = [] := by
      rw [← length_eq_zero_iff, length_erase_of_mem hg.1]
      omega
    have hn : t.stagings = 0 := by omega
    rw [ht, hp]
    constructor <;> simp [Transfer.sendComplete, hpending, hsent, hn, hg.2, h.fresh]
    omega
  case case9 =>
    rw [Transfer.stageCompleted]
    split
    · rename_i hphase
      exact h.gone hphase (h.forgotten hphase) (fun _ hn => hn) rfl
    · split <;> exact h.gone rfl rfl (fun _ hn => hn) rfl
  case case12 => exact h.gone rfl rfl (fun _ hn => hn) rfl

/-- A download that waits for its completion has one request without an
answer, one retry armed or one file being staged; it never repeats a request ID
and retries at most so often. -/
theorem completion_is_never_lost (hr : Reaches step (fun t a => recovers t a = true) start t) :
    (t.phase = some .completePending → t.pendingCompletes.length + t.timers.length + t.stagings = 1) ∧
      t.sent.Nodup ∧ t.sent.length ≤ completeMaxRetries + 1 := by
  have h : Outstanding t := by
    refine hr.invariant ?_ (fun _ _ _ h hok hs => step_outstanding h hok hs)
    constructor <;> simp [start]
  exact ⟨h.one, h.fresh, h.bounded⟩

theorem completion_is_never_lost_retried : ∃ t : Transfer, Reaches step (fun t a => recovers t a = true) start t ∧
      t.phase = some .completePending ∧ t.sent = [1, 0] ∧ t.pendingCompletes.length + t.timers.length + t.stagings = 1 := by
  obtain ⟨t, hr, ht⟩ := execWhile_observe
    [.acceptFinal true 0, .refuse 0 (some "RATE_LIMITED"), .fire 0 true 1]
    (fun t : Transfer => (t.phase, t.sent))
    (show (execWhile step recovers start _).map _ = some (some .completePending, [1, 0]) by decide +kernel)
  obtain ⟨hp, hs⟩ := Prod.mk.inj ht
  exact ⟨t, hr, hp, hs, (completion_is_never_lost hr).1 hp⟩

/-- A retry that is due while the session is offline is dropped, and a final
refusal is reported but not forgotten. -/
theorem completion_is_lost :
    (∃ t : Transfer, Reaches step always start t ∧ t = ⟨some .completePending, [], [], 0, [0], false⟩) ∧
      ∃ t : Transfer, Reaches step always start t ∧ t = ⟨some .completePending, [], [], 0, [0], true⟩ :=
  ⟨exec_observe [.acceptFinal true 0, .refuse 0 (some "RATE_LIMITED"), .fire 0 false 1] id (by decide +kernel),
    exec_observe [.acceptFinal true 0, .refuse 0 (some "FORBIDDEN")] id (by decide +kernel)⟩

end Bore.CompletionRetry
