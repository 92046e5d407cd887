import Bore.RegistryDirect

namespace Bore.DirectCourse

open RegistryTypes RegistryOps RegistryDirect List

inductive PathEvent
  | signal (peer : PeerId) (carrier : Nat) (kind : SignalKind)
  | commit (peer : PeerId)
  | failed (peer : PeerId)
  deriving DecidableEq

namespace PathEvent

def isOffer (carrier : Nat) : PathEvent → Bool
  | signal _ c .offer => c == carrier
  | _ => false

def isAnswer (carrier : Nat) : PathEvent → Bool
  | signal _ c .answer => c == carrier
  | _ => false

def isCandidate (peer : PeerId) : PathEvent → Bool
  | signal p _ .ice => p == peer
  | _ => false

end PathEvent

inductive Stage
  | waiting
  | negotiating (bits : NegotiationBits)
  | direct
  deriving DecidableEq

/-- A recipient of its own offer would count as the source. -/
def Side (source recipient : PeerId) (isSource : Bool) : Prop := isSource = false → source ≠ recipient

def sender (source recipient : PeerId) (isSource : Bool) : PeerId := if isSource then source else recipient

def receiver (source recipient : PeerId) (isSource : Bool) : PeerId := if isSource then recipient else source

/-- The steps of one attempt, with what the peers hear in each. The reports
are the peers that have declared themselves ready. -/
inductive Turn (budget : Nat) (reported : PeerId → Prop) (source recipient : PeerId) :
    Option Stage → List PathEvent → Option Stage → Prop
  | stay (o) : Turn budget reported source recipient o [] o
  | leave (o) : Turn budget reported source recipient o [] none
  | negotiate : Turn budget reported source recipient (some .waiting) [] (some (.negotiating {}))
  | signal (isSource carrier kind bits bits') (hside : Side source recipient isSource)
      (h : applySignal bits isSource carrier kind budget = .ok bits') :
      Turn budget reported source recipient (some (.negotiating bits))
        [.signal (receiver source recipient isSource) carrier kind] (some (.negotiating bits'))
  | ready (isSource bits bits') (hside : Side source recipient isSource)
      (hreport : reported (sender source recipient isSource)) (h : markReady bits isSource = .ok bits') :
      Turn budget reported source recipient (some (.negotiating bits)) [] (some (.negotiating bits'))
  | commit (isSource bits bits') (hside : Side source recipient isSource)
      (hreport : reported (sender source recipient isSource)) (h : markReady bits isSource = .ok bits')
      (hboth : bothReady bits' = true) :
      Turn budget reported source recipient (some (.negotiating bits)) [.commit recipient, .commit source]
        (some .direct)
  | fail (stage) (peers : List PeerId) (h : stage ≠ .waiting) :
      Turn budget reported source recipient (some stage) (peers.map .failed) none

structure WithinBudget (budget : Nat) (bits : NegotiationBits) : Prop where
  carriers : ∀ c, maxDirectCarriers ≤ c → bits.offerSeen.getLsbD c = false
  answered : ∀ c, bits.answerSeen.getLsbD c = true → bits.offerSeen.getLsbD c = true
  source : bits.candidatesSource ≤ budget
  recipient : bits.candidatesRecipient ≤ budget

/-- The counters say what was forwarded, and nothing has decided the attempt. -/
structure Tallied (source recipient : PeerId) (bits : NegotiationBits) (log : List PathEvent) : Prop where
  offers : ∀ c, log.countP (PathEvent.isOffer c) = (bits.offerSeen.getLsbD c).toNat
  answers : ∀ c, log.countP (PathEvent.isAnswer c) = (bits.answerSeen.getLsbD c).toNat
  fromSource : log.countP (PathEvent.isCandidate recipient) = bits.candidatesSource
  fromRecipient : source ≠ recipient → log.countP (PathEvent.isCandidate source) = bits.candidatesRecipient
  strangers : ∀ p, p ≠ source → p ≠ recipient → log.countP (PathEvent.isCandidate p) = 0
  uncommitted : ∀ p, .commit p ∉ log
  unfailed : ∀ p, .failed p ∉ log

structure Negotiated (budget : Nat) (reported : PeerId → Prop) (source recipient : PeerId) (bits : NegotiationBits)
    (log : List PathEvent) : Prop where
  within : WithinBudget budget bits
  tallied : Tallied source recipient bits log
  readySource : bits.readySource = true → reported source ∧ ∃ c, bits.answerSeen.getLsbD c = true
  readyRecipient : bits.readyRecipient = true → reported recipient ∧ source ≠ recipient

def Fits (budget : Nat) (reported : PeerId → Prop) (source recipient : PeerId) (log : List PathEvent) :
    Option Stage → Prop
  | none => True
  | some .waiting => log = []
  | some (.negotiating bits) => Negotiated budget reported source recipient bits log
  | some .direct => ∀ p, .failed p ∉ log

structure Budgeted (budget : Nat) (log : List PathEvent) : Prop where
  offers : ∀ c, log.countP (PathEvent.isOffer c) ≤ if c < maxDirectCarriers then 1 else 0
  answers : ∀ c, log.countP (PathEvent.isAnswer c) ≤ if c < maxDirectCarriers then 1 else 0
  candidates : ∀ p, log.countP (PathEvent.isCandidate p) ≤ budget

section Bits

theorem and_carrierBit (x : BitVec 16) (c : Nat) : x &&& carrierBit c = 0 ↔ x.getLsbD c = false := by
  rw [carrierBit, ← BitVec.twoPow_eq, BitVec.and_twoPow]
  cases h : x.getLsbD c with
  | false => simp
  | true =>
    have hc : c < 16 := BitVec.lt_of_getLsbD h
    simp only [if_true, Bool.true_eq_false, iff_false]
    intro hz
    have hbit := BitVec.getLsbD_twoPow (w := 16) c c
    rw [hz] at hbit
    simp [hc] at hbit

theorem getLsbD_or_carrierBit (x : BitVec 16) {c : Nat} (hc : c < maxDirectCarriers) (j : Nat) :
    (x ||| carrierBit c).getLsbD j = (x.getLsbD j || decide (c = j)) := by
  have hlt : c < 16 := Nat.lt_of_lt_of_le hc (by decide)
  rw [BitVec.getLsbD_or, carrierBit, ← BitVec.twoPow_eq, BitVec.getLsbD_twoPow]
  simp [hlt]

theorem getLsbD_none (c : Nat) : (0 : BitVec 16).getLsbD c = false := BitVec.getLsbD_zero

theorem exists_bit {x : BitVec 16} (h : x ≠ 0) : ∃ c, x.getLsbD c = true := by
  by_contra hn
  refine h (BitVec.eq_of_getLsbD_eq fun i _ => ?_)
  rw [getLsbD_none, ← Bool.not_eq_true]
  exact fun hi => hn ⟨i, hi⟩

end Bits

section Signals

variable {budget carrier : Nat} {reported : PeerId → Prop} {source recipient : PeerId} {isSource : Bool}
  {bits bits' : NegotiationBits} {log : List PathEvent}

inductive Applied (budget carrier : Nat) (bits : NegotiationBits) : Bool → SignalKind → NegotiationBits → Prop
  | offer (h : bits.offerSeen.getLsbD carrier = false) :
      Applied budget carrier bits false .offer { bits with offerSeen := bits.offerSeen ||| carrierBit carrier }
  | answer (ho : bits.offerSeen.getLsbD carrier = true) (ha : bits.answerSeen.getLsbD carrier = false) :
      Applied budget carrier bits true .answer { bits with answerSeen := bits.answerSeen ||| carrierBit carrier }
  | source (h : bits.candidatesSource < budget) :
      Applied budget carrier bits true .ice { bits with candidatesSource := bits.candidatesSource + 1 }
  | recipient (h : bits.candidatesRecipient < budget) :
      Applied budget carrier bits false .ice { bits with candidatesRecipient := bits.candidatesRecipient + 1 }

variable {kind : SignalKind}

theorem applySignal_applied (h : applySignal bits isSource carrier kind budget = .ok bits') :
    carrier < maxDirectCarriers ∧ Applied budget carrier bits isSource kind bits' := by
  rw [applySignal.eq_def] at h
  split at h
  · cases h
  rename_i hc
  refine ⟨Nat.lt_of_not_le hc, ?_⟩
  cases kind with
  | offer =>
    cases isSource with
    | true => cases h
    | false =>
      simp only [Bool.false_eq_true, if_false] at h
      split at h
      · cases h
      rename_i hseen
      cases h
      exact .offer ((and_carrierBit _ _).mp (not_not.mp hseen))
  | answer =>
    cases isSource with
    | false => cases h
    | true =>
      simp only [Bool.not_true, Bool.false_eq_true, if_false] at h
      split at h
      · cases h
      rename_i hoffer
      split at h
      · cases h
      rename_i hanswer
      cases h
      refine .answer ?_ ((and_carrierBit _ _).mp (not_not.mp hanswer))
      rw [← Bool.not_eq_false]
      exact fun hn => hoffer ((and_carrierBit _ _).mpr hn)
  | ice =>
    cases isSource with
    | true =>
      simp only [if_true] at h
      split at h
      · cases h
      rename_i hspent
      cases h
      exact .source (Nat.lt_of_not_le hspent)
    | false =>
      simp only [Bool.false_eq_true, if_false] at h
      split at h
      · cases h
      rename_i hspent
      cases h
      exact .recipient (Nat.lt_of_not_le hspent)

theorem within_applied (hc : carrier < maxDirectCarriers)
    (h : Applied budget carrier bits isSource kind bits') (hw : WithinBudget budget bits) : WithinBudget budget bits' := by
  cases h with
  | offer =>
    refine { hw with carriers := fun c hle => ?_, answered := fun c ha => ?_ }
    · rw [getLsbD_or_carrierBit _ hc, hw.carriers c hle, Bool.false_or]
      exact decide_eq_false (Nat.ne_of_lt (Nat.lt_of_lt_of_le hc hle))
    · rw [getLsbD_or_carrierBit _ hc, hw.answered c ha, Bool.true_or]
  | answer ho =>
    refine { hw with answered := fun c hb => ?_ }
    rw [getLsbD_or_carrierBit _ hc, Bool.or_eq_true] at hb
    rcases hb with hb | hb
    · exact hw.answered c hb
    · obtain rfl := of_decide_eq_true hb
      exact ho
  | source hlt => exact { hw with source := hlt }
  | recipient hlt => exact { hw with recipient := hlt }

variable {e : PathEvent}

theorem countP_bit {x : BitVec 16} {f : Nat → PathEvent → Bool} (hc : carrier < maxDirectCarriers)
    (hn : x.getLsbD carrier = false) (hf : ∀ c, f c e = (carrier == c))
    (h : ∀ c, log.countP (f c) = (x.getLsbD c).toNat) (c : Nat) :
    (log ++ [e]).countP (f c) = ((x ||| carrierBit carrier).getLsbD c).toNat := by
  rw [countP_append, h, getLsbD_or_carrierBit _ hc, countP_singleton, hf]
  by_cases he : carrier = c
  · subst he
    simp [hn]
  · simp [he]

theorem countP_snoc {f : PathEvent → Bool} (h : f e = false) : (log ++ [e]).countP f = log.countP f := by
  rw [countP_append, countP_singleton, h]
  rfl

section

variable (hc : carrier < maxDirectCarriers) (hside : Side source recipient isSource)
  (h : Applied budget carrier bits isSource kind bits')
include hc hside h

theorem tallied_applied (ht : Tallied source recipient bits log) :
    Tallied source recipient bits' (log ++ [.signal (receiver source recipient isSource) carrier kind]) := by
  have huncommitted (e : PathEvent) (he : ∀ p, e ≠ .commit p) (p : PeerId) : .commit p ∉ log ++ [e] := by
    simpa [ht.uncommitted p] using (he p).symm
  have hunfailed (e : PathEvent) (he : ∀ p, e ≠ .failed p) (p : PeerId) : .failed p ∉ log ++ [e] := by
    simpa [ht.unfailed p] using (he p).symm
  cases h with
  | offer hn =>
    exact
      { offers := countP_bit hc hn (fun _ => rfl) ht.offers
        answers := fun c => (countP_snoc rfl).trans (ht.answers c)
        fromSource := (countP_snoc rfl).trans ht.fromSource
        fromRecipient := fun hne => (countP_snoc rfl).trans (ht.fromRecipient hne)
        strangers := fun p hs hr => (countP_snoc rfl).trans (ht.strangers p hs hr)
        uncommitted := huncommitted _ nofun
        unfailed := hunfailed _ nofun }
  | answer _ ha =>
    exact
      { offers := fun c => (countP_snoc rfl).trans (ht.offers c)
        answers := countP_bit hc ha (fun _ => rfl) ht.answers
        fromSource := (countP_snoc rfl).trans ht.fromSource
        fromRecipient := fun hne => (countP_snoc rfl).trans (ht.fromRecipient hne)
        strangers := fun p hs hr => (countP_snoc rfl).trans (ht.strangers p hs hr)
        uncommitted := huncommitted _ nofun
        unfailed := hunfailed _ nofun }
  | source =>
    exact
      { offers := fun c => (countP_snoc rfl).trans (ht.offers c)
        answers := fun c => (countP_snoc rfl).trans (ht.answers c)
        fromSource := by
          rw [countP_append, ht.fromSource]
          simp [PathEvent.isCandidate, receiver]
        fromRecipient := fun hne => by
          rw [countP_snoc (by simpa [PathEvent.isCandidate, receiver] using hne.symm)]
          exact ht.fromRecipient hne
        strangers := fun p hs hr => by
          rw [countP_snoc (by simpa [PathEvent.isCandidate, receiver] using Ne.symm hr)]
          exact ht.strangers p hs hr
        uncommitted := huncommitted _ nofun
        unfailed := hunfailed _ nofun }
  | recipient =>
    have hne : source ≠ recipient := hside rfl
    exact
      { offers := fun c => (countP_snoc rfl).trans (ht.offers c)
        answers := fun c => (countP_snoc rfl).trans (ht.answers c)
        fromSource := by
          rw [countP_snoc (by simpa [PathEvent.isCandidate, receiver] using hne)]
          exact ht.fromSource
        fromRecipient := fun _ => by
          rw [countP_append, ht.fromRecipient hne]
          simp [PathEvent.isCandidate, receiver]
        strangers := fun p hs hr => by
          rw [countP_snoc (by simpa [PathEvent.isCandidate, receiver] using Ne.symm hs)]
          exact ht.strangers p hs hr
        uncommitted := huncommitted _ nofun
        unfailed := hunfailed _ nofun }

theorem negotiated_applied (hn : Negotiated budget reported source recipient bits log) :
    Negotiated budget reported source recipient bits'
      (log ++ [.signal (receiver source recipient isSource) carrier kind]) := by
  refine ⟨within_applied hc h hn.within, tallied_applied hc hside h hn.tallied, ?_, ?_⟩
  · cases h with
    | answer =>
      intro hready
      obtain ⟨hreport, c, hbit⟩ := hn.readySource hready
      exact ⟨hreport, c, by rw [getLsbD_or_carrierBit _ hc, hbit, Bool.true_or]⟩
    | offer | source | recipient => exact hn.readySource
  · cases h <;> exact hn.readyRecipient

end

theorem budgeted_negotiated (h : Negotiated budget reported source recipient bits log) : Budgeted budget log := by
  have hle (b : Bool) (c : Nat) (hb : maxDirectCarriers ≤ c → b = false) :
      b.toNat ≤ if c < maxDirectCarriers then 1 else 0 := by
    split
    · exact b.toNat_le
    · rename_i hn
      rw [hb (Nat.le_of_not_lt hn)]
      exact Nat.le_refl 0
  refine ⟨fun c => ?_, fun c => ?_, fun p => ?_⟩
  · rw [h.tallied.offers]
    exact hle _ c (h.within.carriers c)
  · rw [h.tallied.answers]
    refine hle _ c fun hc => ?_
    rw [← Bool.not_eq_true]
    intro ha
    cases (h.within.carriers c hc).symm.trans (h.within.answered c ha)
  · by_cases hr : p = recipient
    · subst hr
      rw [h.tallied.fromSource]
      exact h.within.source
    · by_cases hs : p = source
      · subst hs
        rw [h.tallied.fromRecipient hr]
        exact h.within.recipient
      · rw [h.tallied.strangers p hs hr]
        exact Nat.zero_le _

theorem negotiated_markReady (hside : Side source recipient isSource)
    (hreport : reported (sender source recipient isSource)) (h : markReady bits isSource = .ok bits')
    (hn : Negotiated budget reported source recipient bits log) :
    Negotiated budget reported source recipient bits' log := by
  rw [markReady] at h
  cases isSource with
  | true =>
    simp only [if_true] at h
    split at h
    · cases h
    rename_i hseen
    cases h
    exact ⟨{ hn.within with }, { hn.tallied with }, fun _ => ⟨hreport, exists_bit hseen⟩, hn.readyRecipient⟩
  | false =>
    simp only [Bool.false_eq_true, if_false] at h
    split at h
    · cases h
    cases h
    exact ⟨{ hn.within with }, { hn.tallied with }, hn.readySource, fun _ => ⟨hreport, hside rfl⟩⟩

end Signals

section Turns

variable {budget : Nat} {reported : PeerId → Prop} {source recipient : PeerId} {o o' : Option Stage}
  {log new : List PathEvent}

theorem negotiated_start : Negotiated budget reported source recipient {} [] where
  within := ⟨fun c _ => getLsbD_none c, fun c h => (nomatch (getLsbD_none c).symm.trans h), Nat.zero_le _,
    Nat.zero_le _⟩
  tallied := ⟨fun c => (congrArg Bool.toNat (getLsbD_none c)).symm, fun c => (congrArg Bool.toNat (getLsbD_none c)).symm,
    rfl, fun _ => rfl, fun _ _ _ => rfl, fun _ => not_mem_nil, fun _ => not_mem_nil⟩
  readySource := nofun
  readyRecipient := nofun

theorem Fits.mono {reported' : PeerId → Prop} (hle : ∀ p, reported p → reported' p)
    (h : Fits budget reported source recipient log o) : Fits budget reported' source recipient log o := by
  match o with
  | none => trivial
  | some .waiting | some .direct => exact h
  | some (.negotiating bits) =>
    have hn : Negotiated budget reported source recipient bits log := h
    exact ⟨hn.within, hn.tallied, fun hr => (hn.readySource hr).imp_left (hle _),
      fun hr => (hn.readyRecipient hr).imp_left (hle _)⟩

section

variable (h : Turn budget reported source recipient o new o') (hf : Fits budget reported source recipient log o)
include h hf

theorem fits_turn : Fits budget reported source recipient (log ++ new) o' := by
  cases h with
  | stay =>
    rw [append_nil]
    exact hf
  | leave | fail => trivial
  | negotiate =>
    have hnil : log = [] := hf
    subst hnil
    exact negotiated_start
  | signal _ _ _ _ _ hside happ =>
    obtain ⟨hc, happlied⟩ := applySignal_applied happ
    exact negotiated_applied hc hside happlied hf
  | ready _ _ _ hside hreport hmark =>
    rw [append_nil]
    exact negotiated_markReady hside hreport hmark hf
  | commit _ bits =>
    have hn : Negotiated budget reported source recipient bits log := hf
    intro p
    simpa using hn.tallied.unfailed p

theorem budgeted_turn (hb : Budgeted budget log) : Budgeted budget (log ++ new) := by
  -- What only commits or fails is counted by none of the tests.
  have quiet (hz : ∀ e ∈ new, ∀ p c k, e ≠ .signal p c k) : Budgeted budget (log ++ new) := by
    have hzero (f : PathEvent → Bool) (hf : ∀ e, f e = true → ∃ p c k, e = .signal p c k) :
        (log ++ new).countP f = log.countP f := by
      have hnew : new.countP f = 0 := by
        rw [countP_eq_zero]
        intro e he hs
        obtain ⟨p, c, k, rfl⟩ := hf e hs
        exact hz _ he p c k rfl
      rw [countP_append, hnew, Nat.add_zero]
    refine ⟨fun c => ?_, fun c => ?_, fun p => ?_⟩
    · rw [hzero]
      · exact hb.offers c
      · rintro (_ | _ | _) hs
        · exact ⟨_, _, _, rfl⟩
        all_goals cases hs
    · rw [hzero]
      · exact hb.answers c
      · rintro (_ | _ | _) hs
        · exact ⟨_, _, _, rfl⟩
        all_goals cases hs
    · rw [hzero]
      · exact hb.candidates p
      · rintro (_ | _ | _) hs
        · exact ⟨_, _, _, rfl⟩
        all_goals cases hs
  cases h with
  | signal isSource carrier kind bits bits' hside happ =>
    exact budgeted_negotiated (fits_turn (.signal isSource carrier kind bits bits' hside happ) hf)
  | stay | leave | negotiate | ready | commit | fail => exact quiet (by simp)

end

theorem exists_offer {c : Nat} (h : 0 < log.countP (PathEvent.isOffer c)) : ∃ p, .signal p c .offer ∈ log := by
  obtain ⟨e, he, hs⟩ := countP_pos_iff.mp h
  match e, hs with
  | .signal p _ .offer, hs =>
    obtain rfl := eq_of_beq hs
    exact ⟨p, he⟩

theorem exists_answer {c : Nat} (h : 0 < log.countP (PathEvent.isAnswer c)) : ∃ p, .signal p c .answer ∈ log := by
  obtain ⟨e, he, hs⟩ := countP_pos_iff.mp h
  match e, hs with
  | .signal p _ .answer, hs =>
    obtain rfl := eq_of_beq hs
    exact ⟨p, he⟩

variable {peer : PeerId}

section

variable (h : Turn budget reported source recipient o new o') (hf : Fits budget reported source recipient log o)
include h hf

theorem offer_of_answer {carrier : Nat}
    (ha : .signal peer carrier .answer ∈ new) : ∃ p, .signal p carrier .offer ∈ log := by
  cases h with
  | signal _ _ _ bits _ _ happ =>
    have hn : Negotiated budget reported source recipient bits log := hf
    obtain ⟨_, happlied⟩ := applySignal_applied happ
    cases mem_singleton.mp ha
    cases happlied with
    | answer ho =>
      refine exists_offer ?_
      rw [hn.tallied.offers, ho]
      exact Nat.one_pos
  | stay | leave | negotiate | ready | commit | fail => simp at ha

structure Earned (reported : PeerId → Prop) (source recipient : PeerId) (log : List PathEvent) : Prop where
  first : ∀ p, .commit p ∉ log
  apart : source ≠ recipient
  source : reported source
  recipient : reported recipient
  carrier : ∃ c, (∃ p, .signal p c .offer ∈ log) ∧ ∃ p, .signal p c .answer ∈ log

theorem earned_of_commit (hc : .commit peer ∈ new) : Earned reported source recipient log := by
  cases h with
  | commit _ _ bits' hside hreport hmark hboth =>
    have hn : Negotiated budget reported source recipient bits' log := negotiated_markReady hside hreport hmark hf
    rw [bothReady, Bool.and_eq_true] at hboth
    obtain ⟨hsource, c, hbit⟩ := hn.readySource hboth.1
    obtain ⟨hrecipient, hne⟩ := hn.readyRecipient hboth.2
    refine ⟨hn.tallied.uncommitted, hne, hsource, hrecipient, c, exists_offer ?_, exists_answer ?_⟩
    · rw [hn.tallied.offers, hn.within.answered c hbit]
      exact Nat.one_pos
    · rw [hn.tallied.answers, hbit]
      exact Nat.one_pos
  | stay | leave | negotiate | signal | ready | fail => simp at hc

end

end Turns

end Bore.DirectCourse
