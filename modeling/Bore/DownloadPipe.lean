import Bore.DownloadCourse
import Bore.DownloadStale

namespace Bore.Download

open Frames List Download.System

/-! ### The order of the frames -/

section Order

variable (attempt : AttemptId) (stream : List Opened)

def framesAt (seqs : List Nat) : List Message := seqs.map (frameAt attempt stream)

/-- The frames that have not reached the inbox: those that wait for the key,
those the window holds, and those that are still to arrive. All frames before
`next` have reached the inbox. Without a window the frames arrive in order. -/
structure Queue (t : Transfer) (next : Nat) (outstanding : List Nat) : Prop where
  pending : ∃ seqs, t.pendingFrames = framesAt attempt stream seqs ∧ (t.aesKey.isSome = true → seqs = []) ∧
    (t.reorderWindow = false → seqs ++ outstanding = range' next (stream.length - next)) ∧
    (t.reorderWindow = true →
      (seqs ++ (t.reorder.keys ++ outstanding)).Perm (range' next (stream.length - next)))
  held : t.reorderWindow = true → ∀ seq data, t.reorder.get? seq = some data → data = frameAt attempt stream seq
  turn : t.reorderWindow = true → t.reorderNext = next
  gap : t.reorderWindow = true → t.reorder.get? next = none

def Transfer.takes (t : Transfer) (data : Message) (stalled : Bool) : Bool :=
  t.aesKey.isNone || !t.reorderWindow ||
    match peekFrameSeq data with
    | none => true
    | some seq =>
      let held := { t with reorder := t.reorder.insert seq data }
      seq = t.reorderNext ||
        !(held.reorder.size > t.reorderLimits.frames || held.reorderBytes > t.reorderLimits.bytes || stalled)

variable {attempt stream}

variable {next : Nat} {rest : List Nat}

theorem range'_cons_iff {count seq : Nat} :
    range' next count = seq :: rest ↔ seq = next ∧ 0 < count ∧ rest = range' (next + 1) (count - 1) := by
  cases count with
  | zero => simp
  | succ =>
    simp only [range'_succ, cons.injEq, Nat.zero_lt_succ, true_and, Nat.add_sub_cancel, eq_comm]

theorem range'_from (hlt : next < stream.length) :
    range' next (stream.length - next) = next :: range' (next + 1) (stream.length - (next + 1)) := by
  rw [range'_cons_iff]
  exact ⟨rfl, by omega, by congr 1⟩

theorem framesAt_concat {first : Nat} (hle : first ≤ next) :
    framesAt attempt stream (range' first (next - first)) ++ [frameAt attempt stream next] =
      framesAt attempt stream (range' first (next + 1 - first)) := by
  have hsucc : next + 1 - first = (next - first) + 1 := by omega
  have hend : first + (next - first) = next := by omega
  rw [hsucc, range'_1_concat, hend, framesAt, framesAt, map_append]
  rfl

variable {t : Transfer} {outstanding : List Nat}

theorem releaseRun_spec {fuel first : Nat} (hle : first ≤ next)
    (hn : next ≤ stream.length) (hf : t.reorder.size ≤ fuel) (hturn : t.reorderNext = next)
    (hin : t.inbox = framesAt attempt stream (range' first (next - first)))
    (hheld : ∀ seq data, t.reorder.get? seq = some data → data = frameAt attempt stream seq)
    (hperm : (t.reorder.keys ++ outstanding).Perm (range' next (stream.length - next))) :
    ∃ next' reorder, next ≤ next' ∧ next' ≤ stream.length ∧ t.releaseRun fuel = { t with
        inbox := framesAt attempt stream (range' first (next' - first))
        reorder := reorder
        reorderNext := next' } ∧
      (∀ seq data, reorder.get? seq = some data → data = frameAt attempt stream seq) ∧
      reorder.get? next' = none ∧
      (reorder.keys ++ outstanding).Perm (range' next' (stream.length - next')) := by
  induction fuel generalizing t next with
  | zero =>
    have hz : t.reorder.entries = [] := length_eq_zero_iff.mp (Nat.le_zero.mp hf)
    refine ⟨next, t.reorder, Nat.le_refl _, hn, ?_, hheld, ?_, hperm⟩
    · rw [← hin, ← hturn]
      rfl
    · rw [Table.get?, hz]
      rfl
  | succ fuel ih =>
    rw [Transfer.releaseRun, hturn]
    cases hget : t.reorder.get? next with
    | none =>
      refine ⟨next, t.reorder, Nat.le_refl _, hn, ?_, hheld, hget, hperm⟩
      rw [← hin, ← hturn]
    | some data =>
      have hkeys := Table.perm_keys_erase hget
      have hmem : next ∈ range' next (stream.length - next) :=
        hperm.subset (mem_append_left _ (hkeys.symm.subset mem_cons_self))
      have hlt : next < stream.length := by
        have := mem_range'_1.mp hmem
        omega
      let u : Transfer := { t with
        reorder := t.reorder.erase next
        inbox := t.inbox ++ [data]
        reorderNext := next + 1 }
      have hsize : u.reorder.size ≤ fuel := by
        have hlen := hkeys.length_eq
        simp only [Table.keys, length_cons, length_map] at hlen
        change (t.reorder.erase next).entries.length ≤ fuel
        change t.reorder.entries.length ≤ fuel + 1 at hf
        omega
      have hin' : u.inbox = framesAt attempt stream (range' first (next + 1 - first)) := by
        change t.inbox ++ [data] = _
        rw [hin, hheld next data hget, framesAt_concat hle]
      have hheld' : ∀ seq data, u.reorder.get? seq = some data → data = frameAt attempt stream seq := by
        intro seq data hd
        rw [Table.get?_erase] at hd
        split at hd
        · cases hd
        · exact hheld seq data hd
      have hperm' : (u.reorder.keys ++ outstanding).Perm (range' (next + 1) (stream.length - (next + 1))) := by
        rw [range'_from hlt] at hperm
        exact List.Perm.cons_inv ((hkeys.symm.append_right outstanding).trans hperm)
      have hturn' : u.reorderNext = next + 1 := rfl
      obtain ⟨next', reorder, hle', hn', he, hrest⟩ :=
        ih (Nat.le_succ_of_le hle) hlt hsize hturn' hin' hheld' hperm'
      exact ⟨next', reorder, Nat.le_of_succ_le hle', hn', he, hrest⟩

def Arrives (t : Transfer) (seq : Nat) (outstanding rest : List Nat) : Prop :=
  (t.reorderWindow = false → outstanding = seq :: rest) ∧ (t.reorderWindow = true → outstanding.Perm (seq :: rest))

theorem Queue.wait {seq : Nat}
    (h : Queue attempt stream t next outstanding) (ha : Arrives t seq outstanding rest) (hk : t.aesKey = none) :
    Queue attempt stream { t with pendingFrames := t.pendingFrames ++ [frameAt attempt stream seq] } next rest := by
  obtain ⟨seqs, hp, _, ho, hw⟩ := h.pending
  refine ⟨⟨seqs ++ [seq], ?_, ?_, ?_, ?_⟩, h.held, h.turn, h.gap⟩
  · rw [hp, framesAt, framesAt, map_append]
    rfl
  · intro hs
    rw [hk] at hs
    cases hs
  · intro hf
    rw [append_assoc, singleton_append, ← ha.1 hf]
    exact ho hf
  · intro ht
    refine List.Perm.trans ?_ (hw ht)
    rw [append_assoc]
    refine List.Perm.append_left seqs ?_
    have hm : (seq :: (t.reorder.keys ++ rest)).Perm (t.reorder.keys ++ seq :: rest) := perm_middle.symm
    exact hm.trans ((ha.2 ht).symm.append_left t.reorder.keys)

variable (attempt stream) in
/-- A frame that arrives with the key goes to the inbox with the run behind
it, or the window holds it. -/
def Admits (t : Transfer) (seq : Nat) (stalled : Bool) (first next : Nat) (rest : List Nat) : Prop :=
  ∃ next' reorder reorderNext grew, next ≤ next' ∧ next' ≤ stream.length ∧
    t.admitInOrder (frameAt attempt stream seq) stalled =
      ({ t with
        inbox := framesAt attempt stream (range' first (next' - first))
        reorder := reorder
        reorderNext := reorderNext }, grew) ∧
    (grew = false → next' = next) ∧
    Queue attempt stream { t with
      inbox := framesAt attempt stream (range' first (next' - first))
      reorder := reorder
      reorderNext := reorderNext } next' rest

section Admit

variable {first seq : Nat} {stalled : Bool}

theorem Queue.admit_ordered (h : Queue attempt stream t next outstanding) (hwin : t.reorderWindow = false)
    (ha : Arrives t seq outstanding rest) (hk : t.aesKey.isSome = true) (hle : first ≤ next)
    (hin : t.inbox = framesAt attempt stream (range' first (next - first))) :
    Admits attempt stream t seq stalled first next rest := by
  obtain ⟨seqs, hp, hnil, ho, _⟩ := h.pending
  obtain rfl := hnil hk
  have hrange := ho hwin
  rw [nil_append, ha.1 hwin, eq_comm, range'_cons_iff] at hrange
  obtain ⟨rfl, hpos, hrest⟩ := hrange
  have hfalse : ¬ t.reorderWindow = true := by simp [hwin]
  refine ⟨seq + 1, t.reorder, t.reorderNext, true, Nat.le_succ _, by omega, ?_, (fun hf => by cases hf), ?_⟩
  · unfold Transfer.admitInOrder
    rw [if_pos (by simp [hwin]), hin, framesAt_concat hle]
  · refine ⟨⟨[], hp, fun _ => rfl, fun _ => ?_, fun hc => absurd hc hfalse⟩, fun hc => absurd hc hfalse,
      fun hc => absurd hc hfalse, fun hc => absurd hc hfalse⟩
    congr 1

theorem Queue.admit_turn (h : Queue attempt stream t seq outstanding) (hwin : t.reorderWindow = true)
    (hp : t.pendingFrames = framesAt attempt stream []) (hlt : seq < stream.length)
    (hq : (seq :: (t.reorder.keys ++ rest)).Perm (range' seq (stream.length - seq))) (hle : first ≤ seq)
    (hin : t.inbox = framesAt attempt stream (range' first (seq - first))) :
    Admits attempt stream t seq stalled first seq rest := by
  have hturn := h.turn hwin
  rw [range'_from hlt] at hq
  let u : Transfer := { t with
    inbox := t.inbox ++ [frameAt attempt stream seq]
    reorderNext := t.reorderNext + 1 }
  have hin' : u.inbox = framesAt attempt stream (range' first (seq + 1 - first)) := by
    change t.inbox ++ _ = _
    rw [hin, framesAt_concat hle]
  have hturn' : u.reorderNext = seq + 1 := congrArg (· + 1) hturn
  obtain ⟨next', reorder, hle', hn', he, hheld, hgap, hq'⟩ :=
    releaseRun_spec (Nat.le_succ_of_le hle) hlt (Nat.le_refl _) hturn' hin' (h.held hwin) hq.cons_inv
  refine ⟨next', reorder, next', true, Nat.le_of_succ_le hle', hn', ?_, (fun hf => by cases hf), ?_⟩
  · unfold Transfer.admitInOrder
    rw [if_neg (by simp [hwin]), peekFrameSeq_frameAt hlt attempt]
    dsimp only
    rw [if_pos hturn.symm]
    exact congrArg (·, true) he
  · exact ⟨⟨[], hp, fun _ => rfl, fun hf => absurd (hwin.symm.trans hf) (by simp), fun _ => hq'⟩, fun _ => hheld,
      fun _ => rfl, fun _ => hgap⟩

theorem Queue.admit_held (h : Queue attempt stream t next outstanding) (hwin : t.reorderWindow = true)
    (hk : t.aesKey.isSome = true) (hp : t.pendingFrames = framesAt attempt stream []) (hlt : seq < stream.length)
    (hgt : next < seq) (hn : next ≤ stream.length)
    (hq : (seq :: (t.reorder.keys ++ rest)).Perm (range' next (stream.length - next)))
    (hin : t.inbox = framesAt attempt stream (range' first (next - first)))
    (ht : t.takes (frameAt attempt stream seq) stalled = true) :
    Admits attempt stream t seq stalled first next rest := by
  have hturn := h.turn hwin
  have hpeek := peekFrameSeq_frameAt hlt attempt
  have hfresh : t.reorder.get? seq = none := by
    have hnodup := hq.nodup_iff.mpr nodup_range'
    cases hg : t.reorder.get? seq with
    | none => rfl
    | some data =>
      have hmem : seq ∈ t.reorder.keys := (Table.mem_keys_iff _ _).mpr ⟨data, hg⟩
      exact absurd (mem_append_left rest hmem) (nodup_cons.mp hnodup).1
  have hroom : ¬ ((t.reorder.insert seq (frameAt attempt stream seq)).size > t.reorderLimits.frames ∨
      Transfer.reorderBytes { t with reorder := t.reorder.insert seq (frameAt attempt stream seq) } >
        t.reorderLimits.bytes ∨ stalled = true) := by
    have hne : seq ≠ next := by omega
    have hkey : t.aesKey.isNone = false := by
      rw [← Option.not_isSome, hk]
      rfl
    simp only [Transfer.takes, hkey, hwin, hpeek, hturn, hne, decide_false, Bool.false_or, Bool.not_true,
      Bool.not_eq_true', Bool.or_eq_false_iff, decide_eq_false_iff_not] at ht
    rintro (h1 | h2 | h3)
    · exact ht.1.1 h1
    · exact ht.1.2 h2
    · rw [ht.2] at h3
      cases h3
  refine ⟨next, t.reorder.insert seq (frameAt attempt stream seq), t.reorderNext, false, Nat.le_refl _, hn, ?_,
    (fun _ => rfl), ?_⟩
  · unfold Transfer.admitInOrder
    rw [if_neg (by simp [hwin]), hpeek]
    dsimp only
    rw [if_neg (by omega), if_neg, if_neg hroom, ← hin]
    rintro (hlt' | hc)
    · omega
    · rw [Table.contains, hfresh] at hc
      cases hc
  · refine ⟨⟨[], hp, fun _ => rfl, fun hf => absurd (hwin.symm.trans hf) (by simp), fun _ => ?_⟩, ?_, fun _ => hturn,
      fun _ => ?_⟩
    · exact (((Table.perm_insert hfresh _).map Prod.fst).append_right rest).trans hq
    · intro _ k data hd
      rw [Table.get?_insert] at hd
      split at hd
      · rename_i hk'
        cases hd
        rw [hk']
      · exact h.held hwin k data hd
    · rw [Table.get?_insert_of_ne _ _ (by omega)]
      exact h.gap hwin

theorem Queue.admits (h : Queue attempt stream t next outstanding) (ha : Arrives t seq outstanding rest)
    (hk : t.aesKey.isSome = true) (hle : first ≤ next) (hn : next ≤ stream.length)
    (hin : t.inbox = framesAt attempt stream (range' first (next - first)))
    (ht : t.takes (frameAt attempt stream seq) stalled = true) :
    Admits attempt stream t seq stalled first next rest := by
  rcases Bool.eq_false_or_eq_true t.reorderWindow with hwin | hwin
  · obtain ⟨seqs, hp, hnil, _, hw⟩ := h.pending
    obtain rfl := hnil hk
    have hq : (seq :: (t.reorder.keys ++ rest)).Perm (range' next (stream.length - next)) := by
      have hp := (ha.2 hwin).symm.append_left t.reorder.keys
      exact (perm_middle.symm.trans hp).trans (hw hwin)
    have hseq := mem_range'_1.mp (hq.subset mem_cons_self)
    by_cases heq : seq = next
    · subst heq
      exact h.admit_turn hwin hp (by omega) hq hle hin
    · exact h.admit_held hwin hk hp (by omega) (by omega) hn hq hin ht
  · exact h.admit_ordered hwin ha hk hle hin

end Admit

end Order

/-! ### The flow of an attempt -/

section Flow

variable (attempt : AttemptId) (stream : List Opened) (Course : Books → Point → List Opened → Prop)

/-- What the pump does while the attempt's stream is consumed up to `consumed`
and taken from the inbox up to `taken`: nothing, the work of another attempt,
or the work of this one. -/
inductive Pumps (b : Books) (consumed taken : Nat) : Option Pump → Prop
  | idle (he : taken = consumed) (hc : Course b .consuming (stream.drop consumed)) : Pumps b consumed taken none
  | foreign {p} (hp : p.attempt ≠ some attempt) (hf : p.point.checksFinal = false) (he : taken = consumed)
      (hc : Course b .consuming (stream.drop consumed)) : Pumps b consumed taken (some p)
  | opening {p} (hp : p.attempt = some attempt)
      (ho : p.point = .opening (some attempt)
        ((range' consumed (taken - consumed)).map fun seq => (frameAt attempt stream seq, seq)))
      (hc : Course b .consuming (stream.drop consumed)) : Pumps b consumed taken (some p)
  | own {p} (hp : p.attempt = some attempt) (hr : p.rest = (stream.drop consumed).take (taken - consumed))
      (hc : Course b p.point (stream.drop consumed)) : Pumps b consumed taken (some p)

def Job.leaves : Job → Bool
  | .pump => true
  | .drain other => other ≠ attempt
  | .relayClosed other => other ≠ some attempt

def ownRunning (running : Option Pump) : Prop := ∃ p, running = some p ∧ p.attempt = some attempt

/-- The current attempt receives its stream: every frame is consumed, taken by
the pump, in the inbox or still in the queue. The upgrade that is prepared and
the kind of the queue stay the same. -/
structure Flow (u : Option (AttemptId × Nat)) (w : Bool) (s : System) (outstanding : List Nat) (consumed next : Nat) : Prop where
  live : s.live = true
  online : s.online = true
  attemptId : s.transfer.attemptId = some attempt
  notClosed : s.transfer.attemptClosed = false
  fixed : s.transfer.upgrade = u ∧ s.transfer.reorderWindow = w
  key : s.transfer.aesKey = none ∨ s.transfer.aesKey = some attempt
  derivations : ∀ id d, s.derivations.get? id = some d → d.attempt = some attempt
  waiting : s.transfer.aesKey = none → next = 0 ∧ ∃ id d, s.derivations.get? id = some d
  chain : ∀ job ∈ s.chain, job.leaves attempt = true
  consumedLe : consumed ≤ s.transfer.expectedSeq
  takenLe : s.transfer.expectedSeq ≤ next
  nextLe : next ≤ stream.length
  inbox : s.transfer.inbox =
    framesAt attempt stream (range' s.transfer.expectedSeq (next - s.transfer.expectedSeq))
  busy : s.transfer.inbox ≠ [] → s.transfer.pumping = true
  pumping : s.transfer.pumping = true → ownRunning attempt s.running ∨ Job.pump ∈ s.chain
  queue : Queue attempt stream s.transfer next outstanding
  pumps : Pumps attempt stream Course s.transfer.toBooks consumed s.transfer.expectedSeq s.running

variable {attempt stream Course}
  {hash : Hash} {u : Option (AttemptId × Nat)} {w : Bool} {s : System}
  {outstanding : List Nat} {consumed next : Nat} {stalled : Bool} {p : Pump} {s' : System}

theorem take_range'_eq (k e n : Nat) : (range' e n).take k = range' e (min k n) := by
  induction k generalizing e n with
  | zero => simp
  | succ k ih =>
    cases n with
    | zero => simp
    | succ => rw [range'_succ, take_succ_cons, ih, ← range'_succ, Nat.succ_min_succ]

theorem zipIdx_map_range' {B : Type} (f : Nat → B) (e n : Nat) :
    ((range' e n).map f).zipIdx e = (range' e n).map (fun seq => (f seq, seq)) := by
  induction n generalizing e with
  | zero => rfl
  | succ n ih => rw [range'_succ, map_cons, zipIdx_cons, ih, map_cons]

variable (attempt) in
theorem openAll_range' (hfits : ∀ opened ∈ stream, opened.fits = true) {c n : Nat} (h : c + n ≤ stream.length) :
    openAll (some attempt) ((range' c n).map fun seq => (frameAt attempt stream seq, seq)) =
      some ((stream.drop c).take n) := by
  induction n generalizing c with
  | zero => rfl
  | succ n ih =>
    have hlt : c < stream.length := by omega
    have hd := decodeFrameWithKey_frameAt (getElem?_eq_getElem hlt) (hfits _ (getElem_mem hlt)) attempt
    have hi := ih (c := c + 1) (by omega)
    rw [openAll] at hi ⊢
    rw [range'_succ, map_cons, mapM_cons, hi, drop_eq_getElem_cons hlt, take_succ_cons]
    dsimp only
    rw [hd]
    rfl

section

variable (h : Flow attempt stream Course u w s outstanding consumed next)
include h

theorem Flow.stale (other : Option AttemptId) :
    s.transfer.stale other = decide (other ≠ some attempt) := by
  rw [Transfer.stale, h.notClosed, h.attemptId, Bool.false_or, decide_eq_decide]
  exact ne_comm

theorem Flow.deliver {seq : Nat} {rest : List Nat}
    (ha : Arrives s.transfer seq outstanding rest)
    (ht : s.transfer.takes (frameAt attempt stream seq) stalled = true) :
    ∃ next', Flow attempt stream Course u w (s.deliverFrame (frameAt attempt stream seq) stalled) rest consumed next' := by
  unfold deliverFrame
  rw [if_neg (by rw [h.notClosed]; simp)]
  rcases h.key with hk | hk
  · rw [if_pos (by rw [hk]; rfl)]
    exact ⟨next, { h with queue := h.queue.wait ha hk }⟩
  rw [if_neg (by rw [hk]; simp)]
  obtain ⟨next', reorder, reorderNext, grew, hle, hn, he, hgrew, hq⟩ :=
    h.queue.admits ha (by rw [hk]; rfl) h.takenLe h.nextLe h.inbox ht
  have hd : s.transfer.aesKey = none → next' = 0 ∧ ∃ id d, s.derivations.get? id = some d := by
    intro hc
    rw [hk] at hc
    cases hc
  rw [he]
  cases grew with
  | false =>
    obtain rfl := hgrew rfl
    exact ⟨next', { h with waiting := hd, inbox := rfl, busy := fun hne => h.busy (h.inbox.trans_ne hne), queue := hq }⟩
  | true =>
    dsimp only
    split
    · rename_i hp
      exact ⟨next', { h with
        waiting := hd, takenLe := Nat.le_trans h.takenLe hle, nextLe := hn, inbox := rfl, busy := fun _ => hp, queue := hq }⟩
    refine ⟨next', { h with
      waiting := hd, chain := ?_, takenLe := Nat.le_trans h.takenLe hle, nextLe := hn, inbox := rfl, busy := fun _ => rfl
      pumping := fun _ => .inr ?_, queue := ?_ }⟩
    · intro job hj
      rcases mem_append.mp hj with hj | hj
      · exact h.chain job hj
      · rw [mem_singleton.mp hj]
        rfl
    · exact mem_append_right _ (mem_singleton.mpr rfl)
    · exact { hq with }

theorem key_of_inbox (hne : s.transfer.inbox ≠ []) :
    s.transfer.aesKey = some attempt := by
  rcases h.key with hk | hk
  · have hz := (h.waiting hk).1
    refine absurd ?_ hne
    rw [h.inbox, hz, Nat.zero_sub]
    rfl
  · exact hk

theorem Flow.nextBatch {chain : List Job}
    (hchain : ∀ job ∈ chain, job.leaves attempt = true) (he : s.transfer.expectedSeq = consumed)
    (hc : Course s.transfer.toBooks .consuming (stream.drop consumed)) (hp : p.attempt = some attempt) :
    ∃ consumed', Flow attempt stream Course u w ({ s with chain := chain }.nextBatch p) outstanding consumed' next := by
  refine ⟨consumed, ?_⟩
  have hst : s.transfer.stale p.attempt = false := by
    rw [h.stale, hp]
    simp
  unfold System.nextBatch
  dsimp only
  by_cases hin : s.transfer.inbox = []
  · rw [if_pos (.inl hin)]
    unfold returns
    rw [if_neg (by rw [hst]; simp)]
    exact { h with
      chain := hchain, busy := fun hne => absurd hin hne, pumping := nofun, queue := { h.queue with }, pumps := .idle he hc }
  have hkey := key_of_inbox h hin
  have hlive := h.live
  rw [if_neg (by rw [hst]; simp [hin, hlive])]
  have hin' := h.inbox
  have htake : s.transfer.inbox.take framePipelineDepth =
      framesAt attempt stream (range' s.transfer.expectedSeq
        (min framePipelineDepth (next - s.transfer.expectedSeq))) := by
    rw [hin', framesAt, ← map_take, take_range'_eq]
    rfl
  generalize hn : min framePipelineDepth (next - s.transfer.expectedSeq) = n at htake
  have hdrop : s.transfer.inbox.drop framePipelineDepth =
      framesAt attempt stream (range' (s.transfer.expectedSeq + n) (next - (s.transfer.expectedSeq + n))) := by
    rw [hin', framesAt, ← map_drop, drop_range', Nat.mul_one]
    by_cases hall : next - s.transfer.expectedSeq ≤ framePipelineDepth
    · have h1 : next - s.transfer.expectedSeq - framePipelineDepth = 0 := by omega
      have h2 : next - (s.transfer.expectedSeq + n) = 0 := by omega
      rw [h1, h2]
      rfl
    · have h1 : n = framePipelineDepth := by omega
      rw [h1, Nat.sub_sub]
      rfl
  have hlen : (s.transfer.inbox.take framePipelineDepth).length = n := by
    rw [htake, framesAt, length_map, length_range']
  rw [hlen, hdrop, htake]
  refine { h with
    chain := hchain, consumedLe := ?_, takenLe := ?_, inbox := rfl, busy := fun _ => h.busy hin
    pumping := fun _ => .inl ⟨_, rfl, hp⟩, queue := { h.queue with }, pumps := ?_ }
  · exact Nat.le_trans h.consumedLe (Nat.le_add_right _ _)
  · change s.transfer.expectedSeq + n ≤ next
    have := h.takenLe
    omega
  · refine Pumps.opening hp ?_ hc
    rw [hkey, framesAt, zipIdx_map_range']
    change _ = Point.opening _ ((range' consumed (s.transfer.expectedSeq + n - consumed)).map _)
    rw [he, Nat.add_sub_cancel_left]

theorem Flow.own (hC : Advances hash Course s p) (hp : p.attempt = some attempt)
    (hr : p.rest = (stream.drop consumed).take (s.transfer.expectedSeq - consumed))
    (hc : Course s.transfer.toBooks p.point (stream.drop consumed)) (hne : p.point = .consuming → p.rest ≠ []) :
    ∃ consumed', Flow attempt stream Course u w (s.advance hash p) outstanding consumed' next := by
  have htaken := h.takenLe
  have hnext := h.nextLe
  have hconsumed := h.consumedLe
  generalize he : s.transfer.expectedSeq = taken at *
  have hsplit : p.rest ++ stream.drop taken = stream.drop consumed := by
    have hd : stream.drop taken = (stream.drop consumed).drop (taken - consumed) := by
      rw [drop_drop]
      congr 1
      omega
    rw [hr, hd, take_append_drop]
  have hst : s.transfer.stale p.attempt = false := by
    rw [h.stale, hp]
    simp
  rw [← hsplit] at hc
  obtain ⟨b, parts, completes, q, hadv, hq, ⟨used, hused⟩, hcourse⟩ :=
    hC (stream.drop taken) hc hst h.live h.online hne
  have hlen := congrArg length hused
  rw [length_append, hr, length_take, length_drop] at hlen
  have hrest : stream.drop (consumed + used.length) = q.rest ++ stream.drop taken := by
    rw [← drop_drop, ← hsplit, ← hused, append_assoc, drop_left]
  refine ⟨consumed + used.length, ?_⟩
  rw [hadv]
  have hpumps : Pumps attempt stream Course b (consumed + used.length) taken (some q) := by
    refine Pumps.own (hq.trans hp) ?_ (by rw [hrest]; exact hcourse)
    rw [hrest, take_left' (by omega)]
  refine { h with
    consumedLe := ?_, pumping := fun _ => .inl ⟨q, rfl, hq.trans hp⟩, queue := { h.queue with }, pumps := ?_ }
  · change _ ≤ s.transfer.expectedSeq
    omega
  · change Pumps attempt stream Course b _ s.transfer.expectedSeq (some q)
    rw [he]
    exact hpumps

theorem Flow.advance (hfits : ∀ opened ∈ stream, opened.fits = true) (hrun : s.running = some p)
    (hC : p.attempt = some attempt → Advances hash Course s p) :
    ∃ consumed', Flow attempt stream Course u w (s.advance hash p) outstanding consumed' next := by
  have hpumps := h.pumps
  rw [hrun] at hpumps
  cases hpumps with
  | foreign hp hf he hc =>
    have hst : s.transfer.stale p.attempt = true := by
      rw [h.stale]
      exact decide_eq_true hp
    obtain ⟨parts, running, hadv, hq⟩ := advance_of_stale hash hst hf
    rw [hadv]
    have hpump : s.transfer.pumping = true → ownRunning attempt running ∨ Job.pump ∈ s.chain := by
      intro ht
      rcases h.pumping ht with ⟨q, hq', ho⟩ | hj
      · rw [hrun] at hq'
        cases hq'
        exact absurd ho hp
      · exact .inr hj
    refine ⟨consumed, { h with pumping := hpump, pumps := ?_ }⟩
    cases running with
    | none => exact .idle he hc
    | some q =>
      obtain ⟨ha, hf'⟩ := hq q rfl
      exact .foreign (ha ▸ hp) hf' he hc
  | opening hp ho hc =>
    have hle := h.takenLe
    have hn := h.nextLe
    have hc' := h.consumedLe
    have hopen := openAll_range' attempt hfits (c := consumed) (n := s.transfer.expectedSeq - consumed)
      (by omega)
    unfold System.advance
    rw [ho]
    dsimp only
    rw [hopen]
    exact ⟨consumed, { h with pumping := fun _ => .inl ⟨_, rfl, hp⟩, pumps := .own hp rfl hc }⟩
  | own hp hr hc =>
    by_cases hhead : p.point = .consuming ∧ p.rest = []
    · obtain ⟨hpt, hnil⟩ := hhead
      have he : s.transfer.expectedSeq = consumed := by
        have hlen := congrArg length hr
        rw [hnil, length_take, length_drop, length_nil] at hlen
        have hle := h.takenLe
        have hn := h.nextLe
        have hc' := h.consumedLe
        omega
      rw [hpt] at hc
      have hadv : s.advance hash p = { s with chain := s.chain }.nextBatch p := by
        unfold System.advance consume
        rw [hpt, hnil]
      rw [hadv]
      exact h.nextBatch h.chain he hc hp
    · exact h.own (hC hp) hp hr hc (fun hpt hnil => hhead ⟨hpt, hnil⟩)

theorem Flow.pump (hfits : ∀ opened ∈ stream, opened.fits = true)
    (hC : ∀ p, s.running = some p → p.attempt = some attempt → Advances hash Course s p)
    (hs : step hash s .pump = some s') :
    ∃ consumed', Flow attempt stream Course u w s' outstanding consumed' next := by
  simp only [step] at hs
  split at hs
  all_goals cases hs
  · rename_i hrun
    exact h.advance hfits hrun (hC _ hrun)
  · rename_i job chain hrun hchain
    have hjobs : ∀ j ∈ chain, j.leaves attempt = true := fun j hj => h.chain j (hchain ▸ mem_cons_of_mem _ hj)
    have hjob : job.leaves attempt = true := h.chain job (hchain ▸ mem_cons_self)
    have hpumps := h.pumps
    rw [hrun] at hpumps
    cases hpumps with
    | idle he hc =>
      -- A job of another attempt finds that its attempt is over.
      have skip : job ≠ .pump →
          Flow attempt stream Course u w { s with chain := chain } outstanding consumed next := by
        intro hne
        refine { h with chain := hjobs, pumping := ?_, pumps := hrun ▸ .idle he hc }
        intro ht
        refine (h.pumping ht).imp_right fun hm => ?_
        rw [hchain] at hm
        exact (mem_cons.mp hm).resolve_left (Ne.symm hne)
      cases job with
      | pump => exact h.nextBatch hjobs he hc h.attemptId
      | drain other =>
        refine ⟨consumed, ?_⟩
        have hne : s.transfer.attemptId ≠ some other := by
          rw [h.attemptId]
          exact fun heq => of_decide_eq_true hjob (Option.some.inj heq).symm
        unfold startJob closeDirect
        dsimp only
        rw [if_pos (.inr (.inl hne))]
        exact skip (by simp)
      | relayClosed other =>
        refine ⟨consumed, ?_⟩
        have hne : s.transfer.attemptId ≠ other := by
          rw [h.attemptId]
          exact fun heq => of_decide_eq_true hjob heq.symm
        unfold startJob relayCheck
        dsimp only
        rw [if_pos (.inr (.inl hne))]
        exact skip (by simp)

end

def System.takesAll (stalled : Bool) : System → List Message → Bool
  | _, [] => true
  | s, data :: rest => s.transfer.takes data stalled && takesAll stalled (s.deliverFrame data stalled) rest

theorem Flow.deliverAll (seqs : List Nat) (h : Flow attempt stream Course u w s (seqs ++ outstanding) consumed next)
    (ht : s.takesAll stalled (framesAt attempt stream seqs) = true) : ∃ next', Flow attempt stream Course u w
      ((framesAt attempt stream seqs).foldl (fun s data => s.deliverFrame data stalled) s) outstanding consumed next' := by
  induction seqs generalizing s next with
  | nil => exact ⟨next, h⟩
  | cons seq seqs ih =>
    obtain ⟨hone, hrest⟩ := Bool.and_eq_true _ _ |>.mp ht
    have ha : Arrives s.transfer seq (seq :: seqs ++ outstanding) (seqs ++ outstanding) :=
      ⟨fun _ => rfl, fun _ => List.Perm.refl _⟩
    obtain ⟨next', h'⟩ := h.deliver ha hone
    exact ih h' hrest

def System.keyed (s : System) (key : Nat) : System :=
  { s with
    derivations := s.derivations.erase key
    transfer := { s.transfer with aesKey := s.transfer.attemptId, pendingFrames := [] } }

def System.keyFits (s : System) (key : Nat) (stalled : Bool) : Bool :=
  (s.keyed key).takesAll stalled s.transfer.pendingFrames

theorem Flow.install (h : Flow attempt stream Course u w s outstanding consumed next) {key : Nat}
    (ht : s.keyFits key stalled = true) : ∃ next', Flow attempt stream Course u w
      ({ s with derivations := s.derivations.erase key }.installKey (some attempt) stalled) outstanding consumed
      next' := by
  obtain ⟨seqs, hp, _, ho, hw⟩ := h.queue.pending
  have hu : Flow attempt stream Course u w (s.keyed key) (seqs ++ outstanding) consumed next := by
    refine { h with
      key := .inr h.attemptId, derivations := ?_, waiting := ?_
      queue := { h.queue with pending := ⟨[], rfl, fun _ => rfl, ho, fun hwin => ?_⟩ } }
    · intro k d hk
      change (s.derivations.erase key).get? k = some d at hk
      rw [Table.get?_erase] at hk
      split at hk
      · cases hk
      · exact h.derivations k d hk
    · intro hn
      change s.transfer.attemptId = none at hn
      rw [h.attemptId] at hn
      cases hn
    · refine List.Perm.trans ?_ (hw hwin)
      rw [nil_append, ← append_assoc, ← append_assoc]
      exact perm_append_comm.append_right outstanding
  rw [keyFits, hp] at ht
  obtain ⟨next', hflow⟩ := hu.deliverAll seqs ht
  refine ⟨next', ?_⟩
  rw [keyed, h.attemptId] at hflow
  unfold installKey
  rw [if_pos (by exact h.live), hp]
  exact hflow

theorem Flow.derive (h : Flow attempt stream Course u w s outstanding consumed next) {key : Nat}
    (ht : s.keyFits key stalled = true) (hs : step hash s (.derive key stalled) = some s') :
    ∃ next', Flow attempt stream Course u w s' outstanding consumed next' := by
  simp only [step] at hs
  split at hs
  · cases hs
  rename_i d hd
  have ha := h.derivations key d hd
  split at hs
  · cases hs
    rw [ha]
    exact h.install ht
  split at hs
  · cases hs
  split at hs
  · rename_i hlive
    rw [h.live] at hlive
    cases hlive
  cases hs
  refine ⟨next, { h with derivations := ?_, waiting := ?_ }⟩
  · intro k d' hk
    rw [Table.get?_insert] at hk
    split at hk
    · cases hk
      exact ha
    · exact h.derivations k d' hk
  · intro hn
    exact ⟨(h.waiting hn).1, key, _, Table.get?_insert_self _ _ _⟩

def System.quiet (s : System) : Bool := s.running.isNone && s.chain.isEmpty && s.derivations.entries.isEmpty

theorem Flow.ends (h : Flow attempt stream Course u w s [] consumed next) (hq : s.quiet = true) :
    Course s.transfer.toBooks .consuming [] := by
  simp only [quiet, Bool.and_eq_true, Option.isNone_iff_eq_none, List.isEmpty_iff] at hq
  obtain ⟨⟨hrun, hchain⟩, hder⟩ := hq
  have hkey : s.transfer.aesKey.isSome = true := by
    rcases h.key with hk | hk
    · obtain ⟨_, id, d, hd⟩ := h.waiting hk
      rw [Table.get?, hder] at hd
      cases hd
    · rw [hk]
      rfl
  have hnext : next = stream.length := by
    obtain ⟨seqs, _, hnil, ho, hw⟩ := h.queue.pending
    obtain rfl := hnil hkey
    have hle := h.nextLe
    by_contra hne
    have hmem : next ∈ List.range' next (stream.length - next) := List.mem_range'_1.mpr ⟨Nat.le_refl _, by omega⟩
    rcases Bool.eq_false_or_eq_true s.transfer.reorderWindow with hwin | hwin
    · have hk := (hw hwin).symm.subset hmem
      rw [List.nil_append, List.append_nil, Table.mem_keys_iff] at hk
      obtain ⟨data, hd⟩ := hk
      rw [h.queue.gap hwin] at hd
      cases hd
    · rw [← ho hwin] at hmem
      cases hmem
  have hin : s.transfer.inbox = [] := by
    by_contra hne
    rcases h.pumping (h.busy hne) with ⟨p, hp, _⟩ | hj
    · rw [hrun] at hp
      cases hp
    · rw [hchain] at hj
      cases hj
  have htaken : s.transfer.expectedSeq = next := by
    have hlen := congrArg List.length h.inbox
    rw [hin, framesAt, length_map, length_range', length_nil] at hlen
    have := h.takenLe
    omega
  have hpumps := h.pumps
  rw [hrun] at hpumps
  cases hpumps with
  | idle _ hc =>
    have hall : consumed = stream.length := by omega
    rw [hall, drop_length] at hc
    exact hc

end Flow

end Bore.Download
