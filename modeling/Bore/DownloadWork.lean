import Bore.DownloadLink
import Bore.DownloadTurns

namespace Bore.Download

open Frames List Download.System

/-! ### Every turn does some work -/

def System.work (count : Nat) (s : System) : Nat :=
  12 * (count - s.transfer.expectedSeq) + pumpWork s.running + 3 * s.chain.length +
    4 * s.transfer.pendingFrames.length + (s.derivations.values.map fun d => if d.importing then 10 else 20).sum

variable {s s' : System} {p : Pump}

theorem Turn.work_lt (h : Turn s p s') (hrun : s.running = some p) (count : Nat) : s'.work count < s.work count := by
  have hw := h.work
  obtain ⟨hc, hd, ht, hf⟩ := h.frame
  rw [← hrun] at hw
  unfold System.work
  rw [hc, hd, ht, hf]
  omega

theorem written_work {goal : Goal} {chunk : Bytes} {index : Nat} (hash : Hash)
    (hrun : s.running = some p) (hpt : p.point = .writing goal chunk index) (count : Nat) :
    (s.written hash p goal chunk index).work count < s.work count := by
  unfold written
  dsimp only
  split <;>
  · simp only [work, goes, setBooks, setTransfer, hrun, pumpWork, hpt, Point.work]
    omega

variable {count : Nat}

theorem nextBatch_work {bound : Nat} (hb : 0 < bound)
    (hn : s.transfer.expectedSeq + s.transfer.inbox.length ≤ count) (hr : p.rest = []) :
    (s.nextBatch p).work count < bound + (s.work count - pumpWork s.running) := by
  unfold nextBatch
  dsimp only
  split
  · obtain ⟨hc, hd, ht, hf⟩ := (Turn.stops (s := s) (p := p) (q := p) ⟨rfl, rfl⟩ rfl).frame
    have hw : pumpWork (s.returns p).running = 0 := rfl
    unfold work
    rw [show (s.returns p).chain = s.chain from hc, show (s.returns p).derivations = s.derivations from hd,
      show (s.returns p).transfer.expectedSeq = _ from ht, show (s.returns p).transfer.pendingFrames = _ from hf]
    omega
  rename_i hne
  have hpos : 0 < (s.transfer.inbox.take framePipelineDepth).length := by
    rw [length_take, framePipelineDepth]
    have : 0 < s.transfer.inbox.length := length_pos_iff.mpr fun hz => hne (.inl hz)
    omega
  have hle : (s.transfer.inbox.take framePipelineDepth).length ≤ s.transfer.inbox.length :=
    length_take_le' _ _
  simp only [work, goes, setTransfer, pumpWork, Point.work, length_zipIdx, hr,
    length_nil]
  omega

theorem deliverFrame_work (s : System) (data : Message) (stalled : Bool) (count : Nat) :
    (s.deliverFrame data stalled).work count ≤ s.work count + 4 ∧ (s.transfer.aesKey.isSome = true →
        (s.deliverFrame data stalled).transfer.aesKey = s.transfer.aesKey ∧
          (s.deliverFrame data stalled).work count ≤ s.work count + 3) := by
  unfold deliverFrame
  dsimp only
  split
  · exact ⟨Nat.le_add_right _ _, fun _ => ⟨rfl, Nat.le_add_right _ _⟩⟩
  split
  · rename_i hk
    refine ⟨?_, fun hs => ?_⟩
    · simp only [work, setTransfer, length_append, length_singleton]
      omega
    · rw [Option.isNone_iff_eq_none.mp hk] at hs
      cases hs
  obtain ⟨inbox, reorder, next, he⟩ := s.transfer.admitInOrder_eq data stalled
  have hw : (s.setTransfer { s.transfer with inbox := inbox, reorder := reorder, reorderNext := next }).work count =
      s.work count := rfl
  split
  · rename_i h
    rw [h] at he
    subst he
    exact ⟨Nat.le_add_right _ _, fun _ => ⟨rfl, Nat.le_add_right _ _⟩⟩
  rename_i h
  rw [h] at he
  subst he
  split
  · exact ⟨Nat.le_add_right _ _, fun _ => ⟨rfl, Nat.le_add_right _ _⟩⟩
  refine ⟨?_, fun _ => ⟨rfl, ?_⟩⟩
  all_goals
    simp only [work, length_append, length_singleton]
    omega

theorem foldl_deliverFrame_work (messages : List Message) (s : System) (stalled : Bool) (count : Nat)
    (hk : s.transfer.aesKey.isSome = true) :
    (messages.foldl (fun s data => s.deliverFrame data stalled) s).work count ≤
      s.work count + 3 * messages.length := by
  induction messages generalizing s with
  | nil => exact Nat.le_refl _
  | cons data _ ih =>
    obtain ⟨hkey, hw⟩ := (deliverFrame_work s data stalled count).2 hk
    have hi := ih (s.deliverFrame data stalled) (by rw [hkey]; exact hk)
    rw [foldl_cons, length_cons]
    omega

theorem sum_insert (derivations : Table Nat Derivation) (key : Nat) (d : Derivation) (f : Derivation → Nat) :
    ((derivations.insert key d).values.map f).sum = f d + ((derivations.erase key).values.map f).sum := by
  rw [Table.sum_values_erase f (Table.get?_insert_self derivations key d), Table.erase_insert]

theorem installKey_work {aesKey : Option AttemptId} (hk : aesKey.isSome = true) (stalled : Bool)
    (count : Nat) : (s.installKey aesKey stalled).work count ≤ s.work count := by
  let keyed : System := s.setTransfer { s.transfer with aesKey := aesKey, pendingFrames := [] }
  have hkeyed : keyed.work count + 4 * s.transfer.pendingFrames.length = s.work count := by
    simp only [keyed, work, setTransfer, length_nil]
    omega
  unfold installKey
  dsimp only
  split
  · have hf := foldl_deliverFrame_work s.transfer.pendingFrames keyed stalled count hk
    exact Nat.le_trans hf (by omega)
  · change keyed.work count ≤ _
    omega

variable {hash : Hash}

theorem derive_work {key : Nat} {stalled : Bool} (count : Nat) (hlive : s.live = true)
    (hk : ∀ id d, s.derivations.get? id = some d → d.attempt.isSome = true)
    (hs : step hash s (.derive key stalled) = some s') : s'.work count < s.work count := by
  simp only [step] at hs
  split at hs
  · cases hs
  rename_i d hd
  have hsum := Table.sum_values_erase (fun d => if d.importing = true then 10 else 20) hd
  split at hs
  · rename_i himp
    cases hs
    have hi := installKey_work (s := { s with derivations := s.derivations.erase key }) (hk key d hd) stalled count
    rw [if_pos himp] at hsum
    refine Nat.lt_of_le_of_lt hi ?_
    simp only [work]
    omega
  split at hs
  · cases hs
  split at hs
  · rename_i hdead
    rw [hlive] at hdead
    cases hdead
  rename_i hnot _ _
  cases hs
  have hins := sum_insert s.derivations key { d with importing := true }
    (fun d => if d.importing = true then 10 else 20)
  simp only [if_true] at hins
  rw [if_neg hnot] at hsum
  simp only [work]
  omega

theorem closeDirect_work (s : System) (attempt : AttemptId) (count : Nat) :
    (s.closeDirect attempt).work count ≤ s.work count := by
  unfold closeDirect
  dsimp only
  split
  · exact Nat.le_refl _
  · simp only [work, setTransfer, Transfer.closeAttempt, length_nil]
    omega

theorem relayCheck_work (s : System) (attempt : Option AttemptId) (count : Nat) :
    (s.relayCheck attempt).work count ≤ s.work count := by
  unfold relayCheck forget
  dsimp only
  repeat' split
  all_goals exact Nat.le_refl _

theorem pump_work (hn : s.transfer.expectedSeq + s.transfer.inbox.length ≤ count) (hs : step hash s .pump = some s') :
    s'.work count < s.work count := by
  cases hrun : s.running with
  | some p =>
    simp only [step, hrun, Option.some.injEq] at hs
    subst hs
    by_cases hhead : p.point = .consuming ∧ p.rest = []
    · have hadv : s.advance hash p = s.nextBatch p := by
        unfold advance consume
        rw [hhead.1, hhead.2]
      have hpos : 0 < pumpWork s.running := by
        rw [hrun]
        simp only [pumpWork]
        omega
      have hw := nextBatch_work hpos hn hhead.2
      have hle : pumpWork s.running ≤ s.work count := by
        simp only [work]
        omega
      rw [hadv]
      omega
    by_cases hwrite : ∃ goal chunk index, p.point = .writing goal chunk index
    · obtain ⟨goal, chunk, index, hpt⟩ := hwrite
      rw [advance, hpt]
      exact written_work hash hrun hpt count
    · exact (Turn.of_advance hash s p (fun goal chunk index hpt => hwrite ⟨goal, chunk, index, hpt⟩) hhead).work_lt
        hrun count
  | none =>
    cases hchain : s.chain with
    | nil => simp [step, hrun, hchain] at hs
    | cons job chain =>
      simp only [step, hrun, hchain, Option.some.injEq] at hs
      subst hs
      let u : System := { s with chain := chain }
      have hu : u.work count + 3 = s.work count := by
        simp only [u, work, hchain, length_cons]
        omega
      rw [← hrun]
      cases job with
      | pump =>
        have hw := nextBatch_work (s := u) (p := ⟨u.transfer.attemptId, .consuming, []⟩) (Nat.zero_lt_succ 2) hn
          rfl
        change (u.nextBatch ⟨u.transfer.attemptId, .consuming, []⟩).work count < _
        omega
      | drain attempt =>
        have hw := closeDirect_work u attempt count
        change (u.closeDirect attempt).work count < _
        omega
      | relayClosed attempt =>
        have hw := relayCheck_work u attempt count
        change (u.relayCheck attempt).work count < _
        omega

theorem deliverOn_work (s : System) (path : Path) (attempt : AttemptId) (data : Message) (stalled : Bool)
    (count : Nat) : (s.deliverOn path attempt data stalled).work count ≤ s.work count + 4 := by
  cases path with
  | direct =>
    unfold deliverOn deliverDirectFrame
    dsimp only
    split
    · exact Nat.le_add_right _ _
    · exact (deliverFrame_work _ _ _ _).1
  | relay =>
    unfold deliverOn deliverRelayFrame
    dsimp only
    split
    · exact Nat.le_add_right _ _
    · exact (deliverFrame_work _ _ _ _).1

theorem commitOn_work {path : Path} (hu : path = .direct → s.transfer.upgrade = none)
    (attempt : AttemptId) (ranges : List Range) (count : Nat) :
    (s.commitOn path attempt ranges).work count = s.work count := by
  cases path with
  | direct =>
    unfold commitOn commitDirect
    rw [hu rfl]
    dsimp only
    split
    · rfl
    unfold commitCurrent
    dsimp only
    split
    · rfl
    · rfl
  | relay =>
    unfold commitOn commitRelay
    dsimp only
    split
    · rfl
    · rfl

def Link.work (count : Nat) (l : Link) : Nat :=
  l.page.work count + 10 * l.carriers.flatten.length + l.commit.toList.length

section Link

variable {hash : Hash} {attempt : AttemptId} {stream : List Opened} {Course : Books → Point → List Opened → Prop}
  {ranges : List Range} {b₀ : Books} {u : Option (AttemptId × Nat)} {w : Bool} {l l' : Link}

theorem step_work (h : l.Sound attempt stream Course ranges b₀ u w) {a : LinkAction}
    (hs : l.step hash attempt stream a = some l') : l'.work stream.length < l.work stream.length := by
  obtain ⟨consumed, next, hf⟩ := h.flow
  cases a with
  | arrives _ stalled =>
    simp only [Link.step] at hs
    split at hs
    all_goals cases hs
    rename_i seq _ hget
    have hlen := (flatten_set_perm hget).length_eq
    have hw := deliverOn_work l.page l.path attempt (frameAt attempt stream seq) stalled stream.length
    simp only [length_cons] at hlen
    simp only [Link.work]
    omega
  | commits =>
    simp only [Link.step] at hs
    split at hs
    · cases hs
    rename_i ranges' hc
    cases hs
    have hw := commitOn_work (fun hd => hf.fixed.1.trans (h.probe hd)) attempt ranges' stream.length
    simp only [Link.work, hc, Option.toList_some, Option.toList_none, length_singleton, length_nil]
    omega
  | pump =>
    simp only [Link.step, Option.map_eq_some_iff] at hs
    obtain ⟨page, hpage, rfl⟩ := hs
    have hn : l.page.transfer.expectedSeq + l.page.transfer.inbox.length ≤ stream.length := by
      have h1 := hf.takenLe
      have h2 := hf.nextLe
      rw [hf.inbox, framesAt, length_map, length_range']
      omega
    have hw := pump_work hn hpage
    simp only [Link.work]
    omega
  | derive =>
    simp only [Link.step, Option.map_eq_some_iff] at hs
    obtain ⟨page, hpage, rfl⟩ := hs
    have hw := derive_work stream.length hf.live (fun id d hd => by rw [hf.derivations id d hd]; rfl) hpage
    simp only [Link.work]
    omega

theorem step_enabled (h : l.Sound attempt stream Course ranges b₀ u w) (ho : l.finished = false) :
    ∃ a, (l.step hash attempt stream a).isSome = true := by
  obtain ⟨consumed, next, hf⟩ := h.flow
  cases hc : l.commit with
  | some => exact ⟨.commits, by simp [Link.step, hc]⟩
  | none =>
    by_cases hfl : l.carriers.flatten = []
    · by_cases hrun : l.page.running = none
      · cases hchain : l.page.chain with
        | cons => exact ⟨.pump, by simp [Link.step, Download.step, hrun, hchain]⟩
        | nil =>
          have hder : l.page.derivations.entries ≠ [] := by
            intro hz
            simp [Link.finished, hfl, hc, quiet, hrun, hchain, hz] at ho
          obtain ⟨⟨key, d⟩, entries, he⟩ := exists_cons_of_ne_nil hder
          have hd : l.page.derivations.get? key = some d :=
            (Table.get?_eq_some_iff _ _ _).mpr (by rw [he]; exact mem_cons_self)
          refine ⟨.derive key false, ?_⟩
          have ha := hf.derivations key d hd
          simp only [Link.step, Download.step, hd, Option.isSome_map]
          split
          · rfl
          · simp [ha, hf.live]
      · obtain ⟨p, hp⟩ := Option.ne_none_iff_exists'.mp hrun
        exact ⟨.pump, by simp [Link.step, Download.step, hp]⟩
    obtain ⟨seqs, hs, hne⟩ : ∃ seqs ∈ l.carriers, seqs ≠ [] := by
      by_contra hall
      refine hfl (flatten_eq_nil_iff.mpr fun seqs hs => ?_)
      by_contra hne
      exact hall ⟨seqs, hs, hne⟩
    obtain ⟨carrier, hi, hget⟩ := mem_iff_getElem.mp hs
    obtain ⟨seq, rest, rfl⟩ := exists_cons_of_ne_nil hne
    refine ⟨.arrives carrier false, ?_⟩
    simp [Link.step, getElem?_eq_getElem hi, hget]

end Link

end Bore.Download
