import Bore.DownloadArchiveCourse
import Bore.DownloadPipe
import Bore.Runs

namespace Bore.Download

open Frames List

inductive Path
  | direct
  | relay
  deriving DecidableEq

def Path.opened : Path → DownloadState
  | .direct => .direct
  | .relay => .ticketed

def System.deliverOn (s : System) (path : Path) (attempt : AttemptId) (data : Message) (stalled : Bool) : System :=
  match path with
  | .direct => s.deliverDirectFrame attempt data stalled
  | .relay => s.deliverRelayFrame (some attempt) data stalled

def System.commitOn (s : System) (path : Path) (attempt : AttemptId) (ranges : List Range) : System :=
  match path with
  | .direct => s.commitDirect attempt ranges
  | .relay => s.commitRelay attempt ranges

/-- An attempt on its way to the page: the page, the sequence numbers in
flight on each carrier, and the commit that has not arrived. -/
structure Link where
  path : Path
  page : System
  carriers : List (List Nat)
  commit : Option (List Range)

inductive LinkAction
  | arrives (carrier : Nat) (stalled : Bool)
  | commits
  | pump
  | derive (id : Nat) (stalled : Bool)
  deriving DecidableEq

namespace Link

variable (hash : Hash) (attempt : AttemptId) (stream : List Opened)

def step (l : Link) : LinkAction → Option Link
  | .arrives carrier stalled =>
    match l.carriers[carrier]? with
    | some (seq :: rest) =>
      some { l with
        page := l.page.deliverOn l.path attempt (frameAt attempt stream seq) stalled
        carriers := l.carriers.set carrier rest }
    | _ => none
  | .commits =>
    match l.commit with
    | none => none
    | some ranges => some { l with page := l.page.commitOn l.path attempt ranges, commit := none }
  | .pump => (Download.step hash l.page .pump).map fun page => { l with page := page }
  | .derive id stalled => (Download.step hash l.page (.derive id stalled)).map fun page => { l with page := page }

def consumes (l : Link) : Bool :=
  match l.page.running with
  | none => false
  | some p => p.attempt = some attempt && p.point = .consuming && !p.rest.isEmpty

/-- No frame is consumed before the commit is handled, and the reorder window
takes what it has to hold. -/
def timely (l : Link) : LinkAction → Bool
  | .arrives carrier stalled =>
    match l.carriers[carrier]? with
    | some (seq :: _) => l.page.transfer.takes (frameAt attempt stream seq) stalled
    | _ => true
  | .commits => true
  | .pump => l.commit.isNone || !l.consumes attempt
  | .derive id stalled => l.page.keyFits id stalled

def finished (l : Link) : Bool := l.carriers.flatten.isEmpty && l.commit.isNone && l.page.quiet

end Link

/-- The page before the attempt: nothing of an earlier attempt can still reach
the record of the new one. -/
structure Settled (attempt : AttemptId) (s : System) : Prop where
  live : s.live = true
  online : s.online = true
  derivations : s.derivations = ∅
  chain : ∀ job ∈ s.chain, job.leaves attempt = true
  running : ∀ p, s.running = some p → p.attempt ≠ some attempt ∧ p.point.checksFinal = false

structure Carried (stream : List Opened) (carriers : List (List Nat)) : Prop where
  all : carriers.flatten.Perm (range stream.length)
  ordered : ∀ carrier ∈ carriers, carrier.Pairwise (· < ·)

/-- The ways an attempt begins: the first attempt of a download, whose commit
is on its way, an upgrade, whose commit makes it current, and the fallback of
an attempt to the relay. -/
inductive Begins (attempt : AttemptId) (ranges : List Range) (s : System) (carriers : List (List Nat)) : Link → Prop
  | first (hs : s.transfer.state = .requested) (hu : s.transfer.upgrade = none) :
      Begins attempt ranges s carriers ⟨.direct, s.beginDirect attempt carriers.length, carriers, some ranges⟩
  | upgrade (hu : s.transfer.upgrade = some (attempt, carriers.length)) :
      Begins attempt ranges s carriers ⟨.direct, s.commitDirect attempt ranges, carriers, none⟩
  | fallback {old} (ha : s.transfer.attemptId = some old) (hne : old ≠ attempt)
      (hp : s.transfer.state ≠ .completePending) (hs : s.transfer.state ≠ .staged) (hc : carriers.length ≤ 1) :
      Begins attempt ranges s carriers ⟨.relay, s.relayTicket (some attempt), carriers, some ranges⟩

def Books.committed (b : Books) (ranges : List Range) : Books :=
  { b.adoptAttempt.applyCommitPlan ranges with state := .receiving }

theorem applyCommitPlan_state (b : Books) (ranges : List Range) (state state' : DownloadState) :
    { ({ b with state := state }.applyCommitPlan ranges) with state := state' } =
      { b.applyCommitPlan ranges with state := state' } := by
  unfold Books.applyCommitPlan
  split <;> rfl

theorem state_applyCommitPlan (b : Books) (ranges : List Range) : (b.applyCommitPlan ranges).state = b.state := by
  unfold Books.applyCommitPlan
  split <;> rfl

section Invariant

variable {hash : Hash} {attempt : AttemptId} {stream : List Opened} {Course : Books → Point → List Opened → Prop}
  {ranges : List Range} {b₀ : Books}

def Frozen (path : Path) (b₀ : Books) (stream : List Opened) (b : Books) (point : Point) (rest : List Opened) : Prop :=
  b = { b₀.adoptAttempt with state := path.opened } ∧ point = .consuming ∧ rest = stream

def linkCourse (Course : Books → Point → List Opened → Prop) (path : Path) (b₀ : Books) (stream : List Opened)
    (commit : Option (List Range)) : Books → Point → List Opened → Prop :=
  match commit with
  | none => Course
  | some _ => Frozen path b₀ stream

variable (attempt stream Course ranges b₀) in
structure Link.Sound (u : Option (AttemptId × Nat)) (w : Bool) (l : Link) : Prop where
  commit : l.commit = none ∨ l.commit = some ranges
  probe : l.path = .direct → u = none
  single : w = false → l.carriers.length ≤ 1
  flow : ∃ consumed next,
    Flow attempt stream (linkCourse Course l.path b₀ stream l.commit) u w l.page l.carriers.flatten consumed next

variable {u : Option (AttemptId × Nat)} {w : Bool} {l l' : Link}
variable {consumed carrier : Nat} {carriers : List (List Nat)} {s : System}

variable {taken : Nat} {running : Option Pump}

theorem Pumps.map {Course' : Books → Point → List Opened → Prop} {b b' : Books}
    (h : Pumps attempt stream Course b consumed taken running)
    (hc : ∀ point rest, Course b point rest → Course' b' point rest) :
    Pumps attempt stream Course' b' consumed taken running := by
  cases h with
  | idle he h => exact .idle he (hc _ _ h)
  | foreign hp hf he h => exact .foreign hp hf he (hc _ _ h)
  | opening hp ho h => exact .opening hp ho (hc _ _ h)
  | own hp hr h => exact .own hp hr (hc _ _ h)

theorem Pumps.place {b : Books}
    (h : Pumps attempt stream Course b consumed taken running) : ∃ point, Course b point (stream.drop consumed) := by
  cases h with
  | idle _ h | foreign _ _ _ h | opening _ _ h | own _ _ h => exact ⟨_, h⟩

variable {rest : List Nat}

theorem flatten_set_perm {seq : Nat} (h : carriers[carrier]? = some (seq :: rest)) :
    carriers.flatten.Perm (seq :: (carriers.set carrier rest).flatten) := by
  induction carriers generalizing carrier with
  | nil => cases h
  | cons first _ ih =>
    cases carrier with
    | zero =>
      cases h
      exact List.Perm.refl _
    | succ =>
      have hp := (ih (by simpa using h)).append_left first
      exact hp.trans perm_middle

theorem arrives_single {seq : Nat} (h : carriers[carrier]? = some (seq :: rest)) (hs : carriers.length ≤ 1) :
    carriers.flatten = seq :: (carriers.set carrier rest).flatten := by
  match carriers, carrier, h with
  | [_], 0, h =>
    cases h
    rfl
  | _ :: _ :: _, _, _ => simp at hs

variable {outstanding : List Nat} {next : Nat}

theorem deliverDirectFrame_eq (h : Flow attempt stream Course u w s outstanding consumed next)
    (hs : s.transfer.state = .direct ∨ s.transfer.state = .receiving) (data : Message) (stalled : Bool) :
    s.deliverDirectFrame attempt data stalled = s.deliverFrame data stalled := by
  unfold System.deliverDirectFrame
  rw [if_neg]
  rintro (hl | ha | ⟨hd, hr⟩)
  · rw [h.live] at hl
    cases hl
  · exact ha h.attemptId
  · exact hs.elim hd hr

theorem deliverRelayFrame_eq
    (h : Flow attempt stream Course u w s outstanding consumed next) (data : Message) (stalled : Bool) :
    s.deliverRelayFrame (some attempt) data stalled = s.deliverFrame data stalled := by
  unfold System.deliverRelayFrame
  rw [if_neg]
  rintro (hl | ha)
  · rw [h.live] at hl
    cases hl
  · exact ha h.attemptId

theorem Link.Sound.active (h : l.Sound attempt stream Course ranges b₀ u w) (hC : Courses hash Course)
    (hd : l.path = .direct) (hne : l.carriers.flatten ≠ []) :
    l.page.transfer.state = .direct ∨ l.page.transfer.state = .receiving := by
  obtain ⟨consumed, next, hf⟩ := h.flow
  have hlt : consumed < stream.length := by
    obtain ⟨seqs, _, _, ho, hw⟩ := hf.queue.pending
    have h1 := hf.consumedLe
    have h2 := hf.takenLe
    have hpos : range' next (stream.length - next) ≠ [] := by
      rcases Bool.eq_false_or_eq_true l.page.transfer.reorderWindow with hwin | hwin
      · intro hz
        have hp := hw hwin
        rw [hz] at hp
        have := hp.eq_nil
        simp only [append_eq_nil_iff] at this
        exact hne this.2.2
      · rw [← ho hwin]
        intro hz
        exact hne (append_eq_nil_iff.mp hz).2
    have : stream.length - next ≠ 0 := fun hz => hpos (by rw [hz]; rfl)
    omega
  obtain ⟨point, hp⟩ := hf.pumps.place
  have hrest : stream.drop consumed ≠ [] := by
    intro hz
    rw [drop_eq_nil_iff] at hz
    omega
  rcases h.commit with hn | hs
  · rw [hn] at hp
    exact hC.active _ _ _ hp hrest
  · rw [hs, hd] at hp
    rw [hp.1]
    exact .inl rfl

variable {stalled : Bool}

theorem sound_arrives (h : l.Sound attempt stream Course ranges b₀ u w) (hC : Courses hash Course)
    (ht : l.timely attempt stream (.arrives carrier stalled) = true)
    (hs : l.step hash attempt stream (.arrives carrier stalled) = some l') :
    l'.Sound attempt stream Course ranges b₀ u w := by
  simp only [Link.step] at hs
  simp only [Link.timely] at ht
  split at hs
  all_goals cases hs
  rename_i seq rest hget
  rw [hget] at ht
  have hperm := flatten_set_perm hget
  have hne : l.carriers.flatten ≠ [] := by
    intro hz
    rw [hz] at hperm
    exact cons_ne_nil _ _ hperm.symm.eq_nil
  obtain ⟨consumed, next, hf⟩ := h.flow
  have hon : l.page.deliverOn l.path attempt (frameAt attempt stream seq) stalled =
      l.page.deliverFrame (frameAt attempt stream seq) stalled := by
    cases hp : l.path with
    | direct => exact deliverDirectFrame_eq hf (h.active hC hp hne) _ _
    | relay => exact deliverRelayFrame_eq hf _ _
  have ha : Arrives l.page.transfer seq l.carriers.flatten (l.carriers.set carrier rest).flatten :=
    ⟨fun hw => arrives_single hget (h.single (hf.fixed.2 ▸ hw)), fun _ => hperm⟩
  obtain ⟨next', hf'⟩ := hf.deliver ha ht
  refine ⟨h.commit, h.probe, fun hw => ?_, consumed, next', ?_⟩
  · rw [length_set]
    exact h.single hw
  · rw [hon]
    exact hf'

theorem commitDirect_eq (hl : s.live = true) (ha : s.transfer.attemptId = some attempt)
    (hu : s.transfer.upgrade = none) (hb : s.transfer.toBooks = { b₀.adoptAttempt with state := .direct })
    (ranges : List Range) : s.commitDirect attempt ranges = s.setBooks (b₀.committed ranges) := by
  unfold System.commitDirect
  rw [if_neg (by rw [hl]; simp), hu]
  unfold System.commitCurrent
  rw [if_neg (fun hne => hne ha)]
  unfold Transfer.applyCommitPlan
  dsimp only
  rw [hb, state_applyCommitPlan, if_pos rfl, applyCommitPlan_state]
  rfl

theorem commitRelay_eq (hl : s.live = true) (ha : s.transfer.attemptId = some attempt)
    (hb : s.transfer.toBooks = { b₀.adoptAttempt with state := .ticketed }) (ranges : List Range) :
    s.commitRelay attempt ranges = s.setBooks (b₀.committed ranges) := by
  unfold System.commitRelay
  rw [if_neg (by rw [hl]; simp)]
  unfold Transfer.applyCommitPlan
  dsimp only
  rw [hb, state_applyCommitPlan, if_pos (.inl rfl), applyCommitPlan_state, ← ha]
  rfl

section

variable (h : l.Sound attempt stream Course ranges b₀ u w)
include h

theorem sound_commits (hstart : Course (b₀.committed ranges) .consuming stream)
    (hs : l.step hash attempt stream .commits = some l') : l'.Sound attempt stream Course ranges b₀ u w := by
  simp only [Link.step] at hs
  obtain ⟨consumed, next, hf⟩ := h.flow
  split at hs
  · cases hs
  rename_i hcommit
  cases hs
  rcases h.commit with hn | hr
  · rw [hn] at hcommit
    cases hcommit
  rw [hr] at hcommit hf
  cases hcommit
  have hlive := hf.live
  have hattempt := hf.attemptId
  have hbooks : l.page.transfer.toBooks = { b₀.adoptAttempt with state := l.path.opened } := by
    obtain ⟨point, hp⟩ := hf.pumps.place
    exact hp.1
  have hpage : l.page.commitOn l.path attempt ranges = l.page.setBooks (b₀.committed ranges) := by
    cases hp : l.path with
    | direct =>
      rw [hp] at hbooks
      exact commitDirect_eq hlive hattempt (hf.fixed.1.trans (h.probe hp)) hbooks ranges
    | relay =>
      rw [hp] at hbooks
      exact commitRelay_eq hlive hattempt hbooks ranges
  refine ⟨.inl rfl, h.probe, h.single, consumed, next, ?_⟩
  rw [hpage]
  refine { hf with queue := { hf.queue with }, pumps := hf.pumps.map ?_ }
  rintro point rest ⟨_, rfl, rfl⟩
  exact hstart

theorem sound_pump (hC : Courses hash Course)
    (hfits : ∀ opened ∈ stream, opened.fits = true) (ht : l.timely attempt stream .pump = true)
    (hs : l.step hash attempt stream .pump = some l') : l'.Sound attempt stream Course ranges b₀ u w := by
  simp only [Link.step, Option.map_eq_some_iff] at hs
  obtain ⟨page, hpage, rfl⟩ := hs
  obtain ⟨consumed, next, hf⟩ := h.flow
  have hadv : ∀ p, l.page.running = some p → p.attempt = some attempt →
      Advances hash (linkCourse Course l.path b₀ stream l.commit) l.page p := by
    intro p hrun hp
    rcases h.commit with hn | hr
    · rw [hn]
      exact hC.advances l.page p
    rw [hr]
    rintro later ⟨_, hpt, _⟩ _ _ _ hrest
    -- The pump would consume a frame before the commit.
    have hne : p.rest.isEmpty = false := by
      rw [isEmpty_eq_false_iff]
      exact hrest hpt
    simp [Link.timely, Link.consumes, hr, hrun, hp, hpt, hne] at ht
  obtain ⟨consumed', hf'⟩ := hf.pump hfits hadv hpage
  exact ⟨h.commit, h.probe, h.single, consumed', next, hf'⟩

theorem sound_derive {key : Nat} (ht : l.timely attempt stream (.derive key stalled) = true)
    (hs : l.step hash attempt stream (.derive key stalled) = some l') :
    l'.Sound attempt stream Course ranges b₀ u w := by
  simp only [Link.step, Option.map_eq_some_iff] at hs
  obtain ⟨page, hpage, rfl⟩ := hs
  obtain ⟨consumed, next, hf⟩ := h.flow
  obtain ⟨next', hf'⟩ := hf.derive ht hpage
  exact ⟨h.commit, h.probe, h.single, consumed, next', hf'⟩

end

theorem sound_step (hC : Courses hash Course) (hfits : ∀ opened ∈ stream, opened.fits = true)
    (hstart : Course (b₀.committed ranges) .consuming stream) {a : LinkAction}
    (h : l.Sound attempt stream Course ranges b₀ u w) (ht : l.timely attempt stream a = true)
    (hs : l.step hash attempt stream a = some l') : l'.Sound attempt stream Course ranges b₀ u w := by
  cases a with
  | arrives => exact sound_arrives h hC ht hs
  | commits => exact sound_commits h hstart hs
  | pump => exact sound_pump h hC hfits ht hs
  | derive => exact sound_derive h ht hs

variable {t : Transfer}

theorem queue_fresh (h : Carried stream carriers)
    (hp : t.pendingFrames = []) (hr : t.reorder = ∅) (hn : t.reorderNext = 0)
    (hw : t.reorderWindow = decide (carriers.length > 1)) : Queue attempt stream t 0 carriers.flatten := by
  have hrange : range' 0 (stream.length - 0) = range stream.length := range_eq_range'.symm
  refine ⟨⟨[], hp, fun _ => rfl, fun hf => ?_, fun _ => ?_⟩, fun _ seq data hd => ?_, fun _ => hn, fun _ => ?_⟩
  · rw [hw, decide_eq_false_iff_not] at hf
    rw [hrange, nil_append]
    have hsorted : carriers.flatten.Pairwise (· < ·) := by
      match carriers, hf, h.ordered with
      | [], _, _ => exact List.Pairwise.nil
      | [carrier], _, ho =>
        rw [flatten_cons, flatten_nil, append_nil]
        exact ho carrier mem_cons_self
      | _ :: _ :: _, hf, _ => simp at hf
    refine h.all.eq_of_pairwise (fun a b _ _ hab hba => ?_) hsorted pairwise_lt_range
    omega
  · rw [hrange, hr]
    exact h.all
  · rw [hr] at hd
    cases hd
  · rw [hr]
    rfl

theorem flow_fresh (hs : Settled attempt s)
    (hc : Carried stream carriers) (ha : t.attemptId = some attempt) (hcl : t.attemptClosed = false)
    (hk : t.aesKey = none) (hp : t.pendingFrames = []) (hi : t.inbox = []) (hr : t.reorder = ∅)
    (hn : t.reorderNext = 0) (hw : t.reorderWindow = decide (carriers.length > 1)) (hpu : t.pumping = false)
    (he : t.expectedSeq = 0) (hu : t.upgrade = u) (hcourse : Course t.toBooks .consuming stream) :
    Flow attempt stream Course u (decide (carriers.length > 1)) (s.setTransfer t).deriveAttemptKey
      carriers.flatten 0 0 := by
  have hrun := hs.running
  refine ⟨hs.live, hs.online, ha, hcl, ⟨hu, hw⟩, .inl hk, ?_, fun _ => ⟨rfl, _, _, Table.get?_insert_self _ _ _⟩,
    hs.chain, Nat.zero_le _, Nat.le_of_eq he, Nat.zero_le _, ?_, fun hne => absurd hi hne, ?_,
    queue_fresh hc hp hr hn hw, ?_⟩
  · intro k d hd
    change (s.derivations.insert s.nextDerivation ⟨t.attemptId, false⟩).get? k = some d at hd
    rw [Table.get?_insert, hs.derivations] at hd
    split at hd
    all_goals cases hd
    exact ha
  · change t.inbox = framesAt attempt stream (range' t.expectedSeq (0 - t.expectedSeq))
    rw [hi, Nat.zero_sub]
    rfl
  · intro hf
    change t.pumping = true at hf
    rw [hpu] at hf
    cases hf
  · change Pumps attempt stream Course t.toBooks 0 t.expectedSeq s.running
    rw [he]
    cases hr' : s.running with
    | none => exact .idle rfl hcourse
    | some p =>
      obtain ⟨hne, hfin⟩ := hrun p hr'
      exact .foreign hne hfin rfl hcourse

theorem sound_begins (hs : Settled attempt s) (hc : Carried stream carriers)
    (hb : s.transfer.toBooks = b₀) (hstart : Course (b₀.committed ranges) .consuming stream)
    (h : Begins attempt ranges s carriers l) :
    ∃ u, l.Sound attempt stream Course ranges b₀ u (decide (carriers.length > 1)) := by
  have hlive := hs.live
  have hsingle : decide (carriers.length > 1) = false → carriers.length ≤ 1 :=
    fun hf => Nat.not_lt.mp (of_decide_eq_false hf)
  cases h with
  | first hreq hup =>
    have hpage : s.beginDirect attempt carriers.length =
        (s.setTransfer { s.transfer.adoptAttempt attempt with
          reorderWindow := decide (carriers.length > 1)
          reorderLimits := reorderBudget carriers.length
          state := .direct }).deriveAttemptKey := by
      unfold System.beginDirect
      rw [if_neg (by simp [hlive, hreq])]
    refine ⟨none, .inr rfl, fun _ => rfl, hsingle, 0, 0, ?_⟩
    rw [hpage]
    exact flow_fresh hs hc rfl rfl rfl rfl rfl rfl rfl rfl rfl rfl hup ⟨by subst hb; rfl, rfl, rfl⟩
  | upgrade hup =>
    have hpage : s.commitDirect attempt ranges = s.commitUpgrade attempt carriers.length ranges := by
      unfold System.commitDirect
      rw [if_neg (by rw [hlive]; simp), hup]
      dsimp only
      rw [if_pos rfl]
    refine ⟨none, .inl rfl, fun _ => rfl, hsingle, 0, 0, ?_⟩
    rw [hpage]
    subst hb
    exact flow_fresh hs hc rfl rfl rfl rfl rfl rfl rfl rfl rfl rfl rfl hstart
  | fallback ha hne hp hst hone =>
    have hpage : s.relayTicket (some attempt) =
        (s.setTransfer { s.transfer.adoptAttempt attempt with state := .ticketed }).deriveAttemptKey := by
      unfold System.relayTicket
      rw [if_neg (by rw [hlive]; simp), ha]
      dsimp only
      rw [if_neg hne, if_neg (not_or.mpr ⟨hp, hst⟩)]
      rfl
    refine ⟨s.transfer.upgrade, .inr rfl, (fun hd => nomatch hd), (fun _ => hone), 0, 0, ?_⟩
    rw [hpage]
    refine flow_fresh hs hc rfl rfl rfl rfl rfl rfl rfl ?_ rfl rfl rfl ⟨by subst hb; rfl, rfl, rfl⟩
    exact (decide_eq_false (Nat.not_lt.mpr hone)).symm

end Invariant

end Bore.Download
