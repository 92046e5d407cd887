import Bore.FastSlot

namespace Bore.SlotHandoff

open FastSlot Runs List

/-- The guard of the upload task does not drop with a handoff in the channel, and no
claimed download hands itself over to a closed slot. -/
def leavesClean (s : System) : Action → Bool
  | .upload _ => s.upload ≠ .closes || s.channel.isNone
  | .send _ => s.state ≠ .closed || s.upload = .returned
  | _ => true

section Steps

variable {s s' : System} {a : Action}

theorem claimed_of_set {xs : List Download} {i j : Nat} {y : Download} (hy : y ≠ .claimed)
    (h : (xs.set i y)[j]? = some .claimed) : xs[j]? = some .claimed := by
  rw [getElem?_set] at h
  split at h
  · split at h
    all_goals cases h
    exact absurd rfl hy
  · exact h

theorem uploadStep_frame {ok : Bool} (hs : s.uploadStep ok = some s') :
    s'.downloads = s.downloads ∧ (s'.state = s.state ∨ s'.state = .closed) := by
  have htake : s.takeOrClose.1.downloads = s.downloads ∧
      (s.takeOrClose.1.state = s.state ∨ s.takeOrClose.1.state = .closed) := by
    rw [System.takeOrClose]
    split
    · exact ⟨rfl, .inr rfl⟩
    · exact ⟨rfl, .inl rfl⟩
    · exact ⟨rfl, .inl rfl⟩
  have hclose : (s.transition .closed).downloads = s.downloads ∧
      ((s.transition .closed).state = s.state ∨ (s.transition .closed).state = .closed) :=
    ⟨transition_downloads s .closed, .inr (transition_state s .closed)⟩
  rw [System.uploadStep.eq_def] at hs
  split at hs
  case h_3 | h_4 =>
    cases hs
    exact htake
  case h_10 =>
    cases hs
    exact hclose
  case h_5 =>
    split at hs <;> cases hs
    exact ⟨rfl, .inl rfl⟩
  case h_6 =>
    split at hs <;> cases hs
    · exact hclose
    · exact ⟨rfl, .inl rfl⟩
  all_goals
    cases hs
    try exact ⟨rfl, .inl rfl⟩

theorem step_closed (h : SlotInv s) (hc : s.state = .closed) (hs : step s a = some s') :
    s'.state = .closed ∧ ∀ i : Nat, s'.downloads[i]? = some .claimed → s.downloads[i]? = some .claimed := by
  revert hs
  fun_cases step s a
  case case7 =>
    intro hs
    obtain ⟨hd, hstate⟩ := uploadStep_frame hs
    exact ⟨hstate.elim (fun h => h.trans hc) id, fun i hi => hd ▸ hi⟩
  case case8 =>
    fun_cases System.receive s
    all_goals rintro ⟨⟩
    all_goals exact ⟨hc, fun _ hi => hi⟩
  all_goals rintro ⟨⟩
  case case1 =>
    refine ⟨hc, fun i hi => ?_⟩
    rw [getElem?_append] at hi
    split at hi
    · exact hi
    · rw [getElem?_singleton] at hi
      split at hi <;> cases hi
  case case3 =>
    simp only [System.claim, hc]
    exact ⟨trivial, fun j hj => claimed_of_set (by simp) hj⟩
  case case5 =>
    rw [System.send]
    split <;> exact ⟨hc, fun j hj => claimed_of_set (by simp) hj⟩
  case case15 hu =>
    rw [h.served (by rw [hu]; rfl)] at hc
    cases hc
  all_goals exact ⟨hc, fun _ hi => hi⟩

theorem uploadStep_decides (h : SlotInv s) (hu : s.upload = .expired ∨ s.upload = .ended) {ok : Bool}
    (hs : step s (.upload ok) = some s') :
    (s.state = .waiting ∧ s'.state = .closed ∧ s'.upload = .failing ∧ pending s' = 0) ∨
      (s.state = .streaming ∧ s'.state = .streaming ∧ (∃ expired, s'.upload = .inFlight expired) ∧ pending s' = 1) := by
  have hs : s.uploadStep ok = some s' := hs
  have hpending (u : Upload) (hn : isStreaming u = false) (hn' : isStreaming s.upload = false) (st : SlotState) (w : UInt64) :
      pending { s with state := st, waiting := w, upload := u } = pending s := by
    simp only [pending, hn, hn']
  have ha : awaits s.upload = true := by rcases hu with hu | hu <;> rw [hu] <;> rfl
  have hn : isStreaming s.upload = false := by rcases hu with hu | hu <;> rw [hu] <;> rfl
  rcases h.awaited ha with hstate | ⟨hstate, hone⟩
  · left
    have hidle := h.idle hstate
    rcases hu with hu | hu
    all_goals
      simp only [System.uploadStep, hu, System.takeOrClose, hstate] at hs
      cases hs
      refine ⟨hstate, rfl, rfl, ?_⟩
      exact (hpending .failing rfl hn .closed _).trans hidle
  right
  rcases hu with hu | hu
  all_goals
    simp only [System.uploadStep, hu, System.takeOrClose, hstate] at hs
    cases hs
    refine ⟨hstate, rfl, ⟨_, rfl⟩, ?_⟩
    exact (hpending (.inFlight _) rfl hn .streaming s.waiting).trans hone

theorem channel_none (h : pending s = 0) : s.channel = none := by
  cases hch : s.channel with
  | none => rfl
  | some =>
    simp only [pending, hch, Option.toList_some, length_singleton] at h
    omega

theorem uploadStep_settled {ok : Bool} (h : SlotInv s) (hsettled : s.state = .closed → s.channel = none)
    (hclean : leavesClean s (.upload ok) = true) (hs : s.uploadStep ok = some s') (hc : s'.state = .closed) :
    s'.channel = none := by
  have hdecides (hu : s.upload = .expired ∨ s.upload = .ended) : s'.channel = none := by
    rcases uploadStep_decides h hu (show step s (.upload ok) = some s' from hs) with hw | hw
    · exact channel_none hw.2.2.2
    · rw [hw.2.1] at hc
      cases hc
  rw [System.uploadStep.eq_def] at hs
  split at hs
  case h_3 hu => exact hdecides (.inl hu)
  case h_4 hu => exact hdecides (.inr hu)
  case h_6 i hu =>
    split at hs
    · cases hs
      -- the download that is served is the one that is pending
      have hone := h.one
      simp only [pending, hu, isStreaming, Bool.toNat_true] at hone
      exact (transition_channel s .closed).trans (Option.eq_none_of_isNone (by cases hch : s.channel <;> simp_all))
    · cases hs
      exact hsettled hc
  case h_10 hu =>
    cases hs
    rw [leavesClean, hu] at hclean
    exact (transition_channel s .closed).trans (Option.isNone_iff_eq_none.mp hclean)
  case h_5 =>
    split at hs <;> cases hs
    exact hsettled hc
  case h_12 =>
    cases hs
    rfl
  all_goals
    cases hs
    try exact hsettled hc

theorem step_settled (h : SlotInv s) (hsettled : s.state = .closed → s.channel = none) (hclean : leavesClean s a = true)
    (hs : step s a = some s') (hc : s'.state = .closed) : s'.channel = none := by
  revert hs hclean
  fun_cases step s a
  case case7 => exact fun hclean hs => uploadStep_settled h hsettled hclean hs hc
  case case8 =>
    rintro - hs
    revert hs
    fun_cases System.receive s
    all_goals rintro ⟨⟩
    all_goals rfl
  all_goals rintro hclean ⟨⟩
  case case3 =>
    rw [System.claim] at hc ⊢
    split at hc
    · cases hc
    · rename_i hstate
      rw [hstate] at hc
      cases hc
    · exact hsettled hc
  case case5 =>
    have hstate : s.state = .closed := by
      rw [System.send] at hc
      split at hc <;> exact hc
    have hreturned : s.upload = .returned := by simpa [leavesClean, hstate] using hclean
    rw [System.send, if_neg (by simp [hreturned])]
    exact hsettled hstate
  case case15 =>
    rw [transition_state] at hc
    cases hc
  all_goals exact hsettled hc

end Steps

theorem reaches_inv {ok : System → Action → Prop} {waiting streaming : UInt64} {s : System}
    (h : Reaches step ok (start waiting streaming) s) : SlotInv s :=
  h.invariant (start_inv waiting streaming) fun _ _ _ ht _ hstep => step_inv ht hstep

/-- The slot machine. At most one handoff is pending, a closed slot is never
claimed again, the end of the wait and a claim have one winner, and a returned
upload leaves no trace; and unless the upload task leaves a handoff behind, or one
comes after it, the channel holds a handoff only while the slot is streaming. -/
theorem slot_has_one_handoff (waiting streaming : UInt64) (s : System) :
    (Reaches step always (start waiting streaming) s → pending s ≤ 1 ∧
      (∀ a s', step s a = some s' → s.state = .closed → s'.state = .closed ∧
        ∀ i : Nat, s'.downloads[i]? = some .claimed → s.downloads[i]? = some .claimed) ∧
      (∀ ok s', s.upload = .expired ∨ s.upload = .ended → step s (.upload ok) = some s' →
        (s.state = .waiting ∧ s'.state = .closed ∧ s'.upload = .failing ∧ pending s' = 0) ∨
        (s.state = .streaming ∧ s'.state = .streaming ∧ (∃ expired, s'.upload = .inFlight expired) ∧ pending s' = 1)) ∧
      (s.upload = .returned → s.registered = false ∧ s.waiting = s.otherWaiting ∧ s.streaming = s.otherStreaming)) ∧
    (Reaches step (fun s a => leavesClean s a = true) (start waiting streaming) s →
      s.channel.isSome = true → s.state = .streaming) := by
  refine ⟨fun hreach => ?_, fun hreach hch => ?_⟩
  · have h := reaches_inv hreach
    refine ⟨h.one, fun a s' hs hc => step_closed h hc hs, fun ok s' hu hs => uploadStep_decides h hu hs, fun hu => ?_⟩
    have hclosed := h.closed (by rw [hu]; rfl)
    obtain ⟨hw, hst⟩ := h.gauges
    rw [hu, hclosed] at hw
    rw [hclosed] at hst
    refine ⟨?_, by simpa using hw, by simpa using hst⟩
    rw [h.registered, hu]
    rfl
  · obtain ⟨h, hsettled⟩ := hreach.invariant (P := fun s => SlotInv s ∧ (s.state = .closed → s.channel = none))
      ⟨start_inv waiting streaming, nofun⟩
      fun t a u ht hclean hs => ⟨step_inv ht.1 hs, step_settled ht.1 ht.2 hclean hs⟩
    have hsome : s.channel ≠ none := Option.isSome_iff_ne_none.mp hch
    cases hstate : s.state with
    | streaming => rfl
    | waiting => exact absurd (channel_none (h.idle hstate)) hsome
    | closed => exact absurd (hsettled hstate) hsome

theorem slot_has_one_handoff_served :
    (∃ s, Reaches step always (start 0 0) s ∧ (s.upload, s.downloads) = (.returned, [.sent, .refused 409]) ∧
      s.registered = false ∧ s.waiting = s.otherWaiting ∧ s.streaming = s.otherStreaming) ∧
    ∃ s, Reaches step (fun s a => leavesClean s a = true) (start 0 0) s ∧ s.channel = some 0 ∧ s.state = .streaming := by
  constructor
  · exact exec_shows [.lookup, .lookup, .upload true, .upload true, .claim 0, .claim 1, .send 0, .receive, .upload true,
      .upload true, .upload true, .upload true, .upload true] _ (by decide +kernel) fun s hr hs =>
      ((slot_has_one_handoff 0 0 s).1 hr).2.2.2 (congrArg Prod.fst hs)
  · exact execWhile_shows [.lookup, .upload true, .upload true, .claim 0, .send 0] _ (by decide +kernel) fun s hr hs =>
      (slot_has_one_handoff 0 0 s).2 hr (by rw [hs]; rfl)

/-- The first download drops and the slot is re-armed; a second one claims it and
is in the channel when the upload task cannot write to its uploader any more. The
guard closes the slot with the handoff in the channel, and it is never answered. -/
theorem handoff_in_closed_slot :
    ∃ s, Reaches step always (start 0 0) s ∧ (s.state, s.channel, s.downloads) = (.closed, some 1, [.sent, .sent]) :=
  exec_observe [.upload true, .upload true, .lookup, .claim 0, .send 0, .receive, .rearm, .lookup, .claim 1, .send 1,
    .upload false, .upload true, .upload true] _ (by decide +kernel)

end Bore.SlotHandoff
