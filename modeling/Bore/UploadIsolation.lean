import Bore.UploadRuns

namespace Bore.Upload

open Frames Option

namespace Memory

/-- A run that acts seals with its own key, a run that was told to abort has
nothing left to write, and the table no longer names the record of one whose
transfer is forgotten. -/
structure Isolated (m : Memory) : Prop extends Owned m where
  key : ∀ (id : RunId) run record, m.runs[id]? = some run → m.records[run.address]? = some record →
    run.acts = true → run.point.imported = true → record.aesKey = some run.key
  importing : ∀ (id : RunId) run record, m.runs[id]? = some run → m.records[run.address]? = some record →
    run.aborted = true → run.point = .importKey → record.aborted = true
  captured : ∀ (id : RunId) run aesKey, m.runs[id]? = some run → run.point = .fileRoot aesKey → aesKey = some run.key
  gone : ∀ (id : RunId) run record, m.runs[id]? = some run → m.records[run.address]? = some record →
    run.point ≠ .ended → record.aborted = true → m.transfers.get? record.transferId = none
  log : ∀ f ∈ m.log, ∃ run, m.runs[f.run]? = some run ∧ f.key = run.key

/-- A run whose key is being imported is not told to abort, unless its
transfer is forgotten. -/
def keepsImports (m m' : Memory) : Bool :=
  m.runs.zipIdx.all fun (run, id) =>
    run.point ≠ .importKey || run.aborted || (m'.runs[id]?).all (fun run' => !run'.aborted) ||
      (m'.records[run.address]?).all Record.aborted

section Isolated

variable {registered : Incoming → Prop} {m m' : Memory}
variable {record : Record} {id : RunId} {run : Run}

section

variable (h : m.Isolated)
include h

theorem isolated_handled {transferId : TransferId} {address : Address} {record' : Record}
    {cut : Bool} (ht : m.tracked transferId = some (address, record)) (hh : Handles cut record record')
    (hk : cut = true → ∀ (id : RunId) run, record.attemptAbort = some id → m.runs[id]? = some run → run.point = .importKey →
      run.aborted = true) : (m.handled cut address record record').Isolated := by
  obtain ⟨hget, hrec⟩ := tracked_eq_some_iff.mp ht
  refine ⟨owned_handled h.toOwned ht hh, ?_, ?_, ?_, ?_, ?_⟩
  all_goals obtain ⟨-, hkey, himporting, hcaptured, hgone, hlog⟩ := h
  all_goals cases hh
  all_goals simp only [transfers_handled, records_handled, runs_handled, log_handled, getElem?_set_of_some hrec,
    map_eq_some_iff]
  all_goals grind [acts_eq_true_iff]

theorem isolated_beginSend (transferId : TransferId) (resumeRanges : List Range) :
    (m.beginSend transferId resumeRanges).Isolated := by
  have ho := owned_beginSend h.toOwned transferId resumeRanges
  unfold beginSend at ho ⊢
  split
  · exact h
  rename_i record ht
  split
  · exact h
  rename_i hs
  simp only [ht, if_neg hs] at ho
  obtain ⟨hget, hrec⟩ := tracked_eq_some_iff.mp ht
  refine ⟨ho, ?_, ?_, ?_, ?_, ?_⟩
  all_goals clear ho
  all_goals obtain ⟨⟨hnamed, -⟩, hkey, himporting, hcaptured, hgone, hlog⟩ := h
  all_goals simp only [setRecord, getElem?_set_of_some hrec, getElem?_concat_eq]
  all_goals grind [Point.imported]

theorem isolated_forget (transferId : TransferId) : (m.forget transferId).Isolated := by
  have ho := owned_forget h.toOwned transferId
  unfold forget at ho ⊢
  split
  · exact h
  rename_i address record ht
  simp only [ht] at ho
  obtain ⟨hget, hrec⟩ := tracked_eq_some_iff.mp ht
  refine ⟨ho, ?_, ?_, ?_, ?_, ?_⟩
  all_goals clear ho
  all_goals obtain ⟨⟨hnamed, -, hcontrollers, -, -, hcurrent⟩, hkey, himporting, hcaptured, hgone, hlog⟩ := h
  all_goals simp only [setRecord, runs_abortAttempt, records_abortAttempt, log_abortAttempt,
    getElem?_set_of_some hrec, Table.get?_erase, map_eq_some_iff]
  all_goals grind [acts_eq_true_iff]

theorem isolated_start {i : Incoming}
    (hfree : ∀ run ∈ m.runs, run.point = .ended ∨ run.key.transferId ≠ i.transferId) (sent : Bool) :
    (m.startIncoming i sent).Isolated := by
  have hreg : (m.register i).Isolated := by
    refine ⟨owned_register h.toOwned i, ?_, ?_, ?_, ?_, h.log⟩
    all_goals obtain ⟨⟨-, hhomes, -, hids, -, -⟩, hkey, himporting, hcaptured, hgone, hlog⟩ := h
    all_goals simp only [register, Table.get?_insert, getElem?_concat_eq]
    all_goals grind [→ List.mem_of_getElem?]
  unfold startIncoming
  split
  · exact hreg
  · exact isolated_forget hreg _

theorem isolated_took {turn : Turn}
    (hrun : m.runs[id]? = some run) (hrec : m.records[run.address]? = some record) (hp : run.point ≠ .ended)
    (hf : turn.Fits run record id) : (m.took id run.address turn).Isolated := by
  refine ⟨owned_took h.toOwned hrun hrec hp hf, ?_, ?_, ?_, ?_, ?_⟩
  all_goals obtain ⟨⟨-, -, -, -, hlive, hcurrent⟩, hkey, himporting, hcaptured, hgone, hlog⟩ := h
  all_goals cases hf
  all_goals simp only [took, getElem?_set_of_some hrec, getElem?_set_of_some hrun, List.mem_append, mem_toList]
  all_goals grind [acts_eq_true_iff, Point.imported]

theorem isolated_take {turn : Turn}
    (hrun : m.runs[id]? = some run) (hrec : m.records[run.address]? = some record) (hp : run.point ≠ .ended)
    (hf : turn.Fits run record id) : (m.take id run.address turn).Isolated := by
  unfold take
  split
  · exact isolated_forget (isolated_took h hrun hrec hp hf) _
  · exact isolated_took h hrun hrec hp hf

end

theorem not_importing (h : m.Owned) {transferId : TransferId} {address : Address} {record' : Record}
    (ht : m.tracked transferId = some (address, record)) (hh : Handles true record record')
    (hruns : ∀ (id : RunId) run, (m.handled true address record record').runs[id]? = some run → m'.runs[id]? = some run)
    (hrecs : ∃ r, m'.records[address]? = some r ∧ r.aborted = record'.aborted) (hk : keepsImports m m' = true)
    (hid : record.attemptAbort = some id) (hrun : m.runs[id]? = some run)
    (hp : run.point = .importKey) : run.aborted = true := by
  obtain ⟨hget, hrec⟩ := tracked_eq_some_iff.mp ht
  obtain ⟨r₀, hr₀, _, hlive⟩ := h.transfers _ _ hget
  rw [hrec] at hr₀
  cases hr₀
  obtain ⟨run₀, hrun₀, hadd⟩ := h.controllers address record id hrec hid
  rw [hrun] at hrun₀
  cases hrun₀
  obtain ⟨r, hr, hab⟩ := hrecs
  have hcut : (m.handled true address record record').runs[id]? = some { run with aborted := true } := by
    rw [handled, setRecord, if_pos rfl, runs_abortAttempt, hrun, map_some, if_pos hid]
  have hall := List.all_eq_true.mp hk (run, id) (List.mk_mem_zipIdx_iff_getElem?.mpr hrun)
  simpa [hp, hruns id _ hcut, hadd, hr, hab, hh.gone, hlive] using hall

theorem beginSend_frame (m : Memory) (transferId : TransferId) (resumeRanges : List Range) :
    (∀ (id : RunId) run, m.runs[id]? = some run → (m.beginSend transferId resumeRanges).runs[id]? = some run) ∧
      ∀ (address : Address) record, m.records[address]? = some record →
        ∃ r, (m.beginSend transferId resumeRanges).records[address]? = some r ∧ r.aborted = record.aborted := by
  rw [beginSend]
  split
  · exact ⟨fun _ _ h => h, fun _ record h => ⟨record, h, rfl⟩⟩
  rename_i record ht
  split
  · exact ⟨fun _ _ h => h, fun _ record h => ⟨record, h, rfl⟩⟩
  have hrec := (tracked_eq_some_iff.mp ht).2
  simp only [setRecord, getElem?_set_of_some hrec, getElem?_concat_eq]
  grind

theorem isolated_evolves (h : m.Isolated) (he : Evolves registered m m') (hk : keepsImports m m' = true)
    (hfree : ∀ i, registered i → ∀ run ∈ m.runs, run.point = .ended ∨ run.key.transferId ≠ i.transferId) :
    m'.Isolated := by
  cases he with
  | still => exact h
  | controls _ ht hh =>
    refine isolated_handled h ht hh fun hc id run hid hrun hp => ?_
    subst hc
    refine not_importing h.toOwned ht hh (fun _ _ hr => hr) ⟨_, ?_, rfl⟩ hk hid hrun hp
    rw [records_handled, getElem?_set_of_some (tracked_eq_some_iff.mp ht).2, if_pos rfl]
  | begins _ ht hh ranges =>
    refine isolated_beginSend (isolated_handled h ht hh fun hc id run hid hrun hp => ?_) _ ranges
    subst hc
    refine not_importing h.toOwned ht hh (beginSend_frame _ _ ranges).1 ((beginSend_frame _ _ ranges).2 _ _ ?_) hk hid
      hrun hp
    rw [records_handled, getElem?_set_of_some (tracked_eq_some_iff.mp ht).2, if_pos rfl]
  | starts i sent hi => exact isolated_start h (hfree i hi) sent
  | forgets transferId => exact isolated_forget h transferId
  | turns hr hrec hp hf => exact isolated_take h hr hrec hp hf

theorem stale_turn {hash : Hash} (h : m.Isolated)
    (hrun : m.runs[id]? = some run) (hrec : m.records[run.address]? = some record)
    (hstale : record.attemptAbort ≠ some id ∨ run.key.attemptId ≠ record.attemptId) {input : Input}
    (hs : m.resume hash id input = some m') : m'.transfers = m.transfers ∧
      (∀ transferId address, m.transfers.get? transferId = some address → m'.records[address]? = m.records[address]?) ∧
      ∀ other ≠ id, m'.runs[other]? = m.runs[other]? := by
  obtain ⟨turn, hturn, rfl⟩ : ∃ turn, run.resume hash record id input = some turn ∧
      m.take id run.address turn = m' := by
    simpa only [resume, hrun, hrec, map_eq_some_iff] using hs
  have hf := Run.resume_fits hturn
  have hp := Run.point_ne_ended hturn
  have hab : run.aborted = true := by
    by_contra hab
    rw [Bool.not_eq_true] at hab
    obtain ⟨hid, _, hkey⟩ := h.current id run record hrun hrec (acts_eq_true_iff.mpr ⟨hab, hp⟩)
    exact hstale.elim (fun hne => hne hid) (fun hne => hne hkey)
  have htake : m.take id run.address turn = m.took id run.address turn := by
    rw [take]
    split
    · rename_i hfo
      have hget : m.transfers.get? turn.record.transferId = none := by
        rw [hf.transferId]
        exact h.gone id run record hrun hrec hp (hf.forgets hfo hab)
      simp only [forget, tracked, took, hget]
    · rfl
  have hstays := hf.stale hab
  have himporting := h.importing id run record hrun hrec hab
  have hnamed := h.transfers
  rw [htake]
  simp only [took, getElem?_set_of_some hrec, getElem?_set_of_some hrun]
  grind

end Isolated

end Memory

/-- The side condition of a step: no attempt is abandoned while its key is
imported, and no transfer begins while a run of an earlier one with its
identifier goes on. -/
def keepsAttempts (hash : Hash) (page : Page) (a : Action) : Bool :=
  (step hash page a).all (fun page' => page.toMemory.keepsImports page'.toMemory) &&
    match a with
    | .incomingResolves position _ =>
      (page.incomings[position]?).all fun i =>
        page.runs.all fun run => run.point = .ended || run.key.transferId ≠ i.transferId
    | _ => true

theorem isolated_createSender : createSender.Isolated := by
  refine ⟨by constructor <;> simp [createSender], ?_, ?_, ?_, ?_, ?_⟩
  all_goals simp [createSender]

theorem isolated_step {hash : Hash} {page page' : Page} {a : Action} (h : page.Isolated)
    (hok : keepsAttempts hash page a = true) (hs : step hash page a = some page') : page'.Isolated := by
  obtain ⟨hkept, hfree⟩ := Bool.and_eq_true_iff.mp hok
  rw [hs] at hkept
  refine Memory.isolated_evolves h (evolves_of_step h.labelled hs) hkept ?_
  rintro i ⟨position, sent, rfl, hi⟩ run hrun
  have hall := hfree
  simp only [hi, all_some, List.all_eq_true, Bool.or_eq_true, decide_eq_true_eq] at hall
  exact hall run hrun

end Bore.Upload
