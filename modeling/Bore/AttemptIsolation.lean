import Bore.DownloadIsolation
import Bore.UploadIsolation
import Bore.Runs

namespace Bore

open Frames Runs

/-- Attempts are apart at a receiving page: what is done for an attempt that is
not current changes only part files, the pump that did it and the jobs that
wait; the key is the current attempt's; a batch is opened under the key of its
own attempt; and an attempt begins with no frame and no key of another. -/
structure Download.Apart (hash : Hash) (s : Download.System) : Prop where
  stale : ∀ a s' attempt, Download.step hash s a = some s' → s.attemptOf a = some attempt →
    attempt ≠ s.transfer.attemptId →
    ∃ parts running chain, s' = { s with parts := parts, running := running, chain := chain }
  aesKey : s.transfer.aesKey = none ∨ s.transfer.aesKey = s.transfer.attemptId
  opening : ∀ p aesKey batch, s.running = some p → p.point = .opening aesKey batch →
    aesKey = p.attempt ∧ p.attempt.isSome = true
  begins : ∀ a s', Download.step hash s a = some s' → Download.keepsAttempts s a = true →
    s'.transfer.attemptId ≠ s.transfer.attemptId → Download.Cleared s'.transfer

/-- Attempts are apart at a sending page: a send loop of an attempt that is not
current changes no record that the table names, no other loop and not the
table; and every frame was sealed under the key of the loop that sealed it. -/
structure Upload.Apart (hash : Hash) (page : Upload.Page) : Prop where
  stale : ∀ (id : Upload.RunId) run record input m', page.runs[id]? = some run →
    page.records[run.address]? = some record →
    (record.attemptAbort ≠ some id ∨ run.key.attemptId ≠ record.attemptId) →
    page.toMemory.resume hash id input = some m' →
    m'.transfers = page.transfers ∧
      (∀ transferId address, page.transfers.get? transferId = some address →
        m'.records[address]? = page.records[address]?) ∧
      ∀ other ≠ id, m'.runs[other]? = page.runs[other]?
  log : ∀ f ∈ page.log, ∃ run, page.runs[f.run]? = some run ∧ f.key = run.key

theorem Download.Isolated.apart {s : Download.System} (h : Download.Isolated s) (hash : Hash) : Download.Apart hash s where
  stale _ _ _ hs ho hne := Download.stale_step h hs ho hne
  aesKey := h.aesKey
  opening := h.opening
  begins _ _ hs hok hne := (Download.succeeds_step h hok hs).begins.resolve_left hne

theorem Upload.isolated_apart {page : Upload.Page} (h : page.Isolated) (hash : Hash) : Upload.Apart hash page where
  stale _ _ _ _ _ hrun hrec hstale hs := Upload.Memory.stale_turn h hrun hrec hstale hs
  log := h.log

/-- In every run of either page whose attempts begin on vacant ground, attempts
are apart in every state. -/
theorem attempts_apart (hash : Hash) : (∀ archive entry stored s,
      Reaches (Download.step hash) (fun s a => Download.keepsAttempts s a = true)
        (Download.startDownload archive entry stored) s → Download.Apart hash s) ∧
    ∀ page, Reaches (Upload.step hash) (fun page a => Upload.keepsAttempts hash page a = true) Upload.createSender page →
      Upload.Apart hash page := by
  constructor
  · intro archive entry stored s hr
    refine Download.Isolated.apart ?_ hash
    exact hr.invariant (Download.isolated_startDownload archive entry stored)
      fun _ _ _ h hok hs => (Download.succeeds_step h hok hs).isolated
  · intro page hr
    refine Upload.isolated_apart ?_ hash
    exact hr.invariant Upload.isolated_createSender fun _ _ _ h hok hs => Upload.isolated_step h hok hs

def freshDownload : Download.System := Download.startDownload true .empty ⟨[], [], none, false, ∅⟩

def freshIncoming : Upload.Incoming := ⟨0, 1, ⟨true, 0, [], nofun⟩⟩

theorem attempts_apart_fallback :
    (∃ s, Reaches (Download.step default) (fun s a => Download.keepsAttempts s a = true) freshDownload s ∧
      (s.transfer.attemptId, s.running.map Download.Pump.attempt) = (some 2, some (some 1)) ∧
      Download.Apart default s) ∧
    ∃ page, Reaches (Upload.step default) (fun page a => Upload.keepsAttempts default page a = true)
        Upload.createSender page ∧
      (page.log.map Upload.Sealed.key, page.runs.map Upload.Run.point) = ([⟨0, 2⟩], [.writeArchive, .sealData none 2 []]) ∧
      Upload.Apart default page := by
  obtain ⟨receiver, sender⟩ := attempts_apart default
  constructor
  · let actions : List Download.Action :=
      [.beginDirect 1 1, .derive 0 false, .derive 0 false, .commitDirect 1 [],
        .directFrame 1 (.frame (some 1) .data 0 [7]) false, .pump, .directFailed 1, .relayTicket (some 2)]
    exact execWhile_shows actions _ (by decide +kernel) fun s hs _ => receiver true _ _ s hs
  · let actions : List Upload.Action :=
      [.incoming freshIncoming, .incomingResolves 0 true, .relayTicket 0 1, .pathCommit 0 .relay 1 [],
        .resume 0 .resolves, .resume 0 .resolves, .relayTicket 0 2, .pathCommit 0 .relay 2 [], .resume 1 .resolves,
        .resume 1 .resolves, .resume 1 (.bytes [1, 2]), .resume 1 .resolves, .resume 1 .resolves]
    exact execWhile_shows actions _ (by decide +kernel) fun page hp _ => sender page hp

/-- A key whose import was under way when its attempt was replaced is installed
over the key of the next one: at the receiver, and at the sender, where the
send loop of the second attempt then seals under the key of the first. -/
theorem attempts_apart_fails : (∃ s, Reaches (Download.step default) always freshDownload s ∧
      (s.transfer.attemptId, s.transfer.aesKey) = (some 2, some 1) ∧ ¬ Download.Apart default s) ∧
    ∃ page, Reaches (Upload.step default) always Upload.createSender page ∧
      (page.log.map (fun f => (f.run, f.key)), page.runs.map Upload.Run.key) = ([(1, ⟨0, 1⟩)], [⟨0, 1⟩, ⟨0, 2⟩]) ∧
      ¬ Upload.Apart default page := by
  constructor
  · let actions : List Download.Action :=
      [.beginDirect 1 1, .derive 0 false, .relayTicket (some 2), .derive 0 false]
    refine exec_shows actions _ (by decide +kernel) fun s _ ho h => ?_
    obtain ⟨ha, hk⟩ := Prod.mk.inj ho
    have hcur := h.aesKey
    rw [ha, hk] at hcur
    revert hcur
    decide
  · let actions : List Upload.Action :=
      [.incoming freshIncoming, .incomingResolves 0 true, .relayTicket 0 1, .pathCommit 0 .relay 1 [],
        .resume 0 .resolves, .relayTicket 0 2, .pathCommit 0 .relay 2 [], .resume 1 .resolves, .resume 1 .resolves,
        .resume 0 .resolves, .resume 1 (.bytes [1, 2]), .resume 1 .resolves, .resume 1 .resolves]
    refine exec_shows actions _ (by decide +kernel) fun page _ ho h => ?_
    obtain ⟨hlog, hruns⟩ := Prod.mk.inj ho
    obtain ⟨f, hf, hfk⟩ := List.mem_map.mp (hlog ▸ List.mem_singleton_self _)
    obtain ⟨run, hrun, hkey⟩ := h.log f hf
    obtain ⟨hid, hk⟩ := Prod.mk.inj hfk
    rw [hid] at hrun
    have hmap : (page.runs.map Upload.Run.key)[1]? = some ⟨0, 1⟩ := by
      rw [List.getElem?_map, hrun, Option.map_some, ← hkey, hk]
    rw [hruns] at hmap
    revert hmap
    decide

end Bore
