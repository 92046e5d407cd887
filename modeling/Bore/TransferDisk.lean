import Bore.TransferReceiver

namespace Bore.TransferDisk

open OsPath TransferManifest TransferResume TransferReceiver

section StateFiles

variable (services : Services) (job : Job)

def stateName : Component := .normal (asciiBytes "state.json")

def tmpName : Component := .normal (asciiBytes "state.tmp")

def journalName : Component := .normal (asciiBytes "state.log")

theorem stateFile_eq : job.stateFile services = below (job.stageDir services) [stateName] :=
  joinBytes_eq_below _ (by decide +kernel) (by decide +kernel)

theorem stateTmp_eq : job.stateTmp services = below (job.stageDir services) [tmpName] :=
  joinBytes_eq_below _ (by decide +kernel) (by decide +kernel)

theorem journalFile_eq : job.journalFile services = below (job.stageDir services) [journalName] :=
  joinBytes_eq_below _ (by decide +kernel) (by decide +kernel)

theorem journalFile_ne_stateFile : job.journalFile services ≠ job.stateFile services := by
  rw [journalFile_eq, stateFile_eq, Ne, below_inj]
  decide +kernel

theorem journalFile_ne_stateTmp : job.journalFile services ≠ job.stateTmp services := by
  rw [journalFile_eq, stateTmp_eq, Ne, below_inj]
  decide +kernel

theorem get?_persistState (disk : Disk) (state : ResumeState) (path : PathBuf) :
    (persistState services job disk state).get? path =
      if path = job.stateFile services then some (services.encodeState state)
      else if path = job.stateTmp services then none else disk.get? path := by
  rw [persistState, Table.get?_insert, Table.get?_erase]

theorem journal_persistState (disk : Disk) (state : ResumeState) :
    (persistState services job disk state).get? (job.journalFile services) = disk.get? (job.journalFile services) := by
  rw [get?_persistState, if_neg (journalFile_ne_stateFile services job), if_neg (journalFile_ne_stateTmp services job)]

theorem state_truncateJournal (disk : Disk) :
    (truncateJournal services job disk).get? (job.stateFile services) = disk.get? (job.stateFile services) := by
  rw [truncateJournal, Table.get?_erase, if_neg (journalFile_ne_stateFile services job).symm]

theorem get?_appendBatch (s : System) (records : List Record) (k : Nat) {path : PathBuf}
    (h : path ≠ job.journalFile services) :
    (appendBatch services job s records k).disk.get? path = s.disk.get? path := by
  unfold appendBatch
  split
  · rfl
  · rw [appendJournal, Table.get?_insert_of_ne _ _ h]

end StateFiles

end Bore.TransferDisk
