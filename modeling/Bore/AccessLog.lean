import Bore.Runs

namespace Bore.AccessLog

open Runs Function List

inductive LogFile where
  | current
  | backup (k : Nat)
deriving DecidableEq

/-- The log files of one target. What the writer still buffers counts as
written. -/
abbrev Dir := LogFile → Option (List UInt8)

def rename (d : Dir) (source target : LogFile) : Dir :=
  if (d source).isSome then update (update d target (d source)) source none else d

structure RotatingFileWriter where
  maxFiles : Nat
  maxSize : Nat
  files : Dir
  written : Nat

def renameCascade (d : Dir) : Nat → Dir
  | 0 => d
  | k + 1 => renameCascade (rename d (.backup (k + 1)) (.backup (k + 2))) k

namespace RotatingFileWriter

def new (maxFiles maxSize : Nat) : RotatingFileWriter :=
  ⟨maxFiles, maxSize, update (fun _ => none) .current (some []), 0⟩

def rotate (w : RotatingFileWriter) : RotatingFileWriter :=
  let d := update w.files (.backup (w.maxFiles - 1)) none
  let d := renameCascade d (w.maxFiles - 2)
  let d := rename d .current (.backup 1)
  { w with files := update d .current (some ((d .current).getD [])), written := 0 }

def append (w : RotatingFileWriter) (line : List UInt8) : RotatingFileWriter :=
  { w with
    files := update w.files .current ((w.files .current).map (· ++ (line ++ [10])))
    written := w.written + (line.length + 1) }

def writeLine (w : RotatingFileWriter) (line : List UInt8) : RotatingFileWriter :=
  if w.maxSize < w.written + (line.length + 1) ∧ 0 < w.written then w.rotate.append line
  else w.append line

def writeLines (w : RotatingFileWriter) (lines : List (List UInt8)) : RotatingFileWriter :=
  lines.foldl writeLine w

end RotatingFileWriter

def logFile : Nat → LogFile
  | 0 => .current
  | k + 1 => .backup (k + 1)

def content (lines : List (List UInt8)) : List UInt8 := lines.flatMap (· ++ [10])

section Rename

variable {d : Dir} {source target f : LogFile}

/-- Where the target is free, a rename moves the source whether or not it
exists. -/
theorem rename_free (h : d target = none) (hne : source ≠ target) (f : LogFile) : rename d source target f =
      if f = target then d source else if f = source then none else d f := by
  unfold rename
  split
  · grind
  · have hs : d source = none := by simpa using ‹¬(d source).isSome = true›
    grind

theorem renameCascade_other (n : Nat) (hf : ∀ k, f ≠ .backup (k + 1)) : renameCascade d n f = d f := by
  induction n generalizing d with
  | zero => rfl
  | succ n ih =>
    rw [renameCascade, ih, rename]
    split
    · rw [update_of_ne (hf _), update_of_ne (hf _)]
    · rfl

/-- With the oldest backup gone every other one moves up by one. -/
theorem renameCascade_backup (n : Nat) (hn : d (.backup (n + 1)) = none) (k : Nat) :
    renameCascade d n (.backup (k + 1)) =
      if n < k then d (.backup (k + 1)) else if k = 0 then none else d (.backup k) := by
  induction n generalizing d with
  | zero =>
    rcases k with _ | k
    · exact hn
    · simp [renameCascade]
  | succ n ih =>
    have hne : LogFile.backup (n + 1) ≠ .backup (n + 2) := by simp
    rw [renameCascade, ih (by rw [rename_free hn hne]; simp), rename_free hn hne, rename_free hn hne]
    grind

end Rename

variable {n size : Nat} {w : RotatingFileWriter} {lines chunk : List (List UInt8)}
variable {older : List (List (List UInt8))}

/-- The files hold consecutive chunks of what was written, the newest in
the current file, and no chunk of several lines is too long. -/
structure Kept (n size : Nat) (w : RotatingFileWriter) (lines chunk : List (List UInt8))
    (older : List (List (List UInt8))) : Prop where
  maxFiles : w.maxFiles = n
  maxSize : w.maxSize = size
  files : ∀ k, w.files (logFile k) = (chunk :: older)[k]?.map content
  zeroth : w.files (.backup 0) = none
  written : w.written = (content chunk).length
  bounded : (chunk :: older).length ≤ n
  fits : ∀ c ∈ chunk :: older, (content c).length ≤ size ∨ c.length = 1
  suffix : (chunk :: older).reverse.flatten <:+ lines

theorem rotate_files (hm : 2 ≤ w.maxFiles) (f : LogFile) : w.rotate.files f = match f with
      | .current => some []
      | .backup 0 => w.files (.backup 0)
      | .backup (k + 1) =>
        if k + 1 < w.maxFiles then w.files (logFile k) else w.files (.backup (k + 1)) := by
  obtain ⟨n, hn⟩ := Nat.exists_eq_add_of_le' hm
  let d := update w.files (.backup (n + 1)) none
  have hd : d (.backup (n + 1)) = none := update_self ..
  have hfree : renameCascade d n (.backup 1) = none := renameCascade_backup n hd 0
  have hr : w.rotate.files = update (rename (renameCascade d n) .current (.backup 1)) .current
      (some ((rename (renameCascade d n) .current (.backup 1) .current).getD [])) := by
    simp [RotatingFileWriter.rotate, hn, d]
  rw [hr]
  match f with
  | .current => simp [rename_free hfree]
  | .backup 0 => simp [rename_free hfree, renameCascade_other, d]
  | .backup (k + 1) =>
    rcases k with _ | k
    · simp [rename_free hfree, renameCascade_other, d, logFile, hn]
    · simp only [update_of_ne, ne_eq, reduceCtorEq, not_false_eq_true, rename_free hfree,
        renameCascade_backup n hd, d, update_apply, hn, logFile]
      grind

section

variable (h : Kept n size w lines chunk older)
include h

/-- Rotation starts an empty chunk and forgets what no longer has a file. -/
theorem Kept.rotate (hn : 2 ≤ n) :
    Kept n size w.rotate lines [] ((chunk :: older).take (n - 1)) where
  maxFiles := h.maxFiles
  maxSize := h.maxSize
  files k := by
    have hm := h.maxFiles
    rw [rotate_files (hm ▸ hn)]
    rcases k with _ | k
    · rfl
    have hk : w.files (.backup (k + 1)) = _ := h.files (k + 1)
    have hb := h.bounded
    change (if _ then w.files (logFile k) else w.files (.backup (k + 1))) = _
    rw [hk, h.files k]
    grind
  zeroth := by rw [rotate_files (h.maxFiles ▸ hn), h.zeroth]
  written := rfl
  bounded := by
    rw [length_cons, length_take]
    omega
  fits c hc := by
    rcases mem_cons.mp hc with rfl | hc
    · exact .inl (Nat.zero_le _)
    · exact h.fits c (mem_of_mem_take hc)
  suffix := by
    have hs := h.suffix
    rw [← take_append_drop (n - 1) (chunk :: older), reverse_append, flatten_append] at hs
    simpa using (suffix_append _ _).trans hs

theorem Kept.append (line : List UInt8)
    (hfit : w.written + (line.length + 1) ≤ w.maxSize ∨ w.written = 0) :
    Kept n size (w.append line) (lines ++ [line]) (chunk ++ [line]) older where
  maxFiles := h.maxFiles
  maxSize := h.maxSize
  files k := by
    have hk := h.files k
    rcases k with _ | k
    · simp_all [RotatingFileWriter.append, logFile, content]
    · simp_all [RotatingFileWriter.append, logFile]
  zeroth := by simpa [RotatingFileWriter.append] using h.zeroth
  written := by simp [RotatingFileWriter.append, h.written, content]
  bounded := h.bounded
  fits c hc := by
    rcases mem_cons.mp hc with rfl | hc
    · have hw := h.written
      rw [h.maxSize, hw] at hfit
      rcases hfit with hfit | hfit
      · left
        simpa [content] using hfit
      right
      rcases chunk with _ | ⟨l, chunk⟩
      · rfl
      · simp [content] at hfit
    · exact h.fits c (mem_cons_of_mem _ hc)
  suffix := by
    obtain ⟨l, hl⟩ := h.suffix
    exact ⟨l, by simp [← hl]⟩

theorem Kept.writeLine (hn : 2 ≤ n) (line : List UInt8) :
    ∃ chunk older, Kept n size (w.writeLine line) (lines ++ [line]) (chunk ++ [line]) older := by
  unfold RotatingFileWriter.writeLine
  split
  · exact ⟨_, _, (h.rotate hn).append line (.inr rfl)⟩
  · exact ⟨_, _, h.append line (by omega)⟩

theorem Kept.writeLines (hn : 2 ≤ n) (hnew : lines = [] ∨ chunk ≠ []) (more : List (List UInt8)) : ∃ chunk older,
    Kept n size (w.writeLines more) (lines ++ more) chunk older ∧ (lines ++ more = [] ∨ chunk ≠ []) := by
  induction more generalizing w lines chunk older with
  | nil => exact ⟨chunk, older, by simpa [RotatingFileWriter.writeLines] using ⟨h, hnew⟩⟩
  | cons line _ ih =>
    obtain ⟨chunk', older', h'⟩ := h.writeLine hn line
    rw [append_cons]
    exact ih h' (.inr (concat_ne_nil _ _))

end

theorem kept_new (hn : 2 ≤ n) : Kept n size (RotatingFileWriter.new n size) [] [] [] where
  maxFiles := rfl
  maxSize := rfl
  files k := by cases k <;> rfl
  zeroth := rfl
  written := rfl
  bounded := Nat.le_of_succ_le hn
  fits := by simp [content]
  suffix := suffix_refl _

/-- A writer with room for a backup keeps the newest lines, the last one always, in
at most `maxFiles` files, the oldest chunk in the highest suffix. -/
theorem rotation_keeps_newest_lines {maxFiles : Nat} (hm : 2 ≤ maxFiles) (maxSize : Nat) (lines : List (List UInt8)) :
    ∃ chunks : List (List (List UInt8)), chunks.length ≤ maxFiles ∧
      (∀ k, ((RotatingFileWriter.new maxFiles maxSize).writeLines lines).files (logFile k) = chunks[k]?.map content) ∧
      ((RotatingFileWriter.new maxFiles maxSize).writeLines lines).files (.backup 0) = none ∧
      (∀ c ∈ chunks, (content c).length ≤ maxSize ∨ c.length = 1) ∧ chunks.reverse.flatten <:+ lines ∧
      (lines ≠ [] → chunks.reverse.flatten ≠ []) := by
  obtain ⟨chunk, older, h, hnew⟩ := (kept_new hm).writeLines hm (.inl rfl) lines
  refine ⟨chunk :: older, h.bounded, h.files, h.zeroth, h.fits, h.suffix, fun hne => ?_⟩
  simp [hnew.resolve_left hne]

theorem rotation_keeps_newest_lines_two : ∃ chunks : List (List (List UInt8)), chunks.length ≤ 2 ∧
      (∀ k, ((RotatingFileWriter.new 2 4).writeLines [[97], [98], [99]]).files (logFile k) = chunks[k]?.map content) ∧
      chunks.reverse.flatten <:+ [[97], [98], [99]] ∧ chunks.reverse.flatten ≠ [] := by
  obtain ⟨chunks, hlen, hfiles, -, -, hsuffix, hnew⟩ :=
    rotation_keeps_newest_lines (Nat.le_refl 2) 4 [[97], [98], [99]]
  exact ⟨chunks, hlen, hfiles, hsuffix, hnew (by decide)⟩

/-- A writer that may keep one file still renames it to a backup. -/
theorem single_log_leaves_a_backup :
    let w := (RotatingFileWriter.new 1 2).writeLines [[97], [98]]
    w.files .current = some [98, 10] ∧ w.files (.backup 1) = some [97, 10] := by
  decide

section Senders

variable {K L : Type} [DecidableEq K]

/-- Where a call of `sender_for` stands. A returned sender is known by the
call that spawned the writer it feeds. -/
inductive Phase where
  | missed
  | spawned
  | returned (writer : Nat)

def Phase.writer : Phase → Option Nat
  | .returned w => some w
  | _ => none

inductive Task where
  | spawned
  | writing
  | ended
deriving DecidableEq

structure Call (K L : Type) where
  key : K
  layout : L
  phase : Phase
  task : Option Task

structure AccessLogger (K L : Type) where
  targets : K → Option Nat
  calls : List (Call K L)

def AccessLogger.new : AccessLogger K L := ⟨fun _ => none, []⟩

inductive Action (K L : Type) where
  | lookup (key : K) (layout : L)
  | spawn (call : Nat)
  | insert (call : Nat)
  | openFile (call : Nat)
  | finish (call : Nat)

def step (s : AccessLogger K L) : Action K L → Option (AccessLogger K L)
  | .lookup key layout =>
    match s.targets key with
    | some w => some { s with calls := s.calls ++ [⟨key, layout, .returned w, none⟩] }
    | none => some { s with calls := s.calls ++ [⟨key, layout, .missed, none⟩] }
  | .spawn i =>
    match s.calls[i]? with
    | some ⟨key, layout, .missed, _⟩ =>
      some { s with calls := s.calls.set i ⟨key, layout, .spawned, some .spawned⟩ }
    | _ => none
  | .insert i =>
    match s.calls[i]? with
    | some ⟨key, layout, .spawned, task⟩ => some {
        targets := update s.targets key (some i)
        calls := s.calls.set i ⟨key, layout, .returned i, task⟩ }
    | _ => none
  | .openFile i =>
    match s.calls[i]? with
    | some ⟨key, layout, phase, some .spawned⟩ =>
      some { s with calls := s.calls.set i ⟨key, layout, phase, some .writing⟩ }
    | _ => none
  | .finish i =>
    match s.calls[i]? with
    | some ⟨key, layout, phase, some _⟩ =>
      some { s with calls := s.calls.set i ⟨key, layout, phase, some .ended⟩ }
    | _ => none

def startsAlone (s : AccessLogger K L) : Action K L → Bool
  | .lookup key _ => s.calls.all (fun c => c.phase.writer.isSome || c.key ≠ key)
  | _ => true

/-- Two calls are never both under way for one key, and only the one under
way has a writer the map does not know. -/
structure Single (s : AccessLogger K L) : Prop where
  target : ∀ (i : Nat) c, s.calls[i]? = some c → s.targets c.key = c.phase.writer
  alone : ∀ (i j : Nat) c d, s.calls[i]? = some c → s.calls[j]? = some d → c.key = d.key →
    c.phase.writer = none → d.phase.writer = none → i = j
  owned : ∀ (i : Nat) c, s.calls[i]? = some c → c.task ≠ none →
    s.targets c.key = some i ∨ c.phase = .spawned

variable {s t : AccessLogger K L} {a : Action K L}

theorem step_single (h : Single s) (ha : startsAlone s a = true) (hs : step s a = some t) : Single t := by
  obtain ⟨ht, hl, ho⟩ := h
  revert hs
  fun_cases step s a
  all_goals rintro ⟨⟩
  case case2 =>
    simp only [startsAlone, all_eq_true] at ha
    constructor <;> grind [Phase.writer]
  case case1 | case3 | case5 | case7 | case9 => constructor <;> grind [Phase.writer]

/-- The senders returned for a key feed one writer, and at most one writer
of the key has the file open. -/
def OneWriter (s : AccessLogger K L) : Prop :=
  ∀ (i j : Nat) c d, s.calls[i]? = some c → s.calls[j]? = some d → c.key = d.key →
    (∀ v w, c.phase = .returned v → d.phase = .returned w → v = w) ∧
      (c.task = some .writing → d.task = some .writing → i = j)

theorem one_writer_per_log
    (hr : Reaches step (fun s a => startsAlone s a = true) AccessLogger.new s) : OneWriter s := by
  have hsingle : Single s := by
    refine hr.invariant ?_ (fun _ _ _ h ha hs => step_single h ha hs)
    constructor <;> simp [AccessLogger.new]
  obtain ⟨ht, hl, ho⟩ := hsingle
  intro i j c d hc hd hk
  have htc := ht i c hc
  have htd := ht j d hd
  constructor
  · intro v w hv hw
    simp_all [Phase.writer]
  · intro h h'
    grind [Phase.writer]

theorem one_writer_per_log_shared : ∃ s : AccessLogger Nat Unit,
      s.calls.map (fun c => (c.key, c.phase.writer)) = [(9000, some 0), (9000, some 0)] ∧ OneWriter s := by
  obtain ⟨s, hr, hs⟩ := execWhile_observe
    [.lookup 9000 (), .spawn 0, .insert 0, .openFile 0, .lookup 9000 ()]
    (fun s : AccessLogger Nat Unit => s.calls.map (fun c => (c.key, c.phase.writer)))
    (show (execWhile step startsAlone AccessLogger.new _).map _ = some _ from rfl)
  exact ⟨s, hs, one_writer_per_log hr⟩

/-- Two first calls that both miss leave two writers on one file. -/
theorem concurrent_calls_open_twice : ∃ s : AccessLogger Nat Unit, Reaches step always AccessLogger.new s ∧
      s.calls.map (fun c => (c.key, c.phase.writer, c.task)) =
        [(9000, some 0, some .writing), (9000, some 1, some .writing)] :=
  exec_observe [.lookup 9000 (), .lookup 9000 (), .spawn 0, .spawn 1, .insert 0, .insert 1,
    .openFile 0, .openFile 1] _ rfl

end Senders

end Bore.AccessLog
