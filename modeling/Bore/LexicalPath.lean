import Mathlib

namespace Bore.LexicalPath

open List

variable {N : Type}

inductive Component (N : Type)
  | rootDir
  | curDir
  | parentDir
  | normal (name : N)
  deriving DecidableEq

abbrev Path (N : Type) := List (Component N)

namespace Path

/-- `PathBuf::push`: an absolute path replaces what was there. -/
def push (path : Path N) : Component N → Path N
  | .rootDir => [.rootDir]
  | c => path ++ [c]

/-- `PathBuf::pop`: only an empty path and a root have no parent. -/
def pop (path : Path N) : Option (Path N) :=
  match path.getLast? with
  | none => none
  | some .rootDir => none
  | some _ => some path.dropLast

end Path

def clean (result : Path N) : Component N → Path N
  | .curDir => result
  | .parentDir => (result.pop).getD (result.push .parentDir)
  | c => result.push c

def lexicalClean (path : Path N) : Path N :=
  let result := path.foldl clean []
  if result.isEmpty then [.curDir] else result

/-- A directory is the list of names below the root, whose parent it is itself. -/
def enter (directory : List N) : Component N → List N
  | .rootDir => []
  | .curDir => directory
  | .parentDir => directory.dropLast
  | .normal name => directory ++ [name]

def resolve (directory : List N) (path : Path N) : List N := path.foldl enter directory

/-- What a path does: it may begin again at the root, it leaves so many levels
upwards and then it enters names. -/
structure Walk (N : Type) where
  root : Bool
  up : Nat
  names : List N

namespace Walk

def step (w : Walk N) : Component N → Walk N
  | .rootDir => ⟨true, 0, []⟩
  | .curDir => w
  | .parentDir => if w.names.isEmpty then { w with up := w.up + 1 } else { w with names := w.names.dropLast }
  | .normal name => { w with names := w.names ++ [name] }

def location (w : Walk N) (directory : List N) : List N :=
  (if w.root then [] else directory.take (directory.length - w.up)) ++ w.names

/-- What the cleaning has kept: every second parent takes back the one before. -/
def kept (w : Walk N) : Path N :=
  (if w.root then [.rootDir] else []) ++ (if w.up % 2 = 1 then [.parentDir] else []) ++ w.names.map .normal

theorem clean_kept (w : Walk N) (c : Component N) : clean w.kept c = (w.step c).kept := by
  obtain ⟨root, up, names⟩ := w
  cases c with
  | rootDir => rfl
  | curDir => rfl
  | normal => cases root <;> rcases up.mod_two_eq_zero_or_one with h | h <;> simp [clean, Path.push, kept, step, h]
  | parentDir =>
    rcases eq_nil_or_concat names with rfl | ⟨ns, name, rfl⟩
    · cases root <;> rcases up.mod_two_eq_zero_or_one with h | h <;>
        simp [clean, Path.pop, Path.push, kept, step, h, Nat.add_mod]
    · simp [clean, Path.pop, kept, step, ← append_assoc]

theorem enter_location (w : Walk N) (c : Component N) (directory : List N) :
    enter (w.location directory) c = (w.step c).location directory := by
  obtain ⟨root, up, names⟩ := w
  cases c with
  | rootDir => rfl
  | curDir => rfl
  | normal => cases root <;> simp [enter, location, step]
  | parentDir =>
    rcases eq_nil_or_concat names with rfl | ⟨ns, name, rfl⟩
    · cases root with
      | true => rfl
      | false =>
        simp [enter, location, step, dropLast_eq_take, take_take, Nat.sub_sub]
        omega
    · simp [enter, location, step, ← append_assoc]

theorem resolve_kept (w : Walk N) (directory : List N) :
    resolve directory w.kept = { w with up := w.up % 2 }.location directory := by
  have hnames (names : List N) (d : List N) : (names.map Component.normal).foldl enter d = d ++ names := by
    induction names generalizing d with
    | nil => simp
    | cons name names ih => simp [enter, ih]
  obtain ⟨root, up, names⟩ := w
  cases root <;> rcases up.mod_two_eq_zero_or_one with h | h <;>
    simp [resolve, kept, location, enter, hnames, h, dropLast_eq_take]

/-- The levels count where the directory is deep enough for them. -/
theorem location_eq_iff (w : Walk N) {directory : List N} (h : w.up ≤ directory.length) :
    { w with up := w.up % 2 }.location directory = w.location directory ↔ w.root = true ∨ w.up ≤ 1 := by
  obtain ⟨root, up, names⟩ := w
  cases root with
  | true => simp [location]
  | false =>
    simp only [location, Bool.false_eq_true, if_false, append_left_inj, false_or]
    constructor
    · intro he
      have hlen := congrArg length he
      simp only [length_take] at hlen h
      omega
    · intro hle
      rw [Nat.mod_eq_of_lt (by omega)]

end Walk

def walk (path : Path N) : Walk N := path.foldl Walk.step ⟨false, 0, []⟩

theorem foldl_clean (path : Path N) : path.foldl clean [] = (walk path).kept := by
  have hstep (w : Walk N) : path.foldl clean w.kept = (path.foldl Walk.step w).kept := by
    induction path generalizing w with
    | nil => rfl
    | cons c path ih => simp only [foldl_cons, Walk.clean_kept, ih]
  exact hstep ⟨false, 0, []⟩

theorem resolve_eq (path : Path N) (directory : List N) : resolve directory path = (walk path).location directory := by
  have hstep (w : Walk N) : path.foldl enter (w.location directory) = (path.foldl Walk.step w).location directory := by
    induction path generalizing w with
    | nil => rfl
    | cons c path ih => simp only [foldl_cons, Walk.enter_location, ih]
  have hstart : (⟨false, 0, []⟩ : Walk N).location directory = directory := by simp [Walk.location]
  have hrun := hstep ⟨false, 0, []⟩
  rwa [hstart] at hrun

def ParentsLead (path : Path N) : Prop :=
  ∀ a b, path = a ++ .parentDir :: b → a = [.rootDir] ∨ ∀ c ∈ a, c = .parentDir

theorem parentsLead_kept (w : Walk N) : ParentsLead w.kept := by
  intro a b h
  obtain ⟨root, up, names⟩ := w
  have hnames (hmem : Component.parentDir ∈ names.map Component.normal) : False := by simp at hmem
  obtain ⟨_, -, hrest⟩ | ⟨c, hlead, hrest⟩ := append_eq_append_iff.mp h
  · exact (hnames (by rw [hrest]; simp)).elim
  rcases c with _ | ⟨d, c⟩
  · exact (hnames (by rw [← nil_append (map ..), ← hrest]; simp)).elim
  cases (cons_eq_cons.mp hrest).1
  cases root <;> by_cases hup : up % 2 = 1 <;> rcases a with _ | ⟨_, _ | ⟨_, a⟩⟩ <;> simp_all

/-- From a directory that is deep enough, cleaning keeps the location of a path
exactly if the path names the root or climbs at most once above its start;
parents remain only in front or under the root. -/
theorem lexicalClean_keeps_location (path : Path N) :
    ParentsLead (lexicalClean path) ∧ ∀ directory : List N, (walk path).up ≤ directory.length →
      (resolve directory (lexicalClean path) = resolve directory path ↔ (walk path).root = true ∨ (walk path).up ≤ 1) := by
  have hresult : lexicalClean path = if (walk path).kept.isEmpty then [.curDir] else (walk path).kept := by
    rw [lexicalClean, foldl_clean]
  constructor
  · rw [hresult]
    split
    · intro a b h
      obtain ⟨rfl, -⟩ | ⟨rfl, -⟩ := singleton_eq_append_iff.mp h
      · exact .inr (by simp)
      · simp at h
    · exact parentsLead_kept _
  · intro directory h
    have hkept : resolve directory (lexicalClean path) = resolve directory (walk path).kept := by
      rw [hresult]
      split
      · next he =>
          rw [isEmpty_iff.mp he]
          rfl
      · rfl
    rw [hkept, Walk.resolve_kept, resolve_eq path, Walk.location_eq_iff _ h]

theorem lexicalClean_keeps_location_sibling :
    let path : Path String := [.normal "a", .curDir, .parentDir, .parentDir, .normal "b"]
    lexicalClean path = [.parentDir, .normal "b"] ∧
      resolve ["home", "user"] (lexicalClean path) = resolve ["home", "user"] path :=
  ⟨by decide, ((lexicalClean_keeps_location _).2 _ (by decide)).mpr (.inr (by decide))⟩

/-- The second parent takes back the first: `../..` becomes the directory
itself. -/
theorem two_parents_cancel :
    let path : Path String := [.parentDir, .parentDir]
    (resolve ["home", "user"] path, resolve ["home", "user"] (lexicalClean path)) = ([], ["home", "user"]) := by
  decide

end Bore.LexicalPath
