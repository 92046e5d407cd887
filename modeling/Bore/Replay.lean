import Mathlib

namespace Bore.Replay

variable {V E : Type} (act : E → V → V)

def replay (es : List E) (v : V) : V := es.foldl (fun v e => act e v) v

@[simp] theorem replay_nil (v : V) : replay act [] v = v := rfl

@[simp] theorem replay_cons (e : E) (es : List E) (v : V) : replay act (e :: es) v = replay act es (act e v) := rfl

@[simp] theorem replay_append (es fs : List E) (v : V) : replay act (es ++ fs) v = replay act fs (replay act es v) :=
  List.foldl_append

/-- The order of the two events is not visible in any view. -/
def Commutes (e f : E) : Prop := ∀ v, act e (act f v) = act f (act e v)

variable {act}

theorem replay_act {e : E} {es : List E} (h : ∀ f ∈ es, Commutes act e f) (v : V) :
    replay act es (act e v) = act e (replay act es v) := by
  induction es generalizing v with
  | nil => rfl
  | cons f _ ih =>
    rw [replay_cons, replay_cons, ← h f List.mem_cons_self v]
    exact ih (fun g hg => h g (List.mem_cons_of_mem f hg)) (act f v)

theorem replay_overtake {e : E} {pre : List E} (post : List E) (h : ∀ f ∈ pre, Commutes act e f) (v : V) :
    replay act (pre ++ e :: post) v = replay act (pre ++ post) (act e v) := by
  rw [replay_append, replay_cons, replay_append, replay_act h]

theorem replay_of_fixed {es : List E} {v : V} (h : ∀ e ∈ es, act e v = v) : replay act es v = v := by
  induction es with
  | nil => rfl
  | cons e _ ih =>
    rw [replay_cons, h e List.mem_cons_self]
    exact ih (fun f hf => h f (List.mem_cons_of_mem e hf))

theorem replay_part {W : Type} (part : V → W) (h : ∀ e v w, part v = part w → part (act e v) = part (act e w))
    (es : List E) {v w : V} (hv : part v = part w) : part (replay act es v) = part (replay act es w) := by
  induction es generalizing v w with
  | nil => exact hv
  | cons e _ ih => exact ih (h e v w hv)

end Bore.Replay
