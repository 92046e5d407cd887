import Mathlib

namespace Bore.Runs

open Option

variable {S A : Type}
variable {step : S → A → Option S} {ok : S → A → Prop} {s t : S}

/-- One step taken under a side condition on the state before it and the
action that is performed. -/
def Moves (step : S → A → Option S) (ok : S → A → Prop) (s s' : S) : Prop :=
  ∃ a, ok s a ∧ step s a = some s'

def Reaches (step : S → A → Option S) (ok : S → A → Prop) : S → S → Prop :=
  Relation.ReflTransGen (Moves step ok)

def always : S → A → Prop := fun _ _ => True

theorem Reaches.tail {u : S} {a : A}
    (h : Reaches step ok s t) (hok : ok t a) (hstep : step t a = some u) : Reaches step ok s u :=
  Relation.ReflTransGen.tail h ⟨a, hok, hstep⟩

theorem Reaches.mono {ok' : S → A → Prop}
    (hle : ∀ s a, ok s a → ok' s a) (h : Reaches step ok s t) : Reaches step ok' s t := by
  refine Relation.ReflTransGen.mono ?_ _ _ h
  rintro _ _ ⟨a, hok, hs⟩
  exact ⟨a, hle _ a hok, hs⟩

/-- What holds initially and survives every permitted step holds of every
state reached. -/
theorem Reaches.invariant {P : S → Prop} (h : Reaches step ok s t) (hs : P s)
    (hstep : ∀ t a u, P t → ok t a → step t a = some u → P u) : P t := by
  induction h with
  | refl => exact hs
  | tail _ hm ih =>
    obtain ⟨a, hok, ha⟩ := hm
    exact hstep _ a _ ih hok ha

def execWhile (step : S → A → Option S) (ok : S → A → Bool) : S → List A → Option S
  | s, [] => some s
  | s, a :: as => if ok s a then (step s a).bind (fun t => execWhile step ok t as) else none

def exec (step : S → A → Option S) : S → List A → Option S := execWhile step (fun _ _ => true)

/-- The actions of a checked run meet a side condition that follows from the
check and an invariant. -/
theorem execWhile_reaches_of {ok : S → A → Bool} {ok' : S → A → Prop} {P : S → Prop}
    (hs : P s) (hstep : ∀ t a u, P t → ok t a = true → step t a = some u → P u)
    (hok : ∀ t a, P t → ok t a = true → ok' t a) (as : List A) (h : execWhile step ok s as = some t) :
    Reaches step ok' s t := by
  induction as generalizing s with
  | nil =>
    cases h
    exact Relation.ReflTransGen.refl
  | cons a _ ih =>
    unfold execWhile at h
    split at h
    · rename_i hc
      obtain ⟨u, hu, hr⟩ := bind_eq_some_iff.mp h
      exact Relation.ReflTransGen.head ⟨a, hok s a hs hc, hu⟩ (ih (hstep s a u hs hc hu) hr)
    · cases h

theorem execWhile_reaches {ok : S → A → Bool} (as : List A)
    (h : execWhile step ok s as = some t) : Reaches step (fun s a => ok s a = true) s t :=
  execWhile_reaches_of (P := fun _ => True) trivial (fun _ _ _ _ _ _ => trivial) (fun _ _ _ h => h) as h

theorem exec_reaches (as : List A) (h : exec step s as = some t) : Reaches step always s t :=
  (execWhile_reaches as h).mono (fun _ _ _ => trivial)

theorem exec_cons (step : S → A → Option S) (s : S) (a : A) (as : List A) :
    exec step s (a :: as) = (step s a).bind (fun t => exec step t as) := rfl

theorem exec_append (step : S → A → Option S) (s : S) (as bs : List A) :
    exec step s (as ++ bs) = (exec step s as).bind (fun t => exec step t bs) := by
  induction as generalizing s with
  | nil => rfl
  | cons _ _ ih =>
    rw [List.cons_append, exec_cons, exec_cons, bind_assoc]
    exact congrArg _ (funext ih)

section Observe

variable {step : S → A → Option S} {ok : S → A → Bool} {s : S} {B C : Type} {b : B} {c : C}

theorem execWhile_observe (as : List A) (f : S → B) (h : (execWhile step ok s as).map f = some b) :
    ∃ t, Reaches step (fun s a => ok s a = true) s t ∧ f t = b := by
  obtain ⟨t, ht, hf⟩ := map_eq_some_iff.mp h
  exact ⟨t, execWhile_reaches as ht, hf⟩

theorem exec_observe (as : List A) (f : S → B) (h : (exec step s as).map f = some b) :
    ∃ t, Reaches step always s t ∧ f t = b := by
  obtain ⟨t, ht, hf⟩ := map_eq_some_iff.mp h
  exact ⟨t, exec_reaches as ht, hf⟩

theorem execWhile_shows {P : S → Prop} (as : List A) (f : S → B) (h : (execWhile step ok s as).map f = some b)
    (hP : ∀ t, Reaches step (fun s a => ok s a = true) s t → f t = b → P t) :
    ∃ t, Reaches step (fun s a => ok s a = true) s t ∧ f t = b ∧ P t := by
  obtain ⟨t, ht, hf⟩ := execWhile_observe as f h
  exact ⟨t, ht, hf, hP t ht hf⟩

theorem exec_shows {P : S → Prop} (as : List A) (f : S → B) (h : (exec step s as).map f = some b)
    (hP : ∀ t, Reaches step always s t → f t = b → P t) : ∃ t, Reaches step always s t ∧ f t = b ∧ P t := by
  obtain ⟨t, ht, hf⟩ := exec_observe as f h
  exact ⟨t, ht, hf, hP t ht hf⟩

theorem exec_observe_twice (as bs : List A) (f : S → B) (g : S → C)
    (h : (exec step s as).bind (fun t => (execWhile step ok t bs).map (fun u => (f t, g u))) = some (b, c)) :
    ∃ t u, Reaches step always s t ∧ f t = b ∧ Reaches step (fun s a => ok s a = true) t u ∧ g u = c := by
  obtain ⟨t, ht, h⟩ := bind_eq_some_iff.mp h
  obtain ⟨u, hu, h⟩ := map_eq_some_iff.mp h
  cases h
  exact ⟨t, u, exec_reaches as ht, rfl, execWhile_reaches bs hu, rfl⟩

end Observe

end Bore.Runs
