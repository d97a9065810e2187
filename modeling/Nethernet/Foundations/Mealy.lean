import Mathlib.Data.List.Basic

/-!
# Partial Mealy machines

A machine reads one input at a time and answers it with an output, or stops. `run` feeds it a
list of inputs. The rules below are the ones a proof about a run needs: how a run splits
(`run_cons_eq_some`, `run_append_eq_some`), what every run keeps (`run_history`, for a property of
the inputs read so far and the state), and when it cannot stop (`run_isSome`).
-/

namespace Foundations

/-- A partial Mealy machine: an input takes a state to the next state and an output, or stops the
machine. -/
abbrev Mealy (S I O : Type*) := S → I → Option (S × O)

namespace Mealy

variable {S I O : Type*}

/-- Feed a list of inputs; the outputs are in the order of the inputs. -/
def run (f : Mealy S I O) : S → List I → Option (S × List O)
  | s, [] => some (s, [])
  | s, i :: is => (f s i).bind fun p => (run f p.1 is).map fun q => (q.1, p.2 :: q.2)

variable {f : Mealy S I O}

@[simp] theorem run_nil (s : S) : run f s [] = some (s, []) := rfl

theorem run_cons (s : S) (i : I) (is : List I) :
    run f s (i :: is) =
      (f s i).bind fun p => (run f p.1 is).map fun q => (q.1, p.2 :: q.2) := rfl

theorem run_cons_eq_some {s t : S} {i : I} {is : List I} {os : List O} :
    run f s (i :: is) = some (t, os) ↔
      ∃ s' o os', f s i = some (s', o) ∧ run f s' is = some (t, os') ∧ os = o :: os' := by
  rw [run_cons]
  constructor
  · intro h
    obtain ⟨⟨s', o⟩, hs, h⟩ := Option.bind_eq_some_iff.1 h
    obtain ⟨⟨t', os'⟩, hr, h⟩ := Option.map_eq_some_iff.1 h
    obtain ⟨rfl, rfl⟩ := Prod.mk.inj h
    exact ⟨s', o, os', hs, hr, rfl⟩
  · rintro ⟨s', o, os', hs, hr, rfl⟩
    rw [hs, Option.bind_some, hr]
    rfl

theorem run_singleton (s : S) (i : I) :
    run f s [i] = (f s i).map fun p => (p.1, [p.2]) := by
  rw [run_cons]
  cases f s i <;> rfl

theorem run_of_step {s s' : S} {i : I} {o : O} (h : f s i = some (s', o)) :
    run f s [i] = some (s', [o]) := by
  rw [run_singleton, h, Option.map_some]

theorem run_append (s : S) (is js : List I) :
    run f s (is ++ js) =
      (run f s is).bind fun p => (run f p.1 js).map fun q => (q.1, p.2 ++ q.2) := by
  induction is generalizing s with
  | nil =>
    cases h : run f s js with
    | none => simp [h]
    | some q => simp [h]
  | cons i is ih =>
    rw [List.cons_append, run_cons, run_cons]
    cases f s i with
    | none => rfl
    | some p =>
      simp only [Option.bind_some, ih]
      cases run f p.1 is with
      | none => rfl
      | some q => cases h : run f q.1 js <;> simp [h]

/-- A run on two lists of inputs is a run on the first, then one on the second. -/
theorem run_append_eq_some {s t : S} {is js : List I} {os : List O} :
    run f s (is ++ js) = some (t, os) ↔
      ∃ u ps qs, run f s is = some (u, ps) ∧ run f u js = some (t, qs) ∧ os = ps ++ qs := by
  rw [run_append]
  constructor
  · intro h
    obtain ⟨⟨u, ps⟩, hp, h⟩ := Option.bind_eq_some_iff.1 h
    obtain ⟨⟨t', qs⟩, hq, h⟩ := Option.map_eq_some_iff.1 h
    obtain ⟨rfl, rfl⟩ := Prod.mk.inj h
    exact ⟨u, ps, qs, hp, hq, rfl⟩
  · rintro ⟨u, ps, qs, hp, hq, rfl⟩
    rw [hp, Option.bind_some, hq]
    rfl

/-- A run on `is` followed by one on `js`. -/
theorem run_append_of {s t u : S} {is js : List I} {ps qs : List O}
    (h : run f s is = some (t, ps)) (h' : run f t js = some (u, qs)) :
    run f s (is ++ js) = some (u, ps ++ qs) :=
  run_append_eq_some.2 ⟨t, ps, qs, h, h', rfl⟩

/-- A run ends with a step. -/
theorem run_concat_eq_some {s t : S} {is : List I} {i : I} {os : List O} :
    run f s (is ++ [i]) = some (t, os) ↔
      ∃ u ps o, run f s is = some (u, ps) ∧ f u i = some (t, o) ∧ os = ps ++ [o] := by
  rw [run_append_eq_some]
  constructor
  · rintro ⟨u, ps, qs, hp, hq, rfl⟩
    obtain ⟨t', o, qs', hs, hr, rfl⟩ := run_cons_eq_some.1 hq
    obtain ⟨rfl, rfl⟩ := Prod.mk.inj (Option.some.inj hr)
    exact ⟨u, ps, o, hp, hs, rfl⟩
  · rintro ⟨u, ps, o, hp, hs, rfl⟩
    exact ⟨u, ps, [o], hp, run_of_step hs, rfl⟩

/-- A run answers every input. -/
theorem length_of_run {s t : S} {is : List I} {os : List O} (h : run f s is = some (t, os)) :
    os.length = is.length := by
  induction is generalizing s os with
  | nil =>
    obtain ⟨-, rfl⟩ := Prod.mk.inj (Option.some.inj h)
    rfl
  | cons i is ih =>
    obtain ⟨s', o, os', -, hr, rfl⟩ := run_cons_eq_some.1 h
    rw [List.length_cons, List.length_cons, ih hr]

/-- A run, cut at position `k`. -/
theorem run_take_drop {s t : S} {is : List I} {os : List O} (h : run f s is = some (t, os))
    (k : ℕ) : ∃ u, run f s (is.take k) = some (u, os.take k) ∧
      run f u (is.drop k) = some (t, os.drop k) := by
  induction k generalizing s is os with
  | zero => exact ⟨s, rfl, h⟩
  | succ k ih =>
    cases is with
    | nil =>
      obtain ⟨rfl, rfl⟩ := Prod.mk.inj (Option.some.inj h)
      exact ⟨s, rfl, rfl⟩
    | cons i is =>
      obtain ⟨s', o, os', hs, hr, rfl⟩ := run_cons_eq_some.1 h
      obtain ⟨u, h₁, h₂⟩ := ih hr
      exact ⟨u, run_cons_eq_some.2 ⟨s', o, _, hs, h₁, rfl⟩, h₂⟩

/-- The step of a run at position `k`: the run up to it, the step, and the run past it. -/
theorem step_of_run {s t : S} {is : List I} {os : List O} (h : run f s is = some (t, os)) {k : ℕ}
    {i : I} (hi : is[k]? = some i) :
    ∃ u u' o, run f s (is.take k) = some (u, os.take k) ∧ f u i = some (u', o) ∧
      os[k]? = some o ∧ run f u' (is.drop (k + 1)) = some (t, os.drop (k + 1)) := by
  obtain ⟨u, h₁, h₂⟩ := run_take_drop h k
  obtain ⟨hk, rfl⟩ := List.getElem?_eq_some_iff.1 hi
  rw [List.drop_eq_getElem_cons hk] at h₂
  obtain ⟨u', o, os', hs, hr, ho⟩ := run_cons_eq_some.1 h₂
  have hos : os[k]? = some o := by
    rw [← Nat.add_zero k, ← List.getElem?_drop, ho]
    rfl
  have hdrop : os.drop (k + 1) = os' := by
    rw [← List.drop_drop, ho]
    rfl
  exact ⟨u, u', o, h₁, hs, hos, by rw [hdrop]; exact hr⟩

/-- **The progress rule.** A machine that can step from every state of an invariant, and stays in
it, answers every list of inputs that meet `A`. -/
theorem run_isSome {P : S → Prop} {A : I → Prop}
    (step : ∀ s i, P s → A i → ∃ s' o, f s i = some (s', o) ∧ P s') {s : S} (h₀ : P s)
    {is : List I} (hA : ∀ i ∈ is, A i) : ∃ t os, run f s is = some (t, os) ∧ P t := by
  induction is generalizing s with
  | nil => exact ⟨s, [], rfl, h₀⟩
  | cons i is ih =>
    obtain ⟨s', o, hs, h'⟩ := step s i h₀ (hA i (by simp))
    obtain ⟨t, os, hr, ht⟩ := ih h' fun j hj => hA j (by simp [hj])
    exact ⟨t, o :: os, run_cons_eq_some.2 ⟨s', o, os, hs, hr, rfl⟩, ht⟩

/-! ## Runs whose steps meet a condition -/

/-- Every step of the run from `s` on the inputs meets `A`. -/
def Along (f : Mealy S I O) (A : S → I → Prop) : S → List I → Prop
  | _, [] => True
  | s, i :: is => A s i ∧ ∀ s' o, f s i = some (s', o) → Along f A s' is

theorem along_of_forall {A : S → I → Prop} {is : List I} (h : ∀ s, ∀ i ∈ is, A s i) (s : S) :
    Along f A s is := by
  induction is generalizing s with
  | nil => trivial
  | cons i is ih =>
    exact ⟨h s i (by simp), fun s' _ _ => ih (fun s j hj => h s j (by simp [hj])) s'⟩

theorem Along.mono {A B : S → I → Prop} (hAB : ∀ s i, A s i → B s i) {s : S} {is : List I}
    (h : Along f A s is) : Along f B s is := by
  induction is generalizing s with
  | nil => trivial
  | cons i is ih => exact ⟨hAB s i h.1, fun s' o hs => ih (h.2 s' o hs)⟩

theorem Along.of_prefix {A : S → I → Prop} {s : S} {is js : List I} (h : Along f A s is)
    (hpre : js <+: is) : Along f A s js := by
  obtain ⟨ks, rfl⟩ := hpre
  induction js generalizing s with
  | nil => trivial
  | cons j js ih => exact ⟨h.1, fun s' o hs => ih (h.2 s' o hs)⟩

/-- **The invariant rule.** A property of the inputs read so far and the state, kept by every step
that meets `A`, is kept by every run whose steps meet `A`. -/
theorem run_history_along {P : List I → S → Prop} {A : S → I → Prop}
    (step : ∀ hist s i s' o, P hist s → A s i → f s i = some (s', o) → P (hist ++ [i]) s')
    {hist : List I} {s t : S} {is : List I} {os : List O} (h₀ : P hist s) (hA : Along f A s is)
    (h : run f s is = some (t, os)) : P (hist ++ is) t := by
  induction is generalizing hist s os with
  | nil =>
    obtain ⟨rfl, -⟩ := Prod.mk.inj (Option.some.inj h)
    rwa [List.append_nil]
  | cons i is ih =>
    obtain ⟨s', o, os', hs, hr, rfl⟩ := run_cons_eq_some.1 h
    have := ih (step hist s i s' o h₀ hA.1 hs) (hA.2 s' o hs) hr
    rwa [List.append_assoc] at this

/-- A property of the inputs read so far and the state, kept by every step, is kept by every run. -/
theorem run_history {P : List I → S → Prop}
    (step : ∀ hist s i s' o, P hist s → f s i = some (s', o) → P (hist ++ [i]) s')
    {hist : List I} {s t : S} {is : List I} {os : List O} (h₀ : P hist s)
    (h : run f s is = some (t, os)) : P (hist ++ is) t :=
  run_history_along (A := fun _ _ => True) (fun hist s i s' o hP _ => step hist s i s' o hP) h₀
    (along_of_forall (fun _ _ _ => trivial) s) h

/-- **The refinement rule.** A machine that follows an abstract one through `φ`, on the steps that
meet `A`, answers as it does on every run whose steps meet `A`. -/
theorem run_refines {T : Type*} {g : Mealy T I O} {φ : T → S} {A : T → I → Prop}
    (step : ∀ t i t' o, A t i → g t i = some (t', o) → f (φ t) i = some (φ t', o))
    {t t' : T} {is : List I} {os : List O} (hA : Along g A t is)
    (h : run g t is = some (t', os)) : run f (φ t) is = some (φ t', os) := by
  induction is generalizing t os with
  | nil =>
    obtain ⟨rfl, rfl⟩ := Prod.mk.inj (Option.some.inj h)
    rfl
  | cons i is ih =>
    obtain ⟨u, o, os', hg, hr, rfl⟩ := run_cons_eq_some.1 h
    exact run_cons_eq_some.2 ⟨φ u, o, os', step t i u o hA.1 hg, ih (hA.2 u o hg) hr, rfl⟩

end Mealy

end Foundations
