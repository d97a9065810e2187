import Mathlib.Data.List.Basic

/-!
# Partial transition systems

A system takes one action at a time, or cannot take it. `run` takes a list of actions, a schedule.
The rules are those of a proof about every schedule: how a run splits (`run_cons_eq_some`,
`run_append_eq_some`), induction on the actions taken (`run_induction`), what every run keeps
(`run_invariant`, and `run_invariant_along` when only the steps that meet a condition keep it), and
when a run keeps what some steps do not (`forall_prefix_iff`). `trace` is what a run shows,
`run_view` says when a view of the state follows from it, and `run_simulates` when what a run shows
is a run of another system. `Once` says that a step of the run was of a kind, and a run meets a
condition when no step was against it (`along_iff_not_once`). `Runs` is a run whose steps all meet a
condition; those of a part are runs of the whole (`Runs.embed`). `follow` takes a list of actions as
far as they are enabled.
-/

namespace Foundations

/-- A partial transition system: an action leads from a state to the next, or is not enabled. -/
abbrev Transition (S A : Type*) := S → A → Option S

namespace Transition

variable {S A : Type*}

/-- Take a list of actions. -/
def run (f : Transition S A) : S → List A → Option S
  | s, [] => some s
  | s, a :: as => (f s a).bind fun s' => run f s' as

variable {f : Transition S A}

@[simp] theorem run_nil (s : S) : run f s [] = some s := rfl

theorem run_cons (s : S) (a : A) (as : List A) :
    run f s (a :: as) = (f s a).bind fun s' => run f s' as := rfl

theorem run_cons_eq_some {s t : S} {a : A} {as : List A} :
    run f s (a :: as) = some t ↔ ∃ s', f s a = some s' ∧ run f s' as = some t := by
  rw [run_cons, Option.bind_eq_some_iff]

/-- A run on two lists of actions is a run on the first, then one on the second. -/
theorem run_append_eq_some {s t : S} {as bs : List A} :
    run f s (as ++ bs) = some t ↔ ∃ u, run f s as = some u ∧ run f u bs = some t := by
  induction as generalizing s with
  | nil => simp
  | cons a as ih =>
    rw [List.cons_append, run_cons_eq_some]
    simp only [ih, run_cons_eq_some]
    constructor
    · rintro ⟨s', hs, u, hu, ht⟩
      exact ⟨u, ⟨s', hs, hu⟩, ht⟩
    · rintro ⟨u, ⟨s', hs, hu⟩, ht⟩
      exact ⟨s', hs, u, hu, ht⟩

/-- Every step of the run from `s` meets `C`. -/
def Along (f : Transition S A) (C : S → A → Prop) : S → List A → Prop
  | _, [] => True
  | s, a :: as => C s a ∧ ∀ s', f s a = some s' → Along f C s' as

/-- Whether a run meets a condition can be computed. -/
def Along.decide {C : S → A → Prop} (hC : ∀ s a, Decidable (C s a)) :
    ∀ (s : S) (as : List A), Decidable (Along f C s as)
  | _, [] => .isTrue trivial
  | s, a :: as =>
    match hs : f s a with
    | none => @decidable_of_iff _ (C s a)
        ⟨fun h => ⟨h, fun _ hs' => nomatch hs.symm.trans hs'⟩, fun h => h.1⟩ (hC s a)
    | some s' => @decidable_of_iff _ (C s a ∧ Along f C s' as)
        ⟨fun h => ⟨h.1, fun _ ht => Option.some.inj (hs.symm.trans ht) ▸ h.2⟩,
          fun h => ⟨h.1, h.2 s' hs⟩⟩ (@instDecidableAnd _ _ (hC s a) (decide hC s' as))

instance {C : S → A → Prop} [hC : ∀ s a, Decidable (C s a)] (s : S) (as : List A) :
    Decidable (Along f C s as) := Along.decide hC s as

/-- **The invariant rule.** What every step that meets `C` keeps, a run whose steps all meet `C`
keeps. -/
theorem run_invariant_along {P : S → Prop} {C : S → A → Prop}
    (step : ∀ s a s', P s → C s a → f s a = some s' → P s') {s t : S} {as : List A} (h₀ : P s)
    (hC : Along f C s as) (h : run f s as = some t) : P t := by
  induction as generalizing s with
  | nil => exact Option.some.inj h ▸ h₀
  | cons a as ih =>
    obtain ⟨s', hs, hr⟩ := run_cons_eq_some.1 h
    exact ih (step s a s' h₀ hC.1 hs) (hC.2 s' hs) hr

/-- A condition on the actions alone. -/
theorem along_of_forall {C : A → Prop} {s : S} {as : List A} (h : ∀ a ∈ as, C a) :
    Along f (fun _ a => C a) s as := by
  induction as generalizing s with
  | nil => trivial
  | cons a as ih =>
    obtain ⟨ha, has⟩ := List.forall_mem_cons.1 h
    exact ⟨ha, fun _ _ => ih has⟩

/-- **The exact condition for an invariant.** Where a step from a state with `P` keeps `P` exactly
when it meets `C`, a run passes through states with `P` only exactly when its steps all meet `C`. -/
theorem forall_prefix_iff {P : S → Prop} {C : S → A → Prop}
    (step : ∀ s a s', P s → f s a = some s' → (P s' ↔ C s a)) {s t : S} {as : List A} (h₀ : P s)
    (h : run f s as = some t) :
    (∀ bs u, bs <+: as → run f s bs = some u → P u) ↔ Along f C s as := by
  induction as generalizing s with
  | nil =>
    refine iff_of_true (fun bs u hbs hu => ?_) trivial
    obtain rfl := List.prefix_nil.1 hbs
    exact Option.some.inj hu ▸ h₀
  | cons a as ih =>
    obtain ⟨s', hs, hr⟩ := run_cons_eq_some.1 h
    constructor
    · intro hall
      have hP : P s' := hall [a] s' ⟨as, rfl⟩ (run_cons_eq_some.2 ⟨s', hs, rfl⟩)
      refine ⟨(step s a s' h₀ hs).1 hP, fun s'' hs'' => ?_⟩
      obtain rfl := Option.some.inj (hs.symm.trans hs'')
      exact (ih hP hr).1 fun bs u hbs hu =>
        hall (a :: bs) u (List.cons_prefix_cons.2 ⟨rfl, hbs⟩) (run_cons_eq_some.2 ⟨s', hs, hu⟩)
    · rintro ⟨hC, hA⟩ bs u hbs hu
      cases bs with
      | nil => exact Option.some.inj hu ▸ h₀
      | cons b bs =>
        obtain ⟨rfl, htail⟩ := List.cons_prefix_cons.1 hbs
        obtain ⟨s'', hs'', hu⟩ := run_cons_eq_some.1 hu
        obtain rfl := Option.some.inj (hs.symm.trans hs'')
        exact (ih ((step s b s' h₀ hs).2 hC) hr).2 (hA s' hs) bs u htail hu

/-- A system that takes every action runs through every list of actions. -/
theorem run_total (g : S → A → S) (s : S) (as : List A) :
    run (fun s a => some (g s a)) s as = some (as.foldl g s) := by
  induction as generalizing s with
  | nil => rfl
  | cons a as ih => exact run_cons_eq_some.2 ⟨g s a, rfl, ih (g s a)⟩

/-- **Induction on a run**, by its last step, of the actions taken and the state reached. -/
theorem run_induction {P : List A → S → Prop} (step : ∀ as s a s', P as s → f s a = some s' →
    P (as ++ [a]) s') {pre as : List A} {s t : S} (h₀ : P pre s) (h : run f s as = some t) :
    P (pre ++ as) t := by
  induction as generalizing pre s with
  | nil => exact (List.append_nil pre).symm ▸ Option.some.inj h ▸ h₀
  | cons a as ih =>
    obtain ⟨s', hs, hr⟩ := run_cons_eq_some.1 h
    have := ih (step pre s a s' h₀ hs) hr
    rwa [List.append_assoc] at this

/-- What every step keeps, every run keeps. -/
theorem run_invariant {P : S → Prop} (step : ∀ s a s', P s → f s a = some s' → P s') {s t : S}
    {as : List A} (h₀ : P s) (h : run f s as = some t) : P t :=
  @run_induction S A f (fun _ s => P s) (fun _ => step) [] as s t h₀ h

/-- **The ranking rule.** Where every state with `P` has a step with `C` that leads to `Q`, or keeps
`P` and lowers the rank, a run of such steps leads to `Q`. -/
theorem exists_run_of_rank {P Q : S → Prop} {C : A → Prop} (rank : S → ℕ)
    (step : ∀ s, P s → ∃ a s', C a ∧ f s a = some s' ∧ (Q s' ∨ P s' ∧ rank s' < rank s))
    {s : S} (h₀ : P s) : ∃ as t, (∀ a ∈ as, C a) ∧ run f s as = some t ∧ Q t := by
  induction hn : rank s using Nat.strongRecOn generalizing s with
  | _ n ih =>
    subst hn
    obtain ⟨a, s', ha, hs, hQ | ⟨hP, hlt⟩⟩ := step s h₀
    · exact ⟨[a], s', by simpa using ha, run_cons_eq_some.2 ⟨s', hs, rfl⟩, hQ⟩
    · obtain ⟨as, t, has, hrun, ht⟩ := ih (rank s') hlt hP rfl
      exact ⟨a :: as, t, List.forall_mem_cons.2 ⟨ha, has⟩, run_cons_eq_some.2 ⟨s', hs, hrun⟩, ht⟩

/-! ## Runs within a condition -/

/-- The run from `s` on `as` ends in `t`, and its steps all meet `C`. -/
structure Runs (f : Transition S A) (C : S → A → Prop) (s : S) (as : List A) (t : S) : Prop where
  run : Transition.run f s as = some t
  along : Along f C s as

theorem Runs.nil {C : S → A → Prop} (s : S) : Runs f C s [] s := ⟨rfl, trivial⟩

theorem Runs.cons {C : S → A → Prop} {s s' t : S} {a : A} {as : List A} (hC : C s a)
    (hs : f s a = some s') (h : Runs f C s' as t) : Runs f C s (a :: as) t := by
  refine ⟨run_cons_eq_some.2 ⟨s', hs, h.run⟩, hC, fun s'' hs'' => ?_⟩
  obtain rfl := Option.some.inj (hs.symm.trans hs'')
  exact h.along

theorem Runs.append {C : S → A → Prop} {s t u : S} {as bs : List A} (h : Runs f C s as t)
    (h' : Runs f C t bs u) : Runs f C s (as ++ bs) u := by
  obtain ⟨hrun, halong⟩ := h
  induction as generalizing s with
  | nil =>
    obtain rfl := Option.some.inj hrun
    exact h'
  | cons a as ih =>
    obtain ⟨s', hs, hr⟩ := run_cons_eq_some.1 hrun
    exact .cons halong.1 hs (ih hr (halong.2 s' hs))

/-- **The embedding rule**: where every step of a part is one of the whole, so is its run. -/
theorem Runs.embed {T B : Type*} {g : Transition T B} {C : T → B → Prop} {D : S → A → Prop}
    (put : T → S) (act : B → A) {bs : List B}
    (step : ∀ t, ∀ b ∈ bs, ∀ t', C t b → g t b = some t' →
      D (put t) (act b) ∧ f (put t) (act b) = some (put t')) {t t' : T} (h : Runs g C t bs t') :
    Runs f D (put t) (bs.map act) (put t') := by
  obtain ⟨hrun, halong⟩ := h
  induction bs generalizing t with
  | nil =>
    obtain rfl := Option.some.inj hrun
    exact .nil _
  | cons b bs ih =>
    obtain ⟨u, hu, hr⟩ := run_cons_eq_some.1 hrun
    obtain ⟨hD, hstep⟩ := step t b List.mem_cons_self u halong.1 hu
    exact .cons hD hstep (ih (fun t c hc => step t c (List.mem_cons_of_mem b hc)) hr
      (halong.2 u hu))

/-! ## What a run shows -/

/-- What the steps of a run show, one after the other. -/
def trace {B : Type*} (f : Transition S A) (obs : S → A → List B) : S → List A → List B
  | _, [] => []
  | s, a :: as => obs s a ++ (f s a).elim [] fun s' => trace f obs s' as

/-- What a run shows, and then another that goes on from it. -/
theorem trace_append {B : Type*} {obs : S → A → List B} {s t : S} {as : List A}
    (h : run f s as = some t) (bs : List A) :
    trace f obs s (as ++ bs) = trace f obs s as ++ trace f obs t bs := by
  induction as generalizing s with
  | nil => exact congrArg (trace f obs · bs) (Option.some.inj h)
  | cons b as ih =>
    obtain ⟨s', hs, hr⟩ := run_cons_eq_some.1 h
    rw [List.cons_append, trace, trace, hs, List.append_assoc]
    exact congrArg _ (ih hr)

/-- What a run shows with one more step. -/
theorem trace_concat {B : Type*} {obs : S → A → List B} {s t : S} {as : List A}
    (h : run f s as = some t) (a : A) :
    trace f obs s (as ++ [a]) = trace f obs s as ++ obs t a := by
  rw [trace_append h, trace]
  cases f t a <;> exact congrArg _ (List.append_nil _)

/-- Actions that show nothing. -/
theorem trace_eq_nil {B : Type*} {obs : S → A → List B} {as : List A}
    (h : ∀ s, ∀ a ∈ as, obs s a = []) (s : S) : trace f obs s as = [] := by
  induction as generalizing s with
  | nil => rfl
  | cons a as ih =>
    rw [trace, h s a List.mem_cons_self, List.nil_append]
    cases f s a with
    | none => rfl
    | some s' => exact ih (fun s b hb => h s b (List.mem_cons_of_mem a hb)) s'

/-- **Induction on what a run shows**: what every step keeps of the state and of what has been shown
so far, a run keeps. -/
theorem run_shows {B : Type*} {obs : S → A → List B} {P : List B → S → Prop}
    (step : ∀ shown s a s', P shown s → f s a = some s' → P (shown ++ obs s a) s') {s t : S}
    {as : List A} (h₀ : P [] s) (h : run f s as = some t) : P (trace f obs s as) t := by
  have hrun : run f s ([] ++ as) = some t ∧ P (trace f obs s ([] ++ as)) t := by
    refine run_induction (P := fun as u => run f s as = some u ∧ P (trace f obs s as) u) ?_
      ⟨rfl, h₀⟩ h
    rintro as u a u' ⟨hu, hP⟩ hstep
    refine ⟨run_append_eq_some.2 ⟨u, hu, run_cons_eq_some.2 ⟨u', hstep, rfl⟩⟩, ?_⟩
    rw [trace_concat hu]
    exact step _ u a u' hP hstep
  exact hrun.2

/-- **A view that follows what is shown**: where every step changes the view by what it shows alone,
a run does. -/
theorem run_view {B V : Type*} {obs : S → A → List B} {view : S → V} {F : V → B → V} {P : S → Prop}
    (step : ∀ s a s', P s → f s a = some s' → P s' ∧ view s' = (obs s a).foldl F (view s)) {s t : S}
    {as : List A} (h₀ : P s) (h : run f s as = some t) :
    view t = (trace f obs s as).foldl F (view s) := by
  induction as generalizing s with
  | nil => exact Option.some.inj h ▸ rfl
  | cons a as ih =>
    obtain ⟨s', hs, hr⟩ := run_cons_eq_some.1 h
    obtain ⟨hP, hview⟩ := step s a s' h₀ hs
    rw [ih hP hr, hview, trace, hs, List.foldl_append]
    rfl

/-- A list to which every step appends what it shows. -/
theorem run_append_trace {B : Type*} {obs : S → A → List B} {view : S → List B} {P : S → Prop}
    (step : ∀ s a s', P s → f s a = some s' → P s' ∧ view s' = view s ++ obs s a) {s t : S}
    {as : List A} (h₀ : P s) (h : run f s as = some t) : view t = view s ++ trace f obs s as := by
  have hfold : ∀ (bs l : List B), bs.foldl (fun l b => l ++ [b]) l = l ++ bs := by
    intro bs
    induction bs with
    | nil => exact fun l => (List.append_nil l).symm
    | cons b bs ih => exact fun l => (ih _).trans (List.append_assoc l [b] bs)
  rw [← hfold]
  exact run_view (fun s a s' hP hs => hfold _ _ ▸ step s a s' hP hs) h₀ h

/-- **The simulation rule**: where what a step shows leads another system from view to view, what a
run shows does. -/
theorem run_simulates {T B : Type*} {g : Transition T B} {obs : S → A → List B} (view : S → T)
    (step : ∀ s a s', f s a = some s' → run g (view s) (obs s a) = some (view s')) {s t : S}
    {as : List A} (h : run f s as = some t) :
    run g (view s) (trace f obs s as) = some (view t) := by
  induction as generalizing s with
  | nil => exact congrArg (some ∘ view) (Option.some.inj h)
  | cons a as ih =>
    obtain ⟨s', hs, hr⟩ := run_cons_eq_some.1 h
    rw [trace, hs]
    exact run_append_eq_some.2 ⟨view s', step s a s' hs, ih hr⟩

/-! ## What has happened -/

/-- A step of the run from `s` on `as` took an action `a` in a state `u` with `C u a`. -/
def Once (f : Transition S A) (s : S) (as : List A) (C : S → A → Prop) : Prop :=
  ∃ before a u, before ++ [a] <+: as ∧ run f s before = some u ∧ C u a

theorem Once.append {s : S} {as : List A} {C : S → A → Prop} (h : Once f s as C) (bs : List A) :
    Once f s (as ++ bs) C := by
  obtain ⟨before, a, u, hbefore, hu, hC⟩ := h
  exact ⟨before, a, u, hbefore.trans (List.prefix_append as bs), hu, hC⟩

theorem once_concat {s t : S} {as : List A} {a : A} {C : S → A → Prop} (h : run f s as = some t)
    (hC : C t a) : Once f s (as ++ [a]) C :=
  ⟨as, a, t, List.prefix_refl _, h, hC⟩

theorem once_concat_iff {s t : S} {as : List A} {a : A} {C : S → A → Prop}
    (h : run f s as = some t) : Once f s (as ++ [a]) C ↔ Once f s as C ∨ C t a := by
  constructor
  · rintro ⟨before, b, u, hbefore, hu, hC⟩
    cases List.prefix_concat_iff.1 hbefore with
    | inl heq =>
      obtain ⟨rfl, rfl⟩ := List.append_singleton_inj.1 heq
      exact .inr (Option.some.inj (h.symm.trans hu) ▸ hC)
    | inr hprefix => exact .inl ⟨before, b, u, hprefix, hu, hC⟩
  · rintro (honce | hC)
    · exact honce.append [a]
    · exact once_concat h hC

theorem Once.exists_mem {s : S} {as : List A} {C : S → A → Prop} (h : Once f s as C) :
    ∃ a ∈ as, ∃ u, C u a := by
  obtain ⟨before, a, u, hbefore, -, hC⟩ := h
  exact ⟨a, hbefore.subset (List.mem_append_right _ (List.mem_singleton_self a)), u, hC⟩

theorem Once.imp {s : S} {as : List A} {C D : S → A → Prop} (h : Once f s as C)
    (hCD : ∀ u a, C u a → D u a) : Once f s as D := by
  obtain ⟨before, a, u, hbefore, hu, hC⟩ := h
  exact ⟨before, a, u, hbefore, hu, hCD u a hC⟩

/-! ## As far as it goes -/

/-- Take the actions one after the other, up to the first that is not enabled. -/
def follow (f : Transition S A) : S → List A → S
  | s, [] => s
  | s, a :: as => (f s a).elim s fun s' => follow f s' as

theorem follow_cons {s s' : S} {a : A} (h : f s a = some s') (as : List A) :
    follow f s (a :: as) = follow f s' as := by
  rw [follow, h]
  rfl

/-- Where nothing is enabled, nothing is taken. -/
theorem follow_of_stuck {s : S} (h : ∀ a, f s a = none) (as : List A) : follow f s as = s := by
  cases as with
  | nil => rfl
  | cons a as =>
    rw [follow, h a]
    rfl

/-- Actions that are all taken are a run, and what follows goes on from its end. -/
theorem follow_append_of_run {s t : S} {as : List A} (h : run f s as = some t) (bs : List A) :
    follow f s (as ++ bs) = follow f t bs := by
  induction as generalizing s with
  | nil => rw [Option.some.inj h, List.nil_append]
  | cons a as ih =>
    obtain ⟨s', hs, hr⟩ := run_cons_eq_some.1 h
    rw [List.cons_append, follow_cons hs, ih hr]

theorem follow_of_run {s t : S} {as : List A} (h : run f s as = some t) : follow f s as = t := by
  have := follow_append_of_run h []
  rwa [List.append_nil] at this

end Transition

end Foundations
