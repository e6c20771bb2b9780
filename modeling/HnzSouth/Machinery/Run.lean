import Mathlib.Tactic

/-!
# Machinery/Run — labelled runs of a transition relation

A system is a relation `R : σ → α → σ → Prop`: from a state, under a label, to a state.  `Run R` is
its labelled reflexive-transitive closure.  Two things carry every result about runs:

* `Run.invariant` — what one step keeps, a run keeps;
* `Under good R` — the system whose steps all meet a condition on the state they leave and the
  label they carry; `Run.of_under` forgets the condition.

`Observed obs R` carries an observer along, who notes down what he sees of each step; whatever he
notes, he is in nobody's way (`Run.observe`).  `Det step` is the system of a partial function, and
`exec` evaluates its runs.
-/

namespace Machinery

variable {σ α γ : Type*} {R : σ → α → σ → Prop}

/-- **A run**, with the labels of its steps in order. -/
inductive Run (R : σ → α → σ → Prop) : σ → List α → σ → Prop
  | nil (s : σ) : Run R s [] s
  | cons {s t u : σ} {a : α} {as : List α} : R s a t → Run R t as u → Run R s (a :: as) u

/-- The steps of `R` that meet `good`. -/
def Under (good : σ → α → Prop) (R : σ → α → σ → Prop) (s : σ) (a : α) (t : σ) : Prop :=
  good s a ∧ R s a t

/-- **An observed system**: the notes of the observer follow from the state a step leaves and the
label it carries. -/
def Observed (obs : σ → α → γ → γ) (R : σ → α → σ → Prop) (x : σ × γ) (a : α) (y : σ × γ) : Prop :=
  R x.1 a y.1 ∧ y.2 = obs x.1 a x.2

/-- The system of a partial step function: no value, no step. -/
def Det (step : σ → α → Option σ) (s : σ) (a : α) (t : σ) : Prop := step s a = some t

namespace Run

theorem single {s t : σ} {a : α} (h : R s a t) : Run R s [a] t := .cons h (.nil t)

theorem append {s t u : σ} {as bs : List α} (h₁ : Run R s as t) (h₂ : Run R t bs u) :
    Run R s (as ++ bs) u := by
  induction h₁ with
  | nil => exact h₂
  | cons h _ ih => exact .cons h (ih h₂)

theorem snoc {s t u : σ} {as : List α} {a : α} (h₁ : Run R s as t) (h₂ : R t a u) :
    Run R s (as ++ [a]) u := h₁.append (single h₂)

/-- **The invariant rule.** -/
theorem invariant {I : σ → Prop} (step : ∀ {s a t}, I s → R s a t → I t) {s t : σ} {as : List α}
    (h : Run R s as t) (hs : I s) : I t := by
  induction h with
  | nil => exact hs
  | cons h _ ih => exact ih (step hs h)

/-- Runs are monotone in the step relation. -/
theorem mono {R' : σ → α → σ → Prop} (step : ∀ {s a t}, R s a t → R' s a t) {s t : σ}
    {as : List α} (h : Run R s as t) : Run R' s as t := by
  induction h with
  | nil => exact .nil _
  | cons h _ ih => exact .cons (step h) ih

/-- A run whose steps meet a condition is a run. -/
theorem of_under {good : σ → α → Prop} {s t : σ} {as : List α} (h : Run (Under good R) s as t) :
    Run R s as t := h.mono And.right

/-- A condition on the labels alone. -/
theorem under {good : α → Prop} {s t : σ} {as : List α} (h : Run R s as t)
    (hgood : ∀ a ∈ as, good a) : Run (Under (fun _ a => good a) R) s as t := by
  induction h with
  | nil => exact .nil _
  | cons hst _ ih =>
    have ⟨ha, has⟩ := List.forall_mem_cons.mp hgood
    exact .cons ⟨ha, hst⟩ (ih has)

/-- Every run can be observed. -/
theorem observe (obs : σ → α → γ → γ) {s t : σ} {as : List α} (h : Run R s as t) (x : γ) :
    ∃ y, Run (Observed obs R) (s, x) as (t, y) := by
  induction h generalizing x with
  | nil => exact ⟨x, .nil _⟩
  | cons h _ ih =>
    obtain ⟨y, hy⟩ := ih (obs _ _ x)
    exact ⟨y, .cons ⟨h, rfl⟩ hy⟩

theorem nil_iff {s t : σ} : Run R s [] t ↔ s = t :=
  ⟨fun h => by cases h; rfl, fun h => h ▸ .nil s⟩

theorem cons_iff {s u : σ} {a : α} {as : List α} :
    Run R s (a :: as) u ↔ ∃ t, R s a t ∧ Run R t as u := by
  constructor
  · intro h
    cases h with
    | cons h₁ h₂ => exact ⟨_, h₁, h₂⟩
  · rintro ⟨t, h₁, h₂⟩
    exact .cons h₁ h₂

end Run

/-! ## Labels along the way -/

/-- **Throughout a list of labels**: at each of them the condition holds, in every state in which a
run arrives there. -/
def Throughout (R : σ → α → σ → Prop) (P : σ → α → Prop) (s : σ) (as : List α) : Prop :=
  ∀ done a rest t, as = done ++ a :: rest → Run R s done t → P t a

theorem throughout_nil {P : σ → α → Prop} {s : σ} : Throughout R P s [] :=
  fun _ _ _ _ h _ => absurd h (by simp)

/-- **The first label, and the others.** -/
theorem throughout_cons_iff {P : σ → α → Prop} {s : σ} {a : α} {as : List α} :
    Throughout R P s (a :: as) ↔ P s a ∧ ∀ t, R s a t → Throughout R P t as := by
  constructor
  · intro h
    exact ⟨h [] a as s rfl (.nil s), fun t ht done b rest u has hu =>
      h (a :: done) b rest u (congrArg (a :: ·) has) (.cons ht hu)⟩
  · rintro ⟨hfirst, hothers⟩ done b rest u has hu
    cases hu with
    | nil =>
      obtain ⟨rfl, -⟩ := List.cons.inj has
      exact hfirst
    | cons hst htu =>
      obtain ⟨rfl, hlabels⟩ := List.cons.inj has
      exact hothers _ hst _ _ _ _ hlabels htu

/-- **Two conditions that agree in every state of a run** agree along its labels. -/
theorem throughout_congr {P Q : σ → α → Prop} {I : σ → Prop} {s : σ} {as : List α}
    (hstep : ∀ {s a t}, I s → R s a t → I t) (hs : I s) (h : ∀ t a, I t → (P t a ↔ Q t a)) :
    Throughout R P s as ↔ Throughout R Q s as := by
  have hreached : ∀ {done t}, Run R s done t → I t := fun hrun => hrun.invariant (fun ht htu => hstep ht htu) hs
  constructor
  · intro hP done a rest t has hrun
    exact (h t a (hreached hrun)).mp (hP done a rest t has hrun)
  · intro hQ done a rest t has hrun
    exact (h t a (hreached hrun)).mpr (hQ done a rest t has hrun)

/-- **Progress**: if the condition always lets a step be taken, and the step keeps an invariant, the
labels can be followed to the end. -/
theorem Throughout.exists_run {P : σ → α → Prop} {I : σ → Prop}
    (hprogress : ∀ {s a}, I s → P s a → ∃ t, R s a t ∧ I t) {s : σ} {as : List α}
    (h : Throughout R P s as) (hs : I s) : ∃ t, Run (Under P R) s as t ∧ I t := by
  induction as generalizing s with
  | nil => exact ⟨s, .nil s, hs⟩
  | cons a as ih =>
    obtain ⟨hfirst, hothers⟩ := throughout_cons_iff.mp h
    obtain ⟨t, hst, ht⟩ := hprogress hs hfirst
    obtain ⟨u, htu, hu⟩ := ih (hothers t hst) ht
    exact ⟨u, .cons ⟨hfirst, hst⟩ htu, hu⟩

/-! ## Evaluation -/

/-- **Evaluation** of a partial step function along a list of labels. -/
def exec (step : σ → α → Option σ) : σ → List α → Option σ
  | s, [] => some s
  | s, a :: as => (step s a).bind fun t => exec step t as

/-- The runs of a partial step function are its evaluations. -/
theorem run_det_iff {step : σ → α → Option σ} {s t : σ} {as : List α} :
    Run (Det step) s as t ↔ exec step s as = some t := by
  induction as generalizing s with
  | nil => rw [Run.nil_iff, exec, Option.some.injEq]
  | cons a as ih =>
    rw [Run.cons_iff, exec, Option.bind_eq_some_iff]
    exact exists_congr fun u => and_congr Iff.rfl ih

/-- The runs of a partial step function that meet a decidable condition are evaluations too. -/
theorem run_under_iff {step : σ → α → Option σ} {good : σ → α → Prop}
    [∀ s a, Decidable (good s a)] {s t : σ} {as : List α} :
    Run (Under good (Det step)) s as t ↔
      exec (fun s a => if good s a then step s a else none) s as = some t := by
  rw [← run_det_iff]
  have h : ∀ {s a t}, Under good (Det step) s a t ↔
      Det (fun s a => if good s a then step s a else none) s a t := by
    intro s a t
    rw [Under, Det, Det]
    split_ifs with hg <;> simp [hg]
  exact ⟨fun hr => hr.mono h.mp, fun hr => hr.mono h.mpr⟩

/-- The first label of a partial step function. -/
theorem throughout_det_cons {step : σ → α → Option σ} {P : σ → α → Prop} {s t : σ} {a : α}
    {as : List α} (h : step s a = some t) :
    Throughout (Det step) P s (a :: as) ↔ P s a ∧ Throughout (Det step) P t as := by
  rw [throughout_cons_iff]
  refine and_congr_right fun _ => ⟨fun hall => hall t h, fun hall u hu => ?_⟩
  obtain rfl : t = u := Option.some.inj (h.symm.trans hu)
  exact hall

/-- An observed partial step function is one again. -/
theorem observed_det (obs : σ → α → γ → γ) (step : σ → α → Option σ) :
    Observed obs (Det step) = Det fun x a => (step x.1 a).map fun t => (t, obs x.1 a x.2) := by
  ext x a ⟨t, y⟩
  simp [Observed, Det, Prod.ext_iff, eq_comm]

end Machinery
