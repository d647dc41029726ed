import Mathlib.Data.List.Basic

/-!
# Runs of steps and what is recorded along them

A run takes a list of steps one after another.  A record is kept beside the state; it notes what each
step is known to do, without looking at what the step has made of the state.  A relation between
state and record that every fitting step preserves holds after every run of fitting steps.
-/

namespace Atools.Batch

variable {S R A : Type*} (step : A → S → S) (note : A → S → R → R) (fits : A → S → Prop)

/-- The state after a run. -/
def runs : List A → S → S
  | [], s => s
  | a :: as, s => runs as (step a s)

/-- The record after a run. -/
def records : List A → S → R → R
  | [], _, g => g
  | a :: as, s, g => records as (step a s) (note a s g)

/-- Every step of a run fits the state it is taken in. -/
def AllFit : List A → S → Prop
  | [], _ => True
  | a :: as, s => fits a s ∧ AllFit as (step a s)

/-- Some step of a run does something in the state it is taken in. -/
def Sometime (step : A → S → S) (did : A → S → Prop) : List A → S → Prop
  | [], _ => False
  | a :: as, s => did a s ∨ Sometime step did as (step a s)

variable {step note fits}

/-- **The run rule.** -/
theorem related_of_run {P : S → R → Prop}
    (hstep : ∀ a s g, P s g → fits a s → P (step a s) (note a s g)) {as : List A} {s : S} {g : R}
    (h : P s g) (hfit : AllFit step fits as s) :
    P (runs step as s) (records step note as s g) := by
  induction as generalizing s g with
  | nil => exact h
  | cons a as ih => exact ih (hstep a s g h hfit.1) hfit.2

/-- **The rule for what only certain steps bring about**: it holds after a run if it held before or one
of these steps was taken. -/
theorem holds_iff_sometime {P Q : S → Prop} {did : A → S → Prop}
    (hstep : ∀ a s, P s → fits a s → P (step a s) ∧ (Q (step a s) ↔ Q s ∨ did a s)) {as : List A}
    {s : S} (h : P s) (hfit : AllFit step fits as s) :
    Q (runs step as s) ↔ Q s ∨ Sometime step did as s := by
  induction as generalizing s with
  | nil => rw [runs, Sometime, or_false]
  | cons a as ih =>
    obtain ⟨hinv, hiff⟩ := hstep a s h hfit.1
    rw [runs, ih hinv hfit.2, hiff, Sometime, or_assoc]

/-- Steps that fit in one sense fit in a weaker one. -/
theorem AllFit.mono {fits' : A → S → Prop} (hsub : ∀ a s, fits a s → fits' a s) {as : List A}
    {s : S} (h : AllFit step fits as s) : AllFit step fits' as s := by
  induction as generalizing s with
  | nil => trivial
  | cons a as ih => exact ⟨hsub a s h.1, ih h.2⟩

/-- **The rule for two step functions**: they lead to one state when they agree on the steps that fit
a state with an invariant. -/
theorem runs_congr {step' : A → S → S} {fits' : A → S → Prop} {P : S → Prop}
    (hstep : ∀ a s, P s → fits a s → fits' a s ∧ step' a s = step a s ∧ P (step a s))
    {as : List A} {s : S} (h : P s) (hfit : AllFit step fits as s) :
    AllFit step' fits' as s ∧ runs step' as s = runs step as s := by
  induction as generalizing s with
  | nil => exact ⟨trivial, rfl⟩
  | cons a as ih =>
    obtain ⟨hfits, heq, hinv⟩ := hstep a s h hfit.1
    obtain ⟨hrest, hend⟩ := ih hinv hfit.2
    rw [runs, runs, AllFit, heq]
    exact ⟨⟨hfits, hrest⟩, hend⟩

/-! ### Leaving steps out -/

/-- A run without the steps that are skipped in the state they are taken in. -/
def kept (step : A → S → S) (skips : A → S → Bool) : List A → S → List A
  | [], _ => []
  | a :: as, s =>
    if skips a s then kept step skips as (step a s) else a :: kept step skips as (step a s)

/-- **The rule for two runs**, one of them without some steps.  They stay related when a step that is
skipped keeps the relation by itself, and a step that is not fits the other state as well and keeps
the relation when both runs take it. -/
theorem related_of_kept {skips : A → S → Bool} {P : S → R → S → R → Prop}
    (hskip : ∀ a s g s' g', P s g s' g' → fits a s → skips a s = true →
      P (step a s) (note a s g) s' g')
    (hkeep : ∀ a s g s' g', P s g s' g' → fits a s → skips a s = false →
      fits a s' ∧ P (step a s) (note a s g) (step a s') (note a s' g'))
    {as : List A} {s s' : S} {g g' : R} (h : P s g s' g') (hfit : AllFit step fits as s) :
    AllFit step fits (kept step skips as s) s' ∧
      P (runs step as s) (records step note as s g) (runs step (kept step skips as s) s')
        (records step note (kept step skips as s) s' g') := by
  induction as generalizing s s' g g' with
  | nil => exact ⟨trivial, h⟩
  | cons a as ih =>
    rw [kept]
    cases hs : skips a s with
    | true =>
      rw [if_pos rfl]
      exact ih (hskip a s g s' g' h hfit.1 hs) hfit.2
    | false =>
      obtain ⟨hfit', hrel⟩ := hkeep a s g s' g' h hfit.1 hs
      obtain ⟨hrest, hend⟩ := ih hrel hfit.2
      rw [if_neg Bool.false_ne_true]
      exact ⟨⟨hfit', hrest⟩, hend⟩

/-! ### Steps that stand for runs -/

theorem runs_append (as bs : List A) (s : S) :
    runs step (as ++ bs) s = runs step bs (runs step as s) := by
  induction as generalizing s with
  | nil => rfl
  | cons a as ih => exact ih _

theorem records_append (as bs : List A) (s : S) (g : R) :
    records step note (as ++ bs) s g =
      records step note bs (runs step as s) (records step note as s g) := by
  induction as generalizing s g with
  | nil => rfl
  | cons a as ih => exact ih _ _

theorem AllFit.append {as bs : List A} {s : S} (h : AllFit step fits as s)
    (h' : AllFit step fits bs (runs step as s)) : AllFit step fits (as ++ bs) s := by
  induction as generalizing s with
  | nil => exact h'
  | cons a as ih => exact ⟨h.1, ih h.2 h'⟩

/-- The run a run stands for, when each of its steps stands for some steps of another kind. -/
def standsFor {W : Type*} (work : W → S → S) (stands : W → S → List A) : List W → S → List A
  | [], _ => []
  | w :: ws, s => stands w s ++ standsFor work stands ws (work w s)

/-- **The rule for a run and the run it stands for.**  They stay related when a step keeps the
relation against the steps it stands for, and these fit. -/
theorem related_of_standsFor {W S' : Type*} {work : W → S' → S'} {workFits : W → S' → Prop}
    {stands : W → S' → List A} {P : S' → S → R → Prop}
    (hwork : ∀ w s' s g, P s' s g → workFits w s' → AllFit step fits (stands w s') s ∧
      P (work w s') (runs step (stands w s') s) (records step note (stands w s') s g))
    {ws : List W} {s' : S'} {s : S} {g : R} (h : P s' s g) (hfit : AllFit work workFits ws s') :
    AllFit step fits (standsFor work stands ws s') s ∧
      P (runs work ws s') (runs step (standsFor work stands ws s') s)
        (records step note (standsFor work stands ws s') s g) := by
  induction ws generalizing s' s g with
  | nil => exact ⟨trivial, h⟩
  | cons w ws ih =>
    obtain ⟨hsteps, hrel⟩ := hwork w s' s g h hfit.1
    obtain ⟨hrest, hend⟩ := ih hrel hfit.2
    rw [standsFor, runs_append, records_append]
    exact ⟨hsteps.append hrest, hend⟩

end Atools.Batch
