/-
  File:      HeliosLB/Lib/Runs.lean
  Subject:   RUNS OF A STEP FUNCTION. Nothing here names a program.

  A run is a list of labels; the state after it is the left fold of the step function. All
  freedom of a system (which reply a call gets, which version a read returns, who moves) sits in
  the labels, so a statement about every run is a statement about every list.

  * `run` -- the state after a list of labels;
  * `Along` -- every label of the list meets a condition at the state it is taken in; decidable
    if the condition is, so that a concrete run can be checked; `along_congr` exchanges it,
    `along_append` cuts the list, `along_of_forall_mem` is for one that reads the label only;
  * `run_inv` -- what one admitted step keeps, every admitted run keeps; `along_length_le` -- what
    every admitted step lowers bounds the length of a run;
  * `outputs` -- what the steps of a run put out, and `outputs_filter`: if a relation between two
    systems is kept by a step of both and by a step only one of them takes, the outputs of a run
    are those of the run that leaves these steps out;
  * `run_count` -- a counter that every step counts up by what it puts out; `outputs_length_le` --
    what a run can put out if every step pays for it;
  * `run_rel` -- a relation that one step of both systems keeps, runs keep, and if related states
    put out the same, so do the runs.
-/
import Mathlib.Data.List.Basic

namespace Lib

variable {σ α : Type*} (step : σ → α → σ)

/-- The state after the labels, taken from left to right. -/
def run (s : σ) (as : List α) : σ := as.foldl step s

/-- **Every label meets `ok` at the state it is taken in.** -/
def Along (ok : σ → α → Prop) : σ → List α → Prop
  | _, [] => True
  | s, a :: as => ok s a ∧ Along ok (step s a) as

@[simp] theorem run_nil (s : σ) : run step s [] = s := rfl

@[simp] theorem run_cons (s : σ) (a : α) (as : List α) :
    run step s (a :: as) = run step (step s a) as := rfl

theorem run_append (s : σ) (as bs : List α) :
    run step s (as ++ bs) = run step (run step s as) bs := List.foldl_append

instance decidableAlong (ok : σ → α → Prop) [∀ s a, Decidable (ok s a)] :
    ∀ (s : σ) (as : List α), Decidable (Along step ok s as)
  | _, [] => .isTrue trivial
  | s, a :: as =>
    have := decidableAlong ok (step s a) as
    inferInstanceAs (Decidable (ok s a ∧ Along step ok (step s a) as))

theorem along_append (ok : σ → α → Prop) (s : σ) (as bs : List α) :
    Along step ok s (as ++ bs) ↔ Along step ok s as ∧ Along step ok (run step s as) bs := by
  induction as generalizing s with
  | nil => exact ⟨fun h => ⟨trivial, h⟩, And.right⟩
  | cons a as ih => exact (and_congr_right fun _ => ih (step s a)).trans and_assoc.symm

/-- A condition on the labels alone. -/
theorem along_of_forall_mem {ok : α → Prop} {as : List α} (h : ∀ a ∈ as, ok a) (s : σ) :
    Along step (fun _ a => ok a) s as := by
  induction as generalizing s with
  | nil => trivial
  | cons a as ih =>
      obtain ⟨ha, has⟩ := List.forall_mem_cons.mp h
      exact ⟨ha, ih has (step s a)⟩

theorem along_congr {ok ok' : σ → α → Prop} (h : ∀ s a, ok s a ↔ ok' s a) (s : σ)
    (as : List α) : Along step ok s as ↔ Along step ok' s as := by
  induction as generalizing s with
  | nil => exact Iff.rfl
  | cons a as ih => exact and_congr (h s a) (ih (step s a))

/-- **The invariant rule**: an admitted step keeps `Inv`, so every admitted run keeps it. -/
theorem run_inv {Inv : σ → Prop} {ok : σ → α → Prop}
    (hstep : ∀ s a, Inv s → ok s a → Inv (step s a)) {as : List α} {s : σ} (hs : Inv s)
    (h : Along step ok s as) : Inv (run step s as) := by
  induction as generalizing s with
  | nil => exact hs
  | cons a as ih => exact ih (hstep s a hs h.1) h.2

/-- The same where every step is admitted. -/
theorem run_inv_always {Inv : σ → Prop} (hstep : ∀ s a, Inv s → Inv (step s a)) {s : σ}
    (hs : Inv s) (as : List α) : Inv (run step s as) := by
  induction as generalizing s with
  | nil => exact hs
  | cons a as ih => exact ih (hstep s a hs)

/-- **The measure rule**: if every admitted step lowers `μ`, an admitted run is at most `μ` long. -/
theorem along_length_le {Inv : σ → Prop} {ok : σ → α → Prop} {μ : σ → Nat}
    (hstep : ∀ s a, Inv s → ok s a → Inv (step s a) ∧ μ (step s a) < μ s) {as : List α} {s : σ}
    (hs : Inv s) (h : Along step ok s as) : as.length ≤ μ s := by
  induction as generalizing s with
  | nil => exact Nat.zero_le _
  | cons a as ih =>
      obtain ⟨hinv, hlt⟩ := hstep s a hs h.1
      exact Nat.succ_le_of_lt (Nat.lt_of_le_of_lt (ih hinv h.2) hlt)

/-- What the steps of a run put out, in order. -/
def outputs {β : Type*} (out : σ → α → List β) : σ → List α → List β
  | _, [] => []
  | s, a :: as => out s a ++ outputs out (step s a) as

/-- **Leaving out steps that are not seen.** `R` relates the system that takes every step to the one
    that takes the kept ones only. -/
theorem outputs_filter {β : Type*} {out : σ → α → List β} {R : σ → σ → Prop} {keep : α → Bool}
    (hskip : ∀ s t a, R s t → keep a = false → R (step s a) t ∧ out s a = [])
    (hkeep : ∀ s t a, R s t → keep a = true → R (step s a) (step t a) ∧ out s a = out t a)
    {s t : σ} (h : R s t) (as : List α) :
    outputs step out s as = outputs step out t (as.filter keep) := by
  induction as generalizing s t with
  | nil => rfl
  | cons a as ih =>
      cases ha : keep a with
      | false =>
          obtain ⟨hr, ho⟩ := hskip s t a h ha
          rw [List.filter_cons_of_neg (by rw [ha]; exact Bool.false_ne_true), outputs, ho]
          exact ih hr
      | true =>
          obtain ⟨hr, ho⟩ := hkeep s t a h ha
          rw [List.filter_cons_of_pos ha, outputs, outputs, ho, ih hr]

/-- **The counting rule**: what every admitted step counts up by its outputs, a run counts up by
    all of them. -/
theorem run_count {β : Type*} [BEq β] {ok : σ → α → Prop} (μ : σ → Nat)
    {out : σ → α → List β} {b : β}
    (hstep : ∀ s a, ok s a → μ (step s a) = μ s + (out s a).count b) {as : List α} {s : σ}
    (h : Along step ok s as) : μ (run step s as) = μ s + (outputs step out s as).count b := by
  induction as generalizing s with
  | nil => rfl
  | cons a as ih =>
      rw [run_cons, ih h.2, hstep s a h.1, outputs, List.count_append, Nat.add_assoc]

/-- **The budget rule**: if what an admitted step puts out is paid from `μ`, and only steps that
    `gain` raise it, by one, a run puts out no more than `μ` and its gains. -/
theorem outputs_length_le {β : Type*} {ok : σ → α → Prop} (μ : σ → Nat)
    {out : σ → α → List β} {gain : α → Bool}
    (hstep : ∀ s a, ok s a →
      (out s a).length + μ (step s a) ≤ μ s + (if gain a then 1 else 0))
    {as : List α} {s : σ} (h : Along step ok s as) :
    (outputs step out s as).length + μ (run step s as) ≤ μ s + as.countP gain := by
  induction as generalizing s with
  | nil => exact Nat.le_of_eq (Nat.zero_add _)
  | cons a as ih =>
      have hpay := hstep s a h.1
      have hrest := ih h.2
      rw [outputs, List.length_append, run_cons, List.countP_cons]
      omega

/-- **The simulation rule**, for two systems that take the same labels. -/
theorem run_rel {τ β : Type*} {step' : τ → α → τ} {R : σ → τ → Prop} {out : σ → α → List β}
    {out' : τ → α → List β}
    (hstep : ∀ s t a, R s t → R (step s a) (step' t a) ∧ out s a = out' t a) {s : σ} {t : τ}
    (h : R s t) (as : List α) :
    R (run step s as) (run step' t as) ∧ outputs step out s as = outputs step' out' t as := by
  induction as generalizing s t with
  | nil => exact ⟨h, rfl⟩
  | cons a as ih =>
      obtain ⟨hr, ho⟩ := hstep s t a h
      obtain ⟨hrun, hout⟩ := ih hr
      exact ⟨hrun, by rw [outputs, outputs, ho, hout]⟩

end Lib
