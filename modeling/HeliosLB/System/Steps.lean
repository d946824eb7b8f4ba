/-
  File:      HeliosLB/System/Steps.lean
  Subject:   RUNS OF THE CONTROLLER in a cluster that others change too.

  A step is a whole pass over one config, or a change somebody else makes. Passes of one
  controller do not overlap: it has one worker. Which API call fails, and how, is part of the
  step.

  * `Step`, `World.step` -- the steps and what they do;
  * `Cluster.setIngress` -- another controller writes the ingress of a Service;
  * `World.step_outside` -- what the steps of the others leave alone.
-/
import HeliosLB.Controller.ReconcileSpec
import HeliosLB.Lib.Runs

namespace HeliosLB

open Lib

/-- One step of a run. -/
inductive Step where
  | pass (req : NamespacedName) (r : PassReplies)
  | createService (svc : Service)
  | deleteService (k : NamespacedName)
  | setIngress (k : NamespacedName) (ingress : List String)

/-- A writer other than this controller sets the ingress of a Service. -/
def Cluster.setIngress (c : Cluster) (k : NamespacedName) (ingress : List String) : Cluster :=
  match c.services.find k with
  | none => c
  | some svc => { c with services := c.services.replace { svc with ingress, writer := none } }

/-- The Service without an ingress, as it is created or after it was cleared. -/
def Service.cleared (svc : Service) : Service := { svc with ingress := [], writer := none }

theorem Service.cleared_eq_self {svc : Service} (hi : svc.ingress = []) (hw : svc.writer = none) :
    svc.cleared = svc := by
  obtain ⟨k, a, sp, i, wr⟩ := svc
  obtain rfl : i = [] := hi
  obtain rfl : wr = none := hw
  rfl

/-- The world after a step; `retries` is how often an assignment is retried on a conflict. -/
def World.step (retries : Nat) (w : World) : Step → World
  | .pass req r => (reconcile retries req w r).2
  | .createService svc =>
    { w with cluster := { w.cluster with services := w.cluster.services.create svc.cleared } }
  | .deleteService k =>
    { w with cluster := { w.cluster with services := w.cluster.services.delete k } }
  | .setIngress k ingress => { w with cluster := w.cluster.setIngress k ingress }

theorem Cluster.mem_setIngress {c : Cluster} {k : NamespacedName} {ingress : List String}
    {s : Service} (h : s ∈ (c.setIngress k ingress).services) :
    s ∈ c.services ∨ (s.key = k ∧ s.ingress = ingress ∧ s.writer = none) := by
  unfold setIngress at h
  cases hf : c.services.find k with
  | none =>
      rw [hf] at h
      exact Or.inl h
  | some svc =>
      rw [hf] at h
      rcases Store.mem_replace.mp h with ⟨rfl, _⟩ | ⟨hs, _⟩
      · exact Or.inr ⟨(Store.find_eq_some.mp hf).2, rfl, rfl⟩
      · exact Or.inl hs

@[simp] theorem Cluster.setIngress_configs (c : Cluster) (k : NamespacedName)
    (ingress : List String) : (c.setIngress k ingress).configs = c.configs := by
  unfold setIngress
  split <;> rfl

/-- The step is somebody else's. -/
def Step.outside : Step → Bool
  | .pass _ _ => false
  | _ => true

theorem Step.pass_or_outside (a : Step) : (∃ req r, a = .pass req r) ∨ a.outside = true := by
  cases a with
  | pass req r => exact Or.inl ⟨req, r, rfl⟩
  | _ => exact Or.inr rfl

/-- **Nobody else writes an ingress in the controller's name**, and nobody else touches the pool
    or the configs. -/
theorem World.step_outside (retries : Nat) (w : World) {a : Step} (h : a.outside = true) :
    (∀ s ∈ (w.step retries a).cluster.services, s.writer ≠ none → s ∈ w.cluster.services) ∧
      (w.step retries a).pool = w.pool ∧
      (w.step retries a).cluster.configs = w.cluster.configs := by
  cases a with
  | pass req r => cases h
  | createService svc =>
      refine ⟨fun s hs hw => ?_, rfl, rfl⟩
      rcases Store.mem_create hs with hs | rfl
      · exact hs
      · exact absurd rfl hw
  | deleteService k => exact ⟨fun s hs _ => (Store.mem_delete.mp hs).1, rfl, rfl⟩
  | setIngress k ingress =>
      refine ⟨fun s hs hw => ?_, rfl, w.cluster.setIngress_configs k ingress⟩
      rcases Cluster.mem_setIngress hs with hs | ⟨_, _, hn⟩
      · exact hs
      · exact absurd hn hw

end HeliosLB
