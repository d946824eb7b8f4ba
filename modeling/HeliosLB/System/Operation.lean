/-
  File:      HeliosLB/System/Operation.lean
  Subject:   THE CONTROLLER IN OPERATION: the steps of Steps.lean, and what users do to configs and
             to the process.

  A config is created without a status, its spec is edited, its finalizers are edited, its deletion
  is requested (it goes at once if nothing holds it), and the controller is restarted: the pool of
  the new process is empty, everything stored stays.

  * `Action`, `World.act` -- one action and what it does;
  * **`act_forall_configs`** -- the rule for what holds of every stored config in operation: it
    holds of a new one, and edits and rewrites keep it.
-/
import HeliosLB.Controller.Rewrites
import HeliosLB.System.Cleanup

namespace HeliosLB

open Lib

/-- One action on the system. -/
inductive Action where
  | step (a : Step)
  | createConfig (hc : HeliosConfig)
  | editSpec (k : NamespacedName) (spec : HeliosConfigSpec)
  | editFinalizers (k : NamespacedName) (finalizers : List String)
  | deleteConfig (k : NamespacedName)
  | restart

/-- A config as it is created: the API server drops a status that comes with it. -/
def HeliosConfig.created (hc : HeliosConfig) : HeliosConfig :=
  { hc with status := {}, generation := 1, deleting := false }

/-- A user writes over a stored config; one that is being deleted goes with its last finalizer. -/
def Cluster.editConfig (c : Cluster) (k : NamespacedName) (f : HeliosConfig → HeliosConfig) :
    Cluster :=
  match c.configs.find k with
  | none => c
  | some hc =>
    if (f hc).deleting ∧ (f hc).finalizers = [] then { c with configs := c.configs.delete k }
    else { c with configs := c.configs.replace (f hc) }

/-- The edit of a spec counts the generation up. -/
def HeliosConfig.withSpec (hc : HeliosConfig) (spec : HeliosConfigSpec) : HeliosConfig :=
  { hc with spec, generation := hc.generation + 1 }

def HeliosConfig.withFinalizers (hc : HeliosConfig) (finalizers : List String) : HeliosConfig :=
  { hc with finalizers }

/-- The world after an action. -/
def World.act (retries : Nat) (w : World) : Action → World
  | .step a => w.step retries a
  | .createConfig hc =>
    { w with cluster := { w.cluster with configs := w.cluster.configs.create hc.created } }
  | .editSpec k spec => { w with cluster := w.cluster.editConfig k fun hc => hc.withSpec spec }
  | .editFinalizers k fs =>
    { w with cluster := w.cluster.editConfig k fun hc => hc.withFinalizers fs }
  | .deleteConfig k => { w with cluster := w.cluster.editConfig k HeliosConfig.beingDeleted }
  | .restart => { w with pool := newIPAllocator }

@[simp] theorem Cluster.editConfig_services (c : Cluster) (k : NamespacedName)
    (f : HeliosConfig → HeliosConfig) : (c.editConfig k f).services = c.services := by
  unfold editConfig
  split
  · rfl
  · split <;> rfl

theorem Cluster.mem_editConfig {c : Cluster} {k : NamespacedName} {f : HeliosConfig → HeliosConfig}
    {hc : HeliosConfig} (h : hc ∈ (c.editConfig k f).configs) :
    hc ∈ c.configs ∨ ∃ old ∈ c.configs, old.key = k ∧ hc = f old := by
  unfold editConfig at h
  split at h
  · exact .inl h
  · rename_i old hf
    split at h
    · exact .inl (Store.mem_delete.mp h).1
    · rcases Store.mem_replace.mp h with ⟨rfl, -⟩ | ⟨hm, -⟩
      · exact .inr ⟨old, (Store.find_eq_some.mp hf).1, (Store.find_eq_some.mp hf).2, rfl⟩
      · exact .inl hm

theorem forall_editConfig {P : HeliosConfig → Prop} {c : Cluster} {k : NamespacedName}
    {f : HeliosConfig → HeliosConfig} (hf : ∀ hc ∈ c.configs, hc.key = k → P hc → P (f hc))
    (h : ∀ hc ∈ c.configs, P hc) : ∀ hc ∈ (c.editConfig k f).configs, P hc := by
  intro hc hm
  rcases Cluster.mem_editConfig hm with hm | ⟨old, hold, hk, rfl⟩
  · exact h hc hm
  · exact hf old hold hk (h old hold)

/-- **What holds of every stored config in operation**: it holds of new ones, edits keep it, and
    so does every rewrite of a pass. -/
theorem act_forall_configs {P : HeliosConfig → Prop} (retries : Nat) (w : World) (a : Action)
    (hnew : ∀ hc : HeliosConfig, P hc.created)
    (hspec : ∀ (hc : HeliosConfig) (spec : HeliosConfigSpec), P hc → P (hc.withSpec spec))
    (hfin : ∀ hc ∈ w.cluster.configs, ∀ fs, a = .editFinalizers hc.key fs → P hc →
      P (hc.withFinalizers fs))
    (hdel : ∀ hc : HeliosConfig, P hc → P hc.beingDeleted)
    (hrew : ∀ hc hc', P hc → Rewrite hc hc' → P hc') (h : ∀ hc ∈ w.cluster.configs, P hc) :
    ∀ hc ∈ (w.act retries a).cluster.configs, P hc := by
  cases a with
  | step a =>
      rcases a.pass_or_outside with ⟨req, r, rfl⟩ | ho
      · exact (reconcile_evolves retries req w r).forall_configs hrew h
      · intro hc hm
        have hcfg := (World.step_outside retries w ho).2.2
        exact h hc (hcfg ▸ hm)
  | createConfig hc =>
      intro hc' hm
      rcases Store.mem_create hm with hm | rfl
      · exact h hc' hm
      · exact hnew hc
  | editSpec k spec => exact forall_editConfig (fun hc _ _ => hspec hc spec) h
  | editFinalizers k fs =>
      exact forall_editConfig (fun hc hm hk => hfin hc hm fs (hk ▸ rfl)) h
  | deleteConfig k => exact forall_editConfig (fun hc _ _ => hdel hc) h
  | restart => exact h

end HeliosLB
