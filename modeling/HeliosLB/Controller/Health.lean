/-
  File:      HeliosLB/Controller/Health.lean
  Subject:   WHAT THE STATUS SAYS AFTER A PASS, and after a run of passes.

  A conflict sets `Degraded=True`, a failed draw that and the phase `Failed`. Both are written over
  at one place only: where an address was assigned. A pass that finds no conflict and no Service to
  serve, or the quota reached, stores the status it found.

  * `HeliosConfig.Healthy` -- neither `Degraded=True` nor the phase `Failed`;
  * `plan_healthy_iff`, `passPlan_healthy_iff` -- the loop, and the pass around it;
  * **`pass_healthy_iff`** -- a pass without trouble, from any world;
  * **`health_is_last_verdict`** -- any run of passes and changes: the stored status tells of the
    last pass that met trouble or served a Service, and of the start if there was none;
  * `degraded_after_conflict_is_gone` -- the conflict is gone, the condition stays.
-/
import HeliosLB.Controller.Plan
import HeliosLB.Lib.Runs

namespace HeliosLB

open Lib

/-! ## 1. Healthy configs -/

/-- The status reports no trouble: no `Degraded=True`, and the phase is not `Failed`. -/
def HeliosConfig.Healthy (hc : HeliosConfig) : Prop :=
  (findStatusCondition hc.status.conditions .degraded).map Condition.status ≠ some .true ∧
    hc.status.phase ≠ .failed

instance (hc : HeliosConfig) : Decidable hc.Healthy := inferInstanceAs (Decidable (_ ∧ _))

/-- The status of a condition just set. -/
theorem status_setCondition (hc : HeliosConfig) (t : ConditionType) (status : ConditionStatus)
    (reason : Reason) (message : String) :
    (findStatusCondition (hc.setCondition t status reason message).status.conditions t).map
      Condition.status = some status := by
  unfold HeliosConfig.setCondition
  simp only
  rw [findStatusCondition_set, if_pos rfl, Option.map_some]

theorem servedConfig_healthy (hc : HeliosConfig) (svc : Service) (ip ipv6 : String) :
    (servedConfig hc svc ip ipv6).Healthy := by
  refine ⟨?_, by simp [servedConfig, HeliosConfig.setCondition]⟩
  rw [servedConfig, status_setCondition]
  simp

theorem not_failedConfig_healthy (hc : HeliosConfig) (f : AllocFailure) :
    ¬ (failedConfig hc f).Healthy :=
  fun h => h.2 rfl

theorem not_conflictedConfig_healthy (hc : HeliosConfig) (conflicts : StringMap) :
    ¬ (conflictedConfig hc conflicts).Healthy :=
  fun h => h.1 (status_setCondition _ _ _ _ _)

/-- The finalizer step writes the condition `Ready` only. -/
theorem readied_healthy_iff (hc : HeliosConfig) : (readied hc).Healthy ↔ hc.Healthy := by
  unfold readied
  split
  · rfl
  · unfold HeliosConfig.Healthy HeliosConfig.setCondition addFinalizer
    simp only
    rw [findStatusCondition_set, if_neg (by simp)]

/-! ## 2. The loop and the pass -/

/-- **The loop** ends healthy if no draw failed and it started so or served a Service. -/
theorem plan_healthy_iff {others : List String} (svcs : List Service) (hc : HeliosConfig)
    (pool : IPAllocator) :
    (plan others svcs hc pool).config.Healthy ↔
      (plan others svcs hc pool).failure = none ∧
        (hc.Healthy ∨ (svcs ≠ [] ∧ checkQuota hc = none)) := by
  refine plan_induct (P := fun svcs hc _ p => p.config.Healthy ↔
    p.failure = none ∧ (hc.Healthy ∨ (svcs ≠ [] ∧ checkQuota hc = none))) ?_ ?_ ?_ ?_ svcs hc pool
  · intro hc _
    simp
  · intro _ _ hc _ hq
    simp [hq]
  · intro _ _ hc _ f _ _ _
    exact iff_of_false (not_failedConfig_healthy hc f) fun h => nomatch h.1
  · intro svc rest hc pool ip ipv6 pool' p hq _ _ ih
    have hstart : (servedConfig hc svc ip ipv6).Healthy := servedConfig_healthy hc svc ip ipv6
    refine ih.trans (and_congr_right fun _ => iff_of_true (Or.inl hstart) (Or.inr ⟨?_, hq⟩))
    exact List.cons_ne_nil svc rest

/-- **The pass** ends healthy if it met no conflict and no failed draw, and started so or served a
    Service. -/
theorem passPlan_healthy_iff (hc : HeliosConfig) (w : World) :
    (passPlan hc w).config.Healthy ↔
      StringMap.len (checkIPConflicts hc w.cluster.configs.objects) = 0 ∧
        (passPlan hc w).failure = none ∧
        (hc.Healthy ∨
          (hc.eligibleServices w.cluster.services.objects ≠ [] ∧ checkQuota hc = none)) := by
  rcases passPlan_cases hc w with ⟨hconf, e⟩ | ⟨hconf, e⟩
  · rw [e, plan_healthy_iff, readied_healthy_iff, readied_checkQuota]
    exact (and_iff_right hconf).symm
  · rw [e]
    exact iff_of_false (not_conflictedConfig_healthy _ _) fun h => hconf.ne' h.1

/-- What a pass leaves under the config's key. -/
theorem reconcile_find_plan (retries : Nat) {req : NamespacedName} {w : World} {hc : HeliosConfig}
    (hf : w.cluster.configs.find req = some hc) (hd : hc.deleting = false) :
    (reconcile retries req w allOk).2.cluster.configs.find req = some (passPlan hc w).config := by
  rw [(reconcile_plan retries hf hd).1]
  exact Store.find_replace hf ((passPlan_config hc w).1.trans (Store.find_eq_some.mp hf).2)

/-- **After a pass without a conflict and without a failed allocation the stored status is healthy
    exactly if it was before, or there was a Service to serve and the quota left room for it.** -/
theorem pass_healthy_iff (retries : Nat) {req : NamespacedName} {w : World} {hc : HeliosConfig}
    (hf : w.cluster.configs.find req = some hc) (hd : hc.deleting = false)
    (hconf : StringMap.len (checkIPConflicts hc w.cluster.configs.objects) = 0)
    (hfail : (reconcile retries req w allOk).1.failure = none) :
    (∀ hc', (reconcile retries req w allOk).2.cluster.configs.find req = some hc' → hc'.Healthy) ↔
      hc.Healthy ∨
        (hc.eligibleServices w.cluster.services.objects ≠ [] ∧ checkQuota hc = none) := by
  rw [(reconcile_plan retries hf hd).2] at hfail
  rw [reconcile_find_plan retries hf hd]
  simp only [Option.some.injEq, forall_eq', passPlan_healthy_iff, hconf, hfail, true_and]

/-- A failed config that serves a Service again is healthy. -/
theorem pass_healthy_after_recovery :
    let web : Service := { key := ⟨"shop", "web"⟩, spec := { type := .loadBalancer } }
    let a : HeliosConfig :=
      { key := ⟨"default", "a"⟩
        spec := { ipRange := "10.0.0.1-10.0.0.3" }
        status := { phase := .failed } }
    let w : World := ⟨⟨.ofList [web], .ofList [a]⟩, newIPAllocator⟩
    ¬ a.Healthy ∧ ∀ hc', (reconcile 4 a.key w allOk).2.cluster.configs.find a.key = some hc' →
      hc'.Healthy := by
  intro web a w
  have hf : w.cluster.configs.find a.key = some a := Store.find_key List.mem_cons_self
  have hiff := pass_healthy_iff 4 hf rfl (by decide) (by decide)
  exact ⟨by decide, hiff.mpr (Or.inr ⟨by decide, by decide⟩)⟩

/-- **The condition outlives the conflict.** `a` is degraded because `b` records an address of its
    range; `b` is deleted, the next pass over `a` finds nothing wrong, and `Degraded=True` stays. -/
theorem degraded_after_conflict_is_gone :
    let a : HeliosConfig := { key := ⟨"default", "a"⟩, spec := { ipRange := "10.0.0.1-10.0.0.3" } }
    let b : HeliosConfig :=
      { key := ⟨"default", "b"⟩
        spec := { ipRange := "10.0.0.2-10.0.0.9" }
        status := { allocatedIPs := (∅ : StringMap).insert "db" "10.0.0.2" } }
    let w : World := ⟨⟨.ofList [], .ofList [a, b]⟩, newIPAllocator⟩
    let w₁ := (reconcile 4 a.key w allOk).2
    let w₂ : World := { w₁ with cluster.configs := w₁.cluster.configs.delete b.key }
    let out := reconcile 4 a.key w₂ allOk
    (w₂.cluster.configs.find a.key).map (fun hc =>
        StringMap.len (checkIPConflicts hc w₂.cluster.configs.objects)) = some 0 ∧
      out.1.failure = none ∧
      (out.2.cluster.configs.find a.key).map (fun hc => (hc.status.conditions.map fun c =>
        (c.type, c.status, c.reason), decide hc.Healthy)) =
        some ([(.ready, .false, .initializing), (.degraded, .true, .ipConflict)], false) := by
  decide

/-! ## 3. Runs -/

/-- A pass over the config in which every call succeeds, or a change of the world around it. -/
inductive Episode where
  | pass
  | change (w : World)

/-- A change leaves the status to the controller and does not ask for the deletion of the config.
    Services, the other configs, the pool and the config's own spec may become anything. -/
def Episode.Leaves (req : NamespacedName) (w : World) : Episode → Prop
  | .pass => True
  | .change w' => ∀ hc, w.cluster.configs.find req = some hc →
      ∃ hc', w'.cluster.configs.find req = some hc' ∧ hc'.status = hc.status ∧ hc'.deleting = false

section Runs

variable (retries : Nat) (req : NamespacedName)

def World.episode (w : World) : Episode → World
  | .pass => (reconcile retries req w allOk).2
  | .change w' => w'

/-- What an episode says about the config: that there is trouble, if a pass finds a conflict or an
    allocation fails; that there is none, if it serves a Service; otherwise nothing. -/
def World.verdict (w : World) : Episode → List Bool
  | .change _ => []
  | .pass =>
    match w.cluster.configs.find req with
    | none => []
    | some hc =>
      if StringMap.len (checkIPConflicts hc w.cluster.configs.objects) > 0 ∨
        (reconcile retries req w allOk).1.failure ≠ none then [false]
      else if hc.eligibleServices w.cluster.services.objects ≠ [] ∧ checkQuota hc = none then [true]
      else []

variable {retries req} {w : World} {hc : HeliosConfig}

theorem episode_healthy (hf : w.cluster.configs.find req = some hc) (hd : hc.deleting = false)
    {e : Episode} (h : e.Leaves req w) :
    ∃ hc', (w.episode retries req e).cluster.configs.find req = some hc' ∧ hc'.deleting = false ∧
      decide hc'.Healthy = ((w.verdict retries req e).getLast?.getD (decide hc.Healthy)) := by
  cases e with
  | change w' =>
      obtain ⟨hc', hf', hst, hd'⟩ := h hc hf
      refine ⟨hc', hf', hd', ?_⟩
      have hiff : hc'.Healthy ↔ hc.Healthy := by
        rw [HeliosConfig.Healthy, hst, HeliosConfig.Healthy]
      exact decide_eq_decide.mpr hiff
  | pass =>
      refine ⟨_, reconcile_find_plan retries hf hd, (passPlan_config hc w).2.2.1.trans hd, ?_⟩
      have hiff := passPlan_healthy_iff hc w
      rw [← (reconcile_plan retries hf hd).2] at hiff
      simp only [World.verdict, hf]
      split
      · rename_i hbad
        refine decide_eq_false fun hh => ?_
        obtain ⟨hconf, hfail, -⟩ := hiff.mp hh
        exact hbad.elim (fun hlt => hlt.ne' hconf) fun hne => hne hfail
      · rename_i hgood
        rw [not_or, not_not, Nat.not_lt, Nat.le_zero] at hgood
        split
        · rename_i hserve
          exact decide_eq_true (hiff.mpr ⟨hgood.1, hgood.2, Or.inr hserve⟩)
        · rename_i hserve
          refine decide_eq_decide.mpr (hiff.trans ?_)
          simp only [hgood, hserve, true_and, or_false]

/-- **The stored status tells of the last pass that met trouble or served a Service.** -/
theorem health_is_last_verdict {episodes : List Episode}
    (hf : w.cluster.configs.find req = some hc) (hd : hc.deleting = false)
    (h : Along (World.episode retries req) (Episode.Leaves req) w episodes) :
    ∃ hc', (run (World.episode retries req) w episodes).cluster.configs.find req = some hc' ∧
      (hc'.Healthy ↔ (outputs (World.episode retries req) (World.verdict retries req) w
        episodes).getLast?.getD (decide hc.Healthy) = true) := by
  induction episodes generalizing w hc with
  | nil => exact ⟨hc, hf, decide_eq_true_iff.symm⟩
  | cons e es ih =>
      obtain ⟨hc₁, hf₁, hd₁, he⟩ := @episode_healthy retries req w hc hf hd e h.1
      obtain ⟨hc', hf', hiff⟩ := ih hf₁ hd₁ h.2
      refine ⟨hc', hf', hiff.trans ?_⟩
      rw [he, outputs, List.getLast?_append, Option.getD_or]

end Runs

end HeliosLB
