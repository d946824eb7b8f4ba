/-
  File:      HeliosLB/Controller/Idempotent.lean
  Subject:   A SECOND PASS CHANGES NOTHING.

  The second pass takes another way through the code: it finds fewer Services without an ingress,
  the finalizer in place, and a pool with the first pass's marks. Each ending of the first pass is
  a fixed point all the same.

  * `redraw` -- a failed draw fails again, with the same text, from the pool it left; also when it
    put the only address of a range back that others had taken;
  * `plan_fixed` -- the loop, run again on the Services it did not assign to;
  * `eligible_rest` -- these are the ones the filter returns after the pass;
  * `passPlan_again` -- so the plan of the second pass is the end of the first, with no writes;
  * **`reconcile_idempotent`** -- the pass as a whole.
-/
import HeliosLB.Controller.Plan

namespace HeliosLB

open Lib

/-! ## 1. The same draw twice -/

theorem allocateIP_of_offered {pool : IPAllocator} {r q ip : String}
    (h : offered pool r q = some ip) : allocateIP pool r q = (.ok ip, pool.markUsed ip) := by
  rcases allocateIP_cases pool r q with ⟨s, ho, ha⟩ | ⟨e, ho, _⟩
  · obtain rfl : ip = s := Option.some.inj (h.symm.trans ho)
    exact ha
  · rw [h] at ho
    cases ho

/-- The first draw of a dual-stack config, repeated after it was put back. -/
theorem allocateIP_again {others : List String} {pool : IPAllocator} {r q ip : String}
    (ho : ∀ x ∈ others, x ∈ pool.used) (h : offered pool r q = some ip) :
    allocateIP (others.foldl IPAllocator.markUsed ((pool.markUsed ip).releaseIP ip)) r q =
      (.ok ip, pool.markUsed ip) := by
  have hmark : (others.foldl IPAllocator.markUsed ((pool.markUsed ip).releaseIP ip)).markUsed ip =
      pool.markUsed ip := by
    refine IPAllocator.ext_used (by simp [IPAllocator.releaseIP]) fun x => ?_
    rw [IPAllocator.markUsed_used, Finset.mem_insert, IPAllocator.mem_foldl_markUsed,
      IPAllocator.releaseIP_used, Finset.mem_erase, IPAllocator.markUsed_used, Finset.mem_insert]
    have hx := ho x
    tauto
  by_cases hu : ip ∈ pool.used
  · obtain ⟨rfl, hr⟩ := offered_used h hu
    have hagain : offered (others.foldl IPAllocator.markUsed ((pool.markUsed ip).releaseIP ip)) r
        "" = some ip := by
      rw [offered_pool, IPAllocator.offer_single hr _ pool, ← offered_pool, h]
    rw [allocateIP_of_offered hagain, hmark]
  · have hback : (pool.markUsed ip).releaseIP ip = pool := by
      have hf : ∀ x ∈ [ip], x ∉ pool.used := fun x hx => by rwa [List.mem_singleton.mp hx]
      exact IPAllocator.release_mark hf
    rw [hback, IPAllocator.foldl_markUsed_of_subset ho]
    exact allocateIP_of_offered h

/-- **A failed draw fails again, from the pool it left.** -/
theorem redraw {others : List String} {hc : HeliosConfig} {svc : Service} {pool pool' : IPAllocator}
    {f : AllocFailure} (ho : ∀ x ∈ others, x ∈ pool.used)
    (h : drawAddresses hc svc [] pool = (.error f, pool')) :
    drawAddresses hc svc [] (others.foldl IPAllocator.markUsed pool') = (.error f, pool') := by
  have hnone : ∀ p : IPAllocator, markOthers hc p [] = p := fun _ => rfl
  unfold drawAddresses at h ⊢
  simp only [hnone] at h ⊢
  rcases allocateIP_cases pool hc.spec.ipRange (splitRequestedIP svc.spec.loadBalancerIP).1 with
    ⟨ip, hoff, ha⟩ | ⟨e, _, ha⟩
  · rw [ha] at h
    simp only at h
    by_cases h6 : hc.spec.ipv6Range = ""
    · rw [if_pos h6] at h
      cases h
    · rw [if_neg h6] at h
      rcases allocateIP_cases (pool.markUsed ip) hc.spec.ipv6Range
        (splitRequestedIP svc.spec.loadBalancerIP).2 with ⟨ipv6, _, ha6⟩ | ⟨e, _, ha6⟩
      · rw [ha6] at h
        cases h
      · rw [ha6] at h
        cases h
        rw [allocateIP_again ho hoff]
        simp only
        rw [if_neg h6, ha6]
  · rw [ha] at h
    cases h
    rw [IPAllocator.foldl_markUsed_of_subset ho, ha]

/-! ## 2. The same config twice -/

theorem setCondition_of_find {hc : HeliosConfig} {t : ConditionType} {st : ConditionStatus}
    {re : Reason} {m : String}
    (h : findStatusCondition hc.status.conditions t = some ⟨t, st, re, m, hc.generation⟩) :
    hc.setCondition t st re m = hc := by
  unfold HeliosConfig.setCondition
  rw [setStatusCondition_of_find h]

theorem conflictedConfig_idem (hc : HeliosConfig) (conflicts : StringMap) :
    conflictedConfig (conflictedConfig hc conflicts) conflicts = conflictedConfig hc conflicts := by
  refine setCondition_of_find ?_
  unfold conflictedConfig HeliosConfig.setCondition
  rw [findStatusCondition_set]
  exact if_pos rfl

theorem failedConfig_idem (hc : HeliosConfig) (f : AllocFailure) :
    failedConfig (failedConfig hc f) f = failedConfig hc f := by
  have hready : findStatusCondition (failedConfig hc f).status.conditions .ready =
      some ⟨.ready, .false, .ipAllocationError, f.message, hc.generation⟩ := by
    unfold failedConfig HeliosConfig.setCondition
    simp only
    rw [findStatusCondition_set, if_neg (by simp), findStatusCondition_set]
    exact if_pos rfl
  have hdeg : findStatusCondition (failedConfig hc f).status.conditions .degraded =
      some ⟨.degraded, .true, .ipAllocationError, f.message, hc.generation⟩ := by
    unfold failedConfig HeliosConfig.setCondition
    simp only
    rw [findStatusCondition_set]
    exact if_pos rfl
  show ((failedConfig hc f).setCondition .ready .false .ipAllocationError f.message).setCondition
    .degraded .true .ipAllocationError f.message = failedConfig hc f
  rw [setCondition_of_find hready, setCondition_of_find hdeg]

/-! ## 3. The same loop twice -/

/-- **The loop is at rest on what it left**: it assigned to the first Services, and run again on
    the others it writes nothing. -/
theorem plan_fixed (others : List String) (svcs : List Service) (hc : HeliosConfig)
    (pool : IPAllocator) : ∃ done rest, svcs = done ++ rest ∧
      (plan others svcs hc pool).assigned.map Service.key = done.map Service.key ∧
      plan others rest (plan others svcs hc pool).config (plan others svcs hc pool).pool =
        { plan others svcs hc pool with assigned := [] } := by
  refine plan_induct (P := fun svcs _ _ p => ∃ done rest, svcs = done ++ rest ∧
    p.assigned.map Service.key = done.map Service.key ∧
    plan others rest p.config p.pool = { p with assigned := [] }) ?_ ?_ ?_ ?_ svcs hc pool
  · exact fun _ _ => ⟨[], [], rfl, rfl, rfl⟩
  · intro svc rest hc pool hq
    obtain ⟨e, hq⟩ := Option.ne_none_iff_exists'.mp hq
    exact ⟨[], svc :: rest, rfl, rfl, plan_quota hq⟩
  · intro svc rest hc pool f pool' hq hd
    have hq' : checkQuota (failedConfig hc f) = none := hq
    have hspec : (failedConfig hc f).spec = hc.spec := rfl
    have hd' : drawAddresses (failedConfig hc f) svc []
        (others.foldl IPAllocator.markUsed pool') = (.error f, pool') := by
      rw [drawAddresses_congr hspec]
      exact redraw (fun x hx => IPAllocator.mem_foldl_markUsed.mpr (Or.inr hx)) hd
    refine ⟨[], svc :: rest, rfl, rfl, ?_⟩
    rw [plan_failed hq' hd', failedConfig_idem]
  · intro svc rest hc pool ip ipv6 pool' p _ _ _ ih
    obtain ⟨done, rest', rfl, hkeys, hfix⟩ := ih
    refine ⟨svc :: done, rest', rfl, ?_, hfix⟩
    show (written hc.key ip ipv6 svc :: p.assigned).map Service.key = _
    simp only [List.map_cons, hkeys, written_key]

/-- A Service with an ingress is not eligible. -/
theorem not_eligible_of_ingress {sel : List String} {r r6 : String} {svc : Service}
    (h : svc.ingress ≠ []) : eligible sel r [r6] svc = false := by
  rw [Bool.eq_false_iff]
  exact fun he => h (eligible_ingress he)

/-- **After the writes the filter returns the Services that were not assigned to.** -/
theorem eligible_rest {hc : HeliosConfig} {S : Store Service.key}
    {assigned done rest : List Service}
    (hi : ∀ s ∈ assigned, s.ingress ≠ [])
    (he : hc.eligibleServices S.objects = done ++ rest)
    (hk : assigned.map Service.key = done.map Service.key) :
    hc.eligibleServices (S.replaceAll assigned).objects = rest := by
  have hnd := (eligibleServices_stored hc S).2
  rw [he, List.map_append] at hnd
  have hdis := (List.nodup_append.mp hnd).2.2
  have hf := Store.filter_replaceAll (S := S)
    (p := eligible hc.spec.namespaceSelector hc.spec.ipRange [hc.spec.ipv6Range])
    fun s hs => not_eligible_of_ingress (hi s hs)
  unfold HeliosConfig.eligibleServices filterEligibleServices at he ⊢
  rw [hf, he, hk, List.filter_append]
  have hdone : done.filter (fun b => decide (b.key ∉ done.map Service.key)) = [] := by
    rw [List.filter_eq_nil_iff]
    intro s hs
    simpa using ⟨s, hs, rfl⟩
  have hrest : rest.filter (fun b => decide (b.key ∉ done.map Service.key)) = rest := by
    rw [List.filter_eq_self]
    intro s hs
    rw [decide_eq_true_eq]
    exact fun hm => hdis _ hm _ (List.mem_map_of_mem hs) rfl
  rw [hdone, hrest, List.nil_append]

/-! ## 4. The same pass twice -/

/-- **The plan of the second pass** is what the first ended with, and writes no Service. -/
theorem passPlan_again (hc : HeliosConfig) (w : World) :
    passPlan (passPlan hc w).config ((passPlan hc w).applyTo w) =
      { passPlan hc w with assigned := [] } := by
  obtain ⟨hkey, hspec, _, hfin⟩ := passPlan_config hc w
  have hready : readied (passPlan hc w).config = (passPlan hc w).config := readied_of_mem hfin
  have hconf : checkIPConflicts (passPlan hc w).config
      ((passPlan hc w).applyTo w).cluster.configs.objects =
        checkIPConflicts hc w.cluster.configs.objects := checkIPConflicts_replace hkey hspec
  have hoth : recordedByOthers (passPlan hc w).config
      ((passPlan hc w).applyTo w).cluster.configs.objects =
        recordedByOthers hc w.cluster.configs.objects := recordedByOthers_replace hkey
  rcases Nat.eq_zero_or_pos (StringMap.len (checkIPConflicts hc w.cluster.configs.objects)) with
    h | h
  · have hclean : StringMap.len (checkIPConflicts (passPlan hc w).config
        ((passPlan hc w).applyTo w).cluster.configs.objects) = 0 := by rw [hconf, h]
    rw [passPlan_clean hclean, hoth, hready, eligibleServices_congr hspec]
    rw [passPlan_clean h]
    obtain ⟨done, rest, hsplit, hkeys, hfix⟩ :=
      plan_fixed (recordedByOthers hc w.cluster.configs.objects)
        (hc.eligibleServices w.cluster.services.objects) (readied hc) w.pool
    have hrest := eligible_rest (S := w.cluster.services)
      (plan_assigned_ingress (hc.eligibleServices w.cluster.services.objects) (readied hc) w.pool)
      hsplit hkeys
    show plan _ (hc.eligibleServices (w.cluster.services.replaceAll _).objects) _ _ = _
    rw [hrest]
    exact hfix
  · have hagain : StringMap.len (checkIPConflicts (passPlan hc w).config
        ((passPlan hc w).applyTo w).cluster.configs.objects) > 0 := by rwa [hconf]
    rw [passPlan_conflict hagain, hconf, hready, passPlan_conflict h]
    simp only
    rw [conflictedConfig_idem]
    rfl

/-- **A pass without API failures is idempotent**: run twice in a row it gives the Services, the
    configs and the pool of the first run. -/
theorem reconcile_idempotent (retries : Nat) {req : NamespacedName} {w : World} {hc : HeliosConfig}
    (hf : w.cluster.configs.find req = some hc) (hd : hc.deleting = false) :
    (reconcile retries req (reconcile retries req w allOk).2 allOk).2 =
      (reconcile retries req w allOk).2 := by
  obtain ⟨hkey, _, hdel, _⟩ := passPlan_config hc w
  have hreq : hc.key = req := (Store.find_eq_some.mp hf).2
  have hf' : ((passPlan hc w).applyTo w).cluster.configs.find req = some (passPlan hc w).config :=
    Store.find_replace hf (hkey.trans hreq)
  have hconfigs : (w.cluster.configs.replace (passPlan hc w).config).replace
      (passPlan hc w).config = w.cluster.configs.replace (passPlan hc w).config :=
    Store.replace_replace rfl
  rw [(reconcile_plan retries hf hd).1, (reconcile_plan retries hf' (hdel.trans hd)).1,
    passPlan_again, Plan.applyTo_applyTo]
  show World.mk ⟨w.cluster.services.replaceAll (passPlan hc w).assigned,
    (w.cluster.configs.replace (passPlan hc w).config).replace (passPlan hc w).config⟩
    (passPlan hc w).pool = _
  rw [hconfigs]
  rfl

/-- A dual-stack pass that assigns to one Service and fails at the next: the second pass finds one
    Service less, draws and puts back the same address, and fails with the same text. -/
theorem reconcile_idempotent_after_failure :
    let web : Service := { key := ⟨"shop", "web"⟩, spec := { type := .loadBalancer } }
    let db : Service := { key := ⟨"shop", "db"⟩, spec := { type := .loadBalancer } }
    let a : HeliosConfig :=
      { key := ⟨"default", "a"⟩
        spec := { ipRange := "10.0.0.1-10.0.0.3", ipv6Range := "fd00::1-fd00::2" } }
    let w : World := ⟨⟨.ofList [web, db], .ofList [a]⟩, newIPAllocator.markUsed "fd00::2"⟩
    let once := (reconcile 4 a.key w allOk).2
    once.cluster.services.objects.map Service.ingress = [["10.0.0.1", "fd00::1"], []] ∧
      (reconcile 4 a.key once allOk).2 = once := by
  intro web db a w once
  have hf : w.cluster.configs.find a.key = some a := Store.find_key List.mem_cons_self
  exact ⟨by decide, reconcile_idempotent 4 hf rfl⟩

end HeliosLB
