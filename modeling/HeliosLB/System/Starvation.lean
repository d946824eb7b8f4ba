/-
  File:      HeliosLB/System/Starvation.lean
  Subject:   WHO IS SERVED IN ONE PASS, when an earlier Service cannot be.

  The loop ends at the first Service whose allocation fails; the Services behind it are not
  looked at, whatever the pool has left. In a pass without API failures, conflicts and quota the
  Services served are a prefix of the eligible ones: those before the first that has nothing to
  draw.

  * `Satisfiable`, `afterDraw`, `poolAt` -- whether a Service has something to draw, and the pool
    at its turn if those before it had theirs;
  * `served`, `plan_served_keys`, `hasIngress_reconcile` -- the Services the loop assigns to,
    and the pass;
  * **`request_less_served_iff`** -- every Service without a request finds a free address at its
    turn and gets it, exactly if no Service before such a one is unsatisfiable.
-/
import HeliosLB.Controller.Plan

namespace HeliosLB

open Lib

/-! ## 1. The pool at a turn -/

/-- The Service has something to draw from the pool. -/
def Satisfiable (spec : HeliosConfigSpec) (pool : IPAllocator) (svc : Service) : Prop :=
  (drawn spec svc.spec.loadBalancerIP pool).isSome = true

instance (spec : HeliosConfigSpec) (pool : IPAllocator) (svc : Service) :
    Decidable (Satisfiable spec pool svc) := inferInstanceAs (Decidable (_ = true))

/-- The pool after the turn of a Service: without what it draws, if it draws anything. -/
def afterDraw (spec : HeliosConfigSpec) (pool : IPAllocator) (svc : Service) : IPAllocator :=
  (drawn spec svc.spec.loadBalancerIP pool).elim pool
    fun a => (ingressOf a.1 a.2).foldl IPAllocator.markUsed pool

/-- **The pool at a Service's turn**, when all before it had theirs. -/
def poolAt (spec : HeliosConfigSpec) (pool : IPAllocator) (before : List Service) : IPAllocator :=
  before.foldl (afterDraw spec) pool

/-- Each of the Services has something to draw at its turn. -/
def AllSatisfiable (spec : HeliosConfigSpec) : IPAllocator → List Service → Prop
  | _, [] => True
  | pool, svc :: rest =>
      Satisfiable spec pool svc ∧ AllSatisfiable spec (afterDraw spec pool svc) rest

/-- The pool has a free, scannable address, and on a dual-stack config one of either range. -/
def HasFree (spec : HeliosConfigSpec) (pool : IPAllocator) : Prop :=
  ∃ ip, IPAllocator.firstFree pool.maxScan spec.ipRange pool.used = some ip ∧
    (spec.ipv6Range = "" ∨
      ∃ ipv6 ∈ IPAllocator.window pool.maxScan spec.ipv6Range, ipv6 ∉ pool.used ∧ ipv6 ≠ ip)

/-- **A Service without a request is satisfiable from a pool with a free address.** -/
theorem satisfiable_of_hasFree {spec : HeliosConfigSpec} {pool : IPAllocator} {svc : Service}
    (hq : svc.spec.loadBalancerIP = "") (h : HasFree spec pool) : Satisfiable spec pool svc := by
  obtain ⟨ip, hip, h6⟩ := h
  rw [Satisfiable, hq, Option.isSome_iff_exists]
  have ho : offered pool spec.ipRange (splitRequestedIP "").1 = some ip := by
    rw [splitRequestedIP_empty, offered_pool, IPAllocator.offer_of_firstFree hip]
  by_cases hv6 : spec.ipv6Range = ""
  · exact ⟨(ip, ""), drawn_eq_some.mpr ⟨ho, Or.inl ⟨hv6, rfl⟩⟩⟩
  · obtain ⟨a, ha, hfree, hne⟩ := h6.resolve_left hv6
    obtain ⟨ipv6, hipv6⟩ : ∃ ipv6, IPAllocator.firstFree (pool.markUsed ip).maxScan
        spec.ipv6Range (pool.markUsed ip).used = some ipv6 :=
      IPAllocator.firstFree_of_mem ha (by simp [hfree, hne])
    refine ⟨(ip, ipv6), drawn_eq_some.mpr ⟨ho, Or.inr ⟨hv6, ?_⟩⟩⟩
    rw [splitRequestedIP_empty, offered_pool, IPAllocator.offer_of_firstFree hipv6]

/-! ## 2. The loop -/

/-- The Services before the first unsatisfiable one. -/
def served (spec : HeliosConfigSpec) : IPAllocator → List Service → List Service
  | _, [] => []
  | pool, svc :: rest =>
    if Satisfiable spec pool svc then svc :: served spec (afterDraw spec pool svc) rest else []

theorem served_subset {spec : HeliosConfigSpec} {pool : IPAllocator} {svcs : List Service} :
    ∀ s ∈ served spec pool svcs, s ∈ svcs := by
  induction svcs generalizing pool with
  | nil => exact fun s hs => hs
  | cons svc rest ih =>
      intro s hs
      rw [served] at hs
      split at hs
      · rcases List.mem_cons.mp hs with rfl | hs
        · exact List.mem_cons_self
        · exact List.mem_cons_of_mem _ (ih s hs)
      · cases hs

/-- A Service is served if all before it and itself have something to draw. -/
theorem mem_served {spec : HeliosConfigSpec} {pool : IPAllocator} {before after : List Service}
    {svc : Service} (h : svc ∉ before) : svc ∈ served spec pool (before ++ svc :: after) ↔
      AllSatisfiable spec pool before ∧ Satisfiable spec (poolAt spec pool before) svc := by
  induction before generalizing pool with
  | nil =>
      rw [List.nil_append, served]
      by_cases hs : Satisfiable spec pool svc <;> simp [hs, AllSatisfiable, poolAt]
  | cons a before ih =>
      obtain ⟨hne, hb⟩ := not_or.mp (mt List.mem_cons.mpr h)
      rw [List.cons_append, served]
      by_cases hs : Satisfiable spec pool a
      · rw [if_pos hs, List.mem_cons, or_iff_right hne, ih hb]
        simp [hs, AllSatisfiable, poolAt]
      · simp [hs, AllSatisfiable]

/-- The stored Service shows an ingress. -/
def HasIngress (c : Cluster) (key : NamespacedName) : Prop :=
  ∃ s, c.services.find key = some s ∧ s.ingress ≠ []

theorem checkQuota_unlimited {hc : HeliosConfig} (h : ¬ hc.spec.maxAllocations > 0) :
    checkQuota hc = none := if_neg fun hq => h hq.1

/-- **The loop without API failures and quota assigns to the Services before the first
    unsatisfiable one**, and no others. -/
theorem plan_served_keys {others : List String} : ∀ (svcs : List Service) (hc : HeliosConfig)
    (pool : IPAllocator), ¬ hc.spec.maxAllocations > 0 →
    (plan others svcs hc pool).assigned.map Service.key =
      (served hc.spec (others.foldl IPAllocator.markUsed pool) svcs).map Service.key
  | [], _, _, _ => rfl
  | svc :: rest, hc, pool, hq => by
      have hq' := checkQuota_unlimited hq
      rw [served]
      rcases hd : drawAddresses hc svc [] (others.foldl IPAllocator.markUsed pool) with
        ⟨f | ⟨ip, ipv6⟩, pool'⟩
      · have hnone := (drawAddresses_failed hd).1
        rw [plan_failed hq' hd, if_neg (by simp [Satisfiable, hnone])]
      · obtain ⟨hdrawn, hpool⟩ := drawAddresses_ok hd
        have hafter : afterDraw hc.spec (others.foldl IPAllocator.markUsed pool) svc = pool' := by
          rw [afterDraw, hdrawn, Option.elim_some, hpool]
        -- what the next turn would mark is marked already
        have hmarked : others.foldl IPAllocator.markUsed pool' = pool' := by
          rw [hpool, IPAllocator.foldl_markUsed_again]
        have ih := @plan_served_keys others rest (servedConfig hc svc ip ipv6) pool' hq
        rw [hmarked] at ih
        rw [plan_served hq' hd, if_pos (by simp [Satisfiable, hdrawn]), hafter]
        exact congrArg (svc.key :: ·) ih

/-! ## 3. The pass -/

section Pass

variable (retries : Nat) {req : NamespacedName} {w : World} {hc : HeliosConfig}

/-- **An eligible Service shows an ingress after the pass exactly if the loop served it.** -/
theorem hasIngress_reconcile (hf : w.cluster.configs.find req = some hc)
    (hd : hc.deleting = false)
    (hn : StringMap.len (checkIPConflicts hc w.cluster.configs.objects) = 0)
    (hq : ¬ hc.spec.maxAllocations > 0) {s : Service}
    (hm : s ∈ hc.eligibleServices w.cluster.services.objects) :
    HasIngress (reconcile retries req w allOk).2.cluster s.key ↔
      s ∈ served hc.spec (w.marked hc) (hc.eligibleServices w.cluster.services.objects) := by
  obtain ⟨hm, hel⟩ := mem_eligibleServices.mp hm
  have hspec := readied_spec hc
  have hnd := passPlan_assigned_nodup hc w
  -- the Services assigned to are those served
  have hkeys : s.key ∈ (passPlan hc w).assigned.map Service.key ↔
      s ∈ served hc.spec (w.marked hc) (hc.eligibleServices w.cluster.services.objects) := by
    rw [passPlan_clean hn, plan_served_keys _ (readied hc) w.pool (hspec ▸ hq), hspec, World.marked,
      markOthers_eq]
    refine ⟨fun h => ?_, List.mem_map_of_mem⟩
    obtain ⟨t, ht, hk⟩ := List.mem_map.mp h
    have hmt := (mem_eligibleServices.mp (served_subset t ht)).1
    rwa [← Store.eq_of_key hmt hm hk]
  rw [(reconcile_plan retries hf hd).1, ← hkeys]
  constructor
  · intro h
    obtain ⟨t, ht, hne⟩ := h
    obtain ⟨ht, hk⟩ := Store.find_eq_some.mp ht
    rcases (Store.mem_replaceAll hnd).mp ht with ⟨ht, _⟩ | ⟨ht, _⟩
    · exact hk ▸ List.mem_map_of_mem ht
    · -- before the pass an eligible Service shows none
      obtain rfl : t = s := Store.eq_of_key ht hm hk
      exact absurd (eligible_ingress hel) hne
  · intro h
    obtain ⟨t, ht, hk⟩ := List.mem_map.mp h
    have hstored : t ∈ w.cluster.services.replaceAll (passPlan hc w).assigned :=
      (Store.mem_replaceAll hnd).mpr (Or.inl ⟨ht, s, hm, hk.symm⟩)
    exact ⟨t, Store.find_eq_some.mpr ⟨hstored, hk⟩, passPlan_assigned_ingress hc w t ht⟩

omit retries in
/-- A Service is listed once. -/
theorem eligibleServices_split {before after : List Service} {svc : Service}
    (h : hc.eligibleServices w.cluster.services.objects = before ++ svc :: after) :
    svc ∉ before ∧ svc ∈ hc.eligibleServices w.cluster.services.objects := by
  have hnodup : (hc.eligibleServices w.cluster.services.objects).Nodup :=
    w.cluster.services.nodup.of_map.filter _
  refine ⟨fun hb => ?_, h ▸ List.mem_append_right _ List.mem_cons_self⟩
  rw [h] at hnodup
  exact List.disjoint_of_nodup_append hnodup hb List.mem_cons_self

end Pass

/-- **Every Service without a request is served whenever the pool has a free address at its turn,
    exactly if every Service before such a one is satisfiable.** The pass is over a config that
    is not being deleted, without a quota and without conflicts, and no API call fails. -/
theorem request_less_served_iff (retries : Nat) {req : NamespacedName} {w : World}
    {hc : HeliosConfig} (hf : w.cluster.configs.find req = some hc) (hd : hc.deleting = false)
    (hn : StringMap.len (checkIPConflicts hc w.cluster.configs.objects) = 0)
    (hq : ¬ hc.spec.maxAllocations > 0) :
    (∀ before svc after,
        hc.eligibleServices w.cluster.services.objects = before ++ svc :: after →
        svc.spec.loadBalancerIP = "" → HasFree hc.spec (poolAt hc.spec (w.marked hc) before) →
        HasIngress (reconcile retries req w allOk).2.cluster svc.key) ↔
      (∀ before svc after,
        hc.eligibleServices w.cluster.services.objects = before ++ svc :: after →
        svc.spec.loadBalancerIP = "" → HasFree hc.spec (poolAt hc.spec (w.marked hc) before) →
        AllSatisfiable hc.spec (w.marked hc) before) := by
  constructor
  · intro h before svc after hL hr hfree
    obtain ⟨hb, hm⟩ := eligibleServices_split hL
    have hserved :=
      (hasIngress_reconcile retries hf hd hn hq hm).mp (h before svc after hL hr hfree)
    rw [hL] at hserved
    exact ((mem_served hb).mp hserved).1
  · intro h before svc after hL hr hfree
    obtain ⟨hb, hm⟩ := eligibleServices_split hL
    refine (hasIngress_reconcile retries hf hd hn hq hm).mpr ?_
    rw [hL]
    exact (mem_served hb).mpr ⟨h before svc after hL hr hfree, satisfiable_of_hasFree hr hfree⟩

/-- Two Services without a request. -/
theorem request_less_served_two :
    let db : Service := { key := ⟨"shop", "db"⟩, spec := { type := .loadBalancer } }
    let web : Service := { key := ⟨"shop", "web"⟩, spec := { type := .loadBalancer } }
    let a : HeliosConfig := { key := ⟨"default", "a"⟩, spec := { ipRange := "10.0.0.1-10.0.0.3" } }
    let w : World := ⟨⟨.ofList [db, web], .ofList [a]⟩, newIPAllocator⟩
    a.eligibleServices w.cluster.services.objects = [db] ++ web :: [] ∧
      HasFree a.spec (poolAt a.spec (w.marked a) [db]) ∧
      HasIngress (reconcile 4 a.key w allOk).2.cluster web.key := by
  intro db web a w
  have hL : a.eligibleServices w.cluster.services.objects = [db] ++ web :: [] := rfl
  have hfree : HasFree a.spec (poolAt a.spec (w.marked a) [db]) :=
    ⟨"10.0.0.2", by decide, Or.inl rfl⟩
  have hf : w.cluster.configs.find a.key = some a := Store.find_key (List.mem_singleton_self a)
  have hn : StringMap.len (checkIPConflicts a w.cluster.configs.objects) = 0 := by decide
  have hq : ¬ a.spec.maxAllocations > 0 := by decide
  have hsat : AllSatisfiable a.spec (w.marked a) [db] := ⟨by decide, trivial⟩
  refine ⟨hL, hfree, ?_⟩
  refine (request_less_served_iff 4 hf rfl hn hq).mpr (fun before svc after hb _ _ => ?_)
    [db] web [] hL rfl hfree
  -- the only Service with one before it is the second
  rw [hL, List.singleton_append] at hb
  rcases before with _ | ⟨x, _ | ⟨y, before⟩⟩
  · trivial
  · obtain rfl : db = x := (List.cons.inj hb).1
    exact hsat
  · simp at hb

/-- **One taken request starves the Service behind it.** `db` requests `10.0.0.1`, which is in use;
    the pool has `10.0.0.2` for `web`, and the pass ends without looking at it. -/
theorem request_less_starved :
    let db : Service :=
      { key := ⟨"shop", "db"⟩, spec := { type := .loadBalancer, loadBalancerIP := "10.0.0.1" } }
    let web : Service := { key := ⟨"shop", "web"⟩, spec := { type := .loadBalancer } }
    let a : HeliosConfig := { key := ⟨"default", "a"⟩, spec := { ipRange := "10.0.0.1-10.0.0.3" } }
    let w : World := ⟨⟨.ofList [db, web], .ofList [a]⟩, newIPAllocator.markUsed "10.0.0.1"⟩
    a.eligibleServices w.cluster.services.objects = [db] ++ web :: [] ∧
      HasFree a.spec (poolAt a.spec (w.marked a) [db]) ∧
      (reconcile 4 a.key w allOk).2.cluster.services.objects.map Service.ingress = [[], []] :=
  ⟨rfl, ⟨"10.0.0.2", by decide, Or.inl rfl⟩, by decide⟩

end HeliosLB
