/-
  File:      HeliosLB/Controller/Plan.lean
  Subject:   A PASS WITHOUT API FAILURES AS A FUNCTION of what it finds.

  If every call is answered and reads are current, a pass is determined by the config, the Services
  its filter returns, what the other configs record and the pool. `plan` computes from these what
  the pass writes, without a cluster; the pass applies it. Statements about two passes are then
  statements about two plans.

  * `Plan`, `plan` -- the loop over the Services: those it assigns to, the config and the pool it
    ends with, and the failure that ended it;
  * `readied`, `passPlan` -- the whole pass, with the finalizer and the conflict check;
  * `plan_assigned_keys`, `plan_entries`, `plan_used` -- the Services, the entries and the marks a
    plan ends with;
  * `recordedByOthers_replace`, `checkIPConflicts_replace` -- writing the config itself changes
    neither what the others record nor the conflicts with them;
  * `serveServices_plan`, **`reconcile_plan`** -- the pass stores exactly what is planned;
  * `passPlan_config`, `passPlan_entries`, `passPlan_used` -- what the whole pass ends with.
-/
import HeliosLB.Controller.ReconcileSpec

namespace HeliosLB

open Lib

/-! ## 1. Plans -/

/-- What a loop over Services does: the Services as it writes them, the config and the pool at its
    end, and the allocation failure that ended it, if one did. -/
structure Plan where
  assigned : List Service
  config : HeliosConfig
  pool : IPAllocator
  failure : Option AllocFailure

/-- The plan that assigns to one more Service first. -/
def Plan.after (s : Service) (p : Plan) : Plan :=
  { p with assigned := s :: p.assigned }

/-- The loop of `Reconcile` if every call is answered; `others` is what the other configs record.
    It ends at the quota or at the first failed draw. -/
def plan (others : List String) : List Service → HeliosConfig → IPAllocator → Plan
  | [], hc, pool => ⟨[], hc, pool, none⟩
  | svc :: rest, hc, pool =>
    match checkQuota hc with
    | some _ => ⟨[], hc, pool, none⟩
    | none =>
      match drawAddresses hc svc [] (others.foldl IPAllocator.markUsed pool) with
      | (.error f, pool) => ⟨[], failedConfig hc f, pool, some f⟩
      | (.ok (ip, ipv6), pool) =>
        (plan others rest (servedConfig hc svc ip ipv6) pool).after (written hc.key ip ipv6 svc)

/-- The world after the planned writes. -/
def Plan.applyTo (p : Plan) (w : World) : World :=
  ⟨⟨w.cluster.services.replaceAll p.assigned, w.cluster.configs.replace p.config⟩, p.pool⟩

theorem Plan.applyTo_applyTo (p q : Plan) (w : World) : q.applyTo (p.applyTo w) =
    ⟨⟨(w.cluster.services.replaceAll p.assigned).replaceAll q.assigned,
      (w.cluster.configs.replace p.config).replace q.config⟩, q.pool⟩ := rfl

/-- The config with its finalizer and, if that was missing, the first condition. -/
def readied (hc : HeliosConfig) : HeliosConfig :=
  if heliosConfigFinalizer ∈ hc.finalizers then hc
  else (addFinalizer hc).setCondition .ready .false .initializing "HeliosConfig is initializing"

/-- **What a pass over a config does** if every call is answered. -/
def passPlan (hc : HeliosConfig) (w : World) : Plan :=
  let conflicts := checkIPConflicts hc w.cluster.configs.objects
  if StringMap.len conflicts > 0 then
    ⟨[], conflictedConfig (readied hc) conflicts, w.pool, none⟩
  else
    plan (recordedByOthers hc w.cluster.configs.objects)
      (hc.eligibleServices w.cluster.services.objects) (readied hc) w.pool

/-! ## 2. The turns of a plan -/

section Turns

-- the equation of the loop needs no look into the draw
seal drawAddresses

variable {others : List String} {svc : Service} {rest : List Service} {hc : HeliosConfig}
  {pool pool' : IPAllocator}

theorem plan_cons : plan others (svc :: rest) hc pool =
    match checkQuota hc with
    | some _ => ⟨[], hc, pool, none⟩
    | none =>
      match drawAddresses hc svc [] (others.foldl IPAllocator.markUsed pool) with
      | (.error f, pool) => ⟨[], failedConfig hc f, pool, some f⟩
      | (.ok (ip, ipv6), pool) =>
        (plan others rest (servedConfig hc svc ip ipv6) pool).after (written hc.key ip ipv6 svc) :=
  rfl

theorem plan_quota {e : String} (h : checkQuota hc = some e) :
    plan others (svc :: rest) hc pool = ⟨[], hc, pool, none⟩ := by
  rw [plan_cons, h]

theorem plan_failed {f : AllocFailure} (hq : checkQuota hc = none)
    (h : drawAddresses hc svc [] (others.foldl IPAllocator.markUsed pool) = (.error f, pool')) :
    plan others (svc :: rest) hc pool = ⟨[], failedConfig hc f, pool', some f⟩ := by
  rw [plan_cons, hq]
  simp only
  rw [h]

theorem plan_served {ip ipv6 : String} (hq : checkQuota hc = none)
    (h : drawAddresses hc svc [] (others.foldl IPAllocator.markUsed pool) =
      (.ok (ip, ipv6), pool')) :
    plan others (svc :: rest) hc pool =
      (plan others rest (servedConfig hc svc ip ipv6) pool').after
        (written hc.key ip ipv6 svc) := by
  rw [plan_cons, hq]
  simp only
  rw [h]

end Turns

/-- **The rule for plans**: `P` relates what a loop starts from to what it ends with. -/
theorem plan_induct {others : List String}
    {P : List Service → HeliosConfig → IPAllocator → Plan → Prop}
    (hnil : ∀ hc pool, P [] hc pool ⟨[], hc, pool, none⟩)
    (hquota : ∀ svc rest hc pool, checkQuota hc ≠ none →
      P (svc :: rest) hc pool ⟨[], hc, pool, none⟩)
    (hfailed : ∀ svc rest hc pool f pool', checkQuota hc = none →
      drawAddresses hc svc [] (others.foldl IPAllocator.markUsed pool) = (.error f, pool') →
      P (svc :: rest) hc pool ⟨[], failedConfig hc f, pool', some f⟩)
    (hserved : ∀ svc rest hc pool ip ipv6 pool' p, checkQuota hc = none →
      drawAddresses hc svc [] (others.foldl IPAllocator.markUsed pool) =
        (.ok (ip, ipv6), pool') →
      p = plan others rest (servedConfig hc svc ip ipv6) pool' →
      P rest (servedConfig hc svc ip ipv6) pool' p →
      P (svc :: rest) hc pool (p.after (written hc.key ip ipv6 svc)))
    (svcs : List Service) (hc : HeliosConfig) (pool : IPAllocator) :
    P svcs hc pool (plan others svcs hc pool) := by
  induction svcs generalizing hc pool with
  | nil => exact hnil hc pool
  | cons svc rest ih =>
      cases hq : checkQuota hc with
      | some e =>
          rw [plan_quota hq]
          exact hquota svc rest hc pool (by simp [hq])
      | none =>
          rcases hd : drawAddresses hc svc [] (others.foldl IPAllocator.markUsed pool) with
            ⟨f | ⟨ip, ipv6⟩, pool'⟩
          · rw [plan_failed hq hd]
            exact hfailed svc rest hc pool f pool' hq hd
          · rw [plan_served hq hd]
            exact hserved svc rest hc pool ip ipv6 pool' _ hq hd rfl (ih _ pool')

/-- What a plan never changes of the config. -/
theorem plan_config {others : List String} (svcs : List Service) (hc : HeliosConfig)
    (pool : IPAllocator) :
    (plan others svcs hc pool).config.key = hc.key ∧
      (plan others svcs hc pool).config.spec = hc.spec ∧
      (plan others svcs hc pool).config.deleting = hc.deleting ∧
      (plan others svcs hc pool).config.finalizers = hc.finalizers := by
  refine plan_induct (P := fun _ hc _ p => p.config.key = hc.key ∧ p.config.spec = hc.spec ∧
    p.config.deleting = hc.deleting ∧ p.config.finalizers = hc.finalizers) ?_ ?_ ?_ ?_ svcs hc pool
  · exact fun _ _ => ⟨rfl, rfl, rfl, rfl⟩
  · exact fun _ _ _ _ _ => ⟨rfl, rfl, rfl, rfl⟩
  · exact fun _ _ _ _ _ _ _ _ => ⟨rfl, rfl, rfl, rfl⟩
  · exact fun _ _ _ _ _ _ _ _ _ _ _ ih => ih

/-! ## 3. What a plan ends with -/

section Ends

variable {hc : HeliosConfig} {svc : Service} {pool pool' : IPAllocator}

/-- A draw that succeeds takes what it hands out. -/
theorem drawAddresses_ok {ip ipv6 : String}
    (h : drawAddresses hc svc [] pool = (.ok (ip, ipv6), pool')) :
    drawn hc.spec svc.spec.loadBalancerIP pool = some (ip, ipv6) ∧
      pool' = (ingressOf ip ipv6).foldl IPAllocator.markUsed pool := by
  rcases drawAddresses_cases hc svc [] pool with ⟨ip', ipv6', hd, ha⟩ | ⟨f, _, _, _, ha⟩
  · rw [ha] at h
    cases h
    exact ⟨hd, rfl⟩
  · rw [ha] at h
    cases h

/-- A draw that fails takes nothing, and with one range leaves the pool as it was. -/
theorem drawAddresses_failed {f : AllocFailure}
    (h : drawAddresses hc svc [] pool = (.error f, pool')) :
    drawn hc.spec svc.spec.loadBalancerIP pool = none ∧ (∀ x ∈ pool'.used, x ∈ pool.used) ∧
      (hc.spec.ipv6Range = "" → pool' = pool) := by
  rcases drawAddresses_cases hc svc [] pool with ⟨ip, ipv6, _, ha⟩ | ⟨f', hd, _, hr, ha⟩
  · rw [ha] at h
    cases h
  · rw [ha] at h
    cases h
    refine ⟨hd, fun x hx => ?_, fun h6 => ?_⟩
    · obtain ⟨hm, hn⟩ := IPAllocator.mem_foldl_releaseIP.mp hx
      exact (IPAllocator.mem_foldl_markUsed.mp hm).resolve_right hn
    · have hnil : f.released = [] := by
        refine List.eq_nil_iff_forall_not_mem.mpr fun x hx => ?_
        have hdrawn := drawn_eq_some.mpr ⟨(hr x).mp hx, Or.inl ⟨h6, rfl⟩⟩
        rw [hd] at hdrawn
        cases hdrawn
      rw [hnil]
      rfl

/-- The status has the address under the name, in one of its maps. -/
def HeliosConfig.entry (hc : HeliosConfig) (name x : String) : Prop :=
  hc.status.allocatedIPs.lookup name = some x ∨ hc.status.allocatedIPv6s.lookup name = some x

theorem mem_recorded_iff_entry {x : String} : x ∈ hc.recorded ↔ ∃ name, hc.entry name x := by
  unfold HeliosConfig.recorded HeliosConfig.entry
  rw [List.mem_append, StringMap.mem_values, StringMap.mem_values, exists_or]

theorem entry_served {ip ipv6 name x : String} (h : (servedConfig hc svc ip ipv6).entry name x) :
    hc.entry name x ∨ (svc.key.name = name ∧ x ∈ ingressOf ip ipv6) := by
  rcases h with h | h
  · rw [servedConfig_allocatedIPs] at h
    by_cases hn : name = svc.key.name
    · rw [hn, AList.lookup_insert] at h
      cases h
      exact Or.inr ⟨hn.symm, mem_ingressOf_left ip ipv6⟩
    · rw [AList.lookup_insert_ne hn] at h
      exact Or.inl (Or.inl h)
  · rw [servedConfig_allocatedIPv6s] at h
    by_cases h6 : ipv6 = ""
    · rw [if_neg (not_not.mpr h6)] at h
      exact Or.inl (Or.inr h)
    · rw [if_pos h6] at h
      by_cases hn : name = svc.key.name
      · rw [hn, AList.lookup_insert] at h
        cases h
        exact Or.inr ⟨hn.symm, mem_ingressOf_right h6⟩
      · rw [AList.lookup_insert_ne hn] at h
        exact Or.inl (Or.inr h)

end Ends

section Loop

variable {others : List String} (svcs : List Service) (hc : HeliosConfig) (pool : IPAllocator)

/-- A plan assigns to the first of its Services. -/
theorem plan_assigned_keys :
    (plan others svcs hc pool).assigned.map Service.key <+: svcs.map Service.key := by
  refine plan_induct (P := fun svcs _ _ p => p.assigned.map Service.key <+: svcs.map Service.key)
    ?_ ?_ ?_ ?_ svcs hc pool
  · exact fun _ _ => List.nil_prefix
  · exact fun _ _ _ _ _ => List.nil_prefix
  · exact fun _ _ _ _ _ _ _ _ => List.nil_prefix
  · intro svc rest hc pool ip ipv6 pool' p _ _ _ ih
    exact (List.prefix_cons_inj _).mpr ih

/-- The Services a plan assigns to show an ingress. -/
theorem plan_assigned_ingress :
    ∀ s ∈ (plan others svcs hc pool).assigned, s.ingress ≠ [] := by
  refine plan_induct (P := fun _ _ _ p => ∀ s ∈ p.assigned, s.ingress ≠ []) ?_ ?_ ?_ ?_ svcs hc
    pool
  · exact fun _ _ s hs => absurd hs List.not_mem_nil
  · exact fun _ _ _ _ _ s hs => absurd hs List.not_mem_nil
  · exact fun _ _ _ _ _ _ _ _ s hs => absurd hs List.not_mem_nil
  · intro svc rest hc pool ip ipv6 pool' p _ _ _ ih s hs
    rcases List.mem_cons.mp hs with rfl | hs
    · exact ingressOf_ne_nil ip ipv6
    · exact ih s hs

/-- **Every entry of the config at the end** was there before or is of a Service assigned to. -/
theorem plan_entries : ∀ name x, (plan others svcs hc pool).config.entry name x →
    hc.entry name x ∨
      ∃ s ∈ (plan others svcs hc pool).assigned, s.key.name = name ∧ x ∈ s.ingress := by
  refine plan_induct (P := fun _ hc _ p => ∀ name x, p.config.entry name x → hc.entry name x ∨
    ∃ s ∈ p.assigned, s.key.name = name ∧ x ∈ s.ingress) ?_ ?_ ?_ ?_ svcs hc pool
  · exact fun _ _ _ _ h => Or.inl h
  · exact fun _ _ _ _ _ _ _ h => Or.inl h
  · exact fun _ _ _ _ _ _ _ _ _ _ h => Or.inl h
  · intro svc rest hc pool ip ipv6 pool' p _ _ _ ih name x h
    rcases ih name x h with h | ⟨s, hs, hn, hx⟩
    · rcases entry_served h with h | ⟨hn, hx⟩
      · exact Or.inl h
      · exact Or.inr ⟨written hc.key ip ipv6 svc, List.mem_cons_self, hn, hx⟩
    · exact Or.inr ⟨s, List.mem_cons_of_mem _ hs, hn, hx⟩

/-- **What is in use at the end** was so before, or was marked for the others, or is held by a
    Service assigned to. -/
theorem plan_used : ∀ x ∈ (plan others svcs hc pool).pool.used,
    x ∈ pool.used ∨ (x ∈ others ∧ svcs ≠ [] ∧ checkQuota hc = none) ∨
      ∃ s ∈ (plan others svcs hc pool).assigned, x ∈ s.ingress := by
  refine plan_induct (P := fun svcs hc pool p => ∀ x ∈ p.pool.used, x ∈ pool.used ∨
    (x ∈ others ∧ svcs ≠ [] ∧ checkQuota hc = none) ∨ ∃ s ∈ p.assigned, x ∈ s.ingress)
    ?_ ?_ ?_ ?_ svcs hc pool
  · exact fun _ _ _ h => Or.inl h
  · exact fun _ _ _ _ _ _ h => Or.inl h
  · intro svc rest hc pool f pool' hq hd x hx
    rcases IPAllocator.mem_foldl_markUsed.mp ((drawAddresses_failed hd).2.1 x hx) with h | h
    · exact Or.inl h
    · exact Or.inr (Or.inl ⟨h, List.cons_ne_nil svc rest, hq⟩)
  · intro svc rest hc pool ip ipv6 pool' p hq hd _ ih x hx
    have hne := List.cons_ne_nil svc rest
    rcases ih x hx with h | ⟨h, _⟩ | ⟨s, hs, h⟩
    · rw [(drawAddresses_ok hd).2] at h
      rcases IPAllocator.mem_foldl_markUsed.mp h with h | h
      · rcases IPAllocator.mem_foldl_markUsed.mp h with h | h
        · exact Or.inl h
        · exact Or.inr (Or.inl ⟨h, hne, hq⟩)
      · exact Or.inr (Or.inr ⟨written hc.key ip ipv6 svc, List.mem_cons_self, h⟩)
    · exact Or.inr (Or.inl ⟨h, hne, hq⟩)
    · exact Or.inr (Or.inr ⟨s, List.mem_cons_of_mem _ hs, h⟩)

end Loop

/-! ## 4. What the config's own writes leave alone -/

theorem recordedByOthers_replace {S : Store HeliosConfig.key} {hc hc' : HeliosConfig}
    (hk : hc'.key = hc.key) :
    recordedByOthers hc' (S.replace hc').objects = recordedByOthers hc S.objects := by
  unfold recordedByOthers
  rw [Store.filter_replace (by simp), List.filter_filter]
  congr 1
  refine List.filter_congr fun b _ => ?_
  rw [hk, Bool.and_self]

theorem checkIPConflicts_replace {S : Store HeliosConfig.key} {hc hc' : HeliosConfig}
    (hk : hc'.key = hc.key) (hspec : hc'.spec = hc.spec) :
    checkIPConflicts hc' (S.replace hc').objects = checkIPConflicts hc S.objects := by
  have hw : ∀ other m, conflictsWith hc' other m = conflictsWith hc other m := by
    intro other m
    unfold conflictsWith
    rw [hspec]
  unfold checkIPConflicts
  rw [Store.foldl_replace]
  · simp only [hk, hw]
  · intro b _ hb m
    rw [if_pos rfl, if_pos hb]

/-! ## 5. The loop -/

/-- A draw is one from the pool in which the others' addresses are marked. -/
theorem drawAddresses_marked (hc : HeliosConfig) (svc : Service) (configs : List HeliosConfig)
    (pool : IPAllocator) : drawAddresses hc svc configs pool =
      drawAddresses hc svc [] ((recordedByOthers hc configs).foldl IPAllocator.markUsed pool) := by
  have hnone : markOthers hc (markOthers hc pool configs) [] = markOthers hc pool configs := rfl
  rw [← markOthers_eq]
  unfold drawAddresses
  rw [hnone]

/-- It reads the config's spec only. -/
theorem drawAddresses_congr {hc hc' : HeliosConfig} (h : hc'.spec = hc.spec) (svc : Service)
    (pool : IPAllocator) : drawAddresses hc' svc [] pool = drawAddresses hc svc [] pool := by
  have hnone : ∀ hc : HeliosConfig, markOthers hc pool [] = pool := fun _ => rfl
  unfold drawAddresses
  simp only [hnone, h]

section Answered

variable {retries : Nat} {hc : HeliosConfig} {svc : Service} {w : World} {pool : IPAllocator}

theorem allocateAndAssign_error {f : AllocFailure}
    (h : drawAddresses hc svc w.cluster.configs.objects w.pool = (.error f, pool)) :
    allocateAndAssign retries hc svc w {} = (.error f, { w with pool := pool }) := by
  unfold allocateAndAssign
  simp only
  rw [h]

theorem allocateAndAssign_assigned {stored : Service} {ip ipv6 : String}
    (hs : w.cluster.services.find svc.key = some stored)
    (h : drawAddresses hc svc w.cluster.configs.objects w.pool = (.ok (ip, ipv6), pool)) :
    allocateAndAssign retries hc svc w {} =
      (.ok (ip, ipv6), ⟨w.cluster.assigned hc.key ip ipv6 stored, pool⟩) := by
  have hseen : attemptsSeen retries (fun _ => {}) = .ok () := attemptsSeen_ok rfl retries
  have hwrote := attemptsWrote_of_seen retries _ hseen
  unfold allocateAndAssign
  simp only
  rw [h]
  simp only
  rw [assignIPToService_of_find hc.key ip ipv6 retries _ hs, hseen, hwrote]
  rfl

theorem serveService_quota {e : String} (hq : checkQuota hc = some e) :
    serveService retries hc svc w {} =
      .stop { result := .ok 5, events := [quotaEvent hc] } w := by
  unfold serveService
  rw [hq]

theorem serveService_failed {f : AllocFailure} (hst : Stored hc w.cluster)
    (hq : checkQuota hc = none)
    (h : drawAddresses hc svc w.cluster.configs.objects w.pool = (.error f, pool)) :
    serveService retries hc svc w {} =
      .stop { result := .ok 10, events := [failedEvent svc f], failure := some f }
        ⟨w.cluster.withConfig (failedConfig hc f), pool⟩ := by
  have hk : (failedConfig hc f).key = hc.key := rfl
  unfold serveService
  rw [hq, allocateAndAssign_error h]
  simp only
  rw [Cluster.updateConfigStatus_of_find hk hst]
  rfl

theorem serveService_served {ip ipv6 : String} (hst : Stored hc w.cluster)
    (hs : w.cluster.services.find svc.key = some svc) (hq : checkQuota hc = none)
    (h : drawAddresses hc svc w.cluster.configs.objects w.pool = (.ok (ip, ipv6), pool)) :
    serveService retries hc svc w {} = .next (servedEvent svc ip ipv6)
      (servedConfig hc svc ip ipv6)
      ⟨(w.cluster.assigned hc.key ip ipv6 svc).withConfig (servedConfig hc svc ip ipv6), pool⟩ := by
  have hst' : (w.cluster.assigned hc.key ip ipv6 svc).configs.find hc.key = some hc := hst
  unfold serveService
  rw [hq, allocateAndAssign_assigned hs h]
  simp only
  rw [Cluster.updateConfigStatus_of_find (servedConfig_key hc svc ip ipv6) hst']
  rfl

end Answered

/-- **The loop stores what is planned.** The Services it is given are stored, each once. -/
theorem serveServices_plan (retries : Nat) : ∀ (svcs : List Service) (hc : HeliosConfig)
    (w : World), Stored hc w.cluster →
    (∀ s ∈ svcs, w.cluster.services.find s.key = some s) → (svcs.map Service.key).Nodup →
    (serveServices retries svcs hc w fun _ => {}).2 =
        (plan (recordedByOthers hc w.cluster.configs.objects) svcs hc w.pool).applyTo w ∧
      (serveServices retries svcs hc w fun _ => {}).1.failure =
        (plan (recordedByOthers hc w.cluster.configs.objects) svcs hc w.pool).failure
  | [], hc, w, hst, _, _ => by
      have hself : w.cluster.configs.replace hc = w.cluster.configs :=
        Store.replace_self (Store.find_eq_some.mp hst).1
      refine ⟨?_, rfl⟩
      show w = ⟨⟨w.cluster.services, w.cluster.configs.replace hc⟩, w.pool⟩
      rw [hself]
  | svc :: rest, hc, w, hst, hs, hnd => by
      have hself : w.cluster.configs.replace hc = w.cluster.configs :=
        Store.replace_self (Store.find_eq_some.mp hst).1
      rw [serveServices]
      cases hq : checkQuota hc with
      | some e =>
          rw [serveService_quota hq, plan_quota hq]
          refine ⟨?_, rfl⟩
          show w = ⟨⟨w.cluster.services, w.cluster.configs.replace hc⟩, w.pool⟩
          rw [hself]
      | none =>
          have hmark := drawAddresses_marked hc svc w.cluster.configs.objects w.pool
          rcases hd : drawAddresses hc svc w.cluster.configs.objects w.pool with
            ⟨f | ⟨ip, ipv6⟩, pool⟩
          · rw [serveService_failed hst hq hd, plan_failed hq (hmark.symm.trans hd)]
            exact ⟨rfl, rfl⟩
          · have hsvc := hs svc List.mem_cons_self
            obtain ⟨hnot, hnd'⟩ := List.nodup_cons.mp hnd
            rw [serveService_served hst hsvc hq hd, plan_served hq (hmark.symm.trans hd)]
            simp only
            generalize hw₁ : World.mk ((w.cluster.assigned hc.key ip ipv6 svc).withConfig
              (servedConfig hc svc ip ipv6)) pool = w₁
            have hst₁ : Stored (servedConfig hc svc ip ipv6) w₁.cluster := by
              rw [← hw₁]
              exact Cluster.stored_withConfig (c := w.cluster.assigned hc.key ip ipv6 svc) hst rfl
            have hs₁ : ∀ s ∈ rest, w₁.cluster.services.find s.key = some s := by
              intro s hm
              have hne : s.key ≠ svc.key := fun e => hnot (e ▸ List.mem_map_of_mem hm)
              rw [← hw₁]
              exact (Cluster.assigned_find_ne hsvc hne hc.key ip ipv6).trans
                (hs s (List.mem_cons_of_mem svc hm))
            have hrec : recordedByOthers (servedConfig hc svc ip ipv6)
                w₁.cluster.configs.objects = recordedByOthers hc w.cluster.configs.objects := by
              rw [← hw₁]
              exact recordedByOthers_replace (servedConfig_key hc svc ip ipv6)
            have hpool : w₁.pool = pool := by rw [← hw₁]
            obtain ⟨ih, ihf⟩ := serveServices_plan retries rest _ w₁ hst₁ hs₁ hnd'
            rw [hrec, hpool] at ih ihf
            refine ⟨?_, ihf⟩
            rw [ih, ← hw₁]
            unfold Plan.applyTo Plan.after Cluster.assigned Cluster.withConfig
            simp only [Store.replaceAll_cons]
            rw [Store.replace_replace (plan_config rest _ pool).1.symm]

/-! ## 6. The pass -/

theorem readied_core (hc : HeliosConfig) : (readied hc).core = hc.core := by
  unfold readied
  split <;> rfl

theorem readied_spec (hc : HeliosConfig) : (readied hc).spec = hc.spec :=
  (HeliosConfig.core_eq (readied_core hc)).2.2.1

theorem readied_of_mem {hc : HeliosConfig} (h : heliosConfigFinalizer ∈ hc.finalizers) :
    readied hc = hc := if_pos h

theorem mem_readied (hc : HeliosConfig) : heliosConfigFinalizer ∈ (readied hc).finalizers := by
  unfold readied
  split
  · assumption
  · exact List.mem_append_right _ (List.mem_singleton_self _)

theorem readied_checkQuota (hc : HeliosConfig) : checkQuota (readied hc) = checkQuota hc := by
  unfold readied
  split <;> rfl

/-- The finalizer step, if its calls are answered. -/
theorem ensureFinalizer_readied {hc : HeliosConfig} {c : Cluster} (hs : Stored hc c) :
    ensureFinalizer hc c allOk = (.ok (readied hc), c.withConfig (readied hc)) := by
  unfold ensureFinalizer readied
  split
  · unfold Cluster.withConfig
    rw [Store.replace_self (Store.find_eq_some.mp hs).1]
  · have hf : (addFinalizer hc).finalizers ≠ [] := by simp [addFinalizer]
    have hk : (addFinalizer hc).key = hc.key := rfl
    have hk' : ((addFinalizer hc).setCondition .ready .false .initializing
      "HeliosConfig is initializing").key = hc.key := rfl
    have hs₁ : (c.configs.replace (addFinalizer hc)).find hc.key = some (addFinalizer hc) :=
      Store.find_replace hs hk
    rw [Cluster.updateConfig_of_find hk hs hf]
    show Cluster.updateConfigStatus { c with configs := c.configs.replace (addFinalizer hc) }
      ((addFinalizer hc).setCondition .ready .false .initializing "HeliosConfig is initializing")
      .ok = _
    rw [Cluster.updateConfigStatus_of_find hk' hs₁]
    show (_, _) = (_, _)
    unfold Cluster.withConfig
    simp only [Prod.mk.injEq, Cluster.mk.injEq, true_and]
    exact ⟨rfl, Store.replace_replace rfl⟩

theorem passPlan_conflict {hc : HeliosConfig} {w : World}
    (h : StringMap.len (checkIPConflicts hc w.cluster.configs.objects) > 0) : passPlan hc w =
      ⟨[], conflictedConfig (readied hc) (checkIPConflicts hc w.cluster.configs.objects), w.pool,
        none⟩ := if_pos h

theorem passPlan_clean {hc : HeliosConfig} {w : World}
    (h : StringMap.len (checkIPConflicts hc w.cluster.configs.objects) = 0) : passPlan hc w =
      plan (recordedByOthers hc w.cluster.configs.objects)
        (hc.eligibleServices w.cluster.services.objects) (readied hc) w.pool := by
  refine if_neg ?_
  rw [gt_iff_lt, h]
  exact Nat.lt_irrefl 0

theorem passPlan_cases (hc : HeliosConfig) (w : World) :
    (StringMap.len (checkIPConflicts hc w.cluster.configs.objects) = 0 ∧ passPlan hc w =
      plan (recordedByOthers hc w.cluster.configs.objects)
        (hc.eligibleServices w.cluster.services.objects) (readied hc) w.pool) ∨
    (StringMap.len (checkIPConflicts hc w.cluster.configs.objects) > 0 ∧ passPlan hc w =
      ⟨[], conflictedConfig (readied hc) (checkIPConflicts hc w.cluster.configs.objects), w.pool,
        none⟩) :=
  (Nat.eq_zero_or_pos _).imp (fun h => ⟨h, passPlan_clean h⟩) fun h => ⟨h, passPlan_conflict h⟩

/-- The eligible Services are stored, each once. -/
theorem eligibleServices_stored (hc : HeliosConfig) (S : Store Service.key) :
    (∀ s ∈ hc.eligibleServices S.objects, S.find s.key = some s) ∧
      ((hc.eligibleServices S.objects).map Service.key).Nodup := by
  refine ⟨fun s hs => Store.find_key (mem_eligibleServices.mp hs).1, ?_⟩
  unfold HeliosConfig.eligibleServices filterEligibleServices
  exact S.nodup.sublist (List.filter_sublist.map Service.key)

/-- **A pass without API failures stores what is planned.** -/
theorem reconcile_plan (retries : Nat) {req : NamespacedName} {w : World} {hc : HeliosConfig}
    (hf : w.cluster.configs.find req = some hc) (hd : hc.deleting = false) :
    (reconcile retries req w allOk).2 = (passPlan hc w).applyTo w ∧
      (reconcile retries req w allOk).1.failure = (passPlan hc w).failure := by
  obtain ⟨_, rfl⟩ := Store.find_eq_some.mp hf
  obtain ⟨hkey, hdel, hspec, _⟩ := HeliosConfig.core_eq (readied_core hc)
  have hrec : reconcile retries hc.key w allOk =
      reconcileServices retries (readied hc) ⟨w.cluster.withConfig (readied hc), w.pool⟩ allOk := by
    have hg : allOk.getConfig = .ok := rfl
    unfold reconcile
    rw [hg, hf]
    simp only
    rw [ensureFinalizer_readied hf]
    simp only
    rw [hdel, hd]
    rfl
  have hconf : checkIPConflicts (readied hc)
      (w.cluster.withConfig (readied hc)).configs.objects =
        checkIPConflicts hc w.cluster.configs.objects := checkIPConflicts_replace hkey hspec
  have hst : Stored (readied hc) (w.cluster.withConfig (readied hc)) :=
    Cluster.stored_withConfig hf hkey
  rw [hrec]
  show (if StringMap.len (checkIPConflicts (readied hc)
      (w.cluster.withConfig (readied hc)).configs.objects) > 0 then _ else _ :
      PassReport × World).2 = _ ∧ (if _ then _ else _ : PassReport × World).1.failure = _
  rw [hconf]
  by_cases hc0 : StringMap.len (checkIPConflicts hc w.cluster.configs.objects) > 0
  · have hk : (conflictedConfig (readied hc)
        (checkIPConflicts hc w.cluster.configs.objects)).key = (readied hc).key := rfl
    rw [if_pos hc0, passPlan_conflict hc0]
    refine ⟨?_, rfl⟩
    simp only
    rw [Cluster.updateConfigStatus_of_find hk hst]
    show World.mk ⟨w.cluster.services, (w.cluster.configs.replace (readied hc)).replace
      (conflictedConfig (readied hc) (checkIPConflicts hc w.cluster.configs.objects))⟩ w.pool = _
    rw [Store.replace_replace hk.symm]
    rfl
  · rw [if_neg hc0, passPlan_clean (by omega)]
    obtain ⟨hfind, hnd⟩ := eligibleServices_stored hc w.cluster.services
    have hloop := serveServices_plan retries (hc.eligibleServices w.cluster.services.objects)
      (readied hc) ⟨w.cluster.withConfig (readied hc), w.pool⟩ hst hfind hnd
    have hoth : recordedByOthers (readied hc)
        (w.cluster.withConfig (readied hc)).configs.objects =
          recordedByOthers hc w.cluster.configs.objects := recordedByOthers_replace hkey
    rw [eligibleServices_congr hspec]
    rw [hoth] at hloop
    refine ⟨hloop.1.trans ?_, hloop.2⟩
    unfold Plan.applyTo Cluster.withConfig
    simp only
    rw [Store.replace_replace (plan_config _ (readied hc) w.pool).1.symm]

/-! ## 7. What a pass ends with -/

section PassEnds

variable (hc : HeliosConfig) (w : World)

/-- What a pass leaves of the config: it is the same one, with the finalizer. -/
theorem passPlan_config :
    (passPlan hc w).config.key = hc.key ∧ (passPlan hc w).config.spec = hc.spec ∧
      (passPlan hc w).config.deleting = hc.deleting ∧
      heliosConfigFinalizer ∈ (passPlan hc w).config.finalizers := by
  obtain ⟨hkey, hdel, hspec, _⟩ := HeliosConfig.core_eq (readied_core hc)
  have hfin := mem_readied hc
  rcases passPlan_cases hc w with ⟨_, e⟩ | ⟨_, e⟩
  · rw [e]
    obtain ⟨hk, hs, hd, hf⟩ := @plan_config (recordedByOthers hc w.cluster.configs.objects)
      (hc.eligibleServices w.cluster.services.objects) (readied hc) w.pool
    exact ⟨hk.trans hkey, hs.trans hspec, hd.trans hdel, hf ▸ hfin⟩
  · rw [e]
    exact ⟨hkey, hspec, hdel, hfin⟩

theorem passPlan_assigned_keys : (passPlan hc w).assigned.map Service.key <+:
    (hc.eligibleServices w.cluster.services.objects).map Service.key := by
  rcases passPlan_cases hc w with ⟨_, e⟩ | ⟨_, e⟩
  · rw [e]
    exact plan_assigned_keys _ _ _
  · rw [e]
    exact List.nil_prefix

theorem passPlan_assigned_ingress : ∀ s ∈ (passPlan hc w).assigned, s.ingress ≠ [] := by
  rcases passPlan_cases hc w with ⟨_, e⟩ | ⟨_, e⟩
  · rw [e]
    exact plan_assigned_ingress _ _ _
  · rw [e]
    exact fun s hs => absurd hs List.not_mem_nil

/-- The Services a pass assigns to were stored without an ingress. -/
theorem passPlan_assigned_stored : ∀ k ∈ (passPlan hc w).assigned.map Service.key,
    ∃ svc ∈ w.cluster.services, svc.key = k ∧
      svc ∈ hc.eligibleServices w.cluster.services.objects ∧ svc.ingress = [] := by
  intro k hk
  obtain ⟨svc, hs, rfl⟩ := List.mem_map.mp ((passPlan_assigned_keys hc w).subset hk)
  obtain ⟨hm, hel⟩ := mem_eligibleServices.mp hs
  exact ⟨svc, hm, rfl, hs, eligible_ingress hel⟩

theorem passPlan_assigned_nodup : ((passPlan hc w).assigned.map Service.key).Nodup :=
  (eligibleServices_stored hc w.cluster.services).2.sublist (passPlan_assigned_keys hc w).sublist

theorem readied_entry {hc : HeliosConfig} {name x : String} :
    (readied hc).entry name x ↔ hc.entry name x := by
  obtain ⟨_, _, _, h4, h6⟩ := HeliosConfig.core_eq (readied_core hc)
  unfold HeliosConfig.entry
  rw [h4, h6]

/-- **Every entry of the config after the pass** was there before or is of a Service assigned to. -/
theorem passPlan_entries {name x : String} (h : (passPlan hc w).config.entry name x) :
    hc.entry name x ∨ ∃ s ∈ (passPlan hc w).assigned, s.key.name = name ∧ x ∈ s.ingress := by
  rcases passPlan_cases hc w with ⟨_, e⟩ | ⟨_, e⟩
  · rw [e] at h ⊢
    exact (plan_entries _ _ _ name x h).imp_left readied_entry.mp
  · rw [e] at h
    exact Or.inl (readied_entry.mp h)

/-- The pass gets to a draw: no conflict, a Service to serve, and room in the quota. -/
def Draws : Prop :=
  StringMap.len (checkIPConflicts hc w.cluster.configs.objects) = 0 ∧
    hc.eligibleServices w.cluster.services.objects ≠ [] ∧ checkQuota hc = none

/-- **What is in use after the pass** was so before, or was marked for the others, or is held by a
    Service assigned to. -/
theorem passPlan_used : ∀ x ∈ (passPlan hc w).pool.used, x ∈ w.pool.used ∨
    (x ∈ recordedByOthers hc w.cluster.configs.objects ∧ Draws hc w) ∨
      ∃ s ∈ (passPlan hc w).assigned, x ∈ s.ingress := by
  intro x hx
  rcases passPlan_cases hc w with ⟨h0, e⟩ | ⟨_, e⟩
  · rw [e] at hx ⊢
    rcases plan_used _ _ _ x hx with hx | ⟨hx, hne, hq⟩ | hx
    · exact Or.inl hx
    · exact Or.inr (Or.inl ⟨hx, h0, hne, by rwa [readied_checkQuota] at hq⟩)
    · exact Or.inr (Or.inr hx)
  · rw [e] at hx
    exact Or.inl hx

end PassEnds

end HeliosLB
