/-
  File:      HeliosLB/Controller/Coexistence.lean
  Subject:   WHAT A PASS LEAVES ALONE, whatever the API server answers.

  A cluster holds Services other load balancers serve and configs of other tenants. A pass writes
  the config it is about and the Services its filter returned, and nothing else.

  * `WritesOnly` -- a write to the configs that touches one key and hands back an object with it;
  * `serveServices_find_ne`, `reconcile_find_ne` -- so the pass keeps every other config;
  * `Outcome.services_find_ne` -- an allocation writes at most its own Service;
  * **`coexistence_frame`** -- the pass as a whole: a Service that one of the five tests refuses,
    and every other config, is stored afterwards as before.
-/
import HeliosLB.Controller.ReconcileSpec

namespace HeliosLB

open Lib

/-! ## 1. The other configs -/

/-- The write touches the config with that key only, and hands back one with that key. -/
structure WritesOnly (key : NamespacedName) (c : Cluster)
    (out : Except ApiError HeliosConfig × Cluster) : Prop where
  others : ∀ k, k ≠ key → out.2.configs.find k = c.configs.find k
  returned : ∀ hc, out.1 = .ok hc → hc.key = key

theorem writesOnly_commit {key : NamespacedName} {c c' : Cluster} (new : HeliosConfig)
    (hnew : new.key = key) (h : ∀ k, k ≠ key → c'.configs.find k = c.configs.find k)
    (r : WriteReply) : WritesOnly key c (c.commit r new c') := by
  cases r with
  | rejected e => exact ⟨fun _ _ => rfl, fun _ he => nomatch he⟩
  | lost text => exact ⟨h, fun _ he => nomatch he⟩
  | ok =>
      refine ⟨h, fun hc he => ?_⟩
      cases he
      exact hnew

theorem updateConfigStatus_writesOnly {key : NamespacedName} {hc : HeliosConfig}
    (hk : hc.key = key) (c : Cluster) (r : WriteReply) :
    WritesOnly key c (c.updateConfigStatus hc r) := by
  unfold Cluster.updateConfigStatus
  cases hf : c.configs.find hc.key with
  | none => exact ⟨fun _ _ => rfl, fun _ he => nomatch he⟩
  | some stored =>
      have hs : stored.key = key := (Store.find_eq_some.mp hf).2.trans hk
      refine writesOnly_commit { stored with status := hc.status } hs (fun k hne => ?_) r
      exact Store.find_replace_ne fun e => hne (e.symm.trans hs)

theorem updateConfig_writesOnly {key : NamespacedName} {hc : HeliosConfig} (hk : hc.key = key)
    (c : Cluster) (r : WriteReply) : WritesOnly key c (c.updateConfig hc r) := by
  unfold Cluster.updateConfig
  cases hf : c.configs.find hc.key with
  | none => exact ⟨fun _ _ => rfl, fun _ he => nomatch he⟩
  | some stored =>
      have hs : stored.key = key := (Store.find_eq_some.mp hf).2.trans hk
      refine writesOnly_commit { stored with finalizers := hc.finalizers, spec := hc.spec } hs
        (fun k hne => ?_) r
      simp only
      split
      · exact Store.find_delete_ne fun e => hne (e.trans hs)
      · exact Store.find_replace_ne fun e => hne (e.symm.trans hs)

theorem ensureFinalizer_writesOnly {key : NamespacedName} {hc : HeliosConfig} (hk : hc.key = key)
    (c : Cluster) (r : PassReplies) : WritesOnly key c (ensureFinalizer hc c r) := by
  unfold ensureFinalizer
  split
  · refine ⟨fun _ _ => rfl, fun hc' h => ?_⟩
    cases h
    exact hk
  · have hadd : (addFinalizer hc).key = key := hk
    have hw := updateConfig_writesOnly hadd c r.addFinalizer
    generalize c.updateConfig (addFinalizer hc) r.addFinalizer = out at hw
    rcases out with ⟨e | hc₁, c₁⟩
    · exact ⟨hw.others, fun _ h => nomatch h⟩
    · have hinit : (hc₁.setCondition .ready .false .initializing
          "HeliosConfig is initializing").key = key := hw.returned hc₁ rfl
      have hi := updateConfigStatus_writesOnly hinit c₁ r.initialStatus
      exact ⟨fun k hne => (hi.others k hne).trans (hw.others k hne), hi.returned⟩

/-- One iteration keeps the other configs, and the next one is about the same config. -/
theorem serveService_find_ne {k : NamespacedName} {hc : HeliosConfig} (hk : k ≠ hc.key)
    (retries : Nat) (svc : Service) (w : World) (r : TurnReplies) :
    (∀ report w', serveService retries hc svc w r = .stop report w' →
        w'.cluster.configs.find k = w.cluster.configs.find k) ∧
      ∀ event hc' w', serveService retries hc svc w r = .next event hc' w' →
        hc'.key = hc.key ∧ w'.cluster.configs.find k = w.cluster.configs.find k := by
  have ho := (allocateAndAssign_outcome retries hc svc w r).configs
  unfold serveService
  cases checkQuota hc with
  | some e =>
      refine ⟨fun report w' h => ?_, fun event hc' w' h => ?_⟩ <;> cases h
      rfl
  | none =>
      generalize allocateAndAssign retries hc svc w r = out at ho
      rcases out with ⟨f | ⟨ip, ipv6⟩, w₁⟩
      · have hfailed : (failedConfig hc f).key = hc.key := rfl
        have hw := updateConfigStatus_writesOnly hfailed w₁.cluster r.failedStatus
        refine ⟨fun report w' h => ?_, fun event hc' w' h => ?_⟩ <;> cases h
        exact (hw.others k hk).trans (congrArg (Store.find · k) ho)
      · have hw := updateConfigStatus_writesOnly (servedConfig_key hc svc ip ipv6) w₁.cluster
          r.recordStatus
        simp only
        generalize w₁.cluster.updateConfigStatus (servedConfig hc svc ip ipv6) r.recordStatus = u
          at hw
        have hf := (hw.others k hk).trans (congrArg (Store.find · k) ho)
        rcases u with ⟨e | hc₁, c₁⟩
        · refine ⟨fun report w' h => ?_, fun event hc' w' h => ?_⟩ <;> cases h
          exact hf
        · refine ⟨fun report w' h => ?_, fun event hc' w' h => ?_⟩ <;> cases h
          exact ⟨hw.returned hc₁ rfl, hf⟩

theorem serveServices_find_ne {k : NamespacedName} (retries : Nat) : ∀ (svcs : List Service)
    (hc : HeliosConfig) (w : World) (turn : Nat → TurnReplies), k ≠ hc.key →
    (serveServices retries svcs hc w turn).2.cluster.configs.find k = w.cluster.configs.find k
  | [], _, _, _, _ => rfl
  | svc :: rest, hc, w, turn, hk => by
      obtain ⟨hstop, hnext⟩ := serveService_find_ne hk retries svc w (turn 0)
      rw [serveServices]
      generalize serveService retries hc svc w (turn 0) = t at hstop hnext
      cases t with
      | stop report w' => exact hstop report w' rfl
      | next event hc' w' =>
          obtain ⟨hkey, hf⟩ := hnext event hc' w' rfl
          have hne : k ≠ hc'.key := fun e => hk (e.trans hkey)
          exact (serveServices_find_ne retries rest hc' w' (fun n => turn (n + 1)) hne).trans hf

theorem reconcileServices_find_ne {k : NamespacedName} {hc : HeliosConfig} (hk : k ≠ hc.key)
    (retries : Nat) (w : World) (r : PassReplies) :
    (reconcileServices retries hc w r).2.cluster.configs.find k = w.cluster.configs.find k := by
  unfold reconcileServices
  cases r.listServices with
  | failed e => rfl
  | ok =>
      cases r.listConfigs with
      | failed e => rfl
      | ok =>
          simp only
          split
          · have hconf : (conflictedConfig hc
                (checkIPConflicts hc w.cluster.configs.objects)).key = hc.key := rfl
            exact (updateConfigStatus_writesOnly hconf w.cluster r.conflictStatus).others k hk
          · exact serveServices_find_ne retries _ hc w r.turn hk

/-- **A pass over a config that is not being deleted keeps every other config.** -/
theorem reconcile_find_ne {k req : NamespacedName} (hk : k ≠ req) (retries : Nat) {w : World}
    {hc₀ : HeliosConfig} (hf : w.cluster.configs.find req = some hc₀)
    (hd : hc₀.deleting = false) (r : PassReplies) :
    (reconcile retries req w r).2.cluster.configs.find k = w.cluster.configs.find k := by
  obtain ⟨_, rfl⟩ := Store.find_eq_some.mp hf
  have hw := ensureFinalizer_writesOnly (Eq.refl hc₀.key) w.cluster r
  have hcore := (ensureFinalizer_spec hf r).2.1
  unfold reconcile
  cases r.getConfig with
  | failed e => rfl
  | ok =>
      rw [hf]
      simp only
      generalize ensureFinalizer hc₀ w.cluster r = out at hw hcore
      rcases out with ⟨e | hc, c⟩
      · exact hw.others k hk
      · have hkey : hc.key = hc₀.key := hw.returned hc rfl
        have hdel : ¬ hc.deleting = true := by
          rw [(HeliosConfig.core_eq (hcore hc rfl).1).2.1, hd]
          exact Bool.false_ne_true
        simp only
        rw [if_neg hdel]
        exact (reconcileServices_find_ne (fun e => hk (e.trans hkey)) retries ⟨c, w.pool⟩ r).trans
          (hw.others k hk)

/-! ## 2. The other Services -/

/-- An allocation writes at most the Service it is for. -/
theorem Outcome.services_find_ne {retries : Nat} {hc : HeliosConfig} {svc : Service}
    {w w' : World} {r : TurnReplies} {res : Except AllocFailure (String × String)}
    (h : Outcome retries hc svc w r res w') {k : NamespacedName} (hk : k ≠ svc.key) :
    w'.cluster.services.find k = w.cluster.services.find k := by
  cases h with
  | unlisted => rfl
  | undrawn => rfl
  | unassigned => rfl
  | torn _ _ hs _ _ _ _ => exact Cluster.assigned_find_ne hs hk _ _ _
  | assigned _ _ hs _ => exact Cluster.assigned_find_ne hs hk _ _ _

/-- The loop keeps the Services it was not given. -/
theorem serveServices_services {retries : Nat} {svcs : List Service} {hc : HeliosConfig}
    {w : World} (hs : Stored hc w.cluster) (turn : Nat → TurnReplies) {k : NamespacedName}
    (hk : ∀ svc ∈ svcs, k ≠ svc.key) :
    (serveServices retries svcs hc w turn).2.cluster.services.find k =
      w.cluster.services.find k := by
  refine serveServices_rule (P := fun _ => True)
    (I := fun _ w' => w'.cluster.services.find k = w.cluster.services.find k)
    (Q := fun _ w' => w'.cluster.services.find k = w.cluster.services.find k)
    (fun _ _ _ hi => hi) ?_ ?_ ?_ hs rfl fun _ _ => trivial
  · intro svc hm _ _ _ _ _ c _ hi _ ho hcos
    show c.services.find k = _
    rw [hcos.services, ho.services_find_ne (hk svc hm), hi]
  · intro svc hm _ _ _ _ _ _ _ hi _ _ ho
    rw [ho.services_find_ne (hk svc hm), hi]
  · intro svc hm _ _ _ _ _ _ _ hi _ _ ho
    exact (ho.services_find_ne (hk svc hm)).trans hi

/-- A Service that fails one of the tests of the filter. -/
def refused (spec : HeliosConfigSpec) (svc : Service) : Prop :=
  svc.spec.type ≠ .loadBalancer ∨
  (∃ c, svc.spec.loadBalancerClass = some c ∧ c ≠ loadBalancerClassHelios) ∨
  (spec.namespaceSelector ≠ [] ∧ svc.key.ns ∉ spec.namespaceSelector) ∨
  svc.ingress ≠ [] ∨
  (svc.spec.loadBalancerIP ≠ "" ∧ ipAllocatable svc.spec.loadBalancerIP spec.ipRange = false ∧
    ipAllocatable svc.spec.loadBalancerIP spec.ipv6Range = false)

theorem not_eligible_of_refused {spec : HeliosConfigSpec} {svc : Service} (h : refused spec svc) :
    ¬ eligible spec.namespaceSelector spec.ipRange [spec.ipv6Range] svc = true := by
  intro he
  obtain ⟨ht, hcl, hns, hi, hq⟩ := eligible_iff.mp he
  rcases h with h | ⟨c, hc, hne⟩ | ⟨hsel, hnot⟩ | h | ⟨hne, h4, h6⟩
  · exact h ht
  · rcases hcl with hcl | hcl
    · rw [hcl] at hc
      cases hc
    · exact hne (Option.some.inj (hc.symm.trans hcl))
  · exact hns.elim hsel hnot
  · exact h hi
  · rcases hq hne with ha | ⟨_, ha⟩
    · rw [h4] at ha
      cases ha
    · rw [h6] at ha
      cases ha

/-- **The coexistence frame**: a pass over a config that is not being deleted, under any replies
    of the API server, stores every refused Service and every other config as they were. -/
theorem coexistence_frame (retries : Nat) {req : NamespacedName} {w : World} {hc₀ : HeliosConfig}
    (hf : w.cluster.configs.find req = some hc₀) (hd : hc₀.deleting = false) (r : PassReplies) :
    (∀ svc ∈ w.cluster.services, refused hc₀.spec svc →
      (reconcile retries req w r).2.cluster.services.find svc.key = some svc) ∧
    ∀ k, k ≠ req →
      (reconcile retries req w r).2.cluster.configs.find k = w.cluster.configs.find k := by
  refine ⟨fun svc hm href => ?_, fun k hk => reconcile_find_ne hk retries hf hd r⟩
  rcases reconcile_cases retries req w r with ⟨hcos, _⟩ |
    ⟨hc₁, hc, c, hf₁, hcore, hcos, hs, ⟨hdel, _⟩ | ⟨_, he⟩⟩
  · rw [hcos.services]
    exact Store.find_key hm
  · obtain rfl : hc₀ = hc₁ := Option.some.inj (hf.symm.trans hf₁)
    rw [(HeliosConfig.core_eq hcore).2.1, hd] at hdel
    cases hdel
  · obtain rfl : hc₀ = hc₁ := Option.some.inj (hf.symm.trans hf₁)
    have hne : ∀ s ∈ hc.eligibleServices w.cluster.services.objects, svc.key ≠ s.key := by
      intro s hs' hk
      obtain ⟨hms, hel⟩ := mem_eligibleServices.mp hs'
      obtain rfl : svc = s := Store.eq_of_key hm hms hk
      rw [(HeliosConfig.core_eq hcore).2.2.1] at hel
      exact not_eligible_of_refused href hel
    rw [he, serveServices_services hs r.turn hne]
    show c.services.find svc.key = some svc
    rw [hcos.services]
    exact Store.find_key hm

/-- A pass that writes one Service and then sees an error, beside a Service of another load
    balancer and another config. -/
theorem coexistence_beside_other_class :
    let metal : Service :=
      { key := ⟨"shop", "metal"⟩
        spec := { type := .loadBalancer, loadBalancerClass := some "metallb" } }
    let web : Service := { key := ⟨"shop", "web"⟩, spec := { type := .loadBalancer } }
    let a : HeliosConfig := { key := ⟨"default", "a"⟩, spec := { ipRange := "10.0.0.1-10.0.0.3" } }
    let b : HeliosConfig := { key := ⟨"default", "b"⟩, spec := { ipRange := "10.0.1.0/24" } }
    let w : World := ⟨⟨.ofList [metal, web], .ofList [a, b]⟩, newIPAllocator⟩
    let r : PassReplies :=
      { turn := fun _ => { attempts := fun _ => { update := .lost "time-out" } } }
    let w' := (reconcile 4 a.key w r).2
    w'.cluster.services.objects.map Service.ingress = [[], ["10.0.0.1"]] ∧
      w'.cluster.services.find metal.key = some metal ∧
      w'.cluster.configs.find b.key = w.cluster.configs.find b.key := by
  intro metal web a b w r
  have hf : w.cluster.configs.find a.key = some a := Store.find_key List.mem_cons_self
  have hframe := coexistence_frame 4 hf rfl r
  have href : refused a.spec metal := Or.inr (Or.inl ⟨"metallb", rfl, by decide⟩)
  exact ⟨by decide, hframe.1 metal List.mem_cons_self href, hframe.2 b.key (by decide)⟩

end HeliosLB
