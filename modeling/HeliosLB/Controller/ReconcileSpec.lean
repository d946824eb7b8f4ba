/-
  File:      HeliosLB/Controller/ReconcileSpec.lean
  Subject:   WHAT A PASS DOES (about Controller/Reconcile.lean).

  Along a pass the in-memory config is the stored one (`Stored`), so a statement about the loop
  is a statement about what is stored.

  * `Cosmetic` -- two clusters that differ in texts, conditions, phases and finalizers only: what
    the passes write besides allocations;
  * `PassReport.turns` -- how many Services the loop came to, by the events;
  * `serveService_outcome` -- one iteration: stopped at the quota, failed, served but not
    recorded, or served and recorded;
  * **`serveServices_rule`** -- the rule for the loop: an invariant of config and world, and what
    holds where the loop can end;
  * **`reconcile_cases`** -- a pass writes nothing but texts, or is a deletion, or is the loop on
    the eligible Services of the cluster it found.
-/
import HeliosLB.Controller.IPManagerSpec
import HeliosLB.Controller.Reconcile

namespace HeliosLB

open Lib

/-! ## 1. Writes without an allocation -/

/-- The config without finalizers, texts, conditions and phases. -/
def HeliosConfig.core (hc : HeliosConfig) : HeliosConfig :=
  { hc with
    finalizers := []
    status := { allocatedIPs := hc.status.allocatedIPs
                allocatedIPv6s := hc.status.allocatedIPv6s } }

theorem HeliosConfig.core_eq {a b : HeliosConfig} (h : a.core = b.core) :
    a.key = b.key ∧ a.deleting = b.deleting ∧ a.spec = b.spec ∧
      a.status.allocatedIPs = b.status.allocatedIPs ∧
      a.status.allocatedIPv6s = b.status.allocatedIPv6s := by
  simp only [core, HeliosConfig.mk.injEq, HeliosConfigStatus.mk.injEq] at h
  exact ⟨h.1, h.2.2.2.1, h.2.2.2.2.1, h.2.2.2.2.2.1, h.2.2.2.2.2.2.1⟩

/-- **The two clusters differ in finalizers, texts, conditions and phases only.** -/
structure Cosmetic (c c' : Cluster) : Prop where
  services : c'.services = c.services
  configs : ∀ k,
    (c'.configs.find k).map HeliosConfig.core = (c.configs.find k).map HeliosConfig.core

namespace Cosmetic

theorem refl (c : Cluster) : Cosmetic c c := ⟨rfl, fun _ => rfl⟩

theorem trans {c c' c'' : Cluster} (h : Cosmetic c c') (h' : Cosmetic c' c'') : Cosmetic c c'' :=
  ⟨h'.services.trans h.services, fun k => (h'.configs k).trans (h.configs k)⟩

/-- Writing over a stored config one with the same core. -/
theorem replace {c : Cluster} {stored new : HeliosConfig}
    (hs : c.configs.find stored.key = some stored) (hn : new.core = stored.core) :
    Cosmetic c { c with configs := c.configs.replace new } := by
  have hk : new.key = stored.key := (HeliosConfig.core_eq hn).1
  refine ⟨rfl, fun k => ?_⟩
  by_cases h : stored.key = k
  · subst h
    rw [Store.find_replace hs hk, hs, Option.map_some, Option.map_some, hn]
  · rw [Store.find_replace_ne fun e => h (hk.symm.trans e)]

end Cosmetic

/-- The in-memory config is the stored one. -/
def Stored (hc : HeliosConfig) (c : Cluster) : Prop := c.configs.find hc.key = some hc

/-- The outcome of a cosmetic write of a config: an error, or the config in memory is stored. -/
structure CosmeticWrite (c : Cluster) (new : HeliosConfig) (r : WriteReply)
    (out : Except ApiError HeliosConfig × Cluster) : Prop where
  cosmetic : Cosmetic c out.2
  stored : ∀ hc, out.1 = .ok hc → hc = new ∧ Stored new out.2
  succeeds : r = .ok → out.1 = .ok new

theorem cosmeticWrite_commit {c : Cluster} {stored : HeliosConfig} (hs : Stored stored c)
    (new : HeliosConfig) (hn : new.core = stored.core) (r : WriteReply) :
    CosmeticWrite c new r (c.commit r new { c with configs := c.configs.replace new }) := by
  have hw := Cosmetic.replace hs hn
  cases r with
  | rejected e => exact ⟨Cosmetic.refl c, fun _ h => (nomatch h), fun h => nomatch h⟩
  | lost text => exact ⟨hw, fun _ h => (nomatch h), fun h => nomatch h⟩
  | ok =>
      refine ⟨hw, fun hc h => ⟨(Except.ok.inj h).symm, ?_⟩, fun _ => rfl⟩
      have hs' : c.configs.find new.key = some stored := (HeliosConfig.core_eq hn).1 ▸ hs
      exact Store.find_replace hs' rfl

/-- A status write that leaves the allocations alone. -/
theorem cosmeticWrite_status {c : Cluster} {stored : HeliosConfig} (hs : Stored stored c)
    (new : HeliosConfig) (hn : new.core = stored.core)
    (hm : { stored with status := new.status } = new) (r : WriteReply) :
    CosmeticWrite c new r (c.updateConfigStatus new r) := by
  rw [Cluster.updateConfigStatus_of_find (HeliosConfig.core_eq hn).1 hs, hm]
  exact cosmeticWrite_commit hs new hn r

theorem cosmeticWrite_addFinalizer {c : Cluster} {hc : HeliosConfig} (hs : Stored hc c)
    (r : WriteReply) :
    CosmeticWrite c (addFinalizer hc) r (c.updateConfig (addFinalizer hc) r) := by
  have hf : (addFinalizer hc).finalizers ≠ [] := by simp [addFinalizer]
  have hk : (addFinalizer hc).key = hc.key := rfl
  rw [Cluster.updateConfig_of_find hk hs hf]
  exact cosmeticWrite_commit hs (addFinalizer hc) rfl r

/-- **The finalizer step**: cosmetic, on success the config in memory is the stored one, and it
    succeeds if its writes do. -/
theorem ensureFinalizer_spec {hc : HeliosConfig} {c : Cluster} (hs : Stored hc c)
    (r : PassReplies) : Cosmetic c (ensureFinalizer hc c r).2 ∧
      (∀ hc', (ensureFinalizer hc c r).1 = .ok hc' →
        hc'.core = hc.core ∧ Stored hc' (ensureFinalizer hc c r).2) ∧
      (r.addFinalizer = .ok → r.initialStatus = .ok →
        ∃ hc', (ensureFinalizer hc c r).1 = .ok hc') := by
  unfold ensureFinalizer
  split
  · refine ⟨Cosmetic.refl c, fun hc' h => ?_, fun _ _ => ⟨hc, rfl⟩⟩
    cases h
    exact ⟨rfl, hs⟩
  · have hw := cosmeticWrite_addFinalizer hs r.addFinalizer
    generalize c.updateConfig (addFinalizer hc) r.addFinalizer = out at hw
    rcases out with ⟨e | hc₁, c₁⟩
    · exact ⟨hw.cosmetic, fun hc' h => (nomatch h), fun h => nomatch hw.succeeds h⟩
    · obtain ⟨rfl, hs₁⟩ := hw.stored hc₁ rfl
      have hi := cosmeticWrite_status hs₁ ((addFinalizer hc).setCondition .ready .false
        .initializing "HeliosConfig is initializing") rfl rfl r.initialStatus
      refine ⟨hw.cosmetic.trans hi.cosmetic, fun hc' h => ?_, fun _ h => ⟨_, hi.succeeds h⟩⟩
      obtain ⟨rfl, hs₂⟩ := hi.stored hc' h
      exact ⟨rfl, hs₂⟩

/-! ## 2. One iteration -/

@[simp] theorem servedConfig_key (hc : HeliosConfig) (svc : Service) (ip ipv6 : String) :
    (servedConfig hc svc ip ipv6).key = hc.key := rfl

@[simp] theorem servedConfig_spec (hc : HeliosConfig) (svc : Service) (ip ipv6 : String) :
    (servedConfig hc svc ip ipv6).spec = hc.spec := rfl

@[simp] theorem servedConfig_allocatedIPs (hc : HeliosConfig) (svc : Service) (ip ipv6 : String) :
    (servedConfig hc svc ip ipv6).status.allocatedIPs =
      hc.status.allocatedIPs.insert svc.key.name ip := rfl

@[simp] theorem servedConfig_allocatedIPv6s (hc : HeliosConfig) (svc : Service)
    (ip ipv6 : String) : (servedConfig hc svc ip ipv6).status.allocatedIPv6s =
      if ipv6 ≠ "" then hc.status.allocatedIPv6s.insert svc.key.name ipv6
      else hc.status.allocatedIPv6s := rfl

/-- The cluster with a config written over the stored one. -/
def Cluster.withConfig (c : Cluster) (hc : HeliosConfig) : Cluster :=
  { c with configs := c.configs.replace hc }

theorem Cluster.stored_withConfig {c : Cluster} {hc hc' : HeliosConfig} (hs : Stored hc c)
    (hk : hc'.key = hc.key) : Stored hc' (c.withConfig hc') := by
  unfold Stored
  rw [hk]
  exact Store.find_replace hs hk

/-- The event is about a Service the loop came to: served, or failed. -/
def RecordedEvent.onTurn (e : RecordedEvent) : Bool :=
  e.reason = "IPAllocated" ∨ e.reason = "AllocationFailed"

/-- How many Services the loop of a pass called the API server for. -/
def PassReport.turns (report : PassReport) : Nat := report.events.countP RecordedEvent.onTurn

theorem servedEvent_reason (svc : Service) (ip ipv6 : String) :
    (servedEvent svc ip ipv6).reason = "IPAllocated" := by
  unfold servedEvent
  split <;> rfl

@[simp]
theorem servedEvent_onTurn (svc : Service) (ip ipv6 : String) :
    (servedEvent svc ip ipv6).onTurn = true := by
  simp [RecordedEvent.onTurn, servedEvent_reason]

@[simp]
theorem failedEvent_onTurn (svc : Service) (f : AllocFailure) :
    (failedEvent svc f).onTurn = true := rfl

/-- **All that one iteration can do**, with the failure it reports, the world after it, and the
    config for the next iteration if there is one. -/
inductive TurnOutcome (retries : Nat) (hc : HeliosConfig) (svc : Service) (w : World)
    (r : TurnReplies) : Turn → Prop where
  | quota {report : PassReport} (hq : checkQuota hc ≠ none) (hf : report.failure = none) :
      TurnOutcome retries hc svc w r (.stop report w)
  | failed {report : PassReport} {f : AllocFailure} {w' : World} {c : Cluster}
      (hq : checkQuota hc = none) (ho : Outcome retries hc svc w r (.error f) w')
      (hw : Cosmetic w'.cluster c) (hf : report.failure = some f) (ht : 0 < report.turns) :
      TurnOutcome retries hc svc w r (.stop report ⟨c, w'.pool⟩)
  | unrecorded {report : PassReport} {ip ipv6 : String} {w' : World}
      (hq : checkQuota hc = none) (ho : Outcome retries hc svc w r (.ok (ip, ipv6)) w')
      (hr : r.recordStatus.stored = false) (hf : report.failure = none)
      (ht : 0 < report.turns) :
      TurnOutcome retries hc svc w r (.stop report w')
  | recordLost {report : PassReport} {ip ipv6 text : String} {w' : World}
      (hq : checkQuota hc = none) (ho : Outcome retries hc svc w r (.ok (ip, ipv6)) w')
      (hr : r.recordStatus = .lost text) (hf : report.failure = none) (ht : 0 < report.turns) :
      TurnOutcome retries hc svc w r
        (.stop report ⟨w'.cluster.withConfig (servedConfig hc svc ip ipv6), w'.pool⟩)
  | served {event : RecordedEvent} {ip ipv6 : String} {w' : World}
      (hq : checkQuota hc = none) (ho : Outcome retries hc svc w r (.ok (ip, ipv6)) w')
      (hr : r.recordStatus = .ok) (he : event.onTurn = true) :
      TurnOutcome retries hc svc w r (.next event (servedConfig hc svc ip ipv6)
        ⟨w'.cluster.withConfig (servedConfig hc svc ip ipv6), w'.pool⟩)

/-- An allocation does not touch the configs. -/
theorem Outcome.configs {retries : Nat} {hc : HeliosConfig} {svc : Service} {w w' : World}
    {r : TurnReplies} {res : Except AllocFailure (String × String)}
    (h : Outcome retries hc svc w r res w') : w'.cluster.configs = w.cluster.configs := by
  cases h <;> rfl

theorem Outcome.stored {retries : Nat} {hc hc' : HeliosConfig} {svc : Service} {w w' : World}
    {r : TurnReplies} {res : Except AllocFailure (String × String)}
    (h : Outcome retries hc svc w r res w') (hs : Stored hc' w.cluster) :
    Stored hc' w'.cluster := by
  unfold Stored
  rw [h.configs]
  exact hs

theorem serveService_outcome {hc : HeliosConfig} {w : World} (hs : Stored hc w.cluster)
    (retries : Nat) (svc : Service) (r : TurnReplies) :
    TurnOutcome retries hc svc w r (serveService retries hc svc w r) := by
  have ho := allocateAndAssign_outcome retries hc svc w r
  unfold serveService
  cases hq : checkQuota hc with
  | some e => exact .quota (by simp [hq]) rfl
  | none =>
      generalize allocateAndAssign retries hc svc w r = out at ho
      rcases out with ⟨f | ⟨ip, ipv6⟩, w'⟩
      · have hs' : Stored hc w'.cluster := ho.stored hs
        have hw := cosmeticWrite_status hs' (failedConfig hc f) rfl rfl r.failedStatus
        exact .failed hq ho hw.cosmetic rfl (by simp [PassReport.turns])
      · have hs' : Stored hc w'.cluster := ho.stored hs
        simp only
        rw [Cluster.updateConfigStatus_of_find (servedConfig_key hc svc ip ipv6) hs']
        cases hr : r.recordStatus with
        | rejected e => exact .unrecorded hq ho (by rw [hr]; rfl) rfl (by simp [PassReport.turns])
        | lost text => exact .recordLost hq ho hr rfl (by simp [PassReport.turns])
        | ok => exact .served hq ho hr (servedEvent_onTurn svc ip ipv6)

/-! ## 3. The loop -/

/-- **The rule for the loop.** `I` holds of the stored config and the world before each
    iteration, `P` of the replies to each one the loop came to; `Q` holds, with the failure
    reported, wherever the loop ends. -/
theorem serveServices_rule {retries : Nat} {svcs : List Service} {P : TurnReplies → Prop}
    {I : HeliosConfig → World → Prop} {Q : Option AllocFailure → World → Prop}
    (hend : ∀ hc w, Stored hc w.cluster → I hc w → Q none w)
    (hfailed : ∀ svc ∈ svcs, ∀ hc w r f w' c, Stored hc w.cluster → I hc w → P r →
      Outcome retries hc svc w r (.error f) w' → Cosmetic w'.cluster c → Q (some f) ⟨c, w'.pool⟩)
    (hunrecorded : ∀ svc ∈ svcs, ∀ hc w r ip ipv6 w', Stored hc w.cluster → I hc w → P r →
      r.recordStatus.stored = false → Outcome retries hc svc w r (.ok (ip, ipv6)) w' →
      Q none w')
    (hserved : ∀ svc ∈ svcs, ∀ hc w r ip ipv6 w', Stored hc w.cluster → I hc w → P r →
      checkQuota hc = none → Outcome retries hc svc w r (.ok (ip, ipv6)) w' →
      I (servedConfig hc svc ip ipv6)
        ⟨w'.cluster.withConfig (servedConfig hc svc ip ipv6), w'.pool⟩)
    {hc : HeliosConfig} {w : World} {turn : Nat → TurnReplies} (hs : Stored hc w.cluster)
    (hi : I hc w) (hok : ∀ n < (serveServices retries svcs hc w turn).1.turns, P (turn n)) :
    Q (serveServices retries svcs hc w turn).1.failure
      (serveServices retries svcs hc w turn).2 := by
  induction svcs generalizing hc w turn with
  | nil => exact hend hc w hs hi
  | cons svc rest ih =>
      have hmem : svc ∈ svc :: rest := List.mem_cons_self
      have ht := serveService_outcome hs retries svc (turn 0)
      rw [serveServices] at hok ⊢
      generalize serveService retries hc svc w (turn 0) = t at ht hok
      cases ht with
      | quota hq hf =>
          rw [hf]
          exact hend hc w hs hi
      | failed hq ho hw hf hpos =>
          rw [hf]
          exact hfailed svc hmem hc w _ _ _ _ hs hi (hok 0 hpos) ho hw
      | unrecorded hq ho hr hf hpos =>
          rw [hf]
          exact hunrecorded svc hmem hc w _ _ _ _ hs hi (hok 0 hpos) hr ho
      | recordLost hq ho hr hf hpos =>
          rw [hf]
          exact hend _ _ (Cluster.stored_withConfig (ho.stored hs) rfl)
            (hserved svc hmem hc w _ _ _ _ hs hi (hok 0 hpos) hq ho)
      | served hq ho hr he =>
          simp only [PassReport.turns, List.countP_cons_of_pos he] at hok
          have h := hserved svc hmem hc w _ _ _ _ hs hi (hok 0 (Nat.succ_pos _)) hq ho
          exact ih (fun s m => hfailed s (List.mem_cons_of_mem _ m))
            (fun s m => hunrecorded s (List.mem_cons_of_mem _ m))
            (fun s m => hserved s (List.mem_cons_of_mem _ m))
            (Cluster.stored_withConfig (ho.stored hs) rfl) h
            fun n hn => hok (n + 1) (Nat.succ_lt_succ hn)

/-! ## 4. The pass -/

theorem reconcileServices_cases (retries : Nat) {hc : HeliosConfig} {w : World}
    (hs : Stored hc w.cluster) (r : PassReplies) :
    (Cosmetic w.cluster (reconcileServices retries hc w r).2.cluster ∧
        (reconcileServices retries hc w r).2.pool = w.pool ∧
        (reconcileServices retries hc w r).1.failure = none) ∨
      reconcileServices retries hc w r =
        serveServices retries (hc.eligibleServices w.cluster.services.objects) hc w r.turn := by
  unfold reconcileServices
  cases r.listServices with
  | failed e => exact Or.inl ⟨Cosmetic.refl _, rfl, rfl⟩
  | ok =>
      cases r.listConfigs with
      | failed e => exact Or.inl ⟨Cosmetic.refl _, rfl, rfl⟩
      | ok =>
          simp only
          split
          · have hw := cosmeticWrite_status hs
              (conflictedConfig hc (checkIPConflicts hc w.cluster.configs.objects)) rfl rfl
              r.conflictStatus
            exact Or.inl ⟨hw.cosmetic, rfl, rfl⟩
          · exact Or.inr rfl

/-- **What a pass is**: it writes nothing but texts, or it is a deletion, or it is the loop over
    the eligible Services. The latter two start from a cosmetic change of the cluster. -/
theorem reconcile_cases (retries : Nat) (req : NamespacedName) (w : World) (r : PassReplies) :
    (Cosmetic w.cluster (reconcile retries req w r).2.cluster ∧
        (reconcile retries req w r).2.pool = w.pool ∧
        (reconcile retries req w r).1.failure = none) ∨
      ∃ hc₀ hc c, w.cluster.configs.find req = some hc₀ ∧ hc.core = hc₀.core ∧
        Cosmetic w.cluster c ∧ Stored hc c ∧
        ((hc.deleting = true ∧ reconcile retries req w r = handleDeletion hc ⟨c, w.pool⟩ r) ∨
          (hc.deleting = false ∧ reconcile retries req w r =
            serveServices retries (hc.eligibleServices w.cluster.services.objects) hc ⟨c, w.pool⟩
              r.turn)) := by
  unfold reconcile
  cases r.getConfig with
  | failed e => exact Or.inl ⟨Cosmetic.refl _, rfl, rfl⟩
  | ok =>
      cases hf : w.cluster.configs.find req with
      | none => exact Or.inl ⟨Cosmetic.refl _, rfl, rfl⟩
      | some hc₀ =>
          obtain ⟨hm, rfl⟩ := Store.find_eq_some.mp hf
          have he := ensureFinalizer_spec hf r
          simp only
          generalize ensureFinalizer hc₀ w.cluster r = out at he
          rcases out with ⟨e | hc, c⟩
          · exact Or.inl ⟨he.1, rfl, rfl⟩
          · obtain ⟨hcore, hs⟩ := he.2.1 hc rfl
            simp only
            split
            · rename_i hd
              exact Or.inr ⟨hc₀, hc, c, rfl, hcore, he.1, hs, Or.inl ⟨hd, rfl⟩⟩
            · rename_i hd
              rcases reconcileServices_cases retries (w := ⟨c, w.pool⟩) hs r with h | h
              · exact Or.inl ⟨he.1.trans h.1, h.2⟩
              · refine Or.inr ⟨hc₀, hc, c, rfl, hcore, he.1, hs, Or.inr ⟨by simpa using hd, ?_⟩⟩
                have hsv : c.services = w.cluster.services := he.1.services
                rw [h, hsv]

end HeliosLB
