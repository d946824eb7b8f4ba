/-
  File:      HeliosLB/Controller/Telemetry.lean
  Subject:   WHAT A PASS TELLS THE METRICS (the recorder calls of heliosconfig_controller.go and
             ip_manager.go, and the recorders of internal/metrics/metrics.go they call).

  `Reconcile` defers three recorders: they see the config AS IT STANDS IN MEMORY when the pass
  returns, not the stored one. The durations are left out.

  * `Registry`, `MetricCall` -- the vectors the controller writes, and one call of a recorder;
  * `traceServices`, `tracePass`, `passCalls` -- the calls of a pass in order, beside
    `serveServices` and `reconcile`, with the in-memory config it ends with;
  * `LoopTrace`, **`serveServices_trace`** -- how calls, report and world of the loop go together;
  * **`gauges_show_stored`** -- if the status writes of the loop are stored, both gauges of a config
    show the stored one;
  * **`error_label_iff`** -- which passes count as failed: not those that return an error.
-/
import HeliosLB.Controller.Report
import HeliosLB.Controller.Rewrites

namespace HeliosLB

open Lib

/-! ## 1. The registry -/

/-- The vectors the controller writes, by their label values (name and namespace of a config are
    one `NamespacedName`). The gauges hold floats in the source, all of them whole numbers. -/
structure Registry where
  ipAllocationStatus : String → Option Int
  lbStatus : NamespacedName → Option Int
  ipPoolUtilization : NamespacedName → Option Int
  reconcileTotal : NamespacedName × String → Nat
  requeueReasonTotal : NamespacedName × String → Nat

/-- The registry of a process that has just started. -/
def Registry.empty : Registry := ⟨fun _ => none, fun _ => none, fun _ => none, 0, 0⟩

namespace Registry

/-- `RecordIPAllocation`. -/
def recordIPAllocation (g : Registry) (ipAddress : String) (allocated : Bool) : Registry :=
  { g with
    ipAllocationStatus :=
      Function.update g.ipAllocationStatus ipAddress (some (if allocated then 1 else 0)) }

/-- `RecordLBStatus`. -/
def recordLBStatus (g : Registry) (k : NamespacedName) (active : Bool) : Registry :=
  { g with lbStatus := Function.update g.lbStatus k (some (if active then 1 else 0)) }

/-- `RecordIPPoolUtilization`. -/
def recordIPPoolUtilization (g : Registry) (k : NamespacedName) (count : Nat) : Registry :=
  { g with ipPoolUtilization := Function.update g.ipPoolUtilization k (some count) }

/-- `RecordReconcileDuration`, its counter. -/
def recordReconcileDuration (g : Registry) (k : NamespacedName) (result : String) : Registry :=
  { g with
    reconcileTotal :=
      Function.update g.reconcileTotal (k, result) (g.reconcileTotal (k, result) + 1) }

/-- `RecordRequeueReason`. -/
def recordRequeueReason (g : Registry) (k : NamespacedName) (reason : String) : Registry :=
  { g with
    requeueReasonTotal :=
      Function.update g.requeueReasonTotal (k, reason) (g.requeueReasonTotal (k, reason) + 1) }

theorem recordIPAllocation_status (g : Registry) (ipAddress ip : String) (allocated : Bool) :
    (g.recordIPAllocation ipAddress allocated).ipAllocationStatus ip =
      if ip = ipAddress then some (if allocated then 1 else 0) else g.ipAllocationStatus ip :=
  Function.update_apply _ _ _ _

end Registry

/-- One call of a recorder. -/
inductive MetricCall where
  | ipAllocation (ipAddress : String) (allocated : Bool)
  | lbStatus (k : NamespacedName) (active : Bool)
  | ipPoolUtilization (k : NamespacedName) (count : Nat)
  | reconcileDuration (k : NamespacedName) (result : String)
  | requeueReason (k : NamespacedName) (reason : String)
  deriving DecidableEq, Repr

def Registry.record (g : Registry) : MetricCall → Registry
  | .ipAllocation ip allocated => g.recordIPAllocation ip allocated
  | .lbStatus k active => g.recordLBStatus k active
  | .ipPoolUtilization k count => g.recordIPPoolUtilization k count
  | .reconcileDuration k result => g.recordReconcileDuration k result
  | .requeueReason k reason => g.recordRequeueReason k reason

/-! ## 2. The calls of a pass -/

/-- The calls made until the pass returns, and the in-memory config it returns with. -/
structure Trace where
  calls : List MetricCall
  memory : HeliosConfig

/-- A write that succeeds overwrites the object in memory. -/
def inMemory (hc : HeliosConfig) : Except ApiError HeliosConfig → HeliosConfig
  | .ok stored => stored
  | .error _ => hc

/-- What `AllocateAndAssign` records when it succeeds. -/
def allocatedCalls (ip ipv6 : String) : List MetricCall :=
  (ingressOf ip ipv6).map fun a => .ipAllocation a true

/-- The calls of the loop of `Reconcile`, the end of the function included. -/
def traceServices (retries : Nat) :
    List Service → HeliosConfig → World → (Nat → TurnReplies) → Trace
  | [], hc, _, _ => ⟨[.requeueReason hc.key "periodic"], hc⟩
  | svc :: rest, hc, w, turn =>
    match checkQuota hc with
    | some _ => ⟨[.requeueReason hc.key "periodic"], hc⟩
    | none =>
      match allocateAndAssign retries hc svc w (turn 0) with
      | (.error f, w) =>
        ⟨[.requeueReason hc.key "ip_allocation_error"], inMemory (failedConfig hc f)
          (w.cluster.updateConfigStatus (failedConfig hc f) (turn 0).failedStatus).1⟩
      | (.ok (ip, ipv6), w) =>
        match w.cluster.updateConfigStatus (servedConfig hc svc ip ipv6) (turn 0).recordStatus with
        | (.error _, _) => ⟨allocatedCalls ip ipv6, servedConfig hc svc ip ipv6⟩
        | (.ok hc, c) =>
          let t := traceServices retries rest hc { w with cluster := c } fun k => turn (k + 1)
          ⟨allocatedCalls ip ipv6 ++ t.calls, t.memory⟩

/-- The calls of `handleDeletion`, those of `ReleaseAll`. -/
def traceDeletion (hc : HeliosConfig) (w : World) (r : PassReplies) : Trace :=
  if heliosConfigFinalizer ∈ hc.finalizers then
    ⟨hc.recorded.map fun a => .ipAllocation a false, inMemory (removeFinalizer hc)
      ((releaseAll hc w r.release).cluster.updateConfig (removeFinalizer hc) r.removeFinalizer).1⟩
  else ⟨[], hc⟩

/-- The in-memory config after the finalizer step, whether it succeeds or not. -/
def finalizerMemory (hc : HeliosConfig) (c : Cluster) (r : PassReplies) : HeliosConfig :=
  if heliosConfigFinalizer ∈ hc.finalizers then hc
  else
    match c.updateConfig (addFinalizer hc) r.addFinalizer with
    | (.error _, _) => addFinalizer hc
    | (.ok hc, c) =>
      let hc := hc.setCondition .ready .false .initializing "HeliosConfig is initializing"
      inMemory hc (c.updateConfigStatus hc r.initialStatus).1

/-- The calls of a pass over a config that is not being deleted. -/
def traceReconcileServices (retries : Nat) (hc : HeliosConfig) (w : World) (r : PassReplies) :
    Trace :=
  match r.listServices with
  | .failed _ => ⟨[], hc⟩
  | .ok =>
    match r.listConfigs with
    | .failed _ => ⟨[], hc⟩
    | .ok =>
      let conflicts := checkIPConflicts hc w.cluster.configs.objects
      if StringMap.len conflicts > 0 then
        ⟨[.requeueReason hc.key "ip_conflict"], inMemory (conflictedConfig hc conflicts)
          (w.cluster.updateConfigStatus (conflictedConfig hc conflicts) r.conflictStatus).1⟩
      else
        traceServices retries (hc.eligibleServices w.cluster.services.objects) hc w r.turn

/-- The calls of `Reconcile` before the deferred ones; none is deferred if no config was read. -/
def tracePass (retries : Nat) (req : NamespacedName) (w : World) (r : PassReplies) :
    Option Trace :=
  match r.getConfig with
  | .failed _ => none
  | .ok =>
    match w.cluster.configs.find req with
    | none => none
    | some hc =>
      match ensureFinalizer hc w.cluster r with
      | (.error _, _) => some ⟨[], finalizerMemory hc w.cluster r⟩
      | (.ok hc, c) =>
        if hc.deleting then some (traceDeletion hc { w with cluster := c } r)
        else some (traceReconcileServices retries hc { w with cluster := c } r)

/-- The label of `reconcileTotal`. -/
def resultLabel (memory : HeliosConfig) : String :=
  if memory.status.phase = .failed then "error" else "success"

/-- The deferred function of `Reconcile`. -/
def deferredCalls (memory : HeliosConfig) : List MetricCall :=
  [.reconcileDuration memory.key (resultLabel memory),
    .lbStatus memory.key (memory.status.phase = .active),
    .ipPoolUtilization memory.key (StringMap.len memory.status.allocatedIPs)]

def Trace.all (t : Trace) : List MetricCall := t.calls ++ deferredCalls t.memory

/-- All calls of `Reconcile`. -/
def passCalls (retries : Nat) (req : NamespacedName) (w : World) (r : PassReplies) :
    List MetricCall :=
  ((tracePass retries req w r).map Trace.all).getD []

/-! ## 3. The loop -/

/-- **How the calls of the loop go with its report and the world after it.** -/
inductive LoopTrace (retries : Nat) : List Service → HeliosConfig → World → (Nat → TurnReplies) →
    PassReport × World → Trace → Prop where
  | done {hc : HeliosConfig} {w : World} {turn : Nat → TurnReplies} :
      LoopTrace retries [] hc w turn ({ result := .ok 5 }, w)
        ⟨[.requeueReason hc.key "periodic"], hc⟩
  | quota {svc : Service} {rest : List Service} {hc : HeliosConfig} {w : World}
      {turn : Nat → TurnReplies} :
      LoopTrace retries (svc :: rest) hc w turn
        ({ result := .ok 5, events := [quotaEvent hc] }, w)
        ⟨[.requeueReason hc.key "periodic"], hc⟩
  | failed {svc : Service} {rest : List Service} {hc : HeliosConfig} {w w' : World}
      {turn : Nat → TurnReplies} {f : AllocFailure} {c : Cluster}
      (ho : Outcome retries hc svc w (turn 0) (.error f) w')
      (hw : (turn 0).failedStatus.stored = true → Stored (failedConfig hc f) c)
      (hv : c.services = w'.cluster.services) :
      LoopTrace retries (svc :: rest) hc w turn
        ({ result := .ok 10, events := [failedEvent svc f], failure := some f }, ⟨c, w'.pool⟩)
        ⟨[.requeueReason hc.key "ip_allocation_error"], failedConfig hc f⟩
  | unrecorded {svc : Service} {rest : List Service} {hc : HeliosConfig} {w w' : World}
      {turn : Nat → TurnReplies} {ip ipv6 : String} {e : ApiError} {c : Cluster}
      (ho : Outcome retries hc svc w (turn 0) (.ok (ip, ipv6)) w')
      (hw : (turn 0).recordStatus.stored = true → Stored (servedConfig hc svc ip ipv6) c)
      (hv : c.services = w'.cluster.services) :
      LoopTrace retries (svc :: rest) hc w turn
        ({ result := .error e, events := [servedEvent svc ip ipv6] }, ⟨c, w'.pool⟩)
        ⟨allocatedCalls ip ipv6, servedConfig hc svc ip ipv6⟩
  | served {svc : Service} {rest : List Service} {hc : HeliosConfig} {w w' : World}
      {turn : Nat → TurnReplies} {ip ipv6 : String} {res : PassReport × World} {t : Trace}
      (ho : Outcome retries hc svc w (turn 0) (.ok (ip, ipv6)) w')
      (hs : Stored (servedConfig hc svc ip ipv6)
        (w'.cluster.withConfig (servedConfig hc svc ip ipv6)))
      (h : LoopTrace retries rest (servedConfig hc svc ip ipv6)
        ⟨w'.cluster.withConfig (servedConfig hc svc ip ipv6), w'.pool⟩ (fun k => turn (k + 1))
        res t) :
      LoopTrace retries (svc :: rest) hc w turn
        ({ res.1 with events := servedEvent svc ip ipv6 :: res.1.events }, res.2)
        ⟨allocatedCalls ip ipv6 ++ t.calls, t.memory⟩

/-- A status write that keeps the rest of the stored config: what is in memory afterwards, and what
    is stored. -/
theorem updateConfigStatus_memory {hc : HeliosConfig} {c : Cluster} (hs : Stored hc c)
    (new : HeliosConfig) (hk : new.key = hc.key) (hm : { hc with status := new.status } = new)
    (r : WriteReply) :
    inMemory new (c.updateConfigStatus new r).1 = new ∧
      (r.stored = true → Stored new (c.updateConfigStatus new r).2) := by
  rw [Cluster.updateConfigStatus_of_find hk hs, hm]
  have hst : Stored new (c.withConfig new) := Cluster.stored_withConfig hs hk
  cases r with
  | ok => exact ⟨rfl, fun _ => hst⟩
  | rejected e => exact ⟨rfl, fun h => nomatch h⟩
  | lost text => exact ⟨rfl, fun _ => hst⟩

theorem serveServices_trace (retries : Nat) {svcs : List Service} {hc : HeliosConfig} {w : World}
    (hs : Stored hc w.cluster) (turn : Nat → TurnReplies) :
    LoopTrace retries svcs hc w turn (serveServices retries svcs hc w turn)
      (traceServices retries svcs hc w turn) := by
  induction svcs generalizing hc w turn with
  | nil => exact .done
  | cons svc rest ih =>
      rw [serveServices, serveService, traceServices]
      cases hq : checkQuota hc with
      | some e => exact .quota
      | none =>
          have ho := allocateAndAssign_outcome retries hc svc w (turn 0)
          generalize allocateAndAssign retries hc svc w (turn 0) = out at ho
          rcases out with ⟨f | ⟨ip, ipv6⟩, w'⟩
          · obtain ⟨hmem, hst⟩ := updateConfigStatus_memory (ho.stored hs) (failedConfig hc f) rfl
              rfl (turn 0).failedStatus
            simp only [hmem]
            exact .failed ho hst (Cluster.updateConfigStatus_services _ _ _)
          · have hs' : Stored hc w'.cluster := ho.stored hs
            have hst := (updateConfigStatus_memory hs' (servedConfig hc svc ip ipv6) rfl rfl
              (turn 0).recordStatus).2
            simp only
            rw [Cluster.updateConfigStatus_of_find (servedConfig_key hc svc ip ipv6) hs'] at hst ⊢
            cases hr : (turn 0).recordStatus with
            | rejected e =>
                rw [hr] at hst
                exact .unrecorded ho (by rw [hr]; exact hst) rfl
            | lost text =>
                rw [hr] at hst
                exact .unrecorded ho (by rw [hr]; exact hst) rfl
            | ok =>
                have hnext := Cluster.stored_withConfig hs' (servedConfig_key hc svc ip ipv6)
                exact .served ho hnext (ih hnext _)

/-! ## 4. The pass -/

/-- What the deferred gauges look at. -/
def HeliosConfig.gauged (hc : HeliosConfig) : Phase × Nat :=
  (hc.status.phase, StringMap.len hc.status.allocatedIPs)

/-- The config stored under the key, if there is one, would be gauged so. -/
def Shows (c : Cluster) (k : NamespacedName) (v : Phase × Nat) : Prop :=
  ∀ hc, c.configs.find k = some hc → hc.gauged = v

theorem Stored.shows {hc : HeliosConfig} {c : Cluster} (h : Stored hc c) :
    Shows c hc.key hc.gauged := by
  intro hc' hf
  rw [Option.some.inj (hf.symm.trans h)]

theorem Shows.of_configs {c c' : Cluster} {k : NamespacedName} {v : Phase × Nat} (h : Shows c k v)
    (hc : c'.configs = c.configs) : Shows c' k v := by
  unfold Shows
  rw [hc]
  exact h

/-- A write of a status that is gauged alike. -/
theorem updateConfigStatus_shows {hc : HeliosConfig} {c : Cluster} (hs : Stored hc c)
    (new : HeliosConfig) (hk : new.key = hc.key) (hg : new.gauged = hc.gauged) (r : WriteReply) :
    Shows (c.updateConfigStatus new r).2 hc.key hc.gauged := by
  have hst : Stored { hc with status := new.status }
      (c.withConfig { hc with status := new.status }) := Cluster.stored_withConfig hs rfl
  have hnew : Shows (c.withConfig { hc with status := new.status }) hc.key hc.gauged :=
    fun hc' hf => (hst.shows hc' hf).trans hg
  rw [Cluster.updateConfigStatus_of_find hk hs]
  cases r with
  | ok => exact hnew
  | rejected e => exact hs.shows
  | lost text => exact hnew

/-- A plain write does not touch the status. -/
theorem updateConfig_shows {hc : HeliosConfig} {c : Cluster} (hs : Stored hc c)
    (new : HeliosConfig) (hk : new.key = hc.key) (r : WriteReply) :
    Shows (c.updateConfig new r).2 hc.key hc.gauged ∧
      (inMemory new (c.updateConfig new r).1).key = hc.key ∧
      (new.gauged = hc.gauged → (inMemory new (c.updateConfig new r).1).gauged = hc.gauged) := by
  have hwritten : Shows { c with
      configs := if hc.deleting ∧ new.finalizers = [] then c.configs.delete hc.key
        else c.configs.replace { hc with finalizers := new.finalizers, spec := new.spec } }
      hc.key hc.gauged := by
    intro hc' hf
    simp only at hf
    split at hf
    · exact absurd (Store.find_eq_some.mp hf).2 (Store.mem_delete.mp (Store.find_eq_some.mp hf).1).2
    · have hst : Stored { hc with finalizers := new.finalizers, spec := new.spec }
          (c.withConfig { hc with finalizers := new.finalizers, spec := new.spec }) :=
        Cluster.stored_withConfig hs rfl
      exact hst.shows hc' hf
  rw [Cluster.updateConfig, hk, hs]
  cases r with
  | ok => exact ⟨hwritten, rfl, fun _ => rfl⟩
  | rejected e => exact ⟨hs.shows, hk, fun h => h⟩
  | lost text => exact ⟨hwritten, hk, fun h => h⟩

/-- The finalizer step leaves what is gauged, stored and in memory. -/
theorem ensureFinalizer_shows {hc : HeliosConfig} {c : Cluster} (hs : Stored hc c)
    (r : PassReplies) :
    Shows (ensureFinalizer hc c r).2 hc.key hc.gauged ∧
      (finalizerMemory hc c r).gauged = hc.gauged ∧ (finalizerMemory hc c r).key = hc.key ∧
      ∀ hc', (ensureFinalizer hc c r).1 = .ok hc' → hc'.gauged = hc.gauged := by
  unfold ensureFinalizer finalizerMemory
  split
  · exact ⟨hs.shows, rfl, rfl, fun hc' h => by rw [Except.ok.inj h]⟩
  · have hw := cosmeticWrite_addFinalizer hs r.addFinalizer
    have hshows := (updateConfig_shows hs (addFinalizer hc) rfl r.addFinalizer).1
    generalize c.updateConfig (addFinalizer hc) r.addFinalizer = out at hw hshows
    rcases out with ⟨e | hc₁, c₁⟩
    · exact ⟨hshows, rfl, rfl, fun hc' h => nomatch h⟩
    · obtain ⟨rfl, hs₁⟩ := hw.stored hc₁ rfl
      have hmem := (updateConfigStatus_memory hs₁ (initialized hc) rfl rfl
        r.initialStatus).1
      have hst := cosmeticWrite_status hs₁ (initialized hc) rfl rfl r.initialStatus
      refine ⟨updateConfigStatus_shows hs₁ (initialized hc) rfl rfl r.initialStatus,
        (congrArg HeliosConfig.gauged hmem).trans rfl, (congrArg HeliosConfig.key hmem).trans rfl,
        fun hc' h => ?_⟩
      rw [(hst.stored hc' h).1]
      rfl

/-- The label `RecordRequeueReason` gets in a pass that ends so. -/
def requeueLabel : Except ApiError Nat → Option String
  | .ok 30 => some "ip_conflict"
  | .ok 10 => some "ip_allocation_error"
  | .ok 5 => some "periodic"
  | _ => none

/-- **How the calls of a pass go with its report and the world after it**: what is gauged was not
    touched, or the config's addresses were released, or the loop ran. -/
inductive PassTrace (retries : Nat) (hc₀ : HeliosConfig) (w : World) (r : PassReplies) :
    PassReport × World → Trace → Prop where
  | quiet {report : PassReport} {c : Cluster} {t : Trace} (hg : t.memory.gauged = hc₀.gauged)
      (hk : t.memory.key = hc₀.key) (hs : Shows c hc₀.key hc₀.gauged)
      (hv : c.services = w.cluster.services)
      (hc : t.calls = ((requeueLabel report.result).map (.requeueReason hc₀.key)).toList)
      (he : ∀ e ∈ report.events, e.reason ≠ "IPAllocated") (hf : report.failure = none) :
      PassTrace retries hc₀ w r (report, ⟨c, w.pool⟩) t
  | release {report : PassReport} {c : Cluster} {t : Trace} (hg : t.memory.gauged = hc₀.gauged)
      (hk : t.memory.key = hc₀.key) (hs : Shows c hc₀.key hc₀.gauged) (hd : hc₀.deleting = true)
      (hc : t.calls = hc₀.recorded.map fun a => .ipAllocation a false)
      (hr : requeueLabel report.result = none)
      (he : ∀ e ∈ report.events, e.reason ≠ "IPAllocated") (hf : report.failure = none) :
      PassTrace retries hc₀ w r (report, ⟨c, hc₀.recorded.foldl IPAllocator.releaseIP w.pool⟩) t
  | loop {hc : HeliosConfig} {c : Cluster} {res : PassReport × World} {t : Trace}
      (hg : hc.gauged = hc₀.gauged) (hcore : hc.core = hc₀.core) (hs : Stored hc c)
      (hv : c.services = w.cluster.services)
      (h : LoopTrace retries (hc.eligibleServices c.services.objects) hc ⟨c, w.pool⟩ r.turn res t) :
      PassTrace retries hc₀ w r res t

theorem handleDeletion_trace (retries : Nat) {hc₀ hc : HeliosConfig} {c : Cluster} {w : World}
    (hg : hc.gauged = hc₀.gauged) (hcore : hc.core = hc₀.core) (hs : Stored hc c)
    (hv : c.services = w.cluster.services) (hd : hc.deleting = true) (r : PassReplies) :
    PassTrace retries hc₀ w r (handleDeletion hc ⟨c, w.pool⟩ r)
      (traceDeletion hc ⟨c, w.pool⟩ r) := by
  obtain ⟨hk, hdel, -, h4, h6⟩ := HeliosConfig.core_eq hcore
  rw [hdel] at hd
  have hrec : hc.recorded = hc₀.recorded := by
    unfold HeliosConfig.recorded
    rw [h4, h6]
  unfold handleDeletion traceDeletion
  split
  · have hst : Stored hc (releaseAll hc ⟨c, w.pool⟩ r.release).cluster := by
      unfold Stored
      rw [releaseAll_configs]
      exact hs
    obtain ⟨hshows, hmk, hmg⟩ := updateConfig_shows hst (removeFinalizer hc) rfl
      r.removeFinalizer
    have hpool : (releaseAll hc ⟨c, w.pool⟩ r.release).pool =
        hc₀.recorded.foldl IPAllocator.releaseIP w.pool := by
      rw [← hrec]
      rfl
    rw [hk, hg] at hshows
    simp only [hpool, hrec]
    generalize (releaseAll hc ⟨c, w.pool⟩ r.release).cluster.updateConfig (removeFinalizer hc)
      r.removeFinalizer = out at hshows hmk hmg
    rcases out with ⟨e | hc₁, c₁⟩
    · refine .release ((hmg rfl).trans hg) (hmk.trans hk) hshows hd rfl rfl ?_ rfl
      simp
    · refine .release ((hmg rfl).trans hg) (hmk.trans hk) hshows hd rfl rfl ?_ rfl
      simp
  · exact .quiet hg hk (hk ▸ hg ▸ hs.shows) hv rfl (fun e he => nomatch he) rfl

theorem reconcileServices_trace (retries : Nat) {hc₀ hc : HeliosConfig} {c : Cluster} {w : World}
    (hg : hc.gauged = hc₀.gauged) (hcore : hc.core = hc₀.core) (hs : Stored hc c)
    (hv : c.services = w.cluster.services) (r : PassReplies) :
    PassTrace retries hc₀ w r (reconcileServices retries hc ⟨c, w.pool⟩ r)
      (traceReconcileServices retries hc ⟨c, w.pool⟩ r) := by
  have hk := (HeliosConfig.core_eq hcore).1
  have hshows : Shows c hc₀.key hc₀.gauged := hk ▸ hg ▸ hs.shows
  unfold reconcileServices traceReconcileServices
  cases r.listServices with
  | failed e => exact .quiet hg hk hshows hv rfl (fun e he => nomatch he) rfl
  | ok =>
      cases r.listConfigs with
      | failed e => exact .quiet hg hk hshows hv rfl (fun e he => nomatch he) rfl
      | ok =>
          simp only
          split
          · obtain ⟨hmem, -⟩ := updateConfigStatus_memory hs
              (conflictedConfig hc (checkIPConflicts hc c.configs.objects)) rfl rfl r.conflictStatus
            have hw := updateConfigStatus_shows hs
              (conflictedConfig hc (checkIPConflicts hc c.configs.objects)) rfl rfl r.conflictStatus
            rw [hmem]
            rw [hk, hg] at hw
            refine .quiet hg hk hw ((Cluster.updateConfigStatus_services _ _ _).trans hv)
              (by rw [hk]; rfl) (fun e he => ?_) rfl
            rw [List.mem_singleton.mp he]
            simp [conflictEvent]
          · exact .loop hg hcore hs hv (serveServices_trace retries hs r.turn)

/-- **Every pass that reads its config leaves such a trace.** -/
theorem reconcile_trace (retries : Nat) {req : NamespacedName} {w : World} {hc₀ : HeliosConfig}
    (hf : w.cluster.configs.find req = some hc₀) {r : PassReplies} (hget : r.getConfig = .ok) :
    ∃ t, tracePass retries req w r = some t ∧
      PassTrace retries hc₀ w r (reconcile retries req w r) t := by
  obtain ⟨-, rfl⟩ := Store.find_eq_some.mp hf
  have hs : Stored hc₀ w.cluster := hf
  obtain ⟨hcosm, hok, -⟩ := ensureFinalizer_spec hs r
  obtain ⟨hshows, hmg, hmk, hgok⟩ := ensureFinalizer_shows hs r
  unfold tracePass reconcile
  rw [hget, hf]
  simp only
  generalize ensureFinalizer hc₀ w.cluster r = out at hcosm hok hshows hgok
  rcases out with ⟨e | hc, c⟩
  · have hevents : ∀ e ∈ ([] : List RecordedEvent), e.reason ≠ "IPAllocated" :=
      fun _ h => absurd h List.not_mem_nil
    exact ⟨_, rfl, .quiet hmg hmk hshows hcosm.services rfl hevents rfl⟩
  · obtain ⟨hcore, hst⟩ := hok hc rfl
    have hg := hgok hc rfl
    simp only
    split
    · rename_i hd
      exact ⟨_, rfl, handleDeletion_trace retries hg hcore hst hcosm.services hd r⟩
    · exact ⟨_, rfl, reconcileServices_trace retries hg hcore hst hcosm.services r⟩

/-! ## 5. The counters of one pass -/

/-- The entry of `requeueReasonTotal` a call counts up. -/
def MetricCall.requeued : MetricCall → Option (NamespacedName × String)
  | .requeueReason k reason => some (k, reason)
  | _ => none

/-- The entry of `reconcileTotal` a call counts up. -/
def MetricCall.finished : MetricCall → Option (NamespacedName × String)
  | .reconcileDuration k result => some (k, result)
  | _ => none

@[simp] theorem filterMap_requeued_allocations (l : List String) (b : Bool) :
    (l.map fun a => MetricCall.ipAllocation a b).filterMap MetricCall.requeued = [] := by
  simp [MetricCall.requeued, List.filterMap_map]

@[simp] theorem filterMap_finished_allocations (l : List String) (b : Bool) :
    (l.map fun a => MetricCall.ipAllocation a b).filterMap MetricCall.finished = [] := by
  simp [MetricCall.finished, List.filterMap_map]

/-- The loop counts its end, and nothing else, as a requeue. -/
theorem LoopTrace.counted {retries : Nat} {svcs : List Service} {hc : HeliosConfig} {w : World}
    {turn : Nat → TurnReplies} {res : PassReport × World} {t : Trace}
    (h : LoopTrace retries svcs hc w turn res t) :
    t.calls.filterMap MetricCall.requeued = ((requeueLabel res.1.result).map (hc.key, ·)).toList ∧
      t.calls.filterMap MetricCall.finished = [] := by
  induction h with
  | done => exact ⟨rfl, rfl⟩
  | quota => exact ⟨rfl, rfl⟩
  | failed ho hw hv => exact ⟨rfl, rfl⟩
  | unrecorded ho hw hv =>
      exact ⟨filterMap_requeued_allocations _ _, filterMap_finished_allocations _ _⟩
  | served ho hs h ih =>
      simp only [allocatedCalls, List.filterMap_append, filterMap_requeued_allocations,
        filterMap_finished_allocations, List.nil_append]
      exact ih

theorem PassTrace.counted {retries : Nat} {hc₀ : HeliosConfig} {w : World} {r : PassReplies}
    {res : PassReport × World} {t : Trace} (h : PassTrace retries hc₀ w r res t) :
    t.calls.filterMap MetricCall.requeued =
        ((requeueLabel res.1.result).map (hc₀.key, ·)).toList ∧
      t.calls.filterMap MetricCall.finished = [] := by
  cases h with
  | @quiet report c t hg hk hs hv hc he hf =>
      rw [hc]
      cases requeueLabel report.result with
      | none => exact ⟨rfl, rfl⟩
      | some label => exact ⟨rfl, rfl⟩
  | release hg hk hs hd hc hr he hf =>
      rw [hc, hr]
      exact ⟨filterMap_requeued_allocations _ _, filterMap_finished_allocations _ _⟩
  | loop hg hcore hs hv h =>
      rw [← (HeliosConfig.core_eq hcore).1]
      exact h.counted

/-- The in-memory config is the requested one. -/
theorem LoopTrace.key {retries : Nat} {svcs : List Service} {hc : HeliosConfig} {w : World}
    {turn : Nat → TurnReplies} {res : PassReport × World} {t : Trace}
    (h : LoopTrace retries svcs hc w turn res t) : t.memory.key = hc.key := by
  induction h with
  | served ho hs h ih => exact ih
  | _ => rfl

theorem PassTrace.key {retries : Nat} {hc₀ : HeliosConfig} {w : World} {r : PassReplies}
    {res : PassReport × World} {t : Trace} (h : PassTrace retries hc₀ w r res t) :
    t.memory.key = hc₀.key := by
  cases h with
  | quiet hg hk hs hv hc he hf => exact hk
  | release hg hk hs hd hc hr he hf => exact hk
  | loop hg hcore hs hv h => exact h.key.trans (HeliosConfig.core_eq hcore).1

/-- **What a pass counts**: its end as one requeue at most, and itself once, under the label of the
    config in memory. -/
theorem passCalls_counted (retries : Nat) {req : NamespacedName} {w : World} {hc₀ : HeliosConfig}
    (hf : w.cluster.configs.find req = some hc₀) {r : PassReplies} (hget : r.getConfig = .ok) :
    ∃ t, tracePass retries req w r = some t ∧
      PassTrace retries hc₀ w r (reconcile retries req w r) t ∧
      (passCalls retries req w r).filterMap MetricCall.requeued =
        ((requeueLabel (reconcile retries req w r).1.result).map (req, ·)).toList ∧
      (passCalls retries req w r).filterMap MetricCall.finished =
        [(req, resultLabel t.memory)] := by
  obtain ⟨t, ht, htrace⟩ := reconcile_trace retries hf hget
  obtain ⟨hreq, hfin⟩ := htrace.counted
  have hcalls : passCalls retries req w r = t.calls ++ deferredCalls t.memory := by
    rw [passCalls, ht]
    rfl
  have hk : t.memory.key = req := htrace.key.trans (Store.find_eq_some.mp hf).2
  refine ⟨t, ht, htrace, ?_, ?_⟩
  · rw [hcalls, List.filterMap_append, hreq, (Store.find_eq_some.mp hf).2]
    exact List.append_nil _
  · rw [hcalls, List.filterMap_append, hfin, deferredCalls, hk]
    rfl

/-- The label of the loop. -/
theorem LoopTrace.error_iff {retries : Nat} {svcs : List Service} {hc : HeliosConfig} {w : World}
    {turn : Nat → TurnReplies} {res : PassReport × World} {t : Trace}
    (h : LoopTrace retries svcs hc w turn res t) :
    (t.memory.status.phase = .failed ↔ res.1.failure.isSome = true ∨
      (hc.status.phase = .failed ∧ ∀ e ∈ res.1.events, e.reason ≠ "IPAllocated")) ∧
    (∀ e, res.1.result = .error e → res.1.failure = none) := by
  induction h with
  | done => simp
  | quota => simp [quotaEvent]
  | failed ho hw hv => simp [failedConfig, HeliosConfig.setCondition]
  | @unrecorded svc rest hc w w' turn ip ipv6 e c ho hw hv =>
      simp [servedEvent_reason, servedConfig, HeliosConfig.setCondition]
  | @served svc rest hc w w' turn ip ipv6 res t ho hs h ih =>
      refine ⟨ih.1.trans ?_, ih.2⟩
      simp [servedEvent_reason, servedConfig, HeliosConfig.setCondition]

theorem PassTrace.error_iff {retries : Nat} {hc₀ : HeliosConfig} {w : World} {r : PassReplies}
    {res : PassReport × World} {t : Trace} (h : PassTrace retries hc₀ w r res t) :
    (t.memory.status.phase = .failed ↔ res.1.failure.isSome = true ∨
      (hc₀.status.phase = .failed ∧ ∀ e ∈ res.1.events, e.reason ≠ "IPAllocated")) ∧
    (∀ e, res.1.result = .error e → res.1.failure = none) := by
  -- without a failure and without a served Service both sides are about the phase as read
  have hsame : ∀ {report : PassReport}, t.memory.gauged = hc₀.gauged → report.failure = none →
      (∀ e ∈ report.events, e.reason ≠ "IPAllocated") →
      (t.memory.status.phase = .failed ↔ report.failure.isSome = true ∨
        (hc₀.status.phase = .failed ∧ ∀ e ∈ report.events, e.reason ≠ "IPAllocated")) := by
    intro report hg hf he
    have hp : t.memory.status.phase = hc₀.status.phase := congrArg Prod.fst hg
    rw [hp, hf]
    exact ⟨fun h => .inr ⟨h, he⟩, fun h => h.elim (fun h => nomatch h) And.left⟩
  cases h with
  | quiet hg hk hs hv hc he hf => exact ⟨hsame hg hf he, fun _ _ => hf⟩
  | release hg hk hs hd hc hr he hf => exact ⟨hsame hg hf he, fun _ _ => hf⟩
  | @loop hc c res t hg hcore hs hv h =>
      have hp : hc.status.phase = hc₀.status.phase := congrArg Prod.fst hg
      rw [← hp]
      exact h.error_iff

/-- **Which passes count as failed**: those an allocation failed in, and those over a config that
    was failed before and got no address. A pass that returns an error is not one of the former. -/
theorem error_label_iff (retries : Nat) {req : NamespacedName} {w : World} {hc : HeliosConfig}
    (hf : w.cluster.configs.find req = some hc) {r : PassReplies} (hget : r.getConfig = .ok) :
    ((passCalls retries req w r).filterMap MetricCall.finished = [(req, "error")] ↔
      (reconcile retries req w r).1.failure.isSome = true ∨
        (hc.status.phase = .failed ∧
          ∀ e ∈ (reconcile retries req w r).1.events, e.reason ≠ "IPAllocated")) ∧
    (∀ e, (reconcile retries req w r).1.result = .error e →
      (reconcile retries req w r).1.failure = none) := by
  obtain ⟨t, -, htrace, -, hfin⟩ := passCalls_counted retries hf hget
  have hlabel : (passCalls retries req w r).filterMap MetricCall.finished = [(req, "error")] ↔
      t.memory.status.phase = .failed := by
    rw [hfin, resultLabel]
    split
    · rename_i hp
      exact iff_of_true rfl hp
    · rename_i hp
      exact iff_of_false (by simp) hp
  rw [hlabel]
  exact htrace.error_iff

/-- `web` gets an address, the record of it is refused: the pass returns an error and counts as a
    success. -/
theorem error_label_refused_record :
    let web : Service := { key := ⟨"shop", "web"⟩, spec := { type := .loadBalancer } }
    let a : HeliosConfig := { key := ⟨"default", "a"⟩, spec := { ipRange := "10.0.0.1-10.0.0.3" } }
    let w : World := ⟨⟨.ofList [web], .ofList [a]⟩, newIPAllocator⟩
    let r : PassReplies := { turn := fun _ => { recordStatus := .rejected (.other "timeout") } }
    (reconcile 4 a.key w r).1.result = .error (.other "timeout") ∧
      (reconcile 4 a.key w r).1.failure = none ∧
      (passCalls 4 a.key w r).filterMap MetricCall.finished ≠ [(a.key, "error")] := by
  intro web a w r
  have hf : w.cluster.configs.find a.key = some a := Store.find_key (List.mem_singleton_self a)
  obtain ⟨hiff, hnone⟩ := error_label_iff 4 hf (r := r) rfl
  have hres : (reconcile 4 a.key w r).1.result = .error (.other "timeout") := by decide
  refine ⟨hres, hnone _ hres, fun h => ?_⟩
  exact absurd (hiff.mp h) (by decide)

/-! ## 6. The gauges of one pass -/

/-- Every status write the loop made was stored, whether its caller saw it or not: the record for
    each Service it came to, the failure for the last one if the pass failed. -/
structure StatusStored (turn : Nat → TurnReplies) (report : PassReport) : Prop where
  record : ∀ n < report.turns, (report.failure = none ∨ n + 1 < report.turns) →
    (turn n).recordStatus.stored = true
  failed : ∀ n < report.turns, report.failure ≠ none → n + 1 = report.turns →
    (turn n).failedStatus.stored = true

theorem LoopTrace.shows {retries : Nat} {svcs : List Service} {hc : HeliosConfig} {w : World}
    {turn : Nat → TurnReplies} {res : PassReport × World} {t : Trace}
    (h : LoopTrace retries svcs hc w turn res t) (hs : Stored hc w.cluster)
    (hst : StatusStored turn res.1) : Shows res.2.cluster hc.key t.memory.gauged := by
  induction h with
  | done => exact hs.shows
  | quota => exact hs.shows
  | failed ho hw hv =>
      refine (hw (hst.failed 0 ?_ nofun ?_)).shows <;> simp [PassReport.turns]
  | unrecorded ho hw hv =>
      exact (hw (hst.record 0 (by simp [PassReport.turns]) (.inl rfl))).shows
  | served ho hnext h ih =>
      obtain ⟨hrec, hfail⟩ := hst
      simp only [PassReport.turns, List.countP_cons_of_pos (servedEvent_onTurn _ _ _)] at hrec hfail
      exact ih hnext
        ⟨fun n hn h => hrec (n + 1) (Nat.succ_lt_succ hn) (h.imp_right Nat.succ_lt_succ),
          fun n hn h e => hfail (n + 1) (Nat.succ_lt_succ hn) h (congrArg Nat.succ e)⟩

theorem PassTrace.shows {retries : Nat} {hc₀ : HeliosConfig} {w : World} {r : PassReplies}
    {res : PassReport × World} {t : Trace} (h : PassTrace retries hc₀ w r res t)
    (hst : StatusStored r.turn res.1) : Shows res.2.cluster hc₀.key t.memory.gauged := by
  cases h with
  | quiet hg hk hs hv hc he hf => exact hg ▸ hs
  | release hg hk hs hd hc hr he hf => exact hg ▸ hs
  | loop hg hcore hs hv h => exact (HeliosConfig.core_eq hcore).1 ▸ h.shows hs hst

/-- The deferred calls come last. -/
theorem record_deferred (g : Registry) (memory : HeliosConfig) :
    ((deferredCalls memory).foldl Registry.record g).lbStatus memory.key =
        some (if memory.status.phase = .active then 1 else 0) ∧
      ((deferredCalls memory).foldl Registry.record g).ipPoolUtilization memory.key =
        some (StringMap.len memory.status.allocatedIPs : Int) := by
  simp [deferredCalls, Registry.record, Registry.recordReconcileDuration, Registry.recordLBStatus,
    Registry.recordIPPoolUtilization]

/-- **After a pass whose status writes were stored the gauges show the stored config.** -/
theorem gauges_show_stored (retries : Nat) {req : NamespacedName} {w : World}
    {hc hc' : HeliosConfig} (hf : w.cluster.configs.find req = some hc) {r : PassReplies}
    (hget : r.getConfig = .ok) (hst : StatusStored r.turn (reconcile retries req w r).1)
    (hf' : (reconcile retries req w r).2.cluster.configs.find req = some hc') (g : Registry) :
    ((passCalls retries req w r).foldl Registry.record g).lbStatus req =
        some (if hc'.status.phase = .active then 1 else 0) ∧
      ((passCalls retries req w r).foldl Registry.record g).ipPoolUtilization req =
        some (StringMap.len hc'.status.allocatedIPs : Int) := by
  obtain ⟨t, ht, htrace⟩ := reconcile_trace retries hf hget
  have hkey : hc.key = req := (Store.find_eq_some.mp hf).2
  have hg : hc'.gauged = t.memory.gauged := htrace.shows hst hc' (hkey ▸ hf')
  have hphase : hc'.status.phase = t.memory.status.phase := congrArg Prod.fst hg
  have hlen : StringMap.len hc'.status.allocatedIPs = StringMap.len t.memory.status.allocatedIPs :=
    congrArg Prod.snd hg
  have hcalls : passCalls retries req w r = t.calls ++ deferredCalls t.memory := by
    rw [passCalls, ht]
    rfl
  have hlast := record_deferred (t.calls.foldl Registry.record g) t.memory
  rw [htrace.key.trans hkey] at hlast
  rw [hcalls, List.foldl_append, hphase, hlen]
  exact hlast

/-- `web` is served, `db` cannot be written: the gauges show a failed config with one address. -/
theorem gauges_show_stored_failure :
    let web : Service := { key := ⟨"shop", "web"⟩, spec := { type := .loadBalancer } }
    let db : Service := { key := ⟨"shop", "db"⟩, spec := { type := .loadBalancer } }
    let a : HeliosConfig := { key := ⟨"default", "a"⟩, spec := { ipRange := "10.0.0.1-10.0.0.3" } }
    let w : World := ⟨⟨.ofList [web, db], .ofList [a]⟩, newIPAllocator⟩
    let update : Nat → WriteReply := fun n => if n = 0 then .ok else .rejected (.other "forbidden")
    let r : PassReplies :=
      { turn := fun n => { attempts := fun _ => { update := update n }, recordStatus := update n } }
    ∃ hc', (reconcile 4 a.key w r).2.cluster.configs.find a.key = some hc' ∧
      hc'.status.phase = .failed ∧ StringMap.len hc'.status.allocatedIPs = 1 ∧
      ((passCalls 4 a.key w r).foldl Registry.record .empty).lbStatus a.key = some 0 ∧
      ((passCalls 4 a.key w r).foldl Registry.record .empty).ipPoolUtilization a.key = some 1 := by
  intro web db a w update r
  have hf : w.cluster.configs.find a.key = some a := Store.find_key (List.mem_singleton_self a)
  have hafter : ((reconcile 4 a.key w r).2.cluster.configs.find a.key).map HeliosConfig.gauged =
      some (.failed, 1) := by decide
  obtain ⟨hc', hf', hg⟩ := Option.map_eq_some_iff.mp hafter
  have hphase : hc'.status.phase = .failed := congrArg Prod.fst hg
  have hlen : StringMap.len hc'.status.allocatedIPs = 1 := congrArg Prod.snd hg
  have hturns : (reconcile 4 a.key w r).1.turns = 2 := by decide
  have hfail : (reconcile 4 a.key w r).1.failure ≠ none := by decide
  have hst : StatusStored r.turn (reconcile 4 a.key w r).1 := by
    refine ⟨fun n _ h => ?_, fun n _ _ _ => rfl⟩
    obtain rfl : n = 0 := by have := h.resolve_left hfail; omega
    rfl
  have hshow := gauges_show_stored 4 hf (r := r) rfl hst hf' .empty
  rw [hphase, hlen] at hshow
  exact ⟨hc', hf', hphase, hlen, hshow⟩

/-- A refused status write leaves a gauge that counts an address the stored config does not have. -/
example :
    let web : Service := { key := ⟨"shop", "web"⟩, spec := { type := .loadBalancer } }
    let a : HeliosConfig := { key := ⟨"default", "a"⟩, spec := { ipRange := "10.0.0.1-10.0.0.3" } }
    let w : World := ⟨⟨.ofList [web], .ofList [a]⟩, newIPAllocator⟩
    let r : PassReplies := { turn := fun _ => { recordStatus := .rejected (.other "timeout") } }
    ((passCalls 4 a.key w r).foldl Registry.record .empty).ipPoolUtilization a.key = some 1 ∧
      ((reconcile 4 a.key w r).2.cluster.configs.find a.key).map HeliosConfig.gauged =
        some (.unset, 0) := by
  decide

end HeliosLB
