/-
  File:      HeliosLB/System/Telemetry.lean
  Subject:   THE METRICS OF THE CONTROLLER IN OPERATION.

  The registry lives in the process: a restart empties it with the pool. Nobody but passes writes
  to it.

  * `Monitored`, `Monitored.act` -- the world and the registry beside it;
  * **`counters_count`** -- between restarts both counters count the passes: the requeues by how a
    pass ended, the passes by what they reported and found;
  * `GaugesHeld`, **`allocated_gauge_held`** -- if no config has a range of one address, an address
    whose gauge shows it allocated is held by the pool, and no pass reports it as allocated again.
-/
import HeliosLB.Controller.Telemetry
import HeliosLB.System.Operation
import HeliosLB.System.Unique

namespace HeliosLB

open Lib

/-- The system with the registry of the running process. -/
structure Monitored where
  world : World
  registry : Registry

/-- One action, with what it records. -/
def Monitored.act (retries : Nat) (m : Monitored) (a : Action) : Monitored where
  world := m.world.act retries a
  registry :=
    match a with
    | .step (.pass req r) => run Registry.record m.registry (passCalls retries req m.world r)
    | .restart => .empty
    | _ => m.registry

/-! ## 1. Counters -/

/-- The requeue an action ends with, if it is a pass that ends so. -/
def World.requeues (retries : Nat) (w : World) : Action → List (NamespacedName × String)
  | .step (.pass req r) =>
    ((requeueLabel (reconcile retries req w r).1.result).map (req, ·)).toList
  | _ => []

/-- A pass counts as failed by its report and the config it read. -/
def PassReport.countsFailed (report : PassReport) (hc : HeliosConfig) : Prop :=
  report.failure.isSome = true ∨
    (hc.status.phase = .failed ∧ ∀ e ∈ report.events, e.reason ≠ "IPAllocated")

instance (report : PassReport) (hc : HeliosConfig) : Decidable (report.countsFailed hc) :=
  inferInstanceAs (Decidable (_ ∨ _))

/-- The pass an action is, with its label, if it read its config. -/
def World.finishes (retries : Nat) (w : World) : Action → List (NamespacedName × String)
  | .step (.pass req r) =>
    match r.getConfig, w.cluster.configs.find req with
    | .ok, some hc =>
      [(req, if (reconcile retries req w r).1.countsFailed hc then "error" else "success")]
    | _, _ => []
  | _ => []

theorem record_requeueReasonTotal (label : NamespacedName × String) (g : Registry)
    (c : MetricCall) : (g.record c).requeueReasonTotal label =
      g.requeueReasonTotal label + c.requeued.toList.count label := by
  cases c with
  | requeueReason k reason =>
      by_cases h : (k, reason) = label
      · subst h
        simp [Registry.record, Registry.recordRequeueReason, MetricCall.requeued]
      · simp [Registry.record, Registry.recordRequeueReason, MetricCall.requeued, h,
          Function.update_of_ne (Ne.symm h)]
  | _ => rfl

theorem record_reconcileTotal (label : NamespacedName × String) (g : Registry)
    (c : MetricCall) : (g.record c).reconcileTotal label =
      g.reconcileTotal label + c.finished.toList.count label := by
  cases c with
  | reconcileDuration k result =>
      by_cases h : (k, result) = label
      · subst h
        simp [Registry.record, Registry.recordReconcileDuration, MetricCall.finished]
      · simp [Registry.record, Registry.recordReconcileDuration, MetricCall.finished, h,
          Function.update_of_ne (Ne.symm h)]
  | _ => rfl

/-- A counter that every call counts up by its label. -/
theorem count_calls (μ : Registry → Nat) {f : MetricCall → Option (NamespacedName × String)}
    {label : NamespacedName × String}
    (h : ∀ g c, μ (g.record c) = μ g + (f c).toList.count label) (calls : List MetricCall)
    (g : Registry) : μ (run Registry.record g calls) = μ g + (calls.filterMap f).count label := by
  induction calls generalizing g with
  | nil => rfl
  | cons c calls ih =>
      rw [run_cons, ih, h, List.filterMap_cons]
      cases f c with
      | none => rfl
      | some l =>
          rw [Option.toList_some, List.count_cons, List.count_cons, List.count_nil]
          omega

/-- What one pass counts. -/
theorem passCalls_labels (retries : Nat) (req : NamespacedName) (w : World) (r : PassReplies) :
    (passCalls retries req w r).filterMap MetricCall.requeued =
        w.requeues retries (.step (.pass req r)) ∧
      (passCalls retries req w r).filterMap MetricCall.finished =
        w.finishes retries (.step (.pass req r)) := by
  simp only [World.requeues, World.finishes]
  cases hget : r.getConfig with
  | failed e =>
      have hcalls : passCalls retries req w r = [] := by
        rw [passCalls, tracePass, hget]
        rfl
      have hnone : requeueLabel (reconcile retries req w r).1.result = none := by
        simp only [reconcile, hget]
        split <;> rfl
      rw [hcalls, hnone]
      exact ⟨rfl, rfl⟩
  | ok =>
      cases hf : w.cluster.configs.find req with
      | none =>
          have hcalls : passCalls retries req w r = [] := by
            rw [passCalls, tracePass, hget, hf]
            rfl
          have hnone : requeueLabel (reconcile retries req w r).1.result = none := by
            simp only [reconcile, hget, hf]
            rfl
          rw [hcalls, hnone]
          exact ⟨rfl, rfl⟩
      | some hc =>
          obtain ⟨t, -, htrace, hreq, hfin⟩ := passCalls_counted retries hf hget
          refine ⟨hreq, ?_⟩
          rw [hfin]
          exact congrArg (fun l => [(req, l)]) (if_congr htrace.error_iff.1 rfl rfl)

theorem Monitored.act_counts (retries : Nat) (m : Monitored) (a : Action) (h : a ≠ .restart)
    (label : NamespacedName × String) :
    (m.act retries a).registry.requeueReasonTotal label =
        m.registry.requeueReasonTotal label + (m.world.requeues retries a).count label ∧
      (m.act retries a).registry.reconcileTotal label =
        m.registry.reconcileTotal label + (m.world.finishes retries a).count label := by
  cases a with
  | step a =>
      cases a with
      | pass req r =>
          obtain ⟨hreq, hfin⟩ := passCalls_labels retries req m.world r
          rw [← hreq, ← hfin]
          exact ⟨count_calls (fun g => g.requeueReasonTotal label)
              (record_requeueReasonTotal label) _ _,
            count_calls (fun g => g.reconcileTotal label) (record_reconcileTotal label) _ _⟩
      | _ => exact ⟨rfl, rfl⟩
  | restart => exact absurd rfl h
  | _ => exact ⟨rfl, rfl⟩

/-- **The counters count the passes**, as long as the process runs: `requeueReasonTotal` those that
    ended with that delay, `reconcileTotal` those that read the config, by what they reported. -/
theorem counters_count (retries : Nat) (m : Monitored) (actions : List Action)
    (h : ∀ a ∈ actions, a ≠ .restart) (label : NamespacedName × String) :
    (run (Monitored.act retries) m actions).registry.requeueReasonTotal label =
        m.registry.requeueReasonTotal label +
          (outputs (World.act retries) (World.requeues retries) m.world actions).count label ∧
      (run (Monitored.act retries) m actions).registry.reconcileTotal label =
        m.registry.reconcileTotal label +
          (outputs (World.act retries) (World.finishes retries) m.world actions).count label := by
  have halong : Along (Monitored.act retries) (fun _ a => a ≠ .restart) m actions :=
    along_of_forall_mem _ h m
  -- the world goes its way without the registry, so both systems put out the same
  have hout : ∀ out : World → Action → List (NamespacedName × String),
      outputs (Monitored.act retries) (fun m a => out m.world a) m actions =
        outputs (World.act retries) out m.world actions := fun out =>
    (@run_rel Monitored Action (Monitored.act retries) World (NamespacedName × String)
      (World.act retries) (fun m w => m.world = w) (fun m a => out m.world a) out
      (fun m w a e => by subst e; exact ⟨rfl, rfl⟩) m m.world rfl actions).2
  rw [← hout, ← hout]
  have hstep := fun (m : Monitored) a ha => m.act_counts retries a ha label
  exact ⟨run_count _ (fun m => m.registry.requeueReasonTotal label)
      (fun m a ha => (hstep m a ha).1) halong,
    run_count _ (fun m => m.registry.reconcileTotal label) (fun m a ha => (hstep m a ha).2) halong⟩

/-- One pass serves `web`, the next cannot list the Services: one requeue, two successes. -/
theorem counters_count_refused_list :
    let web : Service := { key := ⟨"shop", "web"⟩, spec := { type := .loadBalancer } }
    let a : HeliosConfig := { key := ⟨"default", "a"⟩, spec := { ipRange := "10.0.0.1-10.0.0.3" } }
    let refused : PassReplies := { listServices := .failed (.other "timeout") }
    ∃ m : Monitored, m = run (Monitored.act 4)
        ⟨⟨⟨.ofList [web], .ofList [a]⟩, newIPAllocator⟩, .empty⟩
        [.step (.pass a.key allOk), .step (.pass a.key refused)] ∧
      m.registry.requeueReasonTotal (a.key, "periodic") = 1 ∧
      m.registry.reconcileTotal (a.key, "success") = 2 ∧
      m.registry.reconcileTotal (a.key, "error") = 0 := by
  intro web a refused
  have h := counters_count 4 ⟨⟨⟨.ofList [web], .ofList [a]⟩, newIPAllocator⟩, .empty⟩
    [.step (.pass a.key allOk), .step (.pass a.key refused)] (by simp)
  refine ⟨_, rfl, (h (a.key, "periodic")).1.trans ?_, (h (a.key, "success")).2.trans ?_,
    (h (a.key, "error")).2.trans ?_⟩
  · decide
  · decide
  · decide

/-! ## 2. The gauge of an address -/

/-- **An address whose gauge shows it allocated is in the pool.** -/
def GaugesHeld (g : Registry) (pool : IPAllocator) : Prop :=
  ∀ ip, g.ipAllocationStatus ip = some 1 → ip ∈ pool.used

/-- A call does not report an address as allocated whose gauge shows it so. -/
def FreshCall (g : Registry) : MetricCall → Prop
  | .ipAllocation ip true => g.ipAllocationStatus ip ≠ some 1
  | _ => True

theorem GaugesHeld.mono {g : Registry} {pool pool' : IPAllocator} (h : GaugesHeld g pool)
    (hp : pool.used ⊆ pool'.used) : GaugesHeld g pool' := fun ip hip => hp (h ip hip)

/-- What touches no address gauge. -/
theorem held_others {g : Registry} {pool : IPAllocator} (h : GaugesHeld g pool)
    {calls : List MetricCall}
    (hc : ∀ c ∈ calls, ∀ ip b, c ≠ .ipAllocation ip b) :
    Along Registry.record FreshCall g calls ∧ GaugesHeld (run Registry.record g calls) pool := by
  induction calls generalizing g with
  | nil => exact ⟨trivial, h⟩
  | cons c calls ih =>
      have hhead : FreshCall g c ∧ GaugesHeld (g.record c) pool := by
        cases c with
        | ipAllocation ip b => exact absurd rfl (hc _ List.mem_cons_self ip b)
        | _ => exact ⟨trivial, h⟩
      obtain ⟨halong, hheld⟩ := ih hhead.2 fun c' hc' => hc c' (List.mem_cons_of_mem _ hc')
      exact ⟨⟨hhead.1, halong⟩, hheld⟩

/-- Fresh addresses are marked and reported. -/
theorem held_allocated {g : Registry} {pool : IPAllocator} (h : GaugesHeld g pool) {l : List String}
    (hfresh : ∀ a ∈ l, a ∉ pool.used) (hnd : l.Nodup) :
    Along Registry.record FreshCall g (l.map fun a => .ipAllocation a true) ∧
      GaugesHeld (run Registry.record g (l.map fun a => .ipAllocation a true))
        (l.foldl IPAllocator.markUsed pool) := by
  induction l generalizing g pool with
  | nil => exact ⟨trivial, h⟩
  | cons a l ih =>
      obtain ⟨hal, hnd⟩ := List.nodup_cons.mp hnd
      have hstep : GaugesHeld (g.recordIPAllocation a true) (pool.markUsed a) := by
        intro ip hip
        rw [IPAllocator.markUsed_used, Finset.mem_insert]
        by_cases hia : ip = a
        · exact .inl hia
        · refine .inr (h ip ?_)
          rwa [Registry.recordIPAllocation_status, if_neg hia] at hip
      have hrest : ∀ b ∈ l, b ∉ (pool.markUsed a).used := by
        intro b hb hu
        rw [IPAllocator.markUsed_used, Finset.mem_insert] at hu
        rcases hu with rfl | hu
        · exact hal hb
        · exact hfresh b (List.mem_cons_of_mem _ hb) hu
      obtain ⟨halong, hheld⟩ := ih hstep hrest hnd
      exact ⟨⟨fun hone => hfresh a List.mem_cons_self (h a hone), halong⟩, hheld⟩

/-- Released addresses are taken out of the pool and reported so. -/
theorem held_released {g : Registry} {pool : IPAllocator} (h : GaugesHeld g pool)
    (l : List String) :
    Along Registry.record FreshCall g (l.map fun a => .ipAllocation a false) ∧
      GaugesHeld (run Registry.record g (l.map fun a => .ipAllocation a false))
        (l.foldl IPAllocator.releaseIP pool) := by
  induction l generalizing g pool with
  | nil => exact ⟨trivial, h⟩
  | cons a l ih =>
      have hstep : GaugesHeld (g.recordIPAllocation a false) (pool.releaseIP a) := by
        intro ip hip
        rw [IPAllocator.releaseIP_used, Finset.mem_erase]
        by_cases hia : ip = a
        · subst hia
          rw [Registry.recordIPAllocation_status, if_pos rfl] at hip
          cases hip
        · refine ⟨hia, h ip ?_⟩
          rwa [Registry.recordIPAllocation_status, if_neg hia] at hip
      obtain ⟨halong, hheld⟩ := ih hstep
      exact ⟨⟨trivial, halong⟩, hheld⟩

/-- A failed allocation from wide ranges takes nothing out of the pool that was there. -/
theorem Outcome.pool_subset {retries : Nat} {hc : HeliosConfig} {svc : Service} {w w' : World}
    {r : TurnReplies} {f : AllocFailure} (hr : hc.spec.wideRanges = true)
    (ho : Outcome retries hc svc w r (.error f) w') : w.pool.used ⊆ w'.pool.used := by
  have hback : ∀ {l : List String}, (∀ x ∈ l, x ∉ (w.marked hc).used) →
      w.pool.used ⊆ ((w.marked hc).rolledBack l).used := by
    intro l hl
    rw [IPAllocator.rolledBack, IPAllocator.release_mark hl]
    exact subset_marked w hc
  cases ho with
  | unlisted hl hrel ht => exact subset_rfl
  | undrawn hl hd hrel ht =>
      exact hback fun x hx =>
        offered_fresh (HeliosConfigSpec.wideRanges_iff.mp hr).1 ((hrel x).mp hx)
  | unassigned hl hd hn hrel ht => exact hback (hrel ▸ (drawn_fresh hr hd).1)
  | torn hl hd hs he hw hrel ht => exact hback (hrel ▸ (drawn_fresh hr hd).1)

/-- A successful one reports what it marks. -/
theorem Outcome.held {retries : Nat} {hc : HeliosConfig} {svc : Service} {w w' : World}
    {r : TurnReplies} {ip ipv6 : String} (hr : hc.spec.wideRanges = true)
    (ho : Outcome retries hc svc w r (.ok (ip, ipv6)) w') {g : Registry} (h : GaugesHeld g w.pool) :
    Along Registry.record FreshCall g (allocatedCalls ip ipv6) ∧
      GaugesHeld (run Registry.record g (allocatedCalls ip ipv6)) w'.pool := by
  cases ho with
  | assigned hl hd hs he =>
      obtain ⟨hfresh, hnd⟩ := drawn_fresh hr hd
      exact held_allocated (h.mono (subset_marked w hc)) hfresh hnd

theorem LoopTrace.held {retries : Nat} {svcs : List Service} {hc : HeliosConfig} {w : World}
    {turn : Nat → TurnReplies} {res : PassReport × World} {t : Trace}
    (ht : LoopTrace retries svcs hc w turn res t) (hr : hc.spec.wideRanges = true) {g : Registry}
    (h : GaugesHeld g w.pool) :
    Along Registry.record FreshCall g t.calls ∧
      GaugesHeld (run Registry.record g t.calls) res.2.pool := by
  induction ht generalizing g with
  | done => exact held_others h (by simp)
  | quota => exact held_others h (by simp)
  | failed ho hw hv => exact held_others (h.mono (ho.pool_subset hr)) (by simp)
  | unrecorded ho hw hv => exact ho.held hr h
  | served ho hs ht ih =>
      obtain ⟨halong, hheld⟩ := ho.held hr h
      obtain ⟨halong', hheld'⟩ := ih hr hheld
      rw [along_append, run_append]
      exact ⟨⟨halong, halong'⟩, hheld'⟩

/-- **A pass over a config with wide ranges** reports fresh addresses only and keeps the gauges
    below the pool. -/
theorem held_pass (retries : Nat) (req : NamespacedName) {w : World} (r : PassReplies)
    (hr : ∀ hc, w.cluster.configs.find req = some hc → hc.spec.wideRanges = true) {g : Registry}
    (h : GaugesHeld g w.pool) :
    Along Registry.record FreshCall g (passCalls retries req w r) ∧
      GaugesHeld (run Registry.record g (passCalls retries req w r))
        (reconcile retries req w r).2.pool := by
  cases hget : r.getConfig with
  | failed e =>
      simp only [passCalls, tracePass, reconcile, hget]
      exact ⟨trivial, h⟩
  | ok =>
      cases hf : w.cluster.configs.find req with
      | none =>
          simp only [passCalls, tracePass, reconcile, hget, hf]
          exact ⟨trivial, h⟩
      | some hc₀ =>
          obtain ⟨t, ht, htrace⟩ := reconcile_trace retries hf hget
          have hcalls : Along Registry.record FreshCall g t.calls ∧
              GaugesHeld (run Registry.record g t.calls) (reconcile retries req w r).2.pool := by
            generalize reconcile retries req w r = res at htrace
            cases htrace with
            | @quiet report c t hg hk hs hv hc he hf =>
                rw [hc]
                exact held_others h (by cases requeueLabel report.result <;> simp)
            | release hg hk hs hd hc hr' he hf =>
                rw [hc]
                exact held_released h hc₀.recorded
            | loop hg hcore hs hv hl =>
                exact hl.held ((HeliosConfig.core_eq hcore).2.2.1 ▸ hr hc₀ hf) h
          obtain ⟨hlast, hheld⟩ := @held_others _ _ hcalls.2 (deferredCalls t.memory)
            (by simp [deferredCalls])
          have hall : passCalls retries req w r = t.calls ++ deferredCalls t.memory := by
            rw [passCalls, ht]
            rfl
          rw [hall, along_append, run_append]
          exact ⟨⟨hcalls.1, hlast⟩, hheld⟩

/-- A pass is over a config without a range of one address. -/
def PassesWide (w : World) : Action → Prop
  | .step (.pass req _) => ∀ hc, w.cluster.configs.find req = some hc → hc.spec.wideRanges = true
  | _ => True

theorem held_act (retries : Nat) (m : Monitored) (a : Action)
    (h : GaugesHeld m.registry m.world.pool)
    (hw : PassesWide m.world a) :
    GaugesHeld (m.act retries a).registry (m.act retries a).world.pool := by
  cases a with
  | step a =>
      cases a with
      | pass req r => exact (held_pass retries req r hw h).2
      | _ => exact h
  | restart => exact fun ip hip => nomatch hip
  | _ => exact h

/-- **An address whose gauge shows it allocated is held by the pool**, after every run of actions,
    restarts and refused writes among them, whose passes are over configs without a range of one
    address; and no such pass reports it as allocated again. -/
theorem allocated_gauge_held (retries : Nat) (w : World) (actions : List Action)
    (h : Along (Monitored.act retries) (fun m a => PassesWide m.world a) ⟨w, .empty⟩ actions) :
    GaugesHeld (run (Monitored.act retries) ⟨w, .empty⟩ actions).registry
        (run (Monitored.act retries) ⟨w, .empty⟩ actions).world.pool ∧
      ∀ req r, PassesWide (run (Monitored.act retries) ⟨w, .empty⟩ actions).world
          (.step (.pass req r)) →
        Along Registry.record FreshCall (run (Monitored.act retries) ⟨w, .empty⟩ actions).registry
          (passCalls retries req (run (Monitored.act retries) ⟨w, .empty⟩ actions).world r) := by
  have hheld := @run_inv Monitored Action (Monitored.act retries)
    (fun m => GaugesHeld m.registry m.world.pool) (fun m a => PassesWide m.world a)
    (held_act retries)
    actions ⟨w, .empty⟩ (fun ip hip => nomatch hip) h
  exact ⟨hheld, fun req r hw => (held_pass retries req r hw hheld).1⟩

/-- `web` got its address and is gone; its address stays held and shown, so `db` gets the next. -/
theorem allocated_gauge_held_deleted :
    let web : Service := { key := ⟨"shop", "web"⟩, spec := { type := .loadBalancer } }
    let db : Service := { key := ⟨"shop", "db"⟩, spec := { type := .loadBalancer } }
    let a : HeliosConfig := { key := ⟨"default", "a"⟩, spec := { ipRange := "10.0.0.1-10.0.0.3" } }
    ∃ m : Monitored, m = run (Monitored.act 4)
        ⟨⟨⟨.ofList [web], .ofList [a]⟩, newIPAllocator⟩, .empty⟩
        [.step (.pass a.key allOk), .step (.deleteService web.key), .step (.createService db),
          .step (.pass a.key allOk)] ∧
      m.registry.ipAllocationStatus "10.0.0.1" = some 1 ∧ "10.0.0.1" ∈ m.world.pool.used ∧
      m.registry.ipAllocationStatus "10.0.0.2" = some 1 ∧ "10.0.0.2" ∈ m.world.pool.used := by
  intro web db a
  have hwide : ∀ (w : World) (k : NamespacedName),
      ((w.cluster.configs.find k).all fun hc => hc.spec.wideRanges) = true →
      PassesWide w (.step (.pass k allOk)) := by
    intro w k h hc hf
    rw [hf, Option.all_some] at h
    exact h
  have halong : Along (Monitored.act 4) (fun m a => PassesWide m.world a)
      ⟨⟨⟨.ofList [web], .ofList [a]⟩, newIPAllocator⟩, .empty⟩
      [.step (.pass a.key allOk), .step (.deleteService web.key), .step (.createService db),
        .step (.pass a.key allOk)] := by
    refine ⟨hwide _ _ ?_, trivial, trivial, hwide _ _ ?_, trivial⟩
    · decide
    · decide
  obtain ⟨hrun, -⟩ := allocated_gauge_held 4 _ _ halong
  generalize hm : run (Monitored.act 4) ⟨⟨⟨.ofList [web], .ofList [a]⟩, newIPAllocator⟩, .empty⟩
    [.step (.pass a.key allOk), .step (.deleteService web.key), .step (.createService db),
      .step (.pass a.key allOk)] = m at hrun
  have hweb : m.registry.ipAllocationStatus "10.0.0.1" = some 1 := by
    rw [← hm]
    decide
  have hdb : m.registry.ipAllocationStatus "10.0.0.2" = some 1 := by
    rw [← hm]
    decide
  exact ⟨m, rfl, hweb, hrun _ hweb, hdb, hrun _ hdb⟩

end HeliosLB
