/-
  File:      HeliosLB/Balancer/Metrics.lean
  Subject:   WHAT THE BALANCER REPORTS (internal/loadbalancer/metrics.go and the two recorders it
             calls in internal/metrics/metrics.go).

  A gauge vector is a function of its label values; a recorder writes one entry. `UpdateMetrics`
  walks a map, so the order of the services is an input.

  * `updateMetrics`, **`updateMetrics_exact`** -- whatever the order, an entry shows the backend of
    that address that stands last in the list of the service, and an entry without such a backend
    is left as it was: the gauges of a removed backend stay;
  * `getStats`, **`getStats_zero`** -- the statistics of a service are created and never written: in
    every run every number of them is zero.
-/
import HeliosLB.Balancer.Stop

namespace HeliosLB

/-! ## 1. Gauges -/

/-- `backendHealth` and `backendConnections`, by the labels address and service. The values are
    floats in the source; those written are whole numbers of 32 bits, which a float holds. -/
structure BackendGauges where
  health : String × String → Option Int
  connections : String × String → Option Int

/-- `RecordBackendHealth`. -/
def BackendGauges.recordBackendHealth (g : BackendGauges) (backendAddr serviceName : String)
    (healthy : Bool) : BackendGauges :=
  { g with
    health :=
      Function.update g.health (backendAddr, serviceName) (some (if healthy then 1 else 0)) }

/-- `RecordBackendConnections`. -/
def BackendGauges.recordBackendConnections (g : BackendGauges) (backendAddr serviceName : String)
    (connections : Int) : BackendGauges :=
  { g with
    connections := Function.update g.connections (backendAddr, serviceName) (some connections) }

namespace LoadBalancer

/-- The inner loop's body in `UpdateMetrics`. -/
def recordBackend (lb : LoadBalancer) (serviceName : String) (g : BackendGauges) (b : Ref) :
    BackendGauges :=
  let backend := lb.heap b
  (g.recordBackendHealth backend.address serviceName backend.isHealthy).recordBackendConnections
    backend.address serviceName backend.connections.toInt

/-- `UpdateMetrics`, the map walked in the order of `services`. -/
def updateMetrics (lb : LoadBalancer) (services : List String) (g : BackendGauges) :
    BackendGauges :=
  services.foldl (fun g s => (lb.registered s).foldl (lb.recordBackend s) g) g

/-- The backend of the address that stands last in a list. -/
def lastAt (lb : LoadBalancer) (address : String) (l : List Ref) : Option Ref :=
  l.reverse.find? fun b => (lb.heap b).address == address

theorem lastAt_cons (lb : LoadBalancer) (address : String) (b : Ref) (l : List Ref) :
    lb.lastAt address (b :: l) = (lb.lastAt address l).or
      (if (lb.heap b).address = address then some b else none) := by
  rw [lastAt, lastAt, List.reverse_cons, List.find?_append, List.find?_singleton]
  simp only [beq_iff_eq]

end LoadBalancer

/-- What both gauges show under a label. -/
def BackendGauges.shown (g : BackendGauges) (label : String × String) : Option Int × Option Int :=
  (g.health label, g.connections label)

/-- What the gauges show of a backend. -/
def Backend.shown (b : Backend) : Option Int × Option Int :=
  (some (if b.isHealthy then 1 else 0), some b.connections.toInt)

namespace LoadBalancer

variable (lb : LoadBalancer)

theorem shown_recordBackend (s address s' : String) (g : BackendGauges) (b : Ref) :
    (lb.recordBackend s g b).shown (address, s') =
      if (lb.heap b).address = address ∧ s = s' then (lb.heap b).shown
      else g.shown (address, s') := by
  unfold recordBackend BackendGauges.recordBackendHealth BackendGauges.recordBackendConnections
    BackendGauges.shown Backend.shown
  by_cases h : (lb.heap b).address = address ∧ s = s'
  · obtain ⟨rfl, rfl⟩ := h
    simp only [Function.update_self, and_self, if_true]
  · have hne : (address, s') ≠ ((lb.heap b).address, s) :=
      fun e => h ⟨(congrArg Prod.fst e).symm, (congrArg Prod.snd e).symm⟩
    simp only [Function.update_of_ne hne, if_neg h]

/-- **One service**: its labels show the last backend of their address, all others are left. -/
theorem shown_service (s address s' : String) (l : List Ref) (g : BackendGauges) :
    (l.foldl (lb.recordBackend s) g).shown (address, s') =
      if s = s' then ((lb.lastAt address l).map fun b => (lb.heap b).shown).getD
        (g.shown (address, s')) else g.shown (address, s') := by
  induction l generalizing g with
  | nil => exact (ite_self _).symm
  | cons b l ih =>
      rw [List.foldl_cons, ih, shown_recordBackend, lastAt_cons]
      by_cases hs : s = s'
      · rw [if_pos hs, if_pos hs]
        cases lb.lastAt address l with
        | some c => rfl
        | none =>
            by_cases ha : (lb.heap b).address = address
            · rw [if_pos ⟨ha, hs⟩, if_pos ha]
              rfl
            · rw [if_neg fun h => ha h.1, if_neg ha]
              rfl
      · rw [if_neg hs, if_neg hs, if_neg fun h => hs h.2]

/-- Each service is walked once, so later ones leave what it shows. -/
theorem shown_services {services : List String} (hnd : services.Nodup) (address s : String)
    (g : BackendGauges) :
    (lb.updateMetrics services g).shown (address, s) =
      if s ∈ services then ((lb.lastAt address (lb.registered s)).map fun b =>
        (lb.heap b).shown).getD (g.shown (address, s)) else g.shown (address, s) := by
  unfold updateMetrics
  induction services generalizing g with
  | nil => rw [if_neg List.not_mem_nil, List.foldl_nil]
  | cons s₀ services ih =>
      obtain ⟨hnot, hnd⟩ := List.nodup_cons.mp hnd
      rw [List.foldl_cons, ih hnd, shown_service]
      by_cases hs : s₀ = s
      · subst hs
        rw [if_neg hnot, if_pos rfl, if_pos List.mem_cons_self]
      · rw [if_neg hs]
        have hmem : s ∈ s₀ :: services ↔ s ∈ services :=
          ⟨fun h => (List.mem_cons.mp h).resolve_left (Ne.symm hs), List.mem_cons_of_mem _⟩
        simp only [hmem]

/-- **What `UpdateMetrics` exports**, in whatever order Go walks the map: the last backend of the
    address in the list of the service, and what stood there before if there is none. -/
theorem updateMetrics_exact {services : List String} (hr : lb.Ranges services)
    (address s : String) (g : BackendGauges) :
    (lb.updateMetrics services g).shown (address, s) =
      ((lb.lastAt address (lb.registered s)).map fun b => (lb.heap b).shown).getD
        (g.shown (address, s)) := by
  rw [lb.shown_services hr.1]
  by_cases hs : s ∈ services
  · rw [if_pos hs]
  · have hnone : lb.backends s = none := by
      have := mt (hr.2 s).mpr hs
      simpa using this
    rw [if_neg hs, registered, hnone]
    rfl

/-- Two backends of one address: the later one is shown; the entry of one that is gone stays. -/
theorem updateMetrics_two_of_one_address :
    let lb := Lib.run step (newLoadBalancer .roundRobin [] fun b =>
      { address := "10.0.0.1", serviceName := "web", connections := if b = 0 then 7 else 9 })
      [.addBackend 0, .addBackend 1]
    let g : BackendGauges := ⟨fun _ => some 1, fun _ => some 5⟩
    (lb.updateMetrics ["web"] g).shown ("10.0.0.1", "web") = (some 0, some 9) ∧
      (lb.updateMetrics ["web"] g).shown ("10.0.0.2", "web") = (some 1, some 5) := by
  intro lb g
  have hr : lb.Ranges ["web"] := by
    refine ⟨List.nodup_singleton _, fun s => ?_⟩
    by_cases h : s = "web"
    · subst h
      decide
    · have hnone : lb.backends s = none := by
        simp [lb, Lib.run, step, addBackend, newLoadBalancer, h]
      simp [h, hnone]
  exact ⟨(lb.updateMetrics_exact hr "10.0.0.1" "web" g).trans (by decide),
    (lb.updateMetrics_exact hr "10.0.0.2" "web" g).trans (by decide)⟩

end LoadBalancer

/-! ## 2. Statistics -/

/-- `GetStats`. -/
def LoadBalancer.getStats (lb : LoadBalancer) (serviceName : String) : LoadBalancerStats :=
  match lb.stats serviceName with
  | some stats => stats
  | none => {}

/-- Every record of statistics is as it was created. -/
def LoadBalancer.Unwritten (lb : LoadBalancer) : Prop :=
  ∀ s stats, lb.stats s = some stats → stats = {}

theorem LoadBalancer.Unwritten.step {lb : LoadBalancer} (h : lb.Unwritten) (c : Call) :
    (lb.step c).Unwritten := by
  cases c with
  | addBackend b =>
      rw [LoadBalancer.step, addBackend]
      split
      · intro s stats hs
        dsimp only at hs
        by_cases e : s = (lb.heap b).serviceName
        · subst e
          rw [Function.update_self] at hs
          exact (Option.some.inj hs).symm
        · rw [Function.update_of_ne e] at hs
          exact h s stats hs
      · exact h
  | removeBackend address serviceName =>
      rw [LoadBalancer.step, removeBackend]
      split <;> exact h
  | nextBackend serviceName clientIP draw =>
      rw [LoadBalancer.step, nextBackend]
      split <;> exact h
  | setHealthy | incrementConnections | decrementConnections => exact h

/-- **`GetStats` reports zeros, always**: nothing the balancer or its clients do, in any
    interleaving, is ever counted. -/
theorem getStats_zero (config : BalancerConfig) (heap : Heap) (ports : Ref → Int)
    (ms : List Process.Move) (s : String) :
    (processAfter config heap ports ms).lb.getStats s =
      { totalConnections := 0, activeBackends := 0, healthyBackends := 0 } := by
  have hstep : ∀ p m, p.lb.Unwritten → (Process.step p m).lb.Unwritten := fun p m hp =>
    @Process.step_of_fires (fun q => q.lb.Unwritten) p m hp fun q _ hf => by
      cases hf with
      | call c => exact hp.step c
      | _ => exact hp
  have hend : (processAfter config heap ports ms).lb.Unwritten :=
    @Lib.run_inv_always _ _ Process.step (fun p => p.lb.Unwritten) hstep
      (newProcess config heap ports) (fun _ _ hs => nomatch hs) ms
  unfold LoadBalancer.getStats
  split
  · rename_i stats hs
    exact hend s stats hs
  · rfl

end HeliosLB
