/-
  File:      HeliosLB/Controller/ServiceFilter.lean
  Subject:   WHICH SERVICES A CONFIG SERVES (internal/controller/service_filter.go).

  * `eligible` -- the five tests of `FilterEligibleServices` on one Service, in its order;
  * `filterEligibleServices` -- the source's function: the Services that pass, in list order;
  * `HeliosConfig.eligibleServices` -- the call `Reconcile` makes;
  * `eligible_ingress` -- a Service that already shows an ingress does not pass;
    `eligible_requested` -- a requested address is allocatable from one of the ranges.
-/
import HeliosLB.Cluster.Api

namespace HeliosLB

/-- The tests of `FilterEligibleServices` on one Service. `nsAllowed` is a set of names, so only
    membership and emptiness of the selector count. -/
def eligible (namespaceSelector : List String) (ipRange : String) (ipv6Range : List String)
    (svc : Service) : Bool :=
  if svc.spec.type ≠ .loadBalancer then false
  else if svc.spec.loadBalancerClass ≠ none ∧
      svc.spec.loadBalancerClass ≠ some loadBalancerClassHelios then false
  else if namespaceSelector ≠ [] ∧ svc.key.ns ∉ namespaceSelector then false
  else if svc.ingress ≠ [] then false
  else if svc.spec.loadBalancerIP ≠ "" then
    ipAllocatable svc.spec.loadBalancerIP ipRange ||
      (match ipv6Range with
        | [] => false
        | v6 :: _ => v6 ≠ "" ∧ ipAllocatable svc.spec.loadBalancerIP v6)
  else true

/-- `FilterEligibleServices`; the variadic `ipv6Range` is a list. -/
def filterEligibleServices (services : List Service) (namespaceSelector : List String)
    (ipRange : String) (ipv6Range : List String) : List Service :=
  services.filter (eligible namespaceSelector ipRange ipv6Range)

/-- The Services a pass over the config serves, from the listed ones. -/
def HeliosConfig.eligibleServices (hc : HeliosConfig) (services : List Service) : List Service :=
  filterEligibleServices services hc.spec.namespaceSelector hc.spec.ipRange [hc.spec.ipv6Range]

theorem mem_eligibleServices {hc : HeliosConfig} {services : List Service} {svc : Service} :
    svc ∈ hc.eligibleServices services ↔ svc ∈ services ∧
      eligible hc.spec.namespaceSelector hc.spec.ipRange [hc.spec.ipv6Range] svc = true := by
  unfold HeliosConfig.eligibleServices filterEligibleServices
  rw [List.mem_filter]

/-- The filter reads the config's spec only. -/
theorem eligibleServices_congr {hc hc' : HeliosConfig} (h : hc'.spec = hc.spec)
    (services : List Service) : hc'.eligibleServices services = hc.eligibleServices services := by
  unfold HeliosConfig.eligibleServices
  rw [h]

/-- **What passes the filter.** -/
theorem eligible_iff {sel : List String} {r r6 : String} {svc : Service} :
    eligible sel r [r6] svc = true ↔
      svc.spec.type = .loadBalancer ∧
      (svc.spec.loadBalancerClass = none ∨
        svc.spec.loadBalancerClass = some loadBalancerClassHelios) ∧
      (sel = [] ∨ svc.key.ns ∈ sel) ∧ svc.ingress = [] ∧
      (svc.spec.loadBalancerIP ≠ "" → ipAllocatable svc.spec.loadBalancerIP r = true ∨
        (r6 ≠ "" ∧ ipAllocatable svc.spec.loadBalancerIP r6 = true)) := by
  unfold eligible
  split_ifs with h1 h2 h3 h4 h5
  · exact iff_of_false not_false fun h => h1 h.1
  · exact iff_of_false not_false fun h => h.2.1.elim h2.1 h2.2
  · exact iff_of_false not_false fun h => h.2.2.1.elim h3.1 h3.2
  · exact iff_of_false not_false fun h => h4 h.2.2.2.1
  · rw [Bool.or_eq_true, decide_eq_true_eq]
    refine ⟨fun h => ⟨not_not.mp h1, ?_, ?_, not_not.mp h4, fun _ => h⟩, fun h => h.2.2.2.2 h5⟩
    · by_contra hc
      exact h2 (not_or.mp hc)
    · by_contra hc
      exact h3 (not_or.mp hc)
  · refine iff_of_true rfl ⟨not_not.mp h1, ?_, ?_, not_not.mp h4, fun h => absurd h h5⟩
    · by_contra hc
      exact h2 (not_or.mp hc)
    · by_contra hc
      exact h3 (not_or.mp hc)

/-- A Service with an ingress is left alone. -/
theorem eligible_ingress {sel : List String} {r r6 : String} {svc : Service}
    (h : eligible sel r [r6] svc = true) : svc.ingress = [] :=
  (eligible_iff.mp h).2.2.2.1

/-- A requested address is allocatable from `ipRange` or from a set `ipv6Range`. -/
theorem eligible_requested {sel : List String} {r r6 : String} {svc : Service}
    (h : eligible sel r [r6] svc = true) (hq : svc.spec.loadBalancerIP ≠ "") :
    ipAllocatable svc.spec.loadBalancerIP r = true ∨
      (r6 ≠ "" ∧ ipAllocatable svc.spec.loadBalancerIP r6 = true) :=
  (eligible_iff.mp h).2.2.2.2 hq

end HeliosLB
