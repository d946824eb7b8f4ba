/-
  File:      HeliosLB/Controller/Watch.lean
  Subject:   WHICH CONFIGS A CHANGED SERVICE WAKES (SetupWithManager and findLoadBalancerServices
             in internal/controller/heliosconfig_controller.go).

  The watch and the filter of a pass ask two different questions about a requested address: the
  watch whether it is IN `ipRange`, the filter whether it is ALLOCATABLE from `ipRange` or from
  `ipv6Range`.

  * `watched` -- the predicate of the watch;
  * `findLoadBalancerServices` -- the source's function;
  * **`watch_wakes_iff`** -- a config that could serve the Service is woken exactly if nothing is
    requested, or the request is allocatable from `ipRange` and of its family, or at the edge of
    the block it is;
  * **`watch_misses_iff`** -- so it is missed for two kinds of requests: an address of the other
    family that the bytes put into the block `ipRange`, and one that only `ipv6Range` can give.
-/
import HeliosLB.Controller.ServiceFilter
import HeliosLB.Network.Ranges

namespace HeliosLB

open Lib

/-- The predicate of `SetupWithManager` on a Service event. -/
def watched (svc : Service) : Bool := svc.spec.type = .loadBalancer

/-- `findLoadBalancerServices` with the reply to its `List`: a request for each config, unless the
    Service asks for an address that is not in its `ipRange`. -/
def findLoadBalancerServices (list : ReadReply) (svc : Service) (configs : List HeliosConfig) :
    List NamespacedName :=
  match list with
  | .failed _ => []
  | .ok =>
    (configs.filter fun hc =>
      ¬ (svc.spec.loadBalancerIP ≠ "" ∧
        ipInRange svc.spec.loadBalancerIP hc.spec.ipRange = false)).map HeliosConfig.key

theorem mem_findLoadBalancerServices {svc : Service} {configs : Store HeliosConfig.key}
    {hc : HeliosConfig} (hm : hc ∈ configs) :
    hc.key ∈ findLoadBalancerServices .ok svc configs.objects ↔
      svc.spec.loadBalancerIP = "" ∨ ipInRange svc.spec.loadBalancerIP hc.spec.ipRange = true := by
  have hw : (¬ (svc.spec.loadBalancerIP ≠ "" ∧
      ipInRange svc.spec.loadBalancerIP hc.spec.ipRange = false)) ↔
      svc.spec.loadBalancerIP = "" ∨ ipInRange svc.spec.loadBalancerIP hc.spec.ipRange = true := by
    rw [not_and_or, not_not, Bool.not_eq_false]
  unfold findLoadBalancerServices
  simp only [List.mem_map, List.mem_filter, decide_eq_true_eq]
  rw [← hw]
  constructor
  · intro h
    obtain ⟨c, ⟨hmc, hwake⟩, hk⟩ := h
    obtain rfl : c = hc := Store.eq_of_key hmc hm hk
    exact hwake
  · exact fun hwake => ⟨hc, ⟨hm, hwake⟩, rfl⟩

/-- **When the watch wakes a config that could serve the Service.** -/
theorem watch_wakes_iff {services : List Service} {svc : Service}
    {configs : Store HeliosConfig.key} {hc : HeliosConfig} (hm : hc ∈ configs)
    (he : svc ∈ hc.eligibleServices services) :
    (watched svc = true ∧ hc.key ∈ findLoadBalancerServices .ok svc configs.objects) ↔
      svc.spec.loadBalancerIP = "" ∨
      (ipAllocatable svc.spec.loadBalancerIP hc.spec.ipRange = true ∧
        (isCIDR hc.spec.ipRange = true →
          sameFamily svc.spec.loadBalancerIP hc.spec.ipRange = true)) ∨
      atBlockEdge svc.spec.loadBalancerIP hc.spec.ipRange = true := by
  have hw : watched svc = true :=
    decide_eq_true (eligible_iff.mp (mem_eligibleServices.mp he).2).1
  rw [mem_findLoadBalancerServices hm, ipInRange_iff]
  exact and_iff_right hw

/-- **Which Services the watch misses** of those the config could serve: they request an address
    the filter found in the block `ipRange` by its bytes though it is of the other family, or one it
    found in `ipv6Range` only. -/
theorem watch_misses_iff {services : List Service} {svc : Service}
    {configs : Store HeliosConfig.key} {hc : HeliosConfig} (hm : hc ∈ configs)
    (he : svc ∈ hc.eligibleServices services) :
    hc.key ∉ findLoadBalancerServices .ok svc configs.objects ↔
      svc.spec.loadBalancerIP ≠ "" ∧
      atBlockEdge svc.spec.loadBalancerIP hc.spec.ipRange = false ∧
      ((ipAllocatable svc.spec.loadBalancerIP hc.spec.ipRange = true ∧
          isCIDR hc.spec.ipRange = true ∧
          sameFamily svc.spec.loadBalancerIP hc.spec.ipRange = false) ∨
        (ipAllocatable svc.spec.loadBalancerIP hc.spec.ipRange = false ∧
          hc.spec.ipv6Range ≠ "" ∧
          ipAllocatable svc.spec.loadBalancerIP hc.spec.ipv6Range = true)) := by
  obtain ⟨-, -, -, -, hreq⟩ := eligible_iff.mp (mem_eligibleServices.mp he).2
  rw [mem_findLoadBalancerServices hm, ipInRange_iff, not_or, not_or, Bool.not_eq_true, ← ne_eq]
  refine and_congr_right fun hne => (and_comm.trans (and_congr_right fun _ => ?_))
  cases h4 : ipAllocatable svc.spec.loadBalancerIP hc.spec.ipRange with
  | true => simp
  | false =>
      have h6 := (hreq hne).resolve_left (by simp [h4])
      simp [h6]

/-- A request inside the block of a dual-stack config. -/
theorem watch_wakes_inside_block :
    let svc : Service :=
      { key := ⟨"shop", "web"⟩, spec := { type := .loadBalancer, loadBalancerIP := "10.0.0.7" } }
    let a : HeliosConfig :=
      { key := ⟨"default", "a"⟩, spec := { ipRange := "10.0.0.0/24", ipv6Range := "fd00::/120" } }
    let configs : Store HeliosConfig.key := .ofList [a]
    svc ∈ a.eligibleServices [svc] ∧
      a.key ∈ findLoadBalancerServices .ok svc configs.objects := by
  intro svc a configs
  have hm : a ∈ configs := List.mem_singleton_self a
  have he : svc ∈ a.eligibleServices [svc] :=
    mem_eligibleServices.mpr ⟨List.mem_singleton_self svc, by decide⟩
  exact ⟨he, ((watch_wakes_iff hm he).mpr (Or.inr (Or.inl (by decide)))).2⟩

/-- **A Service that asks for an address of `ipv6Range` wakes nobody.** -/
theorem watch_misses_ipv6_request :
    let svc : Service :=
      { key := ⟨"shop", "web"⟩, spec := { type := .loadBalancer, loadBalancerIP := "fd00::5" } }
    let a : HeliosConfig :=
      { key := ⟨"default", "a"⟩, spec := { ipRange := "10.0.0.0/24", ipv6Range := "fd00::/120" } }
    a.eligibleServices [svc] = [svc] ∧ findLoadBalancerServices .ok svc [a] = [] :=
  ⟨rfl, by decide⟩

end HeliosLB
