/-
  File:      HeliosLB/Controller/Requests.lean
  Subject:   A REQUESTED ADDRESS, HONOURED OR SUBSTITUTED.

  Eligibility asks whether a request is allocatable from either range; the draw routes it by its
  family: IPv4 to `ipRange`, IPv6 to `ipv6Range`. The two decisions disagree for an IPv6 request
  to a config whose `ipRange` is IPv6 and whose `ipv6Range` is empty.

  * `splitRequestedIP_v4`, `splitRequestedIP_v6` -- the routing;
  * `offered_requested` -- what a routed request gets is the requested address;
  * `request_honoured` -- so a routed request is honoured; `request_substituted` -- one that is
    not gets, in a suitable state, any other address of the window;
  * **`request_honoured_iff`** -- for an eligible Service the request is honoured in every state
    of the allocator exactly if it is routed to a range, or the range a substitute would come
    from holds no other address.
-/
import HeliosLB.Controller.IPManagerSpec
import Mathlib.Data.List.DropRight

namespace HeliosLB

open Lib

/-! ## 1. The routing -/

theorem trimSpace_trimSpace (s : String) : trimSpace (trimSpace s) = trimSpace s := by
  have hr : ∀ l : List Char, (l.reverse.dropWhile isSpace).reverse = l.rdropWhile isSpace :=
    fun _ => rfl
  unfold trimSpace
  rw [String.toList_ofList]
  simp only [hr]
  generalize s.toList = l
  have hl : ((l.dropWhile isSpace).rdropWhile isSpace).dropWhile isSpace =
      (l.dropWhile isSpace).rdropWhile isSpace := by
    cases ht : (l.dropWhile isSpace).rdropWhile isSpace with
    | nil => rfl
    | cons c cs =>
        -- the first character left is the first one that is not a space
        obtain ⟨rest, hm⟩ := List.rdropWhile_prefix isSpace (l.dropWhile isSpace)
        rw [ht] at hm
        have hc : ¬ isSpace c = true := by
          have h0 := List.head_dropWhile_not isSpace (l := l) (by rw [← hm]; simp)
          simpa [← hm] using h0
        rw [List.dropWhile_cons_of_neg hc]
  rw [hl, List.rdropWhile_idempotent]

/-- The address a Service requests. -/
def Service.requested (svc : Service) : Option IP := parseIP (trimSpace svc.spec.loadBalancerIP)

theorem eligible_parses {sel : List String} {r r6 : String} {svc : Service}
    (h : eligible sel r [r6] svc = true) (hq : svc.spec.loadBalancerIP ≠ "") :
    ∃ ip, svc.requested = some ip := by
  have hp : ∀ range, ipAllocatable svc.spec.loadBalancerIP range = true →
      ∃ ip, svc.requested = some ip := by
    intro range ha
    unfold ipAllocatable at ha
    unfold Service.requested
    cases hp : parseIP (trimSpace svc.spec.loadBalancerIP) with
    | none =>
        rw [hp] at ha
        cases ha
    | some ip => exact ⟨ip, rfl⟩
  rcases eligible_requested h hq with ha | ⟨_, ha⟩
  · exact hp r ha
  · exact hp r6 ha

theorem splitRequestedIP_v4 {q : String} {ip : IP} (h : parseIP (trimSpace q) = some ip)
    (h4 : (to4 ip).isSome = true) : splitRequestedIP q = (trimSpace q, "") := by
  unfold splitRequestedIP
  rw [h]
  exact if_pos h4

theorem splitRequestedIP_v6 {q : String} {ip : IP} (h : parseIP (trimSpace q) = some ip)
    (h4 : (to4 ip).isSome = false) : splitRequestedIP q = ("", trimSpace q) := by
  unfold splitRequestedIP
  rw [h]
  exact if_neg (by simp [h4])

/-- **A request that reaches a range gets the requested address or none.** -/
theorem offered_requested {pool : IPAllocator} {r q s : String} {ip : IP}
    (h : parseIP (trimSpace q) = some ip) (ho : offered pool r (trimSpace q) = some s) :
    parseIP s = some ip := by
  have hne : trimSpace q ≠ "" := by
    intro e
    have e0 : parseIP "" = none := by decide
    rw [e, e0] at h
    cases h
  rw [offered, if_neg hne] at ho
  obtain ⟨target, ht, rfl⟩ := IPAllocator.grant_eq ho
  rw [trimSpace_trimSpace, h, Option.some.injEq] at ht
  subst ht
  have ha := isAddr_of_parseIP h
  have h16 : to16 ip = ip := by simp [to16, parseIP_length h]
  rw [ipString_normalizeIP ha, parseIP_ipString ha, h16]

/-! ## 2. The substitute -/

/-- With every address of the window but one taken, that one is the first free. -/
theorem firstFree_only {n : Nat} {r a : String} (ha : a ∈ IPAllocator.window n r) :
    IPAllocator.firstFree n r ((IPAllocator.window n r).toFinset.erase a) = some a := by
  obtain ⟨b, hb⟩ := IPAllocator.firstFree_of_mem ha (Finset.notMem_erase a _)
  obtain ⟨hmem, hfree⟩ := IPAllocator.mem_of_firstFree hb
  have hba : b = a := by
    by_contra hne
    exact hfree (Finset.mem_erase.mpr ⟨hne, List.mem_toFinset.mpr hmem⟩)
  rw [hb, hba]

/-- A pool in which every address of the window but one is taken hands that one out. -/
theorem offer_only {n : Nat} {r a : String} (ha : a ∈ IPAllocator.window n r) :
    IPAllocator.offer ⟨(IPAllocator.window n r).toFinset.erase a, n⟩ r = some a :=
  IPAllocator.offer_of_firstFree (firstFree_only ha)

/-- **An IPv6 request is dropped without an `ipv6Range`**: in a suitable state of the pool the
    Service gets any other address of the scan window. -/
theorem request_substituted (retries : Nat) {n : Nat} {hc : HeliosConfig} {svc : Service}
    {target : IP} {a : String} (ht : svc.requested = some target)
    (h4 : (to4 target).isSome = false) (h6 : hc.spec.ipv6Range = "")
    (ha : a ∈ IPAllocator.window n hc.spec.ipRange) :
    ∃ w : World, w.pool.maxScan = n ∧ svc ∈ w.cluster.services ∧
      (allocateAndAssign retries hc svc w {}).1 = .ok (a, "") := by
  let w : World := ⟨⟨.ofList [svc], .empty⟩,
    ⟨(IPAllocator.window n hc.spec.ipRange).toFinset.erase a, n⟩⟩
  have hs : svc ∈ w.cluster.services := List.mem_singleton_self svc
  have hd : drawn hc.spec svc.spec.loadBalancerIP (w.marked hc) = some (a, "") := by
    have hm : w.marked hc = w.pool := rfl
    rw [hm, drawn_eq_some, splitRequestedIP_v6 ht h4, offered_pool]
    exact ⟨offer_only ha, Or.inl ⟨h6, rfl⟩⟩
  have hok := allocateAndAssign_succeeds (r := {}) rfl hd (Store.find_key hs)
    (attemptsSeen_ok rfl retries)
  exact ⟨w, rfl, hs, congrArg Prod.fst hok⟩

/-- An IPv4 request, or any request of a dual-stack config, is honoured. -/
theorem request_honoured {hc : HeliosConfig} {svc : Service} {target : IP} {pool : IPAllocator}
    {ip ipv6 : String} (ht : svc.requested = some target)
    (h : (to4 target).isSome = true ∨ hc.spec.ipv6Range ≠ "")
    (hd : drawn hc.spec svc.spec.loadBalancerIP pool = some (ip, ipv6)) :
    ∃ a ∈ ingressOf ip ipv6, parseIP a = some target := by
  obtain ⟨hip, hipv6⟩ := drawn_eq_some.mp hd
  cases h4 : (to4 target).isSome with
  | true =>
      rw [splitRequestedIP_v4 ht h4] at hip
      exact ⟨ip, mem_ingressOf_left ip ipv6, offered_requested ht hip⟩
  | false =>
      rw [splitRequestedIP_v6 ht h4] at hipv6
      have h6 := h.resolve_left (by rw [h4]; decide)
      obtain ⟨_, hipv6⟩ := hipv6.resolve_left fun h => h6 h.1
      exact ⟨ipv6, mem_ingressOf_right (offered_ne_empty hipv6), offered_requested ht hipv6⟩

/-- **A request is honoured in every state of the allocator exactly if** it is an IPv4 request, or
    the config has an `ipv6Range`, or the scan window of `ipRange` holds no other address. -/
theorem request_honoured_iff (retries n : Nat) {hc : HeliosConfig} {svc : Service}
    (he : eligible hc.spec.namespaceSelector hc.spec.ipRange [hc.spec.ipv6Range] svc = true)
    (hq : svc.spec.loadBalancerIP ≠ "") :
    (∀ w r ip ipv6, w.pool.maxScan = n → svc ∈ w.cluster.services →
        (allocateAndAssign retries hc svc w r).1 = .ok (ip, ipv6) →
        ∃ a ∈ ingressOf ip ipv6, parseIP a = svc.requested) ↔
      ((svc.requested.bind to4).isSome = true ∨ hc.spec.ipv6Range ≠ "" ∨
        ∀ a ∈ IPAllocator.window n hc.spec.ipRange, parseIP a = svc.requested) := by
  obtain ⟨target, ht⟩ := eligible_parses he hq
  have hb : svc.requested.bind to4 = to4 target := by rw [ht]; rfl
  rw [hb]
  constructor
  · intro h
    by_contra hcond
    obtain ⟨h4, h6, hwin⟩ := not_or.mp hcond |>.imp_right not_or.mp
    obtain ⟨a, ha, hne⟩ := not_forall₂.mp hwin
    rw [Bool.not_eq_true] at h4
    obtain ⟨w, hn, hs, hok⟩ := request_substituted retries ht h4 (not_not.mp h6) ha
    obtain ⟨b, hb, hp⟩ := h w {} a "" hn hs hok
    rw [List.mem_singleton.mp hb] at hp
    exact hne hp
  · intro hcond w r ip ipv6 hn _ hok
    have hd := drawn_of_allocateAndAssign hok
    rw [← or_assoc] at hcond
    rcases hcond with hcond | hwin
    · rw [ht]
      exact request_honoured ht hcond hd
    · -- whatever is drawn from `ipRange` is in its window, or is the request
      obtain ⟨hip, _⟩ := drawn_eq_some.mp hd
      cases h4 : (to4 target).isSome with
      | true =>
          rw [ht]
          exact request_honoured ht (Or.inl h4) hd
      | false =>
          rw [splitRequestedIP_v6 ht h4, offered_pool] at hip
          have hmem := IPAllocator.offer_mem_window hip
          rw [World.marked, markOthers_maxScan, hn] at hmem
          exact ⟨ip, mem_ingressOf_left ip ipv6, hwin ip hmem⟩

/-- A dual-stack config honours an IPv6 request. -/
theorem request_honoured_dual_stack :
    let web : Service :=
      { key := ⟨"shop", "web"⟩, spec := { type := .loadBalancer, loadBalancerIP := " FD00::5 " } }
    let a : HeliosConfig :=
      { key := ⟨"default", "a"⟩
        spec := { ipRange := "10.0.0.0/24", ipv6Range := "fd00::1-fd00::ff" } }
    let w : World := ⟨⟨.ofList [web], .ofList [a]⟩, newIPAllocator⟩
    (allocateAndAssign 4 a web w {}).1 = .ok ("10.0.0.1", "fd00::5") ∧
      ∃ x ∈ ingressOf "10.0.0.1" "fd00::5", parseIP x = web.requested := by
  intro web a w
  have hok : (allocateAndAssign 4 a web w {}).1 = .ok ("10.0.0.1", "fd00::5") := by decide
  have he : eligible a.spec.namespaceSelector a.spec.ipRange [a.spec.ipv6Range] web = true := by
    decide
  have h6 : a.spec.ipv6Range ≠ "" := by decide
  have hs : web ∈ w.cluster.services := List.mem_singleton_self web
  exact ⟨hok, (request_honoured_iff 4 defaultMaxScan he (by decide)).mpr (Or.inr (Or.inl h6)) w {}
    _ _ rfl hs hok⟩

/-- **A request for `fd00::5` gets `fd00::1`**: the config has only an `ipRange`, of IPv6. -/
theorem request_substituted_single_v6 :
    let web : Service :=
      { key := ⟨"shop", "web"⟩, spec := { type := .loadBalancer, loadBalancerIP := "fd00::5" } }
    let a : HeliosConfig := { key := ⟨"default", "a"⟩, spec := { ipRange := "fd00::1-fd00::ff" } }
    let w : World := ⟨⟨.ofList [web], .ofList [a]⟩, newIPAllocator⟩
    a.eligibleServices w.cluster.services.objects = [web] ∧
      (allocateAndAssign 4 a web w {}).1 = .ok ("fd00::1", "") ∧
      ¬ ∃ x ∈ ingressOf "fd00::1" "", parseIP x = web.requested :=
  ⟨rfl, by decide, by decide⟩

end HeliosLB
