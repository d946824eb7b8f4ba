/-
  File:      HeliosLB/Controller/Commute.lean
  Subject:   PASSES OVER INDEPENDENT CONFIGS COMMUTE.

  Two passes share the pool, each marks what the other config records, and each checks the other's
  status for conflicts. If the configs have one bounded IPv4 range each, without a common address,
  none of these ways leads from one to the other: a pass looks at addresses of its own range only,
  and it adds addresses of its own range only.

  * `plan_agree` -- from pools that agree on the range a loop writes the same;
  * `plan_marks`, `plan_inRange` -- what a loop with one range leaves in use, and what it assigns;
  * `Plain`, `Independent` -- the configs considered;
  * `passPlan_after` -- the plan of one pass after the other is the plan of that pass alone, up to
    the pool;
  * **`reconcile_comm`** -- the two orders end in the same world.
-/
import HeliosLB.Controller.Idempotent
import HeliosLB.Controller.Requests
import HeliosLB.Network.Window

namespace HeliosLB

open Lib

/-! ## 1. One draw -/

/-- A request that reaches `ipRange` is for an IPv4 address. -/
theorem splitRequestedIP_family (q : String) {t : IP}
    (h : parseIP (trimSpace (splitRequestedIP q).1) = some t) : (to4 t).isSome = true := by
  have hempty : parseIP (trimSpace "") = none := by decide
  unfold splitRequestedIP at h
  cases hp : parseIP (trimSpace q) with
  | none =>
      rw [hp] at h
      rw [hempty] at h
      cases h
  | some ip =>
      rw [hp] at h
      simp only at h
      split at h
      · rename_i h4
        rw [trimSpace_trimSpace, hp] at h
        cases h
        exact h4
      · rw [hempty] at h
        cases h

/-- What an IPv4 range offers is in the range. -/
theorem offered_inRange {pool : IPAllocator} {r q x : String} (hr : boundedIPv4 r = true)
    (h : offered pool r (splitRequestedIP q).1 = some x) : ipInRange x r = true := by
  unfold offered at h
  split at h
  · exact mem_window_inRange hr (IPAllocator.offer_mem_window h)
  · obtain ⟨t, ht, rfl⟩ := IPAllocator.grant_eq h
    exact requested_inRange hr ht (splitRequestedIP_family q ht) (IPAllocator.grant_allocatable h)

theorem allocateIP_agree {a b : IPAllocator} {r : String} (hr : boundedIPv4 r = true)
    (h : IPAllocator.AgreeOn r a b) (q : String) :
    (allocateIP a r (splitRequestedIP q).1).1 = (allocateIP b r (splitRequestedIP q).1).1 := by
  unfold allocateIP
  split
  · exact IPAllocator.allocateIP_agree hr h
  · exact IPAllocator.allocateSpecificIP_agree hr h fun t => splitRequestedIP_family q

/-- **One bounded IPv4 range and no other.** -/
def HeliosConfigSpec.Plain (spec : HeliosConfigSpec) : Prop :=
  spec.ipv6Range = "" ∧ boundedIPv4 spec.ipRange = true

section Draw

variable {hc : HeliosConfig} {svc : Service} {a b pool pool' : IPAllocator}

theorem drawAddresses_agree (hp : hc.spec.Plain) (h : IPAllocator.AgreeOn hc.spec.ipRange a b)
    (svc : Service) : (drawAddresses hc svc [] a).1 = (drawAddresses hc svc [] b).1 := by
  have hnone : ∀ p : IPAllocator, markOthers hc p [] = p := fun _ => rfl
  have hal := allocateIP_agree hp.2 h svc.spec.loadBalancerIP
  unfold drawAddresses
  simp only [hnone, hp.1, if_true]
  rcases ha : allocateIP a hc.spec.ipRange (splitRequestedIP svc.spec.loadBalancerIP).1 with ⟨x, p⟩
  rcases hb : allocateIP b hc.spec.ipRange (splitRequestedIP svc.spec.loadBalancerIP).1 with ⟨y, p'⟩
  rw [ha, hb] at hal
  obtain rfl : x = y := hal
  cases x <;> rfl

/-- A draw from one range takes one address of it. -/
theorem drawAddresses_plain {ip ipv6 : String} (hp : hc.spec.Plain)
    (h : drawAddresses hc svc [] pool = (.ok (ip, ipv6), pool')) :
    ingressOf ip ipv6 = [ip] ∧ ipInRange ip hc.spec.ipRange = true := by
  obtain ⟨h4, ⟨_, rfl⟩ | ⟨hne, _⟩⟩ := drawn_eq_some.mp (drawAddresses_ok h).1
  · exact ⟨rfl, offered_inRange hp.2 h4⟩
  · exact absurd hp.1 hne

end Draw

/-! ## 2. One loop -/

namespace IPAllocator

variable {r : String} {a b : IPAllocator}

theorem AgreeOn.foldl_markUsed (h : AgreeOn r a b) (l : List String) :
    AgreeOn r (l.foldl markUsed a) (l.foldl markUsed b) where
  maxScan := by rw [foldl_markUsed_maxScan, foldl_markUsed_maxScan, h.maxScan]
  used x hx := by rw [mem_foldl_markUsed, mem_foldl_markUsed, h.used x hx]

end IPAllocator

/-- **Loops from pools that agree on the range write the same.** -/
theorem plan_agree {others others' : List String} : ∀ (svcs : List Service) (hc : HeliosConfig)
    (pool pool' : IPAllocator), hc.spec.Plain →
    IPAllocator.AgreeOn hc.spec.ipRange (others.foldl IPAllocator.markUsed pool)
      (others'.foldl IPAllocator.markUsed pool') →
    (plan others svcs hc pool).assigned = (plan others' svcs hc pool').assigned ∧
      (plan others svcs hc pool).config = (plan others' svcs hc pool').config
  | [], _, _, _, _, _ => ⟨rfl, rfl⟩
  | svc :: rest, hc, pool, pool', hp, hag => by
      have hdraw := drawAddresses_agree hp hag svc
      cases hq : checkQuota hc with
      | some e =>
          rw [plan_quota hq, plan_quota hq]
          exact ⟨rfl, rfl⟩
      | none =>
          rcases hd : drawAddresses hc svc [] (others.foldl IPAllocator.markUsed pool) with
            ⟨res, p⟩
          rcases hd' : drawAddresses hc svc [] (others'.foldl IPAllocator.markUsed pool') with
            ⟨res', p'⟩
          rw [hd, hd'] at hdraw
          obtain rfl : res = res' := hdraw
          rcases res with f | ⟨ip, ipv6⟩
          · rw [plan_failed hq hd, plan_failed hq hd']
            exact ⟨rfl, rfl⟩
          · have hnext : IPAllocator.AgreeOn hc.spec.ipRange
                (others.foldl IPAllocator.markUsed p) (others'.foldl IPAllocator.markUsed p') := by
              rw [(drawAddresses_ok hd).2, (drawAddresses_ok hd').2,
                IPAllocator.foldl_markUsed_again, IPAllocator.foldl_markUsed_again]
              exact hag.foldl_markUsed _
            obtain ⟨has, hcf⟩ := plan_agree rest (servedConfig hc svc ip ipv6) p p' hp hnext
            rw [plan_served hq hd, plan_served hq hd']
            exact ⟨congrArg (written hc.key ip ipv6 svc :: ·) has, hcf⟩

section Loop

variable {others : List String} (svcs : List Service) (hc : HeliosConfig) (pool : IPAllocator)

/-- A loop with one range assigns addresses of that range. -/
theorem plan_inRange (hp : hc.spec.Plain) : ∀ s ∈ (plan others svcs hc pool).assigned,
    ∀ x ∈ s.ingress, ipInRange x hc.spec.ipRange = true := by
  revert hp
  refine plan_induct (P := fun _ hc _ p => hc.spec.Plain → ∀ s ∈ p.assigned, ∀ x ∈ s.ingress,
    ipInRange x hc.spec.ipRange = true) ?_ ?_ ?_ ?_ svcs hc pool
  · exact fun _ _ _ s hs => absurd hs List.not_mem_nil
  · exact fun _ _ _ _ _ _ s hs => absurd hs List.not_mem_nil
  · exact fun _ _ _ _ _ _ _ _ _ s hs => absurd hs List.not_mem_nil
  · intro svc rest hc pool ip ipv6 pool' p _ hd _ ih hp s hs x hx
    obtain ⟨hone, hin⟩ := drawAddresses_plain hp hd
    rcases List.mem_cons.mp hs with rfl | hs
    · have hx' : x ∈ ingressOf ip ipv6 := hx
      rw [hone] at hx'
      rwa [List.mem_singleton.mp hx']
    · exact ih hp s hs x hx

theorem plan_maxScan (hp : hc.spec.Plain) :
    (plan others svcs hc pool).pool.maxScan = pool.maxScan := by
  revert hp
  refine plan_induct (P := fun _ hc pool p => hc.spec.Plain → p.pool.maxScan = pool.maxScan)
    ?_ ?_ ?_ ?_ svcs hc pool
  · exact fun _ _ _ => rfl
  · exact fun _ _ _ _ _ _ => rfl
  · intro _ _ hc pool f pool' _ hd hp
    rw [(drawAddresses_failed hd).2.2 hp.1]
    exact IPAllocator.foldl_markUsed_maxScan _ _
  · intro svc rest hc pool ip ipv6 pool' p _ hd _ ih hp
    refine (ih hp).trans ?_
    rw [(drawAddresses_ok hd).2, IPAllocator.foldl_markUsed_maxScan,
      IPAllocator.foldl_markUsed_maxScan]

/-- **What a loop with one range leaves in use**: what was in use, what it marked for the others,
    and what it assigned. -/
theorem plan_marks (hp : hc.spec.Plain) {x : String} :
    x ∈ (plan others svcs hc pool).pool.used ↔ x ∈ pool.used ∨
      (x ∈ others ∧ svcs ≠ [] ∧ checkQuota hc = none) ∨
      ∃ s ∈ (plan others svcs hc pool).assigned, x ∈ s.ingress := by
  refine ⟨plan_used svcs hc pool x, ?_⟩
  revert hp
  refine plan_induct (P := fun svcs hc pool p => hc.spec.Plain → (x ∈ pool.used ∨
    (x ∈ others ∧ svcs ≠ [] ∧ checkQuota hc = none) ∨ ∃ s ∈ p.assigned, x ∈ s.ingress) →
    x ∈ p.pool.used) ?_ ?_ ?_ ?_ svcs hc pool
  · intro hc pool _ h
    rcases h with h | ⟨_, h, _⟩ | ⟨s, hs, _⟩
    · exact h
    · exact absurd rfl h
    · cases hs
  · intro svc rest hc pool hq _ h
    rcases h with h | ⟨_, _, h⟩ | ⟨s, hs, _⟩
    · exact h
    · exact absurd h hq
    · cases hs
  · intro svc rest hc pool f pool' _ hd hp h
    show x ∈ pool'.used
    rw [(drawAddresses_failed hd).2.2 hp.1, IPAllocator.mem_foldl_markUsed]
    rcases h with h | ⟨h, _⟩ | ⟨s, hs, _⟩
    · exact Or.inl h
    · exact Or.inr h
    · cases hs
  · intro svc rest hc pool ip ipv6 pool' p _ hd _ ih hp h
    have hstart : x ∈ pool'.used ↔ (x ∈ pool.used ∨ x ∈ others) ∨ x ∈ ingressOf ip ipv6 := by
      rw [(drawAddresses_ok hd).2, IPAllocator.mem_foldl_markUsed, IPAllocator.mem_foldl_markUsed]
    refine ih hp ?_
    rcases h with h | ⟨h, _⟩ | ⟨s, hs, hx⟩
    · exact Or.inl (hstart.mpr (Or.inl (Or.inl h)))
    · exact Or.inl (hstart.mpr (Or.inl (Or.inr h)))
    · rcases List.mem_cons.mp hs with rfl | hs
      · exact Or.inl (hstart.mpr (Or.inr hx))
      · exact Or.inr (Or.inr ⟨s, hs, hx⟩)

end Loop

/-! ## 3. One pass -/

section Pass

variable {hc : HeliosConfig} (w : World)

theorem passPlan_inRange (hp : hc.spec.Plain) : ∀ s ∈ (passPlan hc w).assigned, ∀ x ∈ s.ingress,
    ipInRange x hc.spec.ipRange = true := by
  have hspec := readied_spec hc
  rcases passPlan_cases hc w with ⟨_, e⟩ | ⟨_, e⟩
  · rw [e, ← hspec]
    exact plan_inRange _ (readied hc) w.pool (hspec ▸ hp)
  · rw [e]
    exact fun s hs => absurd hs List.not_mem_nil

theorem passPlan_maxScan (hp : hc.spec.Plain) : (passPlan hc w).pool.maxScan = w.pool.maxScan := by
  have hspec := readied_spec hc
  rcases passPlan_cases hc w with ⟨_, e⟩ | ⟨_, e⟩
  · rw [e]
    exact plan_maxScan _ (readied hc) w.pool (hspec ▸ hp)
  · rw [e]

/-- **What a pass with one range leaves in use.** -/
theorem passPlan_marks (hp : hc.spec.Plain) {x : String} :
    x ∈ (passPlan hc w).pool.used ↔ x ∈ w.pool.used ∨
      (x ∈ recordedByOthers hc w.cluster.configs.objects ∧ Draws hc w) ∨
      ∃ s ∈ (passPlan hc w).assigned, x ∈ s.ingress := by
  refine ⟨passPlan_used hc w x, fun h => ?_⟩
  have hspec := readied_spec hc
  rcases passPlan_cases hc w with ⟨_, e⟩ | ⟨h0, e⟩
  · rw [e] at h ⊢
    rw [plan_marks _ (readied hc) w.pool (hspec ▸ hp), readied_checkQuota]
    exact h.imp_right (Or.imp_left fun hx => ⟨hx.1, hx.2.2⟩)
  · rw [e] at h ⊢
    rcases h with h | ⟨_, h, _⟩ | ⟨s, hs, _⟩
    · exact h
    · omega
    · cases hs

/-- What the config records after the pass. -/
theorem passPlan_recorded {x : String} (h : x ∈ (passPlan hc w).config.recorded) :
    x ∈ hc.recorded ∨ ∃ s ∈ (passPlan hc w).assigned, x ∈ s.ingress := by
  obtain ⟨name, he⟩ := mem_recorded_iff_entry.mp h
  rcases passPlan_entries hc w he with he | ⟨s, hs, _, hx⟩
  · exact Or.inl (mem_recorded_iff_entry.mpr ⟨name, he⟩)
  · exact Or.inr ⟨s, hs, hx⟩

/-- **A pass reads the conflicts, the eligible Services and, of the pool with the others' marks,
    the addresses of its range.** -/
theorem passPlan_agree (hp : hc.spec.Plain) {w w' : World}
    (hconf : checkIPConflicts hc w'.cluster.configs.objects =
      checkIPConflicts hc w.cluster.configs.objects)
    (hel : hc.eligibleServices w'.cluster.services.objects =
      hc.eligibleServices w.cluster.services.objects)
    (hag : IPAllocator.AgreeOn hc.spec.ipRange
      ((recordedByOthers hc w'.cluster.configs.objects).foldl IPAllocator.markUsed w'.pool)
      ((recordedByOthers hc w.cluster.configs.objects).foldl IPAllocator.markUsed w.pool)) :
    (passPlan hc w').assigned = (passPlan hc w).assigned ∧
      (passPlan hc w').config = (passPlan hc w).config := by
  have hspec := readied_spec hc
  rcases passPlan_cases hc w with ⟨h0, e⟩ | ⟨h0, e⟩
  · rw [e, passPlan_clean (hconf ▸ h0), hel]
    rw [← hspec] at hp hag
    exact plan_agree _ (readied hc) _ _ hp hag
  · rw [e, passPlan_conflict (hconf ▸ h0), hconf]
    exact ⟨rfl, rfl⟩

end Pass

/-! ## 4. Two passes -/

/-- A stored config of the kind considered: it is not being deleted, has one bounded IPv4 range,
    and what it records is of that range and in use. -/
structure Settled (hc : HeliosConfig) (w : World) : Prop where
  stored : w.cluster.configs.find hc.key = some hc
  alive : hc.deleting = false
  plain : hc.spec.Plain
  recorded : ∀ x ∈ hc.recorded, ipInRange x hc.spec.ipRange = true ∧ x ∈ w.pool.used

/-- **Two different configs without a common address or a common Service.** -/
structure Independent (a b : HeliosConfig) (w : World) : Prop where
  keys : a.key ≠ b.key
  ranges : ∀ x, ¬ (ipInRange x a.spec.ipRange = true ∧ ipInRange x b.spec.ipRange = true)
  services : ∀ svc ∈ w.cluster.services,
    ¬ (eligible a.spec.namespaceSelector a.spec.ipRange [a.spec.ipv6Range] svc = true ∧
      eligible b.spec.namespaceSelector b.spec.ipRange [b.spec.ipv6Range] svc = true)

theorem Independent.symm {a b : HeliosConfig} {w : World} (h : Independent a b w) :
    Independent b a w where
  keys := h.keys.symm
  ranges x hx := h.ranges x hx.symm
  services svc hm hs := h.services svc hm hs.symm

/-- Records outside the range are no conflict. -/
theorem conflictsWith_of_apart {hc other : HeliosConfig} (h6 : hc.spec.ipv6Range = "")
    (h : ∀ x ∈ other.recorded, ipInRange x hc.spec.ipRange = false) (m : StringMap) :
    conflictsWith hc other m = m := by
  have hskip : ∀ (l : List ((_ : String) × String)) (g : ((_ : String) × String) → String),
      (∀ e ∈ l, ipInRange e.2 hc.spec.ipRange = false) →
      l.foldl (fun m e => if ipInRange e.2 hc.spec.ipRange then m.insert e.2 (g e) else m) m =
        m := by
    intro l g hl
    induction l with
    | nil => rfl
    | cons e l ih =>
        rw [List.foldl_cons, hl e List.mem_cons_self]
        exact ih fun e' he' => hl e' (List.mem_cons_of_mem e he')
  unfold conflictsWith
  rw [if_neg (not_not.mpr h6)]
  refine hskip _ _ fun e he => h e.2 ?_
  exact List.mem_append_left _ (List.mem_map_of_mem he)

/-- What neither of the two configs records. -/
def recordedByThird (a b : HeliosConfig) (w : World) (x : String) : Prop :=
  ∃ c ∈ w.cluster.configs, c.key ≠ a.key ∧ c.key ≠ b.key ∧ x ∈ c.recorded

section Two

variable {a b : HeliosConfig} {w : World}

/-- What `b` marks for the others, after `a` was written: that of the third configs, and `a`'s. -/
theorem mem_recordedByOthers_replace {a' : HeliosConfig} (ha : a ∈ w.cluster.configs)
    (hk : a'.key = a.key) (hne : a.key ≠ b.key) {x : String} :
    x ∈ recordedByOthers b (w.cluster.configs.replace a').objects ↔
      recordedByThird a b w x ∨ x ∈ a'.recorded := by
  rw [mem_recordedByOthers]
  constructor
  · intro h
    obtain ⟨c, hc, hcb, hx⟩ := h
    rcases Store.mem_replace.mp hc with ⟨rfl, _⟩ | ⟨hc, hca⟩
    · exact Or.inr hx
    · exact Or.inl ⟨c, hc, hk ▸ hca, hcb, hx⟩
  · intro h
    rcases h with ⟨c, hc, hca, hcb, hx⟩ | hx
    · exact ⟨c, Store.mem_replace.mpr (Or.inr ⟨hc, hk ▸ hca⟩), hcb, hx⟩
    · exact ⟨a', Store.mem_replace.mpr (Or.inl ⟨rfl, a, ha, hk.symm⟩), hk ▸ hne, hx⟩

theorem mem_recordedByOthers_stored (ha : a ∈ w.cluster.configs) (hne : a.key ≠ b.key)
    {x : String} : x ∈ recordedByOthers b w.cluster.configs.objects ↔
      recordedByThird a b w x ∨ x ∈ a.recorded := by
  have h := mem_recordedByOthers_replace (x := x) ha rfl hne
  rwa [Store.replace_self ha] at h

theorem recordedByThird_comm {x : String} : recordedByThird a b w x ↔ recordedByThird b a w x := by
  unfold recordedByThird
  constructor <;>
  · intro h
    obtain ⟨c, hc, h1, h2, hx⟩ := h
    exact ⟨c, hc, h2, h1, hx⟩

variable (ha : Settled a w) (hb : Settled b w) (hi : Independent a b w)

include ha hi in
/-- The other config's range has no address that `a` assigns or records. -/
theorem passPlan_apart {x : String} (hx : ipInRange x b.spec.ipRange = true) :
    x ∉ a.recorded ∧ x ∉ (passPlan a w).config.recorded ∧
      ¬ ∃ s ∈ (passPlan a w).assigned, x ∈ s.ingress := by
  have hrec : x ∉ a.recorded := fun h => hi.ranges x ⟨(ha.recorded x h).1, hx⟩
  have hass : ¬ ∃ s ∈ (passPlan a w).assigned, x ∈ s.ingress := by
    intro h
    obtain ⟨s, hs, hin⟩ := h
    exact hi.ranges x ⟨passPlan_inRange w ha.plain s hs x hin, hx⟩
  exact ⟨hrec, fun h => (passPlan_recorded w h).elim hrec hass, hass⟩

include ha hb hi in
theorem checkIPConflicts_after :
    checkIPConflicts b ((passPlan a w).applyTo w).cluster.configs.objects =
      checkIPConflicts b w.cluster.configs.objects := by
  have hkey := (passPlan_config a w).1
  have hnone : ∀ c : HeliosConfig, (∀ x ∈ c.recorded, ipInRange x b.spec.ipRange = false) →
      ∀ m, conflictsWith b c m = m := fun c h m => conflictsWith_of_apart hb.plain.1 h m
  have hbefore := hnone a fun x hx => Bool.eq_false_iff.mpr fun h =>
    (passPlan_apart ha hi h).1 hx
  have hafter := hnone (passPlan a w).config fun x hx => Bool.eq_false_iff.mpr fun h =>
    (passPlan_apart ha hi h).2.1 hx
  unfold checkIPConflicts
  refine Store.foldl_replace (fun c hc hk m => ?_) ∅
  obtain rfl : c = a := Store.eq_of_key hc (Store.find_eq_some.mp ha.stored).1 (hk.trans hkey)
  simp only [hkey, hbefore, hafter]

include hi in
theorem eligibleServices_after :
    b.eligibleServices ((passPlan a w).applyTo w).cluster.services.objects =
      b.eligibleServices w.cluster.services.objects := by
  have hf := Store.filter_replaceAll (S := w.cluster.services) (l := (passPlan a w).assigned)
    (p := eligible b.spec.namespaceSelector b.spec.ipRange [b.spec.ipv6Range])
    fun s hs => not_eligible_of_ingress (passPlan_assigned_ingress a w s hs)
  show b.eligibleServices (w.cluster.services.replaceAll (passPlan a w).assigned).objects = _
  unfold HeliosConfig.eligibleServices filterEligibleServices
  rw [hf, List.filter_eq_self]
  intro s hs
  rw [decide_eq_true_eq]
  intro hk
  obtain ⟨svc, hm, hkey, hel, _⟩ := passPlan_assigned_stored a w s.key hk
  obtain ⟨hs, hel'⟩ := List.mem_filter.mp hs
  obtain rfl : svc = s := Store.eq_of_key hm hs hkey
  exact hi.services svc hm ⟨(mem_eligibleServices.mp hel).2, hel'⟩

include ha hb hi in
/-- With the others' marks the pool is the same to `b` before and after the pass over `a`. -/
theorem pool_after : IPAllocator.AgreeOn b.spec.ipRange
    ((recordedByOthers b ((passPlan a w).applyTo w).cluster.configs.objects).foldl
      IPAllocator.markUsed (passPlan a w).pool)
    ((recordedByOthers b w.cluster.configs.objects).foldl IPAllocator.markUsed w.pool) where
  maxScan := by
    rw [IPAllocator.foldl_markUsed_maxScan, IPAllocator.foldl_markUsed_maxScan,
      passPlan_maxScan w ha.plain]
  used x hx := by
    have hma := (Store.find_eq_some.mp ha.stored).1
    have hmb := (Store.find_eq_some.mp hb.stored).1
    obtain ⟨hrec, hrec', hass⟩ := passPlan_apart ha hi hx
    have hown : x ∈ b.recorded → x ∈ w.pool.used := fun h => (hb.recorded x h).2
    have hafter := mem_recordedByOthers_replace (x := x) hma (passPlan_config a w).1 hi.keys
    rw [IPAllocator.mem_foldl_markUsed, IPAllocator.mem_foldl_markUsed, passPlan_marks w ha.plain,
      mem_recordedByOthers_stored hma hi.keys, mem_recordedByOthers_stored hmb hi.keys.symm,
      recordedByThird_comm (a := b)]
    show (_ ∨ x ∈ recordedByOthers b (w.cluster.configs.replace (passPlan a w).config).objects) ↔ _
    rw [hafter]
    constructor
    · intro h
      rcases h with (h | ⟨h | h, _⟩ | h) | h | h
      · exact Or.inl h
      · exact Or.inr (Or.inl h)
      · exact Or.inl (hown h)
      · exact absurd h hass
      · exact Or.inr (Or.inl h)
      · exact absurd h hrec'
    · intro h
      rcases h with h | h | h
      · exact Or.inl (Or.inl h)
      · exact Or.inr (Or.inl h)
      · exact absurd h hrec

include ha hb hi in
/-- **The pass over `b` after the pass over `a` writes what it writes alone.** -/
theorem passPlan_after :
    (passPlan b ((passPlan a w).applyTo w)).assigned = (passPlan b w).assigned ∧
      (passPlan b ((passPlan a w).applyTo w)).config = (passPlan b w).config ∧
      (Draws b ((passPlan a w).applyTo w) ↔ Draws b w) := by
  have hconf := checkIPConflicts_after ha hb hi
  have hel := eligibleServices_after hi
  obtain ⟨has, hcf⟩ := passPlan_agree hb.plain hconf hel (pool_after ha hb hi)
  refine ⟨has, hcf, ?_⟩
  unfold Draws
  rw [hconf, hel]

include ha hb hi in
/-- What is in use after both passes does not depend on their order. -/
theorem mem_used_after {x : String} :
    x ∈ (passPlan b ((passPlan a w).applyTo w)).pool.used ↔ x ∈ w.pool.used ∨
      (recordedByThird a b w x ∧ (Draws a w ∨ Draws b w)) ∨
      (∃ s ∈ (passPlan a w).assigned, x ∈ s.ingress) ∨
      ∃ s ∈ (passPlan b w).assigned, x ∈ s.ingress := by
  have hma := (Store.find_eq_some.mp ha.stored).1
  have hmb := (Store.find_eq_some.mp hb.stored).1
  have hafter := mem_recordedByOthers_replace (x := x) hma (passPlan_config a w).1 hi.keys
  obtain ⟨has, _, hdraws⟩ := passPlan_after ha hb hi
  have howna : x ∈ a.recorded → x ∈ w.pool.used := fun h => (ha.recorded x h).2
  have hownb : x ∈ b.recorded → x ∈ w.pool.used := fun h => (hb.recorded x h).2
  have hnew : x ∈ (passPlan a w).config.recorded → _ := passPlan_recorded w
  rw [passPlan_marks _ hb.plain, has, hdraws]
  show (x ∈ (passPlan a w).pool.used ∨ (x ∈ recordedByOthers b
    (w.cluster.configs.replace (passPlan a w).config).objects ∧ _) ∨ _) ↔ _
  rw [hafter, passPlan_marks w ha.plain, mem_recordedByOthers_stored hmb hi.keys.symm,
    recordedByThird_comm (a := b)]
  constructor
  · intro h
    rcases h with (h | ⟨h | h, hd⟩ | h) | ⟨h | h, hd⟩ | h
    · exact Or.inl h
    · exact Or.inr (Or.inl ⟨h, Or.inl hd⟩)
    · exact Or.inl (hownb h)
    · exact Or.inr (Or.inr (Or.inl h))
    · exact Or.inr (Or.inl ⟨h, Or.inr hd⟩)
    · exact (hnew h).elim (fun h => Or.inl (howna h)) fun h => Or.inr (Or.inr (Or.inl h))
    · exact Or.inr (Or.inr (Or.inr h))
  · intro h
    rcases h with h | ⟨h, hd | hd⟩ | h | h
    · exact Or.inl (Or.inl h)
    · exact Or.inl (Or.inr (Or.inl ⟨Or.inl h, hd⟩))
    · exact Or.inr (Or.inl ⟨Or.inl h, hd⟩)
    · exact Or.inl (Or.inr (Or.inr h))
    · exact Or.inr (Or.inr h)

end Two

/-- **Passes over independent configs commute**: with every call answered, the two orders end with
    the same Services, the same configs and the same pool, whatever else is in the cluster. -/
theorem reconcile_comm (retries : Nat) {a b : HeliosConfig} {w : World} (ha : Settled a w)
    (hb : Settled b w) (hi : Independent a b w) :
    (reconcile retries b.key (reconcile retries a.key w allOk).2 allOk).2 =
      (reconcile retries a.key (reconcile retries b.key w allOk).2 allOk).2 := by
  obtain ⟨has, hca, _⟩ := passPlan_after hb ha hi.symm
  obtain ⟨hbs, hcb, _⟩ := passPlan_after ha hb hi
  have hka := (passPlan_config a w).1
  have hkb := (passPlan_config b w).1
  have hfb : ((passPlan a w).applyTo w).cluster.configs.find b.key = some b :=
    (Store.find_replace_ne (hka ▸ hi.keys)).trans hb.stored
  have hfa : ((passPlan b w).applyTo w).cluster.configs.find a.key = some a :=
    (Store.find_replace_ne (hkb ▸ hi.keys.symm)).trans ha.stored
  rw [(reconcile_plan retries ha.stored ha.alive).1, (reconcile_plan retries hb.stored hb.alive).1,
    (reconcile_plan retries hfb hb.alive).1, (reconcile_plan retries hfa ha.alive).1]
  have hservices : (w.cluster.services.replaceAll (passPlan a w).assigned).replaceAll
      (passPlan b w).assigned = (w.cluster.services.replaceAll (passPlan b w).assigned).replaceAll
      (passPlan a w).assigned := by
    refine Store.replaceAll_comm fun s hs t ht hk => ?_
    obtain ⟨svc, hm, hkey, hel, _⟩ := passPlan_assigned_stored a w s.key (List.mem_map_of_mem hs)
    obtain ⟨svc', hm', hkey', hel', _⟩ :=
      passPlan_assigned_stored b w t.key (List.mem_map_of_mem ht)
    obtain rfl : svc = svc' := Store.eq_of_key hm hm' (by rw [hkey, hkey', hk])
    exact hi.services svc hm ⟨(mem_eligibleServices.mp hel).2, (mem_eligibleServices.mp hel').2⟩
  have hconfigs : (w.cluster.configs.replace (passPlan a w).config).replace (passPlan b w).config =
      (w.cluster.configs.replace (passPlan b w).config).replace (passPlan a w).config :=
    Store.replace_comm (by rw [hka, hkb]; exact hi.keys)
  have hpool : (passPlan b ((passPlan a w).applyTo w)).pool =
      (passPlan a ((passPlan b w).applyTo w)).pool := by
    refine IPAllocator.ext_used ?_ fun x => ?_
    · rw [passPlan_maxScan _ hb.plain, passPlan_maxScan _ ha.plain]
      exact (passPlan_maxScan w ha.plain).trans (passPlan_maxScan w hb.plain).symm
    · rw [mem_used_after ha hb hi, mem_used_after hb ha hi.symm, recordedByThird_comm]
      exact or_congr Iff.rfl (or_congr (and_congr Iff.rfl or_comm) or_comm)
  rw [Plan.applyTo_applyTo, Plan.applyTo_applyTo, hbs, hcb, has, hca, hservices, hconfigs, hpool]

/-- Two configs with a Service each, one of them with a record, beside a third config. -/
theorem reconcile_comm_namespaces :
    let web : Service := { key := ⟨"shop", "web"⟩, spec := { type := .loadBalancer } }
    let db : Service := { key := ⟨"data", "db"⟩, spec := { type := .loadBalancer } }
    let a : HeliosConfig :=
      { key := ⟨"default", "a"⟩
        spec := { ipRange := "10.0.0.1-10.0.0.3", namespaceSelector := ["shop"] }
        status := { allocatedIPs := (∅ : StringMap).insert "api" "10.0.0.1" } }
    let b : HeliosConfig :=
      { key := ⟨"default", "b"⟩
        spec := { ipRange := "10.0.0.4-10.0.0.6", namespaceSelector := ["data"] } }
    let c : HeliosConfig :=
      { key := ⟨"default", "c"⟩
        spec := { ipRange := "10.0.9.0/24" }
        status := { allocatedIPs := (∅ : StringMap).insert "old" "10.0.9.9" } }
    let w : World := ⟨⟨.ofList [web, db], .ofList [a, b, c]⟩, newIPAllocator.markUsed "10.0.0.1"⟩
    let ab := (reconcile 4 b.key (reconcile 4 a.key w allOk).2 allOk).2
    ab.cluster.services.objects.map Service.ingress = [["10.0.0.2"], ["10.0.0.4"]] ∧
      ab = (reconcile 4 a.key (reconcile 4 b.key w allOk).2 allOk).2 := by
  intro web db a b c w ab
  have ha : Settled a w :=
    { stored := Store.find_key List.mem_cons_self
      alive := rfl
      plain := ⟨rfl, by decide⟩
      recorded := by decide }
  have hb : Settled b w :=
    { stored := Store.find_key (List.mem_cons_of_mem a List.mem_cons_self)
      alive := rfl
      plain := ⟨rfl, by decide⟩
      recorded := by decide }
  have hi : Independent a b w :=
    { keys := by decide
      ranges := by
        intro x h
        rw [ipInRange_of_not_block (r := a.spec.ipRange) (by decide),
          ipInRange_of_not_block (r := b.spec.ipRange) (by decide)] at h
        have hmeet : rangesMeet a.spec.ipRange b.spec.ipRange = false := by decide
        have hapart := not_allocatable_both hmeet h.1
        exact absurd h.2 (by simp [hapart])
      services := by decide }
  exact ⟨by decide, reconcile_comm 4 ha hb hi⟩

end HeliosLB
