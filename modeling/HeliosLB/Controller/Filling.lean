/-
  File:      HeliosLB/Controller/Filling.lean
  Subject:   WHICH ADDRESS EACH SERVICE GETS in a pass without API failures.

  Where no Service asks for an address and the config has one range, a pass is a walk along two
  lists: the eligible Services as listed, and the free addresses of the range in numeric order.

  * `freeAddresses` -- the free addresses of the part of a range that is looked at;
    `filter_insert_head` -- taking the first leaves the others;
  * `HeliosConfig.room` -- how many further names the quota admits;
  * `drawAddresses_first_free`, `plan_fills` -- a draw takes the first free address, so the loop
    pairs the lists off;
  * **`pass_fills_in_order`** -- after the pass the `i`th Service has the `i`th free address, up to
    the quota, and the pass fails exactly if the addresses end before the Services and the quota.
-/
import HeliosLB.Controller.Plan
import HeliosLB.Network.FirstFit
import HeliosLB.Network.Ranges

namespace HeliosLB

open Lib Lib.BigEndian

/-! ## 1. The free addresses -/

/-- The free ones among the first addresses of a range, as far as a scan looks. -/
def freeAddresses (pool : IPAllocator) (s e : IP) : List String :=
  ((List.range (min pool.maxScan (rangeSize s e))).map fun k =>
    ipString (incrementIP^[k] s)).filter (· ∉ pool.used)

theorem filter_insert_head {α : Type} [DecidableEq α] {l xs : List α} {used : Finset α} {x : α}
    (hl : l.Nodup) (h : l.filter (· ∉ used) = x :: xs) : l.filter (· ∉ insert x used) = xs := by
  have hnd : (x :: xs).Nodup := h ▸ hl.filter _
  have hsplit : l.filter (· ∉ insert x used) = (l.filter (· ∉ used)).filter (· ≠ x) := by
    rw [List.filter_filter]
    refine List.filter_congr fun a _ => ?_
    simp [Finset.mem_insert, not_or]
  rw [hsplit, h, List.filter_cons_of_neg (by simp), List.filter_eq_self]
  intro a ha
  simpa using fun e : a = x => (List.nodup_cons.mp hnd).1 (e ▸ ha)

theorem to16_inj {x y : IP} (hy : IsAddr y) (h : x.length = y.length) (e : to16 x = to16 y) :
    x = y := by
  unfold to16 at e
  rw [h] at e
  rcases hy with h4 | h16
  · simpa [h4] using e
  · simpa [h16] using e

section Range

variable {s e : IP} (hs : IsAddr s) (hl : s.length = e.length) (hlt : value s < value e)

include hs hl hlt

/-- The addresses looked at are different texts. -/
theorem steps_nodup (n : Nat) :
    ((List.range (min n (rangeSize s e))).map fun k => ipString (incrementIP^[k] s)).Nodup := by
  refine List.Nodup.map_on (fun j hj k hk h => ?_) List.nodup_range
  rw [List.mem_range] at hj hk
  have haddr : ∀ k, IsAddr (incrementIP^[k] s) := fun k => by
    unfold IsAddr
    rw [length_iterate]
    exact hs
  have hstep : ∀ {k}, k < min n (rangeSize s e) → value (incrementIP^[k] s) = value s + k :=
    fun hk => value_step hl (Nat.le_of_lt hlt) (lt_of_lt_of_le hk (Nat.min_le_right _ _))
  have hip := to16_inj (haddr k) ((length_iterate s j).trans (length_iterate s k).symm)
    (ipString_inj (haddr j) (haddr k) h)
  have hv := congrArg value hip
  rw [hstep hj, hstep hk] at hv
  omega

omit hs in
/-- **A range that does not end at the last address of its family offers the first free one**, and
    the others are left. -/
theorem offer_freeAddresses {r : String} (hr : parseIPRange r = .ok (s, e))
    (htop : value e + 1 < 256 ^ e.length) (pool : IPAllocator) :
    pool.offer r = (freeAddresses pool s e).head? := by
  rw [IPAllocator.offer_wide hr hl hlt, scanned_past htop, List.find?_nil, Option.or_none,
    freeAddresses, List.head?_filter]

theorem freeAddresses_markUsed {pool : IPAllocator} {x : String} {xs : List String}
    (h : freeAddresses pool s e = x :: xs) : freeAddresses (pool.markUsed x) s e = xs :=
  filter_insert_head (steps_nodup hs hl hlt pool.maxScan) h

end Range

/-! ## 2. The quota -/

/-- How many of `n` further names the quota admits. -/
def HeliosConfig.room (hc : HeliosConfig) (n : Nat) : Nat :=
  if hc.spec.maxAllocations > 0 then
    min n (hc.spec.maxAllocations.toInt.toNat - StringMap.len hc.status.allocatedIPs)
  else n

/-- The Services bring new names, few enough for the count. -/
structure NewNames (hc : HeliosConfig) (svcs : List Service) : Prop where
  nodup : (svcs.map fun s => s.key.name).Nodup
  absent : ∀ s ∈ svcs, s.key.name ∉ hc.status.allocatedIPs
  few : StringMap.len hc.status.allocatedIPs + svcs.length < 2 ^ 31

theorem len_insert_absent {m : StringMap} {k : String} (h : k ∉ m) (v : String) :
    StringMap.len (m.insert k v) = StringMap.len m + 1 := by
  unfold StringMap.len
  rw [AList.keys_insert, List.length_cons, List.erase_of_not_mem (mt AList.mem_keys.mpr h)]

theorem NewNames.tail {hc : HeliosConfig} {svc : Service} {rest : List Service}
    (h : NewNames hc (svc :: rest)) (ip ipv6 : String) :
    NewNames (servedConfig hc svc ip ipv6) rest := by
  obtain ⟨hnot, hnd⟩ := List.nodup_cons.mp h.nodup
  refine ⟨hnd, fun s hs => ?_, ?_⟩
  · rw [servedConfig_allocatedIPs, AList.mem_insert, not_or]
    refine ⟨fun e => hnot ?_, h.absent s (List.mem_cons_of_mem _ hs)⟩
    exact List.mem_map.mpr ⟨s, hs, e⟩
  · rw [servedConfig_allocatedIPs, len_insert_absent (h.absent svc List.mem_cons_self)]
    have hfew := h.few
    rw [List.length_cons] at hfew
    omega

/-- The check passes while there is room. -/
theorem checkQuota_eq_none_iff {hc : HeliosConfig}
    (h : StringMap.len hc.status.allocatedIPs < 2 ^ 31)
    (n : Nat) : checkQuota hc = none ↔ 0 < hc.room (n + 1) := by
  unfold checkQuota HeliosConfig.room
  by_cases hm : hc.spec.maxAllocations > 0
  · have e := Int32.toInt_ofNat_of_lt h
    have h0 : 0 < hc.spec.maxAllocations.toInt := by simpa using Int32.lt_iff_toInt_lt.mp hm
    rw [if_pos hm, ite_eq_right_iff]
    simp only [hm, true_and, ge_iff_le, Int32.le_iff_toInt_le, e]
    constructor
    · intro hq
      by_contra hroom
      exact absurd (hq (by omega)) (by simp)
    · intro hroom hle
      omega
  · simp [hm]

theorem room_served {hc : HeliosConfig} {svc : Service} {rest : List Service}
    (h : NewNames hc (svc :: rest)) (ip ipv6 : String) :
    (servedConfig hc svc ip ipv6).room rest.length = hc.room (rest.length + 1) - 1 := by
  unfold HeliosConfig.room
  rw [servedConfig_spec, servedConfig_allocatedIPs,
    len_insert_absent (h.absent svc List.mem_cons_self)]
  split
  · omega
  · omega

/-! ## 3. The loop -/

/-- A single range, and no request: what is drawn is the pool's offer. -/
theorem drawn_plain {spec : HeliosConfigSpec} (h6 : spec.ipv6Range = "") (pool : IPAllocator) :
    drawn spec "" pool = (pool.offer spec.ipRange).map fun ip => (ip, "") := by
  unfold drawn
  rw [splitRequestedIP_empty, offered_pool]
  cases pool.offer spec.ipRange with
  | none => rfl
  | some ip => exact if_pos h6

/-- **One draw takes the first free address**, and fails if there is none. -/
theorem drawAddresses_first_free {hc : HeliosConfig} {svc : Service} {s e : IP} (hs : IsAddr s)
    (hl : s.length = e.length) (hlt : value s < value e) (htop : value e + 1 < 256 ^ e.length)
    (h6 : hc.spec.ipv6Range = "") (hr : parseIPRange hc.spec.ipRange = .ok (s, e))
    (hreq : svc.spec.loadBalancerIP = "") (pool : IPAllocator) :
    (freeAddresses pool s e = [] ∧
        ∃ f pool', drawAddresses hc svc [] pool = (.error f, pool')) ∨
      ∃ x xs, freeAddresses pool s e = x :: xs ∧
        drawAddresses hc svc [] pool = (.ok (x, ""), pool.markUsed x) ∧
        freeAddresses (pool.markUsed x) s e = xs := by
  have hdraw := drawn_plain h6 pool
  rw [offer_freeAddresses hl hlt hr htop] at hdraw
  rcases hd : drawAddresses hc svc [] pool with ⟨f | ⟨ip, ipv6⟩, pool'⟩
  · have hnone := (drawAddresses_failed hd).1
    rw [hreq, hdraw, Option.map_eq_none_iff, List.head?_eq_none_iff] at hnone
    exact .inl ⟨hnone, f, pool', rfl⟩
  · obtain ⟨hdrawn, rfl⟩ := drawAddresses_ok hd
    rw [hreq, hdraw, Option.map_eq_some_iff] at hdrawn
    obtain ⟨x, hx, hpair⟩ := hdrawn
    obtain ⟨rfl, rfl⟩ := Prod.mk.inj hpair
    obtain ⟨xs, hfree⟩ := List.head?_eq_some_iff.mp hx
    exact .inr ⟨x, xs, hfree, rfl, freeAddresses_markUsed hs hl hlt hfree⟩

/-- **The loop pairs the Services off with the free addresses**, up to the quota. -/
theorem plan_fills (others : List String) {s e : IP} (hs : IsAddr s) (hl : s.length = e.length)
    (hlt : value s < value e) (htop : value e + 1 < 256 ^ e.length) {svcs : List Service}
    {hc : HeliosConfig} (pool : IPAllocator) (h6 : hc.spec.ipv6Range = "")
    (hr : parseIPRange hc.spec.ipRange = .ok (s, e)) (hn : NewNames hc svcs)
    (hreq : ∀ svc ∈ svcs, svc.spec.loadBalancerIP = "") :
    (plan others svcs hc pool).assigned.map (fun t => (t.key, t.ingress)) =
        ((svcs.zip (freeAddresses (others.foldl IPAllocator.markUsed pool) s e)).take
          (hc.room svcs.length)).map (fun p => (p.1.key, [p.2])) ∧
      ((plan others svcs hc pool).failure.isSome = true ↔
        (freeAddresses (others.foldl IPAllocator.markUsed pool) s e).length <
          hc.room svcs.length) := by
  induction svcs generalizing hc pool with
  | nil =>
      have hroom : hc.room 0 = 0 := by
        unfold HeliosConfig.room
        split
        · exact Nat.zero_min _
        · rfl
      rw [List.length_nil, hroom]
      exact ⟨rfl, iff_of_false Bool.false_ne_true (Nat.not_lt_zero _)⟩
  | cons svc rest ih =>
      have hroom := checkQuota_eq_none_iff (Nat.lt_of_le_of_lt (Nat.le_add_right _ _) hn.few)
        rest.length
      rw [List.length_cons]
      cases hq : checkQuota hc with
      | some err =>
          have hzero : hc.room (rest.length + 1) = 0 := by
            by_contra hne
            rw [hroom.mpr (Nat.pos_of_ne_zero hne)] at hq
            cases hq
          rw [plan_quota hq, hzero]
          exact ⟨rfl, iff_of_false Bool.false_ne_true (Nat.not_lt_zero _)⟩
      | none =>
          have hpos := hroom.mp hq
          rcases drawAddresses_first_free hs hl hlt htop h6 hr (hreq svc List.mem_cons_self)
              (others.foldl IPAllocator.markUsed pool) with
            ⟨hnone, f, pool', hd⟩ | ⟨x, xs, hfree, hd, hrest⟩
          · rw [plan_failed hq hd, hnone, List.zip_nil_right, List.take_nil]
            exact ⟨rfl, iff_of_true rfl hpos⟩
          · -- what the next turn would mark is marked already
            have hmarked : others.foldl IPAllocator.markUsed
                ((others.foldl IPAllocator.markUsed pool).markUsed x) =
                  (others.foldl IPAllocator.markUsed pool).markUsed x :=
              IPAllocator.foldl_markUsed_again others [x] pool
            obtain ⟨ih, ihf⟩ := @ih (servedConfig hc svc x "") _ h6 hr (hn.tail x "")
              fun t ht => hreq t (List.mem_cons_of_mem _ ht)
            rw [hmarked, hrest, room_served hn] at ih ihf
            obtain ⟨n, hsucc⟩ := Nat.exists_eq_succ_of_ne_zero (Nat.pos_iff_ne_zero.mp hpos)
            rw [hsucc, Nat.succ_sub_one] at ih ihf
            rw [plan_served hq hd, hfree, hsucc]
            refine ⟨?_, ihf.trans Nat.succ_lt_succ_iff.symm⟩
            have hone : ingressOf x "" = [x] := if_neg fun h => h rfl
            have hwritten : (written hc.key x "" svc).ingress = [x] := hone
            rw [Plan.after, List.map_cons, ih, List.zip_cons_cons, List.take_succ_cons,
              List.map_cons, written_key, hwritten]

theorem mem_take_zip {α β : Type} {l : List α} {l' : List β} {n : Nat} {p : α × β} :
    p ∈ (l.zip l').take n ↔ ∃ j : Nat, l[j]? = some p.1 ∧ (l'.take n)[j]? = some p.2 := by
  simp only [List.mem_iff_getElem?, List.getElem?_take]
  refine exists_congr fun j => ?_
  split
  · exact List.getElem?_zip_eq_some
  · simp

/-! ## 4. The pass -/

theorem readied_allocatedIPs (hc : HeliosConfig) :
    (readied hc).status.allocatedIPs = hc.status.allocatedIPs :=
  (HeliosConfig.core_eq (readied_core hc)).2.2.2.1

theorem room_readied (hc : HeliosConfig) (n : Nat) : (readied hc).room n = hc.room n := by
  unfold HeliosConfig.room
  rw [readied_spec, readied_allocatedIPs]

theorem NewNames.readied {hc : HeliosConfig} {svcs : List Service} (h : NewNames hc svcs) :
    NewNames (readied hc) svcs := by
  have hstatus := readied_allocatedIPs hc
  exact ⟨h.nodup, hstatus ▸ h.absent, hstatus ▸ h.few⟩

/-- What a Service shows after the writes of a plan that assigns it `ingress`, and of one that
    leaves it out. -/
theorem find_replaceAll_ingress {S : Store Service.key} {l : List Service}
    (hnd : (l.map Service.key).Nodup) {svc : Service} (hm : svc ∈ S) :
    (∀ ingress, (svc.key, ingress) ∈ l.map (fun t => (t.key, t.ingress)) →
        ((S.replaceAll l).find svc.key).map Service.ingress = some ingress) ∧
      (svc.key ∉ l.map Service.key →
        ((S.replaceAll l).find svc.key).map Service.ingress = some svc.ingress) := by
  refine ⟨fun ingress hp => ?_, fun hnot => ?_⟩
  · obtain ⟨t, ht, hte⟩ := List.mem_map.mp hp
    obtain ⟨hk, rfl⟩ := Prod.mk.inj hte
    have hin : t ∈ S.replaceAll l := (Store.mem_replaceAll hnd).mpr (.inl ⟨ht, svc, hm, hk.symm⟩)
    rw [Store.find_eq_some.mpr ⟨hin, hk⟩, Option.map_some]
  · have hin : svc ∈ S.replaceAll l := (Store.mem_replaceAll hnd).mpr (.inr ⟨hm, hnot⟩)
    rw [Store.find_key hin, Option.map_some]

/-- **After the pass the `i`th eligible Service has the `i`th free address** of those a scan looks
    at, up to the quota, and those behind have none; the pass fails exactly if they end before that.
    The config has one range of two addresses or more that does not end at the last address of its
    family, no conflicts and new names; no eligible Service asks for an address, and no API call
    fails. -/
theorem pass_fills_in_order (retries : Nat) {req : NamespacedName} {w : World} {hc : HeliosConfig}
    (hf : w.cluster.configs.find req = some hc) (hd : hc.deleting = false)
    (hnc : StringMap.len (checkIPConflicts hc w.cluster.configs.objects) = 0)
    (h6 : hc.spec.ipv6Range = "") {s e : IP} (hr : parseIPRange hc.spec.ipRange = .ok (s, e))
    (hl : s.length = e.length) (hlt : value s < value e) (htop : value e + 1 < 256 ^ e.length)
    (hn : NewNames hc (hc.eligibleServices w.cluster.services.objects))
    (hreq : ∀ svc ∈ hc.eligibleServices w.cluster.services.objects,
      svc.spec.loadBalancerIP = "") :
    let svcs := hc.eligibleServices w.cluster.services.objects
    let free := freeAddresses (w.marked hc) s e
    (∀ (i : Nat) (svc : Service), svcs[i]? = some svc →
        ((reconcile retries req w allOk).2.cluster.services.find svc.key).map Service.ingress =
          some ((free.take (hc.room svcs.length))[i]?).toList) ∧
      ((reconcile retries req w allOk).1.failure.isSome = true ↔
        free.length < hc.room svcs.length) := by
  intro svcs free
  have hs : IsAddr s := parseIPRange_start_length hr
  have hspec := readied_spec hc
  obtain ⟨hassigned, hfail⟩ := plan_fills (recordedByOthers hc w.cluster.configs.objects) hs hl
    hlt htop w.pool (hspec ▸ h6) (hspec ▸ hr) hn.readied hreq
  rw [← passPlan_clean hnc, room_readied, ← markOthers_eq] at hassigned hfail
  obtain ⟨hafter, hfailure⟩ := reconcile_plan retries hf hd
  rw [hfailure]
  refine ⟨fun i svc hi => ?_, hfail⟩
  have hmem : svc ∈ svcs := List.mem_of_getElem? hi
  have hstored : svc ∈ w.cluster.services := (mem_eligibleServices.mp hmem).1
  obtain ⟨hgiven, hleft⟩ := find_replaceAll_ingress (passPlan_assigned_nodup hc w) hstored
  rw [hafter]
  show ((w.cluster.services.replaceAll (passPlan hc w).assigned).find svc.key).map _ = _
  cases hg : (free.take (hc.room svcs.length))[i]? with
  | some a =>
      refine hgiven [a] ?_
      rw [hassigned]
      exact List.mem_map.mpr ⟨(svc, a), mem_take_zip.mpr ⟨i, hi, hg⟩, rfl⟩
  | none =>
      refine (hleft fun hk => ?_).trans
        (congrArg some (eligible_ingress (mem_eligibleServices.mp hmem).2))
      obtain ⟨t, ht, hk⟩ := List.mem_map.mp hk
      have hpair : (t.key, t.ingress) ∈
          (passPlan hc w).assigned.map fun t => (t.key, t.ingress) := List.mem_map_of_mem ht
      rw [hassigned] at hpair
      obtain ⟨⟨svc', a⟩, hp, hpe⟩ := List.mem_map.mp hpair
      obtain ⟨j, hj, hja⟩ := mem_take_zip.mp hp
      -- the Service is listed once, so its place is the one without an address
      have hsame : svc' = svc := Store.eq_of_key
        (mem_eligibleServices.mp (List.mem_of_getElem? hj)).1 hstored
        ((congrArg Prod.fst hpe).trans hk)
      have hnodup : svcs.Nodup := w.cluster.services.nodup.of_map.filter _
      have hij : i = j := (List.getElem?_inj (List.getElem?_eq_some_iff.mp hi).1 hnodup).mp
        (hi.trans (hsame ▸ hj.symm))
      rw [hij] at hg
      exact nomatch hja.symm.trans hg

/-- Three Services, a quota of two, and the first address of the range in use. -/
theorem pass_fills_two_of_three :
    let web : Service := { key := ⟨"shop", "web"⟩, spec := { type := .loadBalancer } }
    let db : Service := { key := ⟨"shop", "db"⟩, spec := { type := .loadBalancer } }
    let mail : Service := { key := ⟨"shop", "mail"⟩, spec := { type := .loadBalancer } }
    let a : HeliosConfig :=
      { key := ⟨"default", "a"⟩
        spec := { ipRange := "10.0.0.1-10.0.0.9", maxAllocations := 2 } }
    let w : World := ⟨⟨.ofList [web, db, mail], .ofList [a]⟩, newIPAllocator.markUsed "10.0.0.1"⟩
    ((reconcile 4 a.key w allOk).2.cluster.services.find web.key).map Service.ingress =
        some ["10.0.0.2"] ∧
      ((reconcile 4 a.key w allOk).2.cluster.services.find db.key).map Service.ingress =
        some ["10.0.0.3"] ∧
      ((reconcile 4 a.key w allOk).2.cluster.services.find mail.key).map Service.ingress =
        some [] ∧
      ¬ (reconcile 4 a.key w allOk).1.failure.isSome = true := by
  intro web db mail a w
  have hf : w.cluster.configs.find a.key = some a := Store.find_key (List.mem_singleton_self a)
  have hr : parseIPRange a.spec.ipRange = .ok ([10, 0, 0, 1], [10, 0, 0, 9]) := by decide
  have hn : NewNames a (a.eligibleServices w.cluster.services.objects) :=
    ⟨by decide, by decide, by decide⟩
  have hfree : freeAddresses (w.marked a) [10, 0, 0, 1] [10, 0, 0, 9] =
      ["10.0.0.2", "10.0.0.3", "10.0.0.4", "10.0.0.5", "10.0.0.6", "10.0.0.7", "10.0.0.8",
        "10.0.0.9"] := by decide
  have hroom : a.room (a.eligibleServices w.cluster.services.objects).length = 2 := by decide
  obtain ⟨hin, hfail⟩ := pass_fills_in_order 4 hf rfl (by decide) rfl hr rfl (by decide) (by decide)
    hn (by decide)
  rw [hfree, hroom] at hin hfail
  exact ⟨hin 0 web rfl, hin 1 db rfl, hin 2 mail rfl, fun h => absurd (hfail.mp h) (by decide)⟩

end HeliosLB
