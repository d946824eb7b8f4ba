/-
  File:      HeliosLB/System/Quota.lean
  Subject:   THE QUOTA: how many Services hold an address of one config.

  `checkQuota` counts the names in the status. Two Services of one name in different namespaces
  are one entry, so the count can stay behind the number of Services served.

  * `quota_room` -- what passing `checkQuota` says, the cut to 32 bits included;
  * `HeliosConfig.serves` -- the Services the config holds or is about to serve;
  * `Counted`, `Tallied` -- the invariant of the runs, and of the loop of one pass: every Service
    the config assigned to has its name in the status, no two share a name, and the status has at
    most `m` names;
  * **`quota_respected`** -- so at most `m` Services hold an address of the config, in every run
    whose passes meet no two such Services of one name.
-/
import HeliosLB.System.Recorded

namespace HeliosLB

open Lib

/-! ## 1. The count -/

/-- **Passing the quota check leaves room for one more name.** -/
theorem quota_room {hc : HeliosConfig} (hm : hc.spec.maxAllocations > 0)
    (hn : StringMap.len hc.status.allocatedIPs ≤ hc.spec.maxAllocations.toInt.toNat)
    (h : checkQuota hc = none) :
    StringMap.len hc.status.allocatedIPs < hc.spec.maxAllocations.toInt.toNat := by
  unfold checkQuota at h
  split at h
  · cases h
  · rename_i hq
    have hlt : ¬ Int32.ofNat (StringMap.len hc.status.allocatedIPs) ≥ hc.spec.maxAllocations :=
      fun e => hq ⟨hm, e⟩
    have hb := Int32.toInt_lt hc.spec.maxAllocations
    have h0 : 0 < hc.spec.maxAllocations.toInt := by simpa using Int32.lt_iff_toInt_lt.mp hm
    -- a count within the quota is far below the cut
    have e := Int32.toInt_ofNat_of_lt (n := StringMap.len hc.status.allocatedIPs) (by omega)
    rw [ge_iff_le, Int32.le_iff_toInt_le, e] at hlt
    omega

theorem StringMap.len_insert_le (m : StringMap) (k v : String) :
    StringMap.len (m.insert k v) ≤ StringMap.len m + 1 := by
  unfold StringMap.len
  rw [AList.keys_insert, List.length_cons]
  exact Nat.succ_le_succ (List.length_erase_le)

/-! ## 2. The invariant -/

/-- The config holds the Service, or is about to serve it. -/
def HeliosConfig.serves (hc : HeliosConfig) (s : Service) : Prop :=
  s.writer = some hc.key ∨
    eligible hc.spec.namespaceSelector hc.spec.ipRange [hc.spec.ipv6Range] s = true

instance (hc : HeliosConfig) (s : Service) : Decidable (hc.serves s) :=
  inferInstanceAs (Decidable (_ ∨ _))

/-- **Every Service the config assigned to is counted**, under a name of its own. -/
structure Counted (k : NamespacedName) (m : Int32) (hc : HeliosConfig) (S : Store Service.key) :
    Prop where
  key : hc.key = k
  quota : hc.spec.maxAllocations = m
  named : ∀ s ∈ S, s.writer = some k → s.key.name ∈ hc.status.allocatedIPs
  apart : ∀ s ∈ S, ∀ t ∈ S, s.writer = some k → t.writer = some k → s.key.name = t.key.name →
    s.key = t.key
  count : StringMap.len hc.status.allocatedIPs ≤ m.toInt.toNat

/-- The same during a pass: the Services assigned to are among `K`. -/
structure Tallied (k : NamespacedName) (m : Int32) (K : NamespacedName → Prop)
    (hc : HeliosConfig) (S : Store Service.key) : Prop where
  key : hc.key = k
  quota : hc.spec.maxAllocations = m
  named : ∀ s ∈ S, s.writer = some k → K s.key ∧ s.key.name ∈ hc.status.allocatedIPs
  count : StringMap.len hc.status.allocatedIPs ≤ m.toInt.toNat

section

variable {k : NamespacedName} {m : Int32} {K : NamespacedName → Prop} {hc : HeliosConfig}
  {S : Store Service.key}

theorem Counted.of_tallied (h : Tallied k m K hc S)
    (hK : ∀ a b, K a → K b → a.name = b.name → a = b) : Counted k m hc S where
  key := h.key
  quota := h.quota
  named s hs hw := (h.named s hs hw).2
  apart s hs t ht hsw htw hn := hK _ _ (h.named s hs hsw).1 (h.named t ht htw).1 hn
  count := h.count

/-- **One recorded assignment** to a Service of `K`. -/
theorem tallied_recordInv (hm : m > 0) {svcs : List Service} (hK : ∀ svc ∈ svcs, K svc.key) :
    RecordInv (Tallied k m K) svcs where
  core a b S hab h := by
    obtain ⟨hk, _, hspec, h4, _⟩ := HeliosConfig.core_eq hab
    exact ⟨hk ▸ h.key, hspec ▸ h.quota, h4 ▸ h.named, h4 ▸ h.count⟩
  served svc hsvc hc S stored ip ipv6 h hq hf := by
    have hkey : stored.key = svc.key := (Store.find_eq_some.mp hf).2
    have hroom := quota_room (h.quota ▸ hm) (h.quota ▸ h.count) hq
    rw [h.quota] at hroom
    refine ⟨h.key, h.quota, fun s hs hw => ?_, ?_⟩
    · rw [servedConfig_allocatedIPs, AList.mem_insert]
      rcases Store.mem_replace.mp hs with ⟨rfl, _⟩ | ⟨hs, _⟩
      · rw [written_key, hkey]
        exact ⟨hK svc hsvc, Or.inl rfl⟩
      · exact (h.named s hs hw).imp_right Or.inr
    · exact (StringMap.len_insert_le _ _ _).trans hroom

/-- **What is counted is at most the quota.** -/
theorem Counted.held_le (h : Counted k m hc S) :
    (S.objects.filter fun s => s.writer = some k).length ≤ m.toInt.toNat := by
  have hmem : ∀ {s}, s ∈ S.objects.filter (fun s => s.writer = some k) ↔
      s ∈ S ∧ s.writer = some k := by
    intro s
    rw [List.mem_filter, decide_eq_true_eq]
    rfl
  have hnd : ((S.objects.filter fun s => s.writer = some k).map fun s => s.key.name).Nodup := by
    refine List.Nodup.map_on (fun s hs t ht hn => ?_) (S.nodup.of_map.filter _)
    obtain ⟨hs, hsw⟩ := hmem.mp hs
    obtain ⟨ht, htw⟩ := hmem.mp ht
    exact Store.eq_of_key hs ht (h.apart s hs t ht hsw htw hn)
  have hsub : (S.objects.filter fun s => s.writer = some k).map (fun s => s.key.name) ⊆
      hc.status.allocatedIPs.keys := by
    intro n hn
    obtain ⟨s, hs, rfl⟩ := List.mem_map.mp hn
    obtain ⟨hs, hsw⟩ := hmem.mp hs
    exact AList.mem_keys.mpr (h.named s hs hsw)
  calc (S.objects.filter fun s => s.writer = some k).length
      = ((S.objects.filter fun s => s.writer = some k).map fun s => s.key.name).length := by
        rw [List.length_map]
    _ ≤ StringMap.len hc.status.allocatedIPs := (hnd.subperm hsub).length_le
    _ ≤ m.toInt.toNat := h.count

end

/-! ## 3. Runs -/

/-- **The steps considered**: recorded passes over the config in which no two Services it holds or
    is about to serve have one name, and any change of the Services. -/
def DistinctlyNamed (retries : Nat) (k : NamespacedName) (w : World) : Step → Prop
  | .pass req r => req = k ∧ RecordedPass retries req w r ∧
      ∀ hc, w.cluster.configs.find k = some hc → hc.deleting = false ∧
        ∀ s ∈ w.cluster.services, ∀ t ∈ w.cluster.services, hc.serves s → hc.serves t →
          s.key.name = t.key.name → s.key = t.key
  | _ => True

theorem counted_pass {retries : Nat} {k : NamespacedName} {m : Int32} (hm : m > 0) {w : World}
    {r : PassReplies} (hi : Holds (Counted k m) k w.cluster)
    (h : DistinctlyNamed retries k w (.pass k r)) :
    Holds (Counted k m) k (reconcile retries k w r).2.cluster := by
  obtain ⟨hc, hf, hcnt⟩ := hi
  obtain ⟨-, hr, hcfg⟩ := h
  obtain ⟨hdel, hnames⟩ := hcfg hc hf
  -- the keys of the Services the pass can assign to, or that are assigned to already
  let K : NamespacedName → Prop := fun key => ∃ s ∈ w.cluster.services, hc.serves s ∧ s.key = key
  have hK : ∀ a b, K a → K b → a.name = b.name → a = b := by
    rintro _ _ ⟨s, hs, hss, rfl⟩ ⟨t, ht, hts, rfl⟩ hn
    exact hnames s hs t ht hss hts hn
  have hstart : Tallied k m K hc w.cluster.services := by
    refine ⟨hcnt.key, hcnt.quota, fun s hs hw => ?_, hcnt.count⟩
    exact ⟨⟨s, hs, Or.inl (hcnt.key ▸ hw), rfl⟩, hcnt.named s hs hw⟩
  have hend : Holds (Tallied k m K) k (reconcile retries k w r).2.cluster := by
    refine reconcile_recordInv ⟨hc, hf, hstart⟩ (fun hc' hf' => ?_) hr
    obtain rfl : hc = hc' := Option.some.inj (hf.symm.trans hf')
    refine ⟨hdel, tallied_recordInv hm fun svc hsvc => ?_⟩
    obtain ⟨hs, he⟩ := mem_eligibleServices.mp hsvc
    exact ⟨svc, hs, Or.inr he, rfl⟩
  obtain ⟨hc', hf', ht⟩ := hend
  exact ⟨hc', hf', .of_tallied ht hK⟩

theorem counted_step (retries : Nat) (k : NamespacedName) {m : Int32} (hm : m > 0) (w : World)
    (a : Step) (hi : Holds (Counted k m) k w.cluster) (h : DistinctlyNamed retries k w a) :
    Holds (Counted k m) k (w.step retries a).cluster := by
  rcases a.pass_or_outside with ⟨req, r, rfl⟩ | ha
  · obtain rfl : req = k := h.1
    exact counted_pass hm hi h
  · obtain ⟨hc, hf, hcnt⟩ := hi
    obtain ⟨hw, _, hcf⟩ := World.step_outside retries w ha
    have hold : ∀ s ∈ (w.step retries a).cluster.services, s.writer = some k →
        s ∈ w.cluster.services := fun s hs hsw => hw s hs (by simp [hsw])
    refine ⟨hc, hcf ▸ hf, hcnt.key, hcnt.quota, fun s hs hsw => ?_, fun s hs t ht hsw htw => ?_,
      hcnt.count⟩
    · exact hcnt.named s (hold s hs hsw) hsw
    · exact hcnt.apart s (hold s hs hsw) t (hold t ht htw) hsw htw

/-- **At most `m` Services hold an address of a config with the quota `m`**, in every run from its
    creation whose passes meet no two Services of one name. -/
theorem quota_respected (retries : Nat) {k : NamespacedName} {w : World} {steps : List Step}
    {hc : HeliosConfig} (hm : hc.spec.maxAllocations > 0)
    (h₀ : w.cluster.configs.find k = some hc) (hn : hc.status.allocatedIPs = ∅)
    (hw : ∀ s ∈ w.cluster.services, s.writer ≠ some k)
    (h : Along (World.step retries) (DistinctlyNamed retries k) w steps) :
    ((run (World.step retries) w steps).cluster.services.objects.filter
      fun s => s.writer = some k).length ≤ hc.spec.maxAllocations.toInt.toNat := by
  have hstart : Counted k hc.spec.maxAllocations hc w.cluster.services := by
    refine ⟨(Store.find_eq_some.mp h₀).2, rfl, fun s hs hsw => absurd hsw (hw s hs),
      fun s hs _ _ hsw => absurd hsw (hw s hs), ?_⟩
    rw [hn]
    exact Nat.zero_le _
  obtain ⟨hc', _, hcnt⟩ := run_inv (World.step retries) (counted_step retries k hm)
    ⟨hc, h₀, hstart⟩ h
  exact hcnt.held_le

/-- Three Services of different names and a quota of two. -/
theorem quota_respected_distinct :
    let svc : String → Service := fun name =>
      { key := ⟨"shop", name⟩, spec := { type := .loadBalancer } }
    let a : HeliosConfig :=
      { key := ⟨"default", "a"⟩
        spec := { ipRange := "10.0.0.1-10.0.0.9", maxAllocations := 2 } }
    let w : World := ⟨⟨.ofList [svc "web", svc "db", svc "api"], .ofList [a]⟩, newIPAllocator⟩
    let w' := run (World.step 4) w [.pass a.key allOk, .deleteService ⟨"shop", "db"⟩]
    w'.cluster.services.objects.map Service.ingress = [["10.0.0.1"], []] ∧
      (w'.cluster.services.objects.filter fun s => s.writer = some a.key).length ≤
        a.spec.maxAllocations.toInt.toNat := by
  intro svc a w
  have h₀ : w.cluster.configs.find a.key = some a := Store.find_key (List.mem_singleton_self a)
  have hw : ∀ s ∈ w.cluster.services, s.writer ≠ some a.key := by decide
  have hpass : DistinctlyNamed 4 a.key w (.pass a.key allOk) := by
    refine ⟨rfl, recordedPass_allOk rfl 4 _ _, fun hc hf => ?_⟩
    obtain rfl : a = hc := Option.some.inj (h₀.symm.trans hf)
    exact ⟨rfl, by decide⟩
  exact ⟨by decide, quota_respected 4 (by decide) h₀ rfl hw ⟨hpass, trivial, trivial⟩⟩

/-- **Three Services under a quota of two**: `shop/web` and `default/web` are one entry of the
    status. -/
theorem quota_exceeded_same_name :
    let svc : NamespacedName → Service := fun key => { key, spec := { type := .loadBalancer } }
    let a : HeliosConfig :=
      { key := ⟨"default", "a"⟩
        spec := { ipRange := "10.0.0.1-10.0.0.9", maxAllocations := 2 } }
    let w : World :=
      ⟨⟨.ofList [svc ⟨"shop", "web"⟩, svc ⟨"default", "web"⟩, svc ⟨"shop", "api"⟩], .ofList [a]⟩,
        newIPAllocator⟩
    let w' := run (World.step 4) w [.pass a.key allOk]
    (w'.cluster.services.objects.filter fun s => s.writer = some a.key).map Service.ingress =
      [["10.0.0.1"], ["10.0.0.2"], ["10.0.0.3"]] := by
  decide

end HeliosLB
