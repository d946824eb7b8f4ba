/-
  File:      HeliosLB/System/Cleanup.lean
  Subject:   THE DELETION OF A CONFIG: which Services lose their ingress.

  The status records bare names, and `releaseAll` looks them up in the config's own namespace. So
  a Service of another namespace keeps its ingress, and one of the config's namespace loses an
  ingress somebody else wrote, if the names agree.

  * `find_releaseAll` -- what `releaseAll` does to every Service;
  * `Owned` -- the Services this config assigned to are the recorded names of its namespace, and
    nobody else's ingress is on one of these;
  * `Confined` -- the steps that keep it: passes that serve the config's namespace only, and no
    other writer on a recorded name;
  * **`deletion_clears_exactly`** -- after any run of such steps the deletion clears the ingress of
    exactly the Services this config assigned to.
-/
import HeliosLB.System.Recorded

namespace HeliosLB

open Lib

/-! ## 1. The release -/

theorem clearIngress_ok (ns : String) (c : Cluster) (name : String) (key : NamespacedName) :
    (clearIngress ns c name {}).services.find key =
      if key = ⟨ns, name⟩ then (c.services.find key).map Service.cleared
      else c.services.find key := by
  unfold clearIngress
  simp only
  cases hf : c.services.find ⟨ns, name⟩ with
  | none =>
      by_cases e : key = ⟨ns, name⟩
      · rw [if_pos e, e, hf]
        rfl
      · rw [if_neg e]
  | some svc =>
      have hk : svc.cleared.key = ⟨ns, name⟩ := (Store.find_eq_some.mp hf).2
      show (c.updateServiceStatus svc.cleared .ok).2.services.find key = _
      rw [Cluster.updateServiceStatus_of_find hk hf]
      show (c.services.replace svc.cleared).find key = _
      by_cases e : key = ⟨ns, name⟩
      · rw [if_pos e, e, Store.find_replace hf hk, hf]
        rfl
      · rw [if_neg e]
        exact Store.find_replace_ne fun h => e (h.symm.trans hk)

theorem Service.cleared_cleared (svc : Service) : svc.cleared.cleared = svc.cleared := rfl

/-- **`releaseAll` clears the recorded names of the config's namespace.** -/
theorem find_releaseAll (hc : HeliosConfig) (w : World) (key : NamespacedName) :
    (releaseAll hc w fun _ => {}).cluster.services.find key =
      if key.ns = hc.key.ns ∧ key.name ∈ releaseNames hc then
        (w.cluster.services.find key).map Service.cleared
      else w.cluster.services.find key := by
  unfold releaseAll
  simp only
  generalize w.cluster = c
  induction releaseNames hc generalizing c with
  | nil => simp
  | cons name names ih =>
      have hkey : key = ⟨hc.key.ns, name⟩ ↔ key.ns = hc.key.ns ∧ key.name = name :=
        NamespacedName.ext_iff
      rw [List.foldl_cons, ih, clearIngress_ok]
      simp only [hkey, List.mem_cons]
      by_cases hns : key.ns = hc.key.ns
      · by_cases hn : key.name = name
        · simp [hns, hn, Option.map_map, Function.comp_def, Service.cleared_cleared]
        · simp [hns, hn]
      · simp [hns]

theorem Cluster.updateConfig_services (c : Cluster) (hc : HeliosConfig) (r : WriteReply) :
    (c.updateConfig hc r).2.services = c.services := by
  unfold updateConfig
  split
  · rfl
  · cases r <;> rfl

/-- The Services after a deletion without API failures. -/
theorem find_handleDeletion (hc : HeliosConfig) (h : heliosConfigFinalizer ∈ hc.finalizers)
    (w : World) (key : NamespacedName) :
    (handleDeletion hc w allOk).2.cluster.services.find key =
      if key.ns = hc.key.ns ∧ key.name ∈ releaseNames hc then
        (w.cluster.services.find key).map Service.cleared
      else w.cluster.services.find key := by
  have hr := find_releaseAll hc w key
  have hu := Cluster.updateConfig_services (releaseAll hc w allOk.release).cluster
    (removeFinalizer hc) allOk.removeFinalizer
  unfold handleDeletion
  rw [if_pos h]
  simp only
  generalize (releaseAll hc w allOk.release).cluster.updateConfig (removeFinalizer hc)
    allOk.removeFinalizer = out at hu
  rcases out with ⟨e | hc', c⟩
  · exact hu ▸ hr
  · exact hu ▸ hr

/-! ## 2. Ownership -/

/-- **The Services this config assigned to are the recorded names of its namespace**, and a
    Service of a recorded name there carries nobody else's ingress. -/
structure Owned (hc : HeliosConfig) (S : Store Service.key) : Prop where
  recorded : ∀ s ∈ S, s.writer = some hc.key →
    s.key.ns = hc.key.ns ∧ s.key.name ∈ releaseNames hc
  undisturbed : ∀ s ∈ S, s.key.ns = hc.key.ns → s.key.name ∈ releaseNames hc →
    s.writer = some hc.key ∨ s.cleared = s

theorem mem_releaseNames {hc : HeliosConfig} {n : String} : n ∈ releaseNames hc ↔
    n ∈ hc.status.allocatedIPs ∨ n ∈ hc.status.allocatedIPv6s := by
  unfold releaseNames
  rw [List.mem_dedup, List.mem_append, AList.mem_keys, AList.mem_keys]

theorem mem_releaseNames_served {hc : HeliosConfig} {svc : Service} {ip ipv6 n : String} :
    n ∈ releaseNames (servedConfig hc svc ip ipv6) ↔
      n = svc.key.name ∨ n ∈ releaseNames hc := by
  simp only [mem_releaseNames, servedConfig_allocatedIPs, servedConfig_allocatedIPv6s,
    AList.mem_insert]
  split
  · rw [AList.mem_insert]
    tauto
  · tauto

theorem owned_core {a b : HeliosConfig} {S : Store Service.key} (h : a.core = b.core)
    (ha : Owned a S) : Owned b S := by
  obtain ⟨hk, _, _, h4, h6⟩ := HeliosConfig.core_eq h
  have hn : releaseNames b = releaseNames a := by unfold releaseNames; rw [h4, h6]
  constructor
  · rw [← hk, hn]
    exact ha.recorded
  · rw [← hk, hn]
    exact ha.undisturbed

/-- A recorded assignment to a Service of the config's namespace. -/
theorem owned_served {hc : HeliosConfig} {S : Store Service.key} {svc stored : Service}
    {ip ipv6 : String} (ho : Owned hc S) (hns : svc.key.ns = hc.key.ns)
    (hf : S.find svc.key = some stored) :
    Owned (servedConfig hc svc ip ipv6) (S.replace (written hc.key ip ipv6 stored)) := by
  have hk : stored.key = svc.key := (Store.find_eq_some.mp hf).2
  constructor
  · intro s hs hw
    rw [mem_releaseNames_served]
    rcases Store.mem_replace.mp hs with ⟨rfl, _⟩ | ⟨hs, _⟩
    · rw [written_key, hk]
      exact ⟨hns, Or.inl rfl⟩
    · exact (ho.recorded s hs hw).imp_right Or.inr
  · intro s hs hsn hn
    rcases Store.mem_replace.mp hs with ⟨rfl, _⟩ | ⟨hs, hne⟩
    · exact Or.inl rfl
    · rcases mem_releaseNames_served.mp hn with hn | hn
      · -- the same name in the same namespace is the Service just assigned to
        refine absurd ?_ hne
        rw [written_key, hk]
        exact NamespacedName.ext (hsn.trans hns.symm) hn
      · exact ho.undisturbed s hs hsn hn

/-! ## 3. Runs -/

/-- **The steps considered**: recorded passes over the config itself while all Services eligible for
    it are of its namespace, and changes of the Services in which nobody puts an ingress on a
    recorded name of that namespace. -/
def Confined (retries : Nat) (k : NamespacedName) (w : World) : Step → Prop
  | .pass req r => req = k ∧ RecordedPass retries req w r ∧
      ∀ hc, w.cluster.configs.find k = some hc → hc.deleting = false ∧
        ∀ s ∈ hc.eligibleServices w.cluster.services.objects, s.key.ns = k.ns
  | .setIngress key ingress => key.ns = k.ns → ∀ hc, w.cluster.configs.find k = some hc →
      key.name ∈ releaseNames hc → ingress = []
  | _ => True

theorem owned_outside {retries : Nat} {k : NamespacedName} {w : World} {a : Step}
    {hc : HeliosConfig} (hf : w.cluster.configs.find k = some hc) (ho : Owned hc w.cluster.services)
    (ha : a.outside = true) (h : Confined retries k w a) :
    Owned hc (w.step retries a).cluster.services := by
  have hk : hc.key = k := (Store.find_eq_some.mp hf).2
  obtain ⟨hw, _, _⟩ := World.step_outside retries w ha
  refine ⟨fun s hs hsw => ho.recorded s (hw s hs (by simp [hsw])) hsw, fun s hs hns hn => ?_⟩
  cases a with
  | pass req r => cases ha
  | createService svc =>
      rcases Store.mem_create hs with hs | rfl
      · exact ho.undisturbed s hs hns hn
      · exact Or.inr (Service.cleared_cleared svc)
  | deleteService key => exact ho.undisturbed s (Store.mem_delete.mp hs).1 hns hn
  | setIngress key ingress =>
      rcases Cluster.mem_setIngress hs with hs | ⟨rfl, hi, hsw⟩
      · exact ho.undisturbed s hs hns hn
      · rw [hk] at hns
        exact Or.inr (Service.cleared_eq_self (hi.trans (h hns hc hf hn)) hsw)

theorem owned_step (retries : Nat) (k : NamespacedName) (w : World) (a : Step)
    (hi : Holds (fun hc S => hc.key = k ∧ Owned hc S) k w.cluster) (h : Confined retries k w a) :
    Holds (fun hc S => hc.key = k ∧ Owned hc S) k (w.step retries a).cluster := by
  rcases a.pass_or_outside with ⟨req, r, rfl⟩ | ha
  · obtain ⟨rfl, hr, hcfg⟩ := h
    refine reconcile_recordInv hi (fun hc hf => ⟨(hcfg hc hf).1, ?_, ?_⟩) hr
    · intro a b S hab h
      obtain ⟨hk, ho⟩ := h
      exact ⟨(HeliosConfig.core_eq hab).1 ▸ hk, owned_core hab ho⟩
    · rintro svc hm hc' S stored ip ipv6 ⟨hk, ho⟩ - hs
      exact ⟨hk, owned_served ho (((hcfg hc hf).2 svc hm).trans (hk ▸ rfl)) hs⟩
  · obtain ⟨hc, hf, hk, ho⟩ := hi
    obtain ⟨_, _, hcf⟩ := World.step_outside retries w ha
    exact ⟨hc, hcf ▸ hf, hk, owned_outside hf ho ha h⟩

/-- The config once its deletion was requested. -/
def HeliosConfig.beingDeleted (hc : HeliosConfig) : HeliosConfig := { hc with deleting := true }

/-- The world after the deletion of a config without API failures. -/
def World.afterDeletion (w : World) (hc : HeliosConfig) : World :=
  (handleDeletion hc.beingDeleted ⟨w.cluster.withConfig hc.beingDeleted, w.pool⟩ allOk).2

/-- For an owned set of Services the recorded names are the Services this config assigned to. -/
theorem find_afterDeletion {w : World} {hc : HeliosConfig} (ho : Owned hc w.cluster.services)
    (hfin : heliosConfigFinalizer ∈ hc.finalizers) (key : NamespacedName) :
    (w.afterDeletion hc).cluster.services.find key =
      (w.cluster.services.find key).map fun s =>
        if s.writer = some hc.key then s.cleared else s := by
  rw [World.afterDeletion, find_handleDeletion hc.beingDeleted hfin]
  show (if key.ns = hc.key.ns ∧ key.name ∈ releaseNames hc then
    (w.cluster.services.find key).map Service.cleared else w.cluster.services.find key) = _
  cases hs : w.cluster.services.find key with
  | none => simp
  | some s =>
      obtain ⟨hm, rfl⟩ := Store.find_eq_some.mp hs
      by_cases hrec : s.key.ns = hc.key.ns ∧ s.key.name ∈ releaseNames hc
      · rw [if_pos hrec, Option.map_some, Option.map_some]
        rcases ho.undisturbed s hm hrec.1 hrec.2 with hw | hw
        · rw [if_pos hw]
        · rw [hw, ite_self]
      · rw [if_neg hrec, Option.map_some, if_neg fun hw => hrec (ho.recorded s hm hw)]

/-- **The deletion clears exactly what the config assigned.** Start with a config that has
    recorded nothing and assigned nothing, take any confined steps, and then delete it without
    API failures: the Services it assigned to lose their ingress, all others stay as they are. -/
theorem deletion_clears_exactly (retries : Nat) {k : NamespacedName} {w : World}
    {steps : List Step} {hc₀ : HeliosConfig} (h₀ : w.cluster.configs.find k = some hc₀)
    (hn : releaseNames hc₀ = []) (hw : ∀ s ∈ w.cluster.services, s.writer ≠ some k)
    (h : Along (World.step retries) (Confined retries k) w steps) :
    let w' := run (World.step retries) w steps
    ∃ hc, w'.cluster.configs.find k = some hc ∧ (heliosConfigFinalizer ∈ hc.finalizers →
      ∀ key, (w'.afterDeletion hc).cluster.services.find key =
        (w'.cluster.services.find key).map fun s =>
          if s.writer = some k then s.cleared else s) := by
  intro w'
  have hk₀ : hc₀.key = k := (Store.find_eq_some.mp h₀).2
  have hi : Holds (fun hc S => hc.key = k ∧ Owned hc S) k w'.cluster := by
    refine run_inv (World.step retries) (owned_step retries k) ⟨hc₀, h₀, hk₀, ?_, ?_⟩ h
    · exact fun s hs hsw => absurd (hk₀ ▸ hsw) (hw s hs)
    · rw [hn]
      exact fun s _ _ hm => absurd hm List.not_mem_nil
  obtain ⟨hc, hf, rfl, ho⟩ := hi
  exact ⟨hc, hf, find_afterDeletion ho⟩

/-- A config that serves its own namespace, beside a Service of the same name elsewhere. -/
theorem deletion_clears_own_namespace :
    let web : Service := { key := ⟨"shop", "web"⟩, spec := { type := .loadBalancer } }
    let other : Service := { key := ⟨"default", "web"⟩, spec := { type := .loadBalancer } }
    let a : HeliosConfig :=
      { key := ⟨"shop", "a"⟩
        spec := { ipRange := "10.0.0.1-10.0.0.3", namespaceSelector := ["shop"] } }
    let w : World := ⟨⟨.ofList [web, other], .ofList [a]⟩, newIPAllocator⟩
    let steps := [Step.setIngress other.key ["192.0.2.9"], .pass a.key allOk]
    let w' := run (World.step 4) w steps
    w'.cluster.services.objects.map Service.ingress = [["10.0.0.1"], ["192.0.2.9"]] ∧
      ∃ hc, w'.cluster.configs.find a.key = some hc ∧ (heliosConfigFinalizer ∈ hc.finalizers →
        ∀ key, (w'.afterDeletion hc).cluster.services.find key =
          (w'.cluster.services.find key).map fun s =>
            if s.writer = some a.key then s.cleared else s) := by
  intro web other a w steps
  have h₀ : w.cluster.configs.find a.key = some a := Store.find_key (List.mem_singleton_self a)
  have hw : ∀ s ∈ w.cluster.services, s.writer ≠ some a.key := by decide
  have hfirst : Confined 4 a.key w (.setIngress other.key ["192.0.2.9"]) :=
    fun h => absurd h (by decide)
  have hpass : Confined 4 a.key (w.step 4 (.setIngress other.key ["192.0.2.9"]))
      (.pass a.key allOk) := by
    refine ⟨rfl, recordedPass_allOk rfl 4 _ _, fun hc hf => ?_⟩
    obtain rfl : a = hc := Option.some.inj (h₀.symm.trans hf)
    exact ⟨rfl, by decide⟩
  have hrun : Along (World.step 4) (Confined 4 a.key) w steps := ⟨hfirst, hpass, trivial⟩
  exact ⟨by decide, deletion_clears_exactly 4 h₀ rfl hw hrun⟩

/-- **The deletion misses a Service of another namespace and clears one it never assigned to.**
    The config of namespace `default` gave `10.0.0.1` to `shop/web`; `default/web` shows an address
    of another load balancer. After the deletion `10.0.0.1` is free again and still shown, and the
    other address is gone. -/
theorem deletion_clears_wrong_namespace :
    let web : Service := { key := ⟨"shop", "web"⟩, spec := { type := .loadBalancer } }
    let other : Service := { key := ⟨"default", "web"⟩, spec := { type := .loadBalancer } }
    let a : HeliosConfig := { key := ⟨"default", "a"⟩, spec := { ipRange := "10.0.0.1-10.0.0.3" } }
    let w : World := ⟨⟨.ofList [web, other], .ofList [a]⟩, newIPAllocator⟩
    let w' := run (World.step 4) w [.setIngress other.key ["192.0.2.9"], .pass a.key allOk]
    w'.cluster.services.objects.map (fun s => (s.ingress, s.writer)) =
        [(["10.0.0.1"], some a.key), (["192.0.2.9"], none)] ∧
      (w'.cluster.configs.find a.key).map (fun hc =>
        ((w'.afterDeletion hc).cluster.services.objects.map Service.ingress,
          (w'.afterDeletion hc).pool.used)) = some ([["10.0.0.1"], []], ∅) := by
  decide

end HeliosLB
