/-
  File:      HeliosLB/System/Admission.lean
  Subject:   THE WEBHOOK IN OPERATION: what it admitted it goes on admitting.

  Every plain write of a config goes past `ValidateUpdate`, those of the controller too: a config
  that no longer passes could neither get its finalizer nor lose it. The overlap check compares a
  config with all the others, so what passes depends on what else is stored.

  * `FieldsOk`, `validateSpec_iff` -- a spec passes by its fields and by colliding with no other;
  * `Admissible` -- every stored config passes, and any two of different names do not collide;
  * `admissible_act` -- every action keeps it if creations and edits of specs were admitted;
  * **`webhook_admits_rewrites`** -- then the webhook refuses no write that leaves the spec alone,
    whether it can list the configs or not.
-/
import HeliosLB.Admission.Webhook
import HeliosLB.System.Operation

namespace HeliosLB

open Lib

/-! ## 1. What a check depends on -/

/-- The checks that look at one spec only. -/
structure FieldsOk (spec : HeliosConfigSpec) : Prop where
  ipRange : validateIPRange spec.ipRange = .ok ()
  ipv6Range : validateIPv6Range spec.ipv6Range = .ok ()
  ports : validatePorts spec.ports = .ok ()
  weights : validateWeights spec.weights spec.method = .ok ()
  healthCheck : validateHealthCheck spec.healthCheck = .ok ()

/-- Two specs collide in one of the families. -/
def Colliding (spec spec' : HeliosConfigSpec) : Prop :=
  Collide spec.ipRange spec'.ipRange ∨ Collide spec.ipv6Range spec'.ipv6Range

theorem Collide.symm {r r' : String} (h : Collide r r') : Collide r' r := by
  obtain ⟨s, e, s', e', hr, hr', h1, h2⟩ := h
  unfold compareIPs at h1 h2
  rw [bytesCompare_ne_gt] at h1
  rw [bytesCompare_ne_lt] at h2
  refine ⟨s', e', s, e, hr', hr, ?_, ?_⟩
  · unfold compareIPs
    exact bytesCompare_ne_gt.mpr h2
  · unfold compareIPs
    exact bytesCompare_ne_lt.mpr h1

theorem Colliding.symm {spec spec' : HeliosConfigSpec} (h : Colliding spec spec') :
    Colliding spec' spec := h.imp Collide.symm Collide.symm

/-- An overlap check that sees the stored configs. -/
theorem checkIPRangeOverlap_ok_iff {items : List HeliosConfig} {hc : HeliosConfig}
    {excludeName : String} : checkIPRangeOverlap .ok items hc excludeName = .ok () ↔
      ∀ existing ∈ items, existing.key.name ≠ excludeName →
        ¬ Colliding hc.spec existing.spec := by
  have h4 := @overlapForRange_ok_iff hc.spec.ipRange excludeName items false
  have h6 := @overlapForRange_ok_iff hc.spec.ipv6Range excludeName items true
  have hsplit : (∀ existing ∈ items, existing.key.name ≠ excludeName →
      ¬ Colliding hc.spec existing.spec) ↔
      (overlapForRange hc.spec.ipRange excludeName items false = .ok () ∧
        overlapForRange hc.spec.ipv6Range excludeName items true = .ok ()) := by
    rw [h4, h6]
    exact ⟨fun h => ⟨fun c hm hx hcol => h c hm hx (.inl hcol),
        fun c hm hx hcol => h c hm hx (.inr hcol)⟩,
      fun h c hm hx hcol => hcol.elim (h.1 c hm hx) (h.2 c hm hx)⟩
  rw [hsplit]
  unfold checkIPRangeOverlap
  simp only
  cases overlapForRange hc.spec.ipRange excludeName items false with
  | error e => simp
  | ok u =>
      by_cases hne : hc.spec.ipv6Range = ""
      · -- an unset range collides with nothing
        have hnone : overlapForRange hc.spec.ipv6Range excludeName items true = .ok () :=
          h6.mpr fun c _ _ hcol => hcol.nonempty.1 hne
        rw [if_neg (not_not.mpr hne)]
        exact iff_of_true rfl ⟨rfl, hnone⟩
      · rw [if_pos hne]
        exact ⟨fun h => ⟨rfl, h⟩, And.right⟩

/-- **What an accepted spec passed, and all that it had to pass.** -/
theorem validateSpec_iff {items : List HeliosConfig} {hc : HeliosConfig} {excludeName : String} :
    validateSpec (some .ok) items hc excludeName = .ok () ↔
      FieldsOk hc.spec ∧ ∀ existing ∈ items, existing.key.name ≠ excludeName →
        ¬ Colliding hc.spec existing.spec := by
  rw [← checkIPRangeOverlap_ok_iff]
  unfold validateSpec
  simp only [bind_eq_ok, mapError_eq_ok]
  constructor
  · intro h
    obtain ⟨h1, h2, h3, h4, h5, h⟩ := h
    exact ⟨⟨h1, h2, h3, h4, h5⟩, h⟩
  · intro h
    obtain ⟨hf, h⟩ := h
    exact ⟨hf.ipRange, hf.ipv6Range, hf.ports, hf.weights, hf.healthCheck, h⟩

/-- A webhook that cannot list, or has no client, asks for less. -/
theorem validateSpec_of_ok {items : List HeliosConfig} {hc : HeliosConfig} {excludeName : String}
    (h : validateSpec (some .ok) items hc excludeName = .ok ()) (client : Option ReadReply) :
    validateSpec client items hc excludeName = .ok () := by
  have hf := (validateSpec_iff.mp h).1
  cases client with
  | none =>
      unfold validateSpec
      simp only [bind_eq_ok, mapError_eq_ok]
      exact ⟨hf.ipRange, hf.ipv6Range, hf.ports, hf.weights, hf.healthCheck, trivial⟩
  | some reply =>
      cases reply with
      | ok => exact h
      | failed e =>
          unfold validateSpec
          simp only [bind_eq_ok, mapError_eq_ok]
          exact ⟨hf.ipRange, hf.ipv6Range, hf.ports, hf.weights, hf.healthCheck, rfl⟩

/-! ## 2. Stores of admitted configs -/

/-- **Every stored config has valid fields, and two of different names do not collide.** -/
structure Admissible (S : Store HeliosConfig.key) : Prop where
  fields : ∀ c ∈ S, FieldsOk c.spec
  named : ∀ c ∈ S, c.key.name ≠ ""
  apart : ∀ a ∈ S, ∀ b ∈ S, a.key.name ≠ b.key.name → ¬ Colliding a.spec b.spec

/-- A config with the key and the spec of a stored one passes as an update. -/
theorem Admissible.update {S : Store HeliosConfig.key} (h : Admissible S) {c c' : HeliosConfig}
    (hm : c ∈ S) (hk : c'.key = c.key) (hs : c'.spec = c.spec) (client : Option ReadReply) :
    validateUpdate client S.objects c' = .ok () := by
  refine validateSpec_of_ok (validateSpec_iff.mpr ⟨hs ▸ h.fields c hm, ?_⟩) client
  intro existing he hne
  rw [hs]
  exact h.apart c hm existing he fun e => hne (e.symm.trans (congrArg NamespacedName.name hk.symm))

/-- It is about keys and specs only. -/
theorem Admissible.of_specs {S S' : Store HeliosConfig.key} (h : Admissible S)
    (hS : ∀ c ∈ S', ∃ c₀ ∈ S, c.key = c₀.key ∧ c.spec = c₀.spec) : Admissible S' := by
  refine ⟨fun c hm => ?_, fun c hm => ?_, fun a ha b hb hne => ?_⟩
  · obtain ⟨c₀, hm₀, -, hs⟩ := hS c hm
    exact hs ▸ h.fields c₀ hm₀
  · obtain ⟨c₀, hm₀, hk, -⟩ := hS c hm
    exact hk ▸ h.named c₀ hm₀
  · obtain ⟨a₀, ha₀, hka, hsa⟩ := hS a ha
    obtain ⟨b₀, hb₀, hkb, hsb⟩ := hS b hb
    rw [hsa, hsb]
    rw [hka, hkb] at hne
    exact h.apart a₀ ha₀ b₀ hb₀ hne

/-- Storing a config that passed, over others of its key. -/
theorem Admissible.insert {S S' : Store HeliosConfig.key} (h : Admissible S) (new : HeliosConfig)
    (hf : FieldsOk new.spec) (hn : new.key.name ≠ "")
    (hc : ∀ c ∈ S, c.key.name ≠ new.key.name → ¬ Colliding new.spec c.spec)
    (hS : ∀ c ∈ S', c ∈ S ∨ c = new) : Admissible S' := by
  refine ⟨fun c hm => ?_, fun c hm => ?_, fun a ha b hb hne => ?_⟩
  · rcases hS c hm with hm | rfl
    · exact h.fields c hm
    · exact hf
  · rcases hS c hm with hm | rfl
    · exact h.named c hm
    · exact hn
  · rcases hS a ha with ha | rfl <;> rcases hS b hb with hb | rfl
    · exact h.apart a ha b hb hne
    · exact fun hcol => hc a ha hne hcol.symm
    · exact hc b hb (Ne.symm hne)
    · exact absurd rfl hne

/-! ## 3. Operation -/

/-- Creations have a name and were admitted, and so were edits of a spec, each time with the configs
    listed. -/
def Admitted (w : World) : Action → Prop
  | .createConfig hc => hc.key.name ≠ "" ∧
      validateCreate (some .ok) w.cluster.configs.objects hc.created = .ok ()
  | .editSpec k spec => ∀ hc, w.cluster.configs.find k = some hc →
      validateUpdate (some .ok) w.cluster.configs.objects (hc.withSpec spec) = .ok ()
  | _ => True

theorem Rewrite.spec {hc hc' : HeliosConfig} (h : Rewrite hc hc') : hc'.spec = hc.spec := by
  cases h <;> rfl

/-- An edit that keeps key and spec. -/
theorem Admissible.editConfig {c : Cluster} (h : Admissible c.configs) (k : NamespacedName)
    {f : HeliosConfig → HeliosConfig} (hf : ∀ hc, (f hc).key = hc.key ∧ (f hc).spec = hc.spec) :
    Admissible (c.editConfig k f).configs := by
  refine h.of_specs fun hc hm => ?_
  rcases Cluster.mem_editConfig hm with hm | ⟨old, hold, -, rfl⟩
  · exact ⟨hc, hm, rfl, rfl⟩
  · exact ⟨old, hold, hf old⟩

/-- An edit of the spec that was admitted. -/
theorem Admissible.editSpec {c : Cluster} (h : Admissible c.configs) {k : NamespacedName}
    {spec : HeliosConfigSpec} (ha : ∀ hc, c.configs.find k = some hc →
      validateUpdate (some .ok) c.configs.objects (hc.withSpec spec) = .ok ()) :
    Admissible (c.editConfig k fun hc => hc.withSpec spec).configs := by
  cases hfind : c.configs.find k with
  | none =>
      unfold Cluster.editConfig
      rw [hfind]
      exact h
  | some hc =>
      obtain ⟨hm, hk⟩ := Store.find_eq_some.mp hfind
      obtain ⟨hf, hcol⟩ := validateSpec_iff.mp (ha hc hfind)
      refine h.insert (hc.withSpec spec) hf (h.named hc hm) hcol fun c' hc' => ?_
      rcases Cluster.mem_editConfig hc' with hc' | ⟨old, hold, hk', rfl⟩
      · exact .inl hc'
      · exact .inr (by rw [Store.eq_of_key hold hm (hk'.trans hk.symm)])

theorem admissible_act (retries : Nat) (w : World) (a : Action)
    (h : Admissible w.cluster.configs) (ha : Admitted w a) :
    Admissible (w.act retries a).cluster.configs := by
  cases a with
  | step a =>
      rcases a.pass_or_outside with ⟨req, r, rfl⟩ | ho
      · refine h.of_specs ((reconcile_evolves retries req w r).forall_configs ?_
          fun c hm => ⟨c, hm, rfl, rfl⟩)
        intro c c' hc hr
        obtain ⟨c₀, hm₀, hk, hs⟩ := hc
        exact ⟨c₀, hm₀, hr.key.trans hk, hr.spec.trans hs⟩
      · have hcfg : (w.act retries (.step a)).cluster.configs = w.cluster.configs :=
          (World.step_outside retries w ho).2.2
        rw [hcfg]
        exact h
  | createConfig hc =>
      obtain ⟨hname, hv⟩ := ha
      obtain ⟨hf, hcol⟩ := validateSpec_iff.mp hv
      refine h.insert hc.created hf hname (fun c hm _ => ?_) fun c hm => Store.mem_create hm
      exact hcol c hm (h.named c hm)
  | editSpec k spec => exact h.editSpec ha
  | editFinalizers k fs => exact h.editConfig k fun _ => ⟨rfl, rfl⟩
  | deleteConfig k => exact h.editConfig k fun _ => ⟨rfl, rfl⟩
  | restart => exact h

/-- **The webhook refuses no write that leaves the spec alone**, in every run from a cluster without
    configs whose creations and edits of specs it admitted: finalizers can be added and removed,
    whether it can list the configs or not. -/
theorem webhook_admits_rewrites (retries : Nat) (services : Store Service.key) (pool : IPAllocator)
    (actions : List Action)
    (h : Along (World.act retries) Admitted ⟨⟨services, .empty⟩, pool⟩ actions) :
    ∀ hc ∈ (run (World.act retries) ⟨⟨services, .empty⟩, pool⟩ actions).cluster.configs,
      ∀ hc', hc'.key = hc.key → hc'.spec = hc.spec → ∀ client,
        validateUpdate client
          (run (World.act retries) ⟨⟨services, .empty⟩, pool⟩ actions).cluster.configs.objects hc' =
            .ok () := by
  have hstart : Admissible (Store.empty : Store HeliosConfig.key) :=
    ⟨fun _ hm => absurd hm List.not_mem_nil, fun _ hm => absurd hm List.not_mem_nil,
      fun _ hm => absurd hm List.not_mem_nil⟩
  have hend := @run_inv World Action (World.act retries)
    (fun w => Admissible w.cluster.configs) Admitted (admissible_act retries) actions
    ⟨⟨services, .empty⟩, pool⟩ hstart h
  exact fun hc hm hc' hk hs client => hend.update hm hk hs client

/-- The finalizer of a config that is being deleted, beside another one. -/
theorem webhook_admits_removal :
    let web : Service := { key := ⟨"shop", "web"⟩, spec := { type := .loadBalancer } }
    let a : HeliosConfig := { key := ⟨"default", "a"⟩, spec := { ipRange := "10.0.0.0/28" } }
    let b : HeliosConfig := { key := ⟨"default", "b"⟩, spec := { ipRange := "10.0.0.16/28" } }
    ∃ w : World, w = run (World.act 4) ⟨⟨.ofList [web], .empty⟩, newIPAllocator⟩
        [.createConfig a, .createConfig b, .step (.pass a.key allOk), .deleteConfig a.key] ∧
      ∃ hc ∈ w.cluster.configs, hc.key = a.key ∧ hc.deleting = true ∧
        heliosConfigFinalizer ∈ hc.finalizers ∧
        validateUpdate (some .ok) w.cluster.configs.objects (removeFinalizer hc) = .ok () := by
  intro web a b
  have hadmits := webhook_admits_rewrites 4 (.ofList [web]) newIPAllocator
    [.createConfig a, .createConfig b, .step (.pass a.key allOk), .deleteConfig a.key]
    ⟨⟨by decide, by decide⟩, ⟨by decide, by decide⟩, trivial, trivial, trivial⟩
  generalize hw : run (World.act 4) ⟨⟨.ofList [web], .empty⟩, newIPAllocator⟩
    [.createConfig a, .createConfig b, .step (.pass a.key allOk), .deleteConfig a.key] = w
    at hadmits
  have hstored : (w.cluster.configs.find a.key).map (fun hc => (hc.deleting, hc.finalizers)) =
      some (true, [heliosConfigFinalizer]) := by
    rw [← hw]
    decide
  obtain ⟨hc, hfind, hpair⟩ := Option.map_eq_some_iff.mp hstored
  obtain ⟨hm, hk⟩ := Store.find_eq_some.mp hfind
  obtain ⟨hdel, hfin⟩ := Prod.mk.inj hpair
  exact ⟨w, rfl, hc, hm, hk, hdel, hfin ▸ List.mem_singleton_self _,
    hadmits hc hm (removeFinalizer hc) rfl rfl (some .ok)⟩

end HeliosLB
