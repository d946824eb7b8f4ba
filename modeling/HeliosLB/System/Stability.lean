/-
  File:      HeliosLB/System/Stability.lean
  Subject:   AN ADDRESS ONCE SHOWN STAYS, until it is taken away.

  * `Takes` -- the actions that can take the ingress of a Service: somebody else changes the
    Service, or a config of its namespace that records its bare name is deleted, whoever wrote the
    ingress;
  * `services_find_act` -- any other action leaves a Service that has an ingress exactly as it is;
  * **`address_stays`** -- so does any run of them: specs and Services may change, configs come,
    the process restart, calls fail.
-/
import HeliosLB.System.Finalizer

namespace HeliosLB

open Lib

/-- The action can take the ingress of the Service away. -/
def Takes (w : World) (key : NamespacedName) : Action → Prop
  | .step (.pass req _) => ∃ hc, w.cluster.configs.find req = some hc ∧ hc.deleting = true ∧
      key.ns = req.ns ∧ key.name ∈ releaseNames hc
  | .step (.deleteService k) => k = key
  | .step (.setIngress k _) => k = key
  | _ => False

/-- The release of a config leaves every other Service. -/
theorem handleDeletion_services {hc : HeliosConfig} {key : NamespacedName}
    (h : ¬ (key.ns = hc.key.ns ∧ key.name ∈ releaseNames hc)) (w : World) (r : PassReplies) :
    (handleDeletion hc w r).2.cluster.services.find key = w.cluster.services.find key := by
  have hrel : (releaseAll hc w r.release).cluster.services.find key =
      w.cluster.services.find key :=
    foldl_clearIngress_find_ne h r.release w.cluster
  have hsvc := Cluster.updateConfig_services (releaseAll hc w r.release).cluster
    (removeFinalizer hc) r.removeFinalizer
  unfold handleDeletion
  split
  · dsimp only
    generalize (releaseAll hc w r.release).cluster.updateConfig (removeFinalizer hc)
      r.removeFinalizer = out at hsvc
    rw [← hsvc] at hrel
    rcases out with ⟨e | hc', c⟩
    · exact hrel
    · exact hrel
  · rfl

/-- A pass that is not such a deletion. -/
theorem reconcile_services {w : World} {key : NamespacedName} {s : Service}
    (hf : w.cluster.services.find key = some s) (hi : s.ingress ≠ []) {req : NamespacedName}
    {r : PassReplies} (hn : ¬ Takes w key (.step (.pass req r))) (retries : Nat) :
    (reconcile retries req w r).2.cluster.services.find key = some s := by
  rcases reconcile_cases retries req w r with ⟨hcos, -⟩ |
    ⟨hc₀, hc, c, hf₀, hcore, hcos, hs, ⟨hd, he⟩ | ⟨-, he⟩⟩
  · rw [hcos.services, hf]
  · obtain ⟨hkey, hdel, -, h4, h6⟩ := HeliosConfig.core_eq hcore
    have hk : hc.key = req := hkey.trans (Store.find_eq_some.mp hf₀).2
    have hnames : releaseNames hc = releaseNames hc₀ := by unfold releaseNames; rw [h4, h6]
    rw [he, handleDeletion_services, ← hf, ← hcos.services]
    rw [hk, hnames]
    exact fun h => hn ⟨hc₀, hf₀, hdel ▸ hd, h⟩
  · -- the loop serves Services without an ingress only
    rw [he, serveServices_services (w := ⟨c, w.pool⟩) hs, ← hf, ← hcos.services]
    rintro svc hm rfl
    obtain ⟨hmem, hel⟩ := mem_eligibleServices.mp hm
    obtain rfl : svc = s := Option.some.inj ((Store.find_key hmem).symm.trans hf)
    exact hi (eligible_ingress hel)

/-- **One action**: unless it takes the ingress away, the Service stays as it is. -/
theorem services_find_act {retries : Nat} {w : World} {key : NamespacedName} {s : Service}
    (hf : w.cluster.services.find key = some s) (hi : s.ingress ≠ []) {a : Action}
    (hn : ¬ Takes w key a) : (w.act retries a).cluster.services.find key = some s := by
  have hedit : ∀ k f, (w.cluster.editConfig k f).services = w.cluster.services :=
    Cluster.editConfig_services _
  cases a with
  | step a =>
      cases a with
      | pass req r => exact reconcile_services hf hi hn retries
      | createService svc =>
          obtain ⟨hm, rfl⟩ := Store.find_eq_some.mp hf
          exact Store.find_key (Store.mem_create_of_mem hm)
      | deleteService k => exact (Store.find_delete_ne (Ne.symm hn)).trans hf
      | setIngress k ingress =>
          show (w.cluster.setIngress k ingress).services.find key = some s
          unfold Cluster.setIngress
          cases hk : w.cluster.services.find k with
          | none => exact hf
          | some svc =>
              have hne : ({ svc with ingress, writer := none } : Service).key ≠ key :=
                (Store.find_eq_some.mp hk).2.trans_ne hn
              exact (Store.find_replace_ne hne).trans hf
  | createConfig hc => exact hf
  | editSpec k spec => exact (congrArg (Store.find · key) (hedit k _)).trans hf
  | editFinalizers k fs => exact (congrArg (Store.find · key) (hedit k _)).trans hf
  | deleteConfig k => exact (congrArg (Store.find · key) (hedit k _)).trans hf
  | restart => exact hf

/-- **An address stays.** A Service that has an ingress is, after any run of actions none of which
    takes it away, exactly what it was: no pass over the stored objects, failed call, restart or
    change of another object touches it. -/
theorem address_stays (retries : Nat) {w : World} {key : NamespacedName} {s : Service}
    (hf : w.cluster.services.find key = some s) (hi : s.ingress ≠ []) {actions : List Action}
    (h : Along (World.act retries) (fun w a => ¬ Takes w key a) w actions) :
    (run (World.act retries) w actions).cluster.services.find key = some s :=
  @run_inv World Action (World.act retries) (fun w => w.cluster.services.find key = some s) _
    (fun _ _ hw hn => services_find_act hw hi hn) actions w hf h

/-- A restart and a range that no longer holds the address. -/
theorem address_stays_new_range :
    let web : Service :=
      { key := ⟨"shop", "web"⟩, spec := { type := .loadBalancer }, ingress := ["10.0.0.1"] }
    let a : HeliosConfig := { key := ⟨"shop", "a"⟩, spec := { ipRange := "10.0.0.1-10.0.0.3" } }
    let w : World := ⟨⟨.ofList [web], .ofList [a]⟩, newIPAllocator⟩
    (run (World.act 4) w [.restart, .editSpec a.key { ipRange := "10.0.1.1-10.0.1.3" },
      .step (.pass a.key allOk)]).cluster.services.find web.key = some web := by
  intro web a w
  have hf : w.cluster.services.find web.key = some web :=
    Store.find_key (List.mem_singleton_self web)
  have hpass : ∀ w : World,
      ((w.cluster.configs.find a.key).all fun hc => !hc.deleting) = true →
      ¬ Takes w web.key (.step (.pass a.key allOk)) := by
    rintro w h ⟨hc, hfc, hd, -⟩
    rw [hfc, Option.all_some, hd] at h
    cases h
  exact address_stays 4 hf (List.cons_ne_nil _ _)
    ⟨fun h => h, fun h => h, hpass _ (by decide), trivial⟩

end HeliosLB
