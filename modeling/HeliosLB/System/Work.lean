/-
  File:      HeliosLB/System/Work.lean
  Subject:   HOW OFTEN ADDRESSES ARE GIVEN OUT: once for each Service that has none.

  A Service with an ingress is never eligible, and only a deletion or another writer takes an
  ingress away. So every `IPAllocated` event is paid for by a Service that had no ingress and has
  one now.

  * `Cluster.bare` -- the number of Services without an ingress;
  * `LoopTrace.pays`, `pass_pays` -- a pass lowers it by its allocations at least;
  * **`allocations_bounded`** -- over every run in which no ingress is taken away there are no more
    allocations than Services that had none at the start or came later.
-/
import HeliosLB.Controller.Plan
import HeliosLB.Controller.Telemetry
import HeliosLB.System.Operation

namespace HeliosLB

open Lib

/-! ## 1. Services without an ingress -/

/-- How many Services have no ingress. -/
def Cluster.bare (c : Cluster) : Nat := (c.services.objects.filter fun s => s.ingress = []).length

theorem bare_congr {c c' : Cluster} (h : c'.services = c.services) : c'.bare = c.bare := by
  unfold Cluster.bare
  rw [h]

/-- A write of a Service with an ingress. -/
theorem bare_replace_le (c : Cluster) {svc : Service} (h : svc.ingress ≠ []) :
    { c with services := c.services.replace svc }.bare ≤ c.bare := by
  unfold Cluster.bare
  rw [Store.filter_replace (by simpa using h)]
  exact List.length_filter_le _ _

/-- Over one without. -/
theorem bare_replace_lt {c : Cluster} {svc old : Service} (h : svc.ingress ≠ [])
    (ho : c.services.find svc.key = some old) (hb : old.ingress = []) :
    { c with services := c.services.replace svc }.bare + 1 ≤ c.bare := by
  obtain ⟨hm, hk⟩ := Store.find_eq_some.mp ho
  unfold Cluster.bare
  rw [Store.filter_replace (by simpa using h)]
  refine List.length_filter_lt_length_iff_exists.mpr ⟨old, ?_, by simpa using hk⟩
  exact List.mem_filter.mpr ⟨hm, by simpa using hb⟩

theorem bare_create_le (c : Cluster) (svc : Service) :
    { c with services := c.services.create svc }.bare ≤ c.bare + 1 := by
  unfold Cluster.bare Store.create
  split
  · exact Nat.le_succ _
  · rw [List.filter_append, List.length_append]
    exact Nat.add_le_add_left (List.length_filter_le _ [svc]) _

theorem bare_delete_le (c : Cluster) (k : NamespacedName) :
    { c with services := c.services.delete k }.bare ≤ c.bare :=
  (List.filter_sublist.filter _).length_le

theorem bare_setIngress_le (c : Cluster) (k : NamespacedName) {ingress : List String}
    (h : ingress ≠ []) : (c.setIngress k ingress).bare ≤ c.bare := by
  unfold Cluster.setIngress
  split
  · exact Nat.le_refl _
  · exact bare_replace_le c h

/-! ## 2. A pass -/

/-- The allocations among the events of a pass. -/
def allocations (events : List RecordedEvent) : List RecordedEvent :=
  events.filter fun e => e.reason = "IPAllocated"

@[simp] theorem allocations_served (svc : Service) (ip ipv6 : String)
    (events : List RecordedEvent) :
    allocations (servedEvent svc ip ipv6 :: events) =
      servedEvent svc ip ipv6 :: allocations events :=
  List.filter_cons_of_pos (by simp [servedEvent_reason])

/-- A failed allocation takes no ingress away. -/
theorem Outcome.bare_le {retries : Nat} {hc : HeliosConfig} {svc : Service} {w w' : World}
    {r : TurnReplies} {f : AllocFailure} (ho : Outcome retries hc svc w r (.error f) w') :
    w'.cluster.bare ≤ w.cluster.bare := by
  cases ho with
  | torn hl hd hs he hw hrel ht =>
      exact bare_replace_le w.cluster (ingressOf_ne_nil _ _)
  | _ => exact Nat.le_refl _

/-- A successful one gives an ingress to a Service without. -/
theorem Outcome.bare_lt {retries : Nat} {hc : HeliosConfig} {svc stored : Service} {w w' : World}
    {r : TurnReplies} {ip ipv6 : String} (ho : Outcome retries hc svc w r (.ok (ip, ipv6)) w')
    (hs : w.cluster.services.find svc.key = some stored) (hb : stored.ingress = []) :
    w'.cluster.bare + 1 ≤ w.cluster.bare ∧
      ∀ k, k ≠ svc.key → w'.cluster.services.find k = w.cluster.services.find k := by
  cases ho with
  | assigned hl hd hs' he =>
      obtain rfl := Option.some.inj (hs.symm.trans hs')
      have hk : stored.key = svc.key := (Store.find_eq_some.mp hs).2
      refine ⟨bare_replace_lt (ingressOf_ne_nil _ _) (hk.symm ▸ hs) hb, fun k hne => ?_⟩
      exact Cluster.assigned_find_ne hs hne hc.key ip ipv6

/-- **The loop pays for its allocations.** The Services it is given are stored without an ingress,
    each once. -/
theorem LoopTrace.pays {retries : Nat} {svcs : List Service} {hc : HeliosConfig} {w : World}
    {turn : Nat → TurnReplies} {res : PassReport × World} {t : Trace}
    (h : LoopTrace retries svcs hc w turn res t)
    (hs : ∀ svc ∈ svcs, ∃ stored, w.cluster.services.find svc.key = some stored ∧
      stored.ingress = []) (hnd : (svcs.map Service.key).Nodup) :
    (allocations res.1.events).length + res.2.cluster.bare ≤ w.cluster.bare := by
  induction h with
  | done => exact Nat.le_of_eq (Nat.zero_add _)
  | quota => exact Nat.le_of_eq (Nat.zero_add _)
  | @failed svc rest hc w w' turn f c ho hw hv =>
      have hnone : allocations [failedEvent svc f] = [] := rfl
      rw [hnone, bare_congr hv, List.length_nil, Nat.zero_add]
      exact ho.bare_le
  | @unrecorded svc rest hc w w' turn ip ipv6 e c ho hw hv =>
      obtain ⟨stored, hfind, hb⟩ := hs svc List.mem_cons_self
      have hpaid := (ho.bare_lt hfind hb).1
      have hone : (allocations [servedEvent svc ip ipv6]).length = 1 := by
        rw [allocations_served]
        rfl
      rw [hone, bare_congr hv, Nat.add_comm]
      exact hpaid
  | @served svc rest hc w w' turn ip ipv6 res t ho hst h ih =>
      obtain ⟨stored, hfind, hb⟩ := hs svc List.mem_cons_self
      obtain ⟨hpaid, hothers⟩ := ho.bare_lt hfind hb
      obtain ⟨hnot, hnd'⟩ := List.nodup_cons.mp hnd
      have hrest := ih (fun s hm => by
        have hne : s.key ≠ svc.key := fun e => hnot (e ▸ List.mem_map_of_mem hm)
        obtain ⟨stored', hfind', hb'⟩ := hs s (List.mem_cons_of_mem _ hm)
        exact ⟨stored', (hothers s.key hne).trans hfind', hb'⟩) hnd'
      have hsame : (w'.cluster.withConfig (servedConfig hc svc ip ipv6)).bare = w'.cluster.bare :=
        bare_congr rfl
      rw [hsame] at hrest
      calc (allocations (servedEvent svc ip ipv6 :: res.1.events)).length + res.2.cluster.bare
          = (allocations res.1.events).length + res.2.cluster.bare + 1 := by
            rw [allocations_served, List.length_cons, Nat.add_right_comm]
        _ ≤ w'.cluster.bare + 1 := Nat.succ_le_succ hrest
        _ ≤ w.cluster.bare := hpaid

/-- **A pass pays for its allocations**, unless it releases a config. -/
theorem pass_pays (retries : Nat) {req : NamespacedName} {w : World}
    (hlive : ∀ hc ∈ w.cluster.configs.find req, hc.deleting = false) (r : PassReplies) :
    (allocations (reconcile retries req w r).1.events).length +
      (reconcile retries req w r).2.cluster.bare ≤ w.cluster.bare := by
  cases hget : r.getConfig with
  | failed e =>
      simp only [reconcile, hget]
      exact Nat.le_of_eq (Nat.zero_add _)
  | ok =>
      cases hf : w.cluster.configs.find req with
      | none =>
          simp only [reconcile, hget, hf]
          exact Nat.le_of_eq (Nat.zero_add _)
      | some hc₀ =>
          obtain ⟨t, -, h⟩ := reconcile_trace retries hf hget
          generalize reconcile retries req w r = res at h
          cases h with
          | @quiet report c t hg hk hs hv hc he hfail =>
              have hnone : allocations report.events = [] :=
                List.filter_eq_nil_iff.mpr fun e hm => by simpa using he e hm
              rw [hnone, bare_congr hv]
              exact Nat.le_of_eq (Nat.zero_add _)
          | release hg hk hs hd =>
              rw [hlive hc₀ hf] at hd
              cases hd
          | @loop hc c res t hg hcore hs hv hl =>
              obtain ⟨hfind, hnd⟩ := eligibleServices_stored hc c.services
              rw [← bare_congr hv]
              exact hl.pays (fun svc hm => ⟨svc, hfind svc hm,
                eligible_ingress (mem_eligibleServices.mp hm).2⟩) hnd

/-! ## 3. A run -/

/-- The action takes no ingress away: nobody clears one, no config is released. -/
def Keeps (w : World) : Action → Prop
  | .step (.pass req _) => ∀ hc ∈ w.cluster.configs.find req, hc.deleting = false
  | .step (.setIngress _ ingress) => ingress ≠ []
  | _ => True

/-- The allocations an action reports. -/
def World.allocates (retries : Nat) (w : World) : Action → List RecordedEvent
  | .step (.pass req r) => allocations (reconcile retries req w r).1.events
  | _ => []

def Action.createsService : Action → Bool
  | .step (.createService _) => true
  | _ => false

/-- **One action**: its allocations are paid for; only a new Service raises the budget. -/
theorem act_pays {retries : Nat} {w : World} {a : Action} (h : Keeps w a) :
    (w.allocates retries a).length + (w.act retries a).cluster.bare ≤
      w.cluster.bare + (if a.createsService then 1 else 0) := by
  have hedit : ∀ k f, (w.cluster.editConfig k f).bare = w.cluster.bare := fun k f =>
    bare_congr (Cluster.editConfig_services _ _ _)
  cases a with
  | step a =>
      cases a with
      | pass req r => exact pass_pays retries h r
      | createService svc => exact (Nat.zero_add _).trans_le (bare_create_le w.cluster svc.cleared)
      | deleteService k => exact (Nat.zero_add _).trans_le (bare_delete_le w.cluster k)
      | setIngress k ingress =>
          exact (Nat.zero_add _).trans_le (bare_setIngress_le w.cluster k h)
  | createConfig hc => exact (Nat.zero_add _).trans_le (Nat.le_of_eq (bare_congr rfl))
  | editSpec k spec => exact (Nat.zero_add _).trans_le (Nat.le_of_eq (hedit _ _))
  | editFinalizers k fs => exact (Nat.zero_add _).trans_le (Nat.le_of_eq (hedit _ _))
  | deleteConfig k => exact (Nat.zero_add _).trans_le (Nat.le_of_eq (hedit _ _))
  | restart => exact (Nat.zero_add _).trans_le (Nat.le_refl _)

/-- **Addresses are given out at most once for each Service that has none.** In every run in which
    no ingress is taken away and the passes read the stored objects, whatever fails, whoever edits
    and however often the controller restarts, the allocations reported and the Services still
    without an ingress are no more than the Services without one at the start and those created. -/
theorem allocations_bounded (retries : Nat) (w : World) (actions : List Action)
    (h : Along (World.act retries) Keeps w actions) :
    (outputs (World.act retries) (World.allocates retries) w actions).length +
        (run (World.act retries) w actions).cluster.bare ≤
      w.cluster.bare + actions.countP Action.createsService :=
  outputs_length_le _ (fun w => w.cluster.bare) (fun _ _ => act_pays) h

/-- `web` is served, the controller restarts, `api` comes and is served: two allocations, and the
    passes after them add none. -/
theorem allocations_bounded_restart :
    let web : Service := { key := ⟨"shop", "web"⟩, spec := { type := .loadBalancer } }
    let api : Service := { key := ⟨"shop", "api"⟩, spec := { type := .loadBalancer } }
    let a : HeliosConfig := { key := ⟨"default", "a"⟩, spec := { ipRange := "10.0.0.1-10.0.0.3" } }
    let w : World := ⟨⟨.ofList [web], .ofList [a]⟩, newIPAllocator⟩
    let actions : List Action := [.step (.pass a.key allOk), .restart, .step (.createService api),
      .step (.pass a.key allOk), .step (.pass a.key allOk)]
    (outputs (World.act 4) (World.allocates 4) w actions).length +
        (run (World.act 4) w actions).cluster.bare ≤ 2 ∧
      (outputs (World.act 4) (World.allocates 4) w actions).length = 2 := by
  intro web api a w actions
  refine ⟨allocations_bounded 4 w actions ⟨?_, trivial, trivial, ?_, ?_, trivial⟩, by decide⟩
  · show ∀ hc ∈ _, _
    decide
  · show ∀ hc ∈ _, _
    decide
  · show ∀ hc ∈ _, _
    decide

end HeliosLB
