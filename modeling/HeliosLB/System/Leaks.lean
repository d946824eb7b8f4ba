/-
  File:      HeliosLB/System/Leaks.lean
  Subject:   ADDRESSES NOBODY HOLDS ANY MORE, over whole runs.

  The used set, the status maps and the Services are three stores. A pass adds to all of them at
  once, and only the deletion of a config takes something out again: a Service that is deleted
  leaves its entry and its address behind.

  * `HeldUnder` -- an existing Service of that name shows the address;
  * `Backed` -- every entry and every used address has an existing Service behind it;
  * `backed_pass` -- a pass without API failures keeps that;
  * `LeavesNothing` -- the steps considered: a Service that is deleted shows no address that is in
    use or recorded;
  * **`no_leaked_address`** -- in every run of these steps nothing is leaked;
  * `address_leaked_by_deletion` -- deleted and created again, a Service is refused its own address.
-/
import HeliosLB.Controller.Plan
import HeliosLB.System.Steps

namespace HeliosLB

open Lib

/-! ## 1. The invariant -/

/-- A stored Service of that name shows the address. -/
def HeldUnder (S : Store Service.key) (name x : String) : Prop :=
  ∃ svc ∈ S, svc.key.name = name ∧ x ∈ svc.ingress

/-- **Every entry and every used address has an existing Service behind it.** -/
structure Backed (w : World) : Prop where
  entries : ∀ hc ∈ w.cluster.configs, ∀ name x, hc.entry name x →
    HeldUnder w.cluster.services name x
  used : ∀ x ∈ w.pool.used, ∃ name, HeldUnder w.cluster.services name x

/-- A new controller over configs without records is backed. -/
theorem backed_fresh {w : World} (hp : w.pool.used = ∅)
    (hc : ∀ hc ∈ w.cluster.configs, hc.recorded = []) : Backed w where
  entries hc' hm name x he := by
    have hx : x ∈ hc'.recorded := mem_recorded_iff_entry.mpr ⟨name, he⟩
    rw [hc hc' hm] at hx
    cases hx
  used x hx := by
    rw [hp] at hx
    cases hx

/-- What a config records is shown by an existing Service. -/
theorem Backed.recorded {w : World} (h : Backed w) {hc : HeliosConfig}
    (hm : hc ∈ w.cluster.configs) {x : String} (hx : x ∈ hc.recorded) :
    ∃ name, HeldUnder w.cluster.services name x := by
  obtain ⟨name, he⟩ := mem_recorded_iff_entry.mp hx
  exact ⟨name, h.entries hc hm name x he⟩

/-! ## 2. One pass -/

section Pass

variable {w : World} {hc : HeliosConfig} {assigned : List Service}

/-- Writing to Services without an ingress takes no address from anybody. -/
theorem HeldUnder.replaceAll {S : Store Service.key} {name x : String} (h : HeldUnder S name x)
    (hnd : (assigned.map Service.key).Nodup)
    (hfree : ∀ svc ∈ S, svc.key ∈ assigned.map Service.key → svc.ingress = []) :
    HeldUnder (S.replaceAll assigned) name x := by
  obtain ⟨svc, hm, hn, hx⟩ := h
  have hkey : svc.key ∉ assigned.map Service.key := by
    intro hk
    rw [hfree svc hm hk] at hx
    cases hx
  exact ⟨svc, (Store.mem_replaceAll hnd).mpr (Or.inr ⟨hm, hkey⟩), hn, hx⟩

/-- A Service that was assigned to shows what it was assigned. -/
theorem heldUnder_assigned {S : Store Service.key} {s : Service} {x : String} (hs : s ∈ assigned)
    (hx : x ∈ s.ingress) (hnd : (assigned.map Service.key).Nodup)
    (hstored : ∃ svc ∈ S, svc.key = s.key) :
    HeldUnder (S.replaceAll assigned) s.key.name x :=
  ⟨s, (Store.mem_replaceAll hnd).mpr (Or.inl ⟨hs, hstored⟩), rfl, hx⟩

/-- **A pass without API failures keeps everything backed.** -/
theorem backed_pass (h : Backed w) (hm : hc ∈ w.cluster.configs) :
    Backed ((passPlan hc w).applyTo w) := by
  have hnd := passPlan_assigned_nodup hc w
  have hstored := passPlan_assigned_stored hc w
  have hfree : ∀ svc ∈ w.cluster.services, svc.key ∈ (passPlan hc w).assigned.map Service.key →
      svc.ingress = [] := by
    intro svc hs hk
    obtain ⟨svc', hs', hk', _, hi⟩ := hstored svc.key hk
    rwa [← Store.eq_of_key hs' hs hk']
  have hold : ∀ {name x}, HeldUnder w.cluster.services name x →
      HeldUnder (w.cluster.services.replaceAll (passPlan hc w).assigned) name x :=
    fun hh => hh.replaceAll hnd hfree
  have hnew : ∀ s ∈ (passPlan hc w).assigned, ∀ x ∈ s.ingress,
      HeldUnder (w.cluster.services.replaceAll (passPlan hc w).assigned) s.key.name x := by
    intro s hs x hx
    obtain ⟨svc, hsvc, hk, _⟩ := hstored s.key (List.mem_map_of_mem hs)
    exact heldUnder_assigned hs hx hnd ⟨svc, hsvc, hk⟩
  refine ⟨fun hc' hm' name x he => ?_, fun x hx => ?_⟩
  · rcases Store.mem_replace.mp hm' with ⟨rfl, _⟩ | ⟨hm', _⟩
    · rcases passPlan_entries hc w he with he | ⟨s, hs, rfl, hx⟩
      · exact hold (h.entries hc hm name x he)
      · exact hnew s hs x hx
    · exact hold (h.entries hc' hm' name x he)
  · rcases passPlan_used hc w x hx with hx | ⟨hx, _⟩ | ⟨s, hs, hx⟩
    · obtain ⟨name, hh⟩ := h.used x hx
      exact ⟨name, hold hh⟩
    · obtain ⟨other, ho, _, hx⟩ := mem_recordedByOthers.mp hx
      obtain ⟨name, hh⟩ := h.recorded ho hx
      exact ⟨name, hold hh⟩
    · exact ⟨s.key.name, hnew s hs x hx⟩

end Pass

/-! ## 3. Runs -/

/-- **The steps considered**: passes without API failures over configs that are not being deleted,
    any new Service, and deletions of Services that show no address in use or recorded. -/
def LeavesNothing (w : World) : Step → Prop
  | .pass req r => r = allOk ∧ ∀ hc, w.cluster.configs.find req = some hc → hc.deleting = false
  | .createService _ => True
  | .deleteService k => ∀ svc, w.cluster.services.find k = some svc → ∀ x ∈ svc.ingress,
      x ∉ w.pool.used ∧ ∀ hc ∈ w.cluster.configs, x ∉ hc.recorded
  | .setIngress _ _ => False

theorem reconcile_missing (retries : Nat) {req : NamespacedName} {w : World}
    (h : w.cluster.configs.find req = none) : (reconcile retries req w allOk).2 = w := by
  have hg : allOk.getConfig = .ok := rfl
  unfold reconcile
  rw [hg, h]

theorem HeldUnder.create {S : Store Service.key} {name x : String} (h : HeldUnder S name x)
    (svc : Service) : HeldUnder (S.create svc) name x := by
  obtain ⟨s, hm, hn, hx⟩ := h
  exact ⟨s, Store.mem_create_of_mem hm, hn, hx⟩

theorem backed_step (retries : Nat) (w : World) (a : Step) (hi : Backed w)
    (h : LeavesNothing w a) : Backed (w.step retries a) := by
  cases a with
  | pass req r =>
      obtain ⟨rfl, hdel⟩ := h
      show Backed (reconcile retries req w allOk).2
      cases hf : w.cluster.configs.find req with
      | none =>
          rw [reconcile_missing retries hf]
          exact hi
      | some hc =>
          rw [(reconcile_plan retries hf (hdel hc hf)).1]
          exact backed_pass hi (Store.find_eq_some.mp hf).1
  | createService svc =>
      refine ⟨fun hc hm name x he => (hi.entries hc hm name x he).create _, fun x hx => ?_⟩
      obtain ⟨name, hh⟩ := hi.used x hx
      exact ⟨name, hh.create _⟩
  | deleteService k =>
      -- the Service behind an entry or a mark is not the deleted one
      have hkeep : ∀ {name x}, HeldUnder w.cluster.services name x →
          (x ∈ w.pool.used ∨ ∃ hc ∈ w.cluster.configs, x ∈ hc.recorded) →
          HeldUnder (w.cluster.services.delete k) name x := by
        intro name x hh hx
        obtain ⟨svc, hm, hn, hin⟩ := hh
        refine ⟨svc, Store.mem_delete.mpr ⟨hm, fun hk => ?_⟩, hn, hin⟩
        obtain ⟨hu, hr⟩ := h svc (Store.find_eq_some.mpr ⟨hm, hk⟩) x hin
        rcases hx with hx | ⟨hc, hc', hx⟩
        · exact hu hx
        · exact hr hc hc' hx
      refine ⟨fun hc hm name x he => ?_, fun x hx => ?_⟩
      · have hx : x ∈ hc.recorded := mem_recorded_iff_entry.mpr ⟨name, he⟩
        exact hkeep (hi.entries hc hm name x he) (Or.inr ⟨hc, hm, hx⟩)
      · obtain ⟨name, hh⟩ := hi.used x hx
        exact ⟨name, hkeep hh (Or.inl hx)⟩
  | setIngress k ingress => cases h

/-- A request is refused as already allocated only if its address is in use. -/
theorem alreadyAllocated_used {a : IPAllocator} {r q x : String}
    (h : (a.allocateSpecificIP r q).1 = .error (.alreadyAllocated x)) : x ∈ a.used := by
  unfold IPAllocator.allocateSpecificIP at h
  split at h
  · cases h
  · split at h
    · cases h
    · split at h
      · cases h
        assumption
      · cases h

/-- **No leaked addresses**, in every state of every run in which no deleted Service shows an
    address in use or recorded: every entry of a status belongs to an existing Service of that name
    that shows the address, and a request refused as already allocated is for an address an
    existing Service shows. -/
theorem no_leaked_address (retries : Nat) {w₀ : World} {steps : List Step} (h₀ : Backed w₀)
    (h : Along (World.step retries) LeavesNothing w₀ steps) :
    let w := run (World.step retries) w₀ steps
    (∀ hc ∈ w.cluster.configs, ∀ name x, hc.entry name x →
      ∃ svc ∈ w.cluster.services, svc.key.name = name ∧ x ∈ svc.ingress) ∧
    ∀ r q x, (w.pool.allocateSpecificIP r q).1 = .error (.alreadyAllocated x) →
      ∃ svc ∈ w.cluster.services, x ∈ svc.ingress := by
  intro w
  have hw : Backed w := run_inv (World.step retries) (backed_step retries) h₀ h
  refine ⟨hw.entries, fun r q x hx => ?_⟩
  obtain ⟨_, svc, hm, _, hin⟩ := hw.used x (alreadyAllocated_used hx)
  exact ⟨svc, hm, hin⟩

/-- A Service comes and goes before it is given an address. -/
theorem no_leaked_address_unserved :
    let web : Service := { key := ⟨"shop", "web"⟩, spec := { type := .loadBalancer } }
    let db : Service := { key := ⟨"shop", "db"⟩, spec := { type := .loadBalancer } }
    let a : HeliosConfig := { key := ⟨"default", "a"⟩, spec := { ipRange := "10.0.0.1-10.0.0.3" } }
    let w₀ : World := ⟨⟨.ofList [web], .ofList [a]⟩, newIPAllocator⟩
    let steps : List Step := [.createService db, .deleteService db.key, .pass a.key allOk]
    let w := run (World.step 4) w₀ steps
    w.cluster.services.objects.map (fun s => (s.key.name, s.ingress)) = [("web", ["10.0.0.1"])] ∧
      (∀ hc ∈ w.cluster.configs, ∀ name x, hc.entry name x →
        ∃ svc ∈ w.cluster.services, svc.key.name = name ∧ x ∈ svc.ingress) ∧
      ∀ r q x, (w.pool.allocateSpecificIP r q).1 = .error (.alreadyAllocated x) →
        ∃ svc ∈ w.cluster.services, x ∈ svc.ingress := by
  intro web db a w₀ steps
  have h₀ : Backed w₀ := backed_fresh rfl (by decide)
  refine ⟨by decide, no_leaked_address 4 h₀ ⟨trivial, ?_, ⟨rfl, ?_⟩, trivial⟩⟩
  · intro svc hf x hx
    have hempty : ((w₀.step 4 (.createService db)).cluster.services.find db.key).map
        Service.ingress = some [] := by decide
    rw [hf] at hempty
    rw [Option.some.inj hempty] at hx
    cases hx
  · intro hc hf
    have hall : ((run (World.step 4) w₀
        [.createService db, .deleteService db.key]).cluster.configs.find a.key).map
          HeliosConfig.deleting = some false := by decide
    exact Option.some.inj ((congrArg (Option.map HeliosConfig.deleting) hf).symm.trans hall)

/-- **A Service is refused its own address after it was deleted and created again.** The entry and
    the mark of the first `web` stay; the second one asks for the same address, the pass fails, and
    the status has an address that nobody shows. -/
theorem address_leaked_by_deletion :
    let web : Service :=
      { key := ⟨"shop", "web"⟩, spec := { type := .loadBalancer, loadBalancerIP := "10.0.0.2" } }
    let a : HeliosConfig := { key := ⟨"default", "a"⟩, spec := { ipRange := "10.0.0.1-10.0.0.3" } }
    let w₀ : World := ⟨⟨.ofList [web], .ofList [a]⟩, newIPAllocator⟩
    let w := run (World.step 4) w₀
      [.pass a.key allOk, .deleteService web.key, .createService web, .pass a.key allOk]
    w.cluster.services.objects.map Service.ingress = [[]] ∧
      w.cluster.configs.objects.map (fun hc =>
        (StringMap.len (checkIPConflicts hc w.cluster.configs.objects),
          hc.status.allocatedIPs.lookup "web", hc.status.phase)) =
        [(0, some "10.0.0.2", .failed)] ∧
      (w.pool.allocateSpecificIP "10.0.0.1-10.0.0.3" "10.0.0.2").1 =
        .error (.alreadyAllocated "10.0.0.2") := by
  decide

end HeliosLB
