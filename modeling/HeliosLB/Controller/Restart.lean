/-
  File:      HeliosLB/Controller/Restart.lean
  Subject:   AFTER A RESTART the pool is empty while the statuses and ingresses are still there.

  Before a draw `allocateAndAssign` marks what the OTHER configs record, and nothing marks what
  the config itself recorded before the restart.

  * `HeliosConfig.recordsForOther` -- an address recorded for a different Service, be it of another
    name or of the same name in another namespace;
  * `marked_fresh_pool`, `drawn_unrequested` -- the draw from the pool of a new process: the first
    address nobody else records;
  * **`restart_safe_iff`** -- the addresses handed out after a restart are not recorded for other
    Services exactly if the config's own status does not record those first addresses for one.
-/
import HeliosLB.Controller.Plan

namespace HeliosLB

open Lib

/-- **The status records the address for a different Service.** Entries are kept under bare names:
    one of another name is another Service's, and one of the Service's own name is if another stored
    Service of that name shows the address. -/
def HeliosConfig.recordsForOther (hc : HeliosConfig) (services : Store Service.key)
    (key : NamespacedName) (ip : String) : Prop :=
  ∃ n, hc.entry n ip ∧
    (n ≠ key.name ∨ ∃ s ∈ services, s.key.name = n ∧ s.key ≠ key ∧ ip ∈ s.ingress)

theorem HeliosConfig.mem_recorded_of_recordsForOther {hc : HeliosConfig}
    {services : Store Service.key} {key : NamespacedName} {ip : String}
    (h : hc.recordsForOther services key ip) : ip ∈ hc.recorded := by
  obtain ⟨n, he, -⟩ := h
  exact mem_recorded_iff_entry.mpr ⟨n, he⟩

/-- What the other configs record, as the pool holds it. -/
def othersTaken (hc : HeliosConfig) (configs : List HeliosConfig) : Finset String :=
  (recordedByOthers hc configs).toFinset

/-- The pool of a new process after the marking loop. -/
theorem marked_fresh_pool (c : Cluster) (hc : HeliosConfig) :
    World.marked ⟨c, newIPAllocator⟩ hc = ⟨othersTaken hc c.configs.objects, defaultMaxScan⟩ := by
  refine IPAllocator.ext_used (markOthers_maxScan _ _ _) fun x => ?_
  rw [World.marked, mem_markOthers, othersTaken, List.mem_toFinset]
  exact or_iff_right (Finset.notMem_empty x)

/-- **A draw without a request, from wide ranges**: the first free address of each range. -/
theorem drawn_unrequested {spec : HeliosConfigSpec} (hw : spec.wideRanges = true)
    {pool : IPAllocator} {ip ipv6 : String} : drawn spec "" pool = some (ip, ipv6) ↔
      IPAllocator.firstFree pool.maxScan spec.ipRange pool.used = some ip ∧
      ((spec.ipv6Range = "" ∧ ipv6 = "") ∨ (spec.ipv6Range ≠ "" ∧
        IPAllocator.firstFree pool.maxScan spec.ipv6Range (insert ip pool.used) = some ipv6)) := by
  obtain ⟨hr, hr6⟩ := HeliosConfigSpec.wideRanges_iff.mp hw
  rw [drawn_eq_some, splitRequestedIP_empty]
  simp only [offered_pool, IPAllocator.offer_eq_firstFree hr,
    IPAllocator.offer_eq_firstFree hr6, IPAllocator.markUsed_used, IPAllocator.markUsed_maxScan]

/-- The first addresses of the ranges that no other config records, those of `ipv6Range` with the
    address from `ipRange` left out. -/
def FirstUnrecorded (hc : HeliosConfig) (configs : List HeliosConfig) (ip ipv6 : String) : Prop :=
  IPAllocator.firstFree defaultMaxScan hc.spec.ipRange (othersTaken hc configs) = some ip ∧
  ((hc.spec.ipv6Range = "" ∧ ipv6 = "") ∨ (hc.spec.ipv6Range ≠ "" ∧
    IPAllocator.firstFree defaultMaxScan hc.spec.ipv6Range (insert ip (othersTaken hc configs)) =
      some ipv6))

/-- **Restart safety holds exactly for configs whose own status does not record for a different
    Service the first addresses that no other config records.** The pool is the empty one of a new
    process; the Service is stored and requests no address. -/
theorem restart_safe_iff (retries : Nat) {c : Cluster} {hc : HeliosConfig} {svc : Service}
    (hs : svc ∈ c.services) (hq : svc.spec.loadBalancerIP = "") (hw : hc.spec.wideRanges = true)
    (hm : hc ∈ c.configs) :
    (∀ r ip ipv6, (allocateAndAssign retries hc svc ⟨c, newIPAllocator⟩ r).1 = .ok (ip, ipv6) →
      ∀ other ∈ c.configs, ∀ a ∈ ingressOf ip ipv6,
        ¬ other.recordsForOther c.services svc.key a) ↔
    (∀ ip ipv6, FirstUnrecorded hc c.configs.objects ip ipv6 →
      ∀ a ∈ ingressOf ip ipv6, ¬ hc.recordsForOther c.services svc.key a) := by
  have hd : ∀ ip ipv6, drawn hc.spec svc.spec.loadBalancerIP
      (World.marked ⟨c, newIPAllocator⟩ hc) = some (ip, ipv6) ↔
        FirstUnrecorded hc c.configs.objects ip ipv6 := by
    intro ip ipv6
    rw [hq, marked_fresh_pool, drawn_unrequested hw]
    rfl
  constructor
  · intro h ip ipv6 hf a ha
    have hok := allocateAndAssign_succeeds (r := {}) rfl ((hd ip ipv6).mpr hf) (Store.find_key hs)
      (attemptsSeen_ok rfl retries)
    exact h {} ip ipv6 (congrArg Prod.fst hok) hc hm a ha
  · intro h r ip ipv6 he other ho a ha
    have hdr := drawn_of_allocateAndAssign he
    by_cases hk : other.key = hc.key
    · obtain rfl : other = hc := Store.eq_of_key ho hm hk
      exact h ip ipv6 ((hd ip ipv6).mp hdr) a ha
    · -- what another config records was marked before the draw
      intro hrec
      have hused : a ∈ (World.marked ⟨c, newIPAllocator⟩ hc).used :=
        mem_markOthers.mpr (Or.inr (mem_recordedByOthers.mpr
          ⟨other, ho, hk, HeliosConfig.mem_recorded_of_recordsForOther hrec⟩))
      exact (drawn_fresh hw hdr).1 a ha hused

/-- The config records an address for `shop/db`, and one under the name `web` that no other Service
    of that name shows; another config records the first address. -/
theorem restart_safe_own_record :
    let web : Service := { key := ⟨"shop", "web"⟩, spec := { type := .loadBalancer } }
    let db : Service :=
      { key := ⟨"shop", "db"⟩, spec := { type := .loadBalancer }, ingress := ["10.0.0.3"] }
    let web' : Service :=
      { key := ⟨"default", "web"⟩, spec := { type := .loadBalancer }, ingress := ["192.0.2.9"] }
    let a : HeliosConfig :=
      { key := ⟨"default", "a"⟩, spec := { ipRange := "10.0.0.1-10.0.0.3" }
        status := { allocatedIPs :=
          ((∅ : StringMap).insert "db" "10.0.0.3").insert "web" "10.0.0.2" } }
    let b : HeliosConfig :=
      { key := ⟨"default", "b"⟩, spec := { ipRange := "10.0.0.0/24" }
        status := { allocatedIPs := (∅ : StringMap).insert "mail" "10.0.0.1" } }
    let c : Cluster := ⟨.ofList [web, db, web'], .ofList [a, b]⟩
    (allocateAndAssign 4 a web ⟨c, newIPAllocator⟩ {}).1 = .ok ("10.0.0.2", "") ∧
      ∀ r ip ipv6, (allocateAndAssign 4 a web ⟨c, newIPAllocator⟩ r).1 = .ok (ip, ipv6) →
        ∀ other ∈ c.configs, ∀ x ∈ ingressOf ip ipv6,
          ¬ other.recordsForOther c.services web.key x := by
  intro web db web' a b c
  have hs : web ∈ c.services := List.mem_cons_self
  have hm : a ∈ c.configs := List.mem_cons_self
  refine ⟨by decide, (restart_safe_iff 4 hs rfl (by decide) hm).mpr ?_⟩
  intro ip ipv6 hfirst x hx hrec
  have hip : IPAllocator.firstFree defaultMaxScan a.spec.ipRange
      (othersTaken a c.configs.objects) = some "10.0.0.2" := by decide
  obtain rfl : ip = "10.0.0.2" := Option.some.inj (hfirst.1.symm.trans hip)
  obtain rfl : ipv6 = "" := (hfirst.2.resolve_right fun h => h.1 rfl).2
  obtain rfl : x = "10.0.0.2" := List.mem_singleton.mp hx
  obtain ⟨n, he, hother⟩ := hrec
  -- the entry is the one under `web`, and the other `web` shows a different address
  have hn : n = "web" := by
    rcases he with he | he
    · by_contra hne
      rw [AList.lookup_insert_ne hne] at he
      by_cases hdb : n = "db"
      · subst hdb
        exact absurd he (by decide)
      · rw [AList.lookup_insert_ne hdb] at he
        cases he
    · cases he
  obtain ⟨s, hs, -, hne, hin⟩ := hother.resolve_left fun h => h hn
  have hshown : ∀ s ∈ c.services.objects, s.key ≠ web.key → "10.0.0.2" ∉ s.ingress := by decide
  exact hshown s hs hne hin

/-- **After a restart the address recorded for one Service goes to the next.** The config records
    `10.0.0.1` for `web`; the new process hands it to `db`. -/
theorem restart_reissues_recorded :
    let web : Service := { key := ⟨"shop", "web"⟩, spec := { type := .loadBalancer }
                           ingress := ["10.0.0.1"], writer := some ⟨"default", "a"⟩ }
    let db : Service := { key := ⟨"shop", "db"⟩, spec := { type := .loadBalancer } }
    let a : HeliosConfig :=
      { key := ⟨"default", "a"⟩, spec := { ipRange := "10.0.0.1-10.0.0.3" }
        status := { allocatedIPs := (∅ : StringMap).insert "web" "10.0.0.1" } }
    let c : Cluster := ⟨.ofList [web, db], .ofList [a]⟩
    a.spec.wideRanges = true ∧ a.eligibleServices c.services.objects = [db] ∧
      (allocateAndAssign 4 a db ⟨c, newIPAllocator⟩ {}).1 = .ok ("10.0.0.1", "") ∧
      a.recordsForOther c.services db.key "10.0.0.1" :=
  ⟨by decide, rfl, by decide, "web", Or.inl (by decide), Or.inl (by decide)⟩

/-- And to another one of the same name. -/
example :
    let web : Service := { key := ⟨"shop", "web"⟩, spec := { type := .loadBalancer }
                           ingress := ["10.0.0.1"], writer := some ⟨"default", "a"⟩ }
    let web' : Service := { key := ⟨"default", "web"⟩, spec := { type := .loadBalancer } }
    let a : HeliosConfig :=
      { key := ⟨"default", "a"⟩, spec := { ipRange := "10.0.0.1-10.0.0.3" }
        status := { allocatedIPs := (∅ : StringMap).insert "web" "10.0.0.1" } }
    let c : Cluster := ⟨.ofList [web, web'], .ofList [a]⟩
    (allocateAndAssign 4 a web' ⟨c, newIPAllocator⟩ {}).1 = .ok ("10.0.0.1", "") ∧
      a.recordsForOther c.services web'.key "10.0.0.1" :=
  ⟨by decide, "web", Or.inl (by decide), Or.inr ⟨_, List.mem_cons_self, rfl, by decide, by decide⟩⟩

end HeliosLB
