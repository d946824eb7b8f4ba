/-
  File:      HeliosLB/System/Unique.lean
  Subject:   NO ADDRESS IS HELD TWICE, over whole runs.

  The Services are the holders and the addresses in an ingress this controller wrote are what
  they hold (Lib/Holdings.lean); the stock is the pool.

  * `World.holds`, `Leased` -- the invariant: the holdings are safe, every entry is the key of an
    address, and the entries of one Service differ;
  * `Leased.assigned` -- an assignment of addresses drawn from wide ranges keeps it;
    `leased_serveServices` -- so does a pass whose failed assignment, if any, stored nothing;
  * **`no_duplicate_address`** -- hence it holds in every run from a cluster without such an
    ingress, whatever fails otherwise.
-/
import HeliosLB.Lib.Holdings
import HeliosLB.System.Steps

namespace HeliosLB

open Lib

/-! ## 1. The invariant -/

/-- The addresses the Service with a key holds in an ingress this controller wrote. -/
def World.holds (w : World) (k : NamespacedName) : Set String :=
  {a | ∃ s ∈ w.cluster.services, s.key = k ∧ s.writer ≠ none ∧ a ∈ s.ingress}

/-- **The holdings are safe.** -/
structure Leased (w : World) : Prop where
  safe : Safe (↑w.pool.used : Set String) w.holds
  address : ∀ s ∈ w.cluster.services, s.writer ≠ none → ∀ a ∈ s.ingress, ∃ x : Address, x.text = a
  entries : ∀ s ∈ w.cluster.services, s.writer ≠ none → s.ingress.Nodup

namespace Leased

variable {w w' : World}

theorem init (h : ∀ s ∈ w.cluster.services, s.writer = none) : Leased w where
  safe :=
    { taken := fun _ _ ⟨s, hs, _, hw, _⟩ => absurd (h s hs) hw
      apart := fun _ _ _ => Set.disjoint_left.mpr fun _ ⟨s, hs, _, hw, _⟩ => absurd (h s hs) hw }
  address s hs hw := absurd (h s hs) hw
  entries s hs hw := absurd (h s hs) hw

/-- Holdings that shrink, and a pool that grows. -/
theorem mono (h : Leased w)
    (hs : ∀ s ∈ w'.cluster.services, s.writer ≠ none → s ∈ w.cluster.services)
    (hu : w.pool.used ⊆ w'.pool.used) : Leased w' where
  safe := h.safe.mono (Finset.coe_subset.mpr hu) fun _ _ ⟨s, hm, hk, hw, ha⟩ =>
    ⟨s, hs s hm hw, hk, hw, ha⟩
  address s hm hw := h.address s (hs s hm hw) hw
  entries s hm hw := h.entries s (hs s hm hw) hw

theorem cosmetic (h : Leased w) {c : Cluster} (hc : Cosmetic w.cluster c) :
    Leased ⟨c, w.pool⟩ :=
  h.mono (fun _ hs _ => hc.services ▸ hs) subset_rfl

/-- **An assignment of free addresses**, put into the pool. -/
theorem assigned (h : Leased w) {pool : IPAllocator} (hp : w.pool.used ⊆ pool.used)
    {owner : NamespacedName} {ip ipv6 : String} {stored : Service}
    (hfresh : ∀ a ∈ ingressOf ip ipv6, a ∉ pool.used) (hnd : (ingressOf ip ipv6).Nodup)
    (haddr : ∀ a ∈ ingressOf ip ipv6, ∃ x : Address, x.text = a) :
    Leased ⟨w.cluster.assigned owner ip ipv6 stored,
      (ingressOf ip ipv6).foldl IPAllocator.markUsed pool⟩ := by
  have hmem : ∀ s ∈ (w.cluster.assigned owner ip ipv6 stored).services,
      (s = written owner ip ipv6 stored) ∨ (s ∈ w.cluster.services ∧ s.key ≠ stored.key) := by
    intro s hs
    rcases Store.mem_replace.mp hs with ⟨rfl, _⟩ | hs
    · exact Or.inl rfl
    · exact Or.inr hs
  refine ⟨?_, fun s hs hw => ?_, fun s hs hw => ?_⟩
  · refine h.safe.give (A := {a | a ∈ ingressOf ip ipv6}) (k := stored.key) ?_ ?_ ?_ ?_
    · exact Set.disjoint_left.mpr fun a ha hu => hfresh a ha (hp hu)
    · intro a h
      rcases h with ha | ha
      · exact IPAllocator.mem_foldl_markUsed.mpr (Or.inl (hp ha))
      · exact IPAllocator.mem_foldl_markUsed.mpr (Or.inr ha)
    · intro a h
      obtain ⟨s, hs, hk, _, ha⟩ := h
      rcases hmem s hs with rfl | ⟨_, hne⟩
      · exact ha
      · exact absurd hk hne
    · intro k hk a h
      obtain ⟨s, hs, rfl, hw, ha⟩ := h
      rcases hmem s hs with rfl | ⟨hs, _⟩
      · exact absurd rfl hk
      · exact ⟨s, hs, rfl, hw, ha⟩
  · rcases hmem s hs with rfl | ⟨hs, _⟩
    · exact haddr
    · exact h.address s hs hw
  · rcases hmem s hs with rfl | ⟨hs, _⟩
    · exact hnd
    · exact h.entries s hs hw

end Leased

/-! ## 2. What a pass keeps -/

theorem subset_marked (w : World) (hc : HeliosConfig) : w.pool.used ⊆ (w.marked hc).used :=
  fun _ ha => mem_markOthers.mpr (Or.inl ha)

/-- A failed allocation that stored nothing leaves the holdings and, with wide ranges, keeps every
    address in the pool. -/
theorem leased_failed {retries : Nat} {hc : HeliosConfig} {svc : Service} {w w' : World}
    {r : TurnReplies} {f : AllocFailure} (hi : Leased w) (hr : hc.spec.wideRanges = true)
    (ho : Outcome retries hc svc w r (.error f) w') (ht : f.torn = false) : Leased w' := by
  have hback : ∀ {l : List String}, (∀ x ∈ l, x ∉ (w.marked hc).used) →
      Leased ⟨w.cluster, (w.marked hc).rolledBack l⟩ := fun hl => by
    rw [IPAllocator.rolledBack, IPAllocator.release_mark hl]
    exact hi.mono (fun s hs _ => hs) (subset_marked w hc)
  cases ho with
  | unlisted => exact hi
  | undrawn hl hd hrel =>
      exact hback fun x hx =>
        offered_fresh (HeliosConfigSpec.wideRanges_iff.mp hr).1 ((hrel x).mp hx)
  | unassigned hl hd hn hrel => exact hback (hrel ▸ (drawn_fresh hr hd).1)
  | torn hl hd hs he hw hrel ht' =>
      rw [ht] at ht'
      cases ht'

/-- A successful allocation from wide ranges. -/
theorem leased_assigned {retries : Nat} {hc : HeliosConfig} {svc : Service} {w w' : World}
    {r : TurnReplies} {ip ipv6 : String} (hi : Leased w) (hr : hc.spec.wideRanges = true)
    (ho : Outcome retries hc svc w r (.ok (ip, ipv6)) w') : Leased w' := by
  cases ho with
  | assigned hl hd hs he =>
      obtain ⟨hfresh, hnd⟩ := drawn_fresh hr hd
      exact hi.assigned (subset_marked w hc) hfresh hnd (drawn_address hd)

/-- No failed assignment stored its write. -/
def untorn : Option AllocFailure → Bool
  | none => true
  | some f => !f.torn

/-- **The loop keeps the holdings safe**, unless a failed assignment stored its write. -/
theorem leased_serveServices {retries : Nat} {svcs : List Service} {hc : HeliosConfig} {w : World}
    (hs : Stored hc w.cluster) (hr : hc.spec.wideRanges = true) (hi : Leased w)
    (turn : Nat → TurnReplies)
    (hu : untorn (serveServices retries svcs hc w turn).1.failure = true) :
    Leased (serveServices retries svcs hc w turn).2 := by
  refine serveServices_rule (P := fun _ => True)
    (I := fun hc w => hc.spec.wideRanges = true ∧ Leased w)
    (Q := fun f w => untorn f = true → Leased w) ?_ ?_ ?_ ?_ hs ⟨hr, hi⟩ (fun _ _ => trivial) hu
  · exact fun hc w _ hi _ => hi.2
  · intro svc _ hc w r f w' c _ hi _ ho hcos hu
    exact (leased_failed hi.2 hi.1 ho (by simpa [untorn] using hu)).cosmetic hcos
  · intro svc _ hc w r ip ipv6 w' _ hi _ _ ho _
    exact leased_assigned hi.2 hi.1 ho
  · intro svc _ hc w r ip ipv6 w' _ hi _ _ ho
    exact ⟨hi.1, (leased_assigned hi.2 hi.1 ho).mono (fun s hs _ => hs) subset_rfl⟩

/-! ## 3. Runs -/

/-- The config a pass is over, if it is stored, is not being deleted and has wide ranges. -/
def passable (w : World) (req : NamespacedName) : Bool :=
  match w.cluster.configs.find req with
  | none => true
  | some hc => !hc.deleting && hc.spec.wideRanges

/-- The steps of the runs considered: a failed assignment of a pass stored nothing. -/
def orderly (retries : Nat) (w : World) : Step → Bool
  | .pass req r => passable w req && untorn (reconcile retries req w r).1.failure
  | _ => true

theorem leased_step (retries : Nat) (w : World) (a : Step) (hi : Leased w)
    (h : orderly retries w a = true) : Leased (w.step retries a) := by
  rcases a.pass_or_outside with ⟨req, r, rfl⟩ | ho
  · obtain ⟨hcfg, hu⟩ := Bool.and_eq_true_iff.mp h
    show Leased (reconcile retries req w r).2
    rcases reconcile_cases retries req w r with ⟨hcos, hp, _⟩ |
      ⟨hc₀, hc, c, hf, hcore, hcos, hs, hpass⟩
    · have hw := hi.cosmetic hcos
      rwa [← hp] at hw
    · obtain ⟨_, hdel, hspec, _⟩ := HeliosConfig.core_eq hcore
      rw [passable, hf, Bool.and_eq_true_iff, Bool.not_eq_true', ← hdel, ← hspec] at hcfg
      rcases hpass with ⟨hd, _⟩ | ⟨_, he⟩
      · rw [hcfg.1] at hd
        cases hd
      · rw [he] at hu ⊢
        exact leased_serveServices hs hcfg.2 (hi.cosmetic hcos) r.turn hu
  · obtain ⟨hsv, hp, _⟩ := World.step_outside retries w ho
    exact hi.mono hsv (hp ▸ subset_rfl)

/-- The keys of two addresses parse to different addresses if they differ. -/
theorem parseIP_ne {x y : Address} (h : x.text ≠ y.text) : parseIP x.text ≠ parseIP y.text := by
  intro e
  rw [x.parseIP_text, y.parseIP_text, Option.some.injEq] at e
  have e' := congrArg normalizeIP e
  rw [normalizeIP_to16 x.isAddr, normalizeIP_to16 y.isAddr, x.normal, y.normal] at e'
  exact h (congrArg ipString e')

/-- **No duplicate address in any run.** From a cluster in which this controller has written no
    ingress (the pool and the statuses may hold anything), after any orderly steps: an address
    that a Service holds in an ingress of this controller is in the pool's `used`, no two Services
    hold the same address in any spelling, and the entries of one Service differ. -/
theorem no_duplicate_address (retries : Nat) {w : World} {steps : List Step}
    (h₀ : ∀ s ∈ w.cluster.services, s.writer = none)
    (h : Along (World.step retries) (fun w a => orderly retries w a = true) w steps) :
    let w' := run (World.step retries) w steps
    (∀ s ∈ w'.cluster.services, s.writer ≠ none → ∀ a ∈ s.ingress, a ∈ w'.pool.used) ∧
    (∀ s ∈ w'.cluster.services, ∀ t ∈ w'.cluster.services, s.writer ≠ none → t.writer ≠ none →
      s ≠ t → ∀ a ∈ s.ingress, ∀ b ∈ t.ingress, parseIP a ≠ parseIP b) ∧
    (∀ s ∈ w'.cluster.services, s.writer ≠ none → (s.ingress.map parseIP).Nodup) := by
  intro w'
  have hi : Leased w' := run_inv (World.step retries) (leased_step retries) (.init h₀) h
  have hne : ∀ s ∈ w'.cluster.services, ∀ t ∈ w'.cluster.services, s.writer ≠ none →
      t.writer ≠ none → ∀ a ∈ s.ingress, ∀ b ∈ t.ingress, a ≠ b → parseIP a ≠ parseIP b := by
    intro s hs t ht hsw htw a ha b hb hab
    obtain ⟨x, rfl⟩ := hi.address s hs hsw a ha
    obtain ⟨y, rfl⟩ := hi.address t ht htw b hb
    exact parseIP_ne hab
  refine ⟨fun s hs hw a ha => ?_, fun s hs t ht hsw htw hst a ha b hb => ?_, fun s hs hw => ?_⟩
  · exact hi.safe.taken s.key ⟨s, hs, rfl, hw, ha⟩
  · refine hne s hs t ht hsw htw a ha b hb fun hab => hst (Store.eq_of_key hs ht ?_)
    exact hi.safe.holder_unique ⟨s, hs, rfl, hsw, ha⟩ ⟨t, ht, rfl, htw, hab ▸ hb⟩
  · refine List.Nodup.map_on (fun a ha b hb hab => ?_) (hi.entries s hs hw)
    by_contra hn
    exact hne s hs s hs hw hw a ha b hb hn hab

/-- Two overlapping configs, one of them dual-stack. The first pass assigns and cannot record it;
    the second config still draws another address, and the last pass stops at the conflict it
    finds. -/
theorem no_duplicate_address_overlapping :
    let web : Service := { key := ⟨"shop", "web"⟩, spec := { type := .loadBalancer } }
    let db : Service :=
      { key := ⟨"shop", "db"⟩, spec := { type := .loadBalancer, loadBalancerIP := "10.0.0.3" } }
    let a : HeliosConfig :=
      { key := ⟨"default", "a"⟩
        spec := { ipRange := "10.0.0.1-10.0.0.3", ipv6Range := "fd00::1-fd00::9" } }
    let b : HeliosConfig :=
      { key := ⟨"default", "b"⟩, spec := { ipRange := "10.0.0.0/29" } }
    let w : World := ⟨⟨.ofList [web], .ofList [a, b]⟩, newIPAllocator⟩
    let steps : List Step :=
      [.pass a.key { turn := fun _ => { recordStatus := .rejected (.other "timeout") } },
        .createService { web with key := ⟨"shop", "api"⟩ }, .pass b.key allOk,
        .createService db, .pass a.key allOk]
    let w' := run (World.step 4) w steps
    w'.cluster.services.objects.map Service.ingress =
        [["10.0.0.1", "fd00::1"], ["10.0.0.2"], []] ∧
      ∀ s ∈ w'.cluster.services, s.writer ≠ none → ∀ a ∈ s.ingress, a ∈ w'.pool.used := by
  exact ⟨by decide, (no_duplicate_address 4 (by decide) (by decide)).1⟩

end HeliosLB
