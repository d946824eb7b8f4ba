/-
  File:      HeliosLB/Controller/Rollback.lean
  Subject:   A FAILED ASSIGNMENT: what is put back into the pool, and what the Service still shows.

  The assignment is two writes in a closure that is retried; the caller puts the addresses back
  after any error. If a status write was stored and a later call fails, the Service keeps showing
  addresses the pool gives to the next one.

  * `takenAddresses`, `Reached` -- what a call takes from the pool, and whether it gets to the
    assignment;
  * `NothingTorn` -- the replies, and the state before the call, under which that does not happen;
  * **`rollback_consistent_iff`** -- under these and no others an address that a failed call put
    back is not in the stored ingress;
  * `singleInUse`, `RedrawsUsed` -- a range of one address hands it out also if it is in use, and
    a failing call that was given it frees it;
  * **`rollback_exact_iff`** -- in all other cases the pool after a failed call is the one before
    it, with what the other configs record.
-/
import HeliosLB.Controller.IPManagerSpec

namespace HeliosLB

open Lib

/-! ## 1. What the Service still shows -/

/-- The addresses a failing call takes from the pool and puts back: those of the draw, or the one
    of `ipRange` if the draw from `ipv6Range` fails. -/
def takenAddresses (hc : HeliosConfig) (svc : Service) (w : World) : List String :=
  (drawn hc.spec svc.spec.loadBalancerIP (w.marked hc)).elim
    (offered (w.marked hc) hc.spec.ipRange (splitRequestedIP svc.spec.loadBalancerIP).1).toList
    fun p => ingressOf p.1 p.2

/-- There is something to draw, so the assignment is reached. -/
def Reached (hc : HeliosConfig) (svc : Service) (w : World) : Prop :=
  (drawn hc.spec svc.spec.loadBalancerIP (w.marked hc)).isSome = true

/-- **Nothing is torn**: the assignment is reached and succeeds, or no status write of it is
    stored and the stored Service does not show an address the call takes. -/
def NothingTorn (retries : Nat) (hc : HeliosConfig) (svc : Service) (w : World)
    (r : TurnReplies) : Prop :=
  ∀ stored, w.cluster.services.find svc.key = some stored → r.listConfigs = .ok →
    (Reached hc svc w ∧ attemptsSeen retries r.attempts = .ok ()) ∨
      ((Reached hc svc w → attemptsWrote retries r.attempts = false) ∧
        ∀ a ∈ takenAddresses hc svc w, a ∉ stored.ingress)

section

variable {retries : Nat} {hc : HeliosConfig} {svc : Service} {w : World} {r : TurnReplies}

theorem reached_of_drawn {ip ipv6 : String}
    (hd : drawn hc.spec svc.spec.loadBalancerIP (w.marked hc) = some (ip, ipv6)) :
    Reached hc svc w := by
  rw [Reached, hd]
  rfl

/-- For a call that fails and stores nothing, only the ingress stored before it matters. -/
theorem nothingTorn_iff_of_unwritten (hl : r.listConfigs = .ok)
    (hn : ∀ stored, w.cluster.services.find svc.key = some stored → Reached hc svc w →
      attemptsSeen retries r.attempts ≠ .ok () ∧ attemptsWrote retries r.attempts = false) :
    NothingTorn retries hc svc w r ↔ ∀ stored, w.cluster.services.find svc.key = some stored →
      ∀ a ∈ takenAddresses hc svc w, a ∉ stored.ingress := by
  constructor
  · intro h stored hs
    rcases h stored hs hl with ⟨hr, he⟩ | ⟨_, h⟩
    · exact absurd he (hn stored hs hr).1
    · exact h
  · exact fun h stored hs _ => Or.inr ⟨fun hr => (hn stored hs hr).2, h stored hs⟩

end

/-- **The rollback is consistent exactly if nothing is torn**: then, and only then, no address
    that a failed call put back is in the ingress of the Service as stored after it. -/
theorem rollback_consistent_iff (retries : Nat) (hc : HeliosConfig) (svc : Service) (w : World)
    (r : TurnReplies) :
    (∀ f, (allocateAndAssign retries hc svc w r).1 = .error f →
      ∀ stored, (allocateAndAssign retries hc svc w r).2.cluster.services.find svc.key =
        some stored → ∀ a ∈ f.released, a ∉ stored.ingress) ↔
    NothingTorn retries hc svc w r := by
  have ho := allocateAndAssign_outcome retries hc svc w r
  generalize allocateAndAssign retries hc svc w r = out at ho
  obtain ⟨res, w'⟩ := out
  cases ho with
  | unlisted hl hr ht =>
      refine iff_of_true (fun f hf stored _ a ha => ?_) fun _ _ hl' => absurd hl' hl
      cases hf
      rw [hr] at ha
      cases ha
  | @undrawn f hl hd hr ht =>
      have htaken : ∀ a, a ∈ f.released ↔ a ∈ takenAddresses hc svc w := fun a => by
        rw [takenAddresses, hd, Option.elim_none, Option.mem_toList, hr a]
      have hunreached : ¬ Reached hc svc w := by simp [Reached, hd]
      rw [nothingTorn_iff_of_unwritten hl fun _ _ h => absurd h hunreached]
      simp only [Except.error.injEq, forall_eq', htaken]
  | @unassigned f ip ipv6 hl hd hn hr ht =>
      have htaken : f.released = takenAddresses hc svc w := by
        rw [takenAddresses, hd, Option.elim_some, hr]
      rw [nothingTorn_iff_of_unwritten hl fun stored hs _ => hn.resolve_left (by simp [hs])]
      simp only [Except.error.injEq, forall_eq', htaken]
  | @torn f ip ipv6 stored hl hd hs he hw hr ht =>
      -- what was put back is the ingress that was stored
      refine iff_of_false (fun h => ?_) fun h => ?_
      · have hmem : ip ∈ f.released := hr ▸ mem_ingressOf_left ip ipv6
        exact h f rfl _ (Cluster.assigned_find hs hc.key ip ipv6) ip hmem
          (mem_ingressOf_left ip ipv6)
      · rcases h stored hs hl with ⟨_, he'⟩ | ⟨hw', _⟩
        · exact he he'
        · rw [hw' (reached_of_drawn hd)] at hw
          cases hw
  | assigned hl hd hs he =>
      refine iff_of_true (fun f hf => ?_) fun _ _ _ => Or.inl ⟨reached_of_drawn hd, he⟩
      cases hf

/-- **The address of a torn assignment goes to the next Service.** The status write is stored, the
    plain write is refused: `web` shows `10.0.0.1`, the pool has it back, and the next call gives
    it to `db`. -/
theorem rollback_tears_assignment :
    let web : Service := { key := ⟨"shop", "web"⟩, spec := { type := .loadBalancer } }
    let db : Service := { key := ⟨"shop", "db"⟩, spec := { type := .loadBalancer } }
    let a : HeliosConfig := { key := ⟨"default", "a"⟩, spec := { ipRange := "10.0.0.1-10.0.0.3" } }
    let w : World := ⟨⟨.ofList [web, db], .ofList [a]⟩, newIPAllocator⟩
    let out := allocateAndAssign 4 a web w
      { attempts := fun _ => { update := .rejected (.other "forbidden") } }
    out.1 = .error ⟨"service update failed", "forbidden", ["10.0.0.1"], true⟩ ∧
      (out.2.cluster.services.find web.key).map Service.ingress = some ["10.0.0.1"] ∧
      out.2.pool.used = ∅ ∧
      (allocateAndAssign 4 a db out.2 {}).1 = .ok ("10.0.0.1", "") := by
  decide

/-! ## 2. What a failed call leaves in the pool -/

/-- The range is one address only, and that is in use. -/
def singleInUse (pool : IPAllocator) (ipRange : String) : Bool :=
  match parseIPRange ipRange with
  | .ok (start, stop) => ipEqual start stop ∧ ipString start ∈ pool.used
  | .error _ => false

/-- Then it is offered, whatever else is in use. -/
theorem offer_of_singleInUse {pool : IPAllocator} {r : String} (h : singleInUse pool r = true)
    (pool' : IPAllocator) : ∃ x ∈ pool.used, pool'.offer r = some x := by
  unfold singleInUse at h
  unfold IPAllocator.offer
  cases hr : parseIPRange r with
  | error e =>
      rw [hr] at h
      cases h
  | ok b =>
      rw [hr] at h
      obtain ⟨heq, hu⟩ := of_decide_eq_true h
      exact ⟨ipString b.1, hu, if_pos heq⟩

theorem singleInUse_of_offer {pool pool' : IPAllocator} {r x : String}
    (hr : IPAllocator.singleAddress r = true) (h : pool'.offer r = some x) (hx : x ∈ pool.used) :
    singleInUse pool r = true := by
  unfold IPAllocator.singleAddress at hr
  unfold IPAllocator.offer at h
  unfold singleInUse
  cases hp : parseIPRange r with
  | error e =>
      rw [hp] at hr
      cases hr
  | ok b =>
      rw [hp] at hr h
      simp only at hr h ⊢
      rw [if_pos hr] at h
      cases h
      exact decide_eq_true ⟨hr, hx⟩

/-- **An address was in use when it was offered** exactly if it is the only one of its range and
    was not asked for. -/
theorem offered_used_iff {pool pool' : IPAllocator} {r q x : String}
    (hsub : pool.used ⊆ pool'.used) (h : offered pool' r q = some x) :
    x ∈ pool.used ↔ q = "" ∧ singleInUse pool r = true := by
  constructor
  · intro hx
    obtain ⟨rfl, hr⟩ := offered_used h (hsub hx)
    rw [offered_pool] at h
    exact ⟨rfl, singleInUse_of_offer hr h hx⟩
  · intro hs
    obtain ⟨rfl, hs⟩ := hs
    obtain ⟨y, hy, ho⟩ := offer_of_singleInUse hs pool'
    rw [offered_pool, ho] at h
    cases h
    exact hy

/-- **The call draws an address that is in use**: the only one of `ipRange`, which is not asked
    for, or, if `ipRange` has an address to offer, that of `ipv6Range`. -/
def RedrawsUsed (hc : HeliosConfig) (svc : Service) (w : World) : Prop :=
  ((splitRequestedIP svc.spec.loadBalancerIP).1 = "" ∧
    singleInUse (w.marked hc) hc.spec.ipRange = true) ∨
  (hc.spec.ipv6Range ≠ "" ∧ (splitRequestedIP svc.spec.loadBalancerIP).2 = "" ∧
    singleInUse (w.marked hc) hc.spec.ipv6Range = true ∧
    (offered (w.marked hc) hc.spec.ipRange
      (splitRequestedIP svc.spec.loadBalancerIP).1).isSome = true)

instance (hc : HeliosConfig) (svc : Service) (w : World) : Decidable (RedrawsUsed hc svc w) :=
  inferInstanceAs (Decidable (_ ∨ _))

theorem IPAllocator.mem_rolledBack {pool : IPAllocator} {l : List String} {x : String} :
    x ∈ (pool.rolledBack l).used ↔ x ∈ pool.used ∧ x ∉ l := by
  unfold rolledBack
  rw [mem_foldl_releaseIP, mem_foldl_markUsed]
  tauto

/-- A rollback gives the pool back exactly if nothing it puts back was in use. -/
theorem IPAllocator.rolledBack_used {pool : IPAllocator} {l : List String} :
    (pool.rolledBack l).used = pool.used ↔ ∀ x ∈ l, x ∉ pool.used := by
  rw [Finset.ext_iff]
  simp only [mem_rolledBack, and_iff_left_iff_imp]
  exact ⟨fun h x hl hx => h x hx hl, fun h x hx hl => h x hl hx⟩

section Exact

variable {hc : HeliosConfig} {svc : Service} {w : World}

/-- What a draw that fails puts back was in use. -/
theorem redraws_of_undrawn
    (hd : drawn hc.spec svc.spec.loadBalancerIP (w.marked hc) = none) :
    RedrawsUsed hc svc w ↔ ∃ x, offered (w.marked hc) hc.spec.ipRange
      (splitRequestedIP svc.spec.loadBalancerIP).1 = some x ∧ x ∈ (w.marked hc).used := by
  unfold RedrawsUsed
  cases ho : offered (w.marked hc) hc.spec.ipRange
      (splitRequestedIP svc.spec.loadBalancerIP).1 with
  | none =>
      refine iff_of_false (fun h => ?_) fun h => by simp at h
      rcases h with ⟨hq, hs⟩ | ⟨_, _, _, hsome⟩
      · obtain ⟨x, _, hx⟩ := offer_of_singleInUse hs (w.marked hc)
        rw [hq, offered_pool, hx] at ho
        cases ho
      · cases hsome
  | some ip =>
      have hno : ¬ ((splitRequestedIP svc.spec.loadBalancerIP).2 = "" ∧
          singleInUse (w.marked hc) hc.spec.ipv6Range = true) := by
        intro h
        obtain ⟨x, _, hx⟩ := offer_of_singleInUse h.2 ((w.marked hc).markUsed ip)
        unfold drawn at hd
        rw [ho] at hd
        simp only [h.1, offered_pool, hx] at hd
        split at hd <;> cases hd
      have hu := offered_used_iff (Finset.Subset.refl _) ho
      rw [← hu]
      simp only [Option.some.injEq, exists_eq_left']
      exact or_iff_left fun h => hno ⟨h.2.1, h.2.2.1⟩

/-- What a draw that succeeds takes was in use. -/
theorem redraws_of_drawn {ip ipv6 : String}
    (hd : drawn hc.spec svc.spec.loadBalancerIP (w.marked hc) = some (ip, ipv6)) :
    RedrawsUsed hc svc w ↔ ∃ x ∈ ingressOf ip ipv6, x ∈ (w.marked hc).used := by
  obtain ⟨h4, h6⟩ := drawn_eq_some.mp hd
  have hu4 := offered_used_iff (Finset.Subset.refl _) h4
  unfold RedrawsUsed
  rw [h4, ← hu4]
  rcases h6 with ⟨he, rfl⟩ | ⟨he, h6⟩
  · simp [he, ingressOf]
  · have hu6 := @offered_used_iff (w.marked hc) _ _ _ _ (Finset.subset_insert _ _) h6
    rw [ingressOf_dual (offered_ne_empty h6)]
    simp [he, hu6]

/-- **The rollback is exact unless an address in use was drawn**: after a failed call the pool
    holds what it held before and what the other configs record, if they could be listed, exactly
    if the call does not draw the only address of a range that is in use. -/
theorem rollback_exact_iff {retries : Nat} {r : TurnReplies} {f : AllocFailure}
    (hf : (allocateAndAssign retries hc svc w r).1 = .error f) :
    (allocateAndAssign retries hc svc w r).2.pool.used = w.pool.used ∪
        (if r.listConfigs = .ok then (recordedByOthers hc w.cluster.configs.objects).toFinset
          else ∅) ↔
      ¬ (r.listConfigs = .ok ∧ RedrawsUsed hc svc w) := by
  have hmarked : w.pool.used ∪ (recordedByOthers hc w.cluster.configs.objects).toFinset =
      (w.marked hc).used := by
    ext x
    rw [Finset.mem_union, List.mem_toFinset, World.marked, mem_markOthers]
  have ho := allocateAndAssign_outcome retries hc svc w r
  rw [hf] at ho
  generalize (allocateAndAssign retries hc svc w r).2 = w' at ho ⊢
  cases ho with
  | unlisted hl _ _ =>
      rw [if_neg hl, Finset.union_empty]
      exact iff_of_true rfl fun h => hl h.1
  | undrawn hl hd hr _ =>
      rw [if_pos hl, hmarked, IPAllocator.rolledBack_used, redraws_of_undrawn hd]
      simp [hl, hr]
  | unassigned hl hd _ hr _ =>
      rw [if_pos hl, hmarked, IPAllocator.rolledBack_used, redraws_of_drawn hd, hr]
      simp [hl]
  | torn hl hd _ _ _ hr _ =>
      rw [if_pos hl, hmarked, IPAllocator.rolledBack_used, redraws_of_drawn hd, hr]
      simp [hl]

end Exact

/-- A refused write after a draw from a range with two free addresses. -/
theorem rollback_exact_refused :
    let web : Service := { key := ⟨"shop", "web"⟩, spec := { type := .loadBalancer } }
    let a : HeliosConfig := { key := ⟨"default", "a"⟩, spec := { ipRange := "10.0.0.1-10.0.0.3" } }
    let w : World := ⟨⟨.ofList [web], .ofList [a]⟩, ⟨{"10.0.0.2"}, 65536⟩⟩
    let r : TurnReplies := { attempts := fun _ => { get := .failed .notFound } }
    (allocateAndAssign 4 a web w r).2.pool.used =
      {"10.0.0.2"} ∪ (recordedByOthers a [a]).toFinset := by
  intro web a w r
  have hf : (allocateAndAssign 4 a web w r).1 =
      .error ⟨"service update failed", "not found", ["10.0.0.1"], false⟩ := by decide
  have hfresh : ¬ (r.listConfigs = .ok ∧ RedrawsUsed a web w) := by decide
  exact (rollback_exact_iff hf).mpr hfresh

/-- **The rollback frees an address that another Service holds**: the only address of the range is
    in use when it is drawn again, the write to the Service is refused, and the pool loses it. -/
theorem rollback_frees_used :
    let db : Service := { key := ⟨"shop", "db"⟩, spec := { type := .loadBalancer } }
    let web : Service :=
      { key := ⟨"shop", "web"⟩, spec := { type := .loadBalancer }, ingress := ["10.0.0.1"] }
    let a : HeliosConfig := { key := ⟨"default", "a"⟩, spec := { ipRange := "10.0.0.1" } }
    let w : World := ⟨⟨.ofList [web, db], .ofList [a]⟩, ⟨{"10.0.0.1"}, 65536⟩⟩
    let out := allocateAndAssign 4 a db w
      { attempts := fun _ => { statusUpdate := .rejected (.other "forbidden") } }
    out.1 = .error ⟨"service update failed", "forbidden", ["10.0.0.1"], false⟩ ∧
      "10.0.0.1" ∈ w.pool.used ∧ out.2.pool.used = ∅ := by
  decide

end HeliosLB
