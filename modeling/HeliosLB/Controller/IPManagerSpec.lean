/-
  File:      HeliosLB/Controller/IPManagerSpec.lean
  Subject:   WHAT ALLOCATION AND ASSIGNMENT DO (about Controller/IPManager.lean).

  Everything later uses the results here and does not unfold the manager's functions.

  * `recordedByOthers`, `markOthers_eq` -- the marking loop adds what the OTHER configs record;
  * `drawn` -- which addresses a draw hands out, as a function of spec, request and pool;
    `drawAddresses_cases` says the source draws exactly these;
  * `drawn_fresh` -- with ranges of two addresses or more they are free and differ;
  * `written`, `Cluster.assigned`, `assignIPToService_of_find` -- an assignment either stored
    nothing, or exactly the Service with the new ingress, however often it was retried;
  * **`Outcome`, `allocateAndAssign_outcome`** -- all that a call of `allocateAndAssign` can do;
  * `Compared`, `mem_checkIPConflicts` -- the addresses the conflict check finds;
    `Conflicting`, `checkIPConflicts_len` -- when it finds nothing.
-/
import HeliosLB.Controller.IPManager
import HeliosLB.Network.Lease
import Mathlib.Data.Finset.Dedup
import Mathlib.Data.Finset.SDiff

namespace HeliosLB

open Lib

/-! ## 1. Marking and releasing several addresses -/

namespace IPAllocator

@[simp] theorem foldl_markUsed_maxScan (l : List String) (a : IPAllocator) :
    (l.foldl markUsed a).maxScan = a.maxScan := by
  induction l generalizing a with
  | nil => rfl
  | cons x l ih => exact ih (a.markUsed x)

theorem mem_foldl_markUsed {l : List String} {a : IPAllocator} {x : String} :
    x ∈ (l.foldl markUsed a).used ↔ x ∈ a.used ∨ x ∈ l := by
  induction l generalizing a with
  | nil => simp
  | cons y l ih =>
      rw [List.foldl_cons, ih, markUsed_used, Finset.mem_insert, List.mem_cons]
      tauto

@[simp] theorem foldl_releaseIP_maxScan (l : List String) (a : IPAllocator) :
    (l.foldl releaseIP a).maxScan = a.maxScan := by
  induction l generalizing a with
  | nil => rfl
  | cons x l ih => exact ih (a.releaseIP x)

theorem mem_foldl_releaseIP {l : List String} {a : IPAllocator} {x : String} :
    x ∈ (l.foldl releaseIP a).used ↔ x ∈ a.used ∧ x ∉ l := by
  induction l generalizing a with
  | nil => simp
  | cons y l ih =>
      rw [List.foldl_cons, ih, releaseIP_used, Finset.mem_erase, List.mem_cons]
      tauto

theorem ext_used {a b : IPAllocator} (hn : a.maxScan = b.maxScan)
    (h : ∀ x, x ∈ a.used ↔ x ∈ b.used) : a = b := by
  obtain ⟨ua, na⟩ := a
  obtain ⟨ub, nb⟩ := b
  obtain rfl : ua = ub := Finset.ext h
  obtain rfl : na = nb := hn
  rfl

theorem foldl_markUsed_of_subset {l : List String} {a : IPAllocator} (h : ∀ x ∈ l, x ∈ a.used) :
    l.foldl markUsed a = a := by
  refine ext_used (by simp) fun x => ?_
  rw [mem_foldl_markUsed]
  exact or_iff_left_of_imp (h x)

/-- What is marked once more stays marked. -/
theorem foldl_markUsed_again (others l : List String) (a : IPAllocator) :
    others.foldl markUsed (l.foldl markUsed (others.foldl markUsed a)) =
      l.foldl markUsed (others.foldl markUsed a) :=
  foldl_markUsed_of_subset fun _ hx =>
    mem_foldl_markUsed.mpr (Or.inl (mem_foldl_markUsed.mpr (Or.inr hx)))

/-- **The rollback of free addresses gives the pool back.** -/
theorem release_mark {l : List String} {a : IPAllocator} (h : ∀ x ∈ l, x ∉ a.used) :
    l.foldl releaseIP (l.foldl markUsed a) = a := by
  refine ext_used (by simp) fun x => ?_
  rw [mem_foldl_releaseIP, mem_foldl_markUsed]
  constructor
  · intro h
    obtain ⟨hx | hx, hn⟩ := h
    · exact hx
    · exact absurd hx hn
  · exact fun hx => ⟨Or.inl hx, fun hl => h x hl hx⟩

end IPAllocator

/-- What the configs other than `hc` record. -/
def recordedByOthers (hc : HeliosConfig) (configs : List HeliosConfig) : List String :=
  (configs.filter fun other => other.key ≠ hc.key).flatMap HeliosConfig.recorded

theorem mem_recordedByOthers {hc : HeliosConfig} {configs : List HeliosConfig} {x : String} :
    x ∈ recordedByOthers hc configs ↔
      ∃ other ∈ configs, other.key ≠ hc.key ∧ x ∈ other.recorded := by
  simp only [recordedByOthers, List.mem_flatMap, List.mem_filter, decide_eq_true_eq, and_assoc]

/-- **The marking loop marks what the others record.** -/
theorem markOthers_eq (hc : HeliosConfig) (pool : IPAllocator) (configs : List HeliosConfig) :
    markOthers hc pool configs = (recordedByOthers hc configs).foldl IPAllocator.markUsed pool := by
  unfold markOthers recordedByOthers
  induction configs generalizing pool with
  | nil => rfl
  | cons other configs ih =>
      rw [List.foldl_cons, ih]
      by_cases h : other.key = hc.key
      · rw [if_pos h, List.filter_cons_of_neg (by simpa using h)]
      · rw [if_neg h, List.filter_cons_of_pos (by simpa using h), List.flatMap_cons,
          List.foldl_append]

theorem mem_markOthers {hc : HeliosConfig} {pool : IPAllocator} {configs : List HeliosConfig}
    {x : String} : x ∈ (markOthers hc pool configs).used ↔
      x ∈ pool.used ∨ x ∈ recordedByOthers hc configs := by
  rw [markOthers_eq, IPAllocator.mem_foldl_markUsed]

@[simp] theorem markOthers_maxScan (hc : HeliosConfig) (pool : IPAllocator)
    (configs : List HeliosConfig) : (markOthers hc pool configs).maxScan = pool.maxScan := by
  rw [markOthers_eq, IPAllocator.foldl_markUsed_maxScan]

/-! ## 2. The draw -/

/-- No request for either family. -/
theorem splitRequestedIP_empty : splitRequestedIP "" = ("", "") := by decide

/-- What `IPManager.allocateIP` hands out. -/
def offered (pool : IPAllocator) (ipRange requested : String) : Option String :=
  if requested = "" then pool.offer ipRange else pool.grant ipRange requested

theorem offered_pool (pool : IPAllocator) (r : String) : offered pool r "" = pool.offer r :=
  if_pos rfl

theorem allocateIP_cases (pool : IPAllocator) (r q : String) :
    (∃ s, offered pool r q = some s ∧ allocateIP pool r q = (.ok s, pool.markUsed s)) ∨
      (∃ e, offered pool r q = none ∧ allocateIP pool r q = (.error e, pool)) := by
  unfold offered allocateIP
  split
  · exact pool.allocateIP_eq r
  · exact pool.allocateSpecificIP_eq r q

theorem offered_address {pool : IPAllocator} {r q s : String} (h : offered pool r q = some s) :
    ∃ x : Address, x.text = s := by
  unfold offered at h
  split at h
  · exact IPAllocator.offer_address h
  · exact IPAllocator.grant_address h

theorem offered_fresh {pool : IPAllocator} {r q s : String}
    (hr : IPAllocator.singleAddress r = false) (h : offered pool r q = some s) :
    s ∉ pool.used := by
  unfold offered at h
  split at h
  · exact IPAllocator.offer_fresh hr h
  · exact IPAllocator.grant_fresh h

namespace IPAllocator

/-- The only address of a range is offered whatever is in use. -/
theorem offer_single {r : String} (hr : singleAddress r = true) (a b : IPAllocator) :
    a.offer r = b.offer r := by
  unfold singleAddress at hr
  unfold offer
  rcases hp : parseIPRange r with e | ⟨start, stop⟩
  · rfl
  · rw [hp] at hr
    simp only at hr ⊢
    rw [if_pos hr, if_pos hr]

end IPAllocator

/-- An address that was offered although in use is the only one of its range, and was not asked
    for. -/
theorem offered_used {pool : IPAllocator} {r q ip : String} (h : offered pool r q = some ip)
    (hu : ip ∈ pool.used) : q = "" ∧ IPAllocator.singleAddress r = true := by
  unfold offered at h
  split at h
  · rename_i hq
    refine ⟨hq, ?_⟩
    by_contra hr
    exact IPAllocator.offer_fresh (by simpa using hr) h hu
  · exact absurd hu (IPAllocator.grant_fresh h)

theorem Address.text_ne_empty (x : Address) : x.text ≠ "" := by
  intro h
  have e := x.parseIP_text
  have e0 : parseIP "" = none := by decide
  rw [h, e0] at e
  cases e

theorem offered_ne_empty {pool : IPAllocator} {r q s : String} (h : offered pool r q = some s) :
    s ≠ "" := by
  obtain ⟨x, rfl⟩ := offered_address h
  exact x.text_ne_empty

/-- The addresses a draw hands out from a pool in which the others' addresses are marked. -/
def drawn (spec : HeliosConfigSpec) (requested : String) (pool : IPAllocator) :
    Option (String × String) :=
  match offered pool spec.ipRange (splitRequestedIP requested).1 with
  | none => none
  | some ip =>
    if spec.ipv6Range = "" then some (ip, "")
    else
      match offered (pool.markUsed ip) spec.ipv6Range (splitRequestedIP requested).2 with
      | none => none
      | some ipv6 => some (ip, ipv6)

theorem ingressOf_dual {ip ipv6 : String} (h : ipv6 ≠ "") : ingressOf ip ipv6 = [ip, ipv6] :=
  if_pos h

theorem mem_ingressOf_left (ip ipv6 : String) : ip ∈ ingressOf ip ipv6 := by
  unfold ingressOf
  split <;> exact List.mem_cons_self

theorem mem_ingressOf_right {ip ipv6 : String} (h : ipv6 ≠ "") : ipv6 ∈ ingressOf ip ipv6 := by
  rw [ingressOf_dual h]
  exact List.mem_cons_of_mem _ (List.mem_singleton_self ipv6)

theorem ingressOf_ne_nil (ip ipv6 : String) : ingressOf ip ipv6 ≠ [] := by
  unfold ingressOf
  split <;> exact List.cons_ne_nil _ _

/-- **`drawAddresses` hands out what is drawn**, and takes exactly that from the pool. If it
    fails, it put back what it took: nothing, or the address of `ipRange`. -/
theorem drawAddresses_cases (hc : HeliosConfig) (svc : Service) (configs : List HeliosConfig)
    (pool : IPAllocator) :
    (∃ ip ipv6, drawn hc.spec svc.spec.loadBalancerIP (markOthers hc pool configs) =
          some (ip, ipv6) ∧
        drawAddresses hc svc configs pool = (.ok (ip, ipv6),
          (ingressOf ip ipv6).foldl IPAllocator.markUsed (markOthers hc pool configs))) ∨
      ∃ f, drawn hc.spec svc.spec.loadBalancerIP (markOthers hc pool configs) = none ∧
        f.torn = false ∧
        (∀ x, x ∈ f.released ↔ offered (markOthers hc pool configs) hc.spec.ipRange
          (splitRequestedIP svc.spec.loadBalancerIP).1 = some x) ∧
        drawAddresses hc svc configs pool = (.error f, f.released.foldl IPAllocator.releaseIP
          (f.released.foldl IPAllocator.markUsed (markOthers hc pool configs))) := by
  unfold drawn drawAddresses
  simp only
  generalize markOthers hc pool configs = p
  generalize splitRequestedIP svc.spec.loadBalancerIP = q
  rcases allocateIP_cases p hc.spec.ipRange q.1 with ⟨ip, ho, ha⟩ | ⟨e, ho, ha⟩
  · rw [ho, ha]
    simp only
    by_cases h6 : hc.spec.ipv6Range = ""
    · rw [if_pos h6, if_pos h6]
      exact Or.inl ⟨ip, "", rfl, rfl⟩
    · rw [if_neg h6, if_neg h6]
      rcases allocateIP_cases (p.markUsed ip) hc.spec.ipv6Range q.2 with ⟨ipv6, ho6, ha6⟩ |
        ⟨e, ho6, ha6⟩
      · rw [ho6, ha6]
        refine Or.inl ⟨ip, ipv6, rfl, ?_⟩
        rw [ingressOf_dual (offered_ne_empty ho6)]
        rfl
      · rw [ho6, ha6]
        refine Or.inr ⟨⟨"IPv6 allocation failed", e.message, [ip], false⟩, rfl, rfl, ?_, rfl⟩
        intro x
        rw [List.mem_singleton, Option.some.injEq, eq_comm]
  · rw [ho, ha]
    refine Or.inr ⟨⟨"IPv4 allocation failed", e.message, [], false⟩, rfl, rfl, ?_, rfl⟩
    simp

/-- Neither range parses to one address only. -/
def HeliosConfigSpec.wideRanges (spec : HeliosConfigSpec) : Bool :=
  !IPAllocator.singleAddress spec.ipRange && !IPAllocator.singleAddress spec.ipv6Range

theorem HeliosConfigSpec.wideRanges_iff {spec : HeliosConfigSpec} : spec.wideRanges = true ↔
    IPAllocator.singleAddress spec.ipRange = false ∧
      IPAllocator.singleAddress spec.ipv6Range = false := by
  simp [wideRanges]

/-- What `drawn` means, range by range. -/
theorem drawn_eq_some {spec : HeliosConfigSpec} {q : String} {pool : IPAllocator}
    {ip ipv6 : String} : drawn spec q pool = some (ip, ipv6) ↔
      offered pool spec.ipRange (splitRequestedIP q).1 = some ip ∧
      ((spec.ipv6Range = "" ∧ ipv6 = "") ∨ (spec.ipv6Range ≠ "" ∧
        offered (pool.markUsed ip) spec.ipv6Range (splitRequestedIP q).2 = some ipv6)) := by
  unfold drawn
  cases ho : offered pool spec.ipRange (splitRequestedIP q).1 with
  | none => simp
  | some ip' =>
      by_cases h6 : spec.ipv6Range = ""
      · simp only [h6, if_true, Option.some.injEq, Prod.mk.injEq, ne_eq, not_true, false_and,
          or_false, true_and]
        exact and_congr_right fun _ => eq_comm
      · simp only [h6, if_false, Option.some.injEq, false_and, ne_eq, not_false_eq_true, true_and,
          false_or]
        constructor
        · intro h
          cases ho6 : offered (pool.markUsed ip') spec.ipv6Range (splitRequestedIP q).2 with
          | none =>
              rw [ho6] at h
              cases h
          | some ipv6' =>
              rw [ho6] at h
              cases h
              exact ⟨rfl, ho6⟩
        · intro h
          obtain ⟨rfl, ho6⟩ := h
          rw [ho6]

/-- Every address of a draw is the key of an address. -/
theorem drawn_address {spec : HeliosConfigSpec} {q : String} {pool : IPAllocator}
    {ip ipv6 : String} (h : drawn spec q pool = some (ip, ipv6)) :
    ∀ a ∈ ingressOf ip ipv6, ∃ x : Address, x.text = a := by
  obtain ⟨h4, ⟨_, rfl⟩ | ⟨_, h6⟩⟩ := drawn_eq_some.mp h
  · intro a ha
    rw [List.mem_singleton.mp ha]
    exact offered_address h4
  · rw [ingressOf_dual (offered_ne_empty h6)]
    intro a ha
    rcases List.mem_pair.mp ha with rfl | rfl
    · exact offered_address h4
    · exact offered_address h6

/-- **With wide ranges a draw hands out free addresses, and two different ones if two.** -/
theorem drawn_fresh {spec : HeliosConfigSpec} {q : String} {pool : IPAllocator} {ip ipv6 : String}
    (hw : spec.wideRanges = true) (h : drawn spec q pool = some (ip, ipv6)) :
    (∀ a ∈ ingressOf ip ipv6, a ∉ pool.used) ∧ (ingressOf ip ipv6).Nodup := by
  obtain ⟨hr, hr6⟩ := HeliosConfigSpec.wideRanges_iff.mp hw
  obtain ⟨h4, ⟨_, rfl⟩ | ⟨_, h6⟩⟩ := drawn_eq_some.mp h
  · refine ⟨fun a ha => ?_, List.nodup_singleton ip⟩
    rw [List.mem_singleton.mp ha]
    exact offered_fresh hr h4
  · have f4 := offered_fresh hr h4
    have f6 := offered_fresh hr6 h6
    rw [IPAllocator.markUsed_used, Finset.mem_insert, not_or] at f6
    rw [ingressOf_dual (offered_ne_empty h6)]
    refine ⟨fun a ha => ?_, ?_⟩
    · rcases List.mem_pair.mp ha with rfl | rfl
      · exact f4
      · exact f6.2
    · exact List.nodup_cons.mpr ⟨fun e => f6.1 (List.mem_singleton.mp e).symm,
        List.nodup_singleton ipv6⟩

/-! ## 3. The assignment -/

/-- The Service as `assignIPToService` stores it. -/
def written (owner : NamespacedName) (ip ipv6 : String) (stored : Service) : Service :=
  { stored with
    annotations := stored.annotations.insert "balancer.helios.dev/load-balancer-class"
      loadBalancerClassHelios
    ingress := ingressOf ip ipv6
    writer := some owner }

@[simp] theorem written_key (owner : NamespacedName) (ip ipv6 : String) (svc : Service) :
    (written owner ip ipv6 svc).key = svc.key := rfl

@[simp] theorem written_writer (owner : NamespacedName) (ip ipv6 : String) (svc : Service) :
    (written owner ip ipv6 svc).writer = some owner := rfl

/-- Writing again changes nothing. -/
theorem written_written (owner : NamespacedName) (ip ipv6 : String) (svc : Service) :
    written owner ip ipv6 (written owner ip ipv6 svc) = written owner ip ipv6 svc := by
  unfold written
  simp

/-- The cluster after the assignment was stored. -/
def Cluster.assigned (c : Cluster) (owner : NamespacedName) (ip ipv6 : String)
    (stored : Service) : Cluster :=
  { c with services := c.services.replace (written owner ip ipv6 stored) }

@[simp] theorem Cluster.assigned_configs (c : Cluster) (owner : NamespacedName) (ip ipv6 : String)
    (stored : Service) : (c.assigned owner ip ipv6 stored).configs = c.configs := rfl

theorem Cluster.assigned_find {c : Cluster} {k : NamespacedName} {stored : Service}
    (h : c.services.find k = some stored) (owner : NamespacedName) (ip ipv6 : String) :
    (c.assigned owner ip ipv6 stored).services.find k = some (written owner ip ipv6 stored) :=
  Store.find_replace h (Store.find_eq_some.mp h).2

theorem Cluster.assigned_find_ne {c : Cluster} {k key : NamespacedName} {stored : Service}
    (h : c.services.find k = some stored) (hne : key ≠ k) (owner : NamespacedName)
    (ip ipv6 : String) :
    (c.assigned owner ip ipv6 stored).services.find key = c.services.find key :=
  Store.find_replace_ne fun e => hne (e.symm.trans (Store.find_eq_some.mp h).2)

/-- What the caller of a write sees. -/
def WriteReply.seen : WriteReply → Except ApiError Unit
  | .ok => .ok ()
  | .rejected e => .error e
  | .lost text => .error (.other text)

/-- What one run of the closure returns for a stored Service. -/
def AttemptReplies.seen (r : AttemptReplies) : Except ApiError Unit :=
  match r.get, r.statusUpdate.seen with
  | .failed e, _ => .error e
  | .ok, .error e => .error e
  | .ok, .ok () => r.update.seen

/-- The status write of the closure is reached and stored. -/
def AttemptReplies.wrote (r : AttemptReplies) : Bool := r.get = .ok ∧ r.statusUpdate.stored

theorem AttemptReplies.wrote_of_seen {r : AttemptReplies} (h : r.seen = .ok ()) :
    r.wrote = true := by
  obtain ⟨g, s, u⟩ := r
  unfold AttemptReplies.seen at h
  unfold AttemptReplies.wrote
  cases g with
  | failed e => cases h
  | ok => cases s <;> first | rfl | cases h

/-- What the closure under `RetryOnConflict` returns for a stored Service. -/
def attemptsSeen : Nat → (Nat → AttemptReplies) → Except ApiError Unit
  | 0, rs => (rs 0).seen
  | n + 1, rs =>
    if (rs 0).seen = .error .conflict then attemptsSeen n fun k => rs (k + 1) else (rs 0).seen

/-- A status write of one of its runs is stored. -/
def attemptsWrote : Nat → (Nat → AttemptReplies) → Bool
  | 0, rs => (rs 0).wrote
  | n + 1, rs =>
    (rs 0).wrote ||
      (decide ((rs 0).seen = .error .conflict) && attemptsWrote n fun k => rs (k + 1))

/-- The cluster after an assignment that stored its write, or did not. -/
def Cluster.assignedIf (c : Cluster) (wrote : Bool) (owner : NamespacedName) (ip ipv6 : String)
    (stored : Service) : Cluster :=
  if wrote then c.assigned owner ip ipv6 stored else c

section Assignment

variable {c : Cluster} {svc stored : Service} (owner : NamespacedName) (ip ipv6 : String)

/-- The plain write of the closure stores what the status write stored. -/
theorem updateService_assigned (h : c.services.find stored.key = some stored) (r : WriteReply) :
    (c.assigned owner ip ipv6 stored).updateService (written owner ip ipv6 stored) r =
      (c.assigned owner ip ipv6 stored).commit r (written owner ip ipv6 stored)
        (c.assigned owner ip ipv6 stored) := by
  rw [Cluster.updateService_of_find (written_key owner ip ipv6 stored)
    (Cluster.assigned_find h owner ip ipv6)]
  congr 1
  unfold Cluster.assigned
  simp only [Cluster.mk.injEq, and_true]
  exact Store.replace_replace rfl

/-- **The closure on a stored Service.** -/
theorem assignAttempt_of_find (h : c.services.find svc.key = some stored) (r : AttemptReplies) :
    assignAttempt owner svc ip ipv6 c r =
      ⟨r.seen, c.assignedIf r.wrote owner ip ipv6 stored, r.wrote⟩ := by
  have hs := Store.find_key (Store.find_eq_some.mp h).1
  unfold assignAttempt AttemptReplies.seen AttemptReplies.wrote
  cases r.get with
  | failed e => rfl
  | ok =>
      rw [h]
      simp only
      rw [Cluster.updateServiceStatus_of_find _ hs]
      · cases r.statusUpdate with
        | rejected e => rfl
        | lost text => rfl
        | ok =>
            have hu := updateService_assigned owner ip ipv6 hs r.update
            unfold Cluster.assigned written at hu
            simp only [Cluster.commit]
            rw [hu]
            cases r.update <;> rfl
      · rfl

/-- Without the Service the closure stores nothing. -/
theorem assignAttempt_of_none (h : c.services.find svc.key = none) (r : AttemptReplies) :
    ∃ e, assignAttempt owner svc ip ipv6 c r = ⟨.error e, c, false⟩ := by
  unfold assignAttempt
  cases r.get with
  | failed e => exact ⟨e, rfl⟩
  | ok =>
      rw [h]
      exact ⟨.notFound, rfl⟩

/-- A second assignment of the same addresses finds the first one and changes nothing. -/
theorem Cluster.assignedIf_assignedIf (h : c.services.find svc.key = some stored) (b b' : Bool) :
    ∃ stored', (c.assignedIf b owner ip ipv6 stored).services.find svc.key = some stored' ∧
      (c.assignedIf b owner ip ipv6 stored).assignedIf b' owner ip ipv6 stored' =
        c.assignedIf (b || b') owner ip ipv6 stored := by
  cases b with
  | false => exact ⟨stored, h, rfl⟩
  | true =>
      refine ⟨written owner ip ipv6 stored, Cluster.assigned_find h owner ip ipv6, ?_⟩
      cases b' with
      | false => rfl
      | true =>
          unfold Cluster.assignedIf Cluster.assigned
          simp only [if_true, Bool.or_self, written_written, Cluster.mk.injEq, and_true]
          exact Store.replace_replace rfl

/-- **The assignment of a stored Service**, over all its retries. -/
theorem assignIPToService_of_find : ∀ (n : Nat) {c : Cluster} {stored : Service}
    (rs : Nat → AttemptReplies), c.services.find svc.key = some stored →
    assignIPToService owner svc ip ipv6 n c rs =
      ⟨attemptsSeen n rs, c.assignedIf (attemptsWrote n rs) owner ip ipv6 stored,
        attemptsWrote n rs⟩
  | 0, _, _, rs, h => assignAttempt_of_find owner ip ipv6 h (rs 0)
  | n + 1, c, stored, rs, h => by
      rw [assignIPToService, assignAttempt_of_find owner ip ipv6 h, attemptsSeen, attemptsWrote]
      by_cases hc : (rs 0).seen = .error .conflict
      · obtain ⟨stored', h', e⟩ := Cluster.assignedIf_assignedIf owner ip ipv6 h (rs 0).wrote
          (attemptsWrote n fun k => rs (k + 1))
        simp only [hc, if_true, decide_true, Bool.true_and]
        rw [assignIPToService_of_find n _ h', e]
      · simp [hc]

theorem assignIPToService_of_none (h : c.services.find svc.key = none) :
    ∀ (n : Nat) (rs : Nat → AttemptReplies),
      ∃ e, assignIPToService owner svc ip ipv6 n c rs = ⟨.error e, c, false⟩
  | 0, rs => assignAttempt_of_none owner ip ipv6 h (rs 0)
  | n + 1, rs => by
      obtain ⟨e, he⟩ := assignAttempt_of_none owner ip ipv6 h (rs 0)
      rw [assignIPToService, he]
      simp only
      split
      · obtain ⟨e', he'⟩ := assignIPToService_of_none h n fun k => rs (k + 1)
        exact ⟨e', by rw [he']; rfl⟩
      · exact ⟨e, rfl⟩

end Assignment

/-- A successful assignment stored its write. -/
theorem attemptsWrote_of_seen : ∀ (n : Nat) (rs : Nat → AttemptReplies),
    attemptsSeen n rs = .ok () → attemptsWrote n rs = true
  | 0, rs, h => AttemptReplies.wrote_of_seen h
  | n + 1, rs, h => by
      rw [attemptsSeen] at h
      rw [attemptsWrote]
      split at h
      · rename_i hc
        rw [attemptsWrote_of_seen n _ h, hc]
        simp
      · rw [AttemptReplies.wrote_of_seen h, Bool.true_or]

/-! ## 4. The call as a whole -/

/-- The pool with the addresses of the configs other than `hc` marked. -/
def World.marked (w : World) (hc : HeliosConfig) : IPAllocator :=
  markOthers hc w.pool w.cluster.configs.objects

/-- The pool after addresses were taken and put back. -/
def IPAllocator.rolledBack (pool : IPAllocator) (l : List String) : IPAllocator :=
  l.foldl IPAllocator.releaseIP (l.foldl IPAllocator.markUsed pool)

/-- **All that `allocateAndAssign` can do**: what it returns, the world after it, and the replies
    under which it does so. -/
inductive Outcome (retries : Nat) (hc : HeliosConfig) (svc : Service) (w : World)
    (r : TurnReplies) : Except AllocFailure (String × String) → World → Prop where
  | unlisted {f : AllocFailure} (hl : r.listConfigs ≠ .ok) (hr : f.released = [])
      (ht : f.torn = false) : Outcome retries hc svc w r (.error f) w
  | undrawn {f : AllocFailure} (hl : r.listConfigs = .ok)
      (hd : drawn hc.spec svc.spec.loadBalancerIP (w.marked hc) = none)
      (hr : ∀ x, x ∈ f.released ↔ offered (w.marked hc) hc.spec.ipRange
        (splitRequestedIP svc.spec.loadBalancerIP).1 = some x) (ht : f.torn = false) :
      Outcome retries hc svc w r (.error f) ⟨w.cluster, (w.marked hc).rolledBack f.released⟩
  | unassigned {f : AllocFailure} {ip ipv6 : String} (hl : r.listConfigs = .ok)
      (hd : drawn hc.spec svc.spec.loadBalancerIP (w.marked hc) = some (ip, ipv6))
      (hn : w.cluster.services.find svc.key = none ∨
        (attemptsSeen retries r.attempts ≠ .ok () ∧ attemptsWrote retries r.attempts = false))
      (hr : f.released = ingressOf ip ipv6) (ht : f.torn = false) :
      Outcome retries hc svc w r (.error f) ⟨w.cluster, (w.marked hc).rolledBack f.released⟩
  | torn {f : AllocFailure} {ip ipv6 : String} {stored : Service} (hl : r.listConfigs = .ok)
      (hd : drawn hc.spec svc.spec.loadBalancerIP (w.marked hc) = some (ip, ipv6))
      (hs : w.cluster.services.find svc.key = some stored)
      (he : attemptsSeen retries r.attempts ≠ .ok ())
      (hw : attemptsWrote retries r.attempts = true)
      (hr : f.released = ingressOf ip ipv6) (ht : f.torn = true) :
      Outcome retries hc svc w r (.error f)
        ⟨w.cluster.assigned hc.key ip ipv6 stored, (w.marked hc).rolledBack f.released⟩
  | assigned {ip ipv6 : String} {stored : Service} (hl : r.listConfigs = .ok)
      (hd : drawn hc.spec svc.spec.loadBalancerIP (w.marked hc) = some (ip, ipv6))
      (hs : w.cluster.services.find svc.key = some stored)
      (he : attemptsSeen retries r.attempts = .ok ()) :
      Outcome retries hc svc w r (.ok (ip, ipv6)) ⟨w.cluster.assigned hc.key ip ipv6 stored,
        (ingressOf ip ipv6).foldl IPAllocator.markUsed (w.marked hc)⟩

theorem allocateAndAssign_outcome (retries : Nat) (hc : HeliosConfig) (svc : Service) (w : World)
    (r : TurnReplies) : Outcome retries hc svc w r (allocateAndAssign retries hc svc w r).1
      (allocateAndAssign retries hc svc w r).2 := by
  unfold allocateAndAssign
  cases hl : r.listConfigs with
  | failed e => exact .unlisted (by simp [hl]) rfl rfl
  | ok =>
      rcases drawAddresses_cases hc svc w.cluster.configs.objects w.pool with
        ⟨ip, ipv6, hd, he⟩ | ⟨f, hd, ht, hr, he⟩
      · rw [he]
        simp only
        cases hs : w.cluster.services.find svc.key with
        | none =>
            obtain ⟨e, ha⟩ := assignIPToService_of_none hc.key ip ipv6 hs retries r.attempts
            rw [ha]
            exact .unassigned hl hd (Or.inl hs) rfl rfl
        | some stored =>
            rw [assignIPToService_of_find hc.key ip ipv6 retries r.attempts hs]
            cases hsn : attemptsSeen retries r.attempts with
            | ok u =>
                rw [attemptsWrote_of_seen _ _ hsn]
                exact .assigned hl hd hs hsn
            | error e =>
                have hne : attemptsSeen retries r.attempts ≠ .ok () := by simp [hsn]
                cases hwr : attemptsWrote retries r.attempts with
                | false => exact .unassigned hl hd (Or.inr ⟨hne, hwr⟩) rfl rfl
                | true => exact .torn hl hd hs hne hwr rfl rfl
      · rw [he]
        exact .undrawn hl hd hr ht

/-- A successful call handed out what was drawn. -/
theorem drawn_of_allocateAndAssign {retries : Nat} {hc : HeliosConfig} {svc : Service} {w : World}
    {r : TurnReplies} {ip ipv6 : String}
    (h : (allocateAndAssign retries hc svc w r).1 = .ok (ip, ipv6)) :
    drawn hc.spec svc.spec.loadBalancerIP (w.marked hc) = some (ip, ipv6) := by
  have ho := allocateAndAssign_outcome retries hc svc w r
  rw [h] at ho
  generalize (allocateAndAssign retries hc svc w r).2 = w' at ho
  cases ho with
  | assigned _ hd _ _ => exact hd

/-- **When it succeeds**: the configs are listed, there is something to draw, the Service is
    stored, and the assignment returns no error. -/
theorem allocateAndAssign_succeeds {retries : Nat} {hc : HeliosConfig} {svc stored : Service}
    {w : World} {r : TurnReplies} {ip ipv6 : String} (hl : r.listConfigs = .ok)
    (hd : drawn hc.spec svc.spec.loadBalancerIP (w.marked hc) = some (ip, ipv6))
    (hs : w.cluster.services.find svc.key = some stored)
    (he : attemptsSeen retries r.attempts = .ok ()) :
    allocateAndAssign retries hc svc w r =
      (.ok (ip, ipv6), ⟨w.cluster.assigned hc.key ip ipv6 stored,
        (ingressOf ip ipv6).foldl IPAllocator.markUsed (w.marked hc)⟩) := by
  have ho := allocateAndAssign_outcome retries hc svc w r
  generalize allocateAndAssign retries hc svc w r = out at ho ⊢
  obtain ⟨res, w'⟩ := out
  cases ho with
  | unlisted hl' => exact absurd hl hl'
  | undrawn _ hd' =>
      rw [hd] at hd'
      cases hd'
  | unassigned _ _ hn =>
      rcases hn with hn | hn
      · rw [hs] at hn
        cases hn
      · exact absurd he hn.1
  | torn _ _ _ he' => exact absurd he he'
  | assigned _ hd' hs' _ =>
      rw [hd] at hd'
      rw [hs] at hs'
      cases hd'
      cases hs'
      rfl

/-- With every call of the assignment answered it succeeds. -/
theorem attemptsSeen_ok {rs : Nat → AttemptReplies} (h : rs 0 = {}) (n : Nat) :
    attemptsSeen n rs = .ok () := by
  have e : (rs 0).seen = .ok () := by rw [h]; rfl
  cases n with
  | zero => exact e
  | succ n => rw [attemptsSeen, e, if_neg (by simp)]

/-! ## 5. Conflicts -/

theorem StringMap.mem_foldl_insert {p : (_ : String) × String → Bool}
    {f : (_ : String) × String → String} {x : String} (l : List ((_ : String) × String))
    (m : StringMap) :
    x ∈ l.foldl (fun m e => if p e then m.insert e.2 (f e) else m) m ↔
      x ∈ m ∨ ∃ e ∈ l, p e = true ∧ e.2 = x := by
  induction l generalizing m with
  | nil => simp
  | cons e l ih =>
      rw [List.foldl_cons, ih, List.exists_mem_cons_iff]
      cases hp : p e with
      | false => simp
      | true =>
          simp only [if_true, AList.mem_insert, true_and]
          rw [eq_comm, or_comm (a := e.2 = x), or_assoc]

/-- An address the conflict check finds with the other config: one of `allocatedIPs` in `ipRange`,
    or one of `allocatedIPv6s` in a set `ipv6Range`. -/
def Compared (hc other : HeliosConfig) (x : String) : Prop :=
  (x ∈ StringMap.values other.status.allocatedIPs ∧ ipInRange x hc.spec.ipRange = true) ∨
    (hc.spec.ipv6Range ≠ "" ∧ x ∈ StringMap.values other.status.allocatedIPv6s ∧
      ipInRange x hc.spec.ipv6Range = true)

theorem exists_entries_iff {m : StringMap} {r x : String} :
    (∃ e ∈ m.entries, ipInRange e.2 r = true ∧ e.2 = x) ↔
      x ∈ StringMap.values m ∧ ipInRange x r = true := by
  unfold StringMap.values
  rw [List.mem_map]
  constructor
  · intro h
    obtain ⟨e, he, hp, rfl⟩ := h
    exact ⟨⟨e, he, rfl⟩, hp⟩
  · intro h
    obtain ⟨⟨e, he, rfl⟩, hp⟩ := h
    exact ⟨e, he, hp, rfl⟩

theorem mem_conflictsWith {hc other : HeliosConfig} {m : StringMap} {x : String} :
    x ∈ conflictsWith hc other m ↔ x ∈ m ∨ Compared hc other x := by
  unfold conflictsWith Compared
  by_cases h6 : hc.spec.ipv6Range = ""
  · simp only [h6, ne_eq, not_true, if_false, false_and, or_false]
    rw [StringMap.mem_foldl_insert, exists_entries_iff]
  · simp only [h6, ne_eq, not_false_eq_true, if_true, true_and]
    rw [StringMap.mem_foldl_insert, StringMap.mem_foldl_insert, exists_entries_iff,
      exists_entries_iff, or_assoc]

/-- **The addresses `checkIPConflicts` finds.** -/
theorem mem_checkIPConflicts {hc : HeliosConfig} {configs : List HeliosConfig} {x : String} :
    x ∈ checkIPConflicts hc configs ↔
      ∃ other ∈ configs, other.key ≠ hc.key ∧ Compared hc other x := by
  have h : ∀ m : StringMap, x ∈ configs.foldl (fun m other =>
      if other.key = hc.key then m else conflictsWith hc other m) m ↔ x ∈ m ∨
        ∃ other ∈ configs, other.key ≠ hc.key ∧ Compared hc other x := by
    induction configs with
    | nil => simp
    | cons other configs ih =>
        intro m
        rw [List.foldl_cons, ih, List.exists_mem_cons_iff]
        by_cases hk : other.key = hc.key
        · simp [hk]
        · rw [if_neg hk, mem_conflictsWith, or_assoc]
          simp only [ne_eq, hk, not_false_eq_true, true_and]
  rw [checkIPConflicts, h ∅]
  exact or_iff_right (AList.notMem_empty x)

/-- The other config records an address that lies in a range of this one. -/
def Conflicting (hc other : HeliosConfig) : Prop :=
  (∃ a ∈ StringMap.values other.status.allocatedIPs, ipInRange a hc.spec.ipRange = true) ∨
    (hc.spec.ipv6Range ≠ "" ∧
      ∃ a ∈ StringMap.values other.status.allocatedIPv6s, ipInRange a hc.spec.ipv6Range = true)

theorem conflicting_iff {hc other : HeliosConfig} :
    Conflicting hc other ↔ ∃ x, Compared hc other x := by
  unfold Conflicting Compared
  rw [exists_or, exists_and_left]

theorem StringMap.len_eq_zero {m : StringMap} : StringMap.len m = 0 ↔ ∀ x, x ∉ m := by
  unfold StringMap.len
  rw [List.length_eq_zero_iff, List.eq_nil_iff_forall_not_mem]
  rfl

/-- **`checkIPConflicts` finds nothing exactly if no other config conflicts.** -/
theorem checkIPConflicts_len {hc : HeliosConfig} {configs : List HeliosConfig} :
    StringMap.len (checkIPConflicts hc configs) = 0 ↔
      ∀ other ∈ configs, other.key ≠ hc.key → ¬ Conflicting hc other := by
  rw [StringMap.len_eq_zero]
  constructor
  · intro h other hm hk hc
    obtain ⟨x, hx⟩ := conflicting_iff.mp hc
    exact h x (mem_checkIPConflicts.mpr ⟨other, hm, hk, hx⟩)
  · intro h x hx
    obtain ⟨other, hm, hk, hx⟩ := mem_checkIPConflicts.mp hx
    exact h other hm hk (conflicting_iff.mpr ⟨x, hx⟩)

end HeliosLB
