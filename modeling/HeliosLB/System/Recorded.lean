/-
  File:      HeliosLB/System/Recorded.lean
  Subject:   PASSES THAT RECORD WHAT THEY ASSIGN.

  An assignment and its record are separate writes. In the passes considered here every
  assignment that stored its write returns without an error, and its record is stored; everything
  else may fail. What such passes keep is proved once, for any relation between the stored config
  and the stored Services.

  * `Recorded`, `RecordedPass` -- the replies meant, for one Service and for all that a pass comes
    to; those of a pass in which nothing fails are of that kind;
  * `RecordInv` -- a relation between config and Services that one recorded assignment keeps;
  * **`reconcile_recordInv`** -- then a pass over a config that is not being deleted keeps it.
-/
import HeliosLB.System.Steps

namespace HeliosLB

open Lib

/-- **An assignment that stored its write returns without an error and is recorded.** -/
def Recorded (retries : Nat) (r : TurnReplies) : Prop :=
  (attemptsWrote retries r.attempts = true → attemptsSeen retries r.attempts = .ok ()) ∧
    r.recordStatus.stored = true

/-- The replies for the Services the pass came to are of that kind; what it would have got for the
    others does not matter. -/
def RecordedPass (retries : Nat) (req : NamespacedName) (w : World) (r : PassReplies) : Prop :=
  ∀ n < (reconcile retries req w r).1.turns, Recorded retries (r.turn n)

theorem recordedPass_allOk {r : PassReplies} (h : r.turn = allOk.turn) (retries : Nat)
    (req : NamespacedName) (w : World) : RecordedPass retries req w r :=
  fun _ _ => h ▸ ⟨fun _ => attemptsSeen_ok rfl retries, rfl⟩

/-- The config stored under a key and the stored Services are related. -/
def Holds (I : HeliosConfig → Store Service.key → Prop) (k : NamespacedName) (c : Cluster) :
    Prop :=
  ∃ hc, c.configs.find k = some hc ∧ I hc c.services

/-- **A relation between config and Services that recorded assignments keep**: it does not read
    texts and finalizers, and it holds again once a Service of `svcs` is assigned addresses and
    these are recorded. -/
structure RecordInv (I : HeliosConfig → Store Service.key → Prop) (svcs : List Service) : Prop where
  core : ∀ a b S, a.core = b.core → I a S → I b S
  served : ∀ svc ∈ svcs, ∀ hc S stored ip ipv6, I hc S → checkQuota hc = none →
    S.find svc.key = some stored →
    I (servedConfig hc svc ip ipv6) (S.replace (written hc.key ip ipv6 stored))

section

variable {I : HeliosConfig → Store Service.key → Prop} {retries : Nat} {svcs : List Service}

theorem Holds.cosmetic (hcore : ∀ a b S, a.core = b.core → I a S → I b S) {k : NamespacedName}
    {c c' : Cluster} (h : Holds I k c) (hc : Cosmetic c c') : Holds I k c' := by
  obtain ⟨a, ha, hi⟩ := h
  have e := hc.configs k
  rw [ha] at e
  obtain ⟨b, hb, hba⟩ := Option.map_eq_some_iff.mp e
  exact ⟨b, hb, hc.services ▸ hcore _ _ _ hba.symm hi⟩

/-- A failed call that stored no write left the cluster alone. -/
theorem Outcome.failed_cluster {hc : HeliosConfig} {svc : Service} {w w' : World}
    {r : TurnReplies} {f : AllocFailure} (h : Outcome retries hc svc w r (.error f) w')
    (hr : Recorded retries r) : w'.cluster = w.cluster := by
  cases h with
  | unlisted => rfl
  | undrawn => rfl
  | unassigned => rfl
  | torn _ _ _ he hw => exact absurd (hr.1 hw) he

/-- **The loop keeps the relation.** -/
theorem serveServices_recordInv (hI : RecordInv I svcs) {hc : HeliosConfig} {w : World}
    {turn : Nat → TurnReplies} (hs : Stored hc w.cluster) (hi : I hc w.cluster.services)
    (hr : ∀ n < (serveServices retries svcs hc w turn).1.turns, Recorded retries (turn n)) :
    Holds I hc.key (serveServices retries svcs hc w turn).2.cluster := by
  refine serveServices_rule (P := Recorded retries)
    (I := fun hc' w => hc'.key = hc.key ∧ I hc' w.cluster.services)
    (Q := fun _ w => Holds I hc.key w.cluster) ?_ ?_ ?_ ?_ hs ⟨rfl, hi⟩ hr
  · exact fun hc' w hs' hi' => ⟨hc', hi'.1 ▸ hs', hi'.2⟩
  · intro svc _ hc' w r f w' c hs' hi' hr' ho hcos
    rw [ho.failed_cluster hr'] at hcos
    exact Holds.cosmetic hI.core ⟨hc', hi'.1 ▸ hs', hi'.2⟩ hcos
  · intro svc _ hc' w r ip ipv6 w' _ _ hr' hun _
    rw [hr'.2] at hun
    cases hun
  · intro svc hm hc' w r ip ipv6 w' _ hi' _ hq ho
    cases ho with
    | assigned _ _ hf _ => exact ⟨hi'.1, hI.served svc hm hc' _ _ ip ipv6 hi'.2 hq hf⟩

/-- **A pass keeps the relation**, for a config that is not being deleted and if the Services it
    serves meet the condition of `RecordInv`. -/
theorem reconcile_recordInv {w : World} {req : NamespacedName} {r : PassReplies}
    (hw : Holds I req w.cluster)
    (hI : ∀ hc, w.cluster.configs.find req = some hc →
      hc.deleting = false ∧ RecordInv I (hc.eligibleServices w.cluster.services.objects))
    (hr : RecordedPass retries req w r) :
    Holds I req (reconcile retries req w r).2.cluster := by
  obtain ⟨hc₀, hf, hi⟩ := hw
  obtain ⟨hdel, hinv⟩ := hI hc₀ hf
  rcases reconcile_cases retries req w r with ⟨hcos, _⟩ |
    ⟨hc₁, hc, c, hf₁, hcore, hcos, hs, hpass⟩
  · exact Holds.cosmetic hinv.core ⟨hc₀, hf, hi⟩ hcos
  · rw [hf, Option.some.injEq] at hf₁
    subst hf₁
    obtain ⟨hkey, hdel', hspec, _⟩ := HeliosConfig.core_eq hcore
    rcases hpass with ⟨hd, _⟩ | ⟨_, he⟩
    · rw [hdel', hdel] at hd
      cases hd
    · unfold RecordedPass at hr
      rw [he, eligibleServices_congr hspec] at hr ⊢
      have hk : hc.key = req := hkey.trans (Store.find_eq_some.mp hf).2
      have hi' : I hc c.services := hcos.services ▸ hinv.core _ _ _ hcore.symm hi
      exact hk ▸ serveServices_recordInv (w := ⟨c, w.pool⟩) hinv hs hi' hr

end

end HeliosLB
