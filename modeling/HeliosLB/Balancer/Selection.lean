/-
  File:      HeliosLB/Balancer/Selection.lean
  Subject:   WHICH BACKEND A CALL OF `NextBackend` IS GIVEN: a registered healthy one if there is
             one, else none, and where the five algorithms keep to that.

  * `Serves` -- the contract, over one list and one answer;
  * `EarliestLeast`, `leastConnectionLoop_spec` -- the running minimum of least connection, and
    **`leastConnectionSelect_least_iff`** -- where it is the minimum of the healthy ones;
  * `Algorithm.Fit` -- the states in which an algorithm meets it. The hash and the random choice
    always do. Round robin never looks at the health flag, so it does when the backend whose turn
    it is happens to be healthy. Least connection starts its minimum at the largest `int32` and
    compares strictly, so a count that high is passed over. The weighted sum is taken modulo
    `2^64`, and zero stands for "no healthy backend";
  * `select_serves_iff` -- one call; `nextBackend_serves_iff` -- every run.
-/
import HeliosLB.Balancer.LoadBalancer

namespace HeliosLB

open Lib

/-! ## 1. The contract -/

/-- **A registered healthy backend if there is one, and none otherwise.** -/
def Serves (heap : Heap) (backends : List Ref) (r : Option Ref) : Prop :=
  ((∃ b ∈ backends, (heap b).isHealthy = true) →
    ∃ b ∈ backends, (heap b).isHealthy = true ∧ r = some b) ∧
  ((¬ ∃ b ∈ backends, (heap b).isHealthy = true) → r = none)

variable {heap : Heap} {backends : List Ref}

theorem serves_some {b : Ref} :
    Serves heap backends (some b) ↔ b ∈ backends ∧ (heap b).isHealthy = true := by
  constructor
  · intro h
    by_cases he : ∃ b ∈ backends, (heap b).isHealthy = true
    · obtain ⟨c, hc, hh, e⟩ := h.1 he
      obtain rfl := Option.some.inj e
      exact ⟨hc, hh⟩
    · cases h.2 he
  · intro h
    exact ⟨fun _ => ⟨b, h.1, h.2, rfl⟩, fun he => absurd ⟨b, h⟩ he⟩

theorem serves_none :
    Serves heap backends none ↔ ¬ ∃ b ∈ backends, (heap b).isHealthy = true := by
  constructor
  · intro h he
    obtain ⟨_, _, _, e⟩ := h.1 he
    cases e
  · intro h
    exact ⟨fun he => absurd he h, fun _ => rfl⟩

theorem healthyBackends_eq_nil :
    healthyBackends heap backends = [] ↔ ¬ ∃ b ∈ backends, (heap b).isHealthy = true := by
  simp [healthyBackends, List.filter_eq_nil_iff]

/-- An index reduced by `uint32(len)` is in the list. -/
theorem index_lt (x : UInt32) {n : Nat} (h : 0 < n) : (x % UInt32.ofNat n).toNat < n := by
  have hx := x.toNat_lt
  rw [UInt32.toNat_mod, UInt32.toNat_ofNat']
  rcases Nat.eq_zero_or_pos (n % 2 ^ 32) with h0 | h0
  · -- the length is a multiple of `2^32`, at least that
    rw [h0, Nat.mod_zero]
    omega
  · have := Nat.mod_lt x.toNat h0
    have := Nat.mod_le n (2 ^ 32)
    omega

/-- A choice out of the healthy ones by an index in range keeps the contract. -/
theorem serves_healthy_index {i : Nat}
    (hi : 0 < (healthyBackends heap backends).length →
      i < (healthyBackends heap backends).length) :
    Serves heap backends (if (healthyBackends heap backends).isEmpty then none
      else (healthyBackends heap backends)[i]?) := by
  by_cases he : healthyBackends heap backends = []
  · rw [if_pos (List.isEmpty_iff.mpr he)]
    exact serves_none.mpr (healthyBackends_eq_nil.mp he)
  · have hlt := hi (List.length_pos_iff.mpr he)
    rw [if_neg (fun h => he (List.isEmpty_iff.mp h)), List.getElem?_eq_getElem hlt]
    exact serves_some.mpr (mem_healthyBackends.mp (List.getElem_mem hlt))

/-! ## 2. Least connection -/

/-- **The earliest healthy backend with the fewest connections**: no healthy one has fewer, and
    the healthy ones before it have more. -/
def EarliestLeast (heap : Heap) (l : List Ref) (b : Ref) : Prop :=
  ∃ before after, l = before ++ b :: after ∧ (heap b).isHealthy = true ∧
    (∀ c ∈ before, (heap c).isHealthy = true → (heap b).connections < (heap c).connections) ∧
    ∀ c ∈ after, (heap c).isHealthy = true → (heap b).connections ≤ (heap c).connections

theorem EarliestLeast.mem {l : List Ref} {b : Ref} (h : EarliestLeast heap l b) :
    b ∈ l ∧ (heap b).isHealthy = true := by
  obtain ⟨before, after, rfl, hh, _, _⟩ := h
  exact ⟨List.mem_append_right _ List.mem_cons_self, hh⟩

/-- A backend in front that is failed or has more connections changes nothing. -/
theorem EarliestLeast.cons {l : List Ref} {b c : Ref} (h : EarliestLeast heap l b)
    (hc : (heap c).isHealthy = true → (heap b).connections < (heap c).connections) :
    EarliestLeast heap (c :: l) b := by
  obtain ⟨before, after, rfl, hh, hbefore, hafter⟩ := h
  exact ⟨c :: before, after, rfl, hh, List.forall_mem_cons.mpr ⟨hc, hbefore⟩, hafter⟩

/-- **What the loop finds**: the earliest least one of the list if that is below `least`, and what
    it had before if none is. -/
theorem leastConnectionLoop_spec (l : List Ref) (least : Int32) (best : Option Ref) :
    (∃ b, EarliestLeast heap l b ∧ (heap b).connections < least ∧
      leastConnectionLoop heap l least best = some b) ∨
    ((∀ b ∈ l, (heap b).isHealthy = true → ¬ (heap b).connections < least) ∧
      leastConnectionLoop heap l least best = best) := by
  induction l generalizing least best with
  | nil => exact .inr ⟨fun b hb => (List.not_mem_nil hb).elim, rfl⟩
  | cons c l ih =>
      rw [leastConnectionLoop]
      by_cases hh : (heap c).isHealthy = true
      · by_cases hc : (heap c).connections < least
        · -- `c` is the one to beat from here on
          rw [if_pos hh, if_pos hc]
          rcases ih (heap c).connections (some c) with ⟨b, hb, hlt, e⟩ | ⟨hall, e⟩
          · exact .inl ⟨b, hb.cons fun _ => hlt, Int32.lt_trans hlt hc, e⟩
          · refine .inl ⟨c, ⟨[], l, rfl, hh, fun x hx => (List.not_mem_nil hx).elim, ?_⟩, hc, e⟩
            exact fun x hx hxh => Int32.not_lt.mp (hall x hx hxh)
        · rw [if_pos hh, if_neg hc]
          rcases ih least best with ⟨b, hb, hlt, e⟩ | ⟨hall, e⟩
          · exact .inl ⟨b, hb.cons fun _ => Int32.lt_of_lt_of_le hlt (Int32.not_lt.mp hc), hlt, e⟩
          · exact .inr ⟨List.forall_mem_cons.mpr ⟨fun _ => hc, hall⟩, e⟩
      · rw [if_neg hh]
        rcases ih least best with ⟨b, hb, hlt, e⟩ | ⟨hall, e⟩
        · exact .inl ⟨b, hb.cons fun h => absurd h hh, hlt, e⟩
        · exact .inr ⟨List.forall_mem_cons.mpr ⟨fun h => absurd h hh, hall⟩, e⟩

/-- The selection is the earliest least one, or there is none below the largest count. -/
theorem leastConnectionSelect_cases (heap : Heap) (l : List Ref) :
    (∃ b, EarliestLeast heap l b ∧ (heap b).connections < maxConn ∧
      leastConnectionSelect heap l = some b) ∨
    ((∀ b ∈ l, (heap b).isHealthy = true → ¬ (heap b).connections < maxConn) ∧
      leastConnectionSelect heap l = none) :=
  leastConnectionLoop_spec l maxConn none

/-- **Least connection is a true minimum, short of the largest count**: none is returned exactly if
    none is healthy, and else the earliest healthy one with the fewest connections, exactly if,
    in case one is healthy, a healthy one has fewer than `2^31 - 1` connections. -/
theorem leastConnectionSelect_least_iff (heap : Heap) (l : List Ref) :
    ((leastConnectionSelect heap l = none ↔ ¬ ∃ b ∈ l, (heap b).isHealthy = true) ∧
      ((∃ b ∈ l, (heap b).isHealthy = true) →
        ∃ b, leastConnectionSelect heap l = some b ∧ EarliestLeast heap l b)) ↔
    ((∃ b ∈ l, (heap b).isHealthy = true) →
      ∃ b ∈ l, (heap b).isHealthy = true ∧ (heap b).connections < maxConn) := by
  rcases leastConnectionSelect_cases heap l with ⟨b, hb, hlt, e⟩ | ⟨hall, e⟩
  · obtain ⟨hm, hh⟩ := hb.mem
    rw [e]
    refine iff_of_true ⟨iff_of_false (Option.some_ne_none b) fun hn => hn ⟨b, hm, hh⟩, fun _ => ?_⟩
      fun _ => ⟨b, hm, hh, hlt⟩
    exact ⟨b, rfl, hb⟩
  · have hnone : ¬ ∃ b ∈ l, (heap b).isHealthy = true ∧ (heap b).connections < maxConn :=
      fun ⟨b, hm, hh, hlt⟩ => hall b hm hh hlt
    rw [e]
    refine ⟨fun h hex => absurd hex (h.1.mp rfl), fun h => ?_⟩
    have hun : ¬ ∃ b ∈ l, (heap b).isHealthy = true := fun hex => hnone (h hex)
    exact ⟨iff_of_true rfl hun, fun hex => absurd hex hun⟩

/-- **A healthy backend is passed over**: the one whose count has reached the largest `int32`. -/
theorem leastConnectionSelect_misses_full :
    let heap : Heap := fun _ =>
      { address := "10.0.0.1", healthy := 1, connections := 2147483647, serviceName := "web" }
    (heap 0).isHealthy = true ∧ leastConnectionSelect heap [0] = none := by
  decide

/-! ## 3. Weighted round robin -/

theorem weightedWalk_mem {entries : List (Ref × Int64)} {point : Int64} {b : Ref}
    (h : weightedWalk entries point = some b) : b ∈ entries.map Prod.fst := by
  induction entries generalizing point with
  | nil => cases h
  | cons e entries ih =>
      obtain ⟨c, w⟩ := e
      rw [weightedWalk] at h
      by_cases hp : point - w < 0
      · rw [if_pos hp] at h
        obtain rfl := Option.some.inj h
        exact List.mem_cons_self
      · rw [if_neg hp] at h
        exact List.mem_cons_of_mem _ (ih h)

theorem weightedPick_mem {entries : List (Ref × Int64)} (he : entries ≠ []) (current : UInt32) :
    ∃ b ∈ entries.map Prod.fst, weightedPick entries current = some b := by
  rw [weightedPick]
  cases hw : weightedWalk entries (weightedPoint entries current) with
  | some b => exact ⟨b, weightedWalk_mem hw, rfl⟩
  | none =>
      obtain ⟨e, rest, rfl⟩ := List.exists_cons_of_ne_nil he
      exact ⟨e.1, List.mem_cons_self, rfl⟩

theorem map_fst_weighed (weights : List Weight) :
    (weighed weights heap backends).map Prod.fst = healthyBackends heap backends := by
  rw [weighed, List.map_map]
  exact List.map_id _

/-! ## 4. One call and every run -/

/-- **Where an algorithm keeps the contract**, by what it reads before the call. -/
def Algorithm.Fit (a : Algorithm) (heap : Heap) (backends : List Ref) (serviceName : String) :
    Prop :=
  match a with
  | .roundRobin states =>
    ∀ b, backends[(states.next serviceName % UInt32.ofNat backends.length).toNat]? = some b →
      (heap b).isHealthy = true
  | .leastConnection =>
    (∃ b ∈ backends, (heap b).isHealthy = true) →
      ∃ b ∈ backends, (heap b).isHealthy = true ∧ (heap b).connections < maxConn
  | .weightedRoundRobin _ weights =>
    (∃ b ∈ backends, (heap b).isHealthy = true) →
      totalWeight (weighed weights heap backends) ≠ 0
  | .ipHash | .random => True

theorem roundRobin_serves_iff {states : Counters} {s : String} :
    Serves heap backends (roundRobinSelect states backends s).1 ↔
      (Algorithm.roundRobin states).Fit heap backends s := by
  cases hb : backends with
  | nil => exact iff_of_true (serves_none.mpr (by simp)) (by intro b h; cases h)
  | cons c l =>
      rw [← hb]
      have hlt := index_lt (states.next s) (n := backends.length) (by rw [hb]; exact Nat.succ_pos _)
      have hne : ¬ backends.isEmpty = true := by rw [hb]; exact Bool.false_ne_true
      simp only [roundRobinSelect, if_neg hne, Algorithm.Fit, List.getElem?_eq_getElem hlt,
        serves_some, Option.some.injEq, forall_eq']
      exact and_iff_right (List.getElem_mem hlt)

theorem leastConnection_serves_iff {s : String} :
    Serves heap backends (leastConnectionSelect heap backends) ↔
      Algorithm.leastConnection.Fit heap backends s := by
  rcases leastConnectionSelect_cases heap backends with ⟨b, hb, hlt, e⟩ | ⟨hall, e⟩
  · obtain ⟨hm, hh⟩ := hb.mem
    rw [e]
    exact iff_of_true (serves_some.mpr hb.mem) fun _ => ⟨b, hm, hh, hlt⟩
  · rw [e, serves_none]
    refine ⟨fun hn he => absurd he hn, fun hf he => ?_⟩
    obtain ⟨b, hb, hh, hlt⟩ := hf he
    exact hall b hb hh hlt

theorem weightedRoundRobin_serves_iff {states : Counters} {weights : List Weight} {s : String} :
    Serves heap backends (weightedRoundRobinSelect states weights heap backends s).1 ↔
      (Algorithm.weightedRoundRobin states weights).Fit heap backends s := by
  by_cases he : backends.isEmpty = true
  · obtain rfl := List.isEmpty_iff.mp he
    exact iff_of_true (serves_none.mpr (by simp)) fun h => by simp at h
  · rw [weightedRoundRobinSelect, if_neg he]
    by_cases ht : totalWeight (weighed weights heap backends) = 0
    · simp only [ht, if_true, serves_none, Algorithm.Fit, ne_eq, not_true_eq_false, imp_false]
    · refine iff_of_true ?_ fun _ => ht
      have hne : weighed weights heap backends ≠ [] := fun e => ht (by rw [e]; rfl)
      obtain ⟨b, hb, e⟩ := weightedPick_mem hne (states.next s)
      rw [map_fst_weighed] at hb
      simp only [if_neg ht, e]
      exact serves_some.mpr (mem_healthyBackends.mp hb)

theorem select_serves_iff {a : Algorithm} {s clientIP : String} {draw : Nat} :
    Serves heap backends (a.select heap backends s clientIP draw).1 ↔ a.Fit heap backends s := by
  cases a with
  | roundRobin states => exact roundRobin_serves_iff
  | leastConnection => exact leastConnection_serves_iff
  | weightedRoundRobin states weights => exact weightedRoundRobin_serves_iff
  | ipHash => exact iff_of_true (serves_healthy_index (index_lt _)) trivial
  | random => exact iff_of_true (serves_healthy_index (Nat.mod_lt _)) trivial

namespace LoadBalancer

/-- The answer of a `NextBackend` call keeps the contract. -/
def AnswersRight (lb : LoadBalancer) : Call → Prop
  | .nextBackend s clientIP draw =>
    Serves lb.heap (lb.registered s) (lb.nextBackend s clientIP draw).1
  | _ => True

/-- The algorithm is fit for the call in the state it is made in. -/
def FitFor (lb : LoadBalancer) : Call → Prop
  | .nextBackend s _ _ => lb.algorithm.Fit lb.heap (lb.registered s) s
  | _ => True

theorem nextBackend_fst (lb : LoadBalancer) (s clientIP : String) (draw : Nat) :
    (lb.nextBackend s clientIP draw).1 = if (lb.registered s).isEmpty then none
      else (lb.algorithm.select lb.heap (lb.registered s) s clientIP draw).1 := by
  rw [nextBackend]
  split <;> rfl

theorem answersRight_iff_fitFor (lb : LoadBalancer) (c : Call) :
    lb.AnswersRight c ↔ lb.FitFor c := by
  cases c with
  | nextBackend s clientIP draw =>
      have h := @select_serves_iff lb.heap (lb.registered s) lb.algorithm s clientIP draw
      rw [AnswersRight, FitFor, ← h, nextBackend_fst]
      by_cases he : (lb.registered s).isEmpty = true
      · have hs : ∀ r, Serves lb.heap (lb.registered s) r ↔ r = none := by
          intro r
          rw [List.isEmpty_iff.mp he]
          simp [Serves]
        rw [if_pos he]
        refine iff_of_true ((hs _).mpr rfl) (h.mpr ?_)
        rw [List.isEmpty_iff.mp he]
        cases lb.algorithm <;> simp [Algorithm.Fit]
      · rw [if_neg he]
  | _ => exact Iff.rfl

/-- **A run answers every `NextBackend` call with a registered healthy backend, or with none if
    there is none, exactly if the algorithm is fit for each of these calls.** -/
theorem nextBackend_serves_iff (balancerType : BalancerType) (weights : List Weight) (heap : Heap)
    (calls : List Call) :
    Along step AnswersRight (newLoadBalancer balancerType weights heap) calls ↔
      Along step FitFor (newLoadBalancer balancerType weights heap) calls :=
  along_congr step answersRight_iff_fitFor _ calls

/-- The healthy backend 0 and the failed backend 1 of one service: the first turn of round robin
    goes to the failed one. With one backend at the largest count, least connection finds none. -/
theorem nextBackend_serves_failed :
    let heap : Heap := fun b =>
      { address := if b = 0 then "10.0.0.1" else "10.0.0.2", serviceName := "web",
        connections := if b = 0 then 0 else 2147483647, weight := 1 }
    let rr := run step (newLoadBalancer .roundRobin [] heap)
      [.addBackend 0, .addBackend 1, .setHealthy 0 true, .setHealthy 1 false]
    let lc := run step (newLoadBalancer .leastConnection [] heap)
      [.addBackend 1, .setHealthy 1 true]
    (rr.registered "web" = [0, 1] ∧ (rr.heap 0).isHealthy = true ∧
      (rr.heap 1).isHealthy = false ∧ (rr.nextBackend "web" "" 0).1 = some 1) ∧
    (lc.registered "web" = [1] ∧ (lc.heap 1).isHealthy = true ∧
      (lc.nextBackend "web" "" 0).1 = none) := by
  decide

end LoadBalancer

end HeliosLB
