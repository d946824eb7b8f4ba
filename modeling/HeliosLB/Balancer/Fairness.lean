/-
  File:      HeliosLB/Balancer/Fairness.lean
  Subject:   WHAT THE ALGORITHMS ADD UP TO OVER A RUN of calls (`Select` of round robin and of least
             connection in internal/loadbalancer/algorithms.go).

  Round robin. The counter of a service counts its `NextBackend` calls, so while the list stays the
  answers walk round it (`roundRobin_answers`), whatever else is called in between.
  * **`roundRobin_fair`** -- any two registered backends were answered equally often, give or take
    one, in every stretch of calls that leaves the list.

  Least connection. A client is given a backend by `NextBackend` and counts its connection by
  `IncrementConnections` later; between the two others choose by counts that do not show it.
  * `Sessions` -- the balancer with the backends given and not yet counted;
  * **`leastConnection_spread`** -- with at most `k` of these at a time, the counts of two healthy
    backends stay within `k` of each other, or below what they were at the start.
-/
import HeliosLB.Balancer.Isolation
import HeliosLB.Balancer.Selection
import HeliosLB.Lib.Shares
import Mathlib.Algebra.Order.Group.Nat

namespace HeliosLB

open Lib

namespace LoadBalancer

/-! ## 1. Round robin -/

/-- The counter of the service, if the algorithm keeps one. -/
def rounds (lb : LoadBalancer) (s : String) : Option UInt32 :=
  match lb.algorithm with
  | .roundRobin states => some ((states s).getD 0)
  | _ => none

/-- The length of the list of a service. -/
theorem length_registered_step (lb : LoadBalancer) (s : String) (c : Call) :
    ((lb.step c).registered s).length ≤ (lb.registered s).length + 1 := by
  have hupdate : ∀ (lb' : LoadBalancer) (name : String) (l : List Ref),
      lb'.backends = Function.update lb.backends name (some l) →
      l.length ≤ (lb.registered name).length + 1 →
      (lb'.registered s).length ≤ (lb.registered s).length + 1 := by
    intro lb' name l e hl
    by_cases hs : s = name
    · subst hs
      rw [registered, e, Function.update_self]
      exact hl
    · rw [registered, e, Function.update_of_ne hs]
      exact Nat.le_succ _
  cases c with
  | addBackend b =>
      rw [step, addBackend]
      split
      · exact hupdate _ _ [b] rfl (Nat.le_add_left _ _)
      · rename_i l hl
        refine hupdate _ _ (l ++ [b]) rfl ?_
        rw [registered, hl, List.length_append]
        exact Nat.le_refl _
  | removeBackend address serviceName =>
      rw [step, removeBackend]
      split
      · exact Nat.le_succ _
      · rename_i l hl
        refine hupdate _ _ _ rfl ?_
        rw [registered, hl]
        exact Nat.le_succ_of_le (List.length_eraseP_le)
  | nextBackend serviceName clientIP draw =>
      rw [step, nextBackend]
      split <;> exact Nat.le_succ _
  | setHealthy | incrementConnections | decrementConnections => exact Nat.le_succ _

theorem rounds_eq_some {lb : LoadBalancer} {s : String} {n : UInt32} (h : lb.rounds s = some n) :
    ∃ states, lb.algorithm = .roundRobin states ∧ (states s).getD 0 = n := by
  unfold rounds at h
  split at h
  · rename_i states ha
    exact ⟨states, ha, Option.some.inj h⟩
  · cases h

/-- **A `NextBackend` call and the counter**: one of the service draws from it if there is a backend
    to give, any other leaves it. -/
theorem rounds_nextBackend {lb : LoadBalancer} {s : String} {n : UInt32}
    (h : lb.rounds s = some n) (svc clientIP : String) (draw : Nat) :
    ((lb.nextBackend svc clientIP draw).2.rounds s =
      if svc = s ∧ lb.registered s ≠ [] then some (n + 1) else some n) ∧
    (svc = s ∧ lb.registered s ≠ [] → (lb.nextBackend svc clientIP draw).1 =
      (lb.registered s)[((n + 1) % UInt32.ofNat (lb.registered s).length).toNat]?) := by
  obtain ⟨states, ha, hn⟩ := rounds_eq_some h
  rw [nextBackend]
  by_cases he : (lb.registered svc).isEmpty = true
  · have hs : ¬ (svc = s ∧ lb.registered s ≠ []) :=
      fun hb => hb.2 (List.isEmpty_iff.mp (hb.1 ▸ he))
    rw [if_pos he, if_neg hs]
    exact ⟨h, fun e => absurd e hs⟩
  · simp only [if_neg he, rounds, ha, Algorithm.select, roundRobinSelect, Counters.next]
    by_cases e : svc = s
    · subst e
      rw [Function.update_self, if_pos ⟨rfl, fun h => he (List.isEmpty_iff.mpr h)⟩, hn]
      exact ⟨rfl, fun _ => rfl⟩
    · rw [Function.update_of_ne (Ne.symm e), hn, if_neg fun h => e h.1]
      exact ⟨rfl, fun h => absurd h.1 e⟩

/-- **One call**: it is answered for the service by the place after the counter, or it leaves the
    counter. -/
theorem rounds_step {lb : LoadBalancer} {s : String} {n : UInt32} (h : lb.rounds s = some n)
    (c : Call) :
    ((lb.step c).rounds s = some n ∧ (lb.registered s ≠ [] → answer s lb c = [])) ∨
      ((lb.step c).rounds s = some (n + 1) ∧ answer s lb c =
        [(lb.registered s)[((n + 1) % UInt32.ofNat (lb.registered s).length).toNat]?]) := by
  cases c with
  | nextBackend svc clientIP draw =>
      obtain ⟨hr, ha⟩ := rounds_nextBackend h svc clientIP draw
      rw [step, hr, answer]
      by_cases e : svc = s ∧ lb.registered s ≠ []
      · rw [if_pos e, if_pos e.1, ha e]
        exact .inr ⟨rfl, rfl⟩
      · rw [if_neg e]
        exact .inl ⟨rfl, fun hne => if_neg fun hs => e ⟨hs, hne⟩⟩
  | addBackend b =>
      refine .inl ⟨?_, fun _ => rfl⟩
      rw [rounds, step, addBackend_algorithm]
      exact h
  | removeBackend address serviceName =>
      refine .inl ⟨?_, fun _ => rfl⟩
      rw [rounds, step, removeBackend_algorithm]
      exact h
  | setHealthy | incrementConnections | decrementConnections => exact .inl ⟨h, fun _ => rfl⟩

theorem toNat_succ_of_lt {n : UInt32} {m : Nat} (h : n.toNat + m < 2 ^ 32) (hm : 0 < m) :
    (n + 1).toNat = n.toNat + 1 := by
  rw [UInt32.toNat_add, UInt32.toNat_one]
  omega

/-- The list of the service stays what it is. -/
def Keeps (s : String) (backends : List Ref) (lb : LoadBalancer) (_ : Call) : Prop :=
  lb.registered s = backends

instance (s : String) (backends : List Ref) (lb : LoadBalancer) (c : Call) :
    Decidable (Keeps s backends lb c) := inferInstanceAs (Decidable (_ = _))

/-- **The answers walk round the list**, from the place after the counter. -/
theorem roundRobin_answers {s : String} {backends : List Ref} (hne : backends ≠ [])
    (hlen : backends.length < 2 ^ 32) {calls : List Call} {lb : LoadBalancer} {n : UInt32}
    (h : lb.rounds s = some n) (hkeep : Along step (Keeps s backends) lb calls)
    (hwrap : n.toNat + calls.length < 2 ^ 32) :
    ∃ k, answers s lb calls =
      (List.range' (n.toNat + 1) k).map fun i => backends[i % backends.length]? := by
  induction calls generalizing lb n with
  | nil => exact ⟨0, rfl⟩
  | cons c calls ih =>
      obtain ⟨hreg, hkeep⟩ := hkeep
      rw [List.length_cons] at hwrap
      have hcons : answers s lb (c :: calls) = answer s lb c ++ answers s (lb.step c) calls := rfl
      rw [hcons]
      have hreg : lb.registered s = backends := hreg
      rcases rounds_step h c with ⟨hr, ha⟩ | ⟨hr, ha⟩
      · obtain ⟨k, hk⟩ := ih hr hkeep (by omega)
        exact ⟨k, by rw [ha (hreg ▸ hne), hk, List.nil_append]⟩
      · have hn := toNat_succ_of_lt hwrap (Nat.succ_pos _)
        obtain ⟨k, hk⟩ := ih hr hkeep (by omega)
        refine ⟨k + 1, ?_⟩
        rw [ha, hk, hreg, hn, List.range'_succ, List.map_cons, UInt32.toNat_mod, hn,
          UInt32.toNat_ofNat', Nat.mod_eq_of_lt hlen]
        rfl

/-- A run of so many calls has drawn at most as often, and has as many backends at most. -/
theorem roundRobin_reached {s : String} {calls : List Call} {lb : LoadBalancer} {n : UInt32}
    {m : Nat}
    (h : lb.rounds s = some n) (hn : n.toNat ≤ m) (hl : (lb.registered s).length ≤ m)
    (hlt : m + calls.length < 2 ^ 32) :
    (∃ n', (run step lb calls).rounds s = some n' ∧ n'.toNat ≤ m + calls.length) ∧
      ((run step lb calls).registered s).length ≤ m + calls.length := by
  induction calls generalizing lb n m with
  | nil => exact ⟨⟨n, h, hn⟩, hl⟩
  | cons c calls ih =>
      rw [List.length_cons] at hlt ⊢
      have hreg := length_registered_step lb s c
      have hnext : ∃ n', (lb.step c).rounds s = some n' ∧ n'.toNat ≤ m + 1 := by
        rcases rounds_step h c with ⟨hr, -⟩ | ⟨hr, -⟩
        · exact ⟨n, hr, by omega⟩
        · have hsucc := @toNat_succ_of_lt n (calls.length + 1) (by omega) (Nat.succ_pos _)
          exact ⟨n + 1, hr, by omega⟩
      obtain ⟨n', hr, hn'⟩ := hnext
      have := @ih (lb.step c) n' (m + 1) hr hn' (by omega) (by omega)
      rwa [Nat.add_assoc, Nat.add_comm 1] at this

/-- **Round robin is fair.** After any calls, in any further calls that leave the list of a service,
    two of its backends were answered equally often, give or take one; fewer than `2^32` calls in
    all, so that the counter has not come round. -/
theorem roundRobin_fair (weights : List Weight) (heap : Heap) (s : String)
    (before calls : List Call) (b b' : Ref)
    (hkeep : Along step
      (Keeps s ((run step (newLoadBalancer .roundRobin weights heap) before).registered s))
      (run step (newLoadBalancer .roundRobin weights heap) before) calls)
    (hnd : ((run step (newLoadBalancer .roundRobin weights heap) before).registered s).Nodup)
    (hb : b ∈ (run step (newLoadBalancer .roundRobin weights heap) before).registered s)
    (hb' : b' ∈ (run step (newLoadBalancer .roundRobin weights heap) before).registered s)
    (hlt : before.length + calls.length < 2 ^ 32) :
    (answers s (run step (newLoadBalancer .roundRobin weights heap) before) calls).count (some b) ≤
      (answers s (run step (newLoadBalancer .roundRobin weights heap) before) calls).count
        (some b') + 1 := by
  have hnew : (newLoadBalancer .roundRobin weights heap).rounds s = some 0 := rfl
  obtain ⟨⟨n, hn, hle⟩, hlen⟩ := @roundRobin_reached s before _ 0 0 hnew (Nat.le_refl _)
    (Nat.le_refl _) (by omega)
  rw [Nat.zero_add] at hle hlen
  obtain ⟨k, hk⟩ := roundRobin_answers (List.ne_nil_of_mem hb) (by omega) hn hkeep (by omega)
  rw [hk]
  have h₁ := count_window hnd hb (n.toNat + 1) k
  have h₂ := count_window hnd hb' (n.toNat + 1) k
  omega

/-- Two backends of one service and three turns, a failed backend in between. -/
theorem roundRobin_fair_three :
    let lb := run step (newLoadBalancer .roundRobin []
      fun b => { address := "10.0.0.1", serviceName := if b = 2 then "db" else "web" })
      [.addBackend 0, .addBackend 1]
    let calls : List Call :=
      [.nextBackend "web" "" 0, .addBackend 2, .nextBackend "web" "" 0, .setHealthy 0 false,
        .nextBackend "db" "" 0, .nextBackend "web" "" 0]
    answers "web" lb calls = [some 1, some 0, some 1] ∧
      (answers "web" lb calls).count (some 1) ≤ (answers "web" lb calls).count (some 0) + 1 := by
  intro lb calls
  refine ⟨by decide, ?_⟩
  exact roundRobin_fair [] _ "web" [.addBackend 0, .addBackend 1] calls 1 0 (by decide) (by decide)
    (by decide) (by decide) (by decide)

end LoadBalancer

/-! ## 2. Least connection -/

/-- The balancer and the backends of the service that were given to a client whose connection is not
    counted yet. -/
structure Sessions where
  lb : LoadBalancer
  opened : List Ref := []

namespace Sessions

/-- One call; a `NextBackend` call of `s` opens a session with the backend it gives, and counting
    the connection closes the gap. -/
def step (s : String) (σ : Sessions) (c : Call) : Sessions :=
  { lb := σ.lb.step c
    opened :=
      match c with
      | .nextBackend .. => (LoadBalancer.answer s σ.lb c).reduceOption ++ σ.opened
      | .incrementConnections b => σ.opened.erase b
      | _ => σ.opened }

/-- **What the clients of the service are held to**: they count a connection they were given, once
    and without overflow, with at most `k` of them between the two calls; list and flags stay, and
    no connection ends. -/
def Orderly (s : String) (backends : List Ref) (k : Nat) (σ : Sessions) (c : Call) : Prop :=
  σ.lb.registered s = backends ∧ (σ.step s c).opened.length ≤ k ∧
    match c with
    | .incrementConnections b => b ∈ backends → b ∈ σ.opened ∧ (σ.lb.heap b).connections < maxConn
    | .decrementConnections b | .setHealthy b _ => b ∉ backends
    | _ => True

instance (s : String) (backends : List Ref) (k : Nat) (σ : Sessions) (c : Call) :
    Decidable (Orderly s backends k σ c) :=
  match c with
  | .incrementConnections b => inferInstanceAs (Decidable (_ ∧ _ ∧ (b ∈ backends → _ ∧ _)))
  | .decrementConnections b => inferInstanceAs (Decidable (_ ∧ _ ∧ b ∉ backends))
  | .setHealthy b _ => inferInstanceAs (Decidable (_ ∧ _ ∧ b ∉ backends))
  | .addBackend _ | .removeBackend _ _ | .nextBackend _ _ _ =>
    inferInstanceAs (Decidable (_ ∧ _ ∧ True))

/-- The connections of `b`, counted or not. -/
def load (σ : Sessions) (b : Ref) : Int := (σ.lb.heap b).connections.toInt + σ.opened.count b

/-- **The counts stay together**: what a healthy backend has, counted or not, is at most `k` above
    the count of any other, or within the bound of the start. -/
structure Spread (backends : List Ref) (k : Nat) (bound : Int) (σ : Sessions) : Prop where
  algorithm : σ.lb.algorithm = .leastConnection
  load_le : ∀ b ∈ backends, (σ.lb.heap b).isHealthy = true →
    ∀ b' ∈ backends, (σ.lb.heap b').isHealthy = true →
      σ.load b ≤ bound ∨ σ.load b ≤ (σ.lb.heap b').connections.toInt + k

theorem algorithm_step {lb : LoadBalancer} (h : lb.algorithm = .leastConnection) (c : Call) :
    (lb.step c).algorithm = .leastConnection := by
  cases c with
  | addBackend b => rw [LoadBalancer.step, LoadBalancer.addBackend_algorithm, h]
  | removeBackend address serviceName =>
      rw [LoadBalancer.step, LoadBalancer.removeBackend_algorithm, h]
  | nextBackend svc clientIP draw =>
      rw [LoadBalancer.step, LoadBalancer.nextBackend]
      split
      · exact h
      · simp only [h, Algorithm.select]
  | setHealthy | incrementConnections | decrementConnections => exact h

section Step

variable {backends : List Ref} {k : Nat} {bound : Int} {σ σ' : Sessions}

/-- Flags stay and counts do not fall; a load that grows is one that was least. -/
theorem Spread.grow (h : Spread backends k bound σ)
    (ha : σ'.lb.algorithm = .leastConnection)
    (hh : ∀ b ∈ backends, (σ'.lb.heap b).isHealthy = (σ.lb.heap b).isHealthy)
    (hc : ∀ b ∈ backends,
      (σ.lb.heap b).connections.toInt ≤ (σ'.lb.heap b).connections.toInt)
    (hl : ∀ b ∈ backends, σ'.load b ≤ σ.load b ∨
      ∀ b' ∈ backends, (σ.lb.heap b').isHealthy = true →
        σ'.load b ≤ (σ.lb.heap b').connections.toInt + k) :
    Spread backends k bound σ' := by
  refine ⟨ha, fun b hb hbh b' hb' hbh' => ?_⟩
  rw [hh b hb] at hbh
  rw [hh b' hb'] at hbh'
  have hcount := hc b' hb'
  rcases hl b hb with hle | hleast
  · have := h.load_le b hb hbh b' hb' hbh'
    omega
  · have := hleast b' hb' hbh'
    omega

/-- A call that leaves the memory of the backends and their open sessions leaves the spread. -/
theorem Spread.frame (h : Spread backends k bound σ) (ha : σ'.lb.algorithm = .leastConnection)
    (hheap : ∀ b ∈ backends, σ'.lb.heap b = σ.lb.heap b)
    (hopened : ∀ b ∈ backends, σ'.opened.count b = σ.opened.count b) :
    Spread backends k bound σ' := by
  refine h.grow ha (fun b hb => by rw [hheap b hb]) (fun b hb => by rw [hheap b hb])
    fun b hb => .inl ?_
  rw [load, load, hheap b hb, hopened b hb]

end Step

/-- **The backend that is given has the fewest connections.** -/
theorem nextBackend_least {lb : LoadBalancer} (h : lb.algorithm = .leastConnection)
    {s clientIP : String} {draw : Nat} {b : Ref}
    (hb : (lb.nextBackend s clientIP draw).1 = some b) :
    ∀ b' ∈ lb.registered s, (lb.heap b').isHealthy = true →
      (lb.heap b).connections.toInt ≤ (lb.heap b').connections.toInt := by
  rw [LoadBalancer.nextBackend_fst] at hb
  split at hb
  · cases hb
  · rw [h, Algorithm.select] at hb
    rcases leastConnectionSelect_cases lb.heap (lb.registered s) with ⟨c, hc, -, e⟩ | ⟨-, e⟩
    · obtain rfl : c = b := Option.some.inj (e.symm.trans hb)
      obtain ⟨before, after, hreg, -, hbefore, hafter⟩ := hc
      intro b' hb' hh
      rw [hreg, List.mem_append, List.mem_cons] at hb'
      rw [← Int32.le_iff_toInt_le]
      rcases hb' with hm | rfl | hm
      · exact Int32.le_of_lt (hbefore b' hm hh)
      · exact Int32.le_refl _
      · exact hafter b' hm hh
    · cases e.symm.trans hb

section Moves

variable {backends : List Ref} {k : Nat} {bound : Int} {σ : Sessions}

/-- The connection of an open session is counted: the load stays, the count grows. -/
theorem Spread.count {s : String} {b : Ref} (h : Spread backends k bound σ)
    (ha : (σ.step s (.incrementConnections b)).lb.algorithm = .leastConnection)
    (hopen : b ∈ σ.opened) (hmax : (σ.lb.heap b).connections < maxConn) :
    Spread backends k bound (σ.step s (.incrementConnections b)) := by
  have hself : ((σ.lb.heap b).addConnections 1).connections.toInt =
      (σ.lb.heap b).connections.toInt + 1 := by
    have hlow := (σ.lb.heap b).connections.le_toInt
    rw [Int32.lt_iff_toInt_lt] at hmax
    have hm : maxConn.toInt = 2147483647 := by decide
    rw [Backend.addConnections, Int32.toInt_add, Int32.toInt_one]
    exact Int.bmod_eq_of_le (by omega) (by omega)
  have hheap : ∀ b' : Ref, (σ.step s (.incrementConnections b)).lb.heap b' =
      if b' = b then (σ.lb.heap b).addConnections 1 else σ.lb.heap b' := by
    intro b'
    by_cases e : b' = b
    · subst e
      rw [if_pos rfl]
      exact LoadBalancer.modify_heap_self σ.lb b' fun x => x.addConnections 1
    · rw [if_neg e]
      exact LoadBalancer.modify_heap_of_ne σ.lb e fun x => x.addConnections 1
  have hcount : (σ.opened.erase b).count b + 1 = σ.opened.count b := by
    rw [List.count_erase_self]
    exact Nat.sub_add_cancel (List.count_pos_iff.mpr hopen)
  refine h.grow ha (fun b' _ => ?_) (fun b' _ => ?_) fun b' _ => .inl ?_
  · rw [hheap]
    split
    · rename_i e
      rw [e]
      rfl
    · rfl
  · rw [hheap]
    split
    · rename_i e
      rw [e, hself]
      omega
    · exact Int.le_refl _
  · rw [load, load, hheap]
    by_cases e : b' = b
    · subst e
      rw [if_pos rfl, hself]
      show _ + (((σ.opened.erase b').count b' : Nat) : Int) ≤ _
      omega
    · rw [if_neg e]
      show _ + (((σ.opened.erase b).count b' : Nat) : Int) ≤ _
      rw [List.count_erase_of_ne e]

/-- A backend is given: it is one with the fewest connections, and at most `k` are open. -/
theorem Spread.give {s clientIP : String} {draw : Nat} (h : Spread backends k bound σ)
    (hreg : σ.lb.registered s = backends)
    (ha : (σ.step s (.nextBackend s clientIP draw)).lb.algorithm = .leastConnection)
    (hk : (σ.step s (.nextBackend s clientIP draw)).opened.length ≤ k) :
    Spread backends k bound (σ.step s (.nextBackend s clientIP draw)) := by
  have hheap : (σ.step s (.nextBackend s clientIP draw)).lb.heap = σ.lb.heap :=
    LoadBalancer.nextBackend_heap σ.lb s clientIP draw
  have hopened : (σ.step s (.nextBackend s clientIP draw)).opened =
      (σ.lb.nextBackend s clientIP draw).1.toList ++ σ.opened := by
    rw [step, LoadBalancer.answer, if_pos rfl]
    cases (σ.lb.nextBackend s clientIP draw).1 <;> rfl
  refine h.grow ha (fun b _ => by rw [hheap]) (fun b _ => by rw [hheap]) fun b hb => ?_
  by_cases e : (σ.lb.nextBackend s clientIP draw).1 = some b
  · refine .inr fun b' hb' hh => ?_
    have hleast := nextBackend_least h.algorithm e b' (hreg ▸ hb') hh
    have hcount := List.count_le_length (a := b)
      (l := (σ.step s (.nextBackend s clientIP draw)).opened)
    rw [load, hheap]
    omega
  · refine .inl ?_
    have hcount : (σ.lb.nextBackend s clientIP draw).1.toList.count b = 0 :=
      List.count_eq_zero.mpr fun hm => e (Option.mem_toList.mp hm)
    rw [load, load, hheap, hopened, List.count_append, hcount, Nat.zero_add]

end Moves

theorem spread_step {s : String} {backends : List Ref} {k : Nat} {bound : Int} (σ : Sessions)
    (c : Call) (h : Spread backends k bound σ) (ho : Orderly s backends k σ c) :
    Spread backends k bound (σ.step s c) := by
  obtain ⟨hreg, hk, hc⟩ := ho
  have ha := algorithm_step h.algorithm c
  have hne : ∀ {b c : Ref}, b ∉ backends → c ∈ backends → c ≠ b := fun hb hc e => hb (e ▸ hc)
  have hmodify : ∀ {b : Ref} (f : Backend → Backend), b ∉ backends → ∀ b' ∈ backends,
      (σ.lb.modify b f).heap b' = σ.lb.heap b' :=
    fun f hb b' hb' => LoadBalancer.modify_heap_of_ne σ.lb (hne hb hb') f
  cases c with
  | addBackend b =>
      have hheap := LoadBalancer.addBackend_heap σ.lb b
      exact h.frame ha (fun b' _ => congrFun hheap b') fun _ _ => rfl
  | removeBackend address serviceName =>
      have hheap := LoadBalancer.removeBackend_heap σ.lb address serviceName
      exact h.frame ha (fun b' _ => congrFun hheap b') fun _ _ => rfl
  | setHealthy b healthy =>
      exact h.frame ha (hmodify (fun x => x.setHealthy healthy) hc) fun _ _ => rfl
  | decrementConnections b =>
      exact h.frame ha (hmodify (fun x => x.addConnections (-1)) hc) fun _ _ => rfl
  | incrementConnections b =>
      by_cases hb : b ∈ backends
      · exact h.count ha (hc hb).1 (hc hb).2
      · exact h.frame ha (hmodify (fun x => x.addConnections 1) hb)
          fun b' hb' => List.count_erase_of_ne (hne hb hb')
  | nextBackend svc clientIP draw =>
      have hheap := LoadBalancer.nextBackend_heap σ.lb svc clientIP draw
      by_cases hs : svc = s
      · subst hs
        exact h.give hreg ha hk
      · refine h.frame ha (fun b' _ => congrFun hheap b') fun b' _ => ?_
        rw [step, LoadBalancer.answer, if_neg hs]
        rfl

/-- **Least connection keeps the counts together.** Let a balancer by least connection serve
    orderly clients, at most `k` of which at a time were given a backend and have not counted it.
    Then a healthy backend's count is at most `k` above any other's, unless it is still within the
    largest load there was at the start. -/
theorem leastConnection_spread (s : String) (σ : Sessions) (calls : List Call) (k : Nat)
    (bound : Int) (b b' : Ref) (halg : σ.lb.algorithm = .leastConnection)
    (hstart : ∀ b ∈ σ.lb.registered s, σ.load b ≤ bound)
    (ho : Along (step s) (Orderly s (σ.lb.registered s) k) σ calls)
    (hb : b ∈ σ.lb.registered s) (hb' : b' ∈ σ.lb.registered s)
    (hh : ((run (step s) σ calls).lb.heap b).isHealthy = true)
    (hh' : ((run (step s) σ calls).lb.heap b').isHealthy = true) :
    ((run (step s) σ calls).lb.heap b).connections.toInt ≤
      max bound (((run (step s) σ calls).lb.heap b').connections.toInt + k) := by
  have hinit : Spread (σ.lb.registered s) k bound σ :=
    ⟨halg, fun b hb _ _ _ _ => .inl (hstart b hb)⟩
  have hend := run_inv (step s) spread_step hinit ho
  have hload := hend.load_le b hb hh b' hb' hh'
  have hle : ((run (step s) σ calls).lb.heap b).connections.toInt ≤
      (run (step s) σ calls).load b := by
    rw [load]
    omega
  omega

/-- Two clients ask before either has counted: both get the same backend, and the counts are two
    apart. -/
theorem leastConnection_spread_two :
    let heap : Heap := fun _ => { address := "10.0.0.1", healthy := 1, serviceName := "web" }
    let registered : List Call := [.addBackend 0, .addBackend 1]
    let σ : Sessions :=
      ⟨run LoadBalancer.step (newLoadBalancer .leastConnection [] heap) registered, []⟩
    let calls : List Call :=
      [.nextBackend "web" "" 0, .nextBackend "web" "" 0, .incrementConnections 0,
        .incrementConnections 0]
    ((run (step "web") σ calls).lb.heap 0).connections = 2 ∧
      ((run (step "web") σ calls).lb.heap 0).connections.toInt ≤
        max 0 (((run (step "web") σ calls).lb.heap 1).connections.toInt + 2) := by
  intro heap registered σ calls
  refine ⟨by decide, ?_⟩
  have hreg : σ.lb.registered "web" = [0, 1] := by decide
  refine leastConnection_spread "web" σ calls 2 0 0 1 rfl ?_ (by decide) (by decide) (by decide)
    (by decide) (by decide)
  rw [hreg]
  simp only [List.forall_mem_cons, List.not_mem_nil, false_implies, implies_true, and_true]
  decide

end Sessions

end HeliosLB
