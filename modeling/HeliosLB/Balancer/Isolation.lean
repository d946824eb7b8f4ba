/-
  File:      HeliosLB/Balancer/Isolation.lean
  Subject:   SERVICES DO NOT SEE EACH OTHER: the answers a service gets in a run are those it gets
             if the calls of all other services are left out.

  * `Call.concerns` -- a call is about the service of the backend it writes to, or the one it names;
  * `SameFor` -- two balancers agree on what a service can see: its backends' memory, its list,
    its counter, the configured weights;
  * `select_congr` -- a selection reads no more than that;
  * `SameFor.step_other`, `SameFor.step_own` -- a call of another service on one side, a call of the
    service itself on both;
  * `answers_filter` -- every run, with the rule of Lib/Runs.lean.

  A service's entries outlive its backends (an empty list, a counter that goes on), so "the service
  is not registered" is not a state of its own here.
-/
import HeliosLB.Balancer.LoadBalancer

namespace HeliosLB

open Lib

/-! ## 1. What a service can see -/

/-- Two algorithms agree on a service's counter, and on the weights. -/
inductive Algorithm.SameFor (s : String) : Algorithm → Algorithm → Prop
  | roundRobin {states states' : Counters} (h : states s = states' s) :
      SameFor s (.roundRobin states) (.roundRobin states')
  | leastConnection : SameFor s .leastConnection .leastConnection
  | weightedRoundRobin {states states' : Counters} {weights : List Weight}
      (h : states s = states' s) :
      SameFor s (.weightedRoundRobin states weights) (.weightedRoundRobin states' weights)
  | ipHash : SameFor s .ipHash .ipHash
  | random : SameFor s .random .random

theorem Algorithm.SameFor.refl (s : String) (a : Algorithm) : a.SameFor s a := by
  cases a <;> constructor <;> rfl

/-- The memory agrees on the backends of a list. -/
def AgreeOn (backends : List Ref) (heap heap' : Heap) : Prop :=
  ∀ b ∈ backends, heap b = heap' b

section Congr

variable {heap heap' : Heap} {backends : List Ref}

theorem healthyBackends_congr (h : AgreeOn backends heap heap') :
    healthyBackends heap backends = healthyBackends heap' backends :=
  List.filter_congr fun b hb => by rw [h b hb]

theorem weighed_congr (h : AgreeOn backends heap heap') (weights : List Weight) :
    weighed weights heap backends = weighed weights heap' backends := by
  rw [weighed, weighed, ← healthyBackends_congr h]
  refine List.map_congr_left fun b hb => ?_
  rw [h b (mem_healthyBackends.mp hb).1]

theorem leastConnectionLoop_congr (h : AgreeOn backends heap heap') (least : Int32)
    (best : Option Ref) :
    leastConnectionLoop heap backends least best =
      leastConnectionLoop heap' backends least best := by
  induction backends generalizing least best with
  | nil => rfl
  | cons c l ih =>
      obtain ⟨hc, hl⟩ := List.forall_mem_cons.mp h
      rw [leastConnectionLoop, leastConnectionLoop, hc, ih hl, ih hl]

theorem eraseP_congr (h : AgreeOn backends heap heap') (address : String) :
    backends.eraseP (fun b => (heap b).address == address) =
      backends.eraseP (fun b => (heap' b).address == address) := by
  induction backends with
  | nil => rfl
  | cons c l ih =>
      obtain ⟨hc, hl⟩ := List.forall_mem_cons.mp h
      rw [List.eraseP_cons, List.eraseP_cons, hc, ih hl]

/-- **A selection depends on the list, the memory of its backends and the service's counter.** -/
theorem select_congr {a a' : Algorithm} {s : String} (h : AgreeOn backends heap heap')
    (ha : a.SameFor s a') (clientIP : String) (draw : Nat) :
    (a.select heap backends s clientIP draw).1 = (a'.select heap' backends s clientIP draw).1 ∧
      (a.select heap backends s clientIP draw).2.SameFor s
        (a'.select heap' backends s clientIP draw).2 := by
  cases ha with
  | roundRobin hs =>
      simp only [Algorithm.select, roundRobinSelect, Counters.next, hs]
      split
      · exact ⟨rfl, .roundRobin hs⟩
      · exact ⟨rfl, .roundRobin (by simp only [Function.update_self])⟩
  | leastConnection => exact ⟨leastConnectionLoop_congr h _ _, .leastConnection⟩
  | weightedRoundRobin hs =>
      simp only [Algorithm.select, weightedRoundRobinSelect, Counters.next, hs, weighed_congr h]
      split
      · exact ⟨rfl, .weightedRoundRobin hs⟩
      · split
        · exact ⟨rfl, .weightedRoundRobin (by simp only [Function.update_self])⟩
        · exact ⟨rfl, .weightedRoundRobin (by simp only [Function.update_self])⟩
  | ipHash =>
      simp only [Algorithm.select, ipHashSelect, healthyBackends_congr h]
      exact ⟨trivial, .ipHash⟩
  | random =>
      simp only [Algorithm.select, randomSelect, healthyBackends_congr h]
      exact ⟨trivial, .random⟩

/-- A selection for another service leaves the counter of `s`. -/
theorem select_other {a a' : Algorithm} {s svc : String} (hne : svc ≠ s) (ha : a.SameFor s a')
    (clientIP : String) (draw : Nat) :
    (a.select heap backends svc clientIP draw).2.SameFor s a' := by
  have hu : ∀ (states : Counters) (v : Option UInt32),
      Function.update states svc v s = states s :=
    fun states v => Function.update_of_ne (Ne.symm hne) v states
  cases ha with
  | roundRobin hs =>
      refine .roundRobin ?_
      rw [roundRobinSelect]
      split
      · exact hs
      · exact (hu _ _).trans hs
  | leastConnection => exact .leastConnection
  | weightedRoundRobin hs =>
      refine .weightedRoundRobin ?_
      rw [weightedRoundRobinSelect]
      split
      · exact hs
      · dsimp only
        split
        · exact (hu _ _).trans hs
        · exact (hu _ _).trans hs
  | ipHash => exact .ipHash
  | random => exact .random

end Congr

/-! ## 2. One call -/

/-- **A call concerns the service of the backend it is made on, or the one it names**; `name b` is
    the `ServiceName` of `b`. -/
def Call.concerns (name : Ref → String) (s : String) : Call → Bool
  | .addBackend b | .setHealthy b _ | .incrementConnections b | .decrementConnections b =>
    name b == s
  | .removeBackend _ serviceName | .nextBackend serviceName _ _ => serviceName == s

namespace LoadBalancer

/-- What a `NextBackend` call of the service is answered. -/
def answer (s : String) (lb : LoadBalancer) : Call → List (Option Ref)
  | .nextBackend serviceName clientIP draw =>
    if serviceName = s then [(lb.nextBackend serviceName clientIP draw).1] else []
  | _ => []

/-- The answers to the `NextBackend` calls of the service in a run. -/
def answers (s : String) (lb : LoadBalancer) (calls : List Call) : List (Option Ref) :=
  outputs step (answer s) lb calls

/-- **Two balancers agree on what the service `s` can see.** -/
structure SameFor (name : Ref → String) (s : String) (lb lb' : LoadBalancer) : Prop where
  name_left : ∀ b, (lb.heap b).serviceName = name b
  name_right : ∀ b, (lb'.heap b).serviceName = name b
  heap : ∀ b, name b = s → lb.heap b = lb'.heap b
  backends : lb.backends s = lb'.backends s
  own : ∀ b ∈ lb.registered s, name b = s
  algorithm : lb.algorithm.SameFor s lb'.algorithm

namespace SameFor

variable {name : Ref → String} {s : String} {lb lb' : LoadBalancer}

theorem registered_eq (h : SameFor name s lb lb') : lb.registered s = lb'.registered s := by
  rw [registered, registered, h.backends]

theorem agreeOn (h : SameFor name s lb lb') : AgreeOn (lb.registered s) lb.heap lb'.heap :=
  fun b hb => h.heap b (h.own b hb)

/-- Other lists may change, and the service's own one as long as both sides agree. -/
theorem withBackends (h : SameFor name s lb lb') {m m' : String → Option (List Ref)}
    {st st' : String → Option LoadBalancerStats} (he : m s = m' s)
    (ho : ∀ b ∈ (m s).getD [], name b = s) :
    SameFor name s { lb with backends := m, stats := st }
      { lb' with backends := m', stats := st' } :=
  ⟨h.name_left, h.name_right, h.heap, he, ho, h.algorithm⟩

theorem modify_other (h : SameFor name s lb lb') {b : Ref} (hb : name b ≠ s)
    {f : Backend → Backend} (hf : ∀ x, (f x).serviceName = x.serviceName) :
    SameFor name s (lb.modify b f) lb' := by
  refine ⟨fun c => ?_, h.name_right, fun c hc => ?_, h.backends, h.own, h.algorithm⟩
  · rw [modify_serviceName lb b c hf, h.name_left]
  · have e : c ≠ b := fun e => hb (e ▸ hc)
    rw [modify_heap_of_ne lb e, h.heap c hc]

theorem modify_own (h : SameFor name s lb lb') {b : Ref} (hb : name b = s)
    {f : Backend → Backend} (hf : ∀ x, (f x).serviceName = x.serviceName) :
    SameFor name s (lb.modify b f) (lb'.modify b f) := by
  refine ⟨fun c => ?_, fun c => ?_, fun c hc => ?_, h.backends, h.own, h.algorithm⟩
  · rw [modify_serviceName lb b c hf, h.name_left]
  · rw [modify_serviceName lb' b c hf, h.name_right]
  · by_cases e : c = b
    · rw [e, modify_heap_self, modify_heap_self, h.heap b hb]
    · rw [modify_heap_of_ne lb e, modify_heap_of_ne lb' e, h.heap c hc]

theorem addBackend_other (h : SameFor name s lb lb') {b : Ref} (hb : name b ≠ s) :
    SameFor name s (lb.addBackend b) lb' := by
  have hu : ∀ v : Option (List Ref), Function.update lb.backends (name b) v s = lb.backends s :=
    fun v => Function.update_of_ne hb.symm v lb.backends
  simp only [addBackend, h.name_left]
  split
  · exact h.withBackends ((hu _).trans h.backends) (by rw [hu]; exact h.own)
  · exact h.withBackends ((hu _).trans h.backends) (by rw [hu]; exact h.own)

theorem addBackend_own (h : SameFor name s lb lb') {b : Ref} (hb : name b = s) :
    SameFor name s (lb.addBackend b) (lb'.addBackend b) := by
  rw [addBackend, addBackend]
  simp only [h.name_left, h.name_right, hb, ← h.backends]
  cases hl : lb.backends s with
  | none =>
      refine h.withBackends (by rw [Function.update_self, Function.update_self]) ?_
      rw [Function.update_self]
      simpa using hb
  | some l =>
      refine h.withBackends (by rw [Function.update_self, Function.update_self]) ?_
      have ho := h.own
      rw [registered, hl] at ho
      rw [Function.update_self]
      simp only [Option.getD_some, List.forall_mem_append, List.forall_mem_singleton]
      exact ⟨ho, hb⟩

theorem removeBackend_other (h : SameFor name s lb lb') {svc : String} (hne : svc ≠ s)
    (address : String) : SameFor name s (lb.removeBackend address svc) lb' := by
  have hu : ∀ v : Option (List Ref), Function.update lb.backends svc v s = lb.backends s :=
    fun v => Function.update_of_ne hne.symm v lb.backends
  rw [removeBackend]
  split
  · exact h
  · exact h.withBackends ((hu _).trans h.backends) (by rw [hu]; exact h.own)

theorem removeBackend_own (h : SameFor name s lb lb') (address : String) :
    SameFor name s (lb.removeBackend address s) (lb'.removeBackend address s) := by
  have ho := h.own
  have hag := h.agreeOn
  rw [removeBackend, removeBackend, ← h.backends]
  rw [registered] at ho hag
  cases hl : lb.backends s with
  | none => exact h
  | some l =>
      rw [hl, Option.getD_some] at ho hag
      refine h.withBackends ?_ ?_
      · rw [Function.update_self, Function.update_self, eraseP_congr hag]
      · rw [Function.update_self]
        exact fun b hb => ho b (List.mem_of_mem_eraseP hb)

theorem nextBackend_other (h : SameFor name s lb lb') {svc : String} (hne : svc ≠ s)
    (clientIP : String) (draw : Nat) :
    SameFor name s (lb.nextBackend svc clientIP draw).2 lb' := by
  rw [nextBackend]
  dsimp only
  split
  · exact h
  · exact ⟨h.name_left, h.name_right, h.heap, h.backends, h.own,
      select_other hne h.algorithm clientIP draw⟩

theorem nextBackend_own (h : SameFor name s lb lb') (clientIP : String) (draw : Nat) :
    SameFor name s (lb.nextBackend s clientIP draw).2 (lb'.nextBackend s clientIP draw).2 ∧
      (lb.nextBackend s clientIP draw).1 = (lb'.nextBackend s clientIP draw).1 := by
  obtain ⟨hr, ha⟩ := select_congr h.agreeOn h.algorithm clientIP draw
  rw [nextBackend, nextBackend, ← h.registered_eq]
  dsimp only
  split
  · exact ⟨h, rfl⟩
  · exact ⟨⟨h.name_left, h.name_right, h.heap, h.backends, h.own, ha⟩, hr⟩

/-- **A call of another service** changes nothing the service can see, and is no answer to it. -/
theorem step_other (h : SameFor name s lb lb') {c : Call} (hc : c.concerns name s = false) :
    SameFor name s (lb.step c) lb' ∧ answer s lb c = [] := by
  cases c with
  | addBackend b => exact ⟨h.addBackend_other (beq_eq_false_iff_ne.mp hc), rfl⟩
  | removeBackend address svc => exact ⟨h.removeBackend_other (beq_eq_false_iff_ne.mp hc) _, rfl⟩
  | setHealthy b healthy =>
      have hb : name b ≠ s := beq_eq_false_iff_ne.mp hc
      exact ⟨h.modify_other hb (Backend.setHealthy_serviceName healthy), rfl⟩
  | incrementConnections b =>
      have hb : name b ≠ s := beq_eq_false_iff_ne.mp hc
      exact ⟨h.modify_other hb (Backend.addConnections_serviceName 1), rfl⟩
  | decrementConnections b =>
      have hb : name b ≠ s := beq_eq_false_iff_ne.mp hc
      exact ⟨h.modify_other hb (Backend.addConnections_serviceName (-1)), rfl⟩
  | nextBackend svc clientIP draw =>
      have hne : svc ≠ s := beq_eq_false_iff_ne.mp hc
      exact ⟨h.nextBackend_other hne _ _, if_neg hne⟩

/-- **A call of the service itself** keeps the agreement and is answered alike on both sides. -/
theorem step_own (h : SameFor name s lb lb') {c : Call} (hc : c.concerns name s = true) :
    SameFor name s (lb.step c) (lb'.step c) ∧ answer s lb c = answer s lb' c := by
  cases c with
  | addBackend b => exact ⟨h.addBackend_own (beq_iff_eq.mp hc), rfl⟩
  | removeBackend address svc =>
      obtain rfl : svc = s := beq_iff_eq.mp hc
      exact ⟨h.removeBackend_own address, rfl⟩
  | setHealthy b healthy =>
      exact ⟨h.modify_own (beq_iff_eq.mp hc) (Backend.setHealthy_serviceName healthy), rfl⟩
  | incrementConnections b =>
      exact ⟨h.modify_own (beq_iff_eq.mp hc) (Backend.addConnections_serviceName 1), rfl⟩
  | decrementConnections b =>
      exact ⟨h.modify_own (beq_iff_eq.mp hc) (Backend.addConnections_serviceName (-1)), rfl⟩
  | nextBackend svc clientIP draw =>
      obtain rfl : svc = s := beq_iff_eq.mp hc
      obtain ⟨hs, he⟩ := h.nextBackend_own clientIP draw
      refine ⟨hs, ?_⟩
      rw [answer, answer, if_pos rfl, if_pos rfl, he]

end SameFor

/-! ## 3. Every run -/

theorem sameFor_new (balancerType : BalancerType) (weights : List Weight) (heap : Heap)
    (s : String) :
    SameFor (fun b => (heap b).serviceName) s (newLoadBalancer balancerType weights heap)
      (newLoadBalancer balancerType weights heap) where
  name_left _ := rfl
  name_right _ := rfl
  heap _ _ := rfl
  backends := rfl
  own b hb := by cases hb
  algorithm := .refl s _

/-- **The answers a service gets do not depend on the other services**: whatever calls are mixed in,
    they are those of the run that keeps only the calls concerning the service. -/
theorem answers_filter (balancerType : BalancerType) (weights : List Weight) (heap : Heap)
    (s : String) (calls : List Call) :
    answers s (newLoadBalancer balancerType weights heap) calls =
      answers s (newLoadBalancer balancerType weights heap)
        (calls.filter (Call.concerns (fun b => (heap b).serviceName) s)) :=
  outputs_filter step (fun _ _ _ h hc => h.step_other hc) (fun _ _ _ h hc => h.step_own hc)
    (sameFor_new balancerType weights heap s) calls

end LoadBalancer

end HeliosLB
