/-
  File:      HeliosLB/Balancer/Stop.lean
  Subject:   WHAT A CALLER OF `Stop` CAN RELY ON (internal/loadbalancer/balancer.go), over every
             interleaving of the loop, its checks, other callers and the clients.

  * **`stop_is_final`** -- after the call that closed the channel has returned, no check is alive,
    none starts, and the balancer moves by its clients' calls only. A call that found the channel
    closed returns at once: `late_stop_returns_early`;
  * **`stop_panics_exactly_on_overlap`** -- the test of `stopCh` and its `close` are two actions; a
    panic needs two callers between them, and two callers there lead to one;
  * **`stop_returns`** -- no deadlock: once the ticker is quiet, the goroutines come to rest after
    a bounded number of moves (`Process.work`), and at rest every caller of `Stop` is back.
-/
import HeliosLB.Balancer.Lifecycle
import Mathlib.Algebra.BigOperators.Group.List.Basic
import Mathlib.Algebra.GroupWithZero.Nat
import Mathlib.Data.List.Nodup

namespace HeliosLB

/-! ## 1. After `Stop` -/

/-- The calls of the clients among the moves. -/
def Process.Move.call? : Process.Move → Option Call
  | .call c => some c
  | _ => none

/-- Loop and checks are gone. -/
def Process.Idle (p : Process) : Prop := p.loop = .ended ∧ p.checks = []

theorem Process.Idle.fires {p q : Process} {m : Process.Move} (h : p.Idle) (hf : Fires p m q) :
    q.Idle ∧ (q.crashed = false → q.lb = Lib.run LoadBalancer.step p.lb m.call?.toList) := by
  obtain ⟨hloop, hchecks⟩ := h
  have hnone : ∀ {i : Nat} {c : CheckPc}, p.checks[i]? ≠ some c := by simp [hchecks]
  cases hf with
  | add _ hl | spawn _ hl | tick hl | see hl | passChecks _ hl | leave _ hl | leaveTwice _ hl =>
      rw [hloop] at hl
      cases hl
  | copy _ _ _ hi | answer _ _ _ _ _ hi | store _ _ _ _ _ _ hi | finish _ _ _ hi
  | finishTwice _ _ _ hi => exact absurd hi hnone
  | closeTwice k hk hs => exact ⟨⟨hloop, hchecks⟩, nofun⟩
  | _ => exact ⟨⟨hloop, hchecks⟩, fun _ => rfl⟩

theorem Process.step_crashed {p : Process} (h : p.crashed = true) (m : Process.Move) :
    p.step m = p := by
  have hnone : p.next m = none := if_pos h
  rw [Process.step, hnone, Option.getD_none]

theorem Process.run_crashed {p : Process} (h : p.crashed = true) (ms : List Process.Move) :
    Lib.run Process.step p ms = p := by
  induction ms with
  | nil => rfl
  | cons m ms ih => rw [Lib.run_cons, Process.step_crashed h, ih]

theorem Process.Idle.step {p : Process} (h : p.Idle) (m : Process.Move)
    (hc : (p.step m).crashed = false) :
    (p.step m).Idle ∧ (p.step m).lb = Lib.run LoadBalancer.step p.lb m.call?.toList := by
  have hp : p.crashed = false := by
    by_contra hp
    rw [Bool.not_eq_false] at hp
    rw [Process.step_crashed hp, hp] at hc
    cases hc
  cases e : p.next m with
  | some q =>
      rw [Process.step, e, Option.getD_some] at hc ⊢
      obtain ⟨hidle, hlb⟩ := h.fires (fires_of_next e).2
      exact ⟨hidle, hlb hc⟩
  | none =>
      rw [Process.step, e, Option.getD_none]
      refine ⟨h, ?_⟩
      -- a client's call is never blocked
      cases m with
      | call c => simp [Process.next, hp] at e
      | _ => rfl

theorem Process.Idle.run {p : Process} (h : p.Idle) {ms : List Process.Move}
    (hc : (Lib.run Process.step p ms).crashed = false) :
    (Lib.run Process.step p ms).Idle ∧
      (Lib.run Process.step p ms).lb =
        Lib.run LoadBalancer.step p.lb (ms.filterMap Process.Move.call?) := by
  induction ms generalizing p with
  | nil => exact ⟨h, rfl⟩
  | cons m ms ih =>
      have hstep : (p.step m).crashed = false := by
        by_contra hs
        rw [Bool.not_eq_false] at hs
        rw [Lib.run_cons, Process.run_crashed hs, hs] at hc
        cases hc
      obtain ⟨hidle, hlb⟩ := h.step m hstep
      obtain ⟨hidle', hlb'⟩ := ih hidle hc
      refine ⟨hidle', ?_⟩
      rw [Lib.run_cons, hlb', hlb]
      cases m <;> rfl

/-- **`Stop` is final.** Once the call that closed the channel has returned, loop and checks are
    gone in every continuation, and the balancer is what its clients' calls make of it. -/
theorem stop_is_final (config : BalancerConfig) (heap : Heap) (ports : Ref → Int)
    (before after : List Process.Move) (k : Nat)
    (hk : (processAfter config heap ports before).callers[k]? = some (.returned true))
    (hc : (processAfter config heap ports (before ++ after)).crashed = false) :
    (processAfter config heap ports (before ++ after)).Idle ∧
      (processAfter config heap ports (before ++ after)).lb =
        Lib.run LoadBalancer.step (processAfter config heap ports before).lb
          (after.filterMap Process.Move.call?) := by
  have hcoh := coherent_after config heap ports before
  have hended := hcoh.past _ (List.mem_of_getElem? hk) (.inr rfl)
  have hidle : (processAfter config heap ports before).Idle :=
    ⟨hended, hcoh.quiet (.inr hended)⟩
  rw [processAfter_append] at hc ⊢
  exact hidle.run hc

/-- A balancer that checks its backends, all of the service `web`, over a network that answers. -/
def checkedConfig : BalancerConfig := { type := .roundRobin, healthCheck := true }

def webHeap : Heap := fun _ => { address := "10.0.0.1", serviceName := "web" }

def answering : Network := ⟨fun _ _ => true, fun _ _ => some 200⟩

/-- A check that starts and ends, and a `Stop` from its call to its return. -/
def oneStop : List Process.Move :=
  [.loop false, .loop false, .check 0 [] answering, .check 0 [] answering, .stop, .caller 0,
    .caller 0, .loop false, .loop false, .loop false, .caller 0, .caller 0]

theorem stop_is_final_after_one :
    (processAfter checkedConfig webHeap (fun _ => 80)
        (oneStop ++ [.call (.addBackend 0), .loop true])).Idle ∧
      (processAfter checkedConfig webHeap (fun _ => 80)
        (oneStop ++ [.call (.addBackend 0), .loop true])).lb =
        Lib.run LoadBalancer.step
          (processAfter checkedConfig webHeap (fun _ => 80) oneStop).lb [.addBackend 0] :=
  stop_is_final checkedConfig webHeap (fun _ => 80) oneStop [.call (.addBackend 0), .loop true] 0
    (by decide) (by decide)

/-- Two calls of `Stop` while a check is alive: the first closes the channel and waits, the second
    finds it closed. -/
def lateStop : List Process.Move :=
  [.call (.addBackend 0), .loop false, .loop false, .check 0 ["web"] answering,
    .check 0 ["web"] answering, .stop, .stop, .caller 0, .caller 0, .caller 1]

/-- **A call of `Stop` that did not close the channel promises nothing**: it has returned, and the
    next move, a check's, makes a backend healthy. -/
theorem late_stop_returns_early :
    (processAfter checkedConfig webHeap (fun _ => 80) lateStop).callers =
        [.waitLoop, .returned false] ∧
      ((processAfter checkedConfig webHeap (fun _ => 80) lateStop).lb.heap 0).isHealthy = false ∧
      ((processAfter checkedConfig webHeap (fun _ => 80)
        (lateStop ++ [.check 0 [] answering])).lb.heap 0).isHealthy = true := by
  decide

/-! ## 2. Two callers of `Stop` -/

/-- At most one caller stands between the test of `stopCh` and its `close`. -/
def Process.Alone (p : Process) : Prop :=
  ∀ i j : Nat, p.callers[i]? = some .closing → p.callers[j]? = some .closing → i = j

/-- Nobody is about to close a closed channel. -/
def Process.Guarded (p : Process) : Prop :=
  p.crashed = false ∧ (p.stopped = true → .closing ∉ p.callers)

theorem Process.Guarded.fires {p q : Process} {m : Process.Move} (hcoh : Coherent p) (h : p.Guarded)
    (halone : p.Alone) (hf : Fires p m q) : q.Guarded := by
  obtain ⟨hc, hg⟩ := h
  refine ⟨?_, fun hs => ?_⟩
  · by_contra hq
    rw [Bool.not_eq_false] at hq
    obtain ⟨k, hk, hs⟩ := hf.crash hcoh hc hq
    exact hg hs (List.mem_of_getElem? hk)
  · -- only three transitions write `stopped` or a caller who could be about to close
    have hset : ∀ {k : Nat} {c : StopPc}, p.stopped = true → c ≠ .closing →
        .closing ∉ p.callers.set k c := fun hs hne hm =>
      (List.mem_or_eq_of_mem_set hm).elim (hg hs) fun e => hne e.symm
    cases hf with
    | stop =>
        rw [List.mem_append, List.mem_singleton]
        exact fun hm => hm.elim (hg hs) nofun
    | test k hk => exact hset hs (by rw [if_pos (show p.stopped = true from hs)]; nofun)
    | passLoop k hk hw => exact hset hs nofun
    | back k hk hw => exact hset hs nofun
    | close k hk hs' =>
        intro hm
        obtain ⟨j, hj⟩ := List.mem_iff_getElem?.mp hm
        rw [List.getElem?_set] at hj
        split at hj
        · split at hj <;> cases hj
        · rename_i hkj
          exact hkj (halone k j hk hj)
    | _ => exact hg hs

/-- **When `Stop` panics.** As long as no two callers are between the test and the `close`, nothing
    panics in any interleaving; as soon as two are, letting both go on panics. -/
theorem stop_panics_exactly_on_overlap (config : BalancerConfig) (heap : Heap) (ports : Ref → Int)
    (ms : List Process.Move) :
    (Lib.Along Process.step (fun p _ => p.Alone) (newProcess config heap ports) ms →
      (processAfter config heap ports ms).crashed = false) ∧
    ∀ i j : Nat, i ≠ j →
      (processAfter config heap ports ms).callers[i]? = some .closing →
      (processAfter config heap ports ms).callers[j]? = some .closing →
      (processAfter config heap ports (ms ++ [.caller i, .caller j])).crashed = true := by
  refine ⟨fun h => ?_, fun i j hij hi hj => ?_⟩
  · have hinv : ∀ p m, Coherent p ∧ p.Guarded → p.Alone →
        Coherent (p.step m) ∧ (p.step m).Guarded := fun p m hp halone =>
      @Process.step_of_fires (fun q => Coherent q ∧ q.Guarded) p m hp fun q _ hf =>
        ⟨coherent_fires hp.1 hf, hp.2.fires hp.1 halone hf⟩
    have hnew : (newProcess config heap ports).Guarded := ⟨rfl, nofun⟩
    exact (Lib.run_inv Process.step hinv ⟨coherent_new config heap ports, hnew⟩ h).2.1
  · rw [processAfter_append, Lib.run_cons, Lib.run_cons, Lib.run_nil]
    generalize processAfter config heap ports ms = p at hi hj
    by_cases hc : p.crashed = true
    · rw [Process.step_crashed hc, Process.step_crashed hc, hc]
    · by_cases hs : p.stopped = true
      · have h₁ : (p.step (.caller i)).crashed = true := by
          simp [Process.step, Process.next, Process.callerNext, hc, hi, hs]
        rw [Process.step_crashed h₁, h₁]
      · have h₁ : p.step (.caller i) =
            { p with stopped := true, callers := p.callers.set i .waitLoop } := by
          simp [Process.step, Process.next, Process.callerNext, hc, hi, hs]
        rw [h₁]
        simp [Process.step, Process.next, Process.callerNext, hc, hij, hj]

/-! ## 3. `Stop` returns -/

/-- The services of the map `backends`, each once, in some order: what a `range` over it walks. -/
def LoadBalancer.Ranges (lb : LoadBalancer) (services : List String) : Prop :=
  services.Nodup ∧ ∀ s, s ∈ services ↔ (lb.backends s).isSome = true

theorem LoadBalancer.Ranges.congr {lb lb' : LoadBalancer} {services : List String}
    (h : lb.Ranges services) (e : ∀ s, (lb'.backends s).isSome = (lb.backends s).isSome) :
    lb'.Ranges services :=
  ⟨h.1, fun s => by rw [h.2, e]⟩

/-- A map that gains an entry is still walked in some order. -/
theorem LoadBalancer.Ranges.update {lb lb' : LoadBalancer} {services : List String}
    (h : lb.Ranges services) (name : String) (l : List Ref)
    (e : lb'.backends = Function.update lb.backends name (some l)) :
    ∃ services', lb'.Ranges services' := by
  have hiff : ∀ s, (lb'.backends s).isSome = true ↔ s = name ∨ s ∈ services := by
    intro s
    rw [e, h.2]
    by_cases hs : s = name
    · simp [hs]
    · simp [hs]
  refine ⟨services.insert name, h.1.insert, fun s => ?_⟩
  rw [List.mem_insert_iff, hiff]

theorem LoadBalancer.Ranges.step {lb : LoadBalancer} {services : List String}
    (h : lb.Ranges services) (c : Call) : ∃ services', (lb.step c).Ranges services' := by
  cases c with
  | addBackend b =>
      rw [LoadBalancer.step, LoadBalancer.addBackend]
      split
      · exact h.update _ _ rfl
      · exact h.update _ _ rfl
  | removeBackend address serviceName =>
      rw [LoadBalancer.step, LoadBalancer.removeBackend]
      split
      · exact ⟨services, h⟩
      · exact h.update _ _ rfl
  | nextBackend serviceName clientIP draw =>
      refine ⟨services, h.congr fun s => ?_⟩
      rw [LoadBalancer.step, LoadBalancer.nextBackend_backends]
  | setHealthy | incrementConnections | decrementConnections =>
      exact ⟨services, h.congr fun _ => rfl⟩

theorem ranges_fires {p q : Process} {m : Process.Move} (h : ∃ services, p.lb.Ranges services)
    (hf : Fires p m q) : ∃ services, q.lb.Ranges services := by
  obtain ⟨services, hs⟩ := h
  cases hf with
  | call c => exact hs.step c
  | _ => exact ⟨services, hs⟩

theorem ranges_run (config : BalancerConfig) (heap : Heap) (ports : Ref → Int)
    (ms : List Process.Move) :
    ∃ services, (processAfter config heap ports ms).lb.Ranges services := by
  have hstep : ∀ p m, (∃ services, p.lb.Ranges services) →
      ∃ services, (Process.step p m).lb.Ranges services := fun p m hp =>
    @Process.step_of_fires (fun q => ∃ services, q.lb.Ranges services) p m hp fun _ _ hf =>
      ranges_fires hp hf
  refine Lib.run_inv_always Process.step hstep ⟨[], List.nodup_nil, fun s => ?_⟩ ms
  simp [newProcess, newLoadBalancer]

/-- The moves the goroutines can make on their own: no client, no tick, and a map is walked over all
    its entries. -/
def Process.Settling (p : Process) (m : Process.Move) : Prop :=
  p.next m ≠ none ∧
    match m with
    | .call _ | .stop | .loop true => False
    | .check i services _ => p.checks[i]? = some .copying → p.lb.Ranges services
    | .loop false | .caller _ => True

/-- The moves a check has left, if `n` backends are registered. -/
def CheckPc.work (n : Nat) : CheckPc → Nat
  | .copying => 2 * n + 2
  | .storing _ _ queue => 2 * queue.length + 2
  | .probing queue => 2 * queue.length + 1

def LoopPc.work (n : Nat) : LoopPc → Nat
  | .adding => CheckPc.copying.work n + 5
  | .spawning => CheckPc.copying.work n + 4
  | .selecting => 3
  | .waiting => 2
  | .leaving => 1
  | .ended => 0

def StopPc.work : StopPc → Nat
  | .selecting => 4
  | .closing => 3
  | .waitLoop => 2
  | .waitChecks => 1
  | .returned _ => 0

/-- The moves the goroutines have left at most, while the ticker is quiet. -/
def Process.work (n : Nat) (p : Process) : Nat :=
  p.loop.work n + (p.checks.map (CheckPc.work n)).sum + (p.callers.map StopPc.work).sum +
    if p.crashed then 0 else 1

theorem sum_map_eraseIdx {α : Type*} (f : α → Nat) {l : List α} {i : Nat} {x : α}
    (h : l[i]? = some x) : f x + ((l.eraseIdx i).map f).sum = (l.map f).sum := by
  obtain ⟨hlt, rfl⟩ := List.getElem?_eq_some_iff.mp h
  rw [← List.sum_cons, ← List.map_cons]
  exact ((List.getElem_cons_eraseIdx_perm hlt).map f).sum_eq

theorem sum_map_set {α : Type*} (f : α → Nat) {l : List α} {i : Nat} {x : α} (y : α)
    (h : l[i]? = some x) : ((l.set i y).map f).sum + f x = (l.map f).sum + f y := by
  obtain ⟨hlt, -⟩ := List.getElem?_eq_some_iff.mp h
  have hperm := ((List.set_perm_cons_eraseIdx hlt y).map f).sum_eq
  rw [List.map_cons, List.sum_cons] at hperm
  rw [hperm, ← sum_map_eraseIdx f h]
  omega

/-- Two walks over one map find equally many backends. -/
theorem LoadBalancer.Ranges.length_eq {lb lb' : LoadBalancer} {l l' : List String}
    (h : lb.Ranges l) (h' : lb'.Ranges l') (e : lb'.backends = lb.backends) :
    (l'.flatMap lb'.registered).length = (l.flatMap lb.registered).length := by
  have hperm : List.Perm l' l :=
    (List.perm_ext_iff_of_nodup h'.1 h.1).mpr fun s => by rw [h.2, h'.2, e]
  have hreg : lb'.registered = lb.registered :=
    funext fun s => by rw [LoadBalancer.registered, LoadBalancer.registered, e]
  rw [hreg]
  exact (hperm.flatMap_right _).length_eq

/-- **Every move of the goroutines' own lowers `work`.** -/
theorem work_fires {p q : Process} {m : Process.Move} {services : List String} {n : Nat}
    (hr : p.lb.Ranges services) (hn : (services.flatMap p.lb.registered).length = n)
    (hc : p.crashed = false) (hs : p.Settling m) (hf : Fires p m q) :
    q.lb.backends = p.lb.backends ∧ q.work n < p.work n := by
  have hcheck : ∀ {i : Nat} {c : CheckPc} (c' : CheckPc), p.checks[i]? = some c →
      c'.work n < c.work n →
      ((p.checks.set i c').map (CheckPc.work n)).sum < (p.checks.map (CheckPc.work n)).sum :=
    fun c' hi hlt => by
      have := sum_map_set (CheckPc.work n) c' hi
      omega
  have hcaller : ∀ {k : Nat} {c : StopPc} (c' : StopPc), p.callers[k]? = some c →
      c'.work < c.work →
      ((p.callers.set k c').map StopPc.work).sum < (p.callers.map StopPc.work).sum :=
    fun c' hk hlt => by
      have := sum_map_set StopPc.work c' hk
      omega
  cases hf with
  | call | stop | tick => exact absurd hs.2 id
  | add tick hl => exact ⟨rfl, by simp [Process.work, LoopPc.work, hl]⟩
  | spawn tick hl =>
      refine ⟨rfl, ?_⟩
      simp only [Process.work, hl, LoopPc.work, List.map_append, List.sum_append, List.map_cons,
        List.map_nil, List.sum_cons, List.sum_nil]
      omega
  | see hl hs => exact ⟨rfl, by simp [Process.work, LoopPc.work, hl]⟩
  | passChecks tick hl hw => exact ⟨rfl, by simp [Process.work, LoopPc.work, hl]⟩
  | leave tick hl hw => exact ⟨rfl, by simp [Process.work, LoopPc.work, hl]⟩
  | copy i walk net hi =>
      -- the queue is as long as the registry, in whatever order it is walked
      have hlen := (hr.length_eq (hs.2 hi) rfl).trans hn
      have := hcheck (.probing (walk.flatMap p.lb.registered)) hi (by simp [CheckPc.work, hlen])
      exact ⟨rfl, by simpa [Process.work] using this⟩
  | answer i walk net b queue hi =>
      have := hcheck (.storing b (p.probe net b) queue) hi
        (by simp only [CheckPc.work, List.length_cons]; omega)
      exact ⟨rfl, by simpa [Process.work] using this⟩
  | store i walk net b healthy queue hi =>
      have := hcheck (.probing queue) hi (by simp [CheckPc.work])
      exact ⟨rfl, by simpa [Process.work] using this⟩
  | finish i walk net hi hw =>
      refine ⟨rfl, ?_⟩
      have := sum_map_eraseIdx (CheckPc.work n) hi
      simp only [Process.work]
      simp only [CheckPc.work] at this
      omega
  | test k hk =>
      have := hcaller (if p.stopped then .returned false else .closing) hk
        (by split <;> simp [StopPc.work])
      exact ⟨rfl, by simpa [Process.work] using this⟩
  | close k hk hs =>
      have := hcaller .waitLoop hk (by simp [StopPc.work])
      exact ⟨rfl, by simpa [Process.work] using this⟩
  | passLoop k hk hw =>
      have := hcaller .waitChecks hk (by simp [StopPc.work])
      exact ⟨rfl, by simpa [Process.work] using this⟩
  | back k hk hw =>
      have := hcaller (.returned true) hk (by simp [StopPc.work])
      exact ⟨rfl, by simpa [Process.work] using this⟩
  | leaveTwice | finishTwice | closeTwice => exact ⟨rfl, by simp [Process.work, hc]⟩

section Rest

variable {p : Process} {services : List String}

/-- Any live check can move. -/
theorem checks_nil_of_rest (hr : p.lb.Ranges services) (hc : p.crashed = false)
    (hrest : ∀ m, ¬ p.Settling m) : p.checks = [] := by
  by_contra hne
  obtain ⟨c, cs, hcs⟩ := List.exists_cons_of_ne_nil hne
  refine hrest (.check 0 services ⟨fun _ _ => false, fun _ _ => none⟩) ⟨?_, fun _ => hr⟩
  rcases c with _ | (_ | ⟨b, queue⟩) | ⟨b, healthy, queue⟩
  all_goals simp [Process.next, Process.checkNext, hc, hcs]
  split <;> simp

/-- Once the channel is closed, the loop does not rest before its end. -/
theorem loop_ended_of_rest (hcoh : Coherent p) (hs : p.stopped = true) (hc : p.crashed = false)
    (hchecks : p.checks = []) (hrest : ∀ m, ¬ p.Settling m) : p.loop = .ended := by
  have hnone : p.loopNext false = none := by
    by_contra hne
    exact hrest (.loop false) ⟨by simpa [Process.next, hc] using hne, trivial⟩
  have hcount := hcoh.checkWg
  cases hl : p.loop with
  | ended => rfl
  | waiting =>
      rw [hl, hchecks] at hcount
      simp [Process.loopNext, hl, hcount] at hnone
  | leaving =>
      rw [Process.loopNext, hl] at hnone
      dsimp only at hnone
      split at hnone <;> cases hnone
  | _ => simp [Process.loopNext, hl, hs] at hnone

/-- **At rest, `Stop` has returned**: where no goroutine can move on its own, nobody is left in
    `Stop`. -/
theorem returned_of_rest (hcoh : Coherent p) (hr : p.lb.Ranges services) (hc : p.crashed = false)
    (hrest : ∀ m, ¬ p.Settling m) : ∀ c ∈ p.callers, ∃ closed, c = .returned closed := by
  intro c hmem
  obtain ⟨k, hk⟩ := List.mem_iff_getElem?.mp hmem
  have hnone : p.callerNext k = none := by
    by_contra hne
    exact hrest (.caller k) ⟨by simpa [Process.next, hc] using hne, trivial⟩
  have hchecks := checks_nil_of_rest hr hc hrest
  have hended : p.stopped = true → p.loop = .ended :=
    fun hs => loop_ended_of_rest hcoh hs hc hchecks hrest
  cases c with
  | returned closed => exact ⟨closed, rfl⟩
  | selecting => simp [Process.callerNext, hk] at hnone
  | closing =>
      rw [Process.callerNext, hk] at hnone
      dsimp only at hnone
      split at hnone <;> cases hnone
  | waitLoop =>
      have hw := hcoh.wg
      rw [if_pos (hended (hcoh.stopped_of_mem hk nofun nofun))] at hw
      simp [Process.callerNext, hk, hw] at hnone
  | waitChecks =>
      have hw := hcoh.checkWg
      rw [hended (hcoh.stopped_of_mem hk nofun nofun), hchecks] at hw
      simp [Process.callerNext, hk, hw] at hnone

end Rest

/-- **`Stop` returns.** From any reachable state, while no client calls and the ticker is quiet, the
    goroutines make at most `work` moves; and where they can make none, every caller of `Stop` is
    back, unless the process has panicked. -/
theorem stop_returns (config : BalancerConfig) (heap : Heap) (ports : Ref → Int)
    (before : List Process.Move) :
    ∃ services, (processAfter config heap ports before).lb.Ranges services ∧
      ∀ own, Lib.Along Process.step Process.Settling (processAfter config heap ports before) own →
        own.length ≤ (processAfter config heap ports before).work
          (services.flatMap (processAfter config heap ports before).lb.registered).length ∧
        ((∀ m, ¬ (processAfter config heap ports (before ++ own)).Settling m) →
          (processAfter config heap ports (before ++ own)).crashed = true ∨
          ∀ c ∈ (processAfter config heap ports (before ++ own)).callers,
            ∃ closed, c = .returned closed) := by
  obtain ⟨services, hr⟩ := ranges_run config heap ports before
  refine ⟨services, hr, fun own hown => ?_⟩
  rw [processAfter_append]
  have hcoh := coherent_after config heap ports before
  generalize processAfter config heap ports before = p at *
  -- what the moves keep: the invariant, and the map they walk
  have hstep : ∀ q m, Coherent q ∧ q.lb.backends = p.lb.backends → q.Settling m →
      (Coherent (q.step m) ∧ (q.step m).lb.backends = p.lb.backends) ∧
        (q.step m).work (services.flatMap p.lb.registered).length <
          q.work (services.flatMap p.lb.registered).length := by
    rintro q m ⟨hq, hb⟩ hs
    obtain ⟨q', he⟩ := Option.ne_none_iff_exists'.mp hs.1
    obtain ⟨hc, hf⟩ := fires_of_next he
    have hrq : q.lb.Ranges services := hr.congr fun s => by rw [hb]
    obtain ⟨hb', hlt⟩ := work_fires hrq (hr.length_eq hrq hb) hc hs hf
    rw [Process.step, he, Option.getD_some]
    exact ⟨⟨coherent_fires hq hf, hb'.trans hb⟩, hlt⟩
  refine ⟨Lib.along_length_le Process.step hstep ⟨hcoh, rfl⟩ hown, fun hrest => ?_⟩
  obtain ⟨hq, hb⟩ :=
    Lib.run_inv Process.step (fun q m hi hs => (hstep q m hi hs).1) ⟨hcoh, rfl⟩ hown
  cases hc : (Lib.run Process.step p own).crashed with
  | true => exact .inl rfl
  | false => exact .inr (returned_of_rest hq (hr.congr fun s => by rw [hb]) hc hrest)

end HeliosLB
