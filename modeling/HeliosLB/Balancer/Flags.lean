/-
  File:      HeliosLB/Balancer/Flags.lean
  Subject:   WHAT A HEALTH FLAG SAYS (`doHealthCheck` in internal/loadbalancer/health.go). Between
             the answer to a probe and its `SetHealthy` other goroutines move.

  * `Process.answers`, `lastAnswer` -- the answers of a run, and the last about one backend;
  * `Follows` -- the flag is the last answer, or the check that got it is about to write it;
  * **`flags_follow_probes`** -- it holds in every run in which checks do not overlap and no client
    writes the flag;
  * **`nextBackend_skips_down`** -- so a backend whose last probe failed is not handed out, by the
    algorithms that ask for health;
  * `flags_lag_on_overlap` -- the ticker starts a check whether or not the last one is done; of two
    checks the slower one writes the older answer.
-/
import HeliosLB.Balancer.Lifecycle
import HeliosLB.Balancer.Selection

namespace HeliosLB

/-! ## 1. Answers and flags -/

/-- The answer a move brings, if it is a probe's: whose, and what. -/
def Process.answers (p : Process) (m : Process.Move) : List (Ref × Bool) :=
  if p.crashed then []
  else
    match m with
    | .check i _ net =>
      match p.checks[i]? with
      | some (.probing (b :: _)) => [(b, p.probe net b)]
      | _ => []
    | _ => []

/-- The last answer about `b`. -/
def lastAnswer (b : Ref) (answers : List (Ref × Bool)) (old : Option Bool) : Option Bool :=
  answers.foldl (fun old x => if x.1 = b then some x.2 else old) old

/-- The flag of `b` is the last answer, or a check is about to write that answer. -/
structure Follows (b : Ref) (last : Option Bool) (p : Process) : Prop where
  pending : ∀ healthy queue, .storing b healthy queue ∈ p.checks → last = some healthy
  flag : ∀ healthy, last = some healthy →
    (p.lb.heap b).isHealthy = healthy ∨ ∃ queue, .storing b healthy queue ∈ p.checks

/-- A client's own `SetHealthy` on `b`. -/
def Process.Move.setsFlag (b : Ref) : Process.Move → Bool
  | .call (.setHealthy b' _) => b' == b
  | _ => false

/-- Checks do not overlap, and no client writes the flag of `b`. -/
def Process.Undisturbed (b : Ref) (p : Process) (m : Process.Move) : Prop :=
  p.checks.length ≤ 1 ∧ m.setsFlag b = false

instance (b : Ref) (p : Process) (m : Process.Move) : Decidable (p.Undisturbed b m) :=
  inferInstanceAs (Decidable (_ ∧ _))

/-- The check has an answer about `b` that it has not written. -/
def CheckPc.holds (b : Ref) : CheckPc → Bool
  | .storing b' _ _ => b' == b
  | _ => false

theorem eq_singleton_of_getElem? {α : Type*} {l : List α} {i : Nat} {x : α} (hl : l.length ≤ 1)
    (h : l[i]? = some x) : i = 0 ∧ l = [x] := by
  obtain ⟨hlt, rfl⟩ := List.getElem?_eq_some_iff.mp h
  obtain ⟨y, rfl⟩ := List.length_eq_one_iff.mp (show l.length = 1 by omega)
  obtain rfl : i = 0 := by simpa using hlt
  exact ⟨rfl, rfl⟩

/-- Of the clients' calls only `SetHealthy` on the backend itself writes its flag. -/
theorem isHealthy_call {b : Ref} {c : Call} (h : (Process.Move.call c).setsFlag b = false)
    (lb : LoadBalancer) : ((lb.step c).heap b).isHealthy = (lb.heap b).isHealthy := by
  have hmodify : ∀ (b' : Ref) (delta : Int32),
      ((lb.modify b' fun x => x.addConnections delta).heap b).isHealthy =
        (lb.heap b).isHealthy := by
    intro b' delta
    by_cases e : b = b'
    · subst e
      rw [LoadBalancer.modify_heap_self]
      rfl
    · rw [LoadBalancer.modify_heap_of_ne lb e]
  cases c with
  | addBackend b' => rw [LoadBalancer.step, LoadBalancer.addBackend_heap]
  | removeBackend address serviceName => rw [LoadBalancer.step, LoadBalancer.removeBackend_heap]
  | setHealthy b' healthy =>
      have e : b ≠ b' := fun e => ne_of_beq_false h e.symm
      rw [LoadBalancer.step, LoadBalancer.setHealthy, LoadBalancer.modify_heap_of_ne lb e]
  | incrementConnections b' => exact hmodify b' 1
  | decrementConnections b' => exact hmodify b' (-1)
  | nextBackend serviceName clientIP draw =>
      rw [LoadBalancer.step, LoadBalancer.nextBackend_heap]

/-! ## 2. One move -/

namespace Follows

variable {b : Ref} {last : Option Bool} {p q : Process}

/-- A move that leaves the flag and the pending answers leaves the relation. -/
theorem congr (h : Follows b last p)
    (hflag : (q.lb.heap b).isHealthy = (p.lb.heap b).isHealthy)
    (hchecks : ∀ healthy queue, .storing b healthy queue ∈ q.checks ↔
      .storing b healthy queue ∈ p.checks) : Follows b last q := by
  refine ⟨fun healthy queue hm => h.pending healthy queue ((hchecks _ _).mp hm),
    fun healthy e => ?_⟩
  rw [hflag]
  exact (h.flag healthy e).imp_right fun ⟨queue, hm⟩ => ⟨queue, (hchecks _ _).mpr hm⟩

/-- The one live check moves between two places at which no answer about `b` is pending. -/
theorem congr_single (h : Follows b last p) {c c' : CheckPc} (hp : p.checks = [c])
    (hq : q.checks = [c']) (hc : ∀ healthy queue, c ≠ .storing b healthy queue)
    (hc' : ∀ healthy queue, c' ≠ .storing b healthy queue)
    (hflag : (q.lb.heap b).isHealthy = (p.lb.heap b).isHealthy) : Follows b last q :=
  h.congr hflag fun healthy queue => by
    rw [hp, hq, List.mem_singleton, List.mem_singleton]
    exact ⟨fun e => absurd e.symm (hc' _ _), fun e => absurd e.symm (hc _ _)⟩

end Follows

theorem answers_of_not_probing {p : Process} {i : Nat} {c : CheckPc} {services : List String}
    {net : Network} (hi : p.checks[i]? = some c) (hc : ∀ b queue, c ≠ .probing (b :: queue)) :
    p.answers (.check i services net) = [] := by
  rw [Process.answers]
  split
  · rfl
  · split
    · rename_i e
      exact absurd (Option.some.inj (hi.symm.trans e)) (hc _ _)
    · rfl

theorem follows_fires {b : Ref} {last : Option Bool} {p q : Process} {m : Process.Move}
    (h : Follows b last p) (hu : p.Undisturbed b m) (hc : p.crashed = false) (hf : Fires p m q) :
    Follows b (lastAnswer b (p.answers m) last) q := by
  have hsame : ∀ {q : Process}, q.lb = p.lb → q.checks = p.checks → Follows b last q :=
    fun hlb hch => h.congr (by rw [hlb]) fun _ _ => by rw [hch]
  have hnone : p.answers m = [] → lastAnswer b (p.answers m) last = last :=
    fun e => by rw [e]; rfl
  cases hf with
  | call c =>
      rw [hnone (by simp [Process.answers])]
      exact h.congr (isHealthy_call hu.2 p.lb) fun _ _ => Iff.rfl
  | spawn tick hl =>
      rw [hnone (by simp [Process.answers])]
      exact h.congr rfl fun _ _ => by simp
  | copy i services net hi =>
      obtain ⟨rfl, hp⟩ := eq_singleton_of_getElem? hu.1 hi
      rw [hnone (answers_of_not_probing hi nofun)]
      exact h.congr_single hp (by rw [hp]; rfl) (by simp) (by simp) rfl
  | answer i services net b' queue hi =>
      obtain ⟨rfl, hp⟩ := eq_singleton_of_getElem? hu.1 hi
      have hans : p.answers (.check 0 services net) = [(b', p.probe net b')] := by
        simp [Process.answers, hc, hp]
      rw [hans]
      by_cases e : b' = b
      · subst e
        have hlast : lastAnswer b' [(b', p.probe net b')] last = some (p.probe net b') := if_pos rfl
        rw [hlast]
        refine ⟨fun healthy queue' hm => ?_, fun healthy e => .inr ⟨queue, ?_⟩⟩
        · rw [hp] at hm
          cases List.mem_singleton.mp hm
          rfl
        · cases e
          rw [hp]
          exact List.mem_singleton_self _
      · have hlast : lastAnswer b [(b', p.probe net b')] last = last := if_neg e
        rw [hlast]
        refine h.congr_single hp (by rw [hp]; rfl) (by simp) (fun healthy queue' eq => ?_) rfl
        exact e (CheckPc.storing.inj eq).1
  | store i services net b' healthy queue hi =>
      obtain ⟨rfl, hp⟩ := eq_singleton_of_getElem? hu.1 hi
      rw [hnone (answers_of_not_probing hi nofun)]
      by_cases e : b = b'
      · subst e
        have hlast := h.pending healthy queue (by rw [hp]; exact List.mem_singleton_self _)
        refine ⟨fun healthy' queue' hm => ?_, fun healthy' e => .inl ?_⟩
        · rw [hp] at hm
          cases List.mem_singleton.mp hm
        · cases hlast.symm.trans e
          dsimp only
          rw [LoadBalancer.setHealthy, LoadBalancer.modify_heap_self]
          cases healthy <;> rfl
      · refine h.congr_single hp (by rw [hp]; rfl) (fun healthy' queue' eq => ?_) (by simp) ?_
        · exact e (CheckPc.storing.inj eq).1.symm
        · dsimp only
          rw [LoadBalancer.setHealthy, LoadBalancer.modify_heap_of_ne p.lb e]
  | finish i services net hi hw =>
      obtain ⟨rfl, hp⟩ := eq_singleton_of_getElem? hu.1 hi
      rw [hnone (answers_of_not_probing hi nofun)]
      exact h.congr rfl fun _ _ => by simp [hp]
  | finishTwice i services net hi hw =>
      rw [hnone (answers_of_not_probing hi nofun)]
      exact hsame rfl rfl
  | _ =>
      rw [hnone (by simp [Process.answers])]
      exact hsame rfl rfl

/-- A goroutine that cannot move gets no answer. -/
theorem answers_of_blocked {p : Process} {m : Process.Move} (h : p.next m = none) :
    p.answers m = [] := by
  unfold Process.answers
  split
  · rfl
  · rename_i hc
    cases m with
    | check i services net =>
        dsimp only
        split
        · rename_i b queue hi
          simp [Process.next, Process.checkNext, hc, hi] at h
        · rfl
    | _ => rfl

theorem follows_step {b : Ref} {last : Option Bool} {p : Process} {m : Process.Move}
    (h : Follows b last p) (hu : p.Undisturbed b m) :
    Follows b (lastAnswer b (p.answers m) last) (p.step m) := by
  cases e : p.next m with
  | some q =>
      rw [Process.step, e, Option.getD_some]
      exact follows_fires h hu (fires_of_next e).1 (fires_of_next e).2
  | none =>
      rw [Process.step, e, Option.getD_none, answers_of_blocked e]
      exact h

theorem follows_run {b : Ref} {last : Option Bool} {p : Process} {ms : List Process.Move}
    (h : Follows b last p) (hu : Lib.Along Process.step (Process.Undisturbed b) p ms) :
    Follows b (lastAnswer b (Lib.outputs Process.step Process.answers p ms) last)
      (Lib.run Process.step p ms) := by
  induction ms generalizing last p with
  | nil => exact h
  | cons m ms ih =>
      rw [Lib.outputs, lastAnswer, List.foldl_append]
      exact ih (follows_step h hu.1) hu.2

/-! ## 3. Runs -/

theorem follows_new (b : Ref) (config : BalancerConfig) (heap : Heap) (ports : Ref → Int) :
    Follows b none (newProcess config heap ports) := ⟨by simp [newProcess], nofun⟩

/-- Once no check holds an answer about `b` back, the flag is the last answer. -/
theorem Follows.written {b : Ref} {healthy : Bool} {last : Option Bool} {p : Process}
    (h : Follows b last p) (hlast : last = some healthy)
    (hw : ∀ c ∈ p.checks, c.holds b = false) : (p.lb.heap b).isHealthy = healthy := by
  refine (h.flag healthy hlast).resolve_right ?_
  rintro ⟨queue, hm⟩
  exact absurd (hw _ hm) (by simp [CheckPc.holds])

/-- **A flag is the answer of the last probe**, in every run in which at most one check is alive at
    a time and no client sets the flag, once that answer has been written. -/
theorem flags_follow_probes (config : BalancerConfig) (heap : Heap) (ports : Ref → Int)
    (ms : List Process.Move) (b : Ref) (healthy : Bool)
    (hu : Lib.Along Process.step (Process.Undisturbed b) (newProcess config heap ports) ms)
    (hlast : lastAnswer b
      (Lib.outputs Process.step Process.answers (newProcess config heap ports) ms) none =
        some healthy)
    (hwritten : ∀ c ∈ (processAfter config heap ports ms).checks, c.holds b = false) :
    ((processAfter config heap ports ms).lb.heap b).isHealthy = healthy :=
  (follows_run (follows_new b config heap ports) hu).written hlast hwritten

/-- A backend of the service `web` behind every pointer, and the network up and down. -/
def probedHeap : Heap := fun _ => { address := "10.0.0.1", serviceName := "web" }

def probedConfig : BalancerConfig := { type := .roundRobin, healthCheck := true }

def netUp : Network := ⟨fun _ _ => true, fun _ _ => some 200⟩

def netDown : Network := ⟨fun _ _ => false, fun _ _ => none⟩

/-- One check from its start to its end. -/
def oneCheck : List Process.Move :=
  [.call (.addBackend 0), .loop false, .loop false, .check 0 ["web"] netUp,
    .check 0 ["web"] netUp, .check 0 ["web"] netUp, .check 0 ["web"] netUp]

theorem flags_follow_one_check :
    ((processAfter probedConfig probedHeap (fun _ => 80) oneCheck).lb.heap 0).isHealthy = true := by
  have hdone : (processAfter probedConfig probedHeap (fun _ => 80) oneCheck).checks = [] := by
    decide
  refine flags_follow_probes probedConfig probedHeap (fun _ => 80) oneCheck 0 true
    (by decide) (by decide) fun c hc => ?_
  rw [hdone] at hc
  cases hc

/-- The algorithm asks for health. -/
def Algorithm.asksHealth : Algorithm → Bool
  | .roundRobin _ => false
  | _ => true

/-- **What an algorithm that asks for health gives is healthy.** -/
theorem select_isHealthy {a : Algorithm} (ha : a.asksHealth = true) {heap : Heap}
    {backends : List Ref} {s clientIP : String} {draw : Nat} {b : Ref}
    (h : (a.select heap backends s clientIP draw).1 = some b) : (heap b).isHealthy = true := by
  have hindex : ∀ i : Nat, (if (healthyBackends heap backends).isEmpty then none
      else (healthyBackends heap backends)[i]?) = some b → (heap b).isHealthy = true := by
    intro i hi
    split at hi
    · cases hi
    · exact (mem_healthyBackends.mp (List.mem_of_getElem? hi)).2
  cases a with
  | roundRobin states => cases ha
  | leastConnection =>
      rcases leastConnectionSelect_cases heap backends with ⟨c, hc, -, e⟩ | ⟨-, e⟩
      · cases e.symm.trans h
        exact hc.mem.2
      · cases e.symm.trans h
  | weightedRoundRobin states weights =>
      simp only [Algorithm.select, weightedRoundRobinSelect] at h
      split at h
      · cases h
      · split at h
        · cases h
        · rename_i hne ht
          have hw : weighed weights heap backends ≠ [] := fun e => ht (by rw [e]; rfl)
          obtain ⟨c, hc, e⟩ := weightedPick_mem hw (states.next s)
          rw [map_fst_weighed] at hc
          cases e.symm.trans h
          exact (mem_healthyBackends.mp hc).2
  | ipHash => exact hindex _ h
  | random => exact hindex _ h

/-- No call changes the kind of the algorithm. -/
theorem asksHealth_call (lb : LoadBalancer) (c : Call) :
    (lb.step c).algorithm.asksHealth = lb.algorithm.asksHealth := by
  cases c with
  | addBackend b => rw [LoadBalancer.step, LoadBalancer.addBackend_algorithm]
  | removeBackend address serviceName =>
      rw [LoadBalancer.step, LoadBalancer.removeBackend_algorithm]
  | nextBackend serviceName clientIP draw =>
      rw [LoadBalancer.step, LoadBalancer.nextBackend]
      split
      · rfl
      · dsimp only
        cases lb.algorithm <;> rfl
  | setHealthy | incrementConnections | decrementConnections => rfl

theorem asksHealth_after (config : BalancerConfig) (heap : Heap) (ports : Ref → Int)
    (ms : List Process.Move) :
    (processAfter config heap ports ms).lb.algorithm.asksHealth =
      (newAlgorithm config.type config.weights).asksHealth := by
  let Kind : Process → Prop := fun p =>
    p.lb.algorithm.asksHealth = (newAlgorithm config.type config.weights).asksHealth
  have hstep : ∀ p m, Kind p → Kind (p.step m) := fun p m hp =>
    @Process.step_of_fires Kind p m hp fun q _ hf => by
      cases hf with
      | call c => exact (asksHealth_call p.lb c).trans hp
      | _ => exact hp
  exact @Lib.run_inv_always _ _ Process.step Kind hstep (newProcess config heap ports) rfl ms

/-- **A backend found down is not handed out.** Under the conditions of `flags_follow_probes`, if
    the last probe of a backend failed, no `NextBackend` call is answered by it, for any service
    and client, unless the algorithm is round robin. -/
theorem nextBackend_skips_down (config : BalancerConfig) (heap : Heap) (ports : Ref → Int)
    (ms : List Process.Move) (b : Ref) (s clientIP : String) (draw : Nat)
    (hu : Lib.Along Process.step (Process.Undisturbed b) (newProcess config heap ports) ms)
    (hlast : lastAnswer b
      (Lib.outputs Process.step Process.answers (newProcess config heap ports) ms) none =
        some false)
    (hwritten : ∀ c ∈ (processAfter config heap ports ms).checks, c.holds b = false)
    (ha : (newAlgorithm config.type config.weights).asksHealth = true) :
    ((processAfter config heap ports ms).lb.nextBackend s clientIP draw).1 ≠ some b := by
  intro h
  rw [← asksHealth_after config heap ports ms] at ha
  have hdown := (follows_run (follows_new b config heap ports) hu).written hlast hwritten
  rw [LoadBalancer.nextBackend_fst] at h
  split at h
  · cases h
  · have hup := select_isHealthy ha h
    rw [hdown] at hup
    cases hup

/-- A check that finds the only backend down: least connection has nothing to give. -/
def downCheck : List Process.Move :=
  [.call (.addBackend 0), .call (.setHealthy 1 true), .loop false, .loop false,
    .check 0 ["web"] netDown, .check 0 ["web"] netDown, .check 0 ["web"] netDown]

theorem nextBackend_skips_down_web :
    ((processAfter { type := .leastConnection, healthCheck := true } probedHeap (fun _ => 80)
      downCheck).lb.nextBackend "web" "" 0).1 ≠ some 0 := by
  have hdone : (processAfter { type := .leastConnection, healthCheck := true } probedHeap
      (fun _ => 80) downCheck).checks = [.probing []] := by decide
  refine nextBackend_skips_down _ probedHeap (fun _ => 80) downCheck 0 "web" "" 0 (by decide)
    (by decide) (fun c hc => ?_) rfl
  rw [hdone, List.mem_singleton] at hc
  subst hc
  rfl

/-- Two checks of which the first is overtaken by the second. -/
def twoChecks : List Process.Move :=
  [.call (.addBackend 0), .loop false, .loop false, .loop true, .loop false, .loop false,
    .check 0 ["web"] netUp, .check 1 ["web"] netUp,
    .check 0 ["web"] netUp, .check 1 ["web"] netDown,
    .check 1 ["web"] netDown, .check 0 ["web"] netUp,
    .check 1 ["web"] netDown, .check 0 ["web"] netUp]

/-- **Overlapping checks lose the newer answer**: the last probe found the backend down, both checks
    have ended, and it is taken for healthy. -/
theorem flags_lag_on_overlap :
    lastAnswer 0 (Lib.outputs Process.step Process.answers
        (newProcess probedConfig probedHeap fun _ => 80) twoChecks) none = some false ∧
      (processAfter probedConfig probedHeap (fun _ => 80) twoChecks).checks = [] ∧
      ((processAfter probedConfig probedHeap (fun _ => 80) twoChecks).lb.heap 0).isHealthy =
        true := by
  decide

end HeliosLB
