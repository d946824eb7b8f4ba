/-
  File:      HeliosLB/Balancer/Lifecycle.lean
  Subject:   THE GOROUTINES OF A BALANCER: the loop that `NewLoadBalancer` starts, the checks the
             loop starts, the callers of `Stop` (`healthCheckLoop`, `doHealthCheck` in health.go,
             `Stop` in balancer.go), in every interleaving with each other and with the clients.

  One move is one atomic action of one goroutine: an operation on a `WaitGroup` or on `stopCh`, the
  copy of the registry under `mu`, the answer to one probe, one `SetHealthy`. A goroutine that is
  blocked cannot move (`next` is `none`); a panic ends the process (`crashed`).

  * `Process`, `Process.Move`, `Process.next` -- the state, the moves, what a move does;
  * `Fires`, `fires_of_next` -- every transition once, with its guard; all invariants go through it;
  * **`Coherent`** -- the counters of both `WaitGroup`s are the goroutines they stand for, the loop
    leaves only when no check is alive, a caller passes `wg.Wait` only when the loop is gone;
  * `Fires.crash` -- so no counter goes below zero, and the one panic is the second `close`.

  What follows for the callers of `Stop` stands in Stop.lean, for the health flags in Flags.lean.
-/
import HeliosLB.Balancer.HealthCheck
import Mathlib.Algebra.Order.Group.Nat

namespace HeliosLB

/-! ## 1. The process -/

/-- Where `healthCheckLoop` stands: before `checkWg.Add(1)`, before `go`, in the `select`, in
    `checkWg.Wait`, before the deferred `wg.Done`, gone. -/
inductive LoopPc where
  | adding
  | spawning
  | selecting
  | waiting
  | leaving
  | ended
  deriving DecidableEq, Repr

/-- Where a check stands: before the copy, before the probe of the next backend (or, at the end of
    the queue, before `checkWg.Done`), between a probe and its `SetHealthy`. -/
inductive CheckPc where
  | copying
  | probing (queue : List Ref)
  | storing (backend : Ref) (healthy : Bool) (queue : List Ref)
  deriving DecidableEq, Repr

/-- Where a caller of `Stop` stands: in the `select`, in its `default` branch, in `wg.Wait`, in
    `checkWg.Wait`, or back, with whether it was the one that closed the channel. -/
inductive StopPc where
  | selecting
  | closing
  | waitLoop
  | waitChecks
  | returned (closed : Bool)
  deriving DecidableEq, Repr

/-- A balancer with its goroutines. -/
structure Process where
  lb : LoadBalancer
  opts : HealthCheckOptions
  ports : Ref → Int
  loop : LoopPc
  checks : List CheckPc := []
  wg : Nat
  checkWg : Nat := 0
  stopped : Bool := false
  callers : List StopPc := []
  crashed : Bool := false

/-- `NewLoadBalancer` with the goroutine it starts. -/
def newProcess (config : BalancerConfig) (heap : Heap) (ports : Ref → Int) : Process :=
  let config := config.withDefaults
  { lb := newLoadBalancer config.type config.weights heap
    opts := config.healthCheckOpts, ports
    loop := if config.healthCheck then .adding else .ended
    wg := if config.healthCheck then 1 else 0 }

/-- What happens next: a client's call, a client's call of `Stop`, or a move of a goroutine. `tick`
    is the branch the `select` of the loop takes; `services` is the order the map is walked in, and
    `net` what the network answers. -/
inductive Process.Move where
  | call (c : Call)
  | stop
  | loop (tick : Bool)
  | check (i : Nat) (services : List String) (net : Network)
  | caller (k : Nat)

namespace Process

/-- A move of `healthCheckLoop`. -/
def loopNext (p : Process) (tick : Bool) : Option Process :=
  match p.loop with
  | .adding => some { p with loop := .spawning, checkWg := p.checkWg + 1 }
  | .spawning => some { p with loop := .selecting, checks := p.checks ++ [.copying] }
  | .selecting =>
    if tick then some { p with loop := .adding }
    else if p.stopped then some { p with loop := .waiting }
    else none
  | .waiting => if p.checkWg = 0 then some { p with loop := .leaving } else none
  | .leaving =>
    if p.wg = 0 then some { p with crashed := true }
    else some { p with loop := .ended, wg := p.wg - 1 }
  | .ended => none

/-- The answer to a probe of `b`. -/
def probe (p : Process) (net : Network) (b : Ref) : Bool :=
  checkBackendHealth net p.opts (p.lb.heap b) (p.ports b)

/-- A move of check `i`. -/
def checkNext (p : Process) (i : Nat) (services : List String) (net : Network) : Option Process :=
  match p.checks[i]? with
  | none => none
  | some .copying =>
    some { p with checks := p.checks.set i (.probing (services.flatMap p.lb.registered)) }
  | some (.probing (b :: queue)) =>
    some { p with checks := p.checks.set i (.storing b (p.probe net b) queue) }
  | some (.storing b healthy queue) =>
    some { p with lb := p.lb.setHealthy b healthy, checks := p.checks.set i (.probing queue) }
  | some (.probing []) =>
    if p.checkWg = 0 then some { p with crashed := true }
    else some { p with checkWg := p.checkWg - 1, checks := p.checks.eraseIdx i }

/-- A move of caller `k` of `Stop`. -/
def callerNext (p : Process) (k : Nat) : Option Process :=
  match p.callers[k]? with
  | none => none
  | some .selecting =>
    some { p with callers := p.callers.set k (if p.stopped then .returned false else .closing) }
  | some .closing =>
    if p.stopped then some { p with crashed := true }
    else some { p with stopped := true, callers := p.callers.set k .waitLoop }
  | some .waitLoop =>
    if p.wg = 0 then some { p with callers := p.callers.set k .waitChecks } else none
  | some .waitChecks =>
    if p.checkWg = 0 then some { p with callers := p.callers.set k (.returned true) } else none
  | some (.returned _) => none

/-- What a move does; `none` if the goroutine is blocked or the process is gone. -/
def next (p : Process) (m : Process.Move) : Option Process :=
  if p.crashed then none
  else
    match m with
    | .call c => some { p with lb := p.lb.step c }
    | .stop => some { p with callers := p.callers ++ [.selecting] }
    | .loop tick => p.loopNext tick
    | .check i services net => p.checkNext i services net
    | .caller k => p.callerNext k

/-- The process after a move. -/
def step (p : Process) (m : Process.Move) : Process := (p.next m).getD p

end Process

/-! ## 2. The transitions -/

/-- **Every transition, with its guard**; the last three are the places that panic. -/
inductive Fires (p : Process) : Process.Move → Process → Prop where
  | call (c : Call) : Fires p (.call c) { p with lb := p.lb.step c }
  | stop : Fires p .stop { p with callers := p.callers ++ [.selecting] }
  | add (tick : Bool) (h : p.loop = .adding) :
      Fires p (.loop tick) { p with loop := .spawning, checkWg := p.checkWg + 1 }
  | spawn (tick : Bool) (h : p.loop = .spawning) :
      Fires p (.loop tick) { p with loop := .selecting, checks := p.checks ++ [.copying] }
  | tick (h : p.loop = .selecting) : Fires p (.loop true) { p with loop := .adding }
  | see (h : p.loop = .selecting) (hs : p.stopped = true) :
      Fires p (.loop false) { p with loop := .waiting }
  | passChecks (tick : Bool) (h : p.loop = .waiting) (hw : p.checkWg = 0) :
      Fires p (.loop tick) { p with loop := .leaving }
  | leave (tick : Bool) (h : p.loop = .leaving) (hw : p.wg ≠ 0) :
      Fires p (.loop tick) { p with loop := .ended, wg := p.wg - 1 }
  | copy (i : Nat) (services : List String) (net : Network) (h : p.checks[i]? = some .copying) :
      Fires p (.check i services net)
        { p with checks := p.checks.set i (.probing (services.flatMap p.lb.registered)) }
  | answer (i : Nat) (services : List String) (net : Network) (b : Ref) (queue : List Ref)
      (h : p.checks[i]? = some (.probing (b :: queue))) :
      Fires p (.check i services net)
        { p with checks := p.checks.set i (.storing b (p.probe net b) queue) }
  | store (i : Nat) (services : List String) (net : Network) (b : Ref) (healthy : Bool)
      (queue : List Ref) (h : p.checks[i]? = some (.storing b healthy queue)) :
      Fires p (.check i services net)
        { p with lb := p.lb.setHealthy b healthy, checks := p.checks.set i (.probing queue) }
  | finish (i : Nat) (services : List String) (net : Network)
      (h : p.checks[i]? = some (.probing [])) (hw : p.checkWg ≠ 0) :
      Fires p (.check i services net)
        { p with checkWg := p.checkWg - 1, checks := p.checks.eraseIdx i }
  | test (k : Nat) (h : p.callers[k]? = some .selecting) :
      Fires p (.caller k)
        { p with callers := p.callers.set k (if p.stopped then .returned false else .closing) }
  | close (k : Nat) (h : p.callers[k]? = some .closing) (hs : p.stopped = false) :
      Fires p (.caller k) { p with stopped := true, callers := p.callers.set k .waitLoop }
  | passLoop (k : Nat) (h : p.callers[k]? = some .waitLoop) (hw : p.wg = 0) :
      Fires p (.caller k) { p with callers := p.callers.set k .waitChecks }
  | back (k : Nat) (h : p.callers[k]? = some .waitChecks) (hw : p.checkWg = 0) :
      Fires p (.caller k) { p with callers := p.callers.set k (.returned true) }
  | leaveTwice (tick : Bool) (h : p.loop = .leaving) (hw : p.wg = 0) :
      Fires p (.loop tick) { p with crashed := true }
  | finishTwice (i : Nat) (services : List String) (net : Network)
      (h : p.checks[i]? = some (.probing [])) (hw : p.checkWg = 0) :
      Fires p (.check i services net) { p with crashed := true }
  | closeTwice (k : Nat) (h : p.callers[k]? = some .closing) (hs : p.stopped = true) :
      Fires p (.caller k) { p with crashed := true }

theorem fires_of_loopNext {p q : Process} {tick : Bool} (h : p.loopNext tick = some q) :
    Fires p (.loop tick) q := by
  unfold Process.loopNext at h
  split at h
  · cases h
    exact .add tick (by assumption)
  · cases h
    exact .spawn tick (by assumption)
  · split at h
    · rename_i ht
      cases h
      cases ht
      exact .tick (by assumption)
    · split at h
      · rename_i ht hs
        cases h
        rw [Bool.not_eq_true] at ht
        subst ht
        exact .see (by assumption) hs
      · cases h
  · split at h
    · cases h
      exact .passChecks tick (by assumption) (by assumption)
    · cases h
  · split at h
    · cases h
      exact .leaveTwice tick (by assumption) (by assumption)
    · cases h
      exact .leave tick (by assumption) (by assumption)
  · cases h

theorem fires_of_checkNext {p q : Process} {i : Nat} {services : List String} {net : Network}
    (h : p.checkNext i services net = some q) : Fires p (.check i services net) q := by
  unfold Process.checkNext at h
  split at h
  · cases h
  · cases h
    exact .copy i services net (by assumption)
  · cases h
    exact .answer i services net _ _ (by assumption)
  · cases h
    exact .store i services net _ _ _ (by assumption)
  · split at h
    · cases h
      exact .finishTwice i services net (by assumption) (by assumption)
    · cases h
      exact .finish i services net (by assumption) (by assumption)

theorem fires_of_callerNext {p q : Process} {k : Nat} (h : p.callerNext k = some q) :
    Fires p (.caller k) q := by
  unfold Process.callerNext at h
  split at h
  · cases h
  · cases h
    exact .test k (by assumption)
  · split at h
    · cases h
      exact .closeTwice k (by assumption) (by assumption)
    · rename_i hs
      cases h
      exact .close k (by assumption) (Bool.not_eq_true _ ▸ hs)
  · split at h
    · cases h
      exact .passLoop k (by assumption) (by assumption)
    · cases h
  · split at h
    · cases h
      exact .back k (by assumption) (by assumption)
    · cases h
  · cases h

theorem fires_of_next {p q : Process} {m : Process.Move} (h : p.next m = some q) :
    p.crashed = false ∧ Fires p m q := by
  unfold Process.next at h
  split at h
  · cases h
  · rename_i hc
    refine ⟨Bool.not_eq_true _ ▸ hc, ?_⟩
    cases m with
    | call c =>
        cases h
        exact .call c
    | stop =>
        cases h
        exact .stop
    | loop tick => exact fires_of_loopNext h
    | check i services net => exact fires_of_checkNext h
    | caller k => exact fires_of_callerNext h

/-- What every transition keeps, every step keeps. -/
theorem Process.step_of_fires {P : Process → Prop} {p : Process} (m : Process.Move) (hp : P p)
    (h : ∀ q, p.crashed = false → Fires p m q → P q) : P (p.step m) := by
  unfold Process.step
  cases e : p.next m with
  | none => exact hp
  | some q => exact h q (fires_of_next e).1 (fires_of_next e).2

/-! ## 3. The counters are the goroutines -/

/-- **The invariant of the goroutines.** -/
structure Coherent (p : Process) : Prop where
  wg : p.wg = if p.loop = .ended then 0 else 1
  checkWg : p.checkWg = p.checks.length + if p.loop = .spawning then 1 else 0
  seen : p.loop = .waiting → p.stopped = true
  quiet : p.loop = .leaving ∨ p.loop = .ended → p.checks = []
  closed : ∀ c ∈ p.callers, c = .selecting ∨ c = .closing ∨ p.stopped = true
  past : ∀ c ∈ p.callers, c = .waitChecks ∨ c = .returned true → p.loop = .ended

theorem coherent_new (config : BalancerConfig) (heap : Heap) (ports : Ref → Int) :
    Coherent (newProcess config heap ports) := by
  unfold newProcess
  refine ⟨?_, ?_, ?_, fun _ => rfl, by simp, by simp⟩ <;> dsimp only <;> split <;> simp

/-- A caller that moves keeps what holds of the others. -/
theorem forall_mem_set {α : Type*} {P : α → Prop} {l : List α} (h : ∀ x ∈ l, P x) (i : Nat) {y : α}
    (hy : P y) : ∀ x ∈ l.set i y, P x :=
  fun _ hx => (List.mem_or_eq_of_mem_set hx).elim (h _) (fun e => e ▸ hy)

theorem ne_nil_of_getElem? {α : Type*} {l : List α} {i : Nat} {x : α} (h : l[i]? = some x) :
    l ≠ [] := List.ne_nil_of_mem (List.mem_of_getElem? h)

namespace Coherent

variable {p : Process}

/-- A check is alive only before the loop leaves. -/
theorem busy (h : Coherent p) {i : Nat} {c : CheckPc} (hi : p.checks[i]? = some c) :
    ¬ (p.loop = .leaving ∨ p.loop = .ended) :=
  fun hl => ne_nil_of_getElem? hi (h.quiet hl)

theorem set_check (h : Coherent p) {i : Nat} {c : CheckPc} (hi : p.checks[i]? = some c)
    (lb : LoadBalancer) (c' : CheckPc) :
    Coherent { p with lb := lb, checks := p.checks.set i c' } := by
  refine ⟨h.wg, ?_, h.seen, fun hl => absurd hl (h.busy hi), h.closed, h.past⟩
  dsimp only
  rw [List.length_set]
  exact h.checkWg

theorem set_caller (h : Coherent p) (k : Nat) {c : StopPc}
    (hc : c = .selecting ∨ c = .closing ∨ p.stopped = true)
    (hp : c = .waitChecks ∨ c = .returned true → p.loop = .ended) :
    Coherent { p with callers := p.callers.set k c } :=
  ⟨h.wg, h.checkWg, h.seen, h.quiet, forall_mem_set h.closed k hc, forall_mem_set h.past k hp⟩

/-- A loop that has not ended has let no caller past `wg.Wait`. -/
theorem not_past (h : Coherent p) (hl : p.loop ≠ .ended) {P : Prop} :
    ∀ c ∈ p.callers, c = .waitChecks ∨ c = .returned true → P :=
  fun c hc hp => absurd (h.past c hc hp) hl

/-- Once a caller is past its `close`, the channel is closed. -/
theorem stopped_of_mem (h : Coherent p) {k : Nat} {c : StopPc} (hk : p.callers[k]? = some c)
    (h₁ : c ≠ .selecting) (h₂ : c ≠ .closing) : p.stopped = true :=
  (h.closed c (List.mem_of_getElem? hk)).resolve_left h₁ |>.resolve_left h₂

end Coherent

theorem coherent_fires {p q : Process} {m : Process.Move} (h : Coherent p) (hf : Fires p m q) :
    Coherent q := by
  have hwg := h.wg
  have hcount := h.checkWg
  cases hf with
  | call c => exact ⟨h.wg, h.checkWg, h.seen, h.quiet, h.closed, h.past⟩
  | stop =>
      refine ⟨h.wg, h.checkWg, h.seen, h.quiet, fun c hc => ?_, fun c hc => ?_⟩
      all_goals
        rw [List.mem_append, List.mem_singleton] at hc
        obtain hc | rfl := hc
      · exact h.closed c hc
      · exact .inl rfl
      · exact h.past c hc
      · simp
  | add tick hl =>
      refine ⟨?_, ?_, nofun, by simp, h.closed, h.not_past (by simp [hl])⟩
      · simpa [hl] using hwg
      · simpa [hl] using hcount
  | spawn tick hl =>
      refine ⟨?_, ?_, nofun, by simp, h.closed, h.not_past (by simp [hl])⟩
      · simpa [hl] using hwg
      · simpa [hl] using hcount
  | tick hl =>
      refine ⟨?_, ?_, nofun, by simp, h.closed, h.not_past (by simp [hl])⟩
      · simpa [hl] using hwg
      · simpa [hl] using hcount
  | see hl hs =>
      refine ⟨?_, ?_, fun _ => hs, by simp, h.closed, h.not_past (by simp [hl])⟩
      · simpa [hl] using hwg
      · simpa [hl] using hcount
  | passChecks tick hl hw =>
      -- the counter is the number of live checks here, so none is alive
      have hnil : p.checks = [] := by simpa [hl, hw] using hcount.symm
      refine ⟨?_, ?_, nofun, fun _ => hnil, h.closed, h.not_past (by simp [hl])⟩
      · simpa [hl] using hwg
      · simpa [hl] using hcount
  | leave tick hl hw =>
      refine ⟨?_, ?_, nofun, fun _ => h.quiet (.inl hl), h.closed, fun _ _ _ => rfl⟩
      · simp [hwg, hl]
      · simpa [hl] using hcount
  | copy i services net hi => exact h.set_check hi p.lb _
  | answer i services net b queue hi => exact h.set_check hi p.lb _
  | store i services net b healthy queue hi => exact h.set_check hi _ _
  | finish i services net hi hw =>
      have hlt : i < p.checks.length := (List.getElem?_eq_some_iff.mp hi).1
      refine ⟨h.wg, ?_, h.seen, fun hl => absurd hl (h.busy hi), h.closed, h.past⟩
      dsimp only
      rw [List.length_eraseIdx_of_lt hlt]
      omega
  | test k hk =>
      refine h.set_caller k ?_ ?_
      · split
        · exact .inr (.inr (by assumption))
        · exact .inr (.inl rfl)
      · split <;> simp
  | close k hk hs =>
      refine ⟨h.wg, h.checkWg, fun _ => rfl, h.quiet, fun _ _ => .inr (.inr rfl), ?_⟩
      exact forall_mem_set h.past k (by simp)
  | passLoop k hk hw =>
      refine h.set_caller k (.inr (.inr (h.stopped_of_mem hk (by simp) (by simp)))) fun _ => ?_
      -- `wg` is zero only when the loop is gone
      by_contra hl
      rw [hwg, if_neg hl] at hw
      exact one_ne_zero hw
  | back k hk hw =>
      refine h.set_caller k (.inr (.inr (h.stopped_of_mem hk (by simp) (by simp)))) fun _ => ?_
      exact h.past _ (List.mem_of_getElem? hk) (.inl rfl)
  | leaveTwice tick hl hw => exact ⟨h.wg, h.checkWg, h.seen, h.quiet, h.closed, h.past⟩
  | finishTwice i services net hi hw =>
      exact ⟨h.wg, h.checkWg, h.seen, h.quiet, h.closed, h.past⟩
  | closeTwice k hk hs => exact ⟨h.wg, h.checkWg, h.seen, h.quiet, h.closed, h.past⟩

theorem coherent_step {p : Process} (m : Process.Move) (h : Coherent p) : Coherent (p.step m) :=
  Process.step_of_fires m h fun _ _ hf => coherent_fires h hf

/-- The process that a balancer has become after the moves. -/
abbrev processAfter (config : BalancerConfig) (heap : Heap) (ports : Ref → Int)
    (ms : List Process.Move) : Process :=
  Lib.run Process.step (newProcess config heap ports) ms

theorem processAfter_append (config : BalancerConfig) (heap : Heap) (ports : Ref → Int)
    (ms ms' : List Process.Move) :
    processAfter config heap ports (ms ++ ms') =
      Lib.run Process.step (processAfter config heap ports ms) ms' :=
  List.foldl_append

theorem coherent_after (config : BalancerConfig) (heap : Heap) (ports : Ref → Int)
    (ms : List Process.Move) : Coherent (processAfter config heap ports ms) :=
  Lib.run_inv_always Process.step (fun _ m hp => coherent_step m hp)
    (coherent_new config heap ports) ms

/-- **No counter goes below zero**: the one transition that panics is the second `close`. -/
theorem Fires.crash {p q : Process} {m : Process.Move} (h : Coherent p) (hf : Fires p m q)
    (hp : p.crashed = false) (hq : q.crashed = true) :
    ∃ k : Nat, p.callers[k]? = some .closing ∧ p.stopped = true := by
  have hwg := h.wg
  have hcount := h.checkWg
  cases hf with
  | leaveTwice tick hl hw => simp [hl, hw] at hwg
  | finishTwice i services net hi hw =>
      have hlt : i < p.checks.length := (List.getElem?_eq_some_iff.mp hi).1
      omega
  | closeTwice k hk hs => exact ⟨k, hk, hs⟩
  | _ => exact absurd (hp.symm.trans hq) Bool.false_ne_true

end HeliosLB
