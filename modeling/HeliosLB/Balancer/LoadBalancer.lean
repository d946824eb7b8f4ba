/-
  File:      HeliosLB/Balancer/LoadBalancer.lean
  Subject:   THE REGISTRY AND ITS CALLS (internal/loadbalancer/balancer.go, backend.go and
             `NextBackend`) as a step function.

  * `LoadBalancer`, `newLoadBalancer` -- the maps, the algorithm, the memory behind the pointers;
  * `addBackend`, `removeBackend`, `nextBackend` … -- the methods;
  * `Call`, `step` -- one call of a client; a run is a list of calls (Lib/Runs.lean).

  A call is atomic: the maps are read and written under `mu`, and the list `NextBackend` hands to
  `Select` is a copy. The records of `stats` are created here and never changed.
-/
import HeliosLB.Balancer.Algorithms
import HeliosLB.Lib.Runs

namespace HeliosLB

/-- `LoadBalancerStats`. -/
structure LoadBalancerStats where
  totalConnections : Int32 := 0
  activeBackends : Int64 := 0
  healthyBackends : Int64 := 0
  deriving DecidableEq, Repr

/-- `LoadBalancer`, with the memory its pointers point into. -/
structure LoadBalancer where
  heap : Heap
  backends : String → Option (List Ref)
  stats : String → Option LoadBalancerStats
  algorithm : Algorithm

/-- `NewLoadBalancer`; the backends the clients hold are `heap`. -/
def newLoadBalancer (balancerType : BalancerType) (weights : List Weight) (heap : Heap) :
    LoadBalancer :=
  { heap, backends := fun _ => none, stats := fun _ => none,
    algorithm := newAlgorithm balancerType weights }

namespace LoadBalancer

/-- The backends registered under a service. -/
def registered (lb : LoadBalancer) (serviceName : String) : List Ref :=
  (lb.backends serviceName).getD []

/-- `AddBackend`. -/
def addBackend (lb : LoadBalancer) (backend : Ref) : LoadBalancer :=
  let serviceName := (lb.heap backend).serviceName
  match lb.backends serviceName with
  | none =>
    { lb with
      backends := Function.update lb.backends serviceName (some [backend])
      stats := Function.update lb.stats serviceName (some {}) }
  | some backends =>
    { lb with backends := Function.update lb.backends serviceName (some (backends ++ [backend])) }

/-- `RemoveBackend`: the first backend with the address. -/
def removeBackend (lb : LoadBalancer) (address serviceName : String) : LoadBalancer :=
  match lb.backends serviceName with
  | none => lb
  | some backends =>
    { lb with
      backends := Function.update lb.backends serviceName
        (some (backends.eraseP fun b => (lb.heap b).address == address)) }

/-- A write through a pointer. -/
def modify (lb : LoadBalancer) (b : Ref) (f : Backend → Backend) : LoadBalancer :=
  { lb with heap := Function.update lb.heap b (f (lb.heap b)) }

@[simp] theorem modify_heap_self (lb : LoadBalancer) (b : Ref) (f : Backend → Backend) :
    (lb.modify b f).heap b = f (lb.heap b) :=
  Function.update_self _ _ _

theorem modify_heap_of_ne (lb : LoadBalancer) {b c : Ref} (h : c ≠ b) (f : Backend → Backend) :
    (lb.modify b f).heap c = lb.heap c :=
  Function.update_of_ne h _ _

/-- A write that leaves the service name leaves all of them. -/
theorem modify_serviceName (lb : LoadBalancer) (b c : Ref) {f : Backend → Backend}
    (hf : ∀ x, (f x).serviceName = x.serviceName) :
    ((lb.modify b f).heap c).serviceName = (lb.heap c).serviceName := by
  by_cases e : c = b
  · rw [e, modify_heap_self, hf]
  · rw [modify_heap_of_ne lb e]

/-- `Backend.SetHealthy` on a pointer. -/
def setHealthy (lb : LoadBalancer) (b : Ref) (healthy : Bool) : LoadBalancer :=
  lb.modify b fun x => x.setHealthy healthy

/-- `IncrementConnections`. -/
def incrementConnections (lb : LoadBalancer) (b : Ref) : LoadBalancer :=
  lb.modify b fun x => x.addConnections 1

/-- `DecrementConnections`. -/
def decrementConnections (lb : LoadBalancer) (b : Ref) : LoadBalancer :=
  lb.modify b fun x => x.addConnections (-1)

/-- `NextBackend`. -/
def nextBackend (lb : LoadBalancer) (serviceName clientIP : String) (draw : Nat) :
    Option Ref × LoadBalancer :=
  let backends := lb.registered serviceName
  if backends.isEmpty then (none, lb)
  else
    let r := lb.algorithm.select lb.heap backends serviceName clientIP draw
    (r.1, { lb with algorithm := r.2 })

@[simp] theorem addBackend_heap (lb : LoadBalancer) (b : Ref) :
    (lb.addBackend b).heap = lb.heap := by
  rw [addBackend]
  split <;> rfl

@[simp] theorem addBackend_algorithm (lb : LoadBalancer) (b : Ref) :
    (lb.addBackend b).algorithm = lb.algorithm := by
  rw [addBackend]
  split <;> rfl

@[simp] theorem removeBackend_heap (lb : LoadBalancer) (address serviceName : String) :
    (lb.removeBackend address serviceName).heap = lb.heap := by
  rw [removeBackend]
  split <;> rfl

@[simp] theorem removeBackend_algorithm (lb : LoadBalancer) (address serviceName : String) :
    (lb.removeBackend address serviceName).algorithm = lb.algorithm := by
  rw [removeBackend]
  split <;> rfl

@[simp] theorem nextBackend_heap (lb : LoadBalancer) (serviceName clientIP : String) (draw : Nat) :
    (lb.nextBackend serviceName clientIP draw).2.heap = lb.heap := by
  rw [nextBackend]
  split <;> rfl

@[simp] theorem nextBackend_backends (lb : LoadBalancer) (serviceName clientIP : String)
    (draw : Nat) : (lb.nextBackend serviceName clientIP draw).2.backends = lb.backends := by
  rw [nextBackend]
  split <;> rfl

end LoadBalancer

/-- One call of a client; `draw` is what the random source gives this call. -/
inductive Call where
  | addBackend (backend : Ref)
  | removeBackend (address serviceName : String)
  | setHealthy (backend : Ref) (healthy : Bool)
  | incrementConnections (backend : Ref)
  | decrementConnections (backend : Ref)
  | nextBackend (serviceName clientIP : String) (draw : Nat)
  deriving DecidableEq, Repr

/-- The balancer after a call. -/
def LoadBalancer.step (lb : LoadBalancer) : Call → LoadBalancer
  | .addBackend b => lb.addBackend b
  | .removeBackend address serviceName => lb.removeBackend address serviceName
  | .setHealthy b healthy => lb.setHealthy b healthy
  | .incrementConnections b => lb.incrementConnections b
  | .decrementConnections b => lb.decrementConnections b
  | .nextBackend serviceName clientIP draw => (lb.nextBackend serviceName clientIP draw).2

end HeliosLB
