/-
  File:      HeliosLB/Balancer/Algorithms.lean
  Subject:   THE FIVE BALANCING ALGORITHMS (internal/loadbalancer/algorithms.go and the records of
             types.go and backend.go). Definitions and their own facts; no run.

  A `*Backend` is a reference into a heap: the registry holds references, and `SetHealthy` or
  `IncrementConnections` on a pointer is seen through every list that holds it. Go's `int` is 64
  bits wide.

  * `Backend`, `isHealthy`, `setHealthy`, `addConnections` -- the record and its atomic fields;
  * `BalancerType`, `Algorithm`, `newAlgorithm` -- the configured name and what it builds;
  * `roundRobinSelect` … `randomSelect` -- the five `Select` methods. The number `rand.Intn` is
    given from outside is an argument (`draw`), so a run stays a function of its labels;
  * `select` -- the dispatch through the interface.

  `AddUint32` and `AddInt32` wrap, as do `totalWeight` and `point`. The index is reduced by
  `uint32(len)`: a list whose length is a multiple of `2^32`, where Go would divide by zero, is not
  told apart here (`%` is total).
-/
import Mathlib.Data.List.Basic
import Mathlib.Logic.Function.Basic

namespace HeliosLB

/-- `Backend` (the port is read by the health check only). -/
structure Backend where
  address : String
  healthy : Int32 := 0
  connections : Int32 := 0
  serviceName : String
  weight : Int64 := 0
  deriving DecidableEq, Repr

/-- `IsHealthy`. -/
def Backend.isHealthy (b : Backend) : Bool := b.healthy == 1

/-- `SetHealthy`. -/
def Backend.setHealthy (b : Backend) (healthy : Bool) : Backend :=
  { b with healthy := if healthy then 1 else 0 }

/-- `atomic.AddInt32(&b.Connections, delta)`. -/
def Backend.addConnections (b : Backend) (delta : Int32) : Backend :=
  { b with connections := b.connections + delta }

theorem Backend.setHealthy_serviceName (healthy : Bool) (b : Backend) :
    (b.setHealthy healthy).serviceName = b.serviceName := rfl

theorem Backend.addConnections_serviceName (delta : Int32) (b : Backend) :
    (b.addConnections delta).serviceName = b.serviceName := rfl

/-- `Weight`. -/
structure Weight where
  serviceName : String
  weight : Int64
  deriving DecidableEq, Repr

/-- A `*Backend`. -/
abbrev Ref := Nat

/-- The memory the pointers point into. -/
abbrev Heap := Ref → Backend

/-- `BalancerType`; `other` is any text that is not one of the five constants. -/
inductive BalancerType where
  | roundRobin
  | leastConnection
  | weightedRoundRobin
  | ipHash
  | randomSelection
  | other (name : String)
  deriving DecidableEq, Repr

/-- The map `states` of a service's `RoundRobinState.current`, created at the first use. -/
abbrev Counters := String → Option UInt32

/-- The implementations of the interface `Algorithm`, with the fields they keep. -/
inductive Algorithm where
  | roundRobin (states : Counters)
  | leastConnection
  | weightedRoundRobin (states : Counters) (weights : List Weight)
  | ipHash
  | random

/-- `NewAlgorithm`. -/
def newAlgorithm (balancerType : BalancerType) (weights : List Weight) : Algorithm :=
  match balancerType with
  | .leastConnection => .leastConnection
  | .weightedRoundRobin => .weightedRoundRobin (fun _ => none) weights
  | .ipHash => .ipHash
  | .randomSelection => .random
  | _ => .roundRobin fun _ => none

/-- The loop `if backend.IsHealthy() { healthyBackends = append(..) }`. -/
def healthyBackends (heap : Heap) (backends : List Ref) : List Ref :=
  backends.filter fun b => (heap b).isHealthy

@[simp] theorem mem_healthyBackends {heap : Heap} {backends : List Ref} {b : Ref} :
    b ∈ healthyBackends heap backends ↔ b ∈ backends ∧ (heap b).isHealthy = true :=
  List.mem_filter

/-- The counter after `AddUint32(&state.current, 1)`. -/
def Counters.next (states : Counters) (serviceName : String) : UInt32 :=
  (states serviceName).getD 0 + 1

/-! ## 1. Round robin -/

/-- `roundRobinAlgorithm.Select`. It does not ask for health. -/
def roundRobinSelect (states : Counters) (backends : List Ref) (serviceName : String) :
    Option Ref × Counters :=
  if backends.isEmpty then (none, states)
  else
    let current := states.next serviceName
    let index := current % UInt32.ofNat backends.length
    (backends[index.toNat]?, Function.update states serviceName (some current))

/-! ## 2. Least connection -/

/-- The loop of `leastConnectionAlgorithm.Select`. -/
def leastConnectionLoop (heap : Heap) : List Ref → Int32 → Option Ref → Option Ref
  | [], _, leastConnBackend => leastConnBackend
  | b :: rest, leastConn, leastConnBackend =>
    if (heap b).isHealthy then
      if (heap b).connections < leastConn then
        leastConnectionLoop heap rest (heap b).connections (some b)
      else leastConnectionLoop heap rest leastConn leastConnBackend
    else leastConnectionLoop heap rest leastConn leastConnBackend

/-- `int32(^uint32(0) >> 1)`. -/
def maxConn : Int32 := 2147483647

/-- `leastConnectionAlgorithm.Select`. -/
def leastConnectionSelect (heap : Heap) (backends : List Ref) : Option Ref :=
  leastConnectionLoop heap backends maxConn none

/-! ## 3. Weighted round robin -/

/-- `resolveWeight`. -/
def resolveWeight (weights : List Weight) (b : Backend) : Int64 :=
  let w := match weights.find? fun weight => weight.serviceName == b.serviceName with
    | some weight => weight.weight
    | none => b.weight
  if w = 0 then 1 else w

/-- `healthyBackends` and `weights`, filled side by side by the first loop. -/
def weighed (weights : List Weight) (heap : Heap) (backends : List Ref) : List (Ref × Int64) :=
  (healthyBackends heap backends).map fun b => (b, resolveWeight weights (heap b))

/-- `totalWeight`. -/
def totalWeight (entries : List (Ref × Int64)) : Int64 :=
  entries.foldl (fun total e => total + e.2) 0

/-- The second loop: the first entry at which `point` falls below zero. -/
def weightedWalk : List (Ref × Int64) → Int64 → Option Ref
  | [], _ => none
  | (b, w) :: rest, point => if point - w < 0 then some b else weightedWalk rest (point - w)

/-- `int(current) % totalWeight`. -/
def weightedPoint (entries : List (Ref × Int64)) (current : UInt32) : Int64 :=
  Int64.ofNat current.toNat % totalWeight entries

/-- What `weightedRoundRobinAlgorithm.Select` does with the counter value it has drawn: the walk,
    and the first healthy one behind it. -/
def weightedPick (entries : List (Ref × Int64)) (current : UInt32) : Option Ref :=
  match weightedWalk entries (weightedPoint entries current) with
  | some b => some b
  | none => (entries.head?).map Prod.fst

/-- `weightedRoundRobinAlgorithm.Select`. The counter is created before the health flags are read,
    and drawn from only if there is a weight to share out. -/
def weightedRoundRobinSelect (states : Counters) (weights : List Weight) (heap : Heap)
    (backends : List Ref) (serviceName : String) : Option Ref × Counters :=
  if backends.isEmpty then (none, states)
  else
    let entries := weighed weights heap backends
    if totalWeight entries = 0 then
      (none, Function.update states serviceName (some ((states serviceName).getD 0)))
    else
      let current := states.next serviceName
      (weightedPick entries current, Function.update states serviceName (some current))

/-! ## 4. Hash and random -/

/-- `fnv.New32a`, `Write`, `Sum32`. -/
def fnv32a (data : List UInt8) : UInt32 :=
  data.foldl (fun hash byte => (hash ^^^ byte.toUInt32) * 16777619) 2166136261

/-- `ipHashAlgorithm.Select`. -/
def ipHashSelect (heap : Heap) (backends : List Ref) (clientIP : String) : Option Ref :=
  let healthy := healthyBackends heap backends
  if healthy.isEmpty then none
  else
    let hashValue := fnv32a clientIP.toUTF8.toList
    healthy[(hashValue % UInt32.ofNat healthy.length).toNat]?

/-- `randomAlgorithm.Select`; `rand.Intn(n)` is `draw % n` for some `draw`. -/
def randomSelect (heap : Heap) (backends : List Ref) (draw : Nat) : Option Ref :=
  let healthy := healthyBackends heap backends
  if healthy.isEmpty then none else healthy[draw % healthy.length]?

/-- `Algorithm.Select`. -/
def Algorithm.select (a : Algorithm) (heap : Heap) (backends : List Ref)
    (serviceName clientIP : String) (draw : Nat) : Option Ref × Algorithm :=
  match a with
  | .roundRobin states =>
    let r := roundRobinSelect states backends serviceName
    (r.1, .roundRobin r.2)
  | .leastConnection => (leastConnectionSelect heap backends, a)
  | .weightedRoundRobin states weights =>
    let r := weightedRoundRobinSelect states weights heap backends serviceName
    (r.1, .weightedRoundRobin r.2 weights)
  | .ipHash => (ipHashSelect heap backends clientIP, a)
  | .random => (randomSelect heap backends draw, a)

end HeliosLB
