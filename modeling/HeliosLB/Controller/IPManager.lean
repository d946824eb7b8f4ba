/-
  File:      HeliosLB/Controller/IPManager.lean
  Subject:   ALLOCATION, ASSIGNMENT AND RELEASE (internal/controller/ip_manager.go).

  `allocateAndAssign` lists the configs, marks what the others record, draws one address or two,
  and writes them to the Service; on an error it puts the addresses back. Definitions only; what
  they do is IPManagerSpec.lean.

  * `splitRequestedIP`, `allocateIP`, `markOthers`, `drawAddresses` -- the draw;
  * `assignAttempt`, `assignIPToService` -- the closure and `RetryOnConflict` around it. How often
    it retries is a parameter of every statement (`DefaultRetry` makes it four);
  * `allocateAndAssign`, `releaseAll`, `checkIPConflicts`, `checkQuota` -- the source's functions;
  * `AllocFailure` -- the error of `allocateAndAssign`. Two of its fields are not in the source
    and are read by statements only: the addresses put back, and whether a status write of the
    Service was stored before the error.
-/
import HeliosLB.Controller.ServiceFilter
import Mathlib.Data.List.Dedup

namespace HeliosLB

open Lib

/-! ## 1. The draw -/

/-- `splitRequestedIP`: a request pins the family it belongs to. -/
def splitRequestedIP (requested : String) : String × String :=
  match parseIP (trimSpace requested) with
  | none => ("", "")
  | some ip =>
    if (to4 ip).isSome then (trimSpace requested, "") else ("", trimSpace requested)

/-- `IPManager.allocateIP`. -/
def allocateIP (pool : IPAllocator) (ipRange requested : String) :
    Except AllocError String × IPAllocator :=
  if requested = "" then pool.allocateIP ipRange else pool.allocateSpecificIP ipRange requested

/-- The first loop of `AllocateAndAssign`: the addresses of every OTHER config are marked. -/
def markOthers (hc : HeliosConfig) (pool : IPAllocator) (configs : List HeliosConfig) :
    IPAllocator :=
  configs.foldl (fun pool other =>
    if other.key = hc.key then pool else other.recorded.foldl IPAllocator.markUsed pool) pool

/-- A failed `AllocateAndAssign` (`RetryableError`): its reason and the text of the wrapped error,
    the addresses put back, and whether the Service's ingress was stored before the error. -/
structure AllocFailure where
  reason : String
  err : String
  released : List String
  torn : Bool
  deriving DecidableEq, Repr

/-- `RetryableError.Error`. -/
def AllocFailure.message (f : AllocFailure) : String := f.reason ++ ": " ++ f.err

/-- The part of `AllocateAndAssign` between the list of configs and the write to the Service: the
    address of `ipRange`, and on a dual-stack config the one of `ipv6Range`, which puts the first
    one back if it fails. -/
def drawAddresses (hc : HeliosConfig) (svc : Service) (configs : List HeliosConfig)
    (pool : IPAllocator) : Except AllocFailure (String × String) × IPAllocator :=
  let (requestedV4, requestedV6) := splitRequestedIP svc.spec.loadBalancerIP
  match allocateIP (markOthers hc pool configs) hc.spec.ipRange requestedV4 with
  | (.error e, pool) => (.error ⟨"IPv4 allocation failed", e.message, [], false⟩, pool)
  | (.ok ip, pool) =>
    if hc.spec.ipv6Range = "" then (.ok (ip, ""), pool)
    else
      match allocateIP pool hc.spec.ipv6Range requestedV6 with
      | (.error e, pool) =>
        (.error ⟨"IPv6 allocation failed", e.message, [ip], false⟩, pool.releaseIP ip)
      | (.ok ipv6, pool) => (.ok (ip, ipv6), pool)

/-! ## 2. The assignment -/

/-- The replies to the three calls of one run of the closure. -/
structure AttemptReplies where
  get : ReadReply := .ok
  statusUpdate : WriteReply := .ok
  update : WriteReply := .ok
  deriving DecidableEq, Repr

/-- How an assignment ended, and whether a status write of it was stored. -/
structure Assignment where
  result : Except ApiError Unit
  cluster : Cluster
  wrote : Bool

/-- The ingress list `assignIPToService` writes. -/
def ingressOf (ip ipv6 : String) : List String := if ipv6 ≠ "" then [ip, ipv6] else [ip]

/-- The closure of `assignIPToService`. The status write comes first and hands back the stored
    spec, so the plain write does not touch `loadBalancerClass`. -/
def assignAttempt (owner : NamespacedName) (svc : Service) (ip ipv6 : String) (c : Cluster)
    (r : AttemptReplies) : Assignment :=
  match r.get with
  | .failed e => ⟨.error e, c, false⟩
  | .ok =>
    match c.services.find svc.key with
    | none => ⟨.error .notFound, c, false⟩
    | some current =>
      let current := { current with
        annotations := current.annotations.insert "balancer.helios.dev/load-balancer-class"
          loadBalancerClassHelios
        spec.loadBalancerClass := some loadBalancerClassHelios
        ingress := ingressOf ip ipv6
        writer := some owner }
      match c.updateServiceStatus current r.statusUpdate with
      | (.error e, c') => ⟨.error e, c', r.statusUpdate.stored⟩
      | (.ok current, c') =>
        match c'.updateService current r.update with
        | (.error e, c'') => ⟨.error e, c'', true⟩
        | (.ok _, c'') => ⟨.ok (), c'', true⟩

/-- `assignIPToService`: the closure under `RetryOnConflict`, run again while it ends in a
    conflict, at most `retries` more times. -/
def assignIPToService (owner : NamespacedName) (svc : Service) (ip ipv6 : String) :
    Nat → Cluster → (Nat → AttemptReplies) → Assignment
  | 0, c, rs => assignAttempt owner svc ip ipv6 c (rs 0)
  | n + 1, c, rs =>
    let a := assignAttempt owner svc ip ipv6 c (rs 0)
    if a.result = .error .conflict then
      let b := assignIPToService owner svc ip ipv6 n a.cluster fun k => rs (k + 1)
      { b with wrote := a.wrote || b.wrote }
    else a

/-- The replies to the calls made for one Service: the list of configs, the assignment, and the
    config's status write that follows a failure or records a success. -/
structure TurnReplies where
  listConfigs : ReadReply := .ok
  attempts : Nat → AttemptReplies := fun _ => {}
  failedStatus : WriteReply := .ok
  recordStatus : WriteReply := .ok

/-- `AllocateAndAssign`. -/
def allocateAndAssign (retries : Nat) (hc : HeliosConfig) (svc : Service) (w : World)
    (r : TurnReplies) : Except AllocFailure (String × String) × World :=
  match r.listConfigs with
  | .failed e =>
    (.error ⟨"failed to list configs for conflict check", e.message, [], false⟩, w)
  | .ok =>
    match drawAddresses hc svc w.cluster.configs.objects w.pool with
    | (.error f, pool) => (.error f, { w with pool := pool })
    | (.ok (ip, ipv6), pool) =>
      let a := assignIPToService hc.key svc ip ipv6 retries w.cluster r.attempts
      match a.result with
      | .ok () => (.ok (ip, ipv6), ⟨a.cluster, pool⟩)
      | .error e =>
        (.error ⟨"service update failed", e.message, ingressOf ip ipv6, a.wrote⟩,
          ⟨a.cluster, (ingressOf ip ipv6).foldl IPAllocator.releaseIP pool⟩)

/-! ## 3. Release -/

/-- The replies to the two calls `ReleaseAll` makes for one name. -/
structure ReleaseReplies where
  get : ReadReply := .ok
  statusUpdate : WriteReply := .ok

/-- The last loop of `ReleaseAll`, for one name: the Service of that name IN THE CONFIG'S
    NAMESPACE loses its ingress. -/
def clearIngress (ns : String) (c : Cluster) (name : String) (r : ReleaseReplies) : Cluster :=
  match r.get with
  | .failed _ => c
  | .ok =>
    match c.services.find ⟨ns, name⟩ with
    | none => c
    | some svc =>
      (c.updateServiceStatus { svc with ingress := [], writer := none } r.statusUpdate).2

/-- The names `ReleaseAll` collects. -/
def releaseNames (hc : HeliosConfig) : List String :=
  (hc.status.allocatedIPs.keys ++ hc.status.allocatedIPv6s.keys).dedup

/-- `ReleaseAll`. -/
def releaseAll (hc : HeliosConfig) (w : World) (rs : String → ReleaseReplies) : World where
  pool := hc.recorded.foldl IPAllocator.releaseIP w.pool
  cluster := (releaseNames hc).foldl (fun c name => clearIngress hc.key.ns c name (rs name))
    w.cluster

/-! ## 4. Conflicts and quota -/

/-- One config's share of `CheckIPConflicts`. -/
def conflictsWith (hc other : HeliosConfig) (conflicts : StringMap) : StringMap :=
  let conflicts := other.status.allocatedIPs.entries.foldl (fun m e =>
    if ipInRange e.2 hc.spec.ipRange then
      m.insert e.2 (other.key.ns ++ "/" ++ other.key.name ++ " (svc: " ++ e.1 ++ ")") else m)
    conflicts
  if hc.spec.ipv6Range ≠ "" then
    other.status.allocatedIPv6s.entries.foldl (fun m e =>
      if ipInRange e.2 hc.spec.ipv6Range then
        m.insert e.2 (other.key.ns ++ "/" ++ other.key.name ++ " (svc: " ++ e.1 ++ ", ipv6)")
      else m) conflicts
  else conflicts

/-- `CheckIPConflicts` on the listed configs: conflicting addresses with their owners. -/
def checkIPConflicts (hc : HeliosConfig) (configs : List HeliosConfig) : StringMap :=
  configs.foldl (fun m other => if other.key = hc.key then m else conflictsWith hc other m) ∅

/-- `CheckQuota`: the error text when the quota is reached. The map's length is cut to 32 bits. -/
def checkQuota (hc : HeliosConfig) : Option String :=
  if hc.spec.maxAllocations > 0 ∧
      Int32.ofNat (StringMap.len hc.status.allocatedIPs) ≥ hc.spec.maxAllocations then
    some ("max allocations reached: " ++ toString (StringMap.len hc.status.allocatedIPs) ++ "/"
      ++ toString hc.spec.maxAllocations)
  else none

end HeliosLB
