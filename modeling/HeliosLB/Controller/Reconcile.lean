/-
  File:      HeliosLB/Controller/Reconcile.lean
  Subject:   ONE PASS OVER A CONFIG (internal/controller/heliosconfig_controller.go).

  `reconcile` is `Reconcile` with the replies of the API server as an argument. The in-memory
  config travels through the pass beside the stored one: a status write stores its status, and
  the next iteration goes on with the copy in memory.

  * `ensureFinalizer` -- the first write of a new config;
  * `failedConfig`, `servedConfig`, `conflictedConfig` -- the in-memory config as the three
    branches leave it;
  * `serveService`, `serveServices` -- the loop over the eligible Services and its body: it ends
    at the quota, at the first failed allocation, or at a status write that fails;
  * `handleDeletion` -- release, then the finalizer;
  * `reconcile`, `PassReport` -- the whole pass: requeue delay or error, the events, and, for
    statements only, the allocation failure that ended it.
-/
import HeliosLB.Controller.IPManager

namespace HeliosLB

open Lib

/-- `heliosConfigFinalizer`. -/
def heliosConfigFinalizer : String := "balancer.helios.dev/finalizer"

/-- An event on the HeliosConfig (`Recorder.Eventf`). -/
structure RecordedEvent where
  warning : Bool
  reason : String
  message : String
  deriving DecidableEq, Repr

/-- How a pass ended: the delay until the next one in seconds (`0`: none) or the returned error,
    the events in order, and the failed allocation that ended it, if one did. -/
structure PassReport where
  result : Except ApiError Nat
  events : List RecordedEvent := []
  failure : Option AllocFailure := none

/-- The replies to all calls of a pass; `turn i` are those for the `i`th eligible Service. -/
structure PassReplies where
  getConfig : ReadReply := .ok
  addFinalizer : WriteReply := .ok
  initialStatus : WriteReply := .ok
  listServices : ReadReply := .ok
  listConfigs : ReadReply := .ok
  conflictStatus : WriteReply := .ok
  turn : Nat → TurnReplies := fun _ => {}
  release : String → ReleaseReplies := fun _ => {}
  removeFinalizer : WriteReply := .ok

/-- Every call of the pass succeeds. -/
def allOk : PassReplies := {}

/-! ## 1. The in-memory config -/

/-- After a failed allocation. -/
def failedConfig (hc : HeliosConfig) (f : AllocFailure) : HeliosConfig :=
  let hc := { hc with
    status.phase := .failed
    status.state := .failed
    status.message := f.message }
  (hc.setCondition .ready .false .ipAllocationError f.message).setCondition .degraded .true
    .ipAllocationError f.message

/-- After an address was assigned: recorded under the BARE NAME of the Service. -/
def servedConfig (hc : HeliosConfig) (svc : Service) (ip ipv6 : String) : HeliosConfig :=
  let hc := { hc with
    status.allocatedIPs := hc.status.allocatedIPs.insert svc.key.name ip
    status.allocatedIPv6s := if ipv6 ≠ "" then hc.status.allocatedIPv6s.insert svc.key.name ipv6
      else hc.status.allocatedIPv6s
    status.phase := .active
    status.state := .active
    status.message := "IP allocated successfully" }
  (hc.setCondition .ready .true .networkConfigured "IP allocated successfully").setCondition
    .degraded .false .networkConfigured "All allocations healthy"

/-- After a conflict was found. -/
def conflictedConfig (hc : HeliosConfig) (conflicts : StringMap) : HeliosConfig :=
  hc.setCondition .degraded .true .ipConflict
    ("IP range conflicts with " ++ toString (StringMap.len conflicts)
      ++ " allocated IP(s) from other configs")

/-! ## 2. The events -/

def quotaEvent (hc : HeliosConfig) : RecordedEvent :=
  ⟨true, "QuotaExceeded", "Max allocations reached ("
    ++ toString (StringMap.len hc.status.allocatedIPs) ++ "/" ++ toString hc.spec.maxAllocations
    ++ ")"⟩

def failedEvent (svc : Service) (f : AllocFailure) : RecordedEvent :=
  ⟨true, "AllocationFailed", "Failed to allocate IP for service " ++ svc.key.ns ++ "/"
    ++ svc.key.name ++ ": " ++ f.message⟩

def servedEvent (svc : Service) (ip ipv6 : String) : RecordedEvent :=
  if ipv6 ≠ "" then
    ⟨false, "IPAllocated", "Allocated dual-stack IPs " ++ ip ++ "/" ++ ipv6 ++ " to service "
      ++ svc.key.ns ++ "/" ++ svc.key.name⟩
  else
    ⟨false, "IPAllocated", "Allocated IP " ++ ip ++ " to service " ++ svc.key.ns ++ "/"
      ++ svc.key.name⟩

def conflictEvent (conflicts : StringMap) : RecordedEvent :=
  ⟨true, "IPConflict", "IP range overlaps with other HeliosConfigs: "
    ++ toString (StringMap.len conflicts) ++ " conflicting IP(s)"⟩

/-! ## 3. The pass -/

/-- How one iteration of the loop ends: with the pass, or with the config and world the next
    iteration starts from. -/
inductive Turn where
  | stop (report : PassReport) (w : World)
  | next (event : RecordedEvent) (hc : HeliosConfig) (w : World)

/-- One iteration of the loop of `Reconcile`. -/
def serveService (retries : Nat) (hc : HeliosConfig) (svc : Service) (w : World)
    (r : TurnReplies) : Turn :=
  match checkQuota hc with
  | some _ => .stop { result := .ok 5, events := [quotaEvent hc] } w
  | none =>
    match allocateAndAssign retries hc svc w r with
    | (.error f, w) =>
      -- the pass ends here; an error of the status write is only logged
      .stop { result := .ok 10, events := [failedEvent svc f], failure := some f }
        { w with cluster := (w.cluster.updateConfigStatus (failedConfig hc f) r.failedStatus).2 }
    | (.ok (ip, ipv6), w) =>
      match w.cluster.updateConfigStatus (servedConfig hc svc ip ipv6) r.recordStatus with
      | (.error e, c) =>
        .stop { result := .error e, events := [servedEvent svc ip ipv6] } { w with cluster := c }
      | (.ok hc, c) => .next (servedEvent svc ip ipv6) hc { w with cluster := c }

/-- The loop of `Reconcile` over the eligible Services. -/
def serveServices (retries : Nat) : List Service → HeliosConfig → World → (Nat → TurnReplies) →
    PassReport × World
  | [], _, w, _ => ({ result := .ok 5 }, w)
  | svc :: rest, hc, w, turn =>
    match serveService retries hc svc w (turn 0) with
    | .stop report w => (report, w)
    | .next event hc w =>
      let (report, w) := serveServices retries rest hc w fun k => turn (k + 1)
      ({ report with events := event :: report.events }, w)

/-- `controllerutil.AddFinalizer`, for a config without the finalizer. -/
def addFinalizer (hc : HeliosConfig) : HeliosConfig :=
  { hc with finalizers := hc.finalizers ++ [heliosConfigFinalizer] }

/-- `controllerutil.RemoveFinalizer`. -/
def removeFinalizer (hc : HeliosConfig) : HeliosConfig :=
  { hc with finalizers := hc.finalizers.filter (· ≠ heliosConfigFinalizer) }

/-- The finalizer and the first condition of a config that has none yet. -/
def ensureFinalizer (hc : HeliosConfig) (c : Cluster) (r : PassReplies) :
    Except ApiError HeliosConfig × Cluster :=
  if heliosConfigFinalizer ∈ hc.finalizers then (.ok hc, c)
  else
    match c.updateConfig (addFinalizer hc) r.addFinalizer with
    | (.error e, c) => (.error e, c)
    | (.ok hc, c) =>
      c.updateConfigStatus
        (hc.setCondition .ready .false .initializing "HeliosConfig is initializing")
        r.initialStatus

/-- `handleDeletion`. -/
def handleDeletion (hc : HeliosConfig) (w : World) (r : PassReplies) : PassReport × World :=
  if heliosConfigFinalizer ∈ hc.finalizers then
    let started : RecordedEvent := ⟨false, "CleanupStarted", "Releasing "
      ++ toString (StringMap.len hc.status.allocatedIPs) ++ " allocated IPs"⟩
    let w := releaseAll hc w r.release
    match w.cluster.updateConfig (removeFinalizer hc) r.removeFinalizer with
    | (.error e, c) =>
      ({ result := .error e
         events := [started, ⟨true, "CleanupFailed",
           "Failed to remove finalizer: " ++ e.message⟩] },
        { w with cluster := c })
    | (.ok _, c) =>
      ({ result := .ok 0
         events := [started, ⟨false, "CleanupComplete",
           "All allocated IPs released and finalizer removed"⟩] },
        { w with cluster := c })
  else ({ result := .ok 0 }, w)

/-- The pass over a config that is not being deleted, its finalizer in place. -/
def reconcileServices (retries : Nat) (hc : HeliosConfig) (w : World) (r : PassReplies) :
    PassReport × World :=
  match r.listServices with
  | .failed e => ({ result := .error e }, w)
  | .ok =>
    match r.listConfigs with
    | .failed e => ({ result := .error e }, w)
    | .ok =>
      let conflicts := checkIPConflicts hc w.cluster.configs.objects
      if StringMap.len conflicts > 0 then
        ({ result := .ok 30, events := [conflictEvent conflicts] },
          { w with cluster :=
              (w.cluster.updateConfigStatus (conflictedConfig hc conflicts) r.conflictStatus).2 })
      else
        serveServices retries (hc.eligibleServices w.cluster.services.objects) hc w r.turn

/-- `Reconcile`. -/
def reconcile (retries : Nat) (req : NamespacedName) (w : World) (r : PassReplies) :
    PassReport × World :=
  match r.getConfig with
  | .failed e => ({ result := if e = .notFound then .ok 0 else .error e }, w)
  | .ok =>
    match w.cluster.configs.find req with
    | none => ({ result := .ok 0 }, w)
    | some hc =>
      match ensureFinalizer hc w.cluster r with
      | (.error e, c) => ({ result := .error e }, { w with cluster := c })
      | (.ok hc, c) =>
        if hc.deleting then handleDeletion hc { w with cluster := c } r
        else reconcileServices retries hc { w with cluster := c } r

end HeliosLB
