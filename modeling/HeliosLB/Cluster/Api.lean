/-
  File:      HeliosLB/Cluster/Api.lean
  Subject:   THE API SERVER AS THE CONTROLLER SEES IT: what is stored, and what a call may answer.

  The API server is not part of the source. What it may answer to a call is an input: a reply for
  each call, chosen by nobody the model knows. A write that fails is either not stored
  (`rejected`) or stored while its caller sees an error (`lost`, a time-out).

  * `Cluster` -- the stored Services and HeliosConfigs;
  * `updateServiceStatus`, `updateService`, `updateConfigStatus`, `updateConfig` -- the four
    writes the source makes. A status write stores the status and, for a Service, the metadata
    with it, and hands back the object as stored, the stored spec included; a plain write stores
    everything but the status. Removing the last finalizer of an object that is being deleted
    removes the object;
  * `World` -- the cluster and the controller's pool.
-/
import HeliosLB.Cluster.Objects
import HeliosLB.Network.Allocator

namespace HeliosLB

open Lib

/-! ## 1. Replies -/

/-- An API error as far as the source tells errors apart. -/
inductive ApiError where
  | notFound
  | conflict
  | other (text : String)
  deriving DecidableEq, Repr

def ApiError.message : ApiError → String
  | .notFound => "not found"
  | .conflict => "the object has been modified"
  | .other text => text

/-- The reply to a `Get` or `List`. -/
inductive ReadReply where
  | ok
  | failed (e : ApiError)
  deriving DecidableEq, Repr

/-- The reply to an `Update`. -/
inductive WriteReply where
  | ok
  | rejected (e : ApiError)
  | lost (text : String)
  deriving DecidableEq, Repr

/-- The write was stored. -/
def WriteReply.stored : WriteReply → Bool
  | .rejected _ => false
  | _ => true

/-! ## 2. The stored objects -/

structure Cluster where
  services : Store Service.key
  configs : Store HeliosConfig.key

namespace Cluster

/-- A write under its reply: the object handed back, and what is stored after it. -/
def commit {α : Type} (c : Cluster) (r : WriteReply) (new : α) (c' : Cluster) :
    Except ApiError α × Cluster :=
  match r with
  | .ok => (.ok new, c')
  | .rejected e => (.error e, c)
  | .lost text => (.error (.other text), c')

/-- `Status().Update` of a Service. -/
def updateServiceStatus (c : Cluster) (svc : Service) (r : WriteReply) :
    Except ApiError Service × Cluster :=
  match c.services.find svc.key with
  | none => (.error .notFound, c)
  | some stored =>
    let new := { stored with annotations := svc.annotations, ingress := svc.ingress,
                             writer := svc.writer }
    c.commit r new { c with services := c.services.replace new }

/-- `Update` of a Service. -/
def updateService (c : Cluster) (svc : Service) (r : WriteReply) :
    Except ApiError Service × Cluster :=
  match c.services.find svc.key with
  | none => (.error .notFound, c)
  | some stored =>
    let new := { stored with annotations := svc.annotations, spec := svc.spec }
    c.commit r new { c with services := c.services.replace new }

/-- `Status().Update` of a HeliosConfig. -/
def updateConfigStatus (c : Cluster) (hc : HeliosConfig) (r : WriteReply) :
    Except ApiError HeliosConfig × Cluster :=
  match c.configs.find hc.key with
  | none => (.error .notFound, c)
  | some stored =>
    let new := { stored with status := hc.status }
    c.commit r new { c with configs := c.configs.replace new }

/-- `Update` of a HeliosConfig. -/
def updateConfig (c : Cluster) (hc : HeliosConfig) (r : WriteReply) :
    Except ApiError HeliosConfig × Cluster :=
  match c.configs.find hc.key with
  | none => (.error .notFound, c)
  | some stored =>
    let new := { stored with finalizers := hc.finalizers, spec := hc.spec }
    c.commit r new
      { c with configs := if new.deleting ∧ new.finalizers = [] then c.configs.delete new.key
                          else c.configs.replace new }

/-! ## 3. Writes to an object that is stored -/

variable {c : Cluster} {r : WriteReply}

theorem updateServiceStatus_of_find {svc stored : Service} {k : NamespacedName} (hk : svc.key = k)
    (h : c.services.find k = some stored) :
    c.updateServiceStatus svc r =
      c.commit r { stored with annotations := svc.annotations, ingress := svc.ingress,
                               writer := svc.writer }
        { c with
          services := c.services.replace { stored with
            annotations := svc.annotations, ingress := svc.ingress, writer := svc.writer } } := by
  rw [updateServiceStatus, hk, h]

theorem updateService_of_find {svc stored : Service} {k : NamespacedName} (hk : svc.key = k)
    (h : c.services.find k = some stored) :
    c.updateService svc r =
      c.commit r { stored with annotations := svc.annotations, spec := svc.spec }
        { c with
          services := c.services.replace { stored with
            annotations := svc.annotations, spec := svc.spec } } := by
  rw [updateService, hk, h]

theorem updateConfigStatus_of_find {hc stored : HeliosConfig} {k : NamespacedName}
    (hk : hc.key = k) (h : c.configs.find k = some stored) :
    c.updateConfigStatus hc r = c.commit r { stored with status := hc.status }
      { c with configs := c.configs.replace { stored with status := hc.status } } := by
  rw [updateConfigStatus, hk, h]

theorem updateConfig_of_find {hc stored : HeliosConfig} {k : NamespacedName} (hk : hc.key = k)
    (h : c.configs.find k = some stored) (hf : hc.finalizers ≠ []) :
    c.updateConfig hc r = c.commit r { stored with finalizers := hc.finalizers, spec := hc.spec }
      { c with
        configs := c.configs.replace { stored with
          finalizers := hc.finalizers, spec := hc.spec } } := by
  rw [updateConfig, hk, h]
  simp only [hf, and_false, if_false]

end Cluster

/-- The cluster and the pool the controller process holds. -/
structure World where
  cluster : Cluster
  pool : IPAllocator

end HeliosLB
