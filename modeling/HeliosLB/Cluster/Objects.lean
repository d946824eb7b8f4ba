/-
  File:      HeliosLB/Cluster/Objects.lean
  Subject:   THE OBJECTS THE CONTROLLER READS AND WRITES (api/v1/heliosconfig_types.go and the
             part of `corev1.Service` the controller looks at).

  * `NamespacedName` -- objects are told apart by namespace AND name;
  * `StringMap` -- Go's `map[string]string`: at most one entry for each key, read in any order;
  * `Service` -- with one field the cluster does not have: `writer` remembers which
    HeliosConfig's pass wrote the present ingress. No code reads it; the statements do;
  * `HeliosConfig`, `HeliosConfigSpec`, `HeliosConfigStatus`, `Condition`;
  * `setStatusCondition` -- `meta.SetStatusCondition`, without the transition time;
    `findStatusCondition_set` -- what is found after it;
  * `HeliosConfig.recorded` -- every address its status holds, of either family.
-/
import Mathlib.Data.List.AList
import HeliosLB.Lib.Store

namespace HeliosLB

/-- `types.NamespacedName`. -/
@[ext] structure NamespacedName where
  ns : String
  name : String
  deriving DecidableEq, Repr

/-! ## 1. Maps -/

/-- `map[string]string`. -/
abbrev StringMap := AList fun _ : String => String

namespace StringMap

/-- The values a `range` loop sees. -/
def values (m : StringMap) : List String := m.entries.map Sigma.snd

/-- `len(m)`. -/
def len (m : StringMap) : Nat := m.keys.length

theorem mem_values {m : StringMap} {v : String} : v ∈ values m ↔ ∃ k, m.lookup k = some v := by
  unfold values
  rw [List.mem_map]
  constructor
  · intro h
    obtain ⟨⟨k, v'⟩, h, rfl⟩ := h
    exact ⟨k, AList.mem_lookup_iff.mpr h⟩
  · intro h
    obtain ⟨k, h⟩ := h
    exact ⟨⟨k, v⟩, AList.mem_lookup_iff.mp h, rfl⟩

end StringMap

/-! ## 2. Services -/

/-- `corev1.ServiceType`. -/
inductive ServiceType where
  | clusterIP | nodePort | loadBalancer | externalName
  deriving DecidableEq, Repr

structure ServiceSpec where
  type : ServiceType
  loadBalancerClass : Option String := none
  loadBalancerIP : String := ""
  deriving DecidableEq, Repr

/-- `corev1.Service`; `ingress` holds the IPs of `status.loadBalancer.ingress`. -/
structure Service where
  key : NamespacedName
  annotations : StringMap := ∅
  spec : ServiceSpec
  ingress : List String := []
  writer : Option NamespacedName := none
  deriving DecidableEq

/-! ## 3. HeliosConfigs -/

/-- `LoadBalancerClassHelios`. -/
def loadBalancerClassHelios : String := "helios-lb"

/-- The values of `status.phase` and `status.state`. -/
inductive Phase where
  | unset | pending | active | failed
  deriving DecidableEq, Repr

inductive ConditionType where
  | ready | available | degraded
  deriving DecidableEq, Repr

inductive ConditionStatus where
  | true | false | unknown
  deriving DecidableEq, Repr

inductive Reason where
  | initializing | networkConfigured | networkError | ipAllocationError | ipConflict
  deriving DecidableEq, Repr

/-- `metav1.Condition`. -/
structure Condition where
  type : ConditionType
  status : ConditionStatus
  reason : Reason
  message : String
  observedGeneration : Int
  deriving DecidableEq, Repr

/-- `meta.SetStatusCondition`: the condition of that type is overwritten where it stands, or
    appended. -/
def setStatusCondition : List Condition → Condition → List Condition
  | [], new => [new]
  | c :: cs, new => if c.type = new.type then new :: cs else c :: setStatusCondition cs new

/-- The condition of a type (`meta.FindStatusCondition`). -/
def findStatusCondition (cs : List Condition) (t : ConditionType) : Option Condition :=
  cs.find? fun c => c.type = t

theorem findStatusCondition_set (cs : List Condition) (new : Condition) (t : ConditionType) :
    findStatusCondition (setStatusCondition cs new) t =
      if new.type = t then some new else findStatusCondition cs t := by
  unfold findStatusCondition
  induction cs with
  | nil => by_cases h : new.type = t <;> simp [setStatusCondition, h]
  | cons c cs ih =>
      rw [setStatusCondition]
      by_cases hc : c.type = new.type
      · by_cases h : new.type = t
        · simp [hc, h]
        · simp [hc, h]
      · rw [if_neg hc]
        by_cases h : c.type = t
        · have hn : new.type ≠ t := fun e => hc (h.trans e.symm)
          simp [h, hn]
        · rw [List.find?_cons_of_neg (by simpa using h), ih,
            List.find?_cons_of_neg (by simpa using h)]

/-- Setting a condition that stands changes nothing. -/
theorem setStatusCondition_of_find {cs : List Condition} {new : Condition}
    (h : findStatusCondition cs new.type = some new) : setStatusCondition cs new = cs := by
  unfold findStatusCondition at h
  induction cs with
  | nil => cases h
  | cons c cs ih =>
      rw [setStatusCondition]
      by_cases hc : c.type = new.type
      · rw [List.find?_cons_of_pos (by simpa using hc)] at h
        rw [if_pos hc, Option.some.inj h]
      · rw [List.find?_cons_of_neg (by simpa using hc)] at h
        rw [if_neg hc, ih h]

/-- `PortConfig`. The protocol is any text until the webhook has looked at it. -/
structure PortConfig where
  port : Int32
  protocol : String := ""
  deriving DecidableEq, Repr

/-- `WeightConfig`. -/
structure WeightConfig where
  serviceName : String
  weight : Int32
  deriving DecidableEq, Repr

/-- The part of `HealthCheckConfig` the webhook reads. -/
structure HealthCheckConfig where
  protocol : String := ""
  httpPath : String := ""
  deriving DecidableEq, Repr

/-- `HeliosConfigSpec`: what the controller reads, and the fields only the webhook reads
    (`method` on). -/
structure HeliosConfigSpec where
  ipRange : String
  ipv6Range : String := ""
  namespaceSelector : List String := []
  maxAllocations : Int32 := 0
  method : String := ""
  ports : List PortConfig := []
  weights : List WeightConfig := []
  healthCheck : Option HealthCheckConfig := none
  deriving DecidableEq

structure HeliosConfigStatus where
  allocatedIPs : StringMap := ∅
  allocatedIPv6s : StringMap := ∅
  state : Phase := .unset
  message : String := ""
  conditions : List Condition := []
  phase : Phase := .unset
  deriving DecidableEq

structure HeliosConfig where
  key : NamespacedName
  generation : Int := 1
  finalizers : List String := []
  /-- `DeletionTimestamp` is set. -/
  deleting : Bool := false
  spec : HeliosConfigSpec
  status : HeliosConfigStatus := {}
  deriving DecidableEq

/-- Every address the status records. -/
def HeliosConfig.recorded (hc : HeliosConfig) : List String :=
  StringMap.values hc.status.allocatedIPs ++ StringMap.values hc.status.allocatedIPv6s

/-- `meta.SetStatusCondition(&hc.Status.Conditions, …)` with the object's generation. -/
def HeliosConfig.setCondition (hc : HeliosConfig) (type : ConditionType) (status : ConditionStatus)
    (reason : Reason) (message : String) : HeliosConfig :=
  { hc with
    status.conditions :=
      setStatusCondition hc.status.conditions ⟨type, status, reason, message, hc.generation⟩ }

end HeliosLB
