/-
  File:      HeliosLB/Admission/Schema.lean
  Subject:   THE RULES OF THE CRD SCHEMA FOR THE TWO LISTS (the validation markers of
             api/v1/heliosconfig_types.go) and the loops of the webhook that mirror them.

  The schema states its rules over the list as a whole, in CEL: for each element exactly one has
  its key. The webhook walks the list once, checks each element on its own and keeps the keys it
  has seen. The comment above its checks asks that the two be kept in lock-step.

  * `celUnique`, `duplicatePortRule`, `duplicateWeightRule`, `weightsMethodRule` -- the CEL rules;
    `PortConfig.inSchema`, `WeightConfig.inSchema` -- the markers of the elements. A list that is
    absent (`!has(..)`) is the empty one here;
  * `celUnique_iff` -- a CEL rule says that the keys are without duplicates;
  * **`webhook_lists_eq_schema`** -- the webhook accepts the lists the schema accepts.
-/
import HeliosLB.Admission.Webhook
import Mathlib.Data.List.Nodup

namespace HeliosLB

/-! ## 1. The rules -/

/-- `l.all(p, l.filter(q, q.key == p.key).size() == 1)`. -/
def celUnique {α κ : Type} [DecidableEq κ] (key : α → κ) (l : List α) : Bool :=
  l.all fun p => (l.filter fun q => key q == key p).length == 1

/-- "duplicate port in spec.ports". -/
def duplicatePortRule (ports : List PortConfig) : Bool := celUnique PortConfig.port ports

/-- "duplicate serviceName in spec.weights". -/
def duplicateWeightRule (weights : List WeightConfig) : Bool :=
  celUnique WeightConfig.serviceName weights

/-- "weights can only be used with the WeightedRoundRobin method". -/
def weightsMethodRule (weights : List WeightConfig) (method : String) : Bool :=
  weights.length == 0 || method == "WeightedRoundRobin"

/-- The markers of `PortConfig`; an absent protocol is the empty one. -/
def PortConfig.inSchema (p : PortConfig) : Prop :=
  1 ≤ p.port ∧ p.port ≤ 65535 ∧ (p.protocol = "" ∨ p.protocol = "TCP" ∨ p.protocol = "UDP")

/-- The markers of `WeightConfig`. -/
def WeightConfig.inSchema (w : WeightConfig) : Prop :=
  w.serviceName ≠ "" ∧ 1 ≤ w.weight ∧ w.weight ≤ 100

theorem celUnique_iff {α κ : Type} [DecidableEq κ] {key : α → κ} {l : List α} :
    celUnique key l = true ↔ (l.map key).Nodup := by
  have hcount : ∀ p, (l.filter fun q => key q == key p).length = (l.map key).count (key p) := by
    intro p
    rw [List.count, List.countP_map, List.countP_eq_length_filter]
    rfl
  simp only [celUnique, List.all_eq_true, beq_iff_eq, hcount]
  rw [List.nodup_iff_count_eq_one, List.forall_mem_map]

/-! ## 2. The loops -/

/-- **What the loop of a list check accepts**: each item passes, and the keys differ from each other
    and from those seen before. -/
theorem checkEach_ok_iff {α κ ε : Type} [DecidableEq κ] {check : α → Except ε Unit} {key : α → κ}
    {duplicate : κ → ε} {seen : List κ} {l : List α} :
    checkEach check key duplicate seen l = .ok () ↔
      (∀ a ∈ l, check a = .ok ()) ∧ (l.map key).Nodup ∧ ∀ a ∈ l, key a ∉ seen := by
  induction l generalizing seen with
  | nil => simp [checkEach]
  | cons a l ih =>
      rw [checkEach, List.map_cons, List.nodup_cons, List.forall_mem_cons, List.forall_mem_cons]
      cases hc : check a with
      | error e =>
          refine iff_of_false (fun h => ?_) fun h => ?_
          · cases h
          · cases h.1.1
      | ok u =>
          by_cases hs : key a ∈ seen
          · simp only [if_pos hs]
            refine iff_of_false (fun h => ?_) fun h => h.2.2.1 hs
            cases h
          · simp only [if_neg hs, ih, List.mem_cons, not_or, List.mem_map, not_exists, not_and]
            -- the items behind `a` avoid its key and the seen ones: one condition on each side
            refine ⟨fun h => ?_, fun h => ?_⟩
            · obtain ⟨hall, hnd, hfresh⟩ := h
              exact ⟨⟨trivial, hall⟩, ⟨fun x hx => (hfresh x hx).1, hnd⟩, hs,
                fun x hx => (hfresh x hx).2⟩
            · obtain ⟨⟨_, hall⟩, ⟨hne, hnd⟩, _, hfresh⟩ := h
              exact ⟨hall, hnd, fun x hx => ⟨hne x hx, hfresh x hx⟩⟩

/-- A test that refuses: what passes it. -/
theorem refuse_eq_ok {ε : Type} {c : Prop} [Decidable c] {e : ε} {x : Except ε Unit} :
    (if c then .error e else x) = .ok () ↔ ¬ c ∧ x = .ok () := by
  by_cases hc : c
  · rw [if_pos hc]
    refine iff_of_false (fun h => ?_) fun h => h.1 hc
    cases h
  · rw [if_neg hc]
    exact (and_iff_right hc).symm

/-- A bound checked from both sides. -/
theorem not_outside_iff {x lo hi : Int32} : ¬ (x < lo ∨ x > hi) ↔ lo ≤ x ∧ x ≤ hi := by
  rw [not_or, Int32.not_lt, gt_iff_lt, Int32.not_lt]

theorem validatePorts_iff (ports : List PortConfig) : validatePorts ports = .ok () ↔
    (∀ p ∈ ports, p.inSchema) ∧ duplicatePortRule ports = true := by
  rw [validatePorts, checkEach_ok_iff, duplicatePortRule, celUnique_iff]
  refine and_congr (forall₂_congr fun p _ => ?_) (and_iff_left fun p _ => List.not_mem_nil)
  have hp : ¬ p.protocol ∉ ["", protocolTCP, protocolUDP] ↔
      p.protocol = "" ∨ p.protocol = "TCP" ∨ p.protocol = "UDP" := by
    rw [not_not]
    simp [protocolTCP, protocolUDP]
  rw [refuse_eq_ok, refuse_eq_ok, not_outside_iff, hp, PortConfig.inSchema, and_assoc]
  simp only [and_true]

theorem weightsMethodRule_iff {weights : List WeightConfig} {method : String} :
    weightsMethodRule weights method = true ↔
      ¬ (weights.length > 0 ∧ method ≠ methodWeightedRoundRobin) := by
  simp only [weightsMethodRule, methodWeightedRoundRobin, Bool.or_eq_true, beq_iff_eq, not_and,
    not_not]
  exact ⟨fun h hpos => h.resolve_left (Nat.ne_of_gt hpos), fun h =>
    (Nat.eq_zero_or_pos weights.length).imp_right h⟩

theorem validateWeights_iff (weights : List WeightConfig) (method : String) :
    validateWeights weights method = .ok () ↔
      (∀ w ∈ weights, w.inSchema) ∧ duplicateWeightRule weights = true ∧
        weightsMethodRule weights method = true := by
  have hitem : ∀ w : WeightConfig,
      (if w.serviceName = "" then (.error .weightServiceName : Except ValidationError Unit)
        else if w.weight < 1 ∨ w.weight > 100 then .error (.weightBounds w.serviceName w.weight)
        else .ok ()) = .ok () ↔ w.inSchema := by
    intro w
    rw [refuse_eq_ok, refuse_eq_ok, not_outside_iff, WeightConfig.inSchema]
    simp only [and_true, ne_eq]
  rw [validateWeights, refuse_eq_ok, checkEach_ok_iff, ← weightsMethodRule_iff,
    duplicateWeightRule, celUnique_iff]
  simp only [hitem]
  -- the webhook checks the method before the loop
  refine ⟨fun h => ⟨h.2.1, h.2.2.1, h.1⟩, fun h => ⟨h.2.2, h.1, h.2.1, fun w _ => ?_⟩⟩
  exact List.not_mem_nil

/-! ## 3. Both lists -/

/-- **The webhook's list checks are the schema's rules.** -/
theorem webhook_lists_eq_schema :
    (∀ ports, validatePorts ports = .ok () ↔
      (∀ p ∈ ports, p.inSchema) ∧ duplicatePortRule ports = true) ∧
    ∀ weights method, validateWeights weights method = .ok () ↔
      (∀ w ∈ weights, w.inSchema) ∧ duplicateWeightRule weights = true ∧
        weightsMethodRule weights method = true :=
  ⟨validatePorts_iff, validateWeights_iff⟩

end HeliosLB
