/-
  File:      HeliosLB/Controller/Conflicts.lean
  Subject:   WHAT THE CONFLICT CHECK OF A PASS FINDS, against what could be allocated twice and
             against what admission lets in.

  `CheckIPConflicts` looks for the addresses of `allocatedIPs` in `ipRange` and for those of
  `allocatedIPv6s` in `ipv6Range`, and asks for containment. What a pass hands out is decided by
  allocatability, and admission keeps apart what is allocatable.

  * `Overlooked` -- recorded by another config and allocatable here, but in a pairing of map and
    range that is not compared, or in a block of the other family;
  * **`conflicts_complete_iff`** -- the check misses nothing exactly if everything overlooked is
    found in another place;
  * **`admitted_without_conflict_iff`** -- configs that admission accepted beside each other
    report no conflict exactly if no recorded address is at the edge of another one's block.
-/
import HeliosLB.Admission.Webhook
import HeliosLB.Controller.IPManagerSpec

namespace HeliosLB

open Lib

/-! ## 1. Nothing is missed -/

/-- The address could be handed out by a pass over the config. -/
def HeliosConfigSpec.allocatable (spec : HeliosConfigSpec) (x : String) : Prop :=
  ipAllocatable x spec.ipRange = true ∨
    (spec.ipv6Range ≠ "" ∧ ipAllocatable x spec.ipv6Range = true)

/-- The range is a block of the other family than the address, which a comparison of bytes does
    not notice and containment does. -/
def foreignBlock (x r : String) : Prop := isCIDR r = true ∧ sameFamily x r = false

/-- **Allocatable here, but not compared.** -/
def Overlooked (hc other : HeliosConfig) (x : String) : Prop :=
  (x ∈ StringMap.values other.status.allocatedIPv6s ∧ ipAllocatable x hc.spec.ipRange = true) ∨
  (x ∈ StringMap.values other.status.allocatedIPs ∧ hc.spec.ipv6Range ≠ "" ∧
    ipAllocatable x hc.spec.ipv6Range = true) ∨
  (x ∈ StringMap.values other.status.allocatedIPs ∧ ipAllocatable x hc.spec.ipRange = true ∧
    foreignBlock x hc.spec.ipRange) ∨
  (x ∈ StringMap.values other.status.allocatedIPv6s ∧ hc.spec.ipv6Range ≠ "" ∧
    ipAllocatable x hc.spec.ipv6Range = true ∧ foreignBlock x hc.spec.ipv6Range)

theorem mem_recorded {hc : HeliosConfig} {x : String} : x ∈ hc.recorded ↔
    x ∈ StringMap.values hc.status.allocatedIPs ∨
      x ∈ StringMap.values hc.status.allocatedIPv6s := by
  unfold HeliosConfig.recorded
  rw [List.mem_append]

theorem Overlooked.allocatable {hc other : HeliosConfig} {x : String} (h : Overlooked hc other x) :
    x ∈ other.recorded ∧ hc.spec.allocatable x := by
  rw [mem_recorded]
  rcases h with ⟨hx, ha⟩ | ⟨hx, h6, ha⟩ | ⟨hx, ha, _⟩ | ⟨hx, h6, ha, _⟩
  · exact ⟨Or.inr hx, Or.inl ha⟩
  · exact ⟨Or.inl hx, Or.inr ⟨h6, ha⟩⟩
  · exact ⟨Or.inl hx, Or.inl ha⟩
  · exact ⟨Or.inr hx, Or.inr ⟨h6, ha⟩⟩

/-- Within the family an allocatable address is contained. -/
theorem inRange_or_foreign {x r : String} (h : ipAllocatable x r = true) :
    ipInRange x r = true ∨ foreignBlock x r := by
  by_cases hf : foreignBlock x r
  · exact Or.inr hf
  · refine Or.inl ((ipInRange_iff x r).mpr (Or.inl ⟨h, fun hr => ?_⟩))
    rw [← Bool.not_eq_false]
    exact fun hs => hf ⟨hr, hs⟩

/-- An allocatable address is compared or overlooked. -/
theorem compared_or_overlooked {hc other : HeliosConfig} {x : String} (hx : x ∈ other.recorded)
    (ha : hc.spec.allocatable x) : Compared hc other x ∨ Overlooked hc other x := by
  rcases mem_recorded.mp hx with hx | hx <;> rcases ha with ha | ⟨h6, ha⟩
  · rcases inRange_or_foreign ha with hi | hf
    · exact Or.inl (Or.inl ⟨hx, hi⟩)
    · exact Or.inr (Or.inr (Or.inr (Or.inl ⟨hx, ha, hf⟩)))
  · exact Or.inr (Or.inr (Or.inl ⟨hx, h6, ha⟩))
  · exact Or.inr (Or.inl ⟨hx, ha⟩)
  · rcases inRange_or_foreign ha with hi | hf
    · exact Or.inl (Or.inr ⟨h6, hx, hi⟩)
    · exact Or.inr (Or.inr (Or.inr (Or.inr ⟨hx, h6, ha, hf⟩)))

/-- **The conflict check finds every address of another config that is allocatable here** exactly
    if each overlooked one is also recorded, by some other config, in a map that is compared with
    a range it lies in. -/
theorem conflicts_complete_iff (hc : HeliosConfig) (configs : List HeliosConfig) :
    (∀ other ∈ configs, other.key ≠ hc.key → ∀ x ∈ other.recorded, hc.spec.allocatable x →
      x ∈ (checkIPConflicts hc configs).keys) ↔
    ∀ other ∈ configs, other.key ≠ hc.key → ∀ x, Overlooked hc other x →
      ∃ other' ∈ configs, other'.key ≠ hc.key ∧ Compared hc other' x := by
  have hk : ∀ x, x ∈ (checkIPConflicts hc configs).keys ↔
      ∃ other' ∈ configs, other'.key ≠ hc.key ∧ Compared hc other' x :=
    fun x => mem_checkIPConflicts
  constructor
  · intro h other hm hne x ho
    obtain ⟨hx, ha⟩ := ho.allocatable
    exact (hk x).mp (h other hm hne x hx ha)
  · intro h other hm hne x hx ha
    rw [hk]
    rcases compared_or_overlooked hx ha with hc' | ho
    · exact ⟨other, hm, hne, hc'⟩
    · exact h other hm hne x ho

/-- **An IPv6 address of a dual-stack config is not found by a config with that IPv6 block as its
    `ipRange`.** -/
theorem conflicts_miss_crossed :
    let a : HeliosConfig := { key := ⟨"default", "a"⟩, spec := { ipRange := "fd00::/120" } }
    let b : HeliosConfig :=
      { key := ⟨"default", "b"⟩, spec := { ipRange := "10.0.0.0/24", ipv6Range := "fd00::/120" }
        status := { allocatedIPs := (∅ : StringMap).insert "web" "10.0.0.1"
                    allocatedIPv6s := (∅ : StringMap).insert "web" "fd00::1" } }
    b.key ≠ a.key ∧ "fd00::1" ∈ b.recorded ∧ ipAllocatable "fd00::1" a.spec.ipRange = true ∧
      (checkIPConflicts a [a, b]).keys = [] := by
  decide

/-! ## 2. Admission and conflicts -/

/-- An address allocatable from a range that does not meet another is in that one only at the edge
    of a block. -/
theorem ipInRange_iff_edge {x r r' : String} (hx : ipAllocatable x r = true)
    (hm : rangesMeet r r' = false) : ipInRange x r' = true ↔ atBlockEdge x r' = true := by
  rw [ipInRange_iff, not_allocatable_both hm hx]
  simp

/-- **Configs that admission accepts beside each other block each other exactly at the edges of
    their blocks.** Each range was compared with the one of every other config, and each config
    records addresses allocatable from its own `ipRange`. -/
theorem admitted_without_conflict_iff {configs : List HeliosConfig} {excludeName : String}
    (hname : ∀ c ∈ configs, c.key.name ≠ excludeName)
    (hacc : ∀ a ∈ configs, ∀ b ∈ configs, a.key ≠ b.key →
      overlapForRange a.spec.ipRange excludeName [b] false = .ok ())
    (hrec : ∀ c ∈ configs, ∀ x ∈ StringMap.values c.status.allocatedIPs,
      ipAllocatable x c.spec.ipRange = true) :
    (∀ a ∈ configs, StringMap.len (checkIPConflicts a configs) = 0) ↔
      ∀ a ∈ configs, ∀ b ∈ configs, b.key ≠ a.key →
        (∀ x ∈ StringMap.values b.status.allocatedIPs, atBlockEdge x a.spec.ipRange = false) ∧
        (a.spec.ipv6Range ≠ "" → ∀ x ∈ StringMap.values b.status.allocatedIPv6s,
          ipInRange x a.spec.ipv6Range = false) := by
  refine forall₂_congr fun a ha => ?_
  rw [checkIPConflicts_len]
  refine forall₃_congr fun b hb hne => ?_
  have hedge : ∀ x ∈ StringMap.values b.status.allocatedIPs,
      (ipInRange x a.spec.ipRange = true ↔ atBlockEdge x a.spec.ipRange = true) := by
    intro x hx
    have hm : rangesMeet b.spec.ipRange a.spec.ipRange = false :=
      overlapForRange_disjoint (hacc b hb a ha hne) (List.mem_singleton_self a) (hname a ha)
    exact ipInRange_iff_edge (hrec b hb x hx) hm
  rw [conflicting_iff]
  constructor
  · intro h
    refine ⟨fun x hx => ?_, fun h6 x hx => ?_⟩
    · rw [Bool.eq_false_iff]
      exact fun he => h ⟨x, Or.inl ⟨hx, (hedge x hx).mpr he⟩⟩
    · rw [Bool.eq_false_iff]
      exact fun hi => h ⟨x, Or.inr ⟨h6, hx, hi⟩⟩
  · intro h hc
    obtain ⟨x, ⟨hx, hi⟩ | ⟨h6, hx, hi⟩⟩ := hc
    · rw [hedge x hx, h.1 x hx] at hi
      cases hi
    · rw [h.2 h6 x hx] at hi
      cases hi

/-- Neighbouring ranges in three notations. -/
theorem admitted_without_conflict_neighbours :
    let a : HeliosConfig :=
      { key := ⟨"default", "a"⟩, spec := { ipRange := "10.0.0.0/24" }
        status := { allocatedIPs := (∅ : StringMap).insert "web" "10.0.0.254" } }
    let b : HeliosConfig :=
      { key := ⟨"default", "b"⟩, spec := { ipRange := "10.0.1.0-10.0.1.9" }
        status := { allocatedIPs := (∅ : StringMap).insert "db" "10.0.1.0" } }
    let c : HeliosConfig :=
      { key := ⟨"default", "c"⟩, spec := { ipRange := "10.0.1.10" }
        status := { allocatedIPs := (∅ : StringMap).insert "dns" "10.0.1.10" } }
    ∀ x ∈ [a, b, c], StringMap.len (checkIPConflicts x [a, b, c]) = 0 := by
  intro a b c
  have hname : ∀ x ∈ [a, b, c], x.key.name ≠ "" := by decide
  have hacc : ∀ x ∈ [a, b, c], ∀ y ∈ [a, b, c], x.key ≠ y.key →
      overlapForRange x.spec.ipRange "" [y] false = .ok () := by decide
  have hrec : ∀ x ∈ [a, b, c], ∀ i ∈ StringMap.values x.status.allocatedIPs,
      ipAllocatable i x.spec.ipRange = true := by decide
  exact (admitted_without_conflict_iff hname hacc hrec).mpr (by decide)

/-- **A range that starts at the broadcast address of a block is admitted, and the first address
    it hands out blocks the block.** -/
theorem admitted_with_conflict_broadcast :
    let a : HeliosConfig := { key := ⟨"default", "a"⟩, spec := { ipRange := "10.0.0.0/24" } }
    let b : HeliosConfig :=
      { key := ⟨"default", "b"⟩, spec := { ipRange := "10.0.0.255-10.0.1.5" }
        status := { allocatedIPs := (∅ : StringMap).insert "db" "10.0.0.255" } }
    (validateIPRange a.spec.ipRange = .ok () ∧ validateIPRange b.spec.ipRange = .ok ()) ∧
      overlapForRange a.spec.ipRange "" [b] false = .ok () ∧
      overlapForRange b.spec.ipRange "" [a] false = .ok () ∧
      ipAllocatable "10.0.0.255" b.spec.ipRange = true ∧
      (checkIPConflicts a [a, b]).keys = ["10.0.0.255"] := by
  decide

end HeliosLB
