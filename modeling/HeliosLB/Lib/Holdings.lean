/-
  File:      HeliosLB/Lib/Holdings.lean
  Subject:   WHO HOLDS WHAT: holders of resources from a common stock. Nothing here names a program.

  Each holder holds a set of resources, the stock keeps the set of those taken. The holdings are
  safe if everything held is taken and no resource has two holders.

  * `Safe`, `Safe.holder_unique` -- a resource has one holder;
  * `Safe.mono` -- giving up holdings and taking more from the stock is safe;
  * **`Safe.give`** -- so is giving one holder resources that were not taken.
-/
import Mathlib.Data.Set.Lattice
import Mathlib.Order.CompletePartialOrder

namespace Lib

variable {κ ρ : Type*}

/-- **Everything held is taken, and nothing is held twice.** -/
structure Safe (taken : Set ρ) (holds : κ → Set ρ) : Prop where
  taken : ∀ k, holds k ⊆ taken
  apart : ∀ k k', k ≠ k' → Disjoint (holds k) (holds k')

namespace Safe

variable {T T' : Set ρ} {H H' : κ → Set ρ}

theorem holder_unique (h : Safe T H) {k k' : κ} {a : ρ} (hk : a ∈ H k) (hk' : a ∈ H k') :
    k = k' := by
  by_contra hne
  exact Set.disjoint_left.mp (h.apart k k' hne) hk hk'

theorem mono (h : Safe T H) (hT : T ⊆ T') (hH : ∀ k, H' k ⊆ H k) : Safe T' H' where
  taken k := ((hH k).trans (h.taken k)).trans hT
  apart k k' hne := (h.apart k k' hne).mono (hH k) (hH k')

/-- **The holder `k` gives up what it has and gets resources that were not taken.** -/
theorem give (h : Safe T H) {A : Set ρ} (hA : Disjoint A T) (hT : T ∪ A ⊆ T') {k : κ}
    (hk : H' k ⊆ A) (hH : ∀ k', k' ≠ k → H' k' ⊆ H k') : Safe T' H' := by
  have hT₁ : T ⊆ T' := Set.subset_union_left.trans hT
  -- what anyone else holds was taken before, so it is not among the new resources
  have hne : ∀ k', k' ≠ k → Disjoint (H' k) (H' k') := fun k' hk' =>
    hA.mono hk ((hH k' hk').trans (h.taken k'))
  constructor
  · intro k'
    by_cases e : k' = k
    · subst e
      exact (hk.trans Set.subset_union_right).trans hT
    · exact ((hH k' e).trans (h.taken k')).trans hT₁
  · intro a b hab
    by_cases ha : a = k
    · subst ha
      exact hne b (Ne.symm hab)
    · by_cases hb : b = k
      · subst hb
        exact (hne a ha).symm
      · exact (h.apart a b hab).mono (hH a ha) (hH b hb)

end Safe

end Lib
