/-
  File:      HeliosLB/Lib/Ledger.lean
  Subject:   LEASES OF RESOURCES OVER A HISTORY. Nothing here names a program.

  A history lists what was done to resources of any type: leased to someone, marked as taken,
  released. A resource is held if it was taken and not released since. Leases are exclusive if
  each of them takes a resource that nobody held.

  * `Held`, `held_concat` -- held after a history, and one event later;
  * `Exclusive`, `exclusive_concat` -- exclusive leases, and one event later;
  * **`release_between`** -- between two exclusive leases of one resource it was released.
-/
import Mathlib.Data.List.Induction
import Mathlib.Tactic.Common

namespace Lib

variable {ρ : Type*}

/-- What one call does to the leases. -/
inductive Event (ρ : Type*) where
  | lease (a : ρ)
  | mark (a : ρ)
  | release (a : ρ)
  | idle
  deriving DecidableEq

/-- The event takes the resource, as a lease or as a mark. -/
def Event.Takes (e : Event ρ) (a : ρ) : Prop := e = .lease a ∨ e = .mark a

/-- **Held after a history**: taken, and not released since. -/
def Held (es : List (Event ρ)) (a : ρ) : Prop :=
  ∃ pre e post, es = pre ++ e :: post ∧ e.Takes a ∧ .release a ∉ post

theorem not_held_nil (a : ρ) : ¬ Held [] a := by
  intro h
  obtain ⟨pre, e, post, h, _, _⟩ := h
  simp at h

/-- Where a cut of a history stands that is one event longer: at that event, or before it. -/
theorem concat_cut {es pre post : List (Event ρ)} {e e' : Event ρ}
    (h : es ++ [e] = pre ++ e' :: post) :
    (es = pre ∧ e = e' ∧ post = []) ∨ ∃ post', post = post' ++ [e] ∧ es = pre ++ e' :: post' := by
  induction post using List.reverseRecOn with
  | nil =>
      obtain ⟨h1, h2⟩ := List.append_inj' h rfl
      exact Or.inl ⟨h1, List.singleton_inj.mp h2, rfl⟩
  | append_singleton post' e'' _ =>
      rw [← List.cons_append, ← List.append_assoc] at h
      obtain ⟨h1, h2⟩ := List.append_inj' h rfl
      exact Or.inr ⟨post', by rw [List.singleton_inj.mp h2], h1⟩

theorem held_concat {es : List (Event ρ)} {e : Event ρ} {a : ρ} :
    Held (es ++ [e]) a ↔ e.Takes a ∨ (Held es a ∧ e ≠ .release a) := by
  constructor
  · intro h
    obtain ⟨pre, e', post, h, ht, hr⟩ := h
    rcases concat_cut h with ⟨_, rfl, _⟩ | ⟨post', rfl, hes⟩
    · exact Or.inl ht
    · rw [List.mem_append, List.mem_singleton, not_or] at hr
      exact Or.inr ⟨⟨pre, e', post', hes, ht, hr.1⟩, fun he => hr.2 he.symm⟩
  · intro h
    rcases h with ht | ⟨⟨pre, e', post, rfl, ht, hr⟩, hne⟩
    · exact ⟨es, e, [], rfl, ht, List.not_mem_nil⟩
    · refine ⟨pre, e', post ++ [e], by simp, ht, ?_⟩
      rw [List.mem_append, List.mem_singleton, not_or]
      exact ⟨hr, fun he => hne he.symm⟩

/-- **Exclusive leases**: each one takes a resource that was not held. -/
def Exclusive (es : List (Event ρ)) : Prop :=
  ∀ pre a post, es = pre ++ .lease a :: post → ¬ Held pre a

theorem exclusive_nil : Exclusive ([] : List (Event ρ)) := by
  intro pre a post h
  simp at h

theorem exclusive_concat {es : List (Event ρ)} {e : Event ρ} (h : Exclusive es)
    (he : ∀ a, e = .lease a → ¬ Held es a) : Exclusive (es ++ [e]) := by
  intro pre a post hs
  rcases concat_cut hs with ⟨rfl, rfl, _⟩ | ⟨post', _, hes⟩
  · exact he a rfl
  · exact h pre a post' hes

/-- **Between two exclusive leases of one resource it was released.** -/
theorem release_between {es pre mid post : List (Event ρ)} {a : ρ} (h : Exclusive es)
    (hs : es = pre ++ .lease a :: (mid ++ .lease a :: post)) : .release a ∈ mid := by
  by_contra hr
  have hs' : es = (pre ++ .lease a :: mid) ++ .lease a :: post := by simpa using hs
  exact h _ a post hs' ⟨pre, .lease a, mid, rfl, Or.inl rfl, hr⟩

end Lib
