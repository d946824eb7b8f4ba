/-
  File:      HeliosLB/Lib/StoreRel.lean
  Subject:   STORES THAT AGREE UP TO A RELATION. Nothing here names a program.

  The objects under each key are related; in which order the stores list them is left open.

  * `Store.Rel` -- the relation on stores that one on objects gives;
  * `Rel.exists_mem` -- so what is in one store has a partner in the other;
  * `Rel.replace`, `Rel.delete`, `Rel.create` -- writes of related objects keep it.
-/
import HeliosLB.Lib.Store
import Mathlib.Data.Option.Basic

namespace Lib.Store

variable {α κ : Type*} [DecidableEq κ] {key : α → κ}

/-- **The objects under each key are related.** -/
def Rel (R : α → α → Prop) (S T : Store key) : Prop := ∀ k, Option.Rel R (S.find k) (T.find k)

theorem find_replace_eq (S : Store key) (a : α) (k : κ) :
    (S.replace a).find k = if key a = k then (S.find k).map fun _ => a else S.find k := by
  by_cases h : key a = k
  · rw [if_pos h]
    cases hf : S.find k with
    | some b => exact find_replace hf h
    | none =>
        rw [Option.map_none, Option.eq_none_iff_forall_ne_some]
        intro b hb
        obtain ⟨hm, hk⟩ := find_eq_some.mp hb
        rcases mem_replace.mp hm with ⟨rfl, c, hc, hck⟩ | ⟨hm, hne⟩
        · exact absurd (find_eq_some.mpr ⟨hc, hck.trans hk⟩) (by simp [hf])
        · exact hne (hk.trans h.symm)
  · rw [if_neg h, find_replace_ne h]

theorem find_delete_eq (S : Store key) (k k' : κ) :
    (S.delete k).find k' = if k' = k then none else S.find k' := by
  by_cases h : k' = k
  · rw [if_pos h, Option.eq_none_iff_forall_ne_some]
    intro b hb
    obtain ⟨hm, hk⟩ := find_eq_some.mp hb
    exact (mem_delete.mp hm).2 (hk.trans h)
  · rw [if_neg h, find_delete_ne h]

theorem find_create_eq (S : Store key) (a : α) (k : κ) :
    (S.create a).find k = (S.find k).or (if key a = k then some a else none) := by
  cases hf : S.find k with
  | some b =>
      obtain ⟨hm, hk⟩ := find_eq_some.mp hf
      exact find_eq_some.mpr ⟨mem_create_of_mem hm, hk⟩
  | none =>
      have hnot : ∀ b ∈ S, key b ≠ k := by
        intro b hb hk
        rw [find_eq_some.mpr ⟨hb, hk⟩] at hf
        cases hf
      rw [Option.none_or]
      by_cases h : key a = k
      · rw [if_pos h]
        refine find_eq_some.mpr ⟨?_, h⟩
        unfold create
        rw [dif_neg fun hm => ?_]
        · exact List.mem_append_right _ (List.mem_singleton_self a)
        · obtain ⟨b, hb, hk⟩ := List.mem_map.mp hm
          exact hnot b hb (hk.trans h)
      · rw [if_neg h, Option.eq_none_iff_forall_ne_some]
        intro b hb
        obtain ⟨hm, hk⟩ := find_eq_some.mp hb
        rcases mem_create hm with hm | rfl
        · exact hnot b hm hk
        · exact h hk

namespace Rel

variable {R : α → α → Prop} {S T : Store key}

theorem empty : Rel R (.empty : Store key) .empty := fun _ => .none

theorem exists_mem (h : Rel R S T) {a : α} (ha : a ∈ S) : ∃ b ∈ T, R a b := by
  have hk := h (key a)
  rw [find_key ha] at hk
  cases hf : T.find (key a) with
  | none =>
      rw [hf] at hk
      cases hk
  | some b =>
      rw [hf] at hk
      cases hk with
      | some hr => exact ⟨b, (find_eq_some.mp hf).1, hr⟩

theorem symm (hR : ∀ a b, R a b → R b a) (h : Rel R S T) : Rel R T S := by
  intro k
  have hk := h k
  generalize S.find k = a at hk
  generalize T.find k = b at hk
  cases hk with
  | none => exact .none
  | some hr => exact .some (hR _ _ hr)

theorem replace (h : Rel R S T) {a b : α} (hr : R a b) (hk : key b = key a) :
    Rel R (S.replace a) (T.replace b) := by
  intro k
  rw [find_replace_eq, find_replace_eq, hk]
  have hfind := h k
  split
  · generalize S.find k = x at hfind
    generalize T.find k = y at hfind
    cases hfind with
    | none => exact .none
    | some _ => exact .some hr
  · exact hfind

theorem delete (h : Rel R S T) (k : κ) : Rel R (S.delete k) (T.delete k) := by
  intro k'
  rw [find_delete_eq, find_delete_eq]
  split
  · exact .none
  · exact h k'

theorem create (h : Rel R S T) {a b : α} (hr : R a b) (hk : key b = key a) :
    Rel R (S.create a) (T.create b) := by
  intro k
  rw [find_create_eq, find_create_eq, hk]
  have hfind := h k
  generalize S.find k = x at hfind
  generalize T.find k = y at hfind
  cases hfind with
  | some hxy => exact .some hxy
  | none =>
      rw [Option.none_or]
      split
      · exact .some hr
      · exact .none

end Rel

end Lib.Store
