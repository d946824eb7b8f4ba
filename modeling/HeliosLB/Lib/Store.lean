/-
  File:      HeliosLB/Lib/Store.lean
  Subject:   A STORE OF KEYED OBJECTS. Nothing here names a program.

  The objects stand in a list (a reader may depend on their order) and no two of them have the
  same key; the store carries that as a field. Objects are put in place of the one with their
  key, added at the end, or removed.

  * `Store.find` -- the object with a key; `find_eq_some` says it is THE object with that key;
  * `Store.replace` -- write an object over the one with its key, nothing if there is none;
  * `Store.create`, `Store.delete`, `Store.ofList`;
  * `mem_replace`, `mem_create`, `mem_delete` -- what is stored after each of them;
    `find_replace`, `find_replace_ne`, `replace_replace`, `replace_comm` -- writes, by key;
  * `filter_replace`, `foldl_replace` -- readers of the list that a write does not disturb;
  * `Store.replaceAll` -- several writes, with the same facts.
-/
import Mathlib.Data.List.Nodup

namespace Lib

/-- Objects in a fixed order, at most one for each key. -/
structure Store {α κ : Type*} (key : α → κ) where
  objects : List α
  nodup : (objects.map key).Nodup

namespace Store

variable {α κ : Type*} {key : α → κ}

instance : Membership α (Store key) := ⟨fun S a => a ∈ S.objects⟩

theorem mem_def {S : Store key} {a : α} : a ∈ S ↔ a ∈ S.objects := Iff.rfl

/-- The store without an object. -/
def empty : Store key := ⟨[], List.nodup_nil⟩

/-- Two stored objects with one key are one object. -/
theorem eq_of_key {S : Store key} {a b : α} (ha : a ∈ S) (hb : b ∈ S) (h : key a = key b) :
    a = b :=
  List.inj_on_of_nodup_map S.nodup ha hb h

variable [DecidableEq κ]

/-- The object stored under a key. -/
def find (S : Store key) (k : κ) : Option α := S.objects.find? fun a => key a = k

theorem find_eq_some {S : Store key} {k : κ} {a : α} : S.find k = some a ↔ a ∈ S ∧ key a = k := by
  constructor
  · intro h
    exact ⟨List.mem_of_find?_eq_some h, by simpa using List.find?_some h⟩
  · intro h
    obtain ⟨ha, rfl⟩ := h
    have hs : (S.find (key a)).isSome = true := by
      simpa [find] using ⟨a, ha, rfl⟩
    obtain ⟨b, hb⟩ := Option.isSome_iff_exists.mp hs
    have hk : key b = key a := by simpa using List.find?_some hb
    rw [hb, eq_of_key (List.mem_of_find?_eq_some hb) ha hk]

theorem find_key {S : Store key} {a : α} (ha : a ∈ S) : S.find (key a) = some a :=
  find_eq_some.mpr ⟨ha, rfl⟩

/-- Write `a` over the stored object with its key; without one, nothing is stored. -/
def replace (S : Store key) (a : α) : Store key where
  objects := S.objects.map fun b => if key b = key a then a else b
  nodup := by
    have e : (S.objects.map fun b => if key b = key a then a else b).map key
        = S.objects.map key := by
      rw [List.map_map]
      refine List.map_congr_left fun b _ => ?_
      by_cases h : key b = key a
      · simp [h]
      · simp [h]
    rw [e]
    exact S.nodup

theorem mem_replace {S : Store key} {a b : α} :
    b ∈ S.replace a ↔ (b = a ∧ ∃ c ∈ S, key c = key a) ∨ (b ∈ S ∧ key b ≠ key a) := by
  simp only [mem_def, replace, List.mem_map]
  constructor
  · intro h
    obtain ⟨c, hc, rfl⟩ := h
    by_cases h : key c = key a
    · rw [if_pos h]
      exact Or.inl ⟨rfl, c, hc, h⟩
    · rw [if_neg h]
      exact Or.inr ⟨hc, h⟩
  · intro h
    rcases h with ⟨rfl, c, hc, h⟩ | ⟨hb, h⟩
    · exact ⟨c, hc, by simp [h]⟩
    · exact ⟨b, hb, by simp [h]⟩

theorem find_replace {S : Store key} {a b : α} {k : κ} (h : S.find k = some b) (hk : key a = k) :
    (S.replace a).find k = some a := by
  obtain ⟨hb, hbk⟩ := find_eq_some.mp h
  exact find_eq_some.mpr ⟨mem_replace.mpr (Or.inl ⟨rfl, b, hb, hbk.trans hk.symm⟩), hk⟩

theorem find_replace_ne {S : Store key} {a : α} {k : κ} (h : key a ≠ k) :
    (S.replace a).find k = S.find k := by
  refine Option.ext fun b => ?_
  simp only [find_eq_some, mem_replace]
  constructor
  · intro h
    obtain ⟨⟨rfl, _⟩ | ⟨hb, _⟩, hk⟩ := h
    · exact absurd hk h
    · exact ⟨hb, hk⟩
  · intro h
    obtain ⟨hb, hk⟩ := h
    exact ⟨Or.inr ⟨hb, fun e => h (e.symm.trans hk)⟩, hk⟩

/-- A second write to the same key wins. -/
theorem replace_replace {S : Store key} {a b : α} (h : key a = key b) :
    (S.replace a).replace b = S.replace b := by
  unfold replace
  congr 1
  rw [List.map_map]
  refine List.map_congr_left fun c _ => ?_
  by_cases hc : key c = key a
  · simp [hc, h]
  · simp [hc, h ▸ hc]

/-- Writing what is stored changes nothing. -/
theorem replace_self {S : Store key} {a : α} (h : a ∈ S) : S.replace a = S := by
  obtain ⟨l, hl⟩ := S
  unfold replace
  congr 1
  refine (List.map_congr_left fun b hb => ?_).trans (List.map_id l)
  by_cases hk : key b = key a
  · rw [if_pos hk]
    exact eq_of_key h hb hk.symm
  · rw [if_neg hk]
    rfl

/-- Writes to different keys commute. -/
theorem replace_comm {S : Store key} {a b : α} (h : key a ≠ key b) :
    (S.replace a).replace b = (S.replace b).replace a := by
  unfold replace
  congr 1
  rw [List.map_map, List.map_map]
  refine List.map_congr_left fun c _ => ?_
  by_cases ha : key c = key a
  · have hb : key c ≠ key b := fun e => h (ha.symm.trans e)
    simp [ha, h]
  · by_cases hb : key c = key b
    · simp [hb, h.symm]
    · simp [ha, hb]

/-- A reader of the list that passes over the written object misses the one it was written
    over. -/
theorem filter_replace {S : Store key} {a : α} {p : α → Bool} (ha : p a = false) :
    (S.replace a).objects.filter p =
      (S.objects.filter p).filter fun b => decide (key b ≠ key a) := by
  unfold replace
  simp only
  rw [List.filter_filter]
  induction S.objects with
  | nil => rfl
  | cons b l ih =>
      rw [List.map_cons]
      by_cases hk : key b = key a
      · rw [if_pos hk, List.filter_cons_of_neg (by simp [ha]),
          List.filter_cons_of_neg (by simp [hk]), ih]
      · rw [if_neg hk]
        cases hp : p b with
        | false =>
            rw [List.filter_cons_of_neg (by simp [hp]),
              List.filter_cons_of_neg (by simp [hp]), ih]
        | true => rw [List.filter_cons_of_pos hp, List.filter_cons_of_pos (by simp [hp, hk]), ih]

/-- A fold that treats the written object as the one it is written over. -/
theorem foldl_replace {β : Type*} {S : Store key} {a : α} {f : β → α → β}
    (h : ∀ b ∈ S, key b = key a → ∀ x, f x a = f x b) (x : β) :
    (S.replace a).objects.foldl f x = S.objects.foldl f x := by
  unfold replace
  simp only
  rw [List.foldl_map]
  have hb : ∀ b ∈ S.objects, ∀ x, f x (if key b = key a then a else b) = f x b := by
    intro b hm x
    by_cases hk : key b = key a
    · rw [if_pos hk, h b hm hk]
    · rw [if_neg hk]
  generalize S.objects = l at hb ⊢
  induction l generalizing x with
  | nil => rfl
  | cons b l ih =>
      rw [List.foldl_cons, List.foldl_cons, hb b List.mem_cons_self]
      exact ih (f x b) fun c hc => hb c (List.mem_cons_of_mem b hc)

/-- Write several objects. -/
def replaceAll (S : Store key) (l : List α) : Store key := l.foldl replace S

@[simp] theorem replaceAll_nil (S : Store key) : S.replaceAll [] = S := rfl

@[simp] theorem replaceAll_cons (S : Store key) (a : α) (l : List α) :
    S.replaceAll (a :: l) = (S.replace a).replaceAll l := rfl

theorem filter_replaceAll {S : Store key} {l : List α} {p : α → Bool} (h : ∀ a ∈ l, p a = false) :
    (S.replaceAll l).objects.filter p =
      (S.objects.filter p).filter fun b => decide (key b ∉ l.map key) := by
  induction l generalizing S with
  | nil => simp
  | cons a l ih =>
      rw [replaceAll_cons, ih fun b hb => h b (List.mem_cons_of_mem a hb),
        filter_replace (h a List.mem_cons_self), List.filter_filter]
      refine List.filter_congr fun b _ => ?_
      rw [← Bool.decide_and, decide_eq_decide, List.map_cons, List.mem_cons, not_or, and_comm]

/-- After writes with different keys every written object that was there is stored as written. -/
theorem mem_replaceAll {S : Store key} {l : List α} (hl : (l.map key).Nodup) {b : α} :
    b ∈ S.replaceAll l ↔ (b ∈ l ∧ ∃ c ∈ S, key c = key b) ∨ (b ∈ S ∧ key b ∉ l.map key) := by
  induction l generalizing S with
  | nil => simp
  | cons a l ih =>
      obtain ⟨hnot, hl'⟩ := List.nodup_cons.mp hl
      have hkeys : (∃ c ∈ S.replace a, key c = key b) ↔ ∃ c ∈ S, key c = key b := by
        constructor
        · intro h
          obtain ⟨c, hc, hk⟩ := h
          rcases mem_replace.mp hc with ⟨rfl, d, hd, hdk⟩ | ⟨hc, _⟩
          · exact ⟨d, hd, hdk.trans hk⟩
          · exact ⟨c, hc, hk⟩
        · intro h
          obtain ⟨c, hc, hk⟩ := h
          by_cases hca : key c = key a
          · exact ⟨a, mem_replace.mpr (Or.inl ⟨rfl, c, hc, hca⟩), hca.symm.trans hk⟩
          · exact ⟨c, mem_replace.mpr (Or.inr ⟨hc, hca⟩), hk⟩
      rw [replaceAll_cons, ih hl', hkeys, mem_replace, List.mem_cons, List.map_cons, List.mem_cons]
      constructor
      · intro h
        rcases h with ⟨hb, hc⟩ | ⟨⟨rfl, hc⟩ | ⟨hb, hne⟩, hm⟩
        · exact Or.inl ⟨Or.inr hb, hc⟩
        · exact Or.inl ⟨Or.inl rfl, hc⟩
        · exact Or.inr ⟨hb, not_or.mpr ⟨hne, hm⟩⟩
      · intro h
        rcases h with ⟨rfl | hb, hc⟩ | ⟨hb, hne⟩
        · exact Or.inr ⟨Or.inl ⟨rfl, hc⟩, hnot⟩
        · exact Or.inl ⟨hb, hc⟩
        · exact Or.inr ⟨Or.inr ⟨hb, (not_or.mp hne).1⟩, (not_or.mp hne).2⟩

theorem replaceAll_replace_comm {S : Store key} {a : α} {l : List α}
    (h : ∀ b ∈ l, key b ≠ key a) : (S.replace a).replaceAll l = (S.replaceAll l).replace a := by
  induction l generalizing S with
  | nil => rfl
  | cons b l ih =>
      rw [replaceAll_cons, replaceAll_cons, replace_comm (h b List.mem_cons_self).symm,
        ih fun c hc => h c (List.mem_cons_of_mem b hc)]

/-- Two series of writes to different keys commute. -/
theorem replaceAll_comm {S : Store key} {l l' : List α}
    (h : ∀ a ∈ l, ∀ b ∈ l', key a ≠ key b) :
    (S.replaceAll l).replaceAll l' = (S.replaceAll l').replaceAll l := by
  induction l generalizing S with
  | nil => rfl
  | cons a l ih =>
      rw [replaceAll_cons, replaceAll_cons, ih fun b hb => h b (List.mem_cons_of_mem a hb),
        replaceAll_replace_comm fun b hb => (h a List.mem_cons_self b hb).symm]

/-- Store a new object behind the others; the request is refused if its key is taken. -/
def create (S : Store key) (a : α) : Store key :=
  if h : key a ∈ S.objects.map key then S
  else ⟨S.objects ++ [a], by
    rw [List.map_append]
    refine List.nodup_append.mpr ⟨S.nodup, List.nodup_singleton _, fun x hx y hy e => ?_⟩
    rw [List.map_singleton, List.mem_singleton] at hy
    exact h (hy ▸ e ▸ hx)⟩

theorem mem_create_of_mem {S : Store key} {a b : α} (h : b ∈ S) : b ∈ S.create a := by
  unfold create
  split
  · exact h
  · exact List.mem_append_left [a] h

theorem mem_create {S : Store key} {a b : α} (h : b ∈ S.create a) : b ∈ S ∨ b = a := by
  unfold create at h
  split at h
  · exact Or.inl h
  · rcases List.mem_append.mp h with h | h
    · exact Or.inl h
    · exact Or.inr (List.mem_singleton.mp h)

/-- The store of the objects of a list; of several with one key, the first. -/
def ofList (l : List α) : Store key := l.foldl create empty

instance decidableForallMem (S : Store key) (p : α → Prop) [DecidablePred p] :
    Decidable (∀ a ∈ S, p a) := inferInstanceAs (Decidable (∀ a ∈ S.objects, p a))

/-- Remove the object with a key. -/
def delete (S : Store key) (k : κ) : Store key where
  objects := S.objects.filter fun a => key a ≠ k
  nodup := S.nodup.sublist (List.filter_sublist.map key)

theorem mem_delete {S : Store key} {k : κ} {a : α} : a ∈ S.delete k ↔ a ∈ S ∧ key a ≠ k := by
  simp [mem_def, delete]

/-- A deletion does not show under other keys. -/
theorem find_delete_ne {S : Store key} {k k' : κ} (h : k' ≠ k) :
    (S.delete k).find k' = S.find k' := by
  refine Option.ext fun a => ?_
  rw [find_eq_some, find_eq_some, mem_delete]
  exact ⟨fun ha => ⟨ha.1.1, ha.2⟩, fun ha => ⟨⟨ha.1, fun e => h (ha.2.symm.trans e)⟩, ha.2⟩⟩

end Store

end Lib
