/-
  File:      HeliosLB/Lib/Versioned.lean
  Subject:   AN OBJECT UNDER OPTIMISTIC CONCURRENCY. Nothing here names a program.

  The object keeps all its versions, numbered from zero. A reader gets whichever version its cache
  holds; a writer names the version it started from and succeeds if that is still the latest.

  * `read` -- any version; `write` -- the next version, if the writer has the latest;
  * `read_push` -- a version once read stays what it was;
  * `write_eq_some`, `current_of_read` -- a write that succeeds started from the present object.
-/
import Mathlib.Data.List.Basic

namespace Lib

/-- An object and its earlier versions, the oldest first. -/
structure Versioned (α : Type*) where
  past : List α
  current : α

namespace Versioned

variable {α : Type*} {o : Versioned α} {a b : α} {v : Nat}

/-- All versions. -/
def versions (o : Versioned α) : List α := o.past ++ [o.current]

/-- The number of the latest version. -/
def version (o : Versioned α) : Nat := o.past.length

/-- **A read may return any version.** -/
def read (o : Versioned α) (v : Nat) : Option α := o.versions[v]?

/-- The object with one more version. -/
def push (o : Versioned α) (a : α) : Versioned α := ⟨o.versions, a⟩

/-- **A write from version `v`** succeeds against the latest version only. -/
def write (o : Versioned α) (v : Nat) (f : α → α) : Option (Versioned α) :=
  if v = o.version then some (o.push (f o.current)) else none

@[simp] theorem push_current (o : Versioned α) (a : α) : (o.push a).current = a := rfl

@[simp] theorem version_push (o : Versioned α) (a : α) : (o.push a).version = o.version + 1 :=
  List.length_append

theorem mem_versions_push : b ∈ (o.push a).versions ↔ b ∈ o.versions ∨ b = a := by
  unfold push
  rw [versions, List.mem_append, List.mem_singleton]

theorem current_mem (o : Versioned α) : o.current ∈ o.versions :=
  List.mem_append_right _ (List.mem_singleton_self _)

theorem read_version (o : Versioned α) : o.read o.version = some o.current := by
  unfold read versions version
  rw [List.getElem?_concat_length]

/-- The latest version is the object as it is. -/
theorem current_of_read (h : o.read o.version = some a) : o.current = a := by
  rw [read_version] at h
  exact Option.some.inj h

/-- What was read once is there later. -/
theorem read_push (h : o.read v = some a) : (o.push b).read v = some a :=
  (List.getElem?_append_left (List.getElem?_eq_some_iff.mp h).1).trans h

theorem write_version (o : Versioned α) (f : α → α) :
    o.write o.version f = some (o.push (f o.current)) := if_pos rfl

theorem write_eq_some {f : α → α} {o' : Versioned α} (h : o.write v f = some o') :
    v = o.version ∧ o' = o.push (f o.current) := by
  unfold write at h
  split at h
  · next hv => exact ⟨hv, (Option.some.inj h).symm⟩
  · cases h

end Versioned

end Lib
