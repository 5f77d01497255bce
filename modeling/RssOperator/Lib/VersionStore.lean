/-
One object in a store that counts versions, and the copies of it that
clients hold.

# The store

Every write makes a new version; the old ones are only remembered
(`contents`) to say what a copy was made from. A client's write goes
through `swap`: it names the version it started from, and is accepted if
that is still the current one.

# Copies

A client changes its copies as it likes. `Copy.Of r` says that a copy was
made from the version it names by changes that `r` allows. Writes of
others do not take that away (`Copy.Of.put`), and a `swap` that is
accepted is one whose copy was made from the current contents
(`Copy.Of.swap`). So `r` bounds what a client can do to the object, in
whatever order the clients read and write.
-/
import Mathlib.Logic.Function.Basic

/-- The current version of an object, and what each version up to it
contains. -/
structure VersionStore (α : Type) where
  version : Nat
  contents : Nat → α

namespace VersionStore

variable {α : Type}

/-- An object that has been created and not been written since. -/
def start (a : α) : VersionStore α := ⟨0, fun _ => a⟩

def current (s : VersionStore α) : α := s.contents s.version

/-- A write, whoever makes it. -/
def put (a : α) (s : VersionStore α) : VersionStore α :=
  ⟨s.version + 1, Function.update s.contents (s.version + 1) a⟩

/-- A write of a client that has read version `v`. -/
def swap (v : Nat) (a : α) (s : VersionStore α) : Option (VersionStore α) :=
  if v = s.version then some (s.put a) else none

@[simp] theorem version_put (a : α) (s : VersionStore α) :
    (s.put a).version = s.version + 1 := rfl

@[simp] theorem current_put (a : α) (s : VersionStore α) :
    (s.put a).current = a :=
  Function.update_self _ _ _

theorem contents_put {v : Nat} {s : VersionStore α} (h : v ≤ s.version)
    (a : α) : (s.put a).contents v = s.contents v :=
  Function.update_of_ne (by omega) _ _

/-- A version is the new one, or is as it was. -/
theorem contents_put_cases {v : Nat} {a : α} {s : VersionStore α}
    (hv : v ≤ (s.put a).version) :
    (s.put a).contents v = a
      ∨ v ≤ s.version ∧ (s.put a).contents v = s.contents v := by
  rcases Nat.lt_or_ge s.version v with hlt | hle
  · obtain rfl : v = s.version + 1 := Nat.le_antisymm hv hlt
    exact Or.inl (current_put a s)
  · exact Or.inr ⟨hle, contents_put hle a⟩

/-- What was there is there still. -/
structure Extends (s s' : VersionStore α) : Prop where
  version : s.version ≤ s'.version
  contents : ∀ v, v ≤ s.version → s'.contents v = s.contents v

theorem Extends.refl (s : VersionStore α) : s.Extends s :=
  ⟨Nat.le_refl _, fun _ _ => rfl⟩

theorem extends_put (a : α) (s : VersionStore α) : s.Extends (s.put a) :=
  ⟨Nat.le_succ _, fun _ hv => contents_put hv a⟩

/-- A copy a client holds, and the version it names. -/
structure Copy (α : Type) where
  version : Nat
  value : α

/-- The copy was made from the version it names, by changes that `r`
allows. -/
structure Copy.Of (r : α → α → Prop) (s : VersionStore α) (c : Copy α) :
    Prop where
  known : c.version ≤ s.version
  made : r (s.contents c.version) c.value

namespace Copy.Of

variable {r : α → α → Prop} {s s' : VersionStore α} {c : Copy α} {a b : α}

/-- Others may write. -/
theorem put (h : c.Of r s) (a : α) : c.Of r (s.put a) where
  known := Nat.le_succ_of_le h.known
  made := by
    rw [contents_put h.known]
    exact h.made

/-- A write that is accepted was made from the current contents. -/
theorem swap (h : c.Of r s) (hswap : s.swap c.version a = some s') :
    r s.current c.value ∧ s' = s.put a := by
  unfold VersionStore.swap at hswap
  split at hswap
  · next hv =>
    cases hswap
    refine ⟨?_, rfl⟩
    have hmade := h.made
    rw [hv] at hmade
    exact hmade
  · cases hswap

/-- A copy of what is there. -/
theorem fetched (h : r s.current b) : (⟨s.version, b⟩ : Copy α).Of r s where
  known := Nat.le_refl _
  made := h

end Copy.Of

end VersionStore
