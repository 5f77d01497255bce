/-
Go maps: finite maps with pointer-shaped updates, and `range` loops
whose visiting order the language leaves open.

# The representation

A `GoMap κ ν` is Mathlib's association list with distinct keys
(`AList`), so lookup, insertion and membership are Mathlib's. What this
file adds is what a Go program does with a `map[K]*V`: write through
the pointer found under a key (`modify`), rebuild every value
(`mapVals`), keep some of the keys (`filterKeys`), copy one map into another
(`copyInto`), and count the values with a property (`count`).

# Iteration order

A Go `range` over a map may visit the entries in any order, and a
different one each time. An `Order` is one such choice: a function that
permutes whatever list of keys it is given. A statement quantified over
all `Order`s is a statement about every iteration order, and the proof
that the function permutes is a field, so no invalid order can be
written down.
-/
import Mathlib.Data.List.AList
import Mathlib.Data.List.Perm.Basic

/-- A Go map from `κ` to (pointers to) `ν`. -/
abbrev GoMap (κ ν : Type) : Type := AList fun _ : κ => ν

/-- One choice of visiting order for a `range` loop. -/
structure Order (κ : Type) where
  visit : List κ → List κ
  perm : ∀ l, (visit l).Perm l

namespace Order

/-- Visit the keys as they are stored. -/
def stored (κ : Type) : Order κ := ⟨id, fun _ => .refl _⟩

/-- As `o`, but the keys with `p` come last. -/
def deferring {κ : Type} (o : Order κ) (p : κ → Bool) : Order κ where
  visit := fun l =>
    (o.visit l).filter (fun k => !p k) ++ (o.visit l).filter p
  perm := fun l => by
    refine List.perm_append_comm.trans ?_
    exact (List.filter_append_perm p (o.visit l)).trans (o.perm l)

end Order

namespace GoMap

variable {κ ν : Type} [DecidableEq κ]

-- ========================================================== operations

/-- Rebuild every value. -/
def mapVals (f : κ → ν → ν) (m : GoMap κ ν) : GoMap κ ν where
  entries := m.entries.map fun e => ⟨e.1, f e.1 e.2⟩
  nodupKeys := by
    have hk : (m.entries.map fun e => (⟨e.1, f e.1 e.2⟩ :
        Sigma fun _ : κ => ν)).keys = m.entries.keys := by
      simp only [List.keys, List.map_map]
      rfl
    rw [List.NodupKeys, hk]
    exact m.nodupKeys

/-- Write through the pointer stored under `k`. -/
def modify (k : κ) (f : ν → ν) (m : GoMap κ ν) : GoMap κ ν :=
  mapVals (fun k' v => if k' = k then f v else v) m

/-- Keep the entries whose key passes `p`. -/
def filterKeys (p : κ → Bool) (m : GoMap κ ν) : GoMap κ ν where
  entries := m.entries.filter fun e => p e.1
  nodupKeys := m.nodupKeys.sublist List.filter_sublist

/-- How many values have the property. -/
def count (p : ν → Bool) (m : GoMap κ ν) : Nat :=
  m.entries.countP fun e => p e.2

/-- `len(m)`. -/
def size (m : GoMap κ ν) : Nat := m.entries.length

/-- The keys in the order a `range` loop visits them. -/
def range (o : Order κ) (m : GoMap κ ν) : List κ := o.visit m.keys

/-- The entries in the order a `range` loop visits them. -/
def rangeEntries (o : Order κ) (m : GoMap κ ν) : List (κ × ν) :=
  (m.range o).filterMap fun k => (m.lookup k).map fun v => (k, v)

-- ============================================================== lookup

theorem lookup_mapVals (f : κ → ν → ν) (m : GoMap κ ν) (k : κ) :
    (mapVals f m).lookup k = (m.lookup k).map (f k) :=
  List.dlookup_map₂ k

omit [DecidableEq κ] in
@[simp] theorem keys_mapVals (f : κ → ν → ν) (m : GoMap κ ν) :
    (mapVals f m).keys = m.keys := by
  simp only [AList.keys, mapVals, List.keys, List.map_map]
  rfl

@[simp] theorem keys_modify (k : κ) (f : ν → ν) (m : GoMap κ ν) :
    (modify k f m).keys = m.keys := keys_mapVals _ m

@[simp] theorem lookup_modify_self (k : κ) (f : ν → ν) (m : GoMap κ ν) :
    (modify k f m).lookup k = (m.lookup k).map f := by
  rw [modify, lookup_mapVals]
  simp

theorem lookup_modify_ne {k k' : κ} (h : k' ≠ k) (f : ν → ν)
    (m : GoMap κ ν) : (modify k f m).lookup k' = m.lookup k' := by
  rw [modify, lookup_mapVals]
  simp [h]

theorem lookup_modify (k k' : κ) (f : ν → ν) (m : GoMap κ ν) :
    (modify k f m).lookup k'
      = if k' = k then (m.lookup k').map f else m.lookup k' := by
  by_cases h : k' = k
  · subst h
    simp
  · rw [lookup_modify_ne h, if_neg h]

/-- An entry after a write is the one written or one that was there. -/
theorem lookup_modify_some {k k' : κ} {f : ν → ν} {m : GoMap κ ν} {v : ν}
    (h : (modify k f m).lookup k' = some v) :
    (k' = k ∧ ∃ v₀, m.lookup k = some v₀ ∧ f v₀ = v)
      ∨ m.lookup k' = some v := by
  rw [lookup_modify] at h
  split at h
  · next hk =>
    subst hk
    exact Or.inl ⟨rfl, Option.map_eq_some_iff.mp h⟩
  · exact Or.inr h

theorem lookup_modify_of_some {k : κ} {f : ν → ν} {m : GoMap κ ν} {v : ν}
    (h : m.lookup k = some v) : (modify k f m).lookup k = some (f v) := by
  rw [lookup_modify_self, h]
  rfl

/-- The same, where it is known which entry was written. -/
theorem lookup_modify_known {k k' : κ} {f : ν → ν} {m : GoMap κ ν}
    {v₀ v : ν} (h₀ : m.lookup k = some v₀)
    (h : (modify k f m).lookup k' = some v) :
    (k' = k ∧ v = f v₀) ∨ (k' ≠ k ∧ m.lookup k' = some v) := by
  by_cases hk : k' = k
  · rw [hk, lookup_modify_of_some h₀] at h
    exact Or.inl ⟨hk, (Option.some.inj h).symm⟩
  · rw [lookup_modify_ne hk] at h
    exact Or.inr ⟨hk, h⟩

/-- One write through each of several different pointers. -/
theorem lookup_foldl_modify (f : ν → ν) (k : κ) {ks : List κ} :
    ∀ m : GoMap κ ν, ks.Nodup →
      (ks.foldl (fun m n => modify n f m) m).lookup k
        = if k ∈ ks then (m.lookup k).map f else m.lookup k := by
  induction ks with
  | nil => intro m _; simp
  | cons n ks ih =>
      intro m hnd
      obtain ⟨hn, hnd'⟩ := List.nodup_cons.mp hnd
      rw [List.foldl_cons, ih _ hnd']
      by_cases hk : k = n
      · subst hk
        simp [hn]
      · rw [lookup_modify_ne hk]
        simp [hk]

/-- The value written may be computed from the value found. -/
theorem modify_congr {k : κ} {f g : ν → ν} {m : GoMap κ ν} {v : ν}
    (hv : m.lookup k = some v) (hfg : f v = g v) :
    modify k f m = modify k g m := by
  apply AList.ext
  refine List.map_congr_left ?_
  intro e hmem
  obtain ⟨k', v'⟩ := e
  by_cases h : k' = k
  · subst h
    have hv' : m.lookup k' = some v' := AList.mem_lookup_iff.mpr hmem
    rw [hv'] at hv
    injection hv with hv
    subst hv
    simp [hfg]
  · simp [h]

/-- A write that changes no value. -/
theorem modify_id (k : κ) (m : GoMap κ ν) : modify k id m = m := by
  apply AList.ext
  refine (List.map_congr_left ?_).trans (List.map_id _)
  intro e _
  simp only [id_eq, ite_self]

/-- A write through a pointer that changes nothing. -/
theorem modify_eq_self {k : κ} {f : ν → ν} {m : GoMap κ ν} {v : ν}
    (hv : m.lookup k = some v) (hf : f v = v) : modify k f m = m :=
  (modify_congr hv hf).trans (modify_id k m)

/-- No entry, no write. -/
theorem modify_of_absent {k : κ} {f : ν → ν} {m : GoMap κ ν}
    (hv : m.lookup k = none) : modify k f m = m := by
  apply AList.ext
  refine (List.map_congr_left ?_).trans (List.map_id _)
  intro e hmem
  obtain ⟨k', v'⟩ := e
  have hv' : m.lookup k' = some v' := AList.mem_lookup_iff.mpr hmem
  have hne : k' ≠ k := by
    intro h
    rw [h, hv] at hv'
    cases hv'
  simp [hne]

/-- Two writes through one pointer. -/
theorem modify_modify (k : κ) (f g : ν → ν) (m : GoMap κ ν) :
    modify k f (modify k g m) = modify k (fun v => f (g v)) m := by
  apply AList.ext
  refine List.map_map.trans (List.map_congr_left ?_)
  intro e _
  by_cases h : e.1 = k
  · simp [h]
  · simp [h]

theorem lookup_filterKeys (p : κ → Bool) (m : GoMap κ ν) (k : κ) :
    (filterKeys p m).lookup k = if p k then m.lookup k else none := by
  cases hl : (filterKeys p m).lookup k with
  | some v =>
      have hmem := AList.mem_lookup_iff.mp (Option.mem_def.mpr hl)
      obtain ⟨hin, hp⟩ := List.mem_filter.mp hmem
      have hv : m.lookup k = some v := AList.mem_lookup_iff.mpr hin
      simp only at hp
      rw [if_pos hp, hv]
  | none =>
      by_cases hp : p k = true
      · rw [if_pos hp]
        cases hv : m.lookup k with
        | none => rfl
        | some v =>
            have hin := AList.mem_lookup_iff.mp (Option.mem_def.mpr hv)
            have hmem : (⟨k, v⟩ : Sigma fun _ : κ => ν)
                ∈ (filterKeys p m).entries :=
              List.mem_filter.mpr ⟨hin, hp⟩
            have hsome : (filterKeys p m).lookup k = some v :=
              AList.mem_lookup_iff.mpr hmem
            rw [hl] at hsome
            cases hsome
      · rw [if_neg hp]

theorem lookup_filterKeys_eq_some {p : κ → Bool} {m : GoMap κ ν} {k : κ}
    {v : ν} : (filterKeys p m).lookup k = some v
      ↔ p k = true ∧ m.lookup k = some v := by
  rw [lookup_filterKeys]
  by_cases hp : p k = true
  · simp [hp]
  · simp [hp]

/-- What holds of every entry can be checked entry by entry. -/
theorem forall_lookup_iff {m : GoMap κ ν} {p : κ → ν → Prop} :
    (∀ k v, m.lookup k = some v → p k v) ↔ ∀ e ∈ m.entries, p e.1 e.2 := by
  constructor
  · intro h e he
    exact h e.1 e.2 (AList.mem_lookup_iff.mpr he)
  · intro h k v hv
    exact h ⟨k, v⟩ (AList.mem_lookup_iff.mp (Option.mem_def.mpr hv))

theorem mem_keys_iff {m : GoMap κ ν} {k : κ} :
    k ∈ m.keys ↔ ∃ v, m.lookup k = some v := by
  rw [← AList.mem_keys, ← AList.lookup_isSome, Option.isSome_iff_exists]

-- =============================================================== range

omit [DecidableEq κ] in
theorem nodup_range (o : Order κ) (m : GoMap κ ν) : (m.range o).Nodup :=
  (o.perm m.keys).nodup_iff.mpr m.keys_nodup

@[simp] theorem mem_range {o : Order κ} {m : GoMap κ ν} {k : κ} :
    k ∈ m.range o ↔ ∃ v, m.lookup k = some v := by
  rw [range, (o.perm m.keys).mem_iff, mem_keys_iff]

theorem mem_rangeEntries {o : Order κ} {m : GoMap κ ν} {k : κ} {v : ν} :
    (k, v) ∈ m.rangeEntries o ↔ m.lookup k = some v := by
  rw [rangeEntries, List.mem_filterMap]
  constructor
  · intro hex
    obtain ⟨k', -, hk'⟩ := hex
    obtain ⟨v', hv', heq⟩ := Option.map_eq_some_iff.mp hk'
    injection heq with hk hv
    subst hk hv
    exact hv'
  · intro hv
    exact ⟨k, mem_range.mpr ⟨v, hv⟩, by rw [hv]; rfl⟩

/-- Every key of a map is visited exactly once. -/
theorem map_fst_rangeEntries (o : Order κ) (m : GoMap κ ν) :
    (m.rangeEntries o).map Prod.fst = m.range o := by
  have hall : ∀ l : List κ, (∀ k ∈ l, ∃ v, m.lookup k = some v) →
      (l.filterMap fun k => (m.lookup k).map fun v => (k, v)).map Prod.fst
        = l := by
    intro l
    induction l with
    | nil => intro _; rfl
    | cons k l ih =>
        intro hl
        obtain ⟨v, hv⟩ := hl k List.mem_cons_self
        rw [List.filterMap_cons, hv]
        simp only [Option.map_some, List.map_cons]
        rw [ih fun k' hk' => hl k' (List.mem_cons_of_mem _ hk')]
  exact hall _ fun k hk => mem_range.mp hk

/-- The entries of the deferred keys come last. -/
theorem rangeEntries_deferring (o : Order κ) (p : κ → Bool)
    (m : GoMap κ ν) :
    m.rangeEntries (o.deferring p)
      = (m.rangeEntries o).filter (fun e => !p e.1)
        ++ (m.rangeEntries o).filter (fun e => p e.1) := by
  have hfilter : ∀ (q : κ → Bool) (l : List κ),
      (l.filter q).filterMap (fun k => (m.lookup k).map fun v => (k, v))
        = (l.filterMap fun k => (m.lookup k).map fun v => (k, v)).filter
            fun e => q e.1 := by
    intro q l
    rw [List.filterMap_filter, List.filter_filterMap]
    refine List.filterMap_congr fun k _ => ?_
    cases m.lookup k with
    | none => cases q k <;> rfl
    | some v => cases hq : q k <;> simp [Option.filter, hq]
  show ((o.visit m.keys).filter _ ++ (o.visit m.keys).filter _).filterMap _
    = _
  rw [List.filterMap_append, hfilter, hfilter]
  rfl

/-- Two maps with the same keys and, as far as `p` goes, the same values
are visited alike. -/
theorem filter_rangeEntries_congr {p : ν → Bool} {m₁ m₂ : GoMap κ ν}
    (hkeys : m₁.keys = m₂.keys)
    (hvals : ∀ k, (m₁.lookup k).filter p = (m₂.lookup k).filter p)
    (o : Order κ) :
    (m₁.rangeEntries o).filter (fun e => p e.2)
      = (m₂.rangeEntries o).filter fun e => p e.2 := by
  have hpair : ∀ (m : GoMap κ ν) (k : κ),
      ((m.lookup k).map fun v => (k, v)).filter (fun e => p e.2)
        = ((m.lookup k).filter p).map fun v => (k, v) := by
    intro m k
    cases m.lookup k with
    | none => rfl
    | some v => cases hp : p v <;> simp [Option.filter, hp]
  unfold rangeEntries range
  rw [List.filter_filterMap, List.filter_filterMap, hkeys]
  refine List.filterMap_congr fun k _ => ?_
  rw [hpair, hpair, hvals]

/-- Any two orders visit the same entries. -/
theorem perm_rangeEntries (o o' : Order κ) (m : GoMap κ ν) :
    (m.rangeEntries o).Perm (m.rangeEntries o') := by
  have hkeys : (m.range o).Perm (m.range o') :=
    (o.perm m.keys).trans (o'.perm m.keys).symm
  exact hkeys.filterMap _

-- =========================================================== selecting

/-- The entries a `range` loop meets that skips the values without `p`. -/
def select (p : ν → Bool) (o : Order κ) (m : GoMap κ ν) : List (κ × ν) :=
  (m.rangeEntries o).filter fun e => p e.2

theorem mem_select {p : ν → Bool} {o : Order κ} {m : GoMap κ ν}
    {e : κ × ν} :
    e ∈ select p o m ↔ m.lookup e.1 = some e.2 ∧ p e.2 = true := by
  unfold select
  rw [List.mem_filter]
  refine and_congr_left fun _ => ?_
  obtain ⟨k, v⟩ := e
  exact mem_rangeEntries

theorem nodup_select (p : ν → Bool) (o : Order κ) (m : GoMap κ ν) :
    ((select p o m).map Prod.fst).Nodup := by
  have hsub : ((select p o m).map Prod.fst).Sublist
      ((m.rangeEntries o).map Prod.fst) :=
    List.filter_sublist.map Prod.fst
  rw [map_fst_rangeEntries] at hsub
  exact (nodup_range o m).sublist hsub

theorem select_deferring (p : ν → Bool) (o : Order κ) (q : κ → Bool)
    (m : GoMap κ ν) :
    select p (o.deferring q) m
      = (select p o m).filter (fun e => !q e.1)
        ++ (select p o m).filter (fun e => q e.1) := by
  unfold select
  rw [rangeEntries_deferring, List.filter_append, List.filter_filter,
    List.filter_filter, List.filter_filter, List.filter_filter]
  simp only [Bool.and_comm]

/-- A key is visited once. -/
theorem filter_fst_eq {l : List (κ × ν)} {k : κ} {v : ν}
    (hnd : (l.map Prod.fst).Nodup) (h : (k, v) ∈ l) :
    l.filter (fun e => e.1 == k) = [(k, v)] := by
  induction l with
  | nil => cases h
  | cons a l ih =>
      rw [List.map_cons, List.nodup_cons] at hnd
      by_cases ha : a.1 = k
      · have hno : ∀ e ∈ l, ¬ (e.1 == k) = true := by
          intro e he hek
          apply hnd.1
          rw [ha, ← beq_iff_eq.mp hek]
          exact List.mem_map_of_mem he
        rw [List.filter_cons_of_pos (by simpa using ha),
          List.filter_eq_nil_iff.mpr hno]
        rcases List.mem_cons.mp h with rfl | hmem
        · rfl
        · exact absurd (by simp) (hno _ hmem)
      · rw [List.filter_cons_of_neg (by simpa using ha)]
        rcases List.mem_cons.mp h with rfl | hmem
        · exact absurd rfl ha
        · exact ih hnd.2 hmem

-- ============================================================= copying

/-- Store every entry of a map in another one, in the order `o`. -/
def copyInto (o : Order κ) (m into : GoMap κ ν) : GoMap κ ν :=
  (m.rangeEntries o).foldl (fun into e => into.insert e.1 e.2) into

theorem lookup_foldl_insert_of_not_mem {l : List (κ × ν)} {k : κ}
    (hk : k ∉ l.map Prod.fst) (m : GoMap κ ν) :
    (l.foldl (fun m e => m.insert e.1 e.2) m).lookup k = m.lookup k := by
  induction l generalizing m with
  | nil => rfl
  | cons e l ih =>
      rw [List.map_cons, List.mem_cons, not_or] at hk
      rw [List.foldl_cons, ih hk.2, AList.lookup_insert_ne hk.1]

theorem lookup_foldl_insert_of_mem {l : List (κ × ν)} {k : κ} {v : ν}
    (hl : (l.map Prod.fst).Nodup) (hk : (k, v) ∈ l) (m : GoMap κ ν) :
    (l.foldl (fun m e => m.insert e.1 e.2) m).lookup k = some v := by
  induction l generalizing m with
  | nil => cases hk
  | cons e l ih =>
      rw [List.map_cons, List.nodup_cons] at hl
      rw [List.foldl_cons]
      rcases List.mem_cons.mp hk with rfl | hk
      · rw [lookup_foldl_insert_of_not_mem hl.1]
        exact AList.lookup_insert m
      · exact ih hl.2 hk _

/-- In whatever order they are copied, the entries of the first map are there
and hide those of the second. -/
theorem lookup_copyInto (o : Order κ) (m into : GoMap κ ν) (k : κ) :
    (copyInto o m into).lookup k = (m.lookup k).or (into.lookup k) := by
  unfold copyInto
  have hfst := map_fst_rangeEntries o m
  cases hk : m.lookup k with
  | none =>
      rw [Option.none_or]
      refine lookup_foldl_insert_of_not_mem ?_ into
      rw [hfst, mem_range, hk]
      simp
  | some v =>
      rw [Option.some_or]
      refine lookup_foldl_insert_of_mem ?_ (mem_rangeEntries.mpr hk) into
      rw [hfst]
      exact nodup_range o m

-- ========================================================== collecting

variable {β : Type}

/-- What a `range` loop collects that appends `f v` for the values with
`p`. -/
def collect (p : ν → Bool) (f : ν → β) (o : Order κ) (m : GoMap κ ν) :
    List β :=
  ((m.rangeEntries o).filter fun e => p e.2).map fun e => f e.2

theorem mem_collect {p : ν → Bool} {f : ν → β} {o : Order κ}
    {m : GoMap κ ν} {b : β} :
    b ∈ collect p f o m ↔ ∃ k v, m.lookup k = some v ∧ p v = true
      ∧ f v = b := by
  unfold collect
  simp only [List.mem_map, List.mem_filter, Prod.exists, mem_rangeEntries]
  constructor
  · intro h
    obtain ⟨k, v, ⟨hv, hp⟩, hb⟩ := h
    exact ⟨k, v, hv, hp, hb⟩
  · intro h
    obtain ⟨k, v, hv, hp, hb⟩ := h
    exact ⟨k, v, ⟨hv, hp⟩, hb⟩

theorem collect_perm (p : ν → Bool) (f : ν → β) (o o' : Order κ)
    (m : GoMap κ ν) : (collect p f o m).Perm (collect p f o' m) :=
  ((perm_rangeEntries o o' m).filter _).map _

/-- When each value knows its key, the keys are collected: those of `ks`
with `q`, if they include all whose values have `p`. -/
theorem collect_perm_filter {p : ν → Bool} {f : ν → κ} (o : Order κ)
    {m : GoMap κ ν} {ks : List κ} {q : κ → Bool} (hnd : ks.Nodup)
    (hkey : ∀ k v, m.lookup k = some v → f v = k)
    (hmem : ∀ k v, m.lookup k = some v → p v = true → k ∈ ks)
    (hq : ∀ k ∈ ks, (m.lookup k).any p = q k) :
    (collect p f o m).Perm (ks.filter q) := by
  have hkeys : collect p f o m = (select p o m).map Prod.fst := by
    refine List.map_congr_left fun e he => ?_
    exact hkey _ _ (mem_select.mp he).1
  have hnodup : (collect p f o m).Nodup := by
    rw [hkeys]
    exact nodup_select p o m
  refine (List.perm_ext_iff_of_nodup hnodup (hnd.filter q)).mpr fun k => ?_
  rw [mem_collect, List.mem_filter]
  constructor
  · rintro ⟨k', v, hv, hp, hf⟩
    obtain rfl : k' = k := (hkey k' v hv).symm.trans hf
    have hin := hmem k' v hv hp
    rw [← hq k' hin, hv]
    exact ⟨hin, hp⟩
  · rintro ⟨hin, hk⟩
    rw [← hq k hin] at hk
    obtain ⟨v, hv, hp⟩ := (Option.any_eq_true _ _).mp hk
    exact ⟨k, v, hv, hp, hkey k v hv⟩

/-- A deferred entry is the last one collected. -/
theorem getLast?_collect_deferring {p : ν → Bool} {f : ν → β} (o : Order κ)
    {m : GoMap κ ν} {k : κ} {v : ν} (hv : m.lookup k = some v)
    (hp : p v = true) :
    (collect p f (o.deferring fun k' => decide (k' = k)) m).getLast?
      = some (f v) := by
  unfold collect
  rw [rangeEntries_deferring, List.filter_append, List.map_append]
  -- the second half has the deferred entry and no other
  have hlast : ∀ b ∈ ((((m.rangeEntries o).filter fun e =>
      decide (e.1 = k)).filter fun e => p e.2).map fun e => f e.2),
      b = f v := by
    intro b hb
    simp only [List.mem_map, List.mem_filter, decide_eq_true_eq,
      Prod.exists, mem_rangeEntries] at hb
    obtain ⟨k', v', ⟨⟨hv', hk⟩, -⟩, hb⟩ := hb
    subst hk
    rw [hv] at hv'
    rw [← hb, Option.some.inj hv']
  have hmem : f v ∈ ((((m.rangeEntries o).filter fun e =>
      decide (e.1 = k)).filter fun e => p e.2).map fun e => f e.2) := by
    simp only [List.mem_map, List.mem_filter, decide_eq_true_eq,
      Prod.exists, mem_rangeEntries]
    exact ⟨k, v, ⟨⟨hv, rfl⟩, hp⟩, rfl⟩
  have hne := List.ne_nil_of_mem hmem
  rw [List.getLast?_append_of_ne_nil _ hne, List.getLast?_eq_some_getLast hne]
  exact congrArg some (hlast _ (List.getLast_mem hne))

/-- The collected list is the same in every order exactly if all of its
elements are the same. -/
theorem collect_stable_iff {p : ν → Bool} {f : ν → β} {m : GoMap κ ν} :
    (∀ o o', collect p f o m = collect p f o' m)
      ↔ ∀ k v k' v', m.lookup k = some v → m.lookup k' = some v' →
          p v = true → p v' = true → f v = f v' := by
  constructor
  · intro h k v k' v' hv hv' hp hp'
    have hk := getLast?_collect_deferring (f := f) (.stored κ) hv hp
    have hk' := getLast?_collect_deferring (f := f) (.stored κ) hv' hp'
    rw [h _ ((Order.stored κ).deferring fun k => decide (k = k')), hk'] at hk
    exact (Option.some.inj hk).symm
  · intro h o o'
    have hperm := collect_perm p f o o' m
    cases hl : collect p f o m with
    | nil =>
        rw [hl] at hperm
        exact hperm.nil_eq
    | cons b l =>
        have hsame : ∀ o'' : Order κ, ∀ b' ∈ collect p f o'' m, b' = b := by
          intro o'' b' hb'
          have hb : b ∈ collect p f o m := by
            rw [hl]
            exact List.mem_cons_self
          obtain ⟨k, v, hv, hp, hfv⟩ := mem_collect.mp hb
          obtain ⟨k', v', hv', hp', hfv'⟩ := mem_collect.mp hb'
          rw [← hfv, ← hfv']
          exact h k' v' k v hv' hv hp' hp
        rw [← hl, List.eq_replicate_of_mem (hsame o),
          List.eq_replicate_of_mem (hsame o'), hperm.length_eq]

-- ============================================================ counting

omit [DecidableEq κ] in
theorem size_eq_keys (m : GoMap κ ν) : m.size = m.keys.length :=
  (List.length_map _).symm

theorem size_insert {k : κ} {m : GoMap κ ν} (h : m.lookup k = none) (v : ν) :
    size (m.insert k v) = m.size + 1 := by
  have hnot : k ∉ m.keys := fun hmem => AList.lookup_eq_none.mp h hmem
  rw [size_eq_keys, AList.keys_insert, List.length_cons,
    List.erase_of_not_mem hnot, size_eq_keys]

/-- Removing an entry that is not there removes nothing. -/
theorem size_erase (k : κ) (m : GoMap κ ν) :
    size (m.erase k) + (m.lookup k).isSome.toNat = m.size := by
  rw [size_eq_keys, size_eq_keys, AList.keys_erase]
  cases hk : m.lookup k with
  | none =>
      have hnot : k ∉ m.keys := fun hmem => AList.lookup_eq_none.mp hk hmem
      rw [List.erase_of_not_mem hnot]
      rfl
  | some v =>
      have hmem : k ∈ m.keys := mem_keys_iff.mpr ⟨v, hk⟩
      have hpos := List.length_pos_of_mem hmem
      rw [List.length_erase_of_mem hmem]
      exact Nat.sub_add_cancel hpos

omit [DecidableEq κ] in
theorem count_le_size (p : ν → Bool) (m : GoMap κ ν) :
    m.count p ≤ m.size := List.countP_le_length

theorem count_pos_iff {p : ν → Bool} {m : GoMap κ ν} :
    0 < m.count p ↔ ∃ k v, m.lookup k = some v ∧ p v = true := by
  rw [count, List.countP_pos_iff]
  constructor
  · intro hex
    obtain ⟨⟨k, v⟩, hmem, hp⟩ := hex
    exact ⟨k, v, AList.mem_lookup_iff.mpr hmem, hp⟩
  · intro hex
    obtain ⟨k, v, hv, hp⟩ := hex
    exact ⟨⟨k, v⟩, AList.mem_lookup_iff.mp (Option.mem_def.mpr hv), hp⟩

theorem count_eq_zero_iff {p : ν → Bool} {m : GoMap κ ν} :
    m.count p = 0 ↔ ∀ k v, m.lookup k = some v → p v = false := by
  rw [← Nat.le_zero, ← Nat.not_lt, count_pos_iff]
  simp only [not_exists, not_and, Bool.not_eq_true]

theorem count_mono {p q : ν → Bool} {m : GoMap κ ν}
    (h : ∀ k v, m.lookup k = some v → p v = true → q v = true) :
    m.count p ≤ m.count q := by
  refine List.countP_mono_left ?_
  intro e he hp
  exact h e.1 e.2 (AList.mem_lookup_iff.mpr he) hp

theorem count_congr {p q : ν → Bool} {m : GoMap κ ν}
    (h : ∀ k v, m.lookup k = some v → p v = q v) :
    m.count p = m.count q := by
  refine List.countP_congr ?_
  intro e he
  rw [h e.1 e.2 (AList.mem_lookup_iff.mpr he)]

/-- If the stronger property is no rarer, it holds wherever the weaker
one does. -/
theorem of_count_le {p q : ν → Bool} {m : GoMap κ ν}
    (hqp : ∀ v, q v = true → p v = true) (hle : m.count p ≤ m.count q)
    {k : κ} {v : ν} (hv : m.lookup k = some v) (hp : p v = true) :
    q v = true := by
  have hsplit : m.count p
      = m.count q + m.count (fun v => p v && !q v) := by
    unfold count
    induction m.entries with
    | nil => rfl
    | cons e l ih =>
        rw [List.countP_cons, List.countP_cons, List.countP_cons, ih]
        have hone := hqp e.2
        cases hpe : p e.2 <;> cases hqe : q e.2 <;> simp_all <;> omega
  have hzero : m.count (fun v => p v && !q v) = 0 := by omega
  have hno := count_eq_zero_iff.mp hzero k v hv
  rw [hp, Bool.true_and, Bool.not_eq_false'] at hno
  exact hno

/-- A write that does not touch the property does not change its
count. -/
theorem count_modify_eq {p : ν → Bool} {f : ν → ν} (k : κ)
    (hf : ∀ v, p (f v) = p v) (m : GoMap κ ν) :
    (modify k f m).count p = m.count p := by
  unfold count modify mapVals
  rw [List.countP_map]
  refine List.countP_congr ?_
  intro e _
  by_cases h : e.1 = k
  · simp [h, hf]
  · simp [h]

/-- The count after one write: the entry under `k` leaves with its old
value and comes back with its new one. -/
theorem count_modify {p : ν → Bool} {m : GoMap κ ν} {k : κ} {v : ν}
    (f : ν → ν) (hv : m.lookup k = some v) :
    (modify k f m).count p + (p v).toNat = m.count p + (p (f v)).toNat := by
  have hlist : ∀ l : List (Sigma fun _ : κ => ν), l.NodupKeys →
      l.dlookup k = some v →
      (l.map fun e => (⟨e.1, if e.1 = k then f e.2 else e.2⟩ :
        Sigma fun _ : κ => ν)).countP (fun e => p e.2) + (p v).toNat
        = l.countP (fun e => p e.2) + (p (f v)).toNat := by
    intro l
    induction l with
    | nil => intro _ h; cases h
    | cons e l ih =>
        obtain ⟨k', v'⟩ := e
        intro hnd hl
        obtain ⟨hnotin, hnd'⟩ := List.nodupKeys_cons.mp hnd
        rw [List.map_cons, List.countP_cons, List.countP_cons]
        by_cases hk : k' = k
        · subst hk
          rw [List.dlookup_cons_eq] at hl
          injection hl with hl
          subst hl
          -- the key occurs once, so the write leaves the tail alone
          have htail : (l.map fun e =>
              (⟨e.1, if e.1 = k' then f e.2 else e.2⟩ :
                Sigma fun _ : κ => ν)) = l := by
            refine (List.map_congr_left ?_).trans (List.map_id _)
            rintro ⟨k₁, v₁⟩ hmem
            have hne : k₁ ≠ k' := by
              rintro rfl
              exact hnotin (List.mem_keys.mpr ⟨v₁, hmem⟩)
            simp [hne]
          rw [htail]
          simp only [if_true]
          cases p v' <;> cases p (f v') <;> simp
        · rw [List.dlookup_cons_ne _ _ (Ne.symm hk)] at hl
          have := ih hnd' hl
          simp only [if_neg hk]
          omega
  exact hlist m.entries m.nodupKeys hv

/-- Counting over a `range` loop is counting entries. -/
theorem countP_range (p : ν → Bool) (o : Order κ) (m : GoMap κ ν) :
    (m.range o).countP (fun k => (m.lookup k).any p) = m.count p := by
  rw [range, (o.perm m.keys).countP_eq, count, AList.keys, List.keys,
    List.countP_map]
  refine List.countP_congr ?_
  intro e he
  have hlook : m.lookup e.1 = some e.2 := AList.mem_lookup_iff.mpr he
  simp [hlook]

/-- Different keys whose values are counted are not more than are
counted. -/
theorem countP_le_count {p : ν → Bool} {q : κ → Bool} {m : GoMap κ ν}
    {ks : List κ} (hnd : ks.Nodup)
    (h : ∀ k ∈ ks, q k = true → ∃ v, m.lookup k = some v ∧ p v = true) :
    ks.countP q ≤ m.count p := by
  rw [← countP_range p (Order.stored κ) m, List.countP_eq_length_filter,
    List.countP_eq_length_filter]
  refine (List.subperm_of_subset (hnd.filter q) fun k hk => ?_).length_le
  obtain ⟨hmem, hq⟩ := List.mem_filter.mp hk
  obtain ⟨v, hv, hp⟩ := h k hmem hq
  refine List.mem_filter.mpr ⟨mem_range.mpr ⟨v, hv⟩, ?_⟩
  rw [hv]
  exact hp

/-- Keys that include all whose values are counted. -/
theorem count_eq_countP {p : ν → Bool} {m : GoMap κ ν} {ks : List κ}
    (hnd : ks.Nodup)
    (h : ∀ k v, m.lookup k = some v → p v = true → k ∈ ks) :
    m.count p = ks.countP fun k => (m.lookup k).any p := by
  refine Nat.le_antisymm ?_ (countP_le_count hnd fun k _ hk => ?_)
  · rw [← countP_range p (Order.stored κ) m, List.countP_eq_length_filter,
      List.countP_eq_length_filter]
    refine (List.subperm_of_subset ((nodup_range _ m).filter _)
      fun k hk => ?_).length_le
    obtain ⟨-, hp⟩ := List.mem_filter.mp hk
    obtain ⟨v, hv, hpv⟩ := (Option.any_eq_true _ _).mp hp
    exact List.mem_filter.mpr ⟨h k v hv hpv, hp⟩
  · exact (Option.any_eq_true _ _).mp hk

/-- As many values are collected as there are. -/
theorem length_collect {β : Type} (p : ν → Bool) (f : ν → β) (o : Order κ)
    (m : GoMap κ ν) : (collect p f o m).length = m.count p := by
  have hcount : ((m.rangeEntries o).filter fun e => p e.2).length
      = (m.range o).countP fun k => (m.lookup k).any p := by
    rw [← List.countP_eq_length_filter, ← map_fst_rangeEntries,
      List.countP_map]
    refine List.countP_congr ?_
    rintro ⟨k, v⟩ he
    simp [mem_rangeEntries.mp he]
  rw [← countP_range p o m, ← hcount]
  exact List.length_map _

/-- Values that tell their keys apart are collected once. -/
theorem nodup_collect {β : Type} {p : ν → Bool} {f : ν → β} {m : GoMap κ ν}
    (hinj : ∀ k v k' v', m.lookup k = some v → m.lookup k' = some v' →
      f v = f v' → k = k') (o : Order κ) : (collect p f o m).Nodup := by
  have hkeys := nodup_select p o m
  unfold collect
  refine List.Nodup.map_on ?_ (List.Nodup.of_map _ hkeys)
  rintro ⟨k, v⟩ he ⟨k', v'⟩ he' heq
  obtain ⟨hv, -⟩ := mem_select.mp he
  obtain ⟨hv', -⟩ := mem_select.mp he'
  obtain rfl := hinj k v k' v' hv hv' heq
  exact congrArg (Prod.mk k) (Option.some.inj (hv.symm.trans hv'))

end GoMap
