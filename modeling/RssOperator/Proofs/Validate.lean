/-
What `Validate` accepts and what `Cleanup` changes.

`ReplicatedStatefulSet.Valid` says what a well-formed resource is, in
terms of its parts. `Validate` accepts exactly those, whatever the order
of the labels (`validate_ok_iff`). `Cleanup` changes nothing that it looks
at, and nothing the second time.

It is not total. A policy with an operator secret and no member secrets at
all (`TLSPolicy.Memberless`) is read through a nil pointer before anything
else is looked at, and on every other resource `Validate` returns
(`validate_exact_iff`).
-/
import RssOperator.Validate

namespace RssOperator

-- ============================================================== Cleanup

theorem defaultMemory_defaultMemory (requests : GoMap String String) :
    defaultMemory (defaultMemory requests) = defaultMemory requests := by
  have hset : ∃ quantity,
      (defaultMemory requests).lookup "memory" = some quantity := by
    unfold defaultMemory
    split
    · next quantity hm => exact ⟨quantity, hm⟩
    · exact ⟨"2M", AList.lookup_insert requests⟩
  obtain ⟨quantity, hm⟩ := hset
  generalize defaultMemory requests = cleaned at hm ⊢
  unfold defaultMemory
  rw [hm]

theorem ClusterSpec.cleanup_cleanup (c : ClusterSpec) :
    c.cleanup.cleanup = c.cleanup := by
  unfold cleanup
  dsimp only [Option.getD_some]
  rw [defaultMemory_defaultMemory]

theorem ReplicatedStatefulSet.validate_cleaned (o : Order String)
    (rss : ReplicatedStatefulSet) :
    rss.cleaned.validate o = rss.validate o :=
  rfl

-- ========================================================== well formed

/-- The secrets of a TLS policy fit together: the operator has one exactly
if the members have one for it. -/
def TLSPolicy.Valid (tp : TLSPolicy) : Prop :=
  ∀ st, tp.static = some st →
    (st.operatorSecret ≠ ""
      ↔ ∃ m, st.member = some m ∧ m.serverSecret ≠ "")

/-- A label the operator keeps for itself. -/
def reserved (key : String) : Prop :=
  key = "app" ∨ "rss".toList <+: key.toList

/-- A resource that is well formed. -/
structure ReplicatedStatefulSet.Valid (rss : ReplicatedStatefulSet) :
    Prop where
  tls : ∀ tp, rss.spec.tls = some tp → tp.Valid
  commands : ∀ key ∈ requiredCommands, (rss.spec.commands key).isSome
  labels : ∀ key value, rss.labels.lookup key = some value → ¬ reserved key
  containers : rss.spec.containers ≠ []
  images : ∀ c ∈ rss.spec.containers, c.image ≠ ""

theorem TLSPolicy.validate_ok_iff (tp : TLSPolicy) :
    tp.validate = .ok none ↔ tp.Valid := by
  unfold validate Valid
  cases tp.static with
  | none => simp
  | some st =>
      obtain ⟨member, operatorSecret⟩ := st
      cases member with
      | none =>
          by_cases h : operatorSecret = ""
          · simp [h]
          · simp [h]
      | some m =>
          by_cases h : operatorSecret = ""
          · simp [h]
          · simp [h]

/-- An operator secret, and no member secrets to read the other from. -/
def TLSPolicy.Memberless (tp : TLSPolicy) : Prop :=
  ∃ st, tp.static = some st ∧ st.operatorSecret ≠ "" ∧ st.member = none

theorem TLSPolicy.validate_ne_error_iff (tp : TLSPolicy) :
    (∃ err, tp.validate = .ok err) ↔ ¬ tp.Memberless := by
  unfold validate Memberless
  cases tp.static with
  | none => simp
  | some st =>
      obtain ⟨member, operatorSecret⟩ := st
      cases member with
      | none =>
          by_cases h : operatorSecret = ""
          · simp [h]
          · simp [h]
      | some m =>
          by_cases h : operatorSecret = ""
          · simp [h]
          · simp [h]

theorem reservedErr_eq_none_iff {key value : String} :
    reservedErr key value = none ↔ ¬ reserved key := by
  unfold reservedErr reserved
  rw [← List.isPrefixOf_iff_prefix]
  by_cases happ : key = "app"
  · rw [if_pos happ]
    simp [happ]
  · rw [if_neg happ]
    by_cases hrss : "rss".toList.isPrefixOf key.toList = true
    · rw [if_pos hrss]
      exact iff_of_false (by simp) (fun h => h (Or.inr hrss))
    · rw [if_neg hrss]
      exact iff_of_true rfl (fun h => h.elim happ hrss)

namespace ReplicatedStatefulSet

variable {rss : ReplicatedStatefulSet} {o : Order String}

theorem commandErr_eq_none_iff : rss.commandErr = none
    ↔ ∀ key ∈ requiredCommands, (rss.spec.commands key).isSome := by
  unfold commandErr
  cases hhas : rss.spec.hasCommands with
  | false =>
      have hnone := rss.spec.nil_commands hhas
      refine iff_of_false (by simp) ?_
      intro h
      have hsequence := h .sequence List.mem_cons_self
      rw [hnone] at hsequence
      cases hsequence
  | true => simp [Option.isSome_iff_ne_none]

theorem labelErr_eq_none_iff : rss.labelErr o = none
    ↔ ∀ key value, rss.labels.lookup key = some value →
      ¬ reserved key := by
  unfold labelErr
  rw [List.findSome?_eq_none_iff]
  constructor
  · intro h key value hlookup
    exact reservedErr_eq_none_iff.mp
      (h (key, value) (GoMap.mem_rangeEntries.mpr hlookup))
  · intro h e he
    exact reservedErr_eq_none_iff.mpr
      (h e.1 e.2 (GoMap.mem_rangeEntries.mp he))

theorem containerErr_eq_none_iff : rss.containerErr = none
    ↔ rss.spec.containers ≠ []
      ∧ ∀ c ∈ rss.spec.containers, c.image ≠ "" := by
  unfold containerErr
  generalize rss.spec.containers = cs
  by_cases hcs : cs = []
  · simp [hcs]
  · have hlength : ¬ cs.length < 1 := by
      rw [Nat.lt_one_iff, List.length_eq_zero_iff]
      exact hcs
    rw [if_neg hlength, Option.map_eq_none_iff, List.find?_eq_none]
    constructor
    · intro h
      refine ⟨hcs, ?_⟩
      intro c hc
      obtain ⟨i, hi, hget⟩ := List.mem_iff_getElem.mp hc
      have himage := h (c, i)
        (List.mk_mem_zipIdx_iff_getElem?.mpr (by simp [hi, hget]))
      simpa using himage
    · intro h e he
      have hmem := List.fst_mem_of_mem_zipIdx he
      simpa using h.2 e.1 hmem

/-- `Validate` accepts the resources that are well formed, whatever the
order of the labels. -/
theorem validate_ok_iff : rss.validate o = .ok none ↔ rss.Valid := by
  have hrest : rss.commandErr.or ((rss.labelErr o).or rss.containerErr)
        = none
      ↔ (∀ key ∈ requiredCommands, (rss.spec.commands key).isSome)
        ∧ (∀ key value, rss.labels.lookup key = some value →
          ¬ reserved key)
        ∧ rss.spec.containers ≠ []
        ∧ ∀ c ∈ rss.spec.containers, c.image ≠ "" := by
    rw [Option.or_eq_none_iff, Option.or_eq_none_iff,
      commandErr_eq_none_iff, labelErr_eq_none_iff,
      containerErr_eq_none_iff]
  have htls : rss.validate o = .ok none
      ↔ (∀ tp, rss.spec.tls = some tp → tp.Valid)
        ∧ rss.commandErr.or ((rss.labelErr o).or rss.containerErr)
          = none := by
    unfold validate
    cases rss.spec.tls with
    | none => simp
    | some tp =>
        dsimp only
        rw [show (∀ tp', some tp = some tp' → tp'.Valid) ↔ tp.Valid by
          simp, ← TLSPolicy.validate_ok_iff]
        cases tp.validate with
        | error fault => simp [Except.map]
        | ok err => simp [Except.map, Option.or_eq_none_iff]
  rw [htls, hrest]
  constructor
  · intro h
    exact ⟨h.1, h.2.1, h.2.2.1, h.2.2.2.1, h.2.2.2.2⟩
  · intro h
    exact ⟨h.tls, h.commands, h.labels, h.containers, h.images⟩

/-- `Validate` returns unless the policy makes it read through nil. -/
theorem validate_returns_iff : (∃ err, rss.validate o = .ok err)
    ↔ ∀ tp, rss.spec.tls = some tp → ¬ tp.Memberless := by
  unfold validate
  cases rss.spec.tls with
  | none => simp
  | some tp =>
      dsimp only
      rw [show (∀ tp', some tp = some tp' → ¬ tp'.Memberless)
          ↔ ¬ tp.Memberless by simp, ← TLSPolicy.validate_ne_error_iff]
      cases tp.validate with
      | error fault => simp [Except.map]
      | ok err => simp [Except.map]

/-- Validation is total and exact on the resources whose TLS policy has
member secrets whenever it has an operator secret, and on no other. -/
theorem validate_exact_iff (o : Order String)
    (rss : ReplicatedStatefulSet) :
    (∃ err, rss.validate o = .ok err ∧ (err = none ↔ rss.Valid))
      ↔ ∀ tp, rss.spec.tls = some tp → ¬ tp.Memberless := by
  rw [← validate_returns_iff (o := o)]
  constructor
  · intro h
    obtain ⟨err, herr, -⟩ := h
    exact ⟨err, herr⟩
  · intro h
    obtain ⟨err, herr⟩ := h
    refine ⟨err, herr, ?_⟩
    rw [← validate_ok_iff (o := o), herr]
    simp

/-- A resource with an operator secret and no member secrets, and nothing
else wrong with it. -/
def operatorSecretOnly : ReplicatedStatefulSet where
  name := "db"
  nameSpace := "default"
  spec :=
    { replicas := none
      primaries := none
      paused := false
      commands := fun _ => some ⟨["/run"]⟩
      tls := some ⟨some ⟨none, "operator-tls"⟩⟩
      containers := [{ name := "db", image := "db:1" }] }
  status := .empty

theorem validate_operatorSecretOnly :
    operatorSecretOnly.validate (.stored _) = .error .nilPointer := by
  rfl

end ReplicatedStatefulSet

end RssOperator
