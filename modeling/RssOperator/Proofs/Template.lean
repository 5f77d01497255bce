/-
The generated objects: which labels they have, what their selectors find
and which volumes the pods are given.

# Labels

`mergeLabels` prefers its first argument, and its callers do not agree on
which one that is. It does not matter for a resource that `Validate`
accepts: none of its labels is one of the operator's
(`lookup_mergeLabels_comm`), so both sets are in every result.

# StatefulSet

What the operator makes without an older StatefulSet and with one differs
only in what is kept of the older one (`Made`). Of what is made, the model of
the loop keeps the replica count (`create_replicas`).

# Anti-affinity

The anti-affinity term looks for a label that the operator puts on nothing
and that `Validate` lets no user set.

# Volumes

The volumes that are generated for a container go into one list for the
whole pod, once for each container (`volumes_makePodSpec`). With a second
container their names are there twice.
-/
import RssOperator.Proofs.Scaling
import RssOperator.Proofs.Validate
import RssOperator.StatefulSet

namespace RssOperator

variable {rss : ReplicatedStatefulSet} {o o' : Order String} {k v : String}

-- ============================================================== labels

/-- The first argument wins. -/
theorem lookup_mergeLabels (labels otherLabels : GoMap String String) :
    (mergeLabels o o' labels otherLabels).lookup k
      = (labels.lookup k).or (otherLabels.lookup k) := by
  unfold mergeLabels
  rw [GoMap.lookup_copyInto, GoMap.lookup_copyInto, AList.lookup_empty,
    Option.or_none]

theorem lookup_labelsForCluster (name : String) :
    (labelsForCluster name).lookup k
      = if k = "app" then some name
        else if k = "rss-operator-managed" then some "true" else none := by
  unfold labelsForCluster
  by_cases happ : k = "app"
  · rw [if_pos happ, happ, AList.lookup_insert]
  · rw [if_neg happ, AList.lookup_insert_ne happ]
    by_cases hmanaged : k = "rss-operator-managed"
    · rw [if_pos hmanaged, hmanaged, AList.lookup_insert]
    · rw [if_neg hmanaged, AList.lookup_insert_ne hmanaged,
        AList.lookup_empty]

/-- The second map has every entry of the first. -/
def Extends (labels more : GoMap String String) : Prop :=
  ∀ k v, labels.lookup k = some v → more.lookup k = some v

/-- The operator's labels and the user's. -/
structure ReplicatedStatefulSet.Labelled (rss : ReplicatedStatefulSet)
    (labels : GoMap String String) : Prop where
  cluster : Extends (labelsForCluster rss.name) labels
  user : Extends rss.labels labels

theorem ReplicatedStatefulSet.Labelled.congr
    {labels labels' : GoMap String String} (h : rss.Labelled labels)
    (heq : ∀ k, labels'.lookup k = labels.lookup k) :
    rss.Labelled labels' := by
  constructor
  · intro k v hk
    rw [heq]
    exact h.cluster k v hk
  · intro k v hk
    rw [heq]
    exact h.user k v hk

/-- A resource with a label, a secret and the anti-affinity, and these
containers. -/
def ReplicatedStatefulSet.repelling (containers : List Container) :
    ReplicatedStatefulSet :=
  { ReplicatedStatefulSet.sized 3 1 with
    spec := { (ReplicatedStatefulSet.sized 3 1).spec with
      containers := containers
      pod := { antiAffinity := true }
      secrets := ["tls"] }
    labels := (∅ : GoMap String String).insert "team" "storage" }

-- =========================================================== selectors

theorem selects_iff {selector labels : GoMap String String} :
    selects selector labels = true ↔ Extends selector labels := by
  unfold selects Extends
  rw [GoMap.forall_lookup_iff, List.all_eq_true]
  simp only [beq_iff_eq]

/-- What is known of the StatefulSet of a resource, whether or not there was
an older one. -/
structure Made (os : Nat → Order String) (rss : ReplicatedStatefulSet)
    (sts : StatefulSet) : Prop where
  labels : sts.labels
    = mergeLabels (os 2) (os 3) (labelsForCluster rss.name) rss.labels
  podLabels : sts.spec.template.labels
    = mergeLabels (os 0) (os 1) (labelsForCluster rss.name) rss.labels
  pod : sts.spec.template.spec = makePodSpec rss
  replicas : sts.spec.replicas = rss.spec.getNumReplicas

theorem makeStatefulSet_made (os : Nat → Order String)
    (rss : ReplicatedStatefulSet) (old : Option StatefulSet) :
    ∃ sts, makeStatefulSet os rss old = .ok sts ∧ Made os rss sts := by
  cases old with
  | none => exact ⟨_, rfl, rfl, rfl, rfl, rfl⟩
  | some old => exact ⟨_, rfl, rfl, rfl, rfl, rfl⟩

/-- Of the StatefulSet that is created the loop keeps the replica count. -/
theorem create_replicas (env : Env) (kube : Kube) (w : World)
    (os : Nat → Order String) (h : (create env kube w).1 = none) :
    ∃ sts, makeStatefulSet os w.sys.c.rss none = .ok sts
      ∧ (create env kube w).2.sts = some sts.spec.replicas := by
  obtain ⟨sts, heq, hmade⟩ := makeStatefulSet_made os w.sys.c.rss none
  refine ⟨sts, heq, ?_⟩
  have hst := Steady.updateCRStatus env "create" (w.sys.setPhase .creating)
  rw [hmade.replicas]
  revert h
  unfold create
  dsimp only
  split
  · intro h
    cases h
  · next s hs =>
    rw [hs] at hst
    split
    -- five requests that fail and a StatefulSet that exists
    iterate 6
      · intro h
        cases h
    · intro _
      exact congrArg (fun c : ClusterSpec => some c.getNumReplicas) hst.spec

/-- The required terms of the pod anti-affinity are about the pods of the
template itself. -/
def StatefulSet.RepelsOwnPods (sts : StatefulSet) : Prop :=
  ∃ required,
    sts.spec.template.spec.affinity = some (.podAntiAffinity required)
    ∧ required ≠ []
    ∧ ∀ term ∈ required,
        selects term.matchLabels sts.spec.template.labels = true

theorem affinity_makePodSpec (h : rss.spec.pod.antiAffinity = true) :
    (makePodSpec rss).affinity = some (clusterAntiAffinity rss.name) := by
  unfold makePodSpec applyPodSpecPolicy
  dsimp only
  rw [if_pos h]
  split <;> rfl

/-- The label the term looks for can only be the user's. -/
theorem lookup_clusterNameLabel :
    (mergeLabels o o' (labelsForCluster rss.name) rss.labels).lookup
        clusterNameLabel
      = rss.labels.lookup clusterNameLabel := by
  rw [lookup_mergeLabels, lookup_labelsForCluster, if_neg (by decide),
    if_neg (by decide), Option.none_or]

theorem repelsOwnPods_iff {sts : StatefulSet} (name : String)
    (haffinity : sts.spec.template.spec.affinity
      = some (clusterAntiAffinity name)) :
    sts.RepelsOwnPods
      ↔ sts.spec.template.labels.lookup clusterNameLabel
        = some name := by
  unfold StatefulSet.RepelsOwnPods
  rw [haffinity]
  unfold clusterAntiAffinity
  simp only [Option.some.injEq, Affinity.podAntiAffinity.injEq,
    exists_eq_left', ne_eq, List.cons_ne_nil, not_false_eq_true, true_and,
    List.forall_mem_singleton]
  rw [selects_iff]
  constructor
  · intro h
    exact h _ _ (AList.lookup_insert _)
  · intro h k v hk
    by_cases hkey : k = clusterNameLabel
    · rw [hkey, AList.lookup_insert] at hk
      rw [hkey, h, Option.some.inj hk]
    · rw [AList.lookup_insert_ne hkey] at hk
      cases hk

/-- The anti-affinity is about the pods of the cluster exactly if the user
has given them the label it looks for, and `Validate` accepts no resource
in which that is so. -/
theorem repels_own_pods_iff (o : Order String) (os : Nat → Order String)
    (rss : ReplicatedStatefulSet) (old : Option StatefulSet)
    (hanti : rss.spec.pod.antiAffinity = true) :
    ∃ sts, makeStatefulSet os rss old = .ok sts
      ∧ (sts.RepelsOwnPods
          ↔ rss.labels.lookup clusterNameLabel = some rss.name)
      ∧ (rss.validate o = .ok none → ¬ sts.RepelsOwnPods) := by
  obtain ⟨sts, heq, hmade⟩ := makeStatefulSet_made os rss old
  have hiff : sts.RepelsOwnPods
      ↔ rss.labels.lookup clusterNameLabel = some rss.name := by
    rw [repelsOwnPods_iff rss.name, hmade.podLabels,
      lookup_clusterNameLabel]
    rw [hmade.pod, affinity_makePodSpec hanti]
  refine ⟨sts, heq, hiff, fun haccepted hrepels => ?_⟩
  have hvalid := ReplicatedStatefulSet.validate_ok_iff.mp haccepted
  exact hvalid.labels _ _ (hiff.mp hrepels) (Or.inr (by decide))

/-- With the label, which only an unchecked resource has, the term does
what it is for. -/
theorem repels_own_pods_iff_labelled :
    let rss := { ReplicatedStatefulSet.repelling
        [{ name := "db", image := "db:1" }] with
      labels := (∅ : GoMap String String).insert "rss-cluster" "db" }
    rss.spec.pod.antiAffinity = true
      ∧ ∃ sts, makeStatefulSet (fun _ => .stored _) rss none = .ok sts
        ∧ sts.RepelsOwnPods := by
  obtain ⟨sts, heq, hiff, -⟩ := repels_own_pods_iff (.stored _)
    (fun _ => .stored _)
    { ReplicatedStatefulSet.repelling
        [{ name := "db", image := "db:1" }] with
      labels := (∅ : GoMap String String).insert "rss-cluster" "db" }
    none rfl
  exact ⟨rfl, sts, heq, hiff.mpr rfl⟩

/-- An accepted resource whose anti-affinity finds no pod of its own. -/
theorem repelling_finds_nobody :
    let rss := ReplicatedStatefulSet.repelling
      [{ name := "db", image := "db:1" }]
    rss.validate (.stored _) = .ok none ∧ rss.spec.pod.antiAffinity = true
      ∧ ∃ sts, makeStatefulSet (fun _ => .stored _) rss none = .ok sts
        ∧ ¬ sts.RepelsOwnPods := by
  refine ⟨rfl, rfl, _, rfl, ?_⟩
  rw [repelsOwnPods_iff "db" rfl]
  exact fun h => nomatch h

-- ============================================================= volumes

/-- The volumes that one turn of the loop adds to the pod. -/
def generatedVolumes (secrets : List String) : List Volume :=
  podInfoVolume :: secrets.map secretVolume

/-- A container as it is put into the pod. -/
def completed (rss : ReplicatedStatefulSet) (c : Container) : Container :=
  { c with
    env := c.env ++ operatorEnv rss
    volumeMounts :=
      c.volumeMounts ++ podInfoMount :: rss.spec.secrets.map secretMount }

theorem foldl_addSecret (secrets : List String) (volumes : List Volume)
    (mounts : List VolumeMount) :
    secrets.foldl addSecret (volumes, mounts)
      = (volumes ++ secrets.map secretVolume,
          mounts ++ secrets.map secretMount) := by
  induction secrets generalizing volumes mounts with
  | nil => simp
  | cons s secrets ih =>
      rw [List.foldl_cons, addSecret, ih]
      simp

theorem addContainer_eq (acc : List Volume × List Container)
    (c : Container) :
    addContainer rss acc c
      = (acc.1 ++ generatedVolumes rss.spec.secrets,
          acc.2 ++ [completed rss c]) := by
  unfold addContainer generatedVolumes completed
  rw [foldl_addSecret]
  simp

theorem foldl_addContainer (cs : List Container) (volumes : List Volume)
    (containers : List Container) :
    cs.foldl (addContainer rss) (volumes, containers)
      = (volumes ++ cs.flatMap fun _ => generatedVolumes rss.spec.secrets,
          containers ++ cs.map (completed rss)) := by
  induction cs generalizing volumes containers with
  | nil => simp
  | cons c cs ih =>
      rw [List.foldl_cons, addContainer_eq, ih]
      simp

theorem applyPodSpecPolicy_mounts (name : String) (spec : PodSpec)
    (policy : Option PodPolicy) :
    (applyPodSpecPolicy name spec policy).volumes = spec.volumes
      ∧ (applyPodSpecPolicy name spec policy).containers
        = spec.containers := by
  unfold applyPodSpecPolicy
  cases policy with
  | none => exact ⟨rfl, rfl⟩
  | some policy =>
      obtain ⟨antiAffinity, mount, -, -, -⟩ := policy
      cases antiAffinity <;> cases mount <;> exact ⟨rfl, rfl⟩

/-- The generated volumes are there once for each container. -/
theorem volumes_makePodSpec (rss : ReplicatedStatefulSet) :
    (makePodSpec rss).volumes
      = rss.spec.pod.volumes
        ++ rss.spec.containers.flatMap fun _ =>
          generatedVolumes rss.spec.secrets := by
  unfold makePodSpec
  dsimp only
  rw [(applyPodSpecPolicy_mounts _ _ _).1, foldl_addContainer]

theorem containers_makePodSpec (rss : ReplicatedStatefulSet) :
    (makePodSpec rss).containers
      = rss.spec.containers.map (completed rss) := by
  unfold makePodSpec
  dsimp only
  rw [(applyPodSpecPolicy_mounts _ _ _).2, foldl_addContainer]
  rfl

/-- The names the operator gives to volumes. -/
def generatedNames (secrets : List String) : List String :=
  "podinfo" :: secrets.map fun s => "secret-" ++ s

theorem map_name_generatedVolumes (secrets : List String) :
    (generatedVolumes secrets).map Volume.name = generatedNames secrets := by
  unfold generatedVolumes generatedNames
  rw [List.map_cons, List.map_map]
  rfl

theorem nodup_generatedNames {secrets : List String}
    (h : secrets.Nodup) : (generatedNames secrets).Nodup := by
  refine List.nodup_cons.mpr ⟨?_, h.map ?_⟩
  · intro hmem
    obtain ⟨s, -, hs⟩ := List.mem_map.mp hmem
    have hlist := congrArg String.toList hs
    rw [String.toList_append] at hlist
    cases hlist
  · intro s s' hs
    have hlist := congrArg String.toList hs
    rw [String.toList_append, String.toList_append] at hlist
    exact String.toList_inj.mp (List.append_cancel_left hlist)

/-- The volumes of a pod are well formed: their names differ, and every
container mounts the pod's information and each secret, from exactly one
volume. -/
structure PodSpec.WellMounted (secrets : List String) (spec : PodSpec) :
    Prop where
  distinct : (spec.volumes.map Volume.name).Nodup
  mounted : ∀ c ∈ spec.containers, ∀ name ∈ generatedNames secrets,
    ∃ m ∈ c.volumeMounts, m.name = name
  single : ∀ c ∈ spec.containers, ∀ m ∈ c.volumeMounts,
    m.name ∈ generatedNames secrets →
      (spec.volumes.map Volume.name).count m.name = 1

/-- Every container mounts what is generated for it. -/
theorem mounts_completed {c : Container} {name : String}
    (h : name ∈ generatedNames rss.spec.secrets) :
    ∃ m ∈ (completed rss c).volumeMounts, m.name = name := by
  rcases List.mem_cons.mp h with rfl | h
  · exact ⟨podInfoMount, List.mem_append_right _ List.mem_cons_self, rfl⟩
  · obtain ⟨s, hs, rfl⟩ := List.mem_map.mp h
    refine ⟨secretMount s, List.mem_append_right _ ?_, rfl⟩
    exact List.mem_cons_of_mem _ (List.mem_map_of_mem hs)

theorem names_makePodSpec (rss : ReplicatedStatefulSet) :
    (makePodSpec rss).volumes.map Volume.name
      = rss.spec.pod.volumes.map Volume.name
        ++ rss.spec.containers.flatMap fun _ =>
          generatedNames rss.spec.secrets := by
  rw [volumes_makePodSpec, List.map_append, List.map_flatMap,
    map_name_generatedVolumes]

/-- With distinct names, what is generated is mounted from one volume. -/
theorem wellMounted_of_distinct
    (hdistinct : ((makePodSpec rss).volumes.map Volume.name).Nodup) :
    (makePodSpec rss).WellMounted rss.spec.secrets := by
  have hcontainers := containers_makePodSpec rss
  refine ⟨hdistinct, ?_, ?_⟩
  · intro c hc name hname
    rw [hcontainers] at hc
    obtain ⟨c', -, rfl⟩ := List.mem_map.mp hc
    exact mounts_completed hname
  · intro c hc m _ hname
    refine List.count_eq_one_of_mem hdistinct ?_
    rw [hcontainers] at hc
    obtain ⟨c', hc', -⟩ := List.mem_map.mp hc
    rw [names_makePodSpec]
    exact List.mem_append_right _
      (List.mem_flatMap.mpr ⟨c', hc', hname⟩)

/-- A second container brings the same names again. -/
theorem not_nodup_flatMap_pair (c c' : Container) (cs : List Container)
    (secrets : List String) :
    ¬ ((c :: c' :: cs).flatMap fun _ => generatedNames secrets).Nodup := by
  intro h
  rw [List.flatMap_cons, List.flatMap_cons] at h
  exact (List.nodup_append.mp h).2.2 "podinfo" List.mem_cons_self "podinfo"
    (List.mem_append_left _ List.mem_cons_self) rfl

/-- The pod of an accepted resource is well formed exactly if it has one
container. -/
theorem well_mounted_iff (o : Order String) (os : Nat → Order String)
    (rss : ReplicatedStatefulSet) (haccepted : rss.validate o = .ok none)
    (hown : (rss.spec.pod.volumes.map Volume.name).Nodup)
    (hfree : ∀ v ∈ rss.spec.pod.volumes,
      v.name ≠ "podinfo" ∧ ∀ s ∈ rss.spec.secrets, v.name ≠ "secret-" ++ s)
    (hsecrets : rss.spec.secrets.Nodup) :
    ∃ spec, makeStatefulSetSpec os rss = .ok spec
      ∧ (spec.template.spec.WellMounted rss.spec.secrets
        ↔ rss.spec.containers.length = 1) := by
  refine ⟨_, rfl, ?_⟩
  show (makePodSpec rss).WellMounted rss.spec.secrets ↔ _
  have hvalid := ReplicatedStatefulSet.validate_ok_iff.mp haccepted
  have hnames := names_makePodSpec rss
  cases hcs : rss.spec.containers with
  | nil => exact absurd hcs hvalid.containers
  | cons c cs =>
      rw [hcs] at hnames
      cases cs with
      | nil =>
          refine iff_of_true (wellMounted_of_distinct ?_) rfl
          rw [hnames, List.flatMap_singleton]
          refine hown.append (nodup_generatedNames hsecrets) ?_
          intro name hmem hgen
          obtain ⟨v, hv, rfl⟩ := List.mem_map.mp hmem
          rcases List.mem_cons.mp hgen with hpod | hsec
          · exact (hfree v hv).1 hpod
          · obtain ⟨s, hs, hname⟩ := List.mem_map.mp hsec
            exact (hfree v hv).2 s hs hname.symm
      | cons c' cs =>
          refine iff_of_false ?_ (by simp)
          intro h
          have hdistinct := h.distinct
          rw [hnames] at hdistinct
          exact not_nodup_flatMap_pair c c' cs _
            (List.nodup_append.mp hdistinct).2.1

/-- With one container. -/
theorem well_mounted_iff_single :
    let rss := ReplicatedStatefulSet.repelling
      [{ name := "db", image := "db:1" }]
    rss.validate (.stored _) = .ok none
      ∧ ∃ spec, makeStatefulSetSpec (fun _ => .stored _) rss = .ok spec
        ∧ spec.template.spec.WellMounted ["tls"] := by
  obtain ⟨spec, heq, hiff⟩ := well_mounted_iff (.stored _)
    (fun _ => .stored _)
    (.repelling [{ name := "db", image := "db:1" }]) rfl List.nodup_nil
    (fun v hv => nomatch hv) (by decide)
  exact ⟨rfl, spec, heq, hiff.mpr rfl⟩

/-- With two containers there are two volumes of one name. -/
theorem sidecar_duplicates_podinfo :
    let rss := ReplicatedStatefulSet.repelling
      [{ name := "db", image := "db:1" },
        { name := "exporter", image := "exporter:1" }]
    rss.validate (.stored _) = .ok none ∧ rss.spec.pod.volumes = []
      ∧ rss.spec.secrets.Nodup
      ∧ ∃ spec, makeStatefulSetSpec (fun _ => .stored _) rss = .ok spec
        ∧ spec.template.spec.volumes.map Volume.name
          = ["podinfo", "secret-tls", "podinfo", "secret-tls"]
        ∧ ¬ spec.template.spec.WellMounted ["tls"] := by
  refine ⟨rfl, rfl, by decide, _, rfl, rfl, ?_⟩
  intro h
  exact absurd h.distinct (by decide)

end RssOperator
