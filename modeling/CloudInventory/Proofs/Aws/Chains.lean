import CloudInventory.Aws.Collector
import CloudInventory.Proofs.Program.Traces

/-!
How the clusters of a region are collected. For each name that is listed there is a chain of calls:
the description of the cluster, the list of its node groups, the description of each of these, and
one call for all autoscaling groups behind them. A chain ends with the first call that fails. What
becomes of a cluster, its record and the children of it, depends on its own chain and on nothing
else: this is the main statement, about every world, shutdown at any time included.
-/

namespace CloudInventory.Aws

/-! ### Chains of calls -/

/-- Node groups of a cluster are described one after another, up to the first failure: what is
exchanged, and the descriptions if there are all of them. -/
inductive Described (region cluster : String) :
    List String → List (Exchange Call Answer) → Option (List Nodegroup) → Prop
  | done : Described region cluster [] [] (some [])
  | failed {nodegroup : String} {nodegroups : List String} (cause : CollectorError) :
      Described region cluster (nodegroup :: nodegroups)
        [⟨.describeNodegroup region cluster nodegroup, .error cause⟩] none
  | step {nodegroup : String} {nodegroups : List String} {log : List (Exchange Call Answer)}
      {described : Option (List Nodegroup)} (description : Nodegroup)
      (h : Described region cluster nodegroups log described) :
      Described region cluster (nodegroup :: nodegroups)
        (⟨.describeNodegroup region cluster nodegroup, .ok description⟩ :: log)
        (described.map (description :: ·))

/-- The names that node groups have of autoscaling groups, in their order. What is behind a node
group may not be told, and a group may have no name. -/
def namesIn (nodegroups : List Nodegroup) : List String :=
  nodegroups.flatMap fun n =>
    match n.resources with
    | none => []
    | some resources => resources.autoScalingGroups.filterMap fun group => group.name

/-- The ids of the members of autoscaling groups, in their order. A member may have no id. -/
def idsIn (groups : List AutoScalingGroup) : List String :=
  groups.flatMap fun group => group.instances.filterMap fun member => member.instanceId

/-- Autoscaling groups are looked up by their names if these are known, all at once and only if
there are any: what is exchanged, and the children, which are the members of all groups answered. -/
inductive Lookup (region : String) :
    Option (List String) → List (Exchange Call Answer) → List Ean → Prop
  | unknown : Lookup region none [] []
  | needless : Lookup region (some []) [] []
  | failed {names : List String} (hnames : names ≠ []) (cause : CollectorError) :
      Lookup region (some names) [⟨.describeAutoScalingGroups region names, .error cause⟩] []
  | answered {names : List String} (hnames : names ≠ []) (groups : List AutoScalingGroup) :
      Lookup region (some names) [⟨.describeAutoScalingGroups region names, .ok groups⟩]
        ((idsIn groups).map fun id => ⟨.host, id⟩)

/-- The search for the children of a cluster: what is exchanged, and the children. Autoscaling
groups are looked up by all names that the node groups have of them. -/
inductive Search (region cluster : String) : List (Exchange Call Answer) → List Ean → Prop
  | unlisted (cause : CollectorError) :
      Search region cluster [⟨.listNodegroups region cluster, .error cause⟩] []
  | listed {nodegroups : List String} {log rest : List (Exchange Call Answer)}
      {described : Option (List Nodegroup)} {children : List Ean}
      (h : Described region cluster nodegroups log described)
      (hlookup : Lookup region (described.map namesIn) rest children) :
      Search region cluster
        (⟨.listNodegroups region cluster, .ok nodegroups⟩ :: (log ++ rest)) children

/-- The chain of calls for a cluster: what is exchanged, and the cluster with its children unless
it cannot be described. -/
inductive Chain (region name : String) :
    List (Exchange Call Answer) → Option (EksCluster × List Ean) → Prop
  | undescribed (cause : CollectorError) :
      Chain region name [⟨.describeCluster region name, .error cause⟩] none
  | described (cluster : EksCluster) {log : List (Exchange Call Answer)} {children : List Ean}
      (h : Search region name log children) :
      Chain region name (⟨.describeCluster region name, .ok cluster⟩ :: log)
        (some (cluster, children))

/-- What is done for a name that is listed. -/
@[ext]
structure Pursuit (region : String) where
  name : String
  log : List (Exchange Call Answer)
  /-- The cluster with its children. -/
  found : Option (EksCluster × List Ean)
  chain : Chain region name log found

/-! ### Answers decide -/

section Answers

variable {region cluster : String}

/-- Descriptions that are answered alike are the same, whatever comes after them. -/
theorem Described.eq_of_alike {nodegroups : List String} {log : List (Exchange Call Answer)}
    {described : Option (List Nodegroup)} (h : Described region cluster nodegroups log described) :
    ∀ {log' rest rest' : List (Exchange Call Answer)} {described' : Option (List Nodegroup)},
      Described region cluster nodegroups log' described' →
      AnsweredAlike (log ++ rest) (log' ++ rest') →
      log = log' ∧ described = described' ∧ AnsweredAlike rest rest' := by
  induction h with
  | done =>
    rintro _ _ _ _ ⟨⟩ halike
    exact ⟨rfl, rfl, halike⟩
  | failed cause =>
    rintro _ _ _ _ (_ | _ | _) halike
    · obtain ⟨⟨⟩, hrest⟩ := halike.of_cons
      exact ⟨rfl, rfl, hrest⟩
    · cases halike.of_cons.1
  | step description _ ih =>
    rintro _ _ _ _ (_ | _ | ⟨_, h'⟩) halike
    · cases halike.of_cons.1
    · obtain ⟨⟨⟩, hrest⟩ := halike.of_cons
      obtain ⟨rfl, rfl, hrest⟩ := ih h' hrest
      exact ⟨rfl, rfl, hrest⟩

theorem Lookup.eq_of_alike {names : Option (List String)} {log log' : List (Exchange Call Answer)}
    {children children' : List Ean} (h : Lookup region names log children)
    (h' : Lookup region names log' children') (halike : AnsweredAlike log log') :
    log = log' ∧ children = children' := by
  cases h with
  | unknown =>
    cases h'
    exact ⟨rfl, rfl⟩
  | needless =>
    cases h' with
    | needless => exact ⟨rfl, rfl⟩
    | failed hnames => exact absurd rfl hnames
    | answered hnames => exact absurd rfl hnames
  | failed hnames cause =>
    cases h' with
    | needless => exact absurd rfl hnames
    | failed =>
      obtain ⟨⟨⟩, -⟩ := halike.of_cons
      exact ⟨rfl, rfl⟩
    | answered => cases halike.of_cons.1
  | answered hnames groups =>
    cases h' with
    | needless => exact absurd rfl hnames
    | failed => cases halike.of_cons.1
    | answered =>
      obtain ⟨⟨⟩, -⟩ := halike.of_cons
      exact ⟨rfl, rfl⟩

theorem Search.eq_of_alike {log log' : List (Exchange Call Answer)} {children children' : List Ean}
    (h : Search region cluster log children) (h' : Search region cluster log' children')
    (halike : AnsweredAlike log log') : log = log' ∧ children = children' := by
  cases h with
  | unlisted cause =>
    cases h' with
    | unlisted =>
      obtain ⟨⟨⟩, -⟩ := halike.of_cons
      exact ⟨rfl, rfl⟩
    | listed => cases halike.of_cons.1
  | listed h hlookup =>
    cases h' with
    | unlisted => cases halike.of_cons.1
    | listed h' hlookup' =>
      obtain ⟨⟨⟩, hrest⟩ := halike.of_cons
      obtain ⟨rfl, rfl, hrest⟩ := h.eq_of_alike h' hrest
      obtain ⟨rfl, rfl⟩ := hlookup.eq_of_alike hlookup' hrest
      exact ⟨rfl, rfl⟩

/-- What becomes of a cluster is decided by the answers in its own chain. -/
theorem Chain.eq_of_alike {log log' : List (Exchange Call Answer)}
    {found found' : Option (EksCluster × List Ean)} (h : Chain region cluster log found)
    (h' : Chain region cluster log' found') (halike : AnsweredAlike log log') :
    log = log' ∧ found = found' := by
  cases h with
  | undescribed cause =>
    cases h' with
    | undescribed =>
      obtain ⟨⟨⟩, -⟩ := halike.of_cons
      exact ⟨rfl, rfl⟩
    | described => cases halike.of_cons.1
  | described answer hsearch =>
    cases h' with
    | undescribed => cases halike.of_cons.1
    | described _ hsearch' =>
      obtain ⟨⟨⟩, hrest⟩ := halike.of_cons
      obtain ⟨rfl, rfl⟩ := hsearch.eq_of_alike hsearch' hrest
      exact ⟨rfl, rfl⟩

end Answers

/-! ### Describing clusters -/

section Describing

variable {w : World Call Answer} {region : String}

theorem namesIn_cons (n : Nodegroup) (ns : List Nodegroup) :
    namesIn (n :: ns) = n.groupNames ++ namesIn ns := by
  rw [namesIn, List.flatMap_cons, Nodegroup.groupNames]
  cases n.resources with
  | none => rfl
  | some resources => rw [Option.toList_some, List.flatMap_singleton]; rfl

theorem members_eq (groups : List AutoScalingGroup) :
    members groups = (idsIn groups).map fun id => ⟨.host, id⟩ := by
  rw [members, idsIn, List.filterMap_flatMap]

theorem traces_groupNames (cluster : String) : ∀ nodegroups : List String,
    Work.Traces w (groupNames region cluster nodegroups).run fun names log new => new = [] ∧
      ∃ described, Described region cluster nodegroups log described ∧
        names.toOption = described.map namesIn
  | [] => Work.traces_pure ⟨rfl, _, .done, rfl⟩
  | nodegroup :: nodegroups => by
    refine Work.traces_askThen (fun cause => ⟨rfl, _, .failed cause, rfl⟩) fun description => ?_
    refine ((traces_groupNames cluster nodegroups).mono ?_).map
    rintro names log _ ⟨rfl, described, hdescribed, hnames⟩
    refine ⟨rfl, _, hdescribed.step description, ?_⟩
    cases names with
    | error cause =>
      cases described with
      | none => rfl
      | some described => cases hnames
    | ok names =>
      cases described with
      | none => cases hnames
      | some described =>
        obtain rfl := Option.some.inj hnames
        rw [Option.map_some, Option.map_some, namesIn_cons]
        rfl

/-- A search that fails finds no children. -/
theorem traces_clusterChildren (cluster : String) :
    Work.Traces w (clusterChildren region cluster).run fun children log new => new = [] ∧
      Search region cluster log (children.toOption.getD []) := by
  refine Work.traces_askThen (fun cause => ⟨rfl, .unlisted cause⟩) fun nodegroups => ?_
  refine (traces_groupNames cluster nodegroups).attempt ?_ ?_
  · rintro cause log _ ⟨rfl, described, hdescribed, hnames⟩
    cases described with
    | some described => cases hnames
    | none =>
      refine ⟨rfl, ?_⟩
      simpa [Except.toOption] using Search.listed hdescribed .unknown
  · rintro names log _ ⟨rfl, described, hdescribed, hnames⟩
    cases described with
    | none => cases hnames
    | some described =>
      obtain rfl : names = namesIn described := Option.some.inj hnames
      split
      case isTrue hnone =>
        refine Work.traces_pure ⟨rfl, .listed hdescribed ?_⟩
        rw [Option.map_some, hnone]
        exact .needless
      case isFalse hsome =>
        refine Work.traces_askThen (fun cause => ⟨rfl, .listed hdescribed (.failed hsome cause)⟩)
          fun groups => ?_
        rw [members_eq]
        exact Work.traces_pure ⟨rfl, .listed hdescribed (.answered hsome groups)⟩

theorem traces_describeCluster (name : String) :
    Work.Traces w (describeCluster region name) fun found log new => new = [] ∧
      Chain region name log found := by
  unfold describeCluster
  refine (Work.traces_ask (V := fun r log new => new = [] ∧
    log = [⟨Call.describeCluster region name, r⟩]) fun _ => ⟨rfl, rfl⟩).bind ?_
  rintro (cause | cluster) _ _ ⟨rfl, rfl⟩
  · exact Work.traces_warnThen (Work.traces_pure ⟨rfl, .undescribed cause⟩)
  · refine (traces_clusterChildren name).bind ?_
    rintro (cause | children) log _ ⟨rfl, hsearch⟩
    · refine Work.traces_warnThen (Work.traces_pure ⟨rfl, ?_⟩)
      simpa [Except.toOption] using Chain.described cluster hsearch
    · refine Work.traces_pure ⟨rfl, ?_⟩
      simpa [Except.toOption] using Chain.described cluster hsearch

/-- Clusters are described one after another, each by its own chain. -/
theorem traces_describeClusters : ∀ names : List String,
    Work.Traces w (describeClusters region names) fun clusters log new => new = [] ∧
      ∃ ps : List (Pursuit region), ps.map Pursuit.name = names ∧ log = ps.flatMap Pursuit.log ∧
        clusters = ps.filterMap Pursuit.found
  | [] => Work.traces_pure ⟨rfl, [], rfl, rfl, rfl⟩
  | name :: names => by
    refine (traces_describeCluster name).bind ?_
    rintro found log _ ⟨rfl, hchain⟩
    refine (traces_describeClusters names).bind ?_
    rintro clusters _ _ ⟨rfl, ps, hnames, rfl, rfl⟩
    refine Work.traces_pure ⟨rfl, ⟨name, log, found, hchain⟩ :: ps, ?_, ?_, ?_⟩
    · rw [List.map_cons, hnames]
    · rw [List.append_nil, List.flatMap_cons]
    · cases found <;> rfl

end Describing

/-! ### Records -/

section Records

variable {w : World Call Answer} {e : Emitter} {region : String}

/-- The record of a cluster that has an ARN. -/
def clusterRecord (e : Emitter) (region : String) (c : EksCluster × List Ean) (arn : String) :
    Record :=
  .compose e.stamp (Patch.typed .cluster arn e.space ++
    ([.provider .aws, .region region] ++ Patch.maybeName c.1.name ++
      [.parents (networks (c.1.resourcesVpcConfig.bind VpcConfig.vpcId)), .children c.2,
        .tags c.1.tags] ++
      accountPatch (arnAccount? arn) ++ textPatch "status" c.1.status))

theorem clusterRecord_attributes (e : Emitter) (region : String) (c : EksCluster × List Ean)
    (arn : String) :
    (clusterRecord e region c arn).id = some arn ∧
      (clusterRecord e region c arn).children = c.2 := by
  rcases Patch.maybeName_cases c.1.name with h | ⟨s, h⟩ <;>
    cases haccount : arnAccount? arn <;> cases hstatus : c.1.status <;>
      simp [clusterRecord, accountPatch, textPatch, Record.compose, Patch.typed, Patch.apply,
        Patch.entry, h, haccount, hstatus]

/-- What is published of a cluster: its record if it has an ARN that is not empty. -/
def clusterRecord? (e : Emitter) (region : String) (c : EksCluster × List Ean) : Option Record :=
  (c.1.arn.bind Text.nonEmpty).map (clusterRecord e region c)

theorem traces_publishCluster (c : EksCluster × List Ean) :
    Work.Traces w (publishCluster e region c) fun n log new =>
      n = new.length ∧ log = [] ∧ new = (clusterRecord? e region c).toList := by
  unfold publishCluster clusterRecord?
  split
  case h_1 harn =>
    rw [harn]
    exact Work.traces_skip _ _ ⟨rfl, rfl, rfl⟩
  case h_2 arn harn =>
    rw [harn]
    exact Work.traces_emit ⟨rfl, rfl, rfl⟩

end Records

/-! ### Collecting clusters -/

namespace Pursuit

variable {region : String}

/-- The record that is published for a name, if any. -/
def record? (e : Emitter) (p : Pursuit region) : Option Record :=
  p.found.bind (clusterRecord? e region)

/-- There is a record for a cluster that can be described and has an ARN, and its children are
those that have been found. -/
theorem record?_attributes (e : Emitter) (p : Pursuit region) :
    (p.record? e).map (fun r => (r.id, r.children)) =
      p.found.bind fun c => (c.1.arn.bind Text.nonEmpty).map fun arn => (some arn, c.2) := by
  unfold record? clusterRecord?
  cases p.found with
  | none => rfl
  | some c =>
    rw [Option.bind_some, Option.bind_some, Option.map_map]
    refine Option.map_congr fun arn _ => ?_
    obtain ⟨hid, hchildren⟩ := clusterRecord_attributes e region c arn
    exact Prod.ext hid hchildren

theorem eq_of_alike {p q : Pursuit region} (hname : p.name = q.name)
    (halike : AnsweredAlike p.log q.log) : p = q := by
  obtain ⟨hlog, hfound⟩ := (hname ▸ p.chain).eq_of_alike q.chain halike
  exact Pursuit.ext hname hlog hfound

end Pursuit

/-- What comes of the clusters of a region: what is exchanged, the result, and the records. -/
inductive Collected (e : Emitter) (region : String) :
    List (Exchange Call Answer) → Except CollectorError Nat → List Record → Prop
  /-- The clusters cannot be listed. -/
  | unlisted (cause : CollectorError) :
      Collected e region [⟨.listClusters region, .error cause⟩] (.error cause) []
  /-- Each name that is listed has its chain, and then the records go out. -/
  | listed (ps : List (Pursuit region)) :
      Collected e region
        (⟨.listClusters region, .ok (ps.map Pursuit.name)⟩ :: ps.flatMap Pursuit.log)
        (.ok (ps.filterMap (Pursuit.record? e)).length) (ps.filterMap (Pursuit.record? e))

theorem traces_collectClusters {w : World Call Answer} (e : Emitter) (region : String) :
    Work.Traces w (collectClusters e region).run fun r log new =>
      Collected e region log r new := by
  refine Work.traces_askThen (fun cause => .unlisted cause) fun names => ?_
  rw [Work.run_lift_bind]
  refine (traces_describeClusters names).bind ?_
  rintro clusters _ _ ⟨rfl, ps, rfl, rfl, rfl⟩
  refine Work.Traces.lift ((Work.traces_total fun c _ => traces_publishCluster c).mono ?_)
  rintro n _ new ⟨rfl, rfl, rfl⟩
  rw [← List.filterMap_eq_flatMap_toList, List.filterMap_filterMap, List.append_nil]
  exact .listed ps

/-- CORRECT: in every world, shutdown at any time included, the clusters of a region are collected
by a chain of calls for each name that is listed, in this order, and the job fails only if they
cannot be listed. There is one record for each cluster that can be described with an ARN that is
not empty, and none for the others; its children are the members of all autoscaling groups that all
its node groups name, or none if there are no such names or the search for them fails. What becomes
of a name, and with it the record, depends on how the calls of its own chain have been answered. -/
theorem clusters_collected (e : Emitter) (region : String) :
    (∀ (w : World Call Answer) (cancelled : Bool), ∃ result ended,
      ((collectClusters e region).run ()).run w (.start cancelled) =
          (.result (result, ()), ended) ∧
        Collected e region (((collectClusters e region).run ()).exchanges w (.start cancelled))
          result ended.records) ∧
      (∀ p : Pursuit region, (p.record? e).map (fun r => (r.id, r.children)) =
        p.found.bind fun c => (c.1.arn.bind Text.nonEmpty).map fun arn => (some arn, c.2)) ∧
      ∀ p q : Pursuit region, p.name = q.name → AnsweredAlike p.log q.log → p = q := by
  refine ⟨fun w cancelled => ?_, Pursuit.record?_attributes e, fun _ _ => Pursuit.eq_of_alike⟩
  obtain ⟨result, _, ended, new, hrun, hnew, hcollected⟩ :=
    traces_collectClusters (w := w) e region () (.start cancelled)
  refine ⟨result, ended, hrun, ?_⟩
  rwa [hnew]

/-- Two clusters with one node group and one machine each. The node group of the first one cannot
be described. -/
def halfDescribed : World Call Answer where
  answer _
    | .listClusters _ => .ok ["a", "b"]
    | .describeCluster _ name => .ok ⟨some name, some ("arn:" ++ name), none, none, .empty⟩
    | .listNodegroups _ cluster => .ok [cluster]
    | .describeNodegroup _ _ nodegroup =>
      if nodegroup = "a" then .error .cancelled
      else .ok ⟨none, some ⟨[⟨some nodegroup⟩, ⟨none⟩]⟩⟩
    | .describeAutoScalingGroups _ _ => .ok [⟨none, [⟨some "i"⟩]⟩]
    | .describeInstances _ => .ok []
    | .describeVpcs _ => .ok []
    | .describeSubnets _ => .ok []
  signal _ _ := none

/-- The first cluster is published without children, and the second one with its machine. -/
example :
    (((collectClusters ⟨.epoch, none⟩ "r").run ()).run halfDescribed (.start false)).2.records.map
        (fun r => (r.id, r.children)) =
      [(some "arn:a", []), (some "arn:b", [⟨.host, "i"⟩])] := by
  decide +kernel

end CloudInventory.Aws
