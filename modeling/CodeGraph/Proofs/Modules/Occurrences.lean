import CodeGraph.Proofs.Draft.Additions

/-!
# Occurrences of specifiers

Every reference of a file to a module is an occurrence, and it leads to a file or to none. One that
leads to a file belongs to a joint: a way in which a file refers to another one. An occurrence
makes the edits of its joint, and all occurrences of a joint make one dependency together, written
where the first of them stands. One that is relative and leads nowhere makes a finding.
-/

namespace CodeGraph

open Syntax Modules Edit

/-! ## Occurrences -/

namespace Modules

/-- A reference to a module with the file that it stands in. -/
structure Occurrence where
  /-- The file. -/
  source : Source
  /-- The reference. -/
  reference : ModuleReference

/-- A way in which a file refers to another one. -/
structure Joint where
  /-- How the module is referred to. -/
  origin : ReferenceOrigin
  /-- The referring file. -/
  file : String
  /-- The file that the specifier leads to. -/
  target : String
  /-- The written specifier. -/
  specifier : String
deriving DecidableEq

namespace ReferenceOrigin

/-- The word that tells dependencies apart says how a module is referred to and with which
specifier. -/
theorem label_append_inj {first second : ReferenceOrigin} {specifier other : String}
    (same : first.label ++ ":" ++ specifier = second.label ++ ":" ++ other) :
    first = second ∧ specifier = other := by
  have chars := congrArg String.toList same
  cases first <;> cases second <;> simp [label] at chars <;> exact ⟨rfl, String.toList_inj.mp chars⟩

end ReferenceOrigin

namespace Joint

/-- The joint leads from one file to another one. -/
def IsProper (joint : Joint) : Prop :=
  joint.file ≠ joint.target

instance (joint : Joint) : Decidable joint.IsProper :=
  inferInstanceAs (Decidable (joint.file ≠ joint.target))

/-- The tags of a joint's dependency. -/
def tags (joint : Joint) : List Tag :=
  [⟨"origin", joint.origin.label⟩, ⟨"specifier", joint.specifier⟩]

/-- The dependency of a joint that is written at a place. -/
def link (joint : Joint) (place : SourceRef) : Link :=
  { kind := .dependency
    sourceId := moduleId joint.file
    targetId := moduleId joint.target
    tags := joint.tags
    source := some place
    discriminator := some (joint.origin.label ++ ":" ++ joint.specifier) }

/-- The id of a joint's dependency. -/
def id (joint : Joint) : String :=
  relationId .dependency (moduleId joint.file) (moduleId joint.target)
    (some (joint.origin.label ++ ":" ++ joint.specifier))

/-- The edits of a joint that is written at a place: both modules and the dependency. -/
def edits (joint : Joint) (place : SourceRef) : List Edit :=
  [.classifier joint.file (Draft.fileModule joint.file),
    .classifier joint.target (Draft.fileModule joint.target),
    .relate (joint.link place)]

theorem id_link (joint : Joint) (place : SourceRef) : (joint.link place).id = joint.id := rfl

/-- A dependency is dropped where the joint leads back, if modules of different files differ. -/
theorem links_edits {joint : Joint} (place : SourceRef)
    (apart : moduleId joint.file = moduleId joint.target → joint.file = joint.target) :
    (joint.edits place).filterMap Edit.link?
      = if joint.IsProper then [joint.link place] else [] := by
  have void_iff : (joint.link place).isVoid = true ↔ ¬ joint.IsProper := by
    rw [Link.isVoid, link, RelationKind.isIrreflexive, Bool.and_true, beq_iff_eq]
    exact ⟨fun same => not_not.mpr (apart same), fun back => congrArg moduleId (not_not.mp back)⟩
  rw [edits, List.filterMap_cons_none rfl, List.filterMap_cons_none rfl]
  by_cases proper : joint.IsProper
  · have said : (joint.link place).isVoid = false :=
      Bool.eq_false_iff.mpr (mt void_iff.mp (not_not.mpr proper))
    have added : (Edit.relate (joint.link place)).link? = some (joint.link place) := by
      simp [Edit.link?, said]
    rw [List.filterMap_cons_some added, if_pos proper, List.filterMap_nil]
  · have dropped : (Edit.relate (joint.link place)).link? = none := by
      simp [Edit.link?, void_iff.mpr proper]
    rw [List.filterMap_cons_none dropped, if_neg proper, List.filterMap_nil]

/-- The relation is the dependency of a joint that is written at some places. -/
structure Makes (joint : Joint) (places : List SourceRef) (relation : Relation) : Prop where
  id_eq : relation.id = joint.id
  kind_eq : relation.kind = .dependency
  sourceId_eq : relation.sourceId = moduleId joint.file
  targetId_eq : relation.targetId = moduleId joint.target
  name_eq : relation.name = none
  /-- It has these tags and no others. -/
  tags_eq : relation.tags = joint.tags
  /-- It stands at the first of the places. -/
  isFirst : SourceRef.IsFirst places relation.source

theorem nodup_tags (joint : Joint) : joint.tags.Nodup := by
  simp [tags]

/-- Dependencies of one joint make one relation together. -/
theorem makes_joinAll (joint : Joint) {places : List SourceRef} (written : places ≠ []) :
    ∃ relation, Link.joinAll none (places.map joint.link) = some relation ∧
      joint.Makes places relation := by
  have agree : Link.Agree (places.map joint.link) := by
    simp only [Link.Agree, List.forall_mem_map]
    exact fun _ _ _ _ _ => ⟨rfl, rfl, rfl, rfl⟩
  have same_id : ∀ link ∈ places.map joint.link, link.id = joint.id := by
    simp [id_link]
  obtain ⟨relation, joined, joins⟩ := agree.exists_joins same_id (by simpa using written)
  obtain ⟨place, further, rfl⟩ := List.exists_cons_of_ne_nil written
  obtain ⟨id_eq, kind_eq, sourceId_eq, targetId_eq, name_eq⟩ :=
    joins.shapes (joint.link place) (by simp)
  have tagged : (joint.link place).toRelation.tags = joint.tags := by
    rw [Link.toRelation, Tag.unique_eq]
    exact foldl_addLast_of_nodup joint.nodup_tags
  have same_tags : ∀ link ∈ further.map joint.link, link.tags = joint.tags := by
    simp [link]
  have tags_eq := Link.tags_joinAll joint.nodup_tags same_tags tagged joined
  refine ⟨relation, joined, id_eq, kind_eq, sourceId_eq, targetId_eq, name_eq, tags_eq, ?_⟩
  have places_eq : ((place :: further).map joint.link).filterMap (·.source) = place :: further := by
    rw [List.filterMap_map]
    exact List.filterMap_some
  exact places_eq ▸ joins.isFirst

end Joint

namespace Occurrence

variable (resolver : ModuleResolver) (occurrence : Occurrence)

/-- Where an occurrence is written. -/
def place : SourceRef :=
  occurrence.source.place occurrence.reference.node

/-- The file that an occurrence leads to. -/
def target? : Option String :=
  resolver.resolve? occurrence.reference.specifier occurrence.source.path

/-- The joint that an occurrence belongs to. -/
def joint? : Option Joint :=
  (occurrence.target? resolver).map fun target =>
    { origin := occurrence.reference.origin
      file := occurrence.source.path
      target
      specifier := occurrence.reference.specifier }

/-- The files that become modules because of an occurrence. -/
def ends : List String :=
  ((occurrence.joint? resolver).map fun joint => [joint.file, joint.target]).getD []

/-- The occurrence is relative and leads nowhere. -/
def isLost : Bool :=
  (occurrence.target? resolver).isNone && ModuleResolver.isRelative occurrence.reference.specifier

/-- What is told of a lost occurrence. -/
def finding : Finding :=
  .atLine .unresolvedImport
    ("Unresolved " ++ occurrence.reference.text ++ " from " ++ occurrence.source.path)
    occurrence.source.path (occurrence.source.lineOf occurrence.reference.node)
    [("specifier", occurrence.reference.specifier), ("origin", occurrence.reference.origin.label)]

/-- The edits of an occurrence. -/
def edits : List Edit :=
  occurrence.reference.edits resolver occurrence.source

/-- The joint of an occurrence that leads to another file. -/
def proper? : Option Joint :=
  (occurrence.joint? resolver).filter (·.IsProper)

variable {resolver} {occurrence}

/-- An occurrence makes the edits of its joint, or it makes a finding if it is lost. -/
theorem edits_eq :
    occurrence.edits resolver
      = match occurrence.joint? resolver with
        | some joint => joint.edits occurrence.place
        | none => if occurrence.isLost resolver then [.find occurrence.finding] else [] := by
  rw [edits, ModuleReference.edits, joint?, isLost, target?]
  cases resolver.resolve? occurrence.reference.specifier occurrence.source.path <;> rfl

theorem isLost_of_joint {joint : Joint} (found : occurrence.joint? resolver = some joint) :
    occurrence.isLost resolver = false := by
  obtain ⟨target, located, _⟩ := Option.map_eq_some_iff.mp found
  rw [isLost, located]
  rfl

/-! ### What the edits of an occurrence add -/

theorem isSteady_of_mem_edits {edit : Edit} (present : edit ∈ occurrence.edits resolver) :
    edit.IsSteady := by
  rw [edits_eq] at present
  split at present
  · simp only [Joint.edits, List.mem_cons, List.not_mem_nil, or_false] at present
    rcases present with rfl | rfl | rfl <;> trivial
  · split at present
    · rw [List.mem_singleton.mp present]
      trivial
    · exact absurd present List.not_mem_nil

theorem classifiers_edits :
    (occurrence.edits resolver).filterMap Edit.classifier?
      = (occurrence.ends resolver).map Draft.fileModule := by
  rw [edits_eq, ends]
  cases occurrence.joint? resolver with
  | some joint => rfl
  | none => cases occurrence.isLost resolver <;> rfl

theorem findings_edits :
    (occurrence.edits resolver).filterMap Edit.finding?
      = if occurrence.isLost resolver then [occurrence.finding] else [] := by
  rw [edits_eq]
  cases found : occurrence.joint? resolver with
  | some joint => rw [isLost_of_joint found]; rfl
  | none => cases occurrence.isLost resolver <;> rfl

theorem links_edits (apart : ∀ joint ∈ occurrence.joint? resolver,
      moduleId joint.file = moduleId joint.target → joint.file = joint.target) :
    (occurrence.edits resolver).filterMap Edit.link?
      = ((occurrence.proper? resolver).map (·.link occurrence.place)).toList := by
  rw [edits_eq, proper?]
  cases found : occurrence.joint? resolver with
  | some joint =>
      rw [Joint.links_edits occurrence.place (apart joint found), Option.filter_some]
      by_cases proper : joint.IsProper <;> simp [proper]
  | none => cases occurrence.isLost resolver <;> rfl

/-! ## Many occurrences -/

variable (resolver) (occurrences : List Occurrence)

/-- The places where occurrences of a joint are written. -/
def placesOf (joint : Joint) : List SourceRef :=
  (occurrences.filter fun occurrence => occurrence.joint? resolver = some joint).map (·.place)

/-- The joints that lead to another file, in the order in which they come first. -/
def joints : List Joint :=
  (occurrences.filterMap (·.proper? resolver)).foldl addLast []

/-- The dependencies that occurrences make. -/
def links : List Link :=
  occurrences.filterMap fun occurrence =>
    (occurrence.proper? resolver).map (·.link occurrence.place)

variable {resolver} {occurrences}

theorem proper?_eq_some_iff {joint : Joint} :
    occurrence.proper? resolver = some joint
      ↔ joint.IsProper ∧ occurrence.joint? resolver = some joint := by
  rw [proper?, Option.filter_eq_some_iff, decide_eq_true_iff, and_comm]

theorem mem_joints {joint : Joint} :
    joint ∈ joints resolver occurrences
      ↔ joint.IsProper ∧ ∃ occurrence ∈ occurrences, occurrence.joint? resolver = some joint := by
  simp only [joints, mem_foldl_addLast, List.not_mem_nil, false_or, List.mem_filterMap,
    proper?_eq_some_iff]
  constructor
  · rintro ⟨occurrence, listed, proper, found⟩
    exact ⟨proper, occurrence, listed, found⟩
  · rintro ⟨proper, occurrence, listed, found⟩
    exact ⟨occurrence, listed, proper, found⟩

theorem mem_links {link : Link} :
    link ∈ links resolver occurrences
      ↔ ∃ occurrence ∈ occurrences, ∃ joint, occurrence.proper? resolver = some joint ∧
        joint.link occurrence.place = link := by
  simp only [links, List.mem_filterMap, Option.map_eq_some_iff]

theorem exists_link {joint : Joint} (listed : joint ∈ joints resolver occurrences) :
    ∃ place, joint.link place ∈ links resolver occurrences := by
  obtain ⟨proper, occurrence, present, found⟩ := mem_joints.mp listed
  have same := proper?_eq_some_iff.mpr ⟨proper, found⟩
  exact ⟨occurrence.place, mem_links.mpr ⟨occurrence, present, joint, same, rfl⟩⟩

theorem ids_links :
    (links resolver occurrences).map (·.id)
      = (occurrences.filterMap (·.proper? resolver)).map (·.id) := by
  rw [links, List.map_filterMap, List.map_filterMap]
  refine congrArg (fun pick => occurrences.filterMap pick) (funext fun occurrence => ?_)
  rw [Option.map_map]
  rfl

/-- The joints of a project's occurrences are told apart by their ids. -/
def JointsApart (resolver : ModuleResolver) (occurrences : List Occurrence) : Prop :=
  ∀ first ∈ joints resolver occurrences, ∀ second ∈ joints resolver occurrences,
    first.id = second.id → first = second

/-- The links with the id of a joint are those of its occurrences. -/
theorem withId_links (apart : JointsApart resolver occurrences) {joint : Joint}
    (listed : joint ∈ joints resolver occurrences) :
    Link.withId (links resolver occurrences) joint.id
      = (placesOf resolver occurrences joint).map joint.link := by
  rw [Link.withId, links, List.filter_filterMap, placesOf, List.map_map, ← List.filterMap_eq_map,
    List.filterMap_filter]
  refine List.filterMap_congr fun occurrence present => ?_
  have belongs_iff : occurrence.joint? resolver = some joint
      ↔ occurrence.proper? resolver = some joint := by
    rw [proper?_eq_some_iff, and_iff_right (mem_joints.mp listed).1]
  cases found : occurrence.proper? resolver with
  | none => simp [belongs_iff, found]
  | some other =>
      obtain ⟨proper, belongs⟩ := proper?_eq_some_iff.mp found
      have other_listed := mem_joints.mpr ⟨proper, occurrence, present, belongs⟩
      have id_iff : other.id = joint.id ↔ other = joint :=
        ⟨apart other other_listed joint listed, fun same => by rw [same]⟩
      by_cases same : other = joint <;>
        simp [Option.filter_some, Joint.id_link, belongs_iff, found, id_iff, same]

/-- One dependency is made for each joint that leads to another file. -/
theorem makes_table (apart : JointsApart resolver occurrences) :
    List.Forall₂ (fun joint => joint.Makes (placesOf resolver occurrences joint))
      (joints resolver occurrences)
      (Ordered.values (Link.table (links resolver occurrences))) := by
  have keys_eq : (joints resolver occurrences).map (·.id)
      = Ordered.keys (Link.table (links resolver occurrences)) := by
    rw [Link.table, Link.keys_foldl_addTo, ids_links, joints]
    refine map_foldl_addLast fun first first_mem second second_mem => ?_
    simp only [List.nil_append] at first_mem second_mem
    exact apart first (mem_foldl_addLast.mpr (.inr first_mem)) second
      (mem_foldl_addLast.mpr (.inr second_mem))
  have keyed : List.Forall₂ (fun joint entry => joint.id = entry.1) (joints resolver occurrences)
      (Link.table (links resolver occurrences)) := by
    have same_keys : List.Forall₂ (· = ·) ((joints resolver occurrences).map (·.id))
        (Ordered.keys (Link.table (links resolver occurrences))) := by
      rw [keys_eq]
      exact List.forall₂_same.mpr fun _ _ => rfl
    exact List.forall₂_map_right_iff.mp (List.forall₂_map_left_iff.mp same_keys)
  obtain ⟨lengths, same_ids⟩ := List.forall₂_iff_zip.mp keyed
  refine List.forall₂_map_right_iff.mpr (List.forall₂_iff_zip.mpr ⟨lengths, ?_⟩)
  rintro joint ⟨id, relation⟩ pair
  obtain ⟨listed, entry_mem⟩ := List.of_mem_zip pair
  obtain rfl : joint.id = id := same_ids pair
  have found := Ordered.get?_of_mem (Link.tabulates_table _).nodup entry_mem
  rw [Link.table, Link.get?_foldl_addTo, withId_links apart listed] at found
  have written : placesOf resolver occurrences joint ≠ [] := by
    obtain ⟨occurrence, present, belongs⟩ := (mem_joints.mp listed).2
    exact List.ne_nil_of_mem (List.mem_map.mpr
      ⟨occurrence, List.mem_filter.mpr ⟨present, decide_eq_true belongs⟩, rfl⟩)
  obtain ⟨made, joined, makes⟩ := joint.makes_joinAll written
  exact Option.some.inj (found.symm.trans joined) ▸ makes

end Occurrence

end Modules

end CodeGraph
