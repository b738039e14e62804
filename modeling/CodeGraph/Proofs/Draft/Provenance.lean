import CodeGraph.Proofs.Draft.Entries
import CodeGraph.Proofs.Draft.Integrity
import CodeGraph.Proofs.Draft.PassEdits
import CodeGraph.Proofs.Draft.Places

/-!
# Where elements come from

A program may have files that hold type declarations alone. Their names can be meant, but they
declare nothing, are no modules and have no routes. So every element of a model stands in a file of
the program that holds code, and a classifier belongs to the package of the directory of its file.
Along with its place each element is shown to have an id, and its roles and tags to have names.
-/

namespace CodeGraph

open Syntax Edit

/-! ## Places in code -/

/-- The place is in a file of the program that holds code, and its numbers count from one. -/
structure SourceRef.InCode (program : Program) (place : SourceRef) : Prop where
  listed : place.file ∈ program.paths
  code : isDeclarationPath place.file = false
  counts : place.CountsFromOne

/-- There is a place, and it is in code. -/
def PlacedIn (program : Program) (source : Option SourceRef) : Prop :=
  ∃ place, source = some place ∧ place.InCode program

variable {program : Program}

namespace SourceRef

theorem inCode_of_mem_sources {source : Source} (listed : source ∈ program.sources)
    {place : SourceRef} (file_eq : place.file = source.path) (counts : place.CountsFromOne) :
    place.InCode program := by
  obtain ⟨source_mem, code⟩ := List.mem_filter.mp listed
  exact ⟨file_eq ▸ List.mem_map.mpr ⟨source, source_mem, rfl⟩,
    file_eq ▸ by simpa [Source.isDeclaration] using code, counts⟩

theorem placedIn_place {source : Source} (listed : source ∈ program.sources) (node : Node) :
    PlacedIn program (some (source.place node)) :=
  ⟨_, rfl, inCode_of_mem_sources listed rfl (countsFromOne_place source node)⟩

/-- The first of two places in code is in code. -/
theorem placedIn_earliest {old new : Option SourceRef} (old_placed : PlacedIn program old)
    (new_placed : PlacedIn program new) : PlacedIn program (earliest old new) := by
  obtain ⟨old, rfl, old_code⟩ := old_placed
  obtain ⟨new, rfl, new_code⟩ := new_placed
  rw [earliest]
  split
  · exact ⟨new, rfl, new_code⟩
  · exact ⟨old, rfl, old_code⟩

end SourceRef

theorem IdKey.id_ne_empty {key : IdKey} (named : key.mark ≠ "") : key.id ≠ "" := by
  intro empty
  have chars := congrArg String.toList empty
  rw [id, digestId, String.toList_append] at chars
  exact named (String.toList_eq_nil_iff.mp (List.append_eq_nil_iff.mp chars).1)

/-! ## Sound elements -/

/-- The attribute is in code, plays no role, and its tags have names. -/
structure Attribute.Sound (program : Program) (member : Attribute) : Prop where
  placed : PlacedIn program member.source
  stereotypes_eq : member.stereotypes = []
  tags_named : Tag.Named member.tags

/-- The operation is in code and has neither roles nor tags. -/
structure Operation.Sound (program : Program) (operation : Operation) : Prop where
  placed : PlacedIn program operation.source
  stereotypes_eq : operation.stereotypes = []
  tags_eq : operation.tags = []

/-- The classifier is in code, belongs to the package of its file's directory, and has sound members
and names for all that it has. -/
structure Classifier.Sound (program : Program) (classifier : Classifier) : Prop where
  placed : ∃ place, classifier.source = some place ∧ place.InCode program ∧
    classifier.packageId = some (CodeGraph.packageId (PackageMap.directoryOf place.file))
  id_ne : classifier.id ≠ ""
  attributes_sound : ∀ member ∈ classifier.attributes, member.Sound program
  operations_sound : ∀ operation ∈ classifier.operations, operation.Sound program
  stereotypes_named : ∀ role ∈ classifier.stereotypes, role.name ≠ ""
  tags_named : Tag.Named classifier.tags

/-- The relation is in code and has an id and names for its tags. -/
structure Relation.Sound (program : Program) (relation : Relation) : Prop where
  placed : PlacedIn program relation.source
  id_ne : relation.id ≠ ""
  tags_named : Tag.Named relation.tags

/-! ## Changes of classifiers -/

namespace ClassifierChange

/-- What the change brings in is sound. -/
def Sound (program : Program) : ClassifierChange → Prop
  | .stereotype name => name ≠ ""
  | .tag key _ => key ≠ ""
  | .attribute member => member.Sound program
  | .operation member => member.Sound program
  | .role member mark => member.Sound program ∧ mark.key ≠ ""
  | .binding member tags => member.Sound program ∧ Tag.Named tags

/-- A sound change leaves a classifier sound. -/
theorem sound_apply {classifier : Classifier} (sound : classifier.Sound program)
    {change : ClassifierChange} (change_sound : change.Sound program) :
    (change.apply classifier).Sound program := by
  cases change with
  | stereotype name =>
      rw [apply, Classifier.addStereotype]
      split
      · exact sound
      · exact { sound with
          stereotypes_named := List.forall_mem_append.mpr
            ⟨sound.stereotypes_named, List.forall_mem_singleton.mpr change_sound⟩ }
  | tag key value =>
      exact { sound with tags_named := sound.tags_named.set change_sound value }
  | «attribute» member =>
      rw [apply, Classifier.addAttribute]
      split
      · exact sound
      · exact { sound with
          attributes_sound := List.forall_mem_append.mpr
            ⟨sound.attributes_sound, List.forall_mem_singleton.mpr change_sound⟩ }
  | operation member =>
      rw [apply, Classifier.addOperation]
      split
      · exact sound
      · exact { sound with
          operations_sound := List.forall_mem_append.mpr
            ⟨sound.operations_sound, List.forall_mem_singleton.mpr change_sound⟩ }
  | role member mark =>
      obtain ⟨member_sound, mark_named⟩ := change_sound
      refine { sound with
        attributes_sound := Classifier.forall_updateAttribute sound.attributes_sound member_sound
          fun other other_sound => ?_ }
      have kept : Tag.Named (other.tags.filter (·.key != mark.key)) := fun tag present =>
        other_sound.tags_named tag (List.mem_filter.mp present).1
      exact { other_sound with
        tags_named := kept.append (List.forall_mem_singleton.mpr mark_named) }
  | binding member tags =>
      obtain ⟨member_sound, tags_named⟩ := change_sound
      refine { sound with
        attributes_sound := Classifier.forall_updateAttribute sound.attributes_sound member_sound
          fun other other_sound => ?_ }
      exact { other_sound with tags_named := other_sound.tags_named.foldl_set tags_named }

end ClassifierChange

/-! ## Relations -/

namespace Link

theorem id_ne_empty (link : Link) : link.id ≠ "" :=
  IdKey.id_ne_empty (by simp)

/-- A link that is in code and has names for its tags makes sound relations. -/
theorem sound_toRelation {link : Link} (placed : PlacedIn program link.source)
    (named : Tag.Named link.tags) : link.toRelation.Sound program :=
  ⟨placed, link.id_ne_empty, fun tag present => named tag (Tag.mem_unique.mp present)⟩

theorem sound_merge {link : Link} {relation : Relation} (placed : PlacedIn program link.source)
    (named : Tag.Named link.tags) (sound : relation.Sound program) :
    (relation.merge link).Sound program :=
  ⟨SourceRef.placedIn_earliest sound.placed placed, sound.id_ne,
    fun tag present => (sound.tags_named.append named) tag (Tag.mem_unique.mp present)⟩

end Link

/-! ## Sound drafts -/

/-- The properties that hold throughout a draft of a program. -/
abbrev Edit.KeepsSound (program : Program) : Edit → Prop :=
  Edit.Preserves (fun _ classifier => classifier.Sound program)
    (fun _ relation => relation.Sound program)

namespace Edit

theorem keepsSound_change {id : String} {change : ClassifierChange}
    (sound : change.Sound program) : (Edit.change id change).KeepsSound program :=
  fun _ classifier_sound => ClassifierChange.sound_apply classifier_sound sound

theorem keepsSound_relate {link : Link} (placed : PlacedIn program link.source)
    (named : Tag.Named link.tags) : (Edit.relate link).KeepsSound program :=
  ⟨fun _ => Link.sound_toRelation placed named, fun _ => Link.sound_merge placed named⟩

end Edit

theorem Declaring.Declares.keepsSound {source : Source} {exportedNames : List String}
    {candidate : Candidate} {item : Declared} {edit : Edit}
    (declares : Declares source exportedNames candidate item edit)
    (listed : source ∈ program.sources) : edit.KeepsSound program := by
  cases declares with
  | classifier =>
      obtain ⟨place, place_eq, inCode⟩ := SourceRef.placedIn_place listed candidate.wrapper
      obtain rfl := Option.some.inj place_eq
      exact ⟨⟨_, rfl, inCode, rfl⟩, IdKey.id_ne_empty (by simp), by simp [classifierOf],
        by simp [classifierOf], by simp [classifierOf], by simp [classifierOf, Tag.Named]⟩
  | tag given => exact Edit.keepsSound_change (shapeTag?_isMark item.shape _ given).ne_empty
  | declare => trivial

namespace Edit

variable {declaration : Declaration}

theorem attributeOf_sound (listed : declaration.source ∈ program.sources) (name : String)
    (type : TypeRef) (origin : Node) (traits : Members.AttributeTraits) :
    (Members.attributeOf declaration name type origin traits).Sound program :=
  ⟨SourceRef.placedIn_place listed origin, rfl, by simp [Members.attributeOf, Tag.Named]⟩

theorem MadeFor.keepsSound (listed : declaration.source ∈ program.sources)
    {reader : Draft} {links : RelationKind → List Tag → Prop} {edit : Edit}
    (made : edit.MadeFor reader links declaration) : edit.KeepsSound program := by
  cases made with
  | link _ _ named => exact keepsSound_relate (SourceRef.placedIn_place listed _) named
  | stereotype role => exact keepsSound_change role.ne_empty
  | tag mark => exact keepsSound_change mark.ne_empty
  | «attribute» => exact keepsSound_change (attributeOf_sound listed ..)
  | operation written =>
      obtain ⟨node, source_eq⟩ := written.source_eq
      exact keepsSound_change ⟨source_eq ▸ SourceRef.placedIn_place listed node,
        written.stereotypes_eq, written.tags_eq⟩
  | role named | binding named => exact keepsSound_change ⟨attributeOf_sound listed .., named⟩
  | find | giveUp => trivial

/-- Everything that passes bring in is sound. -/
theorem Made.keepsSound {edit : Edit} (made : edit.Made program) : edit.KeepsSound program := by
  cases made with
  | bind | find | giveUp => trivial
  | declares listed _ one => exact (Declaring.mem_declareEdits.mp one).keepsSound listed
  | ofDeclaration listed made => exact made.keepsSound listed
  | @fileModule source listed =>
      have place_counts : SourceRef.CountsFromOne { file := source.path, line := some 1 } :=
        ⟨by simp, by simp⟩
      exact ⟨⟨_, rfl, SourceRef.inCode_of_mem_sources listed rfl place_counts, rfl⟩,
        IdKey.id_ne_empty (by simp), by simp [Draft.fileModule], by simp [Draft.fileModule],
        by simp [Draft.fileModule], by simp [Draft.fileModule, Tag.Named]⟩
  | @route framework source node _ _ tags listed _ named known =>
      obtain ⟨place, place_eq, inCode⟩ := SourceRef.placedIn_place listed node
      obtain rfl := Option.some.inj place_eq
      refine ⟨⟨_, rfl, inCode, rfl⟩, IdKey.id_ne_empty (by simp), by simp
        [RouteFramework.classifier], by simp [RouteFramework.classifier], ?_, ?_⟩
      · rcases known with rfl | rfl <;> simp [RouteFramework.classifier, RouteFramework.react,
          RouteFramework.angular]
      · exact List.forall_mem_cons.mpr ⟨by simp, named⟩
  | relate listed placed _ named =>
      exact keepsSound_relate (placed ▸ SourceRef.placedIn_place listed _) named
  | stereotype named => exact keepsSound_change named
  | tag mark => exact keepsSound_change mark.ne_empty

end Edit

namespace Draft

/-- Every draft that passes reach has sound elements. -/
theorem runPasses_sound (program : Program) (options : ExtractOptions) (reporting : Bool)
    (passes : List Pass) :
    ((start program options reporting).runPasses passes).Throughout
      (fun _ classifier => classifier.Sound program)
      (fun _ relation => relation.Sound program) := by
  rw [runPasses_eq]
  have made := (start_about program options reporting).runEdits_made passes
  exact made.keeps (fun _ _ all made => all.apply made.keepsSound)
    (start_throughout program options reporting)

end Draft

/-! ## Models -/

/-- Everything in the model stands in files of the program that hold code. -/
structure Model.InCode (program : Program) (model : Model) : Prop where
  /-- A classifier is in code and belongs to the package of its file's directory. -/
  classifiers : ∀ classifier ∈ model.classifiers, ∃ place, classifier.source = some place ∧
    place.InCode program ∧
      classifier.packageId = some (packageId (PackageMap.directoryOf place.file))
  /-- So are its attributes. -/
  attributes : ∀ classifier ∈ model.classifiers, ∀ member ∈ classifier.attributes,
    PlacedIn program member.source
  /-- So are its operations. -/
  operations : ∀ classifier ∈ model.classifiers, ∀ operation ∈ classifier.operations,
    PlacedIn program operation.source
  /-- A relation is written in code. -/
  relations : ∀ relation ∈ model.relations, PlacedIn program relation.source
  /-- A relation joins classifiers of the model. -/
  ends : ∀ relation ∈ model.relations,
    (∃ classifier ∈ model.classifiers, classifier.id = relation.sourceId) ∧
      ∃ classifier ∈ model.classifiers, classifier.id = relation.targetId

namespace Draft

variable {draft : Draft} {ofClassifier : String → Classifier → Prop}
  {ofRelation : String → Relation → Prop}

theorem Throughout.of_mem_classifiers (all : draft.Throughout ofClassifier ofRelation)
    {classifier : Classifier} (present : classifier ∈ draft.toModel.classifiers) :
    ∃ id, ofClassifier id classifier := by
  obtain ⟨⟨id, _⟩, entry_mem, rfl⟩ := List.mem_map.mp present
  exact ⟨id, all.of_classifier id _ entry_mem⟩

theorem Throughout.of_mem_relations (all : draft.Throughout ofClassifier ofRelation)
    {relation : Relation} (present : relation ∈ draft.toModel.relations) :
    ∃ id, ofRelation id relation := by
  obtain ⟨⟨id, _⟩, entry_mem, rfl⟩ := List.mem_map.mp present
  exact ⟨id, all.of_relation id _ entry_mem⟩

/-- Whatever passes run, everything in the model stands in code of the program: nothing is taken
from a file of types or from outside, and nothing leads there. -/
theorem runPasses_inCode (program : Program) (options : ExtractOptions) (reporting : Bool)
    (passes : List Pass) :
    Model.InCode program ((start program options reporting).runPasses passes).toModel := by
  have sound := runPasses_sound program options reporting passes
  have wellFormed := (start_wellFormed program options reporting).runPasses passes
  have classifier_sound : ∀ classifier ∈
      ((start program options reporting).runPasses passes).toModel.classifiers,
      classifier.Sound program :=
    fun classifier present => (sound.of_mem_classifiers present).elim fun _ => id
  refine ⟨fun classifier present => (classifier_sound classifier present).placed, ?_, ?_, ?_, ?_⟩
  · intro classifier present member member_mem
    exact ((classifier_sound classifier present).attributes_sound member member_mem).placed
  · intro classifier present operation operation_mem
    exact ((classifier_sound classifier present).operations_sound operation operation_mem).placed
  · intro relation present
    obtain ⟨_, relation_sound⟩ := sound.of_mem_relations present
    exact relation_sound.placed
  · intro relation present
    obtain ⟨source_mem, target_mem⟩ := wellFormed.intact.relation_ends relation present
    exact ⟨List.mem_map.mp (wellFormed.mem_model_ids source_mem),
      List.mem_map.mp (wellFormed.mem_model_ids target_mem)⟩

end Draft

end CodeGraph
