import CodeGraph.Model.Schema
import CodeGraph.Proofs.Draft.Provenance
import CodeGraph.Proofs.Model.Reading

/-!
# Written models follow the published schema

Every kind of element is written as a record, and a record is accepted if its fields are listed in
the schema and what they hold is accepted. What the schema asks of values is what makes an element
sound: ids, roles and tags have names, and places count from one. Neither the canonical order nor
the writing of an element takes that away.
-/

namespace CodeGraph

open Json (record lookup_cons)

/-! ## What schemas accept -/

namespace JsonSchema

variable {definitions : Definitions} {schema item : JsonSchema}

@[simp]
theorem accepts_text (minLength : Nat) (value : String) :
    (text minLength).accepts definitions (.text value) = decide (minLength ≤ value.length) := by
  rw [accepts]
  rfl

@[simp]
theorem accepts_choice (words : List String) (value : String) :
    (choice words).accepts definitions (.text value) = words.contains value := by
  rw [accepts]
  rfl

@[simp]
theorem accepts_bool (value : Bool) : bool.accepts definitions (.bool value) = true := by
  rw [accepts]
  rfl

@[simp]
theorem accepts_integer (minimum value : Int) :
    (integer minimum).accepts definitions (.int value) = decide (minimum ≤ value) := by
  rw [accepts]
  rfl

theorem acceptsItems_iff {items : List Json} :
    acceptsItems definitions item items = true
      ↔ ∀ value ∈ items, item.accepts definitions value = true := by
  induction items with
  | nil => simp [acceptsItems]
  | cons first items ih => simp [acceptsItems, ih]

theorem acceptsMembers_iff {properties : List (String × JsonSchema)}
    {members : List (String × Json)} :
    acceptsMembers definitions properties members = true
      ↔ ∀ member ∈ members, ∃ part, properties.lookup member.1 = some part ∧
          part.accepts definitions member.2 = true := by
  induction members with
  | nil => simp [acceptsMembers]
  | cons first members ih =>
      obtain ⟨name, value⟩ := first
      rw [acceptsMembers, Bool.and_eq_true, ih, List.forall_mem_cons]
      cases properties.lookup name <;> simp

/-- A list is accepted if its items are. -/
theorem accepts_list (schema : JsonSchema) {items : List Json}
    (resolved : schema.resolve? definitions = some (.list item))
    (accepted : ∀ value ∈ items, item.accepts definitions value = true) :
    schema.accepts definitions (.list items) = true := by
  rw [accepts, resolved]
  exact acceptsItems_iff.mpr accepted

theorem accepts_map (schema : JsonSchema) {α : Type} {write : α → Json} {values : List α}
    (resolved : schema.resolve? definitions = some (.list item))
    (accepted : ∀ value ∈ values, item.accepts definitions (write value) = true) :
    schema.accepts definitions (.list (values.map write)) = true :=
  accepts_list schema resolved (List.forall_mem_map.mpr accepted)

/-- The schema accepts the value of a field, if it has one. -/
def AcceptsField (definitions : Definitions) (schema : JsonSchema) (value : Option Json) : Prop :=
  ∀ json ∈ value, schema.accepts definitions json = true

@[simp]
theorem acceptsField_some {value : Json} :
    schema.AcceptsField definitions (some value) ↔ schema.accepts definitions value = true := by
  simp [AcceptsField]

@[simp]
theorem acceptsField_map {α : Type} {write : α → Json} {value : Option α} :
    schema.AcceptsField definitions (value.map write)
      ↔ ∀ given ∈ value, schema.accepts definitions (write given) = true := by
  cases value <;> simp [AcceptsField]

/-- A record is accepted if its required fields have values, and every field is listed and its value
is accepted, if it has one. -/
theorem accepts_record (fields : List (String × Option Json)) {required : List String}
    {properties : List (String × JsonSchema)}
    (resolved : schema.resolve? definitions = some (.object required properties))
    (given : ∀ name ∈ required, ∃ value, (name, some value) ∈ fields)
    (accepted : ∀ field ∈ fields, ∃ part, properties.lookup field.1 = some part ∧
      part.AcceptsField definitions field.2) :
    schema.accepts definitions (record fields) = true := by
  rw [record, accepts, resolved, Bool.and_eq_true, List.all_eq_true]
  constructor
  · intro name required_mem
    obtain ⟨value, listed⟩ := given name required_mem
    refine Ordered.isSome_get?_iff.mpr ?_
    exact List.mem_map.mpr ⟨(name, value), List.mem_flatMap.mpr ⟨_, listed, .head _⟩, rfl⟩
  · refine acceptsMembers_iff.mpr fun member written => ?_
    obtain ⟨⟨name, value⟩, listed, written⟩ := List.mem_flatMap.mp written
    cases value with
    | none => exact absurd written List.not_mem_nil
    | some value =>
        obtain rfl := List.mem_singleton.mp written
        obtain ⟨part, part_eq, part_accepts⟩ := accepted _ listed
        exact ⟨part, part_eq, part_accepts value rfl⟩

end JsonSchema

open JsonSchema Model

theorem one_le_length {text : String} (named : text ≠ "") : 1 ≤ text.length := by
  rw [Nat.one_le_iff_ne_zero, ← String.length_toList]
  exact fun empty => named (String.toList_eq_nil_iff.mp (List.length_eq_zero_iff.mp empty))

/-! ## Tags, roles and places -/

theorem Tag.accepted {tag : Tag} (named : tag.key ≠ "") :
    (ref "taggedValue").accepts schemaDefinitions tag.toJson = true := by
  refine accepts_record tag.fields rfl (by simp [fields]) ?_
  simp [fields, lookup_cons, one_le_length named]

theorem Tag.Named.accepted {tags : List Tag} (named : Tag.Named tags) :
    (ref "taggedValues").accepts schemaDefinitions (.list (tags.map (·.toJson))) = true :=
  accepts_map _ rfl fun tag present => Tag.accepted (named tag present)

theorem Stereotype.accepted {role : Stereotype} (named : role.name ≠ "") :
    (ref "stereotype").accepts schemaDefinitions role.toJson = true := by
  rw [toJson_eq]
  refine accepts_record _ rfl (by simp [fields]) ?_
  simp [fields, lookup_cons, one_le_length named]

theorem Stereotype.all_accepted {roles : List Stereotype} (named : ∀ role ∈ roles, role.name ≠ "") :
    (ref "stereotypes").accepts schemaDefinitions (.list (roles.map (·.toJson))) = true :=
  accepts_map _ rfl fun role present => accepted (named role present)

theorem SourceRef.CountsFromOne.accepted {place : SourceRef} (counts : place.CountsFromOne) :
    (ref "sourceRef").accepts schemaDefinitions place.toJson = true := by
  rw [SourceRef.toJson_eq]
  refine accepts_record _ rfl (by simp [SourceRef.fields]) ?_
  simpa [SourceRef.fields, lookup_cons] using ⟨counts.line_pos, counts.col_pos⟩

/-- No line has the number zero. -/
example : (ref "sourceRef").accepts schemaDefinitions
    (SourceRef.toJson { file := "home.ts", line := some 0 }) = false := by
  decide

theorem PlacedIn.accepted {program : Program} {source : Option SourceRef}
    (placed : PlacedIn program source) :
    ∀ place ∈ source, (ref "sourceRef").accepts schemaDefinitions place.toJson = true := by
  obtain ⟨place, rfl, inCode⟩ := placed
  rintro _ ⟨⟩
  exact inCode.counts.accepted

theorem Visibility.accepted (visibility : Visibility) :
    (ref "visibility").accepts schemaDefinitions (.text visibility.label) = true := by
  cases visibility <;> rfl

/-! ## Types and parameters -/

namespace TypeRef

mutual

theorem accepted : ∀ reference : TypeRef,
    (ref "typeRef").accepts schemaDefinitions reference.toJson = true
  | .mk kind name arguments element => by
      have arguments_accepted :=
        accepts_list (list (ref "typeRef")) rfl (all_accepted arguments)
      have element_accepted := option_accepted element
      rw [toJson_eq]
      refine accepts_record _ rfl (by simp [fields]) ?_
      simpa [fields, lookup_cons, arguments_accepted, element_accepted]
        using (by cases kind <;> simp [TypeRefKind.label])

theorem all_accepted : ∀ references : List TypeRef, ∀ item ∈ allToJson references,
    (ref "typeRef").accepts schemaDefinitions item = true
  | [], item, listed => absurd listed List.not_mem_nil
  | reference :: references, item, listed => by
      rcases List.mem_cons.mp listed with rfl | later
      · exact accepted reference
      · exact all_accepted references item later

theorem option_accepted : ∀ element : Option TypeRef,
    (ref "typeRef").AcceptsField schemaDefinitions (optionToJson element)
  | none, _, written => nomatch written
  | some element, _, rfl => accepted element

end

end TypeRef

theorem Parameter.accepted (parameter : Parameter) :
    (ref "parameter").accepts schemaDefinitions parameter.toJson = true := by
  refine accepts_record parameter.fields rfl (by simp [fields]) ?_
  simp [fields, lookup_cons, TypeRef.accepted]

/-! ## Elements of a model -/

section Elements

variable {program : Program} {member : Attribute} {operation : Operation}
  {classifier : Classifier} {relation : Relation}

theorem Attribute.Sound.accepted (sound : member.Sound program) :
    (ref "attribute").accepts schemaDefinitions member.toJson = true := by
  have roles_named : ∀ role ∈ member.stereotypes, role.name ≠ "" := by
    simp [sound.stereotypes_eq]
  rw [toJson_eq]
  refine accepts_record _ rfl (by simp [fields]) ?_
  simpa [fields, lookup_cons, TypeRef.accepted, Visibility.accepted,
    Stereotype.all_accepted roles_named, sound.tags_named.accepted] using sound.placed.accepted

theorem Operation.Sound.accepted (sound : operation.Sound program) :
    (ref "operation").accepts schemaDefinitions operation.toJson = true := by
  have roles_named : ∀ role ∈ operation.stereotypes, role.name ≠ "" := by
    simp [sound.stereotypes_eq]
  have tags_named : Tag.Named operation.tags := by simp [sound.tags_eq, Tag.Named]
  have parameters_accepted := accepts_map (list (ref "parameter")) rfl
    fun parameter (_ : parameter ∈ operation.parameters) => parameter.accepted
  rw [toJson_eq]
  refine accepts_record _ rfl (by simp [fields]) ?_
  simpa [fields, lookup_cons, TypeRef.accepted, Visibility.accepted,
    Stereotype.all_accepted roles_named, tags_named.accepted, parameters_accepted]
    using sound.placed.accepted

theorem Classifier.Sound.accepted (sound : classifier.Sound program) :
    (ref "classifier").accepts schemaDefinitions classifier.toJson = true := by
  obtain ⟨place, place_eq, inCode, _⟩ := sound.placed
  have placed : PlacedIn program classifier.source := ⟨place, place_eq, inCode⟩
  have attributes_accepted := accepts_map (list (ref "attribute")) rfl
    fun member present => (sound.attributes_sound member present).accepted
  have operations_accepted := accepts_map (list (ref "operation")) rfl
    fun operation present => (sound.operations_sound operation present).accepted
  rw [toJson_eq]
  refine accepts_record _ rfl (by simp [fields]) ?_
  simpa [fields, lookup_cons, one_le_length sound.id_ne, Visibility.accepted, attributes_accepted,
    operations_accepted, Stereotype.all_accepted sound.stereotypes_named,
    sound.tags_named.accepted]
    using ⟨by cases classifier.kind <;> simp [ClassifierKind.label], placed.accepted⟩

theorem Relation.Sound.accepted (sound : relation.Sound program) :
    (ref "relation").accepts schemaDefinitions relation.toJson = true := by
  rw [toJson_eq]
  refine accepts_record _ rfl (by simp [fields]) ?_
  simpa [fields, lookup_cons, one_le_length sound.id_ne, sound.tags_named.accepted]
    using ⟨by cases relation.kind <;> simp [RelationKind.label], sound.placed.accepted⟩

end Elements

/-! ## The canonical order -/

theorem Tag.Named.canonical {tags : List Tag} (named : Tag.Named tags) :
    Tag.Named (Tag.canonical tags) :=
  fun tag present => named tag ((mem_sortOn ..).mp present)

section Canonical

variable {program : Program} {member : Attribute} {operation : Operation}
  {classifier : Classifier} {relation : Relation}

theorem Attribute.Sound.canonical (sound : member.Sound program) :
    member.canonical.Sound program where
  placed := sound.placed
  stereotypes_eq := by
    simp [Attribute.canonical, sound.stereotypes_eq, Stereotype.canonical, sortOn]
  tags_named := sound.tags_named.canonical

theorem Operation.Sound.canonical (sound : operation.Sound program) :
    operation.canonical.Sound program where
  placed := sound.placed
  stereotypes_eq := by
    simp [Operation.canonical, sound.stereotypes_eq, Stereotype.canonical, sortOn]
  tags_eq := by simp [Operation.canonical, sound.tags_eq, Tag.canonical, sortOn]

theorem Classifier.Sound.canonical (sound : classifier.Sound program) :
    classifier.canonical.Sound program where
  placed := sound.placed
  id_ne := sound.id_ne
  attributes_sound member present := by
    obtain ⟨member, member_mem, rfl⟩ := List.mem_map.mp ((mem_sortOn ..).mp present)
    exact (sound.attributes_sound member member_mem).canonical
  operations_sound operation present := by
    obtain ⟨operation, operation_mem, rfl⟩ := List.mem_map.mp ((mem_sortOn ..).mp present)
    exact (sound.operations_sound operation operation_mem).canonical
  stereotypes_named role present := sound.stereotypes_named role ((mem_sortOn ..).mp present)
  tags_named := sound.tags_named.canonical

theorem Relation.Sound.canonical (sound : relation.Sound program) :
    relation.canonical.Sound program where
  placed := sound.placed
  id_ne := sound.id_ne
  tags_named := sound.tags_named.canonical

end Canonical

/-! ## Models -/

/-- Everything in the model is sound, and the model has the version of the schema. -/
structure Model.Sound (program : Program) (model : Model) : Prop where
  version : model.schemaVersion = "1.0"
  packages_named : ∀ package ∈ model.packages, package.id ≠ "" ∧ package.tags = []
  classifiers_sound : ∀ classifier ∈ model.classifiers, classifier.Sound program
  relations_sound : ∀ relation ∈ model.relations, relation.Sound program
  tags_eq : model.tags = []

theorem Package.accepted {package : Package} (named : package.id ≠ "")
    (tags_eq : package.tags = []) :
    (ref "package").accepts schemaDefinitions package.toJson = true := by
  have tags_named : Tag.Named package.tags := by simp [tags_eq, Tag.Named]
  rw [toJson_eq]
  refine accepts_record _ rfl (by simp [fields]) ?_
  simp [fields, lookup_cons, one_le_length named, tags_named.accepted]

namespace Model

variable {program : Program} {model : Model}

theorem Sound.canonical (sound : model.Sound program) : model.canonical.Sound program where
  version := sound.version
  packages_named package present := by
    obtain ⟨package, package_mem, rfl⟩ := List.mem_map.mp ((mem_sortOn ..).mp present)
    obtain ⟨named, tags_eq⟩ := sound.packages_named package package_mem
    exact ⟨named, by simp [Package.canonical, tags_eq, Tag.canonical, sortOn]⟩
  classifiers_sound classifier present := by
    obtain ⟨classifier, classifier_mem, rfl⟩ := List.mem_map.mp ((mem_sortOn ..).mp present)
    exact (sound.classifiers_sound classifier classifier_mem).canonical
  relations_sound relation present := by
    obtain ⟨relation, relation_mem, rfl⟩ := List.mem_map.mp ((mem_sortOn ..).mp present)
    exact (sound.relations_sound relation relation_mem).canonical
  tags_eq := by simp [Model.canonical, sound.tags_eq, Tag.canonical, sortOn]

theorem Sound.followsSchema (sound : model.Sound program) :
    Model.followsSchema model.toJson = true := by
  have packages_accepted := accepts_map (list (ref "package")) rfl
    fun package present =>
      Package.accepted (sound.packages_named package present).1
        (sound.packages_named package present).2
  have classifiers_accepted := accepts_map (list (ref "classifier")) rfl
    fun classifier present => (sound.classifiers_sound classifier present).accepted
  have relations_accepted := accepts_map (list (ref "relation")) rfl
    fun relation present => (sound.relations_sound relation present).accepted
  have tags_named : Tag.Named model.tags := by simp [sound.tags_eq, Tag.Named]
  refine accepts_record model.fields rfl (by simp [fields]) ?_
  simp [fields, lookup_cons, sound.version, packages_accepted, classifiers_accepted,
    relations_accepted, tags_named.accepted]

end Model

namespace Draft

theorem untagged_apply {draft : Draft} (untagged : draft.packages.Untagged) (edit : Edit) :
    (draft.apply edit).packages.Untagged := by
  rw [packages_apply]
  cases edit.file? with
  | none => exact untagged
  | some file => exact untagged.ensureFile file

/-- Whatever passes run, everything in the model is sound. -/
theorem runPasses_model_sound (program : Program) (options : ExtractOptions) (reporting : Bool)
    (passes : List Pass) :
    Model.Sound program ((start program options reporting).runPasses passes).toModel := by
  have sound := runPasses_sound program options reporting passes
  have wellFormed := (start_wellFormed program options reporting).runPasses passes
  have untagged : ((start program options reporting).runPasses passes).packages.Untagged := by
    rw [runPasses_eq]
    exact List.foldlRecOn (motive := fun draft : Draft => draft.packages.Untagged) _ _
      (PackageMap.untagged_ofFiles program.paths)
      fun _ untagged edit _ => untagged_apply untagged edit
  refine ⟨rfl, fun package present => ?_, fun classifier present => ?_,
    fun relation present => ?_, rfl⟩
  · obtain ⟨⟨directory, _⟩, entry_mem, rfl⟩ := List.mem_map.mp present
    have id_eq := wellFormed.packages_closed.id_eq directory _ entry_mem
    exact ⟨id_eq ▸ IdKey.id_ne_empty (by simp), untagged _ entry_mem⟩
  · exact (sound.of_mem_classifiers present).elim fun _ => id
  · exact (sound.of_mem_relations present).elim fun _ => id

/-- Whatever passes run, the written model follows the published schema. -/
theorem runPasses_followsSchema (program : Program) (options : ExtractOptions) (reporting : Bool)
    (passes : List Pass) :
    Model.followsSchema
      (((start program options reporting).runPasses passes).toModel.document false) = true :=
  (runPasses_model_sound program options reporting passes).canonical.followsSchema

end Draft

end CodeGraph
