import CodeGraph.Proofs.Json.Record
import CodeGraph.Proofs.Model.Canonical

/-!
# A written model is read back

The text of a model determines its canonical form. Every kind of element is written as a record
that is read back whatever the order of its members, so a text is read back as the canonical model
it was written from, and models with the same text have the same canonical form.
-/

namespace CodeGraph

open Json (RoundTrip record)

/-! ## Names of kinds -/

theorem TypeRefKind.ofLabel?_label (kind : TypeRefKind) : ofLabel? kind.label = some kind := by
  cases kind <;> rfl

theorem ClassifierKind.ofLabel?_label (kind : ClassifierKind) :
    ofLabel? kind.label = some kind := by
  cases kind <;> rfl

theorem RelationKind.ofLabel?_label (kind : RelationKind) : ofLabel? kind.label = some kind := by
  cases kind <;> rfl

theorem Visibility.ofLabel?_label (visibility : Visibility) :
    ofLabel? visibility.label = some visibility := by
  cases visibility <;> rfl

theorem Visibility.ofElement?_record {fields : List (String × Option Json)}
    (names : (fields.map (·.1)).Nodup) (visibility : Option Visibility)
    (listed : ("visibility", visibility.map fun value => .text value.label) ∈ fields) :
    ofElement? (record fields).sorted = visibility := by
  replace listed : ("visibility", (visibility.map label).map .text) ∈ fields := by
    rwa [Option.map_map]
  rw [ofElement?, Json.fieldText?_record names _ _ listed]
  cases visibility with
  | none => rfl
  | some visibility => exact ofLabel?_label visibility

/-! ## Tags, roles and places -/

namespace Tag

/-- The fields of a tag. -/
def fields (tag : Tag) : List (String × Option Json) :=
  [("key", some (.text tag.key)), ("value", some (.text tag.value))]

theorem roundTrip : RoundTrip toJson ofJson? := by
  have names (tag : Tag) : (tag.fields.map (·.1)).Nodup := by simp [fields]
  refine .of_record (fun tag => rfl) names (fun tag => by simp [fields]) fun tag => ?_
  rw [ofJson?, Json.fieldText?_record (names tag) "key" (some tag.key) (by simp [fields]),
    Json.fieldText?_record (names tag) "value" (some tag.value) (by simp [fields])]
  rfl

end Tag

namespace Stereotype

/-- The fields of a role. -/
def fields (role : Stereotype) : List (String × Option Json) :=
  [("name", some (.text role.name)), ("qualifiedName", role.qualifiedName.map .text)]

theorem toJson_eq (role : Stereotype) : role.toJson = record role.fields := by
  simp [toJson, record, fields, Json.present, Json.optional]

theorem roundTrip : RoundTrip toJson ofJson? := by
  have names (role : Stereotype) : (role.fields.map (·.1)).Nodup := by simp [fields]
  refine .of_record toJson_eq names (fun role => by simp [fields]) fun role => ?_
  rw [ofJson?, Json.fieldText?_record (names role) "name" (some role.name) (by simp [fields]),
    Json.fieldText?_record (names role) "qualifiedName" role.qualifiedName (by simp [fields])]
  rfl

end Stereotype

namespace SourceRef

/-- The fields of a place. -/
def fields (place : SourceRef) : List (String × Option Json) :=
  [("file", some (.text place.file)), ("line", place.line.map .int), ("col", place.col.map .int)]

theorem toJson_eq (place : SourceRef) : place.toJson = record place.fields := by
  simp [toJson, record, fields, Json.present, Json.optional]

theorem roundTrip : RoundTrip toJson ofJson? := by
  have names (place : SourceRef) : (place.fields.map (·.1)).Nodup := by simp [fields]
  refine .of_record toJson_eq names (fun place => by simp [fields]) fun place => ?_
  rw [ofJson?, Json.fieldText?_record (names place) "file" (some place.file) (by simp [fields]),
    Json.fieldInt?_record (names place) "line" place.line (by simp [fields]),
    Json.fieldInt?_record (names place) "col" place.col (by simp [fields])]
  rfl

end SourceRef

/-! ## Type references -/

namespace TypeRef

/-- The fields of a reference to a type. -/
def fields : TypeRef → List (String × Option Json)
  | .mk kind name arguments element =>
      [("kind", some (.text kind.label)), ("name", name.map .text),
        ("typeArgs", some (.list (allToJson arguments))), ("elementType", optionToJson element)]

theorem toJson_eq (reference : TypeRef) : reference.toJson = record reference.fields := by
  obtain ⟨kind, name, arguments, element⟩ := reference
  simp [toJson, record, fields, Json.present, Json.optional]

theorem names_fields (reference : TypeRef) : (reference.fields.map (·.1)).Nodup := by
  obtain ⟨kind, name, arguments, element⟩ := reference
  simp [fields]

/-- The arguments that a member gives. -/
def argumentsOf? : Option Json → Option (List TypeRef)
  | some (.list items) => allOfJson? items
  | _ => some []

/-- The element type that a member gives. -/
def elementOf? : Option Json → Option (Option TypeRef)
  | none => some none
  | some .null => some none
  | some (.object members) => (ofJson? (.object members)).map some
  | some _ => none

/-- Arguments and element type are read from the members of these names, wherever they stand. -/
theorem partsOf?_eq {members : List (String × Json)} (names : (members.map (·.1)).Nodup) :
    partsOf? members = do
      let arguments ← argumentsOf? (members.lookup "typeArgs")
      let element ← elementOf? (members.lookup "elementType")
      return (arguments, element) := by
  induction members with
  | nil => simp [partsOf?, argumentsOf?, elementOf?]
  | cons member members ih =>
      obtain ⟨name, value⟩ := member
      obtain ⟨fresh, names⟩ := List.nodup_cons.mp names
      have absent : members.lookup name = none := Json.lookup_eq_none fresh
      -- What the members behind this one give is kept unless this one has the name in question.
      rw [partsOf?, ih names, Json.lookup_cons, Json.lookup_cons]
      by_cases argument : name = "typeArgs"
      · subst argument
        rw [absent]
        have no_element : ¬ "elementType" = "typeArgs" := by decide
        simp only [beq_self_eq_true, ↓reduceIte, no_element]
        cases elementOf? (members.lookup "elementType") with
        | none => cases argumentsOf? (some value) <;> rfl
        | some element => cases value <;> simp [argumentsOf?]
      · by_cases element : name = "elementType"
        · subst element
          rw [absent]
          have no_arguments : ¬ "typeArgs" = "elementType" := by decide
          simp only [beq_iff_eq, argument, no_arguments, ↓reduceIte]
          cases argumentsOf? (members.lookup "typeArgs") with
          | none => rfl
          | some arguments =>
              cases value with
              | object entries =>
                  cases read : ofJson? (.object entries) <;> simp [elementOf?, read]
              | null | bool | int | real | text | list => rfl
        · have first : ¬ "typeArgs" = name := Ne.symm argument
          have second : ¬ "elementType" = name := Ne.symm element
          simp only [beq_iff_eq, argument, element, first, second, if_false]
          cases argumentsOf? _ <;> cases elementOf? _ <;> rfl

/-- A sorted reference is read from its members one by one. -/
theorem ofJson?_sorted_record (kind : TypeRefKind) (name : Option String)
    (arguments : List TypeRef) (element : Option TypeRef) :
    ofJson? (record (fields (.mk kind name arguments element))).sorted = do
      let arguments ← allOfJson? ((allToJson arguments).map Json.sorted)
      let element ← elementOf? ((optionToJson element).map Json.sorted)
      return .mk kind name arguments element := by
  have names := names_fields (.mk kind name arguments element)
  have found (field : String) {value : Option Json}
      (listed : (field, value) ∈ fields (.mk kind name arguments element)) :=
    Json.lookup_sorted_present names listed
  have sorted_names := Json.names_sorted (names.sublist (Json.names_present _))
  rw [record, Json.sorted, ofJson?, partsOf?_eq sorted_names, found "kind" (.head _),
    found "name" (.tail _ (.head _)), found "typeArgs" (.tail _ (.tail _ (.head _))),
    found "elementType" (.tail _ (.tail _ (.tail _ (.head _))))]
  have kind_read : ((some (Json.text kind.label)).map Json.sorted).bind Json.text?
      = some kind.label := rfl
  have name_read : ((name.map Json.text).map Json.sorted).bind Json.text? = name := by
    cases name <;> rfl
  rw [kind_read, name_read, Option.bind_some, TypeRefKind.ofLabel?_label, Option.map_some,
    Json.sorted, argumentsOf?, Json.sortedItems_eq_map]
  cases allOfJson? _ <;> cases elementOf? _ <;> rfl

mutual

/-- A reference is read back. -/
theorem ofJson?_sorted_toJson : ∀ reference : TypeRef,
    ofJson? reference.toJson.sorted = some reference
  | .mk kind name arguments element => by
      rw [toJson_eq, ofJson?_sorted_record, allOfJson?_map_sorted arguments,
        elementOf?_map_sorted element]
      rfl

/-- References are read back. -/
theorem allOfJson?_map_sorted : ∀ references : List TypeRef,
    allOfJson? ((allToJson references).map Json.sorted) = some references
  | [] => rfl
  | reference :: references => by
      rw [allToJson, List.map_cons, allOfJson?, ofJson?_sorted_toJson reference,
        allOfJson?_map_sorted references]
      rfl

/-- An element type is read back. -/
theorem elementOf?_map_sorted : ∀ element : Option TypeRef,
    elementOf? ((optionToJson element).map Json.sorted) = some element
  | none => rfl
  | some element => by
      have read := ofJson?_sorted_toJson element
      rw [optionToJson, Option.map_some]
      rw [toJson_eq, record, Json.sorted] at read ⊢
      rw [elementOf?, read]
      rfl

end

mutual

theorem plain_toJson : ∀ reference : TypeRef, reference.toJson.Plain
  | .mk kind name arguments element => by
      have arguments_plain := plain_allToJson arguments
      have element_plain := plain_optionToJson element
      rw [toJson_eq]
      refine Json.plain_record (names_fields _) ?_
      simpa [fields] using ⟨.list arguments_plain, element_plain⟩

theorem plain_allToJson : ∀ references : List TypeRef, ∀ item ∈ allToJson references, item.Plain
  | [], item, listed => absurd listed List.not_mem_nil
  | reference :: references, item, listed => by
      rcases List.mem_cons.mp listed with rfl | later
      · exact plain_toJson reference
      · exact plain_allToJson references item later

theorem plain_optionToJson : ∀ element : Option TypeRef, Json.PlainField (optionToJson element)
  | none, _, written => nomatch written
  | some element, _, rfl => plain_toJson element

end

theorem roundTrip : RoundTrip toJson ofJson? where
  plain := plain_toJson
  not_null reference := by simp [toJson_eq, record]
  read_write := ofJson?_sorted_toJson

end TypeRef

/-! ## Members -/

namespace Parameter

/-- The fields of a parameter. -/
def fields (parameter : Parameter) : List (String × Option Json) :=
  [("name", some (.text parameter.name)), ("type", some parameter.type.toJson)]

theorem roundTrip : RoundTrip toJson ofJson? := by
  have names (parameter : Parameter) : (parameter.fields.map (·.1)).Nodup := by simp [fields]
  refine .of_record (fun parameter => rfl) names
    (fun parameter => by simp [fields, TypeRef.plain_toJson]) fun parameter => ?_
  rw [ofJson?,
    Json.fieldText?_record (names parameter) "name" (some parameter.name) (by simp [fields]),
    TypeRef.roundTrip.bind_field? (names parameter) "type" (some parameter.type) (by simp [fields])]
  rfl

end Parameter

namespace Attribute

/-- The fields of an attribute. -/
def fields (member : Attribute) : List (String × Option Json) :=
  [("name", some (.text member.name)), ("type", some member.type.toJson),
    ("id", member.id.map .text),
    ("visibility", member.visibility.map fun value => .text value.label),
    ("isStatic", member.isStatic.map .bool), ("isFinal", member.isFinal.map .bool),
    ("stereotypes", some (.list (member.stereotypes.map (·.toJson)))),
    ("taggedValues", some (.list (member.tags.map (·.toJson)))),
    ("source", member.source.map (·.toJson))]

theorem toJson_eq (member : Attribute) : member.toJson = record member.fields := by
  simp [toJson, record, fields, Json.present, Json.optional]

theorem plain_fields (member : Attribute) :
    ∀ field ∈ member.fields, Json.PlainField field.2 := by
  simp [fields, TypeRef.plain_toJson, Stereotype.roundTrip.plain_list, Tag.roundTrip.plain_list,
    SourceRef.roundTrip.plain]

theorem roundTrip : RoundTrip toJson ofJson? := by
  have names (member : Attribute) : (member.fields.map (·.1)).Nodup := by simp [fields]
  refine .of_record toJson_eq names plain_fields fun member => ?_
  rw [ofJson?, Json.fieldText?_record (names member) "name" (some member.name) (by simp [fields]),
    TypeRef.roundTrip.bind_field? (names member) "type" (some member.type) (by simp [fields]),
    Json.fieldText?_record (names member) "id" member.id (by simp [fields]),
    Visibility.ofElement?_record (names member) member.visibility (by simp [fields]),
    Json.fieldBool?_record (names member) "isStatic" member.isStatic (by simp [fields]),
    Json.fieldBool?_record (names member) "isFinal" member.isFinal (by simp [fields]),
    Stereotype.roundTrip.mapM_fieldItems (names member) "stereotypes" member.stereotypes
      (by simp [fields]),
    Tag.roundTrip.mapM_fieldItems (names member) "taggedValues" member.tags (by simp [fields]),
    SourceRef.roundTrip.bind_field? (names member) "source" member.source (by simp [fields])]
  rfl

end Attribute

namespace Operation

/-- The fields of an operation. -/
def fields (operation : Operation) : List (String × Option Json) :=
  [("name", some (.text operation.name)), ("returnType", some operation.returnType.toJson),
    ("id", operation.id.map .text),
    ("parameters", some (.list (operation.parameters.map (·.toJson)))),
    ("visibility", operation.visibility.map fun value => .text value.label),
    ("isStatic", operation.isStatic.map .bool), ("isAbstract", operation.isAbstract.map .bool),
    ("isConstructor", operation.isConstructor.map .bool),
    ("stereotypes", some (.list (operation.stereotypes.map (·.toJson)))),
    ("taggedValues", some (.list (operation.tags.map (·.toJson)))),
    ("source", operation.source.map (·.toJson))]

theorem toJson_eq (operation : Operation) : operation.toJson = record operation.fields := by
  simp [toJson, record, fields, Json.present, Json.optional]

theorem plain_fields (operation : Operation) :
    ∀ field ∈ operation.fields, Json.PlainField field.2 := by
  simp [fields, TypeRef.plain_toJson, Parameter.roundTrip.plain_list,
    Stereotype.roundTrip.plain_list, Tag.roundTrip.plain_list, SourceRef.roundTrip.plain]

theorem roundTrip : RoundTrip toJson ofJson? := by
  have names (operation : Operation) : (operation.fields.map (·.1)).Nodup := by simp [fields]
  refine .of_record toJson_eq names plain_fields fun operation => ?_
  have apart := names operation
  rw [ofJson?, Json.fieldText?_record apart "name" (some operation.name) (by simp [fields]),
    TypeRef.roundTrip.bind_field? apart "returnType" (some operation.returnType)
      (by simp [fields]),
    Json.fieldText?_record apart "id" operation.id (by simp [fields]),
    Parameter.roundTrip.mapM_fieldItems apart "parameters" operation.parameters
      (by simp [fields]),
    Visibility.ofElement?_record apart operation.visibility (by simp [fields]),
    Json.fieldBool?_record apart "isStatic" operation.isStatic (by simp [fields]),
    Json.fieldBool?_record apart "isAbstract" operation.isAbstract (by simp [fields]),
    Json.fieldBool?_record apart "isConstructor" operation.isConstructor (by simp [fields]),
    Stereotype.roundTrip.mapM_fieldItems apart "stereotypes" operation.stereotypes
      (by simp [fields]),
    Tag.roundTrip.mapM_fieldItems apart "taggedValues" operation.tags (by simp [fields]),
    SourceRef.roundTrip.bind_field? apart "source" operation.source (by simp [fields])]
  rfl

end Operation

/-! ## Elements of a model -/

namespace Classifier

/-- The fields of a classifier. -/
def fields (classifier : Classifier) : List (String × Option Json) :=
  [("id", some (.text classifier.id)), ("name", some (.text classifier.name)),
    ("kind", some (.text classifier.kind.label)),
    ("qualifiedName", classifier.qualifiedName.map .text),
    ("packageId", classifier.packageId.map .text),
    ("visibility", classifier.visibility.map fun value => .text value.label),
    ("attributes", some (.list (classifier.attributes.map (·.toJson)))),
    ("operations", some (.list (classifier.operations.map (·.toJson)))),
    ("stereotypes", some (.list (classifier.stereotypes.map (·.toJson)))),
    ("taggedValues", some (.list (classifier.tags.map (·.toJson)))),
    ("source", classifier.source.map (·.toJson))]

theorem toJson_eq (classifier : Classifier) : classifier.toJson = record classifier.fields := by
  simp [toJson, record, fields, Json.present, Json.optional]

theorem plain_fields (classifier : Classifier) :
    ∀ field ∈ classifier.fields, Json.PlainField field.2 := by
  simp [fields, Attribute.roundTrip.plain_list, Operation.roundTrip.plain_list,
    Stereotype.roundTrip.plain_list, Tag.roundTrip.plain_list, SourceRef.roundTrip.plain]

theorem roundTrip : RoundTrip toJson ofJson? := by
  have names (classifier : Classifier) : (classifier.fields.map (·.1)).Nodup := by simp [fields]
  refine .of_record toJson_eq names plain_fields fun classifier => ?_
  have apart := names classifier
  rw [ofJson?, Json.fieldText?_record apart "id" (some classifier.id) (by simp [fields]),
    Json.fieldText?_record apart "name" (some classifier.name) (by simp [fields]),
    Json.fieldText?_record apart "kind" (some classifier.kind.label) (by simp [fields]),
    Json.fieldText?_record apart "qualifiedName" classifier.qualifiedName (by simp [fields]),
    Json.fieldText?_record apart "packageId" classifier.packageId (by simp [fields]),
    Visibility.ofElement?_record apart classifier.visibility (by simp [fields]),
    Attribute.roundTrip.mapM_fieldItems apart "attributes" classifier.attributes
      (by simp [fields]),
    Operation.roundTrip.mapM_fieldItems apart "operations" classifier.operations
      (by simp [fields]),
    Stereotype.roundTrip.mapM_fieldItems apart "stereotypes" classifier.stereotypes
      (by simp [fields]),
    Tag.roundTrip.mapM_fieldItems apart "taggedValues" classifier.tags (by simp [fields]),
    SourceRef.roundTrip.bind_field? apart "source" classifier.source (by simp [fields]),
    Option.bind_some, ClassifierKind.ofLabel?_label]
  rfl

end Classifier

namespace Package

/-- The fields of a package. -/
def fields (package : Package) : List (String × Option Json) :=
  [("id", some (.text package.id)), ("name", some (.text package.name)),
    ("qualifiedName", package.qualifiedName.map .text),
    ("parentId", package.parentId.map .text),
    ("taggedValues", some (.list (package.tags.map (·.toJson))))]

theorem toJson_eq (package : Package) : package.toJson = record package.fields := by
  simp [toJson, record, fields, Json.present, Json.optional]

theorem plain_fields (package : Package) :
    ∀ field ∈ package.fields, Json.PlainField field.2 := by
  simp [fields, Tag.roundTrip.plain_list]

theorem roundTrip : RoundTrip toJson ofJson? := by
  have names (package : Package) : (package.fields.map (·.1)).Nodup := by simp [fields]
  refine .of_record toJson_eq names plain_fields fun package => ?_
  have apart := names package
  rw [ofJson?, Json.fieldText?_record apart "id" (some package.id) (by simp [fields]),
    Json.fieldText?_record apart "name" (some package.name) (by simp [fields]),
    Json.fieldText?_record apart "qualifiedName" package.qualifiedName (by simp [fields]),
    Json.fieldText?_record apart "parentId" package.parentId (by simp [fields]),
    Tag.roundTrip.mapM_fieldItems apart "taggedValues" package.tags (by simp [fields])]
  rfl

end Package

namespace Relation

/-- The fields of a relation. -/
def fields (relation : Relation) : List (String × Option Json) :=
  [("id", some (.text relation.id)), ("kind", some (.text relation.kind.label)),
    ("sourceId", some (.text relation.sourceId)), ("targetId", some (.text relation.targetId)),
    ("name", relation.name.map .text),
    ("taggedValues", some (.list (relation.tags.map (·.toJson)))),
    ("source", relation.source.map (·.toJson))]

theorem toJson_eq (relation : Relation) : relation.toJson = record relation.fields := by
  simp [toJson, record, fields, Json.present, Json.optional]

theorem plain_fields (relation : Relation) :
    ∀ field ∈ relation.fields, Json.PlainField field.2 := by
  simp [fields, Tag.roundTrip.plain_list, SourceRef.roundTrip.plain]

theorem roundTrip : RoundTrip toJson ofJson? := by
  have names (relation : Relation) : (relation.fields.map (·.1)).Nodup := by simp [fields]
  refine .of_record toJson_eq names plain_fields fun relation => ?_
  have apart := names relation
  rw [ofJson?, Json.fieldText?_record apart "id" (some relation.id) (by simp [fields]),
    Json.fieldText?_record apart "kind" (some relation.kind.label) (by simp [fields]),
    Json.fieldText?_record apart "sourceId" (some relation.sourceId) (by simp [fields]),
    Json.fieldText?_record apart "targetId" (some relation.targetId) (by simp [fields]),
    Json.fieldText?_record apart "name" relation.name (by simp [fields]),
    Tag.roundTrip.mapM_fieldItems apart "taggedValues" relation.tags (by simp [fields]),
    SourceRef.roundTrip.bind_field? apart "source" relation.source (by simp [fields]),
    Option.bind_some, RelationKind.ofLabel?_label]
  rfl

end Relation

/-! ## Models -/

namespace Model

/-- The fields of a model. -/
def fields (model : Model) : List (String × Option Json) :=
  [("schemaVersion", some (.text model.schemaVersion)),
    ("packages", some (.list (model.packages.map (·.toJson)))),
    ("classifiers", some (.list (model.classifiers.map (·.toJson)))),
    ("relations", some (.list (model.relations.map (·.toJson)))),
    ("taggedValues", some (.list (model.tags.map (·.toJson))))]

theorem plain_fields (model : Model) : ∀ field ∈ model.fields, Json.PlainField field.2 := by
  simp [fields, Package.roundTrip.plain_list, Classifier.roundTrip.plain_list,
    Relation.roundTrip.plain_list, Tag.roundTrip.plain_list]

theorem roundTrip : RoundTrip toJson ofJson? := by
  have names (model : Model) : (model.fields.map (·.1)).Nodup := by simp [fields]
  refine .of_record (fun model => rfl) names plain_fields fun model => ?_
  have apart := names model
  rw [ofJson?,
    Json.fieldText?_record apart "schemaVersion" (some model.schemaVersion) (by simp [fields]),
    Package.roundTrip.mapM_fieldItems apart "packages" model.packages (by simp [fields]),
    Classifier.roundTrip.mapM_fieldItems apart "classifiers" model.classifiers (by simp [fields]),
    Relation.roundTrip.mapM_fieldItems apart "relations" model.relations (by simp [fields]),
    Tag.roundTrip.mapM_fieldItems apart "taggedValues" model.tags (by simp [fields])]
  rfl

/-- The text of a model is read back as its canonical form. -/
theorem bind_parse?_serialize (model : Model) :
    (Json.parse? (model.serialize false)).bind ofJson? = some model.canonical := by
  have written : model.serialize false = model.canonical.toJson.render := rfl
  rw [written, Json.parse?_render (roundTrip.plain model.canonical), Option.bind_some,
    roundTrip.read_write]

/-- Models have the same text exactly if they have the same canonical form. -/
theorem serialize_eq_iff (first second : Model) :
    first.serialize false = second.serialize false ↔ first.canonical = second.canonical := by
  constructor
  · intro same
    have read := bind_parse?_serialize first
    rw [same, bind_parse?_serialize second] at read
    exact (Option.some.inj read).symm
  · intro same
    rw [serialize, serialize, document, document, same]

end Model

end CodeGraph
