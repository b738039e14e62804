import CodeGraph.Proofs.Draft.Declaring
import CodeGraph.Proofs.Text.Pieces

/-!
# When two declarations share a classifier

A declaration's classifier is known by the digest of its kind and its full name. The full name
joins the directory, the file's name without its extension, the namespaces and the name with dots,
and it keeps neither the extension nor what was a slash, a dot or a namespace before. So the trail
of dotted pieces is all that is left of where a declaration stands: as long as the digests of a
program do not collide, two of its declarations share a classifier exactly when they have the same
kind and the same trail, whatever files they stand in.
-/

namespace CodeGraph

namespace Text

/-- Replacing one character by another. -/
theorem replaceFrom_singleton (old new : Char) (chars : List Char) :
    replaceFrom [old] [new] 0 chars = chars.map fun char => if char = old then new else char := by
  induction chars with
  | nil => rfl
  | cons char rest ih =>
      by_cases same : char = old
      · simp [replaceFrom, same, ih]
      · simp [replaceFrom, same, Ne.symm same, ih]

/-- A change of separators alone changes no piece. -/
theorem cut_map {stop otherStop : Char → Bool} {change : Char → Char}
    (agree : ∀ char, otherStop (change char) = stop char)
    (kept : ∀ char, stop char = false → change char = char) (chars : List Char) :
    cut otherStop (chars.map change) = cut stop chars := by
  induction chars with
  | nil => rfl
  | cons char rest ih =>
      rw [List.map_cons, cut, cut, agree, ih]
      cases stopped : stop char with
      | true => rfl
      | false => simp [kept char stopped]

/-- Writing dots for slashes makes both into separators. -/
theorem split_replace_slash (text : String) :
    split '.' (replace "/" "." text)
      = (cut (fun char => char == '/' || char == '.') text.toList).map String.ofList := by
  have replaced : (replace "/" "." text).toList
      = text.toList.map fun char => if char = '/' then '.' else char := by
    rw [replace, String.toList_ofList]
    exact replaceFrom_singleton '/' '.' text.toList
  rw [split, replaced]
  refine congrArg _ (cut_map ?_ ?_ _)
  · intro char
    by_cases slash : char = '/' <;> simp [slash]
  · intro char kept
    simp only [Bool.or_eq_false_iff, beq_eq_false_iff_ne] at kept
    exact if_neg kept.1

end Text

namespace ClassifierKind

theorem label_plain (kind : ClassifierKind) : ':' ∉ kind.label.toList := by
  cases kind <;> decide

theorem label_inj {first second : ClassifierKind} :
    first.label = second.label ↔ first = second := by
  cases first <;> cases second <;> decide

end ClassifierKind

namespace Declaration

/-- The text whose digest is the id of the declared classifier. -/
def identityText (declaration : Declaration) : String :=
  declaration.shape.kind.label ++ ":"
    ++ Draft.qualifiedName declaration.file declaration.scope declaration.name

/-- The dotted pieces of where a declaration stands: those of its directory, of its file's name
without the extension, of its namespaces and of its name. -/
def trail (declaration : Declaration) : List String :=
  let directory := PackageMap.directoryOf declaration.file
  (if directory.isEmpty then []
    else (Text.cut (fun char => char == '/' || char == '.') directory.toList).map String.ofList)
    ++ Text.split '.' (Path.ofText declaration.file).stem
    ++ declaration.scope.flatMap (Text.split '.')
    ++ Text.split '.' declaration.name

/-- The trail is what the full name consists of. -/
theorem split_qualifiedName (declaration : Declaration) :
    Text.split '.' (Draft.qualifiedName declaration.file declaration.scope declaration.name)
      = declaration.trail := by
  simp only [Draft.qualifiedName, trail]
  rw [show "." = String.singleton '.' from rfl, Text.split_intercalate '.' (by simp)]
  simp only [List.flatMap_append, List.flatMap_cons, List.flatMap_nil, List.append_nil]
  split
  next => simp
  next proper => simp [PackageMap.qualifiedName, proper, Text.split_replace_slash]

/-- Two declarations have the same text exactly when they have the same kind and trail. -/
theorem identityText_eq_iff {first second : Declaration} :
    first.identityText = second.identityText
      ↔ first.shape.kind = second.shape.kind ∧ first.trail = second.trail := by
  have pieces : ∀ declaration : Declaration, Text.split ':' declaration.identityText
      = declaration.shape.kind.label
        :: Text.split ':'
          (Draft.qualifiedName declaration.file declaration.scope declaration.name) := by
    intro declaration
    rw [identityText, show ":" = String.singleton ':' from rfl, Text.split_append,
      Text.split_eq_singleton ':' (ClassifierKind.label_plain _), List.singleton_append]
  rw [← Text.split_inj ':', pieces, pieces, List.cons.injEq, ClassifierKind.label_inj,
    Text.split_inj, ← Text.split_inj '.', split_qualifiedName, split_qualifiedName]

end Declaration

namespace Draft

/-- Every declaration of a program has the id that belongs to its text. -/
theorem classifierId_of_mem_declarations {program : Program} {options : ExtractOptions}
    {reporting : Bool} {declaration : Declaration}
    (present : declaration ∈ (start program options reporting).declareAll.declarations) :
    declaration.classifierId = digestId "c:" declaration.identityText := by
  obtain ⟨source, _, candidate, _, item, _, rfl⟩ := mem_declarations_declareAll.mp present
  rfl

/-- If the digests of a program's declarations do not collide, two of them share a classifier
exactly when they have the same kind and the same trail. -/
theorem share_classifier_iff (program : Program) (options : ExtractOptions) (reporting : Bool)
    (collisionFree :
      ∀ first ∈ (start program options reporting).declareAll.declarations,
        ∀ second ∈ (start program options reporting).declareAll.declarations,
          digestId "c:" first.identityText = digestId "c:" second.identityText →
            first.identityText = second.identityText)
    (first second : Declaration)
    (first_mem : first ∈ (start program options reporting).declareAll.declarations)
    (second_mem : second ∈ (start program options reporting).declareAll.declarations) :
    first.classifierId = second.classifierId
      ↔ first.shape.kind = second.shape.kind ∧ first.trail = second.trail := by
  rw [classifierId_of_mem_declarations first_mem, classifierId_of_mem_declarations second_mem,
    ← Declaration.identityText_eq_iff]
  exact ⟨collisionFree first first_mem second second_mem, fun same => by rw [same]⟩

/-- A file that declares the class `Model`. -/
def modelFile (path : String) : Syntax.Source :=
  { path
    bytes := "export class Model \x7b\x7d".toUTF8
    root :=
      ⟨none, "program", true, 0, 21,
        [⟨none, "export_statement", true, 0, 21,
            [⟨some "declaration", "class_declaration", true, 7, 21,
                [⟨some "name", "type_identifier", true, 13, 18, []⟩,
                  ⟨some "body", "class_body", true, 19, 21, []⟩]⟩]⟩]⟩ }

/-- A program with three such files, two of which differ in their extension alone. -/
def extensionTwins : Program :=
  { tree := { top := .directory [] }
    root := .absolute ["project"]
    files := [modelFile "a.ts", modelFile "a.tsx", modelFile "b.ts"] }

/-- Two files of this program share a classifier although their digests do not collide. -/
theorem extensionTwins_share_classifier :
    ∃ first ∈ (start extensionTwins {} true).declareAll.declarations,
      ∃ second ∈ (start extensionTwins {} true).declareAll.declarations,
        first.file ≠ second.file ∧ first.classifierId = second.classifierId := by
  have listed : (start extensionTwins {} true).declareAll.declarations.map
      (fun declaration => (declaration.file, declaration.identityText))
        = [("a.ts", "CLASS:a.Model"), ("a.tsx", "CLASS:a.Model"), ("b.ts", "CLASS:b.Model")] := by
    decide +kernel
  have apart : digestId "c:" "CLASS:a.Model" ≠ digestId "c:" "CLASS:b.Model" := by
    decide +kernel
  have texts : ∀ declaration ∈ (start extensionTwins {} true).declareAll.declarations,
      declaration.identityText = "CLASS:a.Model" ∨ declaration.identityText = "CLASS:b.Model" := by
    intro declaration present
    have entry_mem := List.mem_map_of_mem (f := fun declaration : Declaration =>
      (declaration.file, declaration.identityText)) present
    rw [listed] at entry_mem
    grind
  have twin_mem : ∀ entry ∈ [("a.ts", "CLASS:a.Model"), ("a.tsx", "CLASS:a.Model")],
      ∃ declaration ∈ (start extensionTwins {} true).declareAll.declarations,
        (declaration.file, declaration.identityText) = entry := by
    intro entry entry_mem
    refine List.mem_map.mp ?_
    rw [listed]
    grind
  obtain ⟨first, first_mem, first_eq⟩ := twin_mem ("a.ts", "CLASS:a.Model") (by simp)
  obtain ⟨second, second_mem, second_eq⟩ := twin_mem ("a.tsx", "CLASS:a.Model") (by simp)
  obtain ⟨first_file, first_text⟩ := Prod.mk.inj first_eq
  obtain ⟨second_file, second_text⟩ := Prod.mk.inj second_eq
  refine ⟨first, first_mem, second, second_mem, by simp [first_file, second_file], ?_⟩
  refine (share_classifier_iff extensionTwins {} true ?_ first second first_mem second_mem).mpr
    (Declaration.identityText_eq_iff.mp (first_text.trans second_text.symm))
  intro one one_mem other other_mem same
  rcases texts one one_mem with one_eq | one_eq <;>
    rcases texts other other_mem with other_eq | other_eq <;>
    simp_all [apart.symm]

end Draft

end CodeGraph
