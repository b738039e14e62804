import CodeGraph.Modules.SymbolTable
import CodeGraph.Report.Finding

/-!
# What findings are about

A finding about something unresolved says in one of its facts which name it is about, and its place
says in which file. It is fair if that name means something there, though not what is asked for, or
if it means nothing and does not come from outside of the project either.
-/

namespace CodeGraph

namespace FindingKind

/-- The fact that says which name a finding of this kind is about. -/
def subjectKey : FindingKind → String
  | .unresolvedImport => "specifier"
  | .unresolvedContext => "context"
  | .unresolvedJsxComponent => "component"
  | .unresolvedDecoratorRef => "ref"
  | .unresolvedInjection | .unresolvedType => "type"
  | .unresolvedRouteTarget | .unresolvedLazyModule => "target"
  | .note => "owner"

end FindingKind

namespace SymbolTable

/-- The name means something. -/
def Resolves (symbols : SymbolTable) (file name : String) (scope : List String) : Prop :=
  ∃ symbol, symbols.resolve file name scope = .found symbol

/-- The search for the name ends without a meaning. -/
def Lacks (symbols : SymbolTable) (file name : String) (scope : List String) : Prop :=
  ∃ asked, symbols.resolve file name scope = .absent asked

/-- The search for the name ends, and this is what the name means. -/
def Tells (symbols : SymbolTable) (file name : String) (scope : List String) :
    Option Symbol → Prop
  | some symbol => symbols.resolve file name scope = .found symbol
  | none => symbols.Lacks file name scope

end SymbolTable

namespace Finding

/-- The name that the finding is about. -/
def subject? (finding : Finding) : Option String :=
  finding.facts.lookup finding.kind.subjectKey

/-- The name of what the finding is made of. -/
def owner? (finding : Finding) : Option String :=
  finding.facts.lookup "owner"

/-- The finding is about a name in a file. -/
structure IsAbout (finding : Finding) (file name : String) : Prop where
  file_eq : finding.place.map (·.file) = some file
  subject_eq : finding.subject? = some name

/-- The finding blames no name from outside of the project for meaning nothing in a scope of a file,
nor does it tell of an import. -/
structure Fair (symbols : SymbolTable) (file : String) (scope : List String) (finding : Finding) :
    Prop where
  kind_ne : finding.kind ≠ .unresolvedImport
  /-- It is about a name that has been looked up. -/
  about : finding.isUnresolved = true → ∃ name, finding.IsAbout file name ∧
    (symbols.Resolves file name scope ∨
      symbols.Lacks file name scope ∧ symbols.isExternal file name = false)

variable {symbols : SymbolTable} {finding : Finding} {file name : String} {scope : List String}

theorem isAbout_atLine {kind : FindingKind} {facts : List (String × String)}
    (subject : facts.lookup kind.subjectKey = some name) (message : String) (line : Int) :
    (atLine kind message file line facts).IsAbout file name :=
  ⟨rfl, subject⟩

theorem Fair.of_note (remark : finding.kind = .note) : finding.Fair symbols file scope where
  kind_ne := by simp [remark]
  about unresolved := absurd remark (FindingKind.isUnresolved_iff.mp unresolved)

theorem Fair.of_tells {symbol : Option Symbol} (kind_ne : finding.kind ≠ .unresolvedImport)
    (isAbout : finding.IsAbout file name) (told : symbols.Tells file name scope symbol)
    (inside : symbol = none → symbols.isExternal file name = false) :
    finding.Fair symbols file scope := by
  refine ⟨kind_ne, fun _ => ⟨name, isAbout, ?_⟩⟩
  cases symbol with
  | some symbol => exact .inl ⟨symbol, told⟩
  | none => exact .inr ⟨told, inside rfl⟩

end Finding

end CodeGraph
