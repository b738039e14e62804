import CodeGraph.Project.Extraction
import CodeGraph.Proofs.Compiler.Defaults
import CodeGraph.Proofs.Report.Tallies

/-!
# A log is closed once

A log takes findings and amounts until it is closed. The report that the first closing makes holds
what the calls before it brought, and from then on the log refuses every call and stays as it is.
An extraction is one run of such calls.
-/

namespace CodeGraph

/-- A call of a log. -/
inductive LogCall where
  /-- Adds a finding. -/
  | finding (finding : Finding)
  /-- Counts classifiers of a kind. -/
  | classifiers (kind : String) (amount : Int)
  /-- Counts relations of a kind. -/
  | relations (kind : String) (amount : Int)
  /-- Closes the log. -/
  | close (finishedAt : String)
deriving DecidableEq, Repr

namespace LogCall

/-- The finding that a call adds. -/
def finding? : LogCall → Option Finding
  | .finding noted => some noted
  | _ => none

/-- The amount of classifiers that a call counts. -/
def classifiers? : LogCall → Option (String × Int)
  | .classifiers kind amount => some (kind, amount)
  | _ => none

/-- The amount of relations that a call counts. -/
def relations? : LogCall → Option (String × Int)
  | .relations kind amount => some (kind, amount)
  | _ => none

/-- The call closes the log. -/
def closes : LogCall → Bool
  | .close _ => true
  | _ => false

end LogCall

/-- The report holds what calls bring: their findings in order, and what they count of each kind. -/
structure Report.AccountsFor (report : Report) (calls : List LogCall) : Prop where
  /-- The findings are those of the calls. -/
  findings_eq : report.findings = calls.filterMap LogCall.finding?
  /-- Each kind of classifiers has come to its total. -/
  classifiers : report.classifiersByKind.Totals (calls.filterMap LogCall.classifiers?)
  /-- Each kind of relations has come to its total. -/
  relations : report.relationsByKind.Totals (calls.filterMap LogCall.relations?)

namespace Log

/-- What comes of a call: the log after it, with the report that closing makes, or a refusal. -/
def perform (log : Log) : LogCall → Except LogError (Log × Option Report)
  | .finding finding => (log.addFinding finding).map (·, none)
  | .classifiers kind amount => (log.countClassifier kind amount).map (·, none)
  | .relations kind amount => (log.countRelation kind amount).map (·, none)
  | .close finishedAt => (log.close finishedAt).map fun (closed, report) => (closed, some report)

/-- The log after calls, with their answers. A call that is refused changes nothing. -/
def run (log : Log) : List LogCall → Log × List (Except LogError (Option Report))
  | [] => (log, [])
  | call :: calls =>
      match log.perform call with
      | .ok (next, report) =>
          let (last, answers) := run next calls
          (last, .ok report :: answers)
      | .error error =>
          let (last, answers) := run log calls
          (last, .error error :: answers)

/-- Nothing has been called yet. -/
structure IsFresh (log : Log) : Prop where
  /-- There are no findings. -/
  findings_eq : log.findings = []
  /-- No classifiers have been counted. -/
  classifiers_eq : log.classifierCounts = []
  /-- No relations have been counted. -/
  relations_eq : log.relationCounts = []
  /-- The log has not been closed. -/
  report_eq : log.report = none

/-- The log with what calls bring that do not close it. -/
def taking (log : Log) (calls : List LogCall) : Log :=
  { log with
    findings := log.findings ++ calls.filterMap LogCall.finding?
    classifierCounts := log.classifierCounts.addAll (calls.filterMap LogCall.classifiers?)
    relationCounts := log.relationCounts.addAll (calls.filterMap LogCall.relations?) }

/-- The log with its report made. -/
def closedAt (log : Log) (finishedAt : String) : Log :=
  { log with report := some (log.summary finishedAt) }

variable {log : Log} {call : LogCall} {calls : List LogCall} {report : Report}

/-! ## One call -/

/-- An open log takes every call that does not close it. -/
theorem perform_of_open (isOpen : log.report = none) (stays : call.closes = false) :
    log.perform call = .ok (log.taking [call], none) := by
  cases call with
  | close => exact nomatch stays
  | finding | classifiers | relations =>
      simp [perform, addFinding, countClassifier, countRelation, isClosed, isOpen, Except.map,
        taking, List.filterMap_cons, LogCall.finding?, LogCall.classifiers?, LogCall.relations?,
        Tally.addAll]

/-- A closed log refuses every call. -/
theorem perform_of_closed (closed : log.report = some report) (call : LogCall) :
    log.perform call = .error .closed := by
  cases call <;>
    simp [perform, addFinding, countClassifier, countRelation, close, isClosed, closed, Except.map]

/-- Closing an open log makes its report. -/
theorem perform_close (isOpen : log.report = none) (finishedAt : String) :
    log.perform (.close finishedAt)
      = .ok (log.closedAt finishedAt, some (log.summary finishedAt)) := by
  simp [perform, close, isClosed, isOpen, Except.map, closedAt]

theorem taking_append (log : Log) (first second : List LogCall) :
    log.taking (first ++ second) = (log.taking first).taking second := by
  simp [taking, Tally.addAll]

/-! ## Runs of calls -/

/-- Calls that do not close an open log bring it what they hold, in order. -/
theorem run_append_of_open (isOpen : log.report = none)
    (stay : ∀ call ∈ calls, call.closes = false) (later : List LogCall) :
    log.run (calls ++ later)
      = (((log.taking calls).run later).1,
          calls.map (fun _ => .ok none) ++ ((log.taking calls).run later).2) := by
  induction calls generalizing log with
  | nil => simp [taking, Tally.addAll]
  | cons call calls ih =>
      obtain ⟨stays, stay⟩ := List.forall_mem_cons.mp stay
      have still_open : (log.taking [call]).report = none := isOpen
      have together : log.taking (call :: calls) = (log.taking [call]).taking calls :=
        log.taking_append [call] calls
      rw [List.cons_append, run, perform_of_open isOpen stays, together, List.map_cons,
        List.cons_append]
      simp only [ih still_open stay]

/-- A closed log stays as it is and refuses every call. -/
theorem run_of_closed (closed : log.report = some report) (calls : List LogCall) :
    log.run calls = (log, calls.map fun _ => .error .closed) := by
  induction calls with
  | nil => rfl
  | cons call calls ih =>
      rw [run, perform_of_closed closed]
      simp only [ih]
      rfl

/-- The first closing ends what a log takes. -/
theorem run_close (isOpen : log.report = none) (stay : ∀ call ∈ calls, call.closes = false)
    (finishedAt : String) (later : List LogCall) :
    log.run (calls ++ .close finishedAt :: later)
      = ((log.taking calls).closedAt finishedAt,
          calls.map (fun _ => .ok none)
            ++ .ok (some ((log.taking calls).summary finishedAt))
              :: later.map fun _ => .error .closed) := by
  have still_open : (log.taking calls).report = none := isOpen
  have closed : ((log.taking calls).closedAt finishedAt).report
      = some ((log.taking calls).summary finishedAt) := rfl
  rw [run_append_of_open isOpen stay, run, perform_close still_open]
  simp only [run_of_closed closed]

/-- The report of a fresh log that has taken calls is their account. -/
theorem summary_taking (fresh : log.IsFresh) (calls : List LogCall) (finishedAt : String) :
    ((log.taking calls).summary finishedAt).AccountsFor calls := by
  constructor
  · simp [summary, taking, fresh.findings_eq]
  · simp only [summary, taking, fresh.classifiers_eq]
    exact Tally.totals_sorted_addAll _
  · simp only [summary, taking, fresh.relations_eq]
    exact Tally.totals_sorted_addAll _

end Log

/-! ## Reports -/

namespace Report

variable (report : Report)

/-- The findings of all kinds are all findings. -/
theorem sum_findingsByKind : report.findingsByKind.sum = report.findings.length := by
  rw [findingsByKind, Tally.sum_sorted_ofList, List.length_map]

/-- The findings of all severities are all findings. -/
theorem sum_findingsBySeverity : report.findingsBySeverity.sum = report.findings.length := by
  rw [findingsBySeverity, Tally.sum_sorted_ofList, List.length_map]

/-- All findings but the remarks are about unresolved names. -/
theorem unresolvedCount_eq :
    report.unresolvedCount = (report.findings.filter (·.kind != .note)).length := by
  rw [unresolvedCount, List.countP_eq_length_filter]
  refine congrArg List.length (List.filter_congr fun finding _ => ?_)
  rw [Bool.eq_iff_iff, Finding.isUnresolved, FindingKind.isUnresolved_iff, bne_iff_ne]

end Report

/-! ## Extractions -/

/-- A run of two steps succeeds exactly if the first one does, and the second one on its result. -/
theorem Noted.outcome_bind_eq_ok_iff {ε α β : Type} {step : Noted ε α} {next : α → Noted ε β}
    {value : β} :
    (step >>= next).outcome = .ok value ↔
      ∃ between, step.outcome = .ok between ∧ (next between).outcome = .ok value := by
  rw [Noted.outcome_bind]
  exact bind_eq_ok_iff

namespace Project

/-- The calls of the log of an extraction, up to its closing. -/
def calls (findings : List Finding) (model : Model) : List LogCall :=
  findings.map .finding
    ++ model.classifiers.map (fun classifier => .classifiers classifier.kind.label 1)
    ++ model.relations.map (fun relation => .relations relation.kind.label 1)

variable {findings : List Finding} {model : Model}

theorem closes_calls : ∀ call ∈ calls findings model, call.closes = false := by
  simp only [calls, List.mem_append, List.mem_map]
  rintro call ((⟨_, _, rfl⟩ | ⟨_, _, rfl⟩) | ⟨_, _, rfl⟩) <;> rfl

theorem findings_calls : (calls findings model).filterMap LogCall.finding? = findings := by
  have none : ∀ {α : Type} (items : List α),
      items.filterMap (fun _ => (none : Option Finding)) = [] := by simp
  simp [calls, List.filterMap_map, Function.comp_def, LogCall.finding?, none]

theorem classifiers_calls :
    (calls findings model).filterMap LogCall.classifiers?
      = (model.classifiers.map (·.kind.label)).map (·, 1) := by
  simp [calls, List.filterMap_map, Function.comp_def, LogCall.classifiers?]

theorem relations_calls :
    (calls findings model).filterMap LogCall.relations?
      = (model.relations.map (·.kind.label)).map (·, 1) := by
  simp [calls, List.filterMap_map, Function.comp_def, LogCall.relations?]

/-- The log of an extraction before its calls. -/
def openLog (root : Path) (inventory : Inventory) (draft : Draft) (clock : Clock) : Log :=
  { tool
    projectRoot := root.text
    startedAt := clock.startedAt
    filesScanned := inventory.filesFound
    filesProcessed := draft.program.sources.length }

variable {root : Path} {inventory : Inventory} {draft : Draft} {clock : Clock}

theorem openLog_isFresh : (openLog root inventory draft clock).IsFresh :=
  ⟨rfl, rfl, rfl, rfl⟩

/-- The report on a draft and its model is what the calls of its log make. -/
theorem reportOn_eq :
    reportOn root inventory draft model clock
      = ((openLog root inventory draft clock).taking (calls draft.findings model)).summary
          clock.finishedAt := by
  simp only [reportOn, Tally.ofList_eq, Log.taking, findings_calls, classifiers_calls,
    relations_calls, openLog, List.nil_append]

/-- The report on a draft and its model is the account of the calls of its log. -/
theorem accountsFor_reportOn (root : Path) (inventory : Inventory) (draft : Draft) (model : Model)
    (clock : Clock) :
    (reportOn root inventory draft model clock).AccountsFor (calls draft.findings model) := by
  rw [reportOn_eq]
  exact Log.summary_taking openLog_isFresh _ _

/-- The report of an extraction comes from its model and the draft that the model was made of. -/
theorem exists_reportOn_of_extract {tree : FileTree} {request : ExtractRequest}
    {extraction : Extraction} (extracted : (extract tree request clock).outcome = .ok extraction) :
    ∃ root inventory draft,
      extraction.report = reportOn root inventory draft extraction.model clock := by
  simp only [extract, Noted.outcome_bind_eq_ok_iff] at extracted
  obtain ⟨mode, _, root, _, inventory, _, _, _, compiler, _, scanned, _, manifest, _, _, _, empty,
    _, model, _, _, _, result_eq⟩ := extracted
  obtain rfl := Except.ok.inj result_eq
  exact ⟨root, inventory, _, rfl⟩

/-- The log of an extraction takes all calls, and the report is what its closing makes. -/
theorem exists_run_of_extract {tree : FileTree} {request : ExtractRequest}
    {extraction : Extraction} (extracted : (extract tree request clock).outcome = .ok extraction) :
    ∃ log : Log, log.IsFresh ∧
      (log.run (calls extraction.report.findings extraction.model ++ [.close clock.finishedAt])).2
        = (calls extraction.report.findings extraction.model).map (fun _ => .ok none)
          ++ [.ok (some extraction.report)] := by
  obtain ⟨root, inventory, draft, report_eq⟩ := exists_reportOn_of_extract extracted
  have findings_eq : extraction.report.findings = draft.findings := by rw [report_eq]; rfl
  refine ⟨openLog root inventory draft clock, openLog_isFresh, ?_⟩
  rw [findings_eq, Log.run_close rfl closes_calls, report_eq, reportOn_eq]
  rfl

end Project

/-- A log takes every call until it is closed. The report that the first closing makes is the
account of the calls before it, and every later call is refused and leaves the log as it is. In a
report, the findings of all kinds and of all severities sum to their number, and those about
unresolved names are all but the remarks. The report of an extraction is made by such calls, and
its classifiers and relations are those of the model, kind by kind. -/
theorem report_accounts_for_calls :
    (∀ (log : Log) (before later : List LogCall) (finishedAt : String),
      log.IsFresh → (∀ call ∈ before, call.closes = false) →
        ∃ closed report,
          log.run (before ++ [.close finishedAt])
              = (closed, before.map (fun _ => .ok none) ++ [.ok (some report)]) ∧
            log.run (before ++ .close finishedAt :: later)
              = (closed, before.map (fun _ => .ok none)
                  ++ .ok (some report) :: later.map fun _ => .error .closed) ∧
            closed.report = some report ∧
            closed.findings = before.filterMap LogCall.finding? ∧
            report.AccountsFor before) ∧
      (∀ report : Report,
        report.findingsByKind.sum = report.findings.length ∧
          report.findingsBySeverity.sum = report.findings.length ∧
          report.unresolvedCount = (report.findings.filter (·.kind != .note)).length) ∧
      ∀ (tree : FileTree) (request : ExtractRequest) (clock : Clock) (extraction : Extraction),
        (Project.extract tree request clock).outcome = .ok extraction →
          (∃ log : Log, log.IsFresh ∧
            let calls := Project.calls extraction.report.findings extraction.model
            (log.run (calls ++ [.close clock.finishedAt])).2
              = calls.map (fun _ => .ok none) ++ [.ok (some extraction.report)]) ∧
          (∀ kind, Ordered.get? extraction.report.classifiersByKind kind
            = Tally.countOf? (extraction.model.classifiers.map (·.kind.label)) kind) ∧
          ∀ kind, Ordered.get? extraction.report.relationsByKind kind
            = Tally.countOf? (extraction.model.relations.map (·.kind.label)) kind := by
  refine ⟨?_, ?_, ?_⟩
  · intro log before later finishedAt fresh stay
    have account := Log.summary_taking fresh before finishedAt
    refine ⟨_, _, Log.run_close fresh.report_eq stay finishedAt [],
      Log.run_close fresh.report_eq stay finishedAt later, rfl, account.findings_eq, account⟩
  · intro report
    exact ⟨report.sum_findingsByKind, report.sum_findingsBySeverity, report.unresolvedCount_eq⟩
  · intro tree request clock extraction extracted
    obtain ⟨root, inventory, draft, report_eq⟩ := Project.exists_reportOn_of_extract extracted
    have account := Project.accountsFor_reportOn root inventory draft extraction.model clock
    rw [← report_eq] at account
    refine ⟨Project.exists_run_of_extract extracted, fun kind => ?_, fun kind => ?_⟩
    · rw [account.classifiers.get?_eq, Project.classifiers_calls, Tally.amountOf?_ones]
    · rw [account.relations.get?_eq, Project.relations_calls, Tally.amountOf?_ones]

/-- A project with one file that declares one class. -/
def oneClassProject : FileTree where
  top := .directory [("project", .directory [("model.ts", .file
    { Content.ofText "class Model \x7b\x7d" with
      tree := some ⟨none, "program", true, 0, 14,
        [⟨none, "class_declaration", true, 0, 14,
          [⟨some "name", "type_identifier", true, 6, 11, []⟩,
            ⟨some "body", "class_body", true, 12, 14, []⟩]⟩]⟩ })])]

theorem report_accounts_for_calls_oneClassProject :
    let log : Log :=
      { tool := Project.tool, projectRoot := "/project", startedAt := "early", filesScanned := 1 }
    let noted : Finding := { kind := .unresolvedType, message := "no such name" }
    let before : List LogCall :=
      [.classifiers "CLASS" 2, .finding noted, .classifiers "ENUM" 1, .classifiers "CLASS" 1]
    (∃ closed report,
      log.run (before ++ .close "late" :: [.finding noted, .close "later"])
          = (closed, [.ok none, .ok none, .ok none, .ok none, .ok (some report), .error .closed,
              .error .closed]) ∧
        closed.report = some report ∧ report.findings = [noted] ∧
        Ordered.get? report.classifiersByKind "CLASS" = some 3) ∧
      ∃ extraction,
        (Project.extract oneClassProject { project := "/project", mode := "ts" }
            ⟨"early", "late"⟩).outcome = .ok extraction ∧
          Ordered.get? extraction.report.classifiersByKind "CLASS" = some 1 := by
  intro log noted before
  obtain ⟨runs, _, extracts⟩ := report_accounts_for_calls
  constructor
  · obtain ⟨closed, report, _, run_eq, report_eq, _, account⟩ :=
      runs log before [.finding noted, .close "later"] "late" ⟨rfl, rfl, rfl, rfl⟩ (by decide)
    refine ⟨closed, report, run_eq, report_eq, account.findings_eq, ?_⟩
    rw [account.classifiers.get?_eq]
    decide
  · have succeeds : (Project.extract oneClassProject { project := "/project", mode := "ts" }
        ⟨"early", "late"⟩).outcome.toOption.map
          (fun extraction => extraction.model.classifiers.map (·.kind.label)) = some ["CLASS"] := by
      decide +kernel
    obtain ⟨extraction, value_eq, labels_eq⟩ := Option.map_eq_some_iff.mp succeeds
    cases outcome_eq : (Project.extract oneClassProject { project := "/project", mode := "ts" }
        ⟨"early", "late"⟩).outcome with
    | error error => rw [outcome_eq] at value_eq; exact nomatch value_eq
    | ok result =>
        rw [outcome_eq] at value_eq
        obtain rfl := Option.some.inj value_eq
        refine ⟨result, rfl, ?_⟩
        rw [(extracts _ _ _ _ outcome_eq).2.1, labels_eq]
        decide

end CodeGraph
