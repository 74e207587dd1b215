import Flowchart.Diagnostic.Basic

/-!
# The log of diagnostics

A log keeps diagnostics in the order in which they were reported, without those whose code it is
told to ignore. Whatever is kept is also what a listener hears.
-/

namespace Flowchart

/-- Diagnostics in order of report, and the codes that are not recorded. -/
structure Log where
  ignored : List String
  entries : List Diagnostic
deriving Repr

namespace Log

/-- A log without entries. -/
def empty (ignored : List String) : Log := ⟨ignored, []⟩

/-- Whether the log records a diagnostic. -/
def accepts (log : Log) (d : Diagnostic) : Bool :=
  !log.ignored.contains d.code

/-- Records a diagnostic. -/
def record (log : Log) (d : Diagnostic) : Log :=
  if log.accepts d then { log with entries := log.entries ++ [d] } else log

/-- Records diagnostics one after another. -/
def recordAll (log : Log) (ds : List Diagnostic) : Log :=
  { log with entries := log.entries ++ ds.filter log.accepts }

/-- The entries of one severity. -/
def ofSeverity (log : Log) (s : Severity) : List Diagnostic :=
  log.entries.filter (·.severity == s)

/-- The warnings. -/
def warnings (log : Log) : List Diagnostic := log.ofSeverity .warning

/-- The entries that only inform. -/
def infos (log : Log) : List Diagnostic := log.ofSeverity .info

/-- The codes of the entries. -/
def codes (log : Log) : List String := log.entries.map Diagnostic.code

theorem recordAll_nil (log : Log) : log.recordAll [] = log := by
  simp [recordAll]

theorem recordAll_cons (log : Log) (d : Diagnostic) (ds : List Diagnostic) :
    log.recordAll (d :: ds) = (log.record d).recordAll ds := by
  cases h : log.accepts d
  · simp [record, recordAll, h]
  · simp [record, recordAll, h]
    rfl

end Log

end Flowchart
