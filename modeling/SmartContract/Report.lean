import SmartContract.Report.Diagnostic

/-!
Reports: the diagnostics of a run in their order, whether any of them is an error, and further facts
under names.
-/

namespace SmartContract

def Json.Place.toJson (p : Json.Place) : Json :=
  .object [("line", .int p.line), ("col", .int p.column)]

def Location.toJson : Location → Json
  | document pointer => .object [("kind", .string "scd"), ("ptr", .string pointer)]
  | text start stop =>
    .object [("kind", .string "text"),
      ("span", .object [("start", start.toJson), ("end", stop.toJson)])]

def Diagnostic.toJson (d : Diagnostic) : Json :=
  .object ([("code", .string d.code), ("severity", .string d.severity.name),
    ("stage", .string d.stage.name), ("message", .string d.message)]
      ++ Json.optional "loc" (d.location.map Location.toJson)
      ++ (if d.notes.isEmpty then [] else [("notes", .array (d.notes.map .string))])
      ++ if d.data.isEmpty then [] else [("data", .object d.data)])

structure Report where
  /-- Is no diagnostic an error? -/
  ok : Bool
  diagnostics : List Diagnostic
  /-- Further facts, in the order of their names. -/
  facts : List (String × Json)

namespace Report

def version : String := "scdc.diag@0.1.0"

def empty : Report := ⟨true, [], []⟩

/-- The report with the given diagnostics in the place of its own. -/
def withDiagnostics (r : Report) (ds : List Diagnostic) : Report :=
  { r with ok := ds.all (·.severity ≠ .error), diagnostics := Diagnostic.sort ds }

def withFact (r : Report) (name : String) (value : Json) : Report :=
  { r with facts := Json.insertMember name value r.facts }

def errorCount (r : Report) : Nat := r.diagnostics.countP (·.severity = .error)

def toJson (r : Report) : Json :=
  .object ([("schema_version", .string version), ("ok", .bool r.ok),
    ("diagnostics", .array (r.diagnostics.map Diagnostic.toJson))]
      ++ if r.facts.isEmpty then [] else [("meta", .object r.facts)])

end Report

end SmartContract
