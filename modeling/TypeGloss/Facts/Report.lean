import TypeGloss.Facts.Record
import TypeGloss.Report.Json
import TypeGloss.Shape.Render

/-!
# Records as JSON

A record is written with every shape as a type.
-/

namespace TypeGloss

/-- The shape as a type in quotes. -/
def Shape.report (s : Shape) : JsonValue := .text s.render

/-- A declared variable for a report. -/
def DeclaratorFact.report (fact : DeclaratorFact) : JsonValue :=
  .object [("name", .text fact.name), ("init_kind", .text fact.initializerKind),
    ("type", fact.shape.report), ("annotation", fact.typing.report)]

/-- A variable declaration for a report. -/
def DeclarationFact.report (fact : DeclarationFact) : JsonValue :=
  .object [("kind", .text fact.keyword),
    ("declarations", .list (fact.declarators.map DeclaratorFact.report))]

/-- A parameter for a report. -/
def FunctionFact.paramReport (param : Text × Shape) : JsonValue :=
  .object [("name", .text param.1), ("type", param.2.report)]

/-- A function declaration for a report. -/
def FunctionFact.report (fact : FunctionFact) : JsonValue :=
  .object [("name", .text fact.name), ("params", .list (fact.params.map FunctionFact.paramReport)),
    ("return_type", fact.result.report), ("signature", fact.shape.report)]

/-- A return statement for a report. -/
def ReturnFact.report (fact : ReturnFact) : JsonValue :=
  .object [("argument_kind", .text fact.argumentKind), ("type", fact.shape.report)]

/-- A property for a report. -/
def PropertyFact.report (fact : PropertyFact) : JsonValue :=
  .object [("key", .text fact.key), ("value_kind", .text fact.valueKind),
    ("type", fact.shape.report)]

/-- An object literal for a report. -/
def ObjectFact.report (fact : ObjectFact) : JsonValue :=
  .object [("properties", .list (fact.properties.map PropertyFact.report)),
    ("type", fact.shape.report)]

/-- An array literal for a report. -/
def ArrayFact.report (fact : ArrayFact) : JsonValue :=
  .object [("element_kinds", .list (fact.elementKinds.map .text)), ("type", fact.shape.report)]

/-- A table of shapes for a report. -/
def Record.tableReport (table : Table Text Shape) : JsonValue :=
  .object (table.map fun (name, shape) => (name, shape.report))

/-- A record for a report. -/
def Record.report (record : Record) : JsonValue :=
  .object [("variable_declarations", .list (record.declarations.map DeclarationFact.report)),
    ("function_definitions", .list (record.functions.map FunctionFact.report)),
    ("return_statements", .list (record.returns.map ReturnFact.report)),
    ("object_literals", .list (record.objects.map ObjectFact.report)),
    ("array_literals", .list (record.arrays.map ArrayFact.report)),
    ("type_annotations", Record.tableReport record.typings),
    ("interfaces", Record.tableReport record.interfaces)]

end TypeGloss
