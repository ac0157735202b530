import Vendoring.Json.Reader
import Vendoring.Json.Writer
import Vendoring.Mapping

/-!
# Tables in the exchange format

A table is written as an array of mappings in their order, each an object with its source and its
destination. Reading takes objects, which may have other fields, and pairs, and checks the table.
-/

namespace Vendoring

/-- The field that holds the source of a mapping. -/
def sourceField : List Char :=
  "upstream".toList

/-- The field that holds the destination of a mapping. -/
def destinationField : List Char :=
  "destination".toList

/-- A mapping as a value. -/
def Mapping.toJson (m : Mapping) : Json :=
  .object [
    (sourceField, .string m.source.text.toList),
    (destinationField, .string m.destination.text.toList)]

/-- Why a value is no table. -/
inductive MappingTable.ExchangeError where
  | malformed
  | rejected (error : MappingError)

/-- The path that a value stands for. -/
def Path.ofJson? : Json → Option Path
  | .string text => some ⟨String.ofList text⟩
  | _ => none

/-- The value of a field that occurs once. -/
def onlyField? (name : List Char) (fields : List (List Char × Json)) : Option Json :=
  match fields.filter (·.1 = name) with
  | [(_, value)] => some value
  | _ => none

/-- The mapping that a value stands for. -/
def Mapping.ofJson? : Json → Option Mapping
  | .object fields => do
    let source ← (onlyField? sourceField fields).bind Path.ofJson?
    let destination ← (onlyField? destinationField fields).bind Path.ofJson?
    some ⟨source, destination⟩
  | .array [source, destination] => do
    some ⟨← Path.ofJson? source, ← Path.ofJson? destination⟩
  | _ => none

namespace MappingTable

/-- A table as a value. -/
def toJson (table : MappingTable) : Json :=
  .array (table.toList.map Mapping.toJson)

/-- The table that a text stands for. -/
def ofJsonText (text : String) : Except ExchangeError MappingTable :=
  match Json.ofText? text with
  | some (.array items) =>
    match items.mapM Mapping.ofJson? with
    | some entries => (ofList entries).mapError .rejected
    | none => .error .malformed
  | _ => .error .malformed

end MappingTable

end Vendoring
