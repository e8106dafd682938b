import Deposition.Json.Record
import Deposition.Text.Quoted

/-!
# Catalogs and what can be wrong with a configuration

The server lists the components it can deposit. A component is named by its residue name; its full
name, its formula and its structure are for display, and a server may leave them out.

The errors of a configuration are here as well, since the first of them, a component that nobody
offers, is about the catalog.
-/

namespace Deposition

/-- What can be wrong with a configuration or with the arguments that make one. -/
inductive ConfigurationError
  /-- Nothing would be deposited. -/
  | allRatiosZero
  /-- The catalog has no such component. -/
  | unknownComponent (name : String)
  /-- An argument is not a name, an equals sign and a value. -/
  | malformedAssignment (text : String)
  /-- The value of an argument is not a number of the kind that is asked for. -/
  | invalidNumber (key value : String)
deriving DecidableEq

/-- What is said about such an error. -/
def ConfigurationError.message : ConfigurationError → String
  | .allRatiosZero => "at least one mixture ratio must be nonzero"
  | .unknownComponent name => "server offers no component named " ++ quoted name
  | .malformedAssignment text => "expected NAME=VALUE, got " ++ quoted text
  | .invalidNumber key value => "invalid number " ++ quoted value ++ " for " ++ key

/-- A component that the server offers. -/
structure Component where
  /-- The residue name, by which a mixture refers to it. -/
  resName : String
  /-- The full name. -/
  name : String := ""
  /-- The sum formula. -/
  formula : String := ""
  /-- The structure, as a line of text. -/
  smiles : String := ""
deriving DecidableEq

/-- The components that the server offers. -/
structure Catalog where
  /-- The components, in the server's order. -/
  molecules : List Component := []
deriving DecidableEq

namespace Component

/-- The JSON form of a component. -/
def toJson (c : Component) : Json :=
  .record [("res_name", .text c.resName), ("name", .text c.name), ("formula", .text c.formula),
    ("smiles", .text c.smiles)]

/-- Reads a component; only the residue name has to be given. -/
def ofJson? (j : Json) : Option Component := do
  match ← j.fields? ["res_name", "name", "formula", "smiles"] with
  | [resName, name, formula, smiles] =>
    return {
      resName := ← Json.required? Json.text? resName
      name := ← Json.orDefault? "" Json.text? name
      formula := ← Json.orDefault? "" Json.text? formula
      smiles := ← Json.orDefault? "" Json.text? smiles }
  | _ => none

end Component

namespace Catalog

/-- Whether a component of this residue name is offered. -/
def contains (c : Catalog) (resName : String) : Bool :=
  c.molecules.any fun m => m.resName == resName

/-- The first component of this residue name. -/
def require (c : Catalog) (resName : String) : Except ConfigurationError Component :=
  match c.molecules.find? fun m => m.resName == resName with
  | some component => .ok component
  | none => .error (.unknownComponent resName)

/-- The JSON form of a catalog. -/
def toJson (c : Catalog) : Json :=
  .record [("molecules", .array (c.molecules.map Component.toJson))]

/-- Reads a catalog. -/
def ofJson? (j : Json) : Option Catalog := do
  match ← j.fields? ["molecules"] with
  | [molecules] => return ⟨← Json.orDefault? [] (Json.list? Component.ofJson?) molecules⟩
  | _ => none

/-- Reads the text of a catalog. -/
def read? (text : String) : Option Catalog := (Json.read? text).bind ofJson?

end Catalog

end Deposition
