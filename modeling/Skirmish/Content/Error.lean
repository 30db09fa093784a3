import Skirmish.Battle.Basic
import Skirmish.Content.Definitions

/-!
# Faults of content

Why content cannot be loaded.
-/

namespace Skirmish.Content

open Skirmish.Formula

/-- Why a file cannot be read. -/
inductive FileFault
  | missing
  | throughFile
  | directory
  | nameTooLong
  | other (text : String)
  deriving Repr, DecidableEq

/-- The wording of the fault, as the operating system gives it. -/
def FileFault.message : FileFault → String
  | missing => "No such file or directory (os error 2)"
  | throughFile => "Not a directory (os error 20)"
  | directory => "Is a directory (os error 21)"
  | nameTooLong => "File name too long (os error 36)"
  | other text => text

/-- Why content cannot be loaded. -/
inductive ContentError
  | unreadable (path : String) (cause : FileFault)
  | malformedSettings
  | malformedCatalogue (path : String)
  | invalidFormula (catalogue : Catalogue) (key : String) (cause : ParseError)
  | refused (key : String) (cause : BattleError)
  deriving Repr, DecidableEq

/-- The wording of the fault. -/
def ContentError.message : ContentError → String
  | unreadable path cause => s!"Failed to read file {path}: {cause.message}"
  | malformedSettings => "Failed to parse config TOML"
  | malformedCatalogue path => s!"Failed to parse RON at {path}"
  | invalidFormula catalogue key cause =>
    s!"Invalid formula in {catalogue.noun} '{key}': {cause.message}"
  | refused key cause => s!"Failed to register {Catalogue.roster.noun} '{key}': {cause.message}"

end Skirmish.Content
