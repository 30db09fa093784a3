import Skirmish.Content.Registration

/-!
# Directories of content

A directory of content is known by its path, which faults mention, by what reading a file at a path
gives, and by the format of its catalogues. `Directory.populate` fills a battle with the four
catalogues of a directory, and `Directory.build` also sets the battle up as the file of settings
says.
-/

namespace Skirmish.Content

open Skirmish.Formula Skirmish.Battle

/-- Where content is read from. -/
structure Directory where
  path : String
  /-- the text of the file at a path -/
  read : String → Except FileFault String
  /-- how the texts of the catalogues are read -/
  format : Format := .ron

namespace Directory

/-- The path of a file of the directory. -/
def pathOf (dir : Directory) (file : String) : String :=
  if dir.path.isEmpty || dir.path.toList.getLast? = some '/' then dir.path ++ file
  else dir.path ++ "/" ++ file

/-- The text of a file of the directory. -/
def text (dir : Directory) (file : String) : Except ContentError String :=
  (dir.read (dir.pathOf file)).mapError (.unreadable (dir.pathOf file))

/-- The settings. -/
def settings (dir : Directory) : Except ContentError Settings := do
  match settings? (← dir.text settingsFile) with
  | some s => return s
  | none => throw .malformedSettings

/-- The definitions of a catalogue. -/
def definitions {α : Type} (dir : Directory) (catalogue : Catalogue)
    (read? : String → Option (List α)) : Except ContentError (List α) := do
  match read? (← dir.text catalogue.file) with
  | some ds => return ds
  | none => throw (.malformedCatalogue (dir.pathOf catalogue.file))

/-- The damage types that the directory defines. -/
def damageTypes (dir : Directory) : Except ContentError (List DamageTypeDefinition) :=
  dir.definitions .damageTypes dir.format.damageTypes

/-- The statuses that the directory defines. -/
def statuses (dir : Directory) : Except ContentError (List StatusDefinition) :=
  dir.definitions .statuses dir.format.statuses

/-- The skills that the directory defines. -/
def skills (dir : Directory) : Except ContentError (List SkillDefinition) :=
  dir.definitions .skills dir.format.skills

/-- The combatants that the directory defines. -/
def combatants (dir : Directory) : Except ContentError (List CombatantDefinition) :=
  dir.definitions .roster dir.format.roster

/-- Registers everything that the directory defines. A catalogue is only read after the ones before
it are registered. -/
def populate (dir : Directory) : Loading Unit := do
  registerDamageTypes (← liftExcept dir.damageTypes)
  registerStatuses (← liftExcept dir.statuses)
  registerSkills (← liftExcept dir.skills)
  registerCombatants (← liftExcept dir.combatants)

/-- A battle with the given settings and everything that the directory defines. -/
def populated (dir : Directory) (b : Battle) : Except ContentError Battle :=
  match dir.populate b with
  | .ok _ b => .ok b
  | .error e _ => .error e

/-- A battle as the directory describes it. -/
def build (dir : Directory) : Except ContentError Battle := do
  dir.populated (.new (← dir.settings))

end Directory

end Skirmish.Content
