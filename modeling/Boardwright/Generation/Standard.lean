import Boardwright.Generation.ProjectHeader
import Boardwright.Generation.Sketch

/-!
# The standard generators

Six generators make up a library.  The one of the source comes first, because others use what it has
found out about the storage and about the components.
-/

namespace Boardwright.Generation

/-- The generator of the header that all modules include. -/
def coreHeader (input : Input) : Generator State Artifacts where
  name := "core-header"
  prepare s :=
    (s, .ok (Dict.ofList [("debugMode", if input.settings.debugMode then "1" else "0")]))
  generate _ output artifacts :=
    save artifacts (input.settings.headerDirectory.join "acp/core.h")
      (Template.fill StoredTemplate.coreHeader.text output)

/-- The generator of the classes for stored items; it writes nothing when there are none. -/
def storageClasses (input : Input) : Generator State Artifacts where
  name := "eeprom-vars"
  prepare s :=
    (s, .ok (Dict.ofList
      [("privateNamespace", s.privateNamespace), ("acpEepromHeaderFile", storageHeaderFile)]))
  generate s output artifacts :=
    if s.storageUsage = 0 then (artifacts, .ok ())
    else
      match save artifacts (input.settings.headerDirectory.join storageHeaderFile)
          (Template.fill StoredTemplate.storageHeader.text output) with
      | (artifacts, .error f) => (artifacts, .error f)
      | (artifacts, .ok ()) =>
        save artifacts (input.settings.sourceDirectory.join "eeprom_vars.cpp")
          (Template.fill StoredTemplate.storageSource.text output)

/-- The generator of the library's description. -/
def libraryManifest (input : Input) : Generator State Artifacts where
  name := "library-properties"
  prepare s := (s, .ok (Dict.ofList [("libraryName", input.settings.libraryName)]))
  generate _ output artifacts :=
    save artifacts input.settings.propertiesFile
      (Template.fill StoredTemplate.manifest.text output)

/-- The pipeline of the standard generators. -/
def standardPipeline (input : Input) : Pipeline State Artifacts where
  generators :=
    [coreSource input, projectHeader input, coreHeader input, storageClasses input,
     exampleSketch input, libraryManifest input]
  after := [[], [0], [], [0], [0], []]

end Boardwright.Generation
