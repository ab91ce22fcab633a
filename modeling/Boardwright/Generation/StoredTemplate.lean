import Boardwright.Failure
import Boardwright.Text.Template

/-!
# Stored templates

The templates of all generated files.  Some of them end their lines with a carriage return and a line
feed, the others with a line feed only; every line has its end.

* **`StoredTemplate`**: the templates.
* **`StoredTemplate.text`**: the text of a template.
* **`StoredTemplate.ofName?`**: the template with a file name.
* **`StoredTemplate.fillNamed`**: the template with a file name, filled in.
-/

namespace Boardwright.Generation

/-- The stored templates. -/
inductive StoredTemplate where
  /-- The header that every module of the generated program includes. -/
  | coreHeader
  /-- The source of the generated program. -/
  | coreSource
  /-- The part of the source that calls the loopers. -/
  | looperTable
  /-- The header of the classes for stored items. -/
  | storageHeader
  /-- The source of the classes for stored items. -/
  | storageSource
  /-- The header that sketches include. -/
  | projectHeader
  /-- The example sketch. -/
  | sketch
  /-- The description of the library. -/
  | manifest
  deriving DecidableEq, Repr

namespace StoredTemplate

/-- Lines that each end in `ending`. -/
def ended (ending : String) (lines : List String) : String :=
  String.join (lines.map fun line => line ++ ending)

/-- Lines of the template `acp_core.h`. -/
def coreHeaderLines : List String :=
  ["#ifndef ACP_HEADER_H_INCLUDED",
   "#define ACP_HEADER_H_INCLUDED",
   "",
   "#include <Arduino.h>",
   "#include <math.h>",
   "",
   "// Indicates whether the debug mode is enabled",
   "#define ACP_DEBUG $debugMode",
   "",
   "// Default event handler",
   "typedef void (*ACPEventHandler)();",
   "",
   "namespace acp \x7b",
   "\textern void enableLooper(int looperId);",
   "\textern void disableLooper(int looperId);",
   "\x7d",
   "",
   "#endif // ACP_HEADER_H_INCLUDED"]

/-- Lines of the template `acp_core.cpp`. -/
def coreSourceLines : List String :=
  ["// Autogenerated by the ACP builder. Do not edit.",
   "#include <Arduino.h>",
   "#include <acp/core.h>",
   "$includes",
   "",
   "// Event handlers implemented in the sketch",
   "$handlers",
   "",
   "namespace $privateNamespace \x7b",
   "// Method wrappers",
   "$methodWrapperDeclarations",
   "",
   "$privateObjects",
   "\x7d",
   "",
   "// Public objects",
   "$publicObjects",
   "",
   "namespace $privateNamespace \x7b",
   "$methodWrappersSection",
   "\x7d",
   "",
   "// EEPROM variables",
   "$eepromVars",
   "",
   "namespace $privateNamespace \x7b",
   "// Writes initial values of eeprom variables",
   "void initializeEepromVars() \x7b",
   "$eepromVarsInitialization",
   "\x7d",
   "\x7d",
   "",
   "$loopersSection",
   "",
   "void setup() \x7b",
   "$setup",
   "\x7d",
   "",
   "void loop() \x7b",
   "$loop",
   "\x7d"]

/-- Lines of the template `acp_core_loopers_array.cpp`. -/
def looperTableLines : List String :=
  ["// Loopers",
   "namespace $privateNamespace \x7b",
   "",
   "// Type for pointer to LooperHandler function",
   "typedef unsigned long (*LooperHandler)();",
   "",
   "// Looper record",
   "struct Looper \x7b",
   "\t// Time of the next handler call",
   "\tunsigned long nextCall;",
   "\t// State of the looper",
   "\tbyte state;",
   "\t// Handler of looper",
   "\tLooperHandler handler;",
   "\x7d;",
   "",
   "// Generated looper handlers",
   "$looperHandlers",
   "// End of looper handlers",
   "",
   "#define ENABLED 1",
   "#define DISABLED 0",
   "#define EXECUTED_ENABLED 2",
   "#define EXECUTED_DISABLED 3",
   "",
   "// Loopers",
   "#define LOOPERS_COUNT $numberOfLoopers",
   "Looper loopers[LOOPERS_COUNT] = \x7b $loopersInit \x7d;",
   "Looper* pq[LOOPERS_COUNT] = $pqInit;",
   "int pqSize = LOOPERS_COUNT;",
   "unsigned long now = 0;",
   "",
   "// Process loopers",
   "inline void processLoopers() \x7b",
   "\tif (pqSize == 0) \x7b",
   "\t\treturn;",
   "\t\x7d",
   "",
   "\t// Update current time from the view of looper",
   "\tnow = millis();",
   "",
   "\t// Process expired handlers",
   "\twhile (true) \x7b",
   "\t\tLooper* activeLooper = pq[0];",
   "",
   "\t\t// Check the first expected looper",
   "\t\tif ((pqSize == 0) || (activeLooper->nextCall > now)) \x7b",
   "\t\t\tbreak;",
   "\t\t\x7d",
   "",
   "\t\t// Execute handler and store time of the next call",
   "\t\tactiveLooper->state = EXECUTED_ENABLED;",
   "\t\tactiveLooper->nextCall = now + activeLooper->handler();",
   "",
   "\t\t// Move readPos to position of active looper",
   "\t\tLooper** readPos = pq;",
   "\t\twhile (*readPos != activeLooper) \x7b",
   "\t\t\treadPos++;",
   "\t\t\x7d",
   "",
   "\t\t// Set writePos to position of active looper and readPos to position of next looper",
   "\t\tLooper** writePos = readPos;",
   "\t\treadPos++;",
   "\t\tLooper** const end = pq + pqSize;",
   "",
   "\t\tif (activeLooper->state == EXECUTED_ENABLED) \x7b",
   "\t\t\t// EXECUTED_ENABLED",
   "\t\t\tconst unsigned long nextCall = activeLooper->nextCall;",
   "\t\t\twhile ((readPos != end) && ((*readPos)->nextCall <= nextCall)) \x7b",
   "\t\t\t\t*writePos = *readPos;",
   "\t\t\t\twritePos++;",
   "\t\t\t\treadPos++;",
   "\t\t\t\x7d",
   "\t\t\t*writePos = activeLooper;",
   "\t\t\tactiveLooper->state = ENABLED;",
   "\t\t\x7d else \x7b",
   "\t\t\t// EXECUTED_DISABLED",
   "\t\t\twhile (readPos != end) \x7b",
   "\t\t\t\t*writePos = *readPos;",
   "\t\t\t\twritePos++;",
   "\t\t\t\treadPos++;",
   "\t\t\t\x7d",
   "\t\t\tpqSize--;",
   "\t\t\tactiveLooper->state = DISABLED;",
   "\t\t\x7d",
   "\t\x7d",
   "\x7d",
   "\x7d",
   "",
   "// Accessible controller methods",
   "namespace acp \x7b",
   "",
   "using namespace $privateNamespace;",
   "",
   "// Enables a looper",
   "void enableLooper(int looperId) \x7b",
   "\tLooper* const looper = &loopers[looperId];",
   "\tif ((looper->state == ENABLED) || (looper->state == EXECUTED_ENABLED)) \x7b",
   "\t\treturn;",
   "\t\x7d",
   "",
   "\tif (looper->state == EXECUTED_DISABLED) \x7b",
   "\t\tlooper->state = EXECUTED_ENABLED;",
   "\t\treturn;",
   "\t\x7d",
   "",
   "\tlooper->state = ENABLED;",
   "\tlooper->nextCall = now;",
   "",
   "\tLooper** writePos = pq + pqSize;",
   "\tLooper** readPos = writePos - 1;",
   "\twhile (writePos != pq) \x7b",
   "\t\t*writePos = *readPos;",
   "\t\twritePos--;",
   "\t\treadPos--;",
   "\t\x7d",
   "",
   "\tpqSize++;",
   "\tpq[0] = looper;",
   "\x7d",
   "",
   "// Disables a looper",
   "void disableLooper(int looperId) \x7b",
   "\tLooper* const looper = &loopers[looperId];",
   "\tif ((looper->state == DISABLED) || (looper->state == EXECUTED_DISABLED)) \x7b",
   "\t\treturn;",
   "\t\x7d",
   "",
   "\tif (looper->state == EXECUTED_ENABLED) \x7b",
   "\t\tlooper->state = EXECUTED_DISABLED;",
   "\t\treturn;",
   "\t\x7d",
   "",
   "\tlooper->state = DISABLED;",
   "",
   "\tLooper** readPos = pq;",
   "\twhile (*readPos != looper) \x7b",
   "\t\treadPos++;",
   "\t\x7d",
   "",
   "\tLooper** const end = pq + pqSize;",
   "\tLooper** writePos = readPos;",
   "\treadPos++;",
   "\twhile (readPos != end) \x7b",
   "\t\t*writePos = *readPos;",
   "\t\twritePos++;",
   "\t\treadPos++;",
   "\t\x7d",
   "\tpqSize--;",
   "\x7d",
   "\x7d"]

/-- Lines of the template `acp_eeprom_vars.h`. -/
def storageHeaderLines : List String :=
  ["#ifndef ACP_EEPROM_VARS_H_",
   "#define ACP_EEPROM_VARS_H_",
   "",
   "#include <Arduino.h>",
   "#include <EEPROM.h>",
   "",
   "namespace $privateNamespace \x7b",
   "",
   "\t//--------------------------------------------------------------------------------",
   "\t// Reads a value from EEPROM",
   "\ttemplate<typename TYPE> TYPE readEEPROMVar(size_t offset) \x7b",
   "\t\tnoInterrupts();",
   "\t\tTYPE result;",
   "\t\tuint8_t* p = (uint8_t*)&result;",
   "\t\tfor (int i=0; i<sizeof(TYPE); i++) \x7b",
   "\t\t\t*p = EEPROM.read(offset);",
   "\t\t\tp++;",
   "\t\t\toffset++;",
   "\t\t\x7d",
   "\t\tinterrupts();",
   "\t\treturn result;",
   "\t\x7d",
   "",
   "\t//--------------------------------------------------------------------------------",
   "\t// Writes a value to EEPROM",
   "\ttemplate<typename TYPE> void writeEEPROMVar(size_t offset, TYPE value) \x7b",
   "\t\tnoInterrupts();",
   "\t\tuint8_t* p = (uint8_t*)&value;",
   "\t\tfor (int i=0; i<sizeof(TYPE); i++) \x7b",
   "\t\t\tEEPROM.write(offset, *p);",
   "\t\t\tp++;",
   "\t\t\toffset++;",
   "\t\t\x7d",
   "\t\tinterrupts();",
   "\t\x7d",
   "",
   "\t//--------------------------------------------------------------------------------",
   "\t// Updates the value in EEPROM",
   "\ttemplate<typename TYPE> void updateEEPROMVar(size_t offset, TYPE value) \x7b",
   "\t\tnoInterrupts();",
   "\t\tuint8_t* p = (uint8_t*)&value;",
   "\t\tfor (int i=0; i<sizeof(TYPE); i++) \x7b",
   "\t\t\tuint8_t oldValue = EEPROM.read(offset);",
   "\t\t\tif (oldValue != *p) \x7b",
   "\t\t\t\tEEPROM.write(offset, *p);",
   "\t\t\t\x7d",
   "\t\t\tp++;",
   "\t\t\toffset++;",
   "\t\t\x7d",
   "\t\tinterrupts();",
   "\t\x7d",
   "",
   "\t//--------------------------------------------------------------------------------",
   "\t// Checks current version of eeprom layout",
   "\tbool checkEepromVersion(unsigned long versionCode);",
   "",
   "\t//--------------------------------------------------------------------------------",
   "\t// Stores version of eeprom layout",
   "\tvoid writeEepromVersion(unsigned long versionCode);",
   "\x7d",
   "",
   "namespace acp \x7b",
   "",
   "\t/********************************************************************************",
   "\t * The class warping access to a EEPROM variable.",
   "\t ********************************************************************************/",
   "\ttemplate <typename TYPE, int OFFSET> class EEPROMVar \x7b",
   "\tpublic:",
   "\t\t//--------------------------------------------------------------------------------",
   "\t\t// Returns the value of variable by reading content of variable directly from EEPROM.",
   "\t\tinline TYPE getValue() \x7b",
   "\t\t\treturn $privateNamespace::readEEPROMVar<TYPE>(OFFSET);",
   "\t\t\x7d",
   "",
   "\t\t//--------------------------------------------------------------------------------",
   "\t\t// Initializes the variable",
   "\t\tinline void init() \x7b",
   "",
   "\t\t\x7d",
   "",
   "\t\t//--------------------------------------------------------------------------------",
   "\t\t// Returns the value of variable by reading content of variable directly from EEPROM.",
   "\t\tinline void setValue(TYPE value) \x7b",
   "\t\t\t$privateNamespace::updateEEPROMVar<TYPE>(OFFSET, value);",
   "\t\t\x7d",
   "\t\x7d;",
   "",
   "\t/********************************************************************************",
   "\t * The class warping access to a EEPROM variable with a SRAM cached value.",
   "\t ********************************************************************************/",
   "\ttemplate <typename TYPE, int OFFSET> class EEPROMCachedVar \x7b",
   "\tprivate:",
   "\t\tTYPE value;",
   "\tpublic:",
   "\t\t//--------------------------------------------------------------------------------",
   "\t\t// Initializes the variable",
   "\t\tinline void init() \x7b",
   "\t\t\tvalue = $privateNamespace::readEEPROMVar<TYPE>(OFFSET);",
   "\t\t\x7d",
   "",
   "\t\t//--------------------------------------------------------------------------------",
   "\t\t// Returns the value of variable.",
   "\t\tinline TYPE getValue() \x7b",
   "\t\t\treturn value;",
   "\t\t\x7d",
   "",
   "\t\t//--------------------------------------------------------------------------------",
   "\t\t// Sets the value of variable.",
   "\t\tinline void setValue(TYPE newValue) \x7b",
   "\t\t\tif (newValue != value) \x7b",
   "\t\t\t\tvalue = newValue;",
   "\t\t\t\t$privateNamespace::updateEEPROMVar<TYPE>(OFFSET, value);",
   "\t\t\t\x7d",
   "\t\t\x7d",
   "\t\x7d;",
   "",
   "\t/********************************************************************************",
   "\t * The class wrapping access to an array stored in EEPROM.",
   "\t ********************************************************************************/",
   "\ttemplate <typename TYPE, int OFFSET, int LENGTH> class EEPROMArray \x7b",
   "\tpublic:",
   "\t\t//--------------------------------------------------------------------------------",
   "\t\t// Initializes the array",
   "\t\tinline void init() \x7b",
   "",
   "\t\t\x7d",
   "",
   "\t\t//--------------------------------------------------------------------------------",
   "\t\t// Returns number of items in the array.",
   "\t\tinline int length() \x7b",
   "\t\t\treturn LENGTH;",
   "\t\t\x7d",
   "",
   "\t\t//--------------------------------------------------------------------------------",
   "\t\t// Returns the item at given index by reading it directly from EEPROM.",
   "\t\tinline TYPE getValue(int index) \x7b",
   "\t\t\treturn $privateNamespace::readEEPROMVar<TYPE>(OFFSET + index * sizeof(TYPE));",
   "\t\t\x7d",
   "",
   "\t\t//--------------------------------------------------------------------------------",
   "\t\t// Sets the item at given index.",
   "\t\tinline void setValue(int index, TYPE value) \x7b",
   "\t\t\t$privateNamespace::updateEEPROMVar<TYPE>(OFFSET + index * sizeof(TYPE), value);",
   "\t\t\x7d",
   "",
   "\t\t//--------------------------------------------------------------------------------",
   "\t\t// Sets all items of the array to given value.",
   "\t\tinline void fill(TYPE value) \x7b",
   "\t\t\tfor (int i=0; i<LENGTH; i++) \x7b",
   "\t\t\t\tsetValue(i, value);",
   "\t\t\t\x7d",
   "\t\t\x7d",
   "\t\x7d;",
   "",
   "\t/********************************************************************************",
   "\t * The class wrapping access to an array stored in EEPROM with SRAM cached items.",
   "\t ********************************************************************************/",
   "\ttemplate <typename TYPE, int OFFSET, int LENGTH> class EEPROMCachedArray \x7b",
   "\tprivate:",
   "\t\tTYPE values[LENGTH];",
   "\tpublic:",
   "\t\t//--------------------------------------------------------------------------------",
   "\t\t// Initializes the array",
   "\t\tinline void init() \x7b",
   "\t\t\tfor (int i=0; i<LENGTH; i++) \x7b",
   "\t\t\t\tvalues[i] = $privateNamespace::readEEPROMVar<TYPE>(OFFSET + i * sizeof(TYPE));",
   "\t\t\t\x7d",
   "\t\t\x7d",
   "",
   "\t\t//--------------------------------------------------------------------------------",
   "\t\t// Returns number of items in the array.",
   "\t\tinline int length() \x7b",
   "\t\t\treturn LENGTH;",
   "\t\t\x7d",
   "",
   "\t\t//--------------------------------------------------------------------------------",
   "\t\t// Returns the item at given index.",
   "\t\tinline TYPE getValue(int index) \x7b",
   "\t\t\treturn values[index];",
   "\t\t\x7d",
   "",
   "\t\t//--------------------------------------------------------------------------------",
   "\t\t// Sets the item at given index.",
   "\t\tinline void setValue(int index, TYPE newValue) \x7b",
   "\t\t\tif (newValue != values[index]) \x7b",
   "\t\t\t\tvalues[index] = newValue;",
   "\t\t\t\t$privateNamespace::updateEEPROMVar<TYPE>(OFFSET + index * sizeof(TYPE), newValue);",
   "\t\t\t\x7d",
   "\t\t\x7d",
   "",
   "\t\t//--------------------------------------------------------------------------------",
   "\t\t// Sets all items of the array to given value.",
   "\t\tinline void fill(TYPE value) \x7b",
   "\t\t\tfor (int i=0; i<LENGTH; i++) \x7b",
   "\t\t\t\tsetValue(i, value);",
   "\t\t\t\x7d",
   "\t\t\x7d",
   "\t\x7d;",
   "\x7d",
   "",
   "#endif /* ACP_EEPROM_VARS_H_ */"]

/-- Lines of the template `acp_eeprom_vars.cpp`. -/
def storageSourceLines : List String :=
  ["#include <$acpEepromHeaderFile>",
   "",
   "namespace $privateNamespace \x7b",
   "",
   "\t//--------------------------------------------------------------------------------",
   "\t// Checks current version of eeprom layout",
   "\tbool checkEepromVersion(unsigned long versionCode) \x7b",
   "\t\tnoInterrupts();",
   "\t\tfor (int i=0; i<4; i++) \x7b",
   "\t\t\tif (versionCode % 256 != EEPROM.read(i)) \x7b",
   "\t\t\t\tinterrupts();",
   "\t\t\t\treturn false;",
   "\t\t\t\x7d",
   "\t\t\tversionCode = versionCode / 256;",
   "\t\t\x7d",
   "\t\tinterrupts();",
   "\t\treturn true;",
   "\t\x7d",
   "",
   "\t//--------------------------------------------------------------------------------",
   "\t// Stores version of eeprom layout",
   "\tvoid writeEepromVersion(unsigned long versionCode) \x7b",
   "\t\tnoInterrupts();",
   "\t\tfor (int i=0; i<4; i++) \x7b",
   "\t\t\tuint8_t newValue = versionCode % 256;",
   "\t\t\tif (newValue != EEPROM.read(i)) \x7b",
   "\t\t\t\tEEPROM.write(i, newValue);",
   "\t\t\t\x7d",
   "",
   "\t\t\tversionCode = versionCode / 256;",
   "\t\t\x7d",
   "\t\tinterrupts();",
   "\t\x7d",
   "\x7d"]

/-- Lines of the template `acp_project.h`. -/
def projectHeaderLines : List String :=
  ["// Autogenerated by the ACP builder. Do not edit.",
   "#ifndef ACP_PROJECT_H_INCLUDED",
   "#define ACP_PROJECT_H_INCLUDED",
   "",
   "#include <Arduino.h>",
   "#include <acp/core.h>",
   "$includes",
   "",
   "// Number of EEPROM bytes used by eeprom variables",
   "#define ACP_EEPROM_USAGE $eepromUsage",
   "",
   "// Views",
   "$views",
   "",
   "// EEPROM variables",
   "$eepromVars",
   "",
   "#endif // ACP_PROJECT_H_INCLUDED"]

/-- Lines of the template `example.ino`. -/
def sketchLines : List String :=
  ["$includes",
   "",
   "$objectSummary",
   "",
   "$callbacks"]

/-- Lines of the template `library.properties`. -/
def manifestLines : List String :=
  ["name=$libraryName",
   "version=1.0.0",
   "author=ACP builder",
   "maintainer=ACP builder",
   "sentence=Library generated by the ACP builder.",
   "paragraph=Include $libraryName.h in a sketch and implement the event callbacks.",
   "category=Other",
   "url=",
   "architectures=avr"]

/-- The text of a template. -/
def text : StoredTemplate → String
  | .coreHeader => ended "\r\n" coreHeaderLines
  | .coreSource => ended "\n" coreSourceLines
  | .looperTable => ended "\r\n" looperTableLines
  | .storageHeader => ended "\r\n" storageHeaderLines
  | .storageSource => ended "\r\n" storageSourceLines
  | .projectHeader => ended "\n" projectHeaderLines
  | .sketch => ended "\n" sketchLines
  | .manifest => ended "\n" manifestLines

/-- The file name of a template. -/
def name : StoredTemplate → String
  | .coreHeader => "acp_core.h"
  | .coreSource => "acp_core.cpp"
  | .looperTable => "acp_core_loopers_array.cpp"
  | .storageHeader => "acp_eeprom_vars.h"
  | .storageSource => "acp_eeprom_vars.cpp"
  | .projectHeader => "acp_project.h"
  | .sketch => "example.ino"
  | .manifest => "library.properties"

/-- All templates. -/
def all : List StoredTemplate :=
  [.coreHeader, .coreSource, .looperTable, .storageHeader, .storageSource, .projectHeader, .sketch,
   .manifest]

/-- The template with a file name. -/
def ofName? (name : String) : Option StoredTemplate :=
  all.find? fun t => t.name == name

/-- Fills in the template with a file name, if there is one. -/
def fillNamed (name : String) (r : Template.Replacements) : Except Failure String :=
  match ofName? name with
  | some t => .ok (Template.fill t.text r)
  | none => .error (.compilation ("Unavailable template resource: " ++ name))

end StoredTemplate

end Boardwright.Generation
