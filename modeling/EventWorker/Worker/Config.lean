import EventWorker.Catalogue
import EventWorker.Json.Reader
import EventWorker.Json.Record
import EventWorker.Text.Blank

/-!
# The configuration

A worker is configured by one JSON document: named fragments of processor lists,
a pipeline for each label, and the providers with their configuration lines. A
processor or provider may be given under `class` instead of its usual key.
-/

namespace EventWorker

open Json (Value Fields FieldSpec)

/-- A provider by name, with its configuration line. -/
structure ProviderSpec where
  name : String
  line : String := ""
  deriving DecidableEq, Repr, Inhabited

/-- A processor by name, with its configuration line. -/
structure ProcessorSpec where
  name : String
  line : String := ""
  deriving DecidableEq, Repr, Inhabited

/-- An element of a processor list: a reference to a fragment, as written, or a
processor. -/
inductive Element
  | reference (text : String)
  | processor (spec : ProcessorSpec)
  deriving DecidableEq, Repr

/-- Named processor lists, in the order of their names. -/
abbrev Fragments := List (String × List Element)

/-- The two lists of a pipeline. -/
structure PipelineSpec where
  main : List Element := []
  final : List Element := []
  deriving DecidableEq, Repr, Inhabited

/-- Pipelines by label, in the order of the labels. -/
abbrev Pipelines := List (String × PipelineSpec)

/-- The whole configuration. -/
structure Config where
  fragments : Fragments
  pipelines : Pipelines
  input : ProviderSpec
  output : ProviderSpec
  database : ProviderSpec
  ledger : ProviderSpec
  logging : ProviderSpec
  /-- By names that nothing else refers to, in their order. -/
  ciphers : List (String × ProviderSpec)
  integrity : ProviderSpec
  encoding : ProviderSpec
  deriving DecidableEq, Repr

/-- Why there is no configuration. -/
inductive ConfigError
  | unreadable (path reason : String)
  | malformed (reason : String)
  | missingKey (key : String) (code : Nat)
  | noPath
  deriving DecidableEq, Repr

namespace ConfigError

/-- The variable that names the configuration file. -/
def pathVariable : String := "DOP_WORKER_CONFIG"

/-- The text of an error. -/
def message : ConfigError → String
  | .unreadable path reason => "Cannot read configuration file " ++ path ++ ": " ++ reason
  | .malformed reason => "Error in parsing the configuration file: " ++ reason
  | .missingKey key _ => "Configuration value error: " ++ key ++ " key is undefined/missing"
  | .noPath => "No configuration file given (argument or " ++ pathVariable ++ ")"

/-- The code of an error. -/
def code : ConfigError → Nat
  | .missingKey _ code => code
  | _ => Code.configParse.id

/-- The terminal failure reported for an error. -/
def toFailure (e : ConfigError) : Failure :=
  (Failure.new e.code e.message).terminal

end ConfigError

/-- A name under `key` or `class`, and a configuration line. -/
def namedLine? (key : String) (v : Value) : Option (String × String) := do
  let [some name, line] ←
    Json.record? [{ names := [key, "class"] }, { names := ["configuration"], optional := true }] v
    | none
  let name ← name.str?
  match line with
  | none => return (name, "")
  | some line => return (name, ← line.str?)

/-- A name and a configuration line as an object. -/
def namedLineValue (key name line : String) : Value :=
  .object [(key, .str name), ("configuration", .str line)]

/-- The values of an object, each read by `f`. -/
def mapFields? {α : Type} (f : Value → Option α) (v : Value) : Option (List (String × α)) :=
  v.fields?.bind fun fields => fields.mapM fun (k, v) => (f v).map fun a => (k, a)

namespace ProviderSpec

/-- The provider of its JSON form. -/
def ofValue? (v : Value) : Option ProviderSpec :=
  (namedLine? "provider" v).map fun (name, line) => { name, line }

/-- The JSON form of a provider. -/
def toValue (s : ProviderSpec) : Value :=
  namedLineValue "provider" s.name s.line

end ProviderSpec

namespace ProcessorSpec

/-- The processor of its JSON form. -/
def ofValue? (v : Value) : Option ProcessorSpec :=
  (namedLine? "processor" v).map fun (name, line) => { name, line }

/-- The JSON form of a processor. -/
def toValue (s : ProcessorSpec) : Value :=
  namedLineValue "processor" s.name s.line

end ProcessorSpec

namespace Element

/-- The sign before the name of a fragment. -/
def sigil : Char := '$'

/-- The fragment that an element refers to. A reference without the sign and a
processor refer to none. -/
def target? : Element → Option String
  | .processor _ => none
  | .reference text =>
    match text.toList with
    | c :: name => if c = sigil then some (String.ofList name) else none
    | [] => none

/-- The element of its JSON form: any string is a reference. -/
def ofValue? : Value → Option Element
  | .str text => some (.reference text)
  | v => (ProcessorSpec.ofValue? v).map .processor

/-- The JSON form of an element. -/
def toValue : Element → Value
  | .reference text => .str text
  | .processor spec => spec.toValue

/-- The elements of the JSON form of a list. -/
def listOfValue? (v : Value) : Option (List Element) :=
  v.items?.bind fun items => items.mapM ofValue?

/-- The JSON form of a list of elements. -/
def listToValue (es : List Element) : Value :=
  .arr (es.map toValue)

end Element

namespace Fragments

/-- The fragments of their JSON form. -/
def ofValue? (v : Value) : Option Fragments :=
  mapFields? Element.listOfValue? v

end Fragments

namespace PipelineSpec

/-- The pipeline of its JSON form. -/
def ofValue? (v : Value) : Option PipelineSpec := do
  let [main, final] ←
    Json.record? [{ names := ["main"], optional := true },
      { names := ["finally"], optional := true }] v
    | none
  let elements (part : Option Value) : Option (List Element) :=
    match part with
    | none => some []
    | some v => Element.listOfValue? v
  return { main := ← elements main, final := ← elements final }

/-- The JSON form of a pipeline. -/
def toValue (p : PipelineSpec) : Value :=
  .object [("main", Element.listToValue p.main), ("finally", Element.listToValue p.final)]

end PipelineSpec

namespace Pipelines

/-- The pipelines of their JSON form. -/
def ofValue? (v : Value) : Option Pipelines :=
  mapFields? PipelineSpec.ofValue? v

end Pipelines

namespace Config

/-- The keys that must be there, in the order in which they are missed. -/
def requiredKeys : List (String × Code) :=
  [("inputProvider", Code.configInput), ("outputProvider", Code.configOutput),
   ("databaseProvider", Code.configDatabase), ("blockchainWorkerProvider", Code.configLedger),
   ("pipelines", Code.configPipelines), ("loggingProvider", Code.configLogging),
   ("integrityProvider", Code.configIntegrity), ("cryptoProviders", Code.configCrypto),
   ("encodingProvider", Code.configEncoding)]

/-- The configuration of the fields of a document. -/
def ofFields? (fields : Fields) : Option Config := do
  let provider (key : String) : Option ProviderSpec :=
    (Keyed.find? key fields).bind ProviderSpec.ofValue?
  let fragments ←
    match Keyed.find? "macros" fields with
    | none => some []
    | some v => Fragments.ofValue? v
  return {
    fragments
    pipelines := ← (Keyed.find? "pipelines" fields).bind Pipelines.ofValue?
    input := ← provider "inputProvider"
    output := ← provider "outputProvider"
    database := ← provider "databaseProvider"
    ledger := ← provider "blockchainWorkerProvider"
    logging := ← provider "loggingProvider"
    ciphers := ← (Keyed.find? "cryptoProviders" fields).bind (mapFields? ProviderSpec.ofValue?)
    integrity := ← provider "integrityProvider"
    encoding := ← provider "encodingProvider" }

/-- The reason given for a document that is no object. -/
def notObjectText : String := "top level is not an object"

/-- The reason given for a text that is no JSON. -/
def notJsonText : String := "the text is not a JSON value"

/-- The reason given for a document with a field of another form. -/
def badFieldText : String := "a field does not have its form"

/-- The configuration of a document. A missing key is reported before any
malformed one. -/
def parse (text : String) : Except ConfigError Config :=
  match Json.parse? text with
  | none => .error (.malformed notJsonText)
  | some (.obj fields) =>
    match requiredKeys.find? fun entry => !Keyed.contains entry.1 fields with
    | some (key, code) => .error (.missingKey key code.id)
    | none =>
      match ofFields? fields with
      | some c => .ok c
      | none => .error (.malformed badFieldText)
  | some _ => .error (.malformed notObjectText)

/-- The JSON form of a configuration. -/
def toValue (c : Config) : Value :=
  .object
    [("macros", .object (c.fragments.map fun (k, es) => (k, Element.listToValue es))),
     ("pipelines", .object (c.pipelines.map fun (k, p) => (k, p.toValue))),
     ("inputProvider", c.input.toValue), ("outputProvider", c.output.toValue),
     ("databaseProvider", c.database.toValue),
     ("blockchainWorkerProvider", c.ledger.toValue), ("loggingProvider", c.logging.toValue),
     ("cryptoProviders", .object (c.ciphers.map fun (k, s) => (k, s.toValue))),
     ("integrityProvider", c.integrity.toValue), ("encodingProvider", c.encoding.toValue)]

/-- The configuration in a file, given what reading the file came to. -/
def load (path : String) (contents : Except String String) : Except ConfigError Config :=
  match contents with
  | .ok text => parse text
  | .error reason => .error (.unreadable path reason)

/-- The path of the configuration file: the argument if there is one, else the
fallback. A blank path is none, and a blank argument hides the fallback. -/
def path (argument fallback : Option String) : Except ConfigError String :=
  match (argument.or fallback).filter fun p => Text.trimmed p ≠ "" with
  | some p => .ok p
  | none => .error .noPath

end Config

end EventWorker
