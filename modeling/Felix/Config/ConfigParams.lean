import Mathlib

/-!
# Resolving the configuration

Felix reads its parameters from five sources: the datastore's global and per-host
configuration, the config file, the environment and internal overrides, each overriding the
ones before it. `UpdateFrom` (`config/config_params.go`) stores the raw map one source gives,
without its empty values, and `resolve` computes every parameter again: it walks the sources
from the highest, and each raw value of a known parameter is validated (`none` is the zero
value, and a value that does not parse is an error for a parameter that dies on a parse
failure, or else the default) and then written to the parameter's field unless a higher source
already gave it. Names are compared lower-cased, so a source may spell a name in any case; a
local-only parameter is only read from a local source. The first invalid value stops `resolve`
with the fields written so far.

The parameters' values are of a type `V`, and their fields are a function from the field's name
to its value, written as the source writes them through reflection. `strings.ToLower` is the
parameter `toLower`, and the table `knownParams` of the parameters by lower-cased name is a
parameter too. A Go map is a list of its entries, in the order a `range` visits them.

## Main definitions

* `Source`, `sourcesInDescendingOrder`, `Source.isLocal`
* `Metadata`, `Param`, `Config`
* `parseValue`, `resolveValue`, `Config.resolve`, `Config.updateFrom`
-/

namespace Felix.ConfigParams

/-- `Source`: where a value comes from; a higher number overrides a lower one. -/
inductive Source where
  | default
  | datastoreGlobal
  | datastorePerHost
  | configFile
  | environmentVariable
  | internalOverride
  deriving DecidableEq

/-- The number of a source, as its `uint8`. -/
def Source.toNat : Source → ℕ
  | .default => 0
  | .datastoreGlobal => 1
  | .datastorePerHost => 2
  | .configFile => 3
  | .environmentVariable => 4
  | .internalOverride => 5

/-- `SourcesInDescendingOrder`: every source but the defaults, the highest first. -/
def sourcesInDescendingOrder : List Source :=
  [.internalOverride, .environmentVariable, .configFile, .datastorePerHost, .datastoreGlobal]

/-- `Source.Local`: the sources local to the host. -/
def Source.isLocal : Source → Bool
  | .default | .configFile | .environmentVariable | .internalOverride => true
  | .datastoreGlobal | .datastorePerHost => false

/-- `Metadata` of a parameter. -/
structure Metadata (V : Type) where
  name : String
  default : V
  zeroValue : V
  nonZero : Bool
  dieOnParseFailure : Bool
  «local» : Bool

/-- A known parameter: its metadata and its `Parse`. -/
structure Param (V : Type) where
  metadata : Metadata V
  parse : String → Except String V

/-- The part of `Config` that `UpdateFrom` reads and writes: the parameter fields by name, the
raw values of the parameters in effect, the raw map of each source, and `Err`. -/
structure Config (V : Type) where
  fields : String → V
  rawValues : AList (fun _ : String => String)
  sourceToRawConfig : Source → List (String × String)
  err : Option String

/-- What the loops of `resolve` keep: the fields written so far, `newRawValues`, and
`nameToSource`, the source of the value taken for each lower-cased name, `Default` where there is
none yet. -/
structure Resolving (V : Type) where
  fields : String → V
  newRawValues : AList (fun _ : String => String)
  nameToSource : String → Source

section Resolve

variable {V : Type} (toLower : String → String) (knownParams : String → Option (Param V))

/-- The value of a raw value of a known parameter: `none`, in any case, is the zero value, and an
error for a non-zero parameter; any other value is parsed, and one that does not parse is an
error for a parameter that dies on a parse failure and the default for any other. -/
def parseValue (param : Param V) (rawValue : String) : Except String V :=
  if toLower rawValue = "none" then
    if param.metadata.nonZero then .error "non-zero field cannot be set to none"
    else .ok param.metadata.zeroValue
  else
    match param.parse rawValue with
    | .ok value => .ok value
    | .error err =>
      if param.metadata.dieOnParseFailure then .error err else .ok param.metadata.default

/-- One raw value of `source`, in `resolve`'s inner loop. An unknown name is stashed under its
raw name unless a higher source has the name. A local-only parameter from a source that is not
local is skipped. Any other value is validated, and an invalid one stops the loops with the
state so far; a valid one is written unless a higher source already gave the parameter. -/
def resolveValue (source : Source) (st : Resolving V) (raw : String × String) :
    Except (String × Resolving V) (Resolving V) :=
  let (rawName, rawValue) := raw
  let lowerCaseName := toLower rawName
  let currentSource := st.nameToSource lowerCaseName
  match knownParams lowerCaseName with
  | none =>
    if source.toNat ≥ currentSource.toNat then
      .ok { st with
        newRawValues := st.newRawValues.insert rawName rawValue
        nameToSource := Function.update st.nameToSource lowerCaseName source }
    else .ok st
  | some param =>
    if param.metadata.«local» && !source.isLocal then .ok st
    else
      match parseValue toLower param rawValue with
      | .error err => .error (err, st)
      | .ok value =>
        if source.toNat < currentSource.toNat then .ok st
        else
          .ok { fields := Function.update st.fields param.metadata.name value
                newRawValues := st.newRawValues.insert param.metadata.name rawValue
                nameToSource := Function.update st.nameToSource lowerCaseName source }
attribute [grind] resolveValue

/-- The loops of `resolve`: the sources from the highest, and each source's raw values. -/
def resolveLoop (sourceToRawConfig : Source → List (String × String)) (st : Resolving V) :
    Except (String × Resolving V) (Resolving V) :=
  sourcesInDescendingOrder.foldlM (fun st source =>
    (sourceToRawConfig source).foldlM (resolveValue toLower knownParams source) st) st

/-- `reflect.DeepEqual` on two `map[string]string`: the same size, and every entry of the
first in the second. -/
def deepEqual (a b : AList (fun _ : String => String)) : Bool :=
  a.keys.length == b.keys.length && a.entries.all fun e => b.lookup e.1 == some e.2

/-- `resolve`: the config after the loops and whether its raw values changed. When a value is
invalid, the fields written so far stay, `Err` is set and the error returned. -/
def Config.resolve (config : Config V) : Config V × Bool × Option String :=
  match resolveLoop toLower knownParams config.sourceToRawConfig
      ⟨config.fields, ∅, fun _ => .default⟩ with
  | .ok st =>
    ({ config with fields := st.fields, rawValues := st.newRawValues },
      !deepEqual st.newRawValues config.rawValues, none)
  | .error (err, st) => ({ config with fields := st.fields, err := some err }, false, some err)

/-- `UpdateFrom`: the source's raw map, without its empty values, replaces the one it gave
before, and the config is resolved again. -/
def Config.updateFrom (config : Config V) (rawData : List (String × String)) (source : Source) :
    Config V × Bool × Option String :=
  let rawDataCopy := rawData.filter fun e => e.2 ≠ ""
  Config.resolve toLower knownParams
    { config with sourceToRawConfig := Function.update config.sourceToRawConfig source rawDataCopy }
attribute [grind] Config.updateFrom

end Resolve

end Felix.ConfigParams
