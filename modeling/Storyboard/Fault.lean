/-!
# Storyboard.Fault

Everything that can go wrong, as causes.  A *refusal* is the library's verdict on an
input it was given (a field that breaks a rule, a file that holds no mapping); an
*inconsistency* is a specification from which no graph can be built; the other faults
come from arithmetic and from reading files, and carry no text of their own.

The wording of refusals and inconsistencies is in `Refusal.message` and
`Inconsistency.message` and nowhere else, so a rule never mentions its text.
-/

namespace Storyboard

/-- Where a field stands in a specification. -/
inductive Place
  /-- A section or list at the top. -/
  | root (name : String)
  /-- A field of a mapping. -/
  | field (owner : Place) (name : String)
  /-- An item of a list, counted from zero. -/
  | item (owner : Place) (index : Nat)
  deriving DecidableEq, Repr

/-- A place in dotted form: `scenes[0].layers[1].position`. -/
def Place.text : Place → String
  | .root name => name
  | .field owner name => owner.text ++ "." ++ name
  | .item owner index => owner.text ++ "[" ++ toString index ++ "]"

/-- What a field has to be. -/
inductive Demand
  | mapping
  | list
  | filledList
  | number
  | positive
  | atLeast (bound : Int)
  | atMost (bound : Int)
  | integer
  | string
  | filledString
  | oneOf (choices : List String)
  | boolean
  | colorString
  | twoColors
  | colorOrImage
  | afterStart
  deriving DecidableEq, Repr

/-- A demand as the end of a sentence whose subject is the field. -/
def Demand.text : Demand → String
  | .mapping => "must be a mapping"
  | .list => "must be a list"
  | .filledList => "must be a non-empty list"
  | .number => "must be a number"
  | .positive => "must be positive"
  | .atLeast bound => "must be >= " ++ toString bound
  | .atMost bound => "must be <= " ++ toString bound
  | .integer => "must be an integer"
  | .string => "must be a string"
  | .filledString => "must be a non-empty string"
  | .oneOf choices => "must be one of " ++ String.intercalate ", " choices
  | .boolean => "must be true or false"
  | .colorString => "must be a color string"
  | .twoColors => "must list at least two colors"
  | .colorOrImage => "must be color or image"
  | .afterStart => "must be after start"

/-- The sections whose `type` field chooses among variants. -/
inductive Variant
  | background
  | layer
  | thumbnailSource
  deriving DecidableEq, Repr

/-- A section as it is named in a refusal. -/
def Variant.text : Variant → String
  | .background => "background"
  | .layer => "layer"
  | .thumbnailSource => "thumbnail source"

/-- Why an input is refused. -/
inductive Refusal
  | timeMissing
  | timeNotNumeric
  | rateMissing
  | rateNotNumeric
  | rateUnreadable (text : String)
  | noSpecFile
  | specTooLarge
  | specNotMapping
  | broken (place : Place) (demand : Demand)
  | notColor (place : Place) (value : String)
  | sizeMissing (place : Place)
  | duplicateId (place : Place) (id : String)
  | unsupported (variant : Variant) (type : String) (place : Place)
  | sceneNotFound (id : String)
  | anchorUnknown
  | modeUnknown
  | notSceneFrame
  | thumbnailDisabled
  | videoMissing
  | cardUnsupported (kind : String)
  | metaNotObject (path : String)
  deriving DecidableEq, Repr

/-- The text of a refusal. -/
def Refusal.message : Refusal → String
  | .timeMissing => "time value is required"
  | .timeNotNumeric => "time values must be numeric"
  | .rateMissing => "output.fps is required"
  | .rateNotNumeric => "output.fps must be int, float, or fraction string"
  | .rateUnreadable text => "output.fps is not a valid rate: " ++ text
  | .noSpecFile => "spec file is required"
  | .specTooLarge => "spec file is larger than 10MB"
  | .specNotMapping => "spec must be a mapping at the top level"
  | .broken place demand => place.text ++ " " ++ demand.text
  | .notColor place value =>
    place.text ++ " is not a valid color: " ++ value
      ++ " (use a color name, #RRGGBB[AA], or 0xRRGGBB[AA])"
  | .sizeMissing place => place.text ++ " is required for shapes"
  | .duplicateId place id => place.text ++ " duplicates " ++ id
  | .unsupported variant type place =>
    "unsupported " ++ variant.text ++ " type " ++ type ++ " at " ++ place.text
  | .sceneNotFound id => "scene " ++ id ++ " not found"
  | .anchorUnknown => "fade_out_anchor must be start or end"
  | .modeUnknown => "timestamp_mode must be absolute or scene"
  | .notSceneFrame => "thumbnail source is not a scene frame"
  | .thumbnailDisabled => "thumbnail is disabled"
  | .videoMissing => "scene frame thumbnails need the rendered video file"
  | .cardUnsupported kind => "unsupported thumbnail background " ++ kind
  | .metaNotObject path => path ++ " must hold a json object"

/-- Why no graph can be built from a specification. -/
inductive Inconsistency
  | sourceMissing
  | gradientEmpty (scene : String)
  | backgroundUnsupported (scene kind : String)
  | layerUnsupported (scene kind : String)
  | padCount
  | noScene
  | layerUnknown (kind : String)
  deriving DecidableEq, Repr

/-- The text of an inconsistency. -/
def Inconsistency.message : Inconsistency → String
  | .sourceMissing => "media reference requires a source path"
  | .gradientEmpty scene => "scene " ++ scene ++ ": gradient background requires at least one color"
  | .backgroundUnsupported scene kind => "scene " ++ scene ++ ": unsupported background " ++ kind
  | .layerUnsupported scene kind => "scene " ++ scene ++ ": unsupported layer " ++ kind
  | .padCount => "scene pad count does not match scene count"
  | .noScene => "at least one scene is required"
  | .layerUnknown kind => "unknown layer kind " ++ kind

/-- A failed computation. -/
inductive Fault
  /-- The input breaks a rule of the library. -/
  | refused (why : Refusal)
  /-- The specification has no graph. -/
  | inconsistent (why : Inconsistency)
  /-- A decimal operation without a defined result, or text that is no decimal. -/
  | decimalUndefined
  /-- A decimal result above the largest exponent. -/
  | decimalOverflow
  /-- A value that has no counterpart of the wanted kind: NaN as an integer, a color
  nobody knows, a thirteenth month. -/
  | valueUnsuited
  /-- A number above every integer that will do: infinity, or a code far beyond all
  characters. -/
  | integerTooLarge
  /-- Text that is no JSON document. -/
  | jsonMalformed
  /-- Bytes that are no UTF-8 text. -/
  | utf8Malformed
  /-- Text that is no YAML document of the kind that can be loaded. -/
  | yamlMalformed
  /-- A number without any character, forced by a tag. -/
  | numberEmpty
  /-- A truth value spelt in no known way, forced by a tag. -/
  | truthUnknown
  /-- A stamp without the form of one, forced by a tag. -/
  | stampFormless
  /-- A text with half of a surrogate pair, which no file can hold. -/
  | surrogateUnpaired
  /-- A document that is nested too deep to be followed. -/
  | nestingTooDeep
  /-- Nothing at all where a text is wanted. -/
  | textMissing
  /-- A path that leads nowhere. -/
  | fileMissing
  /-- A folder where a file is wanted. -/
  | fileIsFolder
  /-- A file where a folder is wanted. -/
  | folderIsFile
  deriving DecidableEq, Repr

/-- The text of a fault that has one. -/
def Fault.message? : Fault → Option String
  | .refused why => some why.message
  | .inconsistent why => some why.message
  | _ => none

/-- A place breaks a demand. -/
def Fault.broken (place : Place) (demand : Demand) : Fault := .refused (.broken place demand)

end Storyboard
