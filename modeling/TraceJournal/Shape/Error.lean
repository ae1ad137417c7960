import TraceJournal.Text.Quoted

/-!
# Failures of reading

A document may fail to be read because it is not well formed, because it ends too early,
because it is nested too deeply, or because it has another shape than the one that is wanted.
-/
namespace TraceJournal

inductive Found where
  | bool (b : Bool)
  | int (n : Int)
  | float (x : Float)
  | text (s : String)
  | bytes
  | null
  | option
  | list
  | object
  | variant
  /-- A thing that has a word of its own. -/
  | word (text : String)

inductive ShapeError where
  | wrongType (found : Found) (expected : String)
  | wrongValue (found : Found) (expected : String)
  | wrongLength (length : Nat) (expected : String)
  | unknownVariant (name : String) (known : List String)
  | unknownField (name : String) (known : List String)
  | missingField (name : String)
  | duplicateField (name : String)
  | negativeInteger
  | integerTooLarge
  | bigIntegerTooLarge
  | numberOutOfRange
  | taggedVariant

inductive ReadFault where
  | malformed
  | ended
  | tooDeep
  | shape (error : ShapeError)

/-- What was found, with floating point numbers written by `float`. -/
def Found.describe (float : Float → String) : Found → String
  | bool b => s!"boolean `{b}`"
  | int n => s!"integer `{n}`"
  | Found.float x => "floating point `" ++ float x ++ "`"
  | text s => "string " ++ Text.quoted s
  | bytes => "byte array"
  | null => "null"
  | option => "Option value"
  | list => "sequence"
  | object => "map"
  | variant => "enum"
  | word w => w

def ShapeError.oneOf (known : List String) : String :=
  match known.map fun name => "`" ++ name ++ "`" with
  | [] => "nothing"
  | [one] => one
  | [one, other] => one ++ " or " ++ other
  | names => "one of " ++ ", ".intercalate names

def ShapeError.message (float : Float → String) : ShapeError → String
  | wrongType found expected =>
    "invalid type: " ++ found.describe float ++ ", expected " ++ expected
  | wrongValue found expected =>
    "invalid value: " ++ found.describe float ++ ", expected " ++ expected
  | wrongLength length expected => s!"invalid length {length}, expected {expected}"
  | unknownVariant name known => s!"unknown variant `{name}`, expected " ++ oneOf known
  | unknownField name known => s!"unknown field `{name}`, expected " ++ oneOf known
  | missingField name => s!"missing field `{name}`"
  | duplicateField name => s!"duplicate field `{name}`"
  | negativeInteger => "unexpected negative integer"
  | integerTooLarge => "integer too large"
  | bigIntegerTooLarge => "bigint too large"
  | numberOutOfRange => "JSON number out of range"
  | taggedVariant => "untagged and internally tagged enums do not support enum input"

end TraceJournal
