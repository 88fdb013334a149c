import QueryRouting.Settings.Decode
import QueryRouting.Settings.Validation
import QueryRouting.Toml.Document

/-!
Loading settings: reading the text of a file, decoding it, and checking the result.
-/

namespace QueryRouting

inductive FileFault
  | notFound
  | notText
  deriving DecidableEq, Repr

def FileFault.message : FileFault → String
  | .notFound => "No such file or directory (os error 2)"
  | .notText => "stream did not contain valid UTF-8"

inductive ConfigError
  | io (fault : FileFault)
  /-- The text is malformed, or does not fit the schema. -/
  | parse
  | validation (errors : List ValidationError)
  deriving DecidableEq, Repr

namespace ConfigError

def message : ConfigError → String
  | .io fault => "IO error: " ++ fault.message
  | .parse => "Parse error"
  | .validation errors =>
    "Validation failed: " ++ ", ".intercalate (errors.map ValidationError.text)

end ConfigError

namespace Config

def parse (text : String) : Except ConfigError Config :=
  match (Toml.parse? text).bind (Settings.config? true) with
  | none => .error .parse
  | some c => c.validate.mapError .validation

/-- Settings in a file with this content, if it exists. -/
def load (content : Option Bytes) : Except ConfigError Config :=
  match content with
  | none => .error (.io .notFound)
  | some bytes =>
    match Bytes.toString? bytes with
    | none => .error (.io .notText)
    | some text => parse text

end Config

end QueryRouting
