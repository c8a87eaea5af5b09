import Stencil.Json.Error

/-!
What can go wrong, by cause, with the text shown for each cause.
-/

namespace Stencil

/-- A failure that was wrapped in context on its way out, the innermost context first. -/
structure Chain where
  root : String
  contexts : List String
deriving DecidableEq, Repr

namespace Chain

def top (c : Chain) : String := c.contexts.getLast?.getD c.root

def full (c : Chain) : String := ": ".intercalate (c.contexts.reverse ++ [c.root])

end Chain

inductive LoadError
  | failed (reason : String)
  | abandoned
deriving DecidableEq, Repr

namespace LoadError

def message : LoadError → String
  | .failed reason => reason
  | .abandoned => "loader dropped the callback without providing a template"

def ofChain (c : Chain) : LoadError := .failed c.full

end LoadError

inductive HelperError
  | message (text : String)
  | missingArgument (position : Nat)
  | json (error : Json.Error)
  | other (chain : Chain)
deriving DecidableEq, Repr

def HelperError.text : HelperError → String
  | .message text => text
  | .missingArgument position => "missing argument at position " ++ toString position
  | .json error => error.message
  | .other chain => chain.top

inductive FileError
  | notFound
  | notDirectory
  | isDirectory
  | nameTooLong
  | nulInName
  | notUtf8
  | other (text : String)
deriving DecidableEq, Repr

def FileError.message : FileError → String
  | .notFound => "No such file or directory (os error 2)"
  | .notDirectory => "Not a directory (os error 20)"
  | .isDirectory => "Is a directory (os error 21)"
  | .nameTooLong => "File name too long (os error 36)"
  | .nulInName => "file name contained an unexpected NUL byte"
  | .notUtf8 => "stream did not contain valid UTF-8"
  | .other text => text

inductive Error
  | file (error : FileError)
  | jsonConfig (error : Json.Error)
  | yamlConfig
  | unsupportedConfig (path : String) (extensions : String)
  | templateLoad (name : String) (source : LoadError)
  | templateRender (name : String)
  | noLoader (name : String)
  | invalidArguments (reason : String)
  | noExecutor
deriving DecidableEq, Repr

namespace Error

/-- The text of a YAML refusal names no detail. -/
def message : Error → String
  | .file error => "IO error: " ++ error.message ++ "."
  | .jsonConfig error => "Failed to parse JSON config. Original error: " ++ error.message
  | .yamlConfig => "Failed to parse YAML config. Original error: "
  | .unsupportedConfig path extensions =>
    "Unsupported config file '" ++ path ++ "'. Expected one of: " ++ extensions ++ "."
  | .templateLoad name source =>
    "Failed to load template '" ++ name ++ "'. Original error: " ++ source.message
  | .templateRender name => "Template '" ++ name ++ "' panicked while rendering."
  | .noLoader name => "Cannot load template '" ++ name ++ "': no loader registered."
  | .invalidArguments reason => "Invalid Arguments: " ++ reason
  | .noExecutor => "Cannot schedule the render: not running inside a Tokio runtime."

def source? : Error → Option String
  | .file error => some error.message
  | .jsonConfig error => some error.message
  | .yamlConfig => some ""
  | .templateLoad _ source => some source.message
  | _ => none

end Error
end Stencil
