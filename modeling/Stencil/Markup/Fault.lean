import Stencil.Markup.Environment

/-!
The kinds of failure of the engine that is written out here. It tells no more of a failure than its
kind.
-/

namespace Stencil.Markup

inductive Fault
  | badSyntax
  | undefinedValue
  | unknownFunction
  | unknownFilter
  | unknownTest
  | unknownBlock
  | unknownMethod
  | invalidOperation
  | templateNotFound
  | badEscape
  | badInclude
  | badBlock
  | cannotUnpack
  | badSerialization
  | missingArgument
  | tooManyArguments
deriving DecidableEq, Repr

def Fault.message : Fault → String
  | .badSyntax => "syntax error"
  | .undefinedValue => "undefined value"
  | .unknownFunction => "unknown function"
  | .unknownFilter => "unknown filter"
  | .unknownTest => "unknown test"
  | .unknownBlock => "unknown block"
  | .unknownMethod => "unknown method"
  | .invalidOperation => "invalid operation"
  | .templateNotFound => "template not found"
  | .badEscape => "bad string escape"
  | .badInclude => "could not render include"
  | .badBlock => "could not render block"
  | .cannotUnpack => "cannot unpack"
  | .badSerialization => "could not serialize to value"
  | .missingArgument => "missing argument"
  | .tooManyArguments => "too many arguments"

def Fault.failure (f : Fault) : Failure := ⟨f.message, f.message⟩

end Stencil.Markup
