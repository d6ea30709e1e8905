/-!
# Why a request is refused
-/

namespace Switchboard

/-- The reasons for which a request is refused. -/
inductive RequestError
  | illegalPath (path : String)
  | unknownOperation (word : String)
  | undefinedSelector (word : String)
  | missingId (path : String)
  | unknownId (id : String)
  | noPathSpecified
  | illegalTag (label : String)
  | noPathFound
  | tooManyPathElements (path : String)
  | missingQuery
  | duplicateQuery
  | multipleColumns (count : Nat)
  | invalidParam (key value : String)
  deriving DecidableEq

/-- The wording of a refusal. -/
def RequestError.message : RequestError → String
  | .illegalPath path => "Illegal path format: " ++ path
  | .unknownOperation word => "Unknown operation: " ++ word
  | .undefinedSelector word => "Undefined selector: " ++ word
  | .missingId path => "Specify a id: " ++ path
  | .unknownId id => "Unknown id: " ++ id
  | .noPathSpecified => "No path specified"
  | .illegalTag label => "Illegal character in path element: " ++ label
  | .noPathFound => "No path found"
  | .tooManyPathElements path => "Too many path elements: " ++ path
  | .missingQuery => "No query parm"
  | .duplicateQuery => "Duplicate query parms"
  | .multipleColumns count => "Multiple result elements: " ++ toString count ++ " columns"
  | .invalidParam key value => "Invalid parameter " ++ key ++ ": " ++ value

end Switchboard
