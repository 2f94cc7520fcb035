/-!
# Faults of a module text

What can be wrong with the text of a module, from the type that cannot be read
outwards to the assignment that holds it.
-/

set_option autoImplicit false

namespace BerRecords.Module

inductive TypeFault where
  | nameExpected (near : String)
  | braceExpected (near : String)
  | unbalancedBrace
  | unbalancedParenthesis
  | byExpected
  | tagNumber (digits : String)
  | component (name : String) (fault : TypeFault)
  deriving DecidableEq, Repr

def TypeFault.text : TypeFault → String
  | nameExpected near => "expected a name near '" ++ near ++ "'"
  | braceExpected near => "expected '\x7b' near '" ++ near ++ "'"
  | unbalancedBrace => "unbalanced '\x7b'"
  | unbalancedParenthesis => "unbalanced '('"
  | byExpected => "expected BY after ANY DEFINED"
  | tagNumber digits => "tag number " ++ digits ++ " out of range"
  | component name fault => "component " ++ name ++ ": " ++ fault.text

inductive Fault where
  | noTypes
  | assignment (name : String) (fault : TypeFault)
  | noComponents (source parent : String)
  deriving DecidableEq, Repr

def Fault.text : Fault → String
  | noTypes => "grammar declares no types"
  | assignment name fault => "in " ++ name ++ ": " ++ fault.text
  | noComponents source parent =>
    "COMPONENTS OF " ++ source ++ " in " ++ parent ++ ": not a SEQUENCE or SET"

end BerRecords.Module
