import GatewayPlan.Parameter.Basic
import GatewayPlan.Tree.Fault

/-!
# Errors

Every way to fail, by its cause. The wording is in `Error.message` and the messages under it.
-/

namespace GatewayPlan

/-- The two requests that parameters are mapped between. -/
inductive Side where
  | method
  | integration
  deriving DecidableEq, Repr

def Side.label : Side → String
  | method => "method request"
  | integration => "integration request"

/-- Two things that would be written to one place. -/
inductive Clash where
  | shared (p owner : Parameter) (side : Side) (key : String)
  | literal (p : Parameter) (header : String)
  | stated (text : String)
  deriving DecidableEq, Repr

def Clash.message : Clash → String
  | shared p owner side key =>
    p.label ++ " and " ++ owner.label ++ " both map to " ++ side.label ++ " key " ++ key
  | literal p header => p.label ++ " maps to the literal header " ++ header
  | stated text => text

/-- A configuration that cannot be planned. -/
inductive ConfigFault where
  | unknownMethod (text : String)
  | unrootedRoute (path : String)
  | unrootedKey (key path : String)
  | uncaptured (key name path : String)
  | unprotected (method path : String)
  | blankOrigin
  | blankKeyName
  | repeatedKeyName (name : String)
  | noMethods (path : String)
  | twoTargets (path : String)
  | idleParameters (path : String)
  | stated (text : String)
  deriving DecidableEq, Repr

def ConfigFault.message : ConfigFault → String
  | unknownMethod text => "Unknown HTTP method '" ++ text ++ "'"
  | unrootedRoute path => "Route path '" ++ path ++ "' must start with '/'"
  | unrootedKey key path =>
    "Object key '" ++ key ++ "' of route " ++ path ++ " must start with '/'"
  | uncaptured key name path =>
    "Object key '" ++ key ++ "' uses \x7b" ++ name ++ "\x7d, which route " ++ path ++
      " does not capture"
  | unprotected method path =>
    "Route " ++ method ++ " " ++ path ++
      " forwards authorizer context but no authorizer is configured"
  | blankOrigin => "CORS allow origin must not be blank"
  | blankKeyName => "API key names must not be blank"
  | repeatedKeyName name => "API key '" ++ name ++ "' is declared more than once"
  | noMethods path => "Route '" ++ path ++ "' declares no methods"
  | twoTargets path => "Route '" ++ path ++ "' cannot target both a function and a bucket"
  | idleParameters path =>
    "Route '" ++ path ++ "' does not proxy and cannot declare proxy parameters"
  | stated text => text

/-- What a file system can answer instead of a file's content. -/
inductive FileFault where
  | notFound
  | notDirectory
  | isDirectory
  | notUtf8
  | other (text : String)
  deriving DecidableEq, Repr

def FileFault.message : FileFault → String
  | notFound => "No such file or directory (os error 2)"
  | notDirectory => "Not a directory (os error 20)"
  | isDirectory => "Is a directory (os error 21)"
  | notUtf8 => "stream did not contain valid UTF-8"
  | other text => text

inductive Error where
  | malformedTemplate (template segment reason : String)
  | invalidName (name : String)
  | invariantViolation (clash : Clash)
  | config (fault : ConfigFault)
  | io (fault : FileFault)
  | yaml
  | json (fault : Tree.Fault)
  deriving DecidableEq, Repr

def Tree.Fault.message : Tree.Fault → String
  | malformed => "malformed text"
  | mismatch m => m.message

namespace Error

/-- The error below an error that only passes it on. -/
def cause? : Error → Option String
  | io fault => some fault.message
  | yaml => some "malformed or unsuitable document"
  | json fault => some fault.message
  | _ => none

def message : Error → String
  | malformedTemplate template segment reason =>
    "Malformed route template '" ++ template ++ "': segment '" ++ segment ++ "' " ++ reason
  | invalidName name => "Invalid parameter name: " ++ Text.quoted name
  | invariantViolation clash => "Invariant violation: " ++ clash.message
  | config fault => "Configuration error: " ++ fault.message
  | io fault => "I/O error: " ++ fault.message
  | yaml => "YAML parsing error: malformed or unsuitable document"
  | json fault => "JSON parsing error: " ++ fault.message

end Error

end GatewayPlan
