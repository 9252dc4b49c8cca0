import RamlScaffold.Code.Identifier
import RamlScaffold.Naming.Words

/-!
What can be chosen for the artifacts, and when a choice is refused.
-/

namespace RamlScaffold

inductive GenerateFault where
  | emptyVersion
  /-- The version is more than one segment of a path. -/
  | notSegment (version : String)
  | namelessApp (name : String)
  | namelessPackage (name : String)
  /-- Whatever else a backend has against a description. -/
  | refused (reason : String)
deriving DecidableEq, Repr

namespace GenerateFault

def reason : GenerateFault → String
  | .emptyVersion => "api_version must not be empty"
  | .notSegment version => "api_version '" ++ version ++ "' must be a single URL path segment"
  | .namelessApp name => "app_name '" ++ name ++ "' contains no identifier characters"
  | .namelessPackage name => "package_name '" ++ name ++ "' contains no identifier characters"
  | .refused reason => reason

def message (fault : GenerateFault) : String := "Invalid generator configuration: " ++ fault.reason

end GenerateFault

structure ServerSettings where
  appName : String
  /-- The segment under which the routes are mounted. -/
  apiVersion : String
  includeAuth : Bool
  includeCors : Bool
  generateTests : Bool
deriving DecidableEq, Repr

namespace ServerSettings

def default : ServerSettings := ⟨"flask_api", "v1", true, true, true⟩

def isVersionChar (c : Char) : Bool := Text.isAlnum c || c == '-' || c == '_' || c == '.'

/-- Refuses settings that give no coherent artifacts. Blanks around the version do not count. -/
def check (s : ServerSettings) : Except GenerateFault Unit :=
  let version := Text.trim s.apiVersion
  if version == "" then .error .emptyVersion
  else if !version.toList.all isVersionChar then .error (.notSegment s.apiVersion)
  else if Naming.snake s.appName == "" then .error (.namelessApp s.appName)
  else .ok ()

def appTitle (s : ServerSettings) : String :=
  let words := (Text.splitOn '_' (Naming.snake s.appName)).filter (· != "")
  Text.joinWith " " (words.map Naming.pascal)

end ServerSettings

structure ClientSettings where
  packageName : String
  includeAuth : Bool
  generateTests : Bool
deriving DecidableEq, Repr

namespace ClientSettings

def default : ClientSettings := ⟨"api_client", true, true⟩

def forSpec (name : String) (includeAuth generateTests : Bool) : ClientSettings :=
  ⟨name ++ "_client", includeAuth, generateTests⟩

/-- The name under which the package is imported. -/
def package (s : ClientSettings) : String := Code.identifier (Naming.snake s.packageName) "client"

/-- The name that the aggregate class asks for. -/
def className (s : ClientSettings) : String := Naming.pascal s.package

def check (s : ClientSettings) : Except GenerateFault Unit :=
  if Naming.snake s.packageName == "" then .error (.namelessPackage s.packageName) else .ok ()

end ClientSettings

end RamlScaffold
