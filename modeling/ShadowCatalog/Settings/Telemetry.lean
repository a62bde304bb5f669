import ShadowCatalog.Settings.Environment
import ShadowCatalog.Text.Letters

/-!
# Settings of the log

How log lines are written, and the name and version of the service in them.
-/

namespace ShadowCatalog

open Text

/-- How log lines are written. -/
inductive LogFormat
  | plain
  | json
  deriving DecidableEq, Repr

/-- The format that a text asks for: JSON if it is `json`, in letters of either
    case and with any blanks around, and otherwise plain lines. -/
def LogFormat.ofText (text : String) : LogFormat :=
  if sameLetters (trim text.toList) ['j', 's', 'o', 'n'] then .json else .plain

/-- The name of a format. -/
def LogFormat.name : LogFormat → String
  | .plain => "Plain"
  | .json => "Json"

/-- What stands in every log line. -/
structure Telemetry where
  logFormat : LogFormat
  serviceName : String
  serviceVersion : String
  deriving DecidableEq, Repr

/-- The version of this service. -/
def releaseVersion : String := "0.4.0"

/-- The settings in an environment. -/
def Telemetry.ofEnvironment (environment : Environment) : Telemetry where
  logFormat := ((environment "TABULA_LOG_FORMAT").map .ofText).getD .plain
  serviceName := (environment "TABULA_SERVICE_NAME").getD "tabula"
  serviceVersion := releaseVersion

end ShadowCatalog
