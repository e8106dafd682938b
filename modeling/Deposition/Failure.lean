import Deposition.Archive.Basic
import Deposition.Session.Basic
import Deposition.Url.Basic

/-!
# Why the client gives up

Everything that can end the client early, each with what is known about it. Some failures only pass
on an error of another part of the program, word for word; the others say themselves what went
wrong, and may name the error beneath as its cause.
-/

namespace Deposition

/-- Why the client gives up. -/
inductive Failure
  /-- A file or a directory cannot be used. -/
  | io (error : IoError)
  /-- The server's address is not a URL. -/
  | url (error : UrlError)
  /-- The server's address is a URL of another scheme. -/
  | scheme (name : String)
  /-- A request to the server has failed. -/
  | http (reason : String)
  /-- The settings file makes no sense. -/
  | settings (path reason : String)
  /-- A report cannot be written as JSON. -/
  | json (reason : String)
  /-- The configuration of the job is not valid. -/
  | config (error : ConfigurationError)
  /-- The session refuses the submission. -/
  | rejected (rejection : Rejection)
  /-- An archive cannot be read. -/
  | archive (error : ArchiveError)
  /-- The server has given the job up. -/
  | jobFailed
  /-- There is no frame to analyse. -/
  | nothingToAnalyse
deriving DecidableEq

namespace Failure

/-- What is said about a failure. -/
def message : Failure → String
  | .io error => "I/O error: " ++ error.message
  | .url error => "invalid server URL: " ++ error.message
  | .scheme name => "server URL " ++ name ++ " must use http or https"
  | .http reason => "HTTP request failed: " ++ reason
  | .settings path reason => "settings file " ++ path ++ ": " ++ reason
  | .json reason => "JSON output: " ++ reason
  | .config error => error.message
  | .rejected rejection => "submission rejected: " ++ rejection.message
  | .archive error => error.message
  | .jobFailed => "the server reported the job as failed"
  | .nothingToAnalyse => "nothing to analyse: the trajectory has no frames"

/-- The words of the error beneath a failure. A failure that passes on an error word for word has
the cause of that error instead. -/
def cause? : Failure → Option String
  | .io error => some error.message
  | .url error => some error.message
  | .http reason | .settings _ reason | .json reason => some reason
  | .rejected rejection => some rejection.message
  | .archive (.io error) => some error.message
  | .archive (.codec _ error) => some error.message
  | .scheme _ | .config _ | .archive _ | .jobFailed | .nothingToAnalyse => none

end Failure

end Deposition
