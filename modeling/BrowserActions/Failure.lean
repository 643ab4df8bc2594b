import BrowserActions.Decode
import BrowserActions.Files
import BrowserActions.Json.Writer
import BrowserActions.Schema.Basic

/-!
# Failures

Every way in which an operation of the library can fail, by its cause, and what is said about it.
-/
namespace BrowserActions

open Number

inductive Rejection where
  | actionRequired
  | invalid (issues : List Issue)
  deriving DecidableEq, Repr

def Rejection.message : Rejection → String
  | .actionRequired => "Action is required"
  | .invalid issues => Issue.describe issues

inductive ConfigFault where
  | unreadable (path : String) (reason : FileError)
  | zeroInterval
  | check (text : String)
  deriving DecidableEq, Repr

def ConfigFault.message : ConfigFault → String
  | .unreadable path reason => "failed to read " ++ path ++ ": " ++ reason.message
  | .zeroInterval => "stability interval must be non-zero"
  | .check text => text

inductive Failure where
  | noJson
  | notAnArray
  | rejected (reason : Rejection) (record : Json)
  | timeout (checks : Nat)
  | cancelled
  | config (fault : ConfigFault)
  | file (reason : FileError)
  | json (reason : Decode.Error)
  | toml (reason : Decode.Error)
  /-- An integer that a configuration file cannot hold. -/
  | integerTooLarge
  deriving Repr

def Failure.message : Failure → String
  | .noJson => "Response does not contain valid JSON"
  | .notAnArray => "Response JSON is not an array of actions"
  | .rejected reason record => reason.message ++ " (offending action: " ++ record.text ++ ")"
  | .timeout checks => "Timed out waiting for condition after " ++ toString checks ++ " checks"
  | .cancelled => "Wait cancelled"
  | .config fault => "Configuration error: " ++ fault.message
  | .file reason => "IO error: " ++ reason.message
  | .json reason => "JSON error: " ++ (reason.message? .compact).getD "malformed text"
  | .toml reason => "TOML deserialize error: " ++ (reason.message? .plain).getD "malformed text"
  | .integerTooLarge => "TOML serialize error: out-of-range value for u64 type"

end BrowserActions
