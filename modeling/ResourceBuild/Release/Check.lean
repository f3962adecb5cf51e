import ResourceBuild.Release.Address
import ResourceBuild.Release.Descriptor
import ResourceBuild.Release.Version

/-!
# Checking for a newer release

The version in use is compared with the latest release. A release that is not stable, or a version
that cannot be read, is no reason to announce anything.
-/

namespace ResourceBuild.Release

/-- Why nothing can be said about a newer release. -/
inductive SkipReason where
  | prerelease
  | invalidCurrentVersion
  | invalidLatestVersion
  /-- The feed answered with a status that is no success. -/
  | unavailable (status : Nat)
  deriving DecidableEq

inductive Outcome where
  | upToDate (current : Version)
  | updateAvailable (current latest : Version) (url : String)
  | skipped (reason : SkipReason)
  deriving DecidableEq

/-- What a release means for the version in use. -/
def evaluate (current : String) (release : Descriptor) : Outcome :=
  if release.isPrerelease then .skipped .prerelease
  else
    match Version.parse? current, Version.parse? release.tag with
    | none, _ => .skipped .invalidCurrentVersion
    | some _, none => .skipped .invalidLatestVersion
    | some current, some latest =>
      if current.isOlderThan latest then .updateAvailable current latest release.url
      else .upToDate current

/-- What the feed answers: nothing within reach, or a status and a text. -/
inductive Answer where
  | unreachable
  | response (status : Nat) (body : String)
  deriving DecidableEq

def isSuccess (status : Nat) : Bool :=
  decide (200 ≤ status ∧ status < 300)

inductive Failure where
  | unreachable
  | undecodable
  deriving DecidableEq

/-- What an answer means for the version in use. -/
def judge (current : String) : Answer → Except Failure Outcome
  | .unreachable => .error .unreachable
  | .response status body =>
    if isSuccess status then
      match Descriptor.parse? body with
      | some release => .ok (evaluate current release)
      | none => .error .undecodable
    else .ok (.skipped (.unavailable status))

def feedHost : String := "https://api.github.com"

/-- Where on its host the feed tells of the latest release of a repository. -/
def feedPath (repository : String) : String :=
  "repos/" ++ repository ++ "/releases/latest"

/-- The address of the latest release of a repository, as a request is made for it. -/
def requestAddress (repository : String) : String :=
  address feedHost (feedPath repository)

def Failure.message (repository : String) : Failure → String
  | .unreachable =>
    "HTTP request failed: error sending request for url (" ++ requestAddress repository ++ ")"
  | .undecodable => "HTTP request failed: error decoding response body"

def SkipReason.words : SkipReason → String
  | .prerelease => "Prerelease"
  | .invalidCurrentVersion => "InvalidCurrentVersion"
  | .invalidLatestVersion => "InvalidLatestVersion"
  | .unavailable status => "Unavailable(" ++ Text.decimal status ++ ")"

end ResourceBuild.Release
