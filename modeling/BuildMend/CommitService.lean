import BuildMend.World.Basic

/-!
Looking up commits at the web service that hosts a repository.

* `CommitService`: the address of the service and the token that is shown to it.
* `CommitService.hasPath`: whether a directory exists on a branch.
* `CommitService.latestForPath`, `CommitService.latest`: the identifier of the newest commit of a
  directory, of a branch.

Where no branch is chosen, the service is asked with null for the branch.  An answer other than
success counts as no answer; the identifier is whatever value the service gives.
-/

namespace BuildMend

open Number Text

/-- The address of the service and the token that is shown to it. -/
structure CommitService where
  address : String
  token : Option String

namespace CommitService

/-- The usual address of the service. -/
def usualAddress : String := "https://api.github.com"

/-- The seconds that an answer may take. -/
def answerLimit : Amount := .fraction (.ofDecimal false 300 (-1))

/-- The lookup with an address and a token, each from the environment if it is not given; an empty
address is none, and slashes at its end are dropped. -/
def ofChoices (env? : String → Option String) (address token : Option String) : CommitService :=
  let chosen := (firstNonempty [address, env? "GITHUB_API_URL"]).getD usualAddress
  { address := String.ofList (dropWhileEnd (· == '/') chosen.toList)
    token := token.or (env? "GITHUB_TOKEN") }
where
  firstNonempty (choices : List (Option String)) : Option String :=
    (choices.filterMap id).find? (!·.isEmpty)

/-- The headers of a request; an empty token is not shown. -/
def headers (l : CommitService) : List (String × String) :=
  [("Accept", "application/vnd.github+json"), ("User-Agent", "sdk-codegen-cli/1.0")] ++
    match l.token with
    | some t => if t.isEmpty then [] else [("Authorization", "Bearer " ++ t)]
    | none => []

/-- What the next request of the script gets. -/
def nextReply : Action Reply := do
  let w ← get
  match w.replies with
  | [] => return .missing
  | r :: rest =>
    set { w with replies := rest }
    return r

/-- The value that a body holds, whatever its encoding. -/
def readBody (body : Utf8.Octets) : Except Failure Json :=
  match Encoding.decodeDocument body with
  | .error e => .error (.undecodable e)
  | .ok text => (Json.read text).mapError .badJson

/-- The value that the service answers to a request; a status other than success gives none. -/
def fetch (l : CommitService) (url : String) (parameters : List (String × Json)) :
    Action (Option Json) := do
  .record (.get ⟨url, parameters, l.headers, answerLimit⟩)
  match ← nextReply with
  | .raises m => .fail (.mishap m)
  | .answer status body =>
    if status != 200 then
      .log .debug .commits s!"GitHub returned {status} for {url}"
      return none
    else
      let value ← Act.ofExcept (readBody body)
      return some value

/-- A directory without the slashes around it. -/
def barePath (path : String) : String :=
  String.ofList (dropWhileEnd (· == '/') (path.toList.dropWhile (· == '/')))

/-- The address of a repository. -/
def repository (l : CommitService) (owner repo : String) : String :=
  s!"{l.address}/repos/{owner}/{repo}"

/-- The value by which a branch is asked for. -/
def branchValue : Option String → Json
  | some branch => .ofString branch
  | none => .null

/-- Whether a directory exists on a branch: the answer is there and is not null. -/
def hasPath (l : CommitService) (owner repo path : String) (branch : Option String) :
    Action Bool := do
  let place := l.repository owner repo
  let answer ← l.fetch s!"{place}/contents/{barePath path}" [("ref", branchValue branch)]
  match answer with
  | none | some .null => return false
  | some _ => return true

/-- The identifier of the first commit of an answer. -/
def firstCommit : Option Json → Except Failure Json
  | some (.array (.object members :: _)) => .ok (((Json.object members).get? "sha").getD .null)
  | some (.array (v :: _)) => .error (.noMembers v.kind)
  | _ => .ok .null

/-- The identifier of the newest commit of a directory on a branch, null if there is none. -/
def latestForPath (l : CommitService) (owner repo path : String) (branch : Option String) :
    Action Json := do
  let answer ← l.fetch (l.repository owner repo ++ "/commits")
    [("path", .ofString (barePath path)), ("sha", branchValue branch),
      ("per_page", .number (.whole 1))]
  Act.ofExcept (firstCommit answer)

/-- The identifier of the newest commit of a branch, null if there is none. -/
def latest (l : CommitService) (owner repo : String) (branch : Option String) : Action Json := do
  let answer ← l.fetch (l.repository owner repo ++ "/commits")
    [("sha", branchValue branch), ("per_page", .number (.whole 1))]
  Act.ofExcept (firstCommit answer)

end CommitService

end BuildMend
