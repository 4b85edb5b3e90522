import SiliconHook.Api.Errors
import SiliconHook.Api.Extractors
import SiliconHook.Store.Contracts

/-!
# API versions

The handshake that selects an API major, the pin a versioned request may carry, and
the admission of every versioned request against the contract lifecycle.
-/

namespace SiliconHook

open Text

namespace Api

-- -----------------------------------------------------------------------------
-- Headers
-- -----------------------------------------------------------------------------

/-- The header fields of a request, under lower-case names. -/
abbrev HeaderMap := List (String × List UInt8)

def supportedApiVersionsHeader : String := "silicon-hook-supported-api-versions"

def apiVersionHeader : String := "silicon-hook-api-version"

/-- The text of a header that may occur once. -/
def singleHeader (name : String) (headers : HeaderMap) : Except AppError (Option String) :=
  match (headers.filter fun field => field.1 = name).map Prod.snd with
  | [] => .ok none
  | [value] =>
    match headerToStr value with
    | some text => .ok (some (String.ofList text))
    | none => .error (.badRequest "invalid_header_encoding")
  | _ :: _ :: _ => .error (.badRequest "duplicate_header")

def advertisedVersions (headers : HeaderMap) : Except AppError (Option String) :=
  singleHeader supportedApiVersionsHeader headers

-- -----------------------------------------------------------------------------
-- Versions
-- -----------------------------------------------------------------------------

def maxAdvertisedVersions : Nat := 16

/-- The majors an advertisement lists, and one more than it may. -/
def requestedVersions (advertised : String) : List String :=
  (((splitBy (· = ',') advertised.toList).map fun item =>
    String.ofList (trimBy isWhiteSpace item)).filter fun item =>
      !item.isEmpty).take (maxAdvertisedVersions + 1)

/-- Selects a supported major whose persisted contract has not sunset. -/
def negotiateAvailable (advertised : Option String) (available : List String) :
    Except AppError String :=
  match advertised with
  | none =>
    match available.head? with
    | some major => .ok major
    | none => .error .apiVersionUnsupported
  | some advertised =>
    let requested := requestedVersions advertised
    if requested.isEmpty || decide (maxAdvertisedVersions < requested.length) then
      .error (.badRequest "invalid_api_version_header")
    else
      match available.find? fun supported => requested.any fun candidate =>
          asciiLowercase candidate = asciiLowercase supported with
      | some major => .ok major
      | none => .error .apiVersionUnsupported

/-- Selects the highest API major both sides support. -/
def negotiateVersion (advertised : Option String) : Except AppError String :=
  negotiateAvailable advertised supportedApiVersions

def stripPrefix : List Char → List Char → Option (List Char)
  | [], text => some text
  | _ :: _, [] => none
  | c :: lead, d :: text => if c = d then stripPrefix lead text else none

/-- The served major and relative path for a versioned API route. -/
def splitPath (path : String) : Option (String × String) :=
  supportedApiVersions.findSome? fun major =>
    (stripPrefix ("/api/".toList ++ major.toList ++ ['/']) path.toList).map fun relative =>
      (major, String.ofList relative)

/-- Refuses a versioned request pinned to a major other than the route's. -/
def checkPinned (headers : HeaderMap) (path : String) : Except AppError Unit :=
  match splitPath path with
  | none => .ok ()
  | some (major, _) =>
    match singleHeader apiVersionHeader headers with
    | .error e => .error e
    | .ok none => .ok ()
    | .ok (some pinned) =>
      if asciiLowercase (trim pinned) = asciiLowercase major then .ok ()
      else .error (.badRequest "api_version_mismatch")

-- -----------------------------------------------------------------------------
-- Contracts
-- -----------------------------------------------------------------------------

def statusMajor (major : String) (record : Bool) (now : Instant) (contracts : ContractVersions) :
    Except AppError ContractRow × ContractVersions :=
  match contracts.contractStatus major record now with
  | (some contract, contracts) => (.ok contract, contracts)
  | (none, contracts) => (.error .providerUnavailable, contracts)

def deprecationLink : String :=
  "<https://docs.hook.teamofsilicons.com/contracts/>; rel=\"deprecation\"; type=\"text/html\""

def deprecationHeaders (at' : Instant) : List (String × String) :=
  [("deprecation", "@" ++ toString (at' / Instant.second)), ("link", deprecationLink)]

def admissionHeaders (contract : ContractRow) : Except AppError (List (String × String)) :=
  if contract.status = .sunset then .error (.gone "api_version_sunset")
  else .ok (contract.deprecatedAt.elim [] deprecationHeaders)

def admitMajor (major : String) (now : Instant) (contracts : ContractVersions) :
    Except AppError (List (String × String)) × ContractVersions :=
  match statusMajor major true now contracts with
  | (.ok contract, contracts) => (admissionHeaders contract, contracts)
  | (.error e, contracts) => (.error e, contracts)

def availableVersions (now : Instant) :
    List String → ContractVersions → Except AppError (List String) × ContractVersions
  | [], contracts => (.ok [], contracts)
  | major :: rest, contracts =>
    match statusMajor major false now contracts with
    | (.error e, contracts) => (.error e, contracts)
    | (.ok contract, contracts) =>
      match availableVersions now rest contracts with
      | (.error e, contracts) => (.error e, contracts)
      | (.ok available, contracts) =>
        (.ok (if contract.status = .sunset then available else major :: available), contracts)

/-- The handshake: the selected major and the majors to choose from. -/
def negotiate (headers : HeaderMap) (now : Instant) (contracts : ContractVersions) :
    Except AppError (String × List String) × ContractVersions :=
  match availableVersions now supportedApiVersions contracts with
  | (.error e, contracts) => (.error e, contracts)
  | (.ok available, contracts) =>
    let answer := do
      let advertised ← advertisedVersions headers
      let selected ← if available.length = supportedApiVersions.length then
          negotiateVersion advertised
        else negotiateAvailable advertised available
      return (selected, available)
    (answer, contracts)

-- -----------------------------------------------------------------------------
-- Requests
-- -----------------------------------------------------------------------------

/-- What the version layers decide about a request: the refusal, or the headers its
response gets; and the major every answer of a versioned route names. -/
structure VersionAnswer where
  outcome : Except AppError (List (String × String))
  apiVersion : Option String

/-- Admits versioned requests against the persisted contract lifecycle. -/
def scope (path : String) (now : Instant) (contracts : ContractVersions) :
    Except AppError (List (String × String)) × ContractVersions :=
  match splitPath path with
  | some (major, _) => admitMajor major now contracts
  | none => (.ok [], contracts)

def enforceApiVersion (headers : HeaderMap) (path : String) (now : Instant)
    (contracts : ContractVersions) : VersionAnswer × ContractVersions :=
  match checkPinned headers path with
  | .error e => (⟨.error e, none⟩, contracts)
  | .ok () =>
    let (outcome, contracts) := scope path now contracts
    (⟨outcome, (splitPath path).map Prod.fst⟩, contracts)

end Api

end SiliconHook
