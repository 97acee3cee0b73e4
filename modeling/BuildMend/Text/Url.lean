import BuildMend.Text.HostAddress
import BuildMend.Text.Quoted
import BuildMend.Text.Scan

/-!
Web addresses and their paths.

* `Url.path`: the path of an address: what stands after the host and before parameters, query and
  fragment; an address without a host is all path.
* `Url.Fault`: what makes the host of an address malformed, and `Url.Fault.message` its wording.
-/

namespace BuildMend.Text.Url

/-- What makes a host malformed. -/
inductive Fault where
  /-- Brackets that do not enclose the host. -/
  | brackets
  /-- A bracketed address of a future version that is not well formed. -/
  | futureAddress
  /-- Brackets around what is no address. -/
  | noAddress (host : String)
  /-- Brackets around an IPv4 address. -/
  | bracketedIPv4
  /-- A character that turns into a delimiter when the host is normalized. -/
  | disguisedDelimiter (host : String)
  deriving DecidableEq, Repr

/-- The wording of a fault. -/
def Fault.message : Fault → String
  | .brackets => "Invalid IPv6 URL"
  | .futureAddress => "IPvFuture address is invalid"
  | .noAddress host => s!"{quoted host} does not appear to be an IPv4 or IPv6 address"
  | .bracketedIPv4 => "An IPv4 address cannot be in brackets"
  | .disguisedDelimiter host =>
    s!"netloc '{host}' contains invalid characters under NFKC normalization"

/-! ### Parts of an address -/

/-- The text without the controls and blanks at its front and without tabs and line breaks. -/
def cleaned (s : List Char) : List Char :=
  (s.dropWhile fun c => c.toNat ≤ 32).filter fun c => c != '\t' && c != '\r' && c != '\n'

/-- The characters of a scheme. -/
def isSchemeChar (c : Char) : Bool := c.isAlphanum || c == '+' || c == '-' || c == '.'

/-- The scheme of an address in small letters, empty if there is none, and the text after its
colon. -/
def splitScheme (s : List Char) : List Char × List Char :=
  let scheme := s.takeWhile (· != ':')
  match s.dropWhile (· != ':') with
  | [] => ([], s)
  | _ :: rest =>
    if (scheme.head?.any Char.isAlpha) && scheme.all isSchemeChar then
      (scheme.map Char.toLower, rest)
    else ([], s)

/-- Whether a character ends a host. -/
def endsHost (c : Char) : Bool := c == '/' || c == '?' || c == '#'

/-- The host that two slashes introduce, and the text after it. -/
def splitHost : List Char → Option (List Char) × List Char
  | '/' :: '/' :: rest => (some (rest.takeWhile (!endsHost ·)), rest.dropWhile (!endsHost ·))
  | s => (none, s)

/-- The schemes whose paths have parameters. -/
def parameterSchemes : List String :=
  ["", "ftp", "hdl", "prospero", "http", "imap", "https", "shttp", "rtsp", "rtspu", "sip", "sips",
    "mms", "sftp", "tel"]

/-- The text up to the last slash, with it, and the text after it. -/
def splitLastSlash (s : List Char) : List Char × List Char :=
  ((s.reverse.dropWhile (· != '/')).reverse, (s.reverse.takeWhile (· != '/')).reverse)

/-- The path without the parameters of its last name. -/
def withoutParameters (s : List Char) : List Char :=
  let (front, last) := splitLastSlash s
  front ++ last.takeWhile (· != ';')

/-! ### Hosts -/

/-- The characters outside ASCII that turn into delimiters when a text is normalized. -/
def disguises : List Nat :=
  [0x2047, 0x2048, 0x2049, 0x2100, 0x2101, 0x2105, 0x2106, 0x2A74, 0xFE13, 0xFE16, 0xFE55, 0xFE56,
    0xFE5F, 0xFE6B, 0xFF03, 0xFF0F, 0xFF1A, 0xFF1F, 0xFF20]

/-- Checks an address in brackets. -/
def checkBracketed (host : List Char) : Except Fault Unit :=
  match host with
  | 'v' :: rest =>
    let version := rest.takeWhile HostAddress.isHexDigit
    match rest.dropWhile HostAddress.isHexDigit with
    | '.' :: after =>
      if version.isEmpty || after.isEmpty || after.contains '\n' then .error .futureAddress
      else .ok ()
    | _ => .error .futureAddress
  | _ =>
    if HostAddress.isIPv4 host then .error .bracketedIPv4
    else if HostAddress.isIPv6 host then .ok ()
    else .error (.noAddress (String.ofList host))

/-- Checks the part of an address that names the host. -/
def checkHost (host : List Char) : Except Fault Unit :=
  if host.contains '[' != host.contains ']' then .error .brackets
  else if host.contains '[' then
    let afterAt := (host.reverse.takeWhile (· != '@')).reverse
    match afterAt with
    | '[' :: rest =>
      match rest.dropWhile (· != ']') with
      | [] | [_] | _ :: ':' :: _ => checkBracketed (rest.takeWhile (· != ']'))
      | _ => .error .brackets
    | _ =>
      if afterAt.contains '[' then .error .brackets
      else checkBracketed (afterAt.takeWhile (· != ':'))
  else .ok ()

/-- Checks that no character of a host turns into a delimiter. -/
def checkDisguises (host : List Char) : Except Fault Unit :=
  if host.any fun c => disguises.contains c.toNat then
    .error (.disguisedDelimiter (String.ofList host))
  else .ok ()

/-- The path of an address. -/
def path (address : List Char) : Except Fault (List Char) := do
  let (scheme, rest) := splitScheme (cleaned address)
  let (host, rest) := splitHost rest
  checkHost (host.getD [])
  let rest := (rest.takeWhile (· != '#')).takeWhile (· != '?')
  checkDisguises (host.getD [])
  if parameterSchemes.contains (String.ofList scheme) then return withoutParameters rest
  else return rest

end BuildMend.Text.Url
