/-
  Subject:   Which `Host` headers the Node daemon answers to (hostnames.ts).

  `toLowerCase` is the language's own, which lowers letters of every alphabet; the address tests
  are Node's. `pairing` is the brand's pairing hostname, empty where it has none.
-/
import Frogg.Server.AccessPolicy

namespace Frogg.Server

open Library

/-- `true`, or the patterns; an absent setting is `none`. -/
inductive HostnamesConfig where
  | every
  | listed (patterns : List String)
  deriving DecidableEq

section Hostnames

variable (toLowerCase : String → String)

def normalizeHostname (hostname : String) : String := toLowerCase (jsTrim hostname)

/-- The name in a trimmed header, still as it was written: up to the port, or between brackets. -/
def hostnameText (trimmed : List Char) : Option String :=
  match trimmed with
  | [] => none
  | c :: rest =>
    if c = '[' then
      if ']' ∈ rest then some (String.ofList (rest.takeWhile (· ≠ ']'))) else none
    else some (String.ofList ((c :: rest).takeWhile (· ≠ ':')))

def parseHostnameFromHostHeader (hostHeader : String) : Option String :=
  (hostnameText (jsTrim hostHeader).toList).map (normalizeHostname toLowerCase)

/-- A leading dot stands for the name and every name below it. -/
def matchesHostnamePattern (hostname pattern : String) : Bool :=
  let normalizedPattern := normalizeHostname toLowerCase pattern
  match normalizedPattern.toList with
  | [] => false
  | c :: base =>
    if c = '.' then
      base ≠ [] && (hostname.toList = base || ('.' :: base).isSuffixOf hostname.toList)
    else hostname = normalizedPattern

variable (net : AddressTests) (pairing : String)

def isDefaultAllowedHostname (hostname : String) (allowPairingHostname : Bool) : Bool :=
  hostname = "localhost" || (allowPairingHostname && pairing ≠ "" && hostname = pairing) ||
    ".localhost".toList.isSuffixOf hostname.toList || isIP net hostname

def isHostnameAllowed (hostHeader : Option String) (hostnames : Option HostnamesConfig)
    (allowPairingHostname : Option Bool) : Bool :=
  match (hostHeader.bind (parseHostnameFromHostHeader toLowerCase)).filter (· ≠ "") with
  | none => false
  | some hostname =>
    match hostnames with
    | some .every => true
    | none => isDefaultAllowedHostname net pairing hostname (allowPairingHostname.getD true)
    | some (.listed patterns) =>
      isDefaultAllowedHostname net pairing hostname (allowPairingHostname.getD true) ||
        patterns.any (matchesHostnamePattern toLowerCase hostname)

end Hostnames

end Frogg.Server
