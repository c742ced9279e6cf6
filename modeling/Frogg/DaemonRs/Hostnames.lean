/-
  Subject:   Which `Host` headers the Rust front answers to (hostnames.rs), and that they are those
             of the Node daemon.

  The Rust front lowers ASCII letters only. `NormalizedAlike` says of a text that this and the two
  kinds of white space make no difference; every ASCII text is one (`normalizedAlike_ascii`).
-/
import Frogg.DaemonRs.Netclass
import Frogg.Server.Hostnames

namespace Frogg.DaemonRs

open Library Option
open Server (HostnamesConfig)

/-! ## 1. The allowlist -/

/-- `Any` is `every`; the default is the empty list. -/
inductive Hostnames where
  | every
  | list (patterns : List String)
  deriving DecidableEq

def normalizeHostname (hostname : String) : String := toAsciiLowercase (rustTrim hostname)

def parseHostnameFromHostHeader (hostHeader : String) : Option String :=
  match (rustTrim hostHeader).toList with
  | [] => none
  | c :: rest =>
    if c = '[' then
      if ']' ∈ rest then some (normalizeHostname (String.ofList (rest.takeWhile (· ≠ ']'))))
      else none
    else some (normalizeHostname (String.ofList ((c :: rest).takeWhile (· ≠ ':'))))

def matchesHostnamePattern (hostname pattern : String) : Bool :=
  let normalized := normalizeHostname pattern
  match normalized.toList with
  | [] => false
  | c :: base =>
    if c = '.' then
      base ≠ [] && (hostname.toList = base || ('.' :: base).isSuffixOf hostname.toList)
    else hostname = normalized

/-- `hostname.parse::<IpAddr>().is_ok()` -/
def parsesAsIp (hostname : String) : Bool :=
  (parseIpv4 hostname).isSome || (parseIpv6 hostname).isSome

def isDefaultAllowedHostname (pairing hostname : String) (allowPairingHostname : Bool) : Bool :=
  hostname = "localhost" || (allowPairingHostname && pairing ≠ "" && hostname = pairing) ||
    ".localhost".toList.isSuffixOf hostname.toList || parsesAsIp hostname

def isHostnameAllowed (pairing : String) (hostHeader : Option String) (hostnames : Hostnames)
    (allowPairingHostname : Bool) : Bool :=
  match hostHeader.bind parseHostnameFromHostHeader with
  | none => false
  | some hostname =>
    if hostname = "" then false
    else
      match hostnames with
      | .every => true
      | .list patterns =>
        isDefaultAllowedHostname pairing hostname allowPairingHostname ||
          patterns.any (matchesHostnamePattern hostname)

/-! ## 2. The Node daemon says the same -/

/-- The setting as the Node daemon holds it. -/
def Hostnames.toConfig : Hostnames → HostnamesConfig
  | .every => .every
  | .list patterns => .listed patterns

section Agreement

variable {toLowerCase : String → String}

def NormalizedAlike (toLowerCase : String → String) (text : String) : Prop :=
  Server.normalizeHostname toLowerCase text = normalizeHostname text

/-- The header is trimmed alike, the name in it is normalized alike, and so are the patterns, where
    the name is matched with them. -/
structure HostReadAlike (toLowerCase : String → String) (pairing : String)
    (allowPairingHostname : Bool) (hostHeader : Option String) (hostnames : Hostnames) : Prop where
  trimmed : ∀ header, hostHeader = some header → jsTrim header = rustTrim header
  name : ∀ header name, hostHeader = some header →
    Server.hostnameText (rustTrim header).toList = some name → NormalizedAlike toLowerCase name
  patterns : ∀ hostname patterns, hostHeader.bind parseHostnameFromHostHeader = some hostname →
    isDefaultAllowedHostname pairing hostname allowPairingHostname = false →
    hostnames = .list patterns → ∀ pattern ∈ patterns, NormalizedAlike toLowerCase pattern

/-- A text that `toLowerCase` lowers like an ASCII text, with no white space of one of the two. -/
theorem normalizedAlike_ascii {text : String} (hspace : CommonSpace text)
    (hlower : toLowerCase (jsTrim text) = jsToLower (jsTrim text)) :
    NormalizedAlike toLowerCase text := by
  unfold NormalizedAlike Server.normalizeHostname normalizeHostname
  rw [hlower, rustTrim_eq_jsTrim hspace]
  rfl

theorem parseHostnameFromHostHeader_eq (header : String) :
    parseHostnameFromHostHeader header =
      (Server.hostnameText (rustTrim header).toList).map normalizeHostname := by
  unfold parseHostnameFromHostHeader Server.hostnameText
  cases (rustTrim header).toList with
  | nil => rfl
  | cons c rest =>
    dsimp only
    split
    · split <;> rfl
    · rfl

theorem matchesHostnamePattern_eq {pattern : String} (h : NormalizedAlike toLowerCase pattern)
    (hostname : String) :
    Server.matchesHostnamePattern toLowerCase hostname pattern =
      matchesHostnamePattern hostname pattern := by
  have hnormalized : Server.normalizeHostname toLowerCase pattern = normalizeHostname pattern := h
  unfold Server.matchesHostnamePattern matchesHostnamePattern
  cases hcs : (normalizeHostname pattern).toList with
  | nil => simp only [hnormalized, hcs]
  | cons c base => simp only [hnormalized, hcs]

theorem isDefaultAllowedHostname_eq (pairing hostname : String) (allowPairingHostname : Bool) :
    Server.isDefaultAllowedHostname ipTests pairing hostname allowPairingHostname =
      isDefaultAllowedHostname pairing hostname allowPairingHostname := by
  unfold Server.isDefaultAllowedHostname isDefaultAllowedHostname Server.isIP parsesAsIp
  rw [ipTests_isIPv4, ipTests_isIPv6]

variable {pairing : String} {allowPairingHostname : Bool} {hostHeader : Option String}
  {hostnames : Hostnames}

section

variable (h : HostReadAlike toLowerCase pairing allowPairingHostname hostHeader hostnames)
include h

theorem parsed_eq : hostHeader.bind (Server.parseHostnameFromHostHeader toLowerCase) =
      hostHeader.bind parseHostnameFromHostHeader := by
  refine bind_congr fun header hheader => ?_
  rw [parseHostnameFromHostHeader_eq, Server.parseHostnameFromHostHeader, h.trimmed header hheader]
  exact map_congr fun name hname => h.name header name hheader hname

/-- **The same headers are let in** where the two read them and the patterns alike. -/
theorem isHostnameAllowed_eq : isHostnameAllowed pairing hostHeader hostnames allowPairingHostname =
      Server.isHostnameAllowed toLowerCase ipTests pairing hostHeader (some hostnames.toConfig)
        (some allowPairingHostname) := by
  unfold isHostnameAllowed Server.isHostnameAllowed
  rw [parsed_eq h]
  cases hhost : hostHeader.bind parseHostnameFromHostHeader with
  | none => simp
  | some hostname =>
    by_cases hempty : hostname = ""
    · simp [hempty, filter_some]
    · simp only [filter_some, hempty, ne_eq, not_false_eq_true, decide_true, if_true,
        if_false]
      cases hostnames with
      | every => simp only [Hostnames.toConfig]
      | list patterns =>
        simp only [Hostnames.toConfig, getD_some, isDefaultAllowedHostname_eq]
        by_cases hdefault : isDefaultAllowedHostname pairing hostname allowPairingHostname = true
        · simp only [hdefault, Bool.true_or]
        · have hmatches : patterns.any (Server.matchesHostnamePattern toLowerCase hostname) =
              patterns.any (matchesHostnamePattern hostname) := by
            rw [Bool.eq_iff_iff, List.any_eq_true, List.any_eq_true]
            refine exists_congr fun pattern => and_congr_right fun hpattern => ?_
            rw [matchesHostnamePattern_eq (h.patterns hostname patterns hhost
              (Bool.eq_false_iff.mpr hdefault) rfl pattern hpattern)]
          rw [hmatches]

end

end Agreement

end Frogg.DaemonRs
