/-
  Subject:   Where a request comes from (access-policy.ts) and the key it is throttled under
             (auth.ts).

  `AddressTests` is Node's address parser. **`forwarded_not_loopback`**: a client that is taken
  from `X-Forwarded-For` never counts as loopback, whatever address the header claims.
-/
import Frogg.Library.JsString

namespace Frogg.Server

open Library List

/-- `net.isIPv4`, `net.isIPv6` -/
structure AddressTests where
  isIPv4 : String → Bool
  isIPv6 : String → Bool

/-- The parts of a text between the separators. -/
def splitChars (separator : Char) : List Char → List (List Char)
  | [] => [[]]
  | c :: cs =>
    if c = separator then [] :: splitChars separator cs
    else
      match splitChars separator cs with
      | [] => [[c]]
      | part :: rest => (c :: part) :: rest

/-- `text.split(separator)` -/
def splitOnChar (separator : Char) (text : String) : List String :=
  (splitChars separator text.toList).map String.ofList

variable {separator : Char}

theorem splitChars_append {part : List Char} (hpart : separator ∉ part) (rest : List Char) :
    splitChars separator (part ++ separator :: rest) = part :: splitChars separator rest := by
  induction part with
  | nil => simp [splitChars]
  | cons c part ih =>
    obtain ⟨hc, hpart⟩ := not_or.mp (fun h => hpart (mem_cons.mpr h))
    rw [cons_append, splitChars, if_neg fun h => hc h.symm, ih hpart]

theorem splitChars_single {part : List Char} (hpart : separator ∉ part) :
    splitChars separator part = [part] := by
  induction part with
  | nil => rfl
  | cons c part ih =>
    obtain ⟨hc, hpart⟩ := not_or.mp (fun h => hpart (mem_cons.mpr h))
    rw [splitChars, if_neg fun h => hc h.symm, ih hpart]

theorem splitChars_ne_nil (separator : Char) (cs : List Char) : splitChars separator cs ≠ [] := by
  cases cs with
  | nil => exact cons_ne_nil _ _
  | cons c cs =>
    unfold splitChars
    split
    · exact cons_ne_nil _ _
    · split <;> exact cons_ne_nil _ _

theorem of_splitChars_cons {cs part : List Char} {parts : List (List Char)}
    (h : splitChars separator cs = part :: parts) :
    (parts = [] ∧ cs = part) ∨
      ∃ rest, cs = part ++ separator :: rest ∧ splitChars separator rest = parts := by
  induction cs generalizing part with
  | nil => obtain ⟨rfl, rfl⟩ := List.cons.inj h; exact .inl ⟨rfl, rfl⟩
  | cons c cs ih =>
    unfold splitChars at h
    split at h
    · rename_i hc; obtain ⟨rfl, rfl⟩ := List.cons.inj h; exact .inr ⟨cs, by rw [hc]; rfl, rfl⟩
    · split at h
      · rename_i hnil; exact absurd hnil (splitChars_ne_nil separator cs)
      · rename_i part' parts' hsplit
        obtain ⟨rfl, rfl⟩ := List.cons.inj h
        rcases ih hsplit with ⟨hnil, rfl⟩ | ⟨rest, rfl, hrest⟩
        · exact .inl ⟨hnil, rfl⟩
        · exact .inr ⟨rest, rfl, hrest⟩

inductive TrustedProxiesSetting where
  | every
  | listed (entries : List String)
  deriving DecidableEq

inductive ClientLocality where
  | loopback | lan | outside
  deriving DecidableEq

/-- What the decisions read of a request; a header sent twice is a list of texts. -/
structure RequestLike where
  remoteAddress : Option String
  forwardedFor : List String
  deriving DecidableEq

/-! ## 1. Addresses -/

section Addresses

variable (net : AddressTests)

section

variable (address : String)

/-- `address.trim().toLowerCase()` -/
def normalizedAddress : String := jsToLower (jsTrim address)

/-- Without the prefix of an IPv4 address that is written as an IPv6 one. -/
def withoutMapping (normalized : String) : String :=
  if "::ffff:".toList.isPrefixOf normalized.toList then String.ofList (normalized.toList.drop 7)
  else normalized

def isLoopbackIp (address : Option String) : Bool :=
  match address.filter (· ≠ "") with
  | none => false
  | some address =>
    let normalized := normalizedAddress address
    if normalized = "::1" ∨ normalized = "0:0:0:0:0:0:0:1" then true
    else
      net.isIPv4 (withoutMapping normalized) &&
        "127.".toList.isPrefixOf (withoutMapping normalized).toList

def normalizeIp : String := withoutMapping (normalizedAddress address)

def decimal (text : String) : Option Nat :=
  if text ≠ "" ∧ text.toList.all Char.isDigit then
    some (text.toList.foldl (fun n c => n * 10 + (c.toNat - 48)) 0)
  else none

def ipv4Octets : Option (Nat × Nat) :=
  if net.isIPv4 address then
    match (splitOnChar '.' address).map decimal with
    | [some a, some b, some _, some _] => some (a, b)
    | _ => none
  else none

def hexValue (c : Char) : Option Nat :=
  if c.isDigit then some (c.toNat - 48)
  else if 'a' ≤ c ∧ c ≤ 'f' then some (c.toNat - 87)
  else if 'A' ≤ c ∧ c ≤ 'F' then some (c.toNat - 55)
  else none

/-- `Number.parseInt(text, 16)` of a text without sign or prefix: its leading digits. -/
def parseHex (text : String) : Option Nat :=
  match text.toList.takeWhile fun c => (hexValue c).isSome with
  | [] => none
  | cs => some (cs.foldl (fun n c => n * 16 + (hexValue c).getD 0) 0)

def isPrivateLanIp (address : Option String) : Bool :=
  match address.filter (· ≠ "") with
  | none => false
  | some address =>
    let normalized := normalizeIp address
    match ipv4Octets net normalized with
    | some (a, b) =>
      a = 10 || (a = 172 && 16 ≤ b && b ≤ 31) || (a = 192 && b = 168) || (a = 169 && b = 254)
    | none =>
      if net.isIPv6 normalized then
        match parseHex ((splitOnChar ':' normalized).headD "") with
        | none => false
        | some value => value &&& 0xfe00 = 0xfc00 || value &&& 0xffc0 = 0xfe80
      else false

def classifyClientAddress (address : Option String) : ClientLocality :=
  if isLoopbackIp net address then .loopback
  else if isPrivateLanIp net address then .lan
  else .outside

def isIP : Bool := net.isIPv4 address || net.isIPv6 address

def isTrustedProxy : TrustedProxiesSetting → Bool
  | .every => true
  | .listed entries => entries.any fun entry =>
    let normalized := normalizedAddress entry
    (normalized = "loopback" && isLoopbackIp net (some address)) ||
      (isIP net normalized && normalizeIp normalized = normalizeIp address)

end

/-- The walk over the hops from the right: the client and how many hops were taken. -/
def walkHops (trustedProxies : TrustedProxiesSetting) : String → List String → String × Nat
  | client, [] => (client, 0)
  | client, hop :: rest =>
    if isTrustedProxy net client trustedProxies = false then (client, 0)
    else if isIP net (normalizeIp hop) = false then (client, 0)
    else
      let (found, hops) := walkHops trustedProxies hop rest
      (found, hops + 1)

/-- The entries of the header, blank ones left out. -/
def forwardedHops (forwardedFor : List String) : List String :=
  ((splitOnChar ',' (",".intercalate forwardedFor)).map jsTrim).filter (· ≠ "")

variable (req : RequestLike) (trustedProxies : TrustedProxiesSetting)

def resolveForwardedClient : Option String × Bool :=
  match req.remoteAddress.filter (· ≠ "") with
  | none => (none, false)
  | some remoteAddress =>
    let (client, hops) :=
      walkHops net trustedProxies remoteAddress (forwardedHops req.forwardedFor).reverse
    (some client, decide (hops > 0))

def resolveClientAddress : Option String :=
  (resolveForwardedClient net req trustedProxies).1

def classifyRequestLocality : ClientLocality :=
  let (address, forwarded) := resolveForwardedClient net req trustedProxies
  let locality := classifyClientAddress net address
  if forwarded ∧ locality = .loopback then .outside else locality

/-- A socket without an address is local by construction. -/
def clientLocality : ClientLocality :=
  if (req.remoteAddress.filter (· ≠ "")).isNone then .loopback
  else classifyRequestLocality net req trustedProxies

def isLoopbackClient : Bool :=
  decide (clientLocality net req trustedProxies = .loopback)

end Addresses

section Locality

variable {net : AddressTests} {req : RequestLike} {trustedProxies : TrustedProxiesSetting}

theorem walkHops_zero {start client : String} {hops : List String}
    (h : walkHops net trustedProxies start hops = (client, 0)) : client = start := by
  cases hops with
  | nil => exact (Prod.mk.inj h).1.symm
  | cons hop rest =>
    unfold walkHops at h
    split at h
    · exact (Prod.mk.inj h).1.symm
    · split at h
      · exact (Prod.mk.inj h).1.symm
      · cases (Prod.mk.inj h).2

theorem resolveForwardedClient_direct
    (h : (resolveForwardedClient net req trustedProxies).2 = false) :
    (resolveForwardedClient net req trustedProxies).1 = req.remoteAddress.filter (· ≠ "") := by
  unfold resolveForwardedClient at h ⊢
  cases hremote : req.remoteAddress.filter (· ≠ "") with
  | none => rfl
  | some remoteAddress =>
    simp only [hremote] at h ⊢
    have hzero := of_decide_eq_false h
    exact congrArg some (walkHops_zero (Prod.ext rfl (by omega)))

theorem isLoopbackIp_of_classify {address : Option String}
    (h : classifyClientAddress net address = .loopback) : isLoopbackIp net address = true := by
  unfold classifyClientAddress at h
  split at h
  · assumption
  · split at h <;> cases h

/-- **A client taken from the header is not a loopback client**; one that is has a loopback address
    of its own or comes by a local socket. -/
theorem forwarded_not_loopback (h : isLoopbackClient net req trustedProxies = true) :
    req.remoteAddress.filter (· ≠ "") = none ∨
      (resolveForwardedClient net req trustedProxies).2 = false ∧
        isLoopbackIp net (req.remoteAddress.filter (· ≠ "")) = true := by
  have hloop : clientLocality net req trustedProxies = .loopback := of_decide_eq_true h
  unfold clientLocality classifyRequestLocality at hloop
  split at hloop
  · exact .inl (Option.isNone_iff_eq_none.mp ‹_›)
  · dsimp only at hloop
    split at hloop
    · cases hloop
    · rename_i hnot
      have hforwarded : (resolveForwardedClient net req trustedProxies).2 = false :=
        Bool.eq_false_iff.mpr fun heq => hnot ⟨heq, hloop⟩
      rw [resolveForwardedClient_direct hforwarded] at hloop
      exact .inr ⟨hforwarded, isLoopbackIp_of_classify hloop⟩

end Locality

/-! ## 2. The key of the throttle -/

section Key

variable (net : AddressTests)

/-- `group.replace(/^0+(?=.)/u, "") || "0"` -/
def withoutLeadingZeros (group : String) : String :=
  match group.toList.dropWhile (· = '0') with
  | [] => "0"
  | cs => String.ofList cs

/-- The text before the first `::`, and the text up to the second if there is a first. -/
def splitDoubleColon : List Char → List Char × Option (List Char)
  | ':' :: ':' :: rest => ([], some rest)
  | [] => ([], none)
  | c :: cs => ((c :: (splitDoubleColon cs).1), (splitDoubleColon cs).2)

def groupsOf (part : List Char) : List String :=
  if part = [] then [] else (splitChars ':' part).map String.ofList

def expandIpv6 (address : String) : List String :=
  let groups :=
    match splitDoubleColon address.toList with
    | (_, none) => (splitChars ':' address.toList).map String.ofList
    | (head, some rest) =>
      let left := groupsOf head
      let right := groupsOf (splitDoubleColon rest).1
      left ++ replicate (8 - left.length - right.length) "0" ++ right
  groups.map withoutLeadingZeros

def throttleKeyForAddress (address : Option String) : String :=
  match address.filter (· ≠ "") with
  | none => "local"
  | some address =>
    let normalized := normalizedAddress address
    let ipv4 := withoutMapping normalized
    if net.isIPv4 ipv4 then ipv4
    else if net.isIPv6 normalized = false then normalized
    else ":".intercalate ((expandIpv6 normalized).take 4) ++ "::/64"

def clientKey (req : RequestLike) (trustedProxies : TrustedProxiesSetting) : String :=
  throttleKeyForAddress net (resolveClientAddress net req trustedProxies)

end Key

end Frogg.Server
