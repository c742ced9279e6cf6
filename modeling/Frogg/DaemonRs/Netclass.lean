/-
  Subject:   Where a client is, as the Rust front classifies its address (netclass.rs), and that
             the Node daemon says the same.

  The address parser is one for both: `parseIpv4` and `parseIpv6` are the parsers of `std::net`,
  `ipTests` is `net.isIPv4` and `net.isIPv6`.
-/
import Frogg.Library.RustString
import Frogg.Server.AccessPolicy

namespace Frogg.DaemonRs

open List Option

open Library
open Server (splitChars splitOnChar splitDoubleColon groupsOf hexValue decimal parseHex
  ipv4Octets AddressTests ClientLocality)

/-! ## 1. Addresses -/

/-- A part of an IPv4 address: up to three digits, none of them a leading zero. -/
def octet? (part : String) : Option Nat :=
  if part.length ≤ 3 ∧ (part.toList.head? = some '0' → part = "0") then
    (decimal part).filter (· ≤ 255)
  else none

def parseIpv4 (text : String) : Option (Nat × Nat × Nat × Nat) :=
  match (splitOnChar '.' text).map octet? with
  | [some a, some b, some c, some d] => some (a, b, c, d)
  | _ => none

/-- A group of an IPv6 address: up to four hexadecimal digits. -/
def hextet? (part : String) : Option Nat :=
  if part ≠ "" ∧ part.length ≤ 4 ∧ (part.toList.all fun c => (hexValue c).isSome) = true then
    some (part.toList.foldl (fun n c => n * 16 + (hexValue c).getD 0) 0)
  else none

/-- Groups of which the last may be an IPv4 address, which counts for two. -/
def segments? : List String → Option (List Nat)
  | [] => some []
  | [part] =>
    match hextet? part with
    | some segment => some [segment]
    | none => (parseIpv4 part).map fun v4 => [v4.1 * 256 + v4.2.1, v4.2.2.1 * 256 + v4.2.2.2]
  | part :: rest => do
    let segment ← hextet? part
    let segments ← segments? rest
    return segment :: segments

/-- The eight segments; `::` stands for at least one that is zero. -/
def parseIpv6 (text : String) : Option (List Nat) :=
  match splitDoubleColon text.toList with
  | (groups, none) => (segments? (groupsOf groups)).filter (·.length = 8)
  | (head, some tail) => do
    let left ← (groupsOf head).mapM hextet?
    let right ← segments? (groupsOf tail)
    if left.length + right.length ≤ 7 then
      some (left ++ replicate (8 - left.length - right.length) 0 ++ right)
    else none

/-- `net.isIPv4` and `net.isIPv6` -/
def ipTests : AddressTests where
  isIPv4 text := (parseIpv4 text).isSome
  isIPv6 text := (parseIpv6 text).isSome

/-! ## 2. The classes -/

/-- `Locality`; `outside` is `Public`. -/
inductive Locality where
  | loopback | lan | outside
  deriving DecidableEq

def Locality.toClient : Locality → ClientLocality
  | .loopback => .loopback
  | .lan => .lan
  | .outside => .outside

/-- Without the prefix `::ffff:`. -/
def withoutMappedPrefix (trimmed : String) : String :=
  if "::ffff:".toList.isPrefixOf trimmed.toList then String.ofList (trimmed.toList.drop 7)
  else trimmed

def normalize (address : String) : String :=
  withoutMappedPrefix (toAsciiLowercase (rustTrim address))

def isLoopbackIp (address : String) : Bool :=
  let normalized := toAsciiLowercase (rustTrim address)
  if normalized = "::1" ∨ normalized = "0:0:0:0:0:0:0:1" then true
  else
    match parseIpv4 (normalize normalized) with
    | some (a, _) => a = 127
    | none => false

def isPrivateLanIp (address : String) : Bool :=
  let normalized := normalize address
  match parseIpv4 normalized with
  | some (a, b, _) =>
    a = 10 || (a = 172 && 16 ≤ b && b ≤ 31) || (a = 192 && b = 168) || (a = 169 && b = 254)
  | none =>
    match parseIpv6 normalized with
    | none => false
    | some segments =>
      let first := segments.headD 0
      first &&& 0xfe00 = 0xfc00 || first &&& 0xffc0 = 0xfe80

def classify (address : Option String) : Locality :=
  match address with
  | none => .loopback
  | some address =>
    if isLoopbackIp address then .loopback
    else if isPrivateLanIp address then .lan
    else .outside

def isClientTrusted (client : Locality) (trustLan : Bool) : Bool :=
  client = .loopback || (client = .lan && trustLan)

def isAuthRequired (hasPassword : Bool) (client : Locality) (trustLan : Bool) : Bool :=
  hasPassword || !isClientTrusted client trustLan

/-! ## 3. The texts of addresses -/

theorem splitChars_head {separator : Char} (part rest : List Char) :
    (splitChars separator (part ++ separator :: rest)).headD [] =
      (splitChars separator part).headD [] := by
  induction part with
  | nil => simp [splitChars]
  | cons c part ih =>
    rw [cons_append, splitChars, splitChars]
    split
    · rfl
    · revert ih
      cases splitChars separator (part ++ separator :: rest) <;>
        cases splitChars separator part <;> simp

variable {part text : String}

theorem decimal_of_octet {n : Nat} (h : octet? part = some n) : decimal part = some n := by
  unfold octet? at h
  split at h
  · exact (filter_eq_some_iff.mp h).1
  · cases h

theorem decimal_some {n : Nat} (h : decimal part = some n) :
    part ≠ "" ∧ part.toList.all Char.isDigit = true ∧
      part.toList.foldl (fun n c => n * 10 + (c.toNat - 48)) 0 = n := by
  unfold decimal at h
  split at h
  · exact ⟨‹_ ∧ _›.1, ‹_ ∧ _›.2, some.inj h⟩
  · cases h

theorem digit_of_toNat {c : Char} (h : c.isDigit = true) : 48 ≤ c.toNat ∧ c.toNat ≤ 57 := by
  have hlow := Char.le_def.mp (of_decide_eq_true (Bool.and_eq_true_iff.mp h).1)
  have hup := Char.le_def.mp (of_decide_eq_true (Bool.and_eq_true_iff.mp h).2)
  exact ⟨UInt32.le_iff_toNat_le.mp hlow, UInt32.le_iff_toNat_le.mp hup⟩

theorem octet_127 : octet? part = some 127 ↔ part = "127" := by
  constructor
  · intro h
    obtain ⟨-, hdigits, hvalue⟩ := decimal_some (decimal_of_octet h)
    unfold octet? at h
    split at h
    · rename_i hshape
      obtain ⟨hlen, hzero⟩ := hshape
      rw [← String.length_toList] at hlen
      have hinj : ∀ c : Char, ∀ n : Nat, c.toNat = n → c = Char.ofNat n := fun c n hn => by
        rw [← hn, Char.ofNat_toNat]
      rcases hcs : part.toList with _ | ⟨a, _ | ⟨b, _ | ⟨c, _ | ⟨d, cs⟩⟩⟩⟩
      case cons.cons.cons.cons =>
        rw [hcs, length_cons, length_cons, length_cons, length_cons] at hlen
        omega
      all_goals rw [hcs] at hdigits hvalue hlen
      all_goals simp at hdigits hvalue
      · have := digit_of_toNat hdigits; omega
      · have := digit_of_toNat hdigits.1; have := digit_of_toNat hdigits.2; omega
      · have hb := digit_of_toNat hdigits.2.1
        have hc := digit_of_toNat hdigits.2.2
        obtain rfl := hinj a 49 (by omega)
        obtain rfl := hinj b 50 (by omega)
        obtain rfl := hinj c 55 (by omega)
        rw [← @String.ofList_toList part, hcs]
    · cases h
  · rintro rfl; decide

theorem parseIpv4_some {a b c d : Nat} (h : parseIpv4 text = some (a, b, c, d)) :
    ∃ p q r s, splitOnChar '.' text = [p, q, r, s] ∧ octet? p = some a ∧ octet? q = some b ∧
      octet? r = some c ∧ octet? s = some d := by
  unfold parseIpv4 at h
  split at h
  · rename_i a' b' c' d' hparts
    obtain ⟨rfl, rfl, rfl, rfl⟩ : a' = a ∧ b' = b ∧ c' = c ∧ d' = d := by simpa using h
    rcases hsplit : splitOnChar '.' text with _ | ⟨p, _ | ⟨q, _ | ⟨r, _ | ⟨s, _ | ⟨t, ts⟩⟩⟩⟩⟩
    all_goals rw [hsplit] at hparts
    all_goals simp at hparts
    exact ⟨p, q, r, s, rfl, hparts.1, hparts.2.1, hparts.2.2.1, hparts.2.2.2⟩
  · cases h

theorem ipv4Octets_eq (text : String) :
    ipv4Octets ipTests text = (parseIpv4 text).map fun v4 => (v4.1, v4.2.1) := by
  show (if (parseIpv4 text).isSome = true then _ else none) = _
  cases h : parseIpv4 text with
  | none => rfl
  | some v4 =>
    obtain ⟨p, q, r, s, hsplit, hp, hq, hr, hs⟩ := parseIpv4_some h
    simp [hsplit, decimal_of_octet hp, decimal_of_octet hq, decimal_of_octet hr,
      decimal_of_octet hs]

/-- The text of an IPv4 address begins with `127.` where its first octet is 127. -/
theorem prefix_127_iff {a b c d : Nat} (h : parseIpv4 text = some (a, b, c, d)) :
    "127.".toList.isPrefixOf text.toList = true ↔ a = 127 := by
  obtain ⟨p, q, r, s, hsplit, hp, -⟩ := parseIpv4_some h
  unfold splitOnChar at hsplit
  have hfirst : a = 127 ↔ p = "127" := by rw [← octet_127, hp, some.injEq]
  rw [hfirst, isPrefixOf_iff_prefix]
  rcases hchars : splitChars '.' text.toList with _ | ⟨first, _ | ⟨second, others⟩⟩
  all_goals rw [hchars] at hsplit
  all_goals simp only [map_nil, map_cons, List.cons.injEq, reduceCtorEq, and_false] at hsplit
  obtain ⟨rfl, -⟩ := hsplit
  constructor
  · rintro ⟨rest, hrest⟩
    have hsplit := @Server.splitChars_append '.' "127".toList (by decide) rest
    have htext : "127".toList ++ '.' :: rest = text.toList := hrest
    rw [htext, hchars] at hsplit
    rw [(cons.inj hsplit).1, String.ofList_toList]
  · intro heq
    rcases Server.of_splitChars_cons hchars with ⟨hnil, -⟩ | ⟨rest, htext, -⟩
    · cases hnil
    · refine ⟨rest, ?_⟩
      rw [htext, ← @String.toList_ofList first, heq]
      rfl

theorem splitDoubleColon_none {cs head : List Char} (h : splitDoubleColon cs = (head, none)) :
    head = cs := by
  induction cs generalizing head with
  | nil => exact (Prod.mk.inj h).1.symm
  | cons c cs ih =>
    rw [Server.splitDoubleColon.eq_def] at h
    split at h
    · cases (Prod.mk.inj h).2
    · rename_i heq; cases heq
    · rename_i heq
      obtain ⟨rfl, rfl⟩ := cons.inj heq
      obtain ⟨rfl, hnone⟩ := Prod.mk.inj h
      exact congrArg _ (ih (Prod.ext rfl hnone))

theorem splitDoubleColon_some {cs head tail : List Char}
    (h : splitDoubleColon cs = (head, some tail)) : cs = head ++ ':' :: ':' :: tail := by
  induction cs generalizing head with
  | nil => cases (Prod.mk.inj h).2
  | cons c cs ih =>
    rw [Server.splitDoubleColon.eq_def] at h
    split at h
    · rename_i heq
      obtain ⟨rfl, htail⟩ := Prod.mk.inj h
      rw [heq, some.inj htail]
      rfl
    · cases (Prod.mk.inj h).2
    · rename_i heq
      obtain ⟨rfl, rfl⟩ := cons.inj heq
      obtain ⟨rfl, hsome⟩ := Prod.mk.inj h
      exact congrArg _ (ih (Prod.ext rfl hsome))

theorem parseHex_of_hextet {segment : Nat} (h : hextet? part = some segment) :
    parseHex part = some segment := by
  unfold hextet? at h
  split at h
  · rename_i hshape
    obtain ⟨hne, -, hall⟩ := hshape
    obtain rfl := some.inj h
    have htake : (part.toList.takeWhile fun c => (hexValue c).isSome) = part.toList :=
      takeWhile_eq_self_iff.mpr (by simpa using hall)
    unfold parseHex
    rw [htake]
    cases hcs : part.toList with
    | nil => exact absurd (by rw [← @String.ofList_toList part, hcs]) hne
    | cons c cs => rfl
  · cases h

/-- The first segment is the first group, unless the address begins with `::`. -/
theorem first_segment {segments : List Nat} (h : parseIpv6 text = some segments) :
    parseHex ((splitOnChar ':' text).headD "") = none ∧ segments.headD 0 = 0 ∨
      parseHex ((splitOnChar ':' text).headD "") = some (segments.headD 0) := by
  have hfirst : ∀ cs, (splitOnChar ':' text).headD "" = String.ofList cs ↔
      (splitChars ':' text.toList).headD [] = cs := by
    unfold splitOnChar
    cases hsplit : splitChars ':' text.toList with
    | nil => exact absurd hsplit (Server.splitChars_ne_nil _ _)
    | cons first others => simp [String.ofList_inj]
  unfold parseIpv6 at h
  split at h
  · rename_i head hsplit
    obtain rfl := splitDoubleColon_none hsplit
    obtain ⟨hsegments, hlength⟩ := filter_eq_some_iff.mp h
    right
    unfold groupsOf at hsegments
    split at hsegments
    · obtain rfl : [] = segments := some.inj hsegments; simp at hlength
    · cases hparts : splitChars ':' text.toList with
      | nil => exact absurd hparts (Server.splitChars_ne_nil _ _)
      | cons first others =>
        rw [(hfirst first).mpr (by rw [hparts]; rfl)]
        rw [hparts] at hsegments
        cases others with
        | nil =>
          -- one group makes two segments at most
          simp only [map_cons, map_nil, segments?] at hsegments
          split at hsegments
          · obtain rfl := some.inj hsegments; simp at hlength
          · obtain ⟨v4, -, rfl⟩ := map_eq_some_iff.mp hsegments; simp at hlength
        | cons second others =>
          simp only [map_cons, segments?, bind_eq_bind, bind_eq_some_iff] at hsegments
          obtain ⟨segment, hsegment, rest, -, hsegments⟩ := hsegments
          cases hsegments
          exact parseHex_of_hextet hsegment
  · rename_i head tail hsplit
    have htext := splitDoubleColon_some hsplit
    simp only [bind_eq_bind, bind_eq_some_iff] at h
    obtain ⟨left, hleft, right, -, h⟩ := h
    split at h
    · obtain rfl := some.inj h
      unfold groupsOf at hleft
      split at hleft
      · rename_i hhead
        obtain rfl := hhead
        obtain rfl : [] = left := by simpa using hleft
        refine .inl ⟨?_, ?_⟩
        · rw [(hfirst []).mpr (by rw [htext]; simp [splitChars])]; decide
        · obtain ⟨n, hn⟩ : ∃ n, 8 - 0 - right.length = n + 1 := ⟨7 - right.length, by omega⟩
          simp [hn, replicate_succ]
      · right
        have hhead := (@splitChars_head ':' head (':' :: tail)).symm
        rw [← htext] at hhead
        cases hparts : splitChars ':' head with
        | nil => exact absurd hparts (Server.splitChars_ne_nil _ _)
        | cons first others =>
          rw [hparts] at hhead hleft
          rw [(hfirst first).mpr hhead.symm]
          simp only [map_cons, mapM_cons, bind_eq_bind, bind_eq_some_iff] at hleft
          obtain ⟨segment, hsegment, rest, -, hleft⟩ := hleft
          cases hleft
          exact parseHex_of_hextet hsegment
    · cases h

/-! ## 4. The Node daemon says the same -/

theorem ipTests_isIPv4 (text : String) : ipTests.isIPv4 text = (parseIpv4 text).isSome := rfl

theorem ipTests_isIPv6 (text : String) : ipTests.isIPv6 text = (parseIpv6 text).isSome := rfl

section Agreement

variable {address : String}

section

variable (h : jsTrim address = rustTrim address)
include h

theorem normalizedAddress_eq :
    Server.normalizedAddress address = toAsciiLowercase (rustTrim address) := by
  unfold Server.normalizedAddress
  rw [h]
  rfl

theorem normalizeIp_eq : Server.normalizeIp address = normalize address := by
  unfold Server.normalizeIp normalize
  rw [normalizedAddress_eq h]
  rfl

theorem isLoopbackIp_eq (hne : address ≠ "") :
    Server.isLoopbackIp ipTests (some address) = isLoopbackIp address := by
  have hpresent : (some address).filter (· ≠ "") = some address := by simp [hne]
  unfold Server.isLoopbackIp isLoopbackIp
  simp only [hpresent, normalizedAddress_eq h]
  split
  · rfl
  · have hmapped : normalize (toAsciiLowercase (rustTrim address)) =
        Server.withoutMapping (toAsciiLowercase (rustTrim address)) := by
      unfold normalize
      rw [lower_trim_idem]
      rfl
    rw [hmapped]
    rw [ipTests_isIPv4]
    cases hparse : parseIpv4 (Server.withoutMapping (toAsciiLowercase (rustTrim address))) with
    | none => rfl
    | some v4 =>
      rw [isSome_some, Bool.true_and]
      exact Bool.eq_iff_iff.mpr ((prefix_127_iff hparse).trans decide_eq_true_iff.symm)

theorem isPrivateLanIp_eq (hne : address ≠ "") :
    Server.isPrivateLanIp ipTests (some address) = isPrivateLanIp address := by
  have hpresent : (some address).filter (· ≠ "") = some address := by simp [hne]
  unfold Server.isPrivateLanIp isPrivateLanIp
  simp only [hpresent, normalizeIp_eq h, ipv4Octets_eq]
  cases parseIpv4 (normalize address) with
  | some v4 => simp only [map_some]
  | none =>
    simp only [map_none]
    by_cases hsome : ipTests.isIPv6 (normalize address) = true
    · rw [if_pos hsome]
      rw [ipTests_isIPv6] at hsome
      obtain ⟨segments, hparse⟩ := isSome_iff_exists.mp hsome
      rw [hparse]
      rcases first_segment hparse with ⟨hnone, hzero⟩ | hgroup
      · simp only [hnone, hzero]; decide
      · simp only [hgroup]
    · rw [if_neg hsome]; rw [ipTests_isIPv6] at hsome; rw [not_isSome_iff_eq_none.mp hsome]

/-- **The two classify an address alike** where they trim it alike. -/
theorem toClient_classify :
    (classify (some address)).toClient = Server.classifyClientAddress ipTests (some address) := by
  by_cases hne : address = ""
  · obtain rfl := hne; decide
  · unfold classify Server.classifyClientAddress
    simp only [isLoopbackIp_eq h hne, isPrivateLanIp_eq h hne]
    split
    · rfl
    · split <;> rfl

end

end Agreement

end Frogg.DaemonRs
