/-
  Subject:   Which client the forwarded header of a request names, and what its text can reach
             (access-policy.ts).

  **`walkHops_furthest`**: the client is the furthest address to the left that trusted proxies and
  readable hops lead to. **`classifyClientAddress_spelled`**: what an address counts as, as a
  function of what its text denotes; an address spelled otherwise than `plainlySpelled` counts as
  an outside one.
-/
import Frogg.Server.AddressNetworks

namespace Frogg.Server

open List Option

open Library
open DaemonRs (segments? parseIpv4 parseIpv6 ipTests ipv4Octets_eq prefix_127_iff
  splitDoubleColon_none splitDoubleColon_some first_segment splitChars_head)

/-! ## 1. The walk over the hops -/

section Walk

variable {net : AddressTests} {trustedProxies : TrustedProxiesSetting}

/-- From the right, the socket first: `n` hops were taken, each named by a trusted proxy and read as
    an address. -/
def Reached (net : AddressTests) (trustedProxies : TrustedProxiesSetting)
    (fromRight : List String) (n : Nat) : Prop :=
  n < fromRight.length ∧
    ∀ i, i < n → ∃ proxy hop, fromRight[i]? = some proxy ∧ fromRight[i + 1]? = some hop ∧
      isTrustedProxy net proxy trustedProxies = true ∧ isIP net (normalizeIp hop) = true

/-- **The walk ends at the furthest address that can be reached.** -/
theorem walkHops_furthest (client : String) (hops : List String) :
    Reached net trustedProxies (client :: hops) (walkHops net trustedProxies client hops).2 ∧
      (∀ n, Reached net trustedProxies (client :: hops) n →
        n ≤ (walkHops net trustedProxies client hops).2) ∧
      (client :: hops)[(walkHops net trustedProxies client hops).2]? =
        some (walkHops net trustedProxies client hops).1 := by
  -- the walk goes no further than a step that cannot be taken
  have hstay : ∀ {client : String} {hops : List String},
      (∀ hop, hops.head? = some hop → ¬(isTrustedProxy net client trustedProxies = true ∧
        isIP net (normalizeIp hop) = true)) →
      ∀ n, Reached net trustedProxies (client :: hops) n → n ≤ 0 := by
    intro client hops hno n hreached
    rcases Nat.eq_zero_or_pos n with hzero | hpos
    · omega
    · obtain ⟨proxy, hop, hproxy, hhop, htrusted, hvalid⟩ := hreached.2 0 hpos
      obtain rfl := some.inj hproxy
      rw [getElem?_cons_succ, ← head?_eq_getElem?] at hhop
      exact absurd ⟨htrusted, hvalid⟩ (hno hop hhop)
  have hhere : ∀ {client : String} {hops : List String},
      Reached net trustedProxies (client :: hops) 0 :=
    ⟨Nat.zero_lt_succ _, fun i hi => absurd hi (Nat.not_lt_zero i)⟩
  induction hops generalizing client with
  | nil => exact ⟨hhere, hstay (by simp), rfl⟩
  | cons hop rest ih =>
    unfold walkHops
    split
    · rename_i huntrusted
      refine ⟨hhere, hstay fun found hfound htaken => ?_, rfl⟩
      rw [huntrusted] at htaken
      cases htaken.1
    · rename_i htrusted
      split
      · rename_i hinvalid
        refine ⟨hhere, hstay fun found hfound htaken => ?_, rfl⟩
        obtain rfl := some.inj hfound
        rw [hinvalid] at htaken
        cases htaken.2
      · rename_i hvalid
        obtain ⟨hreached, hfurthest, hat⟩ := ih hop
        refine ⟨⟨Nat.succ_lt_succ hreached.1, fun i hi => ?_⟩, fun n hn => ?_, ?_⟩
        · cases i with
          | zero =>
            exact ⟨client, hop, rfl, rfl, eq_true_of_ne_false htrusted,
              eq_true_of_ne_false hvalid⟩
          | succ i => exact hreached.2 i (Nat.lt_of_succ_lt_succ hi)
        · cases n with
          | zero => exact Nat.zero_le _
          | succ n =>
            exact Nat.succ_le_succ (hfurthest n ⟨Nat.lt_of_succ_lt_succ hn.1, fun i hi =>
              hn.2 (i + 1) (Nat.succ_lt_succ hi)⟩)
        · exact hat

/-- Nothing behind a hop that stops the walk changes where it ends. -/
theorem walkHops_append {client : String} {near : List String}
    (h : isTrustedProxy net client trustedProxies = false ∨
      ∃ hop ∈ near, isTrustedProxy net hop trustedProxies = false ∨
        isIP net (normalizeIp hop) = false) (far far' : List String) :
    walkHops net trustedProxies client (near ++ far) =
      walkHops net trustedProxies client (near ++ far') := by
  have huntrusted : ∀ {client : String}, isTrustedProxy net client trustedProxies = false →
      ∀ hops, walkHops net trustedProxies client hops = (client, 0) := by
    intro client hclient hops
    cases hops with
    | nil => rfl
    | cons hop rest => unfold walkHops; rw [if_pos hclient]
  induction near generalizing client with
  | nil =>
    rcases h with h | ⟨hop, hmem, -⟩
    · rw [huntrusted h, huntrusted h]
    · exact absurd hmem not_mem_nil
  | cons hop rest ih =>
    by_cases hclient : isTrustedProxy net client trustedProxies = false
    · rw [huntrusted hclient, huntrusted hclient]
    · rw [cons_append, cons_append, walkHops, walkHops, if_neg hclient, if_neg hclient]
      by_cases hvalid : isIP net (normalizeIp hop) = false
      · rw [if_pos hvalid, if_pos hvalid]
      · rw [if_neg hvalid, if_neg hvalid, ih]
        rcases h with h | ⟨found, hmem, hfound⟩
        · exact absurd h hclient
        · rcases mem_cons.mp hmem with rfl | hmem
          · exact .inl (hfound.resolve_right hvalid)
          · exact .inr ⟨found, hmem, hfound⟩

theorem splitChars_at (separator : Char) (cs rest : List Char) :
    splitChars separator (cs ++ separator :: rest) =
      splitChars separator cs ++ splitChars separator rest := by
  rw [splitChars_eq_splitOn, splitChars_eq_splitOn, splitChars_eq_splitOn]
  exact splitOn_append_cons_self cs rest

/-- The entries of a header's text. -/
def hopsOf (text : String) : List String := ((splitOnChar ',' text).map jsTrim).filter (· ≠ "")

theorem forwardedHops_eq (forwardedFor : List String) :
    forwardedHops forwardedFor = hopsOf (",".intercalate forwardedFor) := rfl

theorem hopsOf_at (before after : String) :
    hopsOf (before ++ "," ++ after) = hopsOf before ++ hopsOf after := by
  have htext : (before ++ "," ++ after).toList = before.toList ++ ',' :: after.toList := by
    rw [String.toList_append, String.toList_append, append_assoc]
    rfl
  unfold hopsOf splitOnChar
  rw [htext, splitChars_at, map_append, map_append, filter_append]

/-- **The text in front of a hop that stops the walk does not reach the result.** -/
theorem resolveForwardedClient_independent {remoteAddress : Option String}
    {forwardedFor forwardedFor' : List String} {before before' after : String}
    (hfirst : ",".intercalate forwardedFor = before ++ "," ++ after)
    (hsecond : ",".intercalate forwardedFor' = before' ++ "," ++ after)
    (hstops : ∃ hop ∈ hopsOf after, isTrustedProxy net hop trustedProxies = false ∨
      isIP net (normalizeIp hop) = false) :
    resolveForwardedClient net ⟨remoteAddress, forwardedFor⟩ trustedProxies =
      resolveForwardedClient net ⟨remoteAddress, forwardedFor'⟩ trustedProxies := by
  unfold resolveForwardedClient
  cases remoteAddress.filter (· ≠ "") with
  | none => rfl
  | some remote =>
    dsimp only
    rw [forwardedHops_eq, forwardedHops_eq, hfirst, hsecond, hopsOf_at, hopsOf_at,
      reverse_append, reverse_append]
    obtain ⟨hop, hmem, hstop⟩ := hstops
    rw [@walkHops_append net trustedProxies remote (hopsOf after).reverse
      (.inr ⟨hop, mem_reverse.mpr hmem, hstop⟩) _ (hopsOf before').reverse]

theorem classifyRequestLocality_loopback {req : RequestLike}
    (h : classifyRequestLocality net req trustedProxies = .loopback) :
    (resolveForwardedClient net req trustedProxies).2 = false ∧
      isLoopbackIp net (req.remoteAddress.filter (· ≠ "")) = true := by
  unfold classifyRequestLocality at h
  dsimp only at h
  split at h
  · cases h
  · rename_i hnot
    have hdirect : (resolveForwardedClient net req trustedProxies).2 = false :=
      Bool.eq_false_iff.mpr fun heq => hnot ⟨heq, h⟩
    rw [resolveForwardedClient_direct hdirect] at h
    exact ⟨hdirect, isLoopbackIp_of_classify h⟩

end Walk

/-! ## 2. What an address counts as -/

inductive Address where
  | ipv4 (a b c d : Nat)
  | ipv6 (segments : List Nat)
  deriving DecidableEq

/-- An IPv6 address that maps an IPv4 address is that address. -/
def addressOf : List Nat → Address
  | [0, 0, 0, 0, 0, 0xffff, high, low] =>
    .ipv4 (high / 256) (high % 256) (low / 256) (low % 256)
  | segments => .ipv6 segments

/-- The address a text denotes, its zone left out; `none` where it is no address. -/
def address? (text : String) : Option Address :=
  match parseIpv4 text with
  | some (a, b, c, d) => some (.ipv4 a b c d)
  | none => (parseZoned text).map addressOf

def isLanSegment (segment : Nat) : Bool :=
  segment &&& 0xfe00 = 0xfc00 || segment &&& 0xffc0 = 0xfe80

/-- Loopback, private and link-local space. -/
def Address.locality : Address → ClientLocality
  | .ipv4 a b _ _ =>
    if a = 127 then .loopback
    else if a = 10 || (a = 172 && 16 ≤ b && b ≤ 31) || (a = 192 && b = 168) ||
        (a = 169 && b = 254) then .lan
    else .outside
  | .ipv6 segments =>
    if segments = [0, 0, 0, 0, 0, 0, 0, 1] then .loopback
    else if isLanSegment (segments.headD 0) then .lan
    else .outside

/-- The spellings that are known for what they denote: a mapped address is dotted behind a literal
    `::ffff:`, and `::1` is written so or in full. -/
def plainlySpelled (text : String) : Bool :=
  match address? text with
  | some (.ipv4 _ _ _ _) => nodeTests.isIPv4 (withoutMapping text)
  | some (.ipv6 segments) =>
    segments ≠ [0, 0, 0, 0, 0, 0, 0, 1] || text = "::1" || text = "0:0:0:0:0:0:0:1"
  | none => false

section Classes

variable {address other text : String} {denoted : Address}

theorem present_of_denoted (h : address? (normalizedAddress address) = some denoted) :
    (some address).filter (· ≠ "") = some address := by
  refine filter_eq_some_iff.mpr ⟨rfl, decide_eq_true fun hempty => ?_⟩
  have hnone : address? (normalizedAddress "") = none := by decide
  rw [hempty, hnone] at h
  cases h

variable {a b c d : Nat}

theorem address?_withoutMapping (h : parseIpv4 (withoutMapping text) = some (a, b, c, d)) :
    address? text = some (.ipv4 a b c d) := by
  obtain ⟨-, ha, hb, hc, hd⟩ := parseIpv4_iff.mp h
  unfold address?
  rcases withoutMapping_denotes h with hv4 | ⟨hnone, hsegments⟩
  · rw [hv4]
  · rw [hnone, hsegments, map_some]
    show some (Address.ipv4 _ _ _ _) = _
    congr 2 <;> omega

variable {segments : List Nat}

/-- Behind a literal `::ffff:` there is no room for an IPv6 address. -/
theorem parseZoned_mapped (h : parseZoned text = some segments)
    (hmapped : "::ffff:".toList.isPrefixOf text.toList = true) :
    segments.headD 0 = 0 ∧ parseZoned (withoutMapping text) = none := by
  obtain ⟨rest, hrest⟩ := isPrefixOf_iff_prefix.mp hmapped
  have htext : text.toList = ':' :: ':' :: ("ffff".toList ++ ':' :: rest) := hrest.symm
  obtain ⟨address, zone, -, -, -, htake, -, hparse⟩ := parseZoned_some h
  have haddress : address = ':' :: ':' :: ("ffff".toList ++ ':' :: rest.takeWhile (· ≠ '%')) := by
    rw [← htake, htext]
    rfl
  have hmapping : withoutMapping text = String.ofList rest := by
    unfold withoutMapping
    rw [if_pos hmapped, htext]
    rfl
  -- the groups behind `::` are `ffff` and those of the rest
  have hsplit : splitDoubleColon address =
      ([], some ("ffff".toList ++ ':' :: rest.takeWhile (· ≠ '%'))) := by
    rw [haddress]
    rfl
  have hgroups : groupsOf ("ffff".toList ++ ':' :: rest.takeWhile (· ≠ '%')) =
      "ffff" :: (splitChars ':' (rest.takeWhile (· ≠ '%'))).map String.ofList := by
    unfold groupsOf
    rw [if_neg (by simp), splitChars_append (by decide), map_cons, String.ofList_toList]
  unfold parseIpv6 at hparse
  rw [String.toList_ofList, hsplit] at hparse
  dsimp only at hparse
  rw [hgroups] at hparse
  simp only [bind_eq_bind, bind_eq_some_iff] at hparse
  obtain ⟨left, hleft, right, hright, hparse⟩ := hparse
  obtain rfl : [] = left := some.inj hleft
  split at hparse
  · rename_i hroom
    obtain rfl := some.inj hparse
    refine ⟨?_, ?_⟩
    · obtain ⟨n, hn⟩ : ∃ n, 8 - 0 - right.length = n + 1 := ⟨7 - right.length, by omega⟩
      simp [hn, replicate_succ]
    · rw [hmapping]
      refine eq_none_iff_forall_ne_some.mpr fun found hfound => ?_
      obtain ⟨address', zone', -, -, -, htake', -, hparse'⟩ := parseZoned_some hfound
      rw [String.toList_ofList] at htake'
      obtain rfl := htake'
      by_cases hempty : rest.takeWhile (· ≠ '%') = []
      · rw [hempty] at hright; exact empty_not_mem_segments? hright (by decide)
      · have hothers : groupsOf (rest.takeWhile (· ≠ '%')) =
            (splitChars ':' (rest.takeWhile (· ≠ '%'))).map String.ofList := if_neg hempty
        rw [← hothers] at hright
        obtain ⟨others, hsegments, hlength⟩ : ∃ others,
            segments? (groupsOf (rest.takeWhile (· ≠ '%'))) = some others ∧
              right.length = others.length + 1 := by
          cases hcases : groupsOf (rest.takeWhile (· ≠ '%')) with
          | nil =>
            rw [hothers, map_eq_nil_iff] at hcases
            exact absurd hcases (splitChars_ne_nil _ _)
          | cons group groups =>
            rw [hcases] at hright
            unfold segments? at hright
            simp only [bind_eq_bind, bind_eq_some_iff] at hright
            obtain ⟨segment, -, others, hsegments, hright⟩ := hright
            cases hright
            exact ⟨others, hsegments, rfl⟩
        unfold parseIpv6 at hparse'
        rw [String.toList_ofList, splitDoubleColon_of_segments hsegments] at hparse'
        dsimp only at hparse'
        rw [hsegments] at hparse'
        have hfull := (filter_eq_some_iff.mp hparse').2
        obtain rfl := some.inj (filter_eq_some_iff.mp hparse').1
        have hfull : others.length = 8 := of_decide_eq_true hfull
        omega
  · cases hparse

theorem head_splitOnChar (separator : Char) (text : String) :
    (splitOnChar separator text).headD "" =
      String.ofList ((splitChars separator text.toList).headD []) := by
  unfold splitOnChar
  cases splitChars separator text.toList <;> rfl

theorem colon_mem_of_parseIpv6 {cs : List Char} (h : parseIpv6 (String.ofList cs) = some segments) :
    ':' ∈ cs := by
  by_contra hno
  have hlength := (parseIpv6_shape h).1
  have hsplit : splitDoubleColon cs = (cs, none) := by
    have := splitDoubleColon_append hno []
    rwa [append_nil, show splitDoubleColon [] = ([], none) from rfl, append_nil] at this
  unfold parseIpv6 at h
  rw [String.toList_ofList, hsplit] at h
  have hsegments := (filter_eq_some_iff.mp h).1
  have hgroups : (groupsOf cs).length ≤ 1 := by
    unfold groupsOf
    split
    · exact Nat.zero_le _
    · rw [splitChars_single hno]; exact Nat.le_refl _
  have := length_segments? hsegments
  omega

/-- The first segment decides the class of an IPv6 address, as its text shows it. -/
theorem isPrivateLanIp_segments (hpresent : (some address).filter (· ≠ "") = some address)
    (h : parseZoned (normalizedAddress address) = some segments)
    (hnone : parseIpv4 (withoutMapping (normalizedAddress address)) = none) :
    isPrivateLanIp nodeTests (some address) = isLanSegment (segments.headD 0) := by
  unfold isPrivateLanIp normalizeIp
  simp only [hpresent]
  generalize normalizedAddress address = text at h hnone
  have hoctets : ipv4Octets nodeTests (withoutMapping text) = none := by
    have heq : ipv4Octets nodeTests (withoutMapping text) =
        ipv4Octets ipTests (withoutMapping text) := rfl
    rw [heq, ipv4Octets_eq, hnone]
    rfl
  rw [hoctets, nodeTests_isIPv6]
  by_cases hmapped : "::ffff:".toList.isPrefixOf text.toList = true
  · obtain ⟨hfirst, hrest⟩ := parseZoned_mapped h hmapped
    rw [hrest, hfirst, isSome_none, if_neg Bool.false_ne_true]
    decide
  · have hsame : withoutMapping text = text := if_neg hmapped
    rw [hsame, h, isSome_some, if_pos rfl]
    obtain ⟨address, zone, htext, -, -, -, -, hparse⟩ := parseZoned_some h
    have hheads : (splitOnChar ':' text).headD "" =
        (splitOnChar ':' (String.ofList address)).headD "" := by
      obtain ⟨front, back, haddress⟩ := append_of_mem (colon_mem_of_parseIpv6 hparse)
      rw [head_splitOnChar, head_splitOnChar, htext, String.toList_ofList, haddress,
        append_assoc, cons_append, splitChars_head, splitChars_head]
    rw [hheads]
    rcases first_segment hparse with ⟨hempty, hzero⟩ | hfirst
    · rw [hempty, hzero]; decide
    · rw [hfirst]; rfl

theorem headD_addressOf (h : addressOf segments = .ipv4 a b c d) : segments.headD 0 = 0 := by
  unfold addressOf at h
  split at h
  · rfl
  · cases h

/-- **What an address counts as**: its own class where it is spelled plainly, an outside one
    elsewhere. -/
theorem classifyClientAddress_spelled (h : address? (normalizedAddress address) = some denoted) :
    classifyClientAddress nodeTests (some address) =
      if plainlySpelled (normalizedAddress address) then denoted.locality else .outside := by
  have hpresent := present_of_denoted h
  have hloopback : isLoopbackIp nodeTests (some address) =
      if normalizedAddress address = "::1" ∨ normalizedAddress address = "0:0:0:0:0:0:0:1" then true
      else (parseIpv4 (withoutMapping (normalizedAddress address))).isSome &&
        "127.".toList.isPrefixOf (withoutMapping (normalizedAddress address)).toList := by
    unfold isLoopbackIp
    simp only [hpresent, nodeTests_isIPv4]
  unfold classifyClientAddress plainlySpelled
  rw [h, hloopback]
  cases hv4 : parseIpv4 (withoutMapping (normalizedAddress address)) with
  | some v4 =>
    obtain ⟨a, b, c, d⟩ := v4
    rw [address?_withoutMapping hv4] at h
    obtain rfl := some.inj h
    have hlan : isPrivateLanIp nodeTests (some address) =
        (a = 10 || (a = 172 && 16 ≤ b && b ≤ 31) || (a = 192 && b = 168) ||
          (a = 169 && b = 254) : Bool) := by
      have hoctets : ipv4Octets nodeTests (withoutMapping (normalizedAddress address)) =
          some (a, b) := by
        have heq : ipv4Octets nodeTests (withoutMapping (normalizedAddress address)) =
            ipv4Octets ipTests (withoutMapping (normalizedAddress address)) := rfl
        rw [heq, ipv4Octets_eq, hv4]
        rfl
      unfold isPrivateLanIp normalizeIp
      simp only [hpresent, hoctets]
    rw [hlan]
    generalize normalizedAddress address = text at hv4
    have hfull : ¬(text = "::1" ∨ text = "0:0:0:0:0:0:0:1") := by
      have h1 : parseIpv4 (withoutMapping "::1") = none := by decide
      have h2 : parseIpv4 (withoutMapping "0:0:0:0:0:0:0:1") = none := by decide
      rintro (rfl | rfl)
      · cases hv4
      · cases hv4
    have hfirst := prefix_127_iff hv4
    rw [if_neg hfull, isSome_some, Bool.true_and]
    rw [nodeTests_isIPv4, hv4, isSome_some, if_pos rfl]
    by_cases ha : a = 127
    · rw [if_pos (hfirst.mpr ha)]; exact (if_pos ha).symm
    · rw [if_neg (mt hfirst.mp ha)]; exact (if_neg ha).symm
  | none =>
    have hnone : parseIpv4 (normalizedAddress address) = none := by
      refine eq_none_iff_forall_ne_some.mpr fun v4 hparse => ?_
      rw [withoutMapping_ipv4 hparse, hparse] at hv4
      cases hv4
    unfold address? at h
    rw [hnone] at h
    obtain ⟨segments, hsegments, rfl⟩ := map_eq_some_iff.mp h
    rw [isPrivateLanIp_segments hpresent hsegments hv4, isSome_none, Bool.false_and]
    generalize normalizedAddress address = text at hv4 hsegments
    by_cases hfull : text = "::1" ∨ text = "0:0:0:0:0:0:0:1"
    · have hone : segments = [0, 0, 0, 0, 0, 0, 0, 1] := by
        have h1 : parseZoned "::1" = some [0, 0, 0, 0, 0, 0, 0, 1] := by decide
        have h2 : parseZoned "0:0:0:0:0:0:0:1" = some [0, 0, 0, 0, 0, 0, 0, 1] := by decide
        rcases hfull with rfl | rfl
        · exact mem_unique hsegments h1
        · exact mem_unique hsegments h2
      have haddress : addressOf segments = .ipv6 [0, 0, 0, 0, 0, 0, 0, 1] := by rw [hone]; rfl
      rw [if_pos hfull, if_pos rfl, haddress]
      rcases hfull with rfl | rfl <;> rfl
    · rw [if_neg hfull, if_neg Bool.false_ne_true]
      cases haddress : addressOf segments with
      | ipv4 a b c d =>
        rw [headD_addressOf haddress, nodeTests_isIPv4, hv4, isSome_none, if_neg Bool.false_ne_true]
        rfl
      | ipv6 segments' =>
        have hsame : segments' = segments := by
          unfold addressOf at haddress
          split at haddress
          · cases haddress
          · exact (Address.ipv6.inj haddress).symm
        obtain rfl := hsame
        by_cases hone : segments' = [0, 0, 0, 0, 0, 0, 0, 1]
        · have hspelled : (decide (segments' ≠ [0, 0, 0, 0, 0, 0, 0, 1]) || decide (text = "::1") ||
              decide (text = "0:0:0:0:0:0:0:1")) = false := by simp [hone, not_or.mp hfull]
          refine Eq.trans ?_ (if_neg (Bool.eq_false_iff.mp hspelled)).symm
          rw [hone]
          rfl
        · refine Eq.trans (if_neg hone).symm (if_pos ?_).symm
          simp [hone]

/-- A proxy is trusted by its class and its text without the mapping. -/
theorem isTrustedProxy_congr {net : AddressTests} (hloopback :
    isLoopbackIp net (some address) = isLoopbackIp net (some other))
    (htext : normalizeIp address = normalizeIp other) (trustedProxies : TrustedProxiesSetting) :
    isTrustedProxy net address trustedProxies = isTrustedProxy net other trustedProxies := by
  cases trustedProxies with
  | every => rfl
  | listed entries => unfold isTrustedProxy; rw [hloopback, htext]

theorem isLoopbackIp_iff_classify {net : AddressTests} {address : Option String} :
    isLoopbackIp net address = true ↔ classifyClientAddress net address = .loopback := by
  refine ⟨fun h => ?_, isLoopbackIp_of_classify⟩
  unfold classifyClientAddress
  rw [if_pos h]

theorem withoutMapping_of_plain (h : address? text = some (.ipv4 a b c d))
    (hplain : plainlySpelled text = true) : withoutMapping text = ipv4Text a b c d := by
  unfold plainlySpelled at hplain
  rw [h] at hplain
  rw [nodeTests_isIPv4] at hplain
  obtain ⟨⟨a', b', c', d'⟩, hparse⟩ := isSome_iff_exists.mp hplain
  rw [address?_withoutMapping hparse] at h
  cases h
  exact (parseIpv4_iff.mp hparse).1

end Classes

/-! ## 3. What a header can reach -/

/-- **Forwarded headers do not raise a client's trust.** The client is the furthest address to the
    left that trusted proxies and readable hops lead to, text in front of a hop that stops the walk
    does not change it, it is loopback only as the socket's own address, and the class of a
    plainly spelled address is that of what it denotes, which for IPv4 also decides whether it is a
    trusted proxy; capitals and white space decide nothing. -/
theorem forwarded_client (remoteAddress : String) (trustedProxies : TrustedProxiesSetting)
    (hremote : remoteAddress ≠ "") :
    (∀ forwardedFor, ∃ n,
      Reached nodeTests trustedProxies (remoteAddress :: (forwardedHops forwardedFor).reverse) n ∧
      (∀ m, Reached nodeTests trustedProxies (remoteAddress :: (forwardedHops forwardedFor).reverse)
        m → m ≤ n) ∧
      resolveForwardedClient nodeTests ⟨some remoteAddress, forwardedFor⟩ trustedProxies =
        ((remoteAddress :: (forwardedHops forwardedFor).reverse)[n]?, decide (0 < n))) ∧
    (∀ forwardedFor forwardedFor' before before' after,
      ",".intercalate forwardedFor = before ++ "," ++ after →
      ",".intercalate forwardedFor' = before' ++ "," ++ after →
      (∃ hop ∈ hopsOf after, isTrustedProxy nodeTests hop trustedProxies = false ∨
        isIP nodeTests (normalizeIp hop) = false) →
      resolveForwardedClient nodeTests ⟨some remoteAddress, forwardedFor⟩ trustedProxies =
        resolveForwardedClient nodeTests ⟨some remoteAddress, forwardedFor'⟩ trustedProxies) ∧
    (∀ forwardedFor,
      classifyRequestLocality nodeTests ⟨some remoteAddress, forwardedFor⟩ trustedProxies =
        .loopback →
      (resolveForwardedClient nodeTests ⟨some remoteAddress, forwardedFor⟩ trustedProxies).2 =
          false ∧
        isLoopbackIp nodeTests (some remoteAddress) = true) ∧
    (∀ address other denoted,
      address? (normalizedAddress address) = some denoted →
      address? (normalizedAddress other) = some denoted →
      plainlySpelled (normalizedAddress address) = true →
      plainlySpelled (normalizedAddress other) = true →
      classifyClientAddress nodeTests (some address) = classifyClientAddress nodeTests (some other) ∧
      (∀ a b c d, denoted = .ipv4 a b c d →
        isTrustedProxy nodeTests address trustedProxies =
          isTrustedProxy nodeTests other trustedProxies)) ∧
    (∀ address other, address ≠ "" → other ≠ "" →
      normalizedAddress address = normalizedAddress other →
      classifyClientAddress nodeTests (some address) = classifyClientAddress nodeTests (some other) ∧
        isTrustedProxy nodeTests address trustedProxies =
          isTrustedProxy nodeTests other trustedProxies) := by
  have hpresent : (some remoteAddress).filter (· ≠ "") = some remoteAddress :=
    filter_eq_some_iff.mpr ⟨rfl, decide_eq_true hremote⟩
  refine ⟨fun forwardedFor => ?_, ?_, ?_, ?_, ?_⟩
  · obtain ⟨hreached, hfurthest, hat⟩ := @walkHops_furthest nodeTests trustedProxies remoteAddress
      (forwardedHops forwardedFor).reverse
    refine ⟨_, hreached, hfurthest, ?_⟩
    unfold resolveForwardedClient
    simp only [hpresent]
    rw [hat]
  · intro forwardedFor forwardedFor' before before' after hfirst hsecond hstops
    exact resolveForwardedClient_independent hfirst hsecond hstops
  · intro forwardedFor hloopback
    have hdirect := classifyRequestLocality_loopback hloopback
    rwa [hpresent] at hdirect
  · intro address other denoted haddress hother hplain hplain'
    have hclass : classifyClientAddress nodeTests (some address) =
        classifyClientAddress nodeTests (some other) := by
      rw [classifyClientAddress_spelled haddress, classifyClientAddress_spelled hother,
        if_pos hplain, if_pos hplain']
    refine ⟨hclass, ?_⟩
    rintro a b c d rfl
    refine isTrustedProxy_congr ?_ ?_ trustedProxies
    · rw [Bool.eq_iff_iff, isLoopbackIp_iff_classify, isLoopbackIp_iff_classify, hclass]
    · unfold normalizeIp
      rw [withoutMapping_of_plain haddress hplain, withoutMapping_of_plain hother hplain']
  · intro address other haddress hother hsame
    have hleft : (some address).filter (· ≠ "") = some address :=
      filter_eq_some_iff.mpr ⟨rfl, decide_eq_true haddress⟩
    have hright : (some other).filter (· ≠ "") = some other :=
      filter_eq_some_iff.mpr ⟨rfl, decide_eq_true hother⟩
    have htext : normalizeIp address = normalizeIp other := congrArg withoutMapping hsame
    have hloopback : isLoopbackIp nodeTests (some address) =
        isLoopbackIp nodeTests (some other) := by
      unfold isLoopbackIp
      simp only [hleft, hright, hsame]
    refine ⟨?_, isTrustedProxy_congr hloopback htext trustedProxies⟩
    unfold classifyClientAddress isPrivateLanIp
    simp only [hloopback, hleft, hright, htext]

/-- Through a proxy on loopback, the address in front of the one it names is out of reach. -/
theorem forwarded_client_of_proxy :
    resolveForwardedClient nodeTests ⟨some "127.0.0.1", ["10.0.0.9, 203.0.113.5"]⟩
        (.listed ["loopback"]) =
      resolveForwardedClient nodeTests ⟨some "127.0.0.1", ["::1", "127.0.0.1", " 203.0.113.5"]⟩
        (.listed ["loopback"]) :=
  (forwarded_client "127.0.0.1" (.listed ["loopback"]) (by decide)).2.1 _ _ "10.0.0.9"
    "::1,127.0.0.1" " 203.0.113.5" (by decide) (by decide)
    ⟨"203.0.113.5", by decide, .inl (by decide)⟩

/-- With nothing to its right, the socket's own address is the rightmost element whose right side is
    all trusted, and it is not the client; three spellings of one address are classed in two ways,
    and the proxy of another spelling is not the listed one. -/
theorem leftmost_client_and_spellings :
    Reached nodeTests (.listed ["loopback"]) ["127.0.0.1", "203.0.113.5"] 0 ∧
    resolveForwardedClient nodeTests ⟨some "127.0.0.1", ["203.0.113.5"]⟩ (.listed ["loopback"]) =
        (some "203.0.113.5", true) ∧
    (address? "::ffff:7f00:1" = address? "127.0.0.1" ∧
      classifyClientAddress nodeTests (some "::ffff:7f00:1") = .outside ∧
      classifyClientAddress nodeTests (some "127.0.0.1") = .loopback) ∧
    (address? "0::1" = address? "::1" ∧
      classifyClientAddress nodeTests (some "0::1") = .outside ∧
      classifyClientAddress nodeTests (some "::1") = .loopback) ∧
    (address? "2001:db8:0::1" = address? "2001:db8::1" ∧
      isTrustedProxy nodeTests "2001:db8:0::1" (.listed ["2001:db8::1"]) = false ∧
      isTrustedProxy nodeTests "2001:db8::1" (.listed ["2001:db8::1"]) = true) := by
  refine ⟨⟨by decide, fun i hi => absurd hi (Nat.not_lt_zero i)⟩, ?_⟩
  and_intros <;> decide

end Frogg.Server
