/-
  Subject:   When the throttle key of an address (auth.ts) is a function of its network.

  **`keyed_by_network`**: an address has the key of its network, different from every other one's,
  exactly where its text is `keyedRight`: an IPv4 address that an IPv6 one maps is written
  `::ffff:` and dotted, and the groups behind `::` are as many as the segments they stand for, or
  the miscount moves zeros only.
-/
import Frogg.Server.AddressNetworks

namespace Frogg.Server

open List Option

open Library
open DaemonRs (hextet? segments? parseIpv4 parseIpv6 splitDoubleColon_none
  splitDoubleColon_some)

/-! ## 1. The groups that a key counts -/

def isZeroGroup (group : String) : Bool := group.toList.all (· = '0')

/-- As many groups are written behind `::` as it is filled up for, or those that the miscount moves
    are zeros. A dotted tail stands for two; a zone may add groups of its own. -/
def countsRight (text : String) : Bool :=
  match splitDoubleColon (text.toList.takeWhile (· ≠ '%')) with
  | (_, none) => true
  | (head, some tail) =>
    let left := (groupsOf head).length
    let segments := ((segments? (groupsOf tail)).getD []).length
    let written := groupsOf (splitDoubleColon (tail ++ text.toList.dropWhile (· ≠ '%'))).1
    written.length = segments ||
      (written.take (4 - left - min (8 - left - written.length) (8 - left - segments))).all
        isZeroGroup

/-- The spelling of an address that the key reads as its network. -/
def keyedRight (text : String) : Bool :=
  match network? text with
  | some (.ipv4 _ _ _ _) => nodeTests.isIPv4 (withoutMapping text)
  | some (.subnet _) => countsRight text
  | none => false

section Shift

variable {α : Type} {z : α} {xs ys : List α} {a b n : Nat}

theorem take_replicate_append (a n : Nat) (xs : List α) :
    (replicate a z ++ xs).take n = replicate (min n a) z ++ xs.take (n - a) := by
  rw [take_append, take_replicate, length_replicate]

/-- Zeros in front move a list past themselves only where it begins with zeros. -/
theorem take_shifted_iff (hab : a < b) (hlength : n ≤ a + xs.length) :
    (replicate a z ++ xs).take n = (replicate b z ++ xs).take n ↔
      ∀ x ∈ xs.take (n - a), x = z := by
  have hmore : replicate b z = replicate a z ++ replicate (b - a) z := by
    rw [← replicate_add]
    congr 1
    omega
  rw [hmore, append_assoc, take_replicate_append, take_replicate_append, append_cancel_left_eq]
  have hm : n - a ≤ xs.length := by omega
  have hd : 0 < b - a := by omega
  generalize n - a = m at hm
  generalize b - a = d at hd
  rw [take_replicate_append]
  constructor
  · intro heq
    have hzero : ∀ i, i < m → xs[i]? = some z := by
      intro i
      induction i using Nat.strongRecOn with
      | ind i ih =>
        intro hi
        have hat := congrArg (·[i]?) heq
        simp only [getElem?_take_of_lt hi] at hat
        rw [hat]
        by_cases hid : i < d
        · rw [getElem?_append_left (by rw [length_replicate]; omega),
            getElem?_replicate_of_lt (by omega)]
        · rw [getElem?_append_right (by rw [length_replicate]; omega),
            length_replicate, Nat.min_eq_right (by omega), getElem?_take_of_lt (by omega)]
          exact ih (i - d) (by omega) (by omega)
    intro x hx
    obtain ⟨i, hi, rfl⟩ := mem_iff_getElem.mp hx
    rw [length_take] at hi
    have := hzero i (by omega)
    rw [getElem_take]
    rw [getElem?_eq_getElem (by omega)] at this
    exact some.inj this
  · intro hall
    have htake : xs.take m = replicate m z :=
      eq_replicate_iff.mpr ⟨by rw [length_take]; omega, hall⟩
    have hfewer : xs.take (m - d) = replicate (m - d) z := by
      rw [← Nat.min_eq_left (Nat.sub_le m d), ← take_take, htake, take_replicate]
    rw [htake, hfewer, ← replicate_add]
    congr 1
    omega

theorem take_shift_iff (hne : a ≠ b) (hlength : n ≤ min a b + xs.length)
    (hagree : xs.take (n - b) = ys.take (n - b)) :
    (replicate a z ++ xs).take n = (replicate b z ++ ys).take n ↔
      ∀ x ∈ xs.take (n - min a b), x = z := by
  have hys : (replicate b z ++ ys).take n = (replicate b z ++ xs).take n := by
    rw [take_replicate_append, take_replicate_append, hagree]
  rw [hys]
  rcases Nat.lt_or_gt_of_ne hne with hlt | hgt
  · rw [Nat.min_eq_left (by omega)] at hlength ⊢; exact take_shifted_iff hlt hlength
  · rw [Nat.min_eq_right (by omega)] at hlength ⊢; rw [eq_comm]; exact take_shifted_iff hgt hlength

end Shift

section Groups

variable {cs rest : List Char}

theorem splitDoubleColon_append_none (h : splitDoubleColon cs = (cs, none))
    (hrest : rest.head? ≠ some ':') : splitDoubleColon (cs ++ rest) =
      (cs ++ (splitDoubleColon rest).1, (splitDoubleColon rest).2) := by
  induction cs with
  | nil => rfl
  | cons c cs ih =>
    rw [splitDoubleColon.eq_def] at h
    split at h
    · cases (Prod.mk.inj h).2
    · rename_i heq; cases heq
    · rename_i hno heq
      obtain ⟨rfl, rfl⟩ := cons.inj heq
      obtain ⟨hfirst, hnone⟩ := Prod.mk.inj h
      have hcs := ih (Prod.ext (cons.inj hfirst).2 hnone)
      rw [cons_append, splitDoubleColon.eq_def]
      split
      · rename_i heq'
        obtain ⟨rfl, htail⟩ := cons.inj heq'
        cases cs with
        | nil => rw [nil_append] at htail; exact absurd (by rw [htail]; rfl) hrest
        | cons d ds => obtain ⟨rfl, rfl⟩ := cons.inj htail; exact (hno ds rfl rfl).elim
      · rename_i heq'; cases heq'
      · rename_i heq'
        obtain ⟨rfl, rfl⟩ := cons.inj heq'
        rw [hcs]
        rfl

theorem splitDoubleColon_append_some {head tail : List Char}
    (h : splitDoubleColon cs = (head, some tail)) :
    splitDoubleColon (cs ++ rest) = (head, some (tail ++ rest)) := by
  induction cs generalizing head with
  | nil => cases (Prod.mk.inj h).2
  | cons c cs ih =>
    rw [splitDoubleColon.eq_def] at h
    split at h
    · rename_i heq
      obtain ⟨rfl, htail⟩ := Prod.mk.inj h
      rw [heq, ← some.inj htail]
      rfl
    · rename_i heq; cases heq
    · rename_i hno heq
      obtain ⟨rfl, rfl⟩ := cons.inj heq
      obtain ⟨rfl, hsome⟩ := Prod.mk.inj h
      have hcs := ih (Prod.ext rfl hsome)
      rw [cons_append, splitDoubleColon.eq_def]
      split
      · rename_i heq'
        obtain ⟨rfl, htail⟩ := cons.inj heq'
        cases cs with
        | nil => cases hsome
        | cons d ds => obtain ⟨rfl, rfl⟩ := cons.inj htail; exact (hno ds rfl rfl).elim
      · rename_i heq'; cases heq'
      · rename_i heq'; obtain ⟨rfl, rfl⟩ := cons.inj heq'; rw [hcs]

theorem take_splitChars_append {separator : Char} {n : Nat}
    (h : n < (splitChars separator cs).length) :
    (splitChars separator (cs ++ rest)).take n = (splitChars separator cs).take n := by
  obtain ⟨init, last, more, hcs, hall, -⟩ := @splitChars_append_any separator cs rest
  rw [hcs, length_append, length_singleton] at h
  rw [hcs, hall, take_append_of_le_length (by omega), take_append_of_le_length (by omega)]

theorem length_splitChars_append (separator : Char) (cs rest : List Char) :
    (splitChars separator cs).length ≤ (splitChars separator (cs ++ rest)).length := by
  obtain ⟨init, last, more, hcs, hall, hmore⟩ := @splitChars_append_any separator cs rest
  have := length_pos_iff.mpr hmore
  rw [hcs, hall, length_append, length_append, length_singleton]
  omega

theorem mem_of_mem_groupsOf {group : String} (h : group ∈ groupsOf cs) :
    ∀ c ∈ group.toList, c ∈ cs ∧ c ≠ ':' := by
  unfold groupsOf at h
  split at h
  · exact absurd h not_mem_nil
  · obtain ⟨part, hpart, rfl⟩ := mem_map.mp h
    rw [String.toList_ofList]
    exact mem_of_mem_splitChars hpart

variable {segments : List Nat} {groups : List String}

theorem take_segments? (h : segments? groups = some segments)
    (hlower : ∀ group ∈ groups, ∀ c ∈ group.toList, c.toLower = c) {n : Nat}
    (hn : n < groups.length) :
    (groups.take n).map withoutLeadingZeros = (segments.take n).map hextetText := by
  induction groups generalizing segments n with
  | nil => exact absurd hn (Nat.not_lt_zero n)
  | cons part rest ih =>
    cases n with
    | zero => rw [take_zero, take_zero, map_nil, map_nil]
    | succ n =>
      cases rest with
      | nil => exact absurd hn (by simp)
      | cons next rest =>
        unfold segments? at h
        simp only [bind_eq_bind, bind_eq_some_iff] at h
        obtain ⟨segment, hsegment, others, hothers, h⟩ := h
        cases h
        rw [take_succ_cons, take_succ_cons, map_cons, map_cons,
          withoutLeadingZeros_hextet hsegment (hlower part mem_cons_self),
          ih hothers (fun group hgroup => hlower group (mem_cons_of_mem part hgroup))
            (Nat.lt_of_succ_lt_succ hn)]

theorem length_mapM_hextet? (h : groups.mapM hextet? = some segments) :
    groups.length = segments.length := by
  induction groups generalizing segments with
  | nil =>
    obtain rfl : [] = segments := by simpa using h
    rfl
  | cons group groups ih =>
    simp only [mapM_cons, bind_eq_bind, bind_eq_some_iff] at h
    obtain ⟨segment, -, rest, hrest, h⟩ := h
    cases h
    exact congrArg (· + 1) (ih hrest)

theorem map_mapM_hextet? (h : groups.mapM hextet? = some segments)
    (hlower : ∀ group ∈ groups, ∀ c ∈ group.toList, c.toLower = c) :
    groups.map withoutLeadingZeros = segments.map hextetText := by
  induction groups generalizing segments with
  | nil =>
    obtain rfl : [] = segments := by simpa using h
    rfl
  | cons group groups ih =>
    simp only [mapM_cons, bind_eq_bind, bind_eq_some_iff] at h
    obtain ⟨segment, hsegment, rest, hrest, h⟩ := h
    cases h
    rw [map_cons, withoutLeadingZeros_hextet hsegment (hlower group mem_cons_self),
      ih hrest fun found hfound => hlower found (mem_cons_of_mem group hfound)]
    rfl

theorem withoutLeadingZeros_eq_zero {group : String} :
    withoutLeadingZeros group = "0" ↔ isZeroGroup group = true := by
  unfold withoutLeadingZeros isZeroGroup
  rw [List.all_eq_true]
  split
  · rename_i hnil; exact ⟨fun _ => dropWhile_eq_nil_iff.mp hnil, fun _ => rfl⟩
  · rename_i cs hne
    constructor
    · intro heq
      have hcs : group.toList.dropWhile (· = '0') = ['0'] := String.ofList_inj.mp heq
      exact absurd rfl (dropZeros_head hcs)
    · intro hall; exact absurd (dropWhile_eq_nil_iff.mpr hall) hne

/-- A zone adds to the last group, or groups behind it. -/
theorem take_written {tail zone : List Char} (h : segments? (groupsOf tail) = some segments)
    (hzone : zone.head? ≠ some ':') :
    (groupsOf tail).length ≤ (groupsOf (splitDoubleColon (tail ++ zone)).1).length ∧
      ∀ n, n < (groupsOf tail).length →
        (groupsOf (splitDoubleColon (tail ++ zone)).1).take n = (groupsOf tail).take n := by
  by_cases htail : tail = []
  · obtain rfl := htail; exact ⟨Nat.zero_le _, fun n hn => absurd hn (Nat.not_lt_zero n)⟩
  · rw [splitDoubleColon_append_none (splitDoubleColon_of_segments h) hzone]
    have hgroups : groupsOf tail = (splitChars ':' tail).map String.ofList := if_neg htail
    have hmore : groupsOf (tail ++ (splitDoubleColon zone).1) =
        (splitChars ':' (tail ++ (splitDoubleColon zone).1)).map String.ofList :=
      if_neg (by simp [htail])
    rw [hgroups, hmore, length_map, length_map]
    refine ⟨length_splitChars_append ':' tail _, fun n hn => ?_⟩
    rw [← map_take, ← map_take, take_splitChars_append hn]

section Expansion

variable {text : String} {segments : List Nat}

theorem lowered_groups (hlower : ∀ c ∈ text.toList, c.toLower = c) {cs : List Char}
    (hsub : ∀ c ∈ cs, c ∈ text.toList) :
    ∀ group ∈ groupsOf cs, ∀ c ∈ group.toList, c.toLower = c :=
  fun _ hgroup c hc => hlower c (hsub c (mem_of_mem_groupsOf hgroup c hc).1)

/-- Without `::` the first four groups are the first four segments, whatever the zone adds. -/
theorem expandIpv6_written {address zone : List Char} (htext : text.toList = address ++ zone)
    (hzone : zone.head? ≠ some ':') (hsegments : segments? (groupsOf address) = some segments)
    (hlength : segments.length = 8) (hlower : ∀ c ∈ text.toList, c.toLower = c) :
    (expandIpv6 text).take 4 = (segments.take 4).map hextetText := by
  have hne : address ≠ [] := by
    rintro rfl
    obtain rfl : [] = segments := some.inj hsegments
    cases hlength
  have hgroups : groupsOf address = (splitChars ':' address).map String.ofList := if_neg hne
  have hcount := length_segments? hsegments
  rw [hgroups, length_map] at hcount
  have hsub : ∀ c ∈ address, c ∈ text.toList := fun c hc => by
    rw [htext]
    exact mem_append_left zone hc
  have hfour := take_segments? hsegments (lowered_groups hlower hsub)
    (show 4 < (groupsOf address).length by rw [hgroups, length_map]; omega)
  have hany : ∀ more, ((splitChars ':' (address ++ more)).map String.ofList).take 4 =
      (groupsOf address).take 4 := by
    intro more
    rw [← map_take, take_splitChars_append (by omega), hgroups, map_take]
  have hwhole := splitDoubleColon_append_none (splitDoubleColon_of_segments hsegments) hzone
  rw [← hfour]
  unfold expandIpv6
  rw [htext, hwhole]
  cases (splitDoubleColon zone).2 with
  | none => rw [← map_take, hany]
  | some behind =>
    have hmore := length_splitChars_append ':' address (splitDoubleColon zone).1
    have hleft : groupsOf (address ++ (splitDoubleColon zone).1) =
        (splitChars ':' (address ++ (splitDoubleColon zone).1)).map String.ofList :=
      if_neg (by simp [hne])
    dsimp only
    rw [← map_take, append_assoc, hleft, take_append_of_le_length (by rw [length_map]; omega), hany]

/-- With `::` they are where its groups are counted right. -/
theorem expandIpv6_compressed {head tail zone : List Char} {left right : List Nat}
    (hwhole : splitDoubleColon text.toList = (head, some (tail ++ zone)))
    (hzone : zone.head? ≠ some ':') (hleft : (groupsOf head).mapM hextet? = some left)
    (hright : segments? (groupsOf tail) = some right) (hroom : left.length + right.length ≤ 7)
    (hlower : ∀ c ∈ text.toList, c.toLower = c) :
    (expandIpv6 text).take 4 =
        ((left ++ replicate (8 - left.length - right.length) 0 ++ right).take 4).map
          hextetText ↔
      (groupsOf (splitDoubleColon (tail ++ zone)).1).length = right.length ∨
        ((groupsOf (splitDoubleColon (tail ++ zone)).1).take (4 - left.length -
          min (8 - left.length - (groupsOf (splitDoubleColon (tail ++ zone)).1).length)
            (8 - left.length - right.length))).all isZeroGroup = true := by
  have htext := splitDoubleColon_some hwhole
  have hclean := map_mapM_hextet? hleft (lowered_groups hlower fun c hc => by
    rw [htext]
    exact mem_append_left _ hc)
  have hleftLength := length_mapM_hextet? hleft
  have hcount := length_segments? hright
  obtain ⟨hmore, hsame⟩ := take_written hright hzone
  have hexpand : (expandIpv6 text).take 4 =
      (left.map hextetText).take 4 ++ (replicate (8 - left.length -
        (groupsOf (splitDoubleColon (tail ++ zone)).1).length) "0" ++
        (groupsOf (splitDoubleColon (tail ++ zone)).1).map withoutLeadingZeros).take
          (4 - left.length) := by
    unfold expandIpv6
    rw [hwhole]
    rw [map_append, map_append, hclean, hleftLength, append_assoc, take_append,
      length_map, map_replicate]
    rfl
  have hsegments : ((left ++ replicate (8 - left.length - right.length) 0 ++ right).take 4).map
      hextetText = (left.map hextetText).take 4 ++ (replicate (8 - left.length - right.length)
        "0" ++ right.map hextetText).take (4 - left.length) := by
    rw [map_take, map_append, map_append, append_assoc, take_append, length_map, map_replicate]
    rfl
  rw [hexpand, hsegments, append_cancel_left_eq]
  generalize groupsOf (splitDoubleColon (tail ++ zone)).1 = written at hmore hsame
  have hagree : (written.map withoutLeadingZeros).take
      (4 - left.length - (8 - left.length - right.length)) =
      (right.map hextetText).take (4 - left.length - (8 - left.length - right.length)) := by
    by_cases hnone : 4 - left.length - (8 - left.length - right.length) = 0
    · rw [hnone, take_zero, take_zero]
    · rw [← map_take, ← map_take, hsame _ (by omega)]
      refine take_segments? hright (lowered_groups hlower fun c hc => ?_) (by omega)
      rw [htext]
      simp [hc]
  by_cases heq : written.length = right.length
  · refine ⟨fun _ => .inl heq, fun _ => ?_⟩
    rw [heq, take_replicate_append, take_replicate_append, hagree]
  · rw [take_shift_iff (by omega) (by rw [length_map]; omega) hagree, or_iff_right heq,
      ← map_take, List.all_eq_true]
    constructor
    · intro hall group hgroup
      exact withoutLeadingZeros_eq_zero.mp (hall _ (List.mem_map_of_mem hgroup))
    · intro hall clean hmem
      obtain ⟨group, hgroup, rfl⟩ := mem_map.mp hmem
      exact withoutLeadingZeros_eq_zero.mpr (hall group hgroup)

/-- **The groups of an address are its segments** exactly where they are counted right. -/
theorem expandIpv6_iff (hparse : parseZoned text = some segments)
    (hlower : ∀ c ∈ text.toList, c.toLower = c) :
    (expandIpv6 text).take 4 = (segments.take 4).map hextetText ↔ countsRight text = true := by
  obtain ⟨address, zone, htext, -, hzone, htake, hdrop, hsix⟩ := parseZoned_some hparse
  unfold parseIpv6 at hsix
  rw [String.toList_ofList] at hsix
  unfold countsRight
  rw [htake, hdrop]
  cases hsplit : splitDoubleColon address with
  | mk head rest =>
    rw [hsplit] at hsix
    cases rest with
    | none =>
      obtain rfl := splitDoubleColon_none hsplit
      obtain ⟨hsegments, hlength⟩ := filter_eq_some_iff.mp hsix
      exact ⟨fun _ => rfl, fun _ =>
        expandIpv6_written htext hzone hsegments (of_decide_eq_true hlength) hlower⟩
    | some tail =>
      simp only [bind_eq_bind, bind_eq_some_iff] at hsix
      obtain ⟨left, hleft, right, hright, hsix⟩ := hsix
      split at hsix
      · rename_i hroom
        obtain rfl := some.inj hsix
        have hwhole : splitDoubleColon text.toList = (head, some (tail ++ zone)) := by
          rw [htext]
          exact splitDoubleColon_append_some hsplit
        dsimp only
        rw [hright, getD_some, length_mapM_hextet? hleft, Bool.or_eq_true, decide_eq_true_iff]
        exact expandIpv6_compressed hwhole hzone hleft hright hroom hlower
      · cases hsix

end Expansion

theorem expandIpv6_ne_nil (text : String) : expandIpv6 text ≠ [] := by
  unfold expandIpv6
  intro hnil
  rw [map_eq_nil_iff] at hnil
  split at hnil
  · exact splitChars_ne_nil _ _ (map_eq_nil_iff.mp hnil)
  · have := congrArg length hnil
    simp only [length_append, length_replicate, length_nil] at this
    omega

theorem expandIpv6_no_colon (text : String) : ∀ group ∈ expandIpv6 text, ':' ∉ group.toList := by
  have hclean : ∀ group : String, ':' ∉ group.toList → ':' ∉ (withoutLeadingZeros group).toList := by
    intro group hgroup
    unfold withoutLeadingZeros
    split
    · decide
    · rw [String.toList_ofList]; exact fun hmem => hgroup ((dropWhile_sublist _).subset hmem)
  intro group hgroup
  obtain ⟨written, hwritten, rfl⟩ := mem_map.mp hgroup
  refine hclean written fun hcolon => ?_
  split at hwritten
  · obtain ⟨part, hpart, rfl⟩ := mem_map.mp hwritten
    rw [String.toList_ofList] at hcolon
    exact (mem_of_mem_splitChars hpart _ hcolon).2 rfl
  · rcases mem_append.mp hwritten with hwritten | hwritten
    · rcases mem_append.mp hwritten with hwritten | hwritten
      · exact (mem_of_mem_groupsOf hwritten _ hcolon).2 rfl
      · rw [(mem_replicate.mp hwritten).2] at hcolon; exact absurd hcolon (by decide)
    · exact (mem_of_mem_groupsOf hwritten _ hcolon).2 rfl

end Groups

/-! ## 2. Keys and networks -/

/-- The key that the network of an address has. -/
def Network.key : Network → String
  | .ipv4 a b c d => ipv4Text a b c d
  | .subnet segments => ":".intercalate (segments.map hextetText) ++ "::/64"

section Keys

variable {address : String} {network other : Network}

theorem intercalate_colon_inj {groups others : List String} (hne : groups ≠ []) (hne' : others ≠ [])
    (hgroups : ∀ group ∈ groups, ':' ∉ group.toList)
    (hothers : ∀ group ∈ others, ':' ∉ group.toList) {ending : String}
    (h : ":".intercalate groups ++ ending = ":".intercalate others ++ ending) :
    groups = others := by
  have hparts : ∀ {texts : List String}, texts ≠ [] → (∀ text ∈ texts, ':' ∉ text.toList) →
      splitChars ':' (":".intercalate texts).toList = texts.map String.toList := by
    intro texts htexts hcolon
    rw [String.toList_intercalate]
    refine splitChars_intercalate (fun part hpart => ?_) (by simpa using htexts)
    obtain ⟨text, htext, rfl⟩ := mem_map.mp hpart
    exact hcolon text htext
  have hsame := congrArg String.toList h
  rw [String.toList_append, String.toList_append, append_cancel_right_eq] at hsame
  have hmap := hparts hne hgroups
  rw [hsame, hparts hne' hothers] at hmap
  exact (map_injective_iff.mpr (fun _ _ heq => String.toList_injective heq) hmap).symm

theorem colon_mem_key {groups : List String} :
    ':' ∈ (":".intercalate groups ++ "::/64").toList := by
  rw [String.toList_append]
  exact mem_append_right _ (by decide)

/-- Networks have keys of their own. -/
theorem Network.key_inj (hwell : network.WellFormed) (hother : other.WellFormed) :
    network.key = other.key ↔ network = other := by
  refine ⟨fun h => ?_, fun h => h ▸ rfl⟩
  cases network with
  | ipv4 a b c d =>
    cases other with
    | ipv4 a' b' c' d' =>
      have hself : parseIpv4 (ipv4Text a b c d) = some (a, b, c, d) := parseIpv4_iff.mpr ⟨rfl, hwell⟩
      have hthat : parseIpv4 (ipv4Text a b c d) = some (a', b', c', d') :=
        parseIpv4_iff.mpr ⟨h, hother⟩
      rw [hself] at hthat
      obtain ⟨rfl, rfl, rfl, rfl⟩ : a = a' ∧ b = b' ∧ c = c' ∧ d = d' := by simpa using hthat
      rfl
    | subnet segments =>
      have h : ipv4Text a b c d = ":".intercalate (segments.map hextetText) ++ "::/64" := h
      exact absurd rfl (ipv4_spelling_chars hwell ':' (h ▸ colon_mem_key)).1
  | subnet segments =>
    cases other with
    | ipv4 a b c d =>
      have h : ":".intercalate (segments.map hextetText) ++ "::/64" = ipv4Text a b c d := h
      exact absurd rfl (ipv4_spelling_chars hother ':' (h ▸ colon_mem_key)).1
    | subnet segments' =>
      have hne : ∀ {segments : List Nat}, segments.length = 4 → segments.map hextetText ≠ [] := by
        intro segments hlength hnil
        rw [map_eq_nil_iff.mp hnil] at hlength
        cases hlength
      have hcolon : ∀ (segments : List Nat), ∀ group ∈ segments.map hextetText,
          ':' ∉ group.toList := by
        intro segments group hgroup hmem
        obtain ⟨segment, -, rfl⟩ := mem_map.mp hgroup
        exact (hextetText_chars segment _ hmem).1 rfl
      have hmap := intercalate_colon_inj (hne hwell.1) (hne hother.1) (hcolon segments)
        (hcolon segments') h
      exact congrArg Network.subnet
        (map_injective_iff.mpr (fun _ _ heq => hextetText_inj.mp heq) hmap)

/-- What stands behind a literal `::ffff:` is the address, or the text is one. -/
theorem network?_withoutMapping {text : String} {a b c d : Nat}
    (h : parseIpv4 (withoutMapping text) = some (a, b, c, d)) :
    network? text = some (.ipv4 a b c d) := by
  obtain ⟨-, ha, hb, hc, hd⟩ := parseIpv4_iff.mp h
  unfold network?
  rcases withoutMapping_denotes h with hv4 | ⟨hnone, hsegments⟩
  · rw [hv4]
  · rw [hnone, hsegments, map_some]
    show some (Network.ipv4 _ _ _ _) = _
    congr 2 <;> omega

/-- **An address has the key of its network** exactly where its text is read right. -/
theorem throttleKey_iff (h : network? (normalizedAddress address) = some network) :
    throttleKeyForAddress nodeTests (some address) = network.key ↔
      keyedRight (normalizedAddress address) = true := by
  have hpresent : (some address).filter (· ≠ "") = some address := by
    refine filter_eq_some_iff.mpr ⟨rfl, decide_eq_true fun hempty => ?_⟩
    have hnone : network? (normalizedAddress "") = none := by decide
    rw [hempty, hnone] at h
    cases h
  have hlower : ∀ c ∈ (normalizedAddress address).toList, c.toLower = c := by
    intro c hc
    unfold normalizedAddress jsToLower at hc
    rw [String.toList_ofList] at hc
    obtain ⟨d, -, rfl⟩ := List.mem_map.mp hc
    exact toLower_toLower d
  unfold throttleKeyForAddress keyedRight
  simp only [hpresent, h]
  generalize normalizedAddress address = text at h hlower
  by_cases hv4 : nodeTests.isIPv4 (withoutMapping text) = true
  · rw [if_pos hv4]
    obtain ⟨⟨a, b, c, d⟩, hparse⟩ := isSome_iff_exists.mp hv4
    rw [network?_withoutMapping hparse] at h
    obtain rfl := some.inj h
    exact ⟨fun _ => hv4, fun _ => (parseIpv4_iff.mp hparse).1⟩
  · have hnone : parseIpv4 text = none := by
      refine eq_none_iff_forall_ne_some.mpr fun v4 hparse => hv4 ?_
      rw [withoutMapping_ipv4 hparse, nodeTests_isIPv4, hparse]
      rfl
    unfold network? at h
    rw [hnone] at h
    obtain ⟨segments, hsegments, rfl⟩ := map_eq_some_iff.mp h
    have hv6 : nodeTests.isIPv6 text = true := by rw [nodeTests_isIPv6, hsegments]; rfl
    rw [if_neg hv4, if_neg (by rw [hv6]; decide)]
    cases hnetwork : networkOf segments with
    | ipv4 a b c d =>
      -- a key of groups is no IPv4 address
      refine ⟨fun heq => ?_, fun hread => absurd hread hv4⟩
      obtain ⟨_, _, -, -, -, -, -, hsix⟩ := parseZoned_some hsegments
      have hwell := networkOf_wellFormed (parseIpv6_shape hsix).1 (parseIpv6_shape hsix).2
      rw [hnetwork] at hwell
      have heq : _ = ipv4Text a b c d := heq
      exact absurd rfl (ipv4_spelling_chars hwell ':' (heq ▸ colon_mem_key)).1
    | subnet four =>
      have hfour : four = segments.take 4 := by
        unfold networkOf at hnetwork
        split at hnetwork
        · cases hnetwork
        · exact (Network.subnet.inj hnetwork).symm
      rw [← expandIpv6_iff hsegments hlower, hfour]
      obtain ⟨_, _, -, -, -, -, -, hparse⟩ := parseZoned_some hsegments
      have hlength := (parseIpv6_shape hparse).1
      constructor
      · intro heq
        refine intercalate_colon_inj ?_ ?_ ?_ ?_ heq
        · intro hnil
          rcases take_eq_nil_iff.mp hnil with hzero | hnil
          · cases hzero
          · exact expandIpv6_ne_nil text hnil
        · intro hnil
          rw [map_eq_nil_iff, take_eq_nil_iff] at hnil
          rcases hnil with hzero | hnil
          · cases hzero
          · rw [hnil] at hlength; cases hlength
        · exact fun group hgroup => expandIpv6_no_colon text group (mem_of_mem_take hgroup)
        · intro group hgroup hmem
          obtain ⟨segment, -, rfl⟩ := mem_map.mp hgroup
          exact (hextetText_chars segment _ hmem).1 rfl
      · intro heq; rw [heq]; rfl

/-- The plain spelling is read right. -/
theorem keyedRight_spelling (h : network.WellFormed) : keyedRight network.spelling = true := by
  unfold keyedRight
  rw [network?_spelling h]
  cases network with
  | ipv4 a b c d =>
    have hparse : parseIpv4 (ipv4Text a b c d) = some (a, b, c, d) := parseIpv4_iff.mpr ⟨rfl, h⟩
    dsimp only [Network.spelling]
    rw [withoutMapping_ipv4 hparse, nodeTests_isIPv4, hparse, isSome_some]
  | subnet segments =>
    have hchars := subnet_spelling_percent segments
    unfold countsRight
    rw [takeWhile_eq_self_iff.mpr hchars, dropWhile_eq_nil_iff.mpr hchars,
      splitDoubleColon_spelling h.1]
    have hnone : (groupsOf (splitDoubleColon ([] ++ [])).1).length =
        ((segments? (groupsOf [])).getD []).length := by decide
    rw [Bool.or_eq_true, decide_eq_true_iff]
    exact .inl hnone

/-- **The key is a function of the network** for the spellings that are read right, and for no
    other one: each of those misses the key of its network's plain spelling. -/
theorem keyed_by_network {address : String} {network : Network}
    (h : network? (normalizedAddress address) = some network) :
    keyedRight (normalizedAddress address) = true ↔
      ∀ other, keyedRight (normalizedAddress other) = true →
        (throttleKeyForAddress nodeTests (some address) =
            throttleKeyForAddress nodeTests (some other) ↔
          network? (normalizedAddress address) = network? (normalizedAddress other)) := by
  have hwell := network?_wellFormed h
  constructor
  · intro hread other hother
    obtain ⟨network', h'⟩ : ∃ network', network? (normalizedAddress other) = some network' := by
      unfold keyedRight at hother
      cases hdenotes : network? (normalizedAddress other) with
      | none => rw [hdenotes] at hother; cases hother
      | some network' => exact ⟨network', rfl⟩
    rw [(throttleKey_iff h).mpr hread, (throttleKey_iff h').mpr hother, h, h', Option.some.injEq]
    exact Network.key_inj hwell (network?_wellFormed h')
  · intro hall
    have hplain := normalizedAddress_spelling hwell
    have hread : keyedRight (normalizedAddress network.spelling) = true := by
      rw [hplain]
      exact keyedRight_spelling hwell
    have hdenotes : network? (normalizedAddress network.spelling) = some network := by
      rw [hplain]
      exact network?_spelling hwell
    have hkey := (hall network.spelling hread).mpr (h.trans hdenotes.symm)
    rw [(throttleKey_iff hdenotes).mpr hread] at hkey
    exact (throttleKey_iff h).mp hkey

/-- The mapped spelling of an address, with capitals and a space. -/
theorem keyed_by_network_dotted :
    throttleKeyForAddress nodeTests (some " ::FFFF:1.2.3.4") =
        throttleKeyForAddress nodeTests (some "1.2.3.4") ↔
      network? (normalizedAddress " ::FFFF:1.2.3.4") = network? (normalizedAddress "1.2.3.4") :=
  (@keyed_by_network " ::FFFF:1.2.3.4" (.ipv4 1 2 3 4) (by decide)).mp (by decide)
    "1.2.3.4" (by decide)

/-- The hexadecimal spelling of an IPv4 address has a fresh key, which it shares with that of every
    other one; a dotted tail moves the groups of the network. -/
theorem respelled_key :
    (network? "::ffff:102:304" = network? "1.2.3.4" ∧
      throttleKeyForAddress nodeTests (some "::ffff:102:304") ≠
        throttleKeyForAddress nodeTests (some "1.2.3.4")) ∧
    (network? "0::ffff:1.2.3.4" = network? "1.2.3.4" ∧
      throttleKeyForAddress nodeTests (some "0::ffff:1.2.3.4") ≠
        throttleKeyForAddress nodeTests (some "1.2.3.4")) ∧
    (network? "::ffff:102:304" ≠ network? "::ffff:506:708" ∧
      throttleKeyForAddress nodeTests (some "::ffff:102:304") =
        throttleKeyForAddress nodeTests (some "::ffff:506:708")) ∧
    (network? "1:2::3:4:5:1.2.3.4" = network? "1:2:0:3::" ∧
      throttleKeyForAddress nodeTests (some "1:2::3:4:5:1.2.3.4") ≠
        throttleKeyForAddress nodeTests (some "1:2:0:3::")) := by
  and_intros <;> decide

end Keys

end Frogg.Server
