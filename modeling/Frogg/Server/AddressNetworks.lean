/-
  Subject:   The network that the text of an address denotes, with `net.isIPv4` and `net.isIPv6` as
             the daemon's own process answers them (zones included).

  Every network has one plain spelling, `Network.spelling`; an IPv4 address has no other text.
-/
import Frogg.DaemonRs.Netclass
import Frogg.Library.Numerals

namespace Frogg.Server

open List Option List

open Library
open DaemonRs (octet? hextet? segments? parseIpv4 parseIpv6 parseIpv4_some decimal_of_octet
  decimal_some digit_of_toNat splitDoubleColon_none splitDoubleColon_some)

/-! ## 1. Splitting -/

section Splitting

variable {separator : Char}

theorem splitChars_eq_splitOn (cs : List Char) :
    splitChars separator cs = cs.splitOn separator := by
  induction cs with
  | nil => rfl
  | cons c ds ih =>
    unfold splitChars splitOn
    rw [ih, splitOnP_cons_eq_if_modifyHead]
    by_cases hc : c = separator
    · rw [if_pos hc, if_pos (beq_iff_eq.mpr hc)]; rfl
    · rw [if_neg hc, if_neg (mt beq_iff_eq.mp hc)]
      show _ = (ds.splitOn separator).modifyHead (List.cons c)
      cases hsplit : ds.splitOn separator with
      | nil => exact absurd hsplit (splitOnP_ne_nil _ _)
      | cons part rest => rfl

/-- What stands behind a text joins its last part at most. -/
theorem splitChars_append_any (cs rest : List Char) :
    ∃ init last more, splitChars separator cs = init ++ [last] ∧
      splitChars separator (cs ++ rest) = init ++ more ∧ more ≠ [] := by
  induction cs with
  | nil => exact ⟨[], [], splitChars separator rest, rfl, rfl, splitChars_ne_nil _ _⟩
  | cons c cs ih =>
    obtain ⟨init, last, more, hcs, hall, hmore⟩ := ih
    rw [cons_append]
    unfold splitChars
    rw [hcs, hall]
    split
    · exact ⟨[] :: init, last, more, rfl, rfl, hmore⟩
    · cases init with
      | nil =>
        cases more with
        | nil => exact absurd rfl hmore
        | cons part more => exact ⟨[], c :: last, (c :: part) :: more, rfl, rfl, cons_ne_nil _ _⟩
      | cons part init => exact ⟨(c :: part) :: init, last, more, rfl, rfl, hmore⟩

theorem mem_of_mem_splitChars {cs part : List Char} (h : part ∈ splitChars separator cs) :
    ∀ c ∈ part, c ∈ cs ∧ c ≠ separator := by
  induction cs generalizing part with
  | nil => obtain rfl := mem_singleton.mp h; exact fun c hc => absurd hc not_mem_nil
  | cons d ds ih =>
    unfold splitChars at h
    split at h
    · rcases mem_cons.mp h with rfl | h
      · exact fun c hc => absurd hc not_mem_nil
      · exact fun c hc => ⟨mem_cons_of_mem d (ih h c hc).1, (ih h c hc).2⟩
    · rename_i hd
      split at h
      · rename_i hnil; exact absurd hnil (splitChars_ne_nil _ _)
      · rename_i first others hsplit
        rw [hsplit] at ih
        rcases mem_cons.mp h with rfl | h
        · intro c hc
          rcases mem_cons.mp hc with rfl | hc
          · exact ⟨mem_cons_self, hd⟩
          · have hold := ih mem_cons_self c hc
            exact ⟨mem_cons_of_mem d hold.1, hold.2⟩
        · intro c hc
          have hold := ih (mem_cons_of_mem first h) c hc
          exact ⟨mem_cons_of_mem d hold.1, hold.2⟩

variable {parts : List (List Char)}

/-- Texts without the separator, joined with it, are its parts again. -/
theorem splitChars_intercalate (hparts : ∀ part ∈ parts, separator ∉ part)
    (hne : parts ≠ []) : splitChars separator ([separator].intercalate parts) = parts := by
  rw [splitChars_eq_splitOn]
  exact splitOn_intercalate separator hparts hne

theorem intercalate_splitChars (cs : List Char) :
    [separator].intercalate (splitChars separator cs) = cs := by
  rw [splitChars_eq_splitOn]
  exact intercalate_splitOn separator

theorem mem_intercalate {α : Type} {between : List α} {parts : List (List α)} {x : α}
    (h : x ∈ between.intercalate parts) : x ∈ between ∨ ∃ part ∈ parts, x ∈ part := by
  induction parts with
  | nil => exact absurd h not_mem_nil
  | cons part parts ih =>
    cases parts with
    | nil => rw [intercalate_singleton] at h; exact .inr ⟨part, mem_cons_self, h⟩
    | cons next parts =>
      rcases mem_append.mp h with h | h
      · exact .inr ⟨part, mem_cons_self, h⟩
      · rcases mem_append.mp h with h | h
        · exact .inl h
        · rcases ih h with h | ⟨found, hfound, hx⟩
          · exact .inl h
          · exact .inr ⟨found, mem_cons_of_mem part hfound, hx⟩

/-- A text without a colon in front stays in front of what the rest is split into. -/
theorem splitDoubleColon_append {cs : List Char} (hcs : ':' ∉ cs) (rest : List Char) :
    splitDoubleColon (cs ++ rest) = (cs ++ (splitDoubleColon rest).1, (splitDoubleColon rest).2) := by
  induction cs with
  | nil => rfl
  | cons c cs ih =>
    obtain ⟨hc, hcs⟩ := not_or.mp (mt mem_cons.mpr hcs)
    rw [cons_append, splitDoubleColon.eq_def]
    split
    · rename_i heq; exact absurd (cons.inj heq).1 fun h => hc h.symm
    · rename_i heq; cases heq
    · rename_i heq
      obtain ⟨rfl, rfl⟩ := cons.inj heq
      rw [ih hcs]
      rfl

theorem splitDoubleColon_intercalate (hne : parts ≠ [])
    (hparts : ∀ part ∈ parts, part ≠ [] ∧ ':' ∉ part) (rest : List Char) :
    splitDoubleColon ([':'].intercalate parts ++ ':' :: ':' :: rest) =
      ([':'].intercalate parts, some rest) := by
  induction parts with
  | nil => exact absurd rfl hne
  | cons part parts ih =>
    obtain ⟨-, hcolon⟩ := hparts part mem_cons_self
    cases parts with
    | nil =>
      rw [intercalate_singleton, splitDoubleColon_append hcolon]
      show (part ++ [], some rest) = _
      rw [append_nil]
    | cons next parts =>
      have hrest := ih (cons_ne_nil _ _)
        fun part hpart => hparts part (mem_cons_of_mem _ hpart)
      obtain ⟨hnext, hnocolon⟩ := hparts next (mem_cons_of_mem _ mem_cons_self)
      obtain ⟨c, cs, hjoined⟩ : ∃ c cs, [':'].intercalate (next :: parts) = c :: cs ∧ c ≠ ':' := by
        cases next with
        | nil => exact absurd rfl hnext
        | cons c next =>
          have hc : c ≠ ':' := fun heq => hnocolon (heq ▸ mem_cons_self)
          cases parts with
          | nil => exact ⟨c, next, intercalate_singleton, hc⟩
          | cons other parts => exact ⟨c, _, intercalate_cons_cons, hc⟩
      obtain ⟨hjoined, hc⟩ := hjoined
      rw [intercalate_cons_cons, append_assoc, append_assoc, splitDoubleColon_append hcolon]
      have hstep : splitDoubleColon (':' :: ([':'].intercalate (next :: parts) ++ ':' :: ':' :: rest))
          = (':' :: [':'].intercalate (next :: parts), some rest) := by
        rw [hjoined] at hrest ⊢
        rw [cons_append, splitDoubleColon.eq_def]
        split
        · rename_i heq; exact absurd (cons.inj (cons.inj heq).2).1 hc
        · rename_i heq; cases heq
        · rename_i heq; obtain ⟨rfl, rfl⟩ := cons.inj heq; rw [← cons_append, hrest]
      rw [singleton_append, hstep, append_assoc]
      rfl

end Splitting

/-! ## 2. Numerals -/

def hextetText (segment : Nat) : String := String.ofList (Nat.toDigits 16 segment)

def octetText (octet : Nat) : String := String.ofList (Nat.toDigits 10 octet)

def ipv4Text (a b c d : Nat) : String :=
  ".".intercalate [octetText a, octetText b, octetText c, octetText d]

def hexDigitValue (c : Char) : Nat := (hexValue c).getD 0

theorem hexValue_digitChar : ∀ d, d < 16 → hexValue d.digitChar = some d := by decide

theorem hexDigitValue_digitChar (d : Nat) (hd : d < 16) : hexDigitValue d.digitChar = d := by
  rw [hexDigitValue, hexValue_digitChar d hd]
  rfl

theorem hexDigitValue_lt (c : Char) : hexDigitValue c < 16 := by
  unfold hexDigitValue
  unfold hexValue
  split
  · have := digit_of_toNat ‹_›
    show c.toNat - 48 < 16
    omega
  · split
    · rename_i hletter
      have hupper : c.toNat ≤ 102 := UInt32.le_iff_toNat_le.mp (Char.le_def.mp hletter.2)
      show c.toNat - 87 < 16
      omega
    · split
      · rename_i hletter
        have hupper : c.toNat ≤ 70 := UInt32.le_iff_toNat_le.mp (Char.le_def.mp hletter.2)
        show c.toNat - 55 < 16
        omega
      · decide

/-- A hexadecimal digit that is no capital is written as its value is. -/
theorem digitChar_hexDigitValue {c : Char} (hsome : (hexValue c).isSome = true)
    (hlower : c.toLower = c) : hexDigitValue c < 16 ∧ (hexDigitValue c).digitChar = c := by
  have hlow : ¬(65 ≤ c.toNat ∧ c.toNat ≤ 90) := by
    intro hupper
    have := toNat_toLower c
    rw [hlower, if_pos hupper] at this
    omega
  have hrange : (48 ≤ c.toNat ∧ c.toNat ≤ 57) ∨ (97 ≤ c.toNat ∧ c.toNat ≤ 102) := by
    unfold hexValue at hsome
    split at hsome
    · exact .inl (digit_of_toNat ‹_›)
    · split at hsome
      · rename_i hletter
        exact .inr ⟨UInt32.le_iff_toNat_le.mp (Char.le_def.mp hletter.1),
          UInt32.le_iff_toNat_le.mp (Char.le_def.mp hletter.2)⟩
      · split at hsome
        · rename_i hletter
          have h1 := UInt32.le_iff_toNat_le.mp (Char.le_def.mp hletter.1)
          have h2 := UInt32.le_iff_toNat_le.mp (Char.le_def.mp hletter.2)
          have h2 : c.toNat ≤ 70 := h2
          exact absurd ⟨h1, by omega⟩ hlow
        · cases hsome
  have hall : ∀ n, n < 103 → (48 ≤ n ∧ n ≤ 57) ∨ (97 ≤ n ∧ n ≤ 102) →
      hexDigitValue (Char.ofNat n) < 16 ∧
        (hexDigitValue (Char.ofNat n)).digitChar = Char.ofNat n := by decide
  have := hall c.toNat (by omega) hrange
  rwa [Char.ofNat_toNat] at this

theorem dropZeros_head {cs rest : List Char} {c : Char}
    (h : cs.dropWhile (· = '0') = c :: rest) : c ≠ '0' := by
  have hnot := head?_dropWhile_not (fun c : Char => decide (c = '0')) cs
  rw [h, head?_cons] at hnot
  exact of_decide_eq_false hnot

variable {segment a b c d : Nat}

/-- A group without its leading zeros is what its value is written as. -/
theorem withoutLeadingZeros_hextet {group : String} (h : hextet? group = some segment)
    (hlower : ∀ c ∈ group.toList, c.toLower = c) :
    withoutLeadingZeros group = hextetText segment := by
  unfold hextet? at h
  split at h
  · rename_i hshape
    have hvalue : numeralValue 16 hexDigitValue group.toList = segment := some.inj h
    have hdigits : Digits 16 hexDigitValue group.toList := fun c hc =>
      digitChar_hexDigitValue (all_eq_true.mp hshape.2.2 c hc) (hlower c hc)
    rw [← numeralValue_dropZeros (by decide)] at hvalue
    unfold withoutLeadingZeros hextetText
    split
    · rename_i hnil
      rw [hnil] at hvalue
      subst hvalue
      decide
    · rename_i cs hne
      cases hcs : group.toList.dropWhile (· = '0') with
      | nil => exact absurd hcs hne
      | cons c rest =>
        rw [hcs] at hvalue
        have hkept : Digits 16 hexDigitValue (c :: rest) := fun d hd =>
          hdigits d ((dropWhile_sublist _).subset (hcs ▸ hd))
        rw [← hvalue, toDigits_numeralValue (by decide) hkept
          fun hc => absurd hc (dropZeros_head hcs)]
  · cases h

theorem hextet?_hextetText (h : segment < 0x10000) :
    hextet? (hextetText segment) = some segment := by
  have hdigits := digits_toDigits (by decide) hexDigitValue_digitChar segment
  have hlength : (Nat.toDigits 16 segment).length ≤ 4 :=
    (Nat.length_toDigits_le_iff (by decide) (by decide)).mpr h
  have hall : (hextetText segment).toList.all (fun c => (hexValue c).isSome) = true := by
    rw [hextetText, String.toList_ofList, List.all_eq_true]
    intro c hc
    obtain ⟨hvalue, hchar⟩ := hdigits c hc
    rw [← hchar, hexValue_digitChar _ hvalue]
    rfl
  have hne : hextetText segment ≠ "" := by
    intro hempty
    have := congrArg String.toList hempty
    rw [hextetText, String.toList_ofList] at this
    exact Nat.toDigits_ne_nil this
  have hlen : (hextetText segment).length ≤ 4 := by
    rw [hextetText, String.length_ofList]
    exact hlength
  unfold hextet?
  rw [if_pos ⟨hne, hlen, hall⟩, hextetText, String.toList_ofList]
  exact congrArg some (numeralValue_toDigits (by decide) hexDigitValue_digitChar segment)

theorem hextetText_inj {other : Nat} : hextetText segment = hextetText other ↔ segment = other := by
  refine ⟨fun h => ?_, fun h => h ▸ rfl⟩
  have hdigits : Nat.toDigits 16 segment = Nat.toDigits 16 other := String.ofList_inj.mp h
  rw [← numeralValue_toDigits (by decide) hexDigitValue_digitChar segment, hdigits,
    numeralValue_toDigits (by decide) hexDigitValue_digitChar]

/-- **An octet is written one way.** -/
theorem octetText_of_octet {part : String} {octet : Nat} (h : octet? part = some octet) :
    part = octetText octet ∧ octet ≤ 255 := by
  obtain ⟨hne, hall, hvalue⟩ := decimal_some (decimal_of_octet h)
  unfold octet? at h
  split at h
  · rename_i hshape
    have hbound : octet ≤ 255 := of_decide_eq_true (filter_eq_some_iff.mp h).2
    refine ⟨?_, hbound⟩
    have hdigits : Digits 10 (fun c => c.toNat - 48) part.toList := by
      intro c hc
      have hrange := digit_of_toNat (all_eq_true.mp hall c hc)
      show c.toNat - 48 < 10 ∧ (c.toNat - 48).digitChar = c
      refine ⟨by omega, Char.toNat_inj.mp ?_⟩
      rw [Nat.toNat_digitChar_of_lt_ten (by omega)]
      omega
    have hvalue : numeralValue 10 (fun c => c.toNat - 48) part.toList = octet := hvalue
    cases hcs : part.toList with
    | nil => exact absurd (by rw [← @String.ofList_toList part, hcs]) hne
    | cons c cs =>
      have hzero : c = '0' → cs = [] := by
        rintro rfl
        have hpart := hshape.2 (by rw [hcs]; rfl)
        rw [hpart] at hcs
        exact (cons.inj hcs).2.symm
      rw [hcs] at hdigits hvalue
      rw [← @String.ofList_toList part, hcs, ← toDigits_numeralValue (by decide) hdigits hzero,
        hvalue]
      rfl
  · cases h

theorem octetText_chars (octet : Nat) : (octetText octet).toList.all Char.isDigit = true := by
  rw [octetText, String.toList_ofList]
  exact all_eq_true.mpr fun _ hc => Nat.isDigit_of_mem_toDigits (by decide) (by decide) hc

theorem octet?_octetText (octet : Nat) (h : octet < 256) : octet? (octetText octet) = some octet := by
  have hread : ∀ octet < 256, (Nat.toDigits 10 octet).length ≤ 3 ∧
      ((Nat.toDigits 10 octet).head? = some '0' → Nat.toDigits 10 octet = ['0']) ∧
      (Nat.toDigits 10 octet).foldl (fun n c => n * 10 + (c.toNat - 48)) 0 = octet := by
    decide +kernel
  obtain ⟨hlength, hzero, hvalue⟩ := hread octet h
  have hne : octetText octet ≠ "" := String.toList_eq_nil_iff.not.mp (by
    rw [octetText, String.toList_ofList]; exact Nat.toDigits_ne_nil)
  have hdecimal : decimal (octetText octet) = some octet := by
    rw [decimal, if_pos ⟨hne, octetText_chars octet⟩, octetText, String.toList_ofList, hvalue]
  rw [octet?, hdecimal, if_pos]
  · exact Option.filter_some_pos (decide_eq_true (by omega))
  · rw [octetText, ← String.length_toList, String.toList_ofList]
    exact ⟨hlength, fun hhead => congrArg String.ofList (hzero hhead)⟩

variable {text : String}

/-- **An IPv4 address is written one way.** -/
theorem parseIpv4_iff : parseIpv4 text = some (a, b, c, d) ↔
      text = ipv4Text a b c d ∧ a ≤ 255 ∧ b ≤ 255 ∧ c ≤ 255 ∧ d ≤ 255 := by
  constructor
  · intro h
    obtain ⟨p, q, r, s, hsplit, hp, hq, hr, hs⟩ := parseIpv4_some h
    obtain ⟨rfl, ha⟩ := octetText_of_octet hp
    obtain ⟨rfl, hb⟩ := octetText_of_octet hq
    obtain ⟨rfl, hc⟩ := octetText_of_octet hr
    obtain ⟨rfl, hd⟩ := octetText_of_octet hs
    refine ⟨String.toList_injective ?_, ha, hb, hc, hd⟩
    have hparts := congrArg (List.map String.toList) hsplit
    rw [splitOnChar, List.map_map] at hparts
    have hid : String.toList ∘ String.ofList = id := funext fun cs => String.toList_ofList
    rw [hid, List.map_id] at hparts
    rw [ipv4Text, String.toList_intercalate, ← hparts]
    exact (intercalate_splitChars text.toList).symm
  · rintro ⟨rfl, ha, hb, hc, hd⟩
    have hno : ∀ part ∈ [octetText a, octetText b, octetText c, octetText d].map String.toList,
        '.' ∉ part := by
      intro part hpart hdot
      obtain ⟨text, htext, rfl⟩ := mem_map.mp hpart
      have hdigits : text.toList.all Char.isDigit = true := by
        rcases mem_cons.mp htext with rfl | htext
        · exact octetText_chars a
        rcases mem_cons.mp htext with rfl | htext
        · exact octetText_chars b
        rcases mem_cons.mp htext with rfl | htext
        · exact octetText_chars c
        obtain rfl := mem_singleton.mp htext
        exact octetText_chars d
      exact absurd (all_eq_true.mp hdigits '.' hdot) (by decide)
    have hsplit : splitOnChar '.' (ipv4Text a b c d) =
        [octetText a, octetText b, octetText c, octetText d] := by
      unfold splitOnChar ipv4Text
      rw [String.toList_intercalate]
      show (splitChars '.' (['.'].intercalate _)).map String.ofList = _
      rw [splitChars_intercalate hno (cons_ne_nil _ _)]
      simp
    unfold parseIpv4
    rw [hsplit, map_cons, map_cons, map_cons, map_cons, map_nil, octet?_octetText a (by omega),
      octet?_octetText b (by omega), octet?_octetText c (by omega), octet?_octetText d (by omega)]

/-! ## 3. What an address denotes -/

def isZoneChar (c : Char) : Bool := c.isAlphanum || c = '-' || c = '.' || c = ':'

/-- The segments of an IPv6 address, which may name a zone. -/
def parseZoned (text : String) : Option (List Nat) :=
  match text.toList.dropWhile (· ≠ '%') with
  | [] => parseIpv6 text
  | _ :: zone =>
    if zone ≠ [] ∧ zone.all isZoneChar = true then
      parseIpv6 (String.ofList (text.toList.takeWhile (· ≠ '%')))
    else none

/-- `net.isIPv4` and `net.isIPv6` -/
def nodeTests : AddressTests where
  isIPv4 text := (parseIpv4 text).isSome
  isIPv6 text := (parseZoned text).isSome

theorem ipv4Text_chars {v4 : Nat × Nat × Nat × Nat} (h : parseIpv4 text = some v4) :
    ∀ c ∈ text.toList, c = '.' ∨ c.isDigit = true := by
  obtain ⟨p, q, r, s, hsplit, hp, hq, hr, hs⟩ := parseIpv4_some h
  have hdigits : ∀ part ∈ splitOnChar '.' text, part.toList.all Char.isDigit = true := by
    rw [hsplit]
    intro part hpart
    rcases mem_cons.mp hpart with rfl | hpart
    · exact (decimal_some (decimal_of_octet hp)).2.1
    rcases mem_cons.mp hpart with rfl | hpart
    · exact (decimal_some (decimal_of_octet hq)).2.1
    rcases mem_cons.mp hpart with rfl | hpart
    · exact (decimal_some (decimal_of_octet hr)).2.1
    obtain rfl := mem_singleton.mp hpart
    exact (decimal_some (decimal_of_octet hs)).2.1
  intro c hc
  rw [← @intercalate_splitChars '.' text.toList] at hc
  rcases mem_intercalate hc with hdot | ⟨part, hpart, hmem⟩
  · exact .inl (mem_singleton.mp hdot)
  · refine .inr (all_eq_true.mp (hdigits (String.ofList part) (mem_map_of_mem hpart)) c ?_)
    rwa [String.toList_ofList]

theorem parseIpv4_of_colon (h : ':' ∈ text.toList) : parseIpv4 text = none := by
  refine eq_none_iff_forall_ne_some.mpr fun v4 hv4 => ?_
  rcases ipv4Text_chars hv4 ':' h with hdot | hdigit
  · exact absurd hdot (by decide)
  · exact absurd hdigit (by decide)

theorem nodeTests_isIPv4 (text : String) : nodeTests.isIPv4 text = (parseIpv4 text).isSome := rfl

theorem nodeTests_isIPv6 (text : String) : nodeTests.isIPv6 text = (parseZoned text).isSome := rfl

/-- One IPv4 address, or the IPv6 addresses that share their first four segments. -/
inductive Network where
  | ipv4 (a b c d : Nat)
  | subnet (segments : List Nat)
  deriving DecidableEq

/-- The network of an IPv6 address; one that maps an IPv4 address is that address. -/
def networkOf : List Nat → Network
  | [0, 0, 0, 0, 0, 0xffff, high, low] =>
    .ipv4 (high / 256) (high % 256) (low / 256) (low % 256)
  | segments => .subnet (segments.take 4)

/-- What a text denotes; `none` where it is no address. -/
def network? (text : String) : Option Network :=
  match parseIpv4 text with
  | some (a, b, c, d) => some (.ipv4 a b c d)
  | none => (parseZoned text).map networkOf

theorem hextet?_lt {group : String} (h : hextet? group = some segment) : segment < 0x10000 := by
  unfold hextet? at h
  split at h
  · rename_i hshape
    obtain ⟨-, hlength, -⟩ := hshape
    have hvalue : numeralValue 16 hexDigitValue group.toList = segment := some.inj h
    have hdigit : ∀ c ∈ group.toList, hexDigitValue c < 16 := fun c _ => hexDigitValue_lt c
    rw [← hvalue]
    exact Nat.lt_of_lt_of_le (numeralValue_lt hdigit)
      (Nat.pow_le_pow_right (by decide) hlength)
  · cases h

variable {segments : List Nat} {groups : List String}

theorem mapM_hextet?_lt (h : groups.mapM hextet? = some segments) :
    ∀ segment ∈ segments, segment < 0x10000 := by
  induction groups generalizing segments with
  | nil =>
    obtain rfl : [] = segments := by simpa using h
    exact fun _ h => absurd h not_mem_nil
  | cons group groups ih =>
    simp only [mapM_cons, bind_eq_bind, bind_eq_some_iff] at h
    obtain ⟨segment, hsegment, rest, hrest, h⟩ := h
    cases h
    intro found hfound
    rcases mem_cons.mp hfound with rfl | hfound
    · exact hextet?_lt hsegment
    · exact ih hrest found hfound

theorem segments?_lt (h : segments? groups = some segments) :
    ∀ segment ∈ segments, segment < 0x10000 := by
  induction groups generalizing segments with
  | nil => obtain rfl : [] = segments := some.inj h; exact fun _ h => absurd h not_mem_nil
  | cons part rest ih =>
    cases rest with
    | nil =>
      unfold segments? at h
      split at h
      · rename_i segment hpart
        obtain rfl := some.inj h
        intro found hfound
        obtain rfl := mem_singleton.mp hfound
        exact hextet?_lt hpart
      · obtain ⟨⟨a, b, c, d⟩, hv4, rfl⟩ := map_eq_some_iff.mp h
        obtain ⟨-, ha, hb, hc, hd⟩ := parseIpv4_iff.mp hv4
        intro found hfound
        rcases mem_cons.mp hfound with rfl | hfound
        · show a * 256 + b < 0x10000; omega
        · obtain rfl := mem_singleton.mp hfound; show c * 256 + d < 0x10000; omega
    | cons next rest =>
      unfold segments? at h
      simp only [bind_eq_bind, bind_eq_some_iff] at h
      obtain ⟨segment, hsegment, others, hothers, h⟩ := h
      cases h
      intro found hfound
      rcases mem_cons.mp hfound with rfl | hfound
      · exact hextet?_lt hsegment
      · exact ih hothers found hfound

/-- Eight segments of sixteen bits. -/
theorem parseIpv6_shape (h : parseIpv6 text = some segments) :
    segments.length = 8 ∧ ∀ segment ∈ segments, segment < 0x10000 := by
  unfold parseIpv6 at h
  split at h
  · obtain ⟨hsegments, hlength⟩ := filter_eq_some_iff.mp h
    exact ⟨of_decide_eq_true hlength, segments?_lt hsegments⟩
  · simp only [bind_eq_bind, bind_eq_some_iff] at h
    obtain ⟨left, hleft, right, hright, h⟩ := h
    split at h
    · obtain rfl := some.inj h
      constructor
      · simp only [length_append, length_replicate]; omega
      · intro segment hsegment
        rcases mem_append.mp hsegment with hsegment | hsegment
        · rcases mem_append.mp hsegment with hsegment | hsegment
          · exact mapM_hextet?_lt hleft segment hsegment
          · rw [(mem_replicate.mp hsegment).2]; decide
        · exact segments?_lt hright segment hsegment
    · cases h

/-! ## 4. The texts of IPv6 addresses -/

/-- A dotted tail is one group of two segments. -/
theorem length_segments? (h : segments? groups = some segments) :
    groups.length ≤ segments.length ∧ segments.length ≤ groups.length + 1 := by
  induction groups generalizing segments with
  | nil => obtain rfl : [] = segments := some.inj h; exact ⟨Nat.le_refl _, Nat.zero_le _⟩
  | cons part rest ih =>
    cases rest with
    | nil =>
      unfold segments? at h
      split at h
      · obtain rfl := some.inj h; exact ⟨Nat.le_refl _, Nat.le_succ _⟩
      · obtain ⟨v4, -, rfl⟩ := map_eq_some_iff.mp h; exact ⟨Nat.le_succ _, Nat.le_refl _⟩
    | cons next rest =>
      unfold segments? at h
      simp only [bind_eq_bind, bind_eq_some_iff] at h
      obtain ⟨segment, -, others, hothers, h⟩ := h
      cases h
      have := ih hothers
      simp only [length_cons] at this ⊢
      omega

theorem empty_mem_splitChars (separator : Char) (cs rest : List Char) :
    [] ∈ (splitChars separator (cs ++ separator :: separator :: rest)).tail := by
  induction cs with
  | nil => rw [nil_append, splitChars, if_pos rfl, splitChars, if_pos rfl]; exact mem_cons_self
  | cons c cs ih =>
    rw [cons_append, splitChars]
    split
    · exact mem_of_mem_tail ih
    · cases hsplit : splitChars separator (cs ++ separator :: separator :: rest) with
      | nil => exact absurd hsplit (splitChars_ne_nil _ _)
      | cons part parts => rw [hsplit] at ih; exact ih

theorem empty_not_mem_segments? (h : segments? groups = some segments) : "" ∉ groups := by
  induction groups generalizing segments with
  | nil => exact not_mem_nil
  | cons part rest ih =>
    intro hmem
    cases rest with
    | nil =>
      obtain rfl := mem_singleton.mp hmem
      have hnone : segments? [""] = none := by decide
      cases h
    | cons next rest =>
      unfold segments? at h
      simp only [bind_eq_bind, bind_eq_some_iff] at h
      obtain ⟨segment, hsegment, others, hothers, -⟩ := h
      rcases mem_cons.mp hmem with rfl | hmem
      · have hnone : hextet? "" = none := by decide
        cases hsegment
      · exact ih hothers hmem

theorem splitDoubleColon_of_segments {cs : List Char} (h : segments? (groupsOf cs) = some segments) :
    splitDoubleColon cs = (cs, none) := by
  cases hsplit : splitDoubleColon cs with
  | mk head rest =>
    cases rest with
    | none => rw [splitDoubleColon_none hsplit]
    | some tail =>
      have hcs := splitDoubleColon_some hsplit
      have hmem := mem_of_mem_tail (empty_mem_splitChars ':' head tail)
      rw [← hcs] at hmem
      have hgroups : groupsOf cs = (splitChars ':' cs).map String.ofList :=
        if_neg (by rw [hcs]; simp)
      exact absurd (hgroups ▸ mem_map_of_mem hmem) (empty_not_mem_segments? h)

/-- What stands behind a literal `::ffff:` is the address, or the text is one. -/
theorem withoutMapping_denotes (h : parseIpv4 (withoutMapping text) = some (a, b, c, d)) :
    parseIpv4 text = some (a, b, c, d) ∨
      parseIpv4 text = none ∧
        parseZoned text = some [0, 0, 0, 0, 0, 0xffff, a * 256 + b, c * 256 + d] := by
  unfold withoutMapping at h
  split at h
  · rename_i hmapped
    obtain ⟨rest, hrest⟩ := isPrefixOf_iff_prefix.mp hmapped
    have htext : text.toList = ':' :: ':' :: ("ffff".toList ++ ':' :: rest) := hrest.symm
    have hdrop : text.toList.drop 7 = rest := by rw [htext]; rfl
    rw [hdrop] at h
    obtain ⟨heq, ha, hb, hc, hd⟩ := parseIpv4_iff.mp h
    have hchars := ipv4Text_chars h
    rw [String.toList_ofList] at hchars
    have hcolon : ':' ∉ rest := fun hmem => by
      rcases hchars ':' hmem with hdot | hdigit
      · exact absurd hdot (by decide)
      · exact absurd hdigit (by decide)
    have hpercent : '%' ∉ rest := fun hmem => by
      rcases hchars '%' hmem with hdot | hdigit
      · exact absurd hdot (by decide)
      · exact absurd hdigit (by decide)
    have hdot : '.' ∈ rest := by
      have hlist := congrArg String.toList heq
      rw [String.toList_ofList, ipv4Text, String.toList_intercalate] at hlist
      rw [hlist, map_cons, map_cons, intercalate_cons_cons]
      simp
    have hnothex : hextet? (String.ofList rest) = none := by
      unfold hextet?
      rw [if_neg]
      rintro ⟨-, -, hall⟩
      rw [String.toList_ofList] at hall
      exact absurd (all_eq_true.mp hall '.' hdot) (by decide)
    have hgroups : groupsOf ("ffff".toList ++ ':' :: rest) = ["ffff", String.ofList rest] := by
      unfold groupsOf
      rw [if_neg (by simp), splitChars_append (by decide), splitChars_single hcolon, map_cons,
        map_cons, map_nil, String.ofList_toList]
    have hsegments : segments? ["ffff", String.ofList rest] =
        some [0xffff, a * 256 + b, c * 256 + d] := by
      have hfirst : hextet? "ffff" = some 0xffff := by decide
      unfold segments?
      unfold segments?
      rw [hnothex]
      rw [h]
      rfl
    have hzone : text.toList.dropWhile (· ≠ '%') = [] := by
      refine dropWhile_eq_nil_iff.mpr fun e he => decide_eq_true fun heq => ?_
      rw [heq, htext] at he
      simp [hpercent] at he
    have hsix : parseIpv6 text = some [0, 0, 0, 0, 0, 0xffff, a * 256 + b, c * 256 + d] := by
      unfold parseIpv6
      rw [htext]
      show (do
        let left ← (groupsOf []).mapM hextet?
        let right ← segments? (groupsOf ("ffff".toList ++ ':' :: rest))
        if left.length + right.length ≤ 7 then
          some (left ++ replicate (8 - left.length - right.length) 0 ++ right)
        else none) = _
      rw [hgroups, hsegments]
      rfl
    have hcolonText : ':' ∈ text.toList := by rw [htext]; exact mem_cons_self
    refine .inr ⟨parseIpv4_of_colon hcolonText, ?_⟩
    unfold parseZoned
    rw [hzone]
    exact hsix
  · exact .inl h

/-- A text without a colon has no literal `::ffff:`. -/
theorem withoutMapping_ipv4 {v4 : Nat × Nat × Nat × Nat} (h : parseIpv4 text = some v4) :
    withoutMapping text = text := by
  unfold withoutMapping
  rw [if_neg]
  intro hmapped
  obtain ⟨rest, hrest⟩ := isPrefixOf_iff_prefix.mp hmapped
  rw [parseIpv4_of_colon (by rw [← hrest]; exact mem_cons_self)] at h
  cases h

/-! ## 5. The plain spelling -/

def Network.spelling : Network → String
  | .ipv4 a b c d => ipv4Text a b c d
  | .subnet segments => ":".intercalate (segments.map hextetText) ++ "::"

def Network.WellFormed : Network → Prop
  | .ipv4 a b c d => a ≤ 255 ∧ b ≤ 255 ∧ c ≤ 255 ∧ d ≤ 255
  | .subnet segments => segments.length = 4 ∧ ∀ segment ∈ segments, segment < 0x10000

theorem networkOf_wellFormed (hlength : segments.length = 8)
    (hbound : ∀ segment ∈ segments, segment < 0x10000) : (networkOf segments).WellFormed := by
  unfold networkOf
  split
  · rename_i high low
    have hhigh : high < 0x10000 := hbound high (by simp)
    have hlow : low < 0x10000 := hbound low (by simp)
    refine ⟨?_, ?_, ?_, ?_⟩ <;> omega
  · refine ⟨?_, fun segment hsegment => hbound segment (mem_of_mem_take hsegment)⟩
    rw [length_take, hlength]
    rfl

theorem parseZoned_some (h : parseZoned text = some segments) :
    ∃ address zone, text.toList = address ++ zone ∧ '%' ∉ address ∧ zone.head? ≠ some ':' ∧
      text.toList.takeWhile (· ≠ '%') = address ∧ text.toList.dropWhile (· ≠ '%') = zone ∧
      parseIpv6 (String.ofList address) = some segments := by
  refine ⟨text.toList.takeWhile (· ≠ '%'), text.toList.dropWhile (· ≠ '%'),
    takeWhile_append_dropWhile.symm, ?_, ?_, rfl, rfl, ?_⟩
  · intro hmem
    have := mem_takeWhile_imp hmem
    simp at this
  · intro hhead
    have hnot := head?_dropWhile_not (fun c : Char => decide (c ≠ '%')) text.toList
    rw [hhead] at hnot
    simp at hnot
  · unfold parseZoned at h
    split at h
    · rename_i hnil
      have hall := dropWhile_eq_nil_iff.mp hnil
      rwa [takeWhile_eq_self_iff.mpr hall, String.ofList_toList]
    · split at h
      · exact h
      · cases h

variable {network : Network}

theorem network?_wellFormed (h : network? text = some network) : network.WellFormed := by
  unfold network? at h
  split at h
  · rename_i hv4; obtain rfl := some.inj h; exact (parseIpv4_iff.mp hv4).2
  · obtain ⟨segments, hsegments, rfl⟩ := map_eq_some_iff.mp h
    obtain ⟨address, zone, -, -, -, -, -, hparse⟩ := parseZoned_some hsegments
    obtain ⟨hlength, hbound⟩ := parseIpv6_shape hparse
    exact networkOf_wellFormed hlength hbound

/-- Digits of an address, which nothing trims or lowers. -/
theorem hextetText_chars (segment : Nat) : ∀ c ∈ (hextetText segment).toList,
    c ≠ ':' ∧ c ≠ '%' ∧ c.toLower = c ∧ isJsWhitespace c = false := by
  have hall : ∀ d, d < 16 → d.digitChar ≠ ':' ∧ d.digitChar ≠ '%' ∧
      d.digitChar.toLower = d.digitChar ∧ isJsWhitespace d.digitChar = false := by decide
  intro c hc
  rw [hextetText, String.toList_ofList] at hc
  obtain ⟨hvalue, hchar⟩ := digits_toDigits (by decide) hexDigitValue_digitChar segment c hc
  rw [← hchar]
  exact hall _ hvalue

theorem hextetText_ne_nil (segment : Nat) : (hextetText segment).toList ≠ [] := by
  rw [hextetText, String.toList_ofList]
  exact Nat.toDigits_ne_nil

theorem mapM_hextetText (h : ∀ segment ∈ segments, segment < 0x10000) :
    (segments.map hextetText).mapM hextet? = some segments := by
  induction segments with
  | nil => rfl
  | cons segment segments ih =>
    rw [map_cons, mapM_cons, hextet?_hextetText (h segment mem_cons_self),
      ih fun found hfound => h found (mem_cons_of_mem segment hfound)]
    rfl

theorem subnet_spelling_chars (segments : List Nat) :
    ∀ c ∈ (Network.subnet segments).spelling.toList,
      c ≠ '%' ∧ c.toLower = c ∧ isJsWhitespace c = false := by
  have hcolon : ':' ≠ '%' ∧ ':'.toLower = ':' ∧ isJsWhitespace ':' = false := by decide
  intro c hc
  unfold Network.spelling at hc
  rw [String.toList_append, String.toList_intercalate] at hc
  rcases mem_append.mp hc with hc | hc
  · rcases mem_intercalate hc with hc | ⟨part, hpart, hmem⟩
    · obtain rfl : c = ':' := mem_singleton.mp hc; exact hcolon
    · obtain ⟨text, htext, rfl⟩ := mem_map.mp hpart
      obtain ⟨segment, -, rfl⟩ := mem_map.mp htext
      exact (hextetText_chars segment c hmem).2
  · obtain rfl : c = ':' := by simpa using hc
    exact hcolon

theorem ipv4_spelling_chars (h : (Network.ipv4 a b c d).WellFormed) :
    ∀ e ∈ (ipv4Text a b c d).toList,
      e ≠ ':' ∧ e.toLower = e ∧ isJsWhitespace e = false := by
  have hdot : '.' ≠ ':' ∧ '.'.toLower = '.' ∧ isJsWhitespace '.' = false := by decide
  have hdigit : ∀ n, n < 58 → 48 ≤ n → Char.ofNat n ≠ ':' ∧
      (Char.ofNat n).toLower = Char.ofNat n ∧ isJsWhitespace (Char.ofNat n) = false := by decide
  intro e he
  rcases ipv4Text_chars (parseIpv4_iff.mpr ⟨rfl, h⟩) e he with rfl | hdec
  · exact hdot
  · obtain ⟨hlow, hup⟩ := digit_of_toNat hdec
    have := hdigit e.toNat (by omega) hlow
    rwa [Char.ofNat_toNat] at this

theorem subnet_spelling_toList (segments : List Nat) :
    (Network.subnet segments).spelling.toList =
      [':'].intercalate (segments.map fun segment => (hextetText segment).toList) ++ [':', ':'] := by
  unfold Network.spelling
  rw [String.toList_append, String.toList_intercalate, List.map_map]
  rfl

theorem subnet_parts_ne_nil (hlength : segments.length = 4) :
    (segments.map fun segment => (hextetText segment).toList) ≠ [] := by
  intro hnil
  rw [map_eq_nil_iff.mp hnil] at hlength
  cases hlength

theorem subnet_parts (segments : List Nat) :
    ∀ part ∈ segments.map fun segment => (hextetText segment).toList, part ≠ [] ∧ ':' ∉ part := by
  intro part hpart
  obtain ⟨segment, -, rfl⟩ := mem_map.mp hpart
  exact ⟨hextetText_ne_nil segment, fun hmem => (hextetText_chars segment _ hmem).1 rfl⟩

theorem splitDoubleColon_spelling (hlength : segments.length = 4) :
    splitDoubleColon (Network.subnet segments).spelling.toList =
      ([':'].intercalate (segments.map fun segment => (hextetText segment).toList), some []) := by
  rw [subnet_spelling_toList]
  exact splitDoubleColon_intercalate (subnet_parts_ne_nil hlength) (subnet_parts segments) []

theorem subnet_spelling_percent (segments : List Nat) :
    ∀ c ∈ (Network.subnet segments).spelling.toList, decide (c ≠ '%') = true := fun c hc =>
  decide_eq_true (subnet_spelling_chars segments c hc).1

/-- **The plain spelling of a network denotes it.** -/
theorem network?_spelling (h : network.WellFormed) : network? network.spelling = some network := by
  cases network with
  | ipv4 a b c d =>
    have hparse : parseIpv4 (ipv4Text a b c d) = some (a, b, c, d) := parseIpv4_iff.mpr ⟨rfl, h⟩
    unfold network?
    rw [show (Network.ipv4 a b c d).spelling = ipv4Text a b c d from rfl, hparse]
  | subnet segments =>
    obtain ⟨hlength, hbound⟩ := h
    have hne := subnet_parts_ne_nil hlength
    have hparts := subnet_parts segments
    have hsplit := splitDoubleColon_spelling hlength
    have hgroups : groupsOf ([':'].intercalate
        (segments.map fun segment => (hextetText segment).toList)) = segments.map hextetText := by
      unfold groupsOf
      rw [splitChars_intercalate (fun part hpart => (hparts part hpart).2) hne, if_neg ?_,
        List.map_map]
      · exact map_congr_left fun segment _ => String.ofList_toList
      · intro hnil
        have hall := @splitChars_intercalate ':' _ (fun part hpart => (hparts part hpart).2) hne
        rw [hnil] at hall
        have := hparts [] (by rw [← hall]; exact mem_singleton.mpr rfl)
        exact this.1 rfl
    have hv4 : parseIpv4 (Network.subnet segments).spelling = none :=
      parseIpv4_of_colon (by rw [subnet_spelling_toList]; simp)
    have hzone : (Network.subnet segments).spelling.toList.dropWhile (· ≠ '%') = [] :=
      dropWhile_eq_nil_iff.mpr (subnet_spelling_percent segments)
    have hparse : parseIpv6 (Network.subnet segments).spelling =
        some (segments ++ [0, 0, 0, 0]) := by
      unfold parseIpv6
      rw [hsplit]
      dsimp only
      rw [hgroups, mapM_hextetText hbound]
      show (if segments.length + 0 ≤ 7 then _ else none) = _
      rw [hlength, if_pos (by decide), append_nil]
      rfl
    have hnetwork : networkOf (segments ++ [0, 0, 0, 0]) = .subnet segments := by
      unfold networkOf
      split
      · rename_i high low heq
        have hsixth := congrArg (·[5]?) heq
        simp [hlength] at hsixth
      · rw [← hlength, take_left]
    unfold network? parseZoned
    rw [hv4, hzone]
    rw [hparse, map_some, hnetwork]

/-- Neither white space nor capitals stand in it. -/
theorem normalizedAddress_spelling (h : network.WellFormed) :
    normalizedAddress network.spelling = network.spelling := by
  have hchars : ∀ c ∈ network.spelling.toList, c.toLower = c ∧ isJsWhitespace c = false := by
    cases network with
    | ipv4 a b c d => exact fun e he => (ipv4_spelling_chars h e he).2
    | subnet segments => exact fun c hc => (subnet_spelling_chars segments c hc).2
  unfold normalizedAddress
  rw [jsTrim_of_no_space fun c hc => (hchars c hc).2, jsToLower,
    map_congr_left fun c hc => (hchars c hc).1, List.map_id', String.ofList_toList]

end Frogg.Server
