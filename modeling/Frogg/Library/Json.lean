/-
  Subject:   JSON texts as `JSON.parse` reads them.

  A number keeps its text. What text the code points of a string make is up to the caller, since
  a `String` holds no lone surrogate; where he does not say, it is the replacement character.
-/
import Mathlib.Data.List.Basic

namespace Frogg.Library

open Option List

inductive Json where
  | null
  | bool (b : Bool)
  | number (text : String)
  | string (s : String)
  | array (elements : List Json)
  | object (fields : List (String × Json))
  deriving Repr, Inhabited

namespace Json

/-- A property of an object; of two of one name the later counts. -/
def field? : Json → String → Option Json
  | .object fields, name => fields.reverse.lookup name
  | _, _ => none

def isObject : Json → Bool
  | .object _ => true
  | _ => false

/-! ## 1. Strings -/

def isSpace (c : Char) : Bool := c = ' ' || c = '\t' || c = '\n' || c = '\r'

def skipSpace (cs : List Char) : List Char := cs.dropWhile isSpace

def hexDigit? (c : Char) : Option Nat :=
  if '0' ≤ c ∧ c ≤ '9' then some (c.toNat - 48)
  else if 'a' ≤ c ∧ c ≤ 'f' then some (c.toNat - 87)
  else if 'A' ≤ c ∧ c ≤ 'F' then some (c.toNat - 55)
  else none

def hex4? (a b c d : Char) : Option Nat := do
  let a ← hexDigit? a
  let b ← hexDigit? b
  let c ← hexDigit? c
  let d ← hexDigit? d
  return ((a * 16 + b) * 16 + c) * 16 + d

def escaped? : Char → Option Nat
  | '"' => some 34
  | '\\' => some 92
  | '/' => some 47
  | 'b' => some 8
  | 'f' => some 12
  | 'n' => some 10
  | 'r' => some 13
  | 't' => some 9
  | _ => none

/-- The code points up to the closing quote, an escaped surrogate on its own, and what follows. -/
def stringBody : List Char → Option (List Nat × List Char)
  | [] => none
  | '"' :: rest => some ([], rest)
  | '\\' :: 'u' :: a :: b :: c :: d :: rest => do
    let point ← hex4? a b c d
    let (points, after) ← stringBody rest
    return (point :: points, after)
  | '\\' :: e :: rest => do
    let point ← escaped? e
    let (points, after) ← stringBody rest
    return (point :: points, after)
  | c :: rest =>
    if c.toNat < 32 ∨ c = '\\' then none
    else do
      let (points, after) ← stringBody rest
      return (c.toNat :: points, after)

/-- A high surrogate and the low one after it are one character. -/
def joinSurrogates : List Nat → List Char
  | high :: low :: rest =>
    if 0xD800 ≤ high ∧ high < 0xDC00 ∧ 0xDC00 ≤ low ∧ low < 0xE000 then
      Char.ofNat (0x10000 + (high - 0xD800) * 0x400 + (low - 0xDC00)) :: joinSurrogates rest
    else if 0xD800 ≤ high ∧ high < 0xE000 then '\uFFFD' :: joinSurrogates (low :: rest)
    else Char.ofNat high :: joinSurrogates (low :: rest)
  | [point] => if 0xD800 ≤ point ∧ point < 0xE000 then ['\uFFFD'] else [Char.ofNat point]
  | [] => []

def parseString (cs : List Char) (join : List Nat → List Char := joinSurrogates) :
    Option (String × List Char) := do
  let (points, rest) ← stringBody cs
  return (String.ofList (join points), rest)

/-! ## 2. Numbers -/

def digits (cs : List Char) : List Char × List Char := cs.span Char.isDigit

def parseSign : List Char → List Char × List Char
  | '-' :: rest => (['-'], rest)
  | cs => ([], cs)

def parseFraction : List Char → Option (List Char × List Char)
  | '.' :: rest =>
    let (ds, after) := digits rest
    if ds = [] then none else some ('.' :: ds, after)
  | cs => some ([], cs)

def parseExponent : List Char → Option (List Char × List Char)
  | c :: rest =>
    if c = 'e' ∨ c = 'E' then
      let (sign, after) := match rest with
        | '+' :: r => (['+'], r)
        | '-' :: r => (['-'], r)
        | r => ([], r)
      let (ds, after) := digits after
      if ds = [] then none else some (c :: sign ++ ds, after)
    else some ([], c :: rest)
  | [] => some ([], [])

def parseNumber (cs : List Char) : Option (Json × List Char) := do
  let (sign, rest) := parseSign cs
  let (ds, rest) := digits rest
  if ds = [] ∨ (ds.head? = some '0' ∧ 1 < ds.length) then none
  else
    let (fraction, rest) ← parseFraction rest
    let (exponent, rest) ← parseExponent rest
    return (.number (String.ofList (sign ++ ds ++ fraction ++ exponent)), rest)

/-! ## 3. Values -/

mutual

/-- A value and what follows it; the number bounds the nesting. -/
def parseValue (fuel : Nat) (cs : List Char) (join : List Nat → List Char := joinSurrogates) :
    Option (Json × List Char) :=
  match fuel with
  | 0 => none
  | fuel + 1 =>
    match skipSpace cs with
    | '\x7b' :: rest =>
      match skipSpace rest with
      | '\x7d' :: after => some (.object [], after)
      | _ => do
        let (fields, after) ← parseMembers fuel rest join
        return (.object fields, after)
    | '[' :: rest =>
      match skipSpace rest with
      | ']' :: after => some (.array [], after)
      | _ => do
        let (elements, after) ← parseElements fuel rest join
        return (.array elements, after)
    | '"' :: rest => do
      let (s, after) ← parseString rest join
      return (.string s, after)
    | 't' :: 'r' :: 'u' :: 'e' :: after => some (.bool true, after)
    | 'f' :: 'a' :: 'l' :: 's' :: 'e' :: after => some (.bool false, after)
    | 'n' :: 'u' :: 'l' :: 'l' :: after => some (.null, after)
    | other => parseNumber other

def parseMembers (fuel : Nat) (cs : List Char) (join : List Nat → List Char := joinSurrogates) :
    Option (List (String × Json) × List Char) :=
  match fuel with
  | 0 => none
  | fuel + 1 =>
    match skipSpace cs with
    | '"' :: rest => do
      let (name, rest) ← parseString rest join
      match skipSpace rest with
      | ':' :: rest => do
        let (value, rest) ← parseValue fuel rest join
        match skipSpace rest with
        | ',' :: rest => do
          let (fields, after) ← parseMembers fuel rest join
          return ((name, value) :: fields, after)
        | '\x7d' :: after => return ([(name, value)], after)
        | _ => none
      | _ => none
    | _ => none

def parseElements (fuel : Nat) (cs : List Char) (join : List Nat → List Char := joinSurrogates) :
    Option (List Json × List Char) :=
  match fuel with
  | 0 => none
  | fuel + 1 => do
    let (value, rest) ← parseValue fuel cs join
    match skipSpace rest with
    | ',' :: rest => do
      let (elements, after) ← parseElements fuel rest join
      return (value :: elements, after)
    | ']' :: after => return ([value], after)
    | _ => none

end

/-- `JSON.parse(text)`; `none` where it throws. -/
def parse (text : String) (join : List Nat → List Char := joinSurrogates) : Option Json :=
  match parseValue (2 * text.toList.length + 2) text.toList join with
  | some (value, rest) => if skipSpace rest = [] then some value else none
  | none => none

/-! ## 4. Texts that need no escape -/

/-- A character that stands for itself in a JSON string. -/
def Plain (c : Char) : Prop := 32 ≤ c.toNat ∧ c ≠ '"' ∧ c ≠ '\\'

instance : DecidablePred Plain := fun _ => inferInstanceAs (Decidable (_ ∧ _ ∧ _))

variable {s : String}

theorem plain_of_all (h : (s.toList.all fun c => decide (Plain c)) = true) :
    ∀ c ∈ s.toList, Plain c := by
  simpa using h

variable {cs rest after : List Char}

theorem stringBody_plain (h : ∀ c ∈ cs, Plain c) (rest : List Char) :
    stringBody (cs ++ '"' :: rest) = some (cs.map Char.toNat, rest) := by
  induction cs with
  | nil => rfl
  | cons c cs ih =>
    obtain ⟨hlow, hquote, hslash⟩ := h c mem_cons_self
    have hrest := ih fun d hd => h d (mem_cons_of_mem _ hd)
    rw [cons_append, stringBody]
    · rw [if_neg (by simp [hslash]; omega), hrest]; rfl
    · exact hquote
    · rintro a b c d r rfl; exact absurd rfl hslash
    · rintro e r rfl; exact absurd rfl hslash

theorem toNat_not_surrogate (c : Char) : ¬(0xD800 ≤ c.toNat ∧ c.toNat < 0xE000) := by
  rcases c.valid with h | ⟨h, -⟩
  · exact fun h' => absurd h (Nat.not_lt.mpr h'.1)
  · exact fun h' => absurd h'.2 (Nat.not_lt.mpr h)

theorem joinSurrogates_toNat (cs : List Char) : joinSurrogates (cs.map Char.toNat) = cs := by
  induction cs with
  | nil => rfl
  | cons c cs ih =>
    have hc := toNat_not_surrogate c
    cases cs with
    | nil => simp [joinSurrogates, hc]
    | cons d cs =>
      rw [map_cons, map_cons, joinSurrogates, if_neg (by omega), if_neg hc,
        Char.ofNat_toNat]
      exact congrArg (c :: ·) ih

theorem parseString_plain (h : ∀ c ∈ s.toList, Plain c) (rest : List Char) :
    parseString (s.toList ++ '"' :: rest) = some (s, rest) := by
  simp [parseString, stringBody_plain h, joinSurrogates_toNat]

theorem parseString_all (h : (s.toList.all fun c => decide (Plain c)) = true)
    (rest : List Char) : parseString (s.toList ++ '"' :: rest) = some (s, rest) :=
  parseString_plain (plain_of_all h) rest

/-! ## 5. Texts without spaces, piece by piece -/

theorem parse_of_parseValue {text : String} {value : Json} (hlength : 3 ≤ text.toList.length)
    (h : ∀ fuel, parseValue (fuel + 8) text.toList = some (value, [])) :
    parse text = some value := by
  unfold parse
  rw [show 2 * text.toList.length + 2 = (2 * text.toList.length - 6) + 8 by omega, h]
  rfl

theorem skipSpace_cons {c : Char} (h : isSpace c = false) (cs : List Char) :
    skipSpace (c :: cs) = c :: cs := by
  rw [skipSpace, dropWhile_cons_of_neg (by simp [h])]

theorem parseValue_string (h : ∀ c ∈ s.toList, Plain c) (fuel : Nat) (rest : List Char) :
    parseValue (fuel + 1) ('"' :: (s.toList ++ '"' :: rest)) = some (.string s, rest) := by
  rw [parseValue, skipSpace_cons (by decide)]
  simp only [parseString_plain h]
  rfl

theorem parseValue_true (fuel : Nat) (rest : List Char) :
    parseValue (fuel + 1) ('t' :: 'r' :: 'u' :: 'e' :: rest) = some (.bool true, rest) := by
  rfl

variable {fuel : Nat}

theorem parseValue_members {fields : List (String × Json)}
    (h : parseMembers fuel ('"' :: rest) = some (fields, after)) :
    parseValue (fuel + 1) ('\x7b' :: '"' :: rest) = some (.object fields, after) := by
  rw [parseValue, skipSpace_cons (by decide)]
  simp only [@skipSpace_cons '"' (by decide), h]
  rfl

section

variable {name : String} {value : Json} (hname : parseString cs = some (name, ':' :: rest))
include hname

theorem parseMembers_last (h : parseValue fuel rest = some (value, '\x7d' :: after)) :
    parseMembers (fuel + 1) ('"' :: cs) = some ([(name, value)], after) := by
  rw [parseMembers, skipSpace_cons (by decide)]
  simp only [hname, bind_eq_bind, bind_some, @skipSpace_cons ':' (by decide), h,
    @skipSpace_cons '\x7d' (by decide)]
  rfl

theorem parseMembers_more {next : List Char} {fields : List (String × Json)}
    (h : parseValue fuel rest = some (value, ',' :: next))
    (hnext : parseMembers fuel next = some (fields, after)) :
    parseMembers (fuel + 1) ('"' :: cs) = some ((name, value) :: fields, after) := by
  rw [parseMembers, skipSpace_cons (by decide)]
  simp only [hname, bind_eq_bind, bind_some, @skipSpace_cons ':' (by decide), h,
    @skipSpace_cons ',' (by decide), hnext]
  rfl

end

/-! ## 6. Objects -/

variable {v : Json}

theorem parseNumber_isObject (h : parseNumber cs = some (v, rest)) : v.isObject = false := by
  unfold parseNumber at h
  dsimp only at h
  split at h
  · exact absurd h (by simp)
  · simp only [bind_eq_bind, bind_eq_some_iff] at h
    obtain ⟨_, -, _, -, h⟩ := h
    cases h
    rfl

/-- What parses as an object begins with a brace. -/
theorem parseValue_object (h : parseValue fuel cs = some (v, rest)) (hv : v.isObject = true) :
    ∃ after, skipSpace cs = '\x7b' :: after := by
  cases fuel with
  | zero => exact absurd h (by simp [parseValue])
  | succ fuel =>
    rw [parseValue] at h
    split at h
    · exact ⟨_, ‹_›⟩
    · split at h
      · cases h; exact absurd hv (by simp [isObject])
      · simp only [bind_eq_bind, bind_eq_some_iff] at h
        obtain ⟨_, -, h⟩ := h
        cases h
        exact absurd hv (by simp [isObject])
    · simp only [bind_eq_bind, bind_eq_some_iff] at h
      obtain ⟨_, -, h⟩ := h
      cases h
      exact absurd hv (by simp [isObject])
    · cases h; exact absurd hv (by simp [isObject])
    · cases h; exact absurd hv (by simp [isObject])
    · cases h; exact absurd hv (by simp [isObject])
    · exact absurd hv (by simp [parseNumber_isObject h])

theorem parse_object {text : String} (h : parse text = some v) (hv : v.isObject = true) :
    ∃ after, skipSpace text.toList = '\x7b' :: after := by
  unfold parse at h
  split at h
  · rename_i value rest heq
    split at h
    · cases h; exact parseValue_object heq hv
    · exact absurd h (by simp)
  · exact absurd h (by simp)

/-! ## 7. Values that are texts and integers -/

def string? : Json → Option String
  | .string s => some s
  | _ => none

def numberText? : Json → Option String
  | .number text => some text
  | _ => none

/-- What the digits say; `none` where there are none or other characters stand among them. -/
def natural? (cs : List Char) : Option Nat :=
  if cs ≠ [] ∧ (cs.all Char.isDigit) = true then some (Nat.ofDigitChars 10 cs 0) else none

/-- The integer that a number's text writes out, without a fraction and an exponent. -/
def integer? (text : String) : Option Int :=
  match text.toList with
  | '-' :: cs => (natural? cs).map fun n : Nat => -Int.ofNat n
  | cs => (natural? cs).map Int.ofNat

/-- The text of an integer. -/
def integerText : Int → String
  | .ofNat n => String.ofList (Nat.toDigits 10 n)
  | .negSucc n => String.ofList ('-' :: Nat.toDigits 10 (n + 1))

theorem natural_toDigits (n : Nat) : natural? (Nat.toDigits 10 n) = some n := by
  have hdigits : ((Nat.toDigits 10 n).all Char.isDigit) = true :=
    all_eq_true.mpr fun c hc => Nat.isDigit_of_mem_toDigits (by decide) (by decide) hc
  rw [natural?, if_pos ⟨Nat.toDigits_ne_nil, hdigits⟩, Nat.ofDigitChars_ten_toDigits]

theorem head_toDigits_ne_minus (n : Nat) (cs : List Char) : Nat.toDigits 10 n ≠ '-' :: cs := by
  intro h
  have hminus : '-'.isDigit = true :=
    @Nat.isDigit_of_mem_toDigits 10 n '-' (by decide) (by decide) (h ▸ mem_cons_self)
  exact absurd hminus (by decide)

theorem integer_integerText (n : Int) : integer? (integerText n) = some n := by
  cases n with
  | ofNat n =>
    unfold integer? integerText
    rw [String.toList_ofList]
    split
    · rename_i cs hcs; exact absurd hcs (head_toDigits_ne_minus n cs)
    · rw [natural_toDigits]; rfl
  | negSucc n =>
    unfold integer? integerText
    rw [String.toList_ofList]
    show (natural? (Nat.toDigits 10 (n + 1))).map _ = _
    rw [natural_toDigits]
    rfl

end Json

end Frogg.Library
