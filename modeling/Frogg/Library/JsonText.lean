/-
  Subject:   JSON texts as `JSON.stringify` writes them, and that `JSON.parse` reads them back.
-/
import Frogg.Library.Json
import Mathlib.Data.List.TakeDrop

namespace Frogg.Library.Json

open List Option

/-! ## 1. Writing -/

def hexDigitChar (n : Nat) : Char := Nat.digitChar n

def escapeChar (c : Char) : List Char :=
  if c = '"' then ['\\', '"']
  else if c = '\\' then ['\\', '\\']
  else if c.toNat = 8 then ['\\', 'b']
  else if c.toNat = 9 then ['\\', 't']
  else if c.toNat = 10 then ['\\', 'n']
  else if c.toNat = 12 then ['\\', 'f']
  else if c.toNat = 13 then ['\\', 'r']
  else if c.toNat < 32 then
    ['\\', 'u', '0', '0', hexDigitChar (c.toNat / 16), hexDigitChar (c.toNat % 16)]
  else [c]

def quote (s : String) : List Char := '"' :: (s.toList.flatMap escapeChar ++ ['"'])

mutual

/-- `JSON.stringify(value)` -/
def stringify : Json → List Char
  | .null => ['n', 'u', 'l', 'l']
  | .bool true => ['t', 'r', 'u', 'e']
  | .bool false => ['f', 'a', 'l', 's', 'e']
  | .number text => text.toList
  | .string s => quote s
  | .array elements => '[' :: (stringifyElements elements ++ [']'])
  | .object fields => '\x7b' :: (stringifyMembers fields ++ ['\x7d'])

def stringifyElements : List Json → List Char
  | [] => []
  | [value] => stringify value
  | value :: values => stringify value ++ ',' :: stringifyElements values

def stringifyMembers : List (String × Json) → List Char
  | [] => []
  | [(name, value)] => quote name ++ ':' :: stringify value
  | (name, value) :: fields =>
    quote name ++ ':' :: (stringify value ++ ',' :: stringifyMembers fields)

end

/-- A value whose numbers are integers. -/
inductive Written : Json → Prop where
  | null : Written .null
  | bool (b : Bool) : Written (.bool b)
  | number (n : Int) : Written (.number (integerText n))
  | string (s : String) : Written (.string s)
  | array {elements : List Json} (h : ∀ value ∈ elements, Written value) :
      Written (.array elements)
  | object {fields : List (String × Json)} (h : ∀ field ∈ fields, Written field.2) :
      Written (.object fields)

/-! ## 2. Strings -/

theorem stringBody_escapeChar (c : Char) (rest : List Char) :
    stringBody (escapeChar c ++ rest) =
      (stringBody rest).map fun read => (c.toNat :: read.1, read.2) := by
  have hlow : ∀ n : Fin 32,
      hex4? '0' '0' (hexDigitChar (n.val / 16)) (hexDigitChar (n.val % 16)) = some n.val := by
    decide
  have hbind : ∀ (n : Nat) (o : Option (List Nat × List Char)),
      (o.bind fun read => some (n :: read.1, read.2)) =
        o.map fun read => (n :: read.1, read.2) := by
    intro n o
    cases o <;> rfl
  unfold escapeChar
  split
  · rename_i hc; subst hc; exact hbind 34 _
  split
  · rename_i hc; subst hc; exact hbind 92 _
  split
  · rename_i hc; rw [hc]; exact hbind 8 _
  split
  · rename_i hc; rw [hc]; exact hbind 9 _
  split
  · rename_i hc; rw [hc]; exact hbind 10 _
  split
  · rename_i hc; rw [hc]; exact hbind 12 _
  split
  · rename_i hc; rw [hc]; exact hbind 13 _
  split
  · rename_i h32
    show stringBody ('\\' :: 'u' :: '0' :: '0' :: _ :: _ :: rest) = _
    rw [stringBody, hlow ⟨c.toNat, h32⟩]
    exact hbind c.toNat _
  · rename_i hquote hslash _ _ _ _ _ h32
    show stringBody (c :: rest) = _
    rw [stringBody]
    · rw [if_neg (by simp [hslash]; omega)]; exact hbind c.toNat _
    · exact hquote
    · intro a b c' d r heq; exact absurd heq hslash
    · intro e r heq; exact absurd heq hslash

theorem stringBody_escape (cs rest : List Char) :
    stringBody (cs.flatMap escapeChar ++ '"' :: rest) = some (cs.map Char.toNat, rest) := by
  induction cs with
  | nil => rfl
  | cons c cs ih => rw [flatMap_cons, append_assoc, stringBody_escapeChar, ih]; rfl

/-- **A string reads back.** -/
theorem parseString_quote (s : String) (rest : List Char) :
    parseString (s.toList.flatMap escapeChar ++ '"' :: rest) = some (s, rest) := by
  unfold parseString
  rw [stringBody_escape]
  simp [joinSurrogates_toNat]

/-! ## 3. Numbers -/

/-- Nothing that would go on with a number. -/
def EndsNumber (rest : List Char) : Prop :=
  ∀ c cs, rest = c :: cs → c.isDigit = false ∧ c ≠ '.' ∧ c ≠ 'e' ∧ c ≠ 'E'

theorem head_toDigits_ne_zero {n : Nat} (h : 0 < n) : (Nat.toDigits 10 n).head? ≠ some '0' := by
  induction n using Nat.strongRecOn with
  | ind n ih =>
    by_cases hlt : n < 10
    · rw [Nat.toDigits_of_lt_base hlt]
      have hall : ∀ n < 10, 0 < n → [Nat.digitChar n].head? ≠ some '0' := by decide
      exact hall n hlt h
    · have hsplit : n = 10 * (n / 10) + n % 10 := (Nat.div_add_mod n 10).symm
      rw [hsplit, ← Nat.toDigits_append_toDigits (by decide) (by omega) (Nat.mod_lt _ (by decide))]
      have hhead := ih (n / 10) (by omega) (by omega)
      cases hdigits : Nat.toDigits 10 (n / 10) with
      | nil => exact absurd hdigits Nat.toDigits_ne_nil
      | cons d ds => rw [hdigits] at hhead; exact hhead

variable {rest : List Char} {c : Char} {value : Json} {elements : List Json}

theorem digits_append {ds : List Char} (hds : ∀ c ∈ ds, c.isDigit = true)
    (hrest : EndsNumber rest) : digits (ds ++ rest) = (ds, rest) := by
  unfold digits
  rw [span_eq_takeWhile_dropWhile, takeWhile_append_of_pos hds, dropWhile_append_of_pos hds]
  cases rest with
  | nil => simp
  | cons c cs =>
    have hc := (hrest c cs rfl).1
    simp [hc]

/-- **An integer reads back.** -/
theorem parseNumber_integerText (n : Int) (hrest : EndsNumber rest) :
    parseNumber ((integerText n).toList ++ rest) = some (.number (integerText n), rest) := by
  have hfraction : parseFraction rest = some ([], rest) := by
    cases rest with
    | nil => rfl
    | cons c cs =>
      unfold parseFraction
      split
      · rename_i heq; exact absurd (cons.inj heq).1 (hrest c cs rfl).2.1
      · rfl
  have hexponent : parseExponent rest = some ([], rest) := by
    cases rest with
    | nil => rfl
    | cons c cs => obtain ⟨-, -, he, hE⟩ := hrest c cs rfl; exact if_neg (not_or.mpr ⟨he, hE⟩)
  have hdigit : ∀ n : Nat, ∀ c ∈ Nat.toDigits 10 n, c.isDigit = true := fun n c hc =>
    Nat.isDigit_of_mem_toDigits (by decide) (by decide) hc
  have hlead : ∀ n : Nat, ¬((Nat.toDigits 10 n).head? = some '0' ∧
      1 < (Nat.toDigits 10 n).length) := by
    intro n hzero
    rcases Nat.eq_zero_or_pos n with rfl | hpos
    · exact absurd hzero.2 (by decide)
    · exact head_toDigits_ne_zero hpos hzero.1
  have hread : ∀ (n : Nat) (sign : List Char),
      (let read := digits (Nat.toDigits 10 n ++ rest)
        if read.1 = [] ∨ (read.1.head? = some '0' ∧ 1 < read.1.length) then none
        else
          (parseFraction read.2).bind fun fraction =>
            (parseExponent fraction.2).bind fun exponent =>
              some (Json.number (String.ofList (sign ++ read.1 ++ fraction.1 ++ exponent.1)),
                exponent.2)) =
        some (.number (String.ofList (sign ++ Nat.toDigits 10 n)), rest) := by
    intro n sign
    rw [digits_append (hdigit n) hrest]
    rw [if_neg (not_or.mpr ⟨Nat.toDigits_ne_nil, hlead n⟩), hfraction]
    simp [hexponent]
  cases n with
  | ofNat n =>
    have hsign : parseSign (Nat.toDigits 10 n ++ rest) = ([], Nat.toDigits 10 n ++ rest) := by
      cases hds : Nat.toDigits 10 n with
      | nil => exact absurd hds Nat.toDigits_ne_nil
      | cons d ds =>
        unfold parseSign
        split
        · rename_i heq
          obtain ⟨rfl, -⟩ := cons.inj heq
          exact absurd hds (head_toDigits_ne_minus n ds)
        · rfl
    unfold integerText parseNumber
    rw [String.toList_ofList, hsign]
    exact hread n []
  | negSucc n =>
    unfold integerText parseNumber
    rw [String.toList_ofList]
    exact hread (n + 1) ['-']

/-! ## 4. Values -/

/-- A text starts with no space, and does not close an array or an object. -/
def StartsValue (cs : List Char) : Prop :=
  ∃ c rest, cs = c :: rest ∧ isSpace c = false ∧ c ≠ ']' ∧ c ≠ '\x7d'

theorem StartsValue.append {cs : List Char} (h : StartsValue cs) (rest : List Char) :
    StartsValue (cs ++ rest) := by
  obtain ⟨c, cs, rfl, hc⟩ := h
  exact ⟨c, cs ++ rest, rfl, hc⟩

theorem digit_of_isDigit (h : c.isDigit = true) :
    isSpace c = false ∧ c ≠ ']' ∧ c ≠ '\x7d' ∧ c ≠ '\x7b' ∧ c ≠ '[' ∧ c ≠ '"' ∧ c ≠ 't' ∧
      c ≠ 'f' ∧ c ≠ 'n' := by
  refine ⟨?_, ?_, ?_, ?_, ?_, ?_, ?_, ?_, ?_⟩
  · unfold isSpace
    rw [Bool.eq_false_iff]
    intro hspace
    simp only [Bool.or_eq_true, decide_eq_true_eq] at hspace
    rcases hspace with ((rfl | rfl) | rfl) | rfl <;> exact absurd h (by decide)
  all_goals
    rintro rfl
    exact absurd h (by decide)

/-- The first character of an integer is a digit or a sign. -/
theorem integerText_head (n : Int) : ∃ c rest, (integerText n).toList = c :: rest ∧
    (c = '-' ∨ c.isDigit = true) := by
  cases n with
  | ofNat n =>
    unfold integerText
    rw [String.toList_ofList]
    cases hds : Nat.toDigits 10 n with
    | nil => exact absurd hds Nat.toDigits_ne_nil
    | cons d ds =>
      have hd : d ∈ Nat.toDigits 10 n := hds ▸ mem_cons_self
      exact ⟨d, ds, rfl, .inr (Nat.isDigit_of_mem_toDigits (by decide) (by decide) hd)⟩
  | negSucc n => unfold integerText; rw [String.toList_ofList]; exact ⟨'-', _, rfl, .inl rfl⟩

theorem parseValue_integerText (fuel : Nat) (n : Int) (hrest : EndsNumber rest) :
    parseValue (fuel + 1) ((integerText n).toList ++ rest) =
      some (.number (integerText n), rest) := by
  have hnumber := parseNumber_integerText n hrest
  obtain ⟨c, cs, hcs, hc⟩ := integerText_head n
  rw [hcs, cons_append] at hnumber ⊢
  have hother : isSpace c = false ∧ c ≠ ']' ∧ c ≠ '\x7d' ∧ c ≠ '\x7b' ∧ c ≠ '[' ∧ c ≠ '"' ∧
      c ≠ 't' ∧ c ≠ 'f' ∧ c ≠ 'n' := by
    rcases hc with rfl | hdigit
    · decide
    · exact digit_of_isDigit hdigit
  obtain ⟨hspace, -, -, hbrace, hbracket, hquote, ht, hf, hn⟩ := hother
  rw [parseValue, skipSpace_cons hspace]
  split
  · rename_i heq; exact absurd (cons.inj heq).1 hbrace
  · rename_i heq; exact absurd (cons.inj heq).1 hbracket
  · rename_i heq; exact absurd (cons.inj heq).1 hquote
  · rename_i heq; exact absurd (cons.inj heq).1 ht
  · rename_i heq; exact absurd (cons.inj heq).1 hf
  · rename_i heq; exact absurd (cons.inj heq).1 hn
  · exact hnumber

theorem startsValue_stringify (h : Written value) : StartsValue (stringify value) := by
  cases h with
  | null => exact ⟨_, _, rfl, by decide, by decide, by decide⟩
  | bool b => cases b <;> exact ⟨_, _, rfl, by decide, by decide, by decide⟩
  | number n =>
    obtain ⟨c, cs, hcs, hc⟩ := integerText_head n
    refine ⟨c, cs, hcs, ?_⟩
    rcases hc with rfl | hdigit
    · decide
    · obtain ⟨hspace, hbracket, hbrace, -⟩ := digit_of_isDigit hdigit
      exact ⟨hspace, hbracket, hbrace⟩
  | string s => exact ⟨_, _, rfl, by decide, by decide, by decide⟩
  | array h => exact ⟨_, _, rfl, by decide, by decide, by decide⟩
  | object h => exact ⟨_, _, rfl, by decide, by decide, by decide⟩

/-- The value reads back, where the number allows for its nesting. -/
def Reads (value : Json) : Prop :=
  ∀ fuel rest, (stringify value).length < fuel → EndsNumber rest →
    parseValue fuel (stringify value ++ rest) = some (value, rest)

theorem endsNumber_cons (hdigit : c.isDigit = false) (hdot : c ≠ '.') (he : c ≠ 'e') (hE : c ≠ 'E')
    (rest : List Char) : EndsNumber (c :: rest) := by
  intro d ds heq
  obtain ⟨rfl, rfl⟩ := cons.inj heq
  exact ⟨hdigit, hdot, he, hE⟩

theorem parseElements_stringify (hne : elements ≠ []) (h : ∀ value ∈ elements, Reads value)
    (fuel : Nat) (rest : List Char) (hfuel : (stringifyElements elements).length + 1 < fuel) :
    parseElements fuel (stringifyElements elements ++ ']' :: rest) = some (elements, rest) := by
  induction elements generalizing fuel with
  | nil => exact absurd rfl hne
  | cons value elements ih =>
    obtain ⟨fuel, rfl⟩ : ∃ n, fuel = n + 1 := ⟨fuel - 1, by omega⟩
    cases elements with
    | nil =>
      rw [stringifyElements] at hfuel ⊢
      rw [parseElements, h value mem_cons_self fuel _ (by omega)
        (endsNumber_cons (by decide) (by decide) (by decide) (by decide) _)]
      rfl
    | cons next elements =>
      rw [stringifyElements.eq_3 _ _ (by simp)] at hfuel ⊢
      rw [length_append, length_cons] at hfuel
      rw [append_assoc, cons_append, parseElements, h value mem_cons_self fuel _ (by omega)
          (endsNumber_cons (by decide) (by decide) (by decide) (by decide) _)]
      have hnext := ih (by simp) (fun v hv => h v (mem_cons_of_mem _ hv)) fuel (by omega)
      simp only [bind_eq_bind, bind_some, @skipSpace_cons ',' (by decide), hnext]
      rfl

theorem parseMembers_stringify {fields : List (String × Json)} (hne : fields ≠ [])
    (h : ∀ field ∈ fields, Reads field.2) (fuel : Nat) (rest : List Char)
    (hfuel : (stringifyMembers fields).length + 1 < fuel) :
    parseMembers fuel (stringifyMembers fields ++ '\x7d' :: rest) = some (fields, rest) := by
  induction fields generalizing fuel with
  | nil => exact absurd rfl hne
  | cons field fields ih =>
    obtain ⟨name, value⟩ := field
    obtain ⟨fuel, rfl⟩ : ∃ n, fuel = n + 1 := ⟨fuel - 1, by omega⟩
    have hread := h (name, value) mem_cons_self fuel
    cases fields with
    | nil =>
      rw [stringifyMembers, quote] at hfuel ⊢
      simp only [length_append, length_cons] at hfuel
      simp only [append_assoc, cons_append, nil_append]
      exact parseMembers_last (parseString_quote _ _) (hread _ (by dsimp only; omega)
        (endsNumber_cons (by decide) (by decide) (by decide) (by decide) _))
    | cons next fields =>
      rw [stringifyMembers.eq_3 _ _ _ (by simp), quote] at hfuel ⊢
      simp only [length_append, length_cons] at hfuel
      simp only [append_assoc, cons_append, nil_append]
      have hnext := ih (by simp) (fun f hf => h f (mem_cons_of_mem _ hf)) fuel (by omega)
      exact parseMembers_more (parseString_quote _ _) (hread _ (by dsimp only; omega)
        (endsNumber_cons (by decide) (by decide) (by decide) (by decide) _)) hnext

theorem startsValue_elements (hne : elements ≠ []) (h : ∀ value ∈ elements, Written value) :
    StartsValue (stringifyElements elements) := by
  cases elements with
  | nil => exact absurd rfl hne
  | cons value elements =>
    have hvalue := startsValue_stringify (h value mem_cons_self)
    cases elements with
    | nil => exact hvalue
    | cons next elements => exact hvalue.append _

theorem stringifyMembers_head {fields : List (String × Json)} (hne : fields ≠ []) :
    ∃ rest, stringifyMembers fields = '"' :: rest := by
  cases fields with
  | nil => exact absurd rfl hne
  | cons field fields =>
    cases fields with
    | nil => exact ⟨_, rfl⟩
    | cons next fields => exact ⟨_, rfl⟩

theorem parseValue_elements {fuel : Nat} {cs after : List Char} (hspace : isSpace c = false)
    (hbracket : c ≠ ']') (h : parseElements fuel (c :: cs) = some (elements, after)) :
    parseValue (fuel + 1) ('[' :: c :: cs) = some (.array elements, after) := by
  rw [parseValue, skipSpace_cons (by decide)]
  simp only [skipSpace_cons hspace]
  split
  · rename_i heq; exact absurd (cons.inj heq).1 hbracket
  · rw [h]; rfl

theorem reads_of_written (h : Written value) : Reads value := by
  induction h with
  | null =>
    intro fuel rest hfuel _
    obtain ⟨fuel, rfl⟩ : ∃ n, fuel = n + 1 := ⟨fuel - 1, by omega⟩
    rfl
  | bool b =>
    intro fuel rest hfuel _
    obtain ⟨fuel, rfl⟩ : ∃ n, fuel = n + 1 := ⟨fuel - 1, by omega⟩
    cases b <;> rfl
  | number n =>
    intro fuel rest hfuel hrest
    obtain ⟨fuel, rfl⟩ : ∃ n, fuel = n + 1 := ⟨fuel - 1, by omega⟩
    exact parseValue_integerText fuel n hrest
  | string s =>
    intro fuel rest hfuel _
    obtain ⟨fuel, rfl⟩ : ∃ n, fuel = n + 1 := ⟨fuel - 1, by omega⟩
    rw [stringify, quote, cons_append, append_assoc, parseValue, skipSpace_cons (by decide)]
    simp only [singleton_append, parseString_quote]
    rfl
  | @array elements h ih =>
    intro fuel rest hfuel _
    obtain ⟨fuel, rfl⟩ : ∃ n, fuel = n + 1 := ⟨fuel - 1, by omega⟩
    rw [stringify] at hfuel ⊢
    rw [length_cons, length_append, length_singleton] at hfuel
    rw [cons_append, append_assoc, singleton_append]
    by_cases hne : elements = []
    · rw [hne, parseValue]; rfl
    · obtain ⟨c, cs, hcs, hspace, hbracket, -⟩ := startsValue_elements hne h
      have hread := parseElements_stringify hne ih fuel rest (by omega)
      rw [hcs, cons_append] at hread ⊢
      exact parseValue_elements hspace hbracket hread
  | @object fields h ih =>
    intro fuel rest hfuel _
    obtain ⟨fuel, rfl⟩ : ∃ n, fuel = n + 1 := ⟨fuel - 1, by omega⟩
    rw [stringify] at hfuel ⊢
    rw [length_cons, length_append, length_singleton] at hfuel
    rw [cons_append, append_assoc, singleton_append]
    by_cases hne : fields = []
    · rw [hne, parseValue]; rfl
    · obtain ⟨cs, hcs⟩ := stringifyMembers_head hne
      have hread := parseMembers_stringify hne ih fuel rest (by omega)
      rw [hcs, cons_append] at hread ⊢
      exact parseValue_members hread

/-- **A value reads back.** -/
theorem parse_stringify (h : Written value) :
    parse (String.ofList (stringify value)) = some value := by
  have hread := reads_of_written h (2 * (stringify value).length + 2) [] (by omega) nofun
  rw [append_nil] at hread
  unfold parse
  rw [String.toList_ofList, hread]
  rfl

end Frogg.Library.Json
