/-
  Subject:   Cursors, and the order of the items that they page
             (pagination/cursor.ts, pagination/sortable-pager.ts).

  `localeCompare` is a parameter, its sign an `Ordering`. A sort key is its text in a cursor.
-/
import Frogg.Library.Base64
import Frogg.Library.JsMap
import Frogg.Library.JsNumber
import Frogg.Library.TextCodec

namespace Frogg.Server

open Library List Option JsMap

/-! ## 1. Sort values -/

inductive SortDirection where
  | asc | desc
  deriving DecidableEq

def SortDirection.text : SortDirection → String
  | .asc => "asc"
  | .desc => "desc"

structure SortSpec (κ : Type) where
  key : κ
  direction : SortDirection
  deriving DecidableEq

inductive CursorSortValue where
  | text (s : String)
  | number (q : ℚ)
  | null
  deriving DecidableEq

/-- `String(value)`; a number of an item is an integer. -/
def CursorSortValue.toText : CursorSortValue → String
  | .text s => s
  | .number q => Json.integerText ⌊q⌋
  | .null => "null"

def compareValues (localeCompare : String → String → Ordering) (left right : CursorSortValue) :
    Ordering :=
  if left = right then .eq
  else
    match left, right with
    | .null, _ => .lt
    | _, .null => .gt
    | .number left, .number right => if left < right then .lt else .gt
    | left, right => localeCompare left.toText right.toText

/-! ## 2. Cursors -/

structure DecodedCursor (κ : Type) where
  sort : List (SortSpec κ)
  values : Json
  id : String

/-- The message of a `CursorError`. -/
abbrev CursorError := String

namespace Cursor

variable {ι κ : Type} (keyText : κ → String)

def valueJson : CursorSortValue → Json
  | .text s => .string s
  | .number q => .number (Json.integerText ⌊q⌋)
  | .null => .null

def sortJson (sort : List (SortSpec κ)) : Json :=
  .array (sort.map fun spec =>
    .object [("key", .string (keyText spec.key)), ("direction", .string spec.direction.text)])

/-- `values`: of one key there is one value. -/
def sortValues (entry : ι) (sort : List (SortSpec κ)) (getValue : ι → κ → CursorSortValue) :
    JsMap String Json :=
  sort.foldl (fun values spec =>
    values.set (keyText spec.key) (valueJson (getValue entry spec.key))) .empty

def encodeCursor (entry : ι) (sort : List (SortSpec κ)) (getId : ι → String)
    (getValue : ι → κ → CursorSortValue) : String :=
  let payload := Json.object [
    ("sort", sortJson keyText sort),
    ("values", .object (sortValues keyText entry sort getValue).entries),
    ("id", .string (getId entry))]
  String.ofList (Base64.encodeUrl (textEncode (String.ofList payload.stringify)))

def invalid (label : String) : CursorError := "Invalid " ++ label ++ " cursor"

/-- `typeof value === "object"` of what is not `null`. -/
def isObjectLike : Json → Bool
  | .object _ => true
  | .array _ => true
  | _ => false

def direction? : String → Option SortDirection
  | "asc" => some .asc
  | "desc" => some .desc
  | _ => none

def parseCursorEntry (validKeys : List κ) (label : String) (item : Json) :
    Except CursorError (SortSpec κ) :=
  match (item.field? "key").bind Json.string?, (item.field? "direction").bind Json.string? with
  | some key, some direction =>
    match validKeys.find? fun valid => keyText valid = key, direction? direction with
    | some key, some direction => .ok ⟨key, direction⟩
    | _, _ => .error (invalid label)
  | _, _ => .error (invalid label)

def parseCursorSort (raw : List Json) (validKeys : List κ) (label : String) :
    Except CursorError (List (SortSpec κ)) :=
  raw.mapM (parseCursorEntry keyText validKeys label)

/-- `Buffer.from(cursor, "base64url").toString("utf8")` -/
def bufferText (cursor : String) : String :=
  String.ofList (Utf8State.idle.decode (Base64.bufferFrom cursor.toList))

def decodeCursor [DecidableEq κ] (cursor : String) (sort : List (SortSpec κ)) (validKeys : List κ)
    (label : String) : Except CursorError (DecodedCursor κ) :=
  match Json.parse (bufferText cursor) with
  | none => .error (invalid label)
  | some payload =>
    match payload.field? "sort", payload.field? "id", payload.field? "values" with
    | some (.array raw), some (.string id), some values =>
      if isObjectLike values = false then .error (invalid label)
      else do
        let cursorSort ← parseCursorSort keyText raw validKeys label
        if cursorSort ≠ sort then .error (label ++ " cursor does not match current sort")
        else return ⟨cursorSort, values, id⟩
    | _, _, _ => .error (invalid label)

/-- `String(value)`, as an array joins its elements. -/
def elementText : Json → String
  | .null => ""
  | .bool true => "true"
  | .bool false => "false"
  | .number text => text
  | .string s => s
  | .array elements => ",".intercalate (elements.attach.map fun e => elementText e.1)
  | .object _ => "[object Object]"
decreasing_by
  have hless := sizeOf_lt_of_mem e.2
  simp only [Json.array.sizeOf_spec]
  omega

/-- A value of a cursor; one of another kind counts by its text. -/
def valueOf : Option Json → CursorSortValue
  | some (.number text) => .number (Json.decimalValue text)
  | some .null => .null
  | some value => .text (elementText value)
  | none => .null

end Cursor

/-! ## 3. The pager -/

structure SortablePagerConfig (ι κ : Type) where
  validKeys : List κ
  keyText : κ → String
  defaultSort : List (SortSpec κ)
  label : String
  getId : ι → String
  getSortValue : ι → κ → CursorSortValue

namespace SortablePager

variable {ι κ : Type} [DecidableEq κ] (config : SortablePagerConfig ι κ)
  (localeCompare : String → String → Ordering)

def dedupe : List κ → List (SortSpec κ) → List (SortSpec κ)
  | _, [] => []
  | seen, entry :: sort =>
    if entry.key ∈ seen then dedupe seen sort
    else entry :: dedupe (entry.key :: seen) sort

def normalizeSort (sort : Option (List (SortSpec κ))) : List (SortSpec κ) :=
  match sort with
  | none | some [] => config.defaultSort
  | some sort =>
    let deduped := dedupe [] sort
    if deduped = [] then config.defaultSort else deduped

/-- `base` where the direction is `asc`, `-base` otherwise. -/
def directed : SortDirection → Ordering → Ordering
  | .asc, base => base
  | .desc, base => base.swap

/-- The loop over the sort: the first value that differs decides, or the id. -/
def compareBy (value : κ → CursorSortValue × CursorSortValue) (ids : Ordering) :
    List (SortSpec κ) → Ordering
  | [] => ids
  | spec :: sort =>
    match compareValues localeCompare (value spec.key).1 (value spec.key).2 with
    | .eq => compareBy value ids sort
    | base => directed spec.direction base

def compare (left right : ι) (sort : List (SortSpec κ)) : Ordering :=
  compareBy localeCompare
    (fun key => (config.getSortValue left key, config.getSortValue right key))
    (localeCompare (config.getId left) (config.getId right)) sort

def compareWithCursor (item : ι) (cursor : DecodedCursor κ) (sort : List (SortSpec κ)) : Ordering :=
  compareBy localeCompare
    (fun key =>
      (config.getSortValue item key, Cursor.valueOf (cursor.values.field? (config.keyText key))))
    (localeCompare (config.getId item) cursor.id) sort

def encode (item : ι) (sort : List (SortSpec κ)) : String :=
  Cursor.encodeCursor config.keyText item sort config.getId config.getSortValue

def decode (token : String) (sort : List (SortSpec κ)) : Except CursorError (DecodedCursor κ) :=
  Cursor.decodeCursor config.keyText token sort config.validKeys config.label

end SortablePager

/-! ## 4. The order is one -/

section Order

open Std (TransCmp OrientedCmp ReflCmp TransOrd)

variable {ι : Type} {localeCompare : String → String → Ordering} {α : Type} (cmp : α → α → Ordering)

/-- What is not there comes first. -/
def nullFirst : Option α → Option α → Ordering
  | none, none => .eq
  | none, some _ => .lt
  | some _, none => .gt
  | some a, some b => cmp a b

theorem transCmp_nullFirst [TransCmp cmp] : TransCmp (nullFirst cmp) where
  eq_swap {a b} := by
    cases a with
    | none => cases b <;> rfl
    | some a =>
      cases b with
      | none => rfl
      | some b => show cmp a b = (cmp b a).swap; exact OrientedCmp.eq_swap
  isLE_trans {a b c} hab hbc := by
    cases a with
    | none => cases c <;> rfl
    | some a =>
      cases b with
      | none => cases hab
      | some b =>
        cases c with
        | none => cases hbc
        | some c => show (cmp a c).isLE = true; exact TransCmp.isLE_trans hab hbc

theorem transCmp_on [TransCmp cmp] (f : ι → α) : TransCmp fun l r => cmp (f l) (f r) where
  eq_swap := OrientedCmp.eq_swap
  isLE_trans := TransCmp.isLE_trans

theorem transCmp_rat : TransCmp fun p q : ℚ => compareOfLessAndEq p q :=
  TransOrd.compareOfLessAndEq_of_antisymm_of_trans_of_total_of_not_le le_antisymm le_trans le_total
    not_le

/-- The values of a key are texts, or they are integers; either may be missing. -/
def OfKind (numeric : Bool) : CursorSortValue → Prop
  | .text _ => numeric = false
  | .number q => numeric = true ∧ q.den = 1
  | .null => True

def CursorSortValue.text? : CursorSortValue → Option String
  | .text s => some s
  | _ => none

def CursorSortValue.number? : CursorSortValue → Option ℚ
  | .number q => some q
  | _ => none

theorem compareValues_numbers {left right : CursorSortValue} (hleft : OfKind true left)
    (hright : OfKind true right) :
    compareValues localeCompare left right =
      nullFirst (fun p q : ℚ => compareOfLessAndEq p q) left.number? right.number? := by
  cases left with
  | text s => cases hleft
  | null =>
    cases right with
    | text s => cases hright
    | number q => rfl
    | null => rfl
  | number p =>
    cases right with
    | text s => cases hright
    | null => rfl
    | number q =>
      unfold compareValues nullFirst CursorSortValue.number? compareOfLessAndEq
      dsimp only
      by_cases heq : p = q
      · rw [heq, if_pos rfl, if_neg (lt_irrefl q), if_pos rfl]
      · rw [if_neg (by simpa using heq)]; rw [if_neg heq]

theorem compareValues_texts [TransCmp localeCompare] {left right : CursorSortValue}
    (hleft : OfKind false left) (hright : OfKind false right) :
    compareValues localeCompare left right = nullFirst localeCompare left.text? right.text? := by
  cases left with
  | number q => cases hleft.1
  | null =>
    cases right with
    | text s => rfl
    | number q => cases hright.1
    | null => rfl
  | text s =>
    cases right with
    | number q => cases hright.1
    | null => rfl
    | text t =>
      unfold compareValues
      by_cases heq : s = t
      · subst heq
        have hself : localeCompare s s = .eq := ReflCmp.compare_self
        rw [if_pos rfl]
        exact hself.symm
      · rw [if_neg (by simpa using heq)]; rfl

theorem transCmp_values [TransCmp localeCompare] {numeric : Bool} {value : ι → CursorSortValue}
    (h : ∀ item, OfKind numeric (value item)) :
    TransCmp fun l r => compareValues localeCompare (value l) (value r) := by
  cases numeric with
  | true =>
    have hcmp : (fun l r => compareValues localeCompare (value l) (value r)) =
        fun l r => nullFirst (fun p q : ℚ => compareOfLessAndEq p q)
          (value l).number? (value r).number? := by
      funext l r
      exact compareValues_numbers (h l) (h r)
    have := transCmp_rat
    have := transCmp_nullFirst fun p q : ℚ => compareOfLessAndEq p q
    rw [hcmp]
    exact transCmp_on _ fun item => (value item).number?
  | false =>
    have hcmp : (fun l r => compareValues localeCompare (value l) (value r)) =
        fun l r => nullFirst localeCompare (value l).text? (value r).text? := by
      funext l r
      exact compareValues_texts (h l) (h r)
    have := transCmp_nullFirst localeCompare
    rw [hcmp]
    exact transCmp_on _ fun item => (value item).text?

namespace SortablePager

variable {κ : Type} {config : SortablePagerConfig ι κ}

/-- Every key has values of one kind. -/
def Uniform (config : SortablePagerConfig ι κ) : Prop :=
  ∃ numeric : κ → Bool, ∀ item key, OfKind (numeric key) (config.getSortValue item key)

theorem compareBy_cons (value : κ → CursorSortValue × CursorSortValue) (ids : Ordering)
    (spec : SortSpec κ) (sort : List (SortSpec κ)) :
    compareBy localeCompare value ids (spec :: sort) =
      (directed spec.direction
        (compareValues localeCompare (value spec.key).1 (value spec.key).2)).then
        (compareBy localeCompare value ids sort) := by
  rw [compareBy]
  cases compareValues localeCompare (value spec.key).1 (value spec.key).2 <;>
    cases spec.direction <;> rfl

/-- **The items have one order**, whatever they are sorted by. -/
theorem transCmp_compare [TransCmp localeCompare] (h : Uniform config) (sort : List (SortSpec κ)) :
    TransCmp fun l r => compare config localeCompare l r sort := by
  obtain ⟨numeric, hkind⟩ := h
  induction sort with
  | nil => exact transCmp_on localeCompare config.getId
  | cons spec sort ih =>
    have hvalues : TransCmp fun l r => compareValues localeCompare
        (config.getSortValue l spec.key) (config.getSortValue r spec.key) :=
      transCmp_values fun item => hkind item spec.key
    have hdirected : TransCmp fun l r => directed spec.direction (compareValues localeCompare
        (config.getSortValue l spec.key) (config.getSortValue r spec.key)) := by
      cases spec.direction with
      | asc => exact hvalues
      | desc =>
        have hswap : (fun l r => directed .desc (compareValues localeCompare
            (config.getSortValue l spec.key) (config.getSortValue r spec.key))) =
            fun l r => compareValues localeCompare
              (config.getSortValue r spec.key) (config.getSortValue l spec.key) := by
          funext l r
          exact (hvalues.eq_swap).symm
        rw [hswap]
        exact TransCmp.opposite
    have hlex : (fun l r => compare config localeCompare l r (spec :: sort)) =
        compareLex (fun l r => directed spec.direction (compareValues localeCompare
          (config.getSortValue l spec.key) (config.getSortValue r spec.key)))
          (fun l r => compare config localeCompare l r sort) := by
      funext l r
      exact compareBy_cons _ _ spec sort
    rw [hlex]
    infer_instance

/-- Two items that are equal to the order have ids that are. -/
theorem ids_of_compare_eq {l r : ι} {sort : List (SortSpec κ)}
    (h : compare config localeCompare l r sort = .eq) :
    localeCompare (config.getId l) (config.getId r) = .eq := by
  unfold compare at h
  induction sort with
  | nil => exact h
  | cons spec sort ih => rw [compareBy_cons, Ordering.then_eq_eq] at h; exact ih h.2

end SortablePager

end Order

/-! ## 5. A cursor says what the item says -/

namespace Cursor

variable {ι κ : Type} [DecidableEq κ] {keyText : κ → String} {getId : ι → String}
  {getValue : ι → κ → CursorSortValue}

/-- A number is an integer. -/
def Integral : CursorSortValue → Prop
  | .number q => q.den = 1
  | _ => True

theorem valueOf_valueJson {value : CursorSortValue} (h : Integral value) :
    valueOf (some (valueJson value)) = value := by
  cases value with
  | text s => simp [valueJson, valueOf, elementText]
  | null => rfl
  | number q =>
    have hq : ((q.num : Int) : ℚ) = q := (Rat.den_eq_one_iff q).mp h
    have hfloor : ⌊q⌋ = q.num := by rw [← hq]; simp
    show CursorSortValue.number (Json.decimalValue (Json.integerText ⌊q⌋)) = _
    rw [Json.decimalValue_integerText, hfloor, hq]

theorem written_valueJson (value : CursorSortValue) : (valueJson value).Written := by
  cases value with
  | text s => exact .string s
  | number q => exact .number _
  | null => exact .null

theorem get?_foldl_values (hinj : Function.Injective keyText) (entry : ι) (key : κ)
    (sort : List (SortSpec κ)) (values : JsMap String Json) :
    (sort.foldl (fun values spec =>
      values.set (keyText spec.key) (valueJson (getValue entry spec.key))) values).get?
        (keyText key) =
      if key ∈ sort.map SortSpec.key then some (valueJson (getValue entry key))
      else values.get? (keyText key) := by
  induction sort generalizing values with
  | nil => rfl
  | cons spec sort ih =>
    rw [foldl_cons, ih, get?_set, map_cons]
    by_cases hkey : key = spec.key
    · simp [hkey]
    · have htext : keyText key ≠ keyText spec.key := fun heq => hkey (hinj heq)
      simp [hkey, htext]

variable {sort : List (SortSpec κ)}

/-- Each key of the sort has the value of the item. -/
theorem get?_sortValues (hinj : Function.Injective keyText) (entry : ι) {key : κ}
    (hmem : key ∈ sort.map SortSpec.key) :
    (sortValues keyText entry sort getValue).get? (keyText key) =
      some (valueJson (getValue entry key)) := by
  unfold sortValues
  rw [get?_foldl_values hinj, if_pos hmem]

omit [DecidableEq κ] in
theorem mem_sortValues (entry : ι) (sort : List (SortSpec κ)) :
    ∀ e ∈ (sortValues keyText entry sort getValue).entries, e.2.Written := by
  have hfold : ∀ values : JsMap String Json, (∀ e ∈ values.entries, e.2.Written) →
      ∀ e ∈ (sort.foldl (fun values spec => values.set (keyText spec.key)
        (valueJson (getValue entry spec.key))) values).entries, e.2.Written := by
    induction sort with
    | nil => exact fun values h => h
    | cons spec sort ih =>
      intro values h
      refine ih _ fun e he => ?_
      have hget := get?_eq_some_iff.mpr he
      rw [get?_set] at hget
      split at hget
      · rw [← some.inj hget]; exact written_valueJson _
      · exact h _ (get?_eq_some_iff.mp hget)
  exact hfold .empty (by simp [empty])

/-- The lookup in an object finds what the map holds. -/
theorem field?_entries (values : JsMap String Json) (name : String) :
    (Json.object values.entries).field? name = values.get? name := by
  refine ext fun value => ?_
  rw [get?_eq_some_iff]
  show values.entries.reverse.lookup name = some value ↔ _
  have hkeys : (values.entries.reverse.map Prod.fst).Nodup := by
    rw [map_reverse]
    exact nodup_reverse.mpr values.nodup
  rw [← mem_reverse]
  generalize values.entries.reverse = entries at hkeys
  induction entries with
  | nil => simp
  | cons e entries ih =>
    obtain ⟨key, first⟩ := e
    obtain ⟨hnotin, hrest⟩ := nodup_cons.mp hkeys
    rw [lookup_cons, mem_cons]
    by_cases hname : name = key
    · subst hname
      have hout : (name, value) ∉ entries := fun hmem =>
        hnotin (mem_map.mpr ⟨_, hmem, rfl⟩)
      rw [beq_self_eq_true]
      rw [or_iff_left hout, Prod.mk.injEq, some.injEq, and_iff_right rfl, eq_comm]
    · have hbeq : (name == key) = false := beq_eq_false_iff_ne.mpr hname
      have hne : (name, value) ≠ (key, first) := fun heq => hname (congrArg Prod.fst heq)
      rw [hbeq, or_iff_right hne]
      exact ih hrest

theorem bufferText_encode (text : String) :
    bufferText (String.ofList (Base64.encodeUrl (textEncode text))) = text := by
  unfold bufferText
  rw [String.toList_ofList, Base64.bufferFrom_encodeUrl, textEncode_eq_flatMap,
    Utf8State.decode_flatMap, String.ofList_toList]

theorem direction?_text (direction : SortDirection) :
    direction? direction.text = some direction := by
  cases direction <;> rfl

variable {validKeys : List κ}

omit [DecidableEq κ] in
theorem find?_keyText (hinj : Function.Injective keyText) {key : κ} (hvalid : key ∈ validKeys) :
    (validKeys.find? fun valid => keyText valid = keyText key) = some key := by
  cases hfind : validKeys.find? fun valid => keyText valid = keyText key with
  | none => exact absurd (find?_eq_none.mp hfind key hvalid) (by simp)
  | some found =>
    have htext : keyText found = keyText key := by simpa using find?_some hfind
    rw [hinj htext]

omit [DecidableEq κ] in
theorem parseCursorEntry_sortJson (hinj : Function.Injective keyText) {spec : SortSpec κ}
    (hvalid : spec.key ∈ validKeys) (label : String) : parseCursorEntry keyText validKeys label
      (.object [("key", .string (keyText spec.key)), ("direction", .string spec.direction.text)]) =
        .ok spec := by
  have hkey : (Json.object [("key", .string (keyText spec.key)),
      ("direction", .string spec.direction.text)]).field? "key" =
      some (.string (keyText spec.key)) := rfl
  have hdirection : (Json.object [("key", .string (keyText spec.key)),
      ("direction", .string spec.direction.text)]).field? "direction" =
      some (.string spec.direction.text) := rfl
  unfold parseCursorEntry
  rw [hkey, hdirection]
  simp only [bind_some, Json.string?]
  rw [find?_keyText hinj hvalid, direction?_text]

omit [DecidableEq κ] in
theorem parseCursorSort_sortJson (hinj : Function.Injective keyText)
    (hvalid : ∀ spec ∈ sort, spec.key ∈ validKeys) (label : String) :
    parseCursorSort keyText (sort.map fun spec =>
      .object [("key", .string (keyText spec.key)), ("direction", .string spec.direction.text)])
      validKeys label = .ok sort := by
  unfold parseCursorSort
  induction sort with
  | nil => rfl
  | cons spec sort ih =>
    rw [map_cons, mapM_cons,
      parseCursorEntry_sortJson hinj (hvalid spec mem_cons_self),
      ih fun s hs => hvalid s (mem_cons_of_mem _ hs)]
    rfl

omit [DecidableEq κ] in
theorem written_payload (entry : ι) (sort : List (SortSpec κ)) :
    (Json.object [
      ("sort", sortJson keyText sort),
      ("values", .object (sortValues keyText entry sort getValue).entries),
      ("id", .string (getId entry))]).Written := by
  refine .object fun field hfield => ?_
  simp only [mem_cons, not_mem_nil, or_false] at hfield
  rcases hfield with rfl | rfl | rfl
  · refine .array fun value hvalue => ?_
    obtain ⟨spec, -, rfl⟩ := mem_map.mp hvalue
    refine .object fun field hfield => ?_
    simp only [mem_cons, not_mem_nil, or_false] at hfield
    rcases hfield with rfl | rfl
    · exact .string _
    · exact .string _
  · exact .object (mem_sortValues entry sort)
  · exact .string _

/-- **The cursor of an item reads back**, and only for the sort that it was made for. -/
theorem decodeCursor_encodeCursor (hinj : Function.Injective keyText) (entry : ι)
    (hvalid : ∀ spec ∈ sort, spec.key ∈ validKeys) (sort' : List (SortSpec κ)) (label : String) :
    decodeCursor keyText (encodeCursor keyText entry sort getId getValue) sort' validKeys label =
      if sort = sort' then
        .ok ⟨sort, .object (sortValues keyText entry sort getValue).entries, getId entry⟩
      else .error (label ++ " cursor does not match current sort") := by
  unfold decodeCursor encodeCursor
  rw [bufferText_encode, Json.parse_stringify (written_payload entry sort)]
  have hfields : ∀ sort values id : Json,
      (Json.object [("sort", sort), ("values", values), ("id", id)]).field? "sort" = some sort ∧
      (Json.object [("sort", sort), ("values", values), ("id", id)]).field? "values" =
        some values ∧
      (Json.object [("sort", sort), ("values", values), ("id", id)]).field? "id" = some id :=
    fun _ _ _ => ⟨rfl, rfl, rfl⟩
  dsimp only
  rw [(hfields _ _ _).1, (hfields _ _ _).2.1, (hfields _ _ _).2.2]
  unfold sortJson
  dsimp only
  rw [if_neg (by simp [isObjectLike]), parseCursorSort_sortJson hinj hvalid]
  by_cases hsort : sort = sort'
  · rw [if_pos hsort]; exact if_neg (not_not.mpr hsort)
  · rw [if_neg hsort]; exact if_pos hsort

end Cursor

namespace SortablePager

variable {ι κ : Type} [DecidableEq κ] {config : SortablePagerConfig ι κ}
  (localeCompare : String → String → Ordering)

/-- **The cursor of an item compares as the item does.** -/
theorem compareWithCursor_encode (hinj : Function.Injective config.keyText)
    (hintegral : ∀ item key, Cursor.Integral (config.getSortValue item key)) (x y : ι)
    (sort : List (SortSpec κ)) :
    compareWithCursor config localeCompare y ⟨sort,
        .object (Cursor.sortValues config.keyText x sort config.getSortValue).entries,
        config.getId x⟩ sort =
      compare config localeCompare y x sort := by
  unfold compareWithCursor compare
  have hpart : ∀ part, part ⊆ sort → ∀ ids,
      compareBy localeCompare (fun key => (config.getSortValue y key,
        Cursor.valueOf ((Json.object (Cursor.sortValues config.keyText x sort
          config.getSortValue).entries).field? (config.keyText key)))) ids part =
      compareBy localeCompare (fun key =>
        (config.getSortValue y key, config.getSortValue x key)) ids part := by
    intro part hpart ids
    induction part with
    | nil => rfl
    | cons spec part ih =>
      obtain ⟨hspec, hrest⟩ := cons_subset.mp hpart
      rw [compareBy_cons, compareBy_cons, ih hrest]
      rw [Cursor.field?_entries, Cursor.get?_sortValues hinj x (mem_map_of_mem hspec),
        Cursor.valueOf_valueJson (hintegral x spec.key)]
  exact hpart sort (List.Subset.refl sort) _

end SortablePager

end Frogg.Server
