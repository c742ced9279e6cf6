/-
  Subject:   The head of a task's document, for the tasks that the store writes.

  **`parseTask_serializeTask`**: a task whose title and assignee are one line is read with the head
  it was written with. **`plainHead_of_read`**: only such a task is.
-/
import Frogg.Tasks.Frontmatter

namespace Frogg.Tasks

open Library List Option

/-! ## 1. Tasks that the store writes -/

/-- `randomBytes(4).toString("hex")` -/
def IsTaskId (id : String) : Prop :=
  id.toList.length = 8 ∧ ∀ c ∈ id.toList, c ∈ "0123456789abcdef".toList

instance (id : String) : Decidable (IsTaskId id) :=
  @instDecidableAnd _ _ _ (decidableBAll (· ∈ "0123456789abcdef".toList) id.toList)

/-- `\d{4}-\d{2}-\d{2}T[\d:.Z]+` -/
def IsStamp (stamp : List Char) : Prop :=
  startsLike "0000-00-00T".toList stamp = true ∧ stamp.drop 11 ≠ [] ∧
    ∀ c ∈ stamp.drop 11, isTimeChar c = true

instance (stamp : List Char) : Decidable (IsStamp stamp) :=
  @instDecidableAnd _ _ _ (@instDecidableAnd _ _ _
    (decidableBAll (fun c => isTimeChar c = true) (stamp.drop 11)))

/-- A time as `toISOString` writes it, up to the year 9999. -/
def IsTimestamp (time : String) : Prop := IsStamp time.toList

instance (time : String) : Decidable (IsTimestamp time) :=
  inferInstanceAs (Decidable (IsStamp _))

/-- What the store makes itself, and the ids and numbers it is given, have their shape. The texts
    are free. -/
structure Written (t : Task) : Prop where
  id : IsTaskId t.id
  status : ∀ text, t.status ≠ .unknown text
  deps : ∀ d ∈ t.deps, IsTaskId d
  parentId : ∀ p, t.parentId = some p → p = "" ∨ IsTaskId p
  created : IsTimestamp t.created
  notes : ∀ note ∈ t.notes, IsTimestamp note.timestamp
  priority : ∀ p, t.priority = some p → IsNumber p

/-! ## 2. The values of the head -/

variable {shape : List Char}

theorem startsLike_split {text : List Char} (h : startsLike shape text = true) :
    ∃ start rest, text = start ++ rest ∧ start.length = shape.length ∧
      startsLike shape start = true := by
  induction shape generalizing text with
  | nil => exact ⟨[], text, rfl, rfl, rfl⟩
  | cons p ps ih =>
    cases text with
    | nil => cases h
    | cons c cs =>
      unfold startsLike at h
      rw [Bool.and_eq_true_iff] at h
      obtain ⟨start, rest, rfl, hlen, hstart⟩ := ih h.2
      refine ⟨c :: start, rest, rfl, congrArg (· + 1) hlen, ?_⟩
      unfold startsLike
      rw [Bool.and_eq_true_iff]
      exact ⟨h.1, hstart⟩

theorem startsLike_append {text : List Char} (h : startsLike shape text = true) (rest : List Char) :
    startsLike shape (text ++ rest) = true := by
  induction shape generalizing text with
  | nil => rfl
  | cons p ps ih =>
    cases text with
    | nil => cases h
    | cons c cs =>
      unfold startsLike at h
      rw [Bool.and_eq_true_iff] at h
      rw [cons_append]
      unfold startsLike
      rw [Bool.and_eq_true_iff]
      exact ⟨h.1, ih h.2⟩

theorem startsLike_cons {p : Char} {ps text : List Char} (h : startsLike (p :: ps) text = true)
    (hp : p ≠ '0') : ∃ cs, text = p :: cs ∧ startsLike ps cs = true := by
  cases text with
  | nil => cases h
  | cons c cs =>
    unfold startsLike at h
    rw [if_neg hp, Bool.and_eq_true_iff] at h
    exact ⟨cs, by rw [of_decide_eq_true h.1], h.2⟩

theorem mem_of_startsLike {start : List Char} (h : startsLike shape start = true)
    (hlen : start.length = shape.length) : ∀ c ∈ start, c.isDigit = true ∨ c ∈ shape := by
  induction shape generalizing start with
  | nil => exact fun c hc => absurd (length_eq_zero_iff.mp hlen ▸ hc) not_mem_nil
  | cons p ps ih =>
    cases start with
    | nil => cases h
    | cons c cs =>
      unfold startsLike at h
      rw [Bool.and_eq_true_iff] at h
      intro d hd
      rcases mem_cons.mp hd with rfl | hd
      · have hc := h.1
        split at hc
        · exact .inl hc
        · exact .inr (of_decide_eq_true hc ▸ mem_cons_self)
      · exact (ih h.2 (Nat.succ.inj hlen) d hd).imp id (mem_cons_of_mem p)

variable {c : Char}

theorem oneLine_of_digit (h : c.isDigit = true) : isLineTerminator c = false := by
  have hlow := Char.le_def.mp (of_decide_eq_true (Bool.and_eq_true_iff.mp h).1)
  have h48 : 48 ≤ c.toNat := UInt32.le_iff_toNat_le.mp hlow
  have hup := Char.le_def.mp (of_decide_eq_true (Bool.and_eq_true_iff.mp h).2)
  have h57 : c.toNat ≤ 57 := UInt32.le_iff_toNat_le.mp hup
  have hne : ∀ d : Char, d.toNat < 48 → c ≠ d := by rintro d hd rfl; omega
  unfold isLineTerminator
  simp [hne '\n' (by decide), hne '\r' (by decide)]
  omega

theorem oneLine_of_timeChar (h : isTimeChar c = true) : isLineTerminator c = false := by
  unfold isTimeChar at h
  simp only [Bool.or_eq_true, decide_eq_true_eq] at h
  rcases h with ((h | rfl) | rfl) | rfl
  · exact oneLine_of_digit h
  · decide
  · decide
  · decide

theorem IsStamp.oneLine {stamp : List Char} (h : IsStamp stamp) : OneLine stamp := by
  obtain ⟨hshape, -, htime⟩ := h
  obtain ⟨start, rest, rfl, hlen, hstart⟩ := startsLike_split hshape
  rw [show (start ++ rest).drop 11 = rest from drop_left' hlen] at htime
  refine .append (fun c hc => ?_) fun c hc => oneLine_of_timeChar (htime c hc)
  rcases mem_of_startsLike hstart hlen c hc with hdigit | hmem
  · exact oneLine_of_digit hdigit
  · exact (by decide : OneLine "0000-00-00T".toList) c hmem

theorem IsTimestamp.oneLine {time : String} (h : IsTimestamp time) : OneLine time.toList :=
  IsStamp.oneLine h

theorem IsTaskId.oneLine {id : String} (h : IsTaskId id) : OneLine id.toList := fun c hc =>
  (by decide : OneLine "0123456789abcdef".toList) c (h.2 c hc)

theorem IsTaskId.ne_empty {id : String} (h : IsTaskId id) : id ≠ "" := by
  rintro rfl
  exact absurd h.1 (by decide)

theorem oneLine_status {status : TaskStatus} (h : ∀ text, status ≠ .unknown text) :
    OneLine status.text.toList ∧ statusOf status.text.toList = status := by
  cases status with
  | unknown text => exact absurd rfl (h text)
  | _ => exact ⟨by decide, rfl⟩

theorem oneLine_integerText (n : Int) : OneLine (integerText n) := by
  have hdigits : ∀ n : Nat, OneLine (Nat.toDigits 10 n) := fun n c hc =>
    oneLine_of_digit (isDigit_of_mem_toDigits hc)
  have hnatural : ∀ n : Nat, OneLine (naturalText n) := by
    intro n
    unfold naturalText
    split
    · exact hdigits _
    · cases htext : Nat.toDigits 10 (shortestDecimal n (Nat.toDigits 10 n).length) with
      | nil => exact fun c hc => absurd hc not_mem_nil
      | cons d ds =>
        have hall : OneLine (d :: ds) := htext ▸ hdigits _
        have hfraction : OneLine (ds.reverse.dropWhile (· = '0')).reverse := fun c hc =>
          hall c (mem_cons_of_mem d (mem_reverse.mp
            ((dropWhile_sublist _).subset (mem_reverse.mp hc))))
        refine .append (.cons (hall d mem_cons_self) ?_)
          (.cons (by decide) (.cons (by decide) (hdigits _)))
        split
        · exact fun c hc => absurd hc not_mem_nil
        · exact .cons (by decide) hfraction
  unfold integerText
  split
  · exact .cons (by decide) (hnatural _)
  · exact hnatural _

/-! ## 3. Dependencies -/

theorem not_special_of_hex (h : c ∈ "0123456789abcdef".toList) :
    c ≠ ',' ∧ c ≠ ']' ∧ isJsWhitespace c = false := by
  have hall : "0123456789abcdef".toList.all
      (fun c => decide (c ≠ ',' ∧ c ≠ ']' ∧ isJsWhitespace c = false)) = true := by decide
  exact of_decide_eq_true (all_eq_true.mp hall c h)

theorem trimmed_of_plain {cs : List Char} (h : ∀ c ∈ cs, isJsWhitespace c = false) :
    trimmed cs = cs := by
  have hstart : ∀ cs : List Char, (∀ c ∈ cs, isJsWhitespace c = false) →
      cs.dropWhile isJsWhitespace = cs := by
    intro cs h
    cases cs with
    | nil => rfl
    | cons c cs => rw [dropWhile_cons, h c mem_cons_self]; rfl
  unfold trimmed jsTrimStartChars jsTrimEndChars
  rw [hstart cs h, hstart cs.reverse fun c hc => h c (mem_reverse.mp hc), reverse_reverse]

theorem trimmed_space {cs : List Char} : trimmed (' ' :: cs) = trimmed cs := by
  unfold trimmed jsTrimStartChars
  rw [dropWhile_cons, if_pos (by decide)]

variable {deps : List String}

/-- The ids between the brackets. -/
theorem splitOnP_deps (hne : deps ≠ []) (h : ∀ d ∈ deps, IsTaskId d) :
    ((([',', ' '].intercalate (deps.map String.toList)).splitOnP (· = ',')).map trimmed) =
      deps.map String.toList := by
  have hplain : ∀ d ∈ deps, ∀ c ∈ d.toList, c ≠ ',' ∧ isJsWhitespace c = false := fun d hd c hc =>
    ⟨(not_special_of_hex ((h d hd).2 c hc)).1, (not_special_of_hex ((h d hd).2 c hc)).2.2⟩
  induction deps with
  | nil => exact absurd rfl hne
  | cons d deps ih =>
    have hd := hplain d mem_cons_self
    have htrim : trimmed d.toList = d.toList := trimmed_of_plain fun c hc => (hd c hc).2
    have hno : ∀ c ∈ d.toList, decide (c = ',') = false := fun c hc => decide_eq_false (hd c hc).1
    cases deps with
    | nil =>
      rw [map_singleton, intercalate_singleton, splitOnP_eq_singleton hno, map_singleton, htrim]
    | cons e deps =>
      have hih := ih (cons_ne_nil e deps) (fun x hx => h x (mem_cons_of_mem d hx))
        fun x hx => hplain x (mem_cons_of_mem d hx)
      rw [map_cons, map_cons, intercalate_cons_cons, append_assoc]
      show (((d.toList ++ ',' :: ' ' :: [',', ' '].intercalate
        (e.toList :: deps.map String.toList)).splitOnP _).map trimmed) = _
      rw [splitOnP_append_cons_of_forall_mem hno ',' (by decide), map_cons, htrim,
        splitOnP_cons_eq_if_modifyHead, if_neg (by decide)]
      rw [map_cons] at hih
      obtain ⟨first, rest, hsplit⟩ := splitOnP_span (fun c => decide (c = ','))
        ([',', ' '].intercalate (e.toList :: deps.map String.toList))
      rw [hsplit] at hih ⊢
      rw [modifyHead_cons, map_cons, trimmed_space, ← hih, map_cons]

theorem parseDeps_depsText (h : ∀ d ∈ deps, IsTaskId d) :
    parseDeps (depsText deps).toList = deps := by
  have hbracket : bracketed (depsText deps).toList =
      [',', ' '].intercalate (deps.map String.toList) := by
    unfold bracketed depsText
    rw [String.toList_ofList, cons_append, dropWhile_cons, if_neg (by decide), drop_succ_cons,
      drop_zero, reverse_append, reverse_singleton, singleton_append, dropWhile_cons,
      if_neg (by decide), drop_succ_cons, drop_zero, reverse_reverse]
  unfold parseDeps
  rw [hbracket]
  cases deps with
  | nil => rfl
  | cons d deps =>
    have hne : ∀ x ∈ (d :: deps).map String.toList, decide (x ≠ []) = true := by
      intro x hx
      obtain ⟨e, he, rfl⟩ := mem_map.mp hx
      refine decide_eq_true fun hnil => ?_
      have hlen := (h e he).1
      rw [hnil] at hlen
      cases hlen
    rw [splitOnP_deps (cons_ne_nil d deps) h, filter_eq_self.mpr hne, List.map_map]
    have hid : String.ofList ∘ String.toList = id := funext fun s => String.ofList_toList
    rw [hid, List.map_id]

theorem oneLine_depsText (h : ∀ d ∈ deps, IsTaskId d) : OneLine (depsText deps).toList := by
  have hinner : OneLine ([',', ' '].intercalate (deps.map String.toList)) := by
    induction deps with
    | nil => exact fun c hc => absurd hc not_mem_nil
    | cons d deps ih =>
      have hd := (h d mem_cons_self).oneLine
      cases deps with
      | nil => rw [map_singleton, intercalate_singleton]; exact hd
      | cons e deps =>
        rw [map_cons, map_cons, intercalate_cons_cons]
        exact (hd.append (by decide)).append (ih fun x hx => h x (mem_cons_of_mem d hx))
  unfold depsText
  rw [String.toList_ofList]
  exact (OneLine.cons (by decide) hinner).append (by decide)

/-! ## 4. What is read of a document -/

/-- The free texts of the head are one line, and the parent and the assignee are not empty. -/
structure PlainHead (t : Task) : Prop where
  title : OneLine t.title.toList
  parentId : t.parentId ≠ some ""
  assignee : ∀ a, t.assignee = some a → a ≠ "" ∧ OneLine a.toList

def fieldKeys : List String :=
  ["id", "title", "status", "deps", "created", "parentId", "assignee", "priority"]

theorem plain_fieldKeys : ∀ key ∈ fieldKeys, PlainKey key := by decide

variable {t : Task}

theorem PlainHead.parent (h : PlainHead t) (hw : Written t) {p : String} (hp : t.parentId = some p) :
    IsTaskId p :=
  (hw.parentId p hp).resolve_left fun hempty => h.parentId (hempty ▸ hp)

theorem mem_optionalField {key : String} {value : Option String} {field : String × String}
    (h : field ∈ optionalField key value) : ∃ a, value = some a ∧ field = (key, a) := by
  unfold optionalField at h
  split at h
  · rename_i a
    split at h
    · exact absurd h not_mem_nil
    · exact ⟨a, rfl, mem_singleton.mp h⟩
  · exact absurd h not_mem_nil

/-- Nothing that is written at the head of a task's document has a second line. -/
def OneLineHead (t : Task) : Prop := ∀ field ∈ frontmatterFields t, OneLine field.2.toList

theorem plainKey_of_mem {field : String × String} (h : field ∈ frontmatterFields t) :
    PlainKey field.1 := by
  refine plain_fieldKeys field.1 ?_
  unfold frontmatterFields at h
  rw [mem_append, mem_append, mem_append] at h
  rcases h with ((h | h) | h) | h
  · simp only [mem_cons, not_mem_nil, or_false] at h
    rcases h with rfl | rfl | rfl | rfl | rfl <;> simp [fieldKeys]
  · obtain ⟨p, -, rfl⟩ := mem_optionalField h; simp [fieldKeys]
  · obtain ⟨a, -, rfl⟩ := mem_optionalField h; simp [fieldKeys]
  · obtain ⟨n, -, rfl⟩ := map_eq_some_iff.mp (mem_toList.mp h); simp [fieldKeys]

theorem PlainHead.oneLineHead (h : PlainHead t) (hw : Written t) : OneLineHead t := by
  intro field hfield
  unfold frontmatterFields at hfield
  rw [mem_append, mem_append, mem_append] at hfield
  rcases hfield with ((hfield | hfield) | hfield) | hfield
  · simp only [mem_cons, not_mem_nil, or_false] at hfield
    rcases hfield with rfl | rfl | rfl | rfl | rfl
    · exact hw.id.oneLine
    · exact h.title
    · exact (oneLine_status hw.status).1
    · exact oneLine_depsText hw.deps
    · exact hw.created.oneLine
  · obtain ⟨p, hparent, rfl⟩ := mem_optionalField hfield; exact (h.parent hw hparent).oneLine
  · obtain ⟨a, hassignee, rfl⟩ := mem_optionalField hfield; exact (h.assignee a hassignee).2
  · obtain ⟨n, -, rfl⟩ := map_eq_some_iff.mp (mem_toList.mp hfield)
    rw [String.toList_ofList]
    exact oneLine_integerText n

/-- The value that is found under a key. -/
def fieldOf (t : Task) (key : String) : String := ((frontmatterFields t).lookup key).getD ""

theorem fieldOf_first (t : Task) :
    fieldOf t "id" = t.id ∧ fieldOf t "title" = t.title ∧ fieldOf t "status" = t.status.text ∧
      fieldOf t "deps" = depsText t.deps ∧ fieldOf t "created" = t.created := by
  unfold fieldOf frontmatterFields
  simp [lookup_cons]

theorem lookup_optionalField (key key' : String) (value : Option String) :
    (optionalField key value).lookup key' =
      if key' = key then value.filter (· ≠ "") else none := by
  cases value with
  | none => simp [optionalField]
  | some v =>
    by_cases hv : v = ""
    · simp [optionalField, hv, filter_some]
    · simp [optionalField, hv, filter_some, lookup_singleton, beq_iff_eq]

theorem fieldOf_optional (t : Task) :
    fieldOf t "parentId" = t.parentId.getD "" ∧ fieldOf t "assignee" = t.assignee.getD "" ∧
      fieldOf t "priority" = (t.priority.map fun n => String.ofList (integerText n)).getD "" := by
  have hfilter : ∀ value : Option String, (value.filter (· ≠ "")).getD "" = value.getD "" := by
    intro value
    cases value with
    | none => rfl
    | some v => by_cases hv : v = "" <;> simp [filter_some, hv]
  unfold fieldOf frontmatterFields
  simp only [lookup_append, lookup_optionalField, ← hfilter t.parentId, ← hfilter t.assignee]
  refine ⟨?_, ?_, ?_⟩
  · cases t.parentId.filter (· ≠ "") <;> cases t.priority <;> simp [lookup_cons]
  · cases t.assignee.filter (· ≠ "") <;> cases t.priority <;> simp [lookup_cons]
  · cases t.priority <;> simp [lookup_cons]

/-- Where the head has one line for each value, each value is found. -/
theorem read_oneLineHead (h : OneLineHead t) : frontmatterMatch (serializeTask t).toList =
        some (frontmatterText (frontmatterFields t), fileBodyOf t) ∧
      ∀ key ∈ fieldKeys,
        getValue (frontmatterText (frontmatterFields t)) key = (fieldOf t key).toList := by
  have hfields : ∀ field ∈ frontmatterFields t, PlainKey field.1 ∧ OneLine field.2.toList :=
    fun field hfield => ⟨plainKey_of_mem hfield, h field hfield⟩
  have hne : frontmatterFields t ≠ [] := by unfold frontmatterFields; simp
  constructor
  · unfold serializeTask; rw [String.toList_ofList, frontmatterMatch_document hfields]
  · exact fun key hkey => getValue_frontmatterText hne hfields (plain_fieldKeys key hkey).1

theorem orUndefined_getD {value : Option String} (h : ∀ v, value = some v → v ≠ "") :
    orUndefined (value.getD "").toList = value := by
  cases value with
  | none => rfl
  | some v =>
    unfold orUndefined
    rw [getD_some, String.ofList_toList, if_neg]
    exact fun hnil => h v rfl (String.toList_eq_nil_iff.mp hnil)

/-- The criteria that a document holds. -/
def criteriaOf (fileBody : List Char) : List String :=
  match breakOn "## Acceptance Criteria\n\n".toList fileBody with
  | none => []
  | some (_, after) => readCriteria (beforeNotes after)

/-- The notes that a document holds. -/
def notesOf (fileBody : List Char) : List Note :=
  match breakOn "## Notes\n".toList fileBody with
  | none => []
  | some (_, after) => readNotes after

/-- **A task whose head is plain is read as it is, up to its body, its criteria, its notes and its
    priority.** -/
theorem parseTask_serializeTask (hw : Written t) (h : PlainHead t) (now : String) :
    parseTask now (serializeTask t) = .ok
      { t with
        body := String.ofList (trimmed (scanTo sectionStop (fileBodyOf t)).1)
        acceptanceCriteria := criteriaOf (fileBodyOf t)
        notes := notesOf (fileBodyOf t)
        priority := t.priority.bind fun n => parseInt (integerText n) } := by
  obtain ⟨hhead, hvalue⟩ := read_oneLineHead (h.oneLineHead hw)
  obtain ⟨hid, htitle, hstatus, hdeps, hcreated⟩ := fieldOf_first t
  obtain ⟨hparentId, hassignee, hpriorityText⟩ := fieldOf_optional t
  have hcreatedSome : orUndefined t.created.toList = some t.created := by
    refine @orUndefined_getD (some t.created) fun v hv => ?_
    obtain rfl := some.inj hv
    intro hempty
    have htime := hw.created.1
    rw [hempty] at htime
    cases htime
  have hpriority : parseInt (fieldOf t "priority").toList =
      t.priority.bind fun n => parseInt (integerText n) := by
    rw [hpriorityText]
    cases t.priority with
    | none => rfl
    | some n => rw [map_some, getD_some, String.toList_ofList]; rfl
  unfold parseTask
  rw [hhead]
  dsimp only
  rw [hvalue "id" (by decide), hvalue "title" (by decide), hvalue "status" (by decide),
    hvalue "deps" (by decide), hvalue "parentId" (by decide), hvalue "created" (by decide),
    hvalue "assignee" (by decide), hvalue "priority" (by decide), hid, htitle, hstatus, hdeps,
    hcreated, hparentId, hassignee, hpriority,
    orUndefined_getD fun p hp => (h.parent hw hp).ne_empty,
    orUndefined_getD fun a ha => (h.assignee a ha).1, hcreatedSome, getD_some,
    (oneLine_status hw.status).2, parseDeps_depsText hw.deps, String.ofList_toList,
    String.ofList_toList]
  rfl

end Frogg.Tasks
