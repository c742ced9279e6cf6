/-
  Subject:   The streaming resampler of 16-bit mono audio (server/agent/pcm16-resampler.ts), over
             exact rational numbers.

  **`processChunks_eq`**: how the audio is cut into chunks makes no difference. The machine stores
  its integers with the low byte first.
-/
import Mathlib.Algebra.Order.Floor.Ring
import Mathlib.Algebra.Order.Floor.Semiring
import Mathlib.Data.Rat.Floor
import Mathlib.Data.Set.Card
import Mathlib.Tactic.Linarith
import Mathlib.Tactic.Ring
import Mathlib.Tactic.FieldSimp

namespace Frogg.Server

open List

/-! ## 1. Samples -/

/-- `Int16Array` over the bytes of a chunk, two bytes a sample. -/
def samplesOf : List UInt8 → List Int16
  | low :: high :: rest => Int16.ofNat (low.toNat + 256 * high.toNat) :: samplesOf rest
  | _ => []

/-- The bytes of an `Int16Array`. -/
def bytesOf (samples : List Int16) : List UInt8 :=
  samples.flatMap fun s =>
    [UInt8.ofNat (s.toBitVec.toNat % 256), UInt8.ofNat (s.toBitVec.toNat / 256)]

/-- `Math.round` -/
def mathRound (x : ℚ) : ℤ := ⌊x + 1 / 2⌋

/-! ## 2. The resampler -/

/-- Rates are positive. -/
structure Rates where
  inputRate : ℚ
  outputRate : ℚ
  inputRate_pos : 0 < inputRate
  outputRate_pos : 0 < outputRate

def Rates.step (rates : Rates) : ℚ := rates.inputRate / rates.outputRate

theorem Rates.step_pos (rates : Rates) : 0 < rates.step :=
  div_pos rates.inputRate_pos rates.outputRate_pos

structure Pcm16MonoResampler where
  rates : Rates
  pos : ℚ
  carrySample : Option Int16

namespace Pcm16MonoResampler

def create (rates : Rates) : Pcm16MonoResampler where
  rates
  pos := 0
  carrySample := none

/-- The positions that the loop stops at, and the position that ends it. -/
def positions (rates : Rates) (maxPos pos : ℚ) : List ℚ × ℚ :=
  if pos < maxPos then
    let (later, last) := positions rates maxPos (pos + rates.step)
    (pos :: later, last)
  else ([], pos)
termination_by ⌈(maxPos - pos) / rates.step⌉₊
decreasing_by
  have hstep := rates.step_pos
  have hshift : (maxPos - (pos + rates.step)) / rates.step = (maxPos - pos) / rates.step - 1 := by
    field_simp
    ring
  rw [hshift]
  have hpos : 0 < ⌈(maxPos - pos) / rates.step⌉₊ :=
    Nat.ceil_pos.mpr (div_pos (by linarith) hstep)
  rw [Nat.ceil_sub_one]
  omega

/-- `src[i]`; what is out of range is `undefined`. -/
def read (src : List ℚ) (i : ℤ) : Option ℚ :=
  if i < 0 then none else src[i.toNat]?

/-- The sample between two of the source; without one of them it is `NaN`, which is stored as 0. -/
def sampleAt (src : List ℚ) (pos : ℚ) : Int16 :=
  let i := ⌊pos⌋
  let frac := pos - i
  match read src i, read src (i + 1) with
  | some s0, some s1 =>
    let sample := s0 + (s1 - s0) * frac
    let clamped := max (-1) (min 1 sample)
    Int16.ofInt (mathRound (clamped * 32767))
  | _, _ => 0

section

variable (r : Pcm16MonoResampler) (srcChunk : List Int16)

/-- The source of a chunk: its samples behind the carried one. -/
def source : List ℚ :=
  (r.carrySample.toList ++ srcChunk).map fun s => s.toInt / 32768

/-- A chunk that is not empty. -/
def processSamples : List Int16 × Pcm16MonoResampler :=
  let src := r.source srcChunk
  if src.length < 2 then ([], { r with carrySample := srcChunk.getLast?.or r.carrySample })
  else
    let maxPos : ℚ := src.length - 1
    let (stops, last) := positions r.rates maxPos r.pos
    let out := stops.map (sampleAt src)
    let pos := last - maxPos
    (out, { r with pos := if pos < 0 then 0 else pos, carrySample := srcChunk.getLast? })

/-- `none` where it throws. -/
def processChunk (pcm16le : List UInt8) : Option (List UInt8 × Pcm16MonoResampler) :=
  if pcm16le.length = 0 then some ([], r)
  else if pcm16le.length % 2 ≠ 0 then none
  else
    let (out, r) := r.processSamples (samplesOf pcm16le)
    some (bytesOf out, r)

end

/-! ## 3. Positions -/

section Positions

variable (rates : Rates) {maxPos pos : ℚ}

theorem positions_of_lt (h : pos < maxPos) : positions rates maxPos pos =
      (pos :: (positions rates maxPos (pos + rates.step)).1,
        (positions rates maxPos (pos + rates.step)).2) := by
  rw [positions, if_pos h]

theorem positions_of_le (h : maxPos ≤ pos) : positions rates maxPos pos = ([], pos) := by
  rw [positions, if_neg (not_lt.mpr h)]

/-- The loop ends behind the last position. -/
theorem maxPos_le_last (maxPos pos : ℚ) : maxPos ≤ (positions rates maxPos pos).2 := by
  induction pos using positions.induct rates maxPos with
  | case1 pos hlt later last hrest ih => rw [positions_of_lt rates hlt]; exact ih
  | case2 pos hge => rw [positions_of_le rates (not_lt.mp hge)]; exact not_lt.mp hge

theorem mem_positions {p : ℚ} (h : p ∈ (positions rates maxPos pos).1) : pos ≤ p ∧ p < maxPos := by
  induction pos using positions.induct rates maxPos with
  | case1 pos hlt later last hrest ih =>
    have hstep := rates.step_pos
    rw [positions_of_lt rates hlt] at h
    rcases mem_cons.mp h with rfl | h
    · exact ⟨le_refl p, hlt⟩
    · obtain ⟨hle, hless⟩ := ih h; exact ⟨by linarith, hless⟩
  | case2 pos hge => rw [positions_of_le rates (not_lt.mp hge)] at h; cases h

/-- The loop over a later part of the audio is the same loop. -/
theorem positions_shift (maxPos pos d : ℚ) :
    positions rates (maxPos + d) (pos + d) =
      ((positions rates maxPos pos).1.map (· + d), (positions rates maxPos pos).2 + d) := by
  induction pos using positions.induct rates maxPos with
  | case1 pos hlt later last hrest ih =>
    have hnext : pos + d + rates.step = pos + rates.step + d := by ring
    rw [positions_of_lt rates hlt, positions_of_lt rates (by linarith), hnext, ih]
    rfl
  | case2 pos hge =>
    have hle := not_lt.mp hge
    rw [positions_of_le rates hle, positions_of_le rates (by linarith)]
    rfl

/-- A longer loop goes on where a shorter one ends. -/
theorem positions_append {maxPos maxPos' : ℚ} (h : maxPos ≤ maxPos') (pos : ℚ) :
    positions rates maxPos' pos =
      ((positions rates maxPos pos).1 ++
          (positions rates maxPos' (positions rates maxPos pos).2).1,
        (positions rates maxPos' (positions rates maxPos pos).2).2) := by
  induction pos using positions.induct rates maxPos with
  | case1 pos hlt later last hrest ih =>
    rw [positions_of_lt rates hlt, positions_of_lt rates (lt_of_lt_of_le hlt h), ih]
    rfl
  | case2 pos hge => rw [positions_of_le rates (not_lt.mp hge)]; rfl

/-- The loop makes as many stops as there are steps before the last position. -/
theorem lt_length_positions (maxPos pos : ℚ) (k : ℕ) :
    k < (positions rates maxPos pos).1.length ↔ pos + k * rates.step < maxPos := by
  have hstep := rates.step_pos
  induction pos using positions.induct rates maxPos generalizing k with
  | case1 pos hlt later last hrest ih =>
    rw [positions_of_lt rates hlt, length_cons]
    cases k with
    | zero =>
      have hzero : pos + ((0 : ℕ) : ℚ) * rates.step = pos := by ring
      rw [hzero]
      exact ⟨fun _ => hlt, fun _ => Nat.succ_pos _⟩
    | succ k =>
      have hsucc : pos + ((k + 1 : ℕ) : ℚ) * rates.step = pos + rates.step + k * rates.step := by
        push_cast
        ring
      rw [hsucc, Nat.succ_lt_succ_iff]
      exact ih k
  | case2 pos hge =>
    have hle := not_lt.mp hge
    have hnonneg : 0 ≤ (k : ℚ) * rates.step := mul_nonneg (Nat.cast_nonneg k) hstep.le
    rw [positions_of_le rates hle]
    constructor
    · intro h; cases h
    · intro h; linarith

end Positions

/-! ## 4. Samples in a longer source -/

variable {src : List ℚ}

theorem read_of_nonneg {i : ℤ} (h : 0 ≤ i) : read src i = src[i.toNat]? := by
  unfold read
  rw [if_neg (not_lt.mpr h)]

variable {p : ℚ}

/-- A position before the last sample lies between two samples. -/
theorem floor_range (hp : 0 ≤ p) (hmax : p < src.length - 1) : 0 ≤ ⌊p⌋ ∧ ⌊p⌋ + 1 < src.length := by
  refine ⟨Int.floor_nonneg.mpr hp, ?_⟩
  have hfloor : ((⌊p⌋ : ℤ) : ℚ) ≤ p := Int.floor_le p
  have hlt : ((⌊p⌋ + 1 : ℤ) : ℚ) < ((src.length : ℤ) : ℚ) := by push_cast; linarith
  exact_mod_cast hlt

theorem sampleAt_append (more : List ℚ) (hp : 0 ≤ p) (hmax : p < src.length - 1) :
    sampleAt (src ++ more) p = sampleAt src p := by
  obtain ⟨hlow, hhigh⟩ := floor_range hp hmax
  have hread : ∀ i : ℤ, 0 ≤ i → i < src.length → read (src ++ more) i = read src i := by
    intro i hi hlt
    rw [read_of_nonneg hi, read_of_nonneg hi, getElem?_append_left (by omega)]
  unfold sampleAt
  dsimp only
  rw [hread _ hlow (by omega), hread _ (by omega) hhigh]

theorem sampleAt_shift (before src : List ℚ) (hp : 0 ≤ p) :
    sampleAt (before ++ src) (p + before.length) = sampleAt src p := by
  have hfloor : ⌊p + (before.length : ℚ)⌋ = ⌊p⌋ + before.length := by
    exact_mod_cast Int.floor_add_natCast p before.length
  have hlow : 0 ≤ ⌊p⌋ := Int.floor_nonneg.mpr hp
  have hread : ∀ i : ℤ, 0 ≤ i → read (before ++ src) (i + before.length) = read src i := by
    intro i hi
    rw [read_of_nonneg hi, read_of_nonneg (by omega), getElem?_append_right (by omega)]
    congr 1
    omega
  have hnext : ⌊p⌋ + (before.length : ℤ) + 1 = ⌊p⌋ + 1 + before.length := by ring
  have hfrac : p + (before.length : ℚ) - ((⌊p⌋ + before.length : ℤ) : ℚ) = p - ⌊p⌋ := by
    push_cast
    ring
  unfold sampleAt
  dsimp only
  rw [hfloor, hfrac, hnext, hread _ hlow, hread _ (by omega)]

/-! ## 5. Chunks -/

/-- The samples as the source of one chunk holds them. -/
def normalized (samples : List Int16) : List ℚ := samples.map fun s => s.toInt / 32768

/-- What the samples resample to, as one chunk. -/
def resampled (rates : Rates) (samples : List Int16) : List Int16 :=
  (positions rates (samples.length - 1) 0).1.map (sampleAt (normalized samples))

/-- The resampler behind the samples. -/
def behind (rates : Rates) (samples : List Int16) : Pcm16MonoResampler :=
  match samples.getLast? with
  | none => create rates
  | some last =>
    ⟨rates, (positions rates (samples.length - 1) 0).2 - (samples.length - 1), some last⟩

variable (rates : Rates) (samples : List Int16)

theorem behind_append_singleton (last : Int16) : behind rates (samples ++ [last]) =
      ⟨rates, (positions rates samples.length 0).2 - samples.length, some last⟩ := by
  have hlength : (((samples ++ [last]).length : ℕ) : ℚ) - 1 = samples.length := by
    rw [length_append, length_singleton]
    push_cast
    ring
  unfold behind
  rw [getLast?_append_of_ne_nil _ (cons_ne_nil _ _), hlength]
  rfl

/-- The position of the resampler is never negative. -/
theorem behind_pos_nonneg : 0 ≤ (behind rates samples).pos := by
  unfold behind
  split
  · exact le_refl (0 : ℚ)
  · exact sub_nonneg.mpr (maxPos_le_last rates _ _)

/-- Between chunks the position is only rebased: it is not below the last sample. -/
theorem processSamples_of_two {r : Pcm16MonoResampler} {srcChunk : List Int16}
    (h : 2 ≤ (r.source srcChunk).length) :
    r.processSamples srcChunk =
      ((positions r.rates ((r.source srcChunk).length - 1) r.pos).1.map
          (sampleAt (r.source srcChunk)),
        ⟨r.rates, (positions r.rates ((r.source srcChunk).length - 1) r.pos).2 -
            ((r.source srcChunk).length - 1), srcChunk.getLast?⟩) := by
  have hlast := maxPos_le_last r.rates ((r.source srcChunk).length - 1) r.pos
  unfold processSamples
  dsimp only
  rw [if_neg (by omega), if_neg (not_lt.mpr (sub_nonneg.mpr hlast))]

/-- **One chunk**: what comes out is what the audio up to its end resamples to, but for what the
    audio before it does. -/
theorem processSamples_behind (samples srcChunk : List Int16) (hchunk : srcChunk ≠ []) :
    ∃ out, (behind rates samples).processSamples srcChunk =
        (out, behind rates (samples ++ srcChunk)) ∧
      resampled rates (samples ++ srcChunk) = resampled rates samples ++ out := by
  obtain ⟨front, final, rfl⟩ := (eq_nil_or_concat' srcChunk).resolve_left hchunk
  have hfinal : (front ++ [final]).getLast? = some final := getLast?_concat
  rw [← append_assoc, behind_append_singleton]
  rcases eq_nil_or_concat' samples with rfl | ⟨before, carried, rfl⟩
  · -- the first chunk is a source of its own
    have hempty : resampled rates [] = [] := by
      unfold resampled
      rw [positions_of_le rates (by simp)]
      rfl
    have hsource : (create rates).source (front ++ [final]) = normalized (front ++ [final]) := rfl
    have hlength : (((normalized (front ++ [final])).length : ℕ) : ℚ) - 1 = front.length := by
      simp [normalized]
    simp only [hempty, nil_append]
    show ∃ out, (create rates).processSamples (front ++ [final]) = _ ∧ _
    by_cases hfront : front = []
    · obtain rfl := hfront
      refine ⟨[], ?_, ?_⟩
      · have hstart : positions rates (([] : List Int16).length : ℚ) 0 = ([], 0) :=
          positions_of_le rates (by simp)
        unfold processSamples
        rw [if_pos (by rw [hsource]; simp [normalized]), hstart]
        simp [create]
      · unfold resampled; rw [positions_of_le rates (by simp)]; rfl
    · have htwo : 2 ≤ ((create rates).source (front ++ [final])).length := by
        have hpos := length_pos_iff.mpr hfront
        rw [hsource]
        simp [normalized]
        omega
      refine ⟨_, ?_, rfl⟩
      rw [processSamples_of_two htwo, hsource, hlength, hfinal]
      unfold resampled
      have hcount : (((front ++ [final]).length : ℕ) : ℚ) - 1 = front.length := by simp
      rw [hcount]
      rfl
  · -- the carried sample stands where the audio before it ended
    have hsource : (behind rates (before ++ [carried])).source (front ++ [final]) =
        normalized (carried :: (front ++ [final])) := by
      rw [behind_append_singleton]
      rfl
    have hlength : (((normalized (carried :: (front ++ [final]))).length : ℕ) : ℚ) - 1 =
        (front.length + 1 : ℕ) := by simp [normalized]
    have htwo : 2 ≤ ((behind rates (before ++ [carried])).source (front ++ [final])).length := by
      rw [hsource]
      simp [normalized]
    obtain ⟨start, hstart⟩ : ∃ start, (behind rates (before ++ [carried])).pos = start := ⟨_, rfl⟩
    have hnonneg : 0 ≤ start := hstart ▸ behind_pos_nonneg rates _
    have hreached : (positions rates before.length 0).2 = start + before.length := by
      rw [← hstart, behind_append_singleton]
      ring
    have htotal : (((before ++ [carried] ++ front).length : ℕ) : ℚ) =
        (front.length + 1 : ℕ) + before.length := by
      simp
      ring
    have hshift := positions_shift rates (front.length + 1 : ℕ) start before.length
    have happend := @positions_append rates before.length
      ((front.length + 1 : ℕ) + before.length) (le_add_of_nonneg_left (Nat.cast_nonneg _)) 0
    rw [hreached, hshift] at happend
    refine ⟨(positions rates (front.length + 1 : ℕ) start).1.map
      (sampleAt (normalized (carried :: (front ++ [final])))), ?_, ?_⟩
    · have hrates : (behind rates (before ++ [carried])).rates = rates := by
        rw [behind_append_singleton]
      rw [processSamples_of_two htwo, hsource, hlength, hstart, hfinal, htotal, happend, hrates,
        add_sub_add_right_eq_sub]
    · have hall : (((before ++ [carried] ++ (front ++ [final])).length : ℕ) : ℚ) - 1 =
          (front.length + 1 : ℕ) + before.length := by
        simp
        ring
      have hold : (((before ++ [carried]).length : ℕ) : ℚ) - 1 = before.length := by simp
      have hleft : normalized (before ++ [carried] ++ (front ++ [final])) =
          normalized (before ++ [carried]) ++ normalized (front ++ [final]) := map_append
      have hright : normalized (before ++ [carried] ++ (front ++ [final])) =
          normalized before ++ normalized (carried :: (front ++ [final])) := by
        unfold normalized
        rw [append_assoc, map_append]
        rfl
      have hcount : (((normalized before).length : ℕ) : ℚ) = before.length := by simp [normalized]
      unfold resampled
      rw [append_assoc (before ++ [carried]), hall, hold, happend, map_append, map_map]
      congr 1
      · refine map_congr_left fun p hp => ?_
        obtain ⟨hlow, hhigh⟩ := mem_positions rates hp
        rw [hleft]
        exact sampleAt_append _ hlow (by simpa [normalized] using hhigh)
      · refine map_congr_left fun p hp => ?_
        obtain ⟨hlow, -⟩ := mem_positions rates hp
        rw [Function.comp_apply, hright, ← hcount]
        exact sampleAt_shift _ _ (le_trans hnonneg hlow)

/-! ## 6. Audio in chunks -/

/-- A chunk of whole samples, at least one. -/
abbrev Chunk := { pcm16le : List UInt8 // pcm16le ≠ [] ∧ pcm16le.length % 2 = 0 }

/-- Chunks one after the other: the bytes that come out, and the resampler behind them. -/
def processChunks (r : Pcm16MonoResampler) : List Chunk → Option (List UInt8 × Pcm16MonoResampler)
  | [] => some ([], r)
  | chunk :: chunks => do
    let (out, r) ← r.processChunk chunk.1
    let (later, r) ← processChunks r chunks
    return (out ++ later, r)

theorem samplesOf_length : ∀ bytes : List UInt8, bytes.length % 2 = 0 →
    2 * (samplesOf bytes).length = bytes.length
  | [], _ => rfl
  | [_], h => by simp at h
  | low :: high :: rest, h => by
    have hrest := samplesOf_length rest (by simp at h; omega)
    simp only [samplesOf, length_cons]
    omega

theorem samplesOf_append : ∀ bytes more : List UInt8, bytes.length % 2 = 0 →
    samplesOf (bytes ++ more) = samplesOf bytes ++ samplesOf more
  | [], _, _ => rfl
  | [_], _, h => by simp at h
  | low :: high :: rest, more, h => by
    have hrest := samplesOf_append rest more (by simp at h; omega)
    simp only [cons_append, samplesOf, hrest]

theorem bytesOf_append (samples more : List Int16) :
    bytesOf (samples ++ more) = bytesOf samples ++ bytesOf more := flatMap_append

theorem Chunk.samples_ne_nil (chunk : Chunk) : samplesOf chunk.1 ≠ [] := by
  have hlength := samplesOf_length chunk.1 chunk.2.2
  have hpos := length_pos_iff.mpr chunk.2.1
  exact length_pos_iff.mp (by omega)

variable (chunks : List Chunk)

/-- The samples of all the chunks. -/
def samplesOfChunks : List Int16 := chunks.flatMap fun chunk => samplesOf chunk.1

theorem processChunk_behind (chunk : Chunk) : ∃ out, (behind rates samples).processChunk chunk.1 =
        some (bytesOf out, behind rates (samples ++ samplesOf chunk.1)) ∧
      resampled rates (samples ++ samplesOf chunk.1) = resampled rates samples ++ out := by
  obtain ⟨out, hprocessed, hout⟩ := processSamples_behind rates samples (samplesOf chunk.1)
    chunk.samples_ne_nil
  refine ⟨out, ?_, hout⟩
  have hpos := length_pos_iff.mpr chunk.2.1
  unfold processChunk
  rw [if_neg (by omega), if_neg (by rw [chunk.2.2]; simp), hprocessed]

/-- **Every run**: the resampler is behind the samples it was given, and has put out what they
    resample to. -/
theorem processChunks_behind : ∃ out, (behind rates samples).processChunks chunks =
        some (bytesOf out, behind rates (samples ++ samplesOfChunks chunks)) ∧
      resampled rates (samples ++ samplesOfChunks chunks) = resampled rates samples ++ out := by
  induction chunks generalizing samples with
  | nil => exact ⟨[], by simp [processChunks, samplesOfChunks, bytesOf], by simp [samplesOfChunks]⟩
  | cons chunk chunks ih =>
    obtain ⟨first, hfirst, hfirstOut⟩ := processChunk_behind rates samples chunk
    obtain ⟨later, hlater, hlaterOut⟩ := ih (samples ++ samplesOf chunk.1)
    have hsamples : samples ++ samplesOfChunks (chunk :: chunks) =
        samples ++ samplesOf chunk.1 ++ samplesOfChunks chunks := by
      unfold samplesOfChunks
      rw [flatMap_cons, append_assoc]
    refine ⟨first ++ later, ?_, ?_⟩
    · rw [processChunks, hfirst, hsamples, bytesOf_append]; simp [hlater]
    · rw [hsamples, hlaterOut, hfirstOut, append_assoc]

theorem samplesOf_flatten :
    samplesOf (chunks.flatMap fun chunk => chunk.1) = samplesOfChunks chunks := by
  induction chunks with
  | nil => rfl
  | cons chunk chunks ih => rw [flatMap_cons, samplesOf_append _ _ chunk.2.2, ih]; rfl

theorem flatten_length : (chunks.flatMap fun chunk => chunk.1).length % 2 = 0 := by
  induction chunks with
  | nil => rfl
  | cons chunk chunks ih => rw [flatMap_cons, length_append]; omega

/-- **How audio is cut into chunks makes no difference.** At all rates and for all chunks: what
    comes out is what the whole comes to as one chunk, `resampled`; there are as many samples as
    positions before the last sample; and in every call each position that is read lies between two
    samples of the source, and the position behind the loop is not below the last one. -/
theorem processChunks_eq (rates : Rates) (chunks : List Chunk) :
    (∃ out r, (create rates).processChunks chunks = some (bytesOf out, r) ∧
      (∃ r', (create rates).processChunk (chunks.flatMap fun chunk => chunk.1) =
        some (bytesOf out, r')) ∧
      out.length = { k : ℕ | (k : ℚ) * rates.inputRate / rates.outputRate <
        (samplesOfChunks chunks).length - 1 }.ncard) ∧
    ∀ before chunk after, chunks = before ++ chunk :: after → ∃ out r,
      (create rates).processChunks before = some (out, r) ∧
      (∀ p ∈ (positions r.rates ((r.source (samplesOf chunk.1)).length - 1) r.pos).1,
        0 ≤ ⌊p⌋ ∧ ⌊p⌋ + 1 < (r.source (samplesOf chunk.1)).length) ∧
      0 ≤ (positions r.rates ((r.source (samplesOf chunk.1)).length - 1) r.pos).2 -
        ((r.source (samplesOf chunk.1)).length - 1) := by
  have hcreate : behind rates [] = create rates := rfl
  have hempty : resampled rates [] = [] := by
    unfold resampled
    rw [positions_of_le rates (by simp)]
    rfl
  constructor
  · obtain ⟨out, hout, hresampled⟩ := processChunks_behind rates [] chunks
    rw [hempty, nil_append, nil_append] at hresampled
    refine ⟨out, _, hout, ?_, ?_⟩
    · cases chunks with
      | nil =>
        refine ⟨create rates, ?_⟩
        have hnil : out = [] := by rw [← hresampled]; exact hempty
        rw [hnil]
        rfl
      | cons chunk chunks =>
        have hne : (chunk :: chunks).flatMap (fun chunk => chunk.1) ≠ [] := by
          exact append_ne_nil_of_left_ne_nil chunk.2.1 _
        obtain ⟨whole, hwhole, hwholeOut⟩ := processChunk_behind rates []
          ⟨_, hne, flatten_length (chunk :: chunks)⟩
        rw [hempty, nil_append, nil_append, samplesOf_flatten, hresampled] at hwholeOut
        rw [hwholeOut]
        exact ⟨_, hwhole⟩
    · have hcount : { k : ℕ | (k : ℚ) * rates.inputRate / rates.outputRate <
          (samplesOfChunks chunks).length - 1 } = (Finset.range out.length : Set ℕ) := by
        ext k
        have hstep : (k : ℚ) * rates.inputRate / rates.outputRate = 0 + k * rates.step := by
          rw [Rates.step, mul_div_assoc, zero_add]
        rw [Set.mem_ofPred_eq, hstep, ← lt_length_positions rates, Finset.mem_coe,
          Finset.mem_range, ← hresampled]
        unfold resampled
        rw [length_map]
      rw [hcount, Set.ncard_coe_finset, Finset.card_range]
  · rintro before chunk after rfl
    obtain ⟨out, hout, -⟩ := processChunks_behind rates [] before
    refine ⟨bytesOf out, _, hout, ?_, sub_nonneg.mpr (maxPos_le_last _ _ _)⟩
    intro p hp
    obtain ⟨hlow, hhigh⟩ := mem_positions _ hp
    exact floor_range (le_trans (behind_pos_nonneg rates _) hlow) hhigh

end Pcm16MonoResampler

end Frogg.Server
