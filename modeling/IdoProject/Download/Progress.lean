import IdoProject.Download.Threads
import Mathlib.Algebra.Order.Ring.Int

/-!
# The progress of a download

The copy loop counts the bytes in 64 bits, and at the end of a round broadcasts
the percentage when it is above the last one.  As long as a hundred times the
content length fits into a `long`, the percentages are exact and rise to 100.
-/

namespace IdoProject
namespace Download

open Java

/-- The value of a progress broadcast. -/
def Statement.progress? : Statement → Option JInt
  | .sendBroadcast (.progress _ progress) => some progress
  | _ => none

namespace Call

/-- The values that the end of a round broadcasts. -/
def reports (call : Call) : List JInt :=
  match call.stage with
  | .looping pending => pending.filterMap Statement.progress?
  | _ => []

/-- A callback at the beginning of its copy loop, for a body of known length. -/
def begun (call : Call) (length : Nat) : Call :=
  { call with
    fileLength := Int64.ofNat length
    total := 0
    lastProgress := -1 }

/-- The callback after rounds of the copy loop with chunks of these sizes. -/
def copied (call : Call) (counts : List Nat) : Call :=
  counts.foldl afterWrite call

/-- The values that the copy loop broadcasts for chunks of these sizes. -/
def loopProgress : Call → List Nat → List JInt
  | _, [] => []
  | call, count :: counts =>
      (call.afterWrite count).reports ++
        (call.afterWrite count).loopProgress counts

/-- The values that a download broadcasts: the one of its start, and those of
its copy loop. -/
def downloadProgress
    (model : Model)
    (call : Call)
    (counts : List Nat) : List JInt :=
  (downloadModel model).filterMap Statement.progress? ++
    call.loopProgress counts

/-- A callback that has counted so many bytes of the length. -/
structure Counts (call : Call) (length sum : Nat) : Prop where
  fileLength : call.fileLength = Int64.ofNat length
  total : call.total = Int64.ofNat sum

variable {call : Call}
variable {length sum count : Nat}
variable {counts : List Nat}

theorem counts_begun :
    (call.begun length).Counts length 0 where
  fileLength := rfl
  total := rfl

/-- A percentage of the length. -/
theorem percent_le
    (within : sum ≤ length) :
    sum * 100 / length ≤ 100 := by
  apply Nat.div_le_of_le_mul
  omega

/-- Within the bound neither the product nor the narrowing loses anything. -/
theorem Counts.lossless
    (counted : call.Counts length sum)
    (bounded : length ≤ (2 ^ 63 - 1) / 100)
    (within : sum ≤ length) :
    call.total.toInt = sum ∧
      (call.total * 100).toInt = call.total.toInt * 100 ∧
      call.progress.toInt = (call.total * 100 / call.fileLength).toInt ∧
      call.progress.toInt = (sum * 100 / length : Nat) := by
  have total : call.total.toInt = sum := by
    rw [counted.total, Int64.toInt_ofNat_of_lt (by omega)]
  have fileLength : call.fileLength.toInt = length := by
    rw [counted.fileLength, Int64.toInt_ofNat_of_lt (by omega)]
  have product : (call.total * 100).toInt = sum * 100 := by
    rw [Int64.toInt_mul, total]
    apply Int.bmod_eq_of_le
    · change _ ≤ (sum : Int) * 100
      omega
    · change (sum : Int) * 100 < _
      omega
  have quotient : (call.total * 100 / call.fileLength).toInt =
      (sum * 100 / length : Nat) := by
    rw [Int64.toInt_div_of_ne_right, product, fileLength]
    · exact Int.ofNat_tdiv (sum * 100) length
    · intro negative
      rw [negative] at fileLength
      have : (-1 : Int64).toInt = -1 := by decide
      omega
  have small := percent_le within
  have narrowed : call.progress.toInt =
      (call.total * 100 / call.fileLength).toInt := by
    rw [progress, Int64.toInt_toInt32, quotient]
    generalize sum * 100 / length = percent at small ⊢
    apply Int.bmod_eq_of_le <;> omega
  exact ⟨total, product.trans (by rw [total]), narrowed,
    narrowed.trans quotient⟩

/-! ## One round -/

/-- The end of a round counts the chunk. -/
theorem Counts.more
    (counted : call.Counts length sum)
    (count : Nat) :
    (call.afterWrite count).Counts length (sum + count) := by
  have total : call.total + Int64.ofNat count = Int64.ofNat (sum + count) := by
    rw [counted.total, ← Int64.ofNat_add]
  unfold Call.afterWrite
  dsimp only
  split <;> exact ⟨counted.fileLength, total⟩

theorem Counts.copied
    (counted : call.Counts length sum) :
    (call.copied counts).Counts length (sum + counts.sum) := by
  induction counts generalizing call sum with
  | nil => exact counted
  | cons count counts inductionHypothesis =>
      rw [List.sum_cons, ← Nat.add_assoc]
      exact inductionHypothesis (counted.more count)

/-- The end of a round broadcasts the percentage if it is above the last one. -/
theorem Counts.afterWrite
    (counted : call.Counts length sum)
    (positive : 0 < length)
    (bounded : length ≤ (2 ^ 63 - 1) / 100)
    (within : sum + count ≤ length)
    (risen : call.lastProgress.toInt ≤ ((sum + count) * 100 / length : Nat)) :
    (call.afterWrite count).lastProgress.toInt =
        ((sum + count) * 100 / length : Nat) ∧
      (call.afterWrite count).reports.map Int32.toInt =
        if call.lastProgress.toInt < ((sum + count) * 100 / length : Nat) then
          [(((sum + count) * 100 / length : Nat) : Int)]
        else [] := by
  have known : call.fileLength > 0 := by
    rw [gt_iff_lt, Int64.lt_iff_toInt_lt, counted.fileLength,
      Int64.toInt_ofNat_of_lt (by omega)]
    change (0 : Int) < length
    omega
  -- The callback with the chunk counted, before the percentage is looked at.
  have next : Counts
      { call with
        total := call.total + Int64.ofNat count
        written := call.written + count } length (sum + count) :=
    ⟨counted.fileLength, by
      change call.total + Int64.ofNat count = _
      rw [counted.total, ← Int64.ofNat_add]⟩
  obtain ⟨-, -, -, value⟩ := next.lossless bounded within
  have rises (above : Int32.toInt call.lastProgress <
      ((sum + count) * 100 / length : Nat)) :
      progress
        { call with
          total := call.total + Int64.ofNat count
          written := call.written + count } > call.lastProgress := by
    rw [gt_iff_lt, Int32.lt_iff_toInt_lt, value]
    exact above
  unfold Call.afterWrite
  dsimp only
  by_cases above : call.lastProgress.toInt <
      ((sum + count) * 100 / length : Nat)
  case pos =>
    rw [if_pos ⟨known, rises above⟩, if_pos above]
    refine ⟨value, ?_⟩
    rw [← value]
    rfl
  case neg =>
    have same : ¬(call.fileLength > 0 ∧
        progress
          { call with
            total := call.total + Int64.ofNat count
            written := call.written + count } > call.lastProgress) := by
      rintro ⟨-, greater⟩
      rw [gt_iff_lt, Int32.lt_iff_toInt_lt, value] at greater
      exact above greater
    rw [if_neg same, if_neg above]
    refine ⟨?_, rfl⟩
    change call.lastProgress.toInt = _
    omega

/-! ## The whole loop -/

/-- Percentages rise with the number of bytes. -/
theorem percent_mono
    {more : Nat}
    (less : sum ≤ more) :
    sum * 100 / length ≤ more * 100 / length :=
  Nat.div_le_div_right (Nat.mul_le_mul_right 100 less)

/-- The values of the loop rise from the last one on to the percentage of all
chunks, which is the last value then. -/
theorem Counts.loopProgress
    (counted : call.Counts length sum)
    (positive : 0 < length)
    (bounded : length ≤ (2 ^ 63 - 1) / 100)
    (within : sum + counts.sum ≤ length)
    (risen : call.lastProgress.toInt ≤ (sum * 100 / length : Nat)) :
    (∀ value ∈ (call.loopProgress counts).map Int32.toInt,
        call.lastProgress.toInt < value ∧
          value ≤ ((sum + counts.sum) * 100 / length : Nat)) ∧
      ((call.loopProgress counts).map Int32.toInt).Pairwise (· < ·) ∧
      (counts ≠ [] →
        (call.lastProgress.toInt ::
          (call.loopProgress counts).map Int32.toInt).getLast? =
            some (((sum + counts.sum) * 100 / length : Nat) : Int)) := by
  induction counts generalizing call sum with
  | nil => simp [Call.loopProgress]
  | cons count counts inductionHypothesis =>
      rw [List.sum_cons, ← Nat.add_assoc] at within ⊢
      have chunk : sum + count ≤ length := by omega
      have higher : call.lastProgress.toInt ≤
          ((sum + count) * 100 / length : Nat) :=
        Int.le_trans risen
          (Int.ofNat_le.mpr (percent_mono (Nat.le_add_right _ _)))
      obtain ⟨last, reports⟩ :=
        counted.afterWrite positive bounded chunk higher
      obtain ⟨bounds, sorted, final⟩ :=
        inductionHypothesis (counted.more count) within (Int.le_of_eq last)
      rw [last] at bounds final
      have total : (((sum + count) * 100 / length : Nat) : Int) ≤
          ((sum + count + counts.sum) * 100 / length : Nat) :=
        Int.ofNat_le.mpr (percent_mono (Nat.le_add_right _ _))
      have finished : (((sum + count) * 100 / length : Nat) : Int) ::
          ((call.afterWrite count).loopProgress counts).map Int32.toInt ≠ [] ∧
        ((((sum + count) * 100 / length : Nat) : Int) ::
          ((call.afterWrite count).loopProgress counts).map
            Int32.toInt).getLast? =
              some (((sum + count + counts.sum) * 100 / length : Nat) : Int) := by
        refine ⟨List.cons_ne_nil _ _, ?_⟩
        cases counts with
        | nil => rfl
        | cons => exact final (List.cons_ne_nil _ _)
      rw [Call.loopProgress, List.map_append, reports]
      generalize ((call.afterWrite count).loopProgress counts).map
        Int32.toInt = later at bounds sorted finished ⊢
      generalize (((sum + count) * 100 / length : Nat) : Int) = now
        at higher bounds total finished ⊢
      split
      case isTrue above =>
        refine ⟨?_, ?_, fun _ => ?_⟩
        · rw [List.singleton_append, List.forall_mem_cons]
          refine ⟨⟨above, total⟩, fun value member => ?_⟩
          obtain ⟨low, high⟩ := bounds value member
          exact ⟨Int.lt_trans above low, high⟩
        · rw [List.singleton_append, List.pairwise_cons]
          exact ⟨fun value member => (bounds value member).1, sorted⟩
        · rw [List.singleton_append, List.getLast?_cons_of_ne_nil finished.1]
          exact finished.2
      case isFalse notAbove =>
        obtain rfl : call.lastProgress.toInt = now := by omega
        exact ⟨bounds, sorted, fun _ => finished.2⟩

theorem lastProgress_begun :
    (call.begun length).lastProgress.toInt = -1 := by
  change (-1 : Int32).toInt = -1
  decide

/-- From the start of the loop. -/
theorem loopProgress_begun
    (positive : 0 < length)
    (bounded : length ≤ (2 ^ 63 - 1) / 100)
    (within : counts.sum ≤ length) :
    (∀ value ∈ ((call.begun length).loopProgress counts).map Int32.toInt,
        -1 < value ∧ value ≤ (counts.sum * 100 / length : Nat)) ∧
      (((call.begun length).loopProgress counts).map Int32.toInt).Pairwise
        (· < ·) ∧
      (counts ≠ [] →
        (-1 :: ((call.begun length).loopProgress counts).map
          Int32.toInt).getLast? =
            some ((counts.sum * 100 / length : Nat) : Int)) := by
  have risen : (call.begun length).lastProgress.toInt ≤
      (0 * 100 / length : Nat) := by
    rw [lastProgress_begun]
    exact Int.le_trans (by decide) (Int.natCast_nonneg _)
  have all := @Counts.loopProgress _ _ _ counts (@counts_begun call length)
    positive bounded (by rwa [Nat.zero_add]) risen
  rwa [Nat.zero_add, lastProgress_begun] at all

/-- The values of the loop are percentages. -/
theorem range_loopProgress
    (positive : 0 < length)
    (bounded : length ≤ (2 ^ 63 - 1) / 100)
    (within : counts.sum ≤ length) :
    ∀ value ∈ (call.begun length).loopProgress counts,
      0 ≤ value.toInt ∧ value.toInt ≤ 100 := by
  intro value member
  obtain ⟨low, high⟩ := (loopProgress_begun positive bounded within).1
    value.toInt (List.mem_map_of_mem member)
  have percent := percent_le within
  generalize counts.sum * 100 / length = reached at high percent
  omega

/-- The last value of the loop for a whole body. -/
theorem getLast?_loopProgress
    (positive : 0 < length)
    (bounded : length ≤ (2 ^ 63 - 1) / 100)
    (whole : counts.sum = length) :
    ((call.begun length).loopProgress counts).getLast? = some 100 := by
  have some_chunk : counts ≠ [] := by
    rintro rfl
    rw [List.sum_nil] at whole
    omega
  have last := (@loopProgress_begun call _ _ positive bounded
    (Nat.le_of_eq whole)).2.2 some_chunk
  rw [whole, Nat.mul_div_cancel_left 100 positive] at last
  cases written : ((call.begun length).loopProgress counts).getLast? with
  | none =>
      rw [List.getLast?_eq_none_iff.mp written] at last
      exact absurd last (by decide)
  | some value =>
      have nonempty : (call.begun length).loopProgress counts ≠ [] := by
        intro empty
        rw [empty] at written
        cases written
      rw [List.getLast?_cons_of_ne_nil (by simpa using nonempty),
        List.getLast?_map, written] at last
      exact congrArg some (Int32.toInt_inj.mp (Option.some.inj last))

/-- For every content length of which a hundred times fits into a `long`, and
all chunks within it: after every number of rounds the product and the narrowing
are exact; the values that are broadcast are percentages and never decrease, the
loop broadcasts each of them once at most, and the last one is 100 when the
chunks make up the body. -/
theorem progress_exact
    (model : Model)
    (call : Call)
    (length : Nat)
    (counts : List Nat)
    (positive : 0 < length)
    (bounded : length ≤ (2 ^ 63 - 1) / 100)
    (within : counts.sum ≤ length) :
    (∀ rounds ≤ counts.length,
      let copied := (call.begun length).copied (counts.take rounds)
      copied.total.toInt = (counts.take rounds).sum ∧
        (copied.total * 100).toInt = copied.total.toInt * 100 ∧
        copied.progress.toInt =
          (copied.total * 100 / copied.fileLength).toInt ∧
        copied.progress.toInt =
          ((counts.take rounds).sum * 100 / length : Nat)) ∧
      (∀ value ∈ downloadProgress model (call.begun length) counts,
        0 ≤ value ∧ value ≤ 100) ∧
      (downloadProgress model (call.begun length) counts).Pairwise (· ≤ ·) ∧
      ((call.begun length).loopProgress counts).Nodup ∧
      (counts.sum = length →
        (downloadProgress model (call.begun length) counts).getLast? =
          some 100) := by
  have values : downloadProgress model (call.begun length) counts =
      0 :: (call.begun length).loopProgress counts := rfl
  have ranges := @range_loopProgress call _ _ positive bounded within
  have sorted := List.pairwise_map.mp
    (@loopProgress_begun call _ _ positive bounded within).2.1
  rw [values]
  refine ⟨?_, ?_, ?_, ?_, ?_⟩
  · intro rounds _
    have part : (counts.take rounds).sum ≤ length := by
      rw [← List.take_append_drop rounds counts, List.sum_append] at within
      exact Nat.le_trans (Nat.le_add_right _ _) within
    have counted := @Counts.copied _ length 0 (counts.take rounds)
      (@counts_begun call length)
    rw [Nat.zero_add] at counted
    exact counted.lossless bounded part
  · simp only [List.forall_mem_cons, Int32.le_iff_toInt_le]
    exact ⟨by decide, ranges⟩
  · rw [List.pairwise_cons]
    constructor
    · intro value member
      rw [Int32.le_iff_toInt_le]
      exact (ranges value member).1
    · exact sorted.imp fun less =>
        Int32.le_iff_toInt_le.mpr (Int.le_of_lt less)
  · exact sorted.imp fun less => by
      rintro rfl
      exact Int.lt_irrefl _ less
  · intro whole
    have last := @getLast?_loopProgress call _ _ positive bounded whole
    have nonempty : (call.begun length).loopProgress counts ≠ [] := by
      intro empty
      rw [empty] at last
      cases last
    rw [List.getLast?_cons_of_ne_nil nonempty, last]

/-- Three bytes that arrive one by one. -/
theorem progress_exact_of_three_bytes :
    (loopProgress (begun ⟨[], [], 0, false, .looping [], [], 0, none, 0, 0, 0⟩ 3)
        [1, 1, 1]).Nodup ∧
      (downloadProgress miniModel
        (begun ⟨[], [], 0, false, .looping [], [], 0, none, 0, 0, 0⟩ 3)
        [1, 1, 1]).getLast? = some 100 := by
  obtain ⟨-, -, -, once, last⟩ := progress_exact miniModel
    ⟨[], [], 0, false, .looping [], [], 0, none, 0, 0, 0⟩ 3 [1, 1, 1]
    (by decide) (by decide) (by decide)
  exact ⟨once, last rfl⟩

end Call

end Download
end IdoProject
