import Mathlib.Algebra.Order.Ring.Int
import Mathlib.Data.List.Basic

/-!
# Brackets and quoted strings

A text with brackets, quoted strings and an escape character is scanned from
left to right.  A balanced text can stand inside any other one; a text that is
one pair of brackets around a balanced one is closed by its last character and
by no earlier one, so that no proper beginning of it is complete.
-/

namespace IdoProject
namespace Syntax

/-- What a character is to the scanner. -/
inductive Kind where
  /-- An opening bracket. -/
  | opens
  /-- A closing bracket. -/
  | closes
  /-- The quotation mark. -/
  | quote
  /-- The escape character. -/
  | escape
  /-- Any other character. -/
  | other
  deriving DecidableEq

/-- Where the scanner stands. -/
structure Scan where
  /-- Number of open brackets. -/
  depth : Int := 0
  /-- Inside a quoted string. -/
  quoted : Bool := false
  /-- Behind an escape character. -/
  escaped : Bool := false
  deriving DecidableEq

namespace Scan

/-- Read one character. -/
def read (scan : Scan) (kind : Kind) : Scan :=
  if scan.escaped then { scan with escaped := false }
  else if scan.quoted then
    match kind with
    | .quote => { scan with quoted := false }
    | .escape => { scan with escaped := true }
    | _ => scan
  else
    match kind with
    | .opens => { scan with depth := scan.depth + 1 }
    | .closes => { scan with depth := scan.depth - 1 }
    | .quote => { scan with quoted := true }
    | _ => scan

/-- The scanner so many brackets deeper. -/
def deeper (scan : Scan) (levels : Int) : Scan :=
  { scan with depth := levels + scan.depth }

theorem read_deeper
    (scan : Scan)
    (levels : Int)
    (kind : Kind) :
    (scan.deeper levels).read kind = (scan.read kind).deeper levels := by
  unfold read deeper
  dsimp only
  split
  · rfl
  · split
    · cases kind <;> rfl
    · cases kind with
      | opens => simp [Int.add_assoc]
      | closes => simp [Int.add_sub_assoc]
      | _ => rfl

/-- A character without a meaning of its own opens and closes nothing. -/
theorem depth_read_other (scan : Scan) :
    (scan.read .other).depth = scan.depth := by
  unfold read
  split
  · rfl
  · split <;> rfl

end Scan

section Texts

variable {Symbol : Type u}
variable (kind : Symbol → Kind)

/-- Read a text. -/
def scanFrom (scan : Scan) (text : List Symbol) : Scan :=
  text.foldl (fun scan symbol => scan.read (kind symbol)) scan

/-- Some bracket is still open at the end of the text. -/
def Unterminated (text : List Symbol) : Prop :=
  0 < (scanFrom kind {} text).depth

instance (text : List Symbol) : Decidable (Unterminated kind text) :=
  inferInstanceAs (Decidable (_ < _))

/-- Every bracket and string of the text is closed in it, and none is closed
that is not opened in it. -/
structure Balanced (text : List Symbol) : Prop where
  /-- The text ends where it begins. -/
  settled : scanFrom kind {} text = {}
  /-- No beginning of the text closes more than it opens. -/
  sane : ∀ count ≤ text.length, 0 ≤ (scanFrom kind {} (text.take count)).depth

instance (text : List Symbol) : Decidable (Balanced kind text) :=
  decidable_of_iff
    (scanFrom kind {} text = {} ∧ ∀ count ≤ text.length,
      0 ≤ (scanFrom kind {} (text.take count)).depth)
    ⟨fun both => ⟨both.1, both.2⟩, fun balanced =>
      ⟨balanced.settled, balanced.sane⟩⟩

/-- The items between brackets, with a separator between two of them. -/
def enclosed
    (opening separator closing : Symbol)
    (items : List (List Symbol)) : List Symbol :=
  opening :: ([separator].intercalate items ++ [closing])

end Texts

section Laws

variable {Symbol : Type u}
variable {kind : Symbol → Kind}
variable {scan : Scan}
variable {text first second : List Symbol}
variable {opening separator closing : Symbol}

@[simp] theorem scanFrom_cons
    (symbol : Symbol) :
    scanFrom kind scan (symbol :: text) =
      scanFrom kind (scan.read (kind symbol)) text := rfl

@[simp] theorem scanFrom_append :
    scanFrom kind scan (first ++ second) =
      scanFrom kind (scanFrom kind scan first) second :=
  List.foldl_append

theorem scanFrom_deeper
    (levels : Int) :
    scanFrom kind (scan.deeper levels) text =
      (scanFrom kind scan text).deeper levels := by
  induction text generalizing scan with
  | nil => rfl
  | cons symbol text inductionHypothesis =>
      rw [scanFrom_cons, scanFrom_cons, Scan.read_deeper, inductionHypothesis]

/-- Characters without a meaning of their own leave the depth as it is. -/
theorem depth_scanFrom_of_other
    (others : ∀ symbol ∈ text, kind symbol = .other) :
    (scanFrom kind scan text).depth = scan.depth := by
  induction text generalizing scan with
  | nil => rfl
  | cons symbol text inductionHypothesis =>
      rw [scanFrom_cons, inductionHypothesis, others symbol List.mem_cons_self,
        Scan.depth_read_other]
      exact fun other later => others other (List.mem_cons_of_mem _ later)

namespace Balanced

theorem nil : Balanced kind ([] : List Symbol) where
  settled := rfl
  sane := by
    intro count _
    rw [List.take_nil]
    exact Int.le_refl 0

theorem append
    (left : Balanced kind first)
    (right : Balanced kind second) :
    Balanced kind (first ++ second) where
  settled := by rw [scanFrom_append, left.settled, right.settled]
  sane := by
    intro count within
    rw [List.take_append, scanFrom_append]
    rcases Nat.le_total count first.length with inside | beyond
    · rw [Nat.sub_eq_zero_of_le inside, List.take_zero]
      exact left.sane count inside
    · rw [List.take_of_length_le beyond, left.settled]
      apply right.sane
      rw [List.length_append] at within
      omega

/-- A character without a meaning of its own. -/
theorem singleton
    {symbol : Symbol}
    (other : kind symbol = .other) :
    Balanced kind [symbol] where
  settled := by
    rw [scanFrom_cons, other]
    rfl
  sane := by
    intro count _
    rw [depth_scanFrom_of_other]
    intro found listed
    rw [List.mem_singleton.mp (List.mem_of_mem_take listed), other]

/-- Balanced items with a separator between them. -/
theorem intercalate
    {items : List (List Symbol)}
    (between : kind separator = .other)
    (each : ∀ item ∈ items, Balanced kind item) :
    Balanced kind ([separator].intercalate items) := by
  induction items with
  | nil => exact nil
  | cons item items inductionHypothesis =>
      have head := each item List.mem_cons_self
      have tail := inductionHypothesis fun other later =>
        each other (List.mem_cons_of_mem _ later)
      cases items with
      | nil => simpa [List.intercalate] using head
      | cons next items =>
          rw [List.intercalate_cons_of_ne_nil (List.cons_ne_nil _ _)]
          exact (head.append (singleton between)).append tail

end Balanced

/-- What stands in the text is a bracket, a separator or part of an item. -/
theorem mem_enclosed
    {items : List (List Symbol)}
    {symbol : Symbol}
    (present : symbol ∈ enclosed opening separator closing items) :
    symbol = opening ∨ symbol = separator ∨ symbol = closing ∨
      ∃ item ∈ items, symbol ∈ item := by
  have inside : ∀ items : List (List Symbol),
      symbol ∈ [separator].intercalate items →
        symbol = separator ∨ ∃ item ∈ items, symbol ∈ item := by
    intro items
    induction items with
    | nil => exact fun present => absurd present List.not_mem_nil
    | cons item items inductionHypothesis =>
        cases items with
        | nil =>
            intro present
            rw [List.intercalate_singleton] at present
            exact Or.inr ⟨item, List.mem_cons_self, present⟩
        | cons next items =>
            rw [List.intercalate_cons_cons]
            intro present
            rcases List.mem_append.mp present with first | later
            · rcases List.mem_append.mp first with own | between
              · exact Or.inr ⟨item, List.mem_cons_self, own⟩
              · exact Or.inl (List.mem_singleton.mp between)
            · rcases inductionHypothesis later with between | ⟨other, listed, own⟩
              · exact Or.inl between
              · exact Or.inr ⟨other, List.mem_cons_of_mem _ listed, own⟩
  rcases List.mem_cons.mp present with first | later
  · exact Or.inl first
  · rcases List.mem_append.mp later with body | last
    · rcases inside items body with between | own
      · exact Or.inr (Or.inl between)
      · exact Or.inr (Or.inr (Or.inr own))
    · exact Or.inr (Or.inr (Or.inl (List.mem_singleton.mp last)))

/-- A pair of brackets around a balanced text is open until its last
character. -/
theorem unterminated_take_of_enclosed
    {items : List (List Symbol)}
    {count : Nat}
    (begins : kind opening = .opens)
    (between : kind separator = .other)
    (each : ∀ item ∈ items, Balanced kind item)
    (positive : 0 < count)
    (proper : count < (enclosed opening separator closing items).length) :
    Unterminated kind
      ((enclosed opening separator closing items).take count) := by
  have inner := Balanced.intercalate between each
  unfold enclosed at proper ⊢
  generalize [separator].intercalate items = body at inner proper ⊢
  obtain ⟨count, rfl⟩ := Nat.exists_eq_add_of_lt positive
  simp only [List.length_cons, List.length_append, List.length_nil] at proper
  rw [Nat.zero_add, List.take_succ_cons,
    List.take_append_of_le_length (by omega)]
  have opened : (({} : Scan).read (kind opening)) = ({} : Scan).deeper 1 := by
    rw [begins]
    rfl
  rw [Unterminated, scanFrom_cons, opened, scanFrom_deeper]
  have sane := inner.sane count (by omega)
  change 0 < 1 + (scanFrom kind {} (body.take count)).depth
  omega

/-- A text stays unterminated when characters without a meaning of their own
follow. -/
theorem Unterminated.append_other
    (open_ : Unterminated kind first)
    (others : ∀ symbol ∈ second, kind symbol = .other) :
    Unterminated kind (first ++ second) := by
  rw [Unterminated, scanFrom_append, depth_scanFrom_of_other others]
  exact open_

end Laws

end Syntax
end IdoProject
