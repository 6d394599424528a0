import GreengrassLite.Json.Decode
import GreengrassLite.Json.Text

/-!
# Reading integers

`ggl_str_to_int64` reads a sign and digits from left to right, and looks before each
step whether the result is still in range.  A number only grows with more digits, so
it is refused exactly when the number itself is out of range.
-/

namespace GreengrassLite.Json

open List

/-- The digits read so far, and one more. -/
def nextDigit (number : Nat) (digit : UInt8) : Nat :=
  number * 10 + (digit.toNat - 48)

/-- The number that digits stand for. -/
def digitsValue (digits : Buffer) : Nat :=
  digits.foldl nextDigit 0

/-- What `int64_t` holds. -/
def InInt64 (value : Int) : Prop :=
  int64Min ≤ value ∧ value ≤ int64Max

instance (value : Int) : Decidable (InInt64 value) :=
  inferInstanceAs (Decidable (_ ∧ _))

theorem le_foldl_nextDigit (number : Nat) (digits : Buffer) :
    number ≤ digits.foldl nextDigit number := by
  induction digits generalizing number with
  | nil => exact Nat.le_refl number
  | cons digit digits ih =>
    have here : number ≤ nextDigit number digit := by
      unfold nextDigit
      omega
    exact here.trans (ih (nextDigit number digit))

theorem isDigit_iff {c : UInt8} : IsDigit c ↔ ¬(c < 48 ∨ 57 < c) := by
  rw [IsDigit, not_or, UInt8.not_lt, UInt8.not_lt]

theorem IsDigit.le_nine {c : UInt8} (digit : IsDigit c) :
    48 ≤ c.toNat ∧ c.toNat ≤ 57 :=
  ⟨UInt8.le_iff_toNat_le.mp digit.1, UInt8.le_iff_toNat_le.mp digit.2⟩

@[simp]
theorem multOverflowInt64_iff {a : Int} :
    multOverflowInt64 a = true ↔ a > 922337203685477580 ∨ a < -922337203685477580 := by
  rw [multOverflowInt64, decide_eq_true_eq]
  rfl

@[simp]
theorem addOverflowInt64_iff {a b : Int} :
    addOverflowInt64 a b = true ↔ if b > 0 then a > int64Max - b else a < int64Min - b := by
  rw [addOverflowInt64]
  split <;> rw [decide_eq_true_eq]

section Loop

variable {sign : Int} (direction : sign = 1 ∨ sign = -1) {number : Nat}

include direction

/-- The two checks together find out whether the next number is in range. -/
theorem strToInt64Loop_digit {c : UInt8} (digit : IsDigit c) (digits : Buffer) :
    strToInt64Loop sign (sign * number) (c :: digits) =
      if InInt64 (sign * nextDigit number c) then
        strToInt64Loop sign (sign * nextDigit number c) digits
      else .error .range := by
  have bounds := digit.le_nine
  have added : sign * number * 10 + sign * (c.toNat - 48 : Int) = sign * nextDigit number c := by
    unfold nextDigit
    rcases direction with rfl | rfl <;> omega
  have mult := @multOverflowInt64_iff (sign * number)
  have add := @addOverflowInt64_iff (sign * number * 10) (sign * (c.toNat - 48 : Int))
  rw [strToInt64Loop, if_neg (isDigit_iff.mp digit), ← added]
  dsimp only
  by_cases range : InInt64 (sign * number * 10 + sign * (c.toNat - 48 : Int))
  · have noMult : ¬multOverflowInt64 (sign * number) = true := by
      rw [mult]
      unfold InInt64 int64Min int64Max at range
      rcases direction with rfl | rfl <;> omega
    have noAdd : ¬addOverflowInt64 (sign * number * 10) (sign * (c.toNat - 48 : Int)) = true := by
      rw [add]
      unfold InInt64 at range
      split <;> omega
    rw [if_pos range, if_neg noMult, if_neg noAdd]
  · split_ifs with overflow noOverflow
    · rfl
    · rfl
    · rw [mult] at overflow
      rw [add] at noOverflow
      unfold InInt64 int64Min int64Max at *
      rcases direction with rfl | rfl <;> split at noOverflow <;> omega

theorem strToInt64Loop_eq_ok_iff {digits : Buffer} {value : Int}
    (start : InInt64 (sign * number)) :
    strToInt64Loop sign (sign * number) digits = .ok value ↔
      (∀ c ∈ digits, IsDigit c) ∧ value = sign * digits.foldl nextDigit number ∧
        InInt64 value := by
  induction digits generalizing number with
  | nil =>
    simp only [strToInt64Loop, Except.ok.injEq, not_mem_nil, false_implies, implies_true,
      true_and, foldl_nil]
    constructor
    · rintro rfl
      exact ⟨rfl, start⟩
    · exact fun read => read.1.symm
  | cons c digits ih =>
    rw [foldl_cons]
    by_cases digit : IsDigit c
    · rw [strToInt64Loop_digit direction digit]
      split_ifs with range
      · rw [ih range]
        simp [digit]
      · have grows := le_foldl_nextDigit (nextDigit number c) digits
        simp only [false_iff]
        rintro ⟨-, rfl, inside⟩
        unfold InInt64 int64Min int64Max at range inside
        rcases direction with rfl | rfl <;> omega
    · rw [strToInt64Loop, if_pos (not_not.mp (isDigit_iff.not.mp digit))]
      simp [digit]

/-! ## The steps in between -/

omit direction in
/-- The results of the arithmetic in the loop of `ggl_str_to_int64`, up to where it ends: the
product, the digit with its sign, what the sum is compared with, and the sum. -/
def strToInt64Steps (sign : Int) : Int → Buffer → List Int
  | _, [] => []
  | ret, c :: str =>
    if c < 48 ∨ 57 < c then []
    else if multOverflowInt64 ret then []
    else
      let digit := sign * (c.toNat - 48 : Int)
      let limit := if digit > 0 then int64Max - digit else int64Min - digit
      [ret * 10, digit, limit] ++
        if addOverflowInt64 (ret * 10) digit then []
        else (ret * 10 + digit) :: strToInt64Steps sign (ret * 10 + digit) str

theorem inInt64_of_mem_steps {digits : Buffer} {ret step : Int}
    (computed : step ∈ strToInt64Steps sign ret digits) : InInt64 step := by
  induction digits generalizing ret with
  | nil => cases computed
  | cons c digits ih =>
    rw [strToInt64Steps] at computed
    split at computed
    · cases computed
    next digit =>
      split at computed
      · cases computed
      next mult =>
        have bounds := (isDigit_iff.mpr digit).le_nine
        rw [multOverflowInt64_iff] at mult
        unfold InInt64 int64Min int64Max
        rcases mem_append.mp computed with here | later
        · simp only [mem_cons, not_mem_nil, or_false] at here
          rcases here with rfl | rfl | rfl
          · omega
          · rcases direction with rfl | rfl <;> omega
          · unfold int64Min int64Max
            rcases direction with rfl | rfl <;> split <;> omega
        · split at later
          · cases later
          next add =>
            rw [addOverflowInt64_iff] at add
            rcases mem_cons.mp later with rfl | later
            · unfold int64Min int64Max at add
              rcases direction with rfl | rfl <;> split at add <;> omega
            · exact ih later

omit direction in
/-- The last of the steps is the result. -/
theorem getLastD_strToInt64Steps {digits : Buffer} {ret value : Int}
    (read : strToInt64Loop sign ret digits = .ok value) :
    (strToInt64Steps sign ret digits).getLastD ret = value := by
  fun_induction strToInt64Loop sign ret digits with
  | case1 ret => exact Except.ok.inj read
  | case2 => cases read
  | case3 => cases read
  | case4 => cases read
  | case5 ret c digits isDigit noMult digit noAdd ih =>
    rw [strToInt64Steps, if_neg isDigit, if_neg noMult]
    simpa [noAdd, digit, getLast?_cons] using ih read

end Loop

/-- The sign and the digits that a text consists of. -/
def ReadsAs (str : Buffer) (value : Int) : Prop :=
  ∃ negative : Bool, ∃ digits, str = (if negative then [45] else []) ++ digits ∧ digits ≠ [] ∧
    (∀ c ∈ digits, IsDigit c) ∧ value = (if negative then -1 else 1) * digitsValue digits

@[inherit_doc strToInt64Steps]
def gglStrToInt64Steps (str : Buffer) : List Int :=
  let negative := str.head? = some 45
  strToInt64Steps (if negative then -1 else 1) 0 (if negative then str.drop 1 else str)

@[simp]
theorem gglStrToInt64_eq_ok_iff {str : Buffer} {value : Int} :
    gglStrToInt64 str = .ok value ↔ ReadsAs str value ∧ InInt64 value := by
  have reads : ∀ {sign : Int} {digits : Buffer}, sign = 1 ∨ sign = -1 →
      ((if digits = [] then .error .invalid else strToInt64Loop sign 0 digits) =
          (.ok value : Except GglError Int) ↔
        digits ≠ [] ∧ (∀ c ∈ digits, IsDigit c) ∧ value = sign * digitsValue digits ∧
          InInt64 value) := by
    intro sign digits direction
    have start : InInt64 (sign * (0 : Nat)) := by
      rcases direction with rfl | rfl <;> decide
    have loop := @strToInt64Loop_eq_ok_iff sign direction 0 digits value start
    split_ifs with empty
    · simp [empty]
    · rw [← digitsValue, Nat.cast_zero, mul_zero] at loop
      rw [loop, and_iff_right empty]
  constructor
  · intro read
    rw [gglStrToInt64] at read
    by_cases negative : str.head? = some 45
    · rw [if_pos negative, if_pos negative, reads (.inr rfl)] at read
      rw [drop_one] at read
      obtain ⟨nonempty, all, value_eq, range⟩ := read
      exact ⟨⟨true, _, eq_cons_of_mem_head? negative, nonempty, all, value_eq⟩, range⟩
    · rw [if_neg negative, if_neg negative, reads (.inl rfl)] at read
      obtain ⟨nonempty, all, value_eq, range⟩ := read
      exact ⟨⟨false, _, rfl, nonempty, all, value_eq⟩, range⟩
  · rintro ⟨⟨negative, digits, rfl, nonempty, all, value_eq⟩, range⟩
    rw [gglStrToInt64]
    cases negative with
    | true => exact (reads (.inr rfl)).mpr ⟨nonempty, all, value_eq, range⟩
    | false =>
      have unsigned : digits.head? ≠ some 45 := by
        intro sign
        exact absurd (all 45 (mem_of_mem_head? sign)).1 (by decide)
      rw [if_neg Bool.false_ne_true, nil_append, if_neg unsigned, if_neg unsigned]
      exact (reads (.inl rfl)).mpr ⟨nonempty, all, value_eq, range⟩

/-- A text is read exactly when it is a sign and digits of a number in range, as that number,
and everything computed on the way to it is in range for every text. -/
theorem gglStrToInt64_exact (str : Buffer) :
    (∀ value, gglStrToInt64 str = .ok value ↔ ReadsAs str value ∧ InInt64 value) ∧
      (∀ step ∈ gglStrToInt64Steps str, InInt64 step) ∧
      ∀ value, gglStrToInt64 str = .ok value → (gglStrToInt64Steps str).getLastD 0 = value := by
  refine ⟨fun _ => gglStrToInt64_eq_ok_iff, fun step computed => ?_, fun value read => ?_⟩
  · refine inInt64_of_mem_steps ?_ computed
    split <;> simp
  · rw [gglStrToInt64] at read
    exact getLastD_strToInt64Steps ((ite_eq_iff.mp read).resolve_left nofun).2

/-! ## Printed numbers -/

theorem decimal_digits (number : Nat) :
    (∀ c ∈ decimal number, IsDigit c) ∧ digitsValue (decimal number) = number := by
  induction number using Nat.strong_induction_on with
  | _ number ih =>
    by_cases small : number < 10
    · rw [decimal_of_lt small, digitsValue, foldl_cons, foldl_nil, nextDigit,
        toNat_digitByte small]
      exact ⟨by simpa using isDigit_digitByte small, by omega⟩
    · have large : 10 ≤ number := Nat.le_of_not_lt small
      have last : number % 10 < 10 := Nat.mod_lt _ (by decide)
      obtain ⟨all, value⟩ := ih (number / 10) (by omega)
      rw [decimal_of_le large]
      constructor
      · rw [forall_mem_append, forall_mem_singleton]
        exact ⟨all, isDigit_digitByte last⟩
      · rw [digitsValue] at value ⊢
        rw [foldl_append, foldl_cons, foldl_nil, nextDigit, toNat_digitByte last]
        omega

/-- `ggl_str_to_int64` reads back what was printed. -/
theorem gglStrToInt64_intText {value : Int} (lower : int64Min ≤ value)
    (upper : value ≤ int64Max) : gglStrToInt64 (gglStr (toString value)) = .ok value := by
  obtain ⟨all, number⟩ := decimal_digits value.natAbs
  obtain ⟨first, digits, shape, -⟩ := decimal_head value.natAbs
  refine gglStrToInt64_eq_ok_iff.mpr ⟨⟨decide (value < 0), decimal value.natAbs, ?_, ?_, all, ?_⟩,
    lower, upper⟩
  · rw [intText_eq]
    simp
  · rw [shape]
    exact cons_ne_nil _ _
  · split_ifs with negative <;> simp at negative <;> omega

end GreengrassLite.Json
