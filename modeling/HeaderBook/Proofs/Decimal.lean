import HeaderBook.Text.Digit

/-!
# Decimal forms

A number is read back from its decimal form. Forms are written with the ASCII
digits only, while runs of digits of any script are read, so the statements here
go from numbers to texts and back, never from texts to numbers and back.

`numberLimit` is the first number whose decimal form is too long to be read.
-/

namespace HeaderBook.Text

/-- The value of an ASCII digit. -/
theorem digitValue?_digitChar {n : Nat} (small : n < 10) :
    digitValue? (Nat.digitChar n) = some n := by
  have all : ∀ k : Fin 10, digitValue? (Nat.digitChar k) = some k.val := by decide
  exact all ⟨n, small⟩

/-- The character of a digit is a digit. -/
theorem isDigit_digitChar {n : Nat} (small : n < 10) : isDigit (Nat.digitChar n) = true := by
  simp [isDigit, digitValue?_digitChar small]

/-- A decimal form consists of digits. -/
theorem isDigit_of_mem_decimal {n : Nat} : ∀ c ∈ decimal n, isDigit c = true := by
  fun_induction decimal n with
  | case1 n small =>
      intro c member
      rw [List.mem_singleton.mp member]
      exact isDigit_digitChar small
  | case2 n _ inductionHypothesis =>
      intro c member
      rcases List.mem_append.mp member with earlier | last
      · exact inductionHypothesis c earlier
      · rw [List.mem_singleton.mp last]
        exact isDigit_digitChar (Nat.mod_lt n (by omega))

/-- Every number is written with a digit at least. -/
theorem decimal_ne_nil (n : Nat) : decimal n ≠ [] := by
  unfold decimal
  split <;> simp

/-- One more digit multiplies by ten and adds the digit. -/
theorem digitsValue_append_singleton (digits : Text) (c : Char) :
    digitsValue (digits ++ [c]) = 10 * digitsValue digits + (digitValue? c).getD 0 := by
  simp [digitsValue]

/-- A decimal form denotes the number it was written for. -/
@[simp] theorem digitsValue_decimal (n : Nat) : digitsValue (decimal n) = n := by
  fun_induction decimal n with
  | case1 n small => simp [digitsValue, digitValue?_digitChar small]
  | case2 n _ inductionHypothesis =>
      rw [digitsValue_append_singleton, inductionHypothesis,
        digitValue?_digitChar (Nat.mod_lt n (by omega)), Option.getD_some]
      omega

/-- A number below a power of ten has at most that many digits. -/
theorem length_decimal_le {n count : Nat} (positive : 0 < count) (below : n < Nat.pow 10 count) :
    (decimal n).length ≤ count := by
  induction count generalizing n with
  | zero => exact absurd positive (Nat.lt_irrefl 0)
  | succ count inductionHypothesis =>
      unfold decimal
      split
      · simp
      next large =>
        have power : Nat.pow 10 (count + 1) = Nat.pow 10 count * 10 := rfl
        have quotient : n / 10 < Nat.pow 10 count := by omega
        have nonzero : 0 < count := by
          rcases Nat.eq_zero_or_pos count with rfl | nonzero
          · exact absurd below large
          · exact nonzero
        have bound := inductionHypothesis nonzero quotient
        rw [List.length_append, List.length_singleton]
        omega

/-- The first number whose decimal form is refused by `readNumber`. -/
def numberLimit : Nat := Nat.pow 10 digitLimit

/-- A count of at most `digitLimit` is below the least number that is too long. -/
theorem lt_numberLimit_of_le {n : Nat} (small : n ≤ digitLimit) : n < numberLimit := by
  unfold numberLimit
  generalize digitLimit = digits at small ⊢
  exact Nat.lt_of_lt_of_le (Nat.lt_pow_self (by decide)) (Nat.pow_le_pow_right (by decide) small)

/-- Every number below `numberLimit` is read back from its decimal form. -/
theorem readNumber_decimal {n : Nat} (below : n < numberLimit) :
    readNumber (decimal n) = .ok n := by
  unfold numberLimit at below
  have short : (decimal n).length ≤ digitLimit := length_decimal_le (by decide) below
  rw [readNumber, if_neg (Nat.not_lt.mpr short), digitsValue_decimal]

/-! ### Outcomes of reading numbers -/

/-- `Yields size outcome expected` holds when `outcome` is `expected`, or else a
failure that only sizes from `numberLimit` on allow. -/
def Yields {α : Type} (size : Nat) (outcome : Except NumberTooLong α) (expected : α) : Prop :=
  outcome = .ok expected ∨ numberLimit ≤ size ∧ ∃ failure, outcome = .error failure

/-- An index within the size is read back, or is too long. -/
theorem yields_readNumber {n size : Nat} (inside : n ≤ size) :
    Yields size (readNumber (decimal n)) n := by
  by_cases below : n < numberLimit
  · exact .inl (readNumber_decimal below)
  · unfold readNumber
    split
    · exact .inr ⟨Nat.le_trans (Nat.le_of_not_lt below) inside, _, rfl⟩
    · exact .inl (congrArg Except.ok (digitsValue_decimal n))

namespace Yields

variable {α β : Type} {size : Nat} {outcome : Except NumberTooLong α} {expected : α}

/-- A computation on a short text succeeds. -/
theorem ok (yields : Yields size outcome expected) (short : size < numberLimit) :
    outcome = .ok expected :=
  yields.resolve_right fun failed => Nat.not_le_of_lt short failed.1

/-- A computation that succeeds gives the expected result. -/
theorem eq_of_ok (yields : Yields size outcome expected) {result : α}
    (succeeded : outcome = .ok result) : result = expected := by
  rcases yields with rfl | ⟨_, failure, rfl⟩
  · exact (Except.ok.inj succeeded).symm
  · cases succeeded

/-- What is expected of two computations is expected one after the other. -/
theorem bind (yields : Yields size outcome expected) {next : α → Except NumberTooLong β}
    {last : β} (goesOn : Yields size (next expected) last) : Yields size (outcome >>= next) last := by
  rcases yields with rfl | ⟨large, failure, rfl⟩
  · exact goesOn
  · exact .inr ⟨large, failure, rfl⟩

/-- A function of the result is expected of the computation with that function. -/
theorem map (yields : Yields size outcome expected) (f : α → β) :
    Yields size (outcome.map f) (f expected) := by
  rcases yields with rfl | ⟨large, failure, rfl⟩
  · exact .inl rfl
  · exact .inr ⟨large, failure, rfl⟩

/-- What is expected of each item is expected of all of them. -/
theorem mapM {items : List α} {f : α → Except NumberTooLong β} {g : α → β}
    (each : ∀ item ∈ items, Yields size (f item) (g item)) :
    Yields size (items.mapM f) (items.map g) := by
  induction items with
  | nil => exact .inl rfl
  | cons item items inductionHypothesis =>
      have tail := inductionHypothesis fun other member => each other (List.mem_cons_of_mem _ member)
      rw [List.mapM_cons]
      exact (each item List.mem_cons_self).bind (tail.bind (.inl rfl))

end Yields

end HeaderBook.Text
