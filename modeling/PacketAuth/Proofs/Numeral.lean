import PacketAuth.Toml.Statement
import Mathlib.Tactic.IntervalCases

/-! Whole numbers in decimal digits. A document that shows a number so, up to the end of a line, is
read back as having this number there. -/
namespace PacketAuth.Toml

/-- The digits of a whole number, behind a minus if it is negative. -/
def numeral : Int → List Char
  | .ofNat n => Nat.toDigits 10 n
  | .negSucc n => '-' :: Nat.toDigits 10 (n + 1)

/-- Numerals are the usual ones. -/
theorem ofList_numeral (n : Int) : String.ofList (numeral n) = toString n := by
  cases n with
  | ofNat n => rfl
  | negSucc n =>
    change _ = "-" ++ String.ofList (Nat.toDigits 10 (n + 1))
    rw [numeral, ← List.singleton_append, String.ofList_append]

theorem toDigits_step {n : Nat} (h : 10 ≤ n) :
    Nat.toDigits 10 n = Nat.toDigits 10 (n / 10) ++ [Nat.digitChar (n % 10)] := by
  have parts := Nat.toDigits_append_toDigits (b := 10) (n := n / 10) (d := n % 10) (by omega)
    (by omega) (by omega)
  rw [Nat.div_add_mod, Nat.toDigits_of_lt_base (Nat.mod_lt n (by omega))] at parts
  exact parts.symm

theorem isDigit_digitChar {d : Nat} (h : d < 10) : (Nat.digitChar d).isDigit = true := by
  interval_cases d <;> rfl

theorem isDigit_of_mem_toDigits (n : Nat) : ∀ c ∈ Nat.toDigits 10 n, c.isDigit = true := by
  induction n using Nat.strongRecOn with
  | ind n ih =>
    by_cases small : n < 10
    · rw [Nat.toDigits_of_lt_base small]
      simp [isDigit_digitChar small]
    · rw [toDigits_step (by omega)]
      intro c hc
      rcases List.mem_append.mp hc with hc | hc
      · exact ih (n / 10) (by omega) c hc
      · rw [List.mem_singleton.mp hc]
        exact isDigit_digitChar (Nat.mod_lt n (by omega))

namespace Scalar

theorem digit?_digitChar {d : Nat} (h : d < 10) : digit? 10 (Nat.digitChar d) = some d := by
  interval_cases d <;> rfl

/-- One digit more at the end. -/
theorem moreDigits_concat {acc v d : Nat} {cs : List Char} {c : Char} (hc : digit? 10 c = some d)
    (h : moreDigits 10 acc cs = some v) : moreDigits 10 acc (cs ++ [c]) = some (v * 10 + d) := by
  fun_induction moreDigits 10 acc cs with
  | case1 acc =>
    cases h
    simp [moreDigits, hc]
  | case2 acc x rest ih =>
    obtain ⟨e, he, h⟩ := Option.bind_eq_some_iff.mp h
    simpa [moreDigits, he] using ih e h
  | case3 acc x rest other ih =>
    obtain ⟨e, he, h⟩ := Option.bind_eq_some_iff.mp h
    rw [List.cons_append, moreDigits, he, Option.bind_some, ih e h]
    -- an underscore is no digit, so it cannot be the one in front
    rintro y more rfl -
    cases he

theorem digits_concat {v d : Nat} {cs : List Char} {c : Char} (hc : digit? 10 c = some d)
    (h : digits 10 cs = some v) : digits 10 (cs ++ [c]) = some (v * 10 + d) := by
  cases cs with
  | nil => cases h
  | cons x rest =>
    obtain ⟨e, he, h⟩ := Option.bind_eq_some_iff.mp h
    rw [List.cons_append, digits, he, Option.bind_some]
    exact moreDigits_concat hc h

theorem digits_toDigits (n : Nat) : digits 10 (Nat.toDigits 10 n) = some n := by
  induction n using Nat.strongRecOn with
  | ind n ih =>
    by_cases small : n < 10
    · rw [Nat.toDigits_of_lt_base small]
      simp [digits, moreDigits, digit?_digitChar small]
    · rw [toDigits_step (by omega), digits_concat (digit?_digitChar (Nat.mod_lt n (by omega)))
        (ih (n / 10) (by omega))]
      congr 1
      omega

/-- The first digit of a number is not zero, unless it is the only one. -/
theorem toDigits_head (n : Nat) (h : 0 < n) :
    ∃ c rest, Nat.toDigits 10 n = c :: rest ∧ c ≠ '0' := by
  induction n using Nat.strongRecOn with
  | ind n ih =>
    by_cases small : n < 10
    · refine ⟨n.digitChar, [], Nat.toDigits_of_lt_base small, ?_⟩
      interval_cases n <;> decide
    · obtain ⟨c, rest, digits, nonzero⟩ := ih (n / 10) (by omega) (by omega)
      exact ⟨c, rest ++ [Nat.digitChar (n % 10)],
        by rw [toDigits_step (by omega), digits, List.cons_append], nonzero⟩

theorem wholeNumber_toDigits (n : Nat) : wholeNumber (Nat.toDigits 10 n) = some n := by
  by_cases zero : n = 0
  · subst zero
    rfl
  · obtain ⟨c, rest, digits, nonzero⟩ := toDigits_head n (by omega)
    rw [← digits_toDigits n, digits, wholeNumber]
    · intro same
      exact nonzero (List.cons.inj same).1
    · intro more same
      exact nonzero (List.cons.inj same).1

end Scalar

/-- What a numeral consists of. -/
theorem isDigit_of_mem_numeral (n : Int) : ∀ c ∈ numeral n, c.isDigit = true ∨ c = '-' := by
  cases n with
  | ofNat n => exact fun c hc => .inl (isDigit_of_mem_toDigits n c hc)
  | negSucc n =>
    intro c hc
    rcases List.mem_cons.mp hc with rfl | hc
    · exact .inr rfl
    · exact .inl (isDigit_of_mem_toDigits (n + 1) c hc)

theorem numeral_eq_cons (n : Int) :
    ∃ c rest, numeral n = c :: rest ∧ (c.isDigit = true ∨ c = '-') := by
  cases h : numeral n with
  | nil =>
    cases n with
    | ofNat n => exact absurd h Nat.toDigits_ne_nil
    | negSucc n => cases h
  | cons c rest => exact ⟨c, rest, rfl, isDigit_of_mem_numeral n c (by simp [h])⟩

namespace Scalar

/-- What starts with a digit has no sign. -/
theorem signed_of_isDigit {c : Char} (h : c.isDigit = true) (rest : List Char) :
    signed (c :: rest) = (false, c :: rest) := by
  rw [signed] <;> intro more same <;> cases same <;> cases h

/-- Digits behind a sign, or without one, are a number in base ten. -/
theorem integer_of_signed {cs body : List Char} {negative : Bool} {n : Nat}
    (h : ∀ c ∈ cs, c.isDigit = true ∨ c = '-') (hs : signed cs = (negative, body))
    (hn : wholeNumber body = some n) :
    integer cs = some (some (if negative then -(Int.ofNat n) else Int.ofNat n)) := by
  unfold integer
  split
  · exact absurd (h 'x' (by simp)) (by decide)
  · exact absurd (h 'o' (by simp)) (by decide)
  · exact absurd (h 'b' (by simp)) (by decide)
  · rw [hs]
    dsimp only
    rw [hn]

theorem integer_numeral (n : Int) : integer (numeral n) = some (some n) := by
  have chars := isDigit_of_mem_numeral n
  cases n with
  | ofNat n =>
    have unsigned : signed (numeral (.ofNat n)) = (false, Nat.toDigits 10 n) := by
      cases h : Nat.toDigits 10 n with
      | nil => exact absurd h Nat.toDigits_ne_nil
      | cons c rest =>
        rw [numeral, h]
        exact signed_of_isDigit (isDigit_of_mem_toDigits n c (by simp [h])) rest
    exact integer_of_signed chars unsigned (wholeNumber_toDigits n)
  | negSucc n => exact integer_of_signed chars rfl (wholeNumber_toDigits (n + 1))

theorem ofToken?_numeral (n : Int) : ofToken? (numeral n) = some (.integer (some n)) := by
  have chars := isDigit_of_mem_numeral n
  have not_true : numeral n ≠ ['t', 'r', 'u', 'e'] := by
    intro h
    exact absurd (chars 't' (by simp [h])) (by decide)
  have not_false : numeral n ≠ ['f', 'a', 'l', 's', 'e'] := by
    intro h
    exact absurd (chars 'f' (by simp [h])) (by decide)
  rw [ofToken?, if_neg not_true, if_neg not_false, integer_numeral]

/-- Neither a delimiter nor a blank stands in a numeral. -/
theorem scalarChar_of_numeral {c : Char} (h : c.isDigit = true ∨ c = '-') :
    isScalarChar c = true ∧ isBlank c = false := by
  have other : ∀ d : Char, d.isDigit = false → d ≠ '-' → c ≠ d := by
    rintro d no_digit no_minus rfl
    rcases h with h | h
    · exact absurd h (by simp [no_digit])
    · exact no_minus h
  constructor
  · simp only [isScalarChar, Bool.not_eq_true', List.contains_eq_any_beq, List.any_cons,
      List.any_nil, Bool.or_false, Bool.or_eq_false_iff, beq_eq_false_iff_ne]
    and_intros <;> exact other _ (by decide) (by decide)
  · simp only [isBlank, Bool.or_eq_false_iff, beq_eq_false_iff_ne]
    exact ⟨other ' ' (by decide) (by decide), other '\t' (by decide) (by decide)⟩

/-- Behind no blank there is no quote either. -/
theorem quoteAfterBlank_of_no_blank {cs : List Char} (h : ∀ c ∈ cs, isBlank c = false) :
    quoteAfterBlank cs = false := by
  unfold quoteAfterBlank
  rw [List.any_eq_false]
  intro pair hpair
  have left : pair.1 ∈ cs := (List.of_mem_zip hpair).1
  simp [h pair.1 left]

/-- A numeral up to the end of its line is read as the number it shows. -/
theorem read_numeral (n : Int) (rest : List Char) :
    read (numeral n ++ '\n' :: rest) = some (.integer (some n), '\n' :: rest) := by
  have chars : ∀ c ∈ numeral n, isScalarChar c = true ∧ isBlank c = false :=
    fun c hc => scalarChar_of_numeral (isDigit_of_mem_numeral n c hc)
  have run : (numeral n ++ '\n' :: rest).takeWhile (fun c => isScalarChar c || isBlank c)
      = numeral n := by
    rw [List.takeWhile_append_of_pos fun c hc => by simp [chars c hc]]
    rw [List.takeWhile_cons_of_neg (by decide), List.append_nil]
  have trimmed : ((numeral n).reverse.dropWhile isBlank).reverse = numeral n := by
    obtain ⟨last, front, hfront⟩ : ∃ c cs, (numeral n).reverse = c :: cs := by
      obtain ⟨c, cs, h, -⟩ := numeral_eq_cons n
      exact List.exists_cons_of_ne_nil (by simp [h])
    have unblank : isBlank last = false := (chars last (List.mem_reverse.mp (by simp [hfront]))).2
    rw [hfront, List.dropWhile_cons_of_neg (by simp [unblank]), ← hfront, List.reverse_reverse]
  unfold read
  simp only [run, trimmed]
  rw [quoteAfterBlank_of_no_blank fun c hc => (chars c hc).2, ofToken?_numeral]
  simp

end Scalar

/-- The value of a setting whose line shows a number. -/
theorem value_numeral (fuel depth : Nat) (n : Int) (rest : List Char) :
    value (fuel + 1) depth (numeral n ++ '\n' :: rest) =
      some (.integer (some n), '\n' :: rest) := by
  obtain ⟨c, cs, h, first⟩ := numeral_eq_cons n
  -- none of the marks that open another kind of value is part of a numeral
  have unmarked : c ≠ '"' ∧ c ≠ '\'' ∧ c ≠ '[' ∧ c ≠ '\x7b' := by
    and_intros <;> rintro rfl <;> simp at first
  have scalar : value (fuel + 1) depth (c :: (cs ++ '\n' :: rest)) =
      Scalar.read (c :: (cs ++ '\n' :: rest)) := by
    rw [value] <;> simp [unmarked]
  rw [← Scalar.read_numeral n rest, h, List.cons_append, scalar]

end PacketAuth.Toml
