import Mathlib.Data.List.Forall2
import Mathlib.Data.Nat.Digits.Defs
import Micro8080.CommandLine.Number

/-! # How numbers are written

A number on the command line is the mark of its base, or none, then a plus sign, or none, and then
its digits (`Denotes`).  A text is read if and only if it is written like that and its number is
below 2^64, and what is read is that number (`number_denoted`).

The reader goes through the digits from the left and keeps one number, where the value of digits is a
sum over their places; `digitsValue?_eq_some_iff` is the induction that ties the two together.
Nothing is written in two ways at once: a sign is no digit, and the `x` of a mark no decimal one.
-/

namespace Micro8080.CommandLine

/-- A character stands for a digit of the base, in either case. -/
inductive Digit (base : Nat) : Char → Nat → Prop
  | lower {d : Nat} (small : d < base) : Digit base d.digitChar d
  | upper {d : Nat} (small : d < base) : Digit base d.digitChar.toUpper d

/-- What a number begins with, and the base of its digits. -/
inductive Mark : List Char → Nat → Prop
  | decimal : Mark [] 10
  | hex : Mark ['0', 'x'] 16
  | capitalHex : Mark ['0', 'X'] 16

inductive Sign : List Char → Prop
  | none : Sign []
  | plus : Sign ['+']

/-- The characters write a number, of whatever size. -/
inductive Denotes : List Char → Nat → Prop
  | intro {mark sign cs : List Char} {base : Nat} {ds : List Nat} (marked : Mark mark base)
      (signed : Sign sign) (digits : List.Forall₂ (Digit base) cs ds) (nonempty : ds ≠ []) :
      Denotes (mark ++ (sign ++ cs)) (Nat.ofDigits base ds.reverse)

/-! ## Digits -/

section Digits

variable {base d n m : Nat} {c : Char} {cs : List Char}

theorem digit_of_digitValue? (h : digitValue? base c = some d) : Digit base c d := by
  have letters : ∀ d < 16, 10 ≤ d →
      d.digitChar.toNat = 87 + d ∧ d.digitChar.toUpper.toNat = 55 + d := by decide
  obtain ⟨value, small⟩ := Option.filter_eq_some_iff.1 h
  have small : d < base := of_decide_eq_true small
  split at value
  next range =>
    have range : 48 ≤ c.toNat ∧ c.toNat ≤ 57 := range
    have value : c.toNat - 48 = d := Option.some.inj value
    have : c = d.digitChar := by
      apply Char.toNat_inj.1
      rw [Nat.toNat_digitChar_of_lt_ten] <;> omega
    exact this ▸ .lower small
  split at value
  next range =>
    have range : 97 ≤ c.toNat ∧ c.toNat ≤ 102 := range
    have value : c.toNat - 97 + 10 = d := Option.some.inj value
    have : c = d.digitChar := by
      apply Char.toNat_inj.1
      rw [(letters d (by omega) (by omega)).1]
      omega
    exact this ▸ .lower small
  split at value
  next range =>
    have range : 65 ≤ c.toNat ∧ c.toNat ≤ 70 := range
    have value : c.toNat - 65 + 10 = d := Option.some.inj value
    have : c = d.digitChar.toUpper := by
      apply Char.toNat_inj.1
      rw [(letters d (by omega) (by omega)).2]
      omega
    exact this ▸ .upper small
  next => cases value

theorem Digit.value (h : Digit base c d) (le : base ≤ 16) : digitValue? base c = some d := by
  have all : ∀ base ≤ 16, ∀ d < base, digitValue? base d.digitChar = some d ∧
      digitValue? base d.digitChar.toUpper = some d := by decide
  cases h with
  | lower small => exact (all base le d small).1
  | upper small => exact (all base le d small).2

theorem digitsValue?_eq_some_iff (le : base ≤ 16) :
    digitsValue? base n cs = some m ↔
      ∃ ds, List.Forall₂ (Digit base) cs ds ∧
        m = n * base ^ ds.length + Nat.ofDigits base ds.reverse := by
  -- what has been read so far counts for as many places more as digits follow
  induction cs generalizing n with
  | nil =>
    constructor
    · rintro read
      cases read
      exact ⟨[], .nil, by simp⟩
    · rintro ⟨_, ⟨⟩, rfl⟩
      simp [digitsValue?]
  | cons c cs ih =>
    rw [digitsValue?]
    constructor
    · intro read
      split at read
      next d value =>
        obtain ⟨ds, digits, rfl⟩ := ih.1 read
        refine ⟨d :: ds, .cons (digit_of_digitValue? value) digits, ?_⟩
        rw [Nat.ofDigits_reverse_cons, List.length_cons]
        ring
      next => cases read
    · rintro ⟨_, _ | ⟨digit, digits⟩, rfl⟩
      next d ds =>
        rw [digit.value le]
        refine ih.2 ⟨ds, digits, ?_⟩
        rw [Nat.ofDigits_reverse_cons, List.length_cons]
        ring

end Digits

/-! ## Signs and marks -/

section Marks

variable {mark sign cs : List Char} {base n : Nat} {ds : List Nat}

theorem Mark.lt_base (h : Mark mark base) : 1 < base := by
  cases h <;> decide

theorem Mark.base_le (h : Mark mark base) : base ≤ 16 := by
  cases h <;> decide

theorem unsigned?_of_ne_plus (plain : cs.head? ≠ some '+') :
    unsigned? base cs = if cs.isEmpty then none else digitsValue? base 0 cs := by
  rw [unsigned?.eq_def]
  split
  next => exact absurd rfl plain
  next => rfl

theorem unsigned?_append (signed : Sign sign) (digits : List.Forall₂ (Digit base) cs ds)
    (nonempty : ds ≠ []) (le : base ≤ 16) :
    unsigned? base (sign ++ cs) = some (Nat.ofDigits base ds.reverse) := by
  have value : digitsValue? base 0 cs = some (Nat.ofDigits base ds.reverse) :=
    (digitsValue?_eq_some_iff le).2 ⟨ds, digits, by rw [Nat.zero_mul, Nat.zero_add]⟩
  cases digits with
  | nil => exact absurd rfl nonempty
  | @cons c d cs ds digit digits =>
    cases signed with
    | plus => exact value
    | none =>
      have plain : (c :: cs).head? ≠ some '+' := by
        rintro ⟨⟩
        cases digit.value le
      exact (unsigned?_of_ne_plus plain).trans value

theorem denotes_of_unsigned? (marked : Mark mark base) (h : unsigned? base cs = some n) :
    Denotes (mark ++ cs) n := by
  have digits {sign rest : List Char} (signed : Sign sign)
      (value : (if rest.isEmpty then none else digitsValue? base 0 rest) = some n) :
      Denotes (mark ++ (sign ++ rest)) n := by
    rw [Option.ite_none_left_eq_some, List.isEmpty_iff] at value
    obtain ⟨nonempty, value⟩ := value
    obtain ⟨ds, digits, rfl⟩ := (digitsValue?_eq_some_iff marked.base_le).1 value
    rw [Nat.zero_mul, Nat.zero_add]
    refine .intro marked signed digits ?_
    rintro rfl
    cases digits
    exact nonempty rfl
  by_cases plain : cs.head? = some '+'
  · obtain ⟨rest, rfl⟩ := List.head?_eq_some_iff.1 plain
    exact digits .plus h
  · exact digits .none (unsigned?_of_ne_plus plain ▸ h)

theorem not_marked {c x : Char} {rest : List Char} (signed : Sign sign)
    (digits : List.Forall₂ (Digit 10) cs ds) (same : sign ++ cs = c :: x :: rest) (zero : c ≠ '+') :
    x ≠ 'x' ∧ x ≠ 'X' := by
  cases signed with
  | plus => exact absurd (List.cons.inj same).1.symm zero
  | none =>
    rw [List.nil_append] at same
    subst same
    obtain _ | ⟨-, _ | ⟨digit, -⟩⟩ := digits
    constructor <;> rintro rfl <;> cases digit.value (by decide)

/-- Below the bound a number is read as it is, and from the bound on it is not read at all. -/
theorem number?_of_denotes {text : String} (h : Denotes text.toList n) :
    number? text = if n < 2 ^ 64 then some n else none := by
  have bounded (n : Nat) :
      (some n).filter (· < numberBound) = if n < 2 ^ 64 then some n else none := by
    rw [Option.filter_some]
    exact if_congr decide_eq_true_iff rfl rfl
  rw [number?]
  generalize text.toList = written at h
  obtain ⟨marked, signed, digits, nonempty⟩ := h
  next mark sign cs base ds =>
    rw [← bounded, ← unsigned?_append signed digits nonempty marked.base_le]
    cases marked with
    | hex | capitalHex => rfl
    | decimal =>
      have unmarked {x : Char} {rest : List Char} (same : sign ++ cs = '0' :: x :: rest) :=
        not_marked signed digits same (by decide)
      split
      next same => exact absurd rfl (unmarked same).1
      next same => exact absurd rfl (unmarked same).2
      next => rfl

theorem denotes_of_number? {text : String} (h : number? text = some n) :
    Denotes text.toList n ∧ n < 2 ^ 64 := by
  obtain ⟨value, small⟩ := Option.filter_eq_some_iff.1 h
  refine ⟨?_, of_decide_eq_true small⟩
  split at value
  next rest start => exact start ▸ denotes_of_unsigned? .hex value
  next rest start => exact start ▸ denotes_of_unsigned? .capitalHex value
  next => exact denotes_of_unsigned? .decimal value

end Marks

/-! ## Numerals -/

section Numerals

variable {mark sign : List Char} {base : Nat}

theorem exists_digits (gt : 1 < base) (n : Nat) :
    ∃ ds, ds ≠ [] ∧ (∀ d ∈ ds, d < base) ∧ Nat.toDigits base n = ds.map Nat.digitChar ∧
      Nat.ofDigits base ds.reverse = n := by
  induction n using Nat.strong_induction_on with
  | _ n ih =>
    rw [Nat.toDigits_eq_if gt]
    split
    next small => exact ⟨[n], by simp, by simpa using small, rfl, by simp⟩
    next large =>
      obtain ⟨ds, -, small, written, value⟩ := ih (n / base) (Nat.div_lt_self (by omega) gt)
      refine ⟨ds ++ [n % base], by simp, ?_, by simp [written], ?_⟩
      · intro d mem
        rcases List.mem_append.1 mem with mem | mem
        · exact small d mem
        · rw [List.mem_singleton.1 mem]
          exact Nat.mod_lt n (by omega)
      · rw [List.reverse_append, List.reverse_singleton, List.singleton_append, Nat.ofDigits_cons,
          value, Nat.mod_add_div]

/-- A numeral may be in either case, and zeros may stand before it. -/
theorem denotes_numeral (marked : Mark mark base) (signed : Sign sign) (zeros n : Nat)
    {numeral : List Char} (written : numeral = Nat.toDigits base n ∨
      numeral = (Nat.toDigits base n).map Char.toUpper) :
    Denotes (mark ++ (sign ++ (List.replicate zeros '0' ++ numeral))) n := by
  obtain ⟨ds, nonempty, small, shown, rfl⟩ := exists_digits marked.lt_base n
  have digits {f : Nat → Char} (stands : ∀ d < base, Digit base (f d) d) (zero : f 0 = '0') :
      Denotes (mark ++ (sign ++ (List.replicate zeros '0' ++ ds.map f)))
        (Nat.ofDigits base ds.reverse) := by
    have all : ∀ d ∈ List.replicate zeros 0 ++ ds, d < base := by
      intro d mem
      rcases List.mem_append.1 mem with mem | mem
      · rw [List.eq_of_mem_replicate mem]
        exact Nat.zero_lt_of_lt marked.lt_base
      · exact small d mem
    have digits : List.Forall₂ (Digit base) ((List.replicate zeros 0 ++ ds).map f)
        (List.replicate zeros 0 ++ ds) :=
      List.forall₂_map_left_iff.2 (List.forall₂_same.2 fun d mem => stands d (all d mem))
    have longer := Denotes.intro marked signed digits
      (List.append_ne_nil_of_right_ne_nil _ nonempty)
    rwa [List.map_append, List.map_replicate, zero, List.reverse_append, List.reverse_replicate,
      Nat.ofDigits_append_replicate_zero] at longer
  rcases written with rfl | rfl
  · rw [shown]
    exact digits (fun _ => .lower) rfl
  · rw [shown, List.map_map]
    exact digits (fun _ => .upper) rfl

end Numerals

/-- A text is read if and only if it writes a number below 2^64, and then as that number; one that
writes a larger number is refused.  The numerals of a number in either base are read as it, however
many zeros they begin with. -/
theorem number_denoted :
    (∀ text n, number? text = some n ↔ Denotes text.toList n ∧ n < 2 ^ 64) ∧
    (∀ text n, Denotes text.toList n → 2 ^ 64 ≤ n → number? text = none) ∧
    ∀ {mark sign : List Char} {base : Nat}, Mark mark base → Sign sign →
      ∀ (zeros n : Nat) {numeral : List Char},
        numeral = Nat.toDigits base n ∨ numeral = (Nat.toDigits base n).map Char.toUpper →
        number? (.ofList (mark ++ (sign ++ (List.replicate zeros '0' ++ numeral)))) =
          if n < 2 ^ 64 then some n else none := by
  refine ⟨fun text n => ⟨denotes_of_number?, ?_⟩, ?_, ?_⟩
  · rintro ⟨denotes, small⟩
    rw [number?_of_denotes denotes, if_pos small]
  · intro text n denotes large
    rw [number?_of_denotes denotes, if_neg (Nat.not_lt.2 large)]
  · intro mark sign base marked signed zeros n numeral written
    refine number?_of_denotes ?_
    rw [String.toList_ofList]
    exact denotes_numeral marked signed zeros n written

/-- At the bound: the last number that is read, and the first one that is not. -/
theorem number_denoted_at_bound :
    number? "0x+00FFFFFFFFFFFFFFFF" = some 18446744073709551615 ∧
    number? "18446744073709551616" = none ∧
    number? "0X10000000000000000" = none := by
  obtain ⟨-, refuses, numerals⟩ := number_denoted
  have last := numerals .hex .plus 2 18446744073709551615 (.inr rfl)
  refine ⟨last, ?_, numerals .capitalHex .none 0 18446744073709551616 (.inl rfl)⟩
  have denotes := denotes_numeral .decimal .none 0 18446744073709551616 (.inl rfl)
  exact refuses _ _ denotes (Nat.le_refl _)

end Micro8080.CommandLine
